import NexusHub.Deliveries

/-!
# Rotated secrets

A job carries the secret that its producer read, and every attempt of the job is
signed with that one. Producers, rotations and attempts interleave statement by
statement; for each job it is remembered how many rotations there had been when
its producer read the endpoints.
-/

namespace NexusHub

open WebhookProcessor (FetchResult Post deliverWebhook)

/-! ## Rotation -/

namespace WebhooksService

/-- The update of one row by its id. -/
def setSecret (endpoints : List WebhookEndpoint) (endpointId secret : String) : List WebhookEndpoint :=
  endpoints.map fun ep => if ep.id = endpointId then { ep with secret } else ep

def findAndVerifyOwnership (endpoints : List WebhookEndpoint) (userId : UserId) (endpointId : String) :
    Except HttpError WebhookEndpoint := do
  let endpoint ← orFail (endpoints.find? fun ep => ep.id = endpointId) (.notFound "Webhook endpoint not found")
  throwIf (endpoint.userId ≠ userId) (.forbidden "Access denied")
  return endpoint

def rotateSecret (endpoints : List WebhookEndpoint) (userId : UserId) (endpointId newSecret : String) :
    Except HttpError (List WebhookEndpoint) := do
  let _ ← findAndVerifyOwnership endpoints userId endpointId
  return setSecret endpoints endpointId newSecret

/-- The `attempts` that both producers ask for. -/
def deliveryAttempts : Nat := 5

end WebhooksService

open WebhooksService (setSecret deliveryAttempts)

/-! ## Jobs and what was done about them -/

/-- `readAt` rotations had been made when the secret was read. -/
structure QueuedJob where
  job : WebhookJob
  readAt : Nat
  attemptsMade : Nat
  finished : Bool

/-- `rotated` are the endpoints of the rotations so far, `issued` all secrets there have been. -/
structure Hooks where
  world : World
  queue : List QueuedJob
  rotated : List String
  issued : List String

namespace Hooks

def endpoints (c : Hooks) : List WebhookEndpoint := c.world.db.webhookEndpoints

def deliveries (c : Hooks) : List WebhookDelivery := c.world.outbox.deliveries

/-- What is remembered of an operation, by a process whose last read of the endpoints was at `readAt`. -/
def note (c : Hooks) (readAt : Nat) : Op → Hooks × Nat
  | .findEndpoints .. | .findSubscribers _ => (c, c.rotated.length)
  | .enqueueWebhook job => ({ c with queue := c.queue ++ [⟨job, readAt, 0, false⟩] }, readAt)
  | _ => (c, readAt)

def perform (s : Stellar) (x : Hooks × Nat) (o : Op) : (Hooks × Nat) × Except WorkerError o.Res :=
  (note { x.1 with world := (x.1.world.perform s o).1 } x.2 o, (x.1.world.perform s o).2)

/-- A row that is not there is not updated. -/
def rotate (c : Hooks) (endpointId secret : String) : Hooks :=
  if ∃ ep ∈ c.endpoints, ep.id = endpointId then
    { c with
      world := { c.world with
        db := { c.world.db with webhookEndpoints := setSecret c.endpoints endpointId secret } }
      rotated := c.rotated ++ [endpointId]
      issued := c.issued ++ [secret] }
  else c

def attempt (c : Hooks) (i now : Nat) (result : FetchResult) : Hooks :=
  match c.queue[i]? with
  | some q =>
    if q.finished then c
    else
      let a := deliverWebhook q.job q.attemptsMade deliveryAttempts now result c.deliveries
      { c with
        world := { c.world with outbox := { c.world.outbox with deliveries := a.deliveries } }
        queue := c.queue.set i { q with
          attemptsMade := q.attemptsMade + 1
          finished := a.outcome.isOk || deliveryAttempts ≤ q.attemptsMade + 1 } }
  | none => c

end Hooks

/-! ## Interleavings -/

/-- Each process with the time of its last read of the endpoints. -/
structure HookPool where
  hooks : Hooks
  procs : List (Handler Unit × Nat)

inductive HookAction where
  | fire (event : WebhookEvent) (userId : UserId) (payload : WebhookPayload)
  | dispatch (event : String) (payload : WebhookPayload)
  | step (n : Nat) (fault : Fault WorkerError)
  | attempt (i now : Nat) (result : FetchResult)
  /-- The update of `rotateSecret`, or one of those of `transferAdmin`. -/
  | rotate (endpointId secret : String)
  /-- Anything else, as long as it leaves the endpoints and the deliveries alone. -/
  | elsewhere (w : World)

namespace HookPool

def start (w : World) : HookPool := ⟨⟨w, [], [], w.db.webhookEndpoints.map (·.secret)⟩, []⟩

def step (s : Stellar) (c : HookPool) : HookAction → HookPool
  | .fire event userId payload => { c with procs := c.procs ++ [(Worker.fireWebhook event userId payload, 0)] }
  | .dispatch event payload => { c with procs := c.procs ++ [(WebhooksService.dispatchEvent event payload, 0)] }
  | .step n fault =>
    match c.procs[n]?, fault with
    | some (.op o k, t), .none =>
      let done := Hooks.perform s (c.hooks, t) o
      ⟨done.1.1, c.procs.set n (k done.2, done.1.2)⟩
    | some (.op _ k, t), .lost e => { c with procs := c.procs.set n (k (.error e), t) }
    | some (.op o k, t), .late e =>
      let done := Hooks.perform s (c.hooks, t) o
      ⟨done.1.1, c.procs.set n (k (.error e), done.1.2)⟩
    | some _, .crash => { c with procs := c.procs.eraseIdx n }
    | _, _ => c
  | .attempt i now result => { c with hooks := c.hooks.attempt i now result }
  | .rotate endpointId secret => { c with hooks := c.hooks.rotate endpointId secret }
  | .elsewhere w =>
    if w.db.webhookEndpoints = c.hooks.endpoints ∧ w.outbox.deliveries = c.hooks.deliveries then
      { c with hooks := { c.hooks with world := w } }
    else c

/-- The attempt is made for an endpoint, and once that was rotated it is signed with the secret in its row. -/
def Signs (c : HookPool) : HookAction → Prop
  | .attempt i now result => ∀ q ∈ c.hooks.queue[i]?, q.finished = false →
    ∃ d post, ∃ ep ∈ c.hooks.endpoints, q.job.row c.hooks.deliveries = some d ∧ ep.id = d.endpointId ∧
      (deliverWebhook q.job q.attemptsMade deliveryAttempts now result c.hooks.deliveries).post = some post ∧
      (d.endpointId ∈ c.hooks.rotated → post.secret = ep.secret)
  | _ => True

/-- The endpoint was not rotated since the producer of the job read it. -/
def Timely (c : HookPool) : HookAction → Prop
  | .attempt i _ _ => ∀ q ∈ c.hooks.queue[i]?, q.finished = false →
    ∀ d ∈ q.job.row c.hooks.deliveries, d.endpointId ∉ c.hooks.rotated.drop q.readAt
  | _ => True

/-- A new secret is one that there has not been. -/
def Fresh (c : HookPool) : HookAction → Prop
  | .rotate _ secret => secret ∉ c.hooks.issued
  | _ => True

instance Timely.decidable (c : HookPool) : (a : HookAction) → Decidable (c.Timely a)
  | .attempt i _ _ => inferInstanceAs (Decidable (∀ q ∈ c.hooks.queue[i]?, q.finished = false →
      ∀ d ∈ q.job.row c.hooks.deliveries, d.endpointId ∉ c.hooks.rotated.drop q.readAt))
  | .fire .. | .dispatch .. | .step .. | .rotate .. | .elsewhere .. => .isTrue trivial

instance Fresh.decidable (c : HookPool) : (a : HookAction) → Decidable (c.Fresh a)
  | .rotate _ secret => inferInstanceAs (Decidable (secret ∉ c.hooks.issued))
  | .fire .. | .dispatch .. | .step .. | .attempt .. | .elsewhere .. => .isTrue trivial

end HookPool

/-! ## What stays of a secret that was read -/

def Hooks.Ok (c : Hooks) : Prop := ∀ ep ∈ c.endpoints, ep.secret ∈ c.issued

/-- `secret` was in the row of the endpoint after `t` rotations. If all new secrets
were fresh (`F`), it is not there any more once the endpoint was rotated again. -/
structure Hooks.Captured (F : Prop) (c : Hooks) (t : Nat) (endpointId secret : String) : Prop where
  time : t ≤ c.rotated.length
  issued : secret ∈ c.issued
  current : endpointId ∉ c.rotated.drop t → ∃ ep ∈ c.endpoints, ep.id = endpointId ∧ ep.secret = secret
  stale : F → endpointId ∈ c.rotated.drop t → ∀ ep ∈ c.endpoints, ep.id = endpointId → ep.secret ≠ secret

/-- Deliveries stay, for the endpoints they are for. -/
def RowsFor (ds ds' : List WebhookDelivery) : Prop :=
  ∀ (n : Nat) (d : WebhookDelivery), ds[n]? = some d →
    ∃ d' : WebhookDelivery, ds'[n]? = some d' ∧ d'.endpointId = d.endpointId

structure Hooks.Later (F : Prop) (c c' : Hooks) : Prop where
  ok : c.Ok → c'.Ok
  captured : ∀ t endpointId secret, c.Captured F t endpointId secret → c'.Captured F t endpointId secret
  rows : RowsFor c.deliveries c'.deliveries

namespace Hooks

variable {F : Prop} {c c' c'' : Hooks}

theorem Later.trans (h : c.Later F c') (h' : c'.Later F c'') : c.Later F c'' where
  ok hc := h'.ok (h.ok hc)
  captured _ _ _ hc := h'.captured _ _ _ (h.captured _ _ _ hc)
  rows n d hd := by
    obtain ⟨d₁, hd₁, he₁⟩ := h.rows n d hd
    obtain ⟨d₂, hd₂, he₂⟩ := h'.rows n d₁ hd₁
    exact ⟨d₂, hd₂, he₂.trans he₁⟩

theorem later_of_same (he : c'.endpoints = c.endpoints) (hr : c'.rotated = c.rotated) (hi : c'.issued = c.issued)
    (hrows : RowsFor c.deliveries c'.deliveries) : c.Later F c' where
  ok h := by
    rw [Ok, he, hi]
    exact h
  captured _ _ _ h := ⟨hr ▸ h.time, hi ▸ h.issued, he ▸ hr ▸ h.current, he ▸ hr ▸ h.stale⟩
  rows := hrows

theorem Later.refl (c : Hooks) : c.Later F c := later_of_same rfl rfl rfl fun _ d hd => ⟨d, hd, rfl⟩

/-- As it is read, a secret is the current one. -/
theorem Ok.captured (h : c.Ok) {ep : WebhookEndpoint} (hep : ep ∈ c.endpoints) :
    c.Captured F c.rotated.length ep.id ep.secret where
  time := le_refl _
  issued := h ep hep
  current _ := ⟨ep, hep, rfl, rfl⟩
  stale _ hmem := by rw [List.drop_length] at hmem; cases hmem

/-! ### Operations, attempts and rotations -/

theorem note_eq (c : Hooks) (t : Nat) (o : Op) :
    (note c t o).1.world = c.world ∧ (note c t o).1.rotated = c.rotated ∧ (note c t o).1.issued = c.issued := by
  cases o <;> exact ⟨rfl, rfl, rfl⟩

theorem later_perform (s : Stellar) (t : Nat) (o : Op) : c.Later F (perform s (c, t) o).1.1 := by
  obtain ⟨hw, hr, hi⟩ := note_eq { c with world := (c.world.perform s o).1 } t o
  have hext : Extends c.world (c.world.perform s o).1 := by
    by_cases ho : o.NotEnqueue
    · exact (perform_extends ho).1
    · cases o with
      | enqueueWebhook => exact ⟨⟨[], (List.append_nil _).symm⟩, rfl⟩
      | _ => exact absurd trivial ho
  refine later_of_same ?_ hr hi fun n d hd => ⟨d, ?_, rfl⟩
  · rw [perform, endpoints, hw]
    exact hext.endpoints
  · obtain ⟨ds, hds⟩ := hext.rows
    obtain ⟨hlt, -⟩ := List.getElem?_eq_some_iff.mp hd
    rw [perform, deliveries, hw]
    change (c.world.perform s o).1.outbox.deliveries[n]? = some d
    rw [hds]
    exact (List.getElem?_append_left hlt).trans hd

theorem update_keeps {ds ds' : List WebhookDelivery} {id : Option Nat} {f : WebhookDelivery → WebhookDelivery}
    (h : WebhookProcessor.update ds id f = .ok ds') (hf : ∀ d, (f d).endpointId = d.endpointId) :
    RowsFor ds ds' := by
  intro n d hd
  unfold WebhookProcessor.update at h
  split at h
  · split at h
    · rename_i m _ d₀ hm
      cases h
      rw [List.getElem?_set]
      by_cases hmn : m = n
      · subst hmn
        obtain ⟨hlt, -⟩ := List.getElem?_eq_some_iff.mp hd
        obtain rfl := Option.some.inj (hm.symm.trans hd)
        exact ⟨_, by rw [if_pos rfl, if_pos hlt], hf _⟩
      · exact ⟨d, by rw [if_neg hmn]; exact hd, rfl⟩
    · cases h
  · cases h

theorem deliver_keeps (job : WebhookJob) (k limit now : Nat) (result : FetchResult) (ds : List WebhookDelivery) :
    RowsFor ds (deliverWebhook job k limit now result ds).deliveries := by
  have hsame : RowsFor ds ds := fun _ d hd => ⟨d, hd, rfl⟩
  have hfail (post code body error) : RowsFor ds
      (WebhookProcessor.recordFailure job k limit now ds post code body error).deliveries := by
    unfold WebhookProcessor.recordFailure
    split
    · rename_i h
      exact update_keeps h fun _ => rfl
    · exact hsame
  unfold deliverWebhook
  split
  · exact hsame
  · dsimp only
    split
    · exact hfail _ _ _ _
    · exact hfail _ _ _ _
    · split
      · split
        · rename_i h
          exact update_keeps h fun _ => rfl
        · exact hfail _ _ _ _
      · exact hfail _ _ _ _

theorem later_attempt (c : Hooks) (i now : Nat) (result : FetchResult) : c.Later F (c.attempt i now result) := by
  unfold attempt
  split
  · split
    · exact .refl c
    · exact later_of_same rfl rfl rfl (deliver_keeps _ _ _ _ _ _)
  · exact .refl c

theorem mem_setSecret {eps : List WebhookEndpoint} {endpointId secret : String} {ep : WebhookEndpoint}
    (h : ep ∈ setSecret eps endpointId secret) : ∃ ep₀ ∈ eps, ep.id = ep₀.id ∧
      (ep₀.id = endpointId → ep.secret = secret) ∧ (ep₀.id ≠ endpointId → ep = ep₀) := by
  obtain ⟨ep₀, h₀, rfl⟩ := List.mem_map.mp h
  by_cases hid : ep₀.id = endpointId
  · exact ⟨ep₀, h₀, by rw [if_pos hid], fun _ => by rw [if_pos hid], fun hne => absurd hid hne⟩
  · exact ⟨ep₀, h₀, by rw [if_neg hid], fun he => absurd he hid, fun _ => if_neg hid⟩

theorem mem_setSecret_of_ne {eps : List WebhookEndpoint} {endpointId secret : String} {ep : WebhookEndpoint}
    (h : ep ∈ eps) (hne : ep.id ≠ endpointId) : ep ∈ setSecret eps endpointId secret :=
  List.mem_map.mpr ⟨ep, h, if_neg hne⟩

theorem later_rotate {endpointId secret : String} (hfresh : F → secret ∉ c.issued) :
    c.Later F (c.rotate endpointId secret) := by
  unfold rotate
  split
  · refine ⟨fun h ep hep => ?_, fun t id old h => ?_, fun n d hd => ⟨d, hd, rfl⟩⟩
    · obtain ⟨ep₀, h₀, -, hnew, hold⟩ := mem_setSecret hep
      by_cases hid : ep₀.id = endpointId
      · exact List.mem_append_right _ (List.mem_singleton.mpr (hnew hid))
      · rw [hold hid]
        exact List.mem_append_left _ (h ep₀ h₀)
    · have hdrop : (c.rotated ++ [endpointId]).drop t = c.rotated.drop t ++ [endpointId] :=
        List.drop_append_of_le_length h.time
      refine ⟨h.time.trans (by simp), List.mem_append_left _ h.issued, fun hnot => ?_,
        fun hF hmem ep hep hid => ?_⟩
      · rw [hdrop, List.mem_append, List.mem_singleton, not_or] at hnot
        obtain ⟨ep, hep, hid, hsecret⟩ := h.current hnot.1
        exact ⟨ep, mem_setSecret_of_ne hep (hid ▸ hnot.2), hid, hsecret⟩
      · rw [hdrop, List.mem_append, List.mem_singleton] at hmem
        obtain ⟨ep₀, h₀, hid₀, hnew, hold⟩ := mem_setSecret hep
        by_cases he : ep₀.id = endpointId
        · rw [hnew he]
          exact fun heq => hfresh hF (heq ▸ h.issued)
        · rw [hold he]
          exact h.stale hF (hmem.resolve_right fun h' => he (hid₀ ▸ hid ▸ h')) ep₀ h₀ (hid₀ ▸ hid)
  · exact .refl c

end Hooks

/-! ## What producers queue -/

def hookMachine (s : Stellar) : Machine Op Op.Res WorkerError (Hooks × Nat) Empty where
  perform := Hooks.perform s
  env _ i := i.elim

/-- What the others do while a process waits for its next operation. -/
def Hooks.Rely (F : Prop) (x y : Hooks × Nat) : Prop := y.2 = x.2 ∧ x.1.Later F y.1

/-- The job is one for a delivery, with a secret that its endpoint had after `t` rotations. -/
def Hooks.Backed (F : Prop) (c : Hooks) (t : Nat) (job : WebhookJob) : Prop :=
  ∃ n url secret d, job.deliveryId = some n ∧ job.url = some url ∧ job.secret = some secret ∧
    c.deliveries[n]? = some d ∧ c.Captured F t d.endpointId secret

def Hooks.QueuesBacked (F : Prop) (x : Hooks × Nat) : Op → Prop
  | .enqueueWebhook job => x.1.Backed F x.2 job
  | _ => True

section
variable {F : Prop} {s : Stellar} {c c' : Hooks} {t : Nat}

theorem Hooks.Backed.later {job : WebhookJob} (h : c.Backed F t job) (hl : c.Later F c') : c'.Backed F t job := by
  obtain ⟨n, url, secret, d, hid, hurl, hsecret, hd, hc⟩ := h
  obtain ⟨d', hd', he⟩ := hl.rows n d hd
  exact ⟨n, url, secret, d', hid, hurl, hsecret, hd', he ▸ hl.captured _ _ _ hc⟩

abbrev Handler.JobsBacked (F : Prop) (s : Stellar) {α : Type} (p : Handler α) (x : Hooks × Nat) : Prop :=
  Prog.Safe (hookMachine s) (Hooks.Rely F) (Hooks.QueuesBacked F) p x

theorem backed_deliverTo (event : WebhookEvent) (payload : WebhookPayload) {eps : List WebhookEndpoint}
    (h : ∀ ep ∈ eps, c.Captured F t ep.id ep.secret) : (Worker.deliverTo event payload eps).JobsBacked F s (c, t) := by
  induction eps generalizing c with
  | nil => trivial
  | cons ep rest ih =>
    refine Prog.safe_call_bind (fun _ _ => trivial) fun x n hx hn => ?_
    obtain ⟨c₁, t₁⟩ := x
    obtain ⟨rfl, hl⟩ : t₁ = t ∧ c.Later F c₁ := hx
    cases hn
    have hcreated := Hooks.later_perform (F := F) s t₁ (c := c₁)
      (.createDelivery { endpointId := ep.id, event, payload, status := .pending })
    have hrow : ((hookMachine s).perform (c₁, t₁) (.createDelivery
        { endpointId := ep.id, event, payload, status := .pending })).1.1.deliveries[c₁.deliveries.length]? =
        some { endpointId := ep.id, event, payload, status := .pending } := List.getElem?_concat_length
    refine Prog.safe_call_bind (fun y hy => ?_) fun y _ hy _ => ?_
    · obtain ⟨d, hd, he⟩ := hy.2.rows _ _ hrow
      have hc := (hl.trans (hcreated.trans hy.2)).captured _ _ _ (h ep (.head _))
      refine ⟨_, _, _, d, rfl, rfl, rfl, hd, ?_⟩
      rw [he, hy.1]
      exact hc
    · obtain ⟨c₂, t₂⟩ := y
      obtain ⟨rfl, hl₂⟩ : t₂ = t₁ ∧ _ := hy
      have hall := hl.trans (hcreated.trans (hl₂.trans (Hooks.later_perform (F := F) s t₂ (.enqueueWebhook
        ⟨some c₁.deliveries.length, some ep.url, some ep.secret, event, payload⟩))))
      exact ih fun ep' hep => hall.captured _ _ _ (h ep' (.tail _ hep))

theorem backed_fireWebhook (hc : c.Ok) (event : WebhookEvent) (userId : UserId) (payload : WebhookPayload) :
    (Worker.fireWebhook event userId payload).JobsBacked F s (c, t) := by
  refine Prog.safe_call_bind (fun _ _ => trivial) fun x eps hx hr => ?_
  cases hr
  exact backed_deliverTo event payload fun ep hep => (hx.2.ok hc).captured (List.mem_of_mem_filter hep)

theorem backed_dispatchEvent (hc : c.Ok) (event : String) (payload : WebhookPayload) :
    (WebhooksService.dispatchEvent event payload).JobsBacked F s (c, t) := by
  unfold WebhooksService.dispatchEvent
  cases WebhookEvent.ofText event with
  | none => trivial
  | some event =>
    refine Prog.safe_call_bind (fun _ _ => trivial) fun x eps hx hr => ?_
    cases hr
    exact backed_deliverTo event payload fun ep hep => (hx.2.ok hc).captured (List.mem_of_mem_filter hep)

/-! ## A step of the pool -/

/-- Jobs in the queue are backed, and what producers under way will queue is. -/
structure HookPool.Inv (F : Prop) (s : Stellar) (c : HookPool) : Prop where
  ok : c.hooks.Ok
  queue : ∀ q ∈ c.hooks.queue, c.hooks.Backed F q.readAt q.job
  procs : ∀ p ∈ c.procs, p.1.JobsBacked F s (c.hooks, p.2)

theorem Hooks.Rely.trans {x y z : Hooks × Nat} (h : Hooks.Rely F x y) (h' : Hooks.Rely F y z) : Hooks.Rely F x z :=
  ⟨h'.1.trans h.1, h.2.trans h'.2⟩

theorem queue_perform {o : Op} {q : QueuedJob} (h : q ∈ (Hooks.perform s (c, t) o).1.1.queue) :
    q ∈ c.queue ∨ ∃ job, o = .enqueueWebhook job ∧ q = ⟨job, t, 0, false⟩ := by
  cases o with
  | enqueueWebhook job =>
    rcases List.mem_append.mp h with h | h
    · exact .inl h
    · exact .inr ⟨job, rfl, List.mem_singleton.mp h⟩
  | _ => exact .inl h

theorem queue_rotate (endpointId secret : String) : (c.rotate endpointId secret).queue = c.queue := by
  unfold Hooks.rotate
  split <;> rfl

theorem queue_attempt {i now : Nat} {result : FetchResult} {q : QueuedJob}
    (h : q ∈ (c.attempt i now result).queue) : ∃ q₀ ∈ c.queue, q.job = q₀.job ∧ q.readAt = q₀.readAt := by
  unfold Hooks.attempt at h
  split at h
  · rename_i q₀ hq₀
    split at h
    · exact ⟨q, h, rfl, rfl⟩
    · rcases List.mem_or_eq_of_mem_set h with h | rfl
      · exact ⟨q, h, rfl, rfl⟩
      · exact ⟨q₀, List.mem_of_getElem? hq₀, rfl, rfl⟩
  · exact ⟨q, h, rfl, rfl⟩

namespace HookPool

variable {p p' : HookPool}

theorem Inv.later (h : p.Inv F s) (hl : p.hooks.Later F p'.hooks)
    (hqueue : ∀ q ∈ p'.hooks.queue, (∃ q₀ ∈ p.hooks.queue, q.job = q₀.job ∧ q.readAt = q₀.readAt) ∨
      p'.hooks.Backed F q.readAt q.job)
    (hprocs : ∀ x ∈ p'.procs, x ∈ p.procs ∨ x.1.JobsBacked F s (p'.hooks, x.2)) : p'.Inv F s where
  ok := hl.ok h.ok
  queue q hq := by
    rcases hqueue q hq with ⟨q₀, hq₀, hjob, hread⟩ | hb
    · rw [hjob, hread]
      exact (h.queue q₀ hq₀).later hl
    · exact hb
  procs x hx := by
    rcases hprocs x hx with hx | hb
    · exact Prog.Safe.later (R := Hooks.Rely F) Hooks.Rely.trans (h.procs x hx) ⟨rfl, hl⟩
    · exact hb

/-- One operation of a process, whatever is heard of it. -/
theorem Inv.perform (h : p.Inv F s) {n t : Nat} {o : Op} {k : Except WorkerError o.Res → Handler Unit}
    (hp : p.procs[n]? = some (.op o k, t)) {next : Handler Unit}
    (hnext : next.JobsBacked F s (Hooks.perform s (p.hooks, t) o).1) :
    Inv F s ⟨(Hooks.perform s (p.hooks, t) o).1.1,
      p.procs.set n (next, (Hooks.perform s (p.hooks, t) o).1.2)⟩ := by
  have hl := Hooks.later_perform (F := F) s t o (c := p.hooks)
  refine h.later hl (fun q hq => ?_) fun x hx => ?_
  · rcases queue_perform hq with hq | ⟨job, rfl, rfl⟩
    · exact .inl ⟨q, hq, rfl, rfl⟩
    · obtain ⟨hok, -⟩ := h.procs _ (List.mem_of_getElem? hp) (p.hooks, t) ⟨rfl, .refl _⟩
      exact .inr (Hooks.Backed.later hok hl)
  · rcases List.mem_or_eq_of_mem_set hx with hx | rfl
    · exact .inl hx
    · exact .inr hnext

theorem Inv.step (h : p.Inv F s) (a : HookAction) (hfresh : F → p.Fresh a) : (p.step s a).Inv F s := by
  have hsame : ∀ q ∈ p.hooks.queue, ∃ q₀ ∈ p.hooks.queue, q.job = q₀.job ∧ q.readAt = q₀.readAt :=
    fun q hq => ⟨q, hq, rfl, rfl⟩
  have hspawn {q : Handler Unit} (hq : q.JobsBacked F s (p.hooks, 0)) :
      Inv F s { p with procs := p.procs ++ [(q, 0)] } := by
    refine h.later (.refl _) (fun q hq => .inl (hsame q hq)) fun x hx => ?_
    rcases List.mem_append.mp hx with hx | hx
    · exact .inl hx
    · obtain rfl := List.mem_singleton.mp hx
      exact .inr hq
  cases a with
  | fire event userId payload => exact hspawn (backed_fireWebhook h.ok event userId payload)
  | dispatch event payload => exact hspawn (backed_dispatchEvent h.ok event payload)
  | step n fault =>
    simp only [HookPool.step]
    split
    · rename_i o k t hp
      obtain ⟨-, -, hnext⟩ := h.procs _ (List.mem_of_getElem? hp) (p.hooks, t) ⟨rfl, .refl _⟩
      exact h.perform hp hnext
    · rename_i o k t e hp
      obtain ⟨-, hnext, -⟩ := h.procs _ (List.mem_of_getElem? hp) (p.hooks, t) ⟨rfl, .refl _⟩
      refine h.later (.refl _) (fun q hq => .inl (hsame q hq)) fun x hx => ?_
      rcases List.mem_or_eq_of_mem_set hx with hx | rfl
      · exact .inl hx
      · exact .inr (hnext e).1
    · rename_i o k t e hp
      obtain ⟨-, hnext, -⟩ := h.procs _ (List.mem_of_getElem? hp) (p.hooks, t) ⟨rfl, .refl _⟩
      exact h.perform hp (hnext e).2
    · exact h.later (.refl _) (fun q hq => .inl (hsame q hq)) fun x hx => .inl (List.mem_of_mem_eraseIdx hx)
    · exact h
  | attempt i now result =>
    exact h.later (Hooks.later_attempt _ _ _ _) (fun q hq => .inl (queue_attempt hq)) fun x hx => .inl hx
  | rotate endpointId secret =>
    refine h.later (Hooks.later_rotate hfresh) (fun q hq => ?_) fun x hx => .inl hx
    exact .inl (hsame q (queue_rotate endpointId secret ▸ hq))
  | elsewhere w =>
    simp only [HookPool.step]
    split
    · rename_i hw
      refine h.later (Hooks.later_of_same hw.1 rfl rfl fun n d hd => ⟨d, ?_, rfl⟩)
        (fun q hq => .inl (hsame q hq)) fun x hx => .inl hx
      rw [Hooks.deliveries, hw.2]
      exact hd
    · exact h

theorem inv_start (w : World) : (start w).Inv F s where
  ok ep hep := List.mem_map.mpr ⟨ep, hep, rfl⟩
  queue _ hq := nomatch hq
  procs _ hp := nomatch hp

/-! ## Which secret signs -/

theorem deliver_post {job : WebhookJob} {url secret : String} (hurl : job.url = some url)
    (hsecret : job.secret = some secret) (k limit now : Nat) (result : FetchResult) (ds : List WebhookDelivery) :
    (deliverWebhook job k limit now result ds).post =
      some ⟨url, secret, job.event, job.payload, now, job.deliveryId⟩ := by
  have hfail (post code body error) :
      (WebhookProcessor.recordFailure job k limit now ds post code body error).post = post := by
    unfold WebhookProcessor.recordFailure
    split <;> rfl
  unfold deliverWebhook
  simp only [hsecret, hurl, Option.map_some, Option.isSome_some, if_true]
  cases result with
  | failed error => exact hfail _ _ _ _
  | unread status error => exact hfail _ _ _ _
  | answered status body =>
    dsimp only
    split
    · split
      · rfl
      · exact hfail _ _ _ _
    · exact hfail _ _ _ _

theorem Inv.signs (h : p.Inv F s) {a : HookAction} (ht : p.Timely a) : p.Signs a := by
  cases a with
  | attempt i now result =>
    intro q hq hopen
    obtain ⟨n, url, secret, d, hid, hurl, hsecret, hd, hc⟩ := h.queue q (List.mem_of_getElem? hq)
    have hrow : q.job.row p.hooks.deliveries = some d := by rw [WebhookJob.row, hid]; exact hd
    obtain ⟨ep, hep, he, hcurrent⟩ := hc.current (ht q hq hopen d hrow)
    exact ⟨d, _, ep, hep, hrow, he, deliver_post hurl hsecret _ _ _ _ _, fun _ => hcurrent.symm⟩
  | _ => trivial

/-- With fresh secrets only a timely attempt is signed with the current one. -/
theorem Inv.timely (h : p.Inv True s) {a : HookAction} (ha : p.Signs a) : p.Timely a := by
  cases a with
  | attempt i now result =>
    intro q hq hopen d hd hmem
    obtain ⟨n, url, secret, d', hid, hurl, hsecret, hd', hc⟩ := h.queue q (List.mem_of_getElem? hq)
    obtain ⟨d₁, post, ep, hep, hrow, he, hpost, hcurrent⟩ := ha q hq hopen
    obtain rfl := Option.some.inj (hrow.symm.trans hd)
    have hdd : d' = d₁ := by
      rw [WebhookJob.row, hid] at hd
      exact Option.some.inj (hd'.symm.trans hd)
    rw [deliver_post hurl hsecret] at hpost
    cases hpost
    subst hdd
    exact hc.stale trivial hmem ep hep he (hcurrent (List.mem_of_mem_drop hmem)).symm
  | _ => trivial

/-- Every attempt after a rotation is signed with the current secret if none is made of a job
whose endpoint was rotated since it was read, and, new secrets being fresh, only if. -/
theorem rotation_effective_iff (s : Stellar) (w : World) (as : List HookAction) :
    (Meets (HookPool.step s) Timely (start w) as → Meets (HookPool.step s) Signs (start w) as) ∧
      (Meets (HookPool.step s) Fresh (start w) as →
        (Meets (HookPool.step s) Signs (start w) as ↔ Meets (HookPool.step s) Timely (start w) as)) := by
  have hstep (F : Prop) (p : HookPool) (a : HookAction) (hfresh : F → p.Fresh a) (h : p.Inv F s) :
      (p.step s a).Inv F s := h.step a hfresh
  have hsigns : Meets (HookPool.step s) Timely (start w) as → Meets (HookPool.step s) Signs (start w) as :=
    (meets_true as).imp (Inv False s) (fun p a _ => hstep False p a False.elim) (fun _ _ h => h.signs)
      (inv_start w)
  refine ⟨hsigns, fun hfresh => ⟨fun h => ?_, hsigns⟩⟩
  exact hfresh.imp (Inv True s) (fun p a hf => hstep True p a fun _ => hf) (fun _ _ h => h.timely) (inv_start w) h

end HookPool

end

/-- An event for the endpoint of `sampleSubscribed`, up to the job in the queue. -/
def sampleFired : List HookAction :=
  [.fire .disputeOpened "freelancer" (.other "{}"), .step 0 .none, .step 0 .none, .step 0 .none]

theorem sample_signed : Meets (HookPool.step sampleStellar) HookPool.Signs (HookPool.start sampleSubscribed)
    (.rotate "endpoint" "new key" :: sampleFired ++
      [.attempt 0 0 (.answered 500 ""), .attempt 0 9 (.answered 200 "")]) :=
  (HookPool.rotation_effective_iff sampleStellar sampleSubscribed _).1 (by decide +kernel)

/-- The secret is rotated while the job is in the queue. -/
theorem old_key_signs : ¬ ∀ (s : Stellar) (w : World) (as : List HookAction),
    Meets (HookPool.step s) HookPool.Fresh (HookPool.start w) as →
    Meets (HookPool.step s) HookPool.Signs (HookPool.start w) as := by
  intro h
  have hsigns := h sampleStellar sampleSubscribed
    (sampleFired ++ [.rotate "endpoint" "new key", .attempt 0 0 (.answered 200 "")]) (by decide +kernel)
  obtain ⟨-, -, hattempt, -⟩ := (meets_append _ _).mp hsigns
  obtain ⟨d, post, ep, hep, hrow, -, hpost, hsecret⟩ := hattempt _ rfl rfl
  cases hrow
  cases hpost
  obtain rfl := List.mem_singleton.mp hep
  exact absurd (hsecret (.head _)) (by decide)

/-! ## Rotations of the services -/

theorem Hooks.rotate_endpoints (c : Hooks) (endpointId secret : String) :
    (c.rotate endpointId secret).endpoints = setSecret c.endpoints endpointId secret := by
  unfold rotate
  split
  · rfl
  · rename_i hnone
    have hsame : c.endpoints.map (fun ep => if ep.id = endpointId then { ep with secret } else ep) =
        c.endpoints.map id :=
      List.map_congr_left fun ep hep => if_neg fun hid => hnone ⟨ep, hep, hid⟩
    rw [setSecret, hsame, List.map_id]

/-- One rotation after the other. -/
theorem Hooks.rotations_endpoints (secretOf : String → String) (ids : List String) (c : Hooks) :
    (ids.foldl (fun c id => c.rotate id (secretOf id)) c).endpoints =
      c.endpoints.map fun ep => if ep.id ∈ ids then { ep with secret := secretOf ep.id } else ep := by
  induction ids generalizing c with
  | nil => simp
  | cons id ids ih =>
    rw [List.foldl_cons, ih, rotate_endpoints, setSecret, List.map_map]
    refine List.map_congr_left fun ep _ => ?_
    by_cases he : ep.id = id
    · simp [he]
    · simp [he]

theorem WebhooksService.findAndVerifyOwnership_ok {endpoints : List WebhookEndpoint} {userId : UserId}
    {endpointId : String} {ep : WebhookEndpoint} : findAndVerifyOwnership endpoints userId endpointId = .ok ep ↔
      endpoints.find? (fun ep => ep.id = endpointId) = some ep ∧ ep.userId = userId := by
  simp only [findAndVerifyOwnership, except_bind_ok, throwIf_ok, orFail_ok, except_pure_ok, exists_const, not_not]
  constructor
  · rintro ⟨_, hfind, huser, rfl⟩
    exact ⟨hfind, huser⟩
  · rintro ⟨hfind, huser⟩
    exact ⟨ep, hfind, huser, rfl⟩

theorem WebhooksService.rotateSecret_rotates {c : Hooks} {userId : UserId} {endpointId secret : String}
    {eps : List WebhookEndpoint} (h : rotateSecret c.endpoints userId endpointId secret = .ok eps) :
    eps = (c.rotate endpointId secret).endpoints ∧
      ∃ ep ∈ c.endpoints, ep.id = endpointId ∧ ep.userId = userId := by
  simp only [rotateSecret, except_bind_ok, except_pure_ok] at h
  obtain ⟨ep, hfound, rfl⟩ := h
  obtain ⟨hfind, huser⟩ := findAndVerifyOwnership_ok.mp hfound
  refine ⟨(c.rotate_endpoints endpointId secret).symm, ep, List.mem_of_find?_eq_some hfind, ?_, huser⟩
  simpa using List.find?_some hfind

/-- Both parties' active endpoints are rotated. -/
theorem EscrowService.transferAdmin_rotates {c : Hooks} (hids : (c.endpoints.map (·.id)).Nodup) {adminId : UserId}
    {escrowId : Uuid} {secretOf : String → String} {res : Response}
    (h : transferAdmin c.world.db adminId escrowId secretOf = .ok res) :
    ∃ (e : Escrow) (ids : List String), c.world.db.escrows.lookup escrowId = some e ∧
      res.db.webhookEndpoints = (ids.foldl (fun c id => c.rotate id (secretOf id)) c).endpoints ∧
      ∀ ep ∈ c.endpoints, ep.id ∈ ids ↔ (ep.userId = e.clientId ∨ ep.userId = e.freelancerId) ∧ ep.isActive := by
  simp only [transferAdmin, findEscrow, except_bind_ok, throwIf_ok, orFail_ok, inTransaction_ok, createAuditLog_ok,
    except_pure_ok, exists_const] at h
  obtain ⟨e, he, -, _, ⟨-, rfl⟩, rfl⟩ := h
  let party (ep : WebhookEndpoint) : Prop := (ep.userId = e.clientId ∨ ep.userId = e.freelancerId) ∧ ep.isActive
  have hmem : ∀ ep ∈ c.endpoints, ep.id ∈ (c.endpoints.filter fun ep => party ep).map (·.id) ↔ party ep := by
    intro ep hep
    refine ⟨fun hm => ?_, fun hparty => ?_⟩
    · obtain ⟨ep', hep', hid⟩ := List.mem_map.mp hm
      obtain ⟨hep', hparty⟩ := List.mem_filter.mp hep'
      exact List.inj_on_of_nodup_map hids hep' hep hid ▸ of_decide_eq_true hparty
    · exact List.mem_map.mpr ⟨ep, List.mem_filter.mpr ⟨hep, decide_eq_true hparty⟩, rfl⟩
  refine ⟨e, _, he, ?_, hmem⟩
  rw [Hooks.rotations_endpoints]
  exact List.map_congr_left fun ep hep => if_congr (hmem ep hep).symm rfl rfl

end NexusHub
