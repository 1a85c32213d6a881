import NexusHub.Effects
import NexusHub.Requests

/-!
# Webhooks

Who puts jobs on the webhook queue, and what the webhook processor does with
one. The worker and the webhook service write a delivery row for each endpoint
and queue a job that names the row, the url and the secret. The jobs of the
dispute service name none of them, and the processor fails on each before it
has anything to record.
-/

namespace NexusHub

/-! ## The webhook service -/

def WebhookEvent.ofText : String → Option WebhookEvent
  | "TOPUP_COMPLETED" => some .topupCompleted
  | "TOPUP_FAILED" => some .topupFailed
  | "PAYMENT_COMPLETED" => some .paymentCompleted
  | "ESCROW_FUNDED" => some .escrowFunded
  | "ESCROW_RELEASED" => some .escrowReleased
  | "ESCROW_REFUNDED" => some .escrowRefunded
  | "ESCROW_EXPIRED" => some .escrowExpired
  | "MILESTONE_COMPLETED" => some .milestoneCompleted
  | "WITHDRAWAL_COMPLETED" => some .withdrawalCompleted
  | "WITHDRAWAL_FAILED" => some .withdrawalFailed
  | "DISPUTE_OPENED" => some .disputeOpened
  | "DISPUTE_RESOLVED" => some .disputeResolved
  | _ => none

/-- The database client refuses a text that is no event. -/
def WebhooksService.dispatchEvent (event : String) (payload : WebhookPayload) : Handler Unit := do
  let event ← orThrow (WebhookEvent.ofText event) .badValue
  let endpoints ← perform (.findSubscribers event)
  Worker.deliverTo event payload endpoints

/-! ## The webhook processor -/

namespace WebhookProcessor

inductive FetchResult where
  /-- No connection, or none in time. -/
  | failed (error : String)
  /-- The status came, the body did not. -/
  | unread (status : Nat) (error : String)
  | answered (status : Nat) (body : String)

/-- The body is made of `event`, `payload` and `timestamp`, and signed with `secret`. -/
structure Post where
  url : String
  secret : String
  event : WebhookEvent
  payload : WebhookPayload
  timestamp : Nat
  deliveryId : Option Nat
  deriving DecidableEq

inductive DeliveryError where
  /-- The hash takes no key that is undefined. -/
  | badSecret
  | database (e : DbError)
  | failed (message : String)
  deriving DecidableEq

/-- One attempt: what was posted, the delivery rows it leaves, and how it ended. -/
structure Attempt where
  post : Option Post
  deliveries : List WebhookDelivery
  outcome : Except DeliveryError Unit

def update (deliveries : List WebhookDelivery) (deliveryId : Option Nat)
    (f : WebhookDelivery → WebhookDelivery) : Except DbError (List WebhookDelivery) :=
  match deliveryId with
  | some n =>
    match deliveries[n]? with
    | some d => .ok (deliveries.set n (f d))
    | none => .error .recordNotFound
  | none => .error .recordNotFound

/-- `attemptsMade` counts the attempts before this one, of `attempts`. -/
def isLastAttempt (attemptsMade attempts : Nat) : Bool := attemptsMade + 1 ≥ attempts

def markDelivered (attemptsMade now status : Nat) (body : String) (d : WebhookDelivery) : WebhookDelivery :=
  { d with
    status := .delivered
    responseCode := some status
    responseBody := some body
    attempts := attemptsMade + 1
    deliveredAt := some now }

def markFailed (attemptsMade attempts now : Nat) (responseCode : Option Nat) (responseBody : Option String)
    (error : String) (d : WebhookDelivery) : WebhookDelivery :=
  { d with
    status := if isLastAttempt attemptsMade attempts then .failed else .retrying
    responseCode
    responseBody := some (responseBody.getD error)
    attempts := attemptsMade + 1
    nextRetryAt :=
      if isLastAttempt attemptsMade attempts then none else some (now + 10000 * 2 ^ attemptsMade) }

def recordFailure (job : WebhookJob) (attemptsMade attempts now : Nat) (deliveries : List WebhookDelivery)
    (post : Option Post) (responseCode : Option Nat) (responseBody : Option String) (error : String) : Attempt :=
  match update deliveries job.deliveryId (markFailed attemptsMade attempts now responseCode responseBody error) with
  | .ok deliveries => ⟨post, deliveries, .error (.failed error)⟩
  | .error e => ⟨post, deliveries, .error (.database e)⟩

/-- The body is signed before the `try` block: without a secret no row is written. -/
def deliverWebhook (job : WebhookJob) (attemptsMade attempts now : Nat) (result : FetchResult)
    (deliveries : List WebhookDelivery) : Attempt :=
  match job.secret with
  | none => ⟨none, deliveries, .error .badSecret⟩
  | some secret =>
    let post := job.url.map fun url => ⟨url, secret, job.event, job.payload, now, job.deliveryId⟩
    let failure := recordFailure job attemptsMade attempts now deliveries post
    match (if job.url.isSome then result else .failed "Failed to parse URL from undefined") with
    | .failed error => failure none none error
    | .unread status error => failure (some status) none error
    | .answered status body =>
      if 200 ≤ status ∧ status < 300 then
        match update deliveries job.deliveryId (markDelivered attemptsMade now status body) with
        | .ok deliveries => ⟨post, deliveries, .ok ()⟩
        | .error _ => failure (some status) (some body) "Record to update not found"
      else failure (some status) (some body) ("Endpoint returned " ++ toString status ++ ": " ++ body)

end WebhookProcessor

/-! ## What a job must carry -/

/-- The job names a pending delivery and the url and secret of its endpoint, which is active and
subscribed. -/
def Deliverable (w : World) (job : WebhookJob) : Prop :=
  ∃ n d ep, job = ⟨some n, some ep.url, some ep.secret, d.event, d.payload⟩ ∧
    w.outbox.deliveries[n]? = some d ∧ d.status = .pending ∧
    ep ∈ w.db.webhookEndpoints ∧ ep.id = d.endpointId ∧ ep.isActive ∧ d.event ∈ ep.events

/-- Every attempt posts the job and records how that went. -/
def Handled (w : World) (job : WebhookJob) : Prop :=
  ∀ attemptsMade attempts now result,
    let a := WebhookProcessor.deliverWebhook job attemptsMade attempts now result w.outbox.deliveries
    a.post.isSome ∧ (a.outcome = .ok () ∨ ∃ error, a.outcome = .error (.failed error)) ∧
      ∃ n d, job.deliveryId = some n ∧ a.deliveries[n]? = some d ∧ d.status ≠ .pending ∧
        d.attempts = attemptsMade + 1

/-! ## Who enqueues -/

inductive Producer where
  | job (j : Job)
  | dispatch (event : String) (payload : WebhookPayload)
  | request (r : Request)

/-- Anything may fail, and others may act as long as they leave the outbox alone. -/
def besideWebhooks (s : Stellar) : Prog.Regime Op World EnvAction WorkerError where
  env w a := (w.env s a).outbox = w.outbox
  op _ _ _ := True

namespace Producer

inductive Runs (s : Stellar) (w : World) : Producer → World → Prop where
  | job {j : Job} {ts : List (Tick EnvAction WorkerError)}
      (h : (Worker.process s j).Obeys (platform s) (besideWebhooks s) ts w) :
      Runs s w (.job j) ((Worker.process s j).exec (platform s) ts w).1
  | dispatch {event : String} {payload : WebhookPayload} {ts : List (Tick EnvAction WorkerError)}
      (h : (WebhooksService.dispatchEvent event payload).Obeys (platform s) (besideWebhooks s) ts w) :
      Runs s w (.dispatch event payload)
        ((WebhooksService.dispatchEvent event payload).exec (platform s) ts w).1
  | request {r : Request} : Runs s w (.request r) (w.request r)

def outcome (s : Stellar) (w : World) : Producer → World
  | job j => ((Worker.process s j).complete (platform s) w).1
  | dispatch event payload => ((WebhooksService.dispatchEvent event payload).complete (platform s) w).1
  | request r => w.request r

def Subscribed (w : World) (event : WebhookEvent) (ep : WebhookEndpoint) : Prop :=
  ep ∈ w.db.webhookEndpoints ∧ ep.isActive ∧ event ∈ ep.events

def PartyOf (w : World) (id : Uuid) (u : UserId) : Prop :=
  ∃ e, w.db.escrows.lookup id = some e ∧ (e.clientId = u ∨ e.freelancerId = u)

/-- The endpoints for which an event is raised: an event dispatched is for all, that of a
dispute for the parties of its escrow. -/
inductive Notifies (w : World) : Producer → WebhookEvent → WebhookEndpoint → Prop where
  | dispatch {text : String} {payload : WebhookPayload} {event : WebhookEvent} {ep : WebhookEndpoint}
      (htext : WebhookEvent.ofText text = some event) (hep : Subscribed w event ep) :
      Notifies w (.dispatch text payload) event ep
  | opened {userId : UserId} {id : Uuid} {disputeId : String} {res : Response} {ep : WebhookEndpoint}
      (h : (Request.openDispute userId id disputeId).serve w.db = .ok res) (hparty : PartyOf w id ep.userId)
      (hep : Subscribed w .disputeOpened ep) :
      Notifies w (.request (.openDispute userId id disputeId)) .disputeOpened ep
  | resolved {adminId : UserId} {disputeId : String} {resolution : DisputeStatus} {d : Dispute} {res : Response}
      {ep : WebhookEndpoint} (h : (Request.resolveDispute adminId disputeId resolution).serve w.db = .ok res)
      (hd : w.db.disputes.lookup disputeId = some d) (hparty : PartyOf w d.escrowId ep.userId)
      (hep : Subscribed w .disputeResolved ep) :
      Notifies w (.request (.resolveDispute adminId disputeId resolution)) .disputeResolved ep

end Producer

structure WebhooksWork (s : Stellar) (w : World) (p : Producer) : Prop where
  delivered : ∀ w', p.Runs s w w' → ∃ jobs, w'.outbox.queue = w.outbox.queue ++ jobs ∧
    ∀ job ∈ jobs, Deliverable w' job ∧ Handled w' job
  notified : ∀ event ep, p.Notifies w event ep →
    ∃ d ∈ (p.outcome s w).outbox.deliveries.drop w.outbox.deliveries.length,
      d.endpointId = ep.id ∧ d.event = event ∧ d.status = .pending

/-! ## When a dispute request is accepted -/

structure CanOpen (db : Db) (userId : UserId) (id : Uuid) (disputeId : String) : Prop where
  user : (db.users.lookup userId).isSome
  party : ∃ e, db.escrows.lookup id = some e ∧ (e.clientId = userId ∨ e.freelancerId = userId) ∧
    EscrowService.isOpen e
  undisputed : id ∉ db.disputedEscrows
  id_fresh : db.disputes.lookup disputeId = none

structure CanResolve (db : Db) (adminId : UserId) (disputeId : String) (resolution : DisputeStatus) : Prop where
  admin : ∃ u, db.users.lookup adminId = some u ∧ u.role = .admin
  dispute : ∃ d, db.disputes.lookup disputeId = some d ∧ (d.status = .opened ∨ d.status = .underReview) ∧
    (resolution.verdict.isSome → (db.escrows.lookup d.escrowId).isSome)

def Producer.RaisesDispute (w : World) : Producer → Prop
  | .request (.openDispute userId id disputeId) => CanOpen w.db userId id disputeId
  | .request (.resolveDispute adminId disputeId resolution) => CanResolve w.db adminId disputeId resolution
  | _ => False

theorem openDispute_accepted {db : Db} {userId : UserId} {id : Uuid} {disputeId : String} :
    (∃ res, (Request.openDispute userId id disputeId).serve db = .ok res) ↔ CanOpen db userId id disputeId := by
  simp only [Request.serve, Request.handle, Request.caller, Request.requiredRole, DisputesService.openDispute,
    except_bind_ok, throwIf_ok, orFail_ok, inTransaction_ok, checkRole_ok, createDispute_ok, updateEscrow_ok,
    except_pure_ok, exists_const, not_not]
  constructor
  · rintro ⟨_, u, hu, -, e, he, hp, hs, hno, _, ⟨hd, -, -⟩, -⟩
    refine ⟨by rw [hu]; rfl, ⟨e, he, ?_, hs⟩, hno, hd⟩
    by_contra hne
    exact hp ⟨fun hc => hne (.inl hc), fun hf => hne (.inr hf)⟩
  · rintro ⟨huser, ⟨e, he, hp, hs⟩, hno, hd⟩
    obtain ⟨u, hu⟩ := Option.isSome_iff_exists.mp huser
    have hparty : ¬ (e.clientId ≠ userId ∧ e.freelancerId ≠ userId) := fun h => hp.elim h.1 h.2
    exact ⟨_, u, hu, fun _ h => absurd h.symm (Option.some_ne_none _), e, he, hparty, hs, hno, _, ⟨hd, hno, rfl⟩, _, ⟨e, he, rfl⟩, rfl⟩

theorem resolveDispute_accepted {db : Db} {adminId : UserId} {disputeId : String} {resolution : DisputeStatus} :
    (∃ res, (Request.resolveDispute adminId disputeId resolution).serve db = .ok res) ↔
      CanResolve db adminId disputeId resolution := by
  simp only [Request.serve, Request.handle, Request.caller, Request.requiredRole, DisputesService.resolveDispute,
    except_bind_ok, throwIf_ok, orFail_ok, inTransaction_ok, checkRole_ok, updateDispute_ok, createAuditLog_ok,
    except_pure_ok, exists_const, Option.mem_some_iff, forall_eq']
  constructor
  · rintro ⟨_, u, hu, hrole, d, hd, hs, _, ⟨d', hd', rfl⟩, db', hv, -⟩
    refine ⟨⟨u, hu, hrole.symm⟩, d, hd, ?_, fun hsome => ?_⟩
    · tauto
    · cases resolution with
      | resolvedClient | resolvedFreelancer =>
        obtain ⟨e, he, -⟩ := updateEscrow_ok.mp hv
        exact Option.isSome_iff_exists.mpr ⟨e, he⟩
      | opened | underReview | closed => cases hsome
  · rintro ⟨⟨u, hu, hrole⟩, d, hd, hs, hrow⟩
    have hopen : ¬ (d.status ≠ .opened ∧ d.status ≠ .underReview) := by tauto
    have haudit : (db.users.lookup adminId).isSome := Option.isSome_iff_exists.mpr ⟨u, hu⟩
    cases resolution with
    | resolvedClient | resolvedFreelancer =>
      obtain ⟨e, he⟩ := Option.isSome_iff_exists.mp (hrow rfl)
      exact ⟨_, u, hu, hrole.symm, d, hd, hopen, _, ⟨d, hd, rfl⟩, _, updateEscrow_ok.mpr ⟨e, he, rfl⟩, _,
        ⟨haudit, rfl⟩, rfl⟩
    | opened | underReview | closed =>
      exact ⟨_, u, hu, hrole.symm, d, hd, hopen, _, ⟨d, hd, rfl⟩, _, rfl, _, ⟨haudit, rfl⟩, rfl⟩

/-! ## Delivering -/

theorem update_some {ds : List WebhookDelivery} {n : Nat} {d : WebhookDelivery} (h : ds[n]? = some d)
    (f : WebhookDelivery → WebhookDelivery) :
    WebhookProcessor.update ds (some n) f = .ok (ds.set n (f d)) ∧ (ds.set n (f d))[n]? = some (f d) := by
  constructor
  · simp only [WebhookProcessor.update, h]
  · obtain ⟨hlt, -⟩ := List.getElem?_eq_some_iff.mp h
    exact List.getElem?_set_self hlt

section
variable {w w' : World} {job : WebhookJob}

theorem Deliverable.handled (h : Deliverable w job) : Handled w job := by
  obtain ⟨n, d, ep, rfl, hd, -⟩ := h
  intro attemptsMade attempts now result
  have hfail (code : Option Nat) (body : Option String) (error : String) (post : WebhookProcessor.Post) :
      let a := WebhookProcessor.recordFailure ⟨some n, some ep.url, some ep.secret, d.event, d.payload⟩
        attemptsMade attempts now w.outbox.deliveries (some post) code body error
      a.post.isSome ∧ (a.outcome = .ok () ∨ ∃ error, a.outcome = .error (.failed error)) ∧
        ∃ m d', some n = some m ∧ a.deliveries[m]? = some d' ∧ d'.status ≠ .pending ∧
          d'.attempts = attemptsMade + 1 := by
    obtain ⟨hupdate, hget⟩ :=
      update_some hd (WebhookProcessor.markFailed attemptsMade attempts now code body error)
    simp only [WebhookProcessor.recordFailure, hupdate]
    refine ⟨rfl, .inr ⟨error, rfl⟩, n, _, rfl, hget, ?_, rfl⟩
    unfold WebhookProcessor.markFailed
    dsimp only
    split <;> exact nofun
  unfold WebhookProcessor.deliverWebhook
  cases result with
  | failed error => exact hfail none none error _
  | unread status error => exact hfail (some status) none error _
  | answered status body =>
    simp only [Option.isSome_some, if_true]
    by_cases hok : 200 ≤ status ∧ status < 300
    · obtain ⟨hupdate, hget⟩ := update_some hd (WebhookProcessor.markDelivered attemptsMade now status body)
      rw [if_pos hok, hupdate]
      exact ⟨rfl, .inl rfl, n, _, rfl, hget, nofun, rfl⟩
    · rw [if_neg hok]
      exact hfail (some status) (some body) _ _

/-- Rows are only added, and the endpoints stay as they are. -/
structure Extends (w w' : World) : Prop where
  rows : ∃ ds, w'.outbox.deliveries = w.outbox.deliveries ++ ds
  endpoints : w'.db.webhookEndpoints = w.db.webhookEndpoints

theorem Deliverable.mono (h : Deliverable w job) (hw : Extends w w') : Deliverable w' job := by
  obtain ⟨n, d, ep, hjob, hd, hs, hmem, hrest⟩ := h
  obtain ⟨ds, hds⟩ := hw.rows
  obtain ⟨hlt, -⟩ := List.getElem?_eq_some_iff.mp hd
  refine ⟨n, d, ep, hjob, ?_, hs, by rw [hw.endpoints]; exact hmem, hrest⟩
  rw [hds, List.getElem?_append_left hlt]
  exact hd

/-- What `w₀` had queued and then deliverable jobs. -/
def Announced (w₀ w : World) : Prop :=
  ∃ jobs, w.outbox.queue = w₀.outbox.queue ++ jobs ∧ ∀ job ∈ jobs, Deliverable w job

variable {w₀ : World}

theorem Announced.extends (h : Announced w₀ w) (hw : Extends w w') (hq : w'.outbox.queue = w.outbox.queue) :
    Announced w₀ w' := by
  obtain ⟨jobs, hjobs, hall⟩ := h
  exact ⟨jobs, hq.trans hjobs, fun job hjob => (hall job hjob).mono hw⟩

theorem Announced.enqueue (h : Announced w₀ w) (hjob : Deliverable w job) :
    Announced w₀ { w with outbox := { w.outbox with queue := w.outbox.queue ++ [job] } } := by
  obtain ⟨jobs, hjobs, hall⟩ := h
  have hw : Extends w { w with outbox := { w.outbox with queue := w.outbox.queue ++ [job] } } :=
    ⟨⟨[], (List.append_nil _).symm⟩, rfl⟩
  refine ⟨jobs ++ [job], by rw [← List.append_assoc, ← hjobs], fun x hx => ?_⟩
  rcases List.mem_append.mp hx with hx | hx
  · exact (hall x hx).mono hw
  · rw [List.mem_singleton.mp hx]; exact hjob.mono hw

end

/-! ## Programs that announce -/

def Op.NotEnqueue : Op → Prop
  | enqueueWebhook _ => False
  | _ => True

theorem Op.ReadsRow.notEnqueue {o : Op} (ho : o.ReadsRow) : o.NotEnqueue := by
  cases o with
  | enqueueWebhook => exact ho.elim
  | _ => trivial

section
variable {s : Stellar} {w w₀ : World}

theorem extends_of_outbox {w' : World} (hout : w'.outbox = w.outbox)
    (hep : w'.db.webhookEndpoints = w.db.webhookEndpoints) :
    Extends w w' ∧ w'.outbox.queue = w.outbox.queue :=
  ⟨⟨⟨[], by rw [hout, List.append_nil]⟩, hep⟩, by rw [hout]⟩

theorem perform_extends {o : Op} (ho : o.NotEnqueue) :
    Extends w (w.perform s o).1 ∧ (w.perform s o).1.outbox.queue = w.outbox.queue := by
  cases o with
  | enqueueWebhook job => exact ho.elim
  | createDelivery d => exact ⟨⟨⟨[d], rfl⟩, rfl⟩, rfl⟩
  | findEscrow | findUser | findEndpoints | findSubscribers | simulateGetEscrow => exact extends_of_outbox rfl rfl
  | transact tx =>
    change Extends w (w.transact tx).1 ∧ (w.transact tx).1.outbox.queue = w.outbox.queue
    unfold World.transact
    split
    · rename_i db h
      exact extends_of_outbox rfl (DbTx.apply_ok h).1.endpoints
    · exact extends_of_outbox rfl rfl
  | submit method args signers =>
    change Extends w (w.submit s method args signers).1 ∧ (w.submit s method args signers).1.outbox.queue = _
    unfold World.submit
    split
    · split <;> exact extends_of_outbox rfl rfl
    · exact extends_of_outbox rfl rfl

theorem env_endpoints (a : EnvAction) : (w.env s a).db.webhookEndpoints = w.db.webhookEndpoints := by
  cases a with
  | ledger a => rfl
  | request r =>
    refine World.request_db (fun db => db.webhookEndpoints = w.db.webhookEndpoints) rfl fun _ _ hserved => ?_
    cases hserved <;> rfl

theorem Announced.env {a : EnvAction} (ha : (besideWebhooks s).env w a) (h : Announced w₀ w) :
    Announced w₀ (w.env s a) := by
  have houtbox : Extends w (w.env s a) ∧ (w.env s a).outbox.queue = w.outbox.queue :=
    extends_of_outbox ha (env_endpoints a)
  obtain ⟨hw, hq⟩ := houtbox
  exact h.extends hw hq

abbrev Announces (s : Stellar) (w₀ : World) {α : Type} (p : Handler α) (w : World) : Prop :=
  Prog.Always (platform s) (besideWebhooks s) (fun w' _ => Announced w₀ w') p w

section
variable {α β : Type}

theorem announces_throw {e : WorkerError} (h : Announced w₀ w) : Announces s w₀ (throw e : Handler α) w :=
  Prog.always_throw h fun _ => h

theorem announces_pure {a : α} (h : Announced w₀ w) : Announces s w₀ (pure a : Handler α) w :=
  Prog.always_pure h fun _ => h

theorem announces_of_performs {p : Handler α} (hp : p.Performs Op.NotEnqueue) (h : Announced w₀ w) :
    Announces s w₀ p w := by
  refine Prog.always_mono (Prog.always_of_performs (P := Announced w₀) (fun _ _ ha hw => hw.env ha) h
    (fun w o ho hw => ?_) hp) fun _ _ hq => hq.1
  obtain ⟨hext, hq⟩ := perform_extends (s := s) (w := w) ho
  exact hw.extends hext hq

theorem announces_bind {p : Handler α} {f : α → Handler β} (hp : p.Performs Op.NotEnqueue) (h : Announced w₀ w)
    (hf : ∀ a w', Announced w₀ w' → Announces s w₀ (f a) w') : Announces s w₀ (p >>= f) w := by
  refine Prog.always_bind (Prog.always_mono (announces_of_performs hp h) fun w' out hw => ?_)
  cases out with
  | returned a => exact hf a w' hw
  | threw e => exact announces_throw hw
  | crashed => exact hw

/-- One operation from any state in which `P` holds, which the others keep. -/
theorem announces_call_bind {P : World → Prop} {o : Op} {f : o.Res → Handler β}
    (henv : ∀ w a, (besideWebhooks s).env w a → P w → P (w.env s a)) (hP : P w)
    (hQ : ∀ w, P w → Announced w₀ w ∧ Announced w₀ (w.perform s o).1)
    (hok : ∀ w, P w → ∀ r, (w.perform s o).2 = .ok r → Announces s w₀ (f r) (w.perform s o).1) :
    Announces s w₀ (perform o >>= f) w := by
  refine Prog.stable_call_bind henv hP fun w hw fault _ => ?_
  obtain ⟨hbefore, hafter⟩ := hQ w hw
  cases fault with
  | none =>
    simp only [Prog.Resumes]
    cases hr : ((platform s).perform w o).2 with
    | ok r => exact hok w hw r hr
    | error e => exact announces_throw hafter
  | lost e => exact announces_throw hbefore
  | late e => exact announces_throw hafter
  | crash => exact hbefore

end

/-! ## The loop over the endpoints -/

theorem Producer.Subscribed.of_endpoints {w' : World} {event : WebhookEvent} {ep : WebhookEndpoint}
    (h : Producer.Subscribed w event ep) (hw : w'.db.webhookEndpoints = w.db.webhookEndpoints) :
    Producer.Subscribed w' event ep := ⟨by rw [hw]; exact h.1, h.2⟩

theorem announces_deliverTo {event : WebhookEvent} {payload : WebhookPayload} {endpoints : List WebhookEndpoint}
    (hall : ∀ ep ∈ endpoints, Producer.Subscribed w event ep) (h : Announced w₀ w) :
    Announces s w₀ (Worker.deliverTo event payload endpoints) w := by
  induction endpoints generalizing w with
  | nil => exact announces_pure h
  | cons ep rest ih =>
    let row : WebhookDelivery := { endpointId := ep.id, event, payload, status := .pending }
    have hsub {w : World} {a : EnvAction} (hw : ∀ ep' ∈ ep :: rest, Producer.Subscribed w event ep') :
        ∀ ep' ∈ ep :: rest, Producer.Subscribed (w.env s a) event ep' :=
      fun ep' hep => (hw ep' hep).of_endpoints (env_endpoints a)
    refine announces_call_bind
      (P := fun w => Announced w₀ w ∧ ∀ ep' ∈ ep :: rest, Producer.Subscribed w event ep')
      (fun w a ha hw => ⟨hw.1.env ha, hsub hw.2⟩) ⟨h, hall⟩
      (fun w hw => ⟨hw.1, hw.1.extends (perform_extends (s := s) (o := .createDelivery row) trivial).1 rfl⟩)
      fun w ⟨hw, hsubscribed⟩ n hn => ?_
    obtain rfl : w.outbox.deliveries.length = n := Except.ok.inj hn
    have hw' := hw.extends (perform_extends (s := s) (o := .createDelivery row) trivial).1 rfl
    have hrow : (w.outbox.deliveries ++ [row])[w.outbox.deliveries.length]? = some row := by simp
    have hjob {w₁ : World} (hget : w₁.outbox.deliveries[w.outbox.deliveries.length]? = some row)
        (hw₁ : ∀ ep' ∈ ep :: rest, Producer.Subscribed w₁ event ep') :
        Deliverable w₁ ⟨some w.outbox.deliveries.length, some ep.url, some ep.secret, event, payload⟩ := by
      obtain ⟨hmem, hactive, hevent⟩ := hw₁ ep (.head _)
      exact ⟨_, row, ep, rfl, hget, rfl, hmem, rfl, hactive, hevent⟩
    refine announces_call_bind
      (P := fun w₁ => Announced w₀ w₁ ∧ w₁.outbox.deliveries[w.outbox.deliveries.length]? = some row ∧
        ∀ ep' ∈ ep :: rest, Producer.Subscribed w₁ event ep')
      (fun w₁ a ha hw₁ => ⟨hw₁.1.env ha, by rw [show (w₁.env s a).outbox = w₁.outbox from ha]; exact hw₁.2.1,
        hsub hw₁.2.2⟩)
      ⟨hw', hrow, fun ep' hep => (hsubscribed ep' hep).of_endpoints rfl⟩
      (fun w₁ hw₁ => ⟨hw₁.1, hw₁.1.enqueue (hjob hw₁.2.1 hw₁.2.2)⟩) fun w₁ hw₁ _ _ => ?_
    exact ih (fun ep' hep => (hw₁.2.2 ep' (.tail _ hep)).of_endpoints rfl) (hw₁.1.enqueue (hjob hw₁.2.1 hw₁.2.2))

theorem announces_fireWebhook (event : WebhookEvent) (userId : UserId) (payload : WebhookPayload)
    (h : Announced w₀ w) : Announces s w₀ (Worker.fireWebhook event userId payload) w := by
  refine announces_call_bind (P := Announced w₀) (fun _ _ ha hw => hw.env ha) h
    (fun w hw => ⟨hw, hw⟩) fun w hw endpoints hr => ?_
  cases hr
  refine announces_deliverTo (fun ep hep => ?_) hw
  obtain ⟨hmem, hep⟩ := List.mem_filter.mp hep
  simp only [decide_eq_true_eq] at hep
  exact ⟨hmem, hep.2⟩

theorem announces_dispatch (event : String) (payload : WebhookPayload) (h : Announced w₀ w) :
    Announces s w₀ (WebhooksService.dispatchEvent event payload) w := by
  refine announces_bind (performs_orThrow _ _) h fun event w h => ?_
  refine announces_call_bind (P := Announced w₀) (fun _ _ ha hw => hw.env ha) h
    (fun w hw => ⟨hw, hw⟩) fun w hw endpoints hr => ?_
  cases hr
  refine announces_deliverTo (fun ep hep => ?_) hw
  obtain ⟨hmem, hep⟩ := List.mem_filter.mp hep
  simp only [decide_eq_true_eq] at hep
  exact ⟨hmem, hep.2, hep.1⟩

/-! ## The handlers -/

theorem announces_read {o : Op} {α : Type} {f : o.Res → Handler α} (ho : o.NotEnqueue) (h : Announced w₀ w)
    (hf : ∀ a w', Announced w₀ w' → Announces s w₀ (f a) w') : Announces s w₀ (perform o >>= f) w :=
  announces_bind (Prog.performs_call ho) h hf

theorem handleFundFailure_performs (id : Uuid) (clientId : UserId) :
    (Worker.handleFundFailure id clientId).Performs Op.NotEnqueue := by
  refine Prog.performs_bind (Prog.performs_call trivial) fun _ => ?_
  refine Prog.performs_bind (Prog.performs_call trivial) fun escrow => ?_
  cases escrow with
  | none => exact performs_pure _
  | some e => exact Prog.performs_call trivial

theorem announces_fundEscrow (id : Uuid) (clientId : UserId) (amount : Int) (h : Announced w₀ w) :
    Announces s w₀ (Worker.fundEscrow s id clientId amount) w := by
  have htry : Announces s w₀ (Worker.tryFundEscrow s id clientId amount) w := by
    refine announces_bind ((readFundingInput_performs ..).mono fun _ ho => ho.notEnqueue) h
      fun input w h => ?_
    refine announces_bind ((initIfNeeded_performs ..).mono fun _ ⟨_, _, _, _, ho, _⟩ => ho ▸ trivial) h
      fun _ w h => ?_
    refine announces_read trivial h fun txHash w h => ?_
    exact announces_read trivial h fun _ w h => announces_fireWebhook _ _ _ h
  refine Prog.always_tryCatch (Prog.always_mono htry fun w' out hw => ?_)
  cases out with
  | returned a => exact announces_pure hw
  | threw e =>
    exact announces_bind (handleFundFailure_performs id clientId) hw fun _ _ h => announces_throw h
  | crashed => exact hw

theorem announces_process (j : Job) (h : Announced w₀ w) : Announces s w₀ (Worker.process s j) w := by
  cases j with
  | fundEscrow id clientId amount => exact announces_fundEscrow id clientId amount h
  | releaseEscrow id clientId =>
    refine announces_read trivial h fun found w h => announces_read trivial h fun client w h => ?_
    refine announces_bind (performs_orThrow _ _) h fun escrow w h => ?_
    refine announces_bind (secretOf_performs _ _) h fun clientKey w h => ?_
    refine announces_read trivial h fun txHash w h => announces_read trivial h fun _ w h => ?_
    exact announces_fireWebhook _ _ _ h
  | refundEscrow id adminId reason =>
    refine announces_read trivial h fun found w h => announces_bind (performs_orThrow _ _) h fun escrow w h => ?_
    refine announces_read trivial h fun txHash w h => announces_read trivial h fun _ w h => ?_
    exact announces_fireWebhook _ _ _ h
  | approveRelease id approverId role =>
    refine announces_read trivial h fun found w h => announces_read trivial h fun approver w h => ?_
    refine announces_bind (performs_orThrow _ _) h fun escrow w h => ?_
    refine announces_bind (secretOf_performs _ _) h fun approverKey w h => ?_
    refine announces_read trivial h fun txHash w h => announces_read trivial h fun onChain w h => ?_
    refine announces_read trivial h fun _ w h => ?_
    split
    · exact announces_fireWebhook _ _ _ h
    · exact announces_pure h
  | completeMilestone id freelancerId =>
    refine announces_read trivial h fun found w h => announces_read trivial h fun freelancer w h => ?_
    refine announces_bind (performs_orThrow _ _) h fun escrow w h => ?_
    refine announces_bind (secretOf_performs _ _) h fun freelancerKey w h => ?_
    refine announces_read trivial h fun txHash w h => announces_read trivial h fun onChain w h => ?_
    exact announces_read trivial h fun _ w h => announces_fireWebhook _ _ _ h
  | claimExpired id triggeredBy =>
    refine announces_read trivial h fun found w h => announces_bind (performs_orThrow _ _) h fun escrow w h => ?_
    refine announces_read trivial h fun txHash w h => announces_read trivial h fun _ w h => ?_
    exact announces_fireWebhook _ _ _ h

/-! ## Requests -/

theorem raises_of_served {r : Request} {res : Response} (h : r.serve w.db = .ok res) :
    res.webhooks = [] ∨ (Producer.request r).RaisesDispute w := by
  obtain ⟨u, -, hs⟩ := Request.served h
  cases hs with
  | replayed | created | queued | reviewed => exact .inl rfl
  | disputed => exact .inr (openDispute_accepted.mp ⟨_, h⟩)
  | resolved => exact .inr (resolveDispute_accepted.mp ⟨_, h⟩)

theorem outbox_of_not_raises {r : Request} (h : ¬ (Producer.request r).RaisesDispute w) :
    (w.request r).outbox = w.outbox := by
  unfold World.request
  split
  · rename_i res hres
    simp only [(raises_of_served hres).resolve_right h, List.append_nil]
  · rfl

theorem queue_of_raises {r : Request} (h : (Producer.request r).RaisesDispute w) :
    ∃ job : WebhookJob, job.deliveryId = none ∧ (w.request r).outbox.queue = w.outbox.queue ++ [job] := by
  have hqueue {res : Response} {job : WebhookJob} (hres : r.serve w.db = .ok res) (hjob : res.webhooks = [job]) :
      (w.request r).outbox.queue = w.outbox.queue ++ [job] := by
    simp only [World.request, hres, hjob]
  cases r with
  | openDispute userId id disputeId =>
    obtain ⟨res, hres⟩ := openDispute_accepted.mpr h
    obtain ⟨u, -, hs⟩ := Request.served hres
    cases hs with
    | disputed => exact ⟨_, rfl, hqueue hres rfl⟩
    | queued hj => cases hj
  | resolveDispute adminId disputeId resolution =>
    obtain ⟨res, hres⟩ := resolveDispute_accepted.mpr h
    obtain ⟨u, -, hs⟩ := Request.served hres
    cases hs with
    | resolved => exact ⟨_, rfl, hqueue hres rfl⟩
    | queued hj => cases hj
  | createEscrow | releaseEscrow | refundEscrow | approveRelease | completeMilestone | claimExpired
  | setUnderReview => exact h.elim

/-! ## The rows of a dispatched event -/

theorem deliverTo_rows (event : WebhookEvent) (payload : WebhookPayload) (endpoints : List WebhookEndpoint) :
    ((Worker.deliverTo event payload endpoints).complete (platform s) w).1.outbox.deliveries =
      w.outbox.deliveries ++
        endpoints.map fun ep => { endpointId := ep.id, event, payload, status := .pending } := by
  induction endpoints generalizing w with
  | nil => exact (List.append_nil _).symm
  | cons ep rest ih =>
    refine ih.trans ?_
    simp [platform, World.perform]

theorem row_of_dispatch {text : String} {payload : WebhookPayload} {event : WebhookEvent} {ep : WebhookEndpoint}
    (htext : WebhookEvent.ofText text = some event) (hep : Producer.Subscribed w event ep) :
    ∃ d ∈ ((Producer.dispatch text payload).outcome s w).outbox.deliveries.drop w.outbox.deliveries.length,
      d.endpointId = ep.id ∧ d.event = event ∧ d.status = .pending := by
  have hrun : (Producer.dispatch text payload).outcome s w =
      ((Worker.deliverTo event payload
        (w.db.webhookEndpoints.filter fun e => event ∈ e.events ∧ e.isActive)).complete (platform s) w).1 := by
    simp only [Producer.outcome, WebhooksService.dispatchEvent, htext]
    rfl
  rw [hrun, deliverTo_rows, List.drop_left]
  refine ⟨_, List.mem_map.mpr ⟨ep, List.mem_filter.mpr ⟨hep.1, ?_⟩, rfl⟩, rfl, rfl, rfl⟩
  simpa using ⟨hep.2.2, hep.2.1⟩

theorem not_work_of_raises {p : Producer} (h : p.RaisesDispute w) : ¬ WebhooksWork s w p := by
  intro hwork
  cases p with
  | job | dispatch => exact h
  | request r =>
    obtain ⟨job, hnone, hqueue⟩ := queue_of_raises h
    obtain ⟨jobs, hjobs, hall⟩ := hwork.delivered _ .request
    obtain rfl : jobs = [job] := List.append_cancel_left (hjobs.symm.trans hqueue)
    obtain ⟨⟨n, d, ep, rfl, -⟩, -⟩ := hall job (.head _)
    cases hnone

/-- Every producer's jobs can be delivered, but for the requests that raise the event of a dispute. -/
theorem webhooks_work_iff (s : Stellar) (w : World) (p : Producer) :
    WebhooksWork s w p ↔ ¬ p.RaisesDispute w := by
  refine ⟨fun hwork hraises => not_work_of_raises hraises hwork, fun hnot => ?_⟩
  have hstart : Announced w w := ⟨[], (List.append_nil _).symm, List.forall_mem_nil _⟩
  have hend {w' : World} (h : Announced w w') : ∃ jobs, w'.outbox.queue = w.outbox.queue ++ jobs ∧
      ∀ job ∈ jobs, Deliverable w' job ∧ Handled w' job := by
    obtain ⟨jobs, hjobs, hall⟩ := h
    exact ⟨jobs, hjobs, fun job hjob => ⟨hall job hjob, (hall job hjob).handled⟩⟩
  constructor
  · intro w' hrun
    cases hrun with
    | job h => exact hend (announces_process _ hstart _ h)
    | dispatch h => exact hend (announces_dispatch _ _ hstart _ h)
    | request => exact ⟨[], by rw [outbox_of_not_raises hnot, List.append_nil], List.forall_mem_nil _⟩
  · intro event ep hnotifies
    cases hnotifies with
    | dispatch htext hep => exact row_of_dispatch htext hep
    | opened h => exact (hnot (openDispute_accepted.mp ⟨_, h⟩)).elim
    | resolved h => exact (hnot (resolveDispute_accepted.mp ⟨_, h⟩)).elim

end

/-! ## A dispute without a word -/

def sampleSubscribed : World :=
  { sampleWorld with
    db := { sampleWorld.db with
      escrows := (∅ : Store Uuid Escrow).insert sampleId
        { EscrowService.newEscrow "client" sampleDto with status := .funded }
      webhookEndpoints :=
        [⟨"endpoint", "freelancer", true, [.disputeOpened], "https://freelancer.example", "key", none, 0⟩] } }

theorem dispute_not_delivered : ¬ ∀ (s : Stellar) (w : World) (p : Producer), WebhooksWork s w p := by
  intro h
  refine not_work_of_raises (s := sampleStellar) (w := sampleSubscribed)
    (p := .request (.openDispute "client" sampleId "dispute")) ?_ (h _ _ _)
  exact ⟨by decide, ⟨_, Finmap.lookup_insert _, .inl rfl, .inl rfl⟩, Multiset.notMem_zero _, rfl⟩

end NexusHub
