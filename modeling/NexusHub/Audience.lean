import NexusHub.Trail
import NexusHub.Webhooks

/-!
# Who hears of an escrow

The worker's webhooks carry the affairs of one escrow. They go to endpoints of
its parties alone, active and subscribed to the event, with the address and the
secret that the endpoint was registered with.
-/

namespace NexusHub

def WebhookPayload.escrowId? : WebhookPayload → Option Uuid
  | funded id .. | released id .. | refunded id .. | milestone id .. | expired id .. => some id
  | disputeOpened _ id _ => some id
  | disputeResolved .. | other _ => none

/-- The endpoint takes part in the event for an owner in `P`. -/
structure Db.Subscribed (db : Db) (ep : WebhookEndpoint) (event : WebhookEvent) (P : UserId → Prop) : Prop where
  registered : ep ∈ db.webhookEndpoints
  active : ep.isActive
  subscribed : event ∈ ep.events
  owner : P ep.userId

/-- The endpoint is a party's and takes part in the event. -/
def Db.MayHear (db : Db) (ep : WebhookEndpoint) (event : WebhookEvent) (payload : WebhookPayload) : Prop :=
  db.Subscribed ep event fun u => ∀ id, payload.escrowId? = some id → db.Row id (·.Party u)

/-- What goes out for a funding is for the client named in the job, whose row there is. -/
def Job.MayTell (j : Job) (db : Db) (u : UserId) (payload : WebhookPayload) : Prop :=
  ∀ id, payload.escrowId? = some id → db.Row id (·.Party u) ∨
    (∃ amount, j = .fundEscrow id u amount) ∧ db.Row id fun _ => True

def Job.Tells (j : Job) (w : World) : Op → Prop
  | .createDelivery d => ∃ ep, w.db.Subscribed ep d.event (fun u => j.MayTell w.db u d.payload) ∧ d.endpointId = ep.id
  | .enqueueWebhook job => ∃ ep, w.db.Subscribed ep job.event (fun u => j.MayTell w.db u job.payload) ∧
    job.url = some ep.url ∧ job.secret = some ep.secret
  | _ => True

/-! ## What the handlers send -/

/-- Rows and endpoints stay. -/
structure World.Lists (w w' : World) : Prop where
  rows : w.RowsKept w'
  endpoints : w'.db.webhookEndpoints = w.db.webhookEndpoints

theorem lists_evolves (s : Stellar) : Prog.Evolves (platform s) World.Lists where
  refl w := ⟨.of_eq rfl, rfl⟩
  trans h h' := ⟨h.rows.trans h'.rows, h'.endpoints.trans h.endpoints⟩
  perform w o := by
    refine ⟨(platform_keeps s).perform w o, ?_⟩
    change (w.perform s o).1.db.webhookEndpoints = w.db.webhookEndpoints
    rcases World.perform_cases s w o with hs | ⟨tx, rfl, hc⟩ | ⟨_, _, _, _, rfl, -, hc⟩
    · rw [hs.db]
    · exact (DbTx.apply_ok hc.db).1.endpoints
    · rw [hc.db]
  env w a := by
    refine ⟨(platform_keeps s).env w a, ?_⟩
    cases a with
    | ledger a => rfl
    | request r =>
      refine World.request_db (fun db => db.webhookEndpoints = w.db.webhookEndpoints) rfl fun role res h => ?_
      cases h <;> rfl

theorem World.RowsKept.row {w w' : World} (h : w.RowsKept w') {id : Uuid} {P : Escrow → Prop}
    (hP : ∀ e e' : Escrow, e.Kept e' → P e → P e') (hr : w.db.Row id P) : w'.db.Row id P := by
  obtain ⟨e, he, hp⟩ := hr
  obtain ⟨e', he', hk⟩ := h id e he
  exact ⟨e', he', hP e e' hk hp⟩

theorem Escrow.Kept.party {e e' : Escrow} (h : e.Kept e') {u : UserId} (hp : e.Party u) : e'.Party u := by
  rw [Escrow.Party, h.clientId, h.freelancerId]
  exact hp

theorem Job.MayTell.later {j : Job} {w w' : World} {u : UserId} {payload : WebhookPayload}
    (h : j.MayTell w.db u payload) (hw : w.Lists w') : j.MayTell w'.db u payload := by
  intro id hid
  rcases h id hid with hp | ⟨hj, hr⟩
  · exact .inl (hw.rows.row (fun _ _ hk hp => hk.party hp) hp)
  · exact .inr ⟨hj, hw.rows.row (fun _ _ _ _ => trivial) hr⟩

abbrev Handler.Tells {α : Type} (s : Stellar) (j : Job) (p : Handler α) (w : World) : Prop :=
  Prog.Safe (platform s) World.Lists (fun w o => j.Tells w o) p w

section
variable {s : Stellar} {j : Job} {w : World} {α : Type}

theorem tells_reads {p : Handler α} (hp : p.Performs Op.ReadsRow) : p.Tells s j w := by
  refine hp.safe (fun w o ho => ?_) w
  cases o with
  | findEscrow | findUser => trivial
  | _ => exact ho.elim

theorem Db.Subscribed.mono {db db' : Db} {ep : WebhookEndpoint} {event : WebhookEvent} {P Q : UserId → Prop}
    (h : db.Subscribed ep event P) (he : db'.webhookEndpoints = db.webhookEndpoints)
    (hPQ : P ep.userId → Q ep.userId) : db'.Subscribed ep event Q :=
  ⟨by rw [he]; exact h.registered, h.active, h.subscribed, hPQ h.owner⟩

theorem tells_deliverTo {u : UserId} {event : WebhookEvent} {payload : WebhookPayload}
    {endpoints : List WebhookEndpoint} (hm : j.MayTell w.db u payload)
    (h : ∀ ep ∈ endpoints, w.db.Subscribed ep event (· = u)) :
    (Worker.deliverTo event payload endpoints).Tells s j w := by
  induction endpoints generalizing w with
  | nil => trivial
  | cons ep rest ih =>
    have htell {w' : World} (hw : w.Lists w') : w'.db.Subscribed ep event fun u => j.MayTell w'.db u payload :=
      (h ep (List.mem_cons_self ..)).mono hw.endpoints fun hu => by rw [hu]; exact hm.later hw
    refine safe_perform (lists_evolves s) (fun w' hw => ⟨ep, htell hw, rfl⟩) fun _ w₁ h₁ => ?_
    refine safe_perform (lists_evolves s) (fun w' hw => ⟨ep, htell ((lists_evolves s).trans h₁ hw), rfl, rfl⟩)
      fun _ w₂ h₂ => ?_
    have h₁₂ := (lists_evolves s).trans h₁ h₂
    exact ih (hm.later h₁₂) fun ep hmem => (h ep (List.mem_cons_of_mem _ hmem)).mono h₁₂.endpoints fun hu => hu

theorem tells_fireWebhook {u : UserId} {event : WebhookEvent} {payload : WebhookPayload}
    (hm : j.MayTell w.db u payload) : (Worker.fireWebhook event u payload).Tells s j w := by
  refine Prog.safe_call_bind (fun _ _ => trivial) fun w' r hw hr => ?_
  cases hr
  refine tells_deliverTo (hm.later hw) fun ep hep => ?_
  simp only [List.mem_filter, decide_eq_true_eq] at hep
  exact ⟨hep.1, hep.2.2.1, hep.2.2.2, hep.2.1⟩

/-- A read of the row, by which its parties are known. -/
theorem tells_findEscrow {id : Uuid} {β : Type} {f : Option Escrow → Handler β}
    (h : ∀ found w', w.Lists w' → (∀ e, found = some e → w'.db.Row id fun e' => e.Kept e') →
      (f found).Tells s j w') : (perform (.findEscrow id) >>= f).Tells s j w := by
  refine Prog.safe_call_bind (fun _ _ => trivial) fun w' r hw hr => ?_
  cases hr
  exact h _ w' hw fun e he => ⟨e, he, .refl e⟩

theorem Job.MayTell.of_row {w' : World} {id : Uuid} {e : Escrow} {u : UserId} {payload : WebhookPayload}
    (he : w.db.Row id fun e' => e.Kept e') (hw : w.Lists w') (hu : e.Party u) (hid : payload.escrowId? = some id) :
    j.MayTell w'.db u payload := by
  intro id' hid'
  cases hid.symm.trans hid'
  exact .inl (hw.rows.row (fun _ _ hk hp => hk.party hp) (by
    obtain ⟨e', he', hk⟩ := he
    exact ⟨e', he', hk.party hu⟩))

/-- The row is read before the client's, and has stayed. -/
theorem tells_readFundingInput {id : Uuid} {clientId : UserId} :
    Prog.SafeTo (platform s) World.Lists (fun w o => j.Tells w o) (fun w' _ => w'.db.Row id fun _ => True)
      (Worker.readFundingInput s id clientId) w := by
  have hfound : Prog.SafeTo (platform s) World.Lists (fun w o => j.Tells w o)
      (fun w' found => found.isSome → w'.db.Row id fun _ => True) (perform (.findEscrow id)) w := by
    refine Prog.safeTo_call (fun _ _ => trivial) fun w' r _ hr => ?_
    cases hr
    intro hsome
    obtain ⟨e, he⟩ := Option.isSome_iff_exists.mp hsome
    exact ⟨e, he, trivial⟩
  refine hfound.bind_to fun found w₁ h₁ => ?_
  have hclient : (perform (.findUser clientId)).Tells s j w₁ := tells_reads (Prog.performs_call trivial)
  refine (hclient.to_later (lists_evolves s)).bind_to fun client w₂ h₂ => ?_
  have hfreelancer : (Worker.freelancerOf id).Tells s j w₂ := tells_reads (freelancerOf_performs id)
  refine (hfreelancer.to_later (lists_evolves s)).bind_to fun freelancer w₃ h₃ => ?_
  refine safeTo_orThrow fun e he => safeTo_orThrow fun secret _ => safeTo_orThrow fun address _ =>
    safeTo_orThrow fun key _ => ?_
  exact ((lists_evolves s).trans h₂ h₃).rows.row (fun _ _ _ _ => trivial) (h₁ (by rw [he]; rfl))

theorem tells_initIfNeeded {id : Uuid} {input : Worker.FundingInput} {amount : Int} :
    (Worker.initIfNeeded s id input amount).Tells s j w := by
  refine (initIfNeeded_performs s id input amount).safe (fun w o ho => ?_) w
  obtain ⟨_, _, _, _, rfl, -, -⟩ := ho
  trivial

theorem tells_fundEscrow (id : Uuid) (clientId : UserId) (amount : Int) :
    (Worker.fundEscrow s id clientId amount).Tells s (.fundEscrow id clientId amount) w := by
  refine Prog.safe_tryCatch (lists_evolves s) ?_ fun e w _ => ?_
  · refine tells_readFundingInput.bind fun input w₁ hrow => ?_
    refine Prog.safe_bind (lists_evolves s) tells_initIfNeeded fun _ w₂ h₂ => ?_
    refine safe_perform (lists_evolves s) (fun _ _ => trivial) fun hash w₃ h₃ => ?_
    refine safe_perform (lists_evolves s) (fun _ _ => trivial) fun _ w₄ h₄ => ?_
    have hlater := (lists_evolves s).trans h₂ ((lists_evolves s).trans h₃ h₄)
    refine tells_fireWebhook fun id' hid => ?_
    cases hid
    exact .inr ⟨⟨amount, rfl⟩, hlater.rows.row (fun _ _ _ _ => trivial) hrow⟩
  · refine Prog.safe_bind (lists_evolves s) ?_ fun _ _ _ => trivial
    refine safe_perform (lists_evolves s) (fun _ _ => trivial) fun _ w _ => ?_
    refine safe_perform (lists_evolves s) (fun _ _ => trivial) fun found w _ => ?_
    cases found with
    | none => trivial
    | some e => exact Prog.safe_call fun _ _ => trivial

/-- What the row says of its parties holds when the webhook goes out. -/
theorem tells_party {id : Uuid} {found : Option Escrow} {e : Escrow} {w' : World} {event : WebhookEvent} {u : UserId}
    {payload : WebhookPayload} (hrow : ∀ e, found = some e → w.db.Row id fun e' => e.Kept e')
    (he : found.filter (·.stellarContractId.isSome) = some e) (hw : w.Lists w') (hu : e.Party u)
    (hid : payload.escrowId? = some id) : (Worker.fireWebhook event u payload).Tells s j w' :=
  tells_fireWebhook (.of_row (hrow e (Option.eq_some_of_filter_eq_some he)) hw hu hid)

theorem tells_releaseEscrow (id : Uuid) (clientId : UserId) :
    (Worker.releaseEscrow s id clientId).Tells s j w := by
  refine tells_findEscrow fun found w₁ _ hrow => ?_
  refine safe_perform (lists_evolves s) (fun _ _ => trivial) fun client w₂ h₂ => ?_
  refine safe_orThrow fun e he => safe_secretOf (lists_evolves s) fun key w₃ h₃ => ?_
  refine safe_perform (lists_evolves s) (fun _ _ => trivial) fun hash w₄ h₄ => ?_
  refine safe_perform (lists_evolves s) (fun _ _ => trivial) fun _ w₅ h₅ => ?_
  have h := (lists_evolves s).trans h₂ ((lists_evolves s).trans h₃ ((lists_evolves s).trans h₄ h₅))
  exact tells_party hrow he h (.inr rfl) rfl

theorem tells_refundEscrow (id : Uuid) (adminId : UserId) (reason : String) :
    (Worker.refundEscrow s id adminId reason).Tells s j w := by
  refine tells_findEscrow fun found w₁ _ hrow => safe_orThrow fun e he => ?_
  refine safe_perform (lists_evolves s) (fun _ _ => trivial) fun hash w₂ h₂ => ?_
  refine safe_perform (lists_evolves s) (fun _ _ => trivial) fun _ w₃ h₃ => ?_
  exact tells_party hrow he ((lists_evolves s).trans h₂ h₃) (.inl rfl) rfl

theorem tells_claimExpired (id : Uuid) (triggeredBy : Option UserId) :
    (Worker.claimExpired s id triggeredBy).Tells s j w := by
  refine tells_findEscrow fun found w₁ _ hrow => safe_orThrow fun e he => ?_
  refine safe_perform (lists_evolves s) (fun _ _ => trivial) fun hash w₂ h₂ => ?_
  refine safe_perform (lists_evolves s) (fun _ _ => trivial) fun _ w₃ h₃ => ?_
  exact tells_party hrow he ((lists_evolves s).trans h₂ h₃) (.inl rfl) rfl

theorem tells_completeMilestone (id : Uuid) (freelancerId : UserId) :
    (Worker.completeMilestone s id freelancerId).Tells s j w := by
  refine tells_findEscrow fun found w₁ _ hrow => ?_
  refine safe_perform (lists_evolves s) (fun _ _ => trivial) fun freelancer w₂ h₂ => ?_
  refine safe_orThrow fun e he => safe_secretOf (lists_evolves s) fun key w₃ h₃ => ?_
  refine safe_perform (lists_evolves s) (fun _ _ => trivial) fun hash w₄ h₄ => ?_
  refine safe_perform (lists_evolves s) (fun _ _ => trivial) fun onChain w₅ h₅ => ?_
  refine safe_perform (lists_evolves s) (fun _ _ => trivial) fun _ w₆ h₆ => ?_
  have h := (lists_evolves s).trans h₂ ((lists_evolves s).trans h₃ ((lists_evolves s).trans h₄
    ((lists_evolves s).trans h₅ h₆)))
  exact tells_party hrow he h (.inl rfl) rfl

theorem tells_approveRelease (id : Uuid) (approverId : UserId) (role : ApproverRole) :
    (Worker.approveRelease s id approverId role).Tells s j w := by
  refine tells_findEscrow fun found w₁ _ hrow => ?_
  refine safe_perform (lists_evolves s) (fun _ _ => trivial) fun approver w₂ h₂ => ?_
  refine safe_orThrow fun e he => safe_secretOf (lists_evolves s) fun key w₃ h₃ => ?_
  refine safe_perform (lists_evolves s) (fun _ _ => trivial) fun hash w₄ h₄ => ?_
  refine safe_perform (lists_evolves s) (fun _ _ => trivial) fun onChain w₅ h₅ => ?_
  refine safe_perform (lists_evolves s) (fun _ _ => trivial) fun _ w₆ h₆ => ?_
  have h := (lists_evolves s).trans h₂ ((lists_evolves s).trans h₃ ((lists_evolves s).trans h₄
    ((lists_evolves s).trans h₅ h₆)))
  split
  · exact tells_party hrow he h (.inr rfl) rfl
  · trivial

theorem tells_process (j : Job) : (Worker.process s j).Tells s j w := by
  cases j with
  | fundEscrow => exact tells_fundEscrow _ _ _
  | releaseEscrow => exact tells_releaseEscrow _ _
  | refundEscrow => exact tells_refundEscrow _ _ _
  | approveRelease => exact tells_approveRelease _ _ _
  | completeMilestone => exact tells_completeMilestone _ _
  | claimExpired => exact tells_claimExpired _ _

end

/-! ## What is out -/

/-- What has gone out is for endpoints that may hear of it; a job without an address reaches nobody. -/
structure World.Confined (w : World) : Prop where
  deliveries : ∀ d ∈ w.outbox.deliveries, ∃ ep, w.db.MayHear ep d.event d.payload ∧ d.endpointId = ep.id
  queue : ∀ job ∈ w.outbox.queue, job.url = none ∨
    ∃ ep, w.db.MayHear ep job.event job.payload ∧ job.url = some ep.url ∧ job.secret = some ep.secret

section
variable {s : Stellar} {c : Site} {logs : List AuditLog} {w w' : World}

theorem Db.Later.mayHear {db db' : Db} (h : db.Later db') {ep : WebhookEndpoint} {event : WebhookEvent}
    {payload : WebhookPayload} (hm : db.MayHear ep event payload) : db'.MayHear ep event payload :=
  hm.mono h.endpoints fun hp id hid => h.party (hp id hid)

/-- The client named in a funding job is the client of the row. -/
theorem Site.Traced.mayHear (h : c.Traced logs) {j : Job} (hj : j ∈ c.world.jobs) {ep : WebhookEndpoint}
    {event : WebhookEvent} {payload : WebhookPayload}
    (hs : c.world.db.Subscribed ep event fun u => j.MayTell c.world.db u payload) :
    c.world.db.MayHear ep event payload := by
  refine hs.mono rfl fun hm id hid => ?_
  rcases hm id hid with hp | ⟨⟨amount, rfl⟩, e, he, -⟩
  · exact hp
  · obtain ⟨x, hx, hjob⟩ := h.fundings _ hj trivial
    obtain ⟨rfl, hu, -⟩ := Job.fundEscrow.inj hjob
    exact ⟨e, he, .inl (hu.symm.trans (h.rows x hx e he).clientId.symm)⟩

theorem World.Confined.later (h : w.Confined) (hdb : w.db.Later w'.db)
    (hd : ∀ d ∈ w'.outbox.deliveries, d ∈ w.outbox.deliveries ∨
      ∃ ep, w'.db.MayHear ep d.event d.payload ∧ d.endpointId = ep.id)
    (hq : ∀ job ∈ w'.outbox.queue, job ∈ w.outbox.queue ∨ job.url = none ∨
      ∃ ep, w'.db.MayHear ep job.event job.payload ∧ job.url = some ep.url ∧ job.secret = some ep.secret) :
    w'.Confined where
  deliveries d hmem := by
    rcases hd d hmem with hold | hnew
    · obtain ⟨ep, hm, he⟩ := h.deliveries d hold
      exact ⟨ep, hdb.mayHear hm, he⟩
    · exact hnew
  queue job hmem := by
    rcases hq job hmem with hold | hnew
    · rcases h.queue job hold with hnone | ⟨ep, hm, hu⟩
      · exact .inl hnone
      · exact .inr ⟨ep, hdb.mayHear hm, hu⟩
    · exact hnew

theorem World.Confined.of_outbox (h : w.Confined) (hdb : w.db.Later w'.db) (ho : w'.outbox = w.outbox) :
    w'.Confined :=
  h.later hdb (fun d hd => .inl (by rw [← ho]; exact hd)) fun job hjob => .inl (by rw [← ho]; exact hjob)

/-- Jobs without an address come from the dispute service. -/
theorem World.Confined.of_queue (h : w.Confined) (hdb : w.db.Later w'.db) {jobs : List WebhookJob}
    (ho : w'.outbox = { w.outbox with queue := w.outbox.queue ++ jobs }) (hjobs : ∀ job ∈ jobs, job.url = none) :
    w'.Confined := by
  refine h.later hdb (fun d hd => .inl ?_) fun job hjob => ?_
  · rw [ho] at hd
    exact hd
  · rw [ho] at hjob
    rcases List.mem_append.mp hjob with hjob | hjob
    · exact .inl hjob
    · exact .inr (.inl (hjobs job hjob))

theorem World.perform_sends (s : Stellar) (w : World) (o : Op) : (w.perform s o).1.outbox = w.outbox ∨
    (∃ d, o = .createDelivery d) ∨ ∃ job, o = .enqueueWebhook job := by
  cases o with
  | createDelivery d => exact .inr (.inl ⟨d, rfl⟩)
  | enqueueWebhook job => exact .inr (.inr ⟨job, rfl⟩)
  | findEscrow | findUser | findEndpoints | findSubscribers | simulateGetEscrow => exact .inl rfl
  | transact tx =>
    change (w.transact tx).1.outbox = _ ∨ _
    unfold World.transact
    split <;> exact .inl rfl
  | submit method args signers =>
    change (w.submit s method args signers).1.outbox = _ ∨ _
    unfold World.submit
    repeat' split
    all_goals exact .inl rfl

theorem confined_perform (ht : c.Traced logs) (h : c.world.Confined) {o : Op}
    (ho : ∃ j ∈ c.world.jobs, j.Signs o ∧ j.Tells c.world o) : ((site s).perform c o).1.world.Confined := by
  obtain ⟨j, hj, -, htells⟩ := ho
  have hdb := (Site.later_evolves s).perform c o |>.db
  rcases Site.perform_cases s c o with hp | hp
  · rw [hp] at hdb ⊢
    rcases World.perform_sends s c.world o with hout | ⟨d, rfl⟩ | ⟨job, rfl⟩
    · exact h.of_outbox hdb hout
    · refine h.later hdb (fun d' hd' => ?_) fun _ hjob => .inl hjob
      rcases List.mem_append.mp hd' with hd' | hd'
      · exact .inl hd'
      · obtain rfl := List.mem_singleton.mp hd'
        obtain ⟨ep, hm, he⟩ := htells
        exact .inr ⟨ep, ht.mayHear hj hm, he⟩
    · refine h.later hdb (fun _ hd => .inl hd) fun job' hjob' => ?_
      rcases List.mem_append.mp hjob' with hjob' | hjob'
      · exact .inl hjob'
      · obtain rfl := List.mem_singleton.mp hjob'
        obtain ⟨ep, hm, hu⟩ := htells
        exact .inr (.inr ⟨ep, ht.mayHear hj hm, hu⟩)
  · rw [hp]
    exact h

theorem Request.unaddressed {r : Request} {db : Db} {res : Response} (h : r.serve db = .ok res) :
    ∀ job ∈ res.webhooks, job.url = none := by
  obtain ⟨u, -, hs⟩ := Request.served h
  cases hs with
  | replayed | created | queued | reviewed => exact List.forall_mem_nil _
  | disputed | resolved => exact List.forall_mem_singleton.mpr rfl

theorem DisputeWrite.unaddressed (d : DisputeWrite) : ∀ job ∈ d.webhooks, job.url = none := by
  cases d with
  | opening | verdict => exact List.forall_mem_singleton.mpr rfl
  | review => exact List.forall_mem_nil _

theorem Site.request_queues (c : Site) (r : Request) : ∃ jobs : List WebhookJob,
    (c.request r).world.outbox = { c.world.outbox with queue := c.world.outbox.queue ++ jobs } ∧
      ∀ job ∈ jobs, job.url = none := by
  have hidle : ∃ jobs : List WebhookJob, c.world.outbox =
      { c.world.outbox with queue := c.world.outbox.queue ++ jobs } ∧ ∀ job ∈ jobs, job.url = none :=
    ⟨[], by rw [List.append_nil], List.forall_mem_nil _⟩
  have hserved : ∃ jobs : List WebhookJob, (c.world.request r).outbox =
      { c.world.outbox with queue := c.world.outbox.queue ++ jobs } ∧ ∀ job ∈ jobs, job.url = none := by
    cases hserve : r.serve c.world.db with
    | error e => rw [world_request_error hserve]; exact hidle
    | ok res => exact ⟨res.webhooks, by rw [world_request_ok hserve], Request.unaddressed hserve⟩
  unfold request
  cases r.guards c.world.db with
  | error e => exact hidle
  | ok u =>
    cases r with
    | createEscrow | openDispute | setUnderReview | resolveDispute =>
      simp only
      split <;> exact hidle
    | releaseEscrow | refundEscrow | approveRelease | completeMilestone | claimExpired => exact hserved

theorem confined_env (h : c.world.Confined) (a : SiteAction) : (c.env s a).world.Confined := by
  have hdb := (Site.later_evolves s).env c a |>.db
  change c.world.db.Later (c.env s a).world.db at hdb
  have hturns (hc : (c.env s a).world.outbox = c.world.outbox) := h.of_outbox hdb hc
  have hmoved {c' : Site} (hc : c.Turns c') : c'.world.outbox = c.world.outbox := by
    rcases hc with rfl | ⟨n, x, w, st, -, hm, rfl⟩
    · rfl
    · cases hm <;> rfl
  cases a with
  | ledger | drop => exact hturns rfl
  | request r =>
    obtain ⟨jobs, ho, hjobs⟩ := c.request_queues r
    exact h.of_queue hdb ho hjobs
  | advance n => exact hturns (hmoved (c.advance_turns n))
  | abort n => exact hturns (hmoved (c.abort_turns n))
  | write n =>
    change c.world.db.Later (c.write n).world.db at hdb
    change (c.write n).world.Confined
    unfold Site.write at hdb ⊢
    cases hd : c.writes[n]? with
    | none => exact h
    | some d =>
      simp only [hd] at hdb ⊢
      cases ha : d.apply c.world.db with
      | error e => exact h
      | ok db =>
        simp only [ha] at hdb ⊢
        exact h.of_queue hdb rfl d.unaddressed

theorem Site.Later.lists {c' : Site} (h : c.Later c') : c.world.Lists c'.world := by
  refine ⟨fun id e he => ?_, h.db.endpoints⟩
  obtain ⟨e', he', hf⟩ := h.db.rows id e he
  exact ⟨e', he', hf.toKept⟩

theorem safe_telling (j : Job) (c : Site) (hj : j ∈ c.world.jobs) :
    Prog.Safe (site s) Site.Later (fun c o => ∃ j ∈ c.world.jobs, j.Signs o ∧ j.Tells c.world o)
      (Worker.process s j) c := by
  have hsigns : Prog.Safe (site s) Site.Later (fun _ o => j.Signs o) (Worker.process s j) c :=
    (site_safe (signs_process j)).imp (fun _ _ _ => trivial) fun _ _ h => h
  have htells : Prog.Safe (site s) Site.Later (fun c o => j.Tells c.world o) (Worker.process s j) c :=
    (site_safe (tells_process j)).imp (fun _ _ h => h.lists) fun _ _ h => h
  have hqueued := Prog.safe_lasting (Site.later_evolves s) (P := fun c => j ∈ c.world.jobs)
    (fun _ _ h => h.jobs j) (Worker.process s j) hj
  exact ((hsigns.and htells).and hqueued).imp (fun _ _ h => h) fun _ _ h => ⟨j, h.2, h.1⟩

end

/-- Over any run, what goes out about an escrow goes to its parties. -/
theorem deliveries_go_to_parties {s : Stellar} {w : World} (hj : w.jobs = [])
    (hd : ∀ k d, w.db.disputes.lookup k = some d → w.db.RaisedByParty d) (hw : w.Confined)
    (as : List (PoolAction Job SiteAction WorkerError)) (has : (Site.start w).FromQueue s as) :
    ((Site.start w).after s as).world.world.Confined :=
  (keeps_fromQueue (I := fun c => c.Traced w.db.auditLogs ∧ c.world.Confined) safe_telling
    (fun _ a h => ⟨h.1.env s a, confined_env h.2 a⟩)
    (fun _ _ h ho => ⟨h.1.perform (by
      obtain ⟨j, hj, hs, -⟩ := ho
      exact ⟨j, hj, hs⟩), confined_perform h.1 h.2 ho⟩)
    ⟨traced_start hj hd, hw⟩ as has).2

/-- The client and somebody else listen for fundings. -/
def sampleListening : World :=
  { sampleWorld with db := { sampleWorld.db with webhookEndpoints :=
    [⟨"endpoint", "client", true, [.escrowFunded], "https://client", "client's secret", none, 0⟩,
      ⟨"other", "admin", true, [.escrowFunded], "https://admin", "admin's secret", none, 0⟩] } }

theorem sample_deliveries : ((Site.start sampleListening).after sampleStellar
      (sampleDisputed ++ List.replicate 4 (.step 0 .none))).world.world.Confined ∧
    ((Site.start sampleListening).after sampleStellar
      (sampleDisputed ++ List.replicate 4 (.step 0 .none))).world.world.outbox.deliveries.map (·.endpointId) =
        ["endpoint"] :=
  ⟨deliveries_go_to_parties rfl (fun _ _ h => by cases h) ⟨List.forall_mem_nil _, List.forall_mem_nil _⟩
    (sampleDisputed ++ List.replicate 4 (.step 0 .none)) (by decide +kernel), by decide +kernel⟩

end NexusHub
