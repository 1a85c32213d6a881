import NexusHub.Commits

/-!
# What an operation does to the world

A confirmed submission is one successful call on the ledger, a commit one
transaction on the database; every other operation leaves both alone.
-/

namespace NexusHub

/-! ## The calls the service makes -/

theorem dispatch_init {id : Uuid} {client freelancer token : Address} {amount : I128} {hash : Bytes}
    {description : String} {delay total expiry : UInt32} :
    dispatch "init_escrow" [.bytes (escrowIdToBytes id.text), .address client, .address freelancer,
    .address token,
        .i128 amount, .bytes hash, .string description, .u32 delay, .u32 total, .u32 expiry] =
      some (.initEscrow id.bytes client freelancer token amount hash description delay total expiry) := by
  rw [escrowIdToBytes_text]; rfl

theorem dispatch_fund {id : Uuid} :
    dispatch "fund" [.bytes (escrowIdToBytes id.text)] = some (.fund id.bytes) := by
  rw [escrowIdToBytes_text]; rfl

/-- The argument list has one argument too many. -/
theorem dispatch_release {id : Uuid} {client : Address} {hash : Bytes} :
    dispatch "release" [.bytes (escrowIdToBytes id.text), .address client, .bytes hash] = none := rfl

theorem dispatch_refund {id : Uuid} :
    dispatch "refund" [.bytes (escrowIdToBytes id.text)] = some (.refund id.bytes) := by
  rw [escrowIdToBytes_text]; rfl

theorem dispatch_approve {id : Uuid} {approver : Address} :
    dispatch "approve_release" [.bytes (escrowIdToBytes id.text), .address approver] =
      some (.approveRelease id.bytes approver) := by
  rw [escrowIdToBytes_text]; rfl

theorem dispatch_milestone {id : Uuid} :
    dispatch "complete_milestone" [.bytes (escrowIdToBytes id.text)] = some (.completeMilestone id.bytes) := by
  rw [escrowIdToBytes_text]; rfl

theorem dispatch_expire {id : Uuid} :
    dispatch "claim_expired" [.bytes (escrowIdToBytes id.text)] = some (.claimExpired id.bytes) := by
  rw [escrowIdToBytes_text]; rfl

/-! ## Effects -/

def Call.isInit : Call → Bool
  | initEscrow .. => true
  | _ => false

/-- The operations that write neither to the database nor to the ledger. -/
def Op.Quiet : Op → Prop
  | transact _ | submit .. => False
  | _ => True

namespace World

/-- Equal but for the webhooks. -/
structure Same (w w' : World) : Prop where
  db : w'.db = w.db
  ledger : w'.ledger = w.ledger
  jobs : w'.jobs = w.jobs
  commits : w'.commits = w.commits

structure Called (contract : Address) (signers : List Address) (call : Call) (w w' : World) : Prop where
  ledger : ∃ h, call.exec (w.ledger.env contract signers) w.ledger.host = .ok h ∧
    w'.ledger = w.ledger.commit signers call h
  db : w'.db = w.db
  jobs : w'.jobs = w.jobs
  commits : w'.commits = w.commits

structure Committed (tx : DbTx) (w w' : World) : Prop where
  db : tx.apply w.db = .ok w'.db
  ledger : w'.ledger = w.ledger
  jobs : w'.jobs = w.jobs
  commits : w'.commits = w.commits ++ [tx]

def Accepts (self : Address) (signers : List Address) (call : Call) (w : World) : Prop :=
  ∃ h, call.exec (w.ledger.env self signers) w.ledger.host = .ok h

@[refl] theorem Same.refl (w : World) : w.Same w := ⟨rfl, rfl, rfl, rfl⟩

theorem Same.trans {w w' w'' : World} (h : w.Same w') (h' : w'.Same w'') : w.Same w'' :=
  ⟨h'.db.trans h.db, h'.ledger.trans h.ledger, h'.jobs.trans h.jobs, h'.commits.trans h.commits⟩

theorem Committed.then_same {tx : DbTx} {w w' w'' : World} (h : w.Committed tx w') (h' : w'.Same w'') :
    w.Committed tx w'' :=
  ⟨h'.db ▸ h.db, h'.ledger.trans h.ledger, h'.jobs.trans h.jobs, h'.commits.trans h.commits⟩

theorem Called.then_same {self : Address} {signers : List Address} {call : Call} {w w' w'' : World}
    (h : w.Called self signers call w') (h' : w'.Same w'') : w.Called self signers call w'' :=
  ⟨h'.ledger ▸ h.ledger, h'.db.trans h.db, h'.jobs.trans h.jobs, h'.commits.trans h.commits⟩

theorem Called.step {contract : Address} {signers : List Address} {call : Call} {w w' : World}
    (h : w.Called contract signers call w') :
    w'.ledger = Ledger.step contract w.ledger (.invoke signers call) := by
  obtain ⟨host, hx, hl⟩ := h.ledger
  rw [hl, Ledger.step, Ledger.invoke, hx]

theorem Called.accepts {self : Address} {signers : List Address} {call : Call} {w w' : World}
    (h : w.Called self signers call w') : w.Accepts self signers call := by
  obtain ⟨host, hx, -⟩ := h.ledger
  exact ⟨host, hx⟩

/-! ## Submissions -/

section
variable {s : Stellar} {w : World} {method : String} {args : List ScVal} {signers : List Address} {call : Call}

theorem submit_ok (hd : dispatch method args = some call) {hash : TxHash}
    (h : (w.submit s method args signers).2 = .ok hash) :
    w.Called s.contract signers call (w.submit s method args signers).1 ∧ hash = w.ledger.history.length := by
  unfold submit at h ⊢
  simp only [hd] at h ⊢
  cases hx : call.exec (w.ledger.env s.contract signers) w.ledger.host with
  | ok host =>
    simp only [hx] at h ⊢
    exact ⟨⟨⟨host, hx, rfl⟩, rfl, rfl, rfl⟩, (Except.ok.inj h).symm⟩
  | error e => simp only [hx] at h; cases h

theorem submit_error {e : WorkerError} (h : (w.submit s method args signers).2 = .error e) :
    (w.submit s method args signers).1 = w ∧
      ∀ call, dispatch method args = some call → ¬ w.Accepts s.contract signers call := by
  unfold submit at h ⊢
  cases hd : dispatch method args with
  | none => exact ⟨rfl, fun c hc => by cases hc⟩
  | some call =>
    simp only [hd] at h
    cases hx : call.exec (w.ledger.env s.contract signers) w.ledger.host with
    | ok host => simp only [hx] at h; cases h
    | error e =>
      refine ⟨by simp only [hx], fun c hc ⟨host, hh⟩ => ?_⟩
      cases hc
      rw [hx] at hh; cases hh

theorem submit_effect (s : Stellar) (w : World) (method : String) (args : List ScVal) (signers : List Address) :
    (w.submit s method args signers).1 = w ∨
    ∃ call, dispatch method args = some call ∧
      w.Called s.contract signers call (w.submit s method args signers).1 := by
  cases h : (w.submit s method args signers).2 with
  | error e => exact .inl (submit_error h).1
  | ok hash =>
    cases hd : dispatch method args with
    | none => unfold submit at h; simp only [hd] at h; cases h
    | some call => exact .inr ⟨call, rfl, (submit_ok hd h).1⟩

end

/-! ## Commits -/

theorem transact_ok {w : World} {tx : DbTx} (h : (w.transact tx).2 = .ok ()) :
    w.Committed tx (w.transact tx).1 := by
  unfold transact at h ⊢
  cases ha : tx.apply w.db with
  | ok db => exact ⟨ha, rfl, rfl, rfl⟩
  | error e => simp only [ha] at h; cases h

theorem transact_error {w : World} {tx : DbTx} {e : WorkerError} (h : (w.transact tx).2 = .error e) :
    (w.transact tx).1 = w ∧ ∀ db, tx.apply w.db ≠ .ok db := by
  unfold transact at h ⊢
  cases ha : tx.apply w.db with
  | ok db => simp only [ha] at h; cases h
  | error e => exact ⟨rfl, nofun⟩

theorem transact_effect (w : World) (tx : DbTx) : (w.transact tx).1 = w ∨ w.Committed tx (w.transact tx).1 := by
  cases h : (w.transact tx).2 with
  | ok u => exact .inr (transact_ok h)
  | error e => exact .inl (transact_error h).1

/-! ## Any operation -/

theorem simulate_ok {s : Stellar} {w : World} {id : Uuid} {r : EscrowRecord} :
    (w.perform s (.simulateGetEscrow (escrowIdToBytes id.text))).2 = .ok r ↔
      w.ledger.storage.escrows.lookup id.bytes = some r := by
  simp only [perform, escrowIdToBytes_text]
  rw [← loadEscrow_ok, NexusEscrow.getEscrow]
  cases w.ledger.storage.loadEscrow id.bytes <;> simp

theorem perform_quiet {s : Stellar} {w : World} {o : Op} (h : o.Quiet) : w.Same (w.perform s o).1 := by
  cases o with
  | transact | submit => exact h.elim
  | findEscrow | findUser | findEndpoints | findSubscribers | createDelivery | enqueueWebhook | simulateGetEscrow =>
    exact ⟨rfl, rfl, rfl, rfl⟩

theorem perform_cases (s : Stellar) (w : World) (o : Op) :
    w.Same (w.perform s o).1 ∨
    (∃ tx, o = .transact tx ∧ w.Committed tx (w.perform s o).1) ∨
    ∃ method args signers call, o = .submit method args signers ∧ dispatch method args = some call ∧
      w.Called s.contract signers call (w.perform s o).1 := by
  cases o with
  | transact tx =>
    rcases transact_effect w tx with h | h
    · left; change w.Same (w.transact tx).1; rw [h]
    · exact .inr (.inl ⟨tx, rfl, h⟩)
  | submit method args signers =>
    rcases submit_effect s w method args signers with h | ⟨c, hd, hc⟩
    · left; change w.Same (w.submit s method args signers).1; rw [h]
    · exact .inr (.inr ⟨method, args, signers, c, rfl, hd, hc⟩)
  | findEscrow | findUser | findEndpoints | findSubscribers | createDelivery | enqueueWebhook | simulateGetEscrow =>
    exact .inl (perform_quiet trivial)

theorem perform_db {s : Stellar} {w : World} {o : Op} (I : Db → Prop) (h : I w.db)
    (hc : ∀ tx db, o = .transact tx → tx.apply w.db = .ok db → I db) : I (w.perform s o).1.db := by
  rcases perform_cases s w o with hs | ⟨tx, rfl, hcom⟩ | ⟨m, args, ss, call, rfl, -, hcalled⟩
  · rw [hs.db]; exact h
  · exact hc tx _ rfl hcom.db
  · rw [hcalled.db]; exact h

/-! ## Calls on one record -/

section
variable {contract : Address} {signers : List Address} {call : Call} {w w' : World} {id : Bytes}

theorem Called.updates (hw : w.ledger.Reachable contract) (h : w.Called contract signers call w')
    (hid : call.escrowId? = some id) (hinit : call.isInit = false) :
    ∃ r, w.ledger.storage.escrows.lookup id = some r ∧ r.Ok id ∧
      call.Admits (w.ledger.env contract signers) w.ledger.storage.isPaused r ∧
      ∀ k, w'.ledger.storage.escrows.lookup k =
        if k = id then some (call.change (w.ledger.env contract signers) r).record
        else w.ledger.storage.escrows.lookup k := by
  obtain ⟨host, hx, hl⟩ := h.ledger
  rcases exec_cases hx with hc | ⟨k, r, hc, rfl⟩ | ⟨k, hk, r, hr, ha, -, -, rfl⟩
  · rw [hc.named] at hid; cases hid
  · obtain ⟨_, _, _, _, -, rfl⟩ := hc.call_eq
    cases hinit
  · obtain rfl : k = id := Option.some.inj (hk.symm.trans hid)
    have hok := hw.storage_ok.records k r hr
    refine ⟨r, hr, hok, ha, fun k' => ?_⟩
    have hkey := (hok.change ha).keyed
    rw [hl]
    simp only [Ledger.commit, Host.apply, Storage.saveEscrow, hkey]
    exact Store.lookup_insert' _ _ _ _

theorem Called.creates (hw : w.ledger.Reachable contract) (h : w.Called contract signers call w')
    (hid : call.escrowId? = some id) (hinit : call.isInit = true) :
    ∃ r, call.Creates (w.ledger.env contract signers) w.ledger.storage id r ∧ r.Ok id ∧
      ∀ k, w'.ledger.storage.escrows.lookup k =
        if k = id then some r else w.ledger.storage.escrows.lookup k := by
  obtain ⟨host, hx, hl⟩ := h.ledger
  rcases exec_cases hx with hc | ⟨k, r, hc, rfl⟩ | ⟨k, hk, r, hr, ha, -, -, rfl⟩
  · rw [hc.named] at hid; cases hid
  · obtain rfl : k = id := Option.some.inj (hc.named.symm.trans hid)
    refine ⟨r, hc, hc.record_ok hw.storage_ok.fee, fun k' => ?_⟩
    rw [hl]
    simp only [Ledger.commit, Host.apply, Storage.saveEscrow, hc.escrowId]
    exact Store.lookup_insert' _ _ _ _
  · cases call <;> first | exact ha.elim | cases hinit

theorem Called.lookup_ne (hw : w.ledger.Reachable contract) (h : w.Called contract signers call w')
    (hid : call.escrowId? = some id) {k : Bytes} (hk : k ≠ id) :
    w'.ledger.storage.escrows.lookup k = w.ledger.storage.escrows.lookup k := by
  obtain ⟨host, hx, hl⟩ := h.ledger
  rw [hl]
  exact exec_lookup_ne hw.storage_ok hx fun he => hk (Option.some.inj (he.symm.trans hid))

theorem Called.reachable (hw : w.ledger.Reachable contract) (h : w.Called contract signers call w') :
    w'.ledger.Reachable contract := by
  rw [h.step]; exact Ledger.reachable_run hw [.invoke signers call]

end

end World

/-! ## What handlers perform -/

theorem performs_orThrow {α : Type} {A : Op → Prop} (x : Option α) (e : WorkerError) :
    (orThrow x e : Handler α).Performs A := by
  cases x <;> trivial

theorem performs_pure {α : Type} {A : Op → Prop} (a : α) : (pure a : Handler α).Performs A := trivial

def Op.ReadsRow : Op → Prop
  | findEscrow _ | findUser _ => True
  | _ => False

theorem Op.ReadsRow.quiet {o : Op} (ho : o.ReadsRow) : o.Quiet := by
  cases o with
  | findEscrow | findUser => trivial
  | _ => exact ho.elim

theorem secretOf_performs {s : Stellar} {A : Op → Prop} (user : Option User) (missing : String) :
    (Worker.secretOf s user missing).Performs A :=
  Prog.performs_bind (performs_orThrow _ _) fun _ => performs_orThrow _ _

theorem freelancerOf_performs (id : Uuid) : (Worker.freelancerOf id).Performs Op.ReadsRow := by
  refine Prog.performs_bind (Prog.performs_call trivial) fun escrow => ?_
  cases escrow with
  | none => exact performs_pure _
  | some e => exact Prog.performs_call trivial

theorem readFundingInput_performs (s : Stellar) (id : Uuid) (clientId : UserId) :
    (Worker.readFundingInput s id clientId).Performs Op.ReadsRow := by
  refine Prog.performs_bind (Prog.performs_call trivial) fun found => ?_
  refine Prog.performs_bind (Prog.performs_call trivial) fun client => ?_
  refine Prog.performs_bind (freelancerOf_performs id) fun freelancer => ?_
  refine Prog.performs_bind (performs_orThrow _ _) fun escrow => Prog.performs_bind (performs_orThrow _ _)
    fun secret => ?_
  exact Prog.performs_bind (performs_orThrow _ _) fun freelancerAddress =>
    Prog.performs_bind (performs_orThrow _ _) fun clientKey => performs_pure _

theorem initIfNeeded_performs (s : Stellar) (id : Uuid) (input : Worker.FundingInput) (amount : Int) :
    (Worker.initIfNeeded s id input amount).Performs fun o => ∃ method args signers call,
      o = .submit method args signers ∧ dispatch method args = some call ∧ call.isInit = true := by
  unfold Worker.initIfNeeded
  split
  · refine Prog.performs_bind ?_ fun _ => performs_pure _
    refine Prog.performs_bind (performs_orThrow _ _) fun amount => Prog.performs_bind (performs_orThrow _ _)
      fun delay => ?_
    refine Prog.performs_bind (performs_orThrow _ _) fun total => Prog.performs_bind (performs_orThrow _ _)
      fun expiry => ?_
    exact Prog.performs_call ⟨_, _, _, _, rfl, dispatch_init, rfl⟩
  · exact performs_pure _

theorem fireWebhook_performs (event : WebhookEvent) (userId : UserId) (payload : WebhookPayload) :
    (Worker.fireWebhook event userId payload).Performs Op.Quiet := by
  refine Prog.performs_bind (Prog.performs_call trivial) fun endpoints => ?_
  induction endpoints with
  | nil => exact performs_pure _
  | cons e es ih =>
    exact Prog.performs_bind (Prog.performs_call trivial) fun _ =>
      Prog.performs_bind (Prog.performs_call trivial) fun _ => ih

/-! ## Safe handlers

Conditions on the commits alone: `hok` says that any other operation is fine. -/

def Op.NoCommit : Op → Prop
  | transact _ => False
  | _ => True

section
variable {s : Stellar} {R : World → World → Prop} {ok : World → Op → Prop} {w : World} {α β : Type}

theorem safe_orThrow {x : Option α} {e : WorkerError} {f : α → Handler β}
    (h : ∀ a, x = some a → Prog.Safe (platform s) R ok (f a) w) :
    Prog.Safe (platform s) R ok (orThrow x e >>= f) w := by
  cases x with
  | none => trivial
  | some a => exact h a rfl

theorem safeTo_orThrow {Q : World → β → Prop} {x : Option α} {e : WorkerError} {f : α → Handler β}
    (h : ∀ a, x = some a → Prog.SafeTo (platform s) R ok Q (f a) w) :
    Prog.SafeTo (platform s) R ok Q (orThrow x e >>= f) w := by
  cases x with
  | none => trivial
  | some a => exact h a rfl

variable (hR : Prog.Evolves (platform s) R)
include hR

theorem safe_perform {o : Op} {f : o.Res → Handler β} (ho : ∀ w', R w w' → ok w' o)
    (hf : ∀ r w', R w w' → Prog.Safe (platform s) R ok (f r) w') :
    Prog.Safe (platform s) R ok (perform o >>= f) w :=
  Prog.safe_call_bind ho fun w' r h _ => hf r _ (hR.trans h (hR.perform w' o))

theorem safe_secretOf {user : Option User} {missing : String} {f : Address → Handler β}
    (h : ∀ a w', R w w' → Prog.Safe (platform s) R ok (f a) w') :
    Prog.Safe (platform s) R ok (Worker.secretOf s user missing >>= f) w := by
  refine Prog.safe_bind hR (safe_orThrow fun secret _ => ?_) h
  cases s.keypairOf secret <;> trivial

variable (hok : ∀ w o, o.NoCommit → ok w o)
include hok

omit hR in
theorem safe_findEscrow {id : Uuid} {f : Option Escrow → Handler β}
    (h : ∀ w', R w w' → Prog.Safe (platform s) R ok (f (w'.db.escrows.lookup id)) w') :
    Prog.Safe (platform s) R ok (perform (.findEscrow id) >>= f) w := by
  refine Prog.safe_call_bind (fun w' _ => hok w' _ trivial) fun w' r hw hr => ?_
  cases hr
  exact h w' hw

theorem safe_read {o : Op} {f : o.Res → Handler β} (ho : o.NoCommit)
    (hf : ∀ r w', R w w' → Prog.Safe (platform s) R ok (f r) w') :
    Prog.Safe (platform s) R ok (perform o >>= f) w :=
  safe_perform hR (fun w' _ => hok w' o ho) hf

theorem safe_invoke {method : String} {args : List ScVal} {signers : List Address} {f : TxHash → Handler β}
    (hf : ∀ r w', R w w' → Prog.Safe (platform s) R ok (f r) w') :
    Prog.Safe (platform s) R ok (s.invoke method args signers >>= f) w :=
  safe_read hR hok trivial hf

theorem safe_deliverTo (event : WebhookEvent) (payload : WebhookPayload) (endpoints : List WebhookEndpoint) :
    Prog.Safe (platform s) R ok (Worker.deliverTo event payload endpoints) w := by
  induction endpoints generalizing w with
  | nil => trivial
  | cons endpoint rest ih =>
    exact safe_read hR hok trivial fun _ _ _ => safe_read hR hok trivial fun _ _ _ => ih

theorem safe_fireWebhook (event : WebhookEvent) (userId : UserId) (payload : WebhookPayload) :
    Prog.Safe (platform s) R ok (Worker.fireWebhook event userId payload) w :=
  safe_read hR hok trivial fun endpoints _ _ => safe_deliverTo hR hok event payload endpoints

theorem safe_readFundingInput (id : Uuid) (clientId : UserId) :
    Prog.Safe (platform s) R ok (Worker.readFundingInput s id clientId) w := by
  refine safe_read hR hok trivial fun found w _ => ?_
  refine safe_read hR hok trivial fun client w _ => ?_
  refine Prog.safe_bind hR ?_ fun freelancer w _ => ?_
  · refine safe_read hR hok trivial fun again w _ => ?_
    cases again with
    | none => trivial
    | some e => exact Prog.safe_call fun w' _ => hok w' _ trivial
  · exact safe_orThrow fun _ _ => safe_orThrow fun _ _ => safe_orThrow fun _ _ =>
      safe_orThrow fun _ _ => trivial

theorem safe_initIfNeeded (id : Uuid) (input : Worker.FundingInput) (amount : Int) :
    Prog.Safe (platform s) R ok (Worker.initIfNeeded s id input amount) w := by
  unfold Worker.initIfNeeded
  split
  · refine Prog.safe_bind hR ?_ fun _ _ _ => trivial
    refine safe_orThrow fun _ _ => safe_orThrow fun _ _ => safe_orThrow fun _ _ => safe_orThrow fun _ _ => ?_
    exact Prog.safe_call fun w' _ => hok w' _ trivial
  · trivial

end

end NexusHub
