import NexusHub.Fees
import NexusHub.WellFormed
import NexusHub.Writes

/-!
# The milestone commitment

The hash is any text: nobody checks it on its way from the request into the row.
At funding it is decoded as far as it is hex, and what comes out of that goes on
the ledger, for `release` to compare with.
-/

namespace NexusHub

/-! ## Rows and their records -/

structure Escrow.SameHash (e e' : Escrow) : Prop where
  hash : e'.milestoneHash = e.milestoneHash
  linked : e.stellarContractId.isSome → e'.stellarContractId.isSome

theorem DbTx.onEscrow_hash (tx : DbTx) (e : Escrow) : (tx.onEscrow e).milestoneHash = e.milestoneHash := by
  cases tx with
  | approve id e' u role c f txHash => simp only [onEscrow]; split <;> rfl
  | _ => rfl

theorem Escrow.sameHash_evolves : Escrow.Evolves Escrow.SameHash where
  refl _ := ⟨rfl, fun h => h⟩
  trans h h' := ⟨h'.hash.trans h.hash, fun hs => h'.linked (h.linked hs)⟩
  status _ _ := ⟨rfl, fun h => h⟩
  onEscrow tx e := ⟨tx.onEscrow_hash e, (tx.kept_onEscrow e).linked⟩

/-- Rows keep their hash, records their terms. -/
def World.Onward (contract : Address) (w w' : World) : Prop :=
  (∀ id, w.Keeps contract id w') ∧ w.db.Rows Escrow.SameHash w'.db

theorem onward_evolves (s : Stellar) : Prog.Evolves (platform s) (World.Onward s.contract) :=
  (Prog.Evolves.all (keeps_evolves s)).and (rows_evolve Escrow.sameHash_evolves s)

/-- The record of the escrow holds what its row's hash decodes to. -/
def World.CommitsTo (s : Stellar) (w : World) (id : Uuid) (e : Escrow) : Prop :=
  ∃ r, w.ledger.storage.escrows.lookup id.bytes = some r ∧
    r.milestoneHash = bufferFromHex (Worker.milestoneHashOf s id e)

variable {s : Stellar} {w w' : World} {id : Uuid}

theorem World.CommitsTo.onward {e e' : Escrow} (h : w.CommitsTo s id e) (hw : w.ledger.Reachable s.contract)
    (ho : w.Onward s.contract w') (he : e'.milestoneHash = e.milestoneHash) : w'.CommitsTo s id e' := by
  obtain ⟨r, hr, hb⟩ := h
  obtain ⟨r', hr', ht⟩ := (ho.1 id).record hw r hr
  refine ⟨r', hr', ?_⟩
  rw [EscrowRecord.get_of_terms ht (·.milestoneHash) fun _ => rfl, hb, Worker.milestoneHashOf,
    Worker.milestoneHashOf, he]

/-! ## What funding commits to -/

/-- The row is linked already, or may be. -/
def World.Pledged (s : Stellar) (w : World) (id : Uuid) : Prop :=
  ∃ e, w.db.escrows.lookup id = some e ∧ (e.stellarContractId.isSome ∨ w.CommitsTo s id e)

def World.Pledges (s : Stellar) (w : World) : Op → Prop
  | .transact (.fund id ..) => w.Pledged s id
  | _ => True

def Op.LinksNothing : Op → Prop
  | transact (.fund ..) => False
  | _ => True

theorem pledges_of_read (w : World) (o : Op) (h : o.NoCommit) : w.Pledges s o := by
  cases o with
  | transact tx => exact h.elim
  | _ => trivial

theorem World.Pledged.onward (h : w.Pledged s id) (hw : w.ledger.Reachable s.contract)
    (ho : w.Onward s.contract w') : w'.Pledged s id := by
  obtain ⟨e, he, h⟩ := h
  obtain ⟨e', he', hk⟩ := ho.2 id e he
  exact ⟨e', he', h.imp hk.linked fun h => h.onward hw ho hk.hash⟩

theorem readFundingInput_row {R : World → World → Prop} {ok : World → Op → Prop}
    (hR : Prog.Evolves (platform s) R) (hok : ∀ w o, o.NoCommit → ok w o) (clientId : UserId) :
    Prog.SafeTo (platform s) R ok (fun w' input => ∃ w₁, R w w₁ ∧ R w₁ w' ∧
      w₁.db.escrows.lookup id = some input.escrow) (Worker.readFundingInput s id clientId) w := by
  have hfound : Prog.SafeTo (platform s) R ok (fun w' found => R w w' ∧ found = w'.db.escrows.lookup id)
      (perform (.findEscrow id)) w :=
    Prog.safeTo_call (fun w' _ => hok w' _ trivial) fun w' r hw hr => ⟨hw, by cases hr; rfl⟩
  refine hfound.bind_to fun found w₁ h₁ => ?_
  obtain ⟨hw₁, rfl⟩ := h₁
  have hclient : Prog.Safe (platform s) R ok (perform (.findUser clientId)) w₁ :=
    Prog.safe_call fun w' _ => hok w' _ trivial
  refine (hclient.to_later hR).bind_to fun client w₂ h₂ => ?_
  refine ((Prog.Performs.safe (fun w o ho => hok w o ?_) (freelancerOf_performs id) w₂).to_later hR).bind_to
    fun freelancer w₃ h₃ => ?_
  · cases o with
    | findEscrow | findUser => trivial
    | _ => exact ho.elim
  refine safeTo_orThrow fun e he => safeTo_orThrow fun secret _ => safeTo_orThrow fun address _ =>
    safeTo_orThrow fun key _ => ?_
  exact ⟨w₁, hw₁, hR.trans h₂ h₃, he⟩

theorem World.Called.commitsTo {signers : List Address} {client freelancer token : Address} {amount : I128}
    {text description : String} {delay total expiry : UInt32} (hw : w.ledger.Reachable s.contract)
    (hc : w.Called s.contract signers (.initEscrow id.bytes client freelancer token amount (bufferFromHex text)
      description delay total expiry) w') {e : Escrow} (he : Worker.milestoneHashOf s id e = text) :
    w'.CommitsTo s id e := by
  obtain ⟨r, hcr, -, hlook⟩ := hc.creates hw rfl rfl
  obtain ⟨_, _, _, _, -, hcall⟩ := hcr.call_eq
  refine ⟨_, (hlook id.bytes).trans (if_pos rfl), ?_⟩
  rw [he]
  exact (Call.initEscrow.inj hcall).2.2.2.2.2.1.symm

theorem initIfNeeded_commits (hw : w.ledger.Reachable s.contract) (input : Worker.FundingInput) (amount : Int) :
    Prog.SafeTo (platform s) (World.Onward s.contract) (World.Pledges s)
      (fun w' _ => w.Onward s.contract w' ∧
        (input.escrow.stellarContractId.isSome ∨ w'.CommitsTo s id input.escrow))
      (Worker.initIfNeeded s id input amount) w := by
  unfold Worker.initIfNeeded
  split
  · refine Prog.SafeTo.bind_to (Q := fun w' _ => w.Onward s.contract w' ∧ w'.CommitsTo s id input.escrow) ?_
      fun _ w' h => ⟨h.1, .inr h.2⟩
    refine safeTo_orThrow fun a _ => safeTo_orThrow fun delay _ => safeTo_orThrow fun total _ =>
      safeTo_orThrow fun expiry _ => ?_
    refine Prog.safeTo_call (fun w₁ _ => trivial) fun w₁ txHash h₁ hr => ?_
    obtain ⟨hc, -⟩ := World.submit_ok dispatch_init hr
    exact ⟨(onward_evolves s).trans h₁ ((onward_evolves s).perform w₁ _),
      hc.commitsTo ((h₁.1 id).later.reachable hw) rfl⟩
  · rename_i hrow
    exact ⟨(onward_evolves s).refl w, .inl (Option.isSome_iff_ne_none.mpr fun h => hrow (by rw [h]; rfl))⟩

theorem pledges_of_linksNothing (w : World) (o : Op) (h : o.LinksNothing) : w.Pledges s o := by
  cases o with
  | transact tx =>
    cases tx with
    | fund => exact h.elim
    | _ => trivial
  | _ => trivial

theorem pledges_fundEscrow (hw : w.ledger.Reachable s.contract) (clientId : UserId) (amount : Int) :
    Prog.Safe (platform s) (World.Onward s.contract) (World.Pledges s)
      (Worker.fundEscrow s id clientId amount) w := by
  have hR := onward_evolves s
  have hreach {w₁ w₂ : World} (h : w₁.Onward s.contract w₂) (hw : w₁.ledger.Reachable s.contract) :
      w₂.ledger.Reachable s.contract := (h.1 id).later.reachable hw
  refine Prog.safe_tryCatch hR ?_ fun e w _ => ?_
  · refine (readFundingInput_row hR pledges_of_read clientId).bind fun input w₂ h₂ => ?_
    obtain ⟨w₁, h₁, h₁₂, hrow⟩ := h₂
    have hw₂ := hreach h₁₂ (hreach h₁ hw)
    refine (initIfNeeded_commits hw₂ input amount).bind fun _ w₃ h₃ => ?_
    obtain ⟨h₂₃, hc⟩ := h₃
    have hw₃ := hreach h₂₃ hw₂
    have hp : w₃.Pledged s id := by
      obtain ⟨e, he, hk⟩ := (hR.trans h₁₂ h₂₃).2 id input.escrow hrow
      exact ⟨e, he, hc.imp hk.linked fun hc => hc.onward hw₃ (hR.refl w₃) hk.hash⟩
    refine safe_invoke hR pledges_of_read fun txHash w₄ h₄ => ?_
    refine safe_perform hR (fun w₅ h₅ => hp.onward hw₃ (hR.trans h₄ h₅)) fun _ w _ => ?_
    exact safe_fireWebhook hR pledges_of_read _ _ _
  · refine Prog.safe_bind hR ?_ fun _ _ _ => trivial
    refine safe_perform hR (fun _ _ => trivial) fun _ w _ => ?_
    refine safe_read hR pledges_of_read trivial fun escrow w _ => ?_
    cases escrow with
    | none => trivial
    | some e => exact Prog.safe_call fun _ _ => trivial

/-! ### Settling -/

theorem webhook_linksNothing (event : WebhookEvent) (userId : UserId) (payload : WebhookPayload) :
    (Worker.fireWebhook event userId payload).Performs Op.LinksNothing := by
  refine Prog.Performs.mono (fun o ho => ?_) (fireWebhook_performs event userId payload)
  cases o with
  | transact | submit => exact ho.elim
  | _ => trivial

/-- Only funding sets `stellarContractId`. -/
theorem process_linksNothing (s : Stellar) {j : Job} (hj : ¬ j.IsFund) :
    (Worker.process s j).Performs Op.LinksNothing := by
  have hcall {o : Op} (ho : o.LinksNothing) : (perform o).Performs Op.LinksNothing := Prog.performs_call ho
  cases j with
  | fundEscrow => exact absurd trivial hj
  | releaseEscrow id clientId =>
    refine Prog.performs_bind (hcall trivial) fun found => Prog.performs_bind (hcall trivial) fun client => ?_
    refine Prog.performs_bind (performs_orThrow _ _) fun e => ?_
    refine Prog.performs_bind (secretOf_performs _ _) fun key => ?_
    refine Prog.performs_bind (hcall trivial) fun txHash => Prog.performs_bind (hcall trivial) fun _ => ?_
    exact webhook_linksNothing _ _ _
  | refundEscrow id adminId reason =>
    refine Prog.performs_bind (hcall trivial) fun found => Prog.performs_bind (performs_orThrow _ _) fun e => ?_
    refine Prog.performs_bind (hcall trivial) fun txHash => Prog.performs_bind (hcall trivial) fun _ => ?_
    exact webhook_linksNothing _ _ _
  | claimExpired id triggeredBy =>
    refine Prog.performs_bind (hcall trivial) fun found => Prog.performs_bind (performs_orThrow _ _) fun e => ?_
    refine Prog.performs_bind (hcall trivial) fun txHash => Prog.performs_bind (hcall trivial) fun _ => ?_
    exact webhook_linksNothing _ _ _
  | completeMilestone id freelancerId =>
    refine Prog.performs_bind (hcall trivial) fun found => Prog.performs_bind (hcall trivial) fun freelancer => ?_
    refine Prog.performs_bind (performs_orThrow _ _) fun e => ?_
    refine Prog.performs_bind (secretOf_performs _ _) fun key => ?_
    refine Prog.performs_bind (hcall trivial) fun txHash => Prog.performs_bind (hcall trivial) fun onChain => ?_
    exact Prog.performs_bind (hcall trivial) fun _ => webhook_linksNothing _ _ _
  | approveRelease id approverId role =>
    refine Prog.performs_bind (hcall trivial) fun found => Prog.performs_bind (hcall trivial) fun approver => ?_
    refine Prog.performs_bind (performs_orThrow _ _) fun e => ?_
    refine Prog.performs_bind (secretOf_performs _ _) fun key => ?_
    refine Prog.performs_bind (hcall trivial) fun txHash => Prog.performs_bind (hcall trivial) fun onChain => ?_
    refine Prog.performs_bind (hcall trivial) fun _ => ?_
    split
    · exact webhook_linksNothing _ _ _
    · exact performs_pure _

theorem pledges_process (hw : w.ledger.Reachable s.contract) (j : Job) :
    Prog.Safe (platform s) (World.Onward s.contract) (World.Pledges s) (Worker.process s j) w := by
  by_cases hf : j.IsFund
  · cases j with
    | fundEscrow id clientId amount => exact pledges_fundEscrow hw clientId amount
    | _ => exact hf.elim
  · exact Prog.Performs.safe pledges_of_linksNothing (process_linksNothing s hf) w

/-! ## Linked rows and their records -/

structure World.HashesKept (s : Stellar) (w : World) : Prop where
  reachable : w.ledger.Reachable s.contract
  rows : ∀ id e, w.db.escrows.lookup id = some e → e.stellarContractId.isSome → w.CommitsTo s id e

theorem DbTx.onEscrow_link {tx : DbTx} (h : (Op.transact tx).LinksNothing) (e : Escrow) :
    (tx.onEscrow e).stellarContractId = e.stellarContractId := by
  cases tx with
  | fund => exact h.elim
  | approve id e' u role c f txHash => simp only [onEscrow]; split <;> rfl
  | _ => rfl

/-- A row after a request is one from before with another status, or the request's own. -/
theorem Served.escrow_cases {db : Db} {role : UserRole} {r : Request} {res : Response} (h : Served db role r res)
    {id : Uuid} {e' : Escrow} (he' : res.db.escrows.lookup id = some e') :
    (∃ e v, db.escrows.lookup id = some e ∧ e' = { e with status := v }) ∨
    ∃ clientId dto key, r = .createEscrow clientId dto key id ∧ e' = EscrowService.newEscrow clientId dto := by
  have hsame (he : db.escrows.lookup id = some e') :
      ∃ e v, db.escrows.lookup id = some e ∧ e' = { e with status := v } := ⟨e', e'.status, he, rfl⟩
  have hset {k : Uuid} {e₀ : Escrow} (he₀ : db.escrows.lookup k = some e₀) {v : EscrowStatus}
      (he' : (db.escrows.insert k { e₀ with status := v }).lookup id = some e') :
      ∃ e v, db.escrows.lookup id = some e ∧ e' = { e with status := v } := by
    rw [Store.lookup_insert'] at he'
    split at he'
    · rename_i hk
      cases he'
      exact ⟨e₀, v, hk ▸ he₀, rfl⟩
    · exact hsame he'
  cases h with
  | replayed | queued | reviewed => exact .inl (hsame he')
  | created hc =>
    simp only [Store.lookup_insert'] at he'
    split at he'
    · rename_i hk
      cases he'
      exact .inr ⟨_, _, _, by rw [hk], rfl⟩
    · exact .inl (hsame he')
  | disputed he₀ _ _ => exact .inl (hset he₀ he')
  | @resolved _ _ resolution _ _ _ hv =>
    cases hver : resolution.verdict with
    | none =>
      rw [hver] at hv
      obtain rfl := hv
      exact .inl (hsame he')
    | some v =>
      rw [hver] at hv
      obtain ⟨e₀, he₀, rfl⟩ := hv
      exact .inl (hset he₀ he')

theorem World.env_row {i : EnvAction} {e' : Escrow} (he' : (w.env s i).db.escrows.lookup id = some e') :
    (∃ e v, w.db.escrows.lookup id = some e ∧ e' = { e with status := v }) ∨
    ∃ clientId dto key, i = .request (.createEscrow clientId dto key id) ∧
      e' = EscrowService.newEscrow clientId dto := by
  cases i with
  | ledger a => exact .inl ⟨e', e'.status, he', rfl⟩
  | request r =>
    change (w.request r).db.escrows.lookup id = some e' at he'
    revert he'
    refine World.request_db (fun db => db.escrows.lookup id = some e' → _)
      (fun he' => .inl ⟨e', e'.status, he', rfl⟩) fun role res hserved he' => ?_
    rcases hserved.escrow_cases he' with h | ⟨clientId, dto, key, rfl, he⟩
    · exact .inl h
    · exact .inr ⟨clientId, dto, key, rfl, he⟩

theorem World.perform_row {o : Op} {e' : Escrow} (he' : (w.perform s o).1.db.escrows.lookup id = some e') :
    w.db.escrows.lookup id = some e' ∨ ∃ tx e, o = .transact tx ∧ tx.escrowId = id ∧
      w.db.escrows.lookup id = some e ∧ e' = tx.onEscrow e := by
  rcases World.perform_cases s w o with hs | ⟨tx, rfl, hc⟩ | ⟨_, _, _, _, rfl, -, hc⟩
  · exact .inl (hs.db ▸ he')
  · rw [(DbTx.apply_ok hc.db).1.escrows id] at he'
    split at he'
    · rename_i hid
      obtain ⟨e, he, rfl⟩ := Option.map_eq_some_iff.mp he'
      exact .inr ⟨tx, e, rfl, hid.symm, he, rfl⟩
    · exact .inl he'
  · exact .inl (hc.db ▸ he')

namespace World.HashesKept

theorem env (h : w.HashesKept s) (i : EnvAction) : (w.env s i).HashesKept s := by
  have ho : w.Onward s.contract (w.env s i) := (onward_evolves s).env w i
  refine ⟨(ho.1 ⟨List.replicate 16 0, rfl⟩).later.reachable h.reachable, fun id e' he' hlink => ?_⟩
  rcases World.env_row he' with ⟨e, v, he, rfl⟩ | ⟨clientId, dto, key, -, rfl⟩
  · exact (h.rows id e he hlink).onward h.reachable ho rfl
  · cases hlink

theorem perform (h : w.HashesKept s) (o : Op) (hp : w.Pledges s o) : (w.perform s o).1.HashesKept s := by
  have ho : w.Onward s.contract (w.perform s o).1 := (onward_evolves s).perform w o
  refine ⟨(ho.1 ⟨List.replicate 16 0, rfl⟩).later.reachable h.reachable, fun id e' he' hlink => ?_⟩
  rcases World.perform_row he' with he | ⟨tx, e, rfl, rfl, he, rfl⟩
  · exact (h.rows id e' he hlink).onward h.reachable ho rfl
  · refine World.CommitsTo.onward ?_ h.reachable ho (tx.onEscrow_hash e)
    by_cases htx : (Op.transact tx).LinksNothing
    · exact h.rows _ e he (by rwa [DbTx.onEscrow_link htx] at hlink)
    · cases tx with
      | fund k =>
        obtain ⟨e₀, he₀, hk⟩ := hp
        obtain rfl : e = e₀ := Option.some.inj (he.symm.trans he₀)
        exact hk.elim (h.rows k e he) fun hc => hc
      | _ => exact absurd trivial htx

end World.HashesKept

/-- In every run of the workers a linked row's record holds what the row's hash decodes to. -/
theorem hashesKept_run (hl : w.ledger.Reachable s.contract) (he : w.db.escrows = ∅)
    (as : List (PoolAction Job EnvAction WorkerError)) :
    (run (Pool.step (platform s) (Worker.process s)) ⟨w, []⟩ as).world.HashesKept s := by
  refine pool_inv (onward_evolves s) (World.HashesKept s) (fun j w h => pledges_process h.reachable j)
    (fun w i h => h.env i) (fun w o h hp => h.perform o hp) ⟨hl, fun id e hrow => ?_⟩ as
  rw [he] at hrow; cases hrow

/-- Every row's hash was sent with the request that made the row. -/
theorem requested_run (s : Stellar) {w : World} (he : w.db.escrows = ∅)
    (as : List (PoolAction Job EnvAction WorkerError)) (id : Uuid) (e : Escrow)
    (hrow : (run (Pool.step (platform s) (Worker.process s)) ⟨w, []⟩ as).world.db.escrows.lookup id = some e) :
    ∃ clientId dto key, .env (.request (.createEscrow clientId dto key id)) ∈ as ∧
      e.milestoneHash = dto.milestoneHash := by
  refine run_inv_of_meets (P := fun _ a => a ∈ as) (fun c : Pool Op Op.Res WorkerError Unit World =>
    ∀ id e, c.world.db.escrows.lookup id = some e → ∃ clientId dto key,
      .env (.request (.createEscrow clientId dto key id)) ∈ as ∧ e.milestoneHash = dto.milestoneHash)
    (fun c a ha h id e' he' => ?_) as (meets_of_forall as fun _ ha => ha) (fun id e h => ?_) id e hrow
  · rcases pool_step_cases c a with hw | ⟨i, rfl, hw⟩ | ⟨o, hw⟩
    · rw [hw] at he'
      exact h id e' he'
    · rw [hw] at he'
      rcases World.env_row he' with ⟨e, v, he, rfl⟩ | ⟨clientId, dto, key, rfl, rfl⟩
      · exact h id e he
      · exact ⟨clientId, dto, key, ha, rfl⟩
    · rw [hw] at he'
      rcases World.perform_row he' with he | ⟨tx, e, -, -, he, rfl⟩
      · exact h id e' he
      · rw [tx.onEscrow_hash]
        exact h id e he
  · rw [he] at h; cases h

/-! ## The commitment -/

def World.FundedWith (w : World) (id : Uuid) (text : String) : Prop :=
  ∃ e, w.db.escrows.lookup id = some e ∧ e.stellarContractId.isSome ∧ e.milestoneHash = some text

/-- The committed bytes stand for the agreed texts, up to the case of letters. -/
structure World.CommitmentsHold (contract : Address) (w : World) : Prop where
  roundtrip : ∀ id text, w.FundedWith id text →
    ∃ r, w.ledger.storage.escrows.lookup id.bytes = some r ∧ hexText r.milestoneHash = text.toLower
  distinct : ∀ id₁ text₁ id₂ text₂ r₁ r₂, w.FundedWith id₁ text₁ → w.FundedWith id₂ text₂ →
    w.ledger.storage.escrows.lookup id₁.bytes = some r₁ → w.ledger.storage.escrows.lookup id₂.bytes = some r₂ →
    text₁.toLower ≠ text₂.toLower → r₁.milestoneHash ≠ r₂.milestoneHash
  mismatch : ∀ id text r signers hash, w.FundedWith id text →
    w.ledger.storage.escrows.lookup id.bytes = some r → w.ledger.storage.isPaused = false → r.Open →
    (w.ledger.env contract signers).Signed r.client → hexText hash ≠ text.toLower →
    (Call.release id.bytes (some hash)).exec (w.ledger.env contract signers) w.ledger.host =
      .error (.error .milestoneHashMismatch)

theorem release_mismatch {env : Env} {h : Host} {id hash : Bytes} {r : EscrowRecord}
    (hp : h.storage.isPaused = false) (hr : h.storage.escrows.lookup id = some r) (ho : r.Open)
    (hs : env.Signed r.client) (hne : hash ≠ r.milestoneHash) :
    (Call.release id (some hash)).exec env h = .error (.error .milestoneHashMismatch) := by
  change NexusEscrow.release env h id (some hash) = _
  simp only [NexusEscrow.release, except_bind_error, returnIf_ok, returnIf_error, exists_const, loadEscrow_ok,
    requireAuth_ok, hp]
  refine .inr ⟨Bool.false_ne_true, .inr ⟨r, hr, .inr ⟨open_of_gate.mpr ho, .inr ⟨hs, .inl ⟨⟨hash, rfl, hne⟩, trivial⟩⟩⟩⟩⟩

/-- The bytes on the ledger stand for the agreed hashes exactly while every hash
that was sent and funded is made of pairs of hex digits. -/
theorem commitments_hold_iff {s : Stellar} {w : World} (hl : w.ledger.Reachable s.contract)
    (he : w.db.escrows = ∅) (as : List (PoolAction Job EnvAction WorkerError)) :
    (run (Pool.step (platform s) (Worker.process s)) ⟨w, []⟩ as).world.CommitmentsHold s.contract ↔
      ∀ clientId dto key id text, .env (.request (.createEscrow clientId dto key id)) ∈ as →
        dto.milestoneHash = some text →
        (run (Pool.step (platform s) (Worker.process s)) ⟨w, []⟩ as).world.FundedWith id text →
        IsHexText text.toList := by
  have hkept := hashesKept_run hl he as
  have hreq := requested_run s he as
  generalize (run (Pool.step (platform s) (Worker.process s)) ⟨w, []⟩ as).world = w' at hkept hreq ⊢
  have hbytes {id : Uuid} {text : String} (hf : w'.FundedWith id text) :
      ∃ r, w'.ledger.storage.escrows.lookup id.bytes = some r ∧ r.milestoneHash = bufferFromHex text := by
    obtain ⟨e, hrow, hlink, htext⟩ := hf
    obtain ⟨r, hr, hb⟩ := hkept.rows id e hrow hlink
    exact ⟨r, hr, by rw [hb, Worker.milestoneHashOf, htext]; rfl⟩
  constructor
  · intro h clientId dto key id text _ _ hf
    obtain ⟨r, hr, ht⟩ := h.roundtrip id text hf
    obtain ⟨r', hr', hb⟩ := hbytes hf
    obtain rfl : r' = r := Option.some.inj (hr'.symm.trans hr)
    exact hexText_bufferFromHex_iff.mp (hb ▸ ht)
  · intro h
    have htext {id : Uuid} {text : String} {r : EscrowRecord} (hf : w'.FundedWith id text)
        (hr : w'.ledger.storage.escrows.lookup id.bytes = some r) : hexText r.milestoneHash = text.toLower := by
      obtain ⟨r', hr', hb⟩ := hbytes hf
      obtain rfl : r' = r := Option.some.inj (hr'.symm.trans hr)
      obtain ⟨e, hrow, hlink, ht⟩ := hf
      obtain ⟨clientId, dto, key, hmem, hdto⟩ := hreq id e hrow
      rw [hb]
      exact hexText_bufferFromHex_iff.mpr (h clientId dto key id text hmem (hdto ▸ ht) ⟨e, hrow, hlink, ht⟩)
    refine ⟨fun id text hf => ?_, fun id₁ t₁ id₂ t₂ r₁ r₂ h₁ h₂ hr₁ hr₂ hne heq => ?_,
      fun id text r signers hash hf hr hp ho hs hne => ?_⟩
    · obtain ⟨r, hr, -⟩ := hbytes hf
      exact ⟨r, hr, htext hf hr⟩
    · exact hne ((htext h₁ hr₁).symm.trans (heq ▸ htext h₂ hr₂))
    · exact release_mismatch hp hr ho hs fun heq => hne (heq ▸ htext hf hr)

/-- An escrow is created with this hash and funded. -/
def sampleCommitment (text : String) : List (PoolAction Job EnvAction WorkerError) :=
  .env (.request (.createEscrow "client" { sampleDto with milestoneHash := some text } "key" sampleId)) ::
    .spawn (.fundEscrow sampleId "client" 1000) :: List.replicate 7 (.step 0 .none)

theorem sample_commitment_holds : (run (Pool.step (platform sampleStellar) (Worker.process sampleStellar))
    ⟨sampleWorld, []⟩ (sampleCommitment "2c26B46b")).world.CommitmentsHold sampleStellar.contract := by
  refine (commitments_hold_iff sampleWorld_reachable rfl _).mpr fun clientId dto key id text hmem ht _ => ?_
  rcases List.mem_cons.mp hmem with h | h
  · cases h
    cases ht
    decide
  · rcases List.mem_cons.mp h with h | h
    · cases h
    · cases List.eq_of_mem_replicate h

/-- After a prefix that is not hex nothing is committed to. -/
theorem prefixed_hash_lost : ¬ ∀ as, (run (Pool.step (platform sampleStellar) (Worker.process sampleStellar))
    ⟨sampleWorld, []⟩ as).world.CommitmentsHold sampleStellar.contract := by
  intro h
  have hrow : ((run (Pool.step (platform sampleStellar) (Worker.process sampleStellar)) ⟨sampleWorld, []⟩
      (sampleCommitment "0x2c26b46b")).world.db.escrows.lookup sampleId).map
      (fun e => (e.stellarContractId.isSome, e.milestoneHash)) = some (true, some "0x2c26b46b") := by
    decide +kernel
  have hrec : ((run (Pool.step (platform sampleStellar) (Worker.process sampleStellar)) ⟨sampleWorld, []⟩
      (sampleCommitment "0x2c26b46b")).world.ledger.storage.escrows.lookup sampleId.bytes).map
      (fun r => hexText r.milestoneHash) = some "" := by decide +kernel
  obtain ⟨e, he, hes⟩ := Option.map_eq_some_iff.mp hrow
  simp only [Prod.mk.injEq] at hes
  obtain ⟨r, hr, ht⟩ := (h (sampleCommitment "0x2c26b46b")).roundtrip sampleId "0x2c26b46b" ⟨e, he, hes⟩
  rw [hr, Option.map_some, ht, toLower_eq_ofList] at hrec
  exact absurd hrec (by decide)

end NexusHub
