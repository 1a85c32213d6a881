import NexusHub.Effects
import NexusHub.Requests

/-!
# What the handlers write

Rows stay, with their parties and amounts. A handler commits to the row of its
job alone, and the row it read for a payment is an earlier state of the row it
pays from.
-/

namespace NexusHub

/-! ## Rows along a run -/

/-- What a write of a status and a commit make of a row is in `Q`. -/
structure Escrow.Evolves (Q : Escrow → Escrow → Prop) : Prop where
  refl : ∀ e, Q e e
  trans : ∀ {e e' e''}, Q e e' → Q e' e'' → Q e e''
  status : ∀ (e : Escrow) v, Q e { e with status := v }
  onEscrow : ∀ (tx : DbTx) e, Q e (tx.onEscrow e)

/-- Rows stay, each in `Q` to what it was. -/
def Db.Rows (Q : Escrow → Escrow → Prop) (db db' : Db) : Prop :=
  ∀ id e, db.escrows.lookup id = some e → ∃ e', db'.escrows.lookup id = some e' ∧ Q e e'

section
variable {Q : Escrow → Escrow → Prop} (hQ : Escrow.Evolves Q) {db db' db'' : Db}

namespace Db.Rows
include hQ

theorem of_eq (h : db'.escrows = db.escrows) : db.Rows Q db' := fun _ e he => ⟨e, h ▸ he, hQ.refl e⟩

theorem trans (h : db.Rows Q db') (h' : db'.Rows Q db'') : db.Rows Q db'' := by
  intro id e he
  obtain ⟨e', he', hk⟩ := h id e he
  obtain ⟨e'', he'', hk'⟩ := h' id e' he'
  exact ⟨e'', he'', hQ.trans hk hk'⟩

theorem of_insert {id : Uuid} {e₁ : Escrow} (h : db'.escrows = db.escrows.insert id e₁)
    (hk : ∀ e, db.escrows.lookup id = some e → Q e e₁) : db.Rows Q db' := by
  intro k e he
  rw [h, Store.lookup_insert']
  by_cases hid : k = id
  · subst hid
    exact ⟨e₁, if_pos rfl, hk e he⟩
  · exact ⟨e, by rw [if_neg hid]; exact he, hQ.refl e⟩

theorem of_apply {tx : DbTx} (h : tx.apply db = .ok db') : db.Rows Q db' := by
  intro k e he
  rw [(DbTx.apply_ok h).1.escrows k, he]
  split
  · exact ⟨_, rfl, hQ.onEscrow tx e⟩
  · exact ⟨e, rfl, hQ.refl e⟩

theorem of_served {role : UserRole} {r : Request} {res : Response} (h : Served db role r res) :
    db.Rows Q res.db := by
  cases h with
  | replayed _ => exact of_eq hQ rfl
  | created h => exact of_insert hQ rfl fun e he => by rw [h.id_fresh] at he; cases he
  | queued _ _ _ => exact of_eq hQ rfl
  | disputed he _ _ =>
    exact of_insert hQ rfl fun e' he' => by cases he.symm.trans he'; exact hQ.status _ _
  | reviewed _ => exact of_eq hQ rfl
  | @resolved adminId disputeId resolution d escrows hd hv =>
    cases hr : resolution.verdict with
    | none =>
      rw [hr] at hv
      exact of_eq hQ hv
    | some v =>
      rw [hr] at hv
      obtain ⟨e, he, hins⟩ := hv
      exact of_insert hQ hins fun e' he' => by cases he.symm.trans he'; exact hQ.status _ _

end Db.Rows

include hQ in
theorem rows_evolve (s : Stellar) : Prog.Evolves (platform s) fun w w' => w.db.Rows Q w'.db where
  refl w := .of_eq hQ rfl
  trans h h' := h.trans hQ h'
  perform w o := by
    change w.db.Rows Q (w.perform s o).1.db
    rcases World.perform_cases s w o with hs | ⟨tx, rfl, hc⟩ | ⟨m, args, ss, call, rfl, -, hc⟩
    · exact .of_eq hQ (by rw [hs.db])
    · exact .of_apply hQ hc.db
    · exact .of_eq hQ (by rw [hc.db])
  env w i := by
    cases i with
    | ledger a => exact .of_eq hQ rfl
    | request r =>
      exact World.request_db (fun db => w.db.Rows Q db) (.of_eq hQ rfl) fun _ _ hserved => .of_served hQ hserved

end

/-! ## Parties, amounts and links -/

structure Escrow.Kept (e e' : Escrow) : Prop where
  clientId : e'.clientId = e.clientId
  freelancerId : e'.freelancerId = e.freelancerId
  amount : e'.amount = e.amount
  fee : e'.fee = e.fee
  linked : e.stellarContractId.isSome → e'.stellarContractId.isSome

@[refl] theorem Escrow.Kept.refl (e : Escrow) : e.Kept e := ⟨rfl, rfl, rfl, rfl, fun h => h⟩

theorem Escrow.Kept.trans {e e' e'' : Escrow} (h : e.Kept e') (h' : e'.Kept e'') : e.Kept e'' :=
  ⟨h'.clientId.trans h.clientId, h'.freelancerId.trans h.freelancerId, h'.amount.trans h.amount,
    h'.fee.trans h.fee, fun hs => h'.linked (h.linked hs)⟩

theorem Escrow.kept_status (e : Escrow) (v : EscrowStatus) : e.Kept { e with status := v } :=
  ⟨rfl, rfl, rfl, rfl, fun h => h⟩

theorem DbTx.kept_onEscrow (tx : DbTx) (e : Escrow) : e.Kept (tx.onEscrow e) := by
  cases tx with
  | approve id e' u role c f txHash =>
    simp only [onEscrow]
    split
    · exact ⟨rfl, rfl, rfl, rfl, fun h => h⟩
    · exact ⟨rfl, rfl, rfl, rfl, fun h => h⟩
  | fund => exact ⟨rfl, rfl, rfl, rfl, fun _ => rfl⟩
  | failLocks | compensate | release | refund | milestone | expire => exact ⟨rfl, rfl, rfl, rfl, fun h => h⟩

theorem Escrow.kept_evolves : Escrow.Evolves Escrow.Kept where
  refl := .refl
  trans := .trans
  status := kept_status
  onEscrow := DbTx.kept_onEscrow

def Db.RowsKept (db db' : Db) : Prop :=
  ∀ id e, db.escrows.lookup id = some e → ∃ e', db'.escrows.lookup id = some e' ∧ e.Kept e'

namespace Db.RowsKept

variable {db db' db'' : Db}

theorem of_eq (h : db'.escrows = db.escrows) : db.RowsKept db' := Rows.of_eq Escrow.kept_evolves h

theorem trans (h : db.RowsKept db') (h' : db'.RowsKept db'') : db.RowsKept db'' :=
  Rows.trans Escrow.kept_evolves h h'

theorem of_insert {id : Uuid} {e₁ : Escrow} (h : db'.escrows = db.escrows.insert id e₁)
    (hk : ∀ e, db.escrows.lookup id = some e → e.Kept e₁) : db.RowsKept db' :=
  Rows.of_insert Escrow.kept_evolves h hk

theorem of_apply {tx : DbTx} (h : tx.apply db = .ok db') : db.RowsKept db' :=
  Rows.of_apply Escrow.kept_evolves h

end Db.RowsKept

def World.RowsKept (w w' : World) : Prop := w.db.RowsKept w'.db

theorem platform_keeps (s : Stellar) : Prog.Evolves (platform s) World.RowsKept :=
  rows_evolve Escrow.kept_evolves s

/-! ## Transactions drawn from the row -/

/-- What the transaction says of the row was true of it at some time. -/
def DbTx.Drawn (db : Db) : DbTx → Prop
  | compensate id _ amount fee => ∃ e, db.escrows.lookup id = some e ∧ e.amount = amount ∧ e.fee = fee
  | release id e _ _ | refund id e _ _ _ | approve id e _ _ _ _ _ | expire id e _ _ =>
    e.stellarContractId.isSome ∧ ∃ e', db.escrows.lookup id = some e' ∧ e.Kept e'
  | fund .. | failLocks _ | milestone .. => True

/-- Commits write to the row `id`, and what they say of it is drawn from it. -/
def World.Draws (id : Uuid) (w : World) : Op → Prop
  | .transact tx => tx.escrowId = id ∧ tx.Drawn w.db
  | _ => True

theorem World.draws_of_noCommit {id : Uuid} (w : World) (o : Op) (h : o.NoCommit) : w.Draws id o := by
  cases o with
  | transact tx => exact h.elim
  | _ => trivial

abbrev Handler.Draws {α : Type} (s : Stellar) (id : Uuid) (p : Handler α) (w : World) : Prop :=
  Prog.Safe (platform s) World.RowsKept (World.Draws id) p w

section
variable {s : Stellar} {w : World}

theorem draws_contractRow {id : Uuid} {e : WorkerError} {f : Escrow → Handler Unit} {w' : World}
    (hw : w.RowsKept w') (h : ∀ e, e.stellarContractId.isSome →
    (∀ w'', w'.RowsKept w'' → ∃ e', w''.db.escrows.lookup id = some e' ∧ e.Kept e') →
      (f e).Draws s id w') :
    (orThrow ((w.db.escrows.lookup id).filter (·.stellarContractId.isSome)) e >>= f).Draws s id w' := by
  refine safe_orThrow fun e he => ?_
  obtain ⟨he, hc⟩ := Option.filter_eq_some_iff.mp he
  exact h e hc fun w'' hw' => (hw.trans hw') id e he

theorem draws_fundEscrow (id : Uuid) (clientId : UserId) (amount : Int) :
    (Worker.fundEscrow s id clientId amount).Draws s id w := by
  refine Prog.safe_tryCatch (platform_keeps s) ?_ fun e w _ => ?_
  · refine Prog.safe_bind (platform_keeps s)
      (safe_readFundingInput (platform_keeps s) World.draws_of_noCommit id clientId) fun input w _ => ?_
    refine Prog.safe_bind (platform_keeps s)
      (safe_initIfNeeded (platform_keeps s) World.draws_of_noCommit id input amount) fun _ w _ => ?_
    refine safe_invoke (platform_keeps s) World.draws_of_noCommit fun hash w _ => ?_
    refine safe_perform (platform_keeps s) (fun _ _ => ⟨rfl, trivial⟩) fun _ w _ => ?_
    exact safe_fireWebhook (platform_keeps s) World.draws_of_noCommit _ _ _
  · refine Prog.safe_bind (platform_keeps s) ?_ fun _ _ _ => trivial
    refine safe_perform (platform_keeps s) (fun _ _ => ⟨rfl, trivial⟩) fun _ w _ => ?_
    refine safe_findEscrow World.draws_of_noCommit fun w₁ _ => ?_
    cases he : w₁.db.escrows.lookup id with
    | none => trivial
    | some e =>
      refine Prog.safe_call fun w₂ hw => ⟨rfl, ?_⟩
      obtain ⟨e', he', hk⟩ := hw id e he
      exact ⟨e', he', hk.amount, hk.fee⟩

theorem draws_releaseEscrow (id : Uuid) (clientId : UserId) :
    (Worker.releaseEscrow s id clientId).Draws s id w := by
  refine safe_findEscrow World.draws_of_noCommit fun w₁ _ => ?_
  refine safe_read (platform_keeps s) World.draws_of_noCommit trivial fun client w₂ h₂ => ?_
  refine draws_contractRow h₂ fun e hc he => safe_secretOf (platform_keeps s) fun key w₃ h₃ => ?_
  refine safe_invoke (platform_keeps s) World.draws_of_noCommit fun hash w₄ h₄ => ?_
  refine safe_perform (platform_keeps s) (fun w₅ h₅ => ⟨rfl, hc, he w₅ (h₃.trans (h₄.trans h₅))⟩)
    fun _ w _ => ?_
  exact safe_fireWebhook (platform_keeps s) World.draws_of_noCommit _ _ _

theorem draws_refundEscrow (id : Uuid) (adminId : UserId) (reason : String) :
    (Worker.refundEscrow s id adminId reason).Draws s id w := by
  refine safe_findEscrow World.draws_of_noCommit fun w₁ _ => draws_contractRow (.of_eq rfl) fun e hc he => ?_
  refine safe_invoke (platform_keeps s) World.draws_of_noCommit fun hash w₂ h₂ => ?_
  refine safe_perform (platform_keeps s) (fun w₃ h₃ => ⟨rfl, hc, he w₃ (h₂.trans h₃)⟩) fun _ w _ => ?_
  exact safe_fireWebhook (platform_keeps s) World.draws_of_noCommit _ _ _

theorem draws_claimExpired (id : Uuid) (triggeredBy : Option UserId) :
    (Worker.claimExpired s id triggeredBy).Draws s id w := by
  refine safe_findEscrow World.draws_of_noCommit fun w₁ _ => draws_contractRow (.of_eq rfl) fun e hc he => ?_
  refine safe_invoke (platform_keeps s) World.draws_of_noCommit fun hash w₂ h₂ => ?_
  refine safe_perform (platform_keeps s) (fun w₃ h₃ => ⟨rfl, hc, he w₃ (h₂.trans h₃)⟩) fun _ w _ => ?_
  exact safe_fireWebhook (platform_keeps s) World.draws_of_noCommit _ _ _

theorem draws_completeMilestone (id : Uuid) (freelancerId : UserId) :
    (Worker.completeMilestone s id freelancerId).Draws s id w := by
  refine safe_findEscrow World.draws_of_noCommit fun w₁ _ => ?_
  refine safe_read (platform_keeps s) World.draws_of_noCommit trivial fun freelancer w₂ h₂ => ?_
  refine draws_contractRow h₂ fun e _ _ => safe_secretOf (platform_keeps s) fun key w₃ _ => ?_
  refine safe_invoke (platform_keeps s) World.draws_of_noCommit fun hash w₄ _ => ?_
  refine safe_read (platform_keeps s) World.draws_of_noCommit trivial fun onChain w₅ _ => ?_
  refine safe_perform (platform_keeps s) (fun _ _ => ⟨rfl, trivial⟩) fun _ w _ => ?_
  exact safe_fireWebhook (platform_keeps s) World.draws_of_noCommit _ _ _

theorem draws_approveRelease (id : Uuid) (approverId : UserId) (role : ApproverRole) :
    (Worker.approveRelease s id approverId role).Draws s id w := by
  refine safe_findEscrow World.draws_of_noCommit fun w₁ _ => ?_
  refine safe_read (platform_keeps s) World.draws_of_noCommit trivial fun approver w₂ h₂ => ?_
  refine draws_contractRow h₂ fun e hc he => safe_secretOf (platform_keeps s) fun key w₃ h₃ => ?_
  refine safe_invoke (platform_keeps s) World.draws_of_noCommit fun hash w₄ h₄ => ?_
  refine safe_read (platform_keeps s) World.draws_of_noCommit trivial fun onChain w₅ h₅ => ?_
  refine safe_perform (platform_keeps s) (fun w₆ h₆ => ⟨rfl, hc, he w₆ (h₃.trans (h₄.trans (h₅.trans h₆)))⟩)
    fun _ w _ => ?_
  split
  · exact safe_fireWebhook (platform_keeps s) World.draws_of_noCommit _ _ _
  · trivial

theorem draws_process (j : Job) : (Worker.process s j).Draws s j.escrowId w := by
  cases j with
  | fundEscrow => exact draws_fundEscrow _ _ _
  | releaseEscrow => exact draws_releaseEscrow _ _
  | refundEscrow => exact draws_refundEscrow _ _ _
  | approveRelease => exact draws_approveRelease _ _ _
  | completeMilestone => exact draws_completeMilestone _ _
  | claimExpired => exact draws_claimExpired _ _

end

end NexusHub
