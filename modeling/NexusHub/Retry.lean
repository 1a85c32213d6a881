import NexusHub.Credits
import NexusHub.Plans

/-!
# Trying a job again

An attempt may break off anywhere: before its call, after a call that took
effect, after its transaction. Another attempt finds what the broken ones left.
It ends with row and record in agreement, and the settlement paid once, exactly
when they left them in agreement or the contract takes the call again.
-/

namespace NexusHub

/-! ## Others -/

/-- The balance changes of an escrow so far, transaction by transaction. -/
def World.payments (w : World) (id : Uuid) : List (List BalanceMove) :=
  ((w.commits.filter (·.escrowId = id)).map DbTx.moves).filter (· ≠ [])

structure World.Apart (contract : Address) (id : Uuid) (w w' : World) : Prop where
  row : w'.db.escrows.lookup id = w.db.escrows.lookup id
  users : w'.db.users = w.db.users
  balances : ∀ u, (w.db.balances.lookup u).isSome → (w'.db.balances.lookup u).isSome
  record : w'.ledger.storage.escrows.lookup id.bytes = w.ledger.storage.escrows.lookup id.bytes
  payments : w'.payments id = w.payments id
  reachable : w.ledger.Reachable contract → w'.ledger.Reachable contract

theorem World.Same.apart {w w' : World} (h : w.Same w') (contract : Address) (id : Uuid) :
    w.Apart contract id w' where
  row := by rw [h.db]
  users := by rw [h.db]
  balances := by rw [h.db]; exact fun _ hu => hu
  record := by rw [h.ledger]
  payments := by rw [World.payments, h.commits]; rfl
  reachable := by rw [h.ledger]; exact fun hw => hw

theorem Frame.apart (contract : Address) (id : Uuid) : Frame contract id (World.Apart contract id) where
  same h := h.apart contract id
  trans h h' := ⟨h'.row.trans h.row, h'.users.trans h.users, fun u hu => h'.balances u (h.balances u hu),
    h'.record.trans h.record, h'.payments.trans h.payments, fun hw => h'.reachable (h.reachable hw)⟩
  row h := h.row
  users h := h.users
  record h := h.record
  reachable h := h.reachable

theorem World.Committed.payments {w w' : World} {tx : DbTx} (h : w.Committed tx w') :
    w'.payments tx.escrowId = w.payments tx.escrowId ++ [tx.moves].filter (· ≠ []) := by
  simp [World.payments, h.commits, List.filter_append]

section
variable {K K' R : World → World → Prop} {w w' : World}

theorem Amid.imp (hK : ∀ w w', K w w' → K' w w') (h : Amid K R w w') : Amid K' R w w' := by
  obtain ⟨w₁, w₂, h₁, hr, h₂⟩ := h
  exact ⟨w₁, w₂, hK _ _ h₁, hr, hK _ _ h₂⟩

variable {contract : Address} {id : Uuid} {w'' : World}

theorem Amid.commits {tx : DbTx} (h : Amid (World.Apart contract id) (World.Committed tx) w w')
    (hid : tx.escrowId = id) (hw : w.ledger.Reachable contract) :
    w'.ledger.Reachable contract ∧ w'.db.escrows.lookup id = (w.db.escrows.lookup id).map tx.onEscrow ∧
    (∀ u, (w.db.balances.lookup u).isSome → (w'.db.balances.lookup u).isSome) ∧
    w'.ledger.storage.escrows.lookup id.bytes = w.ledger.storage.escrows.lookup id.bytes ∧
    w'.payments id = w.payments id ++ [tx.moves].filter (· ≠ []) := by
  obtain ⟨w₁, w₂, h₁, hc, h₂⟩ := h
  have happ := (DbTx.apply_ok hc.db).1
  refine ⟨h₂.reachable (by rw [hc.ledger]; exact h₁.reachable hw), ?_, fun u hu => h₂.balances u ?_, ?_, ?_⟩
  · rw [h₂.row, happ.escrows, if_pos hid.symm, h₁.row]
  · rw [happ.balances, lookup_applyMoves, Option.isSome_map]
    exact h₁.balances u hu
  · rw [h₂.record, hc.ledger, h₁.record]
  · rw [h₂.payments, ← h₁.payments, ← hid, hc.payments]

theorem Amid.calls {signers : List Address} {call : Call}
    (h : Amid (World.Apart contract id) (World.Called contract signers call) w w')
    (hw : w.ledger.Reachable contract) : w'.ledger.Reachable contract ∧
    w'.db.escrows.lookup id = w.db.escrows.lookup id ∧
    (∀ u, (w.db.balances.lookup u).isSome → (w'.db.balances.lookup u).isSome) ∧
    w'.payments id = w.payments id := by
  obtain ⟨w₁, w₂, h₁, hc, h₂⟩ := h
  refine ⟨h₂.reachable (hc.reachable (h₁.reachable hw)), ?_, fun u hu => h₂.balances u ?_, ?_⟩
  · rw [h₂.row, hc.db, h₁.row]
  · rw [hc.db]; exact h₁.balances u hu
  · rw [h₂.payments, World.payments, hc.commits]; exact h₁.payments

end

/-! ## Settlements -/

def World.Mirrored (w : World) (id : Uuid) : Prop :=
  ∃ e r, w.db.escrows.lookup id = some e ∧ w.ledger.storage.escrows.lookup id.bytes = some r ∧ Mirrors e r

instance (e : Escrow) (r : EscrowRecord) : Decidable (Mirrors e r) :=
  decidable_of_iff (e.status = r.status ∧ e.clientApproved = r.clientApproved ∧
      e.freelancerApproved = r.freelancerApproved ∧ e.milestonesCompleted = r.milestonesCompleted)
    ⟨fun ⟨h1, h2, h3, h4⟩ => ⟨h1, h2, h3, h4⟩, fun ⟨h1, h2, h3, h4⟩ => ⟨h1, h2, h3, h4⟩⟩

instance (w : World) (id : Uuid) : Decidable (w.Mirrored id) :=
  decidable_of_iff (∃ e ∈ w.db.escrows.lookup id, ∃ r ∈ w.ledger.storage.escrows.lookup id.bytes, Mirrors e r)
    ⟨fun ⟨e, he, r, hr, hm⟩ => ⟨e, r, he, hr, hm⟩, fun ⟨e, r, he, hr, hm⟩ => ⟨e, he, r, hr, hm⟩⟩

/-- The balance changes of the settlement the job is about. -/
def Job.settlement (e : Escrow) : Job → List BalanceMove
  | releaseEscrow .. | approveRelease .. => [⟨e.freelancerId, e.amount, 0⟩, ⟨e.clientId, 0, -e.amount⟩]
  | refundEscrow .. | claimExpired .. => [⟨e.clientId, e.amount, -e.amount⟩]
  | fundEscrow .. | completeMilestone .. => []

/-- The row agrees with the record but for what the job's transaction is going to set. -/
def Job.Behind (e : Escrow) (r : EscrowRecord) : Job → Prop
  | approveRelease .. => e.status = r.status ∧ e.milestonesCompleted = r.milestonesCompleted
  | completeMilestone .. => e.status = r.status ∧ e.clientApproved = r.clientApproved ∧
      e.freelancerApproved = r.freelancerApproved
  | _ => Mirrors e r

theorem Mirrors.behind {e : Escrow} {r : EscrowRecord} (h : Mirrors e r) (j : Job) : j.Behind e r := by
  cases j with
  | approveRelease => exact ⟨h.status, h.milestones⟩
  | completeMilestone => exact ⟨h.status, h.client, h.freelancer⟩
  | _ => exact h

theorem Job.Behind.status {j : Job} {e : Escrow} {r : EscrowRecord} (h : j.Behind e r) :
    e.status = r.status := by
  cases j with
  | approveRelease | completeMilestone => exact h.1
  | _ => exact Mirrors.status h

theorem settlement_onEscrow (j : Job) (tx : DbTx) (e : Escrow) :
    j.settlement (tx.onEscrow e) = j.settlement e := by
  cases j <;> simp [Job.settlement]

section
variable {s : Stellar} {w : World} {j : Job} {p : Plan} {env : Env} {paused : Bool} {r : EscrowRecord}
    {e : Escrow}

/-- The job's transaction brings the row level with the record its call left. -/
theorem Job.Behind.catches_up (hp : j.plan s w = some p) (ha : p.call.Admits env paused r) (h : j.Behind e r)
    (txHash : TxHash) :
    Mirrors ((p.tx (p.call.change env r).record txHash).onEscrow e) (p.call.change env r).record := by
  cases Job.planned hp with
  | refund => exact (refund_sound s _ _ _ _).mirrors ha e txHash h
  | claim => exact (claim_sound s _ _ _).mirrors ha e txHash h
  | @approve id u role e₀ key =>
    have hm :
      Mirrors { e with clientApproved := r.clientApproved, freelancerApproved := r.freelancerApproved } r :=
      ⟨h.1, rfl, rfl, h.2⟩
    have := (approve_sound s id e₀ key u role).mirrors ha _ txHash hm
    exact this
  | @milestone id u e₀ key =>
    have hm : Mirrors { e with milestonesCompleted := r.milestonesCompleted } r := ⟨h.1, h.2.1, h.2.2, rfl⟩
    have := (milestone_sound s id e₀ key u).mirrors ha _ txHash hm
    exact this

theorem Job.Behind.falls_behind (hp : j.plan s w = some p) (h : j.Behind e r)
    (hs : ¬ (p.call.change env r).record.Settled) : j.Behind e (p.call.change env r).record := by
  cases Job.planned hp with
  | refund | claim => exact absurd (.inr rfl) hs
  | approve => exact ⟨h.1.trans (approve_unsettled hs).symm, h.2.trans approve_milestones.symm⟩
  | milestone => exact h

theorem Job.plan_pays (hp : j.plan s w = some p) (he : w.db.escrows.lookup j.escrowId = some e)
    (ha : p.call.Admits env paused r) (hs : (p.call.change env r).record.Settled) (txHash : TxHash) :
    (p.tx (p.call.change env r).record txHash).moves = j.settlement e ∧ j.settlement e ≠ [] := by
  cases Job.planned hp with
  | refund he' | claim he' =>
    cases he.symm.trans (World.contractRow_eq_some.mp he').1
    exact ⟨rfl, nofun⟩
  | approve he' =>
    cases he.symm.trans (World.contractRow_eq_some.mp he').1
    have hb := (approve_settled ha).mp hs
    refine ⟨?_, nofun⟩
    simp only [DbTx.moves, hb, ite_true]
    rfl
  | milestone =>
    have hopen : EscrowRecord.Live _ := .inr (.inl ha.2.1)
    exact absurd (.inl hs) hopen.not_closed

end

/-! ## Broken attempts at a settlement -/

/-- What attempts of the job made of an escrow whose row was `e` and whose record was `r`. -/
inductive Phase (j : Job) (e : Escrow) (r : EscrowRecord) (w w₁ : World) (e₁ : Escrow) (r₁ : EscrowRecord) :
    Prop where
  | unsettled (hb : j.Behind e₁ r₁) (hs : r₁.Settled ↔ r.Settled)
      (hp : w₁.payments j.escrowId = w.payments j.escrowId)
  | owing (hr : ¬ r.Settled) (hr₁ : r₁.Settled) (hm : ¬ Mirrors e₁ r₁)
      (hp : w₁.payments j.escrowId = w.payments j.escrowId)
  | paid (hr : ¬ r.Settled) (hr₁ : r₁.Settled) (hm : Mirrors e₁ r₁)
      (hp : w₁.payments j.escrowId = w.payments j.escrowId ++ [j.settlement e])

structure Halfway (contract : Address) (j : Job) (e : Escrow) (r : EscrowRecord) (w w₁ : World) (e₁ : Escrow)
    (r₁ : EscrowRecord) : Prop where
  reachable : w₁.ledger.Reachable contract
  row : w₁.db.escrows.lookup j.escrowId = some e₁
  record : w₁.ledger.storage.escrows.lookup j.escrowId.bytes = some r₁
  terms : j.settlement e₁ = j.settlement e
  phase : Phase j e r w w₁ e₁ r₁

theorem EscrowRecord.Live.not_settled {r : EscrowRecord} (h : r.Live) : ¬ r.Settled :=
  fun hs => h.not_closed (.inl hs)

namespace Halfway

variable {s : Stellar} {j : Job} {e e₁ : Escrow} {r r₁ : EscrowRecord} {w w₁ w₂ w₃ : World}

theorem start (hw : w.ledger.Reachable s.contract) (he : w.db.escrows.lookup j.escrowId = some e)
    (hr : w.ledger.storage.escrows.lookup j.escrowId.bytes = some r) (hm : Mirrors e r) :
    Halfway s.contract j e r w w e r :=
  ⟨hw, he, hr, rfl, .unsettled (hm.behind j) .rfl rfl⟩

theorem apart (h : Halfway s.contract j e r w w₁ e₁ r₁) (ha : w₁.Apart s.contract j.escrowId w₂) :
    Halfway s.contract j e r w w₂ e₁ r₁ := by
  refine ⟨ha.reachable h.reachable, ha.row.trans h.row, ha.record.trans h.record, h.terms, ?_⟩
  cases h.phase with
  | unsettled hb hs hp => exact .unsettled hb hs (ha.payments.trans hp)
  | owing hr hr₁ hm hp => exact .owing hr hr₁ hm (ha.payments.trans hp)
  | paid hr hr₁ hm hp => exact .paid hr hr₁ hm (ha.payments.trans hp)

theorem unpaid (h : Halfway s.contract j e r w w₁ e₁ r₁) (hlive : r₁.Live) :
    j.Behind e₁ r₁ ∧ ¬ r.Settled ∧ w₁.payments j.escrowId = w.payments j.escrowId := by
  cases h.phase with
  | unsettled hb hs hp => exact ⟨hb, fun hr => hlive.not_settled (hs.mpr hr), hp⟩
  | owing _ hr₁ _ _ => exact absurd hr₁ hlive.not_settled
  | paid _ hr₁ _ _ => exact absurd hr₁ hlive.not_settled

variable {p : Plan}

theorem called (h : Halfway s.contract j e r w w₁ e₁ r₁) (hp : j.plan s w₁ = some p)
    (hc : Amid (World.Apart s.contract j.escrowId) (World.Called s.contract p.signers p.call) w₁ w₂) :
    ∃ env paused, p.call.Admits env paused r₁ ∧
      Halfway s.contract j e r w w₂ e₁ (p.call.change env r₁).record := by
  obtain ⟨e₀, -, hsound⟩ := Job.plan_sound hp
  obtain ⟨hw₂, hrow, -, env, paused, r₀, hr₀, ha, hr₂⟩ :=
    hc.record (.apart _ _) h.reachable hsound.named hsound.no_init
  obtain ⟨-, -, -, hpay⟩ := hc.calls h.reachable
  cases h.record.symm.trans hr₀
  obtain ⟨hb, hr, hunpaid⟩ := h.unpaid ha.live
  refine ⟨env, paused, ha, hw₂, hrow.trans h.row, hr₂, h.terms, ?_⟩
  by_cases hs : (p.call.change env r₁).record.Settled
  · refine .owing hr hs (fun hm => ?_) (hpay.trans hunpaid)
    have hst : r₁.status = (p.call.change env r₁).record.status := hb.status.symm.trans hm.status
    refine ha.live.not_settled ?_
    unfold EscrowRecord.Settled
    rw [hst]; exact hs
  · exact .unsettled (hb.falls_behind hp hs) (iff_of_false hs hr) (hpay.trans hunpaid)

theorem committed (h : Halfway s.contract j e r w w₁ e₁ r₁) (hp : j.plan s w₁ = some p)
    (hc : Amid (World.Apart s.contract j.escrowId) (World.Called s.contract p.signers p.call) w₁ w₂)
    {r₂ : EscrowRecord} (hr₂ : w₂.ledger.storage.escrows.lookup j.escrowId.bytes = some r₂) {txHash : TxHash}
    (hcom : Amid (World.Apart s.contract j.escrowId) (World.Committed (p.tx r₂ txHash)) w₂ w₃) :
    Mirrors ((p.tx r₂ txHash).onEscrow e₁) r₂ ∧
      Halfway s.contract j e r w w₃ ((p.tx r₂ txHash).onEscrow e₁) r₂ := by
  obtain ⟨e₀, -, hsound⟩ := Job.plan_sound hp
  obtain ⟨env, paused, ha, h₂⟩ := h.called hp hc
  obtain rfl : _ = r₂ := Option.some.inj (h₂.record.symm.trans hr₂)
  obtain ⟨hb, hr, hunpaid⟩ := h.unpaid ha.live
  obtain ⟨hw₃, hrow, -, hrec, hpay⟩ := hcom.commits (hsound.row _ _) h₂.reachable
  obtain ⟨-, -, -, hsame⟩ := hc.calls h.reachable
  have hm := hb.catches_up hp ha txHash
  rw [hsame, hunpaid] at hpay
  refine ⟨hm, hw₃, by rw [hrow, h₂.row]; rfl, by rw [hrec, hr₂], by rw [settlement_onEscrow, h.terms], ?_⟩
  by_cases hs : (p.call.change env r₁).record.Settled
  · obtain ⟨hmoves, hne⟩ := Job.plan_pays hp h.row ha hs txHash
    refine .paid hr hs hm ?_
    rw [hpay, hmoves, ← h.terms]
    simp [hne]
  · refine .unsettled (hm.behind j) (iff_of_false hs hr) ?_
    rw [hpay, ((hsound.keeps ha hs).2 txHash).2.1]
    simp

end Halfway

/-! ## The attempt after them -/

def World.Settles (id : Uuid) (w w' : World) : Prop :=
  ∃ r r', w.ledger.storage.escrows.lookup id.bytes = some r ∧
    w'.ledger.storage.escrows.lookup id.bytes = some r' ∧ ¬ r.Settled ∧ r'.Settled

/-- Row and record agree, and the balance changes of the settlement were
applied once if there was one and not at all otherwise. -/
def Job.SettledOnce (j : Job) (w w' : World) : Prop :=
  w'.Mirrored j.escrowId ∧ ∀ e, w.db.escrows.lookup j.escrowId = some e →
    (w.Settles j.escrowId w' → w'.payments j.escrowId = w.payments j.escrowId ++ [j.settlement e]) ∧
    (¬ w.Settles j.escrowId w' → w'.payments j.escrowId = w.payments j.escrowId)

theorem World.Called.unique {contract : Address} {signers : List Address} {call : Call} {w w₁ w₂ : World}
    (h₁ : w.Called contract signers call w₁) (h₂ : w.Called contract signers call w₂) :
    w₁.ledger = w₂.ledger := by
  rw [h₁.step, h₂.step]

namespace Halfway

variable {s : Stellar} {j : Job} {e e₁ e₂ : Escrow} {r r₁ r₂ : EscrowRecord} {w w₁ w₂ : World}

end Halfway

/-! ## Broken attempts at funding -/

def compensation (clientId : UserId) (e : Escrow) : List BalanceMove :=
  [⟨clientId, e.amount + e.fee, -e.amount⟩]

/-- What attempts at funding, `n` of them compensated, made of a pending escrow. -/
structure FundHalfway (contract : Address) (id : Uuid) (clientId : UserId) (e : Escrow) (w w₁ : World)
    (e₁ : Escrow) (n : Nat) : Prop where
  reachable : w₁.ledger.Reachable contract
  row : w₁.db.escrows.lookup id = some e₁
  terms : compensation clientId e₁ = compensation clientId e
  blank : e₁.clientApproved = false ∧ e₁.freelancerApproved = false ∧ e₁.milestonesCompleted = 0
  balance : (w₁.db.balances.lookup clientId).isSome
  payments : w₁.payments id = w.payments id ++ List.replicate n (compensation clientId e)
  record : ∀ r, w₁.ledger.storage.escrows.lookup id.bytes = some r →
    (r.status = .pending ∨ r.status = .funded) ∧ r.clientApproved = false ∧ r.freelancerApproved = false ∧
      r.milestonesCompleted = 0
  linked : e₁.stellarContractId.isSome →
    ∃ r, w₁.ledger.storage.escrows.lookup id.bytes = some r ∧ r.status = .funded
  fresh : n = 0 → e₁.status = .pending ∧ e₁.stellarContractId = none ∨
    e₁.status = .funded ∧ e₁.stellarContractId.isSome
  spent : n ≠ 0 → e₁.status ≠ .pending

theorem Begun.imp {s : Stellar} {K K' : World → World → Prop} {id : Uuid} {input : Worker.FundingInput}
    {amount : Int} {w w' : World} (hK : ∀ w w', K w w' → K' w w') (h : Begun s K id input amount w w') :
    Begun s K' id input amount w w' := by
  cases h with
  | before hrow h => exact .before hrow (hK _ _ h)
  | now hrow hcall h => exact .now hrow hcall (h.imp hK)

namespace FundHalfway

variable {s : Stellar} {id : Uuid} {clientId : UserId} {amount : Int} {e e₁ : Escrow} {w w₁ w₂ w₃ : World}
    {n : Nat}

theorem apart (h : FundHalfway s.contract id clientId e w w₁ e₁ n) (ha : w₁.Apart s.contract id w₂) :
    FundHalfway s.contract id clientId e w w₂ e₁ n :=
  ⟨ha.reachable h.reachable, ha.row.trans h.row, h.terms, h.blank, ha.balances _ h.balance,
    ha.payments.trans h.payments, by rw [ha.record]; exact h.record, by rw [ha.record]; exact h.linked, h.fresh,
    h.spent⟩

theorem begun {input : Worker.FundingInput} (h : FundHalfway s.contract id clientId e w w₁ e₁ n)
    (hin : w₁.fundingInput s id clientId = some input)
    (hb : Begun s (World.Apart s.contract id) id input amount w₁ w₂) :
    FundHalfway s.contract id clientId e w w₂ e₁ n ∧
      ∃ r, w₂.ledger.storage.escrows.lookup id.bytes = some r := by
  cases h.row.symm.trans (World.escrow_of_fundingInput hin)
  cases hb with
  | before hrow ha =>
    have h₂ := h.apart ha
    obtain ⟨r, hr, -⟩ := h₂.linked hrow
    exact ⟨h₂, r, hr⟩
  | now hrow hcall hc =>
    obtain ⟨hid, hinit⟩ := Stellar.initCall_spec hcall
    obtain ⟨hw₂, hsame, hbal, hpay⟩ := hc.calls h.reachable
    obtain ⟨w', w'', ha, hcalled, ha'⟩ := hc
    obtain ⟨r, hr, -, hlook⟩ := hcalled.creates (ha.reachable h.reachable) hid hinit
    have hr₂ : w₂.ledger.storage.escrows.lookup id.bytes = some r := by rw [ha'.record, hlook, if_pos rfl]
    refine ⟨⟨hw₂, hsame.trans h.row, h.terms, h.blank, hbal _ h.balance, hpay.trans h.payments,
      fun r' hr' => ?_, fun hs => ?_, h.fresh, h.spent⟩, r, hr₂⟩
    · cases hr₂.symm.trans hr'
      exact ⟨.inl hr.pending, hr.no_client_approval, hr.no_freelancer_approval, hr.no_milestone⟩
    · rw [hrow] at hs; cases hs

theorem deposited {signers : List Address} (h : FundHalfway s.contract id clientId e w w₁ e₁ n)
    (hc : Amid (World.Apart s.contract id) (World.Called s.contract signers (.fund id.bytes)) w₁ w₂) :
    FundHalfway s.contract id clientId e w w₂ e₁ n ∧
      (∃ r, w₁.ledger.storage.escrows.lookup id.bytes = some r ∧ r.status = .pending) ∧
      ∃ r, w₂.ledger.storage.escrows.lookup id.bytes = some r ∧ r.status = .funded := by
  obtain ⟨hw₂, hsame, -, env, paused, r, hr, ha, hr₂⟩ := hc.record (.apart _ _) h.reachable rfl rfl
  obtain ⟨-, -, hbal, hpay⟩ := hc.calls h.reachable
  have hfunded : ∃ r, w₂.ledger.storage.escrows.lookup id.bytes = some r ∧ r.status = .funded := ⟨_, hr₂, rfl⟩
  refine ⟨⟨hw₂, hsame.trans h.row, h.terms, h.blank, hbal _ h.balance, hpay.trans h.payments, fun r' hr' => ?_,
    fun _ => hfunded, h.fresh, h.spent⟩, ⟨r, hr, ha.2.1⟩, hfunded⟩
  cases hr₂.symm.trans hr'
  exact ⟨.inr rfl, (h.record r hr).2⟩

theorem committed {txHash : TxHash} (h : FundHalfway s.contract id clientId e w w₁ e₁ n)
    (hr : ∃ r, w₁.ledger.storage.escrows.lookup id.bytes = some r ∧ r.status = .funded)
    (hcom : Amid (World.Apart s.contract id) (World.Committed (s.fundTx id clientId txHash)) w₁ w₂) :
    FundHalfway s.contract id clientId e w w₂ ((s.fundTx id clientId txHash).onEscrow e₁) n := by
  obtain ⟨hw₂, hrow, hbal, hrec, hpay⟩ := hcom.commits rfl h.reachable
  refine ⟨hw₂, by rw [hrow, h.row]; rfl, h.terms, h.blank, hbal _ h.balance, ?_, by rw [hrec]; exact h.record,
    by rw [hrec]; exact fun _ => hr, fun _ => .inr ⟨rfl, rfl⟩, fun _ => nofun⟩
  rw [hpay, h.payments]
  simp [Stellar.fundTx, DbTx.moves]

theorem tried {F : Prop} {out : Outcome WorkerError Unit} (h : FundHalfway s.contract id clientId e w w₁ e₁ n)
    (ht : FundTried s (World.Apart s.contract id) F id clientId amount w₁ w₂ out) :
    ∃ e₂, FundHalfway s.contract id clientId e w w₂ e₂ n := by
  cases ht with
  | stopped ha _ _ => exact ⟨e₁, h.apart ha⟩
  | begun hin hb _ _ => exact ⟨e₁, (h.begun hin hb).1⟩
  | deposited hin hb hc _ _ => exact ⟨e₁, ((h.begun hin hb).1.deposited hc).1⟩
  | committed hin hb hc hcom _ =>
    obtain ⟨h₂, -, hr⟩ := (h.begun hin hb).1.deposited hc
    exact ⟨_, h₂.committed hr hcom⟩

theorem marked (h : FundHalfway s.contract id clientId e w w₁ e₁ n)
    (hm : Amid (World.Apart s.contract id) (World.Committed (.failLocks id)) w₁ w₂) :
    FundHalfway s.contract id clientId e w w₂ e₁ n := by
  obtain ⟨hw₂, hrow, hbal, hrec, hpay⟩ := hm.commits rfl h.reachable
  refine ⟨hw₂, by rw [hrow, h.row]; rfl, h.terms, h.blank, hbal _ h.balance, ?_, by rw [hrec]; exact h.record,
    by rw [hrec]; exact h.linked, h.fresh, h.spent⟩
  rw [hpay, h.payments]
  simp [DbTx.moves]

theorem compensated {e' : Escrow} (h : FundHalfway s.contract id clientId e w w₁ e₁ n)
    (hm : Amid (World.Apart s.contract id) (World.Committed (.failLocks id)) w₁ w₂)
    (he' : w₂.db.escrows.lookup id = some e')
    (hc : Amid (World.Apart s.contract id) (World.Committed (.compensate id clientId e'.amount e'.fee)) w₂ w₃) :
    FundHalfway s.contract id clientId e w w₃ { e₁ with status := .cancelled } (n + 1) ∧
      w₃.ledger.storage.escrows.lookup id.bytes = w₁.ledger.storage.escrows.lookup id.bytes := by
  have h₂ := h.marked hm
  obtain rfl : e₁ = e' := Option.some.inj (h₂.row.symm.trans he')
  obtain ⟨-, -, -, hrec₂, -⟩ := hm.commits rfl h.reachable
  obtain ⟨hw₃, hrow, hbal, hrec, hpay⟩ := hc.commits rfl h₂.reachable
  refine ⟨⟨hw₃, by rw [hrow, h₂.row]; rfl, h.terms, h.blank, hbal _ h₂.balance, ?_, by
    rw [hrec]; exact h₂.record, by rw [hrec]; exact h₂.linked, nofun, fun _ => nofun⟩, hrec.trans hrec₂⟩
  rw [hpay, h₂.payments, List.replicate_succ', ← List.append_assoc, ← h.terms]
  rfl

theorem ended {F : Prop} {out : Outcome WorkerError Unit} (h : FundHalfway s.contract id clientId e w w₁ e₁ n)
    (hend : FundEnded s (World.Apart s.contract id) F id clientId amount w₁ w₂ out) :
    ∃ e₂ n', FundHalfway s.contract id clientId e w w₂ e₂ n' := by
  cases hend with
  | done ht _ =>
    obtain ⟨e₂, h₂⟩ := h.tried ht
    exact ⟨e₂, n, h₂⟩
  | handled ht hh _ =>
    obtain ⟨e₂, h₂⟩ := h.tried ht
    cases hh with
    | cut ha _ => exact ⟨e₂, n, h₂.apart ha⟩
    | marked hm _ => exact ⟨e₂, n, h₂.marked hm⟩
    | compensated hm he' hc => exact ⟨_, n + 1, (h₂.compensated hm he' hc).1⟩

end FundHalfway

/-! ## The attempt at funding after them -/

/-- FUNDED like the record and not compensated, or CANCELLED, compensated
exactly once, and not on-chain as anything else. -/
def FundedOnce (id : Uuid) (clientId : UserId) (w w' : World) : Prop :=
  ∃ e, w'.db.escrows.lookup id = some e ∧
    (∀ r, w'.ledger.storage.escrows.lookup id.bytes = some r → Mirrors e r) ∧
    (e.status = .funded ∧ (w'.ledger.storage.escrows.lookup id.bytes).isSome ∧ w'.payments id = w.payments id ∨
      e.status = .cancelled ∧ w'.payments id = w.payments id ++ [compensation clientId e])

theorem FundTried.imp {s : Stellar} {K K' : World → World → Prop} {F : Prop} {id : Uuid} {clientId : UserId}
    {amount : Int} {w w' : World} {out : Outcome WorkerError Unit} (hK : ∀ w w', K w w' → K' w w')
    (h : FundTried s K F id clientId amount w w' out) : FundTried s K' F id clientId amount w w' out := by
  cases h with
  | stopped h ho why =>
    refine .stopped (hK _ _ h) ho (why.imp_right fun hn input hin => ⟨(hn input hin).1, fun call hcall => ?_⟩)
    obtain ⟨w₁, h₁, hr⟩ := (hn input hin).2 call hcall
    exact ⟨w₁, hK _ _ h₁, hr⟩
  | begun hin hb why ho => exact .begun hin (hb.imp hK) why ho
  | deposited hin hb h why ho => exact .deposited hin (hb.imp hK) (h.imp hK) why ho
  | committed hin hb h h' ho => exact .committed hin (hb.imp hK) (h.imp hK) (h'.imp hK) ho

namespace FundHalfway

variable {s : Stellar} {id : Uuid} {clientId : UserId} {amount : Int} {e e₁ e₂ : Escrow} {w w₁ w₂ : World}
    {n : Nat}

theorem pending (h : FundHalfway s.contract id clientId e w w₁ e₁ n)
    (hr : ¬ ∃ r, w₁.ledger.storage.escrows.lookup id.bytes = some r ∧ r.status = .funded) (hn : n = 0) :
    e₁.status = .pending := by
  rcases h.fresh hn with hp | hf
  · exact hp.1
  · exact absurd (h.linked hf.2) hr

end FundHalfway

/-! ## Every job -/

end NexusHub
