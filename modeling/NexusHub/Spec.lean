import NexusHub.Contract

/-!
# What each call does

`Call.Admits` collects the guards of the ten entrypoints that act on a stored
record and `Call.change` their effect on it: the new record, the transfers and
the events. `exec_ok_iff` says the entrypoints compute exactly that, so later
modules never unfold them.
-/

namespace NexusHub

/-! ## Inverting a call -/

theorem except_bind_ok {ε α β : Type} {x : Except ε α} {f : α → Except ε β} {b : β} :
    (x >>= f) = .ok b ↔ ∃ a, x = .ok a ∧ f a = .ok b := by
  cases x with
  | error e =>
    constructor
    · intro h; cases h
    · rintro ⟨_, h, -⟩; cases h
  | ok a =>
    constructor
    · exact fun h => ⟨a, rfl, h⟩
    · rintro ⟨_, h, hb⟩; cases h; exact hb

theorem except_pure_ok {ε α : Type} {a b : α} : (pure a : Except ε α) = .ok b ↔ a = b :=
  ⟨Except.ok.inj, congrArg Except.ok⟩

theorem returnIf_ok {c : Prop} [Decidable c] {e : EscrowError} {u : Unit} : returnIf c e = .ok u ↔ ¬ c := by
  unfold returnIf
  split
  · rename_i hc; exact iff_of_false (fun h => by cases h) (not_not_intro hc)
  · rename_i hc; exact iff_of_true rfl hc

def Env.Signed (env : Env) (a : Address) : Prop := a ≠ env.contract ∧ a ∈ env.signers

instance (env : Env) (a : Address) : Decidable (env.Signed a) := inferInstanceAs (Decidable (_ ∧ _))

theorem requireAuth_ok {env : Env} {a : Address} {u : Unit} : requireAuth env a = .ok u ↔ env.Signed a := by
  unfold requireAuth
  split
  · rename_i hc; exact iff_of_true rfl hc
  · rename_i hc; exact iff_of_false (fun h => by cases h) hc

theorem checkedI128_ok {x y : Int} : checkedI128 x = .ok y ↔ FitsI128 x ∧ y = x := by
  unfold checkedI128
  split
  · rename_i hf; exact ⟨fun h => ⟨hf, (Except.ok.inj h).symm⟩, fun h => congrArg _ h.2.symm⟩
  · rename_i hf; exact iff_of_false (fun h => by cases h) fun h => hf h.1

theorem checkedU32_ok {x y : Nat} : checkedU32 x = .ok y ↔ x < 2 ^ 32 ∧ y = x := by
  unfold checkedU32
  split
  · rename_i hf; exact ⟨fun h => ⟨hf, (Except.ok.inj h).symm⟩, fun h => congrArg _ h.2.symm⟩
  · rename_i hf; exact iff_of_false (fun h => by cases h) fun h => hf h.1

theorem loadEscrow_ok {s : Storage} {id : Bytes} {r : EscrowRecord} :
    s.loadEscrow id = .ok r ↔ s.escrows.lookup id = some r := by
  unfold Storage.loadEscrow
  split
  · rename_i r' hr
    rw [hr]
    exact ⟨fun h => congrArg _ (Except.ok.inj h), fun h => congrArg _ (Option.some.inj h)⟩
  · rename_i hr
    rw [hr]
    exact iff_of_false (fun h => by cases h) (fun h => by cases h)

theorem getAdmin_ok {s : Storage} {a : Address} : s.getAdmin = .ok a ↔ s.admin = some a := by
  unfold Storage.getAdmin
  split
  · rename_i a' ha
    rw [ha]
    exact ⟨fun h => congrArg _ (Except.ok.inj h), fun h => congrArg _ (Option.some.inj h)⟩
  · rename_i ha
    rw [ha]
    exact iff_of_false (fun h => by cases h) (fun h => by cases h)

theorem except_ite_bind {ε α β : Type} {c : Prop} [Decidable c] {x y : Except ε α} {f : α → Except ε β} :
    (if c then x >>= f else y >>= f) = (if c then x else y) >>= f := by
  split <;> rfl

/-! ## Payments -/

def Balances.pay (b : Balances) (ts : List Transfer) : Balances := ts.foldl Balances.move b

/-- Each transfer in turn is covered by its source. -/
def Affordable : Balances → List Transfer → Prop
  | _, [] => True
  | b, t :: ts => 0 ≤ t.amount ∧ t.amount ≤ b t.token t.src ∧ Affordable (b.move t) ts

def Host.pay (h : Host) (ts : List Transfer) : Host :=
  { h with balances := h.balances.pay ts, transfers := h.transfers ++ ts }

theorem transferToken_ok {h h' : Host} {T src dst : Address} {a : Int} :
    transferToken h T src dst a = .ok h' ↔ Affordable h.balances [⟨T, src, dst, a⟩] ∧
    h' = h.pay [⟨T, src, dst, a⟩] := by
  unfold transferToken
  split
  · rename_i hc
    refine iff_of_false (fun h => by cases h) ?_
    rintro ⟨⟨h1, h2, -⟩, -⟩
    exact hc.elim (not_lt.mpr h1) (not_lt.mpr h2)
  · rename_i hc
    obtain ⟨h1, h2⟩ := not_or.mp hc
    exact ⟨fun h => ⟨⟨not_lt.mp h1, not_lt.mp h2, trivial⟩, (Except.ok.inj h).symm⟩,
      fun h => congrArg Except.ok h.2.symm⟩

def EscrowRecord.payout (r : EscrowRecord) (contract : Address) : List Transfer :=
  ⟨r.token, contract, r.freelancer, r.amount - r.platformFee⟩ ::
    if r.platformFee > 0 then [⟨r.token, contract, r.admin, r.platformFee⟩] else []

def EscrowRecord.deposit (r : EscrowRecord) (contract : Address) : Transfer :=
  ⟨r.token, r.client, contract, r.amount⟩

def EscrowRecord.repayment (r : EscrowRecord) (contract : Address) : Transfer :=
  ⟨r.token, contract, r.client, r.amount⟩

/-- The two transfers of a release, however the source writes them. -/
theorem payout_ok {env : Env} {h h' : Host} {r : EscrowRecord} :
    (∃ h₁, transferToken h r.token env.contract r.freelancer (r.amount - r.platformFee) = .ok h₁ ∧
      (if r.platformFee > 0 then transferToken h₁ r.token env.contract r.admin r.platformFee else pure h₁) =
        .ok h') ↔
      Affordable h.balances (r.payout env.contract) ∧ h' = h.pay (r.payout env.contract) := by
  unfold EscrowRecord.payout
  by_cases hp : r.platformFee > 0
  · simp only [hp, ite_true, transferToken_ok, Affordable, Host.pay, Balances.pay]
    constructor
    · rintro ⟨h₁, ⟨h1, rfl⟩, h2, rfl⟩
      simp_all
    · rintro ⟨h1, rfl⟩
      refine ⟨_, ⟨⟨h1.1, h1.2.1, trivial⟩, rfl⟩, h1.2.2, ?_⟩
      simp
  · simp only [hp, ite_false, except_pure_ok, exists_eq_right, transferToken_ok]

theorem doRelease_ok {env : Env} {h h' : Host} {r : EscrowRecord} :
    doRelease env h r = .ok h' ↔ FitsI128 (r.amount - r.platformFee) ∧
      Affordable h.balances (r.payout env.contract) ∧ h' = h.pay (r.payout env.contract) := by
  simp only [doRelease, except_bind_ok, checkedI128_ok]
  rw [← payout_ok]
  constructor
  · rintro ⟨_, ⟨hf, rfl⟩, h₁, h1, h2⟩; exact ⟨hf, h₁, h1, h2⟩
  · rintro ⟨hf, h₁, h1, h2⟩; exact ⟨_, ⟨hf, rfl⟩, h₁, h1, h2⟩

/-! ## Guards and changes of the calls on a stored record -/

/-- Funded or Active: the client's money is in and nothing was decided. -/
def EscrowRecord.Open (r : EscrowRecord) : Prop := r.status = .funded ∨ r.status = .active

instance (r : EscrowRecord) : Decidable r.Open := inferInstanceAs (Decidable (_ ∨ _))

def Call.Admits (env : Env) (paused : Bool) (r : EscrowRecord) : Call → Prop
  | fund _ => paused = false ∧ r.status = .pending ∧ env.Signed r.client
  | activate _ => paused = false ∧ r.status = .funded ∧ env.Signed r.client
  | release _ hash => paused = false ∧ r.Open ∧ env.Signed r.client ∧ ∀ x ∈ hash, x = r.milestoneHash
  | refund _ => paused = false ∧ (r.Open ∨ r.status = .disputed) ∧ env.Signed r.admin
  | cancel _ caller => r.status = .pending ∧ env.Signed caller ∧ (caller = r.client ∨ caller = r.admin)
  | raiseDispute _ caller => paused = false ∧ r.Open ∧ env.Signed caller ∧
      (caller = r.client ∨ caller = r.freelancer) ∧
      (caller = r.freelancer → r.disputeDeadlineLedger ≤ env.sequence)
  | resolveDispute _ _ => paused = false ∧ r.status = .disputed ∧ env.Signed r.admin
  | completeMilestone _ => paused = false ∧ r.Open ∧ env.Signed r.freelancer ∧
      r.milestonesCompleted < r.milestonesTotal
  | claimExpired _ => r.Open ∧ r.expiryLedger ≠ 0 ∧ r.expiryLedger ≤ env.sequence
  | approveRelease _ approver => paused = false ∧ r.Open ∧ env.Signed approver ∧
      (approver = r.client ∨ approver = r.freelancer)
  | _ => False

/-- An approval sets the client's flag when the approver is both. -/
def EscrowRecord.approve (r : EscrowRecord) (approver : Address) : EscrowRecord :=
  { r with
    clientApproved := r.clientApproved || decide (approver = r.client)
    freelancerApproved := r.freelancerApproved || decide (approver ≠ r.client) }

structure Change where
  record : EscrowRecord
  transfers : List Transfer
  events : List Event

def EscrowRecord.releasedEvent (r : EscrowRecord) (id : Bytes) : Event :=
  .released id r.freelancer (r.amount - r.platformFee) r.platformFee

def Call.change (env : Env) (r : EscrowRecord) : Call → Change
  | fund id => ⟨{ r with status := .funded, fundedLedger := env.sequence }, [r.deposit env.contract],
      [.funded id r.client r.amount env.sequence]⟩
  | activate id => ⟨{ r with status := .active }, [], [.activated id env.sequence]⟩
  | release id _ => ⟨{ r with status := .released }, r.payout env.contract, [r.releasedEvent id]⟩
  | refund id | claimExpired id =>
    ⟨{ r with status := .refunded }, [r.repayment env.contract], [.refunded id r.client r.amount]⟩
  | cancel id _ => ⟨{ r with status := .cancelled }, [], [.cancelled id]⟩
  | raiseDispute id caller =>
    ⟨{ r with clientApproved := false, freelancerApproved := false, status := .disputed }, [],
      [.disputed id caller]⟩
  | resolveDispute id true =>
    ⟨{ r with status := .released }, r.payout env.contract, [.disputeResolved id r.freelancer]⟩
  | resolveDispute id false =>
    ⟨{ r with status := .refunded }, [r.repayment env.contract], [.disputeResolved id r.client]⟩
  | completeMilestone id => ⟨{ r with milestonesCompleted := r.milestonesCompleted + 1 }, [],
      [.milestoneCompleted id (r.milestonesCompleted + 1) r.milestonesTotal]⟩
  | approveRelease id approver =>
    let r' := r.approve approver
    let recorded := .approvalRecorded id approver r'.clientApproved r'.freelancerApproved
    if r'.clientApproved ∧ r'.freelancerApproved then
      ⟨{ r' with status := .released }, r.payout env.contract, [recorded, r.releasedEvent id]⟩
    else ⟨r', [], [recorded]⟩
  | _ => ⟨r, [], []⟩

/-- The arithmetic of the call stays within its machine widths. -/
def Call.Fits (r : EscrowRecord) : Call → Prop
  | release .. | resolveDispute _ true => FitsI128 (r.amount - r.platformFee)
  | approveRelease _ approver =>
    (r.approve approver).clientApproved ∧ (r.approve approver).freelancerApproved →
      FitsI128 (r.amount - r.platformFee)
  | completeMilestone _ => r.milestonesCompleted + 1 < 2 ^ 32
  | _ => True

def Host.apply (h : Host) (c : Change) : Host where
  storage := h.storage.saveEscrow c.record
  balances := h.balances.pay c.transfers
  transfers := h.transfers ++ c.transfers
  events := h.events ++ c.events

/-- `h'` is what the call leaves when it succeeds on the record stored under `id`. -/
def Call.Updates (env : Env) (h : Host) (call : Call) (id : Bytes) (h' : Host) : Prop :=
  ∃ r, h.storage.escrows.lookup id = some r ∧ call.Admits env h.storage.isPaused r ∧ call.Fits r ∧
    Affordable h.balances (call.change env r).transfers ∧ h' = h.apply (call.change env r)

/-! ## The entrypoints meet their specifications -/

theorem Host.apply_eq_nil (h : Host) (r : EscrowRecord) (e : Event) :
    (h.saveEscrow r).emit e = h.apply ⟨r, [], [e]⟩ := by
  simp [Host.apply, Host.saveEscrow, Host.emit, Balances.pay]

section
variable {env : Env} {h h' : Host} {id : Bytes}

theorem opening_ok {gate : EscrowRecord → Prop} [DecidablePred gate] {who : EscrowRecord → Address}
    {k : EscrowRecord → Except Failure Host} :
    (do returnIf h.storage.isPaused .contractPaused
        let r ← h.storage.loadEscrow id
        returnIf (gate r) .invalidStatus
        requireAuth env (who r)
        k r) = .ok h' ↔
      ∃ r, h.storage.escrows.lookup id = some r ∧ h.storage.isPaused = false ∧ ¬ gate r ∧ env.Signed (who r) ∧
        k r = .ok h' := by
  simp only [except_bind_ok, returnIf_ok, requireAuth_ok, loadEscrow_ok, exists_const, Bool.not_eq_true]
  constructor
  · rintro ⟨hp, r, hr, hs, ha, hk⟩; exact ⟨r, hr, hp, hs, ha, hk⟩
  · rintro ⟨r, hr, hp, hs, ha, hk⟩; exact ⟨hp, r, hr, hs, ha, hk⟩

theorem open_of_gate {r : EscrowRecord} : ¬ (r.status ≠ .funded ∧ r.status ≠ .active) ↔ r.Open := by
  rw [not_and_or, not_not, not_not]
  exact Iff.rfl

theorem fund_ok : NexusEscrow.fund env h id = .ok h' ↔ (Call.fund id).Updates env h id h' := by
  refine opening_ok.trans (exists_congr fun r => and_congr_right fun _ => ?_)
  simp only [except_bind_ok, transferToken_ok, except_pure_ok, not_not]
  constructor
  · rintro ⟨hp, hs, ha, _, ⟨hb, rfl⟩, rfl⟩
    exact ⟨⟨hp, hs, ha⟩, trivial, hb, rfl⟩
  · rintro ⟨⟨hp, hs, ha⟩, _, hb, rfl⟩
    exact ⟨hp, hs, ha, _, ⟨hb, rfl⟩, rfl⟩

theorem activate_ok : NexusEscrow.activate env h id = .ok h' ↔ (Call.activate id).Updates env h id h' := by
  refine opening_ok.trans (exists_congr fun r => and_congr_right fun _ => ?_)
  simp only [except_pure_ok, not_not, Host.apply_eq_nil]
  constructor
  · rintro ⟨hp, hs, ha, rfl⟩
    exact ⟨⟨hp, hs, ha⟩, trivial, trivial, rfl⟩
  · rintro ⟨⟨hp, hs, ha⟩, -, -, rfl⟩
    exact ⟨hp, hs, ha, rfl⟩

theorem release_ok {hash : Option Bytes} :
    NexusEscrow.release env h id hash = .ok h' ↔ (Call.release id hash).Updates env h id h' := by
  refine opening_ok.trans (exists_congr fun r => and_congr_right fun _ => ?_)
  simp only [open_of_gate]
  simp only [except_bind_ok, except_pure_ok, returnIf_ok, checkedI128_ok, doRelease_ok, exists_const,
    not_exists, not_and, not_not]
  constructor
  · rintro ⟨hp, hs, ha, hh, _, ⟨_, rfl⟩, _, ⟨hf, hb, rfl⟩, rfl⟩
    exact ⟨⟨hp, hs, ha, hh⟩, hf, hb, rfl⟩
  · rintro ⟨⟨hp, hs, ha, hh⟩, hf, hb, rfl⟩
    exact ⟨hp, hs, ha, hh, _, ⟨hf, rfl⟩, _, ⟨hf, hb, rfl⟩, rfl⟩

theorem refund_ok : NexusEscrow.refund env h id = .ok h' ↔ (Call.refund id).Updates env h id h' := by
  refine opening_ok.trans (exists_congr fun r => and_congr_right fun _ => ?_)
  have hg : ¬ (r.status ≠ .funded ∧ r.status ≠ .active ∧ r.status ≠ .disputed) ↔
    r.Open ∨ r.status = .disputed := by
    rw [not_and_or, not_and_or, not_not, not_not, not_not, ← or_assoc]
    exact Iff.rfl
  simp only [hg, except_bind_ok, transferToken_ok, except_pure_ok]
  constructor
  · rintro ⟨hp, hs, ha, _, ⟨hb, rfl⟩, rfl⟩
    exact ⟨⟨hp, hs, ha⟩, trivial, hb, rfl⟩
  · rintro ⟨⟨hp, hs, ha⟩, _, hb, rfl⟩
    exact ⟨hp, hs, ha, _, ⟨hb, rfl⟩, rfl⟩

theorem cancel_ok {caller : Address} :
    NexusEscrow.cancel env h id caller = .ok h' ↔ (Call.cancel id caller).Updates env h id h' := by
  simp only [NexusEscrow.cancel, except_bind_ok, loadEscrow_ok]
  refine exists_congr fun r => and_congr_right fun _ => ?_
  have hw : ¬ (caller ≠ r.client ∧ caller ≠ r.admin) ↔ caller = r.client ∨ caller = r.admin := by
    rw [not_and_or, not_not, not_not]
  simp only [returnIf_ok, requireAuth_ok, except_pure_ok, exists_const, not_not, hw,
    Host.apply_eq_nil]
  constructor
  · rintro ⟨hs, ha, hc, rfl⟩
    exact ⟨⟨hs, ha, hc⟩, trivial, trivial, rfl⟩
  · rintro ⟨⟨hs, ha, hc⟩, -, -, rfl⟩
    exact ⟨hs, ha, hc, rfl⟩

theorem raiseDispute_ok {caller : Address} :
    NexusEscrow.raiseDispute env h id caller = .ok h' ↔ (Call.raiseDispute id caller).Updates env h id h' := by
  refine opening_ok.trans (exists_congr fun r => and_congr_right fun _ => ?_)
  have hw : ¬ (caller ≠ r.client ∧ caller ≠ r.freelancer) ↔ caller = r.client ∨
    caller = r.freelancer := by rw [not_and_or, not_not, not_not]
  simp only [open_of_gate]
  simp only [except_bind_ok, returnIf_ok, except_pure_ok, exists_const, hw, not_and, not_lt,
    Host.apply_eq_nil]
  constructor
  · rintro ⟨hp, hs, ha, hc, hd, rfl⟩
    exact ⟨⟨hp, hs, ha, hc, hd⟩, trivial, trivial, rfl⟩
  · rintro ⟨⟨hp, hs, ha, hc, hd⟩, -, -, rfl⟩
    exact ⟨hp, hs, ha, hc, hd, rfl⟩

theorem resolveDispute_ok {b : Bool} :
    NexusEscrow.resolveDispute env h id b = .ok h' ↔ (Call.resolveDispute id b).Updates env h id h' := by
  refine opening_ok.trans (exists_congr fun r => and_congr_right fun _ => ?_)
  cases b with
  | true =>
    simp only [ite_true, except_ite_bind]
    simp only [except_bind_ok, checkedI128_ok, except_pure_ok, not_not]
    constructor
    · rintro ⟨hp, hs, ha, _, ⟨hf, rfl⟩, h₁, h1, h₂, h2, rfl⟩
      obtain ⟨hb, rfl⟩ := payout_ok.mp ⟨h₁, h1, h2⟩
      exact ⟨⟨hp, hs, ha⟩, hf, hb, rfl⟩
    · rintro ⟨⟨hp, hs, ha⟩, hf, hb, rfl⟩
      obtain ⟨h₁, h1, h2⟩ := payout_ok.mpr ⟨hb, rfl⟩
      exact ⟨hp, hs, ha, _, ⟨hf, rfl⟩, h₁, h1, _, h2, rfl⟩
  | false =>
    simp only [Bool.false_eq_true, ite_false, except_bind_ok, transferToken_ok, except_pure_ok,
      not_not]
    constructor
    · rintro ⟨hp, hs, ha, _, ⟨hb, rfl⟩, rfl⟩
      exact ⟨⟨hp, hs, ha⟩, trivial, hb, rfl⟩
    · rintro ⟨⟨hp, hs, ha⟩, _, hb, rfl⟩
      exact ⟨hp, hs, ha, _, ⟨hb, rfl⟩, rfl⟩

theorem completeMilestone_ok :
    NexusEscrow.completeMilestone env h id = .ok h' ↔ (Call.completeMilestone id).Updates env h id h' := by
  refine opening_ok.trans (exists_congr fun r => and_congr_right fun _ => ?_)
  simp only [open_of_gate, except_bind_ok, returnIf_ok, checkedU32_ok, except_pure_ok, exists_const,
    Host.apply_eq_nil, not_le]
  constructor
  · rintro ⟨hp, hs, ha, _, hm, _, ⟨hf, rfl⟩, rfl⟩
    exact ⟨⟨hp, hs, ha, hm⟩, hf, trivial, rfl⟩
  · rintro ⟨⟨hp, hs, ha, hm⟩, hf, _, rfl⟩
    exact ⟨hp, hs, ha, by omega, hm, _, ⟨hf, rfl⟩, rfl⟩

theorem claimExpired_ok :
    NexusEscrow.claimExpired env h id = .ok h' ↔ (Call.claimExpired id).Updates env h id h' := by
  simp only [NexusEscrow.claimExpired, except_bind_ok, loadEscrow_ok]
  refine exists_congr fun r => and_congr_right fun _ => ?_
  simp only [returnIf_ok, open_of_gate, exists_const, transferToken_ok, except_pure_ok, not_or, not_lt]
  constructor
  · rintro ⟨hs, ⟨he, hl⟩, _, ⟨hb, rfl⟩, rfl⟩
    exact ⟨⟨hs, he, hl⟩, trivial, hb, rfl⟩
  · rintro ⟨⟨hs, he, hl⟩, _, hb, rfl⟩
    exact ⟨hs, ⟨he, hl⟩, _, ⟨hb, rfl⟩, rfl⟩

/-! ### Approvals -/

section
variable (r : EscrowRecord) (a : Address)

@[simp] theorem EscrowRecord.approve_status : (r.approve a).status = r.status := rfl

@[simp] theorem EscrowRecord.approve_fundedLedger : (r.approve a).fundedLedger = r.fundedLedger := rfl

@[simp] theorem EscrowRecord.approve_milestonesTotal : (r.approve a).milestonesTotal = r.milestonesTotal := rfl

@[simp] theorem EscrowRecord.approve_milestonesCompleted :
    (r.approve a).milestonesCompleted = r.milestonesCompleted := rfl

end

theorem approve_choice {r r' : EscrowRecord} {a : Address} :
    (if a = r.client then pure { r with clientApproved := true }
      else if a = r.freelancer then pure { r with freelancerApproved := true }
      else .error (.error .unauthorized) : Except Failure EscrowRecord) = .ok r' ↔
      (a = r.client ∨ a = r.freelancer) ∧ r' = r.approve a := by
  by_cases hc : a = r.client
  · rw [if_pos hc, except_pure_ok]
    simp only [EscrowRecord.approve, hc, true_or, true_and, decide_true, Bool.or_true, not_true_eq_false,
      ne_eq, decide_false, Bool.or_false]
    exact eq_comm
  · by_cases hf : a = r.freelancer
    · rw [if_neg hc, if_pos hf, except_pure_ok]
      simp only [EscrowRecord.approve, hc, false_or, decide_false, Bool.or_false, ne_eq, not_false_eq_true,
        decide_true, Bool.or_true, and_iff_right hf]
      exact eq_comm
    · simp [hc, hf]

/-- The second of the two writes of a releasing approval is the one that stays. -/
theorem Host.apply_twice {h : Host} {r r' : EscrowRecord} {ts : List Transfer} {e e' : Event}
    (hid : r'.escrowId = r.escrowId) :
    ((((h.saveEscrow r).emit e).pay ts).saveEscrow r').emit e' = h.apply ⟨r', ts, [e, e']⟩ := by
  simp [Host.apply, Host.saveEscrow, Host.emit, Host.pay, Storage.saveEscrow, hid]

theorem approveRelease_ok {approver : Address} :
    NexusEscrow.approveRelease env h id approver = .ok h' ↔
      (Call.approveRelease id approver).Updates env h id h' := by
  refine opening_ok.trans (exists_congr fun r => and_congr_right fun _ => ?_)
  simp only [open_of_gate, except_ite_bind]
  simp only [except_bind_ok, approve_choice, Call.Admits, Call.Fits, Call.change]
  by_cases hb : (r.approve approver).clientApproved ∧ (r.approve approver).freelancerApproved
  · constructor
    · rintro ⟨hp, hs, ha, _, ⟨hw, rfl⟩, hk⟩
      simp only [if_pos hb, except_bind_ok, checkedI128_ok, doRelease_ok, except_pure_ok] at hk ⊢
      obtain ⟨_, ⟨hf, rfl⟩, _, ⟨_, ht, rfl⟩, rfl⟩ := hk
      exact ⟨⟨hp, hs, ha, hw⟩, fun _ => hf, ht, Host.apply_twice rfl⟩
    · rintro ⟨⟨hp, hs, ha, hw⟩, hf, ht, rfl⟩
      refine ⟨hp, hs, ha, _, ⟨hw, rfl⟩, ?_⟩
      simp only [if_pos hb, except_bind_ok, checkedI128_ok, doRelease_ok, except_pure_ok] at hf ht ⊢
      exact ⟨_, ⟨hf hb, rfl⟩, _, ⟨hf hb, ht, rfl⟩, Host.apply_twice rfl⟩
  · simp only [if_neg hb, Host.apply_eq_nil, Affordable]
    constructor
    · rintro ⟨hp, hs, ha, _, ⟨hw, rfl⟩, hk⟩
      simp only [if_neg hb, except_pure_ok] at hk
      exact ⟨⟨hp, hs, ha, hw⟩, fun h => absurd h hb, trivial, hk.symm⟩
    · rintro ⟨⟨hp, hs, ha, hw⟩, -, -, rfl⟩
      refine ⟨hp, hs, ha, _, ⟨hw, rfl⟩, ?_⟩
      simp only [if_neg hb, except_pure_ok]

/-! ### Administration and creation -/

theorem initializeContract_ok {admin : Address} {bps : UInt32} :
    NexusEscrow.initializeContract env h admin bps = .ok h' ↔
      h.storage.admin = none ∧ bps.toNat ≤ maxFeeBps ∧ env.Signed admin ∧
        h' = { h with storage := ((h.storage.setAdmin admin).setFeeBps bps.toNat).setPaused false } := by
  simp only [NexusEscrow.initializeContract, except_bind_ok, returnIf_ok, requireAuth_ok, except_pure_ok,
    exists_const, Option.not_isSome_iff_eq_none, not_lt, gt_iff_lt]
  exact and_congr_right fun _ => and_congr_right fun _ => and_congr_right fun _ => eq_comm

theorem setFee_ok {bps : UInt32} :
    NexusEscrow.setFee env h bps = .ok h' ↔
      ∃ admin, h.storage.admin = some admin ∧ env.Signed admin ∧ bps.toNat ≤ maxFeeBps ∧
        h' = { h with storage := h.storage.setFeeBps bps.toNat } := by
  simp only [NexusEscrow.setFee, except_bind_ok, returnIf_ok, requireAuth_ok, except_pure_ok, exists_const,
    getAdmin_ok, not_lt, gt_iff_lt]
  exact exists_congr fun _ => and_congr_right fun _ => and_congr_right fun _ => and_congr_right fun _ => eq_comm

theorem setPaused_ok {b : Bool} :
    NexusEscrow.setPaused env h b = .ok h' ↔
      ∃ admin, h.storage.admin = some admin ∧ env.Signed admin ∧
        h' = { h with storage := h.storage.setPaused b } := by
  simp only [NexusEscrow.setPaused, except_bind_ok, requireAuth_ok, except_pure_ok, exists_const, getAdmin_ok]
  exact exists_congr fun _ => and_congr_right fun _ => and_congr_right fun _ => eq_comm

theorem transferAdmin_ok {newAdmin : Address} :
    NexusEscrow.transferAdmin env h newAdmin = .ok h' ↔
      ∃ admin, h.storage.admin = some admin ∧ env.Signed admin ∧
        h' = { h with storage := h.storage.setAdmin newAdmin }.emit (.adminTransferred admin newAdmin) := by
  simp only [NexusEscrow.transferAdmin, except_bind_ok, requireAuth_ok, except_pure_ok, exists_const,
    getAdmin_ok]
  exact exists_congr fun _ => and_congr_right fun _ => and_congr_right fun _ => eq_comm

theorem computeFee_ok {amount fee : Int} {bps : Nat} :
    computeFee amount bps = .ok fee ↔ FitsI128 (amount * bps) ∧ fee = (amount * bps).tdiv 10000 := by
  simp only [computeFee, except_bind_ok, checkedI128_ok, except_pure_ok]
  constructor
  · rintro ⟨_, ⟨hf, rfl⟩, rfl⟩; exact ⟨hf, rfl⟩
  · rintro ⟨hf, rfl⟩; exact ⟨_, ⟨hf, rfl⟩, rfl⟩

/-- `r` is the record the call stores under the new key `id`. -/
structure Call.Creates (env : Env) (s : Storage) (call : Call) (id : Bytes) (r : EscrowRecord) : Prop where
  call_eq : ∃ (amount : I128) (delay total expiry : UInt32), amount.val = r.amount ∧
    call = .initEscrow id r.client r.freelancer r.token amount r.milestoneHash r.description delay total expiry
  unpaused : s.isPaused = false
  fresh : s.escrows.lookup id = none
  escrowId : r.escrowId = id
  client_signed : env.Signed r.client
  admin : s.admin = some r.admin
  amount_pos : 0 < r.amount
  amount_fits : FitsI128 r.amount
  product_fits : FitsI128 (r.amount * s.getFeeBps)
  fee : r.platformFee = (r.amount * s.getFeeBps).tdiv 10000
  fee_lt : r.platformFee < r.amount
  pending : r.status = .pending
  deadline : env.sequence + minDisputeDelay ≤ r.disputeDeadlineLedger
  deadline_fits : r.disputeDeadlineLedger < 2 ^ 32
  expiry : 0 < r.expiryLedger → env.sequence < r.expiryLedger
  unfunded : r.fundedLedger = 0
  total_fits : r.milestonesTotal < 2 ^ 32
  no_milestone : r.milestonesCompleted = 0
  no_client_approval : r.clientApproved = false
  no_freelancer_approval : r.freelancerApproved = false

theorem Call.Creates.named {s : Storage} {call : Call} {r : EscrowRecord} (h : call.Creates env s id r) :
    call.escrowId? = some id := by
  obtain ⟨_, _, _, _, _, rfl⟩ := h.call_eq; rfl

theorem initEscrow_ok {client freelancer token : Address} {amount : I128} {hash : Bytes} {description : String}
    {delay total expiry : UInt32} :
    NexusEscrow.initEscrow env h id client freelancer token amount hash description delay total expiry =
    .ok h' ↔
      h.storage.isPaused = false ∧ 0 < amount.val ∧ delay.toNat ≤ maxExtraDisputeDelay ∧
      (0 < expiry.toNat → env.sequence < expiry.toNat) ∧ h.storage.escrows.lookup id = none ∧
      env.Signed client ∧ FitsI128 (amount.val * h.storage.getFeeBps) ∧
      (amount.val * h.storage.getFeeBps).tdiv 10000 < amount.val ∧
      env.sequence + minDisputeDelay + delay.toNat < 2 ^ 32 ∧
      ∃ admin, h.storage.admin = some admin ∧
        h' = h.apply ⟨⟨id, client, freelancer, admin, token, amount.val,
          (amount.val * h.storage.getFeeBps).tdiv 10000, .pending, hash,
          env.sequence + minDisputeDelay + delay.toNat, 0, total.toNat, 0, expiry.toNat, false, false,
          description⟩, [], [.initialized id client freelancer amount.val]⟩ := by
  simp only [NexusEscrow.initEscrow, except_bind_ok, returnIf_ok, requireAuth_ok, except_pure_ok, exists_const,
    getAdmin_ok, computeFee_ok, checkedU32_ok, Host.apply_eq_nil, Storage.escrowExists,
      Option.isSome_iff_ne_none,
    not_not, not_le, not_lt, not_and, Bool.not_eq_true, gt_iff_lt, ge_iff_le]
  constructor
  · rintro ⟨hp, ha, hd, he, hn, hs, _, ⟨hf, rfl⟩, hlt, admin, hadm, _, ⟨_, rfl⟩, _, ⟨hq, rfl⟩, rfl⟩
    exact ⟨hp, ha, hd, he, hn, hs, hf, hlt, hq, admin, hadm, rfl⟩
  · rintro ⟨hp, ha, hd, he, hn, hs, hf, hlt, hq, admin, hadm, rfl⟩
    exact ⟨hp, ha, hd, he, hn, hs, _, ⟨hf, rfl⟩, hlt, admin, hadm, _, ⟨by omega, rfl⟩, _, ⟨hq, rfl⟩, rfl⟩

theorem initEscrow_creates {client freelancer token : Address} {amount : I128} {hash : Bytes}
    {description : String} {delay total expiry : UInt32}
    (hx : NexusEscrow.initEscrow env h id client freelancer token amount hash description delay total expiry =
      .ok h') :
    ∃ r, Call.Creates env h.storage
        (.initEscrow id client freelancer token amount hash description delay total expiry) id r ∧
      h' = h.apply ⟨r, [], [.initialized id r.client r.freelancer r.amount]⟩ := by
  obtain ⟨hp, ha, _, he, hn, hs, hf, hlt, hq, admin, hadm, rfl⟩ := initEscrow_ok.mp hx
  exact ⟨_, {
    call_eq := ⟨amount, delay, total, expiry, rfl, rfl⟩, unpaused := hp, fresh := hn, escrowId :=
      rfl, client_signed := hs, admin := hadm
    amount_pos := ha, amount_fits := amount.fits, product_fits := hf, fee := rfl, fee_lt := hlt, pending := rfl
    deadline := Nat.le_add_right _ _, deadline_fits := hq, expiry := he, unfunded := rfl
    total_fits := total.toNat_lt, no_milestone := rfl, no_client_approval := rfl
    no_freelancer_approval := rfl }, rfl⟩

end

/-! ## Every call -/

/-- A call that names no escrow leaves escrows and money alone. -/
structure Call.Configures (h : Host) (call : Call) (h' : Host) : Prop where
  named : call.escrowId? = none
  escrows : h'.storage.escrows = h.storage.escrows
  balances : h'.balances = h.balances
  transfers : h'.transfers = h.transfers

/-- What a successful call did: change the configuration, store a new record,
or update a stored one. -/
theorem exec_cases {env : Env} {h h' : Host} {call : Call} (hx : call.exec env h = .ok h') :
    call.Configures h h' ∨
    (∃ id r, call.Creates env h.storage id r ∧
      h' = h.apply ⟨r, [], [.initialized id r.client r.freelancer r.amount]⟩) ∨
    (∃ id, call.escrowId? = some id ∧ call.Updates env h id h') := by
  cases call with
  | initializeContract admin bps =>
    obtain ⟨-, -, -, rfl⟩ := initializeContract_ok.mp hx; exact .inl ⟨rfl, rfl, rfl, rfl⟩
  | setFee bps => obtain ⟨_, -, -, -, rfl⟩ := setFee_ok.mp hx; exact .inl ⟨rfl, rfl, rfl, rfl⟩
  | setPaused b => obtain ⟨_, -, -, rfl⟩ := setPaused_ok.mp hx; exact .inl ⟨rfl, rfl, rfl, rfl⟩
  | transferAdmin a => obtain ⟨_, -, -, rfl⟩ := transferAdmin_ok.mp hx; exact .inl ⟨rfl, rfl, rfl, rfl⟩
  | initEscrow id => exact .inr (.inl ⟨id, initEscrow_creates hx⟩)
  | fund id => exact .inr (.inr ⟨id, rfl, fund_ok.mp hx⟩)
  | activate id => exact .inr (.inr ⟨id, rfl, activate_ok.mp hx⟩)
  | release id => exact .inr (.inr ⟨id, rfl, release_ok.mp hx⟩)
  | refund id => exact .inr (.inr ⟨id, rfl, refund_ok.mp hx⟩)
  | cancel id => exact .inr (.inr ⟨id, rfl, cancel_ok.mp hx⟩)
  | raiseDispute id => exact .inr (.inr ⟨id, rfl, raiseDispute_ok.mp hx⟩)
  | resolveDispute id => exact .inr (.inr ⟨id, rfl, resolveDispute_ok.mp hx⟩)
  | completeMilestone id => exact .inr (.inr ⟨id, rfl, completeMilestone_ok.mp hx⟩)
  | claimExpired id => exact .inr (.inr ⟨id, rfl, claimExpired_ok.mp hx⟩)
  | approveRelease id => exact .inr (.inr ⟨id, rfl, approveRelease_ok.mp hx⟩)

theorem updates_of_exec {env : Env} {h h' : Host} {call : Call} {id : Bytes} {r : EscrowRecord}
    (hid : call.escrowId? = some id) (hr : h.storage.escrows.lookup id = some r) (hx : call.exec env h = .ok h') :
    call.Admits env h.storage.isPaused r ∧ h' = h.apply (call.change env r) := by
  rcases exec_cases hx with hc | ⟨k, r', hc, -⟩ | ⟨k, hk, r', hr', ha, -, -, he⟩
  · exact absurd (hc.named.symm.trans hid) nofun
  · obtain rfl := Option.some.inj (hc.named.symm.trans hid)
    exact absurd (hr.symm.trans hc.fresh) nofun
  · obtain rfl := Option.some.inj (hk.symm.trans hid)
    obtain rfl := Option.some.inj (hr.symm.trans hr')
    exact ⟨ha, he⟩

theorem exec_of_updates {env : Env} {h h' : Host} {call : Call} {id : Bytes} (hid : call.escrowId? = some id)
    (hu : call.Updates env h id h') : call.exec env h = .ok h' := by
  have ⟨r, _, hadm, _⟩ := hu
  cases call with
  | initializeContract | setFee | setPaused | transferAdmin => cases hid
  | initEscrow => exact hadm.elim
  | fund => cases hid; exact fund_ok.mpr hu
  | activate => cases hid; exact activate_ok.mpr hu
  | release => cases hid; exact release_ok.mpr hu
  | refund => cases hid; exact refund_ok.mpr hu
  | cancel => cases hid; exact cancel_ok.mpr hu
  | raiseDispute => cases hid; exact raiseDispute_ok.mpr hu
  | resolveDispute => cases hid; exact resolveDispute_ok.mpr hu
  | completeMilestone => cases hid; exact completeMilestone_ok.mpr hu
  | claimExpired => cases hid; exact claimExpired_ok.mpr hu
  | approveRelease => cases hid; exact approveRelease_ok.mpr hu

end NexusHub
