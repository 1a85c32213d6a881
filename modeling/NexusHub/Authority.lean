import NexusHub.Settlement

/-!
# Who authorised a payment

Each way to settle an escrow leaves receipts that justify it: who signed, in
which order and at which ledger. The flags and the status of the record stand
for receipts of the past, and a dispute is what clears the approvals.
-/

namespace NexusHub

/-- Some receipt with `Q` comes after one with `P`. -/
def Before (P Q : Receipt → Prop) (rcs : List Receipt) : Prop := ∃ a b, [a, b].Sublist rcs ∧ P a ∧ Q b

theorem Before.append {P Q : Receipt → Prop} {rcs : List Receipt} (h : Before P Q rcs) (rcs' : List Receipt) :
    Before P Q (rcs ++ rcs') := by
  obtain ⟨a, b, hs, ha, hb⟩ := h
  exact ⟨a, b, hs.trans (List.sublist_append_left _ _), ha, hb⟩

theorem before_last {P Q : Receipt → Prop} {rcs : List Receipt} {b : Receipt} (h : ∃ a ∈ rcs, P a) (hb : Q b) :
    Before P Q (rcs ++ [b]) := by
  obtain ⟨a, ha, hP⟩ := h
  exact ⟨a, b, (List.singleton_sublist.mpr ha).append (List.Sublist.refl [b]), hP, hb⟩

theorem mem_append_of {P : Receipt → Prop} {rcs : List Receipt} (h : ∃ a ∈ rcs, P a) (rcs' : List Receipt) :
    ∃ a ∈ rcs ++ rcs', P a := by
  obtain ⟨a, ha, hP⟩ := h
  exact ⟨a, List.mem_append_left _ ha, hP⟩

/-! ## Receipts that justify -/

section
variable (contract : Address) (id : Bytes) (r : EscrowRecord)

def Receipt.SignedBy (rc : Receipt) (a : Address) : Prop := a ≠ contract ∧ a ∈ rc.signers

def FundedBy (rc : Receipt) : Prop := rc.call = .fund id ∧ rc.SignedBy contract r.client

def ReleasedBy (rc : Receipt) : Prop := (∃ hash, rc.call = .release id hash) ∧ rc.SignedBy contract r.client

def ApprovedBy (a : Address) (rc : Receipt) : Prop := rc.call = .approveRelease id a ∧ rc.SignedBy contract a

/-- By the client, or by the freelancer once the deadline has passed. -/
def DisputedBy (rc : Receipt) : Prop :=
  ∃ caller, rc.call = .raiseDispute id caller ∧ rc.SignedBy contract caller ∧
    (caller = r.client ∨ caller = r.freelancer ∧ r.disputeDeadlineLedger ≤ rc.sequence)

def ResolvedBy (toFreelancer : Bool) (rc : Receipt) : Prop :=
  rc.call = .resolveDispute id toFreelancer ∧ rc.SignedBy contract r.admin

def RefundedBy (rc : Receipt) : Prop := rc.call = .refund id ∧ rc.SignedBy contract r.admin

def ExpiredBy (rc : Receipt) : Prop :=
  rc.call = .claimExpired id ∧ 0 < r.expiryLedger ∧ r.expiryLedger ≤ rc.sequence

def Undisputed (rcs : List Receipt) : Prop := ∀ rc ∈ rcs, ∀ caller, rc.call ≠ .raiseDispute id caller

def ReleaseJustified (rcs : List Receipt) : Prop :=
  Undisputed id rcs ∧ Before (FundedBy contract id r) (ReleasedBy contract id r) rcs ∨
  Undisputed id rcs ∧ Before (FundedBy contract id r) (ApprovedBy contract id r.client) rcs ∧
    Before (FundedBy contract id r) (ApprovedBy contract id r.freelancer) rcs ∨
  Before (DisputedBy contract id r) (ResolvedBy contract id r true) rcs

def RefundJustified (rcs : List Receipt) : Prop :=
  (∃ rc ∈ rcs, RefundedBy contract id r rc) ∨
  Before (DisputedBy contract id r) (ResolvedBy contract id r false) rcs ∨
  Undisputed id rcs ∧ ∃ rc ∈ rcs, ExpiredBy id r rc

/-- Money leaves others than the contract as the deposit only, and in a `fund` the client signed. -/
def DepositJustified (rcs : List Receipt) : Prop :=
  ∀ rc ∈ rcs, ∀ t ∈ rc.transfers, t.src ≠ contract → t = r.deposit contract ∧ FundedBy contract id r rc

/-- What the receipts say about the status and the flags of the record. -/
structure Justified (rcs : List Receipt) : Prop where
  deposit : DepositJustified contract id r rcs
  funded : r.Open → ∃ rc ∈ rcs, FundedBy contract id r rc
  undisputed : r.status = .pending ∨ r.Open → Undisputed id rcs
  disputed : r.status = .disputed → ∃ rc ∈ rcs, DisputedBy contract id r rc
  client_approved : r.Open → r.clientApproved = true →
    Before (FundedBy contract id r) (ApprovedBy contract id r.client) rcs
  freelancer_approved : r.Open → r.freelancerApproved = true →
    Before (FundedBy contract id r) (ApprovedBy contract id r.freelancer) rcs
  released : r.status = .released → ReleaseJustified contract id r rcs
  refunded : r.status = .refunded → RefundJustified contract id r rcs

end

/-! ## Every call leaves its justification -/

theorem change_debits {env : Env} {paused : Bool} {id : Bytes} {r : EscrowRecord} {call : Call}
    (hid : call.escrowId? = some id) (ha : call.Admits env paused r) {t : Transfer}
    (ht : t ∈ (call.change env r).transfers) (hsrc : t.src ≠ env.contract) :
    t = r.deposit env.contract ∧ call = .fund id ∧ env.Signed r.client := by
  have hpay : t ∉ r.payout env.contract := by
    intro h
    unfold EscrowRecord.payout at h
    split at h <;> simp only [List.mem_cons, List.not_mem_nil, or_false] at h
    · rcases h with rfl | rfl <;> exact hsrc rfl
    · exact hsrc (h ▸ rfl)
  have hback : t ∉ [r.repayment env.contract] := fun h => hsrc (List.mem_singleton.mp h ▸ rfl)
  cases call with
  | initializeContract | setFee | setPaused | transferAdmin | initEscrow => exact ha.elim
  | fund =>
    cases hid
    exact ⟨List.mem_singleton.mp ht, rfl, ha.2.2⟩
  | activate | cancel | raiseDispute | completeMilestone => exact absurd ht List.not_mem_nil
  | release => exact absurd ht hpay
  | refund | claimExpired => exact absurd ht hback
  | resolveDispute _ toFreelancer =>
    cases toFreelancer
    · exact absurd ht hback
    · exact absurd ht hpay
  | approveRelease =>
    simp only [Call.change] at ht
    split at ht
    · exact absurd ht hpay
    · exact absurd ht List.not_mem_nil

theorem Undisputed.snoc {id : Bytes} {rcs : List Receipt} (h : Undisputed id rcs) (rc : Receipt)
    (hrc : ∀ caller, rc.call ≠ .raiseDispute id caller) : Undisputed id (rcs ++ [rc]) := by
  intro x hx
  rcases List.mem_append.mp hx with hx | hx
  · exact h x hx
  · rw [List.mem_singleton.mp hx]; exact hrc

section
variable {env : Env} {paused : Bool} {id : Bytes} {r : EscrowRecord} {call : Call} {rcs : List Receipt}

theorem Justified.deposit_change (h : Justified env.contract id r rcs) (hid : call.escrowId? = some id)
    (ha : call.Admits env paused r) :
    DepositJustified env.contract id r (rcs ++ [env.receipt call (call.change env r)]) := by
  intro rc hrc t ht hsrc
  rcases List.mem_append.mp hrc with hrc | hrc
  · exact h.deposit rc hrc t ht hsrc
  · obtain rfl := List.mem_singleton.mp hrc
    obtain ⟨h1, h2, h3⟩ := change_debits hid ha ht hsrc
    exact ⟨h1, h2, h3⟩

theorem Justified.approve (h : Justified env.contract id r rcs) (hop : r.Open) {a : Address}
    (hw : a = r.client ∨ a = r.freelancer) {rc : Receipt} (hrc : ApprovedBy env.contract id a rc) :
    ((r.approve a).clientApproved = true →
      Before (FundedBy env.contract id r) (ApprovedBy env.contract id r.client) (rcs ++ [rc])) ∧
    ((r.approve a).freelancerApproved = true →
      Before (FundedBy env.contract id r) (ApprovedBy env.contract id r.freelancer) (rcs ++ [rc])) := by
  simp only [EscrowRecord.approve, Bool.or_eq_true, decide_eq_true_eq]
  constructor
  · rintro (hc | hc)
    · exact (h.client_approved hop hc).append _
    · exact before_last (h.funded hop) (hc ▸ hrc)
  · rintro (hc | hc)
    · exact (h.freelancer_approved hop hc).append _
    · exact before_last (h.funded hop) (hw.resolve_left hc ▸ hrc)

theorem Justified.of_open (hop : r.Open) (hdep : DepositJustified env.contract id r rcs)
    (hfunded : ∃ rc ∈ rcs, FundedBy env.contract id r rc) (hund : Undisputed id rcs)
    (hc : r.clientApproved = true → Before (FundedBy env.contract id r) (ApprovedBy env.contract id r.client) rcs)
    (hf : r.freelancerApproved = true →
      Before (FundedBy env.contract id r) (ApprovedBy env.contract id r.freelancer) rcs) :
    Justified env.contract id r rcs where
  deposit := hdep
  funded _ := hfunded
  undisputed _ := hund
  disputed hs := by simp [EscrowRecord.Open, hs] at hop
  client_approved _ := hc
  freelancer_approved _ := hf
  released hs := by simp [EscrowRecord.Open, hs] at hop
  refunded hs := by simp [EscrowRecord.Open, hs] at hop

theorem Justified.of_released (hs : r.status = .released) (hdep : DepositJustified env.contract id r rcs)
    (h : ReleaseJustified env.contract id r rcs) : Justified env.contract id r rcs := by
  have hop : ¬ r.Open := by simp [EscrowRecord.Open, hs]
  constructor <;> simp_all

theorem Justified.of_refunded (hs : r.status = .refunded) (hdep : DepositJustified env.contract id r rcs)
    (h : RefundJustified env.contract id r rcs) : Justified env.contract id r rcs := by
  have hop : ¬ r.Open := by simp [EscrowRecord.Open, hs]
  constructor <;> simp_all

theorem Justified.update (h : Justified env.contract id r rcs) (hr : r.Ok id) (hid : call.escrowId? = some id)
    (ha : call.Admits env paused r) :
    Justified env.contract id (call.change env r).record (rcs ++ [env.receipt call (call.change env r)]) := by
  have hdep := h.deposit_change hid ha
  have hund (hs : r.status = .pending ∨ r.Open) := (h.undisputed hs).snoc (env.receipt call (call.change env r))
  cases call with
  | initializeContract | setFee | setPaused | transferAdmin | initEscrow => exact ha.elim
  | fund =>
    cases hid
    obtain ⟨-, hs, hc⟩ := ha
    obtain ⟨hno, hno'⟩ := hr.not_approved (.inl hs)
    have hund := hund (.inl hs) fun _ => Call.noConfusion
    exact .of_open (.inl rfl) hdep ⟨_, List.mem_append_right _ (List.mem_singleton_self _), rfl, hc⟩ hund
      (fun h => absurd (hno.symm.trans h) Bool.false_ne_true)
      (fun h => absurd (hno'.symm.trans h) Bool.false_ne_true)
  | activate =>
    have hop : r.Open := .inl ha.2.1
    have hund := hund (.inr hop) fun _ => Call.noConfusion
    exact .of_open (.inr rfl) hdep (mem_append_of (h.funded hop) _) hund
      (fun hc => (h.client_approved hop hc).append _) (fun hf => (h.freelancer_approved hop hf).append _)
  | completeMilestone =>
    have hop := ha.2.1
    have hund := hund (.inr hop) fun _ => Call.noConfusion
    exact .of_open hop hdep (mem_append_of (h.funded hop) _) hund
      (fun hc => (h.client_approved hop hc).append _) (fun hf => (h.freelancer_approved hop hf).append _)
  | release =>
    cases hid
    obtain ⟨-, hop, hc, -⟩ := ha
    have hund := hund (.inr hop) fun _ => Call.noConfusion
    exact .of_released rfl hdep (.inl ⟨hund, before_last (h.funded hop) ⟨⟨_, rfl⟩, hc⟩⟩)
  | refund =>
    cases hid
    exact .of_refunded rfl hdep (.inl ⟨_, List.mem_append_right _ (List.mem_singleton_self _), rfl, ha.2.2⟩)
  | cancel =>
    have hop : ¬ { r with status := .cancelled : EscrowRecord }.Open := by simp [EscrowRecord.Open]
    exact {
      deposit := hdep
      funded := fun h => absurd h hop
      undisputed := fun h => h.elim (fun h => EscrowStatus.noConfusion h) fun h => absurd h hop
      disputed := fun h => EscrowStatus.noConfusion h
      client_approved := fun h => absurd h hop
      freelancer_approved := fun h => absurd h hop
      released := fun h => EscrowStatus.noConfusion h
      refunded := fun h => EscrowStatus.noConfusion h }
  | raiseDispute _ caller =>
    cases hid
    obtain ⟨-, -, hc, hw, hd⟩ := ha
    have hop : ¬ (Call.change env r (.raiseDispute id caller)).record.Open := by
      simp [EscrowRecord.Open, Call.change]
    have hraise : DisputedBy env.contract id r (env.receipt (.raiseDispute id caller)
        (Call.change env r (.raiseDispute id caller))) :=
      ⟨caller, rfl, hc, hw.imp_right fun hf => ⟨hf, hd hf⟩⟩
    exact {
      deposit := hdep
      funded := fun h => absurd h hop
      undisputed := fun h => h.elim (fun h => EscrowStatus.noConfusion h) fun h => absurd h hop
      disputed := fun _ => ⟨_, List.mem_append_right _ (List.mem_singleton_self _), hraise⟩
      client_approved := fun h => absurd h hop
      freelancer_approved := fun h => absurd h hop
      released := fun h => EscrowStatus.noConfusion h
      refunded := fun h => EscrowStatus.noConfusion h }
  | resolveDispute _ toFreelancer =>
    cases hid
    obtain ⟨-, hs, hadm⟩ := ha
    cases toFreelancer with
    | true => exact .of_released rfl hdep (.inr (.inr (before_last (h.disputed hs) ⟨rfl, hadm⟩)))
    | false => exact .of_refunded rfl hdep (.inr (.inl (before_last (h.disputed hs) ⟨rfl, hadm⟩)))
  | claimExpired =>
    cases hid
    obtain ⟨hop, hpos, hexp⟩ := ha
    have hund := hund (.inr hop) fun _ => Call.noConfusion
    exact .of_refunded rfl hdep (.inr (.inr ⟨hund, _, List.mem_append_right _ (List.mem_singleton_self _), rfl,
      Nat.pos_of_ne_zero hpos, hexp⟩))
  | approveRelease _ a =>
    cases hid
    obtain ⟨-, hop, hc, hw⟩ := ha
    have hund := hund (.inr hop) fun _ => Call.noConfusion
    have happ : ApprovedBy env.contract id a
      (env.receipt (.approveRelease id a) (Call.change env r (.approveRelease id a))) := ⟨rfl, hc⟩
    obtain ⟨h1, h2⟩ := h.approve hop hw happ
    by_cases hb : (r.approve a).clientApproved ∧ (r.approve a).freelancerApproved
    · have hrec : (Call.change env r (.approveRelease id a)).record =
        { r.approve a with status := .released } := by
        simp only [Call.change, if_pos hb]
      rw [hrec]
      exact .of_released rfl hdep (.inr (.inl ⟨hund, h1 hb.1, h2 hb.2⟩))
    · have hrec : (Call.change env r (.approveRelease id a)).record = r.approve a := by
        simp only [Call.change, if_neg hb]
      rw [hrec]
      exact .of_open hop hdep (mem_append_of (h.funded hop) _) hund h1 h2

theorem Call.Creates.justified {s : Storage} (hc : call.Creates env s id r) :
    Justified env.contract id r
    [env.receipt call ⟨r, [], [.initialized id r.client r.freelancer r.amount]⟩] := by
  have hop : ¬ r.Open := by simp [EscrowRecord.Open, hc.pending]
  have hno : ∀ caller, call ≠ .raiseDispute id caller := by
    obtain ⟨_, _, _, _, _, rfl⟩ := hc.call_eq
    exact fun _ => Call.noConfusion
  have hund : Undisputed id [env.receipt call ⟨r, [], [.initialized id r.client r.freelancer r.amount]⟩] := by
    intro rc hrc
    rw [List.mem_singleton.mp hrc]; exact hno
  exact {
    deposit := fun rc hrc t ht => by obtain rfl := List.mem_singleton.mp hrc; cases ht
    funded := fun h => absurd h hop
    undisputed := fun _ => hund
    disputed := fun h => EscrowStatus.noConfusion (hc.pending.symm.trans h)
    client_approved := fun h => absurd h hop
    freelancer_approved := fun h => absurd h hop
    released := fun h => EscrowStatus.noConfusion (hc.pending.symm.trans h)
    refunded := fun h => EscrowStatus.noConfusion (hc.pending.symm.trans h) }

end

/-! ## Every run -/

section
variable {self : Address} {l : Ledger} {id : Bytes} {r : EscrowRecord}

theorem Ledger.Reachable.justified (hl : l.Reachable self) (hr : l.storage.escrows.lookup id = some r) :
    Justified self id r (receiptsOf id l.history) := by
  suffices h : (l.view id).record = none ∧ (l.view id).receipts = [] ∨
      ∃ r, (l.view id).record = some r ∧ Justified self id r (l.view id).receipts by
    rcases h with ⟨h, -⟩ | ⟨r', h, hj⟩
    · exact absurd (hr.symm.trans h) nofun
    · obtain rfl := Option.some.inj (hr.symm.trans h); exact hj
  refine view_inv (fun v => v.record = none ∧ v.receipts = [] ∨
    ∃ r, v.record = some r ∧ Justified self id r v.receipts) (.inl ⟨rfl, rfl⟩) ?_ hl
  rintro l v v' - hm hi
  right
  cases hm with
  | create hc hok =>
    rcases hi with ⟨-, rfl⟩ | ⟨_, h, -⟩
    · exact ⟨_, rfl, hc.justified⟩
    · cases h
  | update hid hok ha =>
    rcases hi with ⟨h, -⟩ | ⟨_, h, hj⟩
    · cases h
    · cases h; exact ⟨_, rfl, hj.update hok hid ha⟩

theorem disputed_change {env : Env} {paused : Bool} {call : Call} (hid : call.escrowId? = some id)
    (hs : r.status = .disputed) (ha : call.Admits env paused r) (c : Change) :
    (call.change env r).record.Closed ∧
      (RefundedBy env.contract id r (env.receipt call c) ∨ ∃ b, ResolvedBy env.contract id r b
      (env.receipt call c)) := by
  have hop : ¬ r.Open := by simp [EscrowRecord.Open, hs]
  cases call with
  | initializeContract | setFee | setPaused | transferAdmin | initEscrow => exact ha.elim
  | fund => exact absurd (hs.symm.trans ha.2.1) EscrowStatus.noConfusion
  | activate => exact absurd (hs.symm.trans ha.2.1) EscrowStatus.noConfusion
  | cancel => exact absurd (hs.symm.trans ha.1) EscrowStatus.noConfusion
  | release | raiseDispute | completeMilestone | approveRelease => exact absurd ha.2.1 hop
  | claimExpired => exact absurd ha.1 hop
  | refund => cases hid; exact ⟨.inl (.inr rfl), .inl ⟨rfl, ha.2.2⟩⟩
  | resolveDispute _ toFreelancer =>
    cases hid
    refine ⟨?_, .inr ⟨toFreelancer, rfl, ha.2.2⟩⟩
    cases toFreelancer
    · exact .inl (.inr rfl)
    · exact .inl (.inl rfl)

/-- While a dispute lasts only its admin ends it: the escrow is as it was, or
the one call made on it since is the admin's. -/
theorem frozen_while_disputed (hl : l.Reachable self) (hr : l.storage.escrows.lookup id = some r)
    (hs : r.status = .disputed) (as : List Action) :
    (run (Ledger.step self) l as).view id = l.view id ∨
      ∃ rc, receiptsOf id (run (Ledger.step self) l as).history = receiptsOf id l.history ++ [rc] ∧
        (RefundedBy self id r rc ∨ ∃ b, ResolvedBy self id r b rc) := by
  suffices h : (run (Ledger.step self) l as).view id = l.view id ∨
      ∃ rc, ((run (Ledger.step self) l as).view id).receipts = receiptsOf id l.history ++ [rc] ∧
        (RefundedBy self id r rc ∨ ∃ b, ResolvedBy self id r b rc) ∧
        ∃ r', ((run (Ledger.step self) l as).view id).record = some r' ∧ r'.Closed by
    exact h.imp_right fun ⟨rc, h1, h2, _⟩ => ⟨rc, h1, h2⟩
  refine Ledger.view_run (fun v => v = l.view id ∨ ∃ rc, v.receipts = receiptsOf id l.history ++ [rc] ∧
    (RefundedBy self id r rc ∨ ∃ b, ResolvedBy self id r b rc) ∧ ∃ r', v.record = some r' ∧ r'.Closed) ?_ hl
    (.inl rfl) as
  have hv : l.view id = ⟨some r, receiptsOf id l.history⟩ := congrArg (View.mk · _) hr
  rintro l' v v' - hm hi
  right
  cases hm with
  | create =>
    rcases hi with h | ⟨_, -, -, _, h, -⟩
    · rw [hv] at h; cases h
    · cases h
  | update hid _ ha =>
    rcases hi with h | ⟨_, -, -, _, h, hc⟩
    · rw [hv] at h; cases h
      obtain ⟨h1, h2⟩ := disputed_change hid hs ha (Call.change _ r _)
      exact ⟨_, rfl, h2, _, rfl, h1⟩
    · cases h; exact absurd hc ha.live.not_closed

/-- Deposits, releases and refunds are each justified by the calls that came
before, and a disputed escrow stays frozen until its admin ends the dispute. -/
theorem payouts_are_authorised (hl : l.Reachable self) (hr : l.storage.escrows.lookup id = some r) :
    DepositJustified self id r (receiptsOf id l.history) ∧
    (r.status = .released → ReleaseJustified self id r (receiptsOf id l.history)) ∧
    (r.status = .refunded → RefundJustified self id r (receiptsOf id l.history)) ∧
    (r.status = .disputed → (∃ rc ∈ receiptsOf id l.history, DisputedBy self id r rc) ∧
      ∀ as, (run (Ledger.step self) l as).view id = l.view id ∨
        ∃ rc, receiptsOf id (run (Ledger.step self) l as).history = receiptsOf id l.history ++ [rc] ∧
          (RefundedBy self id r rc ∨ ∃ b, ResolvedBy self id r b rc)) := by
  have h := hl.justified hr
  exact ⟨h.deposit, h.released, h.refunded, fun hs => ⟨h.disputed hs, frozen_while_disputed hl hr hs⟩⟩

end

theorem sample_released_by_both :
    let approvals := [.invoke [⟨1⟩] (.approveRelease [7] ⟨1⟩), .invoke [⟨2⟩] (.approveRelease [7] ⟨2⟩)]
    let released :=
      { sampleRecord with status := .released, clientApproved := true, freelancerApproved := true }
    ReleaseJustified ⟨0⟩ [7] released (receiptsOf [7] (run (Ledger.step ⟨0⟩) sampleLedger approvals).history) :=
  (payouts_are_authorised (Ledger.reachable_run sample_reachable _) (by decide +kernel)).2.1 rfl

end NexusHub
