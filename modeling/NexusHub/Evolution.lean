import NexusHub.Settlement
import NexusHub.Solvency

/-!
# How escrow records evolve

A successful call leaves every stored record in place. The record it names moves
along the order of statuses with its terms untouched, all others stay as they are.
-/

namespace NexusHub

def EscrowStatus.next : EscrowStatus → List EscrowStatus
  | pending => [funded, cancelled]
  | funded => [active, disputed, released, refunded]
  | active => [disputed, released, refunded]
  | disputed => [released, refunded]
  | released | refunded | cancelled => []

/-- What a successful call at ledger `sequence` may make of the record `r` of escrow `id`. -/
structure EscrowRecord.Evolves (r : EscrowRecord) (call : Call) (sequence : Nat) (id : Bytes)
    (r' : EscrowRecord) : Prop where
  unnamed : call.escrowId? ≠ some id → r' = r
  terms : r'.terms = r.terms
  milestones : r.milestonesCompleted ≤ r'.milestonesCompleted
  status : r'.status = r.status ∨ r'.status ∈ r.status.next
  funding : r'.fundedLedger = r.fundedLedger ∨
    call = .fund id ∧ r.status = .pending ∧ r'.status = .funded ∧ r'.fundedLedger = sequence

/-! ## One call -/

section
variable {env : Env} {paused : Bool} {r : EscrowRecord} {call : Call} {id : Bytes}

theorem EscrowRecord.Open.next (h : r.Open) :
    .disputed ∈ r.status.next ∧ .released ∈ r.status.next ∧ .refunded ∈ r.status.next := by
  rcases h with h | h <;> simp [h, EscrowStatus.next]

theorem change_status (ha : call.Admits env paused r) :
    (call.change env r).record.status = r.status ∨ (call.change env r).record.status ∈ r.status.next := by
  cases call with
  | initializeContract | setFee | setPaused | transferAdmin | initEscrow => exact ha.elim
  | fund => right; rw [ha.2.1]; simp [Call.change, EscrowStatus.next]
  | activate => right; rw [ha.2.1]; simp [Call.change, EscrowStatus.next]
  | release => exact .inr ha.2.1.next.2.1
  | refund =>
    right
    rcases ha.2.1 with hs | hs
    · exact hs.next.2.2
    · rw [hs]; simp [Call.change, EscrowStatus.next]
  | cancel => right; rw [ha.1]; simp [Call.change, EscrowStatus.next]
  | raiseDispute => exact .inr ha.2.1.next.1
  | resolveDispute _ toFreelancer =>
    right
    rw [ha.2.1]
    cases toFreelancer <;> simp [Call.change, EscrowStatus.next]
  | completeMilestone => exact .inl rfl
  | claimExpired => exact .inr ha.1.next.2.2
  | approveRelease _ approver =>
    simp only [Call.change]
    split
    · exact .inr ha.2.1.next.2.1
    · exact .inl rfl

theorem change_milestones : r.milestonesCompleted ≤ (call.change env r).record.milestonesCompleted := by
  cases call with
  | completeMilestone => exact Nat.le_succ _
  | resolveDispute _ toFreelancer => cases toFreelancer <;> exact le_rfl
  | approveRelease _ approver =>
    simp only [Call.change]
    split <;> exact le_rfl
  | _ => exact le_rfl

theorem change_fundedLedger (hf : call.isFund = false) :
    (call.change env r).record.fundedLedger = r.fundedLedger := by
  cases call with
  | fund => cases hf
  | resolveDispute _ toFreelancer => cases toFreelancer <;> rfl
  | approveRelease _ approver =>
    simp only [Call.change]
    split <;> rfl
  | _ => rfl

theorem evolves_change (hid : call.escrowId? = some id) (ha : call.Admits env paused r) :
    r.Evolves call env.sequence id (call.change env r).record where
  unnamed h := absurd hid h
  terms := call.change_terms env r
  milestones := change_milestones
  status := change_status ha
  funding := by
    cases call with
    | fund k => obtain rfl := Option.some.inj hid; exact .inr ⟨rfl, ha.2.1, rfl, rfl⟩
    | _ => exact .inl (change_fundedLedger rfl)

theorem evolves_refl (sequence : Nat) : r.Evolves call sequence id r :=
  ⟨fun _ => rfl, rfl, le_rfl, .inl rfl, .inl rfl⟩

theorem exec_evolves {h h' : Host} (hs : h.storage.Ok) (hr : h.storage.escrows.lookup id = some r)
    (hx : call.exec env h = .ok h') :
    ∃ r', h'.storage.escrows.lookup id = some r' ∧ r.Evolves call env.sequence id r' := by
  by_cases hid : call.escrowId? = some id
  · obtain ⟨ha, hr'⟩ := exec_changes hs hid hr hx
    exact ⟨(call.change env r).record, hr', evolves_change hid ha⟩
  · exact ⟨r, (exec_lookup_ne hs hx hid).trans hr, evolves_refl _⟩

end

/-! ## Every run -/

def fundings (rcs : List Receipt) : Nat := (rcs.filter (·.call.isFund)).length

/-- The escrow was funded at most once, and not while it is pending. -/
structure View.FundedOnce (v : View) : Prop where
  absent : v.record = none → fundings v.receipts = 0
  pending : ∀ r, v.record = some r → r.status = .pending → fundings v.receipts = 0
  once : fundings v.receipts ≤ 1

theorem fundings_append (rcs : List Receipt) (rc : Receipt) :
    fundings (rcs ++ [rc]) = fundings rcs + if rc.call.isFund then 1 else 0 := by
  unfold fundings
  rw [List.filter_append, List.length_append]
  by_cases h : rc.call.isFund <;> simp [h]

theorem View.FundedOnce.move {self : Address} {id : Bytes} {l : Ledger} {v v' : View}
    (hm : View.Moves self id l v v') (h : v.FundedOnce) : v'.FundedOnce := by
  cases hm with
  | @create signers call r rcs hc hr =>
    have h0 := h.absent rfl
    have hf : call.isFund = false := by
      obtain ⟨amount, delay, total, expiry, -, hcall⟩ := hc.call_eq
      rw [hcall]; rfl
    have hn : fundings (rcs ++ [(l.env self signers).receipt call
        ⟨r, [], [.initialized id r.client r.freelancer r.amount]⟩]) = 0 := by
      rw [fundings_append, h0]; simp [Env.receipt, hf]
    exact ⟨fun _ => hn, fun _ _ _ => hn, hn.le.trans (Nat.zero_le 1)⟩
  | @update signers call r rcs hid hr ha =>
    have hn := fundings_append rcs ((l.env self signers).receipt call (call.change (l.env self signers) r))
    by_cases hf : call.isFund
    · -- only a pending escrow is funded, and it is no longer pending afterwards
      cases call with
      | fund k =>
        have h0 := h.pending r rfl ha.2.1
        refine ⟨fun h => absurd h (Option.some_ne_none _), fun r' hr' hp => ?_, ?_⟩
        · cases hr'; cases hp
        · rw [h0] at hn
          exact hn.le
      | _ => cases hf
    · have hsame : fundings (rcs ++ [(l.env self signers).receipt call (call.change (l.env self signers) r)]) =
          fundings rcs := by rw [hn]; simp [Env.receipt, hf]
      refine ⟨fun h => absurd h (Option.some_ne_none _), fun r' hr' hp => ?_, hsame.le.trans h.once⟩
      cases hr'
      refine hsame.trans (h.pending r rfl ?_)
      rcases change_status ha with hs | hs
      · exact hs.symm.trans hp
      · rw [hp] at hs
        cases hr : r.status <;> rw [hr] at hs <;> simp [EscrowStatus.next] at hs

theorem Ledger.Reachable.funded_once {self : Address} {l : Ledger} (hl : l.Reachable self) (id : Bytes) :
    fundings (receiptsOf id l.history) ≤ 1 :=
  (view_inv View.FundedOnce ⟨fun _ => rfl, fun _ h => (nomatch h), Nat.zero_le 1⟩
    (fun _ _ _ _ hm h => h.move hm) hl).once

/-- Every successful call leaves a stored record stored and evolved; in every run
an escrow is funded at most once and a closed one stays what it is. -/
theorem records_evolve {self : Address} {l : Ledger} (hl : l.Reachable self) {id : Bytes} {r : EscrowRecord}
    (hr : l.storage.escrows.lookup id = some r) :
    (∀ signers call h, call.exec (l.env self signers) l.host = .ok h →
      ∃ r', h.storage.escrows.lookup id = some r' ∧ r.Evolves call l.sequence id r') ∧
    ∀ as, fundings (receiptsOf id (run (Ledger.step self) l as).history) ≤ 1 ∧
      ∃ r', (run (Ledger.step self) l as).storage.escrows.lookup id = some r' ∧ r'.terms = r.terms ∧
        (r.Closed → r' = r) := by
  refine ⟨fun signers call h hx => exec_evolves hl.storage_ok hr hx, fun as => ⟨?_, ?_⟩⟩
  · exact (Ledger.reachable_run hl as).funded_once id
  · obtain ⟨r', hr', ht⟩ := terms_run hl hr as
    refine ⟨r', hr', ht, fun hc => ?_⟩
    have hv := congrArg View.record (closed_run hl hr hc as)
    exact Option.some.inj (hr'.symm.trans (hv.trans hr))

/-- A second deposit, an activation and a release: one funding, and the terms are kept. -/
theorem sample_funded_once :
    let l := run (Ledger.step ⟨0⟩) sampleLedger [.invoke [⟨1⟩] (.fund [7]), .invoke [⟨1⟩] (.activate [7]),
      .invoke [⟨1⟩] (.release [7] none)]
    fundings (receiptsOf [7] l.history) ≤ 1 ∧
      ∃ r, l.storage.escrows.lookup [7] = some r ∧ r.terms = sampleRecord.terms := by
  obtain ⟨honce, r, hr, hterms, -⟩ := (records_evolve sample_reachable sample_lookup).2
    [.invoke [⟨1⟩] (.fund [7]), .invoke [⟨1⟩] (.activate [7]), .invoke [⟨1⟩] (.release [7] none)]
  exact ⟨honce, r, hr, hterms⟩

end NexusHub
