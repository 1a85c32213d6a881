import NexusHub.Handover

/-!
# Payouts that are due never fail

A payout can fail at its guards only. Its amounts are positive and fit, and the
pooled balance covers it whatever the other escrows are owed. An expired escrow
needs nobody's signature and no unpaused contract.
-/

namespace NexusHub

/-- The calls that pay the deposit of `r` out, among approvals the one that completes both. -/
def Call.PaysOut (r : EscrowRecord) : Call → Prop
  | release .. | refund _ | resolveDispute .. | claimExpired _ => True
  | approveRelease _ approver => (r.approve approver).clientApproved ∧ (r.approve approver).freelancerApproved
  | _ => False

section
variable {env : Env} {paused : Bool} {r : EscrowRecord} {call : Call}

theorem Call.PaysOut.held (hp : call.PaysOut r) (ha : call.Admits env paused r) : r.Held := by
  cases call with
  | release | approveRelease => exact ha.2.1.held
  | refund => exact ha.2.1
  | resolveDispute => exact .inr ha.2.1
  | claimExpired => exact ha.1.held
  | _ => exact hp.elim

theorem Call.PaysOut.fits {id : Bytes} (hp : call.PaysOut r) (hr : r.Ok id) : call.Fits r := by
  cases call with
  | release => exact hr.payout_fits
  | approveRelease => exact fun _ => hr.payout_fits
  | resolveDispute _ toFreelancer =>
    cases toFreelancer
    · trivial
    · exact hr.payout_fits
  | refund | claimExpired => trivial
  | _ => exact hp.elim

theorem Call.PaysOut.transfers (hp : call.PaysOut r) :
    (call.change env r).transfers = r.payout env.contract ∨
      (call.change env r).transfers = [r.repayment env.contract] := by
  cases call with
  | release => exact .inl rfl
  | refund | claimExpired => exact .inr rfl
  | resolveDispute _ toFreelancer =>
    cases toFreelancer
    · exact .inr rfl
    · exact .inl rfl
  | approveRelease =>
    exact .inl (congrArg Change.transfers (if_pos hp))
  | _ => exact hp.elim

end

section
variable {self : Address} {l : Ledger} {id : Bytes} {r : EscrowRecord}

theorem Ledger.Reachable.pays (hl : l.Reachable self) (hr : l.storage.escrows.lookup id = some r)
    {signers : List Address} {call : Call} (hid : call.escrowId? = some id) (hp : call.PaysOut r)
    (ha : call.Admits (l.env self signers) l.storage.isPaused r) : l.Succeeds self signers call := by
  have hok := hl.storage_ok.records id r hr
  have hbal := hl.amount_le_balance hr (hp.held ha)
  refine succeeds_of_admits hid hr ha (hp.fits hok) ?_
  rcases hp.transfers with ht | ht
  · rw [ht]; exact affordable_payout hok hbal
  · rw [ht]; exact affordable_repayment (le_of_lt hok.amount_pos) hbal

/-- In every reachable ledger the payouts of a stored escrow are positive and
fit, succeed whenever their guards hold, and the claim of an expired escrow
succeeds for everyone. -/
theorem payouts_never_fail (hl : l.Reachable self) (hr : l.storage.escrows.lookup id = some r) :
    (0 < r.amount - r.platformFee ∧ FitsI128 (r.amount - r.platformFee)) ∧
    (∀ signers call, call.escrowId? = some id → call.PaysOut r →
      call.Admits (l.env self signers) l.storage.isPaused r → l.Succeeds self signers call) ∧
    (r.Open → 0 < r.expiryLedger → r.expiryLedger ≤ l.sequence →
      ∀ signers, l.Succeeds self signers (.claimExpired id)) := by
  have hok := hl.storage_ok.records id r hr
  refine ⟨⟨by have := hok.fee_lt; omega, hok.payout_fits⟩, fun signers call hid hp ha =>
    hl.pays hr hid hp ha, ?_⟩
  intro hop hpos hexp signers
  exact hl.pays hr rfl trivial ⟨hop, Nat.ne_of_gt hpos, hexp⟩

end

theorem sample_refund_succeeds : sampleLedger.Succeeds ⟨0⟩ [⟨3⟩] (.refund [7]) :=
  (payouts_never_fail sample_reachable sample_lookup).2.1 [⟨3⟩] (.refund [7]) rfl trivial
    ⟨by decide +kernel, .inl (.inl rfl), by decide⟩

end NexusHub
