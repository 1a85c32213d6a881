import NexusHub.WellFormed

/-!
# Arithmetic that overflows

`init_escrow` multiplies in `i128` and adds in `u32`, with overflow checks: a
result that does not fit traps and the call is rolled back. Once the client has
signed, a call traps on nothing else, and only amounts and ledgers at the far
end of their types get there.
-/

namespace NexusHub

/-- The arguments pass the checks that `init_escrow` makes before it computes anything. -/
structure Call.InitChecked (env : Env) (s : Storage) (id : Bytes) (amount : I128) (delay expiry : UInt32) :
    Prop where
  unpaused : s.isPaused = false
  amount_pos : 0 < amount.val
  delay_le : delay.toNat ≤ maxExtraDisputeDelay
  expiry_later : 0 < expiry.toNat → env.sequence < expiry.toNat
  fresh : s.escrows.lookup id = none

def Storage.FeeOverflows (s : Storage) (amount : I128) : Prop := ¬ FitsI128 (amount.val * s.getFeeBps)

/-- The contract has been initialised, without which the deadline is not computed. -/
def Storage.DeadlineOverflows (s : Storage) (sequence : Nat) (delay : UInt32) : Prop :=
  s.admin.isSome ∧ 2 ^ 32 ≤ sequence + minDisputeDelay + delay.toNat

/-! ## What traps -/

theorem computeFee_trap {amount : Int} {bps : Nat} :
    computeFee amount bps = .error .trap ↔ ¬ FitsI128 (amount * bps) := by
  unfold computeFee checkedI128
  by_cases h : FitsI128 (amount * bps) <;> simp [h, bind, Except.bind, pure, Except.pure]

theorem checkedU32_trap {x : Nat} : checkedU32 x = .error .trap ↔ 2 ^ 32 ≤ x := by
  unfold checkedU32
  by_cases h : x < 2 ^ 32
  · simp only [if_pos h, reduceCtorEq, false_iff]; omega
  · simp only [if_neg h, true_iff]; omega

section
variable {env : Env} {h : Host} {id : Bytes} {client freelancer token : Address} {amount : I128} {hash : Bytes}
  {description : String} {delay total expiry : UInt32}

theorem initEscrow_trap (hs : h.storage.Ok) (hsig : env.Signed client) :
    NexusEscrow.initEscrow env h id client freelancer token amount hash description delay total expiry =
        .error .trap ↔
      Call.InitChecked env h.storage id amount delay expiry ∧
        (h.storage.FeeOverflows amount ∨ h.storage.DeadlineOverflows env.sequence delay) := by
  have hauth : requireAuth env client = .ok () := requireAuth_ok.mpr hsig
  have hadm : h.storage.getAdmin ≠ .error .trap := fun he => nomatch getAdmin_error he
  simp only [NexusEscrow.initEscrow, except_bind_error, returnIf_ok, returnIf_error, exists_const, hauth,
    computeFee_ok, computeFee_trap, checkedU32_trap, checkedU32_ok, getAdmin_ok, hadm, reduceCtorEq, and_false,
    false_or, true_and, Storage.escrowExists, Option.isSome_iff_ne_none, not_not, not_le, Bool.not_eq_true]
  constructor
  · rintro ⟨hp, ha, hd, he, hn, hover⟩
    refine ⟨⟨hp, ha, not_lt.mp hd, fun h0 => not_le.mp fun hle => he ⟨h0, hle⟩, hn⟩, ?_⟩
    rcases hover with hfee | ⟨_, -, -, admin, hadm, hsum⟩
    · exact .inl hfee
    · refine .inr ⟨by rw [hadm]; rfl, ?_⟩
      rcases hsum with hsum | ⟨_, ⟨-, rfl⟩, hsum | ⟨_, -, hpure⟩⟩
      · omega
      · exact hsum
      · cases hpure
  · rintro ⟨⟨hp, ha, hd, he, hn⟩, hover⟩
    refine ⟨hp, ha, not_lt.mpr hd, fun h => absurd (he h.1) (not_lt.mpr h.2), hn, ?_⟩
    by_cases hfit : FitsI128 (amount.val * h.storage.getFeeBps)
    · obtain ⟨hadm, hsum⟩ := hover.resolve_left (not_not_intro hfit)
      obtain ⟨admin, hadm⟩ := Option.isSome_iff_exists.mp hadm
      have hfee := (fee_cap_of_bps ha hs.fee).2
      refine .inr ⟨_, ⟨hfit, rfl⟩, by omega, admin, hadm, ?_⟩
      by_cases hearliest : env.sequence + minDisputeDelay < 2 ^ 32
      · exact .inr ⟨_, ⟨hearliest, rfl⟩, .inl hsum⟩
      · exact .inl (not_lt.mp hearliest)
    · exact .inl hfit

theorem Storage.fee_fits_of_le (hs : h.storage.Ok) (ha : amount.val.natAbs ≤ (2 ^ 127 - 1) / maxFeeBps) :
    ¬ h.storage.FeeOverflows amount := by
  have hmul : (amount.val * h.storage.getFeeBps).natAbs = amount.val.natAbs * h.storage.getFeeBps := by
    rw [Int.natAbs_mul, Int.natAbs_natCast]
  have hle := Nat.mul_le_mul ha hs.fee
  rw [← hmul] at hle
  refine not_not_intro ?_
  unfold maxFeeBps at hle
  unfold FitsI128
  omega

end

/-! ## Every reachable ledger -/

/-- In every reachable ledger a signed `init_escrow` that passes its checks traps, and changes
nothing, exactly if its product or its sum overflows, and the `compute_fee` view exactly if its product
does; which takes an amount of more than a thousandth of the range of `i128`. -/
theorem arithmetic_traps_iff {self : Address} {l : Ledger} (hl : l.Reachable self) :
    (∀ signers id client freelancer token amount hash description delay total expiry,
      (l.env self signers).Signed client →
        let result := NexusEscrow.initEscrow (l.env self signers) l.host id client freelancer token amount hash
          description delay total expiry
        (result = .error .trap ↔ Call.InitChecked (l.env self signers) l.storage id amount delay expiry ∧
          (l.storage.FeeOverflows amount ∨ l.storage.DeadlineOverflows l.sequence delay)) ∧
        (result = .error .trap → l.invoke self signers (.initEscrow id client freelancer token amount hash
          description delay total expiry) = l)) ∧
    (∀ amount, NexusEscrow.computeFeeView l.storage amount = .error .trap ↔ l.storage.FeeOverflows amount) ∧
    ∀ amount : I128, amount.val.natAbs ≤ (2 ^ 127 - 1) / maxFeeBps → ¬ l.storage.FeeOverflows amount := by
  refine ⟨fun signers id client freelancer token amount hash description delay total expiry hsig =>
    ⟨initEscrow_trap (h := l.host) hl.storage_ok hsig, fun htrap => ?_⟩, fun _ => computeFee_trap,
    fun _ => Storage.fee_fits_of_le (h := l.host) hl.storage_ok⟩
  rw [Ledger.invoke, Call.exec, htrap]

theorem sample_init_fits : NexusEscrow.initEscrow (sampleLedger.env ⟨0⟩ [⟨1⟩]) sampleLedger.host [8] ⟨1⟩ ⟨2⟩ ⟨9⟩
    ⟨500, by decide⟩ [] "" 0 0 0 ≠ .error .trap := by
  intro htrap
  obtain ⟨-, hfee | ⟨-, hdeadline⟩⟩ := (((arithmetic_traps_iff sample_reachable).1 [⟨1⟩] [8] ⟨1⟩ ⟨2⟩ ⟨9⟩
    ⟨500, by decide⟩ [] "" 0 0 0 (by decide)).1).mp htrap
  · exact hfee (by decide +kernel)
  · exact absurd hdeadline (by decide +kernel)

/-- The largest `i128`, at one percent. -/
theorem largest_amount_traps : ¬ ∀ (self : Address) (l : Ledger), l.Reachable self →
    ∀ signers id client freelancer token amount hash description delay total expiry,
      (l.env self signers).Signed client → Call.InitChecked (l.env self signers) l.storage id amount delay expiry →
        NexusEscrow.initEscrow (l.env self signers) l.host id client freelancer token amount hash description
          delay total expiry ≠ .error .trap := by
  intro h
  have hchecked : Call.InitChecked (sampleLedger.env ⟨0⟩ [⟨1⟩]) sampleLedger.storage [8]
      ⟨2 ^ 127 - 1, by decide⟩ 0 0 :=
    ⟨by decide +kernel, by decide, by decide, by decide, by decide +kernel⟩
  refine h ⟨0⟩ sampleLedger sample_reachable [⟨1⟩] [8] ⟨1⟩ ⟨2⟩ ⟨9⟩ ⟨2 ^ 127 - 1, by decide⟩ [] "" 0 0 0 (by decide)
    hchecked ?_
  exact (initEscrow_trap (h := sampleLedger.host) sample_reachable.storage_ok (by decide)).mpr
    ⟨hchecked, .inl (show ¬ FitsI128 _ by decide +kernel)⟩

end NexusHub
