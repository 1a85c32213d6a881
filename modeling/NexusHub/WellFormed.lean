import NexusHub.Settlement

/-!
# Well-formed records

Every record of every reachable ledger is well formed, and expires after the
ledger it was created at. The fee is at most a tenth of the amount, so the last
check of `init_escrow` on it never fires.
-/

namespace NexusHub

/-! ## When a record was created -/

/-- The record expires, if ever, after the ledger of the call that created it. -/
def EscrowRecord.ExpiresLater (id : Bytes) (r : EscrowRecord) (rcs : List Receipt) : Prop :=
  ∃ rc rest, rcs = rc :: rest ∧
    (∃ (amount : I128) (delay total expiry : UInt32), amount.val = r.amount ∧
      rc.call = .initEscrow id r.client r.freelancer r.token amount r.milestoneHash r.description delay
        total expiry) ∧
    (r.expiryLedger = 0 ∨ rc.sequence < r.expiryLedger)

theorem EscrowRecord.ExpiresLater.of_terms {id : Bytes} {r r' : EscrowRecord} {rcs : List Receipt}
    (h : r.ExpiresLater id rcs) (ht : r'.terms = r.terms) (rcs' : List Receipt) :
    r'.ExpiresLater id (rcs ++ rcs') := by
  have h' : r'.ExpiresLater id rcs := EscrowRecord.of_terms ht h fun _ => rfl
  obtain ⟨rc, rest, rfl, hlater⟩ := h'
  exact ⟨rc, rest ++ rcs', rfl, hlater⟩

/-- No record without receipts, and the first one tells when it was created. -/
structure View.Dated (id : Bytes) (v : View) : Prop where
  absent : v.record = none → v.receipts = []
  created : ∀ r, v.record = some r → r.ExpiresLater id v.receipts

theorem View.Dated.move {self : Address} {id : Bytes} {l : Ledger} {v v' : View}
    (hm : View.Moves self id l v v') (h : v.Dated id) : v'.Dated id := by
  cases hm with
  | @create signers call r rcs hc hr =>
    obtain rfl := h.absent rfl
    refine ⟨nofun, ?_⟩
    rintro _ ⟨⟩
    refine ⟨_, [], rfl, hc.call_eq, ?_⟩
    rcases Nat.eq_zero_or_pos r.expiryLedger with h0 | hpos
    · exact .inl h0
    · exact .inr (hc.expiry hpos)
  | @update signers call r rcs hid hr ha =>
    refine ⟨nofun, ?_⟩
    rintro _ ⟨⟩
    exact (h.created r rfl).of_terms (call.change_terms _ r) _

theorem Ledger.Reachable.dated {self : Address} {l : Ledger} (hl : l.Reachable self) (id : Bytes) :
    (l.view id).Dated id :=
  view_inv (View.Dated id) ⟨fun _ => rfl, fun _ h => (nomatch h)⟩ (fun _ _ _ _ hm h => h.move hm) hl

/-! ## The fee check of `init_escrow` -/

theorem except_bind_error {ε α β : Type} {x : Except ε α} {f : α → Except ε β} {e : ε} :
    (x >>= f) = .error e ↔ x = .error e ∨ ∃ a, x = .ok a ∧ f a = .error e := by
  cases x with
  | error e' => simp [bind, Except.bind]
  | ok a => simp [bind, Except.bind]

theorem returnIf_error {c : Prop} [Decidable c] {e : EscrowError} {e' : Failure} :
    returnIf c e = .error e' ↔ c ∧ e' = .error e := by
  unfold returnIf; split <;> simp_all [eq_comm]

theorem requireAuth_error {env : Env} {a : Address} {e : Failure} (h : requireAuth env a = .error e) :
    e = .trap := by
  unfold requireAuth at h; split at h <;> cases h; rfl

theorem checkedI128_error {x : Int} {e : Failure} (h : checkedI128 x = .error e) : e = .trap := by
  unfold checkedI128 at h; split at h <;> cases h; rfl

theorem checkedU32_error {x : Nat} {e : Failure} (h : checkedU32 x = .error e) : e = .trap := by
  unfold checkedU32 at h; split at h <;> cases h; rfl

theorem computeFee_error {amount : Int} {bps : Nat} {e : Failure} (h : computeFee amount bps = .error e) :
    e = .trap := by
  simp only [computeFee, except_bind_error] at h
  rcases h with h | ⟨_, _, h⟩
  · exact checkedI128_error h
  · cases h

theorem getAdmin_error {s : Storage} {e : Failure} (h : s.getAdmin = .error e) : e = .error .unauthorized := by
  unfold Storage.getAdmin at h; split at h <;> cases h; rfl

theorem initEscrow_fee_ok {env : Env} {h : Host} (hs : h.storage.Ok) (id : Bytes)
    (client freelancer token : Address) (amount : I128) (hash : Bytes) (description : String)
    (delay total expiry : UInt32) :
    NexusEscrow.initEscrow env h id client freelancer token amount hash description delay total expiry ≠
      .error (.error .feeTooHigh) := by
  intro hx
  simp only [NexusEscrow.initEscrow, except_bind_error, returnIf_ok, returnIf_error, exists_const,
    Failure.error.injEq, reduceCtorEq, and_false, false_or, computeFee_ok, not_le] at hx
  obtain ⟨-, ha, -, -, -, hx⟩ := hx
  rcases hx with hx | ⟨_, -, hx | ⟨_, ⟨-, rfl⟩, ⟨hfee, -⟩ | ⟨-, hx | ⟨_, -, hx | ⟨_, -, hx | ⟨_, -, hx⟩⟩⟩⟩⟩⟩
  · cases requireAuth_error hx
  · cases computeFee_error hx
  · have := (fee_cap_of_bps ha hs.fee).2
    omega
  · cases getAdmin_error hx
  · cases checkedU32_error hx
  · cases checkedU32_error hx
  · cases hx

/-! ## Every reachable ledger -/

/-- In every reachable ledger each stored record is well formed under its key and
expires after its creation, if at all; and no `init_escrow` finds its fee too high. -/
theorem records_well_formed {self : Address} {l : Ledger} (hl : l.Reachable self) :
    (∀ k r, l.storage.escrows.lookup k = some r → r.Ok k ∧ r.ExpiresLater k (receiptsOf k l.history)) ∧
    ∀ signers id client freelancer token amount hash description delay total expiry,
      NexusEscrow.initEscrow (l.env self signers) l.host id client freelancer token amount hash description
        delay total expiry ≠ .error (.error .feeTooHigh) :=
  ⟨fun k r hr => ⟨hl.storage_ok.records k r hr, (hl.dated k).created r hr⟩, fun _ =>
    initEscrow_fee_ok (h := l.host) hl.storage_ok⟩

theorem sample_well_formed : sampleRecord.Ok [7] :=
  ((records_well_formed sample_reachable).1 [7] sampleRecord sample_lookup).1

end NexusHub
