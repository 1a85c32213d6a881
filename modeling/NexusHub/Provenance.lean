import NexusHub.Settlement
import NexusHub.Handover

/-!
# Where the configuration comes from

The admin, the fee rate and the pause flag start with the one `initialize` and
change only with the signature of the admin stored at that moment. Each escrow
carries the admin and the fee in force when it was created.
-/

namespace NexusHub

def Call.isInitialize : Call → Bool
  | initializeContract .. => true
  | _ => false

def Entry.initializes : Entry → Bool
  | .call rc => rc.call.isInitialize
  | .outside _ => false

def initializations (history : List Entry) : Nat := (history.filter Entry.initializes).length

structure Call.Governed (env : Env) (s : Storage) (call : Call) (s' : Storage) : Prop where
  admin : s'.admin = s.admin ∨
    (∃ a bps, s.admin = none ∧ call = .initializeContract a bps ∧ s'.admin = some a) ∨
    ∃ a b, s.admin = some a ∧ env.Signed a ∧ call = .transferAdmin b ∧ s'.admin = some b
  fee : s'.feeBps = s.feeBps ∨
    (∃ a bps, s.admin = none ∧ call = .initializeContract a bps) ∨
    ∃ a bps, s.admin = some a ∧ env.Signed a ∧ call = .setFee bps ∧ s'.feeBps = some bps.toNat
  paused : s'.paused = s.paused ∨
    (∃ a bps, s.admin = none ∧ call = .initializeContract a bps) ∨
    ∃ a b, s.admin = some a ∧ env.Signed a ∧ call = .setPaused b ∧ s'.paused = some b

/-- `call` creates the record at `l`, with the admin and the fee quoted then. -/
structure Ledger.Creates (contract : Address) (l : Ledger) (signers : List Address) (call : Call) (id : Bytes)
    (r : EscrowRecord) : Prop where
  fresh : l.storage.escrows.lookup id = none
  succeeds : l.Succeeds contract signers call
  quoted : ∃ (amount : I128) (delay total expiry : UInt32), amount.val = r.amount ∧
    call = .initEscrow id r.client r.freelancer r.token amount r.milestoneHash r.description delay
      total expiry ∧
    NexusEscrow.computeFeeView l.storage amount = .ok r.platformFee
  admin : l.storage.admin = some r.admin
  fee : ∃ bps, l.storage.feeBps = some bps ∧ r.platformFee = r.amount * bps / 10000

/-! ## One call -/

theorem exec_governed {env : Env} {h h' : Host} {call : Call} (hx : call.exec env h = .ok h') :
    call.Governed env h.storage h'.storage := by
  rcases exec_cases hx with hc | ⟨id, r, hc, rfl⟩ | ⟨id, hid, r, hr, ha, -, -, rfl⟩
  · have hn := hc.named
    cases call with
    | initializeContract a bps =>
      obtain ⟨h0, -, -, rfl⟩ := initializeContract_ok.mp hx
      exact ⟨.inr (.inl ⟨a, bps, h0, rfl, rfl⟩), .inr (.inl ⟨a, bps, h0, rfl⟩), .inr (.inl ⟨a, bps, h0, rfl⟩)⟩
    | setFee bps =>
      obtain ⟨a, h0, hs, -, rfl⟩ := setFee_ok.mp hx
      exact ⟨.inl rfl, .inr (.inr ⟨a, bps, h0, hs, rfl, rfl⟩), .inl rfl⟩
    | setPaused b =>
      obtain ⟨a, h0, hs, rfl⟩ := setPaused_ok.mp hx
      exact ⟨.inl rfl, .inl rfl, .inr (.inr ⟨a, b, h0, hs, rfl, rfl⟩)⟩
    | transferAdmin b =>
      obtain ⟨a, h0, hs, rfl⟩ := transferAdmin_ok.mp hx
      exact ⟨.inr (.inr ⟨a, b, h0, hs, rfl, rfl⟩), .inl rfl, .inl rfl⟩
    | _ => cases hn
  · exact ⟨.inl rfl, .inl rfl, .inl rfl⟩
  · exact ⟨.inl rfl, .inl rfl, .inl rfl⟩

/-- No escrow without an admin, one `initialize` for every admin, a capped rate with it. -/
structure Ledger.Configured (l : Ledger) : Prop where
  unset : l.storage.admin = none → ∀ id, l.storage.escrows.lookup id = none
  once : initializations l.history = if l.storage.admin.isSome then 1 else 0
  rate : l.storage.admin ≠ none → ∃ bps, l.storage.feeBps = some bps ∧ bps ≤ maxFeeBps

theorem initializations_call (history : List Entry) (rc : Receipt) :
    initializations (history ++ [.call rc]) =
      initializations history + if rc.call.isInitialize then 1 else 0 := by
  unfold initializations
  rw [List.filter_append, List.length_append]
  by_cases h : rc.call.isInitialize <;> simp [h, Entry.initializes]

namespace Ledger

variable {self : Address} {l : Ledger}

theorem Configured.of_set {signers : List Address} {call : Call} {h : Host} (hl : l.Configured) {a b : Address}
    (ha : l.storage.admin = some a) (hb : h.storage.admin = some b) (hi : call.isInitialize = false)
    (hr : ∃ bps, h.storage.feeBps = some bps ∧ bps ≤ maxFeeBps) : (l.commit signers call h).Configured where
  unset h0 := absurd (hb.symm.trans h0) nofun
  once := by
    simp only [Ledger.commit, initializations_call, hi, hl.once, ha, hb]
    rfl
  rate _ := hr

theorem Configured.commit (hl : l.Configured) {signers : List Address} {call : Call} {h : Host}
    (hx : call.exec (l.env self signers) l.host = .ok h) : (l.commit signers call h).Configured := by
  rcases exec_cases hx with hc | ⟨id, r, hc, rfl⟩ | ⟨id, hid, r, hr, ha, -, -, rfl⟩
  · have hn := hc.named
    cases call with
    | initializeContract a bps =>
      obtain ⟨h0, hcap, -, rfl⟩ := initializeContract_ok.mp hx
      have h0 : l.storage.admin = none := h0
      refine ⟨fun h => absurd h (Option.some_ne_none _), ?_, fun _ => ⟨bps.toNat, rfl, hcap⟩⟩
      have h1 := hl.once
      rw [h0] at h1
      simp only [Ledger.commit, initializations_call, h1]
      rfl
    | setFee bps =>
      obtain ⟨a, h0, -, hcap, rfl⟩ := setFee_ok.mp hx
      exact hl.of_set h0 h0 rfl ⟨bps.toNat, rfl, hcap⟩
    | setPaused b =>
      obtain ⟨a, h0, -, rfl⟩ := setPaused_ok.mp hx
      exact hl.of_set h0 h0 rfl (hl.rate fun hn => absurd (h0.symm.trans hn) (Option.some_ne_none _))
    | transferAdmin b =>
      obtain ⟨a, h0, -, rfl⟩ := transferAdmin_ok.mp hx
      exact hl.of_set h0 rfl rfl (hl.rate fun hn => absurd (h0.symm.trans hn) (Option.some_ne_none _))
    | _ => cases hn
  · have hi : call.isInitialize = false := by
      obtain ⟨_, _, _, _, -, hcall⟩ := hc.call_eq
      rw [hcall]; rfl
    exact hl.of_set hc.admin hc.admin hi (hl.rate fun hn => absurd (hc.admin.symm.trans hn) (Option.some_ne_none _))
  · obtain ⟨a, hadm⟩ : ∃ a, l.storage.admin = some a := by
      cases h0 : l.storage.admin with
      | none => exact absurd (hr.symm.trans (hl.unset h0 id)) (Option.some_ne_none _)
      | some a => exact ⟨a, rfl⟩
    have hi : call.isInitialize = false := by
      cases call with
      | initializeContract => cases hid
      | _ => rfl
    exact hl.of_set hadm hadm hi (hl.rate fun hn => absurd (hadm.symm.trans hn) (Option.some_ne_none _))

theorem Reachable.configured (hl : l.Reachable self) : l.Configured := by
  refine reachable_inv Configured ?_ (fun _ _ h => ⟨h.unset, h.once, h.rate⟩) ?_
    (fun l signers call h _ hi hx => hi.commit hx) hl
  · intro b _
    exact ⟨fun _ id => rfl, rfl, fun h => absurd rfl h⟩
  · intro l t hi _ _ _
    exact ⟨hi.unset, by simpa [initializations, Entry.initializes] using hi.once, hi.rate⟩

/-! ## Every run -/

theorem creates_of_step (hl : l.Reachable self) {act : Action} {id : Bytes} {r : EscrowRecord}
    (h0 : l.storage.escrows.lookup id = none) (hr : (step self l act).storage.escrows.lookup id = some r) :
    ∃ signers call, act = .invoke signers call ∧ l.Creates self signers call id r := by
  cases act with
  | advance n => exact absurd (h0.symm.trans hr) (Option.some_ne_none _).symm
  | outside t =>
    rcases outside_cases self l t with ⟨-, -, -, he⟩ | he
    · rw [step, he] at hr; exact absurd (h0.symm.trans hr) (Option.some_ne_none _).symm
    · rw [step, he] at hr; exact absurd (h0.symm.trans hr) (Option.some_ne_none _).symm
  | invoke signers call =>
    refine ⟨signers, call, rfl, ?_⟩
    rcases invoke_cases self l signers call with ⟨h, hx, he⟩ | he
    · rw [step, he] at hr
      by_cases hid : call.escrowId? = some id
      · rcases exec_cases hx with hc | ⟨k, r₁, hc, rfl⟩ | ⟨k, hk, r₁, hr₁, -, -, -, rfl⟩
        · exact absurd (hc.named.symm.trans hid) (Option.some_ne_none _).symm
        · obtain rfl := Option.some.inj (hc.named.symm.trans hid)
          obtain rfl : r₁ = r := by
            simpa [Ledger.commit, Host.apply, Storage.saveEscrow, hc.escrowId] using hr
          obtain ⟨bps, hbps, -⟩ := hl.configured.rate fun hn => absurd (hc.admin.symm.trans hn) (Option.some_ne_none _)
          have hrate : l.storage.getFeeBps = bps := by simp [Storage.getFeeBps, hbps]
          obtain ⟨amount, delay, total, expiry, hamount, hcall⟩ := hc.call_eq
          have hfee := hc.fee
          have hfits := hc.product_fits
          simp only [host, hrate] at hfee hfits
          refine ⟨h0, ⟨_, hx⟩, ⟨amount, delay, total, expiry, hamount, hcall, ?_⟩, hc.admin, bps, hbps, ?_⟩
          · rw [NexusEscrow.computeFeeView, computeFee_ok, hrate, hamount]
            exact ⟨hfits, hfee⟩
          · have hpos := hc.amount_pos
            rw [hfee, Int.tdiv_eq_ediv_of_nonneg (by positivity)]
        · obtain rfl := Option.some.inj (hk.symm.trans hid)
          exact absurd (hr₁.symm.trans h0) (Option.some_ne_none _)
      · have hsame := exec_lookup_ne hl.storage_ok hx hid
        exact absurd (h0.symm.trans (hsame.symm.trans hr)) (Option.some_ne_none _).symm
    · rw [step, he] at hr; exact absurd (h0.symm.trans hr) (Option.some_ne_none _).symm

theorem Creates.of_terms {signers : List Address} {call : Call} {id : Bytes} {r r' : EscrowRecord}
    (h : l.Creates self signers call id r) (ht : r'.terms = r.terms) : l.Creates self signers call id r' := by
  refine ⟨h.fresh, h.succeeds, ?_, ?_, ?_⟩
  · exact EscrowRecord.of_terms ht h.quoted fun _ => rfl
  · exact EscrowRecord.of_terms ht h.admin fun _ => rfl
  · exact EscrowRecord.of_terms ht h.fee fun _ => rfl

theorem governed_step (self : Address) (l : Ledger) (act : Action) :
    (step self l act).storage = l.storage ∨ ∃ signers call, act = .invoke signers call ∧
      call.Governed (l.env self signers) l.storage (step self l act).storage := by
  cases act with
  | advance n => exact .inl rfl
  | outside t =>
    left
    rcases outside_cases self l t with ⟨-, -, -, he⟩ | he <;> rw [step, he]
  | invoke signers call =>
    rcases invoke_cases self l signers call with ⟨h, hx, he⟩ | he
    · right
      rw [step, he]
      exact ⟨signers, call, rfl, exec_governed hx⟩
    · left; rw [step, he]

end Ledger

/-- In every run the configuration stems from the one `initialize` and its
admins, and every stored record from the configuration at its creation. -/
theorem configuration_provenance {self : Address} {b : Balances} (hb : ∀ T, b T self = 0) {as : List Action}
    {l : Ledger} (hl : l = run (Ledger.step self) (Ledger.genesis b) as) :
    l.Configured ∧
    (∀ act, (Ledger.step self l act).storage = l.storage ∨ ∃ signers call, act = .invoke signers call ∧
      call.Governed (l.env self signers) l.storage (Ledger.step self l act).storage) ∧
    ∀ id r, l.storage.escrows.lookup id = some r →
      ∃ front signers call rest, as = front ++ .invoke signers call :: rest ∧
        (run (Ledger.step self) (Ledger.genesis b) front).Creates self signers call id r := by
  have reach (as : List Action) : (run (Ledger.step self) (Ledger.genesis b) as).Reachable self :=
    ⟨b, as, hb, rfl⟩
  subst hl
  refine ⟨(reach as).configured, Ledger.governed_step self _, fun id r hr => ?_⟩
  obtain ⟨front, act, rest, rfl, h0, h1⟩ :=
    run_origin (fun l : Ledger => (l.storage.escrows.lookup id).isSome) (s := Ledger.genesis b) as
      (by simp [Ledger.genesis]) (by rw [hr]; rfl)
  obtain ⟨r₁, hr₁⟩ := Option.isSome_iff_exists.mp h1
  have hfresh := Option.not_isSome_iff_eq_none.mp h0
  obtain ⟨signers, call, rfl, hc⟩ := Ledger.creates_of_step (reach front) hfresh hr₁
  refine ⟨front, signers, call, rest, rfl, ?_⟩
  obtain ⟨r', hr', ht⟩ := terms_run (Ledger.reachable_run (reach front) [.invoke signers call]) hr₁ rest
  rw [run_append, run_cons] at hr
  obtain rfl := Option.some.inj (hr.symm.trans hr')
  exact hc.of_terms ht

theorem sample_configured : sampleLedger.Configured :=
  (@configuration_provenance ⟨0⟩ sampleBalances (fun T => by simp [sampleBalances]) sampleActions _ rfl).1

end NexusHub
