import NexusHub.Provenance

/-!
# The pause

Only the admin pauses, so a paused contract is initialised for good. Until it
is unpaused the calls that name an escrow fail, but for `cancel` and
`claim_expired`: pending escrows can be cancelled and expired ones refunded,
and nothing else happens to any record or to the contract's money.
-/

namespace NexusHub

/-! ## What a paused contract admits -/

def Ledger.Unpauses (self : Address) (l : Ledger) (a : Action) : Prop :=
  ∃ signers, a = .invoke signers (.setPaused false) ∧ l.Succeeds self signers (.setPaused false)

/-- The transfers that calls of the contract made. -/
def Entry.moved : Entry → List Transfer
  | .call rc => rc.transfers
  | .outside _ => []

def Ledger.moved (l : Ledger) : List Transfer := l.history.flatMap Entry.moved

/-- One step while the contract is paused. -/
inductive Ledger.PausedStep (self : Address) (l : Ledger) : Action → Ledger → Prop where
  | refused (a : Action) : PausedStep self l a l
  | advance (n : Nat) : PausedStep self l (.advance n) { l with sequence := l.sequence + n }
  | outside {t : Transfer} (hs : t.src ≠ self) :
      PausedStep self l (.outside t)
        { l with balances := l.balances.move t, history := l.history ++ [.outside t] }
  | configured {signers : List Address} {call : Call} {l' : Ledger} (named : call.escrowId? = none)
      (escrows : l'.storage.escrows = l.storage.escrows) (balances : l'.balances = l.balances)
      (moved : l'.moved = l.moved) (sequence : l.sequence ≤ l'.sequence) :
      PausedStep self l (.invoke signers call) l'
  | cancelled {signers : List Address} {id : Bytes} {caller : Address} {r : EscrowRecord}
      (hr : l.storage.escrows.lookup id = some r) (pending : r.status = .pending)
      (signed : (l.env self signers).Signed caller) (who : caller = r.client ∨ caller = r.admin) :
      PausedStep self l (.invoke signers (.cancel id caller))
        (l.commit signers (.cancel id caller)
          (l.host.apply ⟨{ r with status := .cancelled }, [], [.cancelled id]⟩))
  | expired {signers : List Address} {id : Bytes} {r : EscrowRecord}
      (hr : l.storage.escrows.lookup id = some r) (hopen : r.Open) (expiry : 0 < r.expiryLedger)
      (reached : r.expiryLedger ≤ l.sequence) :
      PausedStep self l (.invoke signers (.claimExpired id))
        (l.commit signers (.claimExpired id)
          (l.host.apply ⟨{ r with status := .refunded }, [r.repayment self], [.refunded id r.client r.amount]⟩))

/-- What a pause lets a record become until ledger `sequence`. -/
def EscrowRecord.PausedEnd (r : EscrowRecord) (sequence : Nat) (r' : EscrowRecord) : Prop :=
  r' = r ∨ (r.status = .pending ∧ r' = { r with status := .cancelled }) ∨
    (r.Open ∧ 0 < r.expiryLedger ∧ r.expiryLedger ≤ sequence ∧ r' = { r with status := .refunded })

section
variable {env : Env} {h h' : Host} {call : Call}

theorem exec_admin_set (hx : call.exec env h = .ok h') (ha : h.storage.admin ≠ none) :
    h'.storage.admin ≠ none := by
  rcases (exec_governed hx).admin with he | ⟨a, -, -, -, he⟩ | ⟨-, b, -, -, -, he⟩
  · rw [he]; exact ha
  · rw [he]; exact nofun
  · rw [he]; exact nofun

theorem exec_paused_admin (hx : call.exec env h = .ok h')
    (hs : h.storage.isPaused = true → h.storage.admin ≠ none) (hp : h'.storage.isPaused = true) :
    h'.storage.admin ≠ none := by
  rcases (exec_governed hx).paused with he | ⟨a, bps, -, rfl⟩ | ⟨a, b, h0, -⟩
  · exact exec_admin_set hx (hs (by rw [← hp, Storage.isPaused, Storage.isPaused, he]))
  · obtain ⟨-, -, -, rfl⟩ := initializeContract_ok.mp hx
    cases hp
  · exact exec_admin_set hx (by rw [h0]; exact nofun)

theorem exec_stays_paused (hx : call.exec env h = .ok h') (ha : h.storage.admin ≠ none)
    (hp : h.storage.isPaused = true) (hn : call ≠ .setPaused false) : h'.storage.isPaused = true := by
  rcases (exec_governed hx).paused with he | ⟨-, -, h0, -⟩ | ⟨-, b, -, -, rfl, he⟩
  · rw [← hp, Storage.isPaused, Storage.isPaused, he]
  · exact absurd h0 ha
  · cases b
    · exact absurd rfl hn
    · rw [Storage.isPaused, he]; rfl

theorem Call.Admits.of_paused {r : EscrowRecord} (h : call.Admits env true r) :
    (∃ id caller, call = .cancel id caller) ∨ ∃ id, call = .claimExpired id := by
  cases call with
  | cancel id caller => exact .inl ⟨id, caller, rfl⟩
  | claimExpired id => exact .inr ⟨id, rfl⟩
  | initializeContract | setFee | setPaused | transferAdmin | initEscrow => exact h.elim
  | _ => exact nomatch h.1

end

/-! ## One step -/

namespace Ledger

variable {self : Address} {l l' : Ledger} {a : Action}

theorem Reachable.paused_admin (hl : l.Reachable self) (hp : l.storage.isPaused = true) :
    l.storage.admin ≠ none := by
  refine reachable_inv (fun l => l.storage.isPaused = true → l.storage.admin ≠ none) (fun _ _ h => nomatch h)
    (fun _ _ h => h) (fun _ _ h _ _ _ => h) (fun l signers call h _ hi hx => exec_paused_admin hx hi) hl hp

theorem moved_commit (signers : List Address) (call : Call) (h : Host) :
    (l.commit signers call h).moved = l.moved ++ h.transfers := by
  simp [moved, commit, Entry.moved]

theorem paused_step (hl : l.Reachable self) (hp : l.storage.isPaused = true) (hn : ¬ l.Unpauses self a) :
    (step self l a).storage.isPaused = true ∧ l.PausedStep self a (step self l a) := by
  cases a with
  | advance n => exact ⟨hp, .advance n⟩
  | outside t =>
    rcases outside_cases self l t with ⟨hs, -, -, he⟩ | he
    · rw [step, he]; exact ⟨hp, .outside hs⟩
    · rw [step, he]; exact ⟨hp, .refused _⟩
  | invoke signers call =>
    rcases invoke_cases self l signers call with ⟨h, hx, he⟩ | he
    · rw [step, he]
      have hcall : call ≠ .setPaused false := fun hc => hn ⟨signers, by rw [hc], h, by rw [← hc]; exact hx⟩
      refine ⟨exec_stays_paused hx (hl.paused_admin hp) hp hcall, ?_⟩
      rcases exec_cases hx with hc | ⟨id, r, hc, rfl⟩ | ⟨id, hid, r, hr, ha, -, -, rfl⟩
      · exact .configured hc.named hc.escrows hc.balances (by
          rw [moved_commit, hc.transfers]; exact List.append_nil _) le_rfl
      · exact absurd (hp.symm.trans hc.unpaused) Bool.false_ne_true.symm
      · have ha' : call.Admits (l.env self signers) true r := by
          have hpause : l.host.storage.isPaused = true := hp
          rwa [hpause] at ha
        rcases ha'.of_paused with ⟨k, caller, rfl⟩ | ⟨k, rfl⟩
        · cases hid
          exact .cancelled hr ha'.1 ha'.2.1 ha'.2.2
        · cases hid
          exact .expired hr ha'.1 (Nat.pos_of_ne_zero ha'.2.1) ha'.2.2
    · rw [step, he]; exact ⟨hp, .refused _⟩

end Ledger

/-! ## Every run -/

theorem EscrowRecord.PausedEnd.trans {r r' r'' : EscrowRecord} {n m : Nat} (h : r.PausedEnd n r')
    (h' : r'.PausedEnd m r'') (hnm : n ≤ m) : r.PausedEnd m r'' := by
  rcases h with rfl | ⟨hs, rfl⟩ | ⟨ho, he, hn, rfl⟩
  · exact h'
  · rcases h' with rfl | ⟨hs', -⟩ | ⟨ho', -⟩
    · exact .inr (.inl ⟨hs, rfl⟩)
    · cases hs'
    · rcases ho' with ho' | ho' <;> cases ho'
  · rcases h' with rfl | ⟨hs', -⟩ | ⟨ho', -⟩
    · exact .inr (.inr ⟨ho, he, hn.trans hnm, rfl⟩)
    · cases hs'
    · rcases ho' with ho' | ho' <;> cases ho'

theorem EscrowRecord.PausedEnd.of_open {r r' : EscrowRecord} {n : Nat} (h : r.PausedEnd n r') (ho : r'.Open) :
    r' = r := by
  rcases h with rfl | ⟨-, rfl⟩ | ⟨-, -, -, rfl⟩
  · rfl
  · rcases ho with ho | ho <;> cases ho
  · rcases ho with ho | ho <;> cases ho

namespace Ledger

variable {self : Address} {l l₁ l₂ : Ledger} {a : Action}

/-- What a paused contract made of the records of `l` and moved since. -/
structure PausedSince (contract : Address) (l l₁ : Ledger) : Prop where
  absent : ∀ id, l.storage.escrows.lookup id = none → l₁.storage.escrows.lookup id = none
  stored : ∀ id r, l.storage.escrows.lookup id = some r →
    ∃ r', l₁.storage.escrows.lookup id = some r' ∧ r.PausedEnd l₁.sequence r'
  moved : ∃ ts, l₁.moved = l.moved ++ ts ∧ ∀ t ∈ ts, ∃ id r, l.storage.escrows.lookup id = some r ∧ r.Open ∧
    0 < r.expiryLedger ∧ r.expiryLedger ≤ l₁.sequence ∧ t = r.repayment contract

theorem PausedSince.refl (l : Ledger) : l.PausedSince self l where
  absent _ h := h
  stored _ r hr := ⟨r, hr, .inl rfl⟩
  moved := ⟨[], (List.append_nil _).symm, nofun⟩

theorem PausedSince.of_same (h : l.PausedSince self l₁) (hs : l₂.storage.escrows = l₁.storage.escrows)
    (hm : l₂.moved = l₁.moved) (hn : l₁.sequence ≤ l₂.sequence) : l.PausedSince self l₂ where
  absent id h0 := by rw [hs]; exact h.absent id h0
  stored id r hr := by
    obtain ⟨r', hr', he⟩ := h.stored id r hr
    exact ⟨r', by rw [hs]; exact hr', he.trans (.inl rfl) hn⟩
  moved := by
    obtain ⟨ts, hts, hall⟩ := h.moved
    refine ⟨ts, hm.trans hts, fun t ht => ?_⟩
    obtain ⟨id, r, hr, ho, hp, hle, rfl⟩ := hall t ht
    exact ⟨id, r, hr, ho, hp, hle.trans hn, rfl⟩

/-- One record is closed, and the token this moves is paid back. -/
theorem PausedSince.closed (h : l.PausedSince self l₁) (hok : l₁.storage.Ok) {signers : List Address}
    {call : Call} {id : Bytes} {r r' : EscrowRecord} {ts : List Transfer} {es : List Event}
    (hr : l₁.storage.escrows.lookup id = some r) (hid : r'.escrowId = r.escrowId)
    (he : r.PausedEnd l₁.sequence r') (hts : ∀ t ∈ ts, r.Open ∧ 0 < r.expiryLedger ∧
      r.expiryLedger ≤ l₁.sequence ∧ t = r.repayment self) :
    l.PausedSince self (l₁.commit signers call (l₁.host.apply ⟨r', ts, es⟩)) := by
  have hkey : r'.escrowId = id := hid.trans (hok.records id r hr).keyed
  have hlook (k : Bytes) : (l₁.commit signers call (l₁.host.apply ⟨r', ts, es⟩)).storage.escrows.lookup k =
      if k = id then some r' else l₁.storage.escrows.lookup k := by
    simp only [commit, Host.apply, host, Storage.saveEscrow, hkey]
    split
    · rename_i hk; rw [hk, Finmap.lookup_insert]
    · rename_i hk; exact Finmap.lookup_insert_of_ne _ hk
  refine ⟨fun k h0 => ?_, fun k r₀ hr₀ => ?_, ?_⟩
  · have h1 := h.absent k h0
    rw [hlook, if_neg (fun hk => by rw [hk, hr] at h1; cases h1)]
    exact h1
  · obtain ⟨r₁, hr₁, he₁⟩ := h.stored k r₀ hr₀
    rw [hlook]
    by_cases hk : k = id
    · subst hk
      obtain rfl := Option.some.inj (hr.symm.trans hr₁)
      exact ⟨r', if_pos rfl, he₁.trans he le_rfl⟩
    · exact ⟨r₁, by rw [if_neg hk]; exact hr₁, he₁⟩
  · obtain ⟨us, hus, hall⟩ := h.moved
    refine ⟨us ++ ts, by rw [moved_commit, hus, List.append_assoc]; rfl, fun t ht => ?_⟩
    rcases List.mem_append.mp ht with ht | ht
    · exact hall t ht
    · obtain ⟨ho, hp, hle, rfl⟩ := hts t ht
      cases h0 : l.storage.escrows.lookup id with
      | none => exact absurd (hr.symm.trans (h.absent id h0)) (Option.some_ne_none _)
      | some r₀ =>
        obtain ⟨r₁, hr₁, he₁⟩ := h.stored id r₀ h0
        obtain rfl := Option.some.inj (hr.symm.trans hr₁)
        obtain rfl := he₁.of_open ho
        exact ⟨id, r, h0, ho, hp, hle, rfl⟩

theorem PausedSince.step (h : l.PausedSince self l₁) (hok : l₁.storage.Ok) (hs : l₁.PausedStep self a l₂) :
    l.PausedSince self l₂ := by
  cases hs with
  | refused => exact h
  | advance n => exact h.of_same rfl rfl (Nat.le_add_right _ _)
  | @outside t ht =>
    have hmoved : (Ledger.mk l₁.storage (l₁.balances.move t) l₁.sequence (l₁.history ++ [.outside t])).moved =
        l₁.moved := by simp [Ledger.moved, Entry.moved]
    exact h.of_same rfl hmoved le_rfl
  | configured hn he hb hm hq => exact h.of_same he hm hq
  | cancelled hr hp hsig hwho => exact h.closed hok hr rfl (.inr (.inl ⟨hp, rfl⟩)) nofun
  | expired hr ho hp hle =>
    refine h.closed hok hr rfl (.inr (.inr ⟨ho, hp, hle, rfl⟩)) fun t ht => ?_
    exact ⟨ho, hp, hle, List.mem_singleton.mp ht⟩

/-- In every run of a paused contract in which nobody unpauses it, each step is
one of those a pause permits: no escrow appears, records are only cancelled or
refunded after their expiry, and the only token the contract moves is the
deposit of an expired escrow, back to its client. -/
theorem paused_only_closes (hl : l.Reachable self) (hp : l.storage.isPaused = true) {as : List Action}
    (hm : Meets (step self) (fun l a => ¬ l.Unpauses self a) l as) :
    l.PausedSince self (run (step self) l as) ∧
    ∀ front a rest, as = front ++ a :: rest → let l₁ := run (step self) l front
      l₁.storage.isPaused = true ∧ l.PausedSince self l₁ ∧ l₁.PausedStep self a (step self l₁ a) := by
  have hrun (bs : List Action) (hb : Meets (step self) (fun l a => ¬ l.Unpauses self a) l bs) :
      (run (step self) l bs).Reachable self ∧ (run (step self) l bs).storage.isPaused = true ∧
        l.PausedSince self (run (step self) l bs) :=
    run_inv_of_meets (fun l₁ : Ledger => l₁.Reachable self ∧ l₁.storage.isPaused = true ∧ l.PausedSince self l₁)
      (fun l₁ a ha ⟨h1, h2, h3⟩ =>
        have hstep := paused_step h1 h2 ha
        ⟨reachable_run h1 [a], hstep.1, h3.step h1.storage_ok hstep.2⟩) bs hb ⟨hl, hp, .refl l⟩
  refine ⟨(hrun as hm).2.2, fun front a rest has => ?_⟩
  subst has
  obtain ⟨hm₁, hm₂⟩ := (meets_append front (a :: rest)).mp hm
  obtain ⟨h1, h2, h3⟩ := hrun front hm₁
  exact ⟨h2, h3, (paused_step h1 h2 hm₂.1).2⟩

end Ledger

def samplePaused : Ledger := Ledger.step ⟨0⟩ sampleLedger (.invoke [⟨3⟩] (.setPaused true))

theorem sample_paused :
    samplePaused.PausedSince ⟨0⟩ (run (Ledger.step ⟨0⟩) samplePaused [.invoke [⟨2⟩] (.completeMilestone [7])]) :=
  (@Ledger.paused_only_closes ⟨0⟩ samplePaused
    (Ledger.reachable_run sample_reachable [.invoke [⟨3⟩] (.setPaused true)]) (by decide +kernel) [_]
    ⟨fun ⟨_, h, _⟩ => (nomatch h), trivial⟩).1

end NexusHub
