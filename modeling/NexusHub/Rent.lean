import NexusHub.Disputes

/-!
# Rent

An entry of the storage lives until some ledger and is archived then: calls that
touch it are refused until someone outside pays for it. The contract extends what
it writes and the records it loads, and nothing else. So an escrow lives on its
own calls, and the configuration on the calls of the admin.
-/

namespace NexusHub

inductive DataKey where
  | admin | feeBps | paused
  | escrow (escrowId : Bytes)
  deriving DecidableEq, Repr

/-- Ledgers left below which an entry is extended. -/
def bumpAmount : Nat := 100800

def bumpTarget : Nat := 432000

/-- The host's `extend_ttl`: fewer than `threshold` ledgers left become `extendTo`. -/
def extendTtl (now liveUntil threshold extendTo : Nat) : Nat :=
  if liveUntil < now + threshold then now + extendTo else liveUntil

def bump (now liveUntil : Nat) : Nat := extendTtl now liveUntil bumpAmount bumpTarget

theorem le_bump (now liveUntil : Nat) :
    now + bumpAmount ≤ bump now liveUntil ∧ liveUntil ≤ bump now liveUntil := by
  unfold bump extendTtl bumpAmount bumpTarget
  split <;> omega

theorem bump_cases (now liveUntil : Nat) :
    bump now liveUntil = now + bumpTarget ∨ bump now liveUntil = liveUntil := by
  unfold bump extendTtl
  split
  · exact .inl rfl
  · exact .inr rfl

def Storage.has (s : Storage) : DataKey → Bool
  | .admin => s.admin.isSome
  | .feeBps => s.feeBps.isSome
  | .paused => s.paused.isSome
  | .escrow id => s.escrowExists id

namespace Call

/-- The entries a successful call reads. -/
def reads : Call → List DataKey
  | initializeContract .. | setFee _ | setPaused _ | transferAdmin _ => [.admin]
  | initEscrow id .. => [.paused, .escrow id, .feeBps, .admin]
  | cancel id _ | claimExpired id => [.escrow id]
  | fund id | activate id | release id _ | refund id | raiseDispute id _ | resolveDispute id _
  | completeMilestone id | approveRelease id _ => [.paused, .escrow id]

/-- The entries a successful call extends: those it writes and the record it loads. -/
def keeps : Call → List DataKey
  | initializeContract .. => [.admin, .feeBps, .paused]
  | setFee _ => [.feeBps]
  | setPaused _ => [.paused]
  | transferAdmin _ => [.admin]
  | initEscrow id .. | fund id | activate id | release id _ | refund id | cancel id _ | raiseDispute id _
  | resolveDispute id _ | completeMilestone id | claimExpired id | approveRelease id _ => [.escrow id]

def touches (call : Call) : List DataKey := call.reads ++ call.keeps

def isCreation : Call → Bool
  | initEscrow .. => true
  | _ => false

/-- No pause check. -/
def isValve : Call → Bool
  | cancel .. | claimExpired _ => true
  | _ => false

theorem keeps_escrow {call : Call} {id : Bytes} : .escrow id ∈ call.keeps ↔ call.escrowId? = some id := by
  cases call <;> simp [keeps, escrowId?, eq_comm]

theorem keeps_paused {call : Call} (h : .paused ∈ call.keeps) :
    (∃ admin bps, call = .initializeContract admin bps) ∨ ∃ b, call = .setPaused b := by
  cases call with
  | initializeContract admin bps => exact .inl ⟨admin, bps, rfl⟩
  | setPaused b => exact .inr ⟨b, rfl⟩
  | _ => simp [keeps] at h

theorem touches_of_escrow {call : Call} {id : Bytes} (hid : call.escrowId? = some id)
    (hnew : call.isCreation = false) {k : DataKey} (hk : k ∈ call.touches) :
    k = .escrow id ∨ k = .paused ∧ call.isValve = false := by
  cases call with
  | initializeContract | setFee | setPaused | transferAdmin => cases hid
  | initEscrow => cases hnew
  | _ =>
    cases hid
    simp only [touches, reads, keeps, List.mem_append, List.mem_cons, List.not_mem_nil, or_false] at hk
    simp only [isValve]
    tauto

theorem reads_paused {call : Call} {id : Bytes} (hid : call.escrowId? = some id) (h : call.isValve = false) :
    .paused ∈ call.reads := by
  cases call with
  | cancel | claimExpired => cases h
  | initializeContract | setFee | setPaused | transferAdmin => cases hid
  | _ => simp [reads]

end Call

theorem has_saveEscrow (s : Storage) (r : EscrowRecord) (k : DataKey) :
    (s.saveEscrow r).has k ↔ s.has k ∨ k = .escrow r.escrowId := by
  cases k with
  | escrow id =>
    refine (Store.isSome_insert s.escrows r.escrowId r id).trans (or_congr_right ?_)
    rw [DataKey.escrow.injEq, Option.mem_def, Option.some.injEq, eq_comm]
  | _ => simp [Storage.has, Storage.saveEscrow]

/-- A successful call stores what it extends, and nothing else is stored or removed. -/
theorem exec_has {env : Env} {h h' : Host} {call : Call} (hs : h.storage.Ok) (hx : call.exec env h = .ok h')
    (k : DataKey) : h'.storage.has k ↔ h.storage.has k ∨ k ∈ call.keeps := by
  have hsave {id : Bytes} {r : EscrowRecord} (hid : call.escrowId? = some id) (hk : r.escrowId = id)
      (he : h'.storage = h.storage.saveEscrow r) : h'.storage.has k ↔ h.storage.has k ∨ k ∈ call.keeps := by
    rw [he, has_saveEscrow, hk]
    cases k with
    | escrow id' => rw [Call.keeps_escrow, hid, DataKey.escrow.injEq, Option.some.injEq, @eq_comm _ id']
    | _ =>
      cases call with
      | initializeContract | setFee | setPaused | transferAdmin => cases hid
      | _ => simp [Call.keeps]
  rcases exec_cases hx with hc | ⟨id, r, hc, rfl⟩ | ⟨id, hid, r, hr, ha, -, -, rfl⟩
  · cases call with
    | initializeContract admin bps =>
      obtain ⟨-, -, -, rfl⟩ := initializeContract_ok.mp hx
      cases k <;> simp [Storage.has, Storage.setAdmin, Storage.setFeeBps, Storage.setPaused, Call.keeps,
        Storage.escrowExists]
    | setFee bps =>
      obtain ⟨_, -, -, -, rfl⟩ := setFee_ok.mp hx
      cases k <;> simp [Storage.has, Storage.setFeeBps, Call.keeps, Storage.escrowExists]
    | setPaused b =>
      obtain ⟨_, -, -, rfl⟩ := setPaused_ok.mp hx
      cases k <;> simp [Storage.has, Storage.setPaused, Call.keeps, Storage.escrowExists]
    | transferAdmin a =>
      obtain ⟨_, -, -, rfl⟩ := transferAdmin_ok.mp hx
      cases k <;> simp [Storage.has, Storage.setAdmin, Call.keeps, Storage.escrowExists, Host.emit]
    | _ => cases hc.named
  · exact hsave hc.named hc.escrowId rfl
  · exact hsave hid ((hs.records id r hr).change ha).keyed rfl

/-! ## A ledger with rent -/

structure Rented where
  ledger : Ledger
  /-- The contract's own entry. -/
  instanceUntil : Nat
  liveUntil : DataKey → Nat

inductive RentAction where
  | act (a : Action)
  /-- Anyone can pay for an entry that is stored, archived or not. -/
  | prolong (key : DataKey) (ledgers : Nat)
  | prolongInstance (ledgers : Nat)

def RentAction.act? : RentAction → Option Action
  | .act a => some a
  | _ => none

namespace Rented

def Live (r : Rented) (k : DataKey) : Prop := r.ledger.storage.has k → r.ledger.sequence ≤ r.liveUntil k

instance (r : Rented) (k : DataKey) : Decidable (r.Live k) := inferInstanceAs (Decidable (_ → _))

/-- Nothing the call touches is archived. -/
def Within (r : Rented) (call : Call) : Prop :=
  r.ledger.sequence ≤ r.instanceUntil ∧ ∀ k ∈ call.touches, r.Live k

instance (r : Rented) (call : Call) : Decidable (r.Within call) := inferInstanceAs (Decidable (_ ∧ _))

/-- A new entry starts with the network's minimum lifetime `minTtl`. -/
def extended (minTtl : Nat) (r : Rented) (call : Call) (k : DataKey) : Nat :=
  if k ∈ call.keeps then
    bump r.ledger.sequence (if r.ledger.storage.has k then r.liveUntil k else r.ledger.sequence + minTtl)
  else r.liveUntil k

def invoke (self : Address) (minTtl : Nat) (r : Rented) (signers : List Address) (call : Call) : Rented :=
  if r.Within call then
    match call.exec (r.ledger.env self signers) r.ledger.host with
    | .ok h => ⟨r.ledger.commit signers call h, bump r.ledger.sequence r.instanceUntil, r.extended minTtl call⟩
    | .error _ => r
  else r

def prolonged (r : Rented) (key : DataKey) (ledger : Nat) (k : DataKey) : Nat :=
  if k = key ∧ r.ledger.storage.has key then max (r.liveUntil k) ledger else r.liveUntil k

def step (self : Address) (minTtl : Nat) (r : Rented) : RentAction → Rented
  | .act (.invoke signers call) => r.invoke self minTtl signers call
  | .act a => { r with ledger := r.ledger.step self a }
  | .prolong k n => { r with liveUntil := r.prolonged k (r.ledger.sequence + n) }
  | .prolongInstance n => { r with instanceUntil := max r.instanceUntil (r.ledger.sequence + n) }

def genesis (minTtl : Nat) (b : Balances) : Rented := ⟨.genesis b, minTtl, fun _ => 0⟩

/-- Runs in which outsiders pay for the entries in `paid` only. -/
def Reachable (self : Address) (minTtl : Nat) (paid : DataKey → Prop) (r : Rented) : Prop :=
  ∃ b as, (∀ T, b T self = 0) ∧ (∀ k n, .prolong k n ∈ as → paid k) ∧
    r = run (step self minTtl) (genesis minTtl b) as

variable {self : Address} {minTtl : Nat} {paid : DataKey → Prop} {r : Rented}

theorem invoke_cases (signers : List Address) (call : Call) :
    (∃ h, call.exec (r.ledger.env self signers) r.ledger.host = .ok h ∧ r.Within call ∧
      r.invoke self minTtl signers call =
        ⟨r.ledger.commit signers call h, bump r.ledger.sequence r.instanceUntil, r.extended minTtl call⟩) ∨
      r.invoke self minTtl signers call = r := by
  unfold invoke
  split
  · rename_i hw
    cases hx : call.exec (r.ledger.env self signers) r.ledger.host with
    | ok h => exact .inl ⟨h, rfl, hw, rfl⟩
    | error e => exact .inr rfl
  · exact .inr rfl

theorem Reachable.anyPaid (hr : r.Reachable self minTtl paid) : r.Reachable self minTtl fun _ => True := by
  obtain ⟨b, as, hb, -, rfl⟩ := hr
  exact ⟨b, as, hb, fun _ _ _ => trivial, rfl⟩

theorem Reachable.step (hr : r.Reachable self minTtl paid) {a : RentAction}
    (hpaid : ∀ k n, a = .prolong k n → paid k) : (r.step self minTtl a).Reachable self minTtl paid := by
  obtain ⟨b, as, hb, hpaid', rfl⟩ := hr
  refine ⟨b, as ++ [a], hb, fun k n hk => ?_, by rw [run_append]; rfl⟩
  rcases List.mem_append.mp hk with hk | hk
  · exact hpaid' k n hk
  · exact hpaid k n (List.mem_singleton.mp hk).symm

/-- An invariant of the ledgers with rent, from what the contract, the passing of ledgers, outside
transfers and outside payments of rent do. -/
theorem reachable_inv (I : Rented → Prop) (h0 : ∀ b : Balances, (∀ T, b T self = 0) → I (genesis minTtl b))
    (hact : ∀ r a, (∀ signers call, a ≠ .invoke signers call) → I r →
      I { r with ledger := r.ledger.step self a })
    (hcall : ∀ r signers call h, r.Reachable self minTtl paid → I r → r.Within call →
      call.exec (r.ledger.env self signers) r.ledger.host = .ok h →
      I ⟨r.ledger.commit signers call h, bump r.ledger.sequence r.instanceUntil, r.extended minTtl call⟩)
    (hkey : ∀ r k n, paid k → I r → I { r with liveUntil := r.prolonged k n })
    (hinst : ∀ r n, I r → I { r with instanceUntil := max r.instanceUntil n })
    (hr : r.Reachable self minTtl paid) : I r := by
  suffices h : ∀ (as : List RentAction) (r : Rented), r.Reachable self minTtl paid → I r →
      (∀ k n, .prolong k n ∈ as → paid k) → I (run (step self minTtl) r as) by
    obtain ⟨b, as, hb, hpaid, rfl⟩ := hr
    exact h as _ ⟨b, [], hb, fun _ _ h => absurd h List.not_mem_nil, rfl⟩ (h0 b hb) hpaid
  intro as
  induction as with
  | nil => exact fun _ _ hi _ => hi
  | cons a as ih =>
    intro r hr hi hpaid
    refine ih _ ?_ ?_ fun k n hk => hpaid k n (List.mem_cons_of_mem a hk)
    · exact hr.step fun k n hk => hpaid k n (hk ▸ List.mem_cons_self ..)
    · cases a with
      | prolong k n => exact hkey r k _ (hpaid k n (List.mem_cons_self ..)) hi
      | prolongInstance n => exact hinst r _ hi
      | act a =>
        cases a with
        | advance n => exact hact r (.advance n) (fun _ _ h => by cases h) hi
        | outside t => exact hact r (.outside t) (fun _ _ h => by cases h) hi
        | invoke signers call =>
          rcases invoke_cases signers call with ⟨h, hx, hw, he⟩ | he
          · rw [step, he]; exact hcall r signers call h hr hi hw hx
          · rw [step, he]; exact hi

/-- With rent the contract reaches nothing it does not reach without. -/
theorem Reachable.ledger (hr : r.Reachable self minTtl paid) : r.ledger.Reachable self := by
  refine reachable_inv (fun r => r.ledger.Reachable self) (fun b hb => ⟨b, [], hb, rfl⟩)
    (fun _ a _ hi => Ledger.reachable_run hi [a]) ?_ (fun _ _ _ _ hi => hi) (fun _ _ hi => hi) hr
  intro r signers call h _ hi _ hx
  have hcommit : r.ledger.step self (.invoke signers call) = r.ledger.commit signers call h := by
    rw [Ledger.step, Ledger.invoke, hx]
  exact hcommit ▸ Ledger.reachable_run hi [.invoke signers call]

/-! ## What was used lives on -/

theorem history_of_not_invoke {l : Ledger} {a : Action} (ha : ∀ signers call, a ≠ .invoke signers call)
    {rc : Receipt} : .call rc ∈ (l.step self a).history ↔ .call rc ∈ l.history := by
  cases a with
  | advance n => exact Iff.rfl
  | invoke signers call => exact absurd rfl (ha signers call)
  | outside t =>
    rcases Ledger.outside_cases self l t with ⟨-, -, -, he⟩ | he
    · simp [Ledger.step, he]
    · rw [Ledger.step, he]

theorem storage_of_not_invoke {l : Ledger} {a : Action} (ha : ∀ signers call, a ≠ .invoke signers call) :
    (l.step self a).storage = l.storage := by
  cases a with
  | advance n => rfl
  | invoke signers call => exact absurd rfl (ha signers call)
  | outside t =>
    rcases Ledger.outside_cases self l t with ⟨-, -, -, he⟩ | he
    · rw [Ledger.step, he]
    · rw [Ledger.step, he]

theorem mem_commit {l : Ledger} {signers : List Address} {call : Call} {h : Host} {rc : Receipt} :
    .call rc ∈ (l.commit signers call h).history ↔
      .call rc ∈ l.history ∨ rc = ⟨call, signers, l.sequence, h.transfers, h.events⟩ := by
  simp [Ledger.commit]

/-- What a call has extended is stored. -/
theorem Reachable.stored (hr : r.Reachable self minTtl paid) :
    ∀ rc, .call rc ∈ r.ledger.history → ∀ k ∈ rc.call.keeps, r.ledger.storage.has k := by
  refine reachable_inv (fun r => ∀ rc, .call rc ∈ r.ledger.history → ∀ k ∈ rc.call.keeps, r.ledger.storage.has k)
    (fun _ _ _ h => by cases h) ?_ ?_ (fun _ _ _ _ hi rc hrc => hi rc hrc) (fun _ _ hi rc hrc => hi rc hrc) hr
  · intro r a ha hi rc hrc k hk
    rw [storage_of_not_invoke ha]
    exact hi rc ((history_of_not_invoke ha).mp hrc) k hk
  · intro r signers call h hr hi _ hx rc hrc k hk
    refine (exec_has hr.ledger.storage_ok hx k).mpr ?_
    rcases mem_commit.mp hrc with hrc | rfl
    · exact .inl (hi rc hrc k hk)
    · exact .inr hk

theorem le_extended {call : Call} {k : DataKey} (hk : r.ledger.storage.has k) :
    r.liveUntil k ≤ r.extended minTtl call k := by
  unfold extended
  split
  · exact (le_bump _ _).2
  · exact le_rfl

theorem le_prolonged (k k' : DataKey) (n : Nat) : r.liveUntil k' ≤ r.prolonged k n k' := by
  unfold prolonged
  split
  · exact le_max_left ..
  · exact le_rfl

/-- A successful call keeps the contract and the entries it extends for `bumpAmount` ledgers. -/
theorem Reachable.kept (hr : r.Reachable self minTtl paid) :
    ∀ rc, .call rc ∈ r.ledger.history → rc.sequence + bumpAmount ≤ r.instanceUntil ∧
      ∀ k ∈ rc.call.keeps, rc.sequence + bumpAmount ≤ r.liveUntil k := by
  refine reachable_inv (fun r => ∀ rc, .call rc ∈ r.ledger.history → rc.sequence + bumpAmount ≤ r.instanceUntil ∧
    ∀ k ∈ rc.call.keeps, rc.sequence + bumpAmount ≤ r.liveUntil k) (fun _ _ _ h => by cases h) ?_ ?_ ?_ ?_ hr
  · intro r a ha hi rc hrc
    exact hi rc ((history_of_not_invoke ha).mp hrc)
  · intro r signers call h hr hi _ _ rc hrc
    rcases mem_commit.mp hrc with hrc | rfl
    · obtain ⟨h1, h2⟩ := hi rc hrc
      exact ⟨h1.trans (le_bump _ _).2, fun k hk => (h2 k hk).trans (le_extended (hr.stored rc hrc k hk))⟩
    · refine ⟨(le_bump _ _).1, fun k hk => ?_⟩
      simp only [extended, if_pos hk]
      exact (le_bump _ _).1
  · intro r k n _ hi rc hrc
    exact ⟨(hi rc hrc).1, fun k' hk' => ((hi rc hrc).2 k' hk').trans (le_prolonged k k' n)⟩
  · intro r n hi rc hrc
    exact ⟨(hi rc hrc).1.trans (le_max_left ..), (hi rc hrc).2⟩

/-- A call of the kind succeeded at most `bumpAmount` ledgers ago. -/
def Recently (r : Rented) (P : Call → Prop) : Prop :=
  ∃ rc, .call rc ∈ r.ledger.history ∧ P rc.call ∧ r.ledger.sequence ≤ rc.sequence + bumpAmount

/-- The contract is in use, and so is every entry that the action touches. -/
def InUse (r : Rented) : RentAction → Prop
  | .act (.invoke _ call) => r.Recently (fun _ => True) ∧
      ∀ k ∈ call.touches, r.ledger.storage.has k → r.Recently fun call' => k ∈ call'.keeps
  | _ => True

/-- For a call on a stored escrow that is a call on the same escrow and, but for `cancel` and
`claim_expired`, one that set the pause flag. -/
theorem InUse.of_escrow {signers : List Address} {id : Bytes} {call : Call} (hid : call.escrowId? = some id)
    (hnew : call.isCreation = false) (hrecord : r.Recently fun call' => call'.escrowId? = some id)
    (hpaused : call.isValve ∨ r.Recently fun call' => .paused ∈ call'.keeps) :
    r.InUse (.act (.invoke signers call)) := by
  obtain ⟨rc, hrc, hrid, hle⟩ := hrecord
  refine ⟨⟨rc, hrc, trivial, hle⟩, fun k hk _ => ?_⟩
  rcases Call.touches_of_escrow hid hnew hk with rfl | ⟨rfl, hvalve⟩
  · exact ⟨rc, hrc, Call.keeps_escrow.mpr hrid, hle⟩
  · exact hpaused.resolve_left (hvalve ▸ Bool.false_ne_true)

theorem Reachable.within (hr : r.Reachable self minTtl paid) {signers : List Address} {call : Call}
    (h : r.InUse (.act (.invoke signers call))) : r.Within call := by
  obtain ⟨⟨rc, hrc, -, hle⟩, hkeys⟩ := h
  refine ⟨hle.trans (hr.kept rc hrc).1, fun k hk hstored => ?_⟩
  obtain ⟨rc', hrc', hkeep, hle'⟩ := hkeys k hk hstored
  exact hle'.trans ((hr.kept rc' hrc').2 k hkeep)

theorem Reachable.step_ledger (hr : r.Reachable self minTtl paid) {a : RentAction} (h : r.InUse a) :
    (r.step self minTtl a).ledger = run (Ledger.step self) r.ledger a.act?.toList := by
  cases a with
  | prolong | prolongInstance => rfl
  | act a =>
    cases a with
    | advance | outside => rfl
    | invoke signers call =>
      show (r.invoke self minTtl signers call).ledger = r.ledger.invoke self signers call
      rw [Rented.invoke, if_pos (hr.within h), Ledger.invoke]
      cases call.exec (r.ledger.env self signers) r.ledger.host with
      | ok h => rfl
      | error e => rfl

/-! ## What was not used is archived -/

/-- The longest an entry lives on one call. -/
def longest (minTtl : Nat) : Nat := max minTtl bumpTarget

theorem Reachable.not_kept (hr : r.Reachable self minTtl paid) (k : DataKey) (hk : ¬ paid k) :
    r.ledger.storage.has k → ∃ rc, .call rc ∈ r.ledger.history ∧ k ∈ rc.call.keeps ∧
      r.liveUntil k ≤ rc.sequence + longest minTtl := by
  refine reachable_inv (fun r => r.ledger.storage.has k → ∃ rc, .call rc ∈ r.ledger.history ∧ k ∈ rc.call.keeps ∧
    r.liveUntil k ≤ rc.sequence + longest minTtl) ?_ ?_ ?_ ?_ ?_ hr
  · intro b _ h
    cases k <;> cases h
  · intro r a ha hi hhas
    obtain ⟨rc, hrc, hkeep, hle⟩ := hi (storage_of_not_invoke ha ▸ hhas)
    exact ⟨rc, (history_of_not_invoke ha).mpr hrc, hkeep, hle⟩
  · intro r signers call h hr hi _ hx hhas
    have hnew {n : Nat} (hkeep : k ∈ call.keeps) (hn : n ≤ r.ledger.sequence + longest minTtl)
        (he : r.extended minTtl call k = n) : ∃ rc, .call rc ∈ (r.ledger.commit signers call h).history ∧
          k ∈ rc.call.keeps ∧ r.extended minTtl call k ≤ rc.sequence + longest minTtl :=
      ⟨_, mem_commit.mpr (.inr rfl), hkeep, he ▸ hn⟩
    have hold (hhas : r.ledger.storage.has k) (he : r.extended minTtl call k = r.liveUntil k) :
        ∃ rc, .call rc ∈ (r.ledger.commit signers call h).history ∧ k ∈ rc.call.keeps ∧
          r.extended minTtl call k ≤ rc.sequence + longest minTtl := by
      obtain ⟨rc, hrc, hkeep, hle⟩ := hi hhas
      exact ⟨rc, mem_commit.mpr (.inl hrc), hkeep, he ▸ hle⟩
    have htarget : r.ledger.sequence + bumpTarget ≤ r.ledger.sequence + longest minTtl :=
      Nat.add_le_add_left (le_max_right ..) _
    by_cases hkeep : k ∈ call.keeps
    · by_cases hstored : r.ledger.storage.has k
      · have he : r.extended minTtl call k = bump r.ledger.sequence (r.liveUntil k) := by
          rw [extended, if_pos hkeep, if_pos hstored]
        rcases bump_cases r.ledger.sequence (r.liveUntil k) with hb | hb
        · exact hnew hkeep htarget (he.trans hb)
        · exact hold hstored (he.trans hb)
      · have he : r.extended minTtl call k = bump r.ledger.sequence (r.ledger.sequence + minTtl) := by
          rw [extended, if_pos hkeep, if_neg hstored]
        rcases bump_cases r.ledger.sequence (r.ledger.sequence + minTtl) with hb | hb
        · exact hnew hkeep htarget (he.trans hb)
        · exact hnew hkeep (Nat.add_le_add_left (le_max_left ..) _) (he.trans hb)
    · have hstored := ((exec_has hr.ledger.storage_ok hx k).mp hhas).resolve_right hkeep
      exact hold hstored (by rw [extended, if_neg hkeep])
  · intro r k' n hpaid hi hhas
    obtain ⟨rc, hrc, hkeep, hle⟩ := hi hhas
    refine ⟨rc, hrc, hkeep, ?_⟩
    have hne : k ≠ k' := fun h => hk (h ▸ hpaid)
    simpa [prolonged, hne] using hle
  · exact fun _ _ hi hhas => hi hhas

/-! ## The configuration is there for every escrow -/

theorem configured {l : Ledger} (hl : l.Reachable self) :
    (l.storage.admin ≠ none → l.storage.paused ≠ none) ∧
      ∀ id r, l.storage.escrows.lookup id = some r → l.storage.admin ≠ none := by
  refine Ledger.reachable_inv (fun l => (l.storage.admin ≠ none → l.storage.paused ≠ none) ∧
    ∀ id r, l.storage.escrows.lookup id = some r → l.storage.admin ≠ none) ?_ (fun _ _ h => h)
    (fun _ _ h _ _ _ => h) ?_ hl
  · intro b _
    exact ⟨fun h => absurd rfl h, fun _ _ h => by cases h⟩
  · rintro l signers call h hl ⟨h1, h2⟩ hx
    rcases exec_cases hx with hc | ⟨id, r, hc, rfl⟩ | ⟨id, hid, r, hr, ha, -, -, rfl⟩
    · cases call with
      | initializeContract admin bps =>
        obtain ⟨-, -, -, rfl⟩ := initializeContract_ok.mp hx
        exact ⟨fun _ => Option.some_ne_none _, fun _ _ _ => Option.some_ne_none _⟩
      | setFee bps => obtain ⟨_, -, -, -, rfl⟩ := setFee_ok.mp hx; exact ⟨h1, h2⟩
      | setPaused b =>
        obtain ⟨_, -, -, rfl⟩ := setPaused_ok.mp hx
        exact ⟨fun _ => Option.some_ne_none _, h2⟩
      | transferAdmin a =>
        obtain ⟨_, h, -, rfl⟩ := transferAdmin_ok.mp hx
        have hadmin : l.storage.admin = _ := h
        exact ⟨fun _ => h1 (hadmin ▸ Option.some_ne_none _), fun _ _ _ => Option.some_ne_none _⟩
      | _ => cases hc.named
    · have hadmin : l.storage.admin = some r.admin := hc.admin
      exact ⟨h1, fun _ _ _ => hadmin ▸ Option.some_ne_none _⟩
    · exact ⟨h1, fun _ _ _ => h2 id r hr⟩

/-- A call on an escrow finds the pause flag stored, and all but the creation the record. -/
theorem stored_of_exec {l : Ledger} (hl : l.Reachable self) {signers : List Address} {call : Call} {h : Host}
    {id : Bytes} (hid : call.escrowId? = some id) (hx : call.exec (l.env self signers) l.host = .ok h) :
    l.storage.has .paused ∧ (call.isCreation = false → l.storage.has (.escrow id)) := by
  obtain ⟨h1, h2⟩ := configured hl
  have hpaused (ha : l.storage.admin ≠ none) : l.storage.has .paused := Option.isSome_iff_ne_none.mpr (h1 ha)
  rcases exec_cases hx with hc | ⟨k, r, hc, -⟩ | ⟨k, hk, r, hr, -⟩
  · exact absurd (hc.named.symm.trans hid) (Option.some_ne_none id).symm
  · have hadmin : l.storage.admin = some r.admin := hc.admin
    refine ⟨hpaused (hadmin ▸ Option.some_ne_none _), fun hnew => ?_⟩
    obtain ⟨_, _, _, _, -, rfl⟩ := hc.call_eq
    cases hnew
  · obtain rfl := Option.some.inj (hk.symm.trans hid)
    have hr' : l.storage.escrows.lookup k = some r := hr
    exact ⟨hpaused (h2 k r hr'), fun _ => Option.isSome_iff_exists.mpr ⟨r, hr'⟩⟩

/-! ## Every call of a run -/

/-- `P` holds of every call with what came before it. -/
def EachCall (P : List Entry → Receipt → Prop) (history : List Entry) : Prop :=
  ∀ front rc, front ++ [.call rc] <+: history → P front rc

theorem EachCall.append_call {P : List Entry → Receipt → Prop} {history : List Entry} {rc : Receipt}
    (h : EachCall P history) (hrc : P history rc) : EachCall P (history ++ [.call rc]) := by
  intro front rc' hp
  rcases List.prefix_concat_iff.mp hp with he | hp
  · obtain ⟨rfl, hlast⟩ := List.append_inj' he rfl
    cases hlast
    exact hrc
  · exact h front rc' hp

theorem EachCall.append_outside {P : List Entry → Receipt → Prop} {history : List Entry} {t : Transfer}
    (h : EachCall P history) : EachCall P (history ++ [.outside t]) := by
  intro front rc hp
  rcases List.prefix_concat_iff.mp hp with he | hp
  · obtain ⟨-, hlast⟩ := List.append_inj' he rfl
    cases hlast
  · exact h front rc hp

/-- What the call touches and nobody else paid for was extended not long before. -/
def Upkept (paid : DataKey → Prop) (limit : Nat) (front : List Entry) (rc : Receipt) : Prop :=
  ∀ id, rc.call.escrowId? = some id →
    (rc.call.isCreation = false → ¬ paid (.escrow id) → ∃ rc', .call rc' ∈ front ∧ rc'.call.escrowId? = some id ∧
      rc.sequence ≤ rc'.sequence + limit) ∧
    (rc.call.isValve = false → ¬ paid .paused → ∃ rc', .call rc' ∈ front ∧
      ((∃ admin bps, rc'.call = .initializeContract admin bps) ∨ ∃ b, rc'.call = .setPaused b) ∧
      rc.sequence ≤ rc'.sequence + limit)

theorem upkept_call (hr : r.Reachable self minTtl paid) {signers : List Address} {call : Call} {h : Host}
    (hw : r.Within call) (hx : call.exec (r.ledger.env self signers) r.ledger.host = .ok h) :
    Upkept paid (longest minTtl) r.ledger.history
      ⟨call, signers, r.ledger.sequence, h.transfers, h.events⟩ := by
  intro id hid
  obtain ⟨hpaused, hrecord⟩ := stored_of_exec hr.ledger hid hx
  have hlive {k : DataKey} (hk : k ∈ call.touches) (hstored : r.ledger.storage.has k) (hpaid : ¬ paid k) :
      ∃ rc', .call rc' ∈ r.ledger.history ∧ k ∈ rc'.call.keeps ∧
        r.ledger.sequence ≤ rc'.sequence + longest minTtl := by
    obtain ⟨rc', hrc', hkeep, hle⟩ := hr.not_kept k hpaid hstored
    exact ⟨rc', hrc', hkeep, (hw.2 k hk hstored).trans hle⟩
  refine ⟨fun hnew hpaid => ?_, fun hvalve hpaid => ?_⟩
  · have hk : .escrow id ∈ call.touches := List.mem_append_right _ (Call.keeps_escrow.mpr hid)
    obtain ⟨rc', hrc', hkeep, hle⟩ := hlive hk (hrecord hnew) hpaid
    exact ⟨rc', hrc', Call.keeps_escrow.mp hkeep, hle⟩
  · have hk : .paused ∈ call.touches := List.mem_append_left _ (Call.reads_paused hid hvalve)
    obtain ⟨rc', hrc', hkeep, hle⟩ := hlive hk hpaused hpaid
    exact ⟨rc', hrc', Call.keeps_paused hkeep, hle⟩

end Rented

/-! ## Main results -/

section
variable {self : Address} {minTtl : Nat} {paid : DataKey → Prop} {r : Rented}

/-- Rent does not stand in the way of a run whose calls come at most `bumpAmount` ledgers after some call of the
contract and after one that extended each of the stored entries they touch. -/
theorem used_entries_live (hr : r.Reachable self minTtl paid) {as : List RentAction}
    (huse : Meets (Rented.step self minTtl) Rented.InUse r as) :
    (run (Rented.step self minTtl) r as).ledger = run (Ledger.step self) r.ledger (as.filterMap (·.act?)) := by
  -- whoever may pay for an entry in the run
  have hany := hr.anyPaid
  clear hr
  induction as generalizing r with
  | nil => rfl
  | cons a as ih =>
    have hstep := hany.step_ledger huse.1
    have hrest := ih huse.2 (hany.step fun _ _ _ => trivial)
    calc
      (run (Rented.step self minTtl) (r.step self minTtl a) as).ledger =
          run (Ledger.step self) (run (Ledger.step self) r.ledger a.act?.toList) (as.filterMap (·.act?)) := by
        rw [hrest, hstep]
      _ = run (Ledger.step self) r.ledger (a.act?.toList ++ as.filterMap (·.act?)) := (run_append ..).symm
      _ = run (Ledger.step self) r.ledger ((a :: as).filterMap (·.act?)) := by
        cases h : a.act? <;> simp [h]

/-- Nothing but calls on an escrow keeps its record, and nothing but `initialize` and
`set_paused` the pause flag that all calls on escrows need but `cancel` and `claim_expired`:
each call of a run follows on one of those within the longest lifetime. -/
theorem calls_need_upkeep (hr : r.Reachable self minTtl paid) :
    Rented.EachCall (Rented.Upkept paid (Rented.longest minTtl)) r.ledger.history := by
  refine Rented.reachable_inv
    (fun r => Rented.EachCall (Rented.Upkept paid (Rented.longest minTtl)) r.ledger.history)
    ?_ ?_ ?_ (fun _ _ _ _ hi => hi) (fun _ _ hi => hi) hr
  · intro b _ front rc hp
    have := List.prefix_nil.mp hp
    simp at this
  · intro r a ha hi
    cases a with
    | advance n => exact hi
    | invoke signers call => exact absurd rfl (ha signers call)
    | outside t =>
      rcases Ledger.outside_cases self r.ledger t with ⟨-, -, -, he⟩ | he
      · simp only [Ledger.step, he]
        exact hi.append_outside
      · simp only [Ledger.step, he]
        exact hi
  · intro r signers call h hr hi hw hx
    exact hi.append_call (Rented.upkept_call hr hw hx)

end

def sampleRented : Rented :=
  run (Rented.step ⟨0⟩ 4096) (Rented.genesis 4096 sampleBalances) (sampleActions.map .act)

theorem sample_rented_reachable : sampleRented.Reachable ⟨0⟩ 4096 fun _ => False := by
  refine ⟨sampleBalances, sampleActions.map .act, fun T => by simp [sampleBalances], fun k n h => ?_, rfl⟩
  obtain ⟨a, -, ha⟩ := List.mem_map.mp h
  cases ha

deriving instance DecidableEq for Receipt, Entry

/-- The refund 100000 ledgers after the last call. -/
theorem sample_refund_within_rent :
    (run (Rented.step ⟨0⟩ 4096) sampleRented [.act (.advance 100000), .act (.invoke [⟨3⟩] (.refund [7]))]).ledger =
      run (Ledger.step ⟨0⟩) sampleRented.ledger [.advance 100000, .invoke [⟨3⟩] (.refund [7])] :=
  used_entries_live sample_rented_reachable ⟨trivial, .of_escrow rfl rfl
    ⟨⟨.fund [7], [⟨1⟩], 0, [⟨⟨9⟩, ⟨1⟩, ⟨0⟩, 1000⟩], [.funded [7] ⟨1⟩ 1000 0]⟩, by decide +kernel, rfl,
      by decide +kernel⟩
    (.inr ⟨⟨.initializeContract ⟨3⟩ 100, [⟨3⟩], 0, [], []⟩, by decide +kernel, by decide, by decide +kernel⟩),
    trivial⟩

theorem sample_upkeep : Rented.EachCall (Rented.Upkept (fun _ => False) 432000) sampleRented.ledger.history :=
  calls_need_upkeep sample_rented_reachable

-- the claim of an expired escrow is refused once its record is archived
example : let r := run (Rented.step ⟨0⟩ 4096) sampleRented [.act (.invoke [⟨1⟩]
      (.initEscrow [8] ⟨1⟩ ⟨2⟩ ⟨9⟩ sampleAmount [] "" 0 2 500000)),
      .act (.invoke [⟨3⟩] (.refund [7])), .act (.invoke [⟨1⟩] (.fund [8])), .act (.advance 500000)]
    r.ledger.Succeeds ⟨0⟩ [] (.claimExpired [8]) ∧ ¬ r.Within (.claimExpired [8]) := by
  decide +kernel

end NexusHub
