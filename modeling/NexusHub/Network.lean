import Mathlib.Data.List.Nodup
import NexusHub.Trace

/-!
# An account's transactions on a network

A transaction names the sequence number its account has next and the time by
which a ledger must close with it. The network may hold on to what it received
for as long as it likes, and a ledger includes what fits. Here is what the two
numbers make sure of, whatever is sent, received and included.
-/

namespace NexusHub

/-- Signed and ready to send. The contents stand for the hash. -/
structure Envelope (B : Type) where
  sequence : Nat
  maxTime : Nat
  body : B
  deriving DecidableEq

/-- A transaction in a ledger; without a result it failed there. -/
structure Inclusion (B R : Type) where
  tx : Envelope B
  closeTime : Nat
  result : Option R
  deriving DecidableEq

structure Network (L B R : Type) where
  state : L
  sequence : Nat
  closeTime : Nat
  received : List (Envelope B)
  included : List (Inclusion B R)

inductive NetworkAction (E B : Type) where
  /-- Whatever else goes on. -/
  | outside (e : E)
  | receive (tx : Envelope B)
  | close (time : Nat) (txs : List (Envelope B))

namespace Network

variable {L B R E : Type}

section
variable [DecidableEq B] (execute : B → L → Option (L × R))

/-- A failing transaction uses up its sequence number all the same. -/
def apply (n : Network L B R) (tx : Envelope B) : Network L B R :=
  if tx ∈ n.received ∧ tx.sequence = n.sequence + 1 ∧ n.closeTime ≤ tx.maxTime then
    { n with
      state := (execute tx.body n.state).elim n.state Prod.fst
      sequence := tx.sequence
      included := n.included ++ [⟨tx, n.closeTime, (execute tx.body n.state).map Prod.snd⟩] }
  else n

def step (other : L → E → L) (n : Network L B R) : NetworkAction E B → Network L B R
  | .outside e => { n with state := other n.state e }
  | .receive tx => { n with received := n.received ++ [tx] }
  | .close time txs => if n.closeTime < time then run (apply execute) { n with closeTime := time } txs else n

end

/-! ## What is always so -/

/-- The account started from the sequence number `start`. -/
structure Ok (start : Nat) (n : Network L B R) : Prop where
  counted : n.sequence = start + n.included.length
  ordered : n.included.map (·.tx.sequence) = List.range' (start + 1) n.included.length
  received : ∀ x ∈ n.included, x.tx ∈ n.received
  inTime : ∀ x ∈ n.included, x.closeTime ≤ x.tx.maxTime

theorem Ok.nodup_sequences {start : Nat} {n : Network L B R} (h : n.Ok start) :
    (n.included.map (·.tx.sequence)).Nodup := by
  rw [h.ordered]
  exact List.nodup_range'

theorem Ok.nodup {start : Nat} {n : Network L B R} (h : n.Ok start) : n.included.Nodup :=
  h.nodup_sequences.of_map

/-- One transaction for each sequence number, once. -/
theorem Ok.unique {start : Nat} {n : Network L B R} (h : n.Ok start) {x y : Inclusion B R} (hx : x ∈ n.included)
    (hy : y ∈ n.included) (he : x.tx.sequence = y.tx.sequence) : x = y :=
  List.inj_on_of_nodup_map h.nodup_sequences hx hy he

/-- What the future of a network has in common with it. -/
structure Precedes (n n' : Network L B R) : Prop where
  sequence : n.sequence ≤ n'.sequence
  closeTime : n.closeTime ≤ n'.closeTime
  received : ∀ tx ∈ n.received, tx ∈ n'.received
  included : ∃ new, n'.included = n.included ++ new ∧
    ∀ x ∈ new, n.sequence < x.tx.sequence ∧ n.closeTime ≤ x.closeTime ∧ x.closeTime ≤ x.tx.maxTime

theorem Precedes.refl (n : Network L B R) : n.Precedes n :=
  ⟨Nat.le_refl _, Nat.le_refl _, fun _ h => h, [], (List.append_nil _).symm,
      List.forall_mem_nil _⟩

theorem Precedes.trans {n n' n'' : Network L B R} (h : n.Precedes n') (h' : n'.Precedes n'') : n.Precedes n'' := by
  obtain ⟨new, hnew, hall⟩ := h.included
  obtain ⟨new', hnew', hall'⟩ := h'.included
  refine ⟨Nat.le_trans h.sequence h'.sequence, Nat.le_trans h.closeTime h'.closeTime,
    fun tx htx => h'.received tx (h.received tx htx), new ++ new', by rw [hnew', hnew, List.append_assoc],
    fun x hx => ?_⟩
  rcases List.mem_append.mp hx with hx | hx
  · exact hall x hx
  · obtain ⟨hseq, hclose, htime⟩ := hall' x hx
    exact ⟨Nat.lt_of_le_of_lt h.sequence hseq, Nat.le_trans h.closeTime hclose, htime⟩

theorem Precedes.mem {n n' : Network L B R} (h : n.Precedes n') {x : Inclusion B R} (hx : x ∈ n.included) :
    x ∈ n'.included := by
  obtain ⟨new, hnew, -⟩ := h.included
  rw [hnew]
  exact List.mem_append_left _ hx

/-- A later inclusion comes next in sequence and in a ledger to come, in time. -/
theorem Precedes.mem_cases {n n' : Network L B R} (h : n.Precedes n') {x : Inclusion B R} (hx : x ∈ n'.included) :
    x ∈ n.included ∨ n.sequence < x.tx.sequence ∧ n.closeTime ≤ x.closeTime ∧ x.closeTime ≤ x.tx.maxTime := by
  obtain ⟨new, hnew, hall⟩ := h.included
  rw [hnew] at hx
  rcases List.mem_append.mp hx with hx | hx
  · exact .inl hx
  · exact .inr (hall x hx)

/-! ## Steps and runs -/

section
variable [DecidableEq B] {execute : B → L → Option (L × R)} {other : L → E → L} {start : Nat} {n : Network L B R}

theorem Ok.apply (h : n.Ok start) (tx : Envelope B) : (n.apply execute tx).Ok start := by
  unfold Network.apply
  split
  · rename_i hc
    obtain ⟨hr, hs, ht⟩ := hc
    refine ⟨?_, ?_, fun x hx => ?_, fun x hx => ?_⟩
    · simp only [List.length_append, List.length_singleton, hs, h.counted]
      omega
    · rw [List.map_append, h.ordered, List.length_append, List.length_singleton, List.range'_concat,
        List.map_singleton, hs, h.counted]
      congr 2
      omega
    · rcases List.mem_append.mp hx with hx | hx
      · exact h.received x hx
      · rw [List.mem_singleton.mp hx]; exact hr
    · rcases List.mem_append.mp hx with hx | hx
      · exact h.inTime x hx
      · rw [List.mem_singleton.mp hx]; exact ht
  · exact h

theorem precedes_apply (n : Network L B R) (tx : Envelope B) : n.Precedes (n.apply execute tx) := by
  unfold Network.apply
  split
  · rename_i hc
    obtain ⟨hr, hs, ht⟩ := hc
    refine ⟨by rw [hs]; exact Nat.le_succ _, Nat.le_refl _, fun _ h => h, _, rfl, fun x hx => ?_⟩
    rw [List.mem_singleton.mp hx]
    exact ⟨by rw [hs]; exact Nat.lt_succ_self _, Nat.le_refl _, ht⟩
  · exact .refl n

theorem precedes_applies (n : Network L B R) (txs : List (Envelope B)) : n.Precedes (run (apply execute) n txs) :=
  run_rel Precedes .refl .trans precedes_apply n txs

theorem Ok.step (h : n.Ok start) (a : NetworkAction E B) : (n.step execute other a).Ok start := by
  cases a with
  | outside e => exact ⟨h.counted, h.ordered, h.received, h.inTime⟩
  | receive tx =>
    exact ⟨h.counted, h.ordered, fun x hx => List.mem_append_left _ (h.received x hx), h.inTime⟩
  | close time txs =>
    simp only [Network.step]
    split
    · exact run_inv (Ok start) (fun n tx h => h.apply tx) txs ⟨h.counted, h.ordered, h.received, h.inTime⟩
    · exact h

theorem precedes_step (n : Network L B R) (a : NetworkAction E B) : n.Precedes (n.step execute other a) := by
  cases a with
  | outside e => exact ⟨Nat.le_refl _, Nat.le_refl _, fun _ h => h, [], (List.append_nil _).symm,
      List.forall_mem_nil _⟩
  | receive tx =>
    exact ⟨Nat.le_refl _, Nat.le_refl _, fun _ h => List.mem_append_left _ h, [], (List.append_nil _).symm,
      List.forall_mem_nil _⟩
  | close time txs =>
    simp only [Network.step]
    split
    · rename_i ht
      refine Precedes.trans ?_ (precedes_applies _ txs)
      exact ⟨Nat.le_refl _, Nat.le_of_lt ht, fun _ h => h, [], (List.append_nil _).symm,
      List.forall_mem_nil _⟩
    · exact .refl n

/-- A ledger closes with what fits into it, at its own time. -/
theorem step_included {a : NetworkAction E B} {x : Inclusion B R} (hx : x ∈ (n.step execute other a).included)
    (hnew : x ∉ n.included) : ∃ time txs, a = .close time txs ∧ time ≤ x.closeTime ∧ x.closeTime ≤ x.tx.maxTime := by
  cases a with
  | outside | receive => exact absurd hx hnew
  | close time txs =>
    refine ⟨time, txs, rfl, ?_⟩
    simp only [Network.step] at hx
    split at hx
    · rcases (precedes_applies _ txs).mem_cases hx with hx | ⟨-, h⟩
      · exact absurd hx hnew
      · exact h
    · exact absurd hx hnew

end

end Network

end NexusHub
