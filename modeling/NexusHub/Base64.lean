import Mathlib.Data.List.Basic

/-!
# Base64

Groups of three bytes are four digits of six bits, a shorter last group is one
digit more than it has bytes, filled up with `=`. Decoding is lenient: it goes up
to the first `=`, takes digits of either alphabet and skips everything else.
-/

namespace NexusHub.Base64

def alphabet : List Char := "ABCDEFGHIJKLMNOPQRSTUVWXYZabcdefghijklmnopqrstuvwxyz0123456789+/".toList

def digit (n : Nat) : Char := alphabet.getD n 'A'

/-- `-` and `_` are the digits of the other alphabet. -/
def value (c : Char) : Option Nat :=
  if c = '-' then some 62 else if c = '_' then some 63 else alphabet.idxOf? c

/-- The digits of the bytes, as numbers. -/
def toSextets : List UInt8 → List Nat
  | [] => []
  | [a] => [a.toNat / 4, a.toNat % 4 * 16]
  | [a, b] => [a.toNat / 4, a.toNat % 4 * 16 + b.toNat / 16, b.toNat % 16 * 4]
  | a :: b :: c :: rest =>
    a.toNat / 4 :: (a.toNat % 4 * 16 + b.toNat / 16) :: (b.toNat % 16 * 4 + c.toNat / 64) :: c.toNat % 64 ::
      toSextets rest

/-- A single digit at the end is too short for a byte. -/
def ofSextets : List Nat → List UInt8
  | [] | [_] => []
  | [p, q] => [.ofNat (p * 4 + q / 16)]
  | [p, q, r] => [.ofNat (p * 4 + q / 16), .ofNat (q % 16 * 16 + r / 4)]
  | p :: q :: r :: t :: rest =>
    .ofNat (p * 4 + q / 16) :: .ofNat (q % 16 * 16 + r / 4) :: .ofNat (r % 4 * 64 + t) :: ofSextets rest

def encode (bytes : List UInt8) : String :=
  .ofList ((toSextets bytes).map digit ++ List.replicate ((3 - bytes.length % 3) % 3) '=')

def decode (text : String) : List UInt8 := ofSextets ((text.toList.takeWhile (· ≠ '=')).filterMap value)

/-! ## Round trip -/

theorem value_digit : ∀ n < 64, value (digit n) = some n := by decide +kernel

theorem digit_ne : ∀ n < 64, digit n ≠ '=' := by decide +kernel

theorem toSextets_lt (bytes : List UInt8) : ∀ n ∈ toSextets bytes, n < 64 := by
  fun_induction toSextets bytes with
  | case1 => exact List.forall_mem_nil _
  | case2 a =>
    have ha := a.toNat_lt
    simp only [List.forall_mem_cons, List.not_mem_nil, false_implies, implies_true, and_true]
    omega
  | case3 a b =>
    have ha := a.toNat_lt
    have hb := b.toNat_lt
    simp only [List.forall_mem_cons, List.not_mem_nil, false_implies, implies_true, and_true]
    omega
  | case4 a b c rest ih =>
    have ha := a.toNat_lt
    have hb := b.toNat_lt
    have hc := c.toNat_lt
    simp only [List.forall_mem_cons]
    exact ⟨by omega, by omega, by omega, by omega, ih⟩

theorem ofNat_eq {n : Nat} {a : UInt8} (h : n = a.toNat) : UInt8.ofNat n = a := by
  rw [h, UInt8.ofNat_toNat]

theorem ofSextets_toSextets (bytes : List UInt8) : ofSextets (toSextets bytes) = bytes := by
  fun_induction toSextets bytes with
  | case1 => rfl
  | case2 a =>
    have ha := a.toNat_lt
    rw [ofSextets, ofNat_eq (a := a) (by omega)]
  | case3 a b =>
    have ha := a.toNat_lt
    have hb := b.toNat_lt
    rw [ofSextets, ofNat_eq (a := a) (by omega), ofNat_eq (a := b) (by omega)]
  | case4 a b c rest ih =>
    have ha := a.toNat_lt
    have hb := b.toNat_lt
    have hc := c.toNat_lt
    rw [ofSextets, ofNat_eq (a := a) (by omega), ofNat_eq (a := b) (by omega), ofNat_eq (a := c) (by omega), ih]

theorem filterMap_value {ns : List Nat} (h : ∀ n ∈ ns, n < 64) : (ns.map digit).filterMap value = ns := by
  induction ns with
  | nil => rfl
  | cons n ns ih =>
    rw [List.map_cons, List.filterMap_cons_some (value_digit n (h n (List.mem_cons_self ..))),
      ih fun m hm => h m (List.mem_cons_of_mem _ hm)]

theorem takeWhile_digits {ns : List Nat} (h : ∀ n ∈ ns, n < 64) (k : Nat) :
    (ns.map digit ++ List.replicate k '=').takeWhile (· ≠ '=') = ns.map digit := by
  have hdigits : ∀ c ∈ ns.map digit, decide (c ≠ '=') = true := by
    intro c hc
    obtain ⟨n, hn, rfl⟩ := List.mem_map.mp hc
    exact decide_eq_true (digit_ne n (h n hn))
  rw [List.takeWhile_append_of_pos hdigits]
  cases k with
  | zero => exact List.append_nil _
  | succ k => simp [List.replicate_succ]

theorem decode_encode (bytes : List UInt8) : decode (encode bytes) = bytes := by
  rw [decode, encode, String.toList_ofList, takeWhile_digits (toSextets_lt bytes), filterMap_value (toSextets_lt bytes),
    ofSextets_toSextets]

end NexusHub.Base64
