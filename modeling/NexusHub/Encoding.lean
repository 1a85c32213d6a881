import NexusHub.Types

/-!
# Escrow ids and hex

The database names an escrow by a UUID, the contract by the sixteen bytes that
`Buffer.from(id without hyphens, 'hex')` yields. Node's decoder stops at the
first pair of characters that is not two hex digits.
-/

namespace NexusHub

/-! ## Hex -/

def hexDigit (n : Nat) : Char := if n < 10 then Char.ofNat (48 + n) else Char.ofNat (87 + n)

def hexVal (c : Char) : Option Nat :=
  if '0' ≤ c ∧ c ≤ '9' then some (c.toNat - 48)
  else if 'a' ≤ c ∧ c ≤ 'f' then some (c.toNat - 87)
  else if 'A' ≤ c ∧ c ≤ 'F' then some (c.toNat - 55)
  else none

def hexChars (bs : Bytes) : List Char := bs.flatMap fun b => [hexDigit (b.toNat / 16), hexDigit (b.toNat % 16)]

def decodeHexChars : List Char → Bytes
  | a :: b :: rest =>
    match hexVal a, hexVal b with
    | some x, some y => UInt8.ofNat (16 * x + y) :: decodeHexChars rest
    | _, _ => []
  | _ => []

/-- `Buffer.from(s, 'hex')` -/
def bufferFromHex (s : String) : Bytes := decodeHexChars s.toList

theorem hexVal_hexDigit : ∀ n < 16, hexVal (hexDigit n) = some n := by decide

theorem hexDigit_ne_hyphen : ∀ n < 16, hexDigit n ≠ '-' := by decide

theorem decodeHexChars_hexChars (bs : Bytes) : decodeHexChars (hexChars bs) = bs := by
  induction bs with
  | nil => rfl
  | cons b bs ih =>
    have hb := b.toNat_lt
    have h1 := hexVal_hexDigit (b.toNat / 16) (by omega)
    have h2 := hexVal_hexDigit (b.toNat % 16) (by omega)
    have hsum : 16 * (b.toNat / 16) + b.toNat % 16 = b.toNat := by omega
    have hcons : hexChars (b :: bs) = hexDigit (b.toNat / 16) :: hexDigit (b.toNat % 16) :: hexChars bs := rfl
    rw [hcons, decodeHexChars, h1, h2]
    simp only [hsum, UInt8.ofNat_toNat, ih]

theorem of_mem_hexChars {P : Char → Prop} (hP : ∀ n < 16, P (hexDigit n)) {bs : Bytes} {c : Char}
    (h : c ∈ hexChars bs) : P c := by
  obtain ⟨b, -, h⟩ := List.mem_flatMap.mp h
  have hb := b.toNat_lt
  simp only [List.mem_cons, List.not_mem_nil, or_false] at h
  rcases h with rfl | rfl
  · exact hP _ (by omega)
  · exact hP _ (by omega)

theorem hyphen_notMem_hexChars (bs : Bytes) : '-' ∉ hexChars bs :=
  fun h => of_mem_hexChars (P := (· ≠ '-')) hexDigit_ne_hyphen h rfl

theorem length_hexChars (bs : Bytes) : (hexChars bs).length = 2 * bs.length := by
  induction bs with
  | nil => rfl
  | cons b bs ih =>
    change (hexChars bs).length + 2 = _
    rw [ih, List.length_cons]; omega

/-! ### Texts that are hex

Decoding gives back what was encoded, and nothing else: it loses every text that is
not made of pairs of digits. -/

def hexText (bs : Bytes) : String := String.ofList (hexChars bs)

def IsHexText (cs : List Char) : Prop := 2 ∣ cs.length ∧ ∀ c ∈ cs, (hexVal c).isSome

instance (cs : List Char) : Decidable (IsHexText cs) :=
  @instDecidableAnd _ _ _ (List.decidableBAll (fun c => (hexVal c).isSome = true) cs)

theorem hexVal_ascii {c : Char} (h : (hexVal c).isSome) : c.toNat < 128 := by
  unfold hexVal at h
  split at h
  · rename_i hc; exact lt_of_le_of_lt (Char.le_def.mp hc.2) (by decide)
  split at h
  · rename_i hc; exact lt_of_le_of_lt (Char.le_def.mp hc.2) (by decide)
  split at h
  · rename_i hc; exact lt_of_le_of_lt (Char.le_def.mp hc.2) (by decide)
  · cases h

theorem hexDigit_of_hexVal {c : Char} {n : Nat} (h : hexVal c = some n) : n < 16 ∧ hexDigit n = c.toLower := by
  have hall : ∀ k < 128, ∀ n ∈ hexVal (Char.ofNat k), n < 16 ∧ hexDigit n = (Char.ofNat k).toLower := by decide
  have hc := hall c.toNat (hexVal_ascii (by rw [h]; rfl))
  rw [Char.ofNat_toNat] at hc
  exact hc n h

theorem hexVal_of_toLower {c : Char} (h : (hexVal c.toLower).isSome) : (hexVal c).isSome := by
  have hall : ∀ k < 128, (hexVal (Char.ofNat k).toLower).isSome → (hexVal (Char.ofNat k)).isSome := by decide
  by_cases hup : c.val ≥ 'A'.val ∧ c.val ≤ 'Z'.val
  · have hc := hall c.toNat (lt_of_le_of_lt hup.2 (by decide))
    rw [Char.ofNat_toNat] at hc
    exact hc h
  · have hsame : c.toLower = c := dif_neg hup
    rwa [hsame] at h

theorem hexChars_decodeHexChars : ∀ {cs : List Char}, IsHexText cs →
    hexChars (decodeHexChars cs) = cs.map Char.toLower
  | [], _ => rfl
  | [_], h => absurd h.1 (by simp)
  | a :: b :: rest, h => by
    obtain ⟨x, hx⟩ := Option.isSome_iff_exists.mp (h.2 a (List.mem_cons_self ..))
    obtain ⟨y, hy⟩ := Option.isSome_iff_exists.mp (h.2 b (List.mem_cons_of_mem _ (List.mem_cons_self ..)))
    obtain ⟨hx16, hxa⟩ := hexDigit_of_hexVal hx
    obtain ⟨hy16, hyb⟩ := hexDigit_of_hexVal hy
    have hrest : IsHexText rest :=
      ⟨by have := h.1; simp only [List.length_cons] at this; omega,
        fun c hc => h.2 c (List.mem_cons_of_mem _ (List.mem_cons_of_mem _ hc))⟩
    have hn : (UInt8.ofNat (16 * x + y)).toNat = 16 * x + y := by rw [UInt8.toNat_ofNat']; omega
    have hcons (c : UInt8) (bs : Bytes) :
        hexChars (c :: bs) = hexDigit (c.toNat / 16) :: hexDigit (c.toNat % 16) :: hexChars bs := rfl
    rw [decodeHexChars, hx, hy]
    simp only [hcons, hn, hexChars_decodeHexChars hrest, List.map_cons]
    rw [show (16 * x + y) / 16 = x by omega, show (16 * x + y) % 16 = y by omega, hxa, hyb]

theorem toLower_eq_ofList (s : String) : s.toLower = String.ofList (s.toList.map Char.toLower) := by
  change s.map Char.toLower = _
  rw [← String.toList_map, String.ofList_toList]

theorem hexText_bufferFromHex_iff {s : String} :
    hexText (bufferFromHex s) = s.toLower ↔ IsHexText s.toList := by
  rw [toLower_eq_ofList, hexText, String.ofList_inj]
  constructor
  · intro h
    refine ⟨⟨(bufferFromHex s).length, ?_⟩, fun c hc => hexVal_of_toLower ?_⟩
    · rw [← length_hexChars, h, List.length_map]
    · exact of_mem_hexChars (P := fun c => (hexVal c).isSome)
        (fun n hn => by rw [hexVal_hexDigit n hn]; rfl) (h ▸ List.mem_map_of_mem hc)
  · exact hexChars_decodeHexChars

/-! ## UUIDs -/

structure Uuid where
  bytes : Bytes
  length_eq : bytes.length = 16
  deriving DecidableEq

def hyphenate (cs : List Char) : List Char :=
  cs.take 8 ++ '-' :: ((cs.drop 8).take 4 ++ '-' :: ((cs.drop 12).take 4 ++ '-' :: ((cs.drop 16).take 4 ++
    '-' :: cs.drop 20)))

def Uuid.text (u : Uuid) : String := String.ofList (hyphenate (hexChars u.bytes))

def stripHyphens (s : String) : String := String.ofList (s.toList.filter (· ≠ '-'))

def escrowIdToBytes (escrowId : String) : Bytes := bufferFromHex (stripHyphens escrowId)

theorem filter_hyphenate {cs : List Char} (h : '-' ∉ cs) : (hyphenate cs).filter (· ≠ '-') = cs := by
  have hkeep (ds : List Char) (hs : ds.Sublist cs) : ds.filter (· ≠ '-') = ds :=
    List.filter_eq_self.mpr fun c hc => by
      have : c ≠ '-' := fun he => h (he ▸ hs.subset hc)
      simpa using this
  have hdrop (n k : Nat) : (cs.drop n).take k ++ cs.drop (n + k) = cs.drop n := by
    rw [← List.drop_drop]; exact List.take_append_drop k (cs.drop n)
  have hmid (n k : Nat) := hkeep _ ((List.take_sublist k (cs.drop n)).trans (List.drop_sublist n cs))
  simp only [hyphenate, List.filter_append, List.filter_cons, ne_eq, not_true_eq_false, decide_false,
    Bool.false_eq_true, ite_false] at hkeep hmid ⊢
  rw [hkeep _ (List.take_sublist 8 cs), hmid, hmid, hmid, hkeep _ (List.drop_sublist 20 cs)]
  rw [hdrop 16 4, hdrop 12 4, hdrop 8 4, List.take_append_drop]

theorem bufferFromHex_stripHyphens (u : Uuid) : bufferFromHex (stripHyphens u.text) = u.bytes := by
  unfold bufferFromHex stripHyphens Uuid.text
  rw [String.toList_ofList, String.toList_ofList, filter_hyphenate (hyphen_notMem_hexChars u.bytes)]
  exact decodeHexChars_hexChars u.bytes

theorem escrowIdToBytes_text (u : Uuid) : escrowIdToBytes u.text = u.bytes := bufferFromHex_stripHyphens u

theorem Uuid.bytes_injective {u v : Uuid} (h : u.bytes = v.bytes) : u = v := by
  cases u; cases v; cases h; rfl

theorem Uuid.text_injective {u v : Uuid} (h : u.text = v.text) : u = v :=
  bytes_injective (by rw [← escrowIdToBytes_text u, h, escrowIdToBytes_text v])

/-! ### Canonical texts -/

def IsLowerHex (c : Char) : Prop := ('0' ≤ c ∧ c ≤ '9') ∨ ('a' ≤ c ∧ c ≤ 'f')

instance (c : Char) : Decidable (IsLowerHex c) := inferInstanceAs (Decidable (_ ∨ _))

/-- 32 lower-case digits in groups of 8, 4, 4, 4 and 12, with hyphens in between. -/
def IsUuidText (s : String) : Prop :=
  ∃ cs : List Char, cs.length = 32 ∧ (∀ c ∈ cs, IsLowerHex c) ∧ s = String.ofList (hyphenate cs)

def uuidText (bs : Bytes) : String := String.ofList (hyphenate (hexChars bs))

theorem hexVal_of_isLowerHex {c : Char} (h : IsLowerHex c) : (hexVal c).isSome := by
  unfold hexVal
  rcases h with h | h
  · rw [if_pos h]; rfl
  · rw [if_pos h]
    split
    · rfl
    · rfl

theorem toLower_of_isLowerHex {c : Char} (h : IsLowerHex c) : c.toLower = c := by
  have hall : ∀ k < 128, IsLowerHex (Char.ofNat k) → (Char.ofNat k).toLower = Char.ofNat k := by decide
  have hc := hall c.toNat (hexVal_ascii (hexVal_of_isLowerHex h))
  rw [Char.ofNat_toNat] at hc
  exact hc h

theorem isLowerHex_hexDigit : ∀ n < 16, IsLowerHex (hexDigit n) := by decide

theorem isUuidText_iff {s : String} : IsUuidText s ↔ ∃ u : Uuid, u.text = s := by
  constructor
  · rintro ⟨cs, hlen, hlow, rfl⟩
    have hhex : IsHexText cs := ⟨by omega, fun c hc => hexVal_of_isLowerHex (hlow c hc)⟩
    have hback : hexChars (decodeHexChars cs) = cs := by
      rw [hexChars_decodeHexChars hhex]
      exact (List.map_congr_left fun c hc => toLower_of_isLowerHex (hlow c hc)).trans (List.map_id cs)
    have h16 := length_hexChars (decodeHexChars cs)
    rw [hback] at h16
    exact ⟨⟨decodeHexChars cs, by omega⟩, by rw [Uuid.text, hback]⟩
  · rintro ⟨u, rfl⟩
    have hlen := length_hexChars u.bytes
    rw [u.length_eq] at hlen
    exact ⟨hexChars u.bytes, hlen, fun c hc => of_mem_hexChars isLowerHex_hexDigit hc, rfl⟩

end NexusHub
