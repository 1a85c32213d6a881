import Mathlib.Data.Finmap
import Mathlib.Algebra.BigOperators.Group.Multiset.Basic
import Mathlib.Algebra.Order.BigOperators.Group.Multiset

/-!
# Finite stores and their totals

A store maps finitely many keys to values. `total f` adds up `f` over the
stored values; writing one key moves the total by the new value's share minus
the replaced one's. Nothing here knows what is stored.
-/

namespace NexusHub

abbrev Store (κ ν : Type) := Finmap fun _ : κ => ν

namespace Store

variable {κ ν : Type} [DecidableEq κ]

theorem lookup_eq_none_iff {s : Store κ ν} {k : κ} : s.lookup k = none ↔ k ∉ s :=
  Finmap.lookup_eq_none

theorem lookup_insert' (s : Store κ ν) (k k' : κ) (v : ν) :
    (s.insert k v).lookup k' = if k' = k then some v else s.lookup k' := by
  by_cases h : k' = k
  · subst h; simp
  · rw [Finmap.lookup_insert_of_ne s h, if_neg h]

theorem forall_insert {P : κ → ν → Prop} {s : Store κ ν} {k : κ} {v : ν} (hv : P k v)
    (hs : ∀ k' v', s.lookup k' = some v' → P k' v') :
    ∀ k' v', (s.insert k v).lookup k' = some v' → P k' v' := by
  intro k' v' h
  rw [lookup_insert'] at h
  split at h
  · rename_i hk; subst hk; cases h; exact hv
  · exact hs k' v' h

theorem isSome_insert (s : Store κ ν) (k : κ) (v : ν) (k' : κ) :
    ((s.insert k v).lookup k').isSome ↔ (s.lookup k').isSome ∨ k' ∈ some k := by
  rw [lookup_insert']
  by_cases hk : k' = k
  · simp [hk]
  · have : ¬ k = k' := fun h => hk h.symm
    simp [hk, this]

theorem filter_insert {s : Store κ ν} {k : κ} {v : ν} {p : ν → Bool} (hk : s.lookup k = none) (hv : p v = false)
    (k' : κ) : ((s.insert k v).lookup k').filter p = (s.lookup k').filter p := by
  rw [lookup_insert']
  split
  · rename_i heq
    rw [heq, hk]
    exact Option.filter_some_neg hv
  · rfl

/-! ## Rewriting every value -/

def mapValues (s : Store κ ν) (f : ν → ν) : Store κ ν where
  entries := s.entries.map fun e => ⟨e.1, f e.2⟩
  nodupKeys := by
    have h := s.nodupKeys
    rw [← Multiset.nodup_keys] at h ⊢
    have hk : (s.entries.map fun e => (⟨e.1, f e.2⟩ : Sigma fun _ : κ => ν)).keys = s.entries.keys := by
      simp [Multiset.keys, Multiset.map_map]
    rw [hk]; exact h

theorem lookup_mapValues (s : Store κ ν) (f : ν → ν) (k : κ) : (mapValues s f).lookup k =
    (s.lookup k).map f := by
  ext v
  rw [Finmap.lookup_eq_some_iff]
  simp only [mapValues, Multiset.mem_map, Option.map_eq_some_iff]
  constructor
  · rintro ⟨⟨k', v'⟩, hm, he⟩
    cases he
    exact ⟨v', Finmap.lookup_eq_some_iff.mpr hm, rfl⟩
  · rintro ⟨v', hv, rfl⟩
    exact ⟨⟨k, v'⟩, Finmap.lookup_eq_some_iff.mp hv, rfl⟩

/-! ## Selecting rows -/

/-- The entries whose value satisfies a condition. -/
def rows (s : Store κ ν) (p : ν → Bool) : Multiset (Sigma fun _ : κ => ν) := s.entries.filter fun e => p e.2

theorem mem_rows {s : Store κ ν} {p : ν → Bool} {e : Sigma fun _ : κ => ν} :
    e ∈ s.rows p ↔ s.lookup e.1 = some e.2 ∧ p e.2 := by
  rw [rows, Multiset.mem_filter, ← Finmap.mem_lookup_iff]; rfl

theorem rows_congr {s t : Store κ ν} {p : ν → Bool}
    (h : ∀ k, (s.lookup k).filter p = (t.lookup k).filter p) : s.rows p = t.rows p := by
  refine (Multiset.Nodup.ext (s.nodup_entries.filter _) (t.nodup_entries.filter _)).mpr fun e => ?_
  have hmem (u : Store κ ν) : e ∈ u.rows p ↔ (u.lookup e.1).filter p = some e.2 := by
    rw [mem_rows, Option.filter_eq_some_iff]
  exact (hmem s).trans (by rw [h e.1]; exact (hmem t).symm)

/-! ## Totals -/

section
variable {M : Type} [AddCommMonoid M]

def total (s : Store κ ν) (f : ν → M) : M := (s.entries.map fun e => f e.2).sum

omit [DecidableEq κ] in
@[simp] theorem total_empty (f : ν → M) : total (∅ : Store κ ν) f = 0 := rfl

theorem total_insert_new {s : Store κ ν} {k : κ} (h : s.lookup k = none) (v : ν) (f : ν → M) :
    total (s.insert k v) f = f v + total s f := by
  unfold total
  rw [Finmap.entries_insert_of_notMem (lookup_eq_none_iff.mp h), Multiset.map_cons, Multiset.sum_cons]

theorem insert_erase {s : Store κ ν} {k : κ} {v : ν} (h : s.lookup k = some v) :
    (s.erase k).insert k v = s := by
  apply Finmap.ext_lookup; intro x
  by_cases hx : x = k
  · subst hx; simp [h]
  · rw [Finmap.lookup_insert_of_ne _ hx, Finmap.lookup_erase_ne hx]

theorem erase_insert (s : Store κ ν) (k : κ) (v : ν) : (s.insert k v).erase k = s.erase k := by
  apply Finmap.ext_lookup; intro x
  by_cases hx : x = k
  · subst hx; simp
  · rw [Finmap.lookup_erase_ne hx, Finmap.lookup_erase_ne hx, Finmap.lookup_insert_of_ne s hx]

theorem total_split {s : Store κ ν} {k : κ} {v : ν} (h : s.lookup k = some v) (f : ν → M) :
    total s f = f v + total (s.erase k) f := by
  conv_lhs => rw [← insert_erase h]
  exact total_insert_new (by simp) v f

theorem total_update {s : Store κ ν} {k : κ} {v : ν} (h : s.lookup k = some v) (w : ν) (f : ν → M) :
    f v + total (s.insert k w) f = f w + total s f := by
  rw [total_split (Finmap.lookup_insert s : (s.insert k w).lookup k = some w), total_split h, erase_insert]
  ac_rfl

end

theorem total_nonneg {s : Store κ ν} {f : ν → Int} (hf : ∀ k v, s.lookup k = some v → 0 ≤ f v) :
    0 ≤ total s f := by
  apply Multiset.sum_nonneg
  intro x hx
  obtain ⟨e, he, rfl⟩ := Multiset.mem_map.mp hx
  exact hf e.1 e.2 (Finmap.lookup_eq_some_iff.mpr he)

theorem le_total {s : Store κ ν} {f : ν → Int} (hf : ∀ k v, s.lookup k = some v → 0 ≤ f v)
    {k : κ} {v : ν} (h : s.lookup k = some v) : f v ≤ total s f := by
  rw [total_split h]
  have : 0 ≤ total (s.erase k) f := total_nonneg fun k' v' h' => by
    by_cases hk : k' = k
    · subst hk; simp at h'
    · rw [Finmap.lookup_erase_ne hk] at h'; exact hf k' v' h'
  omega

end Store

end NexusHub
