import Mathlib.Data.List.Sort

/-!
# Reading a growing list page by page

The pages of a list are read one after the other while the list grows, at any
place. What is in a list only ever moves back, so whatever was not on the pages
read so far is still ahead.
-/

namespace NexusHub

open List (Sublist)

/-- Page `k` of pages of `n`, counted from 0. -/
def pageOf {α : Type} (n k : Nat) (l : List α) : List α := (l.drop (k * n)).take n

/-- `ps` are the pages from `k` on. The list was `l` at the first of them and is `m` in the end. -/
inductive PageReads {α : Type} (n : Nat) : Nat → List α → List (List α) → List α → Prop where
  | last {k : Nat} {l m : List α} (hend : l.length ≤ (k + 1) * n) (hgrow : Sublist l m) :
      PageReads n k l [pageOf n k l] m
  | more {k : Nat} {l l' m : List α} {ps : List (List α)} (hmore : (k + 1) * n ≤ l'.length) (hgrow : Sublist l l')
      (rest : PageReads n (k + 1) l' ps m) : PageReads n k l (pageOf n k l :: ps) m

section
variable {α : Type} {n k : Nat} {l m : List α} {ps : List (List α)}

theorem length_pageOf (n k : Nat) (l : List α) : (pageOf n k l).length = min n (l.length - k * n) := by
  simp [pageOf]

theorem pageOf_eq_drop (h : l.length ≤ (k + 1) * n) : pageOf n k l = l.drop (k * n) := by
  apply List.take_of_length_le
  rw [List.length_drop, Nat.add_mul, Nat.one_mul] at *
  omega

theorem pageOf_append_drop (n k : Nat) (l : List α) :
    pageOf n k l ++ l.drop ((k + 1) * n) = l.drop (k * n) := by
  rw [pageOf, Nat.add_mul, Nat.one_mul, ← List.drop_drop]
  exact List.take_append_drop n _

theorem pageOf_map {β : Type} (f : α → β) (n k : Nat) (l : List α) :
    pageOf n k (l.map f) = (pageOf n k l).map f := by
  simp [pageOf]

theorem mem_of_mem_pageOf {a : α} (h : a ∈ pageOf n k l) : a ∈ l :=
  List.mem_of_mem_drop (List.mem_of_mem_take h)

namespace PageReads

theorem grows (h : PageReads n k l ps m) : Sublist l m := by
  induction h with
  | last _ hgrow => exact hgrow
  | more _ hgrow _ ih => exact hgrow.trans ih

/-- Nothing that was ahead at the start is missed, and the order is kept. -/
theorem sublist (h : PageReads n k l ps m) : Sublist (l.drop (k * n)) ps.flatten := by
  induction h with
  | last hend => simp [pageOf_eq_drop hend]
  | @more k l l' m ps hmore hgrow rest ih =>
    rw [List.flatten_cons, ← pageOf_append_drop]
    exact (Sublist.refl _).append ((hgrow.drop _).trans ih)

theorem mem (h : PageReads n k l ps m) : ∀ a ∈ ps.flatten, a ∈ m := by
  induction h with
  | @last k l m hend hgrow =>
    intro a ha
    rw [List.flatten_singleton] at ha
    exact hgrow.mem (mem_of_mem_pageOf ha)
  | more hmore hgrow rest ih =>
    intro a ha
    rw [List.flatten_cons, List.mem_append] at ha
    rcases ha with ha | ha
    · exact (hgrow.trans rest.grows).mem (mem_of_mem_pageOf ha)
    · exact ih a ha

/-- What is read twice does not outnumber what came meanwhile. -/
theorem length_le (h : PageReads n k l ps m) (hk : k * n ≤ l.length) : ps.flatten.length + k * n ≤ m.length := by
  induction h with
  | @last k l m hend hgrow =>
    have hle := hgrow.length_le
    rw [List.flatten_singleton, length_pageOf]
    omega
  | @more k l l' m ps hmore hgrow rest ih =>
    have hrest := ih hmore
    rw [List.flatten_cons, List.length_append, length_pageOf]
    rw [Nat.add_mul, Nat.one_mul] at hrest
    omega

end PageReads

/-! ## Lists in the order of a key -/

/-- What is in one order and keeps it. -/
theorem sublist_of_keyed {key : α → Nat} (hl : l.Pairwise fun x y => key y < key x)
    (hm : m.Pairwise fun x y => key y < key x) (hsub : ∀ a ∈ l, a ∈ m) : Sublist l m := by
  have hanti : Std.Antisymm fun x y : α => key y < key x :=
    ⟨fun x y h h' => absurd (Nat.lt_trans h h') (Nat.lt_irrefl _)⟩
  have hnodup : l.Nodup := hl.imp fun h heq => absurd h (by rw [heq]; exact Nat.lt_irrefl _)
  exact List.sublist_of_subperm_of_pairwise (List.subperm_of_subset hnodup hsub) hl hm

end

end NexusHub
