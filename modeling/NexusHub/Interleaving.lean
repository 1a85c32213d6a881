import NexusHub.Trace

/-!
# Orders of independent inputs

Inputs of a machine are independent when it makes no difference which of two
neighbours comes first. Lists that agree on every pair of inputs that are not
independent can be turned into one another by exchanging independent neighbours,
so a machine ends alike after both. Nothing here knows the machine.
-/

namespace NexusHub

/-- Exchanging independent neighbours turns one list into the other. -/
inductive Reorders {ι : Type} (Ind : ι → ι → Prop) : List ι → List ι → Prop where
  | refl (as : List ι) : Reorders Ind as as
  | cons (a : ι) {as bs : List ι} (h : Reorders Ind as bs) : Reorders Ind (a :: as) (a :: bs)
  | swap {a b : ι} (h : Ind a b) (as : List ι) : Reorders Ind (a :: b :: as) (b :: a :: as)
  | trans {as bs cs : List ι} (h : Reorders Ind as bs) (h' : Reorders Ind bs cs) : Reorders Ind as cs

section
variable {σ ι : Type} {step : σ → ι → σ} {Ind : ι → ι → Prop}

/-! ## Runs -/

/-- `E` is a reading of the states that steps respect and that does not tell the two orders of an
independent pair apart. -/
theorem run_of_reorders {I : σ → Prop} {E : σ → σ → Prop} (hI : ∀ s a, I s → I (step s a)) (hrefl : ∀ s, E s s)
    (htrans : ∀ {s t u}, E s t → E t u → E s u)
    (hstep : ∀ s t a, I s → I t → E s t → E (step s a) (step t a))
    (hswap : ∀ s a b, I s → Ind a b → E (step (step s a) b) (step (step s b) a)) {as bs : List ι}
    (h : Reorders Ind as bs) : ∀ {s : σ}, I s → E (run step s as) (run step s bs) := by
  have hrun : ∀ (as : List ι) {s t : σ}, I s → I t → E s t → E (run step s as) (run step t as) := by
    intro as
    induction as with
    | nil => exact fun _ _ h => h
    | cons a as ih => exact fun hs ht h => ih (hI _ a hs) (hI _ a ht) (hstep _ _ a hs ht h)
  induction h with
  | refl as => exact fun _ => hrefl _
  | cons a h ih => exact fun hs => ih (hI _ a hs)
  | @swap a b h as =>
    intro s hs
    exact hrun as (hI _ b (hI _ a hs)) (hI _ a (hI _ b hs)) (hswap s a b hs h)
  | trans h h' ih ih' => exact fun hs => htrans (ih hs) (ih' hs)

/-! ## Which lists can be reordered -/

/-- What is independent of everything before it comes first. -/
theorem Reorders.to_front {a : ι} : ∀ {front : List ι} (back : List ι), (∀ b ∈ front, Ind b a) →
    Reorders Ind (front ++ a :: back) (a :: (front ++ back))
  | [], _, _ => .refl _
  | b :: front, back, h =>
    .trans (.cons b (to_front back fun c hc => h c (List.mem_cons_of_mem _ hc)))
      (.swap (h b (List.mem_cons_self ..)) (front ++ back))

variable [DecidableEq ι]

/-- The occurrences of two inputs, in their order. -/
def pairOf (a b : ι) (as : List ι) : List ι := as.filter fun c => c = a ∨ c = b

theorem pairOf_append (a b : ι) (as bs : List ι) : pairOf a b (as ++ bs) = pairOf a b as ++ pairOf a b bs :=
  List.filter_append ..

theorem pairOf_cons_of_mem {a b c : ι} (h : c = a ∨ c = b) (as : List ι) :
    pairOf a b (c :: as) = c :: pairOf a b as := List.filter_cons_of_pos (decide_eq_true h)

theorem pairOf_cons_of_not_mem {a b c : ι} (h : ¬ (c = a ∨ c = b)) (as : List ι) :
    pairOf a b (c :: as) = pairOf a b as := List.filter_cons_of_neg (by simpa using h)

theorem pairOf_eq_nil {a b : ι} {as : List ι} (h : ∀ c ∈ as, ¬ (c = a ∨ c = b)) : pairOf a b as = [] :=
  List.filter_eq_nil_iff.mpr fun c hc => by simpa using h c hc

/-- Lists that agree on the pairs that are not independent. -/
def AgreeOnPairs (Ind : ι → ι → Prop) (as bs : List ι) : Prop :=
  ∀ a b, ¬ Ind a b → pairOf a b as = pairOf a b bs

theorem agreeOnPairs_swap {a b : ι} (h : Ind a b) (hsymm : ∀ {a b}, Ind a b → Ind b a) (as : List ι) :
    AgreeOnPairs Ind (a :: b :: as) (b :: a :: as) := by
  rcases eq_or_ne a b with rfl | hne
  · exact fun _ _ _ => rfl
  intro x y hdep
  by_cases ha : a = x ∨ a = y
  · have hb : ¬ (b = x ∨ b = y) := by
      intro hb
      rcases ha with rfl | rfl
      · exact hdep (hb.resolve_left hne.symm ▸ h)
      · exact hdep (hb.resolve_right hne.symm ▸ hsymm h)
    rw [pairOf_cons_of_mem ha, pairOf_cons_of_not_mem hb, pairOf_cons_of_not_mem hb, pairOf_cons_of_mem ha]
  · rw [pairOf_cons_of_not_mem ha]
    by_cases hb : b = x ∨ b = y
    · rw [pairOf_cons_of_mem hb, pairOf_cons_of_mem hb, pairOf_cons_of_not_mem ha]
    · rw [pairOf_cons_of_not_mem hb, pairOf_cons_of_not_mem hb, pairOf_cons_of_not_mem ha]

/-- The inputs in `p` can go first when they are independent of the others. -/
theorem agreeOnPairs_partition {p : ι → Bool} {as : List ι}
    (h : ∀ a ∈ as, ∀ b ∈ as, p a ≠ p b → Ind a b) :
    AgreeOnPairs Ind as (as.filter p ++ as.filter fun a => !p a) := by
  intro a b hdep
  -- the two inputs of a pair are on one side
  have hside : ∃ v, ∀ c ∈ as, c = a ∨ c = b → p c = v := by
    by_cases ha : a ∈ as
    · refine ⟨p a, fun c hc hcab => ?_⟩
      rcases hcab with rfl | rfl
      · rfl
      · by_contra hne
        exact hdep (h a ha c hc fun heq => hne heq.symm)
    · refine ⟨p b, fun c hc hcab => ?_⟩
      rcases hcab with rfl | rfl
      · exact absurd hc ha
      · rfl
  obtain ⟨v, hv⟩ := hside
  rw [pairOf_append]
  have hall (q : ι → Bool) (hq : ∀ c ∈ as, c = a ∨ c = b → q c = true) :
      pairOf a b (as.filter q) = pairOf a b as := by
    simp only [pairOf, List.filter_filter]
    refine List.filter_congr fun c hc => ?_
    by_cases hcab : c = a ∨ c = b
    · simp [hcab, hq c hc hcab]
    · simp [hcab]
  have hnone (q : ι → Bool) (hq : ∀ c ∈ as, c = a ∨ c = b → q c = false) : pairOf a b (as.filter q) = [] := by
    refine pairOf_eq_nil fun c hc hcab => ?_
    obtain ⟨hc, hqc⟩ := List.mem_filter.mp hc
    exact Bool.false_ne_true ((hq c hc hcab).symm.trans hqc)
  cases v with
  | true => rw [hall p hv, hnone _ fun c hc hcab => by rw [hv c hc hcab]; rfl, List.append_nil]
  | false => rw [hnone p hv, hall _ fun c hc hcab => by rw [hv c hc hcab]; rfl, List.nil_append]

theorem reorders_of_pairs (hirrefl : ∀ a, ¬ Ind a a) (hsymm : ∀ {a b}, Ind a b → Ind b a) :
    ∀ {as bs : List ι}, AgreeOnPairs Ind as bs → Reorders Ind bs as
  | [], bs, h => by
    cases bs with
    | nil => exact .refl _
    | cons b bs =>
      have hb := h b b (hirrefl b)
      rw [pairOf_cons_of_mem (.inl rfl)] at hb
      cases hb
  | a :: as, bs, h => by
    have hhead := h a a (hirrefl a)
    rw [pairOf_cons_of_mem (.inl rfl)] at hhead
    have hmem : a ∈ bs := by
      have : a ∈ pairOf a a bs := hhead ▸ List.mem_cons_self ..
      exact (List.mem_filter.mp this).1
    obtain ⟨front, back, hbs, hfirst⟩ := List.eq_append_cons_of_mem hmem
    subst hbs
    -- whatever comes before the first `a` of the other list is independent of it
    have hfront : ∀ b ∈ front, Ind b a := by
      intro b hb
      by_contra hdep
      have hpair := h b a hdep
      rw [pairOf_cons_of_mem (.inr rfl), pairOf_append] at hpair
      cases hf : pairOf b a front with
      | nil =>
        have hin : b ∈ pairOf b a front := List.mem_filter.mpr ⟨hb, by simp⟩
        rw [hf] at hin
        cases hin
      | cons c cs =>
        rw [hf, List.cons_append] at hpair
        have hc : c ∈ front := (List.mem_filter.mp (hf ▸ List.mem_cons_self .. : c ∈ pairOf b a front)).1
        exact hfirst ((List.cons.inj hpair).1 ▸ hc)
    refine .trans (.to_front back hfront) (.cons a (reorders_of_pairs hirrefl hsymm fun x y hdep => ?_))
    have hpair := h x y hdep
    rw [pairOf_append] at hpair ⊢
    by_cases hxy : a = x ∨ a = y
    · have hnone : pairOf x y front = [] := by
        refine pairOf_eq_nil fun c hc hcxy => ?_
        have hca : c ≠ a := fun heq => hfirst (heq ▸ hc)
        rcases hxy with rfl | rfl
        · exact hdep (hsymm (hcxy.resolve_left hca ▸ hfront c hc))
        · exact hdep (hcxy.resolve_right hca ▸ hfront c hc)
      rw [pairOf_cons_of_mem hxy, pairOf_cons_of_mem hxy, hnone, List.nil_append] at hpair
      rw [hnone]
      exact (List.cons.inj hpair).2
    · rwa [pairOf_cons_of_not_mem hxy, pairOf_cons_of_not_mem hxy] at hpair

end

end NexusHub
