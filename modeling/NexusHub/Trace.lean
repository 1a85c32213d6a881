import Mathlib.Data.List.Basic

/-!
# Runs of a deterministic machine

`run step s as` feeds the inputs `as` to a machine one after the other. An
invariant is proved once per step and holds after every run; `Meets` is for
invariants that need something of each step taken, `meets_iff_along` for those
that need exactly that, `run_origin` traces what holds at the end back to the
step that brought it about, and `run_project` follows what can be seen of a machine.
-/

namespace NexusHub

variable {σ ι : Type}

def run (step : σ → ι → σ) (s : σ) (as : List ι) : σ := as.foldl step s

@[simp] theorem run_nil (step : σ → ι → σ) (s : σ) : run step s [] = s := rfl

@[simp] theorem run_cons (step : σ → ι → σ) (s : σ) (a : ι) (as : List ι) :
    run step s (a :: as) = run step (step s a) as := rfl

theorem run_append (step : σ → ι → σ) (s : σ) (as bs : List ι) :
    run step s (as ++ bs) = run step (run step s as) bs := List.foldl_append

theorem run_inv {step : σ → ι → σ} (I : σ → Prop) (hstep : ∀ s a, I s → I (step s a)) :
    ∀ {s : σ} (as : List ι), I s → I (run step s as)
  | _, [], h => h
  | s, a :: as, h => run_inv I hstep as (hstep s a h)

theorem run_rel {step : σ → ι → σ} (R : σ → σ → Prop) (hrefl : ∀ s, R s s)
    (htrans : ∀ {s t u}, R s t → R t u → R s u) (hstep : ∀ s a, R s (step s a)) :
    ∀ (s : σ) (as : List ι), R s (run step s as)
  | s, [] => hrefl s
  | s, a :: as => htrans (hstep s a) (run_rel R hrefl htrans hstep (step s a) as)

/-- Every step of the run satisfies `P` in the state it is taken from. -/
def Meets (step : σ → ι → σ) (P : σ → ι → Prop) : σ → List ι → Prop
  | _, [] => True
  | s, a :: as => P s a ∧ Meets step P (step s a) as

instance Meets.decidable {step : σ → ι → σ} {P : σ → ι → Prop} [∀ s a, Decidable (P s a)] :
    ∀ (s : σ) (as : List ι), Decidable (Meets step P s as)
  | _, [] => .isTrue trivial
  | s, a :: as =>
    have : Decidable (Meets step P (step s a) as) := Meets.decidable (step s a) as
    inferInstanceAs (Decidable (P s a ∧ Meets step P (step s a) as))

theorem meets_append {step : σ → ι → σ} {P : σ → ι → Prop} :
    ∀ {s : σ} (as bs : List ι), Meets step P s (as ++ bs) ↔ Meets step P s as ∧ Meets step P (run step s as) bs
  | _, [], _ => by simp [Meets]
  | s, a :: as, bs => by simp [Meets, meets_append as bs, and_assoc]

theorem run_inv_of_meets {step : σ → ι → σ} {P : σ → ι → Prop} (I : σ → Prop)
    (hstep : ∀ s a, P s a → I s → I (step s a)) :
    ∀ {s : σ} (as : List ι), Meets step P s as → I s → I (run step s as)
  | _, [], _, h => h
  | s, a :: as, hm, h => run_inv_of_meets I hstep as hm.2 (hstep s a hm.1 h)

/-- Along a run an invariant holds wherever a step is taken. -/
theorem Meets.imp {step : σ → ι → σ} {H P Q : σ → ι → Prop} (I : σ → Prop)
    (hstep : ∀ s a, H s a → I s → I (step s a)) (himp : ∀ s a, I s → P s a → Q s a) :
    ∀ {s : σ} {as : List ι}, Meets step H s as → I s → Meets step P s as → Meets step Q s as
  | _, [], _, _, _ => trivial
  | s, a :: _, hH, h, hP => ⟨himp s a h hP.1, Meets.imp I hstep himp hH.2 (hstep s a hH.1 h) hP.2⟩

/-- What holds after a run and did not hold before it came to hold at some step. -/
theorem run_origin {step : σ → ι → σ} (P : σ → Prop) :
    ∀ {s : σ} (as : List ι), ¬ P s → P (run step s as) →
      ∃ front a rest, as = front ++ a :: rest ∧ ¬ P (run step s front) ∧ P (step (run step s front) a)
  | _, [], h0, h => absurd h h0
  | s, a :: as, h0, h => by
    by_cases ha : P (step s a)
    · exact ⟨[], a, as, rfl, h0, ha⟩
    · obtain ⟨front, a', rest, rfl, h1, h2⟩ := run_origin P as ha h
      exact ⟨a :: front, a', rest, rfl, h1, h2⟩

/-- What is seen of a machine runs by itself, on the steps that can be seen. -/
theorem run_project {τ : Type} {step : σ → ι → σ} {step' : τ → ι → τ} {P : σ → ι → Prop} (I : σ → Prop)
    (view : σ → τ) (visible : ι → Bool) (hinv : ∀ s a, P s a → I s → I (step s a))
    (hshown : ∀ s a, P s a → I s → visible a = true → view (step s a) = step' (view s) a)
    (hhidden : ∀ s a, P s a → I s → visible a = false → view (step s a) = view s) :
    ∀ {s : σ} (as : List ι), Meets step P s as → I s →
      view (run step s as) = run step' (view s) (as.filter visible)
  | _, [], _, _ => rfl
  | s, a :: as, hm, h => by
    have ih := run_project I view visible hinv hshown hhidden as hm.2 (hinv s a hm.1 h)
    cases ha : visible a with
    | true => rw [run_cons, ih, hshown s a hm.1 h ha, List.filter_cons_of_pos ha, run_cons]
    | false => rw [run_cons, ih, hhidden s a hm.1 h ha, List.filter_cons_of_neg (by simp [ha])]

theorem meets_true {step : σ → ι → σ} : ∀ {s : σ} (as : List ι), Meets step (fun _ _ => True) s as
  | _, [] => trivial
  | _, _ :: as => ⟨trivial, meets_true as⟩

theorem meets_of_forall {step : σ → ι → σ} {P : ι → Prop} :
    ∀ {s : σ} (as : List ι), (∀ a ∈ as, P a) → Meets step (fun _ a => P a) s as
  | _, [], _ => trivial
  | _, a :: as, h => ⟨h a (List.mem_cons_self ..), meets_of_forall as fun b hb => h b (List.mem_cons_of_mem _ hb)⟩

/-- In runs whose steps are all in `H`, where a step out of `P` breaks `Q`, the
steps are in `P` exactly if `Q` holds all along. -/
theorem meets_iff_along_of {step : σ → ι → σ} {H P : σ → ι → Prop} (I Q : σ → Prop) (hQ : ∀ s, I s → Q s)
    (hstep : ∀ s a, H s a → P s a → I s → I (step s a)) (hbad : ∀ s a, H s a → I s → ¬ P s a →
    ¬ Q (step s a)) {s : σ} (as : List ι) (hH : Meets step H s as) (h : I s) :
    Meets step P s as ↔ ∀ front, front <+: as → Q (run step s front) := by
  induction as generalizing s with
  | nil =>
    refine ⟨fun _ front hf => ?_, fun _ => trivial⟩
    rw [List.prefix_nil.mp hf]
    exact hQ s h
  | cons a as ih =>
    by_cases ha : P s a
    · have h' := hstep s a hH.1 ha h
      simp only [Meets, ha, true_and, ih hH.2 h']
      constructor
      · intro hall front hf
        rcases List.prefix_cons_iff.mp hf with rfl | ⟨front', rfl, hf'⟩
        · exact hQ s h
        · exact hall front' hf'
      · exact fun hall front hf => hall (a :: front) (List.cons_prefix_cons.mpr ⟨rfl, hf⟩)
    · refine ⟨fun hm => absurd hm.1 ha, fun hall => absurd (hall [a] ?_) (hbad s a hH.1 h ha)⟩
      exact List.cons_prefix_cons.mpr ⟨rfl, List.nil_prefix⟩

theorem meets_iff_along {step : σ → ι → σ} {P : σ → ι → Prop} (I Q : σ → Prop) (hQ : ∀ s, I s → Q s)
    (hstep : ∀ s a, P s a → I s → I (step s a)) (hbad : ∀ s a, I s → ¬ P s a → ¬ Q (step s a)) {s : σ}
    (as : List ι) (h : I s) : Meets step P s as ↔ ∀ front, front <+: as → Q (run step s front) :=
  meets_iff_along_of I Q hQ (fun s a _ => hstep s a) (fun s a _ => hbad s a) as (meets_true as) h

end NexusHub
