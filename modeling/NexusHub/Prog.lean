import NexusHub.Trace

/-!
# Programs over fallible operations

A program performs operations on a shared state one at a time and sees the
failure of each. It runs with faults and interference injected around its
operations (`exec`), without any (`complete`), or beside other programs in a
`Pool`.

* `Always` says what every run of one program that obeys a `Regime` ends in;
* `Safe` is a rely-guarantee condition: whatever the others do within `R`,
  each operation the program performs is `ok` in the state it is performed in.
-/

namespace NexusHub

inductive Prog (Op : Type) (Res : Op → Type) (ε α : Type) where
  | pure (a : α)
  | throw (e : ε)
  | op (o : Op) (k : Except ε (Res o) → Prog Op Res ε α)

inductive Fault (ε : Type) where
  | none
  /-- The operation fails and has no effect. -/
  | lost (e : ε)
  /-- The operation takes effect and is reported as failed. -/
  | late (e : ε)
  /-- The process dies before the operation. -/
  | crash
  deriving DecidableEq

/-- The operation takes effect, whatever is heard of it. -/
def Fault.Effective {ε : Type} : Fault ε → Prop
  | .none | .late _ => True
  | .lost _ | .crash => False

instance {ε : Type} : (fault : Fault ε) → Decidable fault.Effective
  | .none | .late _ => isTrue trivial
  | .lost _ | .crash => isFalse not_false

/-- What happens around one operation: first the environment, then perhaps a fault. -/
structure Tick (ι ε : Type) where
  env : List ι
  fault : Fault ε

def Tick.calm {ι ε : Type} : Tick ι ε := ⟨[], .none⟩

inductive Outcome (ε α : Type) where
  | returned (a : α)
  | threw (e : ε)
  | crashed

def Outcome.ofExcept {ε α : Type} : Except ε α → Outcome ε α
  | .ok a => .returned a
  | .error e => .threw e

structure Machine (Op : Type) (Res : Op → Type) (ε σ ι : Type) where
  perform : σ → (o : Op) → σ × Except ε (Res o)
  env : σ → ι → σ

namespace Prog

variable {Op : Type} {Res : Op → Type} {ε α β σ ι : Type}

def bind : Prog Op Res ε α → (α → Prog Op Res ε β) → Prog Op Res ε β
  | pure a, f => f a
  | throw e, _ => throw e
  | op o k, f => op o fun r => (k r).bind f

def tryCatch : Prog Op Res ε α → (ε → Prog Op Res ε α) → Prog Op Res ε α
  | pure a, _ => pure a
  | throw e, h => h e
  | op o k, h => op o fun r => (k r).tryCatch h

/-- Perform one operation and pass its failure on. -/
def call (o : Op) : Prog Op Res ε (Res o) :=
  op o fun
    | .ok r => pure r
    | .error e => throw e

instance : Monad (Prog Op Res ε) where
  pure := pure
  bind := bind

instance : MonadExcept ε (Prog Op Res ε) where
  throw := throw
  tryCatch := tryCatch

/-! ## Runs -/

def complete (M : Machine Op Res ε σ ι) : Prog Op Res ε α → σ → σ × Except ε α
  | pure a, s => (s, .ok a)
  | throw e, s => (s, .error e)
  | op o k, s => (k (M.perform s o).2).complete M (M.perform s o).1

/-- Once the ticks are used up the program runs on undisturbed; a process may
still die after its last operation. -/
def exec (M : Machine Op Res ε σ ι) : Prog Op Res ε α → List (Tick ι ε) → σ → σ × Outcome ε α
  | pure a, ts, s => (s, match ts with | ⟨_, .crash⟩ :: _ => .crashed | _ => .returned a)
  | throw e, ts, s => (s, match ts with | ⟨_, .crash⟩ :: _ => .crashed | _ => .threw e)
  | op o k, [], s => (k (M.perform s o).2).exec M [] (M.perform s o).1
  | op o k, ⟨env, fault⟩ :: ts, s =>
    let s := run M.env s env
    match fault with
    | .none => (k (M.perform s o).2).exec M ts (M.perform s o).1
    | .lost e => (k (.error e)).exec M ts s
    | .late e => (k (.error e)).exec M ts (M.perform s o).1
    | .crash => (s, .crashed)

variable {M : Machine Op Res ε σ ι}

theorem exec_nil (p : Prog Op Res ε α) (s : σ) :
    p.exec M [] s = ((p.complete M s).1, .ofExcept (p.complete M s).2) := by
  induction p generalizing s with
  | pure a => rfl
  | throw e => rfl
  | op o k ih => exact ih _ _

/-! ## Runs under conditions -/

/-- What may happen in a run: which steps of the environment, and which faults
at which operations, `none` standing for the end of the program. Both in the
state the step is taken from. -/
structure Regime (Op σ ι ε : Type) where
  env : σ → ι → Prop
  op : σ → Option Op → Fault ε → Prop

/-- The environment keeps to `K`, and operations are faulty only if `F`. -/
def Regime.beside (M : Machine Op Res ε σ ι) (K : σ → σ → Prop) (F : Prop) : Regime Op σ ι ε where
  env := fun s i => K s (M.env s i)
  op := fun _ _ fault => fault = .none ∨ F

def Obeys (M : Machine Op Res ε σ ι) (C : Regime Op σ ι ε) : Prog Op Res ε α → List (Tick ι ε) → σ → Prop
  | pure _, ts, s | throw _, ts, s => ∀ t ∈ ts.head?, C.op s none t.fault
  | op o k, [], s => C.op s (some o) .none ∧ (k (M.perform s o).2).Obeys M C [] (M.perform s o).1
  | op o k, ⟨env, fault⟩ :: ts, s =>
    Meets M.env C.env s env ∧
      let s := run M.env s env
      C.op s (some o) fault ∧
        match fault with
        | .none => (k (M.perform s o).2).Obeys M C ts (M.perform s o).1
        | .lost e => (k (.error e)).Obeys M C ts s
        | .late e => (k (.error e)).Obeys M C ts (M.perform s o).1
        | .crash => True

instance decidableObeysNil (M : Machine Op Res ε σ ι) (C : Regime Op σ ι ε) [∀ s o f, Decidable (C.op s o f)] :
    (p : Prog Op Res ε α) → (s : σ) → Decidable (p.Obeys M C [] s)
  | pure _, _ | throw _, _ => isTrue nofun
  | op o k, s => @instDecidableAnd _ _ _ (decidableObeysNil M C (k (M.perform s o).2) (M.perform s o).1)

/-- What every run that obeys `C` ends in. -/
def Always (M : Machine Op Res ε σ ι) (C : Regime Op σ ι ε) (Q : σ → Outcome ε α → Prop) (p : Prog Op Res ε α)
    (s : σ) : Prop :=
  ∀ ts, p.Obeys M C ts s → Q (p.exec M ts s).1 (p.exec M ts s).2

section
variable {C : Regime Op σ ι ε} {Q : σ → Outcome ε α → Prop} {s : σ}

theorem always_pure {a : α} (h : Q s (.returned a)) (hc : C.op s none .crash → Q s .crashed) :
    Always M C Q (pure a) s := by
  intro ts hts
  simp only [exec]
  split
  · exact hc (hts _ rfl)
  · exact h

theorem always_throw {e : ε} (h : Q s (.threw e)) (hc : C.op s none .crash → Q s .crashed) :
    Always M C Q (throw e) s := by
  intro ts hts
  simp only [exec]
  split
  · exact hc (hts _ rfl)
  · exact h

/-- How a run goes on after an operation that met a fault. -/
def Resumes (M : Machine Op Res ε σ ι) (C : Regime Op σ ι ε) (Q : σ → Outcome ε α → Prop) (o : Op)
    (k : Except ε (Res o) → Prog Op Res ε α) (s : σ) : Fault ε → Prop
  | .none => Always M C Q (k (M.perform s o).2) (M.perform s o).1
  | .lost e => Always M C Q (k (.error e)) s
  | .late e => Always M C Q (k (.error e)) (M.perform s o).1
  | .crash => Q s .crashed

theorem always_op {o : Op} {k : Except ε (Res o) → Prog Op Res ε α} :
    Always M C Q (op o k) s ↔ ∀ es, Meets M.env C.env s es → ∀ fault, C.op (run M.env s es) (some o) fault →
      Resumes M C Q o k (run M.env s es) fault := by
  constructor
  · intro h es hes fault hf
    cases fault with
    | none => exact fun ts hts => h (⟨es, .none⟩ :: ts) ⟨hes, hf, hts⟩
    | lost e => exact fun ts hts => h (⟨es, .lost e⟩ :: ts) ⟨hes, hf, hts⟩
    | late e => exact fun ts hts => h (⟨es, .late e⟩ :: ts) ⟨hes, hf, hts⟩
    | crash => exact h [⟨es, .crash⟩] ⟨hes, hf, trivial⟩
  · intro h ts hts
    cases ts with
    | nil => exact h [] trivial .none hts.1 [] hts.2
    | cons t ts =>
      obtain ⟨es, fault⟩ := t
      rw [Obeys] at hts
      obtain ⟨hes, hf, hts⟩ := hts
      have hr := h es hes fault hf
      cases fault with
      | none => exact hr ts hts
      | lost e => exact hr ts hts
      | late e => exact hr ts hts
      | crash => exact hr

/-- What a program that goes on with `f` must end its first part in. -/
def Continues (M : Machine Op Res ε σ ι) (C : Regime Op σ ι ε) (Q : σ → Outcome ε β → Prop)
    (f : α → Prog Op Res ε β) (h : ε → Prog Op Res ε β) (s : σ) : Outcome ε α → Prop
  | .returned a => Always M C Q (f a) s
  | .threw e => Always M C Q (h e) s
  | .crashed => Q s .crashed

/-- Sequencing and catching alike: what is done with the end of the first part is known operation by operation. -/
theorem Resumes.imp {Q' : σ → Outcome ε β → Prop} {o : Op} {k : Except ε (Res o) → Prog Op Res ε α}
    {k' : Except ε (Res o) → Prog Op Res ε β} (hk : ∀ r s, Always M C Q (k r) s → Always M C Q' (k' r) s)
    (hc : ∀ s, Q s .crashed → Q' s .crashed) {fault : Fault ε} (h : Resumes M C Q o k s fault) :
    Resumes M C Q' o k' s fault := by
  cases fault with
  | none => exact hk _ _ h
  | lost e => exact hk _ _ h
  | late e => exact hk _ _ h
  | crash => exact hc s h

theorem always_bind {Q : σ → Outcome ε β → Prop} {p : Prog Op Res ε α} {f : α → Prog Op Res ε β}
    (h : Always M C (Continues M C Q f throw) p s) : Always M C Q (p >>= f) s := by
  change Always M C Q (p.bind f) s
  induction p generalizing s with
  | pure a => exact h [] (fun _ ht => nomatch ht)
  | throw e => exact h [] (fun _ ht => nomatch ht)
  | op o k ih =>
    refine always_op.mpr fun es hes fault hf => ?_
    exact (always_op.mp h es hes fault hf).imp (fun r s hr => ih r hr) (fun s hs => hs)

theorem always_tryCatch {p : Prog Op Res ε α} {h : ε → Prog Op Res ε α}
    (hp : Always M C (Continues M C Q pure h) p s) : Always M C Q (p.tryCatch h) s := by
  induction p generalizing s with
  | pure a => exact hp [] (fun _ ht => nomatch ht)
  | throw e => exact hp [] (fun _ ht => nomatch ht)
  | op o k ih =>
    refine always_op.mpr fun es hes fault hf => ?_
    exact (always_op.mp hp es hes fault hf).imp (fun r s hr => ih r hr) (fun s hs => hs)

theorem always_mono {Q' : σ → Outcome ε α → Prop} {p : Prog Op Res ε α} (h : Always M C Q p s)
    (hq : ∀ s' out, Q s' out → Q' s' out) : Always M C Q' p s := fun ts hts => hq _ _ (h ts hts)

theorem always_call_bind {Q : σ → Outcome ε β → Prop} {o : Op} {f : Res o → Prog Op Res ε β}
    (h : ∀ es, Meets M.env C.env s es → ∀ fault, C.op (run M.env s es) (some o) fault →
      Resumes M C Q o (fun | .ok r => f r | .error e => throw e) (run M.env s es) fault) :
    Always M C Q (call o >>= f) s := by
  change Always M C Q ((call o).bind f) s
  refine always_op.mpr fun es hes fault hf => ?_
  refine (h es hes fault hf).imp (fun r s hr => ?_) (fun s hs => hs)
  cases r with
  | ok r => exact hr
  | error e => exact hr

/-! ## Assertions that the environment keeps -/

/-- Whatever it is answered, the program performs only operations of `A`. -/
def Performs (A : Op → Prop) : Prog Op Res ε α → Prop
  | pure _ | throw _ => True
  | op o k => A o ∧ ∀ r, (k r).Performs A

theorem performs_bind {A : Op → Prop} {p : Prog Op Res ε α} {f : α → Prog Op Res ε β} (hp : p.Performs A)
    (hf : ∀ a, (f a).Performs A) : (p >>= f).Performs A := by
  change (p.bind f).Performs A
  induction p with
  | pure a => exact hf a
  | throw e => trivial
  | op o k ih => exact ⟨hp.1, fun r => ih r (hp.2 r)⟩

theorem performs_call {A : Op → Prop} {o : Op} (ho : A o) : (call o : Prog Op Res ε (Res o)).Performs A := by
  refine ⟨ho, fun r => ?_⟩
  cases r <;> trivial

theorem Performs.mono {A B : Op → Prop} (hAB : ∀ o, A o → B o) {p : Prog Op Res ε α} (hp : p.Performs A) :
    p.Performs B := by
  induction p with
  | pure | throw => trivial
  | op o k ih => exact ⟨hAB o hp.1, fun r => ih r (hp.2 r)⟩

section
variable {P : σ → Prop} (henv : ∀ s i, C.env s i → P s → P (M.env s i)) (hP : P s)
include henv hP

theorem stable_call_bind {Q : σ → Outcome ε β → Prop} {o : Op} {f : Res o → Prog Op Res ε β}
    (h : ∀ s, P s → ∀ fault, C.op s (some o) fault →
      Resumes M C Q o (fun | .ok r => f r | .error e => throw e) s fault) :
    Always M C Q (call o >>= f) s :=
  always_call_bind fun es hes => h _ (run_inv_of_meets P henv es hes hP)

theorem always_of_performs {A : Op → Prop} (hop : ∀ s o, A o → P s → P (M.perform s o).1) {p : Prog Op Res ε α}
    (hp : p.Performs A) :
    Always M C (fun s out => P s ∧ (out = .crashed → ∃ o, C.op s o .crash)) p s := by
  induction p generalizing s with
  | pure a => exact always_pure ⟨hP, nofun⟩ fun hc => ⟨hP, fun _ => ⟨none, hc⟩⟩
  | throw e => exact always_throw ⟨hP, nofun⟩ fun hc => ⟨hP, fun _ => ⟨none, hc⟩⟩
  | op o k ih =>
    refine always_op.mpr fun es hes fault hf => ?_
    have hs := run_inv_of_meets P henv es hes hP
    have ho := hop _ o hp.1 hs
    cases fault with
    | none => exact ih _ ho (hp.2 _)
    | lost e => exact ih _ hs (hp.2 _)
    | late e => exact ih _ ho (hp.2 _)
    | crash => exact ⟨hs, fun _ => ⟨some o, hf⟩⟩

end

/-! ## Runs beside a bounded environment -/

theorem rel_of_meets {K : σ → σ → Prop} (hrefl : ∀ s, K s s) (htrans : ∀ {s t u}, K s t → K t u → K s u) :
    ∀ {s : σ} (es : List ι), Meets M.env (fun s i => K s (M.env s i)) s es → K s (run M.env s es)
  | s, [], _ => hrefl s
  | _, _ :: es, h => htrans h.1 (rel_of_meets hrefl htrans es h.2)

section
variable {K : σ → σ → Prop} {F : Prop}

theorem complete_of_always {p : Prog Op Res ε α} (h : Always M (.beside M K False) Q p s) :
    Q (p.complete M s).1 (.ofExcept (p.complete M s).2) := by
  have hobey : ∀ (p : Prog Op Res ε α) (s : σ), p.Obeys M (.beside M K False) [] s := by
    intro p
    induction p with
    | pure a => exact fun s _ ht => nomatch ht
    | throw e => exact fun s _ ht => nomatch ht
    | op o k ih => exact fun s => ⟨.inl rfl, ih _ _⟩
  have := h [] (hobey p s)
  rwa [exec_nil] at this

theorem beside_call_bind {Q : σ → Outcome ε β → Prop} {o : Op} {f : Res o → Prog Op Res ε β}
    (hrefl : ∀ s, K s s) (htrans : ∀ {s t u}, K s t → K t u → K s u)
    (hfault : F → ∀ s', K s s' → ∀ out, (∀ b, out ≠ .returned b) → Q s' out ∧ Q (M.perform s' o).1 out)
    (herr : ∀ s', K s s' → ∀ e, (M.perform s' o).2 = .error e → Q (M.perform s' o).1 (.threw e))
    (hok : ∀ s', K s s' → ∀ r, (M.perform s' o).2 = .ok r →
      Always M (.beside M K F) Q (f r) (M.perform s' o).1) :
    Always M (.beside M K F) Q (call o >>= f) s := by
  refine always_call_bind fun es hes fault hf => ?_
  have hK : K s (run M.env s es) := rel_of_meets hrefl htrans es hes
  generalize run M.env s es = s' at hK hf ⊢
  have hcrash (t : σ) (hq : F → Q t .crashed) : (Regime.beside M K F).op t none .crash → Q t .crashed :=
    fun hc => hq (hc.resolve_left nofun)
  cases fault with
  | none =>
    simp only [Resumes]
    cases hr : (M.perform s' o).2 with
    | ok r => exact hok s' hK r hr
    | error e => exact always_throw (herr s' hK e hr) (hcrash _ fun hF => (hfault hF s' hK .crashed nofun).2)
  | lost e =>
    have hF := hf.resolve_left nofun
    exact always_throw (hfault hF s' hK (.threw e) nofun).1
      (hcrash _ fun hF => (hfault hF s' hK .crashed nofun).1)
  | late e =>
    have hF := hf.resolve_left nofun
    exact always_throw (hfault hF s' hK (.threw e) nofun).2
      (hcrash _ fun hF => (hfault hF s' hK .crashed nofun).2)
  | crash => exact (hfault (hf.resolve_left nofun) s' hK .crashed nofun).1

end

end

/-! ## What a run does itself -/

/-- By how much the program's own operations move `f`, whatever the environment does to it. -/
def gain (M : Machine Op Res ε σ ι) (f : σ → Int) : Prog Op Res ε α → List (Tick ι ε) → σ → Int
  | pure _, _, _ | throw _, _, _ => 0
  | op o k, [], s => f (M.perform s o).1 - f s + (k (M.perform s o).2).gain M f [] (M.perform s o).1
  | op o k, ⟨env, fault⟩ :: ts, s =>
    let s := run M.env s env
    match fault with
    | .none => f (M.perform s o).1 - f s + (k (M.perform s o).2).gain M f ts (M.perform s o).1
    | .lost e => (k (.error e)).gain M f ts s
    | .late e => f (M.perform s o).1 - f s + (k (.error e)).gain M f ts (M.perform s o).1
    | .crash => 0

section
variable {f : σ → Int} {o : Op} {g : Res o → Prog Op Res ε β} {ts : List (Tick ι ε)} {s s' : σ}

@[simp] theorem gain_throw (e : ε) : (throw e : Prog Op Res ε α).gain M f ts s = 0 := by
  cases ts <;> rfl

theorem gain_op (o : Op) (k : Except ε (Res o) → Prog Op Res ε α) (hs : run M.env s (ts.getD 0 .calm).env = s') :
    (op o k).gain M f ts s = match (ts.getD 0 .calm).fault with
      | .none => f (M.perform s' o).1 - f s' + (k (M.perform s' o).2).gain M f ts.tail (M.perform s' o).1
      | .lost e => (k (.error e)).gain M f ts.tail s'
      | .late e => f (M.perform s' o).1 - f s' + (k (.error e)).gain M f ts.tail (M.perform s' o).1
      | .crash => 0 := by
  subst hs
  cases ts with
  | nil => rfl
  | cons t ts => obtain ⟨env, fault⟩ := t; cases fault <;> rfl

theorem gain_eq_zero {A : Op → Prop} (hop : ∀ s o, A o → f (M.perform s o).1 = f s) {p : Prog Op Res ε α}
    (hp : p.Performs A) (ts : List (Tick ι ε)) (s : σ) : p.gain M f ts s = 0 := by
  induction p generalizing ts s with
  | pure | throw => cases ts <;> rfl
  | op o k ih =>
    rw [gain_op o k rfl]
    split
    · rw [hop _ o hp.1, ih _ (hp.2 _), Int.sub_self, Int.add_zero]
    · exact ih _ (hp.2 _) _ _
    · rw [hop _ o hp.1, ih _ (hp.2 _), Int.sub_self, Int.add_zero]
    · rfl

/-- An operation that only reads adds nothing, and a fault at it ends the program. -/
theorem gain_read_bind [DecidableEq ε] (hs : run M.env s (ts.getD 0 .calm).env = s') {r : Res o}
    (hr : M.perform s' o = (s', .ok r)) : (call o >>= g).gain M f ts s =
      if (ts.getD 0 .calm).fault = .none then (g r).gain M f ts.tail s' else 0 := by
  change ((call o).bind g).gain M f ts s = _
  rw [call, bind, gain_op o _ hs, hr, Int.sub_self]
  cases (ts.getD 0 .calm).fault with
  | none => simp [bind]
  | lost e => simp [bind]
  | late e => simp [bind]
  | crash => rfl

/-- The last operation that moves `f`. -/
theorem gain_act_bind (hs : run M.env s (ts.getD 0 .calm).env = s')
    (hrest : ∀ r ts s, (g r).gain M f ts s = 0) : (call o >>= g).gain M f ts s =
      if (ts.getD 0 .calm).fault.Effective then f (M.perform s' o).1 - f s' else 0 := by
  change ((call o).bind g).gain M f ts s = _
  rw [call, bind, gain_op o _ hs]
  cases (ts.getD 0 .calm).fault with
  | none =>
    cases (M.perform s' o).2 with
    | ok r => simp [bind, hrest, Fault.Effective]
    | error e => simp [bind, Fault.Effective]
  | lost e => simp [bind, Fault.Effective]
  | late e => simp [bind, Fault.Effective]
  | crash => rfl

end

/-! ## Rely and guarantee -/

/-- `R` is transitive and every step of the machine is in it. -/
structure Evolves (M : Machine Op Res ε σ ι) (R : σ → σ → Prop) : Prop where
  refl : ∀ s, R s s
  trans : ∀ {s t u}, R s t → R t u → R s u
  perform : ∀ s o, R s (M.perform s o).1
  env : ∀ s i, R s (M.env s i)

def Safe (M : Machine Op Res ε σ ι) (R : σ → σ → Prop) (ok : σ → Op → Prop) : Prog Op Res ε α → σ → Prop
  | pure _, _ => True
  | throw _, _ => True
  | op o k, s => ∀ s', R s s' → ok s' o ∧
      (∀ e, Safe M R ok (k (.error e)) s' ∧ Safe M R ok (k (.error e)) (M.perform s' o).1) ∧
      Safe M R ok (k (M.perform s' o).2) (M.perform s' o).1

section
variable {R : σ → σ → Prop} {ok : σ → Op → Prop} {s s' : σ}

theorem Evolves.complete (hR : Evolves M R) (p : Prog Op Res ε α) (s : σ) : R s (p.complete M s).1 := by
  induction p generalizing s with
  | pure | throw => exact hR.refl s
  | op o k ih => exact hR.trans (hR.perform s o) (ih _ _)

theorem Evolves.exec (hR : Evolves M R) (p : Prog Op Res ε α) (ts : List (Tick ι ε)) (s : σ) :
    R s (p.exec M ts s).1 := by
  induction p generalizing ts s with
  | pure | throw => exact hR.refl s
  | op o k ih =>
    cases ts with
    | nil => exact hR.trans (hR.perform s o) (ih _ _ _)
    | cons t ts =>
      obtain ⟨env, fault⟩ := t
      have henv : R s (run M.env s env) := run_rel R hR.refl hR.trans hR.env s env
      cases fault with
      | none | late => exact hR.trans henv (hR.trans (hR.perform _ o) (ih _ _ _))
      | lost e => exact hR.trans henv (ih _ _ _)
      | crash => exact henv

theorem Evolves.all {κ : Type} {R : κ → σ → σ → Prop} (h : ∀ i, Evolves M (R i)) :
    Evolves M fun s t => ∀ i, R i s t where
  refl s i := (h i).refl s
  trans h1 h2 i := (h i).trans (h1 i) (h2 i)
  perform s o i := (h i).perform s o
  env s j i := (h i).env s j

theorem Evolves.and {R' : σ → σ → Prop} (h : Evolves M R) (h' : Evolves M R') :
    Evolves M fun s t => R s t ∧ R' s t where
  refl s := ⟨h.refl s, h'.refl s⟩
  trans h1 h2 := ⟨h.trans h1.1 h2.1, h'.trans h1.2 h2.2⟩
  perform s o := ⟨h.perform s o, h'.perform s o⟩
  env s i := ⟨h.env s i, h'.env s i⟩

theorem Safe.later (htrans : ∀ {s t u}, R s t → R t u → R s u) {p : Prog Op Res ε α} (h : Safe M R ok p s)
    (hs : R s s') : Safe M R ok p s' := by
  cases p with
  | pure | throw => trivial
  | op o k => exact fun s'' h' => h s'' (htrans hs h')

theorem Safe.mono (hR : Evolves M R) {p : Prog Op Res ε α} (h : Safe M R ok p s) (hs : R s s') :
    Safe M R ok p s' := Safe.later (R := R) hR.trans h hs

theorem Safe.imp {R' : σ → σ → Prop} {ok' : σ → Op → Prop} {p : Prog Op Res ε α} (h : Safe M R ok p s)
    (hR : ∀ s s', R' s s' → R s s') (hok : ∀ s o, ok s o → ok' s o) : Safe M R' ok' p s := by
  induction p generalizing s with
  | pure | throw => trivial
  | op o k ih =>
    intro s' hs
    obtain ⟨h1, h2, h3⟩ := h s' (hR s s' hs)
    exact ⟨hok s' o h1, fun e => ⟨ih _ (h2 e).1, ih _ (h2 e).2⟩, ih _ h3⟩

theorem Safe.and {ok' : σ → Op → Prop} {p : Prog Op Res ε α} (h : Safe M R ok p s) (h' : Safe M R ok' p s) :
    Safe M R (fun s o => ok s o ∧ ok' s o) p s := by
  induction p generalizing s with
  | pure | throw => trivial
  | op o k ih =>
    intro s' hs
    obtain ⟨h1, h2, h3⟩ := h s' hs
    obtain ⟨h1', h2', h3'⟩ := h' s' hs
    exact ⟨⟨h1, h1'⟩, fun e => ⟨ih _ (h2 e).1 (h2' e).1, ih _ (h2 e).2 (h2' e).2⟩, ih _ h3 h3'⟩

theorem Safe.complete (hR : Evolves M R) {I : σ → Prop} (hI : ∀ s o, I s → ok s o → I (M.perform s o).1)
    {p : Prog Op Res ε α} (h : Safe M R ok p s) (hs : I s) : I (p.complete M s).1 := by
  induction p generalizing s with
  | pure | throw => exact hs
  | op o k ih =>
    obtain ⟨h1, -, h3⟩ := h s (hR.refl s)
    exact ih _ h3 (hI s o hs h1)

/-- Along a projection whose machine performs the same operations or refuses them. -/
theorem Safe.lift {τ κ : Type} {N : Machine Op Res ε τ κ} {π : τ → σ}
    (hN : ∀ t o, (π (N.perform t o).1 = (M.perform (π t) o).1 ∧ (N.perform t o).2 = (M.perform (π t) o).2) ∨
      π (N.perform t o).1 = π t ∧ ∃ e, (N.perform t o).2 = .error e)
    {p : Prog Op Res ε α} {t : τ} (h : Safe M R ok p (π t)) :
    Safe N (fun t t' => R (π t) (π t')) (fun t o => ok (π t) o) p t := by
  induction p generalizing t with
  | pure | throw => trivial
  | op o k ih =>
    intro t' ht
    obtain ⟨h1, h2, h3⟩ := h (π t') ht
    rcases hN t' o with ⟨hw, hr⟩ | ⟨hw, e, hr⟩
    · refine ⟨h1, fun e => ⟨ih _ (h2 e).1, ih _ (by rw [hw]; exact (h2 e).2)⟩, ih _ ?_⟩
      rw [hw, hr]; exact h3
    · refine ⟨h1, fun e' => ⟨ih _ (h2 e').1, ih _ (by rw [hw]; exact (h2 e').1)⟩, ih _ ?_⟩
      rw [hw, hr]; exact (h2 e).1

theorem safe_call {o : Op} (hok : ∀ s', R s s' → ok s' o) : Safe M R ok (call o) s := by
  intro s' hs
  refine ⟨hok s' hs, fun e => ⟨trivial, trivial⟩, ?_⟩
  cases (M.perform s' o).2 <;> trivial

theorem safe_call_bind {o : Op} {f : Res o → Prog Op Res ε β}
    (hok : ∀ s', R s s' → ok s' o)
    (hf : ∀ s' r, R s s' → (M.perform s' o).2 = .ok r → Safe M R ok (f r) (M.perform s' o).1) :
    Safe M R ok (call o >>= f) s := by
  intro s' hs
  refine ⟨hok s' hs, fun e => ⟨trivial, trivial⟩, ?_⟩
  cases hr : (M.perform s' o).2 with
  | ok r => exact hf s' r hs hr
  | error e => trivial

theorem safe_bind (hR : Evolves M R) {p : Prog Op Res ε α} {f : α → Prog Op Res ε β} (hp : Safe M R ok p s)
    (hf : ∀ a s', R s s' → Safe M R ok (f a) s') : Safe M R ok (p >>= f) s := by
  change Safe M R ok (p.bind f) s
  induction p generalizing s with
  | pure a => exact hf a s (hR.refl s)
  | throw e => trivial
  | op o k ih =>
    intro s' hs
    obtain ⟨h1, h2, h3⟩ := hp s' hs
    have hp := hR.perform s' o
    exact ⟨h1, fun e => ⟨ih _ (h2 e).1 fun a s'' h => hf a s'' (hR.trans hs h),
      ih _ (h2 e).2 fun a s'' h => hf a s'' (hR.trans hs (hR.trans hp h))⟩,
      ih _ h3 fun a s'' h => hf a s'' (hR.trans hs (hR.trans hp h))⟩

theorem safe_tryCatch (hR : Evolves M R) {p : Prog Op Res ε α} {h : ε → Prog Op Res ε α}
    (hp : Safe M R ok p s) (hh : ∀ e s', R s s' → Safe M R ok (h e) s') : Safe M R ok (p.tryCatch h) s := by
  induction p generalizing s with
  | pure a => trivial
  | throw e => exact hh e s (hR.refl s)
  | op o k ih =>
    intro s' hs
    obtain ⟨h1, h2, h3⟩ := hp s' hs
    have hp := hR.perform s' o
    exact ⟨h1, fun e => ⟨ih _ (h2 e).1 fun e s'' h => hh e s'' (hR.trans hs h),
      ih _ (h2 e).2 fun e s'' h => hh e s'' (hR.trans hs (hR.trans hp h))⟩,
      ih _ h3 fun e s'' h => hh e s'' (hR.trans hs (hR.trans hp h))⟩

theorem Performs.safe {A : Op → Prop} (hA : ∀ s o, A o → ok s o) {p : Prog Op Res ε α} (hp : p.Performs A)
    (s : σ) : Safe M R ok p s := by
  induction p generalizing s with
  | pure | throw => trivial
  | op o k ih =>
    exact fun s' _ => ⟨hA s' o hp.1, fun e => ⟨ih _ (hp.2 _) s', ih _ (hp.2 _) _⟩, ih _ (hp.2 _) _⟩

/-! ### What is returned -/

/-- `Safe`, and what the program returns is in `Q` with the state it returns it in. -/
def SafeTo (M : Machine Op Res ε σ ι) (R : σ → σ → Prop) (ok : σ → Op → Prop) (Q : σ → α → Prop) :
    Prog Op Res ε α → σ → Prop
  | pure a, s => Q s a
  | throw _, _ => True
  | op o k, s => ∀ s', R s s' → ok s' o ∧
      (∀ e, SafeTo M R ok Q (k (.error e)) s' ∧ SafeTo M R ok Q (k (.error e)) (M.perform s' o).1) ∧
      SafeTo M R ok Q (k (M.perform s' o).2) (M.perform s' o).1

theorem SafeTo.bind_to {Q : σ → α → Prop} {Q' : σ → β → Prop} {p : Prog Op Res ε α} {f : α → Prog Op Res ε β}
    (hp : SafeTo M R ok Q p s) (hf : ∀ a s', Q s' a → SafeTo M R ok Q' (f a) s') :
    SafeTo M R ok Q' (p >>= f) s := by
  change SafeTo M R ok Q' (p.bind f) s
  induction p generalizing s with
  | pure a => exact hf a s hp
  | throw e => trivial
  | op o k ih =>
    intro s' hs
    obtain ⟨h1, h2, h3⟩ := hp s' hs
    exact ⟨h1, fun e => ⟨ih _ (h2 e).1, ih _ (h2 e).2⟩, ih _ h3⟩

theorem SafeTo.bind {Q : σ → α → Prop} {p : Prog Op Res ε α} {f : α → Prog Op Res ε β}
    (hp : SafeTo M R ok Q p s) (hf : ∀ a s', Q s' a → Safe M R ok (f a) s') : Safe M R ok (p >>= f) s := by
  change Safe M R ok (p.bind f) s
  induction p generalizing s with
  | pure a => exact hf a s hp
  | throw e => trivial
  | op o k ih =>
    intro s' hs
    obtain ⟨h1, h2, h3⟩ := hp s' hs
    exact ⟨h1, fun e => ⟨ih _ (h2 e).1, ih _ (h2 e).2⟩, ih _ h3⟩

/-- A safe program returns in a state that the others could have reached. -/
theorem Safe.to_later (hR : Evolves M R) {p : Prog Op Res ε α} (hp : Safe M R ok p s) :
    SafeTo M R ok (fun s' _ => R s s') p s := by
  suffices h : ∀ {s₁}, R s s₁ → Safe M R ok p s₁ → SafeTo M R ok (fun s' _ => R s s') p s₁ from h (hR.refl s) hp
  clear hp
  induction p with
  | pure a => exact fun h _ => h
  | throw e => exact fun _ _ => trivial
  | op o k ih =>
    intro s₁ h hp s' hs
    obtain ⟨h1, h2, h3⟩ := hp s' hs
    have hs' := hR.trans h hs
    have hp' := hR.trans hs' (hR.perform s' o)
    exact ⟨h1, fun e => ⟨ih _ hs' (h2 e).1, ih _ hp' (h2 e).2⟩, ih _ hp' h3⟩

theorem safeTo_call {o : Op} {Q : σ → Res o → Prop} (hok : ∀ s', R s s' → ok s' o)
    (hQ : ∀ s' r, R s s' → (M.perform s' o).2 = .ok r → Q (M.perform s' o).1 r) :
    SafeTo M R ok Q (call o) s := by
  intro s' hs
  refine ⟨hok s' hs, fun e => ⟨trivial, trivial⟩, ?_⟩
  cases hr : (M.perform s' o).2 with
  | ok r => exact hQ s' r hs hr
  | error e => trivial

end

end Prog

/-! ## Pools -/

section
variable {Op J : Type} {Res : Op → Type} {ε α σ ι : Type}

structure Pool (Op : Type) (Res : Op → Type) (ε α σ : Type) where
  world : σ
  procs : List (Prog Op Res ε α)

/-- The environment moves, a process starts, or a process performs its next operation. -/
inductive PoolAction (J ι ε : Type) where
  | env (i : ι)
  | spawn (j : J)
  | step (n : Nat) (fault : Fault ε)

/-- `body j` is the program that a process started for `j` runs. -/
def Pool.step (M : Machine Op Res ε σ ι) (body : J → Prog Op Res ε α) (c : Pool Op Res ε α σ) :
    PoolAction J ι ε → Pool Op Res ε α σ
  | .env i => { c with world := M.env c.world i }
  | .spawn j => { c with procs := c.procs ++ [body j] }
  | .step n fault =>
    match c.procs[n]?, fault with
    | some (.op o k), .none => ⟨(M.perform c.world o).1, c.procs.set n (k (M.perform c.world o).2)⟩
    | some (.op _ k), .lost e => ⟨c.world, c.procs.set n (k (.error e))⟩
    | some (.op o k), .late e => ⟨(M.perform c.world o).1, c.procs.set n (k (.error e))⟩
    | some _, .crash => { c with procs := c.procs.eraseIdx n }
    | _, _ => c

variable {M : Machine Op Res ε σ ι} {R : σ → σ → Prop} {ok : σ → Op → Prop} {body : J → Prog Op Res ε α}

theorem pool_step_cases (c : Pool Op Res ε α σ) (a : PoolAction J ι ε) :
    (Pool.step M body c a).world = c.world ∨
    (∃ i, a = .env i ∧ (Pool.step M body c a).world = M.env c.world i) ∨
    ∃ o, (Pool.step M body c a).world = (M.perform c.world o).1 := by
  cases a with
  | env i => exact .inr (.inl ⟨i, rfl, rfl⟩)
  | spawn j => exact .inl rfl
  | step n fault =>
    simp only [Pool.step]
    split
    · exact .inr (.inr ⟨_, rfl⟩)
    · exact .inl rfl
    · exact .inr (.inr ⟨_, rfl⟩)
    · exact .inl rfl
    · exact .inl rfl

theorem pool_rel (hR : Prog.Evolves M R) (c : Pool Op Res ε α σ) (as : List (PoolAction J ι ε)) :
    R c.world (run (Pool.step M body) c as).world := by
  refine run_rel (fun c d : Pool Op Res ε α σ => R c.world d.world) (fun c => hR.refl _) hR.trans ?_ c as
  intro c a
  rcases pool_step_cases c a with h | ⟨i, -, h⟩ | ⟨o, h⟩
  · rw [h]; exact hR.refl _
  · rw [h]; exact hR.env _ _
  · rw [h]; exact hR.perform _ _

theorem pool_world_inv {I : σ → Prop} (henv : ∀ s i, I s → I (M.env s i))
    (hop : ∀ s o, I s → I (M.perform s o).1) {c : Pool Op Res ε α σ} (h : I c.world)
    (as : List (PoolAction J ι ε)) :
    I (run (Pool.step M body) c as).world := by
  refine run_inv (fun c : Pool Op Res ε α σ => I c.world) (fun c a h => ?_) as h
  rcases pool_step_cases c a with he | ⟨i, -, he⟩ | ⟨o, he⟩
  · rw [he]; exact h
  · rw [he]; exact henv _ _ h
  · rw [he]; exact hop _ _ h

/-- The environment steps as `P` says and the operations performed are in `A`. -/
def Pool.Allows (P : σ → ι → Prop) (A : σ → Op → Prop) (c : Pool Op Res ε α σ) : PoolAction J ι ε → Prop
  | .env i => P c.world i
  | .spawn _ => True
  | .step n fault =>
    match c.procs[n]?, fault with
    | some (.op o _), .none | some (.op o _), .late _ => A c.world o
    | _, _ => True

instance Pool.Allows.decidable {P : σ → ι → Prop} {A : σ → Op → Prop} [∀ s i, Decidable (P s i)]
    [∀ s o, Decidable (A s o)] (c : Pool Op Res ε α σ) : (a : PoolAction J ι ε) → Decidable (c.Allows P A a)
  | .env i => inferInstanceAs (Decidable (P c.world i))
  | .spawn _ => .isTrue trivial
  | .step n fault =>
    match hp : c.procs[n]?, fault with
    | some (.op o _), .none | some (.op o _), .late _ => decidable_of_iff (A c.world o) (by simp [Allows, hp])
    | some (.op _ _), .lost _ | some (.op _ _), .crash | some (.pure _), _ | some (.throw _), _ | none, _ =>
      .isTrue (by simp [Allows, hp])

/-- The world is in `I` and the programs under way are safe. -/
structure Pool.Keeps (M : Machine Op Res ε σ ι) (R : σ → σ → Prop) (ok : σ → Op → Prop) (I : σ → Prop)
    (c : Pool Op Res ε α σ) : Prop where
  world : I c.world
  procs : ∀ p ∈ c.procs, Prog.Safe M R ok p c.world

theorem Pool.Keeps.step_cases {I : σ → Prop} {c : Pool Op Res ε α σ} (h : c.Keeps M R ok I)
    (hR : Prog.Evolves M R) (a : PoolAction J ι ε) :
    (Pool.step M body c a).world = c.world ∨
    (∃ i, a = .env i ∧ (Pool.step M body c a).world = M.env c.world i) ∨
    ∃ o, ok c.world o ∧ (Pool.step M body c a).world = (M.perform c.world o).1 := by
  have hok {n : Nat} {o : Op} {k : Except ε (Res o) → Prog Op Res ε α} (hp : c.procs[n]? = some (.op o k)) :
      ok c.world o := (h.procs _ (List.mem_of_getElem? hp) c.world (hR.refl _)).1
  cases a with
  | env i => exact .inr (.inl ⟨i, rfl, rfl⟩)
  | spawn j => exact .inl rfl
  | step n fault =>
    simp only [Pool.step]
    split
    · rename_i heq; exact .inr (.inr ⟨_, hok heq, rfl⟩)
    · exact .inl rfl
    · rename_i heq; exact .inr (.inr ⟨_, hok heq, rfl⟩)
    · exact .inl rfl
    · exact .inl rfl

section
variable {I : σ → Prop} {P : σ → ι → Prop} {A : σ → Op → Prop} (hR : Prog.Evolves M R)
  (hsafe : ∀ j s, I s → Prog.Safe M R ok (body j) s) (henv : ∀ s i, P s i → I s → I (M.env s i))
  (hok : ∀ s o, A s o → ok s o → I s → I (M.perform s o).1)
include hR hsafe henv hok

theorem Pool.Keeps.step {c : Pool Op Res ε α σ} {a : PoolAction J ι ε} (hc : c.Allows P A a)
    (h : c.Keeps M R ok I) : (Pool.step M body c a).Keeps M R ok I := by
  obtain ⟨w, ps⟩ := c
  obtain ⟨hI, hp⟩ := h
  cases a with
  | env i => exact ⟨henv w i hc hI, fun p hmem => (hp p hmem).mono hR (hR.env w i)⟩
  | spawn j =>
    refine ⟨hI, fun p hmem => ?_⟩
    rcases List.mem_append.mp hmem with hmem | hmem
    · exact hp p hmem
    · rw [List.mem_singleton.mp hmem]; exact hsafe j w hI
  | step n fault =>
    have hset (w' : σ) (q : Prog Op Res ε α) (hw : R w w') (hq : Prog.Safe M R ok q w') :
        ∀ p ∈ ps.set n q, Prog.Safe M R ok p w' := by
      intro p hmem
      rcases List.mem_or_eq_of_mem_set hmem with hmem | rfl
      · exact (hp p hmem).mono hR hw
      · exact hq
    simp only [Pool.step]
    split
    · rename_i o k heq
      simp only [Pool.Allows, heq] at hc
      obtain ⟨h1, -, h3⟩ := hp _ (List.mem_of_getElem? heq) w (hR.refl w)
      exact ⟨hok w o hc h1 hI, hset _ _ (hR.perform w o) h3⟩
    · rename_i o k e heq
      obtain ⟨-, h2, -⟩ := hp _ (List.mem_of_getElem? heq) w (hR.refl w)
      exact ⟨hI, hset _ _ (hR.refl w) (h2 e).1⟩
    · rename_i o k e heq
      simp only [Pool.Allows, heq] at hc
      obtain ⟨h1, h2, -⟩ := hp _ (List.mem_of_getElem? heq) w (hR.refl w)
      exact ⟨hok w o hc h1 hI, hset _ _ (hR.perform w o) (h2 e).2⟩
    · exact ⟨hI, fun p hmem => hp p (List.mem_of_mem_eraseIdx hmem)⟩
    · exact ⟨hI, hp⟩

theorem Pool.Keeps.run {c : Pool Op Res ε α σ} {as : List (PoolAction J ι ε)} (h : c.Keeps M R ok I)
    (has : Meets (Pool.step M body) (fun c a => c.Allows P A a) c as) :
    (run (Pool.step M body) c as).Keeps M R ok I :=
  run_inv_of_meets (fun c : Pool Op Res ε α σ => c.Keeps M R ok I)
    (fun _ _ hc h => h.step hR hsafe henv hok hc) as has h

end

theorem pool_keeps (hR : Prog.Evolves M R) {I : σ → Prop} (hsafe : ∀ j s, I s → Prog.Safe M R ok (body j) s)
    (henv : ∀ s i, I s → I (M.env s i)) (hok : ∀ s o, I s → ok s o → I (M.perform s o).1)
    {c : Pool Op Res ε α σ} (h : c.Keeps M R ok I) (as : List (PoolAction J ι ε)) :
    (run (Pool.step M body) c as).Keeps M R ok I := by
  have hall (c : Pool Op Res ε α σ) (a : PoolAction J ι ε) :
    c.Allows (fun _ _ => True) (fun _ _ => True) a := by
    cases a with
    | env | spawn => trivial
    | step n fault => simp only [Pool.Allows]; split <;> trivial
  refine run_inv (fun c : Pool Op Res ε α σ => c.Keeps M R ok I) (fun c a h => ?_) as h
  exact h.step hR hsafe (fun s i _ => henv s i) (fun s o _ h1 h2 => hok s o h2 h1) (hall c a)

/-- An invariant that the environment and the `ok` operations keep holds in
every run of a pool of safe programs. -/
theorem pool_inv (hR : Prog.Evolves M R) (I : σ → Prop) (hsafe : ∀ j s, I s → Prog.Safe M R ok (body j) s)
    (henv : ∀ s i, I s → I (M.env s i)) (hok : ∀ s o, I s → ok s o → I (M.perform s o).1) {s : σ} (h : I s)
    (as : List (PoolAction J ι ε)) : I (run (Pool.step M body) ⟨s, []⟩ as).world :=
  (pool_keeps hR hsafe henv hok (c := ⟨s, []⟩) ⟨h, fun _ h => nomatch h⟩ as).world

end

end NexusHub
