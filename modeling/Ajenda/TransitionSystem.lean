import Mathlib.Logic.Relation

/-!
# Runs of a step function

A system is a step function `σ → α → σ`; whatever the environment chooses is part of the
label. `exec` runs a list of labels, `Guarded` says that every step of a run meets a
condition on the state it starts from, and the rules carry a property of one step to runs.
-/
namespace TransitionSystem
variable {σ α : Type*} (step : σ → α → σ)

def exec (s : σ) (as : List α) : σ := as.foldl step s

/-- Every step of the run meets `G` in the state it starts from. -/
def Guarded (G : σ → α → Prop) : σ → List α → Prop
  | _, [] => True
  | s, a :: as => G s a ∧ Guarded G (step s a) as

instance {G : σ → α → Prop} [∀ s a, Decidable (G s a)] (s : σ) (as : List α) :
    Decidable (Guarded step G s as) :=
  match as with
  | [] => .isTrue trivial
  | a :: as =>
    have : Decidable (Guarded step G (step s a) as) := instDecidableGuarded (step s a) as
    inferInstanceAs (Decidable (_ ∧ _))

variable {step}

@[simp] theorem exec_nil (s : σ) : exec step s [] = s := rfl

@[simp] theorem exec_cons (s : σ) (a : α) (as : List α) :
    exec step s (a :: as) = exec step (step s a) as := rfl

theorem exec_append (s : σ) (as bs : List α) :
    exec step s (as ++ bs) = exec step (exec step s as) bs := List.foldl_append ..

theorem Guarded.and {G H : σ → α → Prop} {s : σ} {as : List α} (hg : Guarded step G s as)
    (hh : Guarded step H s as) : Guarded step (fun s a => G s a ∧ H s a) s as := by
  induction as generalizing s with
  | nil => trivial
  | cons a as ih => exact ⟨⟨hg.1, hh.1⟩, ih hg.2 hh.2⟩

theorem guarded_append {G : σ → α → Prop} {s : σ} {as bs : List α} :
    Guarded step G s (as ++ bs) ↔ Guarded step G s as ∧ Guarded step G (exec step s as) bs := by
  induction as generalizing s with
  | nil => simp [Guarded]
  | cons a as ih => simp [Guarded, ih, and_assoc]

/-- What every guarded step preserves, a guarded run preserves. -/
theorem Guarded.preserves {G : σ → α → Prop} {I : σ → Prop}
    (hstep : ∀ s a, I s → G s a → I (step s a)) {s : σ} {as : List α} (hi : I s)
    (hg : Guarded step G s as) : I (exec step s as) := by
  induction as generalizing s with
  | nil => exact hi
  | cons a as ih => exact ih (hstep s a hi hg.1) hg.2

/-- What every step preserves, every run preserves. -/
theorem exec_preserves {I : σ → Prop} (hstep : ∀ s a, I s → I (step s a)) {s : σ}
    (hi : I s) (as : List α) : I (exec step s as) := by
  induction as generalizing s with
  | nil => exact hi
  | cons a as ih => exact ih (hstep s a hi)

/-- Along a run whose steps keep an invariant the guard may be strengthened by it. -/
theorem Guarded.of_invariant {G H : σ → α → Prop} {I : σ → Prop}
    (hstep : ∀ s a, I s → G s a → I (step s a)) (hguard : ∀ s a, I s → G s a → H s a) {s : σ}
    {as : List α} (hi : I s) (hg : Guarded step G s as) : Guarded step H s as := by
  induction as generalizing s with
  | nil => trivial
  | cons a as ih => exact ⟨hguard s a hi hg.1, ih (hstep s a hi hg.1) hg.2⟩

/-- Where a step keeps `I` exactly when it is guarded, `I` holds all along a run exactly when
the run is guarded. -/
theorem prefixes_iff_guarded {G : σ → α → Prop} {I : σ → Prop}
    (hstep : ∀ s a, I s → (I (step s a) ↔ G s a)) {s : σ} (hi : I s) (as : List α) :
    (∀ n, I (exec step s (as.take n))) ↔ Guarded step G s as := by
  induction as generalizing s with
  | nil => simp [Guarded, hi]
  | cons a as ih =>
    constructor
    · intro h
      have ha : I (step s a) := by simpa using h 1
      exact ⟨(hstep s a hi).mp ha, (ih ha).mp fun n => by simpa using h (n + 1)⟩
    · rintro ⟨hg, hr⟩ n
      cases n with
      | zero => simpa using hi
      | succ n => simpa using (ih ((hstep s a hi).mpr hg)).mpr hr n

end TransitionSystem
