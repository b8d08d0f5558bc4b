import Mathlib.Logic.Function.Basic

/-!
# Forward simulation

A run of a step function is matched by steps of a relation, action by action. The
relation may have several outcomes for an action, of which a run takes one.
-/

namespace Simulation

variable {S B A : Type}

/-- A chain of steps, one for each action. -/
inductive Steps (Step : B → A → B → Prop) : List A → B → B → Prop
  | nil (b : B) : Steps Step [] b b
  | cons {a : A} {as : List A} {b b' b'' : B} (hstep : Step b a b') (hrest : Steps Step as b' b'') :
      Steps Step (a :: as) b b''

variable {step : S → A → S} {Step : B → A → B → Prop} {R : S → B → Prop} {P : A → Prop}

/-- Where every step from related states can be matched, so can every run. -/
theorem exists_steps (hstep : ∀ s b a, R s b → P a → ∃ b', Step b a b' ∧ R (step s a) b')
    {as : List A} (has : ∀ a ∈ as, P a) {s : S} {b : B} (h : R s b) :
    ∃ b', Steps Step as b b' ∧ R (as.foldl step s) b' := by
  induction as generalizing s b with
  | nil => exact ⟨b, .nil b, h⟩
  | cons a as ih =>
      obtain ⟨ha, has⟩ := List.forall_mem_cons.mp has
      obtain ⟨b', hb', h'⟩ := hstep s b a h ha
      obtain ⟨b'', hsteps, h''⟩ := ih has h'
      exact ⟨b'', .cons hb' hsteps, h''⟩

/-- Where the outcome is a function of the action, so is the state in the end. -/
theorem related_foldl {f : B → A → B} (hstep : ∀ s b a, R s b → P a → R (step s a) (f b a))
    {as : List A} (has : ∀ a ∈ as, P a) {s : S} {b : B} (h : R s b) :
    R (as.foldl step s) (as.foldl f b) := by
  induction as generalizing s b with
  | nil => exact h
  | cons a as ih =>
      obtain ⟨ha, has⟩ := List.forall_mem_cons.mp has
      exact ih has (hstep s b a h ha)

/-! ## Components -/

section

variable {I : Type} [DecidableEq I] {Step : I → B → A → B → Prop}

/-- One component takes a step. -/
inductive Interleaved (Step : I → B → A → B → Prop) : (I → B) → I × A → (I → B) → Prop
  | step (b : I → B) {i : I} {a : A} {b' : B} (h : Step i (b i) a b') :
      Interleaved Step b (i, a) (Function.update b i b')

/-- The actions of a component, in order. -/
def actionsOf (i : I) (as : List (I × A)) : List A :=
  as.filterMap fun a => if a.1 = i then some a.2 else none

/-- In a chain of steps of components each component takes the steps for its own actions. -/
theorem Steps.component {as : List (I × A)} {b b' : I → B}
    (h : Steps (Interleaved Step) as b b') (i : I) :
    Steps (Step i) (actionsOf i as) (b i) (b' i) := by
  induction h with
  | nil b => exact .nil (b i)
  | @cons a as b _ b'' hstep hrest ih =>
      cases hstep with
      | @step j a c hj =>
          by_cases hij : j = i
          · subst hij
            rw [Function.update_self] at ih
            have hactions : actionsOf j ((j, a) :: as) = a :: actionsOf j as :=
              List.filterMap_cons_some (if_pos rfl)
            rw [hactions]
            exact .cons hj ih
          · rw [Function.update_of_ne (Ne.symm hij)] at ih
            have hactions : actionsOf i ((j, a) :: as) = actionsOf i as :=
              List.filterMap_cons_none (if_neg hij)
            rwa [hactions]

end

end Simulation
