import Dbgen3.Lib.Act

/-!
# Two runs in lockstep

Two computations agree when runs of them from related states end alike, in
related states: both normally with related values, or both with an exception.
There is one rule for each construct.
-/

namespace Act

variable {S S' E α α' β β' : Type} {R Q T : S → S' → Prop} {V : α → α' → Prop}
  {U : β → β' → Prop}

/-- Both end with related values, or both with an exception. -/
inductive EndAlike (V : α → α' → Prop) : Except E α → Except E α' → Prop
  | ok {a : α} {a' : α'} (h : V a a') : EndAlike V (.ok a) (.ok a')
  | error (e e' : E) : EndAlike V (.error e) (.error e')

theorem EndAlike.toOption_eq {x x' : Except E α} (h : EndAlike (· = ·) x x') :
    x.toOption = x'.toOption := by
  cases h with
  | ok h => exact congrArg some h
  | error e e' => rfl

theorem EndAlike.refl (x : Except E α) : EndAlike (· = ·) x x := by
  cases x with
  | error e => exact .error e e
  | ok a => exact .ok rfl

theorem endAlike_of_toOption_eq {x x' : Except E α} (h : x.toOption = x'.toOption) :
    EndAlike (· = ·) x x' := by
  cases x with
  | error e =>
      cases x' with
      | error e' => exact .error e e'
      | ok a => cases h
  | ok a =>
      cases x' with
      | error e => cases h
      | ok a' => exact .ok (Option.some.inj h)

/-- From states related by `R` both end alike, in states related by `Q`. -/
def Agree (R : S → S' → Prop) (V : α → α' → Prop) (Q : S → S' → Prop) (m : Act S E α)
    (m' : Act S' E α') : Prop :=
  ∀ s s', R s s' → EndAlike V (runOn m s).1 (runOn m' s').1 ∧ Q (runOn m s).2 (runOn m' s').2

theorem agree_pure {a : α} {a' : α'} (h : V a a') :
    Agree R V R (pure a : Act S E α) (pure a' : Act S' E α') :=
  fun _ _ hs => ⟨.ok h, hs⟩

theorem agree_throw (e e' : E) :
    Agree R V R (throw e : Act S E α) (throw e' : Act S' E α') :=
  fun _ _ hs => ⟨.error e e', hs⟩

theorem agree_fromResult {x : Except E α} {x' : Except E α'} (h : EndAlike V x x') :
    Agree R V R (fromResult x : Act S E α) (fromResult x' : Act S' E α') := by
  intro s s' hs
  rw [runOn_fromResult, runOn_fromResult]
  exact ⟨h, hs⟩

theorem Agree.bind {m : Act S E α} {m' : Act S' E α'} {f : α → Act S E β} {f' : α' → Act S' E β'}
    (hm : Agree R V Q m m') (hf : ∀ a a', V a a' → Agree Q U Q (f a) (f' a')) :
    Agree R U Q (m >>= f) (m' >>= f') := by
  intro s s' hs
  obtain ⟨hend, hstate⟩ := hm s s' hs
  rcases hr : runOn m s with ⟨e | a, t⟩ <;> rcases hr' : runOn m' s' with ⟨e' | a', t'⟩ <;>
    rw [hr, hr'] at hend hstate <;> cases hend
  · rw [runOn_bind_error hr, runOn_bind_error hr']
    exact ⟨.error e e', hstate⟩
  · next hvalue =>
    rw [runOn_bind_ok hr, runOn_bind_ok hr']
    exact hf a a' hvalue t t' hstate

theorem Agree.ite {c c' : Prop} [Decidable c] [Decidable c'] {m n : Act S E α}
    {m' n' : Act S' E α'} (hc : c ↔ c') (hm : Agree R V Q m m') (hn : Agree R V Q n n') :
    Agree R V Q (if c then m else n) (if c' then m' else n') := by
  by_cases h : c
  · rw [if_pos h, if_pos (hc.mp h)]
    exact hm
  · rw [if_neg h, if_neg (mt hc.mpr h)]
    exact hn

/-- Handlers that agree whatever they are given. -/
theorem Agree.orElse {m : Act S E α} {m' : Act S' E α'} {handler : E → Act S E α}
    {handler' : E → Act S' E α'} (hm : Agree R V Q m m')
    (hh : ∀ e e', Agree Q V Q (handler e) (handler' e')) :
    Agree R V Q (orElse m handler) (orElse m' handler') := by
  intro s s' hs
  obtain ⟨hend, hstate⟩ := hm s s' hs
  rw [runOn_orElse, runOn_orElse]
  rcases hr : runOn m s with ⟨e | a, t⟩ <;> rcases hr' : runOn m' s' with ⟨e' | a', t'⟩ <;>
    rw [hr, hr'] at hend hstate <;> cases hend
  · exact hh e e' t t' hstate
  · next hvalue => exact ⟨.ok hvalue, hstate⟩

theorem Agree.withCleanup {m : Act S E α} {m' : Act S' E α'} {cleanup : Act S E PUnit}
    {cleanup' : Act S' E PUnit} (hm : Agree R V Q m m') (hc : Agree Q (· = ·) T cleanup cleanup') :
    Agree R V T (withCleanup m cleanup) (withCleanup m' cleanup') := by
  intro s s' hs
  obtain ⟨hend, hstate⟩ := hm s s' hs
  obtain ⟨hend', hstate'⟩ := hc _ _ hstate
  rw [runOn_withCleanup, runOn_withCleanup]
  rcases hr : runOn cleanup (runOn m s).2 with ⟨e | a, t⟩ <;>
    rcases hr' : runOn cleanup' (runOn m' s').2 with ⟨e' | a', t'⟩ <;>
    rw [hr, hr'] at hend' hstate' <;> cases hend'
  · exact ⟨.error e e', hstate'⟩
  · exact ⟨hend, hstate'⟩

end Act
