import Mathlib.Logic.Relation

/-!
# Computations with state and exceptions

An exception ends a computation but keeps the state reached so far. `Within`
bounds what a computation may do by a one-step relation. A property kept by
every such step then holds at the end of every run, normal or exceptional.
-/

/-- A computation over a state `S` that may end in an exception `E`. -/
abbrev Act (S E : Type) := ExceptT E (StateM S)

namespace Act

open Relation (ReflTransGen)

variable {S T E α β : Type}

/-- The outcome of a computation started in `s`, with the state it reaches. -/
def runOn (m : Act S E α) (s : S) : Except E α × S := (ExceptT.run m).run s

@[simp] theorem runOn_pure (a : α) (s : S) :
    runOn (pure a : Act S E α) s = (.ok a, s) := rfl

@[simp] theorem runOn_throw (e : E) (s : S) :
    runOn (throw e : Act S E α) s = (.error e, s) := rfl

@[simp] theorem runOn_get (s : S) : runOn (get : Act S E S) s = (.ok s, s) := rfl

@[simp] theorem runOn_set (s s' : S) :
    runOn (set s' : Act S E PUnit) s = (.ok ⟨⟩, s') := rfl

@[simp] theorem runOn_modify (f : S → S) (s : S) :
    runOn (modify f : Act S E PUnit) s = (.ok ⟨⟩, f s) := rfl

/-- A value or an exception that does not depend on the state. -/
def fromResult : Except E α → Act S E α
  | .ok a => pure a
  | .error e => throw e

@[simp] theorem runOn_fromResult (x : Except E α) (s : S) :
    runOn (fromResult x) s = (x, s) := by
  cases x <;> rfl

/-- A chain without a state ends normally when both parts do. -/
theorem except_bind_eq_ok {x : Except E α} {f : α → Except E β} {b : β}
    (h : (x >>= f) = .ok b) : ∃ a, x = .ok a ∧ f a = .ok b := by
  cases x with
  | error e => cases h
  | ok a => exact ⟨a, rfl, h⟩

/-- It fails where one of the parts does. -/
theorem except_bind_eq_error {x : Except E α} {f : α → Except E β} {e : E}
    (h : (x >>= f) = .error e) : x = .error e ∨ ∃ a, x = .ok a ∧ f a = .error e := by
  cases x with
  | error e' => exact .inl (congrArg Except.error (Except.error.inj h))
  | ok a => exact .inr ⟨a, rfl, h⟩

theorem runOn_bind (m : Act S E α) (f : α → Act S E β) (s : S) :
    runOn (m >>= f) s =
      match runOn m s with
      | (.ok a, s') => runOn (f a) s'
      | (.error e, s') => (.error e, s') := by
  simp only [runOn, ExceptT.run_bind, StateT.run_bind]
  rcases h : (ExceptT.run m).run s with ⟨_ | _, s'⟩ <;> rfl

theorem runOn_bind_ok {m : Act S E α} {s s' : S} {a : α}
    (h : runOn m s = (.ok a, s')) (f : α → Act S E β) :
    runOn (m >>= f) s = runOn (f a) s' := by
  rw [runOn_bind, h]

theorem runOn_bind_error {m : Act S E α} {s s' : S} {e : E}
    (h : runOn m s = (.error e, s')) (f : α → Act S E β) :
    runOn (m >>= f) s = (.error e, s') := by
  rw [runOn_bind, h]

/-- A normal end of a sequence is a normal end of both parts. -/
theorem runOn_bind_eq_ok {m : Act S E α} {f : α → Act S E β} {s s' : S} {b : β}
    (h : runOn (m >>= f) s = (.ok b, s')) :
    ∃ a t, runOn m s = (.ok a, t) ∧ runOn (f a) t = (.ok b, s') := by
  rw [runOn_bind] at h
  rcases hm : runOn m s with ⟨_ | a, t⟩
  · rw [hm] at h
    cases h
  · rw [hm] at h
    exact ⟨a, t, rfl, h⟩

/-- A handler that runs in the state the exception left. -/
def orElse (m : Act S E α) (handler : E → Act S E α) : Act S E α := tryCatch m handler

theorem runOn_orElse (m : Act S E α) (handler : E → Act S E α) (s : S) :
    runOn (orElse m handler) s =
      match runOn m s with
      | (.ok a, s') => (.ok a, s')
      | (.error e, s') => runOn (handler e) s' := by
  change runOn (ExceptT.tryCatch m handler) s = _
  simp only [runOn, ExceptT.tryCatch, ExceptT.run, ExceptT.mk, StateT.run_bind]
  rcases h : StateT.run m s with ⟨_ | _, s'⟩ <;> rfl

/-- A computation followed by a clean-up, however the computation ends. -/
def withCleanup (m : Act S E α) (cleanup : Act S E PUnit) : Act S E α := do
  let s ← get
  let (r, s') := runOn m s
  set s'
  cleanup
  fromResult r

theorem runOn_withCleanup (m : Act S E α) (cleanup : Act S E PUnit) (s : S) :
    runOn (withCleanup m cleanup) s =
      match runOn cleanup (runOn m s).2 with
      | (.ok _, s') => ((runOn m s).1, s')
      | (.error e, s') => (.error e, s') := by
  simp only [withCleanup, runOn_bind, runOn_get]
  rcases runOn m s with ⟨r, s'⟩
  simp only [runOn_set]
  rcases runOn cleanup s' with ⟨_ | _, s''⟩
  · rfl
  · exact runOn_fromResult r s''

/-- Run a computation on a component of a larger state. -/
def zoom (view : T → S) (put : S → T → T) (m : Act S E α) : Act T E α := do
  let t ← get
  let (r, s) := runOn m (view t)
  set (put s t)
  fromResult r

theorem runOn_zoom (view : T → S) (put : S → T → T) (m : Act S E α) (t : T) :
    runOn (zoom view put m) t =
      ((runOn m (view t)).1, put (runOn m (view t)).2 t) := by
  simp only [zoom, runOn_bind, runOn_get]
  rcases runOn m (view t) with ⟨r, s⟩
  simp

/-- Every run of `m` ends normally with value `a`. -/
def Returns (m : Act S E α) (a : α) : Prop := ∀ s, (runOn m s).1 = .ok a

theorem returns_pure (a : α) : Returns (pure a : Act S E α) a := fun _ => rfl

theorem Returns.bind {m : Act S E α} {f : α → Act S E β} {a : α} {b : β} (hm : Returns m a)
    (hf : Returns (f a) b) : Returns (m >>= f) b := by
  intro s
  have hs := hm s
  rw [runOn_bind]
  rcases hr : runOn m s with ⟨r, s'⟩
  rw [hr] at hs
  obtain rfl : r = .ok a := hs
  exact hf s'

/-- A first part that ends normally in every state, with a value the rest accepts. -/
theorem returns_bind_of {m : Act S E α} {f : α → Act S E β} {b : β}
    (h : ∀ s, ∃ a, (runOn m s).1 = .ok a ∧ Returns (f a) b) : Returns (m >>= f) b := by
  intro s
  obtain ⟨a, ha, hf⟩ := h s
  rw [runOn_bind]
  rcases hr : runOn m s with ⟨r, s'⟩
  rw [hr] at ha
  obtain rfl : r = .ok a := ha
  exact hf s'

theorem Returns.runOn {m : Act S E α} {a : α} (h : Returns m a) (s : S) :
    Act.runOn m s = (.ok a, (Act.runOn m s).2) := by
  rw [← h s]

/-- Every exception of `m` satisfies `P`. -/
def Raises (P : E → Prop) (m : Act S E α) : Prop :=
  ∀ s e s', runOn m s = (.error e, s') → P e

section Raises

variable {P : E → Prop}

theorem raises_of_ok {m : Act S E α} (h : ∀ s, ∃ a, (runOn m s).1 = .ok a) : Raises P m := by
  intro s e s' he
  obtain ⟨a, ha⟩ := h s
  rw [he] at ha
  cases ha

theorem raises_throw {e : E} (he : P e) : Raises P (throw e : Act S E α) := by
  intro s e' s' h
  obtain rfl : e = e' := by simpa using congrArg Prod.fst h
  exact he

theorem raises_fromResult {x : Except E α} (h : ∀ e, x = .error e → P e) :
    Raises P (fromResult x : Act S E α) := by
  intro s e s' he
  rw [runOn_fromResult] at he
  exact h e (congrArg Prod.fst he)

theorem Raises.bind {m : Act S E α} {f : α → Act S E β} (hm : Raises P m)
    (hf : ∀ a, Raises P (f a)) : Raises P (m >>= f) := by
  intro s e s' h
  rw [runOn_bind] at h
  rcases hr : runOn m s with ⟨e' | a, t⟩
  · rw [hr] at h
    obtain rfl := Except.error.inj (Prod.mk.inj h).1
    exact hm s _ t hr
  · rw [hr] at h
    exact hf a t e s' h

theorem Raises.ite {c : Prop} [Decidable c] {m m' : Act S E α} (hm : Raises P m)
    (hm' : Raises P m') : Raises P (if c then m else m') := by
  split
  · exact hm
  · exact hm'

/-- A handler that raises what it may for every exception it is given. -/
theorem Raises.orElse {Q : E → Prop} {m : Act S E α} {handler : E → Act S E α} (hm : Raises Q m)
    (h : ∀ e, Q e → Raises P (handler e)) : Raises P (orElse m handler) := by
  intro s e s' he
  rw [runOn_orElse] at he
  rcases hr : runOn m s with ⟨e' | a, t⟩
  · rw [hr] at he
    exact h e' (hm s e' t hr) t e s' he
  · rw [hr] at he
    cases he

/-- A handler that raises what it may whatever it is given. -/
theorem raises_orElse {m : Act S E α} {handler : E → Act S E α}
    (h : ∀ e, Raises P (handler e)) : Raises P (orElse m handler) :=
  Raises.orElse (Q := fun _ => True) (fun _ _ _ _ => trivial) fun e _ => h e

theorem Raises.withCleanup {m : Act S E α} {cleanup : Act S E PUnit} (hm : Raises P m)
    (hc : Raises P cleanup) : Raises P (withCleanup m cleanup) := by
  intro s e s' h
  rw [runOn_withCleanup] at h
  rcases hr : runOn cleanup (runOn m s).2 with ⟨e' | _, t⟩
  · rw [hr] at h
    obtain rfl := Except.error.inj (Prod.mk.inj h).1
    exact hc _ _ t hr
  · rw [hr] at h
    apply hm s e (runOn m s).2
    rw [← (Prod.mk.inj h).1]

theorem Raises.zoom {view : T → S} {put : S → T → T} {m : Act S E α} (hm : Raises P m) :
    Raises P (zoom view put m) := by
  intro t e t' h
  rw [runOn_zoom] at h
  apply hm (view t) e (runOn m (view t)).2
  rw [← (Prod.mk.inj h).1]

/-- A computation that raises nothing ends normally. -/
theorem ends_of_raises_nothing {m : Act S E α} (h : Raises (fun _ => False) m) (s : S) :
    ∃ a, (runOn m s).1 = .ok a := by
  rcases hr : runOn m s with ⟨e | a, s'⟩
  · exact (h s e s' hr).elim
  · exact ⟨a, rfl⟩

end Raises

/-- Every value of `m` satisfies `P`. -/
def Yields (P : α → Prop) (m : Act S E α) : Prop :=
  ∀ s a s', runOn m s = (.ok a, s') → P a

section Yields

variable {P : α → Prop}

theorem yields_pure {a : α} (ha : P a) : Yields P (pure a : Act S E α) := by
  intro s a' s' h
  obtain ⟨h, -⟩ := Prod.mk.inj h
  obtain rfl := Except.ok.inj h
  exact ha

theorem yields_bind {m : Act S E β} {f : β → Act S E α} (hf : ∀ b, Yields P (f b)) :
    Yields P (m >>= f) := by
  intro s a s' h
  obtain ⟨b, t, -, hb⟩ := runOn_bind_eq_ok h
  exact hf b t a s' hb

theorem Yields.bind {Q : β → Prop} {m : Act S E β} {f : β → Act S E α} (hm : Yields Q m)
    (hf : ∀ b, Q b → Yields P (f b)) : Yields P (m >>= f) := by
  intro s a s' h
  obtain ⟨b, t, hb, ha⟩ := runOn_bind_eq_ok h
  exact hf b (hm s b t hb) t a s' ha

theorem yields_throw (e : E) : Yields P (throw e : Act S E α) := fun _ _ _ h => by cases h

theorem yields_fromResult {x : Except E α} (h : ∀ a, x = .ok a → P a) :
    Yields P (fromResult x : Act S E α) := by
  intro s a s' ha
  rw [runOn_fromResult] at ha
  exact h a (congrArg Prod.fst ha)

/-- The rest only has to take the values of the first part. -/
theorem Raises.bind_yields {R : E → Prop} {Q : β → Prop} {m : Act S E β} {f : β → Act S E α}
    (hm : Raises R m) (hy : Yields Q m) (hf : ∀ b, Q b → Raises R (f b)) :
    Raises R (m >>= f) := by
  intro s e s' h
  rw [runOn_bind] at h
  rcases hr : runOn m s with ⟨e' | b, t⟩
  · rw [hr] at h
    obtain rfl := Except.error.inj (Prod.mk.inj h).1
    exact hm s _ t hr
  · rw [hr] at h
    exact hf b (hy s b t hr) t e s' h

theorem Yields.ite {c : Prop} [Decidable c] {m m' : Act S E α} (hm : Yields P m)
    (hm' : Yields P m') : Yields P (if c then m else m') := by
  split
  · exact hm
  · exact hm'

theorem Yields.withCleanup {m : Act S E α} {cleanup : Act S E PUnit} (hm : Yields P m) :
    Yields P (withCleanup m cleanup) := by
  intro s a s' h
  rw [runOn_withCleanup] at h
  split at h
  · exact hm s a (runOn m s).2 (Prod.ext (Prod.mk.inj h).1 rfl)
  · cases h

end Yields

/-- Every run of `m` is a chain of steps of `step`, also when it ends in an exception. -/
def Within (step : S → S → Prop) (m : Act S E α) : Prop :=
  ∀ s, ReflTransGen step s (runOn m s).2

section Within

variable {step : S → S → Prop}

theorem within_of_fixed {m : Act S E α} (h : ∀ s, (runOn m s).2 = s) : Within step m := by
  intro s
  rw [h s]

@[simp] theorem within_pure (a : α) : Within step (pure a : Act S E α) :=
  within_of_fixed fun _ => rfl

@[simp] theorem within_throw (e : E) : Within step (throw e : Act S E α) :=
  within_of_fixed fun _ => rfl

@[simp] theorem within_get : Within step (get : Act S E S) :=
  within_of_fixed fun _ => rfl

@[simp] theorem within_fromResult (x : Except E α) : Within step (fromResult x : Act S E α) :=
  within_of_fixed fun s => by simp

theorem within_modify {f : S → S} (h : ∀ s, step s (f s)) :
    Within step (modify f : Act S E PUnit) := fun s => .single (h s)

theorem Within.bind {m : Act S E α} {f : α → Act S E β} (hm : Within step m)
    (hf : ∀ a, Within step (f a)) : Within step (m >>= f) := by
  intro s
  have h := hm s
  rw [runOn_bind]
  rcases hr : runOn m s with ⟨_ | a, s'⟩
  · simpa only [hr] using h
  · rw [hr] at h
    exact h.trans (hf a s')

theorem Within.ite {c : Prop} [Decidable c] {m m' : Act S E α} (hm : Within step m)
    (hm' : Within step m') : Within step (if c then m else m') := by
  split
  · exact hm
  · exact hm'

theorem Within.orElse {m : Act S E α} {handler : E → Act S E α} (hm : Within step m)
    (hh : ∀ e, Within step (handler e)) : Within step (orElse m handler) := by
  intro s
  have h := hm s
  rw [runOn_orElse]
  rcases hr : runOn m s with ⟨e | a, s'⟩
  · rw [hr] at h
    exact h.trans (hh e s')
  · simpa only [hr] using h

theorem Within.withCleanup {m : Act S E α} {cleanup : Act S E PUnit} (hm : Within step m)
    (hc : Within step cleanup) : Within step (withCleanup m cleanup) := by
  intro s
  have h := (hm s).trans (hc (runOn m s).2)
  rw [runOn_withCleanup]
  rcases hr : runOn cleanup (runOn m s).2 with ⟨e | a, s'⟩ <;> simpa only [hr] using h

theorem Within.mono {step' : S → S → Prop} {m : Act S E α} (h : Within step m)
    (hs : ∀ s s', step s s' → step' s s') : Within step' m :=
  fun s => Relation.ReflTransGen.mono hs _ _ (h s)

/-- What every step keeps, every run keeps. -/
theorem Within.keeps {m : Act S E α} (h : Within step m) {I : S → Prop}
    (hI : ∀ s s', step s s' → I s → I s') {s : S} (hs : I s) : I (runOn m s).2 := by
  have hchain : ∀ t, ReflTransGen step s t → I t := by
    intro t ht
    induction ht with
    | refl => exact hs
    | tail _ hstep ih => exact hI _ _ hstep ih
  exact hchain _ (h s)

/-- A component that no step changes is the same at the end of every run. -/
theorem Within.view_eq {m : Act S E α} (h : Within step m) {v : S → β}
    (hv : ∀ s s', step s s' → v s' = v s) (s : S) :
    v (runOn m s).2 = v s :=
  h.keeps (I := fun t => v t = v s) (fun _ _ hst ht => (hv _ _ hst).trans ht) rfl

end Within

end Act
