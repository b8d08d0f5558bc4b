/-!
# Runs of a deterministic step function

A run folds a list of actions. `AllSteps` states a condition on every step
taken, in the state where it is taken. An invariant needs the condition only
where its own step lemma uses it, and a property of a log that only grows is
the same as a property of what each step adds to it.
-/

namespace Runs

variable {S A E : Type} (step : S → A → S)

/-- Every action of the run satisfies `C` in the state it is taken in. -/
def AllSteps (C : S → A → Prop) (as : List A) (s : S) : Prop :=
  ∀ pre a post, as = pre ++ a :: post → C (pre.foldl step s) a

variable {step}

@[simp] theorem allSteps_nil (C : S → A → Prop) (s : S) : AllSteps step C [] s := by
  intro pre a post h
  simp at h

@[simp] theorem allSteps_cons (C : S → A → Prop) (a : A) (as : List A) (s : S) :
    AllSteps step C (a :: as) s ↔ C s a ∧ AllSteps step C as (step s a) := by
  constructor
  · intro h
    refine ⟨h [] a as rfl, ?_⟩
    intro pre b post hsplit
    exact h (a :: pre) b post (by rw [hsplit]; rfl)
  · rintro ⟨hhead, htail⟩ pre b post hsplit
    cases pre with
    | nil =>
        obtain ⟨rfl, -⟩ := List.cons.inj hsplit
        exact hhead
    | cons c pre =>
        obtain ⟨rfl, hrest⟩ := List.cons.inj hsplit
        exact htail pre b post hrest

theorem AllSteps.congr {C D : S → A → Prop} {as : List A} {s : S}
    (h : ∀ s, ∀ a ∈ as, C s a ↔ D s a) : AllSteps step C as s ↔ AllSteps step D as s := by
  constructor <;> intro hc pre a post hsplit
  · exact (h _ a (by simp [hsplit])).mp (hc pre a post hsplit)
  · exact (h _ a (by simp [hsplit])).mpr (hc pre a post hsplit)

/-- A condition on the actions alone. -/
theorem allSteps_const (P : A → Prop) (as : List A) (s : S) :
    AllSteps step (fun _ a => P a) as s ↔ ∀ a ∈ as, P a := by
  constructor
  · intro h a ha
    obtain ⟨pre, post, hsplit⟩ := List.append_of_mem ha
    exact h pre a post hsplit
  · rintro h pre a post rfl
    exact h a (List.mem_append_right pre List.mem_cons_self)

/-- A run over mapped actions is a run of the composed step function. -/
theorem allSteps_map {B : Type} (f : B → A) (C : S → A → Prop) (bs : List B) (s : S) :
    AllSteps step C (bs.map f) s ↔
      AllSteps (fun s b => step s (f b)) (fun s b => C s (f b)) bs s := by
  induction bs generalizing s with
  | nil => simp
  | cons b bs ih => rw [List.map_cons, allSteps_cons, allSteps_cons, ih]

/-- An invariant that the steps keep holds throughout the run. -/
theorem AllSteps.invariant {C : S → A → Prop} {I : S → Prop}
    (hstep : ∀ s a, I s → C s a → I (step s a)) {as : List A} {s : S}
    (hC : AllSteps step C as s) (hs : I s) {pre post : List A} (hsplit : as = pre ++ post) :
    I (pre.foldl step s) := by
  induction pre generalizing as s with
  | nil => exact hs
  | cons a pre ih =>
      subst hsplit
      obtain ⟨hhead, htail⟩ := (allSteps_cons C a (pre ++ post) s).mp hC
      exact ih htail (hstep s a hs hhead) rfl

/-- An invariant may be used in the state of every step. -/
theorem AllSteps.of_invariant {C D : S → A → Prop} {I : S → Prop}
    (hstep : ∀ s a, I s → C s a → I (step s a)) (hD : ∀ s a, I s → C s a → D s a)
    {as : List A} {s : S} (hC : AllSteps step C as s) (hs : I s) : AllSteps step D as s :=
  fun pre a post hsplit => hD _ a (hC.invariant hstep hs hsplit) (hC pre a post hsplit)

/-- Where every step allowed by `D` keeps an invariant when it satisfies `C` and breaks the
property otherwise, the property holds throughout a run exactly when all its steps satisfy `C`. -/
theorem AllSteps.holds_throughout_iff {C D : S → A → Prop} {I P : S → Prop}
    (hP : ∀ s, I s → P s) (hkeep : ∀ s a, I s → D s a → C s a → I (step s a))
    (hbreak : ∀ s a, I s → D s a → ¬ C s a → ¬ P (step s a)) {as : List A} {s : S}
    (hD : AllSteps step D as s) (hs : I s) :
    (∀ pre post, as = pre ++ post → P (pre.foldl step s)) ↔ AllSteps step C as s := by
  induction as generalizing s with
  | nil =>
      refine iff_of_true (fun pre post h => ?_) (allSteps_nil C s)
      obtain ⟨rfl, -⟩ := List.append_eq_nil_iff.mp h.symm
      exact hP s hs
  | cons a as ih =>
      obtain ⟨hhead, htail⟩ := (allSteps_cons D a as s).mp hD
      rw [allSteps_cons]
      constructor
      · intro h
        have hC : C s a := Classical.byContradiction fun hC =>
          hbreak s a hs hhead hC (h [a] as rfl)
        refine ⟨hC, (ih htail (hkeep s a hs hhead hC)).mp fun pre post hsplit => ?_⟩
        exact h (a :: pre) post (congrArg (a :: ·) hsplit)
      · rintro ⟨hC, hrest⟩ pre post hsplit
        cases pre with
        | nil => exact hP s hs
        | cons b pre =>
            obtain ⟨rfl, htail'⟩ := List.cons.inj hsplit
            exact (ih htail (hkeep s a hs hhead hC)).mpr hrest pre post htail'

/-! ## Logs -/

variable {log : S → List E}

/-- The entries a later state has beyond an earlier one. -/
def newEntries (log : S → List E) (s s' : S) : List E := (log s').drop (log s).length

theorem newEntries_eq {s s' : S} {new : List E} (h : log s' = log s ++ new) :
    newEntries log s s' = new := by
  unfold newEntries
  rw [h, List.drop_left]

variable (step log) in
/-- No step removes or changes an entry of the log. -/
def Grows : Prop := ∀ s a, log s <+: log (step s a)

theorem Grows.run (hg : Grows step log) (as : List A) (s : S) :
    log s <+: log (as.foldl step s) := by
  induction as generalizing s with
  | nil => exact List.prefix_refl _
  | cons a as ih => exact (hg s a).trans (ih (step s a))

/-- A property of all new entries of a run is a property of what each step adds. -/
theorem Grows.forall_newEntries_iff (hg : Grows step log) (P : E → Prop) (as : List A) (s : S) :
    (∀ e ∈ newEntries log s (as.foldl step s), P e) ↔
      AllSteps step (fun s a => ∀ e ∈ newEntries log s (step s a), P e) as s := by
  induction as generalizing s with
  | nil => simp [newEntries]
  | cons a as ih =>
      obtain ⟨new₁, h₁⟩ := hg s a
      obtain ⟨new₂, h₂⟩ := hg.run as (step s a)
      have hall : log ((a :: as).foldl step s) = log s ++ (new₁ ++ new₂) := by
        rw [List.foldl_cons, ← h₂, ← h₁, List.append_assoc]
      rw [allSteps_cons, ← ih, newEntries_eq hall, newEntries_eq h₁.symm, newEntries_eq h₂.symm]
      simp only [List.mem_append, or_imp, forall_and]

end Runs
