import Mathlib.Logic.Function.Basic

/-!
# Writes to a store, in order

A store maps keys to values. After a list of writes a key holds the value of the
last write to it, or what it held before when no write was to it.
-/

namespace Store

variable {K V : Type} [DecidableEq K]

/-- The store after one write. -/
def write (s : K → Option V) (w : K × V) : K → Option V :=
  Function.update s w.1 (some w.2)

/-- The store after the writes. -/
def replay (s : K → Option V) (ws : List (K × V)) : K → Option V := ws.foldl write s

/-- The value of the last write to a key. -/
def lastValue (k : K) (ws : List (K × V)) : Option V :=
  ((ws.filter fun w => w.1 = k).getLast?).map Prod.snd

@[simp] theorem replay_nil (s : K → Option V) : replay s [] = s := rfl

@[simp] theorem replay_cons (s : K → Option V) (w : K × V) (ws : List (K × V)) :
    replay s (w :: ws) = replay (write s w) ws := rfl

theorem replay_append (s : K → Option V) (ws ws' : List (K × V)) :
    replay s (ws ++ ws') = replay (replay s ws) ws' :=
  List.foldl_append

theorem lastValue_cons_same (k : K) (v : V) (ws : List (K × V)) :
    lastValue k ((k, v) :: ws) = (lastValue k ws).or (some v) := by
  unfold lastValue
  rw [List.filter_cons_of_pos (by simp), List.getLast?_cons]
  cases (ws.filter fun w => w.1 = k).getLast? with
  | none => rfl
  | some w => rfl

theorem lastValue_cons_ne {k : K} {w : K × V} (h : w.1 ≠ k) (ws : List (K × V)) :
    lastValue k (w :: ws) = lastValue k ws := by
  unfold lastValue
  rw [List.filter_cons_of_neg (by simpa using h)]

/-- What a key holds after the writes. -/
theorem replay_apply (s : K → Option V) (ws : List (K × V)) (k : K) :
    replay s ws k = (lastValue k ws).or (s k) := by
  induction ws generalizing s with
  | nil => rfl
  | cons w ws ih =>
      obtain ⟨k', v⟩ := w
      rw [replay_cons, ih]
      by_cases h : k' = k
      · subst h
        rw [lastValue_cons_same, write, Function.update_self, Option.or_assoc]
        rfl
      · rw [lastValue_cons_ne h, write, Function.update_of_ne (Ne.symm h)]

/-- A write that an immediately following write to the same key replaces. -/
theorem replay_overwritten (s : K → Option V) (k : K) (v v' : V) (ws : List (K × V)) :
    replay s ((k, v) :: (k, v') :: ws) = replay s ((k, v') :: ws) := by
  simp only [replay_cons, write, Function.update_idem]

theorem replay_of_notMem {ws : List (K × V)} {k : K} (h : k ∉ ws.map Prod.fst)
    (s : K → Option V) : replay s ws k = s k := by
  have hnone : (ws.filter fun w => w.1 = k) = [] := by
    rw [List.filter_eq_nil_iff]
    intro w hw
    simpa using fun hk : w.1 = k => h (hk ▸ List.mem_map_of_mem hw)
  rw [replay_apply, lastValue, hnone]
  rfl

/-- Where no key is written twice, every write lasts. -/
theorem replay_of_mem {ws : List (K × V)} (hnodup : (ws.map Prod.fst).Nodup) {k : K} {v : V}
    (h : (k, v) ∈ ws) (s : K → Option V) : replay s ws k = some v := by
  induction ws generalizing s with
  | nil => cases h
  | cons w ws ih =>
      obtain ⟨hnew, hnodup⟩ := List.nodup_cons.mp hnodup
      rw [replay_cons]
      cases h with
      | head => rw [replay_of_notMem hnew, write, Function.update_self]
      | tail _ h => exact ih hnodup h _

/-- Where no key is written twice, the order of the writes does not matter. -/
theorem replay_perm {ws ws' : List (K × V)} (hnodup : (ws.map Prod.fst).Nodup)
    (h : ws.Perm ws') (s : K → Option V) : replay s ws = replay s ws' := by
  funext k
  by_cases hk : k ∈ ws.map Prod.fst
  · obtain ⟨⟨k, v⟩, hmem, rfl⟩ := List.mem_map.mp hk
    rw [replay_of_mem hnodup hmem, replay_of_mem ((h.map Prod.fst).nodup hnodup) (h.mem_iff.mp hmem)]
  · rw [replay_of_notMem hk, replay_of_notMem fun hk' => hk ((h.map Prod.fst).mem_iff.mpr hk')]

end Store
