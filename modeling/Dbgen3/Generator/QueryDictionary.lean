import Dbgen3.Lib.Runs
import Dbgen3.Generator.Namespaces

/-!
# The dictionary of a query set

`q_insert` appends the query to `q_vec_` and enters its id into `q_dic_` after
that. A second query with an id is found by the dictionary only, and it is in
the vector by then. The two containers agree as long as the ids are distinct
and an `int` holds every index.
-/

namespace Dbgen3.Generator

namespace GsqlQSet

/-- The number that `q_dic_` has for an id, an `int`. -/
def qDicAt (set : GsqlQSet) (id : Str) : Option Int :=
  (set.qDic.find? fun entry => entry.1 == id).map fun entry => int32 entry.2

/-- `q_dic_` maps the id of each query to its index in `q_vec_`, knows no other id, and has as
many entries. -/
structure Indexed (set : GsqlQSet) : Prop where
  index : ∀ (i : Nat) (q : GsqlQ), set.qVec[i]? = some q →
    set.qDicAt q.id = some (i : Int)
  known : ∀ (id : Str) (i : Int), set.qDicAt id = some i →
    ∃ (k : Nat) (q : GsqlQ), set.qVec[k]? = some q ∧ q.id = id ∧ i = k
  size : set.qDic.length = set.qVec.length

/-- The set behind a call of `q_insert`, whatever it returned. -/
def afterInsert (set : GsqlQSet) (q : GsqlQ) : GsqlQSet := (set.qInsert q).2

/-- A call of `q_insert` that returns `false` leaves the set as it was. -/
def RejectsUnchanged (set : GsqlQSet) (q : GsqlQ) : Prop :=
  (set.qInsert q).1 = false → set.afterInsert q = set

/-- Every entry was made for a query of the vector, no id came twice, and an `int` holds every
index. -/
structure Numbered (set : GsqlQSet) : Prop where
  entries : set.qDic = set.qVec.mapIdx fun i q => (q.id, i)
  nodup : (set.qVec.map GsqlQ.id).Nodup
  small : set.qVec.length ≤ 2 ^ 31

end GsqlQSet

open GsqlQSet

/-- Among distinct keys a search finds the entry itself. -/
theorem find?_key {entries : List (Str × Nat)} (h : (entries.map Prod.fst).Nodup)
    {entry : Str × Nat} (hmem : entry ∈ entries) :
    entries.find? (fun other => other.1 == entry.1) = some entry := by
  induction entries with
  | nil => cases hmem
  | cons other rest ih =>
      obtain ⟨hnew, hrest⟩ := List.nodup_cons.mp h
      rcases List.mem_cons.mp hmem with rfl | hmem
      · exact List.find?_cons_of_pos (beq_self_eq_true _)
      · have hne : other.1 ≠ entry.1 := by
          intro heq
          apply hnew
          rw [heq]
          exact List.mem_map_of_mem hmem
        rw [List.find?_cons_of_neg (by simpa using hne)]
        exact ih hrest hmem

section

variable {set : GsqlQSet}

theorem qDic_qInsert_old {q : GsqlQ} (h : (set.qInsert q).1 = false) :
    (set.qInsert q).2.qDic = set.qDic := by
  unfold GsqlQSet.qInsert at h ⊢
  split at h
  · next hmem => rw [if_pos hmem]
  · cases h

theorem qDic_qInsert_new {q : GsqlQ} (h : (set.qInsert q).1 = true) :
    (set.qInsert q).2.qDic = set.qDic ++ [(q.id, set.qVec.length)] := by
  unfold GsqlQSet.qInsert at h ⊢
  split at h
  · cases h
  · next hmem =>
    rw [if_neg hmem]
    simp

theorem GsqlQSet.Numbered.keyed (h : set.Numbered) : Keyed set := by
  refine ⟨?_, h.nodup⟩
  rw [h.entries]
  apply List.ext_getElem
  · simp
  · intro i h₁ h₂
    simp

theorem GsqlQSet.Numbered.length_qDic (h : set.Numbered) : set.qDic.length = set.qVec.length := by
  rw [h.entries, List.length_mapIdx]

/-- An id of the vector is found with its index. -/
theorem GsqlQSet.Numbered.qDicAt_eq (h : set.Numbered) {i : Nat} {q : GsqlQ}
    (hq : set.qVec[i]? = some q) : set.qDicAt q.id = some (int32 i) := by
  have hmem : (q.id, i) ∈ set.qDic := by
    rw [h.entries, List.mem_mapIdx]
    obtain ⟨hi, rfl⟩ := List.getElem?_eq_some_iff.mp hq
    exact ⟨i, hi, rfl⟩
  have hkeys : (set.qDic.map Prod.fst).Nodup := by
    rw [h.keyed.keys]
    exact h.nodup
  unfold qDicAt
  rw [find?_key hkeys hmem]
  rfl

theorem GsqlQSet.Numbered.indexed (h : set.Numbered) : set.Indexed := by
  have hint : ∀ {i : Nat} {q : GsqlQ}, set.qVec[i]? = some q → int32 i = i := by
    intro i q hq
    obtain ⟨hi, -⟩ := List.getElem?_eq_some_iff.mp hq
    have hsmall := h.small
    exact (int32_natCast_eq_self_iff i).mpr (by omega)
  constructor
  · intro i q hq
    rw [h.qDicAt_eq hq, hint hq]
  · intro id i hi
    obtain ⟨entry, hfind, hval⟩ := Option.map_eq_some_iff.mp hi
    have hid : entry.1 = id := by simpa using List.find?_some hfind
    have hmem := List.mem_of_find?_eq_some hfind
    rw [h.entries, List.mem_mapIdx] at hmem
    obtain ⟨k, hk, rfl⟩ := hmem
    have hq : set.qVec[k]? = some set.qVec[k] := List.getElem?_eq_getElem hk
    exact ⟨k, _, hq, hid, by rw [← hval, hint hq]⟩
  · exact h.length_qDic

/-- A query with a new id at an index that an `int` holds keeps the entries in step. -/
theorem GsqlQSet.Numbered.afterInsert (h : set.Numbered) {q : GsqlQ}
    (hnew : q.id ∉ set.qVec.map GsqlQ.id) (hlt : set.qVec.length < 2 ^ 31) :
    (set.afterInsert q).Numbered := by
  have hfst := (h.keyed.qInsert_fst q).mpr hnew
  have hvec : (set.afterInsert q).qVec = set.qVec ++ [q] := qInsert_qVec set q
  constructor
  · have hdic : (set.afterInsert q).qDic = set.qDic ++ [(q.id, set.qVec.length)] :=
      qDic_qInsert_new hfst
    rw [hdic, hvec, List.mapIdx_append, h.entries]
    simp
  · exact (h.keyed.qInsert_snd hfst).nodup
  · rw [hvec, List.length_append]
    exact hlt

/-- A query with a known id is in the vector and not in the dictionary. -/
theorem GsqlQSet.Numbered.not_indexed_of_old (h : set.Numbered) {q : GsqlQ}
    (hold : q.id ∈ set.qVec.map GsqlQ.id) : ¬ (set.afterInsert q).Indexed := by
  intro hind
  have hfst : (set.qInsert q).1 = false := by
    by_contra hne
    exact (h.keyed.qInsert_fst q).mp (Bool.eq_true_of_not_eq_false hne) hold
  have hsize : (set.qInsert q).2.qDic.length = (set.qInsert q).2.qVec.length := hind.size
  rw [qDic_qInsert_old hfst, qInsert_qVec, h.length_qDic, List.length_append] at hsize
  simp at hsize

/-- The index `2 ^ 31` is entered as a negative number. -/
theorem GsqlQSet.Numbered.not_indexed_of_large (h : set.Numbered) {q : GsqlQ}
    (hnew : q.id ∉ set.qVec.map GsqlQ.id) (hlen : ¬ set.qVec.length < 2 ^ 31) :
    ¬ (set.afterInsert q).Indexed := by
  intro hind
  have hfst := (h.keyed.qInsert_fst q).mpr hnew
  have hkeyed : Keyed (set.qInsert q).2 := h.keyed.qInsert_snd hfst
  have hmem : (q.id, set.qVec.length) ∈ (set.qInsert q).2.qDic := by
    rw [qDic_qInsert_new hfst]
    exact List.mem_append_right _ (List.mem_singleton_self _)
  have hkeys : ((set.qInsert q).2.qDic.map Prod.fst).Nodup := by
    rw [hkeyed.keys]
    exact hkeyed.nodup
  have hat : (set.afterInsert q).qVec[set.qVec.length]? = some q := by
    change (set.qInsert q).2.qVec[_]? = _
    rw [qInsert_qVec, List.getElem?_concat_length]
  have hindex := hind.index _ q hat
  change ((set.qInsert q).2.qDic.find? _).map _ = _ at hindex
  rw [find?_key hkeys hmem] at hindex
  have hint : int32 set.qVec.length = set.qVec.length := Option.some.inj hindex
  exact hlen ((int32_natCast_eq_self_iff _).mp hint)

/-- A rejected query changes the vector. -/
theorem rejectsUnchanged_iff (set : GsqlQSet) (q : GsqlQ) :
    set.RejectsUnchanged q ↔ (set.qInsert q).1 = true := by
  constructor
  · intro h
    by_contra hne
    have heq : (set.qInsert q).2 = set := h (Bool.eq_false_of_not_eq_true hne)
    have hvec := congrArg (fun s : GsqlQSet => s.qVec.length) heq
    simp only [qInsert_qVec, List.length_append] at hvec
    simp at hvec
  · intro h hfalse
    rw [h] at hfalse
    cases hfalse

end

/-- Every query of a run has a new id and an index that an `int` holds exactly when all ids are
distinct and there are at most `2 ^ 31` of them. -/
theorem allSteps_new_iff {set : GsqlQSet} (h : set.Numbered) (qs : List GsqlQ) :
    Runs.AllSteps GsqlQSet.afterInsert
        (fun set q => q.id ∉ set.qVec.map GsqlQ.id ∧ set.qVec.length < 2 ^ 31) qs set ↔
      (set.qVec.map GsqlQ.id ++ qs.map GsqlQ.id).Nodup ∧
        set.qVec.length + qs.length ≤ 2 ^ 31 := by
  induction qs generalizing set with
  | nil => simpa using ⟨h.nodup, h.small⟩
  | cons q qs ih =>
      have hvec : (set.afterInsert q).qVec = set.qVec ++ [q] := qInsert_qVec set q
      rw [Runs.allSteps_cons]
      constructor
      · rintro ⟨⟨hnew, hlt⟩, hrest⟩
        obtain ⟨hnodup, hlen⟩ := (ih (h.afterInsert hnew hlt)).mp hrest
        rw [hvec] at hnodup hlen
        simp only [List.map_append, List.map_cons, List.map_nil, List.append_assoc,
          List.singleton_append] at hnodup
        simp only [List.length_append, List.length_cons, List.length_nil] at hlen ⊢
        exact ⟨hnodup, by omega⟩
      · rintro ⟨hnodup, hlen⟩
        rw [List.length_cons] at hlen
        have hnew : q.id ∉ set.qVec.map GsqlQ.id := fun hmem =>
          (List.nodup_append.mp hnodup).2.2 _ hmem _ List.mem_cons_self rfl
        have hlt : set.qVec.length < 2 ^ 31 := by omega
        refine ⟨⟨hnew, hlt⟩, (ih (h.afterInsert hnew hlt)).mpr ⟨?_, ?_⟩⟩
        · rw [hvec, List.map_append, List.append_assoc]
          exact hnodup
        · rw [hvec, List.length_append, List.length_singleton]
          omega

/-- From an empty set on, dictionary and vector agree after every call and the rejected calls
change nothing exactly when no id is inserted twice and an `int` holds every index. -/
theorem indexed_throughout_iff (header : MultiLine) (id : Str) (qs : List GsqlQ) :
    ((∀ pre post, qs = pre ++ post → (pre.foldl afterInsert { header, id }).Indexed) ∧
        Runs.AllSteps afterInsert RejectsUnchanged qs { header, id }) ↔
      (qs.map GsqlQ.id).Nodup ∧ qs.length ≤ 2 ^ 31 := by
  have hempty : GsqlQSet.Numbered { header, id } := ⟨rfl, List.nodup_nil, Nat.zero_le _⟩
  have hthroughout := Runs.AllSteps.holds_throughout_iff
    (C := fun set q => q.id ∉ set.qVec.map GsqlQ.id ∧ set.qVec.length < 2 ^ 31)
    (P := GsqlQSet.Indexed) (fun set hset => hset.indexed)
    (fun set q hset _ hC => hset.afterInsert hC.1 hC.2)
    (fun set q hset _ hC => by
      by_cases hnew : q.id ∈ set.qVec.map GsqlQ.id
      · exact hset.not_indexed_of_old hnew
      · exact hset.not_indexed_of_large hnew fun hlt => hC ⟨hnew, hlt⟩)
    ((Runs.allSteps_const (fun _ => True) qs _).mpr fun _ _ => trivial) hempty
  have hnew := allSteps_new_iff hempty qs
  simp only [List.map_nil, List.nil_append, List.length_nil, Nat.zero_add] at hnew
  rw [hthroughout, hnew]
  refine and_iff_left_of_imp fun h => ?_
  refine (hnew.mpr h).of_invariant (fun set q hset hC => hset.afterInsert hC.1 hC.2) ?_ hempty
  intro set q hset hC
  exact (rejectsUnchanged_iff set q).mpr ((hset.keyed.qInsert_fst q).mpr hC.1)

/-- The second of two queries with one id is not inserted, and yet the vector has it. -/
theorem not_indexed_same_ids :
    let q : GsqlQ := { id := "a", sqlSet := { dbType := .db2 } }
    let set : GsqlQSet := ({} : GsqlQSet).afterInsert q
    (set.qInsert q).1 = false ∧ (set.afterInsert q).qVec = [q, q] ∧
      (set.afterInsert q).qDic = [("a".toList, 0)] ∧
      ¬ ((∀ pre post, [q, q] = pre ++ post →
            (pre.foldl afterInsert ({} : GsqlQSet)).Indexed) ∧
          Runs.AllSteps afterInsert RejectsUnchanged [q, q] ({} : GsqlQSet)) := by
  intro q set
  refine ⟨rfl, rfl, rfl, ?_⟩
  rintro ⟨hindexed, -⟩
  have hsize : [("a".toList, 0)].length = [q, q].length := (hindexed [q, q] [] rfl).size
  cases hsize

end Dbgen3.Generator
