import Dbgen3.Generator.Loading

/-!
# The queries of a document

The queries of a document are numbered in order. Each has an id of its own or
one that is made of its number. A set is refused for equal ids, while the
namespaces of the generated code are the ids in snake case.
-/

namespace Dbgen3.Generator

open Act Text
open Dbgen3.Runtime (Cli World Handle)

/-- A `<q>` element and its number. -/
structure QElement where
  attrs : Attrs
  children : List Dom
  ndx : Nat

/-- The explicit or implicit id. -/
def QElement.id (el : QElement) : Str := queryId el.attrs el.ndx

/-- The `<q>` elements among the children of a document, behind the first `qNdx` queries. -/
def qElements : Nat → List Dom → List QElement
  | _, [] => []
  | qNdx, .element locName attrs children :: rest =>
      if locName = "q".toList then ⟨attrs, children, qNdx + 1⟩ :: qElements (qNdx + 1) rest
      else qElements qNdx rest
  | qNdx, _ :: rest => qElements qNdx rest

theorem mem_qElements {el : QElement} {nodes : List Dom} {qNdx : Nat}
    (h : el ∈ qElements qNdx nodes) : .element "q" el.attrs el.children ∈ nodes := by
  induction nodes generalizing qNdx with
  | nil => cases h
  | cons n rest ih =>
      cases n with
      | element name attrs children =>
          rw [qElements] at h
          split at h
          · next hname =>
            subst hname
            rcases List.mem_cons.mp h with rfl | h
            · exact List.mem_cons_self
            · exact List.mem_cons_of_mem _ (ih h)
          · exact List.mem_cons_of_mem _ (ih h)
      | text data => exact List.mem_cons_of_mem _ (ih h)
      | cdataSection data => exact List.mem_cons_of_mem _ (ih h)
      | comment => exact List.mem_cons_of_mem _ (ih h)
      | other type => exact List.mem_cons_of_mem _ (ih h)

/-- A child that loading a set leaves out. -/
def Dom.IsSkipped (n : Dom) : Prop :=
  ∀ attrs cs, n ≠ .element "hdr" attrs cs ∧ n ≠ .element "q" attrs cs

/-- The children that loading a set tells apart. -/
theorem Dom.hdr_or_q_or_skipped (n : Dom) :
    (∃ attrs cs, n = .element "hdr" attrs cs) ∨ (∃ attrs cs, n = .element "q" attrs cs) ∨
      n.IsSkipped := by
  by_cases hhdr : ∃ attrs cs, n = .element "hdr" attrs cs
  · exact .inl hhdr
  · by_cases hq : ∃ attrs cs, n = .element "q" attrs cs
    · exact .inr (.inl hq)
    · exact .inr (.inr fun attrs cs => ⟨fun h => hhdr ⟨attrs, cs, h⟩, fun h => hq ⟨attrs, cs, h⟩⟩)

theorem Dom.IsSkipped.name_ne {name : Str} {attrs : Attrs} {cs : List Dom}
    (h : (Dom.element name attrs cs).IsSkipped) : name ≠ "hdr".toList ∧ name ≠ "q".toList := by
  constructor
  · rintro rfl
    exact (h attrs cs).1 rfl
  · rintro rfl
    exact (h attrs cs).2 rfl

theorem qElements_skipped {n : Dom} (h : n.IsSkipped) (qNdx : Nat) (rest : List Dom) :
    qElements qNdx (n :: rest) = qElements qNdx rest := by
  cases n with
  | element name attrs cs => exact if_neg h.name_ne.2
  | _ => rfl

/-- The ids of the queries in order. -/
def queryIds (children : List Dom) : List Str := (qElements 0 children).map QElement.id

/-- The namespaces of the queries in order. -/
def namespaces (children : List Dom) : List Str := (queryIds children).map snakeCase

/-- The data of the text nodes among the nodes, and among the nodes in them. -/
inductive HasData : List Dom → Except Exc Str → Prop
  | data {nodes : List Dom} {data : Except Exc Str}
      (h : .text data ∈ nodes ∨ .cdataSection data ∈ nodes) : HasData nodes data
  | element {nodes : List Dom} {name : Str} {attrs : Attrs} {children : List Dom}
      {data : Except Exc Str} (h : .element name attrs children ∈ nodes)
      (hd : HasData children data) : HasData nodes data

theorem HasData.cons {n : Dom} {rest : List Dom} {data : Except Exc Str}
    (h : HasData rest data) : HasData (n :: rest) data := by
  cases h with
  | data h => exact .data (h.imp (List.mem_cons_of_mem _) (List.mem_cons_of_mem _))
  | element h hd => exact .element (List.mem_cons_of_mem _ h) hd

theorem hasData_nil (data : Except Exc Str) : ¬ HasData [] data := by
  rintro (⟨h | h⟩ | ⟨h, -⟩)
  · cases h
  · cases h
  · cases h

theorem hasData_element {name : Str} {attrs : Attrs} {cs rest : List Dom}
    {data : Except Exc Str} :
    HasData (.element name attrs cs :: rest) data ↔ HasData cs data ∨ HasData rest data := by
  constructor
  · rintro (h | ⟨h, hd⟩)
    · exact .inr (.data (by simpa using h))
    · rcases List.mem_cons.mp h with heq | h
      · cases heq
        exact .inl hd
      · exact .inr (.element h hd)
  · rintro (h | h)
    · exact .element List.mem_cons_self h
    · exact h.cons

theorem hasData_text {data' : Except Exc Str} {rest : List Dom} {data : Except Exc Str} :
    HasData (.text data' :: rest) data ↔ data = data' ∨ HasData rest data := by
  constructor
  · rintro (h | ⟨h, hd⟩)
    · simp only [List.mem_cons, Dom.text.injEq, reduceCtorEq, false_or] at h
      rcases h with (h | h) | h
      · exact .inl h
      · exact .inr (.data (.inl h))
      · exact .inr (.data (.inr h))
    · exact .inr (.element (by simpa using h) hd)
  · rintro (rfl | h)
    · exact .data (.inl List.mem_cons_self)
    · exact h.cons

theorem hasData_other {type : NodeType} {rest : List Dom} {data : Except Exc Str} :
    HasData (.other type :: rest) data ↔ HasData rest data := by
  constructor
  · rintro (h | ⟨h, hd⟩)
    · exact .data (by simpa using h)
    · exact .element (by simpa using h) hd
  · exact HasData.cons

/-- An exception for a second query with an id. -/
def IsDuplicateId (e : Exc) : Prop := ∃ msg, e = .dbgen3Exc .duplicateSqlDscrDef msg

theorem NoStatus.not_isDuplicateId {e : Exc} (h : NoStatus e) : ¬ IsDuplicateId e := by
  rintro ⟨msg, rfl⟩
  exact h _ msg rfl

/-! ## Loading one query -/

section

variable {target : Rdbms} {ctx : List Str} {children : List Dom} {e : Exc}

/-- The only status among the exceptions of a text is that of a text that is too long. -/
theorem TextExc.status_eq {status : PSts} {msg : Str}
    (h : TextExc ctx children (.dbgen3Exc status msg))
    (hdata : ∀ e, HasData children (.error e) → NoStatus e) : status = .sqlStatTooLong := by
  generalize hexc : Exc.dbgen3Exc status msg = e at h
  cases h with
  | data h => exact absurd hexc.symm (hdata e (.data h) status msg)
  | tooLong msg h hlen => exact (Exc.dbgen3Exc.inj hexc).1
  | element h => cases hexc
  | other h => cases hexc

theorem SqlExc.status_eq {status : PSts} {msg : Str}
    (h : SqlExc ctx children (.dbgen3Exc status msg))
    (hdata : ∀ e, HasData children (.error e) → NoStatus e) : status = .sqlStatTooLong := by
  generalize hexc : Exc.dbgen3Exc status msg = e at h
  cases h with
  | data h => exact absurd hexc.symm (hdata e (.data h) status msg)
  | tooLong msg h hlen => exact (Exc.dbgen3Exc.inj hexc).1
  | element h hname => cases hexc
  | prepare h he =>
      subst hexc
      exact he.status_eq fun e' he' => hdata e' (.element h he')
  | other h => cases hexc

theorem ChildExc.status_eq {status : PSts} {msg : Str}
    (h : ChildExc target ctx children (.dbgen3Exc status msg))
    (hdata : ∀ e, HasData children (.error e) → NoStatus e) : status = .sqlStatTooLong := by
  generalize hexc : Exc.dbgen3Exc status msg = e at h
  cases h with
  | text h hr he =>
      subst hexc
      exact he.status_eq fun e' he' => hdata e' (.element h he')
  | element h hname => cases hexc
  | cdataSection h => cases hexc
  | other h => cases hexc

theorem TextExc.not_isDuplicateId (h : TextExc ctx children e)
    (hdata : ∀ e, HasData children (.error e) → NoStatus e) : ¬ IsDuplicateId e := by
  rintro ⟨msg, rfl⟩
  cases h.status_eq hdata

theorem ChildExc.not_isDuplicateId (h : ChildExc target ctx children e)
    (hdata : ∀ e, HasData children (.error e) → NoStatus e) : ¬ IsDuplicateId e := by
  rintro ⟨msg, rfl⟩
  cases h.status_eq hdata

variable {σ : Type} {cli : Cli σ}

/-- The exception for a second id never comes from a query itself. -/
theorem raises_loadQ_not_isDuplicateId (attrs : Attrs) (ndx : Nat) (db : Handle)
    (hdata : ∀ e, HasData children (.error e) → NoStatus e) :
    Raises (fun e => ¬ IsDuplicateId e) (loadQ cli attrs children ndx ctx db target) := by
  intro w e w' h
  have hdb : ∀ r, Raises FromDatabase (loadQSqlsetFromDb cli r db) := fun r =>
    raises_loadQSqlsetFromDb r db
  rcases raises_loadQ_of hdb attrs children ndx ctx w e w' h with he | ⟨⟨msg, rfl⟩, -⟩ | he
  · exact he.not_isDuplicateId hdata
  · exact nofun
  · exact he.noStatus.not_isDuplicateId

end

/-! ## The dictionary -/

/-- The keys of the dictionary are the ids of the queries, each once. -/
structure Keyed (set : GsqlQSet) : Prop where
  keys : set.qDic.map Prod.fst = set.qVec.map GsqlQ.id
  nodup : (set.qVec.map GsqlQ.id).Nodup

theorem qInsert_qVec (set : GsqlQSet) (q : GsqlQ) : (set.qInsert q).2.qVec = set.qVec ++ [q] := by
  unfold GsqlQSet.qInsert
  split
  · rfl
  · rfl

/-- A query is accepted where its id is new. -/
theorem Keyed.qInsert_fst {set : GsqlQSet} (h : Keyed set) (q : GsqlQ) :
    (set.qInsert q).1 = true ↔ q.id ∉ set.qVec.map GsqlQ.id := by
  have hany : (set.qDic.any fun entry => entry.1 == q.id) = true ↔
      q.id ∈ set.qDic.map Prod.fst := by
    rw [List.any_eq_true, List.mem_map]
    simp only [beq_iff_eq]
  rw [← h.keys, ← hany]
  unfold GsqlQSet.qInsert
  split
  · next hmem => exact iff_of_false nofun (not_not_intro hmem)
  · next hmem => exact iff_of_true rfl hmem

theorem Keyed.qInsert_snd {set : GsqlQSet} (h : Keyed set) {q : GsqlQ}
    (hq : (set.qInsert q).1 = true) : Keyed (set.qInsert q).2 := by
  have hnew := (h.qInsert_fst q).mp hq
  constructor
  · have hdic : (set.qInsert q).2.qDic.map Prod.fst = set.qDic.map Prod.fst ++ [q.id] := by
      unfold GsqlQSet.qInsert at hq ⊢
      split at hq
      · cases hq
      · next hmem => simp [hmem]
    rw [hdic, qInsert_qVec, List.map_append, h.keys]
    rfl
  · rw [qInsert_qVec, List.map_append]
    exact h.nodup.append (List.nodup_singleton _) (by simpa using hnew)

/-! ## Loading a set -/

variable {σ : Type} {cli : Cli σ} {ctx : List Str} {db : Handle} {target : Rdbms}

/-- The step of the loop for a query. -/
theorem loadQSetFrom_q (qNdx : Nat) (set : GsqlQSet) (attrs : Attrs) (children rest : List Dom) :
    loadQSetFrom cli ctx db target qNdx set (.element "q" attrs children :: rest) =
      (do
        let q ← loadQ cli attrs children (qNdx + 1) ctx db target
        if ! (set.qInsert q).1 then
          throw (.dbgen3Exc .duplicateSqlDscrDef
            (message .duplicateSqlDscrDef [(set.qInsert q).2.id]))
        else loadQSetFrom cli ctx db target (qNdx + 1) (set.qInsert q).2 rest) := rfl

theorem loadQSetFrom_hdr (qNdx : Nat) (set : GsqlQSet) (attrs : Attrs)
    (children rest : List Dom) :
    loadQSetFrom cli ctx db target qNdx set (.element "hdr" attrs children :: rest) =
      (do
        let header ← fromResult (getTextNode ctx children)
        loadQSetFrom cli ctx db target qNdx (set.setHeader header) rest) := rfl

theorem loadQSetFrom_skipped {n : Dom} (h : n.IsSkipped) (qNdx : Nat) (set : GsqlQSet)
    (rest : List Dom) :
    loadQSetFrom cli ctx db target qNdx set (n :: rest) =
      loadQSetFrom cli ctx db target qNdx set rest := by
  cases n with
  | element name attrs cs =>
      obtain ⟨hhdr, hq⟩ := h.name_ne
      rw [loadQSetFrom, if_neg hhdr, if_neg hq]
  | _ => rfl

variable (cli ctx db target) in
/-- The ids of the queries that load one after the other, up to an exception. -/
def loadedIds : Nat → World σ → List Dom → List Str
  | _, _, [] => []
  | qNdx, w, .element locName attrs children :: rest =>
      if locName = "hdr".toList then
        match getTextNode ctx children with
        | .ok _ => loadedIds qNdx w rest
        | .error _ => []
      else if locName = "q".toList then
        match runOn (loadQ cli attrs children (qNdx + 1) ctx db target) w with
        | (.ok _, w') => queryId attrs (qNdx + 1) :: loadedIds (qNdx + 1) w' rest
        | (.error _, _) => []
      else loadedIds qNdx w rest
  | qNdx, w, _ :: rest => loadedIds qNdx w rest

theorem loadedIds_skipped {n : Dom} (h : n.IsSkipped) (qNdx : Nat) (w : World σ)
    (rest : List Dom) :
    loadedIds cli ctx db target qNdx w (n :: rest) = loadedIds cli ctx db target qNdx w rest := by
  cases n with
  | element name attrs cs =>
      obtain ⟨hhdr, hq⟩ := h.name_ne
      rw [loadedIds, if_neg hhdr, if_neg hq]
  | _ => rfl

/-- Loading ends in the exception for a second query with an id. -/
def RaisesDuplicateId (m : Act (World σ) Exc GsqlQSet) (w : World σ) : Prop :=
  ∃ e, (runOn m w).1 = .error e ∧ IsDuplicateId e

theorem not_raisesDuplicateId {m : Act (World σ) Exc GsqlQSet} {w : World σ} {e : Exc}
    (h : (runOn m w).1 = .error e) (he : ¬ IsDuplicateId e) : ¬ RaisesDuplicateId m w := by
  rintro ⟨e', he', hdup⟩
  rw [h] at he'
  obtain rfl := Except.error.inj he'
  exact he hdup

/-- One query of the loop: it does not load, its id is not new, or the loop goes on. -/
theorem raisesDuplicateId_q {attrs : Attrs} {children rest : List Dom} {qNdx : Nat}
    {set : GsqlQSet} (hset : Keyed set) (hdata : ∀ e, HasData children (.error e) → NoStatus e)
    (w : World σ) :
    RaisesDuplicateId (loadQSetFrom cli ctx db target qNdx set
        (.element "q" attrs children :: rest)) w ↔
      ∃ q w', runOn (loadQ cli attrs children (qNdx + 1) ctx db target) w = (.ok q, w') ∧
        (q.id ∈ set.qVec.map GsqlQ.id ∨
          Keyed (set.qInsert q).2 ∧
            RaisesDuplicateId (loadQSetFrom cli ctx db target (qNdx + 1) (set.qInsert q).2 rest)
              w') := by
  rw [loadQSetFrom_q]
  rcases hload : runOn (loadQ cli attrs children (qNdx + 1) ctx db target) w with ⟨e | q, w'⟩
  · have hnot := raises_loadQ_not_isDuplicateId attrs (qNdx + 1) db hdata w e w' hload
    refine iff_of_false (not_raisesDuplicateId ?_ hnot) (by simp)
    rw [runOn_bind_error hload]
  · have hgo : ∀ r : GsqlQ → World σ → Prop,
        (∃ q' w'', ((.ok q, w') : Except Exc GsqlQ × World σ) = (.ok q', w'') ∧ r q' w'') ↔
          r q w' := by
      intro r
      constructor
      · rintro ⟨q', w'', heq, hr⟩
        cases heq
        exact hr
      · exact fun hr => ⟨q, w', rfl, hr⟩
    rw [hgo]
    unfold RaisesDuplicateId
    rw [runOn_bind_ok hload]
    have hfst := hset.qInsert_fst q
    cases hins : (set.qInsert q).1 with
    | true =>
        have hnew := hfst.mp hins
        have hkeyed := hset.qInsert_snd hins
        simp [hnew, hkeyed]
    | false =>
        have hold : q.id ∈ set.qVec.map GsqlQ.id := by
          by_contra hnew
          rw [hfst.mpr hnew] at hins
          cases hins
        exact iff_of_true ⟨_, rfl, _, rfl⟩ (.inl hold)

theorem not_nodup_append_cons {α : Type} {as bs : List α} {a : α} :
    ¬ (as ++ a :: bs).Nodup ↔ a ∈ as ∨ ¬ ((as ++ [a]) ++ bs).Nodup := by
  rw [List.append_assoc]
  constructor
  · exact .inr
  · rintro (hmem | h)
    · intro hnodup
      exact (List.nodup_append.mp hnodup).2.2 a hmem a List.mem_cons_self rfl
    · exact h

/-- The loop refuses a document exactly where two queries that load have one id. -/
theorem raisesDuplicateId_loadQSetFrom {nodes : List Dom} (qNdx : Nat) {set : GsqlQSet}
    (hset : Keyed set) (hdata : ∀ e, HasData nodes (.error e) → NoStatus e) (w : World σ) :
    RaisesDuplicateId (loadQSetFrom cli ctx db target qNdx set nodes) w ↔
      ¬ (set.qVec.map GsqlQ.id ++ loadedIds cli ctx db target qNdx w nodes).Nodup := by
  have hstop : ∀ {set : GsqlQSet}, Keyed set →
      ¬ ¬ (set.qVec.map GsqlQ.id ++ ([] : List Str)).Nodup := by
    intro set hset
    rw [List.append_nil, not_not]
    exact hset.nodup
  induction nodes generalizing qNdx set w with
  | nil => exact iff_of_false (fun ⟨e, he, _⟩ => by cases he) (hstop hset)
  | cons n rest ih =>
      have hrest : ∀ e, HasData rest (.error e) → NoStatus e := fun e he => hdata e he.cons
      obtain ⟨attrs, children, rfl⟩ | ⟨attrs, children, rfl⟩ | hskip := n.hdr_or_q_or_skipped
      · have hchildren : ∀ e, HasData children (.error e) → NoStatus e :=
          fun e he => hdata e (.element List.mem_cons_self he)
        rw [loadQSetFrom_hdr, loadedIds, if_pos rfl]
        cases hread : getTextNode ctx children with
        | ok header =>
            have hkeyed : Keyed (set.setHeader header) := ⟨hset.keys, hset.nodup⟩
            exact ih qNdx hkeyed hrest w
        | error e =>
            have hnot := (getTextNode_error hread).not_isDuplicateId hchildren
            exact iff_of_false (not_raisesDuplicateId rfl hnot) (hstop hset)
      · have hchildren : ∀ e, HasData children (.error e) → NoStatus e :=
          fun e he => hdata e (.element List.mem_cons_self he)
        rw [raisesDuplicateId_q hset hchildren, loadedIds, if_neg (by decide), if_pos rfl]
        rcases hload : runOn (loadQ cli attrs children (qNdx + 1) ctx db target) w with
          ⟨e | q, w'⟩
        · exact iff_of_false (by simp) (hstop hset)
        · have hid : q.id = queryId attrs (qNdx + 1) :=
            (yields_loadQ attrs children (qNdx + 1) ctx db w q w' hload).id
          change _ ↔ ¬ (_ ++ queryId attrs (qNdx + 1) :: _).Nodup
          rw [not_nodup_append_cons, ← hid]
          constructor
          · rintro ⟨q', w'', heq, hold | ⟨hkeyed, hdup⟩⟩
            · cases heq
              exact .inl hold
            · cases heq
              right
              have hnext := (ih (qNdx + 1) hkeyed hrest w').mp hdup
              rwa [qInsert_qVec, List.map_append] at hnext
          · intro hor
            refine ⟨q, w', rfl, ?_⟩
            by_cases hold : q.id ∈ set.qVec.map GsqlQ.id
            · exact .inl hold
            · have hkeyed := hset.qInsert_snd ((hset.qInsert_fst q).mpr hold)
              refine .inr ⟨hkeyed, (ih (qNdx + 1) hkeyed hrest w').mpr ?_⟩
              rw [qInsert_qVec, List.map_append]
              exact hor.resolve_left hold
      · rw [loadQSetFrom_skipped hskip, loadedIds_skipped hskip]
        exact ih qNdx hset hrest w

theorem loadedIds_isPrefix (nodes : List Dom) (qNdx : Nat) (w : World σ) :
    loadedIds cli ctx db target qNdx w nodes <+: (qElements qNdx nodes).map QElement.id := by
  induction nodes generalizing qNdx w with
  | nil => exact List.prefix_rfl
  | cons n rest ih =>
      obtain ⟨attrs, children, rfl⟩ | ⟨attrs, children, rfl⟩ | hskip := n.hdr_or_q_or_skipped
      · rw [loadedIds, qElements, if_pos rfl, if_neg (by decide)]
        split
        · exact ih qNdx w
        · exact List.nil_prefix
      · rw [loadedIds, qElements, if_neg (by decide), if_pos rfl, if_pos rfl]
        split
        · exact (List.cons_prefix_cons).mpr ⟨rfl, ih (qNdx + 1) _⟩
        · exact List.nil_prefix
      · rw [loadedIds_skipped hskip, qElements_skipped hskip]
        exact ih qNdx w

/-- What the loop raises for one child of the document alone. -/
inductive SetExc (target : Rdbms) (ctx : List Str) (qNdx : Nat) (nodes : List Dom) : Exc → Prop
  | hdr {attrs : Attrs} {cs : List Dom} {e : Exc} (h : .element "hdr" attrs cs ∈ nodes)
      (he : TextExc ctx cs e) : SetExc target ctx qNdx nodes e
  | child {el : QElement} {e : Exc} (h : el ∈ qElements qNdx nodes)
      (he : ChildExc target (ctx ++ [el.id]) el.children e) : SetExc target ctx qNdx nodes e
  | secondText {el : QElement} {e : Exc} (h : el ∈ qElements qNdx nodes) (he : IsDuplicate e)
      (hkeys : ¬ (sqlKeys el.children).Nodup) : SetExc target ctx qNdx nodes e

/-- Children that are skipped or come later raise what they raise. -/
theorem SetExc.cons {qNdx qNdx' : Nat} {n : Dom} {rest : List Dom} {e : Exc}
    (hels : ∀ el ∈ qElements qNdx' rest, el ∈ qElements qNdx (n :: rest))
    (h : SetExc target ctx qNdx' rest e) : SetExc target ctx qNdx (n :: rest) e := by
  cases h with
  | hdr h he => exact .hdr (List.mem_cons_of_mem _ h) he
  | child h he => exact .child (hels _ h) he
  | secondText h he hkeys => exact .secondText (hels _ h) he hkeys

/-- What loading a set raises, when describing a query raises what `P` accepts. -/
theorem raises_loadQSetFrom_of {P : Exc → Prop}
    (hdb : ∀ r, Raises P (loadQSqlsetFromDb cli r db)) (nodes : List Dom) (qNdx : Nat)
    (set : GsqlQSet) :
    Raises (fun e => SetExc target ctx qNdx nodes e ∨ IsDuplicateId e ∨ P e)
      (loadQSetFrom cli ctx db target qNdx set nodes) := by
  induction nodes generalizing qNdx set with
  | nil => exact Runtime.raises_pure _
  | cons n rest ih =>
      obtain ⟨attrs, children, rfl⟩ | ⟨attrs, children, rfl⟩ | hskip := n.hdr_or_q_or_skipped
      · rw [loadQSetFrom_hdr]
        refine (raises_fromResult fun e he => ?_).bind fun header => ?_
        · exact .inl (.hdr List.mem_cons_self (getTextNode_error he))
        · intro w e w' h
          exact (ih qNdx _ w e w' h).imp_left fun he => he.cons fun el hel => hel
      · have hels : qElements qNdx (.element "q" attrs children :: rest) =
            ⟨attrs, children, qNdx + 1⟩ :: qElements (qNdx + 1) rest := rfl
        rw [loadQSetFrom_q]
        refine Raises.bind ?_ fun q => Raises.ite (raises_throw ?_) ?_
        · intro w e w' h
          have hfirst : (⟨attrs, children, qNdx + 1⟩ : QElement) ∈
              qElements qNdx (.element "q" attrs children :: rest) := by
            rw [hels]
            exact List.mem_cons_self
          obtain he | ⟨he, hkeys⟩ | he :=
            raises_loadQ_of hdb attrs children (qNdx + 1) ctx w e w' h
          · exact .inl (.child hfirst he)
          · exact .inl (.secondText hfirst he hkeys)
          · exact .inr (.inr he)
        · exact .inr (.inl ⟨_, rfl⟩)
        · intro w e w' h
          refine (ih (qNdx + 1) _ w e w' h).imp_left fun he => he.cons fun el hel => ?_
          rw [hels]
          exact List.mem_cons_of_mem _ hel
      · rw [loadQSetFrom_skipped hskip]
        intro w e w' h
        refine (ih qNdx set w e w' h).imp_left fun he => he.cons fun el hel => ?_
        rw [qElements_skipped hskip]
        exact hel

/-- The loop reads every header and adds the queries of the document in order, each with what
loading a query gives. -/
theorem loadQSetFrom_ok_of {R : QElement → GsqlQ → Prop}
    (hR : ∀ attrs children ndx, Yields (R ⟨attrs, children, ndx⟩)
      (loadQ cli attrs children ndx ctx db target)) {nodes : List Dom} {qNdx : Nat}
    {set set' : GsqlQSet} {w w' : World σ}
    (h : runOn (loadQSetFrom cli ctx db target qNdx set nodes) w = (.ok set', w')) :
    set'.id = set.id ∧
      (∀ attrs cs, .element "hdr" attrs cs ∈ nodes → ∃ t, getTextNode ctx cs = .ok t) ∧
      ∃ qs, set'.qVec = set.qVec ++ qs ∧ List.Forall₂ R (qElements qNdx nodes) qs := by
  induction nodes generalizing qNdx set w with
  | nil =>
      obtain rfl := Except.ok.inj (Prod.mk.inj h).1
      exact ⟨rfl, nofun, [], (List.append_nil _).symm, .nil⟩
  | cons n rest ih =>
      have hlater : ∀ {attrs cs}, n ≠ .element "hdr" attrs cs →
          .element "hdr" attrs cs ∈ n :: rest → .element "hdr" attrs cs ∈ rest :=
        fun hne h => (List.mem_cons.mp h).resolve_left fun h => hne h.symm
      obtain ⟨attrs, children, rfl⟩ | ⟨attrs, children, rfl⟩ | hskip := n.hdr_or_q_or_skipped
      · rw [loadQSetFrom_hdr] at h
        obtain ⟨header, w₁, hheader, h⟩ := runOn_bind_eq_ok h
        rw [runOn_fromResult] at hheader
        obtain ⟨hid, hhdrs, hqs⟩ := ih h
        refine ⟨hid, fun attrs' cs hmem => ?_, hqs⟩
        rcases List.mem_cons.mp hmem with heq | hmem
        · cases heq
          exact ⟨header, (Prod.mk.inj hheader).1⟩
        · exact hhdrs attrs' cs hmem
      · rw [loadQSetFrom_q] at h
        obtain ⟨q, w₁, hload, h⟩ := runOn_bind_eq_ok h
        split at h
        · cases h
        · obtain ⟨hid, hhdrs, qs, hvec, hqs⟩ := ih h
          refine ⟨?_, fun attrs' cs hmem => hhdrs attrs' cs (hlater ?_ hmem), q :: qs, ?_, ?_⟩
          · rw [hid]
            unfold GsqlQSet.qInsert
            split
            · rfl
            · rfl
          · exact fun heq => by simp at heq
          · rw [hvec, qInsert_qVec, List.append_assoc]
            rfl
          · rw [qElements, if_pos rfl]
            exact .cons (hR attrs children (qNdx + 1) _ _ _ hload) hqs
      · rw [loadQSetFrom_skipped hskip] at h
        obtain ⟨hid, hhdrs, hqs⟩ := ih h
        rw [qElements_skipped hskip]
        exact ⟨hid, fun attrs cs hmem => hhdrs attrs cs (hlater (hskip attrs cs).1 hmem), hqs⟩

theorem loadQSetFrom_ok {nodes : List Dom} {qNdx : Nat} {set set' : GsqlQSet} {w w' : World σ}
    (h : runOn (loadQSetFrom cli ctx db target qNdx set nodes) w = (.ok set', w')) :
    set'.id = set.id ∧
      (∀ attrs cs, .element "hdr" attrs cs ∈ nodes → ∃ t, getTextNode ctx cs = .ok t) ∧
      ∃ qs, set'.qVec = set.qVec ++ qs ∧
        List.Forall₂ (fun el q => QueryLoaded target ctx el.attrs el.children el.ndx q)
          (qElements qNdx nodes) qs :=
  loadQSetFrom_ok_of (fun attrs children ndx => yields_loadQ attrs children ndx ctx db) h

/-- The queries of a loaded set are those of the document. -/
theorem loadQSet_ok {attrs : Attrs} {children : List Dom} {filename : Str} {set : GsqlQSet}
    {w w' : World σ}
    (h : runOn (loadQSet cli attrs children filename db target) w = (.ok set, w')) :
    set.id = qSetId attrs filename ∧
      List.Forall₂ (fun el q =>
        QueryLoaded target [qSetId attrs filename] el.attrs el.children el.ndx q)
          (qElements 0 children) set.qVec := by
  obtain ⟨hid, -, qs, hvec, hqs⟩ := loadQSetFrom_ok h
  obtain rfl : set.qVec = qs := hvec
  exact ⟨hid, hqs⟩

theorem exists_of_forall₂ {α β : Type} {R : α → β → Prop} {as : List α} {bs : List β}
    (h : List.Forall₂ R as bs) {a : α} (ha : a ∈ as) : ∃ b ∈ bs, R a b := by
  induction h with
  | nil => cases ha
  | cons hab _ ih =>
      rcases List.mem_cons.mp ha with rfl | ha
      · exact ⟨_, List.mem_cons_self, hab⟩
      · obtain ⟨b, hb, hr⟩ := ih ha
        exact ⟨b, List.mem_cons_of_mem _ hb, hr⟩

theorem ids_of_forall₂ {ctx : List Str} {els : List QElement} {qs : List GsqlQ}
    (h : List.Forall₂ (fun el q => QueryLoaded target ctx el.attrs el.children el.ndx q) els qs) :
    qs.map GsqlQ.id = els.map QElement.id := by
  induction h with
  | nil => rfl
  | cons hq _ ih => rw [List.map_cons, List.map_cons, ih, hq.id, QElement.id]

/-! ## Namespaces -/

/-- Loading accepts a document exactly where the namespaces of its queries are distinct, and
no two queries of the set it returns are generated into one namespace. -/
def AcceptsDistinct (cli : Cli σ) (attrs : Attrs) (children : List Dom) (filename : Str)
    (db : Handle) (target : Rdbms) (w : World σ) : Prop :=
  (¬ RaisesDuplicateId (loadQSet cli attrs children filename db target) w ↔
      (namespaces children).Nodup) ∧
    ∀ set, (runOn (loadQSet cli attrs children filename db target) w).1 = .ok set →
      ((set.qVec.filter fun q => q.sql ≠ []).map GsqlQ.namespaceStr).Nodup

/-- This holds where the namespaces are distinct, and where two queries that load have the
same id. It does not hold where different ids become one namespace. -/
theorem acceptsDistinct_iff (cli : Cli σ) (attrs : Attrs) (children : List Dom)
    (filename : Str) (db : Handle) (target : Rdbms)
    (hdata : ∀ e, HasData children (.error e) → NoStatus e) (w : World σ) :
    AcceptsDistinct cli attrs children filename db target w ↔
      (namespaces children).Nodup ∨
        ¬ (loadedIds cli [qSetId attrs filename] db target 0 w children).Nodup := by
  have hkeyed : Keyed { id := qSetId attrs filename } := ⟨rfl, List.nodup_nil⟩
  have hraises : RaisesDuplicateId (loadQSet cli attrs children filename db target) w ↔
      ¬ (loadedIds cli [qSetId attrs filename] db target 0 w children).Nodup :=
    raisesDuplicateId_loadQSetFrom 0 hkeyed hdata w
  have hloaded : (namespaces children).Nodup →
      (loadedIds cli [qSetId attrs filename] db target 0 w children).Nodup := fun h =>
    (List.Nodup.of_map snakeCase h).sublist (loadedIds_isPrefix children 0 w).sublist
  have hreturned : (namespaces children).Nodup → ∀ set,
      (runOn (loadQSet cli attrs children filename db target) w).1 = .ok set →
      ((set.qVec.filter fun q => q.sql ≠ []).map GsqlQ.namespaceStr).Nodup := by
    intro h set hset
    obtain ⟨-, hqs⟩ := loadQSet_ok (Prod.ext hset rfl)
    have hnames : set.qVec.map GsqlQ.namespaceStr = namespaces children := by
      rw [namespaces, queryIds, ← ids_of_forall₂ hqs, List.map_map]
      rfl
    rw [← hnames] at h
    exact h.sublist (List.filter_sublist.map _)
  unfold AcceptsDistinct
  rw [hraises, not_not]
  constructor
  · rintro ⟨hiff, -⟩
    by_cases h : (namespaces children).Nodup
    · exact .inl h
    · exact .inr fun hnodup => h (hiff.mp hnodup)
  · rintro (h | hdup)
    · exact ⟨iff_of_true (hloaded h) h, hreturned h⟩
    · refine ⟨iff_of_false hdup fun h => hdup (hloaded h), fun set hset => ?_⟩
      obtain ⟨e, he, -⟩ := hraises.mpr hdup
      rw [hset] at he
      cases he

/-- Queries with an id and one generic text. -/
def textQueries (queries : List (Str × Str)) : List Dom :=
  queries.map fun q => .element "q" [("id", q.1)] [.element "sql" [] [.text (.ok q.2)]]

/-- Every text of these queries can be read. -/
theorem mem_of_hasData_textQueries {queries : List (Str × Str)} {data : Except Exc Str}
    (h : HasData (textQueries queries) data) : ∃ q ∈ queries, data = .ok q.2 := by
  induction queries with
  | nil => exact absurd h (hasData_nil _)
  | cons q queries ih =>
      rcases hasData_element.mp h with h | h
      · simp only [hasData_element, hasData_text, hasData_nil, or_false] at h
        exact ⟨q, List.mem_cons_self, h⟩
      · obtain ⟨q', hmem, hq⟩ := ih h
        exact ⟨q', List.mem_cons_of_mem _ hmem, hq⟩

/-- Two queries that have the same id are refused. -/
theorem acceptsDistinct_same_ids :
    AcceptsDistinct Cli.silent [] (textQueries [("a", "select 1"), ("a", "select 2")]) "x.xml" 1
      .db2 (World.start ()) := by
  have hiff := acceptsDistinct_iff Cli.silent []
    (textQueries [("a", "select 1"), ("a", "select 2")]) "x.xml" 1 .db2
    (fun e he => by obtain ⟨q, -, h⟩ := mem_of_hasData_textQueries he; cases h) (World.start ())
  exact hiff.mpr (.inr (by decide +kernel))

/-- Two queries with different ids are generated into one namespace. -/
theorem not_acceptsDistinct_of_dash :
    let children := textQueries [("a-b", "select 1"), ("a_b", "select 2")]
    let loaded := (runOn (loadQSet Cli.silent [] children "x.xml" 1 .db2) (World.start ())).1
    ¬ AcceptsDistinct Cli.silent [] children "x.xml" 1 .db2 (World.start ()) ∧
      loaded.map (fun set => (set.qVec.filter fun q => q.sql ≠ []).map GsqlQ.namespaceStr) =
        .ok ["a_b".toList, "a_b".toList] := by
  intro children loaded
  have hloaded : loaded.map (fun set =>
      (set.qVec.filter fun q => q.sql ≠ []).map GsqlQ.namespaceStr) =
        .ok ["a_b".toList, "a_b".toList] := by
    decide +kernel
  refine ⟨?_, hloaded⟩
  rintro ⟨-, hreturned⟩
  cases hl : loaded with
  | error e =>
      rw [hl] at hloaded
      cases hloaded
  | ok set =>
      have hnodup := hreturned set hl
      rw [hl] at hloaded
      have hnames : (set.qVec.filter fun q => q.sql ≠ []).map GsqlQ.namespaceStr =
          ["a_b".toList, "a_b".toList] := Except.ok.inj hloaded
      rw [hnames] at hnodup
      revert hnodup
      decide

end Dbgen3.Generator
