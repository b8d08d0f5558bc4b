import Dbgen3.Generator.Duplicates

/-!
# What loading a query raises and returns

Each loader goes through the children of an element. What it raises names the
child that is to blame; what it returns is made of the texts of the children.
-/

namespace Dbgen3.Generator

open Act Text
open Dbgen3.Runtime (Cli World Handle raises_pure)

/-! ## Texts -/

/-- The characters of the text and CDATA nodes among the children. -/
def textOf : List Dom → Str
  | [] => []
  | .text (.ok txt) :: rest | .cdataSection (.ok txt) :: rest => txt ++ textOf rest
  | _ :: rest => textOf rest

/-- What reading the children as a text raises. -/
inductive TextExc (ctx : List Str) (children : List Dom) : Exc → Prop
  | data {e : Exc} (h : .text (.error e) ∈ children ∨ .cdataSection (.error e) ∈ children) :
      TextExc ctx children e
  | tooLong {txt : Str} (msg : Str)
      (h : .text (.ok txt) ∈ children ∨ .cdataSection (.ok txt) ∈ children)
      (hlen : maxSize ≤ txt.length) : TextExc ctx children (.dbgen3Exc .sqlStatTooLong msg)
  | element {name : Str} {attrs : Attrs} {cs : List Dom} (h : .element name attrs cs ∈ children) :
      TextExc ctx children (.runtimeError "mixed contents")
  | other {type : NodeType} (h : .other type ∈ children) : TextExc ctx children (notText type ctx)

/-- What reading the children of a `<sql>` element raises. -/
inductive SqlExc (ctx : List Str) (children : List Dom) : Exc → Prop
  | data {e : Exc} (h : .text (.error e) ∈ children ∨ .cdataSection (.error e) ∈ children) :
      SqlExc ctx children e
  | tooLong {txt : Str} (msg : Str)
      (h : .text (.ok txt) ∈ children ∨ .cdataSection (.ok txt) ∈ children)
      (hlen : maxSize ≤ txt.length) : SqlExc ctx children (.dbgen3Exc .sqlStatTooLong msg)
  | element {name : Str} {attrs : Attrs} {cs : List Dom} (h : .element name attrs cs ∈ children)
      (hname : name ≠ "prepare".toList) : SqlExc ctx children (.runtimeError "mixed contents")
  | prepare {attrs : Attrs} {cs : List Dom} {e : Exc} (h : .element "prepare" attrs cs ∈ children)
      (he : TextExc ctx cs e) : SqlExc ctx children e
  | other {type : NodeType} (h : .other type ∈ children) : SqlExc ctx children (notText type ctx)

theorem checkedData_error {data : Except Exc Str} {ctx : List Str} {e : Exc}
    (h : checkedData data ctx = .error e) :
    data = .error e ∨
      ∃ txt msg, data = .ok txt ∧ maxSize ≤ txt.length ∧ e = .dbgen3Exc .sqlStatTooLong msg := by
  cases data with
  | error e' => exact .inl (congrArg Except.error (Except.error.inj h))
  | ok txt =>
      change (if txt.length ≥ maxSize then _ else _) = _ at h
      split at h
      · next hlen => exact .inr ⟨txt, _, rfl, hlen, (Except.error.inj h).symm⟩
      · cases h

theorem checkedData_eq_ok {data : Except Exc Str} {ctx : List Str} {txt : Str}
    (h : checkedData data ctx = .ok txt) : data = .ok txt := by
  cases data with
  | error e' => cases h
  | ok txt' =>
      change (if txt'.length ≥ maxSize then _ else _) = _ at h
      split at h
      · cases h
      · exact congrArg Except.ok (Except.ok.inj h)

section Text

variable {ctx : List Str} {n : Dom} {rest : List Dom} {e : Exc}

theorem TextExc.cons (h : TextExc ctx rest e) : TextExc ctx (n :: rest) e := by
  cases h with
  | data h => exact .data (h.imp (List.mem_cons_of_mem _) (List.mem_cons_of_mem _))
  | tooLong msg h hlen =>
      exact .tooLong msg (h.imp (List.mem_cons_of_mem _) (List.mem_cons_of_mem _)) hlen
  | element h => exact .element (List.mem_cons_of_mem _ h)
  | other h => exact .other (List.mem_cons_of_mem _ h)

theorem SqlExc.cons (h : SqlExc ctx rest e) : SqlExc ctx (n :: rest) e := by
  cases h with
  | data h => exact .data (h.imp (List.mem_cons_of_mem _) (List.mem_cons_of_mem _))
  | tooLong msg h hlen =>
      exact .tooLong msg (h.imp (List.mem_cons_of_mem _) (List.mem_cons_of_mem _)) hlen
  | element h hname => exact .element (List.mem_cons_of_mem _ h) hname
  | prepare h he => exact .prepare (List.mem_cons_of_mem _ h) he
  | other h => exact .other (List.mem_cons_of_mem _ h)

/-- Text and CDATA nodes are read in the same way. -/
theorem getTextNode_data {data : Except Exc Str} (hn : n = .text data ∨ n = .cdataSection data) :
    getTextNode ctx (n :: rest) = (do
      let txt ← checkedData data ctx
      let r ← getTextNode ctx rest
      pure (txt ++ r)) := by
  rcases hn with rfl | rfl
  · rfl
  · rfl

theorem getTextNodeWithPrepare_data {data : Except Exc Str} {r p : Str}
    (hn : n = .text data ∨ n = .cdataSection data) :
    getTextNodeWithPrepare ctx r p (n :: rest) = (do
      let txt ← checkedData data ctx
      getTextNodeWithPrepare ctx (r ++ txt) p rest) := by
  rcases hn with rfl | rfl
  · rfl
  · rfl

theorem getTextNode_error {children : List Dom} (h : getTextNode ctx children = .error e) :
    TextExc ctx children e := by
  have hdata : ∀ {n : Dom} {rest : List Dom} {data : Except Exc Str},
      n = .text data ∨ n = .cdataSection data →
      (getTextNode ctx rest = .error e → TextExc ctx rest e) →
      getTextNode ctx (n :: rest) = .error e → TextExc ctx (n :: rest) e := by
    intro n rest data hn ih h
    rw [getTextNode_data hn] at h
    obtain h | ⟨txt, -, h⟩ := except_bind_eq_error h
    · obtain rfl | ⟨txt, msg, rfl, hlen, rfl⟩ := checkedData_error h
      · exact .data (hn.imp (by simp [·]) (by simp [·]))
      · exact .tooLong msg (hn.imp (by simp [·]) (by simp [·])) hlen
    · obtain h | ⟨r, -, h⟩ := except_bind_eq_error h
      · exact (ih h).cons
      · cases h
  induction children with
  | nil => cases h
  | cons n rest ih =>
      cases n with
      | text data => exact hdata (.inl rfl) ih h
      | cdataSection data => exact hdata (.inr rfl) ih h
      | comment => exact (ih h).cons
      | element name attrs cs =>
          obtain rfl := Except.error.inj h
          exact .element List.mem_cons_self
      | other type =>
          obtain rfl := Except.error.inj h
          exact .other List.mem_cons_self

/-- A text that was read comes from children that are text, CDATA or comments. -/
theorem getTextNode_ok {children : List Dom} {txt : Str} (h : getTextNode ctx children = .ok txt) :
    txt = textOf children ∧ ∀ n ∈ children,
      (∃ t, n = .text (.ok t) ∨ n = .cdataSection (.ok t)) ∨ n = .comment := by
  have hdata : ∀ {n : Dom} {rest : List Dom} {data : Except Exc Str} {txt : Str},
      n = .text data ∨ n = .cdataSection data →
      getTextNode ctx (n :: rest) = .ok txt →
      ∃ t r, data = .ok t ∧ getTextNode ctx rest = .ok r ∧ txt = t ++ r := by
    intro n rest data txt hn h
    rw [getTextNode_data hn] at h
    obtain ⟨t, ht, h⟩ := except_bind_eq_ok h
    obtain ⟨r, hr, h⟩ := except_bind_eq_ok h
    exact ⟨t, r, checkedData_eq_ok ht, hr, (Except.ok.inj h).symm⟩
  induction children generalizing txt with
  | nil =>
      obtain rfl := Except.ok.inj h
      exact ⟨rfl, nofun⟩
  | cons n rest ih =>
      cases n with
      | text data =>
          obtain ⟨t, r, rfl, hr, rfl⟩ := hdata (.inl rfl) h
          obtain ⟨rfl, hrest⟩ := ih hr
          exact ⟨rfl, List.forall_mem_cons.mpr ⟨.inl ⟨t, .inl rfl⟩, hrest⟩⟩
      | cdataSection data =>
          obtain ⟨t, r, rfl, hr, rfl⟩ := hdata (.inr rfl) h
          obtain ⟨rfl, hrest⟩ := ih hr
          exact ⟨rfl, List.forall_mem_cons.mpr ⟨.inl ⟨t, .inr rfl⟩, hrest⟩⟩
      | comment =>
          obtain ⟨rfl, hrest⟩ := ih h
          exact ⟨rfl, List.forall_mem_cons.mpr ⟨.inr rfl, hrest⟩⟩
      | element name attrs cs => cases h
      | other type => cases h

theorem getTextNodeWithPrepare_error {children : List Dom} {r p : Str}
    (h : getTextNodeWithPrepare ctx r p children = .error e) : SqlExc ctx children e := by
  have hdata : ∀ {n : Dom} {rest : List Dom} {data : Except Exc Str} {r p : Str},
      n = .text data ∨ n = .cdataSection data →
      (∀ r p, getTextNodeWithPrepare ctx r p rest = .error e → SqlExc ctx rest e) →
      getTextNodeWithPrepare ctx r p (n :: rest) = .error e → SqlExc ctx (n :: rest) e := by
    intro n rest data r p hn ih h
    rw [getTextNodeWithPrepare_data hn] at h
    obtain h | ⟨txt, -, h⟩ := except_bind_eq_error h
    · obtain rfl | ⟨txt, msg, rfl, hlen, rfl⟩ := checkedData_error h
      · exact .data (hn.imp (by simp [·]) (by simp [·]))
      · exact .tooLong msg (hn.imp (by simp [·]) (by simp [·])) hlen
    · exact (ih _ _ h).cons
  induction children generalizing r p with
  | nil => cases h
  | cons n rest ih =>
      cases n with
      | text data => exact hdata (.inl rfl) (fun _ _ h => ih h) h
      | cdataSection data => exact hdata (.inr rfl) (fun _ _ h => ih h) h
      | comment => exact (ih h).cons
      | element name attrs cs =>
          rw [getTextNodeWithPrepare] at h
          split at h
          · next hname =>
            subst hname
            obtain h | ⟨prep, -, h⟩ := except_bind_eq_error h
            · exact .prepare List.mem_cons_self (getTextNode_error h)
            · exact (ih h).cons
          · next hname =>
            obtain rfl := Except.error.inj h
            exact .element List.mem_cons_self hname
      | other type =>
          obtain rfl := Except.error.inj h
          exact .other List.mem_cons_self

/-- The children of a `<sql>` element that was read. -/
def SqlNode (ctx : List Str) (n : Dom) : Prop :=
  (∃ t, n = .text (.ok t) ∨ n = .cdataSection (.ok t)) ∨ n = .comment ∨
    ∃ attrs cs prep, n = .element "prepare" attrs cs ∧ getTextNode ctx cs = .ok prep

theorem getTextNodeWithPrepare_ok {children : List Dom} {r p : Str} {res : Str × Str}
    (h : getTextNodeWithPrepare ctx r p children = .ok res) :
    res.1 = r ++ textOf children ∧ ∀ n ∈ children, SqlNode ctx n := by
  have hdata : ∀ {n : Dom} {rest : List Dom} {data : Except Exc Str} {r p : Str},
      n = .text data ∨ n = .cdataSection data →
      getTextNodeWithPrepare ctx r p (n :: rest) = .ok res →
      ∃ t, data = .ok t ∧ getTextNodeWithPrepare ctx (r ++ t) p rest = .ok res := by
    intro n rest data r p hn h
    rw [getTextNodeWithPrepare_data hn] at h
    obtain ⟨t, ht, h⟩ := except_bind_eq_ok h
    exact ⟨t, checkedData_eq_ok ht, h⟩
  induction children generalizing r p with
  | nil =>
      obtain rfl := Except.ok.inj h
      exact ⟨(List.append_nil r).symm, nofun⟩
  | cons n rest ih =>
      cases n with
      | text data =>
          obtain ⟨t, rfl, hr⟩ := hdata (.inl rfl) h
          obtain ⟨hres, hrest⟩ := ih hr
          exact ⟨by rw [hres, List.append_assoc]; rfl,
            List.forall_mem_cons.mpr ⟨.inl ⟨t, .inl rfl⟩, hrest⟩⟩
      | cdataSection data =>
          obtain ⟨t, rfl, hr⟩ := hdata (.inr rfl) h
          obtain ⟨hres, hrest⟩ := ih hr
          exact ⟨by rw [hres, List.append_assoc]; rfl,
            List.forall_mem_cons.mpr ⟨.inl ⟨t, .inr rfl⟩, hrest⟩⟩
      | comment =>
          obtain ⟨hres, hrest⟩ := ih h
          exact ⟨hres, List.forall_mem_cons.mpr ⟨.inr (.inl rfl), hrest⟩⟩
      | element name attrs cs =>
          rw [getTextNodeWithPrepare] at h
          split at h
          · next hname =>
            subst hname
            obtain ⟨prep, hprep, h⟩ := except_bind_eq_ok h
            obtain ⟨hres, hrest⟩ := ih h
            exact ⟨hres, List.forall_mem_cons.mpr ⟨.inr (.inr ⟨attrs, cs, prep, rfl, hprep⟩), hrest⟩⟩
          · cases h
      | other type => cases h

end Text

/-! ## Children of a query -/

/-- The rdbms of a `<sql>` element. -/
def sqlRdbms (attrs : Attrs) : Option Rdbms := Rdbms.ofName (attrValue attrs "rdbms" Rdbms.sql.name)

/-- The `<sql>` elements among the children: the rdbms and the text of each. -/
def sqlTexts : List Dom → List (Option Rdbms × Str)
  | [] => []
  | .element name attrs cs :: rest =>
      if name = "sql".toList then (sqlRdbms attrs, textOf cs) :: sqlTexts rest else sqlTexts rest
  | _ :: rest => sqlTexts rest

/-- The text that is selected: the first one for the target, or else the first generic one. -/
def selectedText (target : Rdbms) (children : List Dom) : Option Str :=
  (((sqlTexts children).find? fun t => t.1 = some target) <|>
    (sqlTexts children).find? fun t => t.1 = some Rdbms.sql).map Prod.snd

/-- The rdbms of each `<sql>` element among the children. -/
def sqlKeys (children : List Dom) : List (Option Rdbms) := (sqlTexts children).map Prod.fst

/-- What the loop over the children of a query raises for one of them alone. -/
inductive ChildExc (target : Rdbms) (ctx : List Str) (children : List Dom) : Exc → Prop
  | text {attrs : Attrs} {cs : List Dom} {e : Exc} (h : .element "sql" attrs cs ∈ children)
      (hr : Relevant target (sqlRdbms attrs)) (he : SqlExc ctx cs e) : ChildExc target ctx children e
  | element {name : Str} {attrs : Attrs} {cs : List Dom} (h : .element name attrs cs ∈ children)
      (hname : name ≠ "qp".toList ∧ name ≠ "qr".toList ∧ name ≠ "sql".toList) :
      ChildExc target ctx children
        (.runtimeError ("internal error only qp, qr and sql-set allowed." ++ name ++ " "))
  | cdataSection {data : Except Exc Str} (h : .cdataSection data ∈ children) :
      ChildExc target ctx children (loadQChild.notElement ctx .cdataSectionNode)
  | other {type : NodeType} (h : .other type ∈ children) :
      ChildExc target ctx children (loadQChild.notElement ctx type)

/-- The children of a query whose loop came to an end. -/
def QNode (target : Rdbms) (ctx : List Str) : Dom → Prop
  | .element name attrs cs =>
      name = "qp".toList ∨ name = "qr".toList ∨
        name = "sql".toList ∧ (Relevant target (sqlRdbms attrs) → ∀ n ∈ cs, SqlNode ctx n)
  | .text _ | .comment => True
  | .cdataSection _ | .other _ => False

/-- The best of two texts: `put` without its duplicates. -/
def better (best : Option (Rdbms × MultiLine)) (r : Rdbms) (m : MultiLine) :
    Option (Rdbms × MultiLine) :=
  match best with
  | none => some (r, m)
  | some (old, _) => if r.code > old.code then some (r, m) else best

/-- The best of the relevant texts. -/
def pick (target : Rdbms) (best : Option (Rdbms × MultiLine)) :
    List (Option Rdbms × Str) → Option (Rdbms × MultiLine)
  | [] => best
  | (some r, txt) :: rest =>
      if r = .sql ∨ r = target then pick target (better best r (.ofView (View.ofStr txt))) rest
      else pick target best rest
  | (none, _) :: rest => pick target best rest

/-- What a set holds. -/
def GsqlSqlSet.entry (r : GsqlSqlSet) : Option (Rdbms × MultiLine) :=
  if r.empty then none else some (r.sqlDscr.dbType, r.sqlDscr.mlSql)

section Children

variable {target : Rdbms} {ctx : List Str} {n : Dom} {rest : List Dom} {e : Exc}

theorem ChildExc.cons (h : ChildExc target ctx rest e) : ChildExc target ctx (n :: rest) e := by
  cases h with
  | text h hr he => exact .text (List.mem_cons_of_mem _ h) hr he
  | element h hname => exact .element (List.mem_cons_of_mem _ h) hname
  | cdataSection h => exact .cdataSection (List.mem_cons_of_mem _ h)
  | other h => exact .other (List.mem_cons_of_mem _ h)

theorem ChildExc.mono (h : ChildExc target ctx [n] e) : ChildExc target ctx (n :: rest) e := by
  have hmem : ∀ {m : Dom}, m ∈ [n] → m ∈ n :: rest := fun hm =>
    List.mem_cons.mpr (.inl (List.mem_singleton.mp hm))
  cases h with
  | text h hr he => exact .text (hmem h) hr he
  | element h hname => exact .element (hmem h) hname
  | cdataSection h => exact .cdataSection (hmem h)
  | other h => exact .other (hmem h)

theorem put_entry {r : GsqlSqlSet} {val : GsqlSqlDscr} (h : (r.put val).1 ≠ .ambiguous) :
    (r.put val).2.entry = better r.entry val.dbType val.mlSql := by
  unfold GsqlSqlSet.put at h ⊢
  unfold GsqlSqlSet.entry better
  cases he : r.empty with
  | true => simp
  | false =>
      simp only [he, Bool.not_false, if_true] at h ⊢
      by_cases heq : r.sqlDscr.dbType = val.dbType
      · simp [heq] at h
      · by_cases hlt : val.dbType.code > r.sqlDscr.dbType.code
        · simp [heq, hlt]
        · simp [heq, hlt, he]

theorem best_of_ambiguous {r : GsqlSqlSet} {val : GsqlSqlDscr} (h : (r.put val).1 = .ambiguous) :
    r.best = some val.dbType := by
  unfold GsqlSqlSet.put at h
  unfold GsqlSqlSet.best
  cases he : r.empty with
  | true => simp [he] at h
  | false =>
      by_cases heq : r.sqlDscr.dbType = val.dbType
      · simp [heq]
      · by_cases hlt : val.dbType.code > r.sqlDscr.dbType.code
        · simp [he, heq, hlt] at h
        · simp [he, heq, hlt] at h

theorem best_eq_entry (r : GsqlSqlSet) : r.best = r.entry.map Prod.fst := by
  unfold GsqlSqlSet.best GsqlSqlSet.entry
  split
  · rfl
  · rfl

/-- What is picked was the best before or is one of the texts. -/
theorem pick_fst (best : Option (Rdbms × MultiLine)) (ts : List (Option Rdbms × Str)) :
    (pick target best ts).map Prod.fst = best.map Prod.fst ∨
      (pick target best ts).map Prod.fst ∈ ts.map Prod.fst := by
  induction ts generalizing best with
  | nil => exact .inl rfl
  | cons t ts ih =>
      have hmem : ∀ {k}, k ∈ ts.map Prod.fst → k ∈ (t :: ts).map Prod.fst := fun h =>
        List.mem_cons_of_mem _ h
      obtain ⟨_ | r, txt⟩ := t
      · exact (ih best).imp_right hmem
      · rw [pick]
        split
        · have hbetter : (better best r (.ofView (View.ofStr txt))).map Prod.fst = best.map Prod.fst ∨
              (better best r (.ofView (View.ofStr txt))).map Prod.fst = some r := by
            unfold better
            split
            · exact .inr rfl
            · split
              · exact .inr rfl
              · exact .inl rfl
          rcases ih (better best r (.ofView (View.ofStr txt))) with h | h
          · rw [h]
            exact hbetter.imp_right fun hr => by rw [hr]; exact List.mem_cons_self
          · exact .inr (hmem h)
        · exact (ih best).imp_right hmem

theorem loadSqlSetSql_error {attrs : Attrs} {cs : List Dom} {ndx : Nat} {r : GsqlSqlSet}
    (h : loadSqlSetSql attrs cs ctx target ndx r = .error e) :
    Relevant target (sqlRdbms attrs) ∧ SqlExc ctx cs e ∨
      IsDuplicate e ∧ r.best ≠ none ∧ r.best = sqlRdbms attrs := by
  unfold loadSqlSetSql at h
  split at h
  · cases h
  · next rdbms hk =>
    split at h
    · next hrel =>
      have hrelevant : Relevant target (sqlRdbms attrs) := by
        rw [sqlRdbms, hk]
        exact hrel.imp (congrArg some) (congrArg some)
      obtain h | ⟨res, -, h⟩ := except_bind_eq_error h
      · exact .inl ⟨hrelevant, getTextNodeWithPrepare_error h⟩
      · dsimp only at h
        split at h
        · next hput =>
          have hbest : r.best = some rdbms := best_of_ambiguous hput
          rw [sqlRdbms, hk, hbest]
          exact .inr ⟨⟨_, (Except.error.inj h).symm⟩, nofun, rfl⟩
        · cases h
    · cases h

theorem loadSqlSetSql_ok {attrs : Attrs} {cs : List Dom} {ndx : Nat} {r r' : GsqlSqlSet}
    (h : loadSqlSetSql attrs cs ctx target ndx r = .ok r') :
    (Relevant target (sqlRdbms attrs) → ∀ n ∈ cs, SqlNode ctx n) ∧
      r'.entry = pick target r.entry [(sqlRdbms attrs, textOf cs)] := by
  unfold loadSqlSetSql at h
  split at h
  · next hk =>
    obtain rfl := Except.ok.inj h
    rw [sqlRdbms, hk]
    exact ⟨fun hrel => absurd hrel (by simp [Relevant]), rfl⟩
  · next rdbms hk =>
    rw [sqlRdbms, hk]
    split at h
    · next hrel =>
      obtain ⟨res, hres, h⟩ := except_bind_eq_ok h
      obtain ⟨htext, hnodes⟩ := getTextNodeWithPrepare_ok hres
      refine ⟨fun _ => hnodes, ?_⟩
      dsimp only at h
      split at h
      · cases h
      · next hput =>
        obtain rfl := Except.ok.inj h
        rw [put_entry hput, pick, if_pos hrel, pick]
        simp [GsqlSqlDscr.new, htext]
    · next hrel =>
      obtain rfl := Except.ok.inj h
      refine ⟨fun hr => ?_, ?_⟩
      · exact absurd (hr.imp Option.some.inj Option.some.inj) hrel
      · rw [pick, if_neg hrel, pick]

/-- One child raises an exception of its own or meets the text that was remembered. -/
theorem loadQChild_error {c : Collected} (h : loadQChild ctx target c n = .error e) :
    ChildExc target ctx [n] e ∨
      IsDuplicate e ∧ c.sqlSet.best ≠ none ∧ c.sqlSet.best ∈ sqlKeys [n] := by
  cases n with
  | element name attrs cs =>
      rw [loadQChild] at h
      split at h
      · cases h
      · next hqp =>
        split at h
        · cases h
        · next hqr =>
          split at h
          · next hsql =>
            subst hsql
            obtain h | ⟨r, -, h⟩ := except_bind_eq_error h
            · obtain ⟨hr, he⟩ | ⟨hdup, hbest, hk⟩ := loadSqlSetSql_error h
              · exact .inl (.text List.mem_cons_self hr he)
              · exact .inr ⟨hdup, hbest, hk ▸ List.mem_cons_self⟩
            · cases h
          · next hsql =>
            obtain rfl := Except.error.inj h
            exact .inl (.element List.mem_cons_self ⟨hqp, hqr, hsql⟩)
  | text data => cases h
  | comment => cases h
  | cdataSection data =>
      obtain rfl := Except.error.inj h
      exact .inl (.cdataSection List.mem_cons_self)
  | other type =>
      obtain rfl := Except.error.inj h
      exact .inl (.other List.mem_cons_self)

/-- A child that is loaded keeps what the query is: its id and its allowed codes. -/
structure ChildLoaded (target : Rdbms) (ctx : List Str) (nodes : List Dom) (c c' : Collected) :
    Prop where
  kinds : ∀ n ∈ nodes, QNode target ctx n
  entry : c'.sqlSet.entry = pick target c.sqlSet.entry (sqlTexts nodes)
  id : c'.q.id = c.q.id
  sqlSet : c'.q.sqlSet = c.q.sqlSet

theorem setBufDscr_id (q : GsqlQ) (b : GsqlQbufDscr) :
    (q.setBufDscr b).id = q.id ∧ (q.setBufDscr b).sqlSet = q.sqlSet := by
  unfold GsqlQ.setBufDscr
  split
  · exact ⟨rfl, rfl⟩
  · exact ⟨rfl, rfl⟩

theorem loadQChild_ok {c c' : Collected} (h : loadQChild ctx target c n = .ok c') :
    ChildLoaded target ctx [n] c c' := by
  cases n with
  | element name attrs cs =>
      rw [loadQChild] at h
      split at h
      · next hqp =>
        subst hqp
        obtain rfl := Except.ok.inj h
        exact ⟨by simp [QNode], rfl, (setBufDscr_id _ _).1, (setBufDscr_id _ _).2⟩
      · next hqp =>
        split at h
        · next hqr =>
          subst hqr
          obtain rfl := Except.ok.inj h
          exact ⟨by simp [QNode], rfl, (setBufDscr_id _ _).1, (setBufDscr_id _ _).2⟩
        · split at h
          · next hsql =>
            subst hsql
            obtain ⟨r, hr, h⟩ := except_bind_eq_ok h
            obtain rfl := Except.ok.inj h
            obtain ⟨hnodes, hentry⟩ := loadSqlSetSql_ok hr
            refine ⟨?_, hentry, rfl, rfl⟩
            rintro m hm
            obtain rfl := List.mem_singleton.mp hm
            exact .inr (.inr ⟨rfl, hnodes⟩)
          · cases h
  | text data =>
      obtain rfl := Except.ok.inj h
      exact ⟨by simp [QNode], rfl, rfl, rfl⟩
  | comment =>
      obtain rfl := Except.ok.inj h
      exact ⟨by simp [QNode], rfl, rfl, rfl⟩
  | cdataSection data => cases h
  | other type => cases h

theorem pick_append (best : Option (Rdbms × MultiLine)) (ts us : List (Option Rdbms × Str)) :
    pick target best (ts ++ us) = pick target (pick target best ts) us := by
  induction ts generalizing best with
  | nil => rfl
  | cons t ts ih =>
      obtain ⟨_ | r, txt⟩ := t
      · exact ih best
      · simp only [List.cons_append, pick]
        split
        · exact ih _
        · exact ih best

theorem sqlTexts_cons (n : Dom) (rest : List Dom) :
    sqlTexts (n :: rest) = sqlTexts [n] ++ sqlTexts rest := by
  cases n with
  | element name attrs cs =>
      simp only [sqlTexts]
      split <;> rfl
  | _ => rfl

theorem sqlKeys_cons (n : Dom) (rest : List Dom) :
    sqlKeys (n :: rest) = sqlKeys [n] ++ sqlKeys rest := by
  rw [sqlKeys, sqlTexts_cons, List.map_append]
  rfl

/-- The loop raises an exception for one child alone or for a second text: the rdbms of the
remembered text comes again, or that of another text does. -/
theorem collect_error {children : List Dom} {c : Collected}
    (h : collect ctx target c children = .error e) :
    ChildExc target ctx children e ∨
      IsDuplicate e ∧ (c.sqlSet.best ≠ none ∧ c.sqlSet.best ∈ sqlKeys children ∨
        ¬ (sqlKeys children).Nodup) := by
  induction children generalizing c with
  | nil => cases h
  | cons n rest ih =>
      rw [sqlKeys_cons]
      obtain h | ⟨c', hn, h⟩ := except_bind_eq_error h
      · obtain h | ⟨hdup, hbest, hmem⟩ := loadQChild_error h
        · exact .inl h.mono
        · exact .inr ⟨hdup, .inl ⟨hbest, List.mem_append_left _ hmem⟩⟩
      · obtain h | ⟨hdup, hagain⟩ := ih h
        · exact .inl h.cons
        · refine .inr ⟨hdup, ?_⟩
          rcases hagain with ⟨hbest, hmem⟩ | hnodup
          · have hfst := @pick_fst target c.sqlSet.entry (sqlTexts [n])
            rw [← (loadQChild_ok hn).entry, ← best_eq_entry, ← best_eq_entry] at hfst
            rcases hfst with hsame | hnew
            · rw [hsame] at hbest hmem
              exact .inl ⟨hbest, List.mem_append_right _ hmem⟩
            · right
              intro hnodup
              exact (List.nodup_append.mp hnodup).2.2 _ hnew _ hmem rfl
          · exact .inr fun h => hnodup (List.nodup_append.mp h).2.1

theorem collect_ok {children : List Dom} {c c' : Collected}
    (h : collect ctx target c children = .ok c') : ChildLoaded target ctx children c c' := by
  induction children generalizing c with
  | nil =>
      obtain rfl := Except.ok.inj h
      exact ⟨nofun, rfl, rfl, rfl⟩
  | cons n rest ih =>
      obtain ⟨c₁, hn, h⟩ := except_bind_eq_ok h
      have hhead := loadQChild_ok hn
      have htail := ih h
      refine ⟨?_, ?_, htail.id.trans hhead.id, htail.sqlSet.trans hhead.sqlSet⟩
      · exact List.forall_mem_cons.mpr ⟨hhead.kinds n List.mem_cons_self, htail.kinds⟩
      · rw [htail.entry, hhead.entry, sqlTexts_cons n rest, pick_append]

/-! ## The selected text -/

theorem pick_target (m : MultiLine) (ts : List (Option Rdbms × Str)) :
    pick target (some (target, m)) ts = some (target, m) := by
  induction ts with
  | nil => rfl
  | cons t ts ih =>
      obtain ⟨_ | r, txt⟩ := t
      · exact ih
      · rw [pick]
        split
        · next hr =>
          have hle : ¬ r.code > target.code := by
            rcases hr with rfl | rfl
            · exact Nat.not_lt_zero _
            · exact Nat.lt_irrefl _
          rw [better, if_neg hle]
          exact ih
        · exact ih

theorem pick_sql (m : MultiLine) (ts : List (Option Rdbms × Str)) :
    (pick target (some (.sql, m)) ts).map Prod.snd =
      some ((ts.find? fun t => t.1 = some target).elim m fun t =>
        if target = .sql then m else .ofView (View.ofStr t.2)) := by
  by_cases ht : target = .sql
  · subst ht
    rw [pick_target]
    cases ts.find? fun t => t.1 = some Rdbms.sql with
    | none => rfl
    | some t => simp
  induction ts with
  | nil => rfl
  | cons t ts ih =>
      obtain ⟨_ | r, txt⟩ := t
      · exact ih
      · rw [pick]
        by_cases hr : r = target
        · subst hr
          rw [if_pos (.inr rfl), better, if_pos (Rdbms.sql_lt_code ht), pick_target]
          simp [ht]
        · have hfind : ((some r, txt) :: ts).find? (fun t => t.1 = some target) =
              ts.find? fun t => t.1 = some target := by
            simp [hr]
          rw [hfind, ← ih]
          split
          · next hrel =>
            obtain rfl := hrel.resolve_right hr
            rfl
          · rfl

/-- Without duplicates the text for the target wins, and the first generic one else. -/
theorem pick_none (ts : List (Option Rdbms × Str)) :
    (pick target none ts).map Prod.snd =
      ((((ts.find? fun t => t.1 = some target) <|> ts.find? fun t => t.1 = some Rdbms.sql).map
        Prod.snd).map fun txt => MultiLine.ofView (View.ofStr txt)) := by
  induction ts with
  | nil => rfl
  | cons t ts ih =>
      obtain ⟨k, txt⟩ := t
      by_cases ht : k = some target
      · subst ht
        rw [pick, if_pos (.inr rfl), better, pick_target]
        simp
      · have hfind : ((k, txt) :: ts).find? (fun t => t.1 = some target) =
            ts.find? fun t => t.1 = some target := by
          simp [ht]
        rw [hfind]
        by_cases hs : k = some .sql
        · subst hs
          have hsql : target ≠ .sql := fun h => ht (congrArg some h.symm)
          rw [pick, if_pos (.inl rfl), better, pick_sql]
          cases ts.find? fun t => t.1 = some target with
          | none => simp
          | some t => simp [hsql]
        · have hfind' : ((k, txt) :: ts).find? (fun t => t.1 = some Rdbms.sql) =
              ts.find? fun t => t.1 = some Rdbms.sql := by
            simp [hs]
          rw [hfind', ← ih]
          cases k with
          | none => rfl
          | some r =>
              rw [pick, if_neg]
              rintro (rfl | rfl)
              · exact hs rfl
              · exact ht rfl

end Children

/-! ## Queries -/

variable {σ : Type} {cli : Cli σ} {target : Rdbms}

/-- Describing a query changes its buffers only. -/
theorem yields_loadQSqlsetFromDb (r : GsqlQ) (db : Handle) :
    Yields (fun q => q.id = r.id ∧ q.sqlSet = r.sqlSet) (loadQSqlsetFromDb cli r db) := by
  have hbody : Yields (fun q => q.id = r.id ∧ q.sqlSet = r.sqlSet) (describeQuery cli r db) :=
    yields_bind fun _ => yields_bind fun _ => yields_bind fun _ => yields_bind fun _ =>
      yields_bind fun _ => yields_bind fun _ => yields_pure ⟨rfl, rfl⟩
  apply Yields.ite
  · exact yields_bind fun _ => (yields_bind fun _ => hbody.withCleanup).withCleanup
  · exact yields_pure ⟨rfl, rfl⟩

/-- The id of the `ndx`-th query of a document. -/
def queryId (attrs : Attrs) (ndx : Nat) : Str := attrValue attrs "id" ("q_" ++ decimal ndx)

/-- The query with its attributes read. -/
def newQuery (attrs : Attrs) (ndx : Nat) (target : Rdbms) : GsqlQ :=
  let r : GsqlQ :=
    { id := queryId attrs ndx
      par := .new .par false
      res := .new .res false
      sqlSet := { dbType := target } }
  r.setAllowed (attrValue attrs "allowed" "")

theorem loadQ_eq (attrs : Attrs) (children : List Dom) (ndx : Nat) (ctx : List Str) (db : Handle)
    (target : Rdbms) :
    loadQ cli attrs children ndx ctx db target =
      (do
        let c ← fromResult (collect (ctx ++ [queryId attrs ndx]) target
          { q := newQuery attrs ndx target, sqlSet := { dbType := target } } children)
        if ! c.sqlSet.empty then loadQSqlsetFromDb cli (c.q.setSqlSet c.sqlSet) db
        else pure c.q) := rfl

/-- What loading a query raises, when describing it raises what `P` accepts. -/
theorem raises_loadQ_of {P : Exc → Prop} {db : Handle}
    (hdb : ∀ r, Raises P (loadQSqlsetFromDb cli r db)) (attrs : Attrs) (children : List Dom)
    (ndx : Nat) (ctx : List Str) :
    Raises (fun e => ChildExc target (ctx ++ [queryId attrs ndx]) children e ∨
        IsDuplicate e ∧ ¬ (sqlKeys children).Nodup ∨ P e)
      (loadQ cli attrs children ndx ctx db target) := by
  rw [loadQ_eq]
  refine (raises_fromResult fun e he => ?_).bind fun c => ?_
  · obtain h | ⟨hdup, ⟨hbest, -⟩ | hnodup⟩ := collect_error he
    · exact .inl h
    · exact absurd rfl hbest
    · exact .inr (.inl ⟨hdup, hnodup⟩)
  · apply Raises.ite
    · exact fun w e w' h => .inr (.inr (hdb _ w e w' h))
    · exact raises_pure _

/-- A query that was loaded has its id and the selected text. -/
structure QueryLoaded (target : Rdbms) (ctx : List Str) (attrs : Attrs) (children : List Dom)
    (ndx : Nat) (q : GsqlQ) : Prop where
  kinds : ∀ n ∈ children, QNode target (ctx ++ [queryId attrs ndx]) n
  id : q.id = queryId attrs ndx
  sql : q.sql = (MultiLine.ofView (View.ofStr ((selectedText target children).getD []))).toStr

theorem yields_loadQ (attrs : Attrs) (children : List Dom) (ndx : Nat) (ctx : List Str)
    (db : Handle) :
    Yields (QueryLoaded target ctx attrs children ndx)
      (loadQ cli attrs children ndx ctx db target) := by
  rw [loadQ_eq]
  intro w q w' h
  obtain ⟨c, w₁, hc, h⟩ := runOn_bind_eq_ok h
  rw [runOn_fromResult] at hc
  have hcollect := collect_ok (Prod.mk.inj hc).1
  have hsel : c.sqlSet.entry.map Prod.snd =
      (selectedText target children).map fun txt => MultiLine.ofView (View.ofStr txt) := by
    rw [hcollect.entry]
    exact pick_none (sqlTexts children)
  have hid : c.q.id = queryId attrs ndx := hcollect.id
  cases he : c.sqlSet.empty with
  | false =>
      rw [he] at h
      obtain ⟨hqid, hqset⟩ := yields_loadQSqlsetFromDb (c.q.setSqlSet c.sqlSet) db _ _ _ h
      refine ⟨hcollect.kinds, hqid.trans hid, ?_⟩
      have hentry : c.sqlSet.entry.map Prod.snd = some c.sqlSet.sqlDscr.mlSql := by
        simp [GsqlSqlSet.entry, he]
      cases hs : selectedText target children with
      | none => simp [hentry, hs] at hsel
      | some txt =>
          rw [hentry, hs] at hsel
          have hml := Option.some.inj hsel
          rw [GsqlQ.sql, hqset, GsqlSqlDscr.sql]
          exact congrArg MultiLine.toStr hml
  | true =>
      rw [he] at h
      obtain rfl := Except.ok.inj (Prod.mk.inj h).1
      refine ⟨hcollect.kinds, hid, ?_⟩
      have hset : c.q.sqlSet = { dbType := target } := hcollect.sqlSet
      have hentry : c.sqlSet.entry = none := by simp [GsqlSqlSet.entry, he]
      cases hs : selectedText target children with
      | some txt => simp [hentry, hs] at hsel
      | none =>
          rw [GsqlQ.sql, hset]
          rfl

end Dbgen3.Generator
