import Dbgen3.Generator.Describing

/-!
# Duplicate SQL texts

The set of SQL texts remembers the best description only. A second text for the
target is always found, a second generic text only as long as no text for the
target has replaced the first one.
-/

namespace Dbgen3.Generator

open Act
open Dbgen3.Runtime (Cli World Handle StmtId raises_pure)

variable {σ : Type} {cli : Cli σ}

/-- An exception without a program status. -/
def NoStatus (e : Exc) : Prop := ∀ status msg, e ≠ .dbgen3Exc status msg

theorem FromDatabase.noStatus {e : Exc} (h : FromDatabase e) : NoStatus e := by
  rintro status msg rfl
  cases h with
  | @diagnostics _ _ reply _ he => cases reply <;> cases he

/-! ## The children of a query -/

/-- A `<sql>` element whose text can be read. -/
structure SqlElement where
  attrs : Attrs
  children : List Dom
  text : Str × Str
  reads : ∀ ctx, getTextNodeWithPrepare ctx [] [] children = .ok text

/-- A child of a query element: a SQL text, a buffer or something that is skipped. -/
inductive QChild
  | sql (e : SqlElement)
  | qp (attrs : Attrs) (children : List Dom)
  | qr (attrs : Attrs) (children : List Dom)
  | text (data : Except Exc Str)
  | comment

namespace QChild

def dom : QChild → Dom
  | sql e => .element "sql" e.attrs e.children
  | qp attrs children => .element "qp" attrs children
  | qr attrs children => .element "qr" attrs children
  | text data => .text data
  | comment => .comment

/-- The rdbms a SQL text is for. -/
def rdbms : QChild → Option Rdbms
  | sql e => Rdbms.ofName (attrValue e.attrs "rdbms" Rdbms.sql.name)
  | _ => none

end QChild

/-! ## A memory of one -/

variable (target : Rdbms)

/-- The generic and the target rdbms are looked at. -/
def Relevant (k : Option Rdbms) : Prop := k = some .sql ∨ k = some target

instance (k : Option Rdbms) : Decidable (Relevant target k) := inferInstanceAs (Decidable (_ ∨ _))

/-- What is remembered after `k`: a text for the target replaces a generic one. -/
def remember (best k : Option Rdbms) : Option Rdbms :=
  if Relevant target k ∧ best ≠ some target then k else best

/-- Some text meets the remembered one. -/
def Clashes : Option Rdbms → List (Option Rdbms) → Prop
  | _, [] => False
  | best, k :: ks => (Relevant target k ∧ best = k) ∨ Clashes (remember target best k) ks

/-- The texts in front of the first one for the target. -/
def beforeTarget (ks : List (Option Rdbms)) : List (Option Rdbms) :=
  ks.takeWhile fun k => decide (k ≠ some target)

variable {target}

theorem beforeTarget_eq_self {ks : List (Option Rdbms)} (h : some target ∉ ks) :
    beforeTarget target ks = ks := by
  induction ks with
  | nil => rfl
  | cons k ks ih =>
      rw [List.mem_cons, not_or] at h
      rw [beforeTarget, List.takeWhile_cons, if_pos (decide_eq_true (Ne.symm h.1))]
      exact congrArg _ (ih h.2)

theorem clashes_target (ks : List (Option Rdbms)) :
    Clashes target (some target) ks ↔ 1 ≤ ks.count (some target) := by
  induction ks with
  | nil => simp [Clashes]
  | cons k ks ih =>
      have hr : remember target (some target) k = some target := if_neg fun h => h.2 rfl
      rw [Clashes, hr, ih]
      by_cases hk : k = some target
      · simp [hk, Relevant]
      · simp [hk, Ne.symm hk]

theorem sql_ne_target (ht : target ≠ .sql) : some Rdbms.sql ≠ some target :=
  fun h => ht (Option.some.inj h).symm

theorem clashes_sql (ht : target ≠ .sql) (ks : List (Option Rdbms)) :
    Clashes target (some .sql) ks ↔
      1 ≤ (beforeTarget target ks).count (some .sql) ∨ 2 ≤ ks.count (some target) := by
  induction ks with
  | nil => simp [Clashes, beforeTarget]
  | cons k ks ih =>
      have hne := sql_ne_target ht
      rw [Clashes, beforeTarget, List.takeWhile_cons]
      by_cases hk : k = some target
      · have hr : remember target (some .sql) k = some target := by
          rw [remember, if_pos ⟨.inr hk, hne⟩, hk]
        rw [hr, clashes_target]
        simp [hk, hne]
      · by_cases hs : k = some .sql
        · simp [hs, hne, Relevant]
        · have hr : remember target (some .sql) k = some .sql :=
            if_neg fun h => h.1.elim hs hk
          rw [hr, ih]
          simp [hk, hs, Ne.symm hs, beforeTarget]

theorem clashes_none (ht : target ≠ .sql) (ks : List (Option Rdbms)) :
    Clashes target none ks ↔
      2 ≤ (beforeTarget target ks).count (some .sql) ∨ 2 ≤ ks.count (some target) := by
  induction ks with
  | nil => simp [Clashes, beforeTarget]
  | cons k ks ih =>
      have hne := sql_ne_target ht
      rw [Clashes, beforeTarget, List.takeWhile_cons]
      by_cases hk : k = some target
      · have hr : remember target none k = some target := by
          rw [remember, if_pos ⟨.inr hk, by simp⟩, hk]
        rw [hr, clashes_target]
        simp [hk]
      · by_cases hs : k = some .sql
        · have hr : remember target none k = some .sql := by
            rw [remember, if_pos ⟨.inl hs, by simp⟩, hs]
          rw [hr, clashes_sql ht]
          simp [hs, hne, beforeTarget]
        · have hr : remember target none k = none := if_neg fun h => h.1.elim hs hk
          rw [hr, ih]
          simp [hk, hs, beforeTarget, Relevant]

/-! ## The loop -/

/-- The rdbms of the description in a set. -/
def GsqlSqlSet.best (r : GsqlSqlSet) : Option Rdbms :=
  if r.empty then none else some r.sqlDscr.dbType

/-- A set that holds nothing, a generic text or a text for the target. -/
def Holds (target : Rdbms) (r : GsqlSqlSet) : Prop := r.best = none ∨ Relevant target r.best

/-- `put` finds a text that meets the remembered one and remembers the better one else. -/
theorem put_spec (ht : target ≠ .sql) {r : GsqlSqlSet} (val : GsqlSqlDscr)
    (hr : Holds target r) (hv : Relevant target (some val.dbType)) :
    if r.best = some val.dbType then (r.put val).1 = .ambiguous
    else (r.put val).1 ≠ .ambiguous ∧
      (r.put val).2.best = remember target r.best (some val.dbType) := by
  cases he : r.empty with
  | true =>
      have hbest : r.best = none := by
        rw [GsqlSqlSet.best, he]
        rfl
      have hput : r.put val = (.inserted, { r with empty := false, sqlDscr := val }) := by
        rw [GsqlSqlSet.put, he]
        rfl
      rw [hbest, if_neg (by simp), hput, remember, if_pos ⟨hv, by simp⟩]
      exact ⟨by simp, rfl⟩
  | false =>
      have hbest : r.best = some r.sqlDscr.dbType := by
        rw [GsqlSqlSet.best, he]
        rfl
      have hb : Relevant target (some r.sqlDscr.dbType) := by
        rw [Holds, hbest] at hr
        exact hr.resolve_left (by simp)
      by_cases heq : r.sqlDscr.dbType = val.dbType
      · rw [hbest, if_pos (congrArg some heq)]
        simp [GsqlSqlSet.put, he, heq]
      · rw [hbest, if_neg fun h => heq (Option.some.inj h)]
        by_cases hold : r.sqlDscr.dbType = .sql
        · -- a generic text is replaced by the one for the target
          have hlt : r.sqlDscr.dbType.code < val.dbType.code := by
            rw [hold]
            exact Rdbms.sql_lt_code fun h => heq (hold.trans h.symm)
          have hput : r.put val = (.specific, { r with sqlDscr := val }) := by
            simp [GsqlSqlSet.put, he, heq, hlt]
          have hne : some r.sqlDscr.dbType ≠ some target := by
            rw [hold]
            exact sql_ne_target ht
          rw [hput, remember, if_pos ⟨hv, hne⟩]
          simp [GsqlSqlSet.best, he]
        · -- the text for the target stays
          have htarget : r.sqlDscr.dbType = target :=
            Option.some.inj (hb.resolve_left fun h => hold (Option.some.inj h))
          have hval : val.dbType = .sql :=
            Option.some.inj (hv.resolve_right fun h => heq (htarget.trans (Option.some.inj h).symm))
          have hlt : ¬ val.dbType.code > r.sqlDscr.dbType.code := by
            rw [hval]
            exact Nat.not_lt_zero _
          have hput : r.put val = (.skip, r) := by
            simp [GsqlSqlSet.put, he, heq, hlt]
          rw [hput, remember, if_neg (fun h => h.2 (congrArg some htarget))]
          exact ⟨by simp, hbest⟩

theorem holds_remember {r : GsqlSqlSet} {best k : Option Rdbms}
    (hbest : best = none ∨ Relevant target best) (hr : r.best = remember target best k) :
    Holds target r := by
  unfold remember at hr
  unfold Holds
  split at hr
  · next h =>
      right
      rw [hr]
      exact h.1
  · rw [hr]
    exact hbest

/-- An exception for a second text. -/
def IsDuplicate (e : Exc) : Prop := ∃ msg, e = .dbgen3Exc .duplicateSqlBufDef msg

/-- One `<sql>` element: it meets the remembered text or is remembered itself. -/
theorem loadSqlSetSql_spec (ht : target ≠ .sql) (e : SqlElement) (ctx : List Str) (ndx : Nat)
    {r : GsqlSqlSet} (hr : Holds target r) :
    if Relevant target (QChild.sql e).rdbms ∧ r.best = (QChild.sql e).rdbms then
      ∃ exc, loadSqlSetSql e.attrs e.children ctx target ndx r = .error exc ∧ IsDuplicate exc
    else ∃ r', loadSqlSetSql e.attrs e.children ctx target ndx r = .ok r' ∧
      r'.best = remember target r.best (QChild.sql e).rdbms := by
  have hskip : ∀ {k}, ¬ Relevant target k → remember target r.best k = r.best :=
    fun h => if_neg fun h' => h h'.1
  rw [QChild.rdbms, loadSqlSetSql]
  cases hk : Rdbms.ofName (attrValue e.attrs "rdbms" Rdbms.sql.name) with
  | none =>
      have hrel : ¬ Relevant target none := fun h => h.elim nofun nofun
      rw [if_neg fun h => hrel h.1]
      exact ⟨r, rfl, (hskip hrel).symm⟩
  | some k =>
      have hiff : Relevant target (some k) ↔ k = .sql ∨ k = target := by
        simp only [Relevant, Option.some.injEq]
      by_cases hrel : Relevant target (some k)
      · have hput := put_spec ht
          (GsqlSqlDscr.new k (View.ofStr e.text.1) (View.ofStr e.text.2)) hr hrel
        simp only [if_pos (hiff.mp hrel), e.reads ctx]
        change if r.best = some k then _ else _ at hput
        by_cases hmeet : r.best = some k
        · rw [if_pos hmeet] at hput
          rw [if_pos ⟨hrel, hmeet⟩]
          exact ⟨_, if_pos hput, _, rfl⟩
        · rw [if_neg hmeet] at hput
          rw [if_neg fun h => hmeet h.2]
          exact ⟨_, if_neg hput.1, hput.2⟩
      · rw [if_neg fun h => hrel h.1]
        simp only [if_neg (fun h => hrel (hiff.mpr h))]
        exact ⟨r, rfl, (hskip hrel).symm⟩

/-- One child: only a `<sql>` element changes what is remembered. -/
theorem loadQChild_spec (ht : target ≠ .sql) (child : QChild) (ctx : List Str) {c : Collected}
    (hc : Holds target c.sqlSet) :
    if Relevant target child.rdbms ∧ c.sqlSet.best = child.rdbms then
      ∃ exc, loadQChild ctx target c child.dom = .error exc ∧ IsDuplicate exc
    else ∃ c', loadQChild ctx target c child.dom = .ok c' ∧
      c'.sqlSet.best = remember target c.sqlSet.best child.rdbms := by
  have hnone : ¬ Relevant target none := fun h => h.elim nofun nofun
  have hskip : remember target c.sqlSet.best none = c.sqlSet.best := if_neg fun h => hnone h.1
  cases child with
  | sql e =>
      have hset := loadSqlSetSql_spec ht e ctx (c.sqlCnt + 1) hc
      have hload : loadQChild ctx target c (QChild.sql e).dom =
          (loadSqlSetSql e.attrs e.children ctx target (c.sqlCnt + 1) c.sqlSet).map
            fun sqlSet => { c with sqlSet, sqlCnt := c.sqlCnt + 1 } := by
        change (do
          let sqlSet ← loadSqlSetSql e.attrs e.children ctx target (c.sqlCnt + 1) c.sqlSet
          pure { c with sqlSet, sqlCnt := c.sqlCnt + 1 }) = _
        cases loadSqlSetSql e.attrs e.children ctx target (c.sqlCnt + 1) c.sqlSet <;> rfl
      rw [hload]
      split at hset
      · next hmeet =>
          obtain ⟨exc, hexc, hdup⟩ := hset
          rw [if_pos hmeet]
          exact ⟨exc, by rw [hexc]; rfl, hdup⟩
      · next hmeet =>
          obtain ⟨r', hr', hbest⟩ := hset
          rw [if_neg hmeet]
          exact ⟨{ c with sqlSet := r', sqlCnt := c.sqlCnt + 1 }, by rw [hr']; rfl, hbest⟩
  | qp attrs children =>
      rw [if_neg fun h => hnone h.1]
      exact ⟨{ c with q := c.q.setBufDscr (loadBuf .par attrs) }, rfl, hskip.symm⟩
  | qr attrs children =>
      rw [if_neg fun h => hnone h.1]
      exact ⟨{ c with q := c.q.setBufDscr (loadBuf .res attrs) }, rfl, hskip.symm⟩
  | text data =>
      rw [if_neg fun h => hnone h.1]
      exact ⟨c, rfl, hskip.symm⟩
  | comment =>
      rw [if_neg fun h => hnone h.1]
      exact ⟨c, rfl, hskip.symm⟩

/-- The loop over the children raises exactly where texts meet. -/
theorem collect_spec (ht : target ≠ .sql) (children : List QChild) (ctx : List Str)
    {c : Collected} (hc : Holds target c.sqlSet) :
    (Clashes target c.sqlSet.best (children.map QChild.rdbms) ∧
      ∃ exc, collect ctx target c (children.map QChild.dom) = .error exc ∧ IsDuplicate exc) ∨
    (¬ Clashes target c.sqlSet.best (children.map QChild.rdbms) ∧
      ∃ c', collect ctx target c (children.map QChild.dom) = .ok c') := by
  induction children generalizing c with
  | nil => exact .inr ⟨id, c, rfl⟩
  | cons child children ih =>
      have hchild := loadQChild_spec ht child ctx hc
      rw [List.map_cons, List.map_cons, Clashes, collect]
      split at hchild
      · next hmeet =>
          obtain ⟨exc, hexc, hdup⟩ := hchild
          left
          exact ⟨.inl hmeet, exc, by rw [hexc]; rfl, hdup⟩
      · next hmeet =>
          obtain ⟨c', hc', hbest⟩ := hchild
          have htail := ih (holds_remember hc hbest)
          rw [hbest] at htail
          rcases htail with ⟨hclash, exc, hexc, hdup⟩ | ⟨hclash, c'', hc''⟩
          · left
            exact ⟨.inr hclash, exc, by rw [hc']; exact hexc, hdup⟩
          · right
            exact ⟨fun h => h.elim hmeet hclash, c'', by rw [hc']; exact hc''⟩

/-! ## Loading a query -/

/-- Loading the query raises the exception for a second text. -/
def RaisesDuplicate (m : Act (World σ) Exc GsqlQ) (w : World σ) : Prop :=
  ∃ exc, (m.runOn w).1 = .error exc ∧ IsDuplicate exc

/-- Two of the texts are for the same rdbms, which is the generic one or the target. -/
def DuplicateRdbms (target : Rdbms) (ks : List (Option Rdbms)) : Prop :=
  ∃ r, (r = .sql ∨ r = target) ∧ 2 ≤ ks.count (some r)

theorem loadQ_raises_iff (ht : target ≠ .sql) (attrs : Attrs) (children : List QChild) (ndx : Nat)
    (ctx : List Str) (db : Handle) (w : World σ) :
    RaisesDuplicate (loadQ cli attrs (children.map QChild.dom) ndx ctx db target) w ↔
      Clashes target none (children.map QChild.rdbms) := by
  let q : GsqlQ :=
    { id := attrValue attrs "id" ("q_" ++ Text.decimal ndx)
      par := .new .par false
      res := .new .res false
      sqlSet := { dbType := target } }
  let r := q.setAllowed (attrValue attrs "allowed" "")
  have hload : loadQ cli attrs (children.map QChild.dom) ndx ctx db target =
      (do
        let c ← fromResult (collect (ctx ++ [r.id]) target
          { q := r, sqlSet := { dbType := target } } (children.map QChild.dom))
        if ! c.sqlSet.empty then loadQSqlsetFromDb cli (c.q.setSqlSet c.sqlSet) db
        else pure c.q) := rfl
  have hspec := collect_spec ht children (ctx ++ [r.id])
    (c := { q := r, sqlSet := { dbType := target } }) (.inl rfl)
  unfold RaisesDuplicate
  rw [hload, runOn_bind, runOn_fromResult]
  rcases hspec with ⟨hclash, exc, hexc, hdup⟩ | ⟨hclash, c, hc⟩
  · rw [hexc]
    exact iff_of_true ⟨exc, rfl, hdup⟩ hclash
  · rw [hc]
    refine iff_of_false ?_ hclash
    rintro ⟨exc, hexc, msg, rfl⟩
    have hraises : Raises FromDatabase
        (if ! c.sqlSet.empty then loadQSqlsetFromDb cli (c.q.setSqlSet c.sqlSet) db
          else pure c.q : Act (World σ) Exc GsqlQ) :=
      Raises.ite (raises_loadQSqlsetFromDb _ db) (raises_pure _)
    exact (hraises w _ _ (Prod.ext hexc rfl)).noStatus _ msg rfl

theorem duplicateRdbms_iff (ks : List (Option Rdbms)) :
    DuplicateRdbms target ks ↔ 2 ≤ ks.count (some .sql) ∨ 2 ≤ ks.count (some target) := by
  constructor
  · rintro ⟨r, rfl | rfl, h⟩
    · exact .inl h
    · exact .inr h
  · rintro (h | h)
    · exact ⟨.sql, .inl rfl, h⟩
    · exact ⟨target, .inr rfl, h⟩

/-- Loading raises the exception for a second text exactly where two texts are for the same
rdbms, unless one text for the target stands between generic texts. -/
theorem raisesDuplicate_iff_duplicateRdbms_iff (cli : Cli σ) (target : Rdbms)
    (ht : target ≠ .sql) (attrs : Attrs) (children : List QChild) (ndx : Nat) (ctx : List Str)
    (db : Handle) (w : World σ) :
    (RaisesDuplicate (loadQ cli attrs (children.map QChild.dom) ndx ctx db target) w ↔
        DuplicateRdbms target (children.map QChild.rdbms)) ↔
      ¬ ((children.map QChild.rdbms).count (some target) = 1 ∧
        2 ≤ (children.map QChild.rdbms).count (some .sql) ∧
        (beforeTarget target (children.map QChild.rdbms)).count (some .sql) < 2) := by
  let ks := children.map QChild.rdbms
  have hsub : (beforeTarget target ks).count (some .sql) ≤ ks.count (some .sql) :=
    (List.takeWhile_prefix _).sublist.count_le _
  have hall : ks.count (some target) = 0 → beforeTarget target ks = ks :=
    fun h => beforeTarget_eq_self (List.count_eq_zero.mp h)
  rw [loadQ_raises_iff ht, clashes_none ht, duplicateRdbms_iff]
  change (2 ≤ (beforeTarget target ks).count (some .sql) ∨ 2 ≤ ks.count (some target) ↔
    2 ≤ ks.count (some .sql) ∨ 2 ≤ ks.count (some target)) ↔
      ¬ (ks.count (some target) = 1 ∧ 2 ≤ ks.count (some .sql) ∧
        (beforeTarget target ks).count (some .sql) < 2)
  constructor
  · rintro h ⟨hone, hgen, hbefore⟩
    have := h.mpr (.inl hgen)
    omega
  · intro h
    by_cases hzero : ks.count (some target) = 0
    · rw [hall hzero]
    · omega

/-- A `<sql>` element with a text that is not too long. -/
def sqlChild (attrs : Attrs) (text : Str) (h : text.length < maxSize) : QChild :=
  .sql
    { attrs
      children := [.text (.ok text)]
      text := (text, [])
      reads := by
        intro ctx
        rw [getTextNodeWithPrepare, checkedData_ok h]
        rfl }

/-- Two generic texts are found. -/
theorem raisesDuplicate_of_generic :
    RaisesDuplicate (loadQ Cli.silent [] ([sqlChild [] "select 1" (by decide),
      sqlChild [] "select 2" (by decide)].map QChild.dom) 1 ["set".toList] 1 .db2)
      (World.start ()) := by
  have hiff := raisesDuplicate_iff_duplicateRdbms_iff Cli.silent .db2 (by decide) []
    [sqlChild [] "select 1" (by decide), sqlChild [] "select 2" (by decide)]
    1 ["set".toList] 1 (World.start ())
  exact (hiff.mpr (by decide)).mpr ⟨.sql, .inl rfl, by decide⟩

/-- A generic text, a text for the target and another generic text. -/
def betweenGeneric : List QChild :=
  [sqlChild [] "select 1" (by decide),
   sqlChild [("rdbms".toList, "db2".toList)] "select 2" (by decide),
   sqlChild [] "select 3" (by decide)]

/-- A text for the target between two generic ones hides the second. -/
theorem not_raisesDuplicate_of_between :
    DuplicateRdbms .db2 (betweenGeneric.map QChild.rdbms) ∧
      ¬ RaisesDuplicate (loadQ Cli.silent [] (betweenGeneric.map QChild.dom) 1 ["set".toList] 1
        .db2) (World.start ()) := by
  constructor
  · exact ⟨.sql, .inl rfl, by decide⟩
  · rw [loadQ_raises_iff (by decide), clashes_none (by decide)]
    decide

end Dbgen3.Generator
