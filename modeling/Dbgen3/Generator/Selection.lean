import Dbgen3.Generator.Loading

/-!
# The selected SQL text

A query has any number of `<sql>` elements and keeps the description of one of
them: the one for the target, or else the generic one. Which one it is does not
depend on where the elements stand, and elements for other databases are as good
as absent.
-/

namespace Dbgen3.Generator

open Act Text
open Dbgen3.Runtime (Cli World Handle)

/-- The text of the last `prepare` element among the children, or `p` without one. -/
def prepareOf (p : Str) : List Dom → Str
  | [] => p
  | .element _ _ cs :: rest => prepareOf (textOf cs) rest
  | _ :: rest => prepareOf p rest

/-- A `<sql>` element. -/
structure SqlTag where
  attrs : Attrs
  children : List Dom

namespace SqlTag

def dom (t : SqlTag) : Dom := .element "sql" t.attrs t.children

/-- The rdbms the element is for. -/
def rdbms (t : SqlTag) : Option Rdbms := sqlRdbms t.attrs

/-- The description made of the element. -/
def dscr (t : SqlTag) (r : Rdbms) : GsqlSqlDscr :=
  .new r (View.ofStr (textOf t.children)) (View.ofStr (prepareOf [] t.children))

end SqlTag

/-- The `<sql>` elements among the children, in order. -/
def sqlTags : List Dom → List SqlTag
  | [] => []
  | .element name attrs cs :: rest =>
      if name = "sql".toList then ⟨attrs, cs⟩ :: sqlTags rest else sqlTags rest
  | _ :: rest => sqlTags rest

/-- The set that keeps a description, or none. -/
def GsqlSqlSet.keeping (target : Rdbms) : Option GsqlSqlDscr → GsqlSqlSet
  | none => { dbType := target }
  | some d => { dbType := target, empty := false, sqlDscr := d }

/-- The set keeps the description of the element for the target, without one that of the
generic element, and without both it is empty. -/
structure Selected (target : Rdbms) (tags : List SqlTag) (set : GsqlSqlSet) : Prop where
  specific : ∀ t ∈ tags, t.rdbms = some target → set = .keeping target (some (t.dscr target))
  generic : (∀ t ∈ tags, t.rdbms ≠ some target) →
    ∀ t ∈ tags, t.rdbms = some .sql → set = .keeping target (some (t.dscr .sql))
  empty : (∀ t ∈ tags, t.rdbms ≠ some target) → (∀ t ∈ tags, t.rdbms ≠ some .sql) →
    set = .keeping target none

variable {target : Rdbms} {ctx : List Str}

/-! ## One element -/

theorem getTextNodeWithPrepare_prepare {children : List Dom} {r p : Str} {res : Str × Str}
    (h : getTextNodeWithPrepare ctx r p children = .ok res) : res.2 = prepareOf p children := by
  have hdata : ∀ {n : Dom} {rest : List Dom} {data : Except Exc Str} {r p : Str},
      n = .text data ∨ n = .cdataSection data →
      getTextNodeWithPrepare ctx r p (n :: rest) = .ok res →
      ∃ r', getTextNodeWithPrepare ctx r' p rest = .ok res := by
    intro n rest data r p hn h
    rw [getTextNodeWithPrepare_data hn] at h
    obtain ⟨t, -, h⟩ := except_bind_eq_ok h
    exact ⟨r ++ t, h⟩
  induction children generalizing r p with
  | nil =>
      obtain rfl := Except.ok.inj h
      rfl
  | cons n rest ih =>
      cases n with
      | text data =>
          obtain ⟨r', h⟩ := hdata (.inl rfl) h
          exact ih h
      | cdataSection data =>
          obtain ⟨r', h⟩ := hdata (.inr rfl) h
          exact ih h
      | comment => exact ih h
      | element name attrs cs =>
          rw [getTextNodeWithPrepare] at h
          split at h
          · obtain ⟨prep, hprep, h⟩ := except_bind_eq_ok h
            rw [prepareOf, ← (getTextNode_ok hprep).1]
            exact ih h
          · cases h
      | other type => cases h

/-- An element that is not looked at leaves the set as it is. -/
theorem loadSqlSetSql_of_not_relevant {t : SqlTag} (h : ¬ Relevant target t.rdbms) (ndx : Nat)
    (set : GsqlSqlSet) : loadSqlSetSql t.attrs t.children ctx target ndx set = .ok set := by
  unfold loadSqlSetSql
  split
  · rfl
  · next r hr =>
    rw [if_neg]
    rintro (rfl | rfl)
    · exact h (.inl hr)
    · exact h (.inr hr)

/-- An element that is looked at is put into the set and does not meet its own kind there. -/
theorem loadSqlSetSql_relevant {t : SqlTag} {r : Rdbms} (hr : t.rdbms = some r)
    (hrel : Relevant target t.rdbms) {ndx : Nat} {set set' : GsqlSqlSet}
    (h : loadSqlSetSql t.attrs t.children ctx target ndx set = .ok set') :
    (set.put (t.dscr r)).1 ≠ .ambiguous ∧ set' = (set.put (t.dscr r)).2 := by
  have hcond : r = .sql ∨ r = target := by
    rw [hr] at hrel
    exact hrel.imp Option.some.inj Option.some.inj
  have hname : Rdbms.ofName (attrValue t.attrs "rdbms" Rdbms.sql.name) = some r := hr
  unfold loadSqlSetSql at h
  rw [hname] at h
  dsimp only at h
  rw [if_pos hcond] at h
  obtain ⟨res, hres, h⟩ := except_bind_eq_ok h
  have htext : res.1 = textOf t.children := (getTextNodeWithPrepare_ok hres).1
  have hprep : res.2 = prepareOf [] t.children := getTextNodeWithPrepare_prepare hres
  have hdscr : GsqlSqlDscr.new r (View.ofStr res.1) (View.ofStr res.2) = t.dscr r := by
    rw [htext, hprep]
    rfl
  obtain ⟨sql, prep⟩ := res
  dsimp only at h hdscr
  rw [hdscr] at h
  split at h
  · cases h
  · next hput => exact ⟨hput, (Except.ok.inj h).symm⟩

/-- What `put` makes of a set that keeps a description. -/
theorem put_keeping {d val : GsqlSqlDscr}
    (h : ((GsqlSqlSet.keeping target (some d)).put val).1 ≠ .ambiguous) :
    d.dbType ≠ val.dbType ∧
      ((GsqlSqlSet.keeping target (some d)).put val).2 =
        .keeping target (some (if val.dbType.code > d.dbType.code then val else d)) := by
  by_cases heq : d.dbType = val.dbType
  · simp [GsqlSqlSet.put, GsqlSqlSet.keeping, heq] at h
  · refine ⟨heq, ?_⟩
    by_cases hlt : val.dbType.code > d.dbType.code
    · simp [GsqlSqlSet.put, GsqlSqlSet.keeping, heq, hlt]
    · simp [GsqlSqlSet.put, GsqlSqlSet.keeping, heq, hlt]

theorem Selected.exists_keeping {tags : List SqlTag} {set : GsqlSqlSet}
    (h : Selected target tags set) : ∃ best, set = .keeping target best := by
  by_cases hspecific : ∃ t ∈ tags, t.rdbms = some target
  · obtain ⟨t, ht, htt⟩ := hspecific
    exact ⟨_, h.specific t ht htt⟩
  · have hno : ∀ t ∈ tags, t.rdbms ≠ some target := fun t ht htt => hspecific ⟨t, ht, htt⟩
    by_cases hgeneric : ∃ t ∈ tags, t.rdbms = some .sql
    · obtain ⟨t, ht, hts⟩ := hgeneric
      exact ⟨_, h.generic hno t ht hts⟩
    · exact ⟨_, h.empty hno fun t ht hts => hgeneric ⟨t, ht, hts⟩⟩

/-- The set depends on the elements that are looked at, and not on their order. -/
theorem Selected.unique {tags tags' : List SqlTag} {set set' : GsqlSqlSet}
    (h : Selected target tags set) (h' : Selected target tags' set')
    (hmem : ∀ t : SqlTag, Relevant target t.rdbms → (t ∈ tags ↔ t ∈ tags')) : set = set' := by
  by_cases hspecific : ∃ t ∈ tags, t.rdbms = some target
  · obtain ⟨t, ht, htt⟩ := hspecific
    rw [h.specific t ht htt, h'.specific t ((hmem t (.inr htt)).mp ht) htt]
  · have hno : ∀ t ∈ tags, t.rdbms ≠ some target := fun t ht htt => hspecific ⟨t, ht, htt⟩
    have hno' : ∀ t ∈ tags', t.rdbms ≠ some target := fun t ht htt =>
      hno t ((hmem t (.inr htt)).mpr ht) htt
    by_cases hgeneric : ∃ t ∈ tags, t.rdbms = some .sql
    · obtain ⟨t, ht, hts⟩ := hgeneric
      rw [h.generic hno t ht hts, h'.generic hno' t ((hmem t (.inl hts)).mp ht) hts]
    · have hnosql : ∀ t ∈ tags, t.rdbms ≠ some .sql := fun t ht hts => hgeneric ⟨t, ht, hts⟩
      have hnosql' : ∀ t ∈ tags', t.rdbms ≠ some .sql := fun t ht hts =>
        hnosql t ((hmem t (.inl hts)).mpr ht) hts
      rw [h.empty hno hnosql, h'.empty hno' hnosql']

theorem selected_nil : Selected target [] (.keeping target none) :=
  ⟨nofun, fun _ => nofun, fun _ _ => rfl⟩

theorem put_keeping_none (val : GsqlSqlDscr) :
    ((GsqlSqlSet.keeping target none).put val).2 = .keeping target (some val) := rfl

theorem forall_mem_concat {tags : List SqlTag} {t : SqlTag} {P : SqlTag → Prop} :
    (∀ k ∈ tags ++ [t], P k) ↔ (∀ k ∈ tags, P k) ∧ P t := by
  rw [List.forall_mem_append, List.forall_mem_singleton]

/-- An element that is not looked at does not change what is selected. -/
theorem Selected.skip {tags : List SqlTag} {set : GsqlSqlSet} {t : SqlTag}
    (hs : Selected target tags set) (h : ¬ Relevant target t.rdbms) :
    Selected target (tags ++ [t]) set := by
  have htarget : t.rdbms ≠ some target := fun ht => h (.inr ht)
  have hsql : t.rdbms ≠ some .sql := fun ht => h (.inl ht)
  constructor
  · exact forall_mem_concat.mpr ⟨hs.specific, fun ht => absurd ht htarget⟩
  · intro hno
    have hno' := (forall_mem_concat.mp hno).1
    exact forall_mem_concat.mpr ⟨hs.generic hno', fun ht => absurd ht hsql⟩
  · intro hno hnosql
    exact hs.empty (forall_mem_concat.mp hno).1 (forall_mem_concat.mp hnosql).1

/-- A generic element behind one for the target changes nothing. -/
theorem Selected.after_specific {tags : List SqlTag} {set : GsqlSqlSet} {t k : SqlTag}
    (ht : target ≠ .sql) (hs : Selected target tags set) (hk : k ∈ tags)
    (hkt : k.rdbms = some target) (htt : t.rdbms = some .sql) :
    Selected target (tags ++ [t]) set := by
  have hne : t.rdbms ≠ some target := by
    rw [htt]
    exact sql_ne_target ht
  have hmem : k ∈ tags ++ [t] := List.mem_append_left [t] hk
  constructor
  · exact forall_mem_concat.mpr ⟨hs.specific, fun h => absurd h hne⟩
  · intro hno
    exact absurd hkt (hno k hmem)
  · intro hno
    exact absurd hkt (hno k hmem)

/-- The first element for the target is selected. -/
theorem selected_specific {tags : List SqlTag} {t : SqlTag}
    (hno : ∀ k ∈ tags, k.rdbms ≠ some target) (htt : t.rdbms = some target) :
    Selected target (tags ++ [t]) (.keeping target (some (t.dscr target))) := by
  have hmem : t ∈ tags ++ [t] := List.mem_append_right tags (List.mem_singleton_self t)
  constructor
  · exact forall_mem_concat.mpr ⟨fun k hk hkt => absurd hkt (hno k hk), fun _ => rfl⟩
  · intro hno'
    exact absurd htt (hno' t hmem)
  · intro hno'
    exact absurd htt (hno' t hmem)

/-- The first generic element is selected as long as there is none for the target. -/
theorem selected_generic {tags : List SqlTag} {t : SqlTag} (ht : target ≠ .sql)
    (hno : ∀ k ∈ tags, k.rdbms ≠ some target) (hnosql : ∀ k ∈ tags, k.rdbms ≠ some .sql)
    (htt : t.rdbms = some .sql) :
    Selected target (tags ++ [t]) (.keeping target (some (t.dscr .sql))) := by
  have hne : t.rdbms ≠ some target := by
    rw [htt]
    exact sql_ne_target ht
  constructor
  · exact forall_mem_concat.mpr
      ⟨fun k hk hkt => absurd hkt (hno k hk), fun h => absurd h hne⟩
  · intro _
    exact forall_mem_concat.mpr ⟨fun k hk hkt => absurd hkt (hnosql k hk), fun _ => rfl⟩
  · intro _ hno'
    exact absurd htt (hno' t (List.mem_append_right tags (List.mem_singleton_self t)))

/-- One element more: the selection goes on. -/
theorem Selected.step (ht : target ≠ .sql) {tags : List SqlTag} {set set' : GsqlSqlSet}
    {t : SqlTag} {ndx : Nat} (hs : Selected target tags set)
    (h : loadSqlSetSql t.attrs t.children ctx target ndx set = .ok set') :
    Selected target (tags ++ [t]) set' := by
  by_cases hrel : Relevant target t.rdbms
  · by_cases hspecific : ∃ k ∈ tags, k.rdbms = some target
    · -- the element for the target stays: a second one does not load
      obtain ⟨k, hk, hkt⟩ := hspecific
      have hset := hs.specific k hk hkt
      have hsql : t.rdbms = some .sql := by
        apply hrel.resolve_right
        intro htt
        obtain ⟨hput, -⟩ := loadSqlSetSql_relevant htt hrel h
        rw [hset] at hput
        exact (put_keeping hput).1 rfl
      obtain ⟨hput, rfl⟩ := loadSqlSetSql_relevant hsql hrel h
      rw [hset] at hput ⊢
      have hlt : ¬ (t.dscr .sql).dbType.code > (k.dscr target).dbType.code := Nat.not_lt_zero _
      rw [(put_keeping hput).2, if_neg hlt, ← hset]
      exact hs.after_specific ht hk hkt hsql
    · have hno : ∀ k ∈ tags, k.rdbms ≠ some target := fun k hk hkt => hspecific ⟨k, hk, hkt⟩
      by_cases hgeneric : ∃ k ∈ tags, k.rdbms = some .sql
      · -- the generic element is replaced: a second one does not load
        obtain ⟨k, hk, hks⟩ := hgeneric
        have hset := hs.generic hno k hk hks
        have htt : t.rdbms = some target := by
          apply hrel.resolve_left
          intro hsql
          obtain ⟨hput, -⟩ := loadSqlSetSql_relevant hsql hrel h
          rw [hset] at hput
          exact (put_keeping hput).1 rfl
        obtain ⟨hput, rfl⟩ := loadSqlSetSql_relevant htt hrel h
        rw [hset] at hput ⊢
        have hlt : (t.dscr target).dbType.code > (k.dscr .sql).dbType.code := Rdbms.sql_lt_code ht
        rw [(put_keeping hput).2, if_pos hlt]
        exact selected_specific hno htt
      · have hnosql : ∀ k ∈ tags, k.rdbms ≠ some .sql := fun k hk hks => hgeneric ⟨k, hk, hks⟩
        have hset := hs.empty hno hnosql
        rcases hrel with hsql | htt
        · obtain ⟨-, rfl⟩ := loadSqlSetSql_relevant hsql (.inl hsql) h
          rw [hset, put_keeping_none]
          exact selected_generic ht hno hnosql hsql
        · obtain ⟨-, rfl⟩ := loadSqlSetSql_relevant htt (.inr htt) h
          rw [hset, put_keeping_none]
          exact selected_specific hno htt
  · rw [loadSqlSetSql_of_not_relevant hrel] at h
    obtain rfl := Except.ok.inj h
    exact hs.skip hrel

/-! ## The loop over the children -/

theorem loadQChild_sql (t : SqlTag) (c : Collected) :
    loadQChild ctx target c t.dom =
      (loadSqlSetSql t.attrs t.children ctx target (c.sqlCnt + 1) c.sqlSet >>= fun sqlSet =>
        pure { c with sqlSet, sqlCnt := c.sqlCnt + 1 }) := by
  rw [SqlTag.dom, loadQChild, if_neg (by decide), if_neg (by decide), if_pos rfl]

/-- A child that is not a `<sql>` element leaves the set alone. -/
theorem loadQChild_sqlSet {n : Dom} {c c' : Collected} (hn : sqlTags [n] = [])
    (h : loadQChild ctx target c n = .ok c') : c'.sqlSet = c.sqlSet := by
  cases n with
  | element name attrs cs =>
      have hname : name ≠ "sql".toList := by
        intro hname
        rw [sqlTags, if_pos hname] at hn
        cases hn
      rw [loadQChild, if_neg hname] at h
      split at h
      · obtain rfl := Except.ok.inj h
        rfl
      · split at h
        · obtain rfl := Except.ok.inj h
          rfl
        · cases h
  | text data =>
      obtain rfl := Except.ok.inj h
      rfl
  | comment =>
      obtain rfl := Except.ok.inj h
      rfl
  | cdataSection data => cases h
  | other type => cases h

theorem sqlTags_cons (n : Dom) (rest : List Dom) :
    (∃ t : SqlTag, n = t.dom ∧ sqlTags (n :: rest) = t :: sqlTags rest) ∨
      sqlTags [n] = [] ∧ sqlTags (n :: rest) = sqlTags rest := by
  cases n with
  | element name attrs cs =>
      by_cases hname : name = "sql".toList
      · subst hname
        exact .inl ⟨⟨attrs, cs⟩, rfl, if_pos rfl⟩
      · exact .inr ⟨if_neg hname, if_neg hname⟩
  | text data => exact .inr ⟨rfl, rfl⟩
  | cdataSection data => exact .inr ⟨rfl, rfl⟩
  | comment => exact .inr ⟨rfl, rfl⟩
  | other type => exact .inr ⟨rfl, rfl⟩

theorem collect_selected (ht : target ≠ .sql) {children : List Dom} {c c' : Collected}
    {tags : List SqlTag} (hs : Selected target tags c.sqlSet)
    (h : collect ctx target c children = .ok c') :
    Selected target (tags ++ sqlTags children) c'.sqlSet := by
  induction children generalizing c tags with
  | nil =>
      obtain rfl := Except.ok.inj h
      rw [sqlTags, List.append_nil]
      exact hs
  | cons n rest ih =>
      obtain ⟨c₁, hn, h⟩ := except_bind_eq_ok h
      rcases sqlTags_cons n rest with ⟨t, rfl, htags⟩ | ⟨hnone, htags⟩
      · rw [loadQChild_sql] at hn
        obtain ⟨set, hset, hn⟩ := except_bind_eq_ok hn
        obtain rfl := Except.ok.inj hn
        rw [htags, ← List.singleton_append, ← List.append_assoc]
        exact ih (hs.step ht hset) h
      · rw [htags]
        exact ih ((loadQChild_sqlSet hnone hn).symm ▸ hs) h

/-! ## Elements for other databases -/

/-- Two loops collected the same query and the same set; the number of elements may differ. -/
structure Collected.Agrees (c d : Collected) : Prop where
  q : c.q = d.q
  sqlSet : c.sqlSet = d.sqlSet

/-- The number of an element only stands in the message of an exception. -/
theorem loadSqlSetSql_ndx {attrs : Attrs} {cs : List Dom} {ndx : Nat} {set set' : GsqlSqlSet}
    (h : loadSqlSetSql attrs cs ctx target ndx set = .ok set') (ndx' : Nat) :
    loadSqlSetSql attrs cs ctx target ndx' set = .ok set' := by
  unfold loadSqlSetSql at h ⊢
  split
  · next hr =>
    rw [hr] at h
    exact h
  · next r hr =>
    rw [hr] at h
    dsimp only at h
    split
    · next hrel =>
      rw [if_pos hrel] at h
      obtain ⟨res, hres, h⟩ := except_bind_eq_ok h
      rw [hres]
      dsimp only at h ⊢
      split at h
      · cases h
      · next hput => exact (if_neg hput).trans h
    · next hrel =>
      rw [if_neg hrel] at h
      exact h

theorem loadQChild_agrees {n : Dom} {c c' d : Collected} (hcd : c.Agrees d)
    (h : loadQChild ctx target c n = .ok c') :
    ∃ d', loadQChild ctx target d n = .ok d' ∧ c'.Agrees d' := by
  obtain ⟨hq, hset⟩ := hcd
  cases n with
  | element name attrs cs =>
      rw [loadQChild] at h ⊢
      split at h
      · next hqp =>
        obtain rfl := Except.ok.inj h
        exact ⟨_, if_pos hqp, by rw [hq], hset⟩
      · next hqp =>
        rw [if_neg hqp]
        split at h
        · next hqr =>
          obtain rfl := Except.ok.inj h
          exact ⟨_, if_pos hqr, by rw [hq], hset⟩
        · next hqr =>
          rw [if_neg hqr]
          split at h
          · next hsql =>
            obtain ⟨set, hload, h⟩ := except_bind_eq_ok h
            obtain rfl := Except.ok.inj h
            have hload' := loadSqlSetSql_ndx hload (d.sqlCnt + 1)
            rw [hset] at hload'
            refine ⟨{ d with sqlSet := set, sqlCnt := d.sqlCnt + 1 }, ?_, hq, rfl⟩
            rw [if_pos hsql]
            dsimp only
            rw [hload']
            rfl
          · cases h
  | text data =>
      obtain rfl := Except.ok.inj h
      exact ⟨d, rfl, hq, hset⟩
  | comment =>
      obtain rfl := Except.ok.inj h
      exact ⟨d, rfl, hq, hset⟩
  | cdataSection data => cases h
  | other type => cases h

theorem collect_agrees {children : List Dom} {c c' d : Collected} (hcd : c.Agrees d)
    (h : collect ctx target c children = .ok c') :
    ∃ d', collect ctx target d children = .ok d' ∧ c'.Agrees d' := by
  induction children generalizing c d with
  | nil =>
      obtain rfl := Except.ok.inj h
      exact ⟨d, rfl, hcd⟩
  | cons n rest ih =>
      obtain ⟨c₁, hn, h⟩ := except_bind_eq_ok h
      obtain ⟨d₁, hn', hcd₁⟩ := loadQChild_agrees hcd hn
      obtain ⟨d', h', hcd'⟩ := ih hcd₁ h
      refine ⟨d', ?_, hcd'⟩
      rw [collect, hn']
      exact h'

theorem collect_append {pre post : List Dom} {c : Collected} :
    collect ctx target c (pre ++ post) =
      (collect ctx target c pre >>= fun c' => collect ctx target c' post) := by
  induction pre generalizing c with
  | nil => rfl
  | cons n pre ih =>
      rw [List.cons_append, collect, collect]
      cases loadQChild ctx target c n with
      | error e => rfl
      | ok c₁ => exact ih

/-- An element that is not looked at can be added and left out. -/
theorem collect_foreign {pre post : List Dom} {t : SqlTag} (h : ¬ Relevant target t.rdbms)
    {c : Collected} :
    (∀ c', collect ctx target c (pre ++ t.dom :: post) = .ok c' →
      ∃ d, collect ctx target c (pre ++ post) = .ok d ∧ c'.Agrees d) ∧
    ∀ c', collect ctx target c (pre ++ post) = .ok c' →
      ∃ d, collect ctx target c (pre ++ t.dom :: post) = .ok d ∧ c'.Agrees d := by
  have hstep : ∀ c₁ : Collected, collect ctx target c₁ (t.dom :: post) =
      collect ctx target { c₁ with sqlCnt := c₁.sqlCnt + 1 } post := by
    intro c₁
    rw [collect, loadQChild_sql, loadSqlSetSql_of_not_relevant h]
    rfl
  have hcount : ∀ c₁ : Collected, Collected.Agrees { c₁ with sqlCnt := c₁.sqlCnt + 1 } c₁ :=
    fun c₁ => ⟨rfl, rfl⟩
  have hcount' : ∀ c₁ : Collected, c₁.Agrees { c₁ with sqlCnt := c₁.sqlCnt + 1 } :=
    fun c₁ => ⟨rfl, rfl⟩
  rw [collect_append, collect_append]
  constructor
  · intro c' hc'
    obtain ⟨c₁, hpre, hpost⟩ := except_bind_eq_ok hc'
    rw [hstep] at hpost
    obtain ⟨d, hd, hagrees⟩ := collect_agrees (hcount c₁) hpost
    exact ⟨d, by rw [hpre]; exact hd, hagrees⟩
  · intro c' hc'
    obtain ⟨c₁, hpre, hpost⟩ := except_bind_eq_ok hc'
    obtain ⟨d, hd, hagrees⟩ := collect_agrees (hcount' c₁) hpost
    refine ⟨d, ?_, hagrees⟩
    rw [hpre]
    exact (hstep c₁).trans hd

/-! ## The loaded query -/

section

variable {σ : Type} {cli : Cli σ} {attrs : Attrs} {ndx : Nat} {db : Handle}

/-- Loading goes on with the query and the set that were collected. -/
theorem runOn_loadQ {children : List Dom} {c : Collected} {w : World σ}
    (h : collect (ctx ++ [queryId attrs ndx]) target
      { q := newQuery attrs ndx target, sqlSet := { dbType := target } } children = .ok c) :
    runOn (loadQ cli attrs children ndx ctx db target) w =
      runOn (if ! c.sqlSet.empty then loadQSqlsetFromDb cli (c.q.setSqlSet c.sqlSet) db
        else pure c.q) w := by
  rw [loadQ_eq, runOn_bind, runOn_fromResult, h]

theorem exists_collect_of_loadQ {children : List Dom} {w w' : World σ} {q : GsqlQ}
    (h : runOn (loadQ cli attrs children ndx ctx db target) w = (.ok q, w')) :
    ∃ c, collect (ctx ++ [queryId attrs ndx]) target
      { q := newQuery attrs ndx target, sqlSet := { dbType := target } } children = .ok c := by
  rw [loadQ_eq] at h
  obtain ⟨c, w₁, hc, -⟩ := runOn_bind_eq_ok h
  rw [runOn_fromResult] at hc
  exact ⟨c, (Prod.mk.inj hc).1⟩

/-- The loaded query has the set that was collected. -/
theorem sqlSet_of_loadQ {children : List Dom} {w w' : World σ} {q : GsqlQ} (ht : target ≠ .sql)
    (h : runOn (loadQ cli attrs children ndx ctx db target) w = (.ok q, w')) :
    Selected target (sqlTags children) q.sqlSet := by
  obtain ⟨c, hc⟩ := exists_collect_of_loadQ h
  have hs : Selected target (sqlTags children) c.sqlSet := collect_selected ht selected_nil hc
  have hset : c.q.sqlSet = .keeping target none := (collect_ok hc).sqlSet
  rw [runOn_loadQ hc] at h
  cases he : c.sqlSet.empty with
  | false =>
      rw [he] at h
      obtain ⟨-, hq⟩ := yields_loadQSqlsetFromDb (c.q.setSqlSet c.sqlSet) db _ _ _ h
      rw [hq]
      exact hs
  | true =>
      rw [he] at h
      obtain rfl := Except.ok.inj (Prod.mk.inj h).1
      -- a set that keeps something is not empty
      have hnone : c.sqlSet = .keeping target none := by
        obtain ⟨best, hbest⟩ := hs.exists_keeping
        cases best with
        | none => exact hbest
        | some d =>
            rw [hbest] at he
            cases he
      rw [hset, ← hnone]
      exact hs

/-- Two loops that agree go on in the same way. -/
theorem loadQ_of_agrees {children children' : List Dom} {w w' : World σ} {q : GsqlQ}
    (hcollect : ∀ {c c' : Collected},
      collect (ctx ++ [queryId attrs ndx]) target c children = .ok c' →
      ∃ d, collect (ctx ++ [queryId attrs ndx]) target c children' = .ok d ∧ c'.Agrees d)
    (h : runOn (loadQ cli attrs children ndx ctx db target) w = (.ok q, w')) :
    runOn (loadQ cli attrs children' ndx ctx db target) w = (.ok q, w') := by
  obtain ⟨c, hc⟩ := exists_collect_of_loadQ h
  obtain ⟨d, hd, hq, hset⟩ := hcollect hc
  rw [runOn_loadQ hc, hq, hset] at h
  rw [runOn_loadQ hd]
  exact h

/-- The loaded query keeps the SQL of the element for the target, or else of the generic
element. Elements for other databases can be added and left out anywhere, and every other order
of the elements that loads keeps the same. -/
theorem loadQ_selects {children : List Dom} {w w' : World σ} {q : GsqlQ} (ht : target ≠ .sql)
    (h : runOn (loadQ cli attrs children ndx ctx db target) w = (.ok q, w')) :
    Selected target (sqlTags children) q.sqlSet ∧
    (∀ pre t post, ¬ Relevant target (SqlTag.rdbms t) → children = pre ++ t.dom :: post →
      runOn (loadQ cli attrs (pre ++ post) ndx ctx db target) w = (.ok q, w')) ∧
    (∀ pre t post, ¬ Relevant target (SqlTag.rdbms t) → children = pre ++ post →
      runOn (loadQ cli attrs (pre ++ t.dom :: post) ndx ctx db target) w = (.ok q, w')) ∧
    ∀ children' q' w₁ w₁', (sqlTags children').Perm (sqlTags children) →
      runOn (loadQ cli attrs children' ndx ctx db target) w₁ = (.ok q', w₁') →
      q'.sqlSet = q.sqlSet := by
  refine ⟨sqlSet_of_loadQ ht h, ?_, ?_, ?_⟩
  · rintro pre t post hrel rfl
    exact loadQ_of_agrees (fun hc => (collect_foreign hrel).1 _ hc) h
  · rintro pre t post hrel rfl
    exact loadQ_of_agrees (fun hc => (collect_foreign hrel).2 _ hc) h
  · intro children' q' w₁ w₁' hperm h'
    exact (sqlSet_of_loadQ ht h').unique (sqlSet_of_loadQ ht h) fun t _ => hperm.mem_iff

end

/-- A text for the target in front of one for another database and a generic one. -/
def threeTexts : List SqlTag :=
  [⟨[("rdbms".toList, "db2".toList)], [.text (.ok "select 2")]⟩,
   ⟨[("rdbms".toList, "oracle".toList)], [.text (.ok "select 3")]⟩,
   ⟨[], [.text (.ok "select 1")]⟩]

theorem loadQ_selects_target :
    ∃ q w', runOn (loadQ Cli.silent [] (threeTexts.map SqlTag.dom) 1 ["set".toList] 1 .db2)
        (World.start ()) = (.ok q, w') ∧
      q.sqlSet = .keeping .db2 (some (.new .db2 (View.ofStr "select 2") (View.ofStr []))) := by
  have hok : (runOn (loadQ Cli.silent [] (threeTexts.map SqlTag.dom) 1 ["set".toList] 1 .db2)
      (World.start ())).1.isOk = true := by
    decide +kernel
  rcases hrun : runOn (loadQ Cli.silent [] (threeTexts.map SqlTag.dom) 1 ["set".toList] 1 .db2)
    (World.start ()) with ⟨e | q, w'⟩
  · rw [hrun] at hok
    cases hok
  · have hsel := (loadQ_selects (by decide) hrun).1
    exact ⟨q, w', rfl, hsel.specific _ List.mem_cons_self (by decide)⟩

end Dbgen3.Generator
