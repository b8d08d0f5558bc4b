import Dbgen3.Generator.Accessors
import Dbgen3.Generator.CoreParser
import Dbgen3.Runtime.Bindings

/-!
# From a column of the database to its accessor

The database describes its columns by ordinals from one, the fields carry member
names from zero, and a buffer binds the entries of its attribute vector by
ordinals again. The three counters agree for every number of columns.
-/

namespace Dbgen3.Generator

open Act Text
open Dbgen3.Runtime (BufId BufType Cli CliCall Event Handle StmtId World attrType runOn_cliCall
  runOn_getHeap sqlSuccess)

variable {σ : Type} (cli : Cli σ)

/-! ## Describing the columns -/

/-- The call that describes the parameter or column with an ordinal. -/
def describeCall (bt : BufType) (h : Handle) (ordinal : Int) : CliCall :=
  match bt with
  | .par => .describeParam h ordinal
  | .res => .describeCol h ordinal

/-- The call that asks for the number of parameters or columns. -/
def countCall (bt : BufType) (h : Handle) : CliCall :=
  match bt with
  | .par => .numParams h
  | .res => .numResultCols h

/-- A field that the database described in one call, for the ordinal after its position. -/
structure DescribedBy (names : List Str) (bt : BufType) (h : Handle) (pos : Nat) (el : FldDscr)
    (e : Event σ) : Prop where
  call : e.call = describeCall bt h ((pos : Int) + 1)
  field : describedField (names.getD pos []) bt pos (cli.call e.drv e.call).1.dscr = .ok el

theorem aName_of_describedField {defName : Str} {bt : BufType} {ndx : Nat}
    {d : Runtime.ColumnDscr} {el : FldDscr} (hndx : ndx < 2 ^ 32)
    (h : describedField defName bt ndx d = .ok el) : el.aName = memberName ndx := by
  unfold describedField at h
  split at h
  · cases h
  · split at h
    · cases h
    · obtain rfl := Except.ok.inj h
      exact FldDscr.new_aName hndx _ _ _ _ _

theorem runOn_throwStmtError {α : Type} (h : Handle) (w : World σ) :
    ∃ e, runOn (throwStmtError cli h : Act (World σ) Exc α) w = (.error e, w) := by
  unfold throwStmtError
  rw [runOn_bind_ok (runOn_get w)]
  cases Runtime.load cli w.drv .stmt h with
  | error e => exact ⟨e, rfl⟩
  | ok errors => exact ⟨_, rfl⟩

theorem throwStmtError_ne_ok {α : Type} (h : Handle) (w : World σ) (a : α) :
    (runOn (throwStmtError cli h) w).1 ≠ .ok a := by
  obtain ⟨e, he⟩ := @runOn_throwStmtError σ cli α h w
  rw [he]
  exact nofun

theorem loadFldDscr_eq (defName : Str) (bt : BufType) (h : Handle) {ndx : Nat}
    (hndx : ndx + 1 < 2 ^ 16) (w : World σ) :
    let c := describeCall bt h ((ndx : Int) + 1)
    runOn (loadFldDscr cli defName bt h ndx) w =
      runOn (if (cli.call w.drv c).1.rc = sqlSuccess then
          fromResult (describedField defName bt ndx (cli.call w.drv c).1.dscr)
        else throwStmtError cli h) (w.issue cli c) := by
  have hordinal : (((ndx + 1) % 2 ^ 16 : Nat) : Int) = (ndx : Int) + 1 := by
    rw [Nat.mod_eq_of_lt hndx]
    rfl
  unfold loadFldDscr
  rw [hordinal]
  exact runOn_bind_ok (runOn_cliCall cli w (describeCall bt h ((ndx : Int) + 1))) _

/-- A field that was loaded came from one call. -/
theorem loadFldDscr_ok {names : List Str} {bt : BufType} {h : Handle} {ndx : Nat}
    {w w' : World σ} {el : FldDscr} (hndx : ndx + 1 < 2 ^ 16)
    (hrun : runOn (loadFldDscr cli (names.getD ndx []) bt h ndx) w = (.ok el, w')) :
    ∃ e, w'.trace = w.trace ++ [e] ∧ DescribedBy cli names bt h ndx el e := by
  rw [loadFldDscr_eq cli _ _ _ hndx] at hrun
  split at hrun
  · rw [runOn_fromResult] at hrun
    obtain ⟨hfield, rfl⟩ := Prod.mk.inj hrun
    exact ⟨_, Runtime.issue_trace cli w _, rfl, hfield⟩
  · exact absurd (congrArg Prod.fst hrun) (throwStmtError_ne_ok cli h _ el)

/-- The fields are described in order, one call for each. -/
theorem fetchFields_ok {names : List Str} {bt : BufType} {h : Handle} {n pos : Nat}
    {w w' : World σ} {flds : List FldDscr} (hpos : pos + n < 2 ^ 16)
    (hrun : runOn (fetchFields cli names bt h n pos) w = (.ok flds, w')) :
    flds.length = n ∧ ∃ events, w'.trace = w.trace ++ events ∧
      ∀ k el, flds[k]? = some el →
        ∃ e, events[k]? = some e ∧ DescribedBy cli names bt h (pos + k) el e := by
  induction n generalizing pos w flds with
  | zero =>
      obtain ⟨hflds, rfl⟩ := Prod.mk.inj hrun
      obtain rfl := Except.ok.inj hflds
      exact ⟨rfl, [], by simp, by simp⟩
  | succ n ih =>
      obtain ⟨fld, u, hfld, hrest⟩ := runOn_bind_eq_ok hrun
      obtain ⟨rest, v, hmore, hpure⟩ := runOn_bind_eq_ok hrest
      obtain ⟨hflds, rfl⟩ := Prod.mk.inj hpure
      obtain rfl := Except.ok.inj hflds
      obtain ⟨e, hu, he⟩ := loadFldDscr_ok cli (by omega) hfld
      obtain ⟨hlength, events, hv, hall⟩ := ih (by omega) hmore
      refine ⟨by simp [hlength], e :: events, by simp [hv, hu], ?_⟩
      intro k el hk
      cases k with
      | zero =>
          obtain rfl := Option.some.inj hk
          exact ⟨e, rfl, he⟩
      | succ k =>
          obtain ⟨e', he', hdescr⟩ := hall k el hk
          refine ⟨e', he', ?_⟩
          rw [show pos + (k + 1) = pos + 1 + k by omega]
          exact hdescr

theorem names_of_described {names : List Str} {bt : BufType} {h : Handle} {flds : List FldDscr}
    {events : List (Event σ)} (hlength : flds.length < 2 ^ 32)
    (hall : ∀ k el, flds[k]? = some el →
      ∃ e, events[k]? = some e ∧ DescribedBy cli names bt h k el e) :
    flds.map FldDscr.aName = (List.range flds.length).map memberName := by
  apply List.ext_getElem
  · simp
  · intro k hk hk'
    have hlt : k < flds.length := by simpa using hk
    obtain ⟨e, -, hdescr⟩ := hall k flds[k] (List.getElem?_eq_getElem hlt)
    rw [List.getElem_map, List.getElem_map, List.getElem_range]
    exact aName_of_describedField (by omega) hdescr.field

theorem fetchParamDscr_eq (names : List Str) (bt : BufType) (stmt : StmtId) (w : World σ) :
    let h := (w.heap.stmts stmt).handle
    let reply := (cli.call w.drv (countCall bt h)).1
    runOn (fetchParamDscr cli names bt stmt) w =
      runOn (if reply.rc = sqlSuccess then fetchFields cli names bt h (int16 reply.count).toNat 0
        else throwStmtError cli h) (w.issue cli (countCall bt h)) := by
  intro h reply
  unfold fetchParamDscr
  rw [runOn_bind_ok (runOn_getHeap w)]
  exact runOn_bind_ok (runOn_cliCall cli w (countCall bt h)) _

/-- A description that succeeds: the `k`-th field is what the database said of parameter or
column `k + 1`. The first call asks for their number, which has 16 bits. -/
theorem fetchParamDscr_ok {names : List Str} {bt : BufType} {stmt : StmtId} {w w' : World σ}
    {flds : List FldDscr} (hrun : runOn (fetchParamDscr cli names bt stmt) w = (.ok flds, w')) :
    flds.length < 2 ^ 15 ∧ ∃ e events, w'.trace = w.trace ++ e :: events ∧
      ∀ k el, flds[k]? = some el → ∃ e, events[k]? = some e ∧
        DescribedBy cli names bt (w.heap.stmts stmt).handle k el e := by
  let c := countCall bt (w.heap.stmts stmt).handle
  have hcount : int16 (cli.call w.drv c).1.count < 2 ^ 15 := int16_lt _
  have heq := fetchParamDscr_eq cli names bt stmt w
  rw [hrun] at heq
  change _ = runOn (if (cli.call w.drv c).1.rc = sqlSuccess then
    fetchFields cli names bt _ (int16 (cli.call w.drv c).1.count).toNat 0 else _) _ at heq
  split at heq
  · obtain ⟨hlength, events, htrace, hall⟩ := fetchFields_ok cli (by omega) heq.symm
    simp only [Nat.zero_add] at hall
    refine ⟨by omega, ⟨c, (cli.call w.drv c).1.rc, w.drv, w.heap⟩, events, ?_, hall⟩
    rw [htrace, Runtime.issue_trace, List.append_assoc]
    rfl
  · exact absurd (congrArg Prod.fst heq.symm) (throwStmtError_ne_ok cli _ _ flds)

/-! ## Binding the attributes -/

/-- The bind calls go through the attribute vector in order. -/
theorem bindFrom_calls {m : Nat} (b : BufId) (bt : BufType) (h : Handle)
    (els : List (Runtime.AttrRoot m)) (pos : Nat) (w : World σ) :
    ∃ rc w', ∃ events : List (Event σ),
      runOn (Runtime.bindFrom cli b bt h pos els) w = (.ok rc, w') ∧
      w'.trace = w.trace ++ events ∧ (rc = sqlSuccess → events.length = els.length) ∧
      ∀ (k : Nat) (e : Event σ), events[k]? = some e →
        e.call.binding = some ⟨h, bt, int16 ((pos + k : Nat) + 1), ⟨b, pos + k⟩⟩ := by
  induction els generalizing pos w with
  | nil => exact ⟨sqlSuccess, w, [], rfl, by simp, fun _ => rfl, by simp⟩
  | cons el rest ih =>
      let c := el.bindCall bt h ((pos : Int) + 1) ⟨b, pos⟩
      have hfirst : c.binding = some ⟨h, bt, int16 ((pos : Int) + 1), ⟨b, pos⟩⟩ :=
        Runtime.bindCall_binding el bt h _ _
      have htrace := Runtime.issue_trace cli w c
      rw [Runtime.runOn_bindFrom_cons]
      split
      · next hrc =>
          obtain ⟨rc, w', events, hrun, hw', hlength, hall⟩ := ih (pos + 1) (w.issue cli c)
          refine ⟨rc, w', _ :: events, hrun, by rw [hw', htrace, List.append_assoc]; rfl, ?_, ?_⟩
          · intro hok
            rw [List.length_cons, List.length_cons, hlength hok]
          · intro k e hk
            cases k with
            | zero =>
                obtain rfl := Option.some.inj hk
                exact hfirst
            | succ k =>
                rw [show pos + (k + 1) = pos + 1 + k by omega]
                exact hall k e hk
      · next hrc =>
          refine ⟨_, w.issue cli c, [_], rfl, htrace, fun hok => absurd hok hrc, ?_⟩
          intro k e hk
          cases k with
          | zero =>
              obtain rfl := Option.some.inj hk
              exact hfirst
          | succ k => simp at hk

/-- Binding a buffer issues its calls and sets at most its flag. -/
theorem rebind_calls (b : BufId) (h : Handle) (w : World σ) :
    ∃ rc w', ∃ events : List (Event σ), runOn (Runtime.rebind cli b h) w = (.ok rc, w') ∧
      w'.trace = w.trace ++ events ∧
      (rc = sqlSuccess → events.length = (w.heap.bufs b).attributes.length) ∧
      ∀ (k : Nat) (e : Event σ), events[k]? = some e →
        e.call.binding = some ⟨h, (w.heap.bufs b).bt, int16 ((k : Int) + 1), ⟨b, k⟩⟩ := by
  obtain ⟨rc, u, events, hrun, htrace, hlength, hall⟩ :=
    bindFrom_calls cli b (w.heap.bufs b).bt h (w.heap.bufs b).attributes 0 w
  simp only [Nat.zero_add] at hall
  unfold Runtime.rebind
  rw [runOn_bind_ok (runOn_getHeap w), runOn_bind_ok hrun]
  split
  · exact ⟨rc, u, events, rfl, htrace, hlength, hall⟩
  · exact ⟨rc, _, events, rfl, htrace, hlength, hall⟩

/-! ## The storage of an accessor -/

/-- What the generated text of a buffer class says about its members. -/
structure ClassText (flds : List FldDscr) (maxNameLen maxCtypeLen maxWidth offs : Nat) : Prop where
  /-- One declaration for each field, with the alias and the database type of its position. -/
  declares : ∃ lines : List Str, defineAttributes flds offs = .ok lines.flatten ∧
    lines.map declared = members flds
  /-- The alias of a position stands for the type of its field. -/
  aliases : ∃ lines : List Str, defineAttrTypes flds offs = .ok lines.flatten ∧
    lines.map aliased = flds.mapIdx fun k el => (typeAlias k, storedType k el ++ "\n")
  distinct : ((members flds).map Member.name).Nodup
  /-- The accessor of a field refers to the member of its position. -/
  accesses : ∀ (a : Accessor) (indexed : Bool), ∃ lines : List Str,
    a.text indexed flds maxNameLen maxCtypeLen offs = .ok (framed (a.title indexed) offs lines) ∧
      lines.map headOf = flds.map (fun el =>
        s (a.signature indexed maxNameLen maxCtypeLen el) offs) ∧
      lines.map accessed = (members flds).map Member.name
  /-- The items of `A_` are the members in order. -/
  array : flds ≠ [] → ∃ rows, Lists (fun el => '&' :: el.aName) (offs + 2) flds rows ∧
    defineAttrArray flds maxWidth offs =
      sl "attr_vec_t A_" offs ++ sl "\x7b" offs ++ rows ++ sl "\x7d;" offs
  names : flds.map FldDscr.aName = (members flds).map Member.name
  /-- The items of `N_` are the names of the fields in order. -/
  nameArray : flds ≠ [] → ∃ rows,
    Lists (fun el => '"' :: (el.name ++ ['"'])) (offs + 2) flds rows ∧
    defineAttrNameArray flds maxWidth offs =
      sl ("constexpr static const std::array<const cstr_t, " ++ decimal flds.length ++ "> N_")
        offs ++ sl "\x7b\x7b" offs ++ rows ++ sl "\x7d\x7d;" offs

theorem Numbered.exists_memberName {flds : List FldDscr} (h : Numbered flds) {el : FldDscr}
    (hel : el ∈ flds) : ∃ k, el.aName = memberName k := by
  have hmem : el.aName ∈ (List.range flds.length).map memberName := by
    rw [← h.names]
    exact List.mem_map_of_mem hel
  obtain ⟨k, -, hk⟩ := List.mem_map.mp hmem
  exact ⟨k, hk.symm⟩

theorem Numbered.ctName_ne_none {flds : List FldDscr} (h : Numbered flds) {el : FldDscr}
    (hel : el ∈ flds) : Runtime.ctName el.type.code ≠ none :=
  Runtime.ctName_ne_none (h.stored el hel)

theorem Numbered.classText {flds : List FldDscr} (h : Numbered flds)
    (maxNameLen maxCtypeLen maxWidth offs : Nat) :
    ClassText flds maxNameLen maxCtypeLen maxWidth offs where
  declares := defineAttributes_eq h.stored offs
  aliases := defineAttrTypes_eq h.stored offs
  distinct := members_nodup flds
  accesses a indexed := by
    refine ⟨_, a.text_eq indexed (fun _ => h.ctName_ne_none) maxNameLen maxCtypeLen offs, ?_, ?_⟩
    · rw [List.map_map]
      apply List.map_congr_left
      intro el hel
      obtain ⟨k, hk⟩ := h.exists_memberName hel
      exact (a.line_spec indexed maxNameLen maxCtypeLen offs k hk).1
    · rw [members_names, ← h.names, List.map_map]
      apply List.map_congr_left
      intro el hel
      obtain ⟨k, hk⟩ := h.exists_memberName hel
      exact (a.line_spec indexed maxNameLen maxCtypeLen offs k hk).2.trans hk.symm
  array := defineAttrArray_eq flds maxWidth offs
  names := h.names.trans (members_names flds).symm
  nameArray := defineAttrNameArray_eq flds maxWidth offs

/-- The storage of the member that a line refers to: buffer `b` has one attribute for each
item of `A_`. -/
def storage (b : BufId) (flds : List FldDscr) (line : Str) : Runtime.DataAddr :=
  ⟨b, (flds.map FldDscr.aName).idxOf (accessed line)⟩

theorem Numbered.storage_eq {flds : List FldDscr} (h : Numbered flds) (b : BufId) {k : Nat}
    {el : FldDscr} (hk : flds[k]? = some el) (a : Accessor) (indexed : Bool)
    (maxNameLen maxCtypeLen offs : Nat) :
    storage b flds (sl (a.code indexed maxNameLen maxCtypeLen el) offs) = ⟨b, k⟩ := by
  obtain ⟨hlt, hget⟩ := List.getElem?_eq_some_iff.mp hk
  obtain ⟨j, hj⟩ := h.exists_memberName (List.mem_of_getElem? hk)
  have hname : accessed (sl (a.code indexed maxNameLen maxCtypeLen el) offs) = el.aName :=
    (a.line_spec indexed maxNameLen maxCtypeLen offs j hj).2.trans hj.symm
  have hnodup : (flds.map FldDscr.aName).Nodup := by
    rw [h.names, ← members_names]
    exact members_nodup flds
  have hidx := hnodup.idxOf_getElem k (by simpa using hlt)
  rw [List.getElem_map, hget] at hidx
  rw [storage, hname, hidx]

/-- Every accessor of the `k`-th field, which describes parameter or column `k + 1`, works on
the storage that is bound at ordinal `k + 1`. -/
theorem accessor_storage (names : List Str) (bt : BufType) (stmt : StmtId) (w w' : World σ)
    (flds : List FldDscr) (hrun : runOn (fetchParamDscr cli names bt stmt) w = (.ok flds, w'))
    (hstored : ∀ el ∈ flds, attrType el.type.code ≠ .unknown) :
    (∃ e events, w'.trace = w.trace ++ e :: events ∧ ∀ k el, flds[k]? = some el →
      ∃ e, events[k]? = some e ∧
        DescribedBy cli names bt (w.heap.stmts stmt).handle k el e) ∧
    (∀ maxNameLen maxCtypeLen maxWidth offs,
      ClassText flds maxNameLen maxCtypeLen maxWidth offs) ∧
    ∀ (b : BufId) (h : Handle) (u : World σ), (u.heap.bufs b).attributes.length = flds.length →
      ∃ rc u', ∃ events : List (Event σ),
        runOn (Runtime.rebind cli b h) u = (.ok rc, u') ∧ u'.trace = u.trace ++ events ∧
        (rc = sqlSuccess → events.length = flds.length) ∧
        ∀ (k : Nat) (e : Event σ) (el : FldDscr), events[k]? = some e → flds[k]? = some el →
          ∀ (a : Accessor) (indexed : Bool) (maxNameLen maxCtypeLen offs : Nat),
            e.call.binding = some ⟨h, (u.heap.bufs b).bt, (k : Int) + 1,
              storage b flds (sl (a.code indexed maxNameLen maxCtypeLen el) offs)⟩ := by
  obtain ⟨hlength, e, events, htrace, hall⟩ := fetchParamDscr_ok cli hrun
  have hnumbered : Numbered flds := ⟨hstored, names_of_described cli (by omega) hall⟩
  refine ⟨⟨e, events, htrace, hall⟩, hnumbered.classText, ?_⟩
  intro b h u hbuf
  obtain ⟨rc, u', calls, hrebind, hu', hcalls, hbind⟩ := rebind_calls cli b h u
  refine ⟨rc, u', calls, hrebind, hu', fun hok => (hcalls hok).trans hbuf, ?_⟩
  intro k e el he hel a indexed maxNameLen maxCtypeLen offs
  have hk : k < flds.length := (List.getElem?_eq_some_iff.mp hel).1
  rw [hnumbered.storage_eq b hel, hbind k e he, int16_eq_self (by omega) (by omega)]

/-- A driver that describes two columns: an integer and a text of width 20. -/
def twoColumns : Cli Unit where
  call _ c := (match c with
    | .numResultCols _ => { rc := 0, count := 2 }
    | .describeCol _ 1 => { rc := 0, dscr := { name := "ID", type := 4, nullable := 0 } }
    | .describeCol _ _ =>
        { rc := 0, dscr := { name := "NAME", type := 12, width := 20, nullable := 1 } }
    | _ => { rc := 0, handle := 1 }, ())
  diag _ _ _ := []

/-- The fields of those columns. -/
def twoFields : List FldDscr :=
  [.new 1 "id" .integer 0 0 .noNulls, .new 2 "name" .varchar 20 0 .nullable]

theorem accessor_storage_two_columns :
    let w : World Unit := World.start ()
    let w' := (runOn (fetchParamDscr twoColumns [] .res 0) w).2
    (∃ e events, w'.trace = w.trace ++ e :: events ∧ ∀ k el, twoFields[k]? = some el →
      ∃ e, events[k]? = some e ∧
        DescribedBy twoColumns [] .res (w.heap.stmts 0).handle k el e) ∧
    (∀ maxNameLen maxCtypeLen maxWidth offs,
      ClassText twoFields maxNameLen maxCtypeLen maxWidth offs) ∧
    ∀ (b : BufId) (h : Handle) (u : World Unit), (u.heap.bufs b).attributes.length = 2 →
      ∃ rc u', ∃ events : List (Event Unit),
        runOn (Runtime.rebind twoColumns b h) u = (.ok rc, u') ∧ u'.trace = u.trace ++ events ∧
        (rc = sqlSuccess → events.length = 2) ∧
        ∀ (k : Nat) (e : Event Unit) (el : FldDscr), events[k]? = some e →
          twoFields[k]? = some el →
          ∀ (a : Accessor) (indexed : Bool) (maxNameLen maxCtypeLen offs : Nat),
            e.call.binding = some ⟨h, (u.heap.bufs b).bt, (k : Int) + 1,
              storage b twoFields (sl (a.code indexed maxNameLen maxCtypeLen el) offs)⟩ :=
  accessor_storage twoColumns [] .res 0 (World.start ()) _ twoFields
    (Prod.ext (by decide +kernel) rfl) (by decide)

end Dbgen3.Generator
