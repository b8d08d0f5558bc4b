import Dbgen3.Generator.Accessors
import Dbgen3.Generator.Minimal

/-!
# The arrays of a class

`define_attr_array` and `define_attr_name_array` break their lists into lines.
A line that grows past the width is written with its comma, and the last line
without it. Where the width is passed by the last item the comma stays, which
an initializer allows.
-/

namespace Dbgen3.Generator

open Text

/-! ## Lines of items -/

/-- The lines for rows of items: a comma and a blank between the items of a row and a comma
behind each row; `trailing` stands behind the last one. -/
def rowLines (trailing : Str) : List (List Str) → List Str
  | [] => []
  | [row] => [joinWith ", " row ++ trailing]
  | row :: row' :: rows => (joinWith ", " row ++ ",") :: rowLines trailing (row' :: rows)

/-- The items with a comma between any two, and perhaps a blank behind the comma. -/
inductive CommaSeparated : List Str → Str → Prop
  | item (item : Str) : CommaSeparated [item] item
  | comma {items : List Str} {text : Str} (item : Str) (h : CommaSeparated items text) :
      CommaSeparated (item :: items) (item ++ ',' :: text)
  | commaBlank {items : List Str} {text : Str} (item : Str) (h : CommaSeparated items text) :
      CommaSeparated (item :: items) (item ++ ',' :: ' ' :: text)

theorem commaSeparated_joinWith {row : List Str} (hrow : row ≠ []) :
    CommaSeparated row (joinWith ", " row) := by
  induction row with
  | nil => exact absurd rfl hrow
  | cons item rest ih =>
      cases rest with
      | nil => exact .item item
      | cons item' rest =>
          have htail := ih (List.cons_ne_nil _ _)
          have hjoin : joinWith ", " (item :: item' :: rest) =
              item ++ ',' :: ' ' :: joinWith ", " (item' :: rest) := by
            simp [joinWith]
          rw [hjoin]
          exact .commaBlank item htail

/-- Two lists with a comma between them are one list. -/
theorem CommaSeparated.append {items items' : List Str} {text text' : Str}
    (h : CommaSeparated items text) (h' : CommaSeparated items' text') :
    CommaSeparated (items ++ items') (text ++ ',' :: text') := by
  induction h with
  | item item => exact .comma item h'
  | comma item _ ih =>
      rw [List.append_assoc, List.cons_append]
      exact .comma item ih
  | commaBlank item _ ih =>
      rw [List.append_assoc, List.cons_append, List.cons_append]
      exact .commaBlank item ih

theorem joinWith_append {sep : Str} {row row' : List Str} (hrow : row ≠ []) (hrow' : row' ≠ []) :
    joinWith sep (row ++ row') = joinWith sep row ++ sep ++ joinWith sep row' := by
  induction row with
  | nil => exact absurd rfl hrow
  | cons item rest ih =>
      cases rest with
      | nil =>
          obtain ⟨item', rest', rfl⟩ := List.exists_cons_of_ne_nil hrow'
          rfl
      | cons item₂ rest =>
          have htail := ih (List.cons_ne_nil _ _)
          simp only [List.cons_append, joinWith] at htail ⊢
          rw [htail]
          simp only [List.append_assoc]

/-- The lines list the items in order: every line has a row of whole items. -/
structure Wrapped (items lines : List Str) : Prop where
  rows : ∃ (rows : List (List Str)) (trailing : Str), rows.flatten = items ∧
    (∀ row ∈ rows, row ≠ []) ∧ (trailing = [] ∨ trailing = [',']) ∧ lines = rowLines trailing rows
  /-- With a blank for each end of a line the lines are the list with commas and blanks. -/
  joined : ∃ trailing : Str, (trailing = [] ∨ trailing = [',']) ∧
    joinWith " " lines = joinWith ", " items ++ trailing
  /-- One behind the other the lines are the list with one comma between any two items. -/
  flat : ∃ text trailing : Str, (trailing = [] ∨ trailing = [',']) ∧
    lines.flatten = text ++ trailing ∧ CommaSeparated items text

theorem rowLines_ne_nil {trailing : Str} {row : List Str} {rows : List (List Str)} :
    rowLines trailing (row :: rows) ≠ [] := by
  cases rows with
  | nil => exact List.cons_ne_nil _ _
  | cons row' rows => exact List.cons_ne_nil _ _

theorem joinWith_rowLines (trailing : Str) {rows : List (List Str)} (hne : rows ≠ [])
    (hrows : ∀ row ∈ rows, row ≠ []) :
    joinWith " " (rowLines trailing rows) = joinWith ", " rows.flatten ++ trailing := by
  induction rows with
  | nil => exact absurd rfl hne
  | cons row rows ih =>
      obtain ⟨hrow, hrest⟩ := List.forall_mem_cons.mp hrows
      cases rows with
      | nil => simp [rowLines, joinWith]
      | cons row' rows =>
          have htail := ih (List.cons_ne_nil _ _) hrest
          have hflat : (row' :: rows).flatten ≠ [] := by
            obtain ⟨hrow', -⟩ := List.forall_mem_cons.mp hrest
            rw [List.flatten_cons]
            exact List.append_ne_nil_of_left_ne_nil hrow' _
          calc
            joinWith " " (rowLines trailing (row :: row' :: rows)) =
                joinWith ", " row ++ "," ++ " " ++
                  joinWith " " (rowLines trailing (row' :: rows)) :=
              joinWith_append (List.cons_ne_nil _ []) rowLines_ne_nil
            _ = joinWith ", " row ++ ", " ++ joinWith ", " (row' :: rows).flatten ++ trailing := by
              rw [htail]
              simp
            _ = joinWith ", " (row :: row' :: rows).flatten ++ trailing := by
              rw [List.flatten_cons (l := row), joinWith_append hrow hflat]

theorem flatten_rowLines (trailing : Str) {rows : List (List Str)} (hne : rows ≠ [])
    (hrows : ∀ row ∈ rows, row ≠ []) :
    ∃ text, (rowLines trailing rows).flatten = text ++ trailing ∧
      CommaSeparated rows.flatten text := by
  induction rows with
  | nil => exact absurd rfl hne
  | cons row rows ih =>
      obtain ⟨hrow, hrest⟩ := List.forall_mem_cons.mp hrows
      cases rows with
      | nil =>
          refine ⟨joinWith ", " row, by simp [rowLines], ?_⟩
          rw [List.flatten_singleton]
          exact commaSeparated_joinWith hrow
      | cons row' rows =>
          obtain ⟨text, htext, hlist⟩ := ih (List.cons_ne_nil _ _) hrest
          refine ⟨joinWith ", " row ++ ',' :: text, ?_, ?_⟩
          · rw [rowLines, List.flatten_cons, htext]
            simp
          · rw [List.flatten_cons]
            exact (commaSeparated_joinWith hrow).append hlist

theorem wrapped_rowLines {trailing : Str} (htrailing : trailing = [] ∨ trailing = [','])
    {rows : List (List Str)} (hne : rows ≠ []) (hrows : ∀ row ∈ rows, row ≠ []) :
    Wrapped rows.flatten (rowLines trailing rows) := by
  obtain ⟨text, hflat, hlist⟩ := flatten_rowLines trailing hne hrows
  exact ⟨⟨rows, trailing, rfl, hrows, htrailing, rfl⟩,
    ⟨trailing, htrailing, joinWith_rowLines trailing hne hrows⟩,
    ⟨text, trailing, htrailing, hflat, hlist⟩⟩

/-! ## The text of an array -/

/-- Lines that are printed one after the other. -/
def slLines (lines : List Str) (offs : Nat) : Str := lines.flatMap fun l => sl l offs

theorem rowsText_eq {item : FldDscr → Str} (offs : Nat) (trailing : Str)
    (rows : List (List FldDscr)) :
    rowsText item offs trailing rows =
      slLines (rowLines trailing (rows.map fun row => row.map item)) offs := by
  induction rows with
  | nil => rfl
  | cons row rows ih =>
      cases rows with
      | nil => simp [rowsText, rowLines, slLines]
      | cons row' rows =>
          have hrest : rowsText item offs trailing (row :: row' :: rows) =
              sl (joinWith ", " (row.map item) ++ ",") offs ++
                rowsText item offs trailing (row' :: rows) := rfl
          rw [hrest, ih]
          rfl

/-- The lines that list the fields are rows of their items. -/
theorem Lists.wrapped {item : FldDscr → Str} {offs : Nat} {flds : List FldDscr} {text : Str}
    (h : Lists item offs flds text) (hne : flds ≠ []) :
    ∃ lines, Wrapped (flds.map item) lines ∧ text = slLines lines offs := by
  obtain ⟨rows, trailing, rfl, hrows, htrailing, rfl⟩ := h
  refine ⟨_, ?_, rowsText_eq offs trailing rows⟩
  rw [List.map_flatten]
  apply wrapped_rowLines htrailing
  · intro hnil
    apply hne
    rw [List.map_eq_nil_iff.mp hnil]
    rfl
  · intro row hrow
    obtain ⟨row', hmem, rfl⟩ := List.mem_map.mp hrow
    exact fun hnil => hrows row' hmem (List.map_eq_nil_iff.mp hnil)

theorem newline_notMem_s {msg : Str} (h : '\n' ∉ msg) (offs : Nat) : '\n' ∉ s msg offs := by
  intro hmem
  rcases List.mem_append.mp hmem with hmem | hmem
  · cases List.eq_of_mem_replicate hmem
  · exact h hmem

/-- Printed lines are read back. -/
theorem getlines_slLines {lines : List Str} (h : ∀ l ∈ lines, '\n' ∉ l) (offs : Nat) (rest : Str) :
    getlines '\n' (slLines lines offs ++ rest) =
      lines.map (fun l => s l offs) ++ getlines '\n' rest := by
  induction lines with
  | nil => rfl
  | cons l lines ih =>
      obtain ⟨hl, hlines⟩ := List.forall_mem_cons.mp h
      have hcons : slLines (l :: lines) offs ++ rest =
          s l offs ++ '\n' :: (slLines lines offs ++ rest) := by
        simp [slLines, sl]
      rw [hcons, getlines_append (newline_notMem_s hl offs), ih hlines]
      rfl

theorem newline_notMem_joinWith {items : List Str} (h : ∀ item ∈ items, '\n' ∉ item) :
    '\n' ∉ joinWith ", " items := by
  intro hmem
  rcases mem_joinWith hmem with hmem | ⟨item, hitem, hmem⟩
  · revert hmem
    decide
  · exact h item hitem hmem

theorem newline_notMem_rowLines {trailing : Str} (htrailing : '\n' ∉ trailing)
    {rows : List (List Str)} (h : ∀ item ∈ rows.flatten, '\n' ∉ item) :
    ∀ l ∈ rowLines trailing rows, '\n' ∉ l := by
  induction rows with
  | nil => exact List.forall_mem_nil _
  | cons row rows ih =>
      have hrow : '\n' ∉ joinWith ", " row := newline_notMem_joinWith fun item hitem =>
        h item (List.mem_flatten_of_mem List.mem_cons_self hitem)
      have hrest : ∀ item ∈ rows.flatten, '\n' ∉ item := fun item hitem =>
        h item (List.mem_append_right row hitem)
      cases rows with
      | nil => simpa [rowLines] using ⟨hrow, htrailing⟩
      | cons row' rows =>
          refine List.forall_mem_cons.mpr ⟨?_, ih hrest⟩
          simpa using hrow

theorem Wrapped.newline_notMem {items lines : List Str} (h : Wrapped items lines)
    (hitems : ∀ item ∈ items, '\n' ∉ item) : ∀ l ∈ lines, '\n' ∉ l := by
  obtain ⟨rows, trailing, rfl, -, htrailing, rfl⟩ := h.rows
  refine newline_notMem_rowLines ?_ hitems
  rcases htrailing with rfl | rfl
  · exact List.not_mem_nil
  · decide

/-- The text is an initializer: the lines of `head`, lines that list the items, and those of
`tail`. Where no item has a line break these are the physical lines of the text. -/
def Initializer (head items tail : List Str) (offs : Nat) (text : Str) : Prop :=
  ∃ lines, Wrapped items lines ∧
    text = slLines head offs ++ slLines lines (offs + 2) ++ slLines tail offs ∧
    ((∀ item ∈ items, '\n' ∉ item) →
      getlines '\n' text = head.map (fun l => s l offs) ++
        lines.map (fun l => s l (offs + 2)) ++ tail.map fun l => s l offs)

/-- Two lines in front of the rows and one behind them. -/
theorem initializer_of_lists {item : FldDscr → Str} {flds : List FldDscr} (hne : flds ≠ [])
    {offs : Nat} {rows : Str} (h : Lists item (offs + 2) flds rows) {l₁ l₂ l₃ : Str}
    (hhead : ∀ l ∈ [l₁, l₂], '\n' ∉ l) (htail : ∀ l ∈ [l₃], '\n' ∉ l) :
    Initializer [l₁, l₂] (flds.map item) [l₃] offs
      (sl l₁ offs ++ sl l₂ offs ++ rows ++ sl l₃ offs) := by
  have hprinted : sl l₁ offs ++ sl l₂ offs ++ rows ++ sl l₃ offs =
      slLines [l₁, l₂] offs ++ rows ++ slLines [l₃] offs := by
    simp [slLines]
  rw [hprinted]
  obtain ⟨lines, hlines, rfl⟩ := h.wrapped hne
  refine ⟨lines, hlines, rfl, fun hitems => ?_⟩
  have hend := getlines_slLines htail offs []
  rw [List.append_nil] at hend
  rw [List.append_assoc, getlines_slLines hhead, getlines_slLines (hlines.newline_notMem hitems),
    hend, List.append_assoc]
  simp [getlines]

/-- The item of a field in `A_`: the address of its member. -/
def memberAddress (el : FldDscr) : Str := "&" ++ el.aName

/-- The item of a field in `N_`: its name in quotes. -/
def quotedName (el : FldDscr) : Str := "\"" ++ el.name ++ "\""

/-- The initializers of `A_` and `N_` are the comma-separated lists of the member addresses and of
the quoted names in the order of the fields, whatever the width, and `N_` is declared for as many
names as are listed. -/
theorem arrays_initialized (flds : List FldDscr) (hne : flds ≠ []) (maxWidth offs : Nat) :
    Initializer ["attr_vec_t A_", "\x7b"] (flds.map memberAddress) ["\x7d;"] offs
        (defineAttrArray flds maxWidth offs) ∧
      Initializer
        ["constexpr static const std::array<const cstr_t, " ++
          decimal (flds.map quotedName).length ++ "> N_", "\x7b\x7b"]
        (flds.map quotedName) ["\x7d\x7d;"] offs (defineAttrNameArray flds maxWidth offs) := by
  obtain ⟨rows, hrows, htext⟩ := defineAttrArray_eq flds maxWidth offs hne
  obtain ⟨rows', hrows', htext'⟩ := defineAttrNameArray_eq flds maxWidth offs hne
  have hdecimal : '\n' ∉ decimal flds.length := by
    intro h
    have hdigit := Nat.isDigit_of_mem_toDigits (by omega) (by omega) h
    revert hdigit
    decide
  rw [htext, htext', List.length_map]
  constructor
  · exact initializer_of_lists hne hrows (by decide) (by decide)
  · refine initializer_of_lists hne hrows' ?_ (by decide)
    simp [hdecimal]

/-- Two columns, each on a line of its own: the width is passed by the last one too. -/
theorem arrays_initialized_two :
    let flds := [FldDscr.new 1 "ID" .integer 4 0 .noNulls, FldDscr.new 2 "NAME" .char 20 0 .noNulls]
    Initializer ["attr_vec_t A_", "\x7b"] (flds.map memberAddress) ["\x7d;"] 4
        (defineAttrArray flds 5 4) ∧
      Initializer
        ["constexpr static const std::array<const cstr_t, " ++
          decimal (flds.map quotedName).length ++ "> N_", "\x7b\x7b"]
        (flds.map quotedName) ["\x7d\x7d;"] 4 (defineAttrNameArray flds 5 4) := by
  intro flds
  exact arrays_initialized flds (List.cons_ne_nil _ _) 5 4

end Dbgen3.Generator
