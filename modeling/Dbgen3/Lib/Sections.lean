import Dbgen3.Lib.RawString
import Mathlib.Data.List.Forall2

/-!
# Sections of a text

Reading code line by line. A raw string literal that is opened at the start of a
line goes up to its terminator, over any lines between; every other line is a
line of code. What is read from lines does not depend on what follows them. A
list is cut behind every element that ends a segment, and a section of it lies
between a head and a close.
-/

namespace RawString

/-! ## Lines with literals -/

/-- A line of code, or what a raw string literal holds. -/
inductive Item
  | code (l : Str)
  | raw (value : Str)
  deriving DecidableEq

/-- What is behind the opening of a literal, where the line starts with it behind its blanks. -/
def opened (delim l : Str) : Option Str :=
  let t := l.dropWhile (· = ' ')
  if (opening delim).isPrefixOf t then some (t.drop (opening delim).length) else none

/-- A line inside a literal that holds `value` so far: the literal that is still open, and the
items that are finished. -/
def inside (delim value l : Str) : Option Str × List Item :=
  match cutAt (terminator delim) l with
  | none => (some (value ++ l), [])
  | some (last, code) => (none, [.raw (value ++ last), .code code])

/-- A line, where a literal may be open. -/
def scan (delim : Str) : Option Str → Str → Option Str × List Item
  | some value, l => inside delim value l
  | none, l =>
      match opened delim l with
      | none => (none, [.code l])
      | some first => inside delim [] first

/-- The items of lines, where a literal may be open. -/
def items (delim : Str) : Option Str → List Str → List Item
  | _, [] => []
  | state, l :: rest => (scan delim state l).2 ++ items delim (scan delim state l).1 rest

/-- Outside of literals the lines are read as the items, whatever follows. -/
def Reads (delim : Str) (lines : List Str) (its : List Item) : Prop :=
  ∀ rest, items delim none (lines ++ rest) = its ++ items delim none rest

section Reads

variable {delim : Str} {lines lines' : List Str} {its its' : List Item}

theorem Reads.items_eq (h : Reads delim lines its) : items delim none lines = its := by
  have hall := h []
  rwa [List.append_nil, items, List.append_nil] at hall

theorem Reads.append (h : Reads delim lines its) (h' : Reads delim lines' its') :
    Reads delim (lines ++ lines') (its ++ its') := by
  intro rest
  rw [List.append_assoc, h, h', List.append_assoc]

/-- Lines that open no literal are lines of code. -/
theorem reads_code (h : ∀ l ∈ lines, opened delim l = none) :
    Reads delim lines (lines.map .code) := by
  induction lines with
  | nil => exact fun rest => rfl
  | cons l lines ih =>
      obtain ⟨hl, hlines⟩ := List.forall_mem_cons.mp h
      intro rest
      rw [List.cons_append, items, scan, hl, ih hlines rest]
      rfl

theorem inside_eq {l : Str} (h : ¬ terminator delim <:+: l) (value : Str) :
    inside delim value l = (some (value ++ l), []) := by
  have hne : terminator delim ≠ [] := List.cons_ne_nil _ _
  rw [inside, (cutAt_eq_none_iff hne l).mpr h]

/-- Lines without the terminator are kept in the literal that is open. -/
theorem items_inside {value : Str} (h : ∀ l ∈ lines, ¬ terminator delim <:+: l)
    (rest : List Str) :
    items delim (some value) (lines ++ rest) =
      items delim (some (value ++ lines.flatten)) rest := by
  induction lines generalizing value with
  | nil => rw [List.flatten_nil, List.append_nil, List.nil_append]
  | cons l lines ih =>
      obtain ⟨hl, hlines⟩ := List.forall_mem_cons.mp h
      rw [List.cons_append, items, scan, inside_eq hl]
      exact (ih hlines).trans (by rw [List.flatten_cons, List.append_assoc])

/-- A literal over several lines. -/
theorem reads_literal {head first last value code : Str} (hhead : opened delim head = some first)
    (hfirst : ¬ terminator delim <:+: first) (hlines : ∀ l ∈ lines, ¬ terminator delim <:+: l)
    (hlast : cutAt (terminator delim) last = some (value, code)) :
    Reads delim (head :: (lines ++ [last]))
      [.raw (first ++ lines.flatten ++ value), .code code] := by
  intro rest
  have hopen : items delim none (head :: (lines ++ [last] ++ rest)) =
      items delim (some first) (lines ++ last :: rest) := by
    rw [items, scan, hhead]
    simp only [inside_eq hfirst, List.nil_append, List.append_assoc, List.singleton_append]
  rw [List.cons_append, hopen, items_inside hlines, items, scan, inside, hlast]

end Reads

end RawString

namespace Sections

variable {α β γ : Type} {ends : α → Bool}

/-! ## Segments -/

/-- The segments of a list, each up to an element that ends it, and what is left. -/
def segments (ends : α → Bool) : List α → List (List α) × List α
  | [] => ([], [])
  | a :: rest =>
      let (segs, left) := segments ends rest
      if ends a then ([a] :: segs, left)
      else match segs with
        | [] => ([], a :: left)
        | seg :: segs => ((a :: seg) :: segs, left)

theorem segments_eq_nil {l : List α} (h : ∀ a ∈ l, ends a = false) : segments ends l = ([], l) := by
  induction l with
  | nil => rfl
  | cons a l ih =>
      obtain ⟨ha, hl⟩ := List.forall_mem_cons.mp h
      rw [segments, ih hl]
      simp only [ha, if_neg Bool.false_ne_true]

/-- The first segment goes up to the first element that ends one. -/
theorem segments_append_cons {l : List α} (h : ∀ a ∈ l, ends a = false) {e : α}
    (he : ends e = true) (rest : List α) :
    segments ends (l ++ e :: rest) =
      ((l ++ [e]) :: (segments ends rest).1, (segments ends rest).2) := by
  induction l with
  | nil =>
      rw [List.nil_append, segments]
      simp only [he, if_true, List.nil_append]
  | cons a l ih =>
      obtain ⟨ha, hl⟩ := List.forall_mem_cons.mp h
      rw [List.cons_append, segments, ih hl]
      simp only [ha, if_neg Bool.false_ne_true]
      rfl

/-- What is printed for a value: filler, or a segment that is read as the value whatever filler
is in front of it. -/
inductive Group (ends : α → Bool) (filler : α → Prop) (read : List α → Option β) :
    Option β → List α → Prop
  | filler {g : List α} (h : ∀ a ∈ g, filler a) : Group ends filler read none g
  | segment {b : β} {body : List α} {e : α} (hbody : ∀ a ∈ body, ends a = false)
      (he : ends e = true)
      (hread : ∀ pre, (∀ a ∈ pre, filler a) → read (pre ++ (body ++ [e])) = some b) :
      Group ends filler read (some b) (body ++ [e])

/-- The segments of printed groups are read as their values, in order; filler may be left in
front of what follows. -/
theorem segments_groups {filler : α → Prop} {read : List α → Option β} {f : γ → Option β}
    (hfiller : ∀ a, filler a → ends a = false) {cs : List γ} {groups : List (List α)}
    (h : List.Forall₂ (fun c g => Group ends filler read (f c) g) cs groups) {pre : List α}
    (hpre : ∀ a ∈ pre, filler a) (rest : List α) :
    ∃ segs left, (∀ a ∈ left, filler a) ∧ segs.mapM read = some (cs.filterMap f) ∧
      segments ends (pre ++ (groups.flatten ++ rest)) =
        (segs ++ (segments ends (left ++ rest)).1, (segments ends (left ++ rest)).2) := by
  induction h generalizing pre with
  | nil => exact ⟨[], pre, hpre, rfl, rfl⟩
  | @cons c g cs groups hg _ ih =>
      rw [List.flatten_cons, List.append_assoc]
      generalize hv : f c = v at hg
      cases hg with
      | filler hg =>
          obtain ⟨segs, left, hleft, hread, hsegs⟩ := ih (List.forall_mem_append.mpr ⟨hpre, hg⟩)
          rw [List.append_assoc] at hsegs
          exact ⟨segs, left, hleft, by rw [hread, List.filterMap_cons_none hv], hsegs⟩
      | @segment b body e hbody he hseg =>
          obtain ⟨segs, left, hleft, hread, hsegs⟩ := ih (List.forall_mem_nil _)
          rw [List.nil_append] at hsegs
          have hfront : ∀ a ∈ pre ++ body, ends a = false :=
            List.forall_mem_append.mpr ⟨fun a ha => hfiller a (hpre a ha), hbody⟩
          have hcut := segments_append_cons hfront he (groups.flatten ++ rest)
          refine ⟨(pre ++ (body ++ [e])) :: segs, left, hleft, ?_, ?_⟩
          · rw [List.mapM_cons, hseg pre hpre, hread, List.filterMap_cons_some hv]
            rfl
          · rw [List.append_assoc, List.singleton_append, ← List.append_assoc, hcut, hsegs,
              List.append_assoc, List.cons_append]

/-! ## Sections -/

/-- From the first element that is a head. -/
def behind (head : α → Bool) (l : List α) : List α := l.dropWhile fun a => ! head a

/-- Up to the first element that is a close. -/
def upTo (close : α → Bool) (l : List α) : List α := l.takeWhile fun a => ! close a

variable {head close : α → Bool}

theorem behind_append {l : List α} (h : ∀ a ∈ l, head a = false) (rest : List α) :
    behind head (l ++ rest) = behind head rest :=
  List.dropWhile_append_of_pos fun a ha => by rw [h a ha]; rfl

theorem behind_cons {a : α} (h : head a = true) (rest : List α) :
    behind head (a :: rest) = a :: rest :=
  List.dropWhile_cons_of_neg (by rw [h]; decide)

theorem upTo_append_cons {l : List α} (h : ∀ a ∈ l, close a = false) {e : α}
    (he : close e = true) (rest : List α) : upTo close (l ++ e :: rest) = l := by
  have hstop : upTo close (e :: rest) = [] := List.takeWhile_cons_of_neg (by rw [he]; decide)
  unfold upTo at hstop ⊢
  rw [List.takeWhile_append_of_pos fun a ha => by rw [h a ha]; rfl, hstop, List.append_nil]

end Sections
