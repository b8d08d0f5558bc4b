import Dbgen3.Lib.Text

/-!
# Path names

The lexical operations on POSIX path names: the file name of a path, its stem
and the path of an entry of a folder.
-/

namespace Path

/-- The part after the last slash. -/
def filename (p : Str) : Str := (p.reverse.takeWhile (· ≠ '/')).reverse

/-- The file name without its extension. A name without a dot after its first
character has none, and neither have the names of the folder and its parent. -/
def stem (p : Str) : Str :=
  let name := filename p
  let base := (name.reverse.dropWhile (· ≠ '.')).reverse.dropLast
  if name = ['.', '.'] ∨ base = [] then name else base

/-- The path of `entry` seen from `folder`. -/
def join (folder entry : Str) : Str :=
  if entry.head? = some '/' then entry
  else if folder = [] ∨ folder.getLast? = some '/' then folder ++ entry
  else folder ++ ['/'] ++ entry

theorem join_injective {folder a b : Str} (ha : '/' ∉ a) (hb : '/' ∉ b)
    (h : join folder a = join folder b) : a = b := by
  have hhead : ∀ {c : Str}, '/' ∉ c → c.head? ≠ some '/' := by
    intro c hc heq
    exact hc (List.mem_of_mem_head? heq)
  unfold join at h
  rw [if_neg (hhead ha), if_neg (hhead hb)] at h
  split at h
  · exact List.append_cancel_left h
  · exact List.append_cancel_left h

theorem slash_notMem_stem (p : Str) : '/' ∉ stem p := by
  have hname : '/' ∉ filename p := by
    intro h
    have := List.all_eq_true.mp List.all_takeWhile _ (List.mem_reverse.mp h)
    simp at this
  unfold stem
  dsimp only
  split
  · exact hname
  · intro h
    apply hname
    have hmem := List.mem_reverse.mp ((List.dropLast_prefix _).subset h)
    exact List.mem_reverse.mp ((List.dropWhile_suffix _).subset hmem)

end Path
