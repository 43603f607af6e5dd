/-
# Lines

A line ends with a line feed, before which a carriage return belongs to the end; what follows the
last line feed is a line of its own unless it is empty, and keeps its carriage return.

So a text that was put together of terminated lines has these lines, as long as none of them has a
line feed inside or a carriage return at its end.
-/
import Musubi.Lib.Text

namespace Lib

/-- A terminated line without its carriage return. -/
def stripCr (line : List Char) : List Char :=
  if line.getLast? = some '\r' then line.dropLast else line

/-- `str::lines`. -/
def lines (s : List Char) : List (List Char) :=
  let pieces := s.splitOn '\n'
  pieces.dropLast.map stripCr ++ [pieces.getLastD []].filter fun line => !line.isEmpty

@[simp] theorem lines_nil : lines [] = [] := by decide

theorem stripCr_of_notMem {line : List Char} (h : '\r' ∉ line) : stripCr line = line := by
  unfold stripCr
  rw [if_neg]
  intro hlast
  exact h (List.mem_of_getLast? hlast)

/-- **The first line of a text.** -/
theorem lines_append {line : List Char} (h : '\n' ∉ line) (s : List Char) :
    lines (line ++ '\n' :: s) = stripCr line :: lines s := by
  have hpieces : (line ++ '\n' :: s).splitOn '\n' = line :: s.splitOn '\n' := by
    rw [List.splitOn_append_cons_self, List.splitOn_eq_singleton h]
    rfl
  obtain ⟨first, rest, hsplit⟩ := List.exists_cons_of_ne_nil (List.splitOn_ne_nil '\n' s)
  unfold lines
  rw [hpieces, hsplit]
  rfl

/-- Text without a line feed is one line. -/
theorem lines_of_notMem {line : List Char} (h : '\n' ∉ line) (hne : line ≠ []) :
    lines line = [line] := by
  unfold lines
  rw [List.splitOn_eq_singleton h]
  simp [hne]

/-- A line is what a piece begins with. -/
theorem prefix_of_mem_lines {s line : List Char} (h : line ∈ lines s) :
    ∃ piece ∈ s.splitOn '\n', line <+: piece := by
  unfold lines at h
  rcases List.mem_append.mp h with h | h
  · obtain ⟨piece, hpiece, rfl⟩ := List.mem_map.mp h
    refine ⟨piece, List.dropLast_subset _ hpiece, ?_⟩
    unfold stripCr
    split
    · exact List.dropLast_prefix piece
    · exact List.prefix_refl piece
  · obtain rfl := List.mem_singleton.mp (List.mem_filter.mp h).1
    refine ⟨_, ?_, List.prefix_refl _⟩
    rw [List.getLastD_eq_getLast?, List.getLast?_eq_some_getLast (List.splitOn_ne_nil _ _)]
    exact List.getLast_mem _

theorem notMem_of_mem_lines {s line : List Char} (h : line ∈ lines s) : '\n' ∉ line := by
  obtain ⟨piece, hpiece, hfront⟩ := prefix_of_mem_lines h
  exact fun hmem => notMem_of_mem_splitOn hpiece (hfront.subset hmem)

/-- Lines that end with a line feed. -/
def unlines (ls : List (List Char)) : List Char := ls.flatMap fun line => line ++ ['\n']

/-- **The lines of terminated lines**, before whatever follows. -/
theorem lines_unlines_append {ls : List (List Char)} (h : ∀ line ∈ ls, '\n' ∉ line ∧ '\r' ∉ line)
    (s : List Char) : lines (unlines ls ++ s) = ls ++ lines s := by
  induction ls with
  | nil => rfl
  | cons line ls ih =>
    obtain ⟨⟨hfeed, hreturn⟩, hrest⟩ := List.forall_mem_cons.mp h
    have hcons : unlines (line :: ls) ++ s = line ++ '\n' :: (unlines ls ++ s) := by
      simp [unlines]
    rw [hcons, lines_append hfeed, stripCr_of_notMem hreturn, ih hrest, List.cons_append]

theorem lines_unlines {ls : List (List Char)} (h : ∀ line ∈ ls, '\n' ∉ line ∧ '\r' ∉ line) :
    lines (unlines ls) = ls := by
  have hall := lines_unlines_append h []
  rwa [lines_nil, List.append_nil, List.append_nil] at hall

/-- Both line ends, an empty line, and a carriage return that ends no line. -/
example : lines "a\nb\r\n\nc\r".toList =
    ["a".toList, "b".toList, [], "c\r".toList] := by decide

end Lib
