/-
# The cells of a handset row

`reference-readers/src/edgetx.rs`, `row_cells`.  The source slices a string at the bytes where it
has found a quote or a comma; `rowCells` reads the characters.  The slices are all between
characters, so the two agree and nothing panics (`rowCellsStr_eq`), and a row is read exactly if it
is a list of cells with commas between them (`rowCells_eq_some_iff`): the cells are then all of the
row, and an empty one behind the last comma is among them.
-/
import Musubi.Lib.StrSlice
import Musubi.Reference.EdgeTx

namespace Musubi.Reference.EdgeTx

open Lib Lib.Checked Musubi.Core

/-! ## 1. On strings -/

/-- Where the first cell of what is left ends, in bytes. -/
def cellStop (rest : List UInt8) : Checked Empty (Option ℕ) :=
  if rest.head? = some (asciiByte '"') then
    match findByte '"' rest.tail with
    | none => return none
    | some stop =>
      if stop + 2 < rest.length then do
        let b ← index rest (stop + 2)
        if b ≠ asciiByte ',' then return none else return some (stop + 2)
      else return some (stop + 2)
  else do
    let stop := (findByte ',' rest).getD rest.length
    let cell ← strSlice rest 0 stop
    if (findByte '"' cell).isSome then return none else return some stop

/-- One round of the loop: the cells so far, and what is left. -/
def cellRound (s : List (List UInt8) × List UInt8) :
    Checked Empty ((List (List UInt8) × List UInt8) ⊕ Option (List (List UInt8))) := do
  let (cells, rest) := s
  let stop ← cellStop rest
  match stop with
  | none => return .inr none
  | some stop => do
    let cell ← strSlice rest 0 stop
    if stop = rest.length then return .inr (some (cells ++ [cell]))
    else do
      let rest ← strSlice rest (stop + 1) rest.length
      return .inl (cells ++ [cell], rest)

def rowCellsStr (line : List UInt8) : Checked Empty (Option (List (List UInt8))) :=
  loop cellRound (line.length + 1) ([], line)

/-! ## 2. Cells -/

/-- A cell has neither quotes nor commas, or one quote at each end and none within.  A quote is
not escaped in this format; a text with one cannot be written. -/
inductive IsCell : List Char → Prop
  | free {cell : List Char} (hquote : '"' ∉ cell) (hcomma : ',' ∉ cell) : IsCell cell
  | quoted {text : List Char} (h : '"' ∉ text) : IsCell ('"' :: (text ++ ['"']))

/-- The end of a row, or a comma. -/
inductive CellBreak : List Char → Prop
  | stop : CellBreak []
  | comma (rest : List Char) : CellBreak (',' :: rest)

theorem idxOf?_append_cons {c : Char} {before : List Char} (h : c ∉ before) (behind : List Char) :
    (before ++ c :: behind).idxOf? c = some before.length := by
  induction before with
  | nil => simp [List.idxOf?_cons]
  | cons b before ih =>
    rw [List.mem_cons, not_or] at h
    rw [List.cons_append, List.idxOf?_cons, beq_eq_false_iff_ne.mpr (Ne.symm h.1), ih h.2]
    rfl

/-- The first character of a row that is not quoted is not a quote. -/
theorem cellEnd_of_head_ne {rest : List Char} (h : rest.head? ≠ some '"') :
    cellEnd rest = if '"' ∈ rest.take ((rest.idxOf? ',').getD rest.length) then none
      else some ((rest.idxOf? ',').getD rest.length) := by
  cases rest with
  | nil => rfl
  | cons c rest =>
    have hc : c ≠ '"' := fun hc => h (congrArg some hc)
    unfold cellEnd
    split
    · next heq => exact absurd (List.cons.inj heq).1 hc
    · rfl

/-- **A cell in front of a break ends there.** -/
theorem cellEnd_append {cell rest : List Char} (hcell : IsCell cell) (hrest : CellBreak rest) :
    cellEnd (cell ++ rest) = some cell.length := by
  cases hcell with
  | free hquote hcomma =>
    have hhead : (cell ++ rest).head? ≠ some '"' := by
      cases cell with
      | nil => cases hrest <;> simp
      | cons c cell =>
        intro h
        exact hquote (by rw [← Option.some.inj h]; exact List.mem_cons_self)
    have hstop : ((cell ++ rest).idxOf? ',').getD (cell ++ rest).length = cell.length := by
      cases hrest with
      | stop => rw [List.append_nil, List.idxOf?_eq_none_iff.mpr hcomma, Option.getD_none]
      | comma rest => rw [idxOf?_append_cons hcomma, Option.getD_some]
    rw [cellEnd_of_head_ne hhead, hstop, List.take_left, if_neg hquote]
  | @quoted text h =>
    have hfind : (text ++ ['"'] ++ rest).idxOf? '"' = some text.length := by
      rw [List.append_assoc, List.singleton_append, idxOf?_append_cons h]
    have hlen : ('"' :: (text ++ ['"'])).length = text.length + 2 := by simp
    rw [List.cons_append, cellEnd, hfind, hlen]
    cases hrest <;> simp

/-- Where a cell ends there is a break. -/
theorem cellEnd_eq_some {row : List Char} {n : ℕ} (h : cellEnd row = some n) :
    ∃ cell rest, row = cell ++ rest ∧ cell.length = n ∧ IsCell cell ∧ CellBreak rest := by
  by_cases hhead : row.head? = some '"'
  · obtain ⟨text, rfl⟩ : ∃ text, row = '"' :: text := by
      cases row with
      | nil => cases hhead
      | cons c text => exact ⟨text, by rw [Option.some.inj hhead]⟩
    by_cases hmem : '"' ∈ text
    · obtain ⟨before, behind, rfl, hbefore⟩ := List.eq_append_cons_of_mem hmem
      rw [cellEnd, idxOf?_append_cons hbefore] at h
      refine ⟨'"' :: (before ++ ['"']), behind, by simp, ?_, .quoted hbefore, ?_⟩
      · simp only [Option.bind_eq_bind, Option.bind_some] at h
        split at h
        · cases h
        · rw [← Option.some.inj h]
          simp
      · cases behind with
        | nil => exact .stop
        | cons c behind =>
          by_cases hc : c = ','
          · rw [hc]
            exact .comma behind
          · simp [hc] at h
    · rw [cellEnd, List.idxOf?_eq_none_iff.mpr hmem] at h
      cases h
  · rw [cellEnd_of_head_ne hhead] at h
    split at h
    · cases h
    next hquote =>
    by_cases hmem : ',' ∈ row
    · obtain ⟨before, behind, rfl, hbefore⟩ := List.eq_append_cons_of_mem hmem
      rw [idxOf?_append_cons hbefore, Option.getD_some] at h hquote
      rw [List.take_left] at hquote
      exact ⟨before, ',' :: behind, rfl, Option.some.inj h, .free hquote hbefore, .comma behind⟩
    · rw [List.idxOf?_eq_none_iff.mpr hmem, Option.getD_none] at h hquote
      rw [List.take_length] at hquote
      exact ⟨row, [], (List.append_nil row).symm, Option.some.inj h, .free hquote hmem, .stop⟩

/-! ## 3. Rows -/

theorem rowCells_last {cell : List Char} (hcell : IsCell cell) : rowCells cell = some [cell] := by
  have hstop := cellEnd_append hcell .stop
  rw [List.append_nil] at hstop
  rw [rowCells, hstop]
  simp

theorem rowCells_comma {cell : List Char} (hcell : IsCell cell) (rest : List Char) :
    rowCells (cell ++ ',' :: rest) = (rowCells rest).map (cell :: ·) := by
  rw [rowCells, cellEnd_append hcell (.comma rest)]
  simp

/-- Rows by their first cells: a row with a cell that does not end, a last cell, and a cell with a
comma behind it.  The rule follows the loop of the code. -/
theorem row_induction {motive : List Char → Prop}
    (bad : ∀ row, cellEnd row = none → motive row) (last : ∀ cell, IsCell cell → motive cell)
    (comma : ∀ cell rest, IsCell cell → motive rest → motive (cell ++ ',' :: rest))
    (row : List Char) : motive row := by
  induction hn : row.length using Nat.strongRecOn generalizing row with
  | _ n ih =>
    cases hstop : cellEnd row with
    | none => exact bad row hstop
    | some stop =>
      obtain ⟨cell, rest, rfl, -, hcell, hrest⟩ := cellEnd_eq_some hstop
      cases hrest with
      | stop =>
        rw [List.append_nil]
        exact last cell hcell
      | comma rest =>
        refine comma cell rest hcell (ih rest.length ?_ rest rfl)
        rw [← hn, List.length_append, List.length_cons]
        omega

/-- **A row is read exactly if it is a list of cells with commas between them**, and then these
are its cells. -/
theorem rowCells_eq_some_iff {row : List Char} {cells : List (List Char)} :
    rowCells row = some cells ↔
      cells ≠ [] ∧ (∀ cell ∈ cells, IsCell cell) ∧ List.intercalate [','] cells = row := by
  constructor
  · intro h
    induction row using row_induction generalizing cells with
    | bad row hnone =>
      rw [rowCells, hnone] at h
      cases h
    | last cell hcell =>
      rw [rowCells_last hcell] at h
      cases h
      exact ⟨List.cons_ne_nil _ _, by simpa using hcell, by simp⟩
    | comma cell rest hcell ih =>
      rw [rowCells_comma hcell] at h
      obtain ⟨more, hmore, rfl⟩ := Option.map_eq_some_iff.mp h
      obtain ⟨hne, hcells, rfl⟩ := ih hmore
      obtain ⟨next, others, rfl⟩ := List.exists_cons_of_ne_nil hne
      refine ⟨List.cons_ne_nil _ _, List.forall_mem_cons.mpr ⟨hcell, hcells⟩, ?_⟩
      rw [List.intercalate_cons_cons, List.append_assoc, List.singleton_append]
  · rintro ⟨hne, hcells, rfl⟩
    induction cells with
    | nil => exact absurd rfl hne
    | cons cell cells ih =>
      rw [List.forall_mem_cons] at hcells
      cases cells with
      | nil =>
        rw [List.intercalate_singleton]
        exact rowCells_last hcells.1
      | cons next others =>
        rw [List.intercalate_cons_cons, List.append_assoc, List.singleton_append,
          rowCells_comma hcells.1, ih (List.cons_ne_nil _ _) hcells.2]
        rfl

/-! ## 4. The strings agree -/

theorem quote_ascii : '"'.toNat < 0x80 := by decide

theorem comma_ascii : ','.toNat < 0x80 := by decide

/-- The slice up to a character: it ends on a boundary between characters, so it does not panic.
-/
theorem strSlice_take (before behind : List Char) :
    (strSlice (utf8Bytes (before ++ behind)) 0 (utf8Bytes before).length :
      Checked Empty (List UInt8)) = .ok (utf8Bytes before) := by
  have h := strSlice_append (ε := Empty) [] before behind
  rwa [List.nil_append, utf8Bytes_nil, List.length_nil, Nat.zero_add] at h

/-- A cell with a quote in front ends behind the next one. -/
theorem cellStop_quoted (text : List Char) :
    cellStop (utf8Bytes ('"' :: text)) =
      .ok ((cellEnd ('"' :: text)).map fun n => (utf8Bytes (('"' :: text).take n)).length) := by
  have hhead : (utf8Bytes ('"' :: text)).head? = some (asciiByte '"') :=
    (head?_utf8Bytes_iff quote_ascii).mpr rfl
  have htail : (utf8Bytes ('"' :: text)).tail = utf8Bytes text := by
    rw [utf8Bytes_cons, utf8EncodeChar_ascii quote_ascii]
    rfl
  rw [cellStop, if_pos hhead, htail]
  by_cases hmem : '"' ∈ text
  · obtain ⟨before, behind, rfl, hbefore⟩ := List.eq_append_cons_of_mem hmem
    have hcell : IsCell ('"' :: (before ++ ['"'])) := .quoted hbefore
    have hrow : '"' :: (before ++ '"' :: behind) = '"' :: (before ++ ['"']) ++ behind := by simp
    have hlen : (utf8Bytes before).length + 2 = (utf8Bytes ('"' :: (before ++ ['"']))).length := by
      rw [utf8Bytes_cons, utf8Bytes_append, utf8Bytes_cons, utf8Bytes_nil,
        utf8EncodeChar_ascii quote_ascii]
      simp
    rw [findByte_utf8Bytes quote_ascii hbefore]
    dsimp only
    rw [hlen, hrow, utf8Bytes_append, List.length_append]
    cases behind with
    | nil =>
      rw [if_neg (by simp), cellEnd_append hcell .stop, Option.map_some, List.take_left]
      rfl
    | cons c behind =>
      obtain ⟨b, more, hc, -⟩ := exists_head_utf8EncodeChar c
      have hbytes : utf8Bytes (c :: behind) = b :: (more ++ utf8Bytes behind) := by
        rw [utf8Bytes_cons, hc, List.cons_append]
      have hbc : b = asciiByte ',' ↔ c = ',' := by
        have h : (utf8Bytes (c :: behind)).head? = some (asciiByte ',') ↔ _ :=
          head?_utf8Bytes_iff comma_ascii
        rwa [hbytes, List.head?_cons, List.head?_cons, Option.some_inj, Option.some_inj] at h
      rw [if_pos (by simp [hbytes]), hbytes, index, List.getElem?_append_right (Nat.le_refl _),
        Nat.sub_self, List.getElem?_cons_zero]
      by_cases hcomma : c = ','
      · rw [hcomma, cellEnd_append hcell (.comma behind), Option.map_some, List.take_left]
        exact if_neg (not_not.mpr (hbc.mpr hcomma))
      · have hnone : cellEnd ('"' :: (before ++ ['"']) ++ c :: behind) = none := by
          rw [← hrow, cellEnd, idxOf?_append_cons hbefore]
          simp [hcomma]
        rw [hnone]
        exact if_pos (mt hbc.mp hcomma)
  · rw [(findByte_eq_none_iff quote_ascii).mpr hmem, cellEnd, List.idxOf?_eq_none_iff.mpr hmem]
    rfl

/-- Another cell ends in front of the next comma, and a quote within is none. -/
theorem cellStop_free {row : List Char} (h : row.head? ≠ some '"') :
    cellStop (utf8Bytes row) =
      .ok ((cellEnd row).map fun n => (utf8Bytes (row.take n)).length) := by
  have key : ∀ before behind : List Char, row = before ++ behind →
      (findByte ',' (utf8Bytes row)).getD (utf8Bytes row).length = (utf8Bytes before).length →
      (row.idxOf? ',').getD row.length = before.length →
      cellStop (utf8Bytes row) =
        .ok ((cellEnd row).map fun n => (utf8Bytes (row.take n)).length) := by
    intro before behind hrow hbyte hchar
    rw [cellStop, if_neg (mt (head?_utf8Bytes_iff quote_ascii).mp h), hbyte,
      cellEnd_of_head_ne h, hchar, hrow, List.take_left]
    dsimp only
    rw [strSlice_take, ok_bind]
    by_cases hquote : '"' ∈ before
    · have hsome : (findByte '"' (utf8Bytes before)).isSome = true := by
        rw [← Option.ne_none_iff_isSome, ne_eq, findByte_eq_none_iff quote_ascii]
        exact not_not.mpr hquote
      rw [if_pos hsome, if_pos hquote]
      rfl
    · rw [(findByte_eq_none_iff quote_ascii).mpr hquote, if_neg hquote, Option.map_some,
        List.take_left]
      rfl
  by_cases hmem : ',' ∈ row
  · obtain ⟨before, behind, hrow, hbefore⟩ := List.eq_append_cons_of_mem hmem
    refine key before (',' :: behind) hrow ?_ ?_
    · rw [hrow, findByte_utf8Bytes comma_ascii hbefore, Option.getD_some]
    · rw [hrow, idxOf?_append_cons hbefore, Option.getD_some]
  · refine key row [] (List.append_nil row).symm ?_ ?_
    · rw [(findByte_eq_none_iff comma_ascii).mpr hmem, Option.getD_none]
    · rw [List.idxOf?_eq_none_iff.mpr hmem, Option.getD_none]

theorem cellStop_utf8Bytes (row : List Char) :
    cellStop (utf8Bytes row) =
      .ok ((cellEnd row).map fun n => (utf8Bytes (row.take n)).length) := by
  by_cases h : row.head? = some '"'
  · obtain ⟨text, rfl⟩ : ∃ text, row = '"' :: text := by
      cases row with
      | nil => cases h
      | cons c text => exact ⟨text, by rw [Option.some.inj h]⟩
    exact cellStop_quoted text
  · exact cellStop_free h

/-- **Every slice is between two characters**: with a round for each byte the cells of a row come
out. -/
theorem loop_cellRound (row : List Char) (rounds : ℕ) (h : row.length < rounds)
    (cells : List (List UInt8)) :
    loop cellRound rounds (cells, utf8Bytes row) =
      .ok ((rowCells row).map fun more => cells ++ more.map utf8Bytes) := by
  induction row using row_induction generalizing rounds cells with
  | bad row hnone =>
    obtain ⟨rounds, rfl⟩ := Nat.exists_eq_succ_of_ne_zero (Nat.ne_of_gt (Nat.zero_lt_of_lt h))
    rw [loop, cellRound, cellStop_utf8Bytes, hnone, rowCells, hnone]
    rfl
  | last cell hcell =>
    obtain ⟨rounds, rfl⟩ := Nat.exists_eq_succ_of_ne_zero (Nat.ne_of_gt (Nat.zero_lt_of_lt h))
    have hstop := cellEnd_append hcell .stop
    have hslice := strSlice_take cell []
    rw [List.append_nil] at hstop hslice
    rw [loop, cellRound, cellStop_utf8Bytes, hstop, rowCells_last hcell, Option.map_some,
      List.take_length, ok_bind]
    dsimp only
    rw [hslice, ok_bind, if_pos rfl]
    rfl
  | comma cell rest hcell ih =>
    obtain ⟨rounds, rfl⟩ := Nat.exists_eq_succ_of_ne_zero (Nat.ne_of_gt (Nat.zero_lt_of_lt h))
    rw [List.length_append, List.length_cons] at h
    have hlen : (utf8Bytes (cell ++ ',' :: rest)).length =
        (utf8Bytes cell).length + 1 + (utf8Bytes rest).length := by
      rw [utf8Bytes_append, utf8Bytes_cons, utf8EncodeChar_ascii comma_ascii, List.length_append,
        List.length_append, List.length_singleton, Nat.add_assoc]
    have hrest : (strSlice (utf8Bytes (cell ++ ',' :: rest)) ((utf8Bytes cell).length + 1)
        (utf8Bytes (cell ++ ',' :: rest)).length : Checked Empty (List UInt8)) =
        .ok (utf8Bytes rest) := by
      have hs := strSlice_append (ε := Empty) (cell ++ [',']) rest []
      have hfront : (utf8Bytes (cell ++ [','])).length = (utf8Bytes cell).length + 1 := by
        rw [utf8Bytes_append, utf8Bytes_cons, utf8EncodeChar_ascii comma_ascii]
        simp
      rw [List.append_nil, List.append_assoc, List.singleton_append, hfront] at hs
      rw [hlen, hs]
    rw [loop, cellRound, cellStop_utf8Bytes, cellEnd_append hcell (.comma rest), Option.map_some,
      List.take_left, ok_bind]
    dsimp only
    rw [strSlice_take, ok_bind, if_neg (by omega), hrest]
    have hmore := ih rounds (by omega) (cells ++ [utf8Bytes cell])
    rw [rowCells_comma hcell]
    refine hmore.trans ?_
    cases rowCells rest with
    | none => rfl
    | some more => simp

theorem rowCellsStr_eq (row : List Char) :
    rowCellsStr (utf8Bytes row) = .ok ((rowCells row).map (List.map utf8Bytes)) := by
  have hlong : row.length ≤ (utf8Bytes row).length := by
    induction row with
    | nil => exact Nat.le_refl _
    | cons c row ih =>
      obtain ⟨b, more, hc, -⟩ := exists_head_utf8EncodeChar c
      rw [utf8Bytes_cons, hc, List.length_append, List.length_cons, List.length_cons]
      omega
  exact loop_cellRound row _ (Nat.lt_succ_of_le hlong) []

/-- **`row_cells` does not panic and comes back on every line**: with the cells of the line if it is
a list of cells, quoted or free of quotes and commas, with commas between them, and without
otherwise. -/
theorem row_cells_exact (line : String) :
    rowCellsStr line.toByteArray.data.toList =
        .ok ((rowCells line.toList).map (List.map utf8Bytes)) ∧
      ∀ cells, rowCells line.toList = some cells ↔
        cells ≠ [] ∧ (∀ cell ∈ cells, IsCell cell) ∧
          List.intercalate [','] cells = line.toList := by
  refine ⟨?_, fun cells => rowCells_eq_some_iff⟩
  rw [toByteArray_eq_utf8Bytes]
  exact rowCellsStr_eq line.toList

end Musubi.Reference.EdgeTx
