/-
# Pieces of a stream

A stream of symbols is cut behind each separator.  Every piece but the last ends with one; the
last is what no separator has ended yet, and there is none when the stream is empty or ends with a
separator.  A reader that takes a stream piece by piece uses the first cut alone; one that takes
some of the pieces, in their order, has again the pieces of a stream.  A reader that is handed a
stream in chunks keeps what no separator has ended: behind the next chunk its frames go on
(`Framed.append`), so the frames are those of the stream, wherever it was cut.

`FirstPiece`, `Pieces` and `Framed` are relations and not functions, each in the form that an
induction wants: the first cut for a loop that consumes, the list of pieces for a whole input, the
ended frames and the open tail for a loop that is fed.
-/
import Mathlib.Data.List.Basic

namespace Lib

variable {α : Type}

/-! ## 1. The first cut -/

/-- The first piece of a stream, and the stream behind it. -/
inductive FirstPiece (sep : α) : List α → List α → List α → Prop
  | ended {body : List α} (rest : List α) (h : sep ∉ body) :
    FirstPiece sep (body ++ sep :: rest) (body ++ [sep]) rest
  | unended {body : List α} (h : sep ∉ body) : FirstPiece sep body body []

variable {sep : α}

theorem exists_firstPiece (sep : α) (s : List α) : ∃ piece rest, FirstPiece sep s piece rest := by
  by_cases h : sep ∈ s
  · obtain ⟨body, rest, rfl, hbody⟩ := List.eq_append_cons_of_mem h
    exact ⟨_, _, .ended rest hbody⟩
  · exact ⟨_, _, .unended h⟩

theorem FirstPiece.append_eq {s piece rest : List α} (h : FirstPiece sep s piece rest) :
    piece ++ rest = s := by
  cases h with
  | ended rest h => rw [List.append_assoc, List.singleton_append]
  | unended h => rw [List.append_nil]

/-- What no separator ends goes on with the first piece of what follows. -/
theorem FirstPiece.append_left {a s piece rest : List α} (ha : sep ∉ a)
    (h : FirstPiece sep s piece rest) : FirstPiece sep (a ++ s) (a ++ piece) rest := by
  cases h with
  | ended rest h =>
    rw [← List.append_assoc, ← List.append_assoc]
    exact .ended rest (List.not_mem_append ha h)
  | unended h => exact .unended (List.not_mem_append ha h)

/-- A stream has a first piece unless it is empty. -/
theorem FirstPiece.eq_nil_iff {s piece rest : List α} (h : FirstPiece sep s piece rest) :
    piece = [] ↔ s = [] := by
  cases h with
  | ended rest h => simp
  | unended h => rfl

/-- Streams by their pieces: the rest of a stream is shorter. -/
theorem pieces_induction {motive : List α → Prop} (sep : α) (nil : motive [])
    (cons : ∀ s piece rest, s ≠ [] → FirstPiece sep s piece rest → motive rest → motive s)
    (s : List α) : motive s := by
  induction hn : s.length using Nat.strongRecOn generalizing s with
  | _ n ih =>
    by_cases hne : s = []
    · rw [hne]
      exact nil
    · obtain ⟨piece, rest, hfirst⟩ := exists_firstPiece sep s
      refine cons s piece rest hne hfirst (ih rest.length ?_ rest rfl)
      have hlength := congrArg List.length hfirst.append_eq
      have hpos := List.length_pos_of_ne_nil (mt hfirst.eq_nil_iff.mp hne)
      rw [List.length_append] at hlength
      omega

/-- Where the first separator is. -/
theorem idxOf?_ended [BEq α] [LawfulBEq α] {body : List α} (h : sep ∉ body) (rest : List α) :
    (body ++ sep :: rest).idxOf? sep = some body.length := by
  induction body with
  | nil =>
    rw [List.nil_append, List.idxOf?_cons, if_pos (beq_self_eq_true _)]
    rfl
  | cons b body ih =>
    rcases not_or.mp (mt List.mem_cons.mpr h) with ⟨hb, hbody⟩
    rw [List.cons_append, List.idxOf?_cons, if_neg (by simpa using Ne.symm hb), ih hbody]
    rfl

/-! ## 2. All cuts -/

section
variable [DecidableEq α]

/-- `split_inclusive`. -/
def splitInclusive (sep : α) : List α → List (List α)
  | [] => []
  | a :: s =>
    if a = sep then [a] :: splitInclusive sep s
    else match splitInclusive sep s with
      | [] => [[a]]
      | piece :: pieces => (a :: piece) :: pieces

theorem splitInclusive_ended {body : List α} (rest : List α) (h : sep ∉ body) :
    splitInclusive sep (body ++ sep :: rest) = (body ++ [sep]) :: splitInclusive sep rest := by
  induction body with
  | nil => rw [List.nil_append, List.nil_append, splitInclusive, if_pos rfl]
  | cons a body ih =>
    rcases not_or.mp (mt List.mem_cons.mpr h) with ⟨ha, hbody⟩
    rw [List.cons_append, splitInclusive, if_neg (Ne.symm ha), ih hbody, List.cons_append]

theorem splitInclusive_unended {body : List α} (h : sep ∉ body) (hne : body ≠ []) :
    splitInclusive sep body = [body] := by
  induction body with
  | nil => exact absurd rfl hne
  | cons a body ih =>
    rcases not_or.mp (mt List.mem_cons.mpr h) with ⟨ha, hbody⟩
    rw [splitInclusive, if_neg (Ne.symm ha)]
    cases body with
    | nil => rfl
    | cons b body => rw [ih hbody (List.cons_ne_nil b body)]

/-- **The pieces are the first one and those of the rest.** -/
theorem FirstPiece.splitInclusive_eq {s piece rest : List α} (h : FirstPiece sep s piece rest)
    (hne : s ≠ []) : splitInclusive sep s = piece :: splitInclusive sep rest := by
  cases h with
  | ended rest h => exact splitInclusive_ended rest h
  | unended h => exact splitInclusive_unended h hne

/-- A stream has one first piece. -/
theorem FirstPiece.unique {s piece rest piece' rest' : List α} (h : FirstPiece sep s piece rest)
    (h' : FirstPiece sep s piece' rest') : piece = piece' ∧ rest = rest' := by
  have hpiece : piece = piece' := by
    by_cases hne : s = []
    · rw [h.eq_nil_iff.mpr hne, h'.eq_nil_iff.mpr hne]
    · have heq := (h.splitInclusive_eq hne).symm.trans (h'.splitInclusive_eq hne)
      exact (List.cons.inj heq).1
  refine ⟨hpiece, ?_⟩
  have happend := h.append_eq.trans h'.append_eq.symm
  rw [hpiece] at happend
  exact List.append_cancel_left happend

/-- A blank piece, and a last one without a separator. -/
example : splitInclusive 0 [1, 2, 0, 0, 3] = [[1, 2, 0], [0], [3]] := by decide

end

/-! ## 3. What the pieces are -/

/-- The pieces of a stream: each but the last ends with the only separator in it. -/
inductive Pieces (sep : α) : List (List α) → Prop
  | nil : Pieces sep []
  | last {body : List α} (h : sep ∉ body) (hne : body ≠ []) : Pieces sep [body]
  | ended {body : List α} {pieces : List (List α)} (h : sep ∉ body) (hp : Pieces sep pieces) :
    Pieces sep ((body ++ [sep]) :: pieces)

theorem Pieces.tail {piece : List α} {pieces : List (List α)} (h : Pieces sep (piece :: pieces)) :
    Pieces sep pieces := by
  cases h with
  | last h hne => exact .nil
  | ended h hp => exact hp

theorem Pieces.ne_nil {pieces : List (List α)} (h : Pieces sep pieces) :
    ∀ piece ∈ pieces, piece ≠ [] := by
  induction h with
  | nil => simp
  | last h hne => simpa using hne
  | ended h hp ih => simpa using ih

/-- There are no more pieces than symbols. -/
theorem Pieces.length_le {pieces : List (List α)} (h : Pieces sep pieces) :
    pieces.length ≤ pieces.flatten.length := by
  induction pieces with
  | nil => exact Nat.le_refl 0
  | cons piece pieces ih =>
    have hpos := List.length_pos_of_ne_nil (h.ne_nil piece List.mem_cons_self)
    have hrest := ih h.tail
    rw [List.length_cons, List.flatten_cons, List.length_append]
    omega

/-- **Pieces in their order are pieces.** -/
theorem Pieces.sublist {pieces some : List (List α)} (h : Pieces sep pieces)
    (hsub : some.Sublist pieces) : Pieces sep some := by
  induction h generalizing some with
  | nil =>
    rw [List.sublist_nil.mp hsub]
    exact .nil
  | last h hne =>
    rcases List.sublist_singleton.mp hsub with rfl | rfl
    · exact .nil
    · exact .last h hne
  | ended h hp ih =>
    cases hsub with
    | cons _ hsub => exact ih hsub
    | cons_cons _ hsub => exact .ended h (ih hsub)

/-- The first of some pieces, and what they say of the rest. -/
theorem Pieces.firstPiece {piece : List α} {pieces : List (List α)}
    (h : Pieces sep (piece :: pieces)) :
    FirstPiece sep (piece :: pieces).flatten piece pieces.flatten := by
  cases h with
  | last h hne => simpa using FirstPiece.unended h
  | ended h hp => simpa using FirstPiece.ended pieces.flatten h

variable [DecidableEq α]

theorem pieces_splitInclusive (sep : α) (s : List α) : Pieces sep (splitInclusive sep s) := by
  induction s using pieces_induction sep with
  | nil => exact .nil
  | cons s piece rest hne hfirst ih =>
    rw [hfirst.splitInclusive_eq hne]
    cases hfirst with
    | ended rest h => exact .ended h ih
    | unended h => exact .last h hne

/-- **A stream is its pieces.** -/
theorem flatten_splitInclusive (sep : α) (s : List α) : (splitInclusive sep s).flatten = s := by
  induction s using pieces_induction sep with
  | nil => rfl
  | cons s piece rest hne hfirst ih =>
    rw [hfirst.splitInclusive_eq hne, List.flatten_cons, ih, hfirst.append_eq]

/-! ## 4. Frames -/

omit [DecidableEq α]

/-- A stream is its frames, each with the separator that ends it, and a tail that none ends. -/
structure Framed (sep : α) (s : List α) (bodies : List (List α)) (tail : List α) : Prop where
  eq : s = (bodies.map (· ++ [sep])).flatten ++ tail
  bodies : ∀ body ∈ bodies, sep ∉ body
  tail : sep ∉ tail

theorem Framed.nil (sep : α) : Framed sep [] [] [] := ⟨rfl, by simp, by simp⟩

/-- Symbols that hold no separator. -/
theorem Framed.unended {s : List α} (h : sep ∉ s) : Framed sep s [] s := ⟨rfl, by simp, h⟩

/-- One frame, and what follows it. -/
theorem Framed.cons {body rest tail : List α} {bodies : List (List α)} (hbody : sep ∉ body)
    (h : Framed sep rest bodies tail) : Framed sep (body ++ sep :: rest) (body :: bodies) tail := by
  refine ⟨?_, ?_, h.tail⟩
  · rw [h.eq]
    simp
  · intro b hb
    rcases List.mem_cons.mp hb with rfl | hb
    · exact hbody
    · exact h.bodies b hb

/-- **The next chunk goes on behind the tail.** -/
theorem Framed.append {s tail chunk tail' : List α} {bodies bodies' : List (List α)}
    (h : Framed sep s bodies tail) (h' : Framed sep (tail ++ chunk) bodies' tail') :
    Framed sep (s ++ chunk) (bodies ++ bodies') tail' := by
  refine ⟨?_, ?_, h'.tail⟩
  · rw [h.eq, List.append_assoc, h'.eq, List.map_append, List.flatten_append, List.append_assoc]
  · intro b hb
    rcases List.mem_append.mp hb with hb | hb
    · exact h.bodies b hb
    · exact h'.bodies b hb

/-- **A stream has one cut into frames.** -/
theorem Framed.unique {s tail tail' : List α} {bodies bodies' : List (List α)}
    (h : Framed sep s bodies tail) (h' : Framed sep s bodies' tail') :
    bodies = bodies' ∧ tail = tail' := by
  classical
  induction bodies generalizing s bodies' with
  | nil =>
    have hs : sep ∉ s := by
      rw [h.eq]
      exact h.tail
    cases bodies' with
    | nil => exact ⟨rfl, h.eq.symm.trans h'.eq⟩
    | cons body bodies' =>
      refine absurd ?_ hs
      rw [h'.eq]
      simp
  | cons body bodies ih =>
    have hfirst : FirstPiece sep s (body ++ [sep]) ((bodies.map (· ++ [sep])).flatten ++ tail) := by
      have hs := FirstPiece.ended ((bodies.map (· ++ [sep])).flatten ++ tail)
        (h.bodies body List.mem_cons_self)
      rw [h.eq]
      simpa using hs
    cases bodies' with
    | nil =>
      refine absurd ?_ h'.tail
      have hs := h'.eq
      rw [List.map_nil, List.flatten_nil, List.nil_append] at hs
      rw [← hs, h.eq]
      simp
    | cons body' bodies' =>
      have hfirst' : FirstPiece sep s (body' ++ [sep])
          ((bodies'.map (· ++ [sep])).flatten ++ tail') := by
        have hs := FirstPiece.ended ((bodies'.map (· ++ [sep])).flatten ++ tail')
          (h'.bodies body' List.mem_cons_self)
        rw [h'.eq]
        simpa using hs
      obtain ⟨hpiece, hrest⟩ := hfirst.unique hfirst'
      obtain ⟨hbodies, htail⟩ := ih
        ⟨rfl, fun b hb => h.bodies b (List.mem_cons_of_mem _ hb), h.tail⟩
        ⟨hrest, fun b hb => h'.bodies b (List.mem_cons_of_mem _ hb), h'.tail⟩
      rw [List.append_cancel_right hpiece, hbodies]
      exact ⟨rfl, htail⟩

/-- Every stream has one. -/
theorem exists_framed (sep : α) (s : List α) : ∃ bodies tail, Framed sep s bodies tail := by
  classical
  induction s using pieces_induction sep with
  | nil => exact ⟨[], [], .nil sep⟩
  | cons s piece rest _ hfirst ih =>
    cases hfirst with
    | ended rest hbody =>
      obtain ⟨bodies, tail, h⟩ := ih
      exact ⟨_ :: bodies, tail, h.cons hbody⟩
    | unended hbody => exact ⟨[], _, .unended hbody⟩

theorem Framed.length {s tail : List α} {bodies : List (List α)} (h : Framed sep s bodies tail) :
    bodies.length + tail.length ≤ s.length := by
  rw [h.eq, List.length_append]
  have hbodies : bodies.length ≤ (bodies.map (· ++ [sep])).flatten.length := by
    clear h
    induction bodies with
    | nil => exact Nat.le_refl 0
    | cons body bodies ih =>
      rw [List.map_cons, List.flatten_cons, List.length_append, List.length_append,
        List.length_singleton, List.length_cons]
      omega
  omega

end Lib
