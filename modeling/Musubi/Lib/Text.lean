/-
# Texts put together

Lower-case hexadecimal, two digits a byte, which reads back; texts joined by a separator; and
which characters get into a text through either: a separator that is no digit never comes from a
number.  Bytes in UTF-8 read back as the text they encode.

Joining and splitting undo each other when no part holds the separator.  For a program that counts
the fields it has split there is a converse: the right count is enough
(`splitOn_intercalate_of_length`).
-/
import Mathlib.Algebra.Order.Ring.Nat
import Mathlib.Data.List.Basic

namespace Lib

/-- Membership in a list of texts is decided by one instance everywhere. -/
instance lawfulBEqText : LawfulBEq (List Char) := List.instLawfulBEq

/-! ## 1. Hexadecimal -/

/-- The two digits of a byte, the high half first. -/
def hexPair (b : UInt8) : List Char := [Nat.digitChar (b.toNat / 16), Nat.digitChar (b.toNat % 16)]

/-- `{b:02x}` for every byte. -/
def hexLower (bytes : List UInt8) : String := String.ofList (bytes.flatMap hexPair)

/-- The value of a hexadecimal digit. -/
def hexValue (c : Char) : Option ℕ :=
  if '0' ≤ c ∧ c ≤ '9' then some (c.toNat - 48)
  else if 'a' ≤ c ∧ c ≤ 'f' then some (c.toNat - 87)
  else none

/-- Read digits two at a time. -/
def unhex : List Char → Option (List UInt8)
  | [] => some []
  | [_] => none
  | h :: l :: cs =>
    match hexValue h, hexValue l, unhex cs with
    | some h, some l, some bytes => some (UInt8.ofNat (16 * h + l) :: bytes)
    | _, _, _ => none

theorem hexValue_digitChar : ∀ n < 16, hexValue (Nat.digitChar n) = some n := by decide

/-- **Hexadecimal text reads back.** -/
theorem unhex_hexLower (bytes : List UInt8) : unhex (hexLower bytes).toList = some bytes := by
  rw [hexLower, String.toList_ofList]
  induction bytes with
  | nil => rfl
  | cons b bytes ih =>
    have hb := b.toNat_lt
    have hhigh := hexValue_digitChar (b.toNat / 16) (by omega)
    have hlow := hexValue_digitChar (b.toNat % 16) (by omega)
    have hbyte : 16 * (b.toNat / 16) + b.toNat % 16 = b.toNat := Nat.div_add_mod _ 16
    rw [List.flatMap_cons, hexPair, List.cons_append, List.cons_append, List.nil_append, unhex,
      hhigh, hlow, ih]
    dsimp only
    rw [hbyte, UInt8.ofNat_toNat]

/-! ## 2. What a digit can be -/

theorem exists_of_mem_hexLower {bytes : List UInt8} {c : Char} (h : c ∈ (hexLower bytes).toList) :
    ∃ n < 16, c = Nat.digitChar n := by
  rw [hexLower, String.toList_ofList, List.mem_flatMap] at h
  obtain ⟨b, -, hmem⟩ := h
  have hb := b.toNat_lt
  rw [hexPair, List.mem_pair] at hmem
  rcases hmem with h | h
  · exact ⟨b.toNat / 16, by omega, h⟩
  · exact ⟨b.toNat % 16, by omega, h⟩

/-- A character that is no digit is not in hexadecimal text. -/
theorem notMem_hexLower {c : Char} (hc : ∀ n < 16, c ≠ Nat.digitChar n) (bytes : List UInt8) :
    c ∉ (hexLower bytes).toList := by
  intro h
  obtain ⟨n, hn, hdigit⟩ := exists_of_mem_hexLower h
  exact hc n hn hdigit

theorem semicolon_notMem_hexLower (bytes : List UInt8) : ';' ∉ (hexLower bytes).toList :=
  notMem_hexLower (by decide) bytes

/-- The decimal text of a number has digits only. -/
theorem isDigit_of_mem_repr {n : ℕ} {c : Char} (h : c ∈ n.repr.toList) : c.isDigit = true := by
  rw [Nat.toList_repr] at h
  exact Nat.isDigit_of_mem_toDigits (by decide) (by decide) h

/-- A number has one spelling. -/
theorem repr_injective {m n : ℕ} (h : m.repr = n.repr) : m = n := by
  have hdigits := congrArg (fun s : String => Nat.ofDigitChars 10 s.toList 0) h
  simpa only [Nat.toList_repr, Nat.ofDigitChars_ten_toDigits] using hdigits

/-- The digits of a positive number have no zero in front. -/
theorem exists_head_repr {n : ℕ} (hpos : 0 < n) :
    ∃ c t, n.repr.toList = c :: t ∧ c ≠ '0' := by
  induction n using Nat.strongRecOn with
  | ind n ih =>
    by_cases hsmall : n < 10
    · have hall : ∀ n < 10, 0 < n → n.repr.toList.head? ≠ some '0' ∧ n.repr.toList ≠ [] := by
        decide
      obtain ⟨hhead, hne⟩ := hall n hsmall hpos
      obtain ⟨c, t, hct⟩ := List.exists_cons_of_ne_nil hne
      refine ⟨c, t, hct, ?_⟩
      rintro rfl
      exact hhead (by rw [hct]; rfl)
    · have hten : 10 ≤ n := Nat.le_of_not_lt hsmall
      obtain ⟨c, t, hct, hc⟩ := ih (n / 10) (Nat.div_lt_self hpos (by decide)) (by omega)
      refine ⟨c, t ++ (n % 10).repr.toList, ?_, hc⟩
      rw [Nat.repr_eq_repr_append_repr hten, String.toList_append, hct, List.cons_append]

theorem semicolon_notMem_repr (n : ℕ) : ';' ∉ n.repr.toList := by
  intro h
  exact absurd (isDigit_of_mem_repr h) (by decide)

/-! ## 3. Joining -/

/-- `parts.join(sep)`. -/
def join (sep : String) (parts : List String) : String :=
  String.ofList (List.intercalate sep.toList (parts.map String.toList))

theorem mem_intercalate {α : Type} {sep : List α} {x : α} : ∀ {parts : List (List α)},
    x ∈ List.intercalate sep parts → x ∈ sep ∨ ∃ s ∈ parts, x ∈ s
  | [], h => by simp [List.intercalate] at h
  | [s], h => by
    rw [List.intercalate_singleton] at h
    exact Or.inr ⟨s, List.mem_singleton_self s, h⟩
  | s :: t :: parts, h => by
    rw [List.intercalate_cons_cons, List.mem_append, List.mem_append] at h
    rcases h with (h | h) | h
    · exact Or.inr ⟨s, List.mem_cons_self, h⟩
    · exact Or.inl h
    · rcases mem_intercalate h with h | ⟨u, hu, h⟩
      · exact Or.inl h
      · exact Or.inr ⟨u, List.mem_cons_of_mem _ hu, h⟩

/-- What is in a joined text is in the separator or in a part. -/
theorem mem_join {sep : String} {parts : List String} {c : Char}
    (h : c ∈ (join sep parts).toList) : c ∈ sep.toList ∨ ∃ s ∈ parts, c ∈ s.toList := by
  rw [join, String.toList_ofList] at h
  rcases mem_intercalate h with h | ⟨s, hs, h⟩
  · exact Or.inl h
  · obtain ⟨t, ht, rfl⟩ := List.mem_map.mp hs
    exact Or.inr ⟨t, ht, h⟩

theorem mem_intercalate_of_mem {α : Type} {sep s : List α} {x : α} {parts : List (List α)}
    (hs : s ∈ parts) (hx : x ∈ s) : x ∈ List.intercalate sep parts := by
  induction parts with
  | nil => cases hs
  | cons part parts ih =>
    cases parts with
    | nil =>
      rw [List.intercalate_singleton]
      rwa [List.mem_singleton.mp hs] at hx
    | cons next parts =>
      rw [List.intercalate_cons_cons, List.mem_append, List.mem_append]
      rcases List.mem_cons.mp hs with rfl | hs
      · exact Or.inl (Or.inl hx)
      · exact Or.inr (ih hs)

/-- What is in a part is in the joined text. -/
theorem mem_join_of_mem {sep s : String} {parts : List String} {c : Char} (hs : s ∈ parts)
    (hc : c ∈ s.toList) : c ∈ (join sep parts).toList := by
  rw [join, String.toList_ofList]
  exact mem_intercalate_of_mem (List.mem_map_of_mem hs) hc

/-- A joined text begins with its first part. -/
theorem join_cons_ne_empty {sep part : String} (parts : List String) (h : part ≠ "") :
    join sep (part :: parts) ≠ "" := by
  intro hjoin
  have hnil : List.intercalate sep.toList (part.toList :: parts.map String.toList) = [] := by
    have := congrArg String.toList hjoin
    rwa [join, String.toList_ofList, List.map_cons, String.toList_empty] at this
  refine h (String.toList_eq_nil_iff.mp ?_)
  cases parts with
  | nil => rwa [List.map_nil, List.intercalate_singleton] at hnil
  | cons t parts =>
    rw [List.map_cons, List.intercalate_cons_cons, List.append_eq_nil_iff,
      List.append_eq_nil_iff] at hnil
    exact hnil.1.1

/-! ## 4. Splitting -/

section Splitting

variable {α : Type} [BEq α] [LawfulBEq α] {sep : α}

omit [LawfulBEq α] in
theorem length_splitOn_pos (sep : α) (s : List α) : 0 < (s.splitOn sep).length :=
  List.length_pos_of_ne_nil (List.splitOn_ne_nil sep s)

/-- Text that is one field holds no separator. -/
theorem notMem_of_length_splitOn {s : List α} (h : (s.splitOn sep).length = 1) : sep ∉ s := by
  intro hmem
  obtain ⟨a, b, rfl⟩ := List.append_of_mem hmem
  rw [List.splitOn_append_cons_self, List.length_append] at h
  have ha := length_splitOn_pos sep a
  have hb := length_splitOn_pos sep b
  omega

/-- A piece has no separator. -/
theorem notMem_of_mem_splitOn {sep : α} {s : List α} : ∀ {piece : List α},
    piece ∈ s.splitOn sep → sep ∉ piece := by
  induction s with
  | nil =>
    intro piece h
    rw [List.splitOn_nil, List.mem_singleton] at h
    rw [h]
    exact List.not_mem_nil
  | cons a s ih =>
    intro piece h
    rw [List.splitOn_cons_eq_if_modifyHead] at h
    split at h
    · rcases List.mem_cons.mp h with rfl | h
      · exact List.not_mem_nil
      · exact ih h
    · next hne =>
      obtain ⟨first, rest, hsplit⟩ := List.exists_cons_of_ne_nil (List.splitOn_ne_nil sep s)
      rw [hsplit, List.modifyHead_cons] at h
      rcases List.mem_cons.mp h with rfl | h
      · rw [List.mem_cons, not_or]
        refine ⟨fun heq => hne (by rw [heq]; exact beq_self_eq_true a), ih ?_⟩
        rw [hsplit]
        exact List.mem_cons_self
      · exact ih (by rw [hsplit]; exact List.mem_cons_of_mem _ h)

/-- What has no separator belongs to the first piece. -/
theorem splitOn_append_of_notMem {sep : α} {a : List α} (h : sep ∉ a) (s : List α) :
    (a ++ s).splitOn sep = (s.splitOn sep).modifyHead (a ++ ·) := by
  induction a with
  | nil =>
    obtain ⟨first, rest, hsplit⟩ := List.exists_cons_of_ne_nil (List.splitOn_ne_nil sep s)
    rw [List.nil_append, hsplit, List.modifyHead_cons, List.nil_append]
  | cons x a ih =>
    rw [List.mem_cons, not_or] at h
    obtain ⟨first, rest, hsplit⟩ := List.exists_cons_of_ne_nil (List.splitOn_ne_nil sep s)
    rw [List.cons_append, List.splitOn_cons_eq_if_modifyHead, if_neg (by simpa using Ne.symm h.1),
      ih h.2, hsplit]
    rfl

/-- A text begins with its first field. -/
theorem isPrefix_of_head_splitOn {s field : List α} (h : (s.splitOn sep).head? = some field) :
    field <+: s := by
  have hjoin : List.intercalate [sep] (s.splitOn sep) = s := List.intercalate_splitOn sep
  cases hfields : s.splitOn sep with
  | nil => exact absurd hfields (List.splitOn_ne_nil sep s)
  | cons first fields =>
    rw [hfields, List.head?_cons, Option.some_inj] at h
    rw [hfields, h] at hjoin
    cases fields with
    | nil =>
      rw [List.intercalate_singleton] at hjoin
      exact hjoin ▸ List.prefix_rfl
    | cons next fields =>
      rw [List.intercalate_cons_cons, List.append_assoc] at hjoin
      exact ⟨_, hjoin⟩

theorem splitOn_intercalate_cons (part next : List α) (parts : List (List α)) :
    (List.intercalate [sep] (part :: next :: parts)).splitOn sep =
      part.splitOn sep ++ (List.intercalate [sep] (next :: parts)).splitOn sep := by
  rw [List.intercalate_cons_cons, List.append_assoc, List.singleton_append,
    List.splitOn_append_cons_self]

/-- Joined parts are at least as many fields. -/
theorem length_le_length_splitOn (sep : α) (parts : List (List α)) :
    parts.length ≤ ((List.intercalate [sep] parts).splitOn sep).length := by
  induction parts with
  | nil => exact Nat.zero_le _
  | cons part parts ih =>
    have hpart := length_splitOn_pos sep part
    cases parts with
    | nil =>
      rw [List.intercalate_singleton]
      exact hpart
    | cons next parts =>
      rw [splitOn_intercalate_cons, List.length_append, List.length_cons]
      omega

theorem notMem_of_length_splitOn_intercalate {parts : List (List α)}
    (h : ((List.intercalate [sep] parts).splitOn sep).length = parts.length) :
    ∀ s ∈ parts, sep ∉ s := by
  induction parts with
  | nil =>
    intro s hs
    cases hs
  | cons part parts ih =>
    cases parts with
    | nil =>
      rw [List.intercalate_singleton] at h
      rw [List.forall_mem_singleton]
      exact notMem_of_length_splitOn h
    | cons next parts =>
      rw [splitOn_intercalate_cons, List.length_append, List.length_cons] at h
      have hpart := length_splitOn_pos sep part
      have hrest := length_le_length_splitOn sep (next :: parts)
      rw [List.forall_mem_cons]
      constructor
      · exact notMem_of_length_splitOn (by omega)
      · exact ih (by omega)

/-- **Joined parts are the fields as soon as the count of the fields is right.** A part with a
separator would make one more. -/
theorem splitOn_intercalate_of_length {parts : List (List α)} (hne : parts ≠ [])
    (h : ((List.intercalate [sep] parts).splitOn sep).length = parts.length) :
    (List.intercalate [sep] parts).splitOn sep = parts :=
  List.splitOn_intercalate sep (notMem_of_length_splitOn_intercalate h) hne

end Splitting

/-! ## 5. UTF-8 -/

/-- The bytes of a text read back. -/
theorem fromUTF8?_toUTF8 (s : String) : String.fromUTF8? s.toUTF8 = some s :=
  dif_pos s.isValidUTF8

/-- The size of a text is that of its characters. -/
theorem size_toUTF8 (s : List Char) :
    (String.ofList s).toUTF8.size = (s.map Char.utf8Size).sum := by
  induction s with
  | nil => rfl
  | cons c s ih =>
    have hcons : (String.ofList (c :: s)).toUTF8 =
        (String.ofList [c]).toUTF8 ++ (String.ofList s).toUTF8 := by simp
    rw [hcons, ByteArray.size_append, ih]
    simp [List.utf8Encode, ByteArray.size]

theorem size_toUTF8_le {s : List Char} {n : ℕ} (h : (s.map Char.utf8Size).sum ≤ n) :
    (String.ofList s).toUTF8.size ≤ n := by
  rwa [size_toUTF8]

end Lib
