/-
# Compact JSON texts

A value written without white space, and what a reader takes from a value: strings with their
escapes resolved, the fields of an object by their names, whole numbers.  A compact text is a text
of the grammar as soon as the lexemes in it are, and what was written into a record is read back
under the same name.

Values keep lexemes and not meanings, so "writing a number" is choosing a lexeme for it and
"reading" is what a client makes of the lexeme.  `Value.Everywhere` carries a condition through a
value, to the items of arrays and the members of objects; that lexemes are of the grammar and that
names are told apart are its two instances (`Value.Lexical`, `Value.UniqueKeys`).

A compact text is one line, whatever the strings in it are, since the body of a string has no
control characters (section 8).
-/
import Musubi.Lib.Json
import Musubi.Lib.JsonUnique
import Musubi.Lib.ParseInt
import Mathlib.Data.List.Nodup

namespace Lib.JsonText

/-! ## 1. Every value inside a value -/

mutual

/-- `p` holds of the value and of all values in it. -/
def Value.Everywhere (p : Value → Prop) : Value → Prop
  | .null => p .null
  | .bool b => p (.bool b)
  | .number t => p (.number t)
  | .string t => p (.string t)
  | .array items => p (.array items) ∧ EverywhereItems p items
  | .object members => p (.object members) ∧ EverywhereMembers p members

def EverywhereItems (p : Value → Prop) : List Value → Prop
  | [] => True
  | v :: vs => v.Everywhere p ∧ EverywhereItems p vs

def EverywhereMembers (p : Value → Prop) : List (List Char × Value) → Prop
  | [] => True
  | (_, v) :: ms => v.Everywhere p ∧ EverywhereMembers p ms

end

theorem everywhereItems_iff {p : Value → Prop} {vs : List Value} :
    EverywhereItems p vs ↔ ∀ v ∈ vs, v.Everywhere p := by
  induction vs with
  | nil => simp [EverywhereItems]
  | cons v vs ih => rw [EverywhereItems, ih, List.forall_mem_cons]

theorem everywhereMembers_iff {p : Value → Prop} {ms : List (List Char × Value)} :
    EverywhereMembers p ms ↔ ∀ m ∈ ms, m.2.Everywhere p := by
  induction ms with
  | nil => simp [EverywhereMembers]
  | cons m ms ih => rw [EverywhereMembers, ih, List.forall_mem_cons]

/-- The lexemes of the value itself are of the grammar. -/
def LexicalHere : Value → Prop
  | .number t => IsNumber t
  | .string t => Body t
  | .object members => ∀ m ∈ members, Body m.1
  | _ => True

/-- All lexemes are of the grammar. -/
def Value.Lexical (v : Value) : Prop := v.Everywhere LexicalHere

/-! ## 2. Writing -/

mutual

def Value.compact : Value → List Char
  | .null => ['n', 'u', 'l', 'l']
  | .bool true => ['t', 'r', 'u', 'e']
  | .bool false => ['f', 'a', 'l', 's', 'e']
  | .number t => t
  | .string t => '"' :: t ++ ['"']
  | .array items => '[' :: compactItems items ++ [']']
  | .object members => '{' :: compactMembers members ++ ['}']

def compactItems : List Value → List Char
  | [] => []
  | [v] => v.compact
  | v :: v' :: vs => v.compact ++ ',' :: compactItems (v' :: vs)

def compactMembers : List (List Char × Value) → List Char
  | [] => []
  | [(k, v)] => '"' :: k ++ '"' :: ':' :: v.compact
  | (k, v) :: m :: ms => '"' :: k ++ '"' :: ':' :: (v.compact ++ ',' :: compactMembers (m :: ms))

end

theorem isWs_nil : IsWs [] := by
  intro c hc
  cases hc

mutual

/-- **The compact text derives its value.** -/
theorem derives_compact : ∀ v : Value, v.Lexical → Derives (.value v) v.compact
  | .null, _ => .null
  | .bool true, _ => .yes
  | .bool false, _ => .no
  | .number _, h => .number h
  | .string _, h => .string h
  | .array [], _ => .emptyArray isWs_nil
  | .array (v :: vs), h =>
    .array (List.cons_ne_nil _ _) (derives_compactItems (v :: vs) (List.cons_ne_nil _ _) h.2)
  | .object [], _ => .emptyObject isWs_nil
  | .object (m :: ms), h =>
    .object (List.cons_ne_nil _ _)
      (derives_compactMembers (m :: ms) (List.cons_ne_nil _ _) h.1 h.2)

theorem derives_compactItems : ∀ vs : List Value, vs ≠ [] → EverywhereItems LexicalHere vs →
    Derives (.items vs) (compactItems vs)
  | [], hne, _ => absurd rfl hne
  | [v], _, h => by
    simpa [compactItems] using Derives.item isWs_nil (derives_compact v h.1) isWs_nil
  | v :: v' :: vs, _, h => by
    have hrest := derives_compactItems (v' :: vs) (List.cons_ne_nil _ _) h.2
    simpa [compactItems] using
      Derives.items isWs_nil (derives_compact v h.1) isWs_nil (List.cons_ne_nil _ _) hrest

theorem derives_compactMembers : ∀ ms : List (List Char × Value), ms ≠ [] →
    (∀ m ∈ ms, Body m.1) → EverywhereMembers LexicalHere ms →
      Derives (.members ms) (compactMembers ms)
  | [], hne, _, _ => absurd rfl hne
  | [(k, v)], _, hkeys, h => by
    have hk : Body k := hkeys _ List.mem_cons_self
    simpa [compactMembers] using
      Derives.member isWs_nil hk isWs_nil isWs_nil (derives_compact v h.1) isWs_nil
  | (k, v) :: m :: ms, _, hkeys, h => by
    have hk : Body k := hkeys _ List.mem_cons_self
    have hrest := derives_compactMembers (m :: ms) (List.cons_ne_nil _ _)
      (List.forall_mem_cons.mp hkeys).2 h.2
    simpa [compactMembers] using
      Derives.members isWs_nil hk isWs_nil isWs_nil (derives_compact v h.1) isWs_nil
        (List.cons_ne_nil _ _) hrest

end

theorem isText_compact {v : Value} (h : v.Lexical) : IsText v.compact v :=
  ⟨[], v.compact, [], isWs_nil, derives_compact v h, isWs_nil, by simp⟩

/-! ## 3. Strings -/

/-- The value of a hexadecimal digit in either case. -/
def hexDigitValue (c : Char) : Option ℕ :=
  if 'A' ≤ c ∧ c ≤ 'F' then some (c.toNat - 55) else hexValue c

/-- The code unit that four digits write. -/
def codeUnit (a b c d : Char) : Option ℕ := do
  let a ← hexDigitValue a
  let b ← hexDigitValue b
  let c ← hexDigitValue c
  let d ← hexDigitValue d
  pure (4096 * a + 256 * b + 16 * c + d)

/-- What a letter behind a backslash stands for. -/
def escapes : List (Char × Char) :=
  [('"', '"'), ('\\', '\\'), ('/', '/'), ('b', '\x08'), ('f', '\x0c'), ('n', '\n'), ('r', '\r'),
    ('t', '\t')]

/-- A character of a body, or a code unit. -/
inductive Piece
  | char (c : Char)
  | unit (n : ℕ)

def pieces : List Char → Option (List Piece)
  | [] => some []
  | c :: t =>
    if c = '\\' then
      match t with
      | [] => none
      | e :: t =>
        if e = 'u' then
          match t with
          | a :: b :: c :: d :: t =>
            (codeUnit a b c d).bind fun n => (pieces t).map (.unit n :: ·)
          | _ => none
        else (escapes.lookup e).bind fun c => (pieces t).map (.char c :: ·)
    else (pieces t).map (.char c :: ·)

/-- A code unit is a character, or the first of two that are one together; half a pair stands for
nothing. -/
def joinPieces : List Piece → Option (List Char)
  | [] => some []
  | .char c :: ps => (joinPieces ps).map (c :: ·)
  | .unit n :: ps =>
    if 0xDC00 ≤ n ∧ n < 0xE000 then none
    else if 0xD800 ≤ n ∧ n < 0xDC00 then
      match ps with
      | .unit low :: ps =>
        if 0xDC00 ≤ low ∧ low < 0xE000 then
          (joinPieces ps).map (Char.ofNat (0x10000 + 0x400 * (n - 0xD800) + (low - 0xDC00)) :: ·)
        else none
      | _ => none
    else (joinPieces ps).map (Char.ofNat n :: ·)

/-- The characters that a body stands for. -/
def unescape (t : List Char) : Option (List Char) := (pieces t).bind joinPieces

example : unescape "\\u00e9\\uD83D\\uDE00\\t\\/x".toList = some "é😀\t/x".toList ∧
    unescape "\\uDE00".toList = none := by decide +kernel

/-- A text as the body of a string. -/
def escape (s : String) : List Char := s.toList.flatMap Json.escapeChar

theorem pieces_plain {c : Char} (hc : c ≠ '\\') (t : List Char) :
    pieces (c :: t) = (pieces t).map (.char c :: ·) := by
  rw [pieces.eq_def]
  exact if_neg hc

theorem pieces_letter {e : Char} (he : e ≠ 'u') (t : List Char) :
    pieces ('\\' :: e :: t) = (escapes.lookup e).bind fun c => (pieces t).map (.char c :: ·) := by
  rw [pieces.eq_def]
  exact if_neg he

theorem pieces_unit (a b c d : Char) (t : List Char) :
    pieces ('\\' :: 'u' :: a :: b :: c :: d :: t) =
      (codeUnit a b c d).bind fun n => (pieces t).map (.unit n :: ·) := by
  rw [pieces.eq_def]
  rfl

theorem joinPieces_unit {n : ℕ} (hn : n < 0xD800) (ps : List Piece) :
    joinPieces (.unit n :: ps) = (joinPieces ps).map (Char.ofNat n :: ·) := by
  rw [joinPieces.eq_def]
  dsimp only
  rw [if_neg (by omega), if_neg (by omega)]

theorem unescape_escapeChar (c : Char) (t : List Char) :
    unescape (Json.escapeChar c ++ t) = (unescape t).map (c :: ·) := by
  have hshort : ∀ x ∈ Json.shortEscapes, x.2 ≠ 'u' ∧ escapes.lookup x.2 = some x.1 := by decide
  have hchar {c : Char} : ((pieces t).map (Piece.char c :: ·)).bind joinPieces =
      (unescape t).map (c :: ·) := by
    unfold unescape
    cases pieces t <;> rfl
  unfold Json.escapeChar
  cases hlookup : Json.shortEscapes.lookup c with
  | some e =>
    obtain ⟨front, back, hsplit, -⟩ := List.lookup_eq_some_iff.mp hlookup
    obtain ⟨hne, hmeans⟩ := hshort (c, e) (hsplit ▸ List.mem_append_right _ List.mem_cons_self)
    rw [unescape, List.cons_append, List.singleton_append, pieces_letter hne, hmeans,
      Option.bind_some, hchar]
  | none =>
    simp only
    split
    · next hcontrol =>
      have hdigit : ∀ n < 16, hexDigitValue (Nat.digitChar n) = some n := by decide
      have hunit : codeUnit '0' '0' (Nat.digitChar (c.toNat / 16))
          (Nat.digitChar (c.toNat % 16)) = some c.toNat := by
        have hzero : hexDigitValue '0' = some 0 := by decide
        unfold codeUnit
        rw [hzero, hdigit _ (by omega), hdigit _ (by omega)]
        simp only [Option.bind_eq_bind, Option.bind_some, Option.pure_def, Option.some.injEq]
        omega
      simp only [unescape, List.cons_append, List.nil_append, pieces_unit, hunit,
        Option.bind_some]
      cases pieces t with
      | none => rfl
      | some ps =>
        rw [Option.map_some, Option.bind_some, joinPieces_unit (by omega), Char.ofNat_toNat,
          Option.bind_some]
    · have hbackslash : c ≠ '\\' := by
        rintro rfl
        exact absurd hlookup (by decide)
      rw [List.singleton_append, unescape, pieces_plain hbackslash, hchar]

/-- **A text is read back from its body.** A character beyond the first plane may stand in a body
as two code units, and is read as one character then. -/
theorem unescape_escape (s : String) : unescape (escape s) = some s.toList := by
  unfold escape
  induction s.toList with
  | nil => rfl
  | cons c cs ih => rw [List.flatMap_cons, unescape_escapeChar, ih, Option.map_some]

theorem body_escapeChar (c : Char) {t : List Char} (ht : Body t) :
    Body (Json.escapeChar c ++ t) := by
  have hshort : ∀ x ∈ Json.shortEscapes, x.2 ∈ escapeLetters := by decide
  unfold Json.escapeChar
  cases hlookup : Json.shortEscapes.lookup c with
  | some e =>
    obtain ⟨front, back, hsplit, -⟩ := List.lookup_eq_some_iff.mp hlookup
    exact .escape (hshort (c, e) (hsplit ▸ List.mem_append_right _ List.mem_cons_self)) ht
  | none =>
    simp only
    split
    · next hcontrol =>
      have hdigit : ∀ n < 16, isHexDigit (Nat.digitChar n) = true := by decide
      refine .unicode ?_ ht
      simp only [List.forall_mem_cons]
      exact ⟨by decide, by decide, hdigit _ (by omega), hdigit _ (by omega),
        fun _ h => nomatch h⟩
    · next hcontrol =>
      refine .plain ?_ ?_ (Nat.le_of_not_lt hcontrol) ht
      · rintro rfl
        exact absurd hlookup (by decide)
      · rintro rfl
        exact absurd hlookup (by decide)

theorem body_escape (s : String) : Body (escape s) := by
  unfold escape
  induction s.toList with
  | nil => exact .nil
  | cons c cs ih => exact body_escapeChar c ih

/-! ## 4. Reading values -/

def Value.asText : Value → Option String
  | .string t => (unescape t).map String.ofList
  | _ => none

def Value.asBool : Value → Option Bool
  | .bool b => some b
  | _ => none

def Value.asU64 : Value → Option UInt64
  | .number t => parseU64 t
  | _ => none

def Value.asU32 (v : Value) : Option UInt32 :=
  v.asU64.bind fun n => if n.toNat < 2 ^ 32 then some n.toUInt32 else none

def Value.asI64 : Value → Option Int64
  | .number t => parseI64 t
  | _ => none

/-- The field of that name. -/
def Value.field (key : String) : Value → Option Value
  | .object members => (members.find? fun m => unescape m.1 = some key.toList).map Prod.snd
  | _ => none

section

variable {α : Type}

/-- `null` is nothing; anything else is read. -/
def Value.nullable (read : Value → Option α) : Value → Option (Option α)
  | .null => some none
  | v => (read v).map some

def Value.elements (read : Value → Option α) : Value → Option (List α)
  | .array items => items.mapM read
  | _ => none

/-- All fields with their names. -/
def Value.entries (read : Value → Option α) : Value → Option (List (String × α))
  | .object members => members.mapM fun m =>
    (unescape m.1).bind fun k => (read m.2).map fun x => (String.ofList k, x)
  | _ => none

end

/-- No two fields of the object have one name. -/
def UniqueHere : Value → Prop
  | .object members => (members.map fun m => unescape m.1).Nodup
  | _ => True

/-- No object in the value has two fields of one name. -/
def Value.UniqueKeys (v : Value) : Prop := v.Everywhere UniqueHere

/-! ## 5. Writing values -/

def text (s : String) : Value := .string (escape s)

/-- A natural number by its digits. -/
def natural (n : ℕ) : Value := .number n.repr.toList

def integer (n : ℤ) : Value := .number n.repr.toList

def list (items : List Value) : Value := .array items

/-- An object with those names. -/
def record (fields : List (String × Value)) : Value :=
  .object (fields.map fun x => (escape x.1, x.2))

/-- `null` for nothing. -/
def optional {α : Type} (write : α → Value) : Option α → Value
  | none => .null
  | some x => write x

/-- Lexemes of the grammar, and names that are told apart. -/
structure Value.WellFormed (v : Value) : Prop where
  lexical : v.Lexical
  unique : v.UniqueKeys

theorem wellFormed_null : Value.WellFormed .null := ⟨trivial, trivial⟩

theorem wellFormed_bool (b : Bool) : (Value.bool b).WellFormed := ⟨trivial, trivial⟩

theorem wellFormed_number {t : List Char} (h : IsNumber t) : (Value.number t).WellFormed :=
  ⟨h, trivial⟩

theorem wellFormed_text (s : String) : (text s).WellFormed := ⟨body_escape s, trivial⟩

theorem isInt_repr (n : ℕ) : IsInt n.repr.toList := by
  by_cases hzero : n = 0
  · subst hzero
    exact .zero
  · obtain ⟨c, t, hct, hc⟩ := exists_head_repr (Nat.pos_of_ne_zero hzero)
    have hdigits : ∀ d ∈ c :: t, d.isDigit = true := fun d hd => isDigit_of_mem_repr (hct ▸ hd)
    rw [List.forall_mem_cons] at hdigits
    rw [hct]
    exact .digits hdigits.1 hc hdigits.2

theorem wellFormed_natural (n : ℕ) : (natural n).WellFormed :=
  wellFormed_number ⟨[], _, [], [], .inl rfl, isInt_repr n, .none, .none, by simp⟩

theorem wellFormed_integer (n : ℤ) : (integer n).WellFormed := by
  cases n with
  | ofNat n => exact wellFormed_natural n
  | negSucc n =>
    exact wellFormed_number
      ⟨['-'], _, [], [], .inr rfl, isInt_repr (n + 1), .none, .none, by
        simp [toList_repr_negSucc]⟩

theorem wellFormed_optional {α : Type} {write : α → Value} (h : ∀ x, (write x).WellFormed)
    (x : Option α) : (optional write x).WellFormed := by
  cases x with
  | none => exact wellFormed_null
  | some x => exact h x

theorem wellFormed_list {items : List Value} (h : ∀ v ∈ items, v.WellFormed) :
    (list items).WellFormed :=
  ⟨⟨trivial, everywhereItems_iff.mpr fun v hv => (h v hv).lexical⟩,
    ⟨trivial, everywhereItems_iff.mpr fun v hv => (h v hv).unique⟩⟩

theorem wellFormed_record {fields : List (String × Value)} (hnames : (fields.map Prod.fst).Nodup)
    (h : ∀ x ∈ fields, x.2.WellFormed) : (record fields).WellFormed := by
  have hmem {p : Value → Prop} (hp : ∀ x ∈ fields, x.2.Everywhere p) :
      EverywhereMembers p (fields.map fun x => (escape x.1, x.2)) := by
    rw [everywhereMembers_iff, List.forall_mem_map]
    exact hp
  refine ⟨⟨?_, hmem fun x hx => (h x hx).lexical⟩, ⟨?_, hmem fun x hx => (h x hx).unique⟩⟩
  · rw [LexicalHere, List.forall_mem_map]
    exact fun x _ => body_escape x.1
  · have hkeys : (fields.map fun x => (escape x.1, x.2)).map (fun m => unescape m.1) =
        (fields.map Prod.fst).map fun k => some k.toList := by
      rw [List.map_map, List.map_map]
      exact List.map_congr_left fun x _ => unescape_escape x.1
    rw [UniqueHere, hkeys]
    exact List.Nodup.map (fun _ _ heq => String.toList_injective (Option.some.inj heq)) hnames

/-! ## 6. What is written is read -/

@[simp] theorem asText_text (s : String) : (text s).asText = some s := by
  rw [text, Value.asText, unescape_escape, Option.map_some, String.ofList_toList]

@[simp] theorem asBool_bool (b : Bool) : (Value.bool b).asBool = some b := rfl

@[simp] theorem asU64_natural (n : UInt64) : (natural n.toNat).asU64 = some n := parseU64_repr n

@[simp] theorem asU32_natural (n : UInt32) : (natural n.toNat).asU32 = some n := by
  have hwide : (natural n.toNat).asU64 = some n.toUInt64 := by
    rw [← asU64_natural n.toUInt64, UInt32.toNat_toUInt64]
  rw [Value.asU32, hwide, Option.bind_some, if_pos (by simpa using n.toNat_lt),
    UInt32.toUInt32_toUInt64]

@[simp] theorem asI64_integer (n : Int64) : (integer n.toInt).asI64 = some n := parseI64_repr n

/-- **A field is read under its name.** -/
@[simp] theorem field_record (fields : List (String × Value)) (key : String) :
    (record fields).field key = fields.lookup key := by
  rw [record, Value.field]
  induction fields with
  | nil => rfl
  | cons x fields ih =>
    rw [List.map_cons, List.find?_cons, unescape_escape, List.lookup_cons]
    by_cases hkey : key = x.1
    · have hsame : (key == x.1) = true := beq_iff_eq.mpr hkey
      rw [hsame, hkey, decide_eq_true rfl]
      rfl
    · have hother : (key == x.1) = false := beq_eq_false_iff_ne.mpr hkey
      have hne : ¬ some x.1.toList = some key.toList := fun heq =>
        hkey (String.toList_injective (Option.some.inj heq).symm)
      rw [hother, decide_eq_false hne]
      exact ih

section

variable {α : Type} {read : Value → Option α} {write : α → Value}

theorem nullable_optional {x : Option α} (h : ∀ y, read (write y) = some y)
    (hnull : ∀ y, write y ≠ .null) : (optional write x).nullable read = some x := by
  cases x with
  | none => rfl
  | some y =>
    have hread : (write y).nullable read = (read (write y)).map some := by
      cases hw : write y with
      | null => exact absurd hw (hnull y)
      | _ => rfl
    rw [optional, hread, h, Option.map_some]

theorem mapM_eq_some {β : Type} {f : α → Option β} {g : α → β} {xs : List α}
    (h : ∀ x ∈ xs, f x = some (g x)) : xs.mapM f = some (xs.map g) := by
  induction xs with
  | nil => rfl
  | cons x xs ih =>
    rw [List.forall_mem_cons] at h
    simp [List.mapM_cons, h.1, ih h.2]

theorem elements_list {xs : List α} (h : ∀ x ∈ xs, read (write x) = some x) :
    (list (xs.map write)).elements read = some xs := by
  rw [list, Value.elements, List.mapM_map]
  exact (mapM_eq_some h).trans (by rw [List.map_id'])

theorem entries_record {es : List (String × α)} (h : ∀ x ∈ es, read (write x.2) = some x.2) :
    (record (es.map fun x => (x.1, write x.2))).entries read = some es := by
  rw [record, Value.entries, List.map_map, List.mapM_map]
  refine (mapM_eq_some (g := id) fun x hx => ?_).trans (by rw [List.map_id])
  simp only [Function.comp_apply, unescape_escape, Option.bind_some, h x hx, Option.map_some,
    String.ofList_toList, id]

end

/-! ## 7. Compact texts of records -/

theorem compactItems_eq (vs : List Value) :
    compactItems vs = [','].intercalate (vs.map Value.compact) := by
  induction vs with
  | nil => rfl
  | cons v vs ih =>
    cases vs with
    | nil => simp [compactItems]
    | cons v' vs => simp [compactItems, ih]

/-- A name and its value. -/
def compactMember (x : String × Value) : List Char := '"' :: escape x.1 ++ '"' :: ':' :: x.2.compact

theorem compact_record (fields : List (String × Value)) : (record fields).compact =
    '{' :: [','].intercalate (fields.map compactMember) ++ ['}'] := by
  have hmembers : compactMembers (fields.map fun x => (escape x.1, x.2)) =
      [','].intercalate (fields.map compactMember) := by
    induction fields with
    | nil => rfl
    | cons x fields ih =>
      cases fields with
      | nil => simp [compactMembers, compactMember]
      | cons y fields => simp_all [compactMembers, compactMember]
  rw [record, Value.compact, hmembers]

/-! ## 8. No control characters -/

/-- What the compact texts are made of. -/
def Printable (t : List Char) : Prop := ∀ c ∈ t, 0x20 ≤ c.toNat

theorem Printable.append {t u : List Char} (ht : Printable t) (hu : Printable u) :
    Printable (t ++ u) :=
  List.forall_mem_append.mpr ⟨ht, hu⟩

theorem Printable.cons {c : Char} {t : List Char} (hc : 0x20 ≤ c.toNat) (ht : Printable t) :
    Printable (c :: t) :=
  List.forall_mem_cons.mpr ⟨hc, ht⟩

theorem printable_body {t : List Char} (h : Body t) : Printable t := by
  induction h with
  | nil => exact fun _ hc => nomatch hc
  | plain _ _ hcontrol _ ih => exact ih.cons hcontrol
  | escape he _ ih =>
    have hletters : ∀ e ∈ escapeLetters, 0x20 ≤ e.toNat :=
      List.all_iff_forall_prop.mp (by decide)
    exact (ih.cons (hletters _ he)).cons (by decide)
  | unicode hs _ ih =>
    have hhex {c : Char} (hc : isHexDigit c = true) : 0x20 ≤ c.toNat := by
      simp only [isHexDigit, Char.isDigit, Bool.or_eq_true, Bool.and_eq_true, decide_eq_true_eq,
        Char.le_def, UInt32.le_iff_toNat_le] at hc
      have h0 : '0'.val.toNat = 48 := rfl
      have ha : 'a'.val.toNat = 97 := rfl
      have hA : 'A'.val.toNat = 65 := rfl
      have htoNat : c.val.toNat = c.toNat := rfl
      omega
    simp only [List.forall_mem_cons] at hs
    exact ((((ih.cons (hhex hs.2.2.2.1)).cons (hhex hs.2.2.1)).cons (hhex hs.2.1)).cons
      (hhex hs.1)).cons (by decide) |>.cons (by decide)

theorem printable_number {t : List Char} (h : IsNumber t) : Printable t := by
  intro c hc
  have hnumber := h.chars.2 c hc
  rw [isNumberChar, Bool.or_eq_true, decide_eq_true_eq] at hnumber
  rcases hnumber with hdigit | hmem
  · simp only [Char.isDigit, Bool.and_eq_true, decide_eq_true_eq, UInt32.le_iff_toNat_le] at hdigit
    have h0 : '0'.val.toNat = 48 := rfl
    have htoNat : c.val.toNat = c.toNat := rfl
    omega
  · have hsigns : ∀ e ∈ ['-', '+', '.', 'e', 'E'], 0x20 ≤ e.toNat :=
      List.all_iff_forall_prop.mp (by decide)
    exact hsigns c hmem

mutual

/-- **A compact text is one line.** -/
theorem printable_compact : ∀ v : Value, v.Lexical → Printable v.compact
  | .null, _ => List.all_iff_forall_prop.mp (by decide)
  | .bool true, _ => List.all_iff_forall_prop.mp (by decide)
  | .bool false, _ => List.all_iff_forall_prop.mp (by decide)
  | .number _, h => printable_number h
  | .string _, h =>
    ((printable_body h).cons (by decide)).append (List.all_iff_forall_prop.mp (by decide))
  | .array vs, h =>
    ((printable_compactItems vs h.2).cons (by decide)).append
      (List.all_iff_forall_prop.mp (by decide))
  | .object ms, h =>
    ((printable_compactMembers ms h.1 h.2).cons (by decide)).append
      (List.all_iff_forall_prop.mp (by decide))

theorem printable_compactItems : ∀ vs : List Value, EverywhereItems LexicalHere vs →
    Printable (compactItems vs)
  | [], _ => fun _ hc => nomatch hc
  | [v], h => printable_compact v h.1
  | v :: v' :: vs, h =>
    (printable_compact v h.1).append ((printable_compactItems (v' :: vs) h.2).cons (by decide))

theorem printable_compactMembers : ∀ ms : List (List Char × Value), (∀ m ∈ ms, Body m.1) →
    EverywhereMembers LexicalHere ms → Printable (compactMembers ms)
  | [], _, _ => fun _ hc => nomatch hc
  | [(k, v)], hkeys, h =>
    ((printable_body (hkeys _ List.mem_cons_self)).cons (by decide)).append
      (((printable_compact v h.1).cons (by decide)).cons (by decide))
  | (k, v) :: m :: ms, hkeys, h => by
    have hrest := printable_compactMembers (m :: ms) (List.forall_mem_cons.mp hkeys).2 h.2
    exact ((printable_body (hkeys _ List.mem_cons_self)).cons (by decide)).append
      ((((printable_compact v h.1).append (hrest.cons (by decide))).cons (by decide)).cons
        (by decide))

end

end Lib.JsonText
