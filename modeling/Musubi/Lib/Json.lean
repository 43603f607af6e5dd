/-
# JSON text

JSON values and the compact text a serializer writes them as: no white space, short escapes where
there are some, `\u00xx` for the other control characters and every other character as itself.
Numbers are natural numbers.

**The text determines the value** (`write_injective`).  No part of the proof reads text back: two
values with the same text start with the same character, so they are of one kind, and what follows
is decided from left to right.

Every statement on the way has "whatever follows it" in it, since a value in an array is followed
by a comma or a bracket.  Only a number needs to know what follows, as it does not say where it
ends (`Stop`).
-/
import Musubi.Lib.Text

namespace Lib

inductive Json
  | null
  | bool (b : Bool)
  | number (n : ℕ)
  | string (s : String)
  | array (items : List Json)
  | object (fields : List (String × Json))

namespace Json

/-! ## 1. Writing -/

/-- The characters with a short escape, and the letters that stand for them. -/
def shortEscapes : List (Char × Char) :=
  [('"', '"'), ('\\', '\\'), ('\x08', 'b'), ('\x09', 't'), ('\x0a', 'n'), ('\x0c', 'f'),
    ('\x0d', 'r')]

def escapeChar (c : Char) : List Char :=
  match shortEscapes.lookup c with
  | some e => ['\\', e]
  | none =>
    if c.toNat < 0x20 then
      ['\\', 'u', '0', '0', Nat.digitChar (c.toNat / 16), Nat.digitChar (c.toNat % 16)]
    else [c]

def writeString (s : String) : List Char := '"' :: (s.toList.flatMap escapeChar ++ ['"'])

mutual

def write : Json → List Char
  | null => "null".toList
  | bool true => "true".toList
  | bool false => "false".toList
  | number n => n.repr.toList
  | string s => writeString s
  | array [] => ['[', ']']
  | array (item :: items) => '[' :: (write item ++ writeItems items)
  | object [] => ['{', '}']
  | object ((key, value) :: fields) =>
    '{' :: (writeString key ++ ':' :: (write value ++ writeFields fields))

/-- The items after the first one, and the bracket. -/
def writeItems : List Json → List Char
  | [] => [']']
  | item :: items => ',' :: (write item ++ writeItems items)

/-- The fields after the first one, and the brace. -/
def writeFields : List (String × Json) → List Char
  | [] => ['}']
  | (key, value) :: fields =>
    ',' :: (writeString key ++ ':' :: (write value ++ writeFields fields))

end

/-! ## 2. Strings -/

/-- The character that a text of escapes starts with, and what follows it. -/
def unescapeHead : List Char → Option (Char × List Char)
  | '\\' :: 'u' :: '0' :: '0' :: h :: l :: s =>
    match hexValue h, hexValue l with
    | some h, some l => some (Char.ofNat (16 * h + l), s)
    | _, _ => none
  | '\\' :: e :: s => (shortEscapes.find? fun x => x.2 = e).map fun x => (x.1, s)
  | c :: s => some (c, s)
  | [] => none

theorem unescapeHead_escapeChar (c : Char) (s : List Char) :
    unescapeHead (escapeChar c ++ s) = some (c, s) := by
  have hshort : ∀ x ∈ shortEscapes, unescapeHead ('\\' :: x.2 :: s) = some (x.1, s) := by
    simp only [shortEscapes, List.forall_mem_cons]
    exact ⟨rfl, rfl, rfl, rfl, rfl, rfl, rfl, fun _ h => nomatch h⟩
  unfold escapeChar
  cases hlookup : shortEscapes.lookup c with
  | some e =>
    obtain ⟨front, back, hsplit, -⟩ := List.lookup_eq_some_iff.mp hlookup
    exact hshort (c, e) (hsplit ▸ List.mem_append_right _ List.mem_cons_self)
  | none =>
    simp only
    split
    · rename_i hcontrol
      have hhigh := hexValue_digitChar (c.toNat / 16) (by omega)
      have hlow := hexValue_digitChar (c.toNat % 16) (by omega)
      have hchar : 16 * (c.toNat / 16) + c.toNat % 16 = c.toNat := Nat.div_add_mod _ 16
      simp only [List.cons_append, List.nil_append, unescapeHead, hhigh, hlow, hchar,
        Char.ofNat_toNat]
    · have hbackslash : c ≠ '\\' := by
        rintro rfl
        exact absurd hlookup (by decide)
      rw [List.singleton_append, unescapeHead]
      · intro _ _ _ h
        exact absurd h hbackslash
      · intro _ _ h
        exact absurd h hbackslash

/-- The escape of a character is decided by what it starts. -/
theorem escapeChar_append_inj {c d : Char} {s t : List Char}
    (h : escapeChar c ++ s = escapeChar d ++ t) : c = d ∧ s = t := by
  have hread := unescapeHead_escapeChar c s
  rw [h, unescapeHead_escapeChar, Option.some_inj, Prod.mk.injEq] at hread
  exact ⟨hread.1.symm, hread.2.symm⟩

theorem quote_ne_escapeChar (c : Char) (s t : List Char) : '"' :: s ≠ escapeChar c ++ t := by
  intro h
  have hread := unescapeHead_escapeChar c t
  rw [← h, unescapeHead] at hread
  · cases hread
    have hquote : escapeChar '"' = ['\\', '"'] := rfl
    rw [hquote, List.cons_append, List.cons.injEq] at h
    exact absurd h.1 (by decide)
  · intro _ _ _ hbackslash
    exact absurd hbackslash (by decide)
  · intro _ _ hbackslash
    exact absurd hbackslash (by decide)

theorem escaped_append_inj {s : List Char} : ∀ {t r u : List Char},
    s.flatMap escapeChar ++ '"' :: r = t.flatMap escapeChar ++ '"' :: u → s = t ∧ r = u := by
  induction s with
  | nil =>
    intro t r u h
    cases t with
    | nil =>
      rw [List.flatMap_nil, List.nil_append, List.nil_append, List.cons.injEq] at h
      exact ⟨rfl, h.2⟩
    | cons d t =>
      rw [List.flatMap_cons, List.append_assoc] at h
      exact absurd h (quote_ne_escapeChar d r _)
  | cons c s ih =>
    intro t r u h
    rw [List.flatMap_cons, List.append_assoc] at h
    cases t with
    | nil => exact absurd h.symm (quote_ne_escapeChar c u _)
    | cons d t =>
      rw [List.flatMap_cons, List.append_assoc] at h
      obtain ⟨rfl, hrest⟩ := escapeChar_append_inj h
      obtain ⟨rfl, hr⟩ := ih hrest
      exact ⟨rfl, hr⟩

/-- **A string is decided by its text**, whatever follows it. -/
theorem writeString_append_inj {s t : String} {r u : List Char}
    (h : writeString s ++ r = writeString t ++ u) : s = t ∧ r = u := by
  unfold writeString at h
  rw [List.cons_append, List.cons_append, List.append_assoc, List.append_assoc,
    List.cons.injEq] at h
  obtain ⟨htext, hrest⟩ := escaped_append_inj h.2
  exact ⟨String.toList_injective htext, hrest⟩

/-! ## 3. Values -/

/-- What may follow a number. -/
def Stop (s : List Char) : Prop := ∀ c ∈ s.head?, c.isDigit = false

theorem repr_append_inj {n m : ℕ} {r u : List Char} (hr : Stop r) (hu : Stop u)
    (h : n.repr.toList ++ r = m.repr.toList ++ u) : n = m ∧ r = u := by
  have htake {k : ℕ} {s : List Char} (hs : Stop s) :
      (k.repr.toList ++ s).takeWhile Char.isDigit = k.repr.toList := by
    have hdigits : ∀ c ∈ k.repr.toList, c.isDigit = true := fun _ hc => isDigit_of_mem_repr hc
    rw [List.takeWhile_append_of_pos hdigits]
    cases s with
    | nil => rw [List.takeWhile_nil, List.append_nil]
    | cons c s =>
      have hc : ¬ c.isDigit = true := by
        rw [hs c rfl]
        exact Bool.false_ne_true
      rw [List.takeWhile_cons_of_neg hc, List.append_nil]
  have hdigits := htake (k := n) hr
  rw [h, htake hu] at hdigits
  rw [← hdigits, List.append_cancel_left_eq] at h
  have hvalue := congrArg (fun l => Nat.ofDigitChars 10 l 0) hdigits
  simp only [Nat.toList_repr, Nat.ofDigitChars_ten_toDigits] at hvalue
  exact ⟨hvalue.symm, h⟩

inductive Kind
  | null
  | yes
  | no
  | number
  | string
  | array
  | object

def kind : Json → Kind
  | null => .null
  | bool true => .yes
  | bool false => .no
  | number _ => .number
  | string _ => .string
  | array _ => .array
  | object _ => .object

/-- The kind of the values that start with that character. -/
def kindOf (c : Char) : Option Kind :=
  if c = 'n' then some .null
  else if c = 't' then some .yes
  else if c = 'f' then some .no
  else if c = '"' then some .string
  else if c = '[' then some .array
  else if c = '{' then some .object
  else if c.isDigit then some .number
  else none

theorem kindOf_write (v : Json) (r : List Char) :
    ∃ c s, write v ++ r = c :: s ∧ kindOf c = some v.kind := by
  cases v with
  | null => exact ⟨'n', _, rfl, rfl⟩
  | bool b =>
    cases b with
    | false => exact ⟨'f', _, rfl, rfl⟩
    | true => exact ⟨'t', _, rfl, rfl⟩
  | number n =>
    cases htext : n.repr.toList with
    | nil => exact absurd (Nat.toList_repr ▸ htext) (Nat.toDigits_ne_nil)
    | cons c s =>
      have hdigit : c.isDigit = true :=
        isDigit_of_mem_repr (n := n) (htext ▸ List.mem_cons_self)
      have hne : ∀ d, d.isDigit = false → c ≠ d := by
        rintro d hd rfl
        rw [hdigit] at hd
        cases hd
      refine ⟨c, s ++ r, by rw [write, htext, List.cons_append], ?_⟩
      unfold kindOf
      rw [if_neg (hne _ (by decide)), if_neg (hne _ (by decide)), if_neg (hne _ (by decide)),
        if_neg (hne _ (by decide)), if_neg (hne _ (by decide)), if_neg (hne _ (by decide)),
        if_pos hdigit]
      rfl
  | string s => exact ⟨'"', _, rfl, rfl⟩
  | array items =>
    cases items with
    | nil => exact ⟨'[', _, rfl, rfl⟩
    | cons item items => exact ⟨'[', _, rfl, rfl⟩
  | object fields =>
    cases fields with
    | nil => exact ⟨'{', _, rfl, rfl⟩
    | cons field fields => exact ⟨'{', _, rfl, rfl⟩

/-- Values whose texts begin alike are of one kind. -/
theorem kind_eq_of_write {v w : Json} {r u : List Char} (h : write v ++ r = write w ++ u) :
    v.kind = w.kind := by
  obtain ⟨c, s, hv, hkind⟩ := kindOf_write v r
  obtain ⟨d, t, hw, hkind'⟩ := kindOf_write w u
  rw [h, hw, List.cons.injEq] at hv
  rw [← hv.1, hkind', Option.some_inj] at hkind
  exact hkind.symm

/-- No value starts with a bracket that closes an array. -/
theorem bracket_ne_write (v : Json) (r s : List Char) : ']' :: s ≠ write v ++ r := by
  intro h
  obtain ⟨c, t, hv, hkind⟩ := kindOf_write v r
  rw [← h, List.cons.injEq] at hv
  rw [← hv.1] at hkind
  exact absurd hkind (by rintro ⟨⟩)

theorem stop_writeItems (items : List Json) (r : List Char) : Stop (writeItems items ++ r) := by
  cases items with
  | nil =>
    rintro c ⟨⟩
    rfl
  | cons item items =>
    rintro c ⟨⟩
    rfl

theorem stop_writeFields (fields : List (String × Json)) (r : List Char) :
    Stop (writeFields fields ++ r) := by
  cases fields with
  | nil =>
    rintro c ⟨⟩
    rfl
  | cons field fields =>
    rintro c ⟨⟩
    rfl

mutual

/-- **A value is decided by its text**, whatever follows it, unless a digit does. -/
theorem write_append_inj : ∀ (v w : Json) {r u : List Char}, Stop r → Stop u →
    write v ++ r = write w ++ u → v = w ∧ r = u
  | null, w, r, u, _, _, h => by
    have hkind := kind_eq_of_write h
    cases w with
    | null => exact ⟨rfl, List.append_cancel_left h⟩
    | bool b => cases b <;> cases hkind
    | _ => cases hkind
  | bool true, w, r, u, _, _, h => by
    have hkind := kind_eq_of_write h
    cases w with
    | bool b =>
      cases b with
      | true => exact ⟨rfl, List.append_cancel_left h⟩
      | false => cases hkind
    | _ => cases hkind
  | bool false, w, r, u, _, _, h => by
    have hkind := kind_eq_of_write h
    cases w with
    | bool b =>
      cases b with
      | true => cases hkind
      | false => exact ⟨rfl, List.append_cancel_left h⟩
    | _ => cases hkind
  | number n, w, r, u, hr, hu, h => by
    have hkind := kind_eq_of_write h
    cases w with
    | number m =>
      obtain ⟨rfl, hrest⟩ := repr_append_inj hr hu h
      exact ⟨rfl, hrest⟩
    | bool b => cases b <;> cases hkind
    | _ => cases hkind
  | string s, w, r, u, _, _, h => by
    have hkind := kind_eq_of_write h
    cases w with
    | string t =>
      obtain ⟨rfl, hrest⟩ := writeString_append_inj h
      exact ⟨rfl, hrest⟩
    | bool b => cases b <;> cases hkind
    | _ => cases hkind
  | array [], w, r, u, _, _, h => by
    have hkind := kind_eq_of_write h
    cases w with
    | array items =>
      cases items with
      | nil => exact ⟨rfl, List.append_cancel_left h⟩
      | cons item items =>
        simp only [write, List.cons_append, List.append_assoc, List.cons.injEq] at h
        exact absurd h.2 (bracket_ne_write item _ _)
    | bool b => cases b <;> cases hkind
    | _ => cases hkind
  | array (item :: items), w, r, u, _, _, h => by
    have hkind := kind_eq_of_write h
    cases w with
    | array items' =>
      cases items' with
      | nil =>
        simp only [write, List.cons_append, List.append_assoc, List.cons.injEq] at h
        exact absurd h.2.symm (bracket_ne_write item _ _)
      | cons item' items' =>
        rw [write, write, List.cons_append, List.cons_append, List.append_assoc,
          List.append_assoc, List.cons.injEq] at h
        obtain ⟨rfl, hitems⟩ := write_append_inj item item' (stop_writeItems _ _)
          (stop_writeItems _ _) h.2
        obtain ⟨rfl, hrest⟩ := writeItems_append_inj items items' hitems
        exact ⟨rfl, hrest⟩
    | bool b => cases b <;> cases hkind
    | _ => cases hkind
  | object [], w, r, u, _, _, h => by
    have hkind := kind_eq_of_write h
    cases w with
    | object fields =>
      cases fields with
      | nil => exact ⟨rfl, List.append_cancel_left h⟩
      | cons field fields =>
        simp only [write, List.cons_append, List.cons.injEq] at h
        exact absurd (List.cons.inj h.2).1 (by decide)
    | bool b => cases b <;> cases hkind
    | _ => cases hkind
  | object ((key, value) :: fields), w, r, u, _, _, h => by
    have hkind := kind_eq_of_write h
    cases w with
    | object fields' =>
      cases fields' with
      | nil =>
        simp only [write, List.cons_append, List.cons.injEq] at h
        exact absurd (List.cons.inj h.2).1 (by decide)
      | cons field' fields' =>
        obtain ⟨key', value'⟩ := field'
        rw [write, write, List.cons_append, List.cons_append, List.append_assoc,
          List.append_assoc, List.cons.injEq] at h
        obtain ⟨rfl, hvalue⟩ := writeString_append_inj h.2
        rw [List.cons_append, List.cons_append, List.append_assoc, List.append_assoc,
          List.cons.injEq] at hvalue
        obtain ⟨rfl, hfields⟩ := write_append_inj value value' (stop_writeFields _ _)
          (stop_writeFields _ _) hvalue.2
        obtain ⟨rfl, hrest⟩ := writeFields_append_inj fields fields' hfields
        exact ⟨rfl, hrest⟩
    | bool b => cases b <;> cases hkind
    | _ => cases hkind

theorem writeItems_append_inj : ∀ (items items' : List Json) {r u : List Char},
    writeItems items ++ r = writeItems items' ++ u → items = items' ∧ r = u
  | [], items', r, u, h => by
    cases items' with
    | nil => exact ⟨rfl, List.append_cancel_left h⟩
    | cons item' items' => exact absurd (List.cons.inj h).1 (by decide)
  | item :: items, items', r, u, h => by
    cases items' with
    | nil => exact absurd (List.cons.inj h).1 (by decide)
    | cons item' items' =>
      rw [writeItems, writeItems, List.cons_append, List.cons_append, List.append_assoc,
        List.append_assoc, List.cons.injEq] at h
      obtain ⟨rfl, hitems⟩ := write_append_inj item item' (stop_writeItems _ _)
        (stop_writeItems _ _) h.2
      obtain ⟨rfl, hrest⟩ := writeItems_append_inj items items' hitems
      exact ⟨rfl, hrest⟩

theorem writeFields_append_inj : ∀ (fields fields' : List (String × Json)) {r u : List Char},
    writeFields fields ++ r = writeFields fields' ++ u → fields = fields' ∧ r = u
  | [], fields', r, u, h => by
    cases fields' with
    | nil => exact ⟨rfl, List.append_cancel_left h⟩
    | cons field' fields' => exact absurd (List.cons.inj h).1 (by decide)
  | (key, value) :: fields, fields', r, u, h => by
    cases fields' with
    | nil => exact absurd (List.cons.inj h).1 (by decide)
    | cons field' fields' =>
      obtain ⟨key', value'⟩ := field'
      rw [writeFields, writeFields, List.cons_append, List.cons_append, List.append_assoc,
        List.append_assoc, List.cons.injEq] at h
      obtain ⟨rfl, hvalue⟩ := writeString_append_inj h.2
      rw [List.cons_append, List.cons_append, List.append_assoc, List.append_assoc,
        List.cons.injEq] at hvalue
      obtain ⟨rfl, hfields⟩ := write_append_inj value value' (stop_writeFields _ _)
        (stop_writeFields _ _) hvalue.2
      obtain ⟨rfl, hrest⟩ := writeFields_append_inj fields fields' hfields
      exact ⟨rfl, hrest⟩

end

/-- **The text determines the value.** -/
theorem write_injective : Function.Injective write := by
  intro v w h
  have hstop : Stop [] := by
    intro c hc
    cases hc
  have happend : write v ++ [] = write w ++ [] := congrArg (· ++ []) h
  exact (write_append_inj v w hstop hstop happend).1

end Json

end Lib
