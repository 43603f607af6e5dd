/-
# A JSON text is one value

The grammar of JSON is not ambiguous: a text that it derives is the text of one value, lexeme by
lexeme, so whoever decodes the text by the grammar finds the same value.  What is shown is more:
the end of a value within a text is where only one reading has it.  A string ends at its quote and
a container at its bracket; a number ends where no character of a number follows, and none follows
it in a container or at the end of a text.

The induction is over the first derivation, with the second one arbitrary.  `Unique` is stated for
each kind of node, with what may follow it, because a value alone does not determine where it ends
if it is a number, and the items of an array do, as a bracket has to follow.

The last section is for texts of which the beginning is known: the members that stand there are
the members that were written there, and what is left is the text of the others.
-/
import Mathlib.Data.Bool.AllAny
import Mathlib.Data.List.TakeWhile
import Musubi.Lib.JsonText

namespace Lib.JsonText

/-! ## 1. Where a token ends -/

/-- A prefix of characters of one kind that no other one of them follows is the longest. -/
theorem prefix_unique {p : Char → Bool} {t t' r r' : List Char} (ht : ∀ c ∈ t, p c = true)
    (ht' : ∀ c ∈ t', p c = true) (hr : ∀ c ∈ r.head?, p c = false)
    (hr' : ∀ c ∈ r'.head?, p c = false) (h : t ++ r = t' ++ r') : t = t' ∧ r = r' := by
  have hstop {r : List Char} (hr : ∀ c ∈ r.head?, p c = false) : r.takeWhile p = [] := by
    cases r with
    | nil => rfl
    | cons c r => rw [List.takeWhile_cons_of_neg (by simp [hr c rfl])]
  have htake := congrArg (List.takeWhile p) h
  rw [List.takeWhile_append_of_pos ht, List.takeWhile_append_of_pos ht', hstop hr, hstop hr',
    List.append_nil, List.append_nil] at htake
  subst htake
  exact ⟨rfl, List.append_cancel_left h⟩

def isNumberChar (c : Char) : Bool := c.isDigit || c ∈ ['-', '+', '.', 'e', 'E']

/-- What follows a number. -/
def Stops (r : List Char) : Prop := ∀ c ∈ r.head?, isNumberChar c = false

theorem isNumberChar_of_isDigit {c : Char} (h : c.isDigit = true) : isNumberChar c = true := by
  rw [isNumberChar, h, Bool.true_or]

/-- A number begins with a digit or a minus sign, and has no other characters than those of
numbers. -/
theorem IsNumber.chars {t : List Char} (h : IsNumber t) :
    (∃ c t', t = c :: t' ∧ (c.isDigit = true ∨ c = '-')) ∧ ∀ c ∈ t, isNumberChar c = true := by
  obtain ⟨sign, int, fraction, exponent, hsign, hint, hfraction, hexponent, rfl⟩ := h
  have hsigns : ∀ c ∈ sign, isNumberChar c = true := by
    rcases hsign with rfl | rfl
    · exact fun _ h => nomatch h
    · exact List.all_iff_forall_prop.mp (by decide)
  have hints : (∃ c t', int = c :: t' ∧ c.isDigit = true) ∧
      ∀ c ∈ int, isNumberChar c = true := by
    cases hint with
    | zero => exact ⟨⟨'0', [], rfl, rfl⟩, List.all_iff_forall_prop.mp (by decide)⟩
    | digits hc _ ht =>
      refine ⟨⟨_, _, rfl, hc⟩, List.forall_mem_cons.mpr ⟨isNumberChar_of_isDigit hc, ?_⟩⟩
      exact fun d hd => isNumberChar_of_isDigit (ht d hd)
  have hfractions : ∀ c ∈ fraction, isNumberChar c = true := by
    cases hfraction with
    | none => exact fun _ h => nomatch h
    | digits ht =>
      refine List.forall_mem_cons.mpr ⟨by decide, ?_⟩
      exact fun d hd => isNumberChar_of_isDigit (ht.2 d hd)
  have hexponents : ∀ c ∈ exponent, isNumberChar c = true := by
    cases hexponent with
    | none => exact fun _ h => nomatch h
    | digits he hsign ht =>
      refine List.forall_mem_cons.mpr ⟨?_, List.forall_mem_append.mpr ⟨?_, ?_⟩⟩
      · rcases he with rfl | rfl <;> decide
      · rcases hsign with rfl | rfl | rfl
        · exact fun _ h => nomatch h
        · exact List.all_iff_forall_prop.mp (by decide)
        · exact List.all_iff_forall_prop.mp (by decide)
      · exact fun d hd => isNumberChar_of_isDigit (ht.2 d hd)
  refine ⟨?_, ?_⟩
  · obtain ⟨⟨c, t', rfl, hc⟩, -⟩ := hints
    rcases hsign with rfl | rfl
    · exact ⟨c, _, rfl, Or.inl hc⟩
    · exact ⟨'-', _, rfl, Or.inr rfl⟩
  · simp only [List.forall_mem_append]
    exact ⟨⟨⟨hsigns, hints.2⟩, hfractions⟩, hexponents⟩

/-- **A string ends at the first quote that is not escaped.** -/
theorem Body.unique {t t' r r' : List Char} (ht : Body t) (ht' : Body t')
    (h : t ++ '"' :: r = t' ++ '"' :: r') : t = t' ∧ r = r' := by
  induction ht generalizing t' with
  | nil =>
    cases ht' with
    | nil => exact ⟨rfl, (List.cons.inj h).2⟩
    | plain hquote => exact absurd (List.cons.inj h).1.symm hquote
    | escape => exact absurd (List.cons.inj h).1 (by decide)
    | unicode => exact absurd (List.cons.inj h).1 (by decide)
  | plain hquote hbackslash _ _ ih =>
    cases ht' with
    | nil => exact absurd (List.cons.inj h).1 hquote
    | plain _ _ _ ht' =>
      obtain ⟨rfl, htail⟩ := List.cons.inj h
      obtain ⟨rfl, hr⟩ := ih ht' htail
      exact ⟨rfl, hr⟩
    | escape => exact absurd (List.cons.inj h).1 hbackslash
    | unicode => exact absurd (List.cons.inj h).1 hbackslash
  | escape he _ ih =>
    cases ht' with
    | nil => exact absurd (List.cons.inj h).1 (by decide)
    | plain _ hbackslash => exact absurd (List.cons.inj h).1.symm hbackslash
    | escape _ ht' =>
      obtain ⟨rfl, htail⟩ := List.cons.inj (List.cons.inj h).2
      obtain ⟨rfl, hr⟩ := ih ht' htail
      exact ⟨rfl, hr⟩
    | unicode =>
      rw [(List.cons.inj (List.cons.inj h).2).1] at he
      exact absurd he (by decide)
  | unicode _ _ ih =>
    cases ht' with
    | nil => exact absurd (List.cons.inj h).1 (by decide)
    | plain _ hbackslash => exact absurd (List.cons.inj h).1.symm hbackslash
    | escape he =>
      rw [← (List.cons.inj (List.cons.inj h).2).1] at he
      exact absurd he (by decide)
    | unicode _ ht' =>
      simp only [List.cons_append, List.cons.injEq, true_and] at h
      obtain ⟨rfl, rfl, rfl, rfl, htail⟩ := h
      obtain ⟨rfl, hr⟩ := ih ht' htail
      exact ⟨rfl, hr⟩

/-- White space before a token is all that stands there. -/
theorem IsWs.unique {w w' : List Char} {c c' : Char} {r r' : List Char} (hw : IsWs w)
    (hw' : IsWs w') (hc : isWs c = false) (hc' : isWs c' = false)
    (h : w ++ c :: r = w' ++ c' :: r') : w = w' ∧ c = c' ∧ r = r' := by
  have hhead {c : Char} {r : List Char} (hc : isWs c = false) :
      ∀ d ∈ (c :: r).head?, isWs d = false := by
    intro d hd
    obtain rfl := Option.some.inj hd
    exact hc
  obtain ⟨heq, hrest⟩ := prefix_unique hw hw' (hhead hc) (hhead hc') h
  exact ⟨heq, List.cons.inj hrest⟩

/-! ## 2. How a value begins -/

inductive Kind
  | null
  | yes
  | no
  | number
  | string
  | array
  | object
deriving DecidableEq

def Value.kind : Value → Kind
  | .null => .null
  | .bool b => if b then .yes else .no
  | .number _ => .number
  | .string _ => .string
  | .array _ => .array
  | .object _ => .object

/-- The kind of value that a character begins. -/
def kindOf (c : Char) : Option Kind :=
  if c = 'n' then some .null
  else if c = 't' then some .yes
  else if c = 'f' then some .no
  else if c = '"' then some .string
  else if c = '[' then some .array
  else if c = '{' then some .object
  else if c.isDigit ∨ c = '-' then some .number
  else none

theorem kindOf_number {c : Char} (h : c.isDigit = true ∨ c = '-') : kindOf c = some .number := by
  have hne (d : Char) (hd : d.isDigit = false ∧ d ≠ '-') : c ≠ d := by
    rintro rfl
    rcases h with h | h
    · rw [h] at hd
      exact Bool.noConfusion hd.1
    · exact hd.2 h
  rw [kindOf, if_neg (hne _ (by decide)), if_neg (hne _ (by decide)), if_neg (hne _ (by decide)),
    if_neg (hne _ (by decide)), if_neg (hne _ (by decide)), if_neg (hne _ (by decide)), if_pos h]

theorem isWs_of_kindOf {c : Char} {k : Kind} (h : kindOf c = some k) : isWs c = false := by
  rw [Bool.eq_false_iff]
  intro hws
  have hnone : ∀ d ∈ [' ', '\t', '\n', '\r'], kindOf d = none :=
    List.all_iff_forall_prop.mp (by decide)
  have hmem : c ∈ [' ', '\t', '\n', '\r'] := by
    simpa [isWs, or_assoc] using hws
  rw [hnone c hmem] at h
  cases h

/-- **The first character of a value tells its kind.** -/
theorem Derives.head {v : Value} {t : List Char} (h : Derives (.value v) t) :
    ∃ c t', t = c :: t' ∧ kindOf c = some v.kind := by
  cases h with
  | null => exact ⟨_, _, rfl, rfl⟩
  | yes => exact ⟨_, _, rfl, rfl⟩
  | no => exact ⟨_, _, rfl, rfl⟩
  | number ht =>
    obtain ⟨⟨c, t', rfl, hc⟩, -⟩ := ht.chars
    exact ⟨c, t', rfl, kindOf_number hc⟩
  | string => exact ⟨_, _, rfl, rfl⟩
  | emptyArray => exact ⟨_, _, rfl, rfl⟩
  | array => exact ⟨_, _, rfl, rfl⟩
  | emptyObject => exact ⟨_, _, rfl, rfl⟩
  | object => exact ⟨_, _, rfl, rfl⟩

theorem Derives.kind_eq {v v' : Value} {t t' r r' : List Char} (h : Derives (.value v) t)
    (h' : Derives (.value v') t') (heq : t ++ r = t' ++ r') : v.kind = v'.kind := by
  obtain ⟨c, u, rfl, hc⟩ := h.head
  obtain ⟨c', u', rfl, hc'⟩ := h'.head
  rw [(List.cons.inj heq).1, hc'] at hc
  exact (Option.some.inj hc).symm

/-! ## 3. What derives a node of a kind -/

theorem derives_number_iff {l t : List Char} :
    Derives (.value (.number l)) t ↔ t = l ∧ IsNumber l := by
  constructor
  · intro h
    cases h with
    | number ht => exact ⟨rfl, ht⟩
  · rintro ⟨rfl, ht⟩
    exact .number ht

theorem derives_string_iff {b t : List Char} :
    Derives (.value (.string b)) t ↔ t = '"' :: (b ++ ['"']) ∧ Body b := by
  constructor
  · intro h
    cases h with
    | string hb => exact ⟨rfl, hb⟩
  · rintro ⟨rfl, hb⟩
    exact .string hb

/-- The inside of an array: nothing but white space, or its items. -/
def Inside (node : Node) (empty : Prop) (t : List Char) : Prop :=
  empty ∧ IsWs t ∨ ¬ empty ∧ Derives node t

theorem derives_array {vs : List Value} {t : List Char} (h : Derives (.value (.array vs)) t) :
    ∃ u, t = '[' :: (u ++ [']']) ∧ Inside (.items vs) (vs = []) u := by
  cases h with
  | emptyArray hw => exact ⟨_, rfl, Or.inl ⟨rfl, hw⟩⟩
  | array hne h => exact ⟨_, rfl, Or.inr ⟨hne, h⟩⟩

theorem derives_object {ms : List (List Char × Value)} {t : List Char}
    (h : Derives (.value (.object ms)) t) :
    ∃ u, t = '{' :: (u ++ ['}']) ∧ Inside (.members ms) (ms = []) u := by
  cases h with
  | emptyObject hw => exact ⟨_, rfl, Or.inl ⟨rfl, hw⟩⟩
  | object hne h => exact ⟨_, rfl, Or.inr ⟨hne, h⟩⟩

/-- Behind an item or a member: the end of the container, or a comma and the others. -/
def Follows (node : Node) (empty : Prop) (close c : Char) (rest r : List Char) : Prop :=
  empty ∧ c = close ∧ rest = r ∨
    ¬ empty ∧ c = ',' ∧ ∃ t, Derives node t ∧ rest = t ++ close :: r

/-- The first item of an array, and what follows it. -/
theorem derives_items {vs : List Value} {t : List Char} (h : Derives (.items vs) t)
    (r : List Char) : ∃ v xs w u w' c rest, vs = v :: xs ∧ IsWs w ∧ Derives (.value v) u ∧
      IsWs w' ∧ t ++ ']' :: r = w ++ (u ++ (w' ++ c :: rest)) ∧
      Follows (.items xs) (xs = []) ']' c rest r := by
  cases h with
  | item hw h hw' =>
    exact ⟨_, [], _, _, _, ']', r, rfl, hw, h, hw', by simp only [List.append_assoc],
      Or.inl ⟨rfl, rfl, rfl⟩⟩
  | items hw h hw' hne hrest =>
    exact ⟨_, _, _, _, _, ',', _, rfl, hw, h, hw',
      by simp only [List.append_assoc, List.cons_append], Or.inr ⟨hne, rfl, _, hrest, rfl⟩⟩

/-- The first member of an object, and what follows it. -/
theorem derives_members {ms : List (List Char × Value)} {t : List Char}
    (h : Derives (.members ms) t) (r : List Char) :
    ∃ k v xs w w' w'' u w₃ c rest, ms = (k, v) :: xs ∧ IsWs w ∧ Body k ∧ IsWs w' ∧ IsWs w'' ∧
      Derives (.value v) u ∧ IsWs w₃ ∧
      t ++ '}' :: r =
        w ++ '"' :: (k ++ '"' :: (w' ++ ':' :: (w'' ++ (u ++ (w₃ ++ c :: rest))))) ∧
      Follows (.members xs) (xs = []) '}' c rest r := by
  cases h with
  | member hw hk hw' hw'' h hw₃ =>
    exact ⟨_, _, [], _, _, _, _, _, '}', r, rfl, hw, hk, hw', hw'', h, hw₃,
      by simp only [List.append_assoc, List.cons_append, List.nil_append],
      Or.inl ⟨rfl, rfl, rfl⟩⟩
  | members hw hk hw' hw'' h hw₃ hne hrest =>
    exact ⟨_, _, _, _, _, _, _, _, ',', _, rfl, hw, hk, hw', hw'', h, hw₃,
      by simp only [List.append_assoc, List.cons_append, List.nil_append],
      Or.inr ⟨hne, rfl, _, hrest, rfl⟩⟩

/-! ## 4. One reading -/

/-- No other node of the kind is derived from a prefix of the same text. -/
def Unique : Node → List Char → Prop
  | .value v, t => ∀ {v' t' r r'}, Derives (.value v') t' → Stops r → Stops r' →
    t ++ r = t' ++ r' → v = v' ∧ r = r'
  | .items vs, t => ∀ {vs' t' r r'}, Derives (.items vs') t' →
    t ++ ']' :: r = t' ++ ']' :: r' → vs = vs' ∧ r = r'
  | .members ms, t => ∀ {ms' t' r r'}, Derives (.members ms') t' →
    t ++ '}' :: r = t' ++ '}' :: r' → ms = ms' ∧ r = r'

/-- What ends an item or a member. -/
def IsEnd (c : Char) : Prop := c = ',' ∨ c = ']' ∨ c = '}'

theorem IsEnd.isWs {c : Char} (h : IsEnd c) : isWs c = false := by
  rcases h with rfl | rfl | rfl <;> rfl

/-- A value in a container stops before the white space and the end behind it. -/
theorem stops_of_isEnd {w r : List Char} {c : Char} (hw : IsWs w) (hc : IsEnd c) :
    Stops (w ++ c :: r) := by
  intro d hd
  cases w with
  | nil =>
    obtain rfl := Option.some.inj hd
    rcases hc with rfl | rfl | rfl <;> decide
  | cons d' w =>
    obtain rfl := Option.some.inj hd
    have hws := hw d' List.mem_cons_self
    have hall : ∀ d ∈ [' ', '\t', '\n', '\r'], isNumberChar d = false :=
      List.all_iff_forall_prop.mp (by decide)
    exact hall d' (by simpa [JsonText.isWs, or_assoc] using hws)

/-- A value in a container, with the white space around it. -/
theorem element_unique {v v₁ : Value} {w u w' r w₁ u₁ w₁' r₁ : List Char} {c c₁ : Char}
    (hw : IsWs w) (hu : Derives (.value v) u) (ih : Unique (.value v) u) (hw' : IsWs w')
    (hc : IsEnd c) (hw₁ : IsWs w₁) (hu₁ : Derives (.value v₁) u₁) (hw₁' : IsWs w₁')
    (hc₁ : IsEnd c₁) (h : w ++ (u ++ (w' ++ c :: r)) = w₁ ++ (u₁ ++ (w₁' ++ c₁ :: r₁))) :
    v = v₁ ∧ c = c₁ ∧ r = r₁ := by
  have hbehind : u ++ (w' ++ c :: r) = u₁ ++ (w₁' ++ c₁ :: r₁) := by
    obtain ⟨d, u', rfl, hd⟩ := hu.head
    obtain ⟨d₁, u₁', rfl, hd₁⟩ := hu₁.head
    obtain ⟨-, rfl, htail⟩ := hw.unique hw₁ (isWs_of_kindOf hd) (isWs_of_kindOf hd₁) h
    exact congrArg (d :: ·) htail
  obtain ⟨hv, hrest⟩ := ih hu₁ (stops_of_isEnd hw' hc) (stops_of_isEnd hw₁' hc₁) hbehind
  obtain ⟨-, hcc, hrr⟩ := hw'.unique hw₁' hc.isWs hc₁.isWs hrest
  exact ⟨hv, hcc, hrr⟩

/-- A key, with the white space around it and the colon. -/
theorem key_unique {w k w' r w₁ k₁ w₁' r₁ : List Char} (hw : IsWs w) (hk : Body k)
    (hw' : IsWs w') (hw₁ : IsWs w₁) (hk₁ : Body k₁) (hw₁' : IsWs w₁')
    (h : w ++ '"' :: (k ++ '"' :: (w' ++ ':' :: r)) =
      w₁ ++ '"' :: (k₁ ++ '"' :: (w₁' ++ ':' :: r₁))) : k = k₁ ∧ r = r₁ := by
  obtain ⟨-, -, hkey⟩ := hw.unique hw₁ rfl rfl h
  obtain ⟨rfl, hbehind⟩ := hk.unique hk₁ hkey
  exact ⟨rfl, (hw'.unique hw₁' rfl rfl hbehind).2.2⟩

theorem Follows.isEnd {node : Node} {empty : Prop} {close c : Char} {rest r : List Char}
    (h : Follows node empty close c rest r) (hclose : IsEnd close) : IsEnd c := by
  rcases h with ⟨-, rfl, -⟩ | ⟨-, rfl, -⟩
  · exact hclose
  · exact Or.inl rfl

/-- The inside of a container is not both empty and not. -/
theorem inside_clash {w r t r' : List Char} {close : Char} (hw : IsWs w)
    (hclose : JsonText.isWs close = false)
    (hstart : ∃ w' c t', IsWs w' ∧ JsonText.isWs c = false ∧ c ≠ close ∧
      t ++ close :: r' = w' ++ c :: t') (h : w ++ close :: r = t ++ close :: r') : False := by
  obtain ⟨w', c, t', hw', hc, hne, heq⟩ := hstart
  rw [heq] at h
  obtain ⟨-, hcc, -⟩ := hw.unique hw' hclose hc h
  exact hne hcc.symm

theorem items_start {vs : List Value} {t : List Char} (h : Derives (.items vs) t)
    (r : List Char) : ∃ w c t', IsWs w ∧ JsonText.isWs c = false ∧ c ≠ ']' ∧
      t ++ ']' :: r = w ++ c :: t' := by
  obtain ⟨v, xs, w, u, w', c, rest, -, hw, hu, -, heq, -⟩ := derives_items h r
  obtain ⟨d, u', rfl, hd⟩ := hu.head
  refine ⟨w, d, _, hw, isWs_of_kindOf hd, ?_, heq⟩
  rintro rfl
  have hnone : kindOf ']' = none := by decide
  rw [hnone] at hd
  cases hd

theorem members_start {ms : List (List Char × Value)} {t : List Char}
    (h : Derives (.members ms) t) (r : List Char) :
    ∃ w c t', IsWs w ∧ JsonText.isWs c = false ∧ c ≠ '}' ∧
      t ++ '}' :: r = w ++ c :: t' := by
  obtain ⟨k, v, xs, w, w', w'', u, w₃, c, rest, -, hw, -, -, -, -, -, heq, -⟩ :=
    derives_members h r
  exact ⟨w, '"', _, hw, rfl, by decide, heq⟩

section

variable {v v' : Value}

/-- A value that is one word. -/
theorem Derives.word_unique {t t' : List Char} (h : Derives (.value v) t)
    (h' : Derives (.value v') t') (hkind : v.kind = v'.kind)
    (hword : v.kind ∈ [Kind.null, .yes, .no]) : v = v' ∧ t = t' := by
  cases h <;> cases h' <;> simp_all [Value.kind]

theorem exists_number (h : Kind.number = v.kind) : ∃ l, v = .number l := by
  cases v with
  | number l => exact ⟨l, rfl⟩
  | bool b => cases b <;> cases h
  | _ => cases h

theorem exists_string (h : Kind.string = v.kind) : ∃ b, v = .string b := by
  cases v with
  | string b => exact ⟨b, rfl⟩
  | bool b => cases b <;> cases h
  | _ => cases h

theorem exists_array (h : Kind.array = v.kind) : ∃ vs, v = .array vs := by
  cases v with
  | array vs => exact ⟨vs, rfl⟩
  | bool b => cases b <;> cases h
  | _ => cases h

theorem exists_object (h : Kind.object = v.kind) : ∃ ms, v = .object ms := by
  cases v with
  | object ms => exact ⟨ms, rfl⟩
  | bool b => cases b <;> cases h
  | _ => cases h

end

/-- A word stands alone. -/
theorem unique_word {v : Value} {t : List Char} (h : Derives (.value v) t)
    (hword : v.kind ∈ [Kind.null, .yes, .no]) : Unique (.value v) t := by
  intro v' t' r r' h' _ _ heq
  obtain ⟨hv, rfl⟩ := h.word_unique h' (h.kind_eq h' heq) hword
  exact ⟨hv, List.append_cancel_left heq⟩

/-- An array has one reading if its inside has. -/
theorem unique_array {vs : List Value} {u : List Char} (hu : Inside (.items vs) (vs = []) u)
    (ih : vs ≠ [] → Unique (.items vs) u) : Unique (.value (.array vs)) ('[' :: u ++ [']']) := by
  have h : Derives (.value (.array vs)) ('[' :: u ++ [']']) := by
    rcases hu with ⟨rfl, hw⟩ | ⟨hne, hitems⟩
    · exact .emptyArray hw
    · exact .array hne hitems
  intro v' t' r r' h' _ _ heq
  obtain ⟨vs', rfl⟩ := exists_array (h.kind_eq h' heq)
  obtain ⟨u', rfl, hu'⟩ := derives_array h'
  have hin : u ++ ']' :: r = u' ++ ']' :: r' := by
    simpa only [List.cons_append, List.append_assoc, List.nil_append, List.cons.injEq,
      true_and] using heq
  rcases hu with ⟨rfl, hw⟩ | ⟨hne, hitems⟩
  · rcases hu' with ⟨rfl, hw'⟩ | ⟨-, hitems'⟩
    · exact ⟨rfl, (hw.unique hw' rfl rfl hin).2.2⟩
    · exact (inside_clash hw rfl (items_start hitems' r') hin).elim
  · rcases hu' with ⟨rfl, hw'⟩ | ⟨-, hitems'⟩
    · exact (inside_clash hw' rfl (items_start hitems r) hin.symm).elim
    · obtain ⟨rfl, hr⟩ := ih hne hitems' hin
      exact ⟨rfl, hr⟩

/-- An object has one reading if its inside has. -/
theorem unique_object {ms : List (List Char × Value)} {u : List Char}
    (hu : Inside (.members ms) (ms = []) u) (ih : ms ≠ [] → Unique (.members ms) u) :
    Unique (.value (.object ms)) ('{' :: u ++ ['}']) := by
  have h : Derives (.value (.object ms)) ('{' :: u ++ ['}']) := by
    rcases hu with ⟨rfl, hw⟩ | ⟨hne, hmembers⟩
    · exact .emptyObject hw
    · exact .object hne hmembers
  intro v' t' r r' h' _ _ heq
  obtain ⟨ms', rfl⟩ := exists_object (h.kind_eq h' heq)
  obtain ⟨u', rfl, hu'⟩ := derives_object h'
  have hin : u ++ '}' :: r = u' ++ '}' :: r' := by
    simpa only [List.cons_append, List.append_assoc, List.nil_append, List.cons.injEq,
      true_and] using heq
  rcases hu with ⟨rfl, hw⟩ | ⟨hne, hmembers⟩
  · rcases hu' with ⟨rfl, hw'⟩ | ⟨-, hmembers'⟩
    · exact ⟨rfl, (hw.unique hw' rfl rfl hin).2.2⟩
    · exact (inside_clash hw rfl (members_start hmembers' r') hin).elim
  · rcases hu' with ⟨rfl, hw'⟩ | ⟨-, hmembers'⟩
    · exact (inside_clash hw' rfl (members_start hmembers r) hin.symm).elim
    · obtain ⟨rfl, hr⟩ := ih hne hmembers' hin
      exact ⟨rfl, hr⟩

/-- **The grammar is not ambiguous.** -/
theorem derives_unique {node : Node} {t : List Char} (h : Derives node t) : Unique node t := by
  induction h with
  | null => exact unique_word .null (by decide)
  | yes => exact unique_word .yes (by decide)
  | no => exact unique_word .no (by decide)
  | number ht =>
    intro v' t' r r' h' hr hr' heq
    obtain ⟨l, rfl⟩ := exists_number (Derives.kind_eq (.number ht) h' heq)
    obtain ⟨rfl, ht'⟩ := derives_number_iff.mp h'
    obtain ⟨rfl, hrest⟩ := prefix_unique ht.chars.2 ht'.chars.2 hr hr' heq
    exact ⟨rfl, hrest⟩
  | string ht =>
    intro v' t' r r' h' _ _ heq
    obtain ⟨b, rfl⟩ := exists_string (Derives.kind_eq (.string ht) h' heq)
    obtain ⟨rfl, hb⟩ := derives_string_iff.mp h'
    simp only [List.cons_append, List.append_assoc, List.nil_append, List.cons.injEq,
      true_and] at heq
    obtain ⟨rfl, hrest⟩ := ht.unique hb heq
    exact ⟨rfl, hrest⟩
  | emptyArray hw => exact unique_array (Or.inl ⟨rfl, hw⟩) fun hne => absurd rfl hne
  | array hne h ih => exact unique_array (Or.inr ⟨hne, h⟩) fun _ => ih
  | emptyObject hw => exact unique_object (Or.inl ⟨rfl, hw⟩) fun hne => absurd rfl hne
  | object hne h ih => exact unique_object (Or.inr ⟨hne, h⟩) fun _ => ih
  | item hw h hw' ih =>
    intro vs' t' r r' h' heq
    obtain ⟨v₁, xs, w₁, u₁, w₁', c₁, rest, rfl, hw₁, hu₁, hw₁', htext, hfollows⟩ :=
      derives_items h' r'
    rw [htext] at heq
    simp only [List.append_assoc] at heq
    obtain ⟨rfl, rfl, rfl⟩ := element_unique hw h ih hw' (Or.inr (Or.inl rfl)) hw₁ hu₁ hw₁'
      (hfollows.isEnd (Or.inr (Or.inl rfl))) heq
    rcases hfollows with ⟨rfl, -, rfl⟩ | ⟨-, hcomma, -⟩
    · exact ⟨rfl, rfl⟩
    · exact absurd hcomma (by decide)
  | items hw h hw' hne hrest ih ihrest =>
    intro vs' t' r r' h' heq
    obtain ⟨v₁, xs, w₁, u₁, w₁', c₁, rest, rfl, hw₁, hu₁, hw₁', htext, hfollows⟩ :=
      derives_items h' r'
    rw [htext] at heq
    simp only [List.append_assoc, List.cons_append] at heq
    obtain ⟨rfl, rfl, rfl⟩ := element_unique hw h ih hw' (Or.inl rfl) hw₁ hu₁ hw₁'
      (hfollows.isEnd (Or.inr (Or.inl rfl))) heq
    rcases hfollows with ⟨-, hclose, -⟩ | ⟨-, -, t'', hxs, hrest'⟩
    · exact absurd hclose (by decide)
    · obtain ⟨rfl, hr⟩ := ihrest hxs hrest'
      exact ⟨rfl, hr⟩
  | member hw hk hw' hw'' h hw₃ ih =>
    intro ms' t' r r' h' heq
    obtain ⟨k₁, v₁, xs, w₁, w₁', w₁'', u₁, w₁''', c₁, rest, rfl, hw₁, hk₁, hw₁', hw₁'', hu₁,
      hw₁''', htext, hfollows⟩ := derives_members h' r'
    rw [htext] at heq
    simp only [List.append_assoc, List.cons_append, List.nil_append] at heq
    obtain ⟨rfl, hvalue⟩ := key_unique hw hk hw' hw₁ hk₁ hw₁' heq
    obtain ⟨rfl, rfl, rfl⟩ := element_unique hw'' h ih hw₃ (Or.inr (Or.inr rfl)) hw₁'' hu₁
      hw₁''' (hfollows.isEnd (Or.inr (Or.inr rfl))) hvalue
    rcases hfollows with ⟨rfl, -, rfl⟩ | ⟨-, hcomma, -⟩
    · exact ⟨rfl, rfl⟩
    · exact absurd hcomma (by decide)
  | members hw hk hw' hw'' h hw₃ hne hrest ih ihrest =>
    intro ms' t' r r' h' heq
    obtain ⟨k₁, v₁, xs, w₁, w₁', w₁'', u₁, w₁''', c₁, rest, rfl, hw₁, hk₁, hw₁', hw₁'', hu₁,
      hw₁''', htext, hfollows⟩ := derives_members h' r'
    rw [htext] at heq
    simp only [List.append_assoc, List.cons_append, List.nil_append] at heq
    obtain ⟨rfl, hvalue⟩ := key_unique hw hk hw' hw₁ hk₁ hw₁' heq
    obtain ⟨rfl, rfl, rfl⟩ := element_unique hw'' h ih hw₃ (Or.inl rfl) hw₁'' hu₁ hw₁'''
      (hfollows.isEnd (Or.inr (Or.inr rfl))) hvalue
    rcases hfollows with ⟨-, hclose, -⟩ | ⟨-, -, t'', hxs, hrest'⟩
    · exact absurd hclose (by decide)
    · obtain ⟨rfl, hr⟩ := ihrest hxs hrest'
      exact ⟨rfl, hr⟩

/-- **A text is the text of one value.** -/
theorem IsText.unique {t : List Char} {v v' : Value} (h : IsText t v) (h' : IsText t v') :
    v = v' := by
  obtain ⟨w, u, w₁, hw, hu, hw₁, rfl⟩ := h
  obtain ⟨w', u', w₁', hw', hu', hw₁', heq⟩ := h'
  have hend {w : List Char} (hw : IsWs w) : Stops w := by
    intro c hc
    have hall : ∀ d ∈ [' ', '\t', '\n', '\r'], isNumberChar d = false :=
      List.all_iff_forall_prop.mp (by decide)
    have hws := hw c (List.mem_of_mem_head? hc)
    exact hall c (by simpa [JsonText.isWs, or_assoc] using hws)
  have hbody : u ++ w₁ = u' ++ w₁' := by
    obtain ⟨d, t, rfl, hd⟩ := hu.head
    obtain ⟨d', t', rfl, hd'⟩ := hu'.head
    simp only [List.append_assoc, List.cons_append] at heq
    obtain ⟨-, rfl, htail⟩ := hw.unique hw' (isWs_of_kindOf hd) (isWs_of_kindOf hd') heq
    exact congrArg (d :: ·) htail
  exact (derives_unique hu hu' (hend hw₁) (hend hw₁') hbody).1

/-! ## 5. Members that are known -/

/-- The first member of an object whose key is known. -/
theorem first_member {ms : List (List Char × Value)} {t k rest r : List Char}
    (h : Derives (.members ms) t) (hk : Body k)
    (heq : t ++ '}' :: r = '"' :: (k ++ '"' :: ':' :: rest)) :
    ∃ v xs w u w' c more, ms = (k, v) :: xs ∧ IsWs w ∧ Derives (.value v) u ∧ IsWs w' ∧
      rest = w ++ (u ++ (w' ++ c :: more)) ∧ Follows (.members xs) (xs = []) '}' c more r := by
  obtain ⟨k', v, xs, w₁, w₁', w, u, w', c, more, rfl, hw₁, hk', hw₁', hw, hu, hw', htext,
    hfollows⟩ := derives_members h r
  have hkeys : ([] : List Char) ++ '"' :: (k ++ '"' :: ([] ++ ':' :: rest)) =
      w₁ ++ '"' :: (k' ++ '"' :: (w₁' ++ ':' :: (w ++ (u ++ (w' ++ c :: more))))) :=
    heq.symm.trans htext
  have hnil : IsWs [] := fun _ hmem => nomatch hmem
  obtain ⟨rfl, hrest⟩ := key_unique hnil hk hnil hw₁ hk' hw₁' hkeys
  exact ⟨v, xs, w, u, w', c, more, rfl, hw, hu, hw', hrest, hfollows⟩

/-- **A member that is known and a comma** leave the other members. -/
theorem other_members {ms : List (List Char × Value)} {t k u more r : List Char} {v : Value}
    (h : Derives (.members ms) t) (hk : Body k) (hv : Derives (.value v) u)
    (heq : t ++ '}' :: r = '"' :: (k ++ '"' :: ':' :: (u ++ ',' :: more))) :
    ∃ xs t', ms = (k, v) :: xs ∧ Derives (.members xs) t' ∧ t' ++ '}' :: r = more := by
  obtain ⟨v', xs, w, u', w', c, more', rfl, hw, hu', hw', hrest, hfollows⟩ := first_member h hk heq
  have hnil : IsWs [] := fun _ hmem => nomatch hmem
  obtain ⟨rfl, rfl, rfl⟩ := element_unique hnil hv (derives_unique hv) hnil (Or.inl rfl) hw hu' hw'
    (hfollows.isEnd (Or.inr (Or.inr rfl))) hrest
  rcases hfollows with ⟨-, hclose, -⟩ | ⟨-, -, t', ht', hmore⟩
  · exact absurd hclose (by decide)
  · exact ⟨xs, t', rfl, ht', hmore.symm⟩

/-- A text that begins with a brace is an object, from that brace on. -/
theorem object_of_isText {t : List Char} {v : Value} (h : IsText ('{' :: t) v) :
    ∃ ms u w, v = .object ms ∧ Inside (.members ms) (ms = []) u ∧ IsWs w ∧
      u ++ '}' :: w = t := by
  obtain ⟨w₀, body, w, hw₀, hbody, hw, heq⟩ := h
  obtain ⟨c, body', rfl, hc⟩ := hbody.head
  have hstart : ([] : List Char) ++ '{' :: t = w₀ ++ c :: (body' ++ w) := by
    rw [heq, List.append_assoc, List.cons_append]
    rfl
  have hnil : IsWs [] := fun _ hmem => nomatch hmem
  obtain ⟨-, rfl, rfl⟩ := hnil.unique hw₀ rfl (isWs_of_kindOf hc) hstart
  obtain ⟨ms, rfl⟩ := exists_object (Option.some.inj hc)
  obtain ⟨u, hu, hinside⟩ := derives_object hbody
  refine ⟨ms, u, w, rfl, hinside, hw, ?_⟩
  rw [(List.cons.inj hu).2, List.append_assoc]
  rfl

end Lib.JsonText
