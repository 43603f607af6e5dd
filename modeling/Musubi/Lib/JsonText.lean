/-
# The grammar of JSON texts

The grammar as it is published: white space around the tokens, numbers and strings by their
lexemes, and containers with commas between their parts.  A value keeps the lexemes that it was
written with, so what a number or a string means is left to whoever reads it.

The nonterminals with a result are the three `Node`s, and one relation derives them all, so that
an induction over a text has one motive.  There is no reader here: whether a text is JSON is a
proposition, and a program that reads JSON is compared with it.
-/
import Mathlib.Data.List.Basic

namespace Lib.JsonText

/-! ## 1. Tokens -/

def isWs (c : Char) : Bool := c = ' ' || c = '\t' || c = '\n' || c = '\r'

def IsWs (t : List Char) : Prop := ∀ c ∈ t, isWs c = true

def isHexDigit (c : Char) : Bool :=
  c.isDigit || ('a' ≤ c && c ≤ 'f') || ('A' ≤ c && c ≤ 'F')

/-- The letters that stand for a character behind a backslash, apart from `u`. -/
def escapeLetters : List Char := ['"', '\\', '/', 'b', 'f', 'n', 'r', 't']

/-- What may stand between the quotes of a string. -/
inductive Body : List Char → Prop
  | nil : Body []
  | plain {c : Char} {t : List Char} (hquote : c ≠ '"') (hbackslash : c ≠ '\\')
    (hcontrol : 0x20 ≤ c.toNat) (ht : Body t) : Body (c :: t)
  | escape {e : Char} {t : List Char} (he : e ∈ escapeLetters) (ht : Body t) :
    Body ('\\' :: e :: t)
  | unicode {h₁ h₂ h₃ h₄ : Char} {t : List Char} (hs : ∀ h ∈ [h₁, h₂, h₃, h₄], isHexDigit h = true)
    (ht : Body t) : Body ('\\' :: 'u' :: h₁ :: h₂ :: h₃ :: h₄ :: t)

def IsDigits (t : List Char) : Prop := t ≠ [] ∧ ∀ c ∈ t, c.isDigit = true

/-- Digits without a leading zero. -/
inductive IsInt : List Char → Prop
  | zero : IsInt ['0']
  | digits {c : Char} {t : List Char} (hc : c.isDigit = true) (hzero : c ≠ '0')
    (ht : ∀ d ∈ t, d.isDigit = true) : IsInt (c :: t)

inductive IsFraction : List Char → Prop
  | none : IsFraction []
  | digits {t : List Char} (ht : IsDigits t) : IsFraction ('.' :: t)

inductive IsExponent : List Char → Prop
  | none : IsExponent []
  | digits {e : Char} {sign t : List Char} (he : e = 'e' ∨ e = 'E')
    (hsign : sign = [] ∨ sign = ['+'] ∨ sign = ['-']) (ht : IsDigits t) :
    IsExponent (e :: sign ++ t)

/-- A sign, an integer, a fraction and an exponent. -/
def IsNumber (t : List Char) : Prop :=
  ∃ sign int fraction exponent, (sign = [] ∨ sign = ['-']) ∧ IsInt int ∧ IsFraction fraction ∧
    IsExponent exponent ∧ t = sign ++ int ++ fraction ++ exponent

/-! ## 2. Values -/

/-- A value with its lexemes; the fields of an object are in the order in which they stand. -/
inductive Value
  | null
  | bool (b : Bool)
  | number (lexeme : List Char)
  | string (body : List Char)
  | array (items : List Value)
  | object (members : List (List Char × Value))

inductive Node
  | value (v : Value)
  | items (vs : List Value)
  | members (ms : List (List Char × Value))

/-- **What derives a node**: a value, the items of an array, the members of an object. -/
inductive Derives : Node → List Char → Prop
  | null : Derives (.value .null) ['n', 'u', 'l', 'l']
  | yes : Derives (.value (.bool true)) ['t', 'r', 'u', 'e']
  | no : Derives (.value (.bool false)) ['f', 'a', 'l', 's', 'e']
  | number {t : List Char} (ht : IsNumber t) : Derives (.value (.number t)) t
  | string {t : List Char} (ht : Body t) : Derives (.value (.string t)) ('"' :: t ++ ['"'])
  | emptyArray {w : List Char} (hw : IsWs w) : Derives (.value (.array [])) ('[' :: w ++ [']'])
  | array {vs : List Value} {t : List Char} (hne : vs ≠ []) (h : Derives (.items vs) t) :
    Derives (.value (.array vs)) ('[' :: t ++ [']'])
  | emptyObject {w : List Char} (hw : IsWs w) :
    Derives (.value (.object [])) ('{' :: w ++ ['}'])
  | object {ms : List (List Char × Value)} {t : List Char} (hne : ms ≠ [])
    (h : Derives (.members ms) t) : Derives (.value (.object ms)) ('{' :: t ++ ['}'])
  | item {v : Value} {w t w' : List Char} (hw : IsWs w) (h : Derives (.value v) t) (hw' : IsWs w') :
    Derives (.items [v]) (w ++ t ++ w')
  | items {v : Value} {vs : List Value} {w t w' rest : List Char} (hw : IsWs w)
    (h : Derives (.value v) t) (hw' : IsWs w') (hne : vs ≠ []) (hrest : Derives (.items vs) rest) :
    Derives (.items (v :: vs)) (w ++ t ++ w' ++ ',' :: rest)
  | member {k : List Char} {v : Value} {w w' w'' t w₃ : List Char} (hw : IsWs w) (hk : Body k)
    (hw' : IsWs w') (hw'' : IsWs w'') (h : Derives (.value v) t) (hw₃ : IsWs w₃) :
    Derives (.members [(k, v)]) (w ++ ('"' :: k ++ ['"']) ++ w' ++ ':' :: (w'' ++ t ++ w₃))
  | members {k : List Char} {v : Value} {ms : List (List Char × Value)}
    {w w' w'' t w₃ rest : List Char} (hw : IsWs w) (hk : Body k) (hw' : IsWs w') (hw'' : IsWs w'')
    (h : Derives (.value v) t) (hw₃ : IsWs w₃) (hne : ms ≠ [])
    (hrest : Derives (.members ms) rest) :
    Derives (.members ((k, v) :: ms))
      (w ++ ('"' :: k ++ ['"']) ++ w' ++ ':' :: (w'' ++ t ++ w₃ ++ ',' :: rest))

/-- A whole text: one value, with white space around it. -/
def IsText (t : List Char) (v : Value) : Prop :=
  ∃ w body w', IsWs w ∧ Derives (.value v) body ∧ IsWs w' ∧ t = w ++ body ++ w'

/-! ## 3. Nesting -/

mutual

/-- How deep the containers of a value are nested. -/
def Value.depth : Value → ℕ
  | .null => 0
  | .bool _ => 0
  | .number _ => 0
  | .string _ => 0
  | .array items => depthItems items + 1
  | .object members => depthMembers members + 1

def depthItems : List Value → ℕ
  | [] => 0
  | v :: vs => max v.depth (depthItems vs)

def depthMembers : List (List Char × Value) → ℕ
  | [] => 0
  | (_, v) :: ms => max v.depth (depthMembers ms)

end

def Node.depth : Node → ℕ
  | .value v => v.depth
  | .items vs => depthItems vs
  | .members ms => depthMembers ms

end Lib.JsonText
