/-
# Canonical JSON

`field-contracts/src/canonical.rs`: a value is turned into JSON, the fields of every object are
put in the order of their keys, and the compact text is hashed.  The map behind an object of the
JSON library is ordered and has each key once, so an object is its list of fields, and inserting
sorted fields one after another gives the sorted list.

Records write their fields under fixed keys.  Sorting then loses nothing: what the canonical form
of two records of a type has in common under each key is decided (`canonicalize_object_inj`).
With the compact text of a JSON value deciding the value, the canonical bytes of a record decide
the record, as far as the canonical form of each of its fields decides the field
(`CanonicallyInjective`).

It is a property of the type of a record, not of JSON: of two arbitrary objects that differ in the
order of their fields the canonical bytes are the same.
-/
import Musubi.Contracts.Fields
import Musubi.Lib.Json
import Mathlib.Data.List.Sort
import Mathlib.Data.String.Basic

namespace Musubi.Contracts

open Lib Musubi.Core

/-! ## 1. The canonical form -/

/-- The order of the entries of an object. -/
def KeyLE (left right : String × Json) : Prop := left.1 ≤ right.1

instance : DecidableRel KeyLE := fun left right => inferInstanceAs (Decidable (left.1 ≤ right.1))

mutual

/-- Entries are sorted by their keys only, so it is the same to sort them before their values
are made canonical, as the source does, or after it. -/
def canonicalize : Json → Json
  | .array items => .array (canonicalizeItems items)
  | .object fields => .object ((canonicalizeFields fields).insertionSort KeyLE)
  | .null => .null
  | .bool b => .bool b
  | .number n => .number n
  | .string s => .string s

def canonicalizeItems : List Json → List Json
  | [] => []
  | item :: items => canonicalize item :: canonicalizeItems items

def canonicalizeFields : List (String × Json) → List (String × Json)
  | [] => []
  | (key, value) :: fields => (key, canonicalize value) :: canonicalizeFields fields

end

def canonicalJsonBytes (value : Json) : List UInt8 :=
  utf8 (String.ofList (canonicalize value).write)

def canonicalSha256 (sha256 : List UInt8 → Digest) (value : Json) : DigestV1 :=
  .sha256 sha256 (canonicalJsonBytes value)

/-- **Canonical bytes decide the canonical form.** -/
theorem canonicalJsonBytes_inj {v w : Json} (h : canonicalJsonBytes v = canonicalJsonBytes w) :
    canonicalize v = canonicalize w := by
  have htext := congrArg String.toList (utf8_injective h)
  rw [String.toList_ofList, String.toList_ofList] at htext
  exact Json.write_injective htext

/-! ## 2. What the canonical form keeps -/

theorem canonicalizeItems_eq_map (items : List Json) :
    canonicalizeItems items = items.map canonicalize := by
  induction items with
  | nil => rfl
  | cons item items ih => rw [canonicalizeItems, ih, List.map_cons]

theorem canonicalizeFields_eq_map (fields : List (String × Json)) :
    canonicalizeFields fields = fields.map fun field => (field.1, canonicalize field.2) := by
  induction fields with
  | nil => rfl
  | cons field fields ih => rw [canonicalizeFields, ih, List.map_cons]

/-- Lists of entries with the same keys in the same order, each once, that are permutations of
each other are equal. -/
theorem eq_of_perm_of_keys {α β : Type} {l : List (α × β)} : ∀ {l' : List (α × β)},
    l.Perm l' → l.map Prod.fst = l'.map Prod.fst → (l.map Prod.fst).Nodup → l = l' := by
  induction l with
  | nil =>
    intro l' hperm _ _
    exact hperm.nil_eq
  | cons x l ih =>
    intro l' hperm hkeys hnodup
    cases l' with
    | nil => exact absurd hperm.length_eq (Nat.succ_ne_zero _)
    | cons y l' =>
      rw [List.map_cons, List.map_cons, List.cons.injEq] at hkeys
      rw [List.map_cons, List.nodup_cons] at hnodup
      have hmem : x ∈ y :: l' := hperm.subset List.mem_cons_self
      rcases List.mem_cons.mp hmem with rfl | hmem
      · rw [ih (List.perm_cons _ |>.mp hperm) hkeys.2 hnodup.2]
      · -- the key of the first entry would come again
        refine absurd ?_ hnodup.1
        rw [hkeys.2]
        exact List.mem_map_of_mem hmem

/-- **The canonical form of a record decides the canonical form of its fields.** -/
theorem canonicalize_object_inj {fields fields' : List (String × Json)}
    (h : canonicalize (.object fields) = canonicalize (.object fields')) (keys : List String)
    (hnodup : keys.Nodup) (hfields : fields.map Prod.fst = keys)
    (hfields' : fields'.map Prod.fst = keys) :
    fields.map (fun field => canonicalize field.2) =
      fields'.map fun field => canonicalize field.2 := by
  rw [canonicalize, canonicalize, canonicalizeFields_eq_map, canonicalizeFields_eq_map,
    Json.object.injEq] at h
  have hperm : (fields.map fun field => (field.1, canonicalize field.2)).Perm
      (fields'.map fun field => (field.1, canonicalize field.2)) :=
    (List.perm_insertionSort KeyLE _).symm.trans (h ▸ List.perm_insertionSort KeyLE _)
  have hfst (fields : List (String × Json)) :
      (fields.map fun field => (field.1, canonicalize field.2)).map Prod.fst =
        fields.map Prod.fst := by
    rw [List.map_map]
    rfl
  have heq := eq_of_perm_of_keys hperm (by rw [hfst, hfst, hfields, hfields'])
    (by rw [hfst, hfields]; exact hnodup)
  have hsnd := congrArg (List.map Prod.snd) heq
  rw [List.map_map, List.map_map] at hsnd
  exact hsnd

/-- A JSON form of the values of a type that is decided by its canonical form.  Sorting the fields
of an object forgets their order, so this asks that nothing of a value is in the order. -/
def CanonicallyInjective {α : Type} (json : α → Json) : Prop :=
  ∀ x y, canonicalize (json x) = canonicalize (json y) → x = y

theorem canonicallyInjective_string {α : Type} {text : α → String}
    (h : Function.Injective text) : CanonicallyInjective fun x => .string (text x) := by
  intro x y heq
  rw [canonicalize, canonicalize, Json.string.injEq] at heq
  exact h heq

theorem canonicallyInjective_array {α : Type} {json : α → Json}
    (h : CanonicallyInjective json) :
    CanonicallyInjective fun xs : List α => .array (xs.map json) := by
  intro xs ys heq
  rw [canonicalize, canonicalize, canonicalizeItems_eq_map, canonicalizeItems_eq_map,
    Json.array.injEq, List.map_map, List.map_map] at heq
  exact List.map_injective_iff.mpr (fun x y hxy => h x y hxy) heq

theorem canonicallyInjective_bool : CanonicallyInjective Json.bool := by
  intro x y heq
  rwa [canonicalize, canonicalize, Json.bool.injEq] at heq

theorem canonicallyInjective_number {α : Type} {number : α → ℕ}
    (h : Function.Injective number) : CanonicallyInjective fun x => .number (number x) := by
  intro x y heq
  rw [canonicalize, canonicalize, Json.number.injEq] at heq
  exact h heq

/-- `Option`: the value or `null`. -/
def optionJson {α : Type} (json : α → Json) : Option α → Json
  | some x => json x
  | none => .null

/-- A canonical form decides whether it is absent, if no value is `null`. -/
theorem canonicallyInjective_option {α : Type} {json : α → Json}
    (h : CanonicallyInjective json) (hnull : ∀ x, canonicalize (json x) ≠ .null) :
    CanonicallyInjective (optionJson json) := by
  intro x y heq
  cases x with
  | none =>
    cases y with
    | none => rfl
    | some y => exact absurd heq.symm (hnull y)
  | some x =>
    cases y with
    | none => exact absurd heq (hnull x)
    | some y => rw [h x y heq]

end Musubi.Contracts
