/-
# Fields of contracts

`field-contracts/src/error.rs`, `lint_identifier` of `registry.rs`, and the checks of single
fields in `contracts.rs`.  A check either passes or names the field it has found wrong; what a
passed check says about the field stands next to it.

A validation in the source is a sequence of checks with `?` between them, which is `Except`
without a value: it passes when each of them does, and its error is that of the first that does
not (`seq_eq_ok`).  The loops over lists are of two kinds, with and without a set of the keys that
were met (`checkAll`, `checkDistinct`), and one lemma for each says what is left of them when they
pass.
-/
import Musubi.Core.Digest
import Musubi.Lib.Text
import Musubi.Northbound.WirePolicy

namespace Musubi.Contracts

open Lib Musubi.Core Northbound.WirePolicy

/-! ## 1. Errors -/

inductive ContractError
  | missingField (field : String)
  | invalidField (field reason : String)
  | commandShapedIdentifier (identifier : String)
  | duplicateRegistryKey (key : String)
  | silentRedefinition (key : String)
  | json (reason : String)
  | ndjsonLine (line : ℕ) (reason : String)
deriving DecidableEq, Repr

def ContractError.display : ContractError → String
  | missingField field => "missing required field: " ++ field
  | invalidField field reason => "invalid " ++ field ++ ": " ++ reason
  | commandShapedIdentifier identifier => "command-shaped identifier is forbidden: " ++ identifier
  | duplicateRegistryKey key => "duplicate registry key: " ++ key
  | silentRedefinition key => "client overlay silently redefines public key: " ++ key
  | json reason => "JSON error: " ++ reason
  | ndjsonLine line reason => "NDJSON line " ++ line.repr ++ " is invalid: " ++ reason

abbrev ContractResult := Except ContractError

/-- Return the error unless the condition holds. -/
def ensure (condition : Prop) [Decidable condition] (e : ContractError) : ContractResult Unit :=
  if condition then .ok () else .error e

theorem ensure_eq_ok {condition : Prop} [Decidable condition] {e : ContractError} :
    ensure condition e = .ok () ↔ condition := by
  unfold ensure
  split
  · rename_i h
    exact iff_of_true rfl h
  · rename_i h
    refine iff_of_false ?_ h
    intro hok
    cases hok

/-- `?`: both steps pass. -/
theorem seq_eq_ok {x : ContractResult Unit} {y : Unit → ContractResult Unit} :
    x >>= y = .ok () ↔ x = .ok () ∧ y () = .ok () := by
  rw [bind_eq_ok]
  constructor
  · rintro ⟨⟨⟩, hx, hy⟩
    exact ⟨hx, hy⟩
  · rintro ⟨hx, hy⟩
    exact ⟨(), hx, hy⟩

/-- `for x in xs { check(x)?; }`. -/
def checkAll {α : Type} (check : α → ContractResult Unit) : List α → ContractResult Unit
  | [] => .ok ()
  | x :: xs => do
    check x
    checkAll check xs

theorem checkAll_eq_ok {α : Type} {check : α → ContractResult Unit} {xs : List α} :
    checkAll check xs = .ok () ↔ ∀ x ∈ xs, check x = .ok () := by
  induction xs with
  | nil => exact iff_of_true rfl fun _ h => nomatch h
  | cons x xs ih => rw [checkAll, seq_eq_ok, List.forall_mem_cons, ih]

/-- The loop that checks each item and then inserts its key into a set of keys, which was empty
at first: a key that is there already is an error. -/
def checkDistinct {α κ : Type} [DecidableEq κ] (check : α → ContractResult Unit) (key : α → κ)
    (duplicate : ContractError) : List κ → List α → ContractResult Unit
  | _, [] => .ok ()
  | seen, x :: xs => do
    check x
    ensure (key x ∉ seen) duplicate
    checkDistinct check key duplicate (key x :: seen) xs

/-- **The loop passes** when each item does and no key comes twice.  The set of keys is gone from
the statement: it was there to find the second one. -/
theorem checkDistinct_eq_ok {α κ : Type} [DecidableEq κ] {check : α → ContractResult Unit}
    {key : α → κ} {duplicate : ContractError} {xs : List α} : ∀ {seen : List κ},
    checkDistinct check key duplicate seen xs = .ok () ↔
      (∀ x ∈ xs, check x = .ok ()) ∧ (xs.map key).Nodup ∧ ∀ x ∈ xs, key x ∉ seen := by
  induction xs with
  | nil =>
    intro seen
    exact iff_of_true rfl ⟨fun _ h => (nomatch h), List.nodup_nil, fun _ h => (nomatch h)⟩
  | cons x xs ih =>
    intro seen
    rw [checkDistinct, seq_eq_ok, seq_eq_ok, ensure_eq_ok, ih, List.forall_mem_cons,
      List.forall_mem_cons, List.map_cons, List.nodup_cons]
    constructor
    · rintro ⟨hx, hseen, hxs, hnodup, hnew⟩
      refine ⟨⟨hx, hxs⟩, ⟨?_, hnodup⟩, hseen, ?_⟩
      · intro hmem
        obtain ⟨y, hy, heq⟩ := List.mem_map.mp hmem
        exact hnew y hy (heq ▸ List.mem_cons_self)
      · intro y hy hmem
        exact hnew y hy (List.mem_cons_of_mem _ hmem)
    · rintro ⟨⟨hx, hxs⟩, ⟨hfirst, hnodup⟩, hseen, hnew⟩
      refine ⟨hx, hseen, hxs, hnodup, ?_⟩
      intro y hy hmem
      rcases List.mem_cons.mp hmem with heq | hmem
      · exact hfirst (heq ▸ List.mem_map_of_mem hy)
      · exact hnew y hy hmem

/-! ## 2. Texts -/

def schemaVersionV1 : String := "1"

def requireNonEmpty (value field : String) : ContractResult Unit :=
  ensure (trim value.toList ≠ []) (.missingField field)

def requireSchemaV1 (value : String) : ContractResult Unit :=
  ensure (value = schemaVersionV1)
    (.invalidField "schema_version" ("expected " ++ schemaVersionV1 ++ ", got " ++ value))

def bannedTokens : List (List Char) :=
  ["command", "commands", "cmd", "execute", "dispatch", "route", "actuate", "actuation",
    "destination"].map String.toList

def bannedCompact : List (List Char) :=
  ["recommendedaction", "actionrecommendation", "desiredstate", "sendcommand", "injectcommand",
    "overridecontrol", "uploadmission", "deploypayload"].map String.toList

/-- `is_ascii_alphanumeric`. -/
def isAsciiAlphanumeric : Char → Bool :=
  Xml.inRanges [(0x30, 0x39), (0x41, 0x5A), (0x61, 0x7A)]

/-- `to_ascii_lowercase`. -/
def toAsciiLowercase (c : Char) : Char :=
  if 0x41 ≤ c.toNat ∧ c.toNat ≤ 0x5A then Char.ofNat (c.toNat + 0x20) else c

/-- The stretches of letters and digits. -/
def alphanumericTokens (s : List Char) : List (List Char) :=
  (s.splitOnP fun c => !isAsciiAlphanumeric c).filter fun token => !token.isEmpty

def lintIdentifier (identifier : String) : ContractResult Unit := do
  requireNonEmpty identifier "identifier"
  ensure (identifier.toList.all fun c => isAsciiAlphanumeric c || c ∈ ['_', '-', '.', ':', '/'])
    (.invalidField "identifier" "only ASCII letters, digits, _, -, ., :, and / are allowed")
  let lower := identifier.toList.map toAsciiLowercase
  let compact := lower.filter isAsciiAlphanumeric
  ensure (¬ ((alphanumericTokens lower).any (· ∈ bannedTokens) ||
      bannedCompact.any fun forbidden => contains forbidden compact))
    (.commandShapedIdentifier identifier)

/-- A lower-case hexadecimal digit. -/
def isLowerHex : Char → Bool := Xml.inRanges [(0x30, 0x39), (0x61, 0x66)]

def requireCommitPin (value field : String) : ContractResult Unit :=
  ensure (7 ≤ value.utf8ByteSize ∧ value.utf8ByteSize ≤ 64 ∧ value.toList.all isLowerHex)
    (.invalidField field "must be 7-64 lowercase hexadecimal characters")

def requireRelativePath (value field : String) : ContractResult Unit :=
  let text := value.toList
  ensure (¬ (text = [] ∨ text.head? = some '/' ∨ text.head? = some '\\' ∨ '\\' ∈ text ∨
      '\x00' ∈ text ∨
      ((text.splitOn '/').any fun component =>
        component.isEmpty || component = ['.'] || component = ['.', '.']) ∨
      (utf8 value)[1]? = some 0x3A))
    (.invalidField field
      "must be a normalized relative path without '.', '..', or empty components")

/-! ## 3. Digests and references -/

def isDigestText (value : String) : Bool :=
  match stripPrefix "sha256:".toList value.toList with
  | some hex => hex.length = 64 && hex.all isLowerHex
  | none => false

/-- `sha256:` and 64 hexadecimal digits. -/
structure DigestV1 where
  text : String
  valid : isDigestText text = true
deriving DecidableEq

theorem isLowerHex_digitChar : ∀ n < 16, isLowerHex (Nat.digitChar n) = true := by decide

theorem all_isLowerHex_hexLower (bytes : List UInt8) :
    (bytes.flatMap hexPair).all isLowerHex = true := by
  rw [List.all_flatMap, List.all_eq_true]
  intro b _
  have hb := b.toNat_lt
  simp only [hexPair, List.all_cons, List.all_nil, Bool.and_true, Bool.and_eq_true]
  exact ⟨isLowerHex_digitChar _ (by omega), isLowerHex_digitChar _ (by omega)⟩

theorem length_flatMap_hexPair (bytes : List UInt8) :
    (bytes.flatMap hexPair).length = 2 * bytes.length := by
  induction bytes with
  | nil => rfl
  | cons b bytes ih =>
    rw [List.flatMap_cons, List.length_append, ih, List.length_cons]
    simp only [hexPair, List.length_cons, List.length_nil]
    omega

/-- The digest with those 32 bytes. -/
def DigestV1.ofBytes (bytes : Digest) : DigestV1 where
  text := "sha256:" ++ hexLower bytes.toList
  valid := by
    unfold isDigestText
    rw [String.toList_append, stripPrefix_append, hexLower, String.toList_ofList]
    simp only [all_isLowerHex_hexLower, length_flatMap_hexPair, Vector.length_toList]
    rfl

/-- `DigestV1::sha256`, with the hash of its crate. -/
def DigestV1.sha256 (sha256 : List UInt8 → Digest) (bytes : List UInt8) : DigestV1 :=
  .ofBytes (sha256 bytes)

theorem DigestV1.ofBytes_injective : Function.Injective DigestV1.ofBytes := by
  intro a b h
  have htext := congrArg (fun d => d.text.toList) h
  simp only [ofBytes, String.toList_append, List.append_cancel_left_eq] at htext
  have hread := congrArg unhex htext
  rw [unhex_hexLower, unhex_hexLower, Option.some_inj] at hread
  exact Vector.toList_inj.mp hread

inductive ArtifactRoleV1
  | rawInput
  | evidence
  | fixture
  | candidate
  | receipt
deriving DecidableEq, Repr

structure ArtifactReferenceV1 where
  digest : DigestV1
  mediaType : String
  role : ArtifactRoleV1
deriving DecidableEq

def ArtifactReferenceV1.validate (a : ArtifactReferenceV1) : ContractResult Unit := do
  requireNonEmpty a.mediaType "artifact.media_type"
  ensure ('/' ∈ a.mediaType.toList)
    (.invalidField "artifact.media_type" "must be an IANA-style type/subtype")

end Musubi.Contracts
