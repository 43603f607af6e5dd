/-
# What adapters share

`adapter-spi/src/spi.rs` and the checks of `quarantine.rs` that a text can fail: an adapter that
refuses an observation says so with a mark of its own, in one vocabulary.

The mark of an error has a provenance and reasons that are joined with semicolons, and the
interface asks that no part of them holds one.  It does not check that, so what an adapter puts
into an error is the adapter's own responsibility (`Conformance.TextAdapters`).
-/
import Musubi.Core.Nesting
import Musubi.Core.Quality
import Musubi.Northbound.WirePolicy

namespace Musubi.Adapter

open Lib Musubi.Core

/-! ## 1. Quarantine -/

/-- The rejections that a text and its fields can draw. -/
inductive TextReject
  | payloadOversize (maxBytes actualBytes : ℕ)
  | jsonNestingExceeded (maxDepth : ℕ)
  | fieldOversize (field : String) (maxBytes actualBytes : ℕ)
  | fieldDisallowedCodepoint (field : String) (codepoint : ℕ)
deriving DecidableEq, Repr

/-- `{n:04X}`. -/
def hex4 (n : ℕ) : String :=
  let digits := (Nat.toDigits 16 n).map Char.toUpper
  String.ofList (List.replicate (4 - digits.length) '0' ++ digits)

/-- `Display`. -/
def TextReject.display : TextReject → String
  | .payloadOversize maxBytes actualBytes =>
    "payload-oversize:max=" ++ maxBytes.repr ++ ":actual=" ++ actualBytes.repr
  | .jsonNestingExceeded maxDepth => "json-nesting-exceeded:max-depth=" ++ maxDepth.repr
  | .fieldOversize field maxBytes actualBytes =>
    "field-oversize:" ++ field ++ ":max=" ++ maxBytes.repr ++ ":actual=" ++ actualBytes.repr
  | .fieldDisallowedCodepoint field codepoint =>
    "field-disallowed-codepoint:" ++ field ++ ":U+" ++ hex4 codepoint

/-- A right-to-left override is named by its code point, and padded where that is short. -/
example : (TextReject.fieldDisallowedCodepoint "identifier" 0x202E).display =
      "field-disallowed-codepoint:identifier:U+202E" ∧
    hex4 0x1F = "001F" := by decide

/-- `quarantine_payload_size`. -/
def payloadSize (payload : List UInt8) (maxBytes : ℕ) : Except TextReject Unit :=
  if maxBytes < payload.length then .error (.payloadOversize maxBytes payload.length) else .ok ()

/-- `reject_if_json_nesting_exceeds`. -/
def jsonNesting (bytes : List UInt8) (maxDepth : ℕ) : Except TextReject Unit :=
  (rejectIfJsonNestingExceeds bytes maxDepth).mapError fun e => .jsonNestingExceeded e.maxDepth

def quarantineStrField (field raw : String) (maxBytes : ℕ) : Except TextReject Unit :=
  if maxBytes < raw.utf8ByteSize then .error (.fieldOversize field maxBytes raw.utf8ByteSize)
  else match raw.toList.find? Northbound.WirePolicy.isDisallowedCodepoint with
    | some c => .error (.fieldDisallowedCodepoint field c.toNat)
    | none => .ok ()

/-! ## 2. Errors -/

def invalid (sourceId adapterSlug reasonCode detail : String) : NormalizeError where
  sourceId := sourceId
  mark :=
    { status := .invalid
      reasonCode := reasonCode
      provenance := ["source:" ++ sourceId, "adapter:" ++ adapterSlug, detail] }

def quarantineError (sourceId adapterSlug : String) (reject : TextReject) : NormalizeError where
  sourceId := sourceId
  mark :=
    { status := .invalid
      reasonCode := quarantineReasonCode
      provenance := ["source:" ++ sourceId, "adapter:" ++ adapterSlug,
        "quarantine:" ++ reject.display] }

end Musubi.Adapter
