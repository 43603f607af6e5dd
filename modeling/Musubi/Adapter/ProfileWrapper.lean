/-
# A profile stays within its wrapper

`recorded_jsonl.rs`, `Mapping::parse`: the bytes of a profile are put between two pieces of a
record, and the reader of records reads the whole.  A text that is spliced into another can escape
from it: a profile that closes the wrapper itself and opens a second record would be read as two,
and one with members of its own behind it would change the record.  When the reading succeeds,
none of this has happened: the profile is one JSON object by itself, and the record is the wrapper
around it (`parse_wrapped`).

The argument is about the grammar and not about the reader.  Of the library only `ReadsJson` is
assumed, that what it reads is derived by the grammar of JSON.  The grammar is not ambiguous, so
the first two members of a text that begins with the front of the wrapper are those of the wrapper
(`wrapped_members`).  A third value that ended early would leave further members, and `parse` asks
for a record of three, so the third member is the last and its value is the whole profile
(`wrapped_profile`).

A profile may be written on several lines and a record may not, so line breaks outside of strings
become spaces first.  The automaton that does this has to know what is inside a string in the
WHOLE record; the front of the wrapper is quoted evenly and ends outside of a string (`wrap_eq`),
so it can as well be run on the profile alone.
-/
import Musubi.Adapter.RecordedJsonl
import Musubi.Lib.JsonCompact
import Musubi.Lib.JsonUnique
import Musubi.Reference.MavlogLines

namespace Musubi.Adapter.RecordedJsonl

open Lib Musubi.Core Reference.Mavlog
open JsonText (IsText IsWs Derives Body unescape)

variable {serde : SerdeJson} {numberOf : List Char → Option JsonNumber}

/-! ## 1. What the JSON library reads -/

mutual

/-- What a text of the grammar is read as, all keys in their order. -/
def valueOf (numberOf : List Char → Option JsonNumber) : JsonText.Value → Option JsonValue
  | .null => some .null
  | .bool b => some (.bool b)
  | .number t => (numberOf t).map .number
  | .string t => (unescape t).map fun s => .string (String.ofList s)
  | .array vs => (itemsOf numberOf vs).map .array
  | .object ms => (fieldsOf numberOf ms).map .object

def itemsOf (numberOf : List Char → Option JsonNumber) :
    List JsonText.Value → Option (List JsonValue)
  | [] => some []
  | v :: vs => do
    let item ← valueOf numberOf v
    let items ← itemsOf numberOf vs
    return item :: items

def fieldsOf (numberOf : List Char → Option JsonNumber) :
    List (List Char × JsonText.Value) → Option Fields
  | [] => some []
  | (k, v) :: ms => do
    let key ← unescape k
    let value ← valueOf numberOf v
    let fields ← fieldsOf numberOf ms
    return (String.ofList key, value) :: fields

end

/-- **The JSON library reads JSON**: what it reads is derived by the grammar, and the digits of an
unsigned integer are that integer.  Nothing is asked of it in the other direction; it may refuse
whatever it likes. -/
structure ReadsJson (serde : SerdeJson) (numberOf : List Char → Option JsonNumber) : Prop where
  derived : ∀ text v, serde.fromStr text = some v →
    ∃ tree, IsText text.toList tree ∧ valueOf numberOf tree = some v
  unsigned : ∀ n : UInt64, numberOf n.toNat.repr.toList = some (.posInt n)

theorem fieldsOf_cons_eq_some {k : List Char} {v : JsonText.Value}
    {ms : List (List Char × JsonText.Value)} {fields : Fields} :
    fieldsOf numberOf ((k, v) :: ms) = some fields ↔
      ∃ key value rest, unescape k = some key ∧ valueOf numberOf v = some value ∧
        fieldsOf numberOf ms = some rest ∧ fields = (String.ofList key, value) :: rest := by
  rw [fieldsOf]
  constructor
  · intro h
    obtain ⟨key, hkey, h⟩ := Option.bind_eq_some_iff.mp h
    obtain ⟨value, hvalue, h⟩ := Option.bind_eq_some_iff.mp h
    obtain ⟨rest, hrest, h⟩ := Option.bind_eq_some_iff.mp h
    exact ⟨key, value, rest, hkey, hvalue, hrest, (Option.some.inj h).symm⟩
  · rintro ⟨key, value, rest, hkey, hvalue, hrest, rfl⟩
    refine Option.bind_eq_some_iff.mpr ⟨key, hkey, Option.bind_eq_some_iff.mpr ⟨value, hvalue, ?_⟩⟩
    exact Option.bind_eq_some_iff.mpr ⟨rest, hrest, rfl⟩

theorem length_fieldsOf : ∀ {ms : List (List Char × JsonText.Value)} {fields : Fields},
    fieldsOf numberOf ms = some fields → fields.length = ms.length
  | [], _, h => by
    cases h
    rfl
  | (k, v) :: ms, _, h => by
    obtain ⟨key, value, rest, -, -, hrest, rfl⟩ := fieldsOf_cons_eq_some.mp h
    rw [List.length_cons, length_fieldsOf hrest, List.length_cons]

/-! ## 2. Values without duplicate keys -/

theorem length_insertEntry {key : String} {value : JsonValue} {map : Fields}
    (h : ¬ map.any (·.1 = key) = true) :
    (BTreeMap.insertEntry key value map).length = map.length + 1 := by
  induction map with
  | nil => rfl
  | cons entry map ih =>
    simp only [List.any_cons, Bool.or_eq_true, decide_eq_true_eq, not_or] at h
    rw [BTreeMap.insertEntry]
    split
    · rfl
    rw [if_neg fun heq => h.1 heq.symm, List.length_cons, ih h.2, List.length_cons]

theorem mem_keys_insertEntry {key key' : String} {value : JsonValue} {map : Fields} :
    key' ∈ (BTreeMap.insertEntry key value map).map Prod.fst ↔
      key' = key ∨ key' ∈ map.map Prod.fst := by
  induction map with
  | nil => simp [BTreeMap.insertEntry]
  | cons entry map ih =>
    rw [BTreeMap.insertEntry]
    split
    · simp
    split
    · next heq => simp [heq]
    · rw [List.map_cons, List.mem_cons, ih, List.map_cons, List.mem_cons]
      tauto

/-- **What an ordered map has of fields that follow**: their keys, each once.  A key that comes a
second time is the only reason to fail. -/
theorem uniqueFields_eq_some {fields : Fields} : ∀ {map map' : Fields},
    JsonValue.uniqueFields map fields = some map' →
      (∀ key ∈ fields.map Prod.fst, key ∉ map.map Prod.fst) ∧ (fields.map Prod.fst).Nodup ∧
        map'.length = map.length + fields.length ∧
        ∀ key, key ∈ map'.map Prod.fst ↔ key ∈ map.map Prod.fst ∨ key ∈ fields.map Prod.fst := by
  induction fields with
  | nil =>
    intro map map' h
    cases h
    exact ⟨fun _ hmem => (List.not_mem_nil hmem).elim, List.nodup_nil, rfl, fun key => by simp⟩
  | cons field fields ih =>
    intro map map' h
    obtain ⟨key, value⟩ := field
    rw [JsonValue.uniqueFields] at h
    obtain ⟨value', -, h⟩ := Option.bind_eq_some_iff.mp h
    split at h
    · cases h
    next hnew =>
    obtain ⟨hdisjoint, hnodup, hlength, hkeys⟩ := ih h
    have hkey : key ∉ map.map Prod.fst := by
      simpa [List.any_eq_true] using hnew
    have hnotMem : key ∉ fields.map Prod.fst := fun hmem =>
      hdisjoint key hmem (mem_keys_insertEntry.mpr (.inl rfl))
    refine ⟨?_, List.nodup_cons.mpr ⟨hnotMem, hnodup⟩, ?_, fun key' => ?_⟩
    · refine List.forall_mem_cons.mpr ⟨hkey, fun key' hmem hold => ?_⟩
      exact hdisjoint key' hmem (mem_keys_insertEntry.mpr (.inr hold))
    · rw [hlength, length_insertEntry hnew, List.length_cons]
      omega
    · rw [hkeys, mem_keys_insertEntry, List.map_cons, List.mem_cons]
      tauto

/-- What is read as an object without duplicate keys was an object. -/
theorem unique_eq_object {v : JsonValue} {obj : Fields} (h : v.unique = some (.object obj)) :
    ∃ fields, v = .object fields ∧ JsonValue.uniqueFields [] fields = some obj := by
  cases v with
  | object fields =>
    rw [JsonValue.unique] at h
    obtain ⟨obj', hobj, heq⟩ := Option.map_eq_some_iff.mp h
    rw [JsonValue.object.inj heq] at hobj
    exact ⟨fields, rfl, hobj⟩
  | null => cases h
  | bool b => cases h
  | number n =>
    cases n with
    | float x =>
      rw [JsonValue.unique] at h
      split at h <;> cases h
    | posInt n => cases h
    | negInt n => cases h
  | string s => cases h
  | array items =>
    rw [JsonValue.unique] at h
    obtain ⟨items', -, heq⟩ := Option.map_eq_some_iff.mp h
    cases heq

/-! ## 3. The wrapper's bytes -/

/-- The state behind some bytes. -/
def quotingAfter (q : Quoting) (bytes : List UInt8) : Quoting :=
  bytes.foldl (fun q b => (unbreakByte q b).1) q

theorem unbreak_append (front rest : List UInt8) : ∀ q : Quoting,
    unbreak q (front ++ rest) = unbreak q front ++ unbreak (quotingAfter q front) rest := by
  induction front with
  | nil => exact fun q => rfl
  | cons b front ih =>
    intro q
    rw [List.cons_append, unbreak, ih, unbreak, List.cons_append]
    rfl

def frontBytes : List UInt8 := wrapperFront.map fun c => .ofNat c.toNat

/-- **The front is quoted evenly**, and the last brace stays a brace.  So the automaton reaches
the profile in the state that it starts in. -/
theorem wrap_eq (bytes : List UInt8) :
    wrap bytes = frontBytes ++ unbreak {} bytes ++ [0x7D] := by
  have hfront : unbreak {} frontBytes = frontBytes ∧ quotingAfter {} frontBytes = {} := by
    decide +kernel
  have hbrace (q : Quoting) : unbreak q [0x7D] = [0x7D] := by
    obtain ⟨quoted, escaped⟩ := q
    cases quoted <;> cases escaped <;> rfl
  have hwrap : wrap bytes = unbreak {} (frontBytes ++ bytes ++ [0x7D]) := rfl
  rw [hwrap, unbreak_append, unbreak_append, hfront.1, hfront.2, hbrace]

/-- The text of a wrapped profile: a fixed front, the text of the profile on one line, and a
closing brace. -/
theorem wrapped_text {bytes : List UInt8} {text : String} (h : fromUtf8 (wrap bytes) = .ok text) :
    ∃ profile, fromUtf8 (unbreak {} bytes) = .ok profile ∧
      text.toList = wrapperFront ++ (profile.toList ++ ['}']) := by
  have hfront : frontBytes = frontBytes.dropLast ++ [0x3A] := by decide
  have hfrontText : fromUtf8 frontBytes.dropLast = .ok (String.ofList wrapperFront.dropLast) := by
    decide
  rw [wrap_eq, hfront, List.append_assoc, List.append_assoc, List.singleton_append,
    fromUtf8_cut (by decide)] at h
  obtain ⟨first, second, hfirst, hsecond, htext⟩ := h
  rw [fromUtf8_cut (by decide)] at hsecond
  obtain ⟨profile, last, hprofile, hlast, hbehind⟩ := hsecond
  obtain rfl := Except.ok.inj (hfrontText.symm.trans hfirst)
  have hnil : last.toList = [] := by
    have hempty : fromUtf8 [] = .ok "" := rfl
    rw [← Except.ok.inj (hempty.symm.trans hlast)]
    rfl
  refine ⟨profile, hprofile, ?_⟩
  rw [htext, hbehind, hnil, String.toList_ofList]
  rfl

/-- A text that ends in a visible character and has one line is that line. -/
theorem lines_eq_nil {s : List Char} (h : lines s = []) : s = [] := by
  by_contra hne
  by_cases hfeed : '\n' ∈ s
  · obtain ⟨line, rest, rfl, hline⟩ := List.eq_append_cons_of_mem hfeed
    rw [lines_append hline] at h
    cases h
  · rw [lines_of_notMem hfeed hne] at h
    cases h

theorem eq_of_lines_singleton {s line : List Char} {c : Char} (h : lines (s ++ [c]) = [line])
    (hc : c ≠ '\n') : line = s ++ [c] := by
  by_cases hfeed : '\n' ∈ s ++ [c]
  · obtain ⟨first, rest, heq, hfirst⟩ := List.eq_append_cons_of_mem hfeed
    rw [heq, lines_append hfirst] at h
    obtain rfl := lines_eq_nil (List.cons.inj h).2
    exact absurd (List.append_inj_right' heq rfl) (by simpa using hc)
  · rw [lines_of_notMem hfeed (by simp)] at h
    exact (List.cons.inj h).1.symm

/-! ## 4. The members of the record -/

def metaTree : JsonText.Value := JsonText.record [("type", JsonText.text "profile")]

def dataTree : JsonText.Value := JsonText.record [("TimeUS", JsonText.natural 0)]

theorem body_key {k : List Char} (s : String) (h : JsonText.escape s = k) : Body k :=
  h ▸ JsonText.body_escape s

theorem derives_metaTree : Derives (.value metaTree) metaTree.compact := by
  refine JsonText.derives_compact _ (JsonText.wellFormed_record (by simp) ?_).1
  exact List.forall_mem_singleton.mpr (JsonText.wellFormed_text "profile")

theorem derives_dataTree : Derives (.value dataTree) dataTree.compact := by
  refine JsonText.derives_compact _ (JsonText.wellFormed_record (by simp) ?_).1
  exact List.forall_mem_singleton.mpr (JsonText.wellFormed_natural 0)

/-- The front, token by token, as a printer of JSON without blanks would write it; so the grammar
of the library applies to it. -/
theorem wrapperFront_eq : wrapperFront = '{' :: '"' :: ("meta".toList ++ '"' :: ':' ::
    (metaTree.compact ++ ',' :: '"' :: ("data".toList ++ '"' :: ':' ::
      (dataTree.compact ++ ',' :: '"' :: ("profile".toList ++ ['"', ':']))))) := by
  decide

/-- **The first two members of the record** are those of the wrapper.  What is left of the text is
the key of the third and everything behind it. -/
theorem wrapped_members {profile : List Char} {tree : JsonText.Value}
    (h : IsText (wrapperFront ++ (profile ++ ['}'])) tree) :
    ∃ ms t w, tree = .object (("meta".toList, metaTree) :: ("data".toList, dataTree) :: ms) ∧
      Derives (.members ms) t ∧ IsWs w ∧
      t ++ '}' :: w = '"' :: ("profile".toList ++ '"' :: ':' :: (profile ++ ['}'])) := by
  rw [wrapperFront_eq, List.cons_append] at h
  obtain ⟨ms, u, w, rfl, hinside, hw, htext⟩ := JsonText.object_of_isText h
  simp only [List.cons_append, List.append_assoc, List.nil_append] at htext
  have hmembers : Derives (.members ms) u := by
    rcases hinside with ⟨-, hu⟩ | ⟨-, hu⟩
    · have hnil : IsWs [] := fun _ hmem => nomatch hmem
      exact absurd (hu.unique hnil rfl rfl htext).2.1 (by decide)
    · exact hu
  obtain ⟨ms, t, rfl, ht, htext⟩ :=
    JsonText.other_members hmembers (body_key "meta" (by decide)) derives_metaTree htext
  obtain ⟨ms, t, rfl, ht, htext⟩ :=
    JsonText.other_members ht (body_key "data" (by decide)) derives_dataTree htext
  exact ⟨ms, t, w, rfl, ht, hw, htext⟩

/-- **A third member that is the last** is the whole profile.  With more members the value of the
third could have ended before the profile does. -/
theorem wrapped_profile {profile t w : List Char} {ms : List (List Char × JsonText.Value)}
    (h : Derives (.members ms) t) (hw : IsWs w) (hone : ms.length = 1)
    (htext : t ++ '}' :: w =
      '"' :: ("profile".toList ++ '"' :: ':' :: (profile ++ ['}']))) :
    ∃ v, ms = [("profile".toList, v)] ∧ IsText profile v := by
  obtain ⟨v, xs, w₁, u, w₂, c, more, rfl, hw₁, hu, hw₂, hrest, hfollows⟩ :=
    JsonText.first_member h (body_key "profile" (by decide)) htext
  obtain rfl : xs = [] := by
    rw [List.length_cons] at hone
    exact List.eq_nil_of_length_eq_zero (by omega)
  obtain ⟨-, rfl, rfl⟩ | ⟨hne, -⟩ := hfollows
  · refine ⟨v, rfl, w₁, u, w₂, hw₁, hu, hw₂, ?_⟩
    -- white space behind the last brace would end the text, and a brace ends it
    have hnil : more = [] := by
      by_contra hne
      obtain ⟨init, last, rfl⟩ := (List.eq_nil_or_concat' more).resolve_left hne
      have hends : profile ++ ['}'] = (w₁ ++ (u ++ (w₂ ++ '}' :: init))) ++ [last] := by
        rw [hrest]
        simp only [List.append_assoc, List.cons_append]
      have hlast := List.cons.inj (List.append_inj_right' hends rfl)
      have hws := hw last (by simp)
      rw [← hlast.1] at hws
      exact absurd hws (by decide)
    rw [hnil, ← List.append_assoc, ← List.append_assoc] at hrest
    exact List.append_cancel_right hrest
  · exact absurd rfl hne

/-! ## 5. The record that is read -/

theorem valueOf_eq_object {tree : JsonText.Value} {fields : Fields}
    (h : valueOf numberOf tree = some (.object fields)) :
    ∃ ms, tree = .object ms ∧ fieldsOf numberOf ms = some fields := by
  cases tree with
  | object ms =>
    rw [valueOf] at h
    obtain ⟨fields', hfields, heq⟩ := Option.map_eq_some_iff.mp h
    rw [JsonValue.object.inj heq] at hfields
    exact ⟨ms, rfl, hfields⟩
  | null => cases h
  | bool b => cases h
  | number t =>
    rw [valueOf] at h
    obtain ⟨n, -, heq⟩ := Option.map_eq_some_iff.mp h
    cases heq
  | string t =>
    rw [valueOf] at h
    obtain ⟨s, -, heq⟩ := Option.map_eq_some_iff.mp h
    cases heq
  | array vs =>
    rw [valueOf] at h
    obtain ⟨items, -, heq⟩ := Option.map_eq_some_iff.mp h
    cases heq

theorem unescape_key {k : List Char} (s : String) (h : JsonText.escape s = k) :
    unescape k = some s.toList :=
  h ▸ JsonText.unescape_escape s

theorem valueOf_metaTree :
    valueOf numberOf metaTree = some (.object [("type", .string "profile")]) := by
  simp [metaTree, JsonText.record, JsonText.text, valueOf, fieldsOf, JsonText.unescape_escape]

theorem valueOf_dataTree (h : ReadsJson serde numberOf) :
    valueOf numberOf dataTree = some (.object [("TimeUS", .number (.posInt 0))]) := by
  have hzero : numberOf ['0'] = some (.posInt 0) := h.unsigned 0
  simp [dataTree, JsonText.record, JsonText.natural, valueOf, fieldsOf, JsonText.unescape_escape,
    hzero]

/-- What is read of the record, in the order of its text. -/
theorem fieldsOf_wrapper (hjson : ReadsJson serde numberOf) {v : JsonText.Value} {raw : Fields}
    (h : fieldsOf numberOf [("meta".toList, metaTree), ("data".toList, dataTree),
      ("profile".toList, v)] = some raw) :
    ∃ value, valueOf numberOf v = some value ∧
      raw = [("meta", .object [("type", .string "profile")]),
        ("data", .object [("TimeUS", .number (.posInt 0))]), ("profile", value)] := by
  obtain ⟨key₁, value₁, rest₁, hkey₁, hvalue₁, hrest₁, rfl⟩ := fieldsOf_cons_eq_some.mp h
  obtain ⟨key₂, value₂, rest₂, hkey₂, hvalue₂, hrest₂, rfl⟩ := fieldsOf_cons_eq_some.mp hrest₁
  obtain ⟨key₃, value, rest₃, hkey₃, hvalue, hrest₃, rfl⟩ := fieldsOf_cons_eq_some.mp hrest₂
  rw [unescape_key "meta" (by decide)] at hkey₁
  rw [unescape_key "data" (by decide)] at hkey₂
  rw [unescape_key "profile" (by decide)] at hkey₃
  rw [valueOf_metaTree] at hvalue₁
  rw [valueOf_dataTree hjson] at hvalue₂
  cases hkey₁
  cases hkey₂
  cases hkey₃
  cases hvalue₁
  cases hvalue₂
  cases hrest₃
  exact ⟨value, hvalue, by simp only [String.ofList_toList]⟩

/-- The record of a profile: the wrapper's own members, and the profile. -/
def wrapperRecord (obj : Fields) : JsonValue :=
  .object [("data", .object [("TimeUS", .number (.posInt 0))]),
    ("meta", .object [("type", .string "profile")]), ("profile", .object obj)]

/-- The wrapper's members come in the order of their keys. -/
theorem uniqueFields_wrapper {value : JsonValue} {map : Fields}
    (h : JsonValue.uniqueFields [] [("meta", .object [("type", .string "profile")]),
      ("data", .object [("TimeUS", .number (.posInt 0))]), ("profile", value)] = some map) :
    ∃ value', value.unique = some value' ∧
      map = [("data", .object [("TimeUS", .number (.posInt 0))]),
        ("meta", .object [("type", .string "profile")]), ("profile", value')] := by
  have hmeta : (JsonValue.object [("type", .string "profile")]).unique =
      some (.object [("type", .string "profile")]) := rfl
  have hdata : (JsonValue.object [("TimeUS", .number (.posInt 0))]).unique =
      some (.object [("TimeUS", .number (.posInt 0))]) := rfl
  rw [JsonValue.uniqueFields, hmeta] at h
  change JsonValue.uniqueFields [("meta", _)] _ = _ at h
  rw [JsonValue.uniqueFields, hdata] at h
  change JsonValue.uniqueFields [("data", _), ("meta", _)] _ = _ at h
  rw [JsonValue.uniqueFields] at h
  obtain ⟨value', hvalue', h⟩ := Option.bind_eq_some_iff.mp h
  exact ⟨value', hvalue', (Option.some.inj h).symm⟩

/-! ## 6. Profiles that are accepted -/

/-- **The bytes are one object**, and the fields are what it says.  This is about the profile by
itself; the wrapper does not occur in it. -/
def IsObject (numberOf : List Char → Option JsonNumber) (bytes : List UInt8) (fields : Fields) :
    Prop :=
  ∃ profile members, fromUtf8 (unbreak {} bytes) = .ok profile ∧
    IsText profile.toList (.object members) ∧ fieldsOf numberOf members = some fields

theorem IsObject.unique {bytes : List UInt8} {fields fields' : Fields}
    (h : IsObject numberOf bytes fields) (h' : IsObject numberOf bytes fields') :
    fields = fields' := by
  obtain ⟨profile, members, htext, htree, hfields⟩ := h
  obtain ⟨profile', members', htext', htree', hfields'⟩ := h'
  obtain rfl := Except.ok.inj (htext.symm.trans htext')
  obtain rfl := JsonText.Value.object.inj (htree.unique htree')
  exact Option.some.inj (hfields.symm.trans hfields')

/-- **What there is to a profile that is accepted.** `unique_keys` and `nodup` say of the fields
that no key comes twice, at the top and further down; `one_record` says what the reader has made
of the wrapper. -/
structure Wrapped (serde : SerdeJson) (numberOf : List Char → Option JsonNumber)
    (bytes : List UInt8) (m : Mapping) (fields obj : Fields) : Prop where
  object : IsObject numberOf bytes fields
  unique_keys : (JsonValue.object fields).unique = some (.object obj)
  nodup : (fields.map Prod.fst).Nodup
  declared : ∀ key ∈ fields.map Prod.fst, key ∈ profileKeys
  one_record : ∃ log, Reference.Mavlog.parse serde (wrap bytes) = .ok log ∧
    log.records = [wrapperRecord obj]
  mapping_eq : mappingOf obj = .ok m

theorem profileOf_eq_some {log : DecodedLog} {obj : Fields} (h : profileOf log = some obj) :
    ∃ fields, log.records = [.object fields] ∧ fields.length = 3 ∧
      (fields.lookup "profile").bind JsonValue.asObject = some obj := by
  unfold profileOf at h
  split at h
  · next fields hrecords =>
    split at h
    · next hlength => exact ⟨fields, hrecords, hlength, h⟩
    · cases h
  · cases h

/-- One line, the text of the record: the line breaks of a profile are taken out before it is
wrapped, and the wrapper has none. -/
theorem one_line {bytes : List UInt8} {log : DecodedLog} {record : JsonValue}
    (h : Reference.Mavlog.parse serde (wrap bytes) = .ok log) (hone : log.records = [record]) :
    ∃ profile, fromUtf8 (unbreak {} bytes) = .ok profile ∧
      ReadsLine serde (wrapperFront ++ (profile.toList ++ ['}'])) record := by
  obtain ⟨text, records, htext, hlines, -, rfl⟩ := parse_eq_ok.mp h
  obtain rfl : records = [record] := hone
  obtain ⟨profile, hprofile, hchars⟩ := wrapped_text htext
  refine ⟨profile, hprofile, ?_⟩
  obtain ⟨line, ls, hread, hnone, hall⟩ := List.forall₂_cons_right_iff.mp hlines
  obtain rfl := List.forall₂_nil_right_iff.mp hnone
  rw [hchars, ← List.append_assoc] at hall
  rwa [← List.append_assoc, ← eq_of_lines_singleton hall (by decide)]

/-- The mapping is of declared keys: a key that no profile has is refused, so a misspelt one is
never ignored. -/
theorem declared_of_mappingOf {obj : Fields} {m : Mapping} (h : mappingOf obj = .ok m) :
    ∀ key ∈ obj.map Prod.fst, key ∈ profileKeys := by
  unfold mappingOf at h
  split at h
  · cases h
  next hnone =>
  intro key hkey
  obtain ⟨entry, hentry, rfl⟩ := List.mem_map.mp hkey
  by_contra hnot
  exact hnone (List.any_eq_true.mpr ⟨entry, hentry, by simpa using hnot⟩)

theorem wrapped_of_parse (hjson : ReadsJson serde numberOf) {bytes : List UInt8} {m : Mapping}
    (h : Mapping.parse serde bytes = .ok m) :
    ∃ fields obj, Wrapped serde numberOf bytes m fields obj := by
  unfold Mapping.parse at h
  obtain ⟨_, -, h⟩ := bind_eq_ok.mp h
  split at h
  · cases h
  next log hlog =>
  split at h
  · cases h
  next obj hobj =>
  obtain ⟨map, hrecords, hlength, hlookup⟩ := profileOf_eq_some hobj
  obtain ⟨profile, hprofile, hline, -⟩ := one_line hlog hrecords
  obtain ⟨v, hv, hunique⟩ := Option.bind_eq_some_iff.mp hline
  obtain ⟨raw, rfl, hraw⟩ := unique_eq_object hunique
  obtain ⟨tree, htree, hvalue⟩ := hjson.derived _ _ hv
  rw [String.toList_ofList] at htree
  obtain ⟨ms, t, w, rfl, ht, hw, htext⟩ := wrapped_members htree
  obtain ⟨ms', heq, hfields⟩ := valueOf_eq_object hvalue
  obtain rfl := JsonText.Value.object.inj heq
  have hone : ms.length = 1 := by
    have hcount := length_fieldsOf hfields
    have hmap := (uniqueFields_eq_some hraw).2.2.1
    rw [List.length_cons, List.length_cons] at hcount
    rw [List.length_nil] at hmap
    omega
  obtain ⟨v, rfl, hv⟩ := wrapped_profile ht hw hone htext
  obtain ⟨value, hprofileValue, rfl⟩ := fieldsOf_wrapper hjson hfields
  obtain ⟨value', hvalue', rfl⟩ := uniqueFields_wrapper hraw
  obtain rfl : value' = .object obj := by
    cases value' <;> cases hlookup
    rfl
  obtain ⟨fields, rfl, hmap⟩ := unique_eq_object hvalue'
  obtain ⟨members, rfl, hmembers⟩ := valueOf_eq_object hprofileValue
  obtain ⟨-, hnodup, -, hkeys⟩ := uniqueFields_eq_some hmap
  refine ⟨fields, obj, ⟨profile, members, hprofile, hv, hmembers⟩, hvalue', hnodup,
    fun key hkey => declared_of_mappingOf h key ((hkeys key).mpr (.inr hkey)),
    ⟨log, hlog, hrecords⟩,
    h⟩

/-- **A profile does not escape its wrapper.** Bytes that are accepted are one JSON object once
line breaks outside of strings are spaces, with no key twice and only declared ones; the record
that is read is the wrapper around it; and the mapping is what the object says, whatever the bytes
that say it.  The last part compares with other bytes for the same fields: layout, escapes and the
order of white space have no part in the mapping.  `hjson` is what the library's documentation
says of it. -/
theorem parse_wrapped (hjson : ReadsJson serde numberOf) {bytes : List UInt8} {m : Mapping}
    (h : Mapping.parse serde bytes = .ok m) :
    ∃ fields obj, Wrapped serde numberOf bytes m fields obj ∧
      ∀ bytes' m', IsObject numberOf bytes' fields → Mapping.parse serde bytes' = .ok m' →
        m' = m := by
  obtain ⟨fields, obj, hwrapped⟩ := wrapped_of_parse hjson h
  refine ⟨fields, obj, hwrapped, fun bytes' m' hobject h' => ?_⟩
  obtain ⟨fields', obj', hwrapped'⟩ := wrapped_of_parse hjson h'
  obtain rfl := hobject.unique hwrapped'.object
  obtain rfl := JsonValue.object.inj
    (Option.some.inj (hwrapped.unique_keys.symm.trans hwrapped'.unique_keys))
  exact Except.ok.inj (hwrapped'.mapping_eq.symm.trans hwrapped.mapping_eq)

/-! ## 7. A profile -/

def profileTree : JsonText.Value :=
  JsonText.record [("message_type", JsonText.text "GPS"), ("latitude_field", JsonText.text "Lat"),
    ("longitude_field", JsonText.text "Lng"), ("altitude_field", JsonText.text "Alt"),
    ("position_units", JsonText.text "deg-m-msl")]

def wrappedTree : JsonText.Value :=
  JsonText.record [("meta", metaTree), ("data", dataTree), ("profile", profileTree)]

def unsignedOf (t : List Char) : Option JsonNumber := (parseU64 t).map .posInt

/-- The JSON library on the text of one record. -/
def wrappedJson : SerdeJson where
  fromSlice _ := none
  fromStr text :=
    if text.toList = wrappedTree.compact then valueOf unsignedOf wrappedTree else none
  display _ := ""

theorem wellFormed_wrappedTree : wrappedTree.WellFormed := by
  refine JsonText.wellFormed_record (by decide) ?_
  simp only [List.forall_mem_cons]
  refine ⟨?_, ?_, ?_, fun _ h => nomatch h⟩
  · refine JsonText.wellFormed_record (by simp) ?_
    exact List.forall_mem_singleton.mpr (JsonText.wellFormed_text _)
  · refine JsonText.wellFormed_record (by simp) ?_
    exact List.forall_mem_singleton.mpr (JsonText.wellFormed_natural _)
  · refine JsonText.wellFormed_record (by decide) ?_
    simp only [List.forall_mem_cons]
    exact ⟨JsonText.wellFormed_text _, JsonText.wellFormed_text _, JsonText.wellFormed_text _,
      JsonText.wellFormed_text _, JsonText.wellFormed_text _, fun _ h => nomatch h⟩

theorem readsJson_wrappedJson : ReadsJson wrappedJson unsignedOf where
  derived text v h := by
    refine ⟨wrappedTree, ?_, ?_⟩
    · by_cases htext : text.toList = wrappedTree.compact
      · rw [htext]
        exact JsonText.isText_compact wellFormed_wrappedTree.1
      · rw [wrappedJson] at h
        simp [htext] at h
    · rw [wrappedJson] at h
      dsimp only at h
      split at h
      · exact h
      · cases h
  unsigned n := by
    rw [unsignedOf, parseU64_repr]
    rfl

theorem parse_wrapped_example : ∃ m fields obj,
    Wrapped wrappedJson unsignedOf (profileTree.compact.map fun c => .ofNat c.toNat) m fields obj ∧
      m.messageType = "GPS" := by
  have hparse : ((Mapping.parse wrappedJson
      (profileTree.compact.map fun c => .ofNat c.toNat)).toOption.map Mapping.messageType) =
        some "GPS" := by
    decide +kernel
  obtain ⟨m, hm, htype⟩ := Option.map_eq_some_iff.mp hparse
  obtain ⟨fields, obj, hwrapped, -⟩ :=
    parse_wrapped readsJson_wrappedJson (ok_of_mem_toOption (Option.mem_toList.mpr hm))
  exact ⟨m, fields, obj, hwrapped, htype⟩

end Musubi.Adapter.RecordedJsonl
