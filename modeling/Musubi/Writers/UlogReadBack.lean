/-
# Reading back a ULog recording

A recording describes its topics, and the reader decodes data by what it has been told of them.
Data whose values are those of their topic are decoded as its fields with the values
(`readData_data`), and a recording is read exactly when no time is too large and the times under
each topic do not decrease (`ulog_read_back`).

As with the DataFlash log the reader is a scan with a state, and the state behind the preamble is
known: each topic has its type and its subscription.  Data change one thing in it, the last time
under their id, and so the condition under which a recording is read has a part that looks at
neighbours: under each id a time is not before the one before it.  Events that come in the order
of their times meet it.

Texts are the other kind of messages behind the preamble.  A text is read as a text whatever it
says, provided that its size fits in 16 bits (`Fits`); beyond that the size wraps around, the
reader takes a part of the text for the whole and looks for the next message in the middle of it.
The results assume that texts fit, and this is the only thing they assume of the events.
-/
import Musubi.Reference.UlogRecords
import Musubi.Writers.Ulog

namespace Musubi.Writers.Ulog

open Lib Lib.Checked Musubi.Core Reference Scenario
open Reference.Ulog (DataRecord Field Flattened Format ReadReport Session UnsupportedRecord
  checkScalar decodeElement decodeField decodeFields decodeScalar expand findFormat flattenFields
  isPadding loggedObservation parseField parseFormat readBody readData readMessage recordTime
  textField typeLen)

/-! ## 1. Values -/

/-- The types that a value stands for. -/
def Value.types : Value → List String
  | .u8 _ => ["uint8_t"]
  | .i8 _ => ["int8_t"]
  | .bool _ => ["bool", "uint8_t"]
  | .u16 _ => ["uint16_t"]
  | .u32 _ => ["uint32_t"]
  | .i32 _ => ["int32_t"]
  | .u64 _ => ["uint64_t"]
  | .f32 _ => ["float"]
  | .f64 _ => ["double"]

/-- What a value is read as. -/
def Value.reading : Value → FieldValue
  | .u8 v => .fromUnsigned v.toNat
  | .i8 v => .i64 v.toInt64
  | .bool v => .fromUnsigned (if v then 1 else 0)
  | .u16 v => .fromUnsigned v.toNat
  | .u32 v => .fromUnsigned v.toNat
  | .i32 v => .i64 v.toInt64
  | .u64 v => .i64 v.toInt64
  | .f32 v => .float32Bits v.bits.toNat
  | .f64 v => .float64Bits v.bits.toNat

/-- The reader has signed integers only. -/
def Value.Readable : Value → Prop
  | .u64 v => v.toNat < 2 ^ 63
  | _ => True

instance : DecidablePred Value.Readable := fun v => by
  cases v <;> unfold Value.Readable <;> infer_instance

section Values

variable {v : Value} {ty : String}

theorem typeLen_of_mem (h : ty ∈ v.types) : typeLen ty = some v.bytes.length := by
  cases v with
  | bool v =>
    simp only [Value.types, List.mem_cons, List.not_mem_nil, or_false] at h
    rcases h with rfl | rfl <;> rfl
  | _ =>
    obtain rfl := List.mem_singleton.mp h
    simp [typeLen, Value.bytes]

/-- A value is decoded as it was written. -/
theorem decodeScalar_bytes (h : ty ∈ v.types) : decodeScalar ty v.bytes = .ok v.reading := by
  cases v with
  | bool v =>
    have hword : word 1 (Value.bool v).bytes = .ok (if v then 1 else 0) := by
      rw [Value.bytes, word_byte]
      cases v <;> rfl
    simp only [Value.types, List.mem_cons, List.not_mem_nil, or_false] at h
    rcases h with rfl | rfl <;> simp only [decodeScalar, hword, ok_bind] <;> rfl
  | u8 v =>
    obtain rfl := List.mem_singleton.mp h
    simp only [decodeScalar, Value.bytes, word_byte v, ok_bind]
    rfl
  | i8 v =>
    obtain rfl := List.mem_singleton.mp h
    simp only [decodeScalar, Value.bytes, word_byte v.toUInt8, ok_bind, FieldValue.fromI8,
      UInt8.ofNat_toNat]
    rfl
  | u16 v =>
    have hword : word 2 (leBytes 2 v.toNat) = .ok v.toNat := word_leBytes v.toNat_lt
    obtain rfl := List.mem_singleton.mp h
    simp only [decodeScalar, Value.bytes, hword, ok_bind]
    rfl
  | u32 v =>
    have hword : word 4 (leBytes 4 v.toNat) = .ok v.toNat := word_leBytes v.toNat_lt
    obtain rfl := List.mem_singleton.mp h
    simp only [decodeScalar, Value.bytes, hword, ok_bind]
    rfl
  | i32 v =>
    have hword : word 4 (leBytes 4 v.toUInt32.toNat) = .ok v.toUInt32.toNat :=
      word_leBytes v.toUInt32.toNat_lt
    obtain rfl := List.mem_singleton.mp h
    simp only [decodeScalar, Value.bytes, hword, ok_bind, FieldValue.fromI32, UInt32.ofNat_toNat]
    rfl
  | u64 v =>
    have hword : word 8 (leBytes 8 v.toNat) = .ok v.toNat := word_leBytes v.toNat_lt
    obtain rfl := List.mem_singleton.mp h
    simp only [decodeScalar, Value.bytes, hword, ok_bind, FieldValue.from64, UInt64.ofNat_toNat]
    rfl
  | f32 v =>
    have hword : word 4 (leBytes 4 v.bits.toNat) = .ok v.bits.toNat := word_leBytes v.bits.toNat_lt
    obtain rfl := List.mem_singleton.mp h
    simp only [decodeScalar, Value.bytes, hword, ok_bind]
    rfl
  | f64 v =>
    have hword : word 8 (leBytes 8 v.bits.toNat) = .ok v.bits.toNat := word_leBytes v.bits.toNat_lt
    obtain rfl := List.mem_singleton.mp h
    simp only [decodeScalar, Value.bytes, hword, ok_bind]
    rfl

/-- The check of a value is that it is readable. -/
theorem checkScalar_bytes (h : ty ∈ v.types) (off : ℕ) :
    checkScalar off ty v.bytes = .ok () ↔ v.Readable := by
  unfold checkScalar
  cases v with
  | u64 v =>
    have hword : word 8 (leBytes 8 v.toNat) = .ok v.toNat := word_leBytes v.toNat_lt
    rw [if_pos (List.mem_singleton.mp h), Value.bytes, hword, ok_bind]
    unfold Value.Readable
    split
    · exact iff_of_false (fun h => by cases h) (by omega)
    · exact iff_of_true rfl (by omega)
  | bool v =>
    have hindex : (index (Value.bool v).bytes 0 : Checked ReadError UInt8) =
        .ok (if v then 1 else 0) := rfl
    have hle : ¬ (1 : UInt8) < if v then 1 else 0 := by cases v <;> decide
    refine iff_of_true ?_ trivial
    simp only [Value.types, List.mem_cons, List.not_mem_nil, or_false] at h
    rcases h with rfl | rfl
    · rw [if_neg (by decide), if_pos rfl, hindex, ok_bind, if_neg hle]
      rfl
    · rfl
  | _ =>
    obtain rfl := List.mem_singleton.mp h
    exact iff_of_true rfl trivial

end Values

/-! ## 2. Data -/

/-- The key of an element of a field. -/
def elementKey (topic : String) (f : Field) (i : ℕ) : String :=
  if f.count = 1 then topic ++ "." ++ f.name else topic ++ "." ++ f.name ++ "[" ++ i.repr ++ "]"

def fieldKeys (topic : String) (f : Field) : List String :=
  (List.range f.count).map (elementKey topic f)

/-- Values under their keys. -/
def keyed (keys : List String) (values : List Value) : Fields :=
  (keys.zip values).map fun entry => (entry.1, entry.2.reading)

/-- A field of scalars that are not passed over: its type is known, it is no padding and no text,
and it has a value. -/
structure Plain (f : Field) : Prop where
  known : (typeLen f.ty).isSome = true
  kept : isPadding f.name = false
  scalar : f.ty ≠ "char"
  topLevel : f.topLevel = true
  count : 0 < f.count

instance : DecidablePred Plain := fun f =>
  decidable_of_iff ((typeLen f.ty).isSome = true ∧ isPadding f.name = false ∧ f.ty ≠ "char" ∧
      f.topLevel = true ∧ 0 < f.count)
    ⟨fun ⟨h1, h2, h3, h4, h5⟩ => ⟨h1, h2, h3, h4, h5⟩,
      fun h => ⟨h.known, h.kept, h.scalar, h.topLevel, h.count⟩⟩

/-- Fields and the types that their values stand for, one value for each element. -/
def matched : List Field → List (List String) → Bool
  | [], types => types.isEmpty
  | f :: fields, types =>
    decide (f.count ≤ types.length) && (types.take f.count).all (fun t => decide (f.ty ∈ t)) &&
      matched fields (types.drop f.count)

section Data

variable {off : ℕ} {topic : String} {f : Field}

/-- **A readable value is one field**; one with a time of 2^63 or more makes the reader fail. -/
theorem decodeElement_bytes {v : Value} (h : f.ty ∈ v.types) (front rest : List UInt8)
    (values : Fields) (i : ℕ) {decoded : Fields × ℕ} :
    decodeElement off topic f v.bytes.length (front ++ (v.bytes ++ rest)) (values, front.length) i =
        .ok decoded ↔
      v.Readable ∧ decoded =
        (values ++ [(elementKey topic f i, v.reading)], (front ++ v.bytes).length) := by
  have hlong : ¬ (front ++ (v.bytes ++ rest)).length < front.length + v.bytes.length := by
    rw [List.length_append, List.length_append]
    omega
  have hslice : (slice (front ++ (v.bytes ++ rest)) front.length
      (front.length + v.bytes.length) : Checked ReadError _) = .ok v.bytes :=
    slice_middle front _ rfl rfl
  unfold decodeElement
  dsimp only
  rw [if_neg hlong, hslice, ok_bind, List.length_append]
  have hcheck {u : Unit} : checkScalar off f.ty v.bytes = .ok u ↔ v.Readable ∧ u = () := by
    rw [checkScalar_bytes h off, and_iff_left rfl]
  refine bind_eq_ok_iff hcheck fun _ => ?_
  rw [decodeScalar_bytes h]
  rfl

theorem foldlM_decodeElement {vs : List Value} :
    ∀ {is : List ℕ} (front rest : List UInt8) {values : Fields} {decoded : Fields × ℕ} {n : ℕ},
      typeLen f.ty = some n → is.length = vs.length → (∀ v ∈ vs, f.ty ∈ v.types) →
      (is.foldlM (decodeElement off topic f n (front ++ (vs.flatMap Value.bytes ++ rest)))
          (values, front.length) = .ok decoded ↔
        (∀ v ∈ vs, v.Readable) ∧ decoded = (values ++ keyed (is.map (elementKey topic f)) vs,
          (front ++ vs.flatMap Value.bytes).length)) := by
  induction vs with
  | nil =>
    intro is front rest values decoded n _ hlength _
    obtain rfl : is = [] := List.length_eq_zero_iff.mp hlength
    rw [List.foldlM_nil, List.flatMap_nil, List.append_nil]
    simp only [keyed, List.zip_nil_right, List.map_nil, List.append_nil]
    exact ⟨fun h => ⟨List.forall_mem_nil _, (Except.ok.inj h).symm⟩,
      fun h => congrArg Except.ok h.2.symm⟩
  | cons v vs ih =>
    intro is front rest values decoded n hn hlength htypes
    cases is with
    | nil => cases hlength
    | cons i is =>
      obtain ⟨hv, hvs⟩ := List.forall_mem_cons.mp htypes
      obtain rfl : n = v.bytes.length := Option.some.inj (hn.symm.trans (typeLen_of_mem hv))
      have hmore {values : Fields} : is.foldlM (decodeElement off topic f v.bytes.length
          (front ++ (v.bytes ++ (vs.flatMap Value.bytes ++ rest))))
            (values, (front ++ v.bytes).length) = .ok decoded ↔
          (∀ w ∈ vs, w.Readable) ∧ decoded = (values ++ keyed (is.map (elementKey topic f)) vs,
            (front ++ (v.bytes ++ vs.flatMap Value.bytes)).length) := by
        have hfront := @ih is (front ++ v.bytes) rest values decoded _ hn (Nat.succ.inj hlength) hvs
        rwa [List.append_assoc, List.append_assoc] at hfront
      have hkeyed : keyed ((i :: is).map (elementKey topic f)) (v :: vs) =
          [(elementKey topic f i, v.reading)] ++ keyed (is.map (elementKey topic f)) vs := rfl
      rw [List.flatMap_cons, List.append_assoc, List.foldlM_cons, List.forall_mem_cons, and_assoc,
        hkeyed, ← List.append_assoc values]
      exact bind_eq_ok_and (decodeElement_bytes hv front _ values i) fun _ => hmore

/-- A field is decoded as its elements. -/
theorem decodeField_bytes (hf : Plain f) {vs : List Value} (hcount : f.count = vs.length)
    (htypes : ∀ v ∈ vs, f.ty ∈ v.types) (last k : ℕ) (front rest : List UInt8)
    (values : Fields) {decoded : Option (Fields × ℕ)} :
    decodeField off topic last (front ++ (vs.flatMap Value.bytes ++ rest))
        (some (values, front.length)) (f, k) = .ok decoded ↔
      (∀ v ∈ vs, v.Readable) ∧ decoded = some (values ++ keyed (fieldKeys topic f) vs,
        (front ++ vs.flatMap Value.bytes).length) := by
  obtain ⟨n, hn⟩ := Option.isSome_iff_exists.mp hf.known
  have hrange : (List.range f.count).length = vs.length := by rw [List.length_range, hcount]
  unfold decodeField
  simp only [hn, hf.kept, hf.scalar, Bool.false_eq_true, if_false]
  exact bind_eq_ok_iff (foldlM_decodeElement front rest hn hrange htypes) fun _ => rfl

theorem foldlM_decodeField {fields : List Field} :
    ∀ {vs : List Value} (k last : ℕ) (front : List UInt8) {values : Fields}
      {decoded : Option (Fields × ℕ)}, (∀ f ∈ fields, Plain f) →
      matched fields (vs.map Value.types) = true →
      ((fields.zipIdx k).foldlM (decodeField off topic last (front ++ vs.flatMap Value.bytes))
          (some (values, front.length)) = .ok decoded ↔
        (∀ v ∈ vs, v.Readable) ∧
          decoded = some (values ++ keyed (fields.flatMap (fieldKeys topic)) vs,
            (front ++ vs.flatMap Value.bytes).length)) := by
  induction fields with
  | nil =>
    intro vs k last front values decoded _ hmatched
    obtain rfl : vs = [] := List.map_eq_nil_iff.mp (List.isEmpty_iff.mp hmatched)
    rw [List.zipIdx_nil, List.foldlM_nil, List.flatMap_nil, List.flatMap_nil, List.append_nil]
    simp only [keyed, List.zip_nil_right, List.map_nil, List.append_nil]
    exact ⟨fun h => ⟨List.forall_mem_nil _, (Except.ok.inj h).symm⟩,
      fun h => congrArg Except.ok h.2.symm⟩
  | cons f fields ih =>
    intro vs k last front values decoded hplain hmatched
    obtain ⟨hf, hfields⟩ := List.forall_mem_cons.mp hplain
    rw [matched, List.length_map, ← List.map_take, ← List.map_drop, Bool.and_eq_true,
      Bool.and_eq_true, decide_eq_true_iff, List.all_map, List.all_eq_true] at hmatched
    obtain ⟨⟨hlong, hall⟩, hmore⟩ := hmatched
    -- the values of the field and those behind it
    generalize hown : vs.take f.count = own at hall
    generalize hrest : vs.drop f.count = rest at hmore
    obtain rfl : vs = own ++ rest := by rw [← hown, ← hrest, List.take_append_drop]
    have hcount : f.count = own.length := by
      rw [← hown, List.length_take, Nat.min_eq_left hlong]
    have htypes : ∀ v ∈ own, f.ty ∈ v.types := fun v hv => of_decide_eq_true (hall v hv)
    have hkeys : (fieldKeys topic f).length = own.length := by
      rw [fieldKeys, List.length_map, List.length_range, hcount]
    have hkeyed : keyed ((f :: fields).flatMap (fieldKeys topic)) (own ++ rest) =
        keyed (fieldKeys topic f) own ++ keyed (fields.flatMap (fieldKeys topic)) rest := by
      rw [keyed, List.flatMap_cons, List.zip_append hkeys, List.map_append]
      rfl
    have hnext := @ih rest (k + 1) last (front ++ own.flatMap Value.bytes)
      (values ++ keyed (fieldKeys topic f) own) decoded hfields hmore
    rw [List.append_assoc, ← List.flatMap_append, List.append_assoc, ← hkeyed] at hnext
    rw [List.zipIdx_cons, List.foldlM_cons, List.forall_mem_append, and_assoc]
    rw [List.flatMap_append] at hnext ⊢
    exact bind_eq_ok_and (decodeField_bytes hf hcount htypes last k front _ values) fun _ => hnext

/-- **The values of a record are decoded under its keys**, when all of them are readable. -/
theorem decodeFields_bytes {fields : List Field} {vs : List Value}
    (hplain : ∀ f ∈ fields, Plain f) (hmatched : matched fields (vs.map Value.types) = true)
    {decoded : Option (Fields × ℕ)} :
    decodeFields off topic fields (vs.flatMap Value.bytes) = .ok decoded ↔
      (∀ v ∈ vs, v.Readable) ∧ decoded = some (keyed (fields.flatMap (fieldKeys topic)) vs,
        (vs.flatMap Value.bytes).length) :=
  foldlM_decodeField 0 fields.length [] hplain hmatched

/-- The flattened fields of a type without nested ones are its own. -/
theorem flattenFields_plain {fields : List Field} (hplain : ∀ f ∈ fields, Plain f)
    (hsmall : (fields.map Field.count).sum ≤ 4096) (formats : List Format) :
    flattenFields fields formats = some fields := by
  have hexpand {more : List Field} : ∀ acc : Flattened, (∀ f ∈ more, Plain f) →
      (more.map Field.count).sum ≤ acc.remaining → acc.remaining ≤ 4096 →
      expand formats 9 true more "" acc =
        some ⟨acc.remaining - (more.map Field.count).sum, acc.out ++ more⟩ := by
    induction more with
    | nil =>
      intro acc _ _ _
      rw [List.map_nil, List.sum_nil, Nat.sub_zero, List.append_nil]
      rfl
    | cons f more ih =>
      intro acc hall hsum hbound
      obtain ⟨hf, hmore⟩ := List.forall_mem_cons.mp hall
      rw [List.map_cons, List.sum_cons] at hsum
      have hcount := hf.count
      have hfield : (⟨f.ty, "" ++ f.name, f.count, true⟩ : Field) = f := by
        rw [String.empty_append, ← hf.topLevel]
      have hnext := ih ⟨acc.remaining - f.count, acc.out ++ [f]⟩ hmore
        (by dsimp only; omega) (by dsimp only; omega)
      rw [expand] at hnext ⊢
      rw [List.foldlM_cons, if_neg (by omega)]
      dsimp only
      rw [if_pos hf.known, if_neg hf.scalar, if_pos (by omega), hfield]
      refine hnext.trans ?_
      rw [List.append_assoc, List.singleton_append, List.map_cons, List.sum_cons, Nat.sub_sub]
  rw [flattenFields, hexpand ⟨4096, []⟩ hplain hsmall (Nat.le_refl _)]
  rfl

end Data

/-! ## 3. Topics -/

/-- What the message of a format says. -/
def definition (topic : String × String) : String := topic.1 ++ ":" ++ topic.2

/-- The fields that a text declares. -/
def fieldsOf (text : List Char) : List Field := (text.splitOn ';').filterMap parseField

/-- The type that a topic declares. -/
def declared (topic : String × String) : Format := ⟨topic.1, fieldsOf topic.2.toList⟩

def topicKeys (name : String) (fields : List Field) : List String :=
  fields.flatMap (fieldKeys name)

/-- A topic that says what it means: its fields are scalars under keys of their own, behind one
time. -/
structure Sound (name : String) (text : List Char) : Prop where
  named : ':' ∉ name.toList
  parsed : ∀ item ∈ text.splitOn ';', item = [] ∨ (parseField item).isSome = true
  plain : ∀ f ∈ fieldsOf text, Plain f
  small : ((fieldsOf text).map Field.count).sum ≤ 4096
  stamped : (fieldsOf text).head? = some ⟨"uint64_t", "timestamp", 1, true⟩
  once : ∀ f ∈ (fieldsOf text).tail, f.name ≠ "timestamp"
  distinct : (topicKeys name (fieldsOf text)).Nodup

instance (name : String) (text : List Char) : Decidable (Sound name text) :=
  decidable_of_iff (':' ∉ name.toList ∧
      (∀ item ∈ text.splitOn ';', item = [] ∨ (parseField item).isSome = true) ∧
      (∀ f ∈ fieldsOf text, Plain f) ∧ ((fieldsOf text).map Field.count).sum ≤ 4096 ∧
      (fieldsOf text).head? = some ⟨"uint64_t", "timestamp", 1, true⟩ ∧
      (∀ f ∈ (fieldsOf text).tail, f.name ≠ "timestamp") ∧ (topicKeys name (fieldsOf text)).Nodup)
    ⟨fun ⟨h1, h2, h3, h4, h5, h6, h7⟩ => ⟨h1, h2, h3, h4, h5, h6, h7⟩,
      fun ⟨h1, h2, h3, h4, h5, h6, h7⟩ => ⟨h1, h2, h3, h4, h5, h6, h7⟩⟩

/-- The characters of two texts together. -/
theorem toList_append_of {s t : String} {cs ds : List Char} (hs : s.toList = cs)
    (ht : t.toList = ds) : (s ++ t).toList = cs ++ ds := by rw [String.toList_append, hs, ht]

theorem chars {cs : List Char} : (String.ofList cs).toList = cs := String.toList_ofList

theorem chars₂ {cs ds : List Char} : (String.ofList cs ++ String.ofList ds).toList = cs ++ ds :=
  toList_append_of chars chars

theorem chars₃ {cs ds es : List Char} :
    (String.ofList cs ++ String.ofList ds ++ String.ofList es).toList = cs ++ ds ++ es :=
  toList_append_of chars₂ chars

/-- Each topic is sound; its text is taken as characters, which are cheap to compute with. -/
theorem sound_topics : ∀ topic ∈ topics, Sound topic.1 topic.2.toList := by
  have hone {name text : String} {chars : List Char} (htext : text.toList = chars)
      (h : Sound name chars) : Sound name text.toList := htext ▸ h
  refine List.forall_mem_cons.mpr ⟨hone chars₂ (by decide), ?_⟩
  refine List.forall_mem_cons.mpr ⟨hone chars (by decide), ?_⟩
  refine List.forall_mem_cons.mpr ⟨hone chars₃ (by decide), ?_⟩
  refine List.forall_mem_cons.mpr ⟨hone chars₂ (by decide), ?_⟩
  refine List.forall_mem_cons.mpr ⟨hone chars₃ (by decide), ?_⟩
  refine List.forall_mem_cons.mpr ⟨hone chars₂ (by decide), ?_⟩
  refine List.forall_mem_cons.mpr ⟨hone chars (by decide), ?_⟩
  exact List.forall_mem_singleton.mpr (hone chars (by decide))

theorem parseField_nil : parseField [] = none := rfl

/-- **A format is read as the type that it declares.** Names and types of the topics hold none of
the separators. -/
theorem parseFormat_definition {topic : String × String} (h : Sound topic.1 topic.2.toList) :
    parseFormat (definition topic) = some (declared topic) := by
  have hchars : (definition topic).toList = topic.1.toList ++ ':' :: topic.2.toList := by
    rw [definition, toList_append_of (toList_append_of rfl rfl) rfl, List.append_assoc]
    rfl
  have hbefore : ∀ c ∈ topic.1.toList, decide (c ≠ ':') = true :=
    fun c hc => decide_eq_true fun hcolon => h.named (hcolon ▸ hc)
  have hsplit : Reference.Ulog.splitOnce ':' (definition topic).toList =
      some (topic.1.toList, topic.2.toList) := by
    rw [hchars, Reference.Ulog.splitOnce,
      if_pos (List.mem_append_right _ List.mem_cons_self), List.takeWhile_append_of_pos hbefore,
      List.dropWhile_append_of_pos hbefore, List.takeWhile_cons_of_neg (by decide),
      List.dropWhile_cons_of_neg (by decide), List.append_nil]
    rfl
  have hfields {items : List (List Char)}
      (hitems : ∀ item ∈ items, item = [] ∨ (parseField item).isSome = true) :
      (items.filter fun item => !item.isEmpty).mapM parseField =
        some (items.filterMap parseField) := by
    induction items with
    | nil => rfl
    | cons item items ih =>
      obtain ⟨hitem, hmore⟩ := List.forall_mem_cons.mp hitems
      rcases hitem with rfl | hsome
      · rw [List.filter_cons_of_neg (by decide), List.filterMap_cons_none parseField_nil]
        exact ih hmore
      · obtain ⟨f, hf⟩ := Option.isSome_iff_exists.mp hsome
        have hne : (!item.isEmpty) = true := by
          cases item with
          | nil => cases hsome
          | cons c cs => rfl
        have hfilter : ((item :: items).filter fun item => !item.isEmpty) =
            item :: items.filter fun item => !item.isEmpty := List.filter_cons_of_pos hne
        rw [hfilter, List.mapM_cons, hf, ih hmore, List.filterMap_cons_some hf]
        rfl
  rw [parseFormat, hsplit]
  change ((topic.2.toList.splitOn ';').filter fun item => !item.isEmpty).mapM parseField >>= _ = _
  rw [hfields h.parsed, String.ofList_toList]
  rfl

/-! ## 4. Data -/

/-- The topic of data. -/
def Data.topic (d : Data) : String × String := topics.getD d.msgId.toNat ("", "")

/-- The values behind their time. -/
def Data.all (d : Data) : List Value := .u64 d.tUs :: d.values

/-- Data with the values that their topic declares, for a topic that there is. -/
structure Data.Typed (d : Data) : Prop where
  known : d.msgId.toNat < topics.length
  matched : matched (fieldsOf d.topic.2.toList) (d.all.map Value.types) = true

/-- Data whose times are not too large. -/
def Data.Readable (d : Data) : Prop := ∀ v ∈ d.all, v.Readable

instance : DecidablePred Data.Readable := fun d => inferInstanceAs (Decidable (∀ v ∈ d.all, _))

/-- The fields that data are read as. -/
def Data.fields (d : Data) : Fields := keyed (topicKeys d.topic.1 (fieldsOf d.topic.2.toList)) d.all

/-- What data are decoded to. -/
def Data.record (d : Data) : DataRecord where
  msgId := d.msgId
  binding := declared d.topic
  fields := fieldsOf d.topic.2.toList
  values := d.fields
  tUs := d.tUs.toInt64

theorem record_values (d : Data) : d.record.values = d.fields := rfl

theorem length_fieldKeys (name : String) (f : Field) : (fieldKeys name f).length = f.count := by
  rw [fieldKeys, List.length_map, List.length_range]

theorem length_topicKeys {name : String} {fields : List Field} :
    ∀ {types : List (List String)}, matched fields types = true →
      (topicKeys name fields).length = types.length := by
  induction fields with
  | nil =>
    intro types h
    rw [List.isEmpty_iff.mp h]
    rfl
  | cons f fields ih =>
    intro types h
    rw [matched, Bool.and_eq_true, Bool.and_eq_true, decide_eq_true_iff] at h
    obtain ⟨⟨hlong, -⟩, hmore⟩ := h
    have hmore := ih hmore
    rw [List.length_drop] at hmore
    rw [topicKeys, List.flatMap_cons, List.length_append, length_fieldKeys]
    unfold topicKeys at hmore
    omega

section Reading

variable {s : Session} {off : ℕ} {raw : List UInt8} {d : Data}

theorem Data.Typed.sound (h : d.Typed) : Sound d.topic.1 d.topic.2.toList := by
  refine sound_topics d.topic ?_
  rw [Data.topic, List.getD_eq_getElem?_getD, List.getElem?_eq_getElem h.known, Option.getD_some]
  exact List.getElem_mem h.known

theorem Data.Typed.keys (h : d.Typed) :
    d.fields.map Prod.fst = topicKeys d.topic.1 (fieldsOf d.topic.2.toList) := by
  have hlength : (topicKeys d.topic.1 (fieldsOf d.topic.2.toList)).length = d.all.length :=
    (length_topicKeys h.matched).trans (List.length_map _)
  rw [Data.fields, keyed, List.map_map]
  exact List.map_fst_zip (Nat.le_of_eq hlength)

/-- The fields of a topic begin with the time. -/
theorem Data.Typed.stamp (h : d.Typed) : ∃ more,
    fieldsOf d.topic.2.toList = ⟨"uint64_t", "timestamp", 1, true⟩ :: more ∧
      ∀ f ∈ more, f.name ≠ "timestamp" := by
  have hhead := h.sound.stamped
  have htail := h.sound.once
  cases hfields : fieldsOf d.topic.2.toList with
  | nil =>
    rw [hfields] at hhead
    cases hhead
  | cons f more =>
    rw [hfields] at hhead htail
    obtain rfl := Option.some.inj hhead
    exact ⟨more, rfl, htail⟩

theorem Data.Typed.time (h : d.Typed) :
    integer d.fields (d.topic.1 ++ ".timestamp") = some d.tUs.toInt64 := by
  obtain ⟨more, hfields, -⟩ := h.stamp
  refine integer_eq_some (h.keys ▸ h.sound.distinct) ?_
  have hkeys : topicKeys d.topic.1 (fieldsOf d.topic.2.toList) =
      (d.topic.1 ++ "." ++ "timestamp") :: more.flatMap (fieldKeys d.topic.1) := by
    rw [hfields]
    rfl
  rw [Data.fields, hkeys, String.append_assoc]
  exact List.mem_cons_self

/-- Not before the last time under the id. -/
def Data.NotBefore (s : Session) (d : Data) : Prop :=
  ∀ last, s.lastTimestamp d.msgId = some last → last ≤ d.tUs.toInt64

theorem recordTime_fields (h : d.Typed) {tUs : Int64} :
    recordTime off d.topic.1 (fieldsOf d.topic.2.toList) d.fields (s.lastTimestamp d.msgId) =
        .ok tUs ↔ d.NotBefore s ∧ tUs = d.tUs.toInt64 := by
  obtain ⟨more, hfields, honce⟩ := h.stamp
  have hstamped : ((fieldsOf d.topic.2.toList).filter fun f => f.name = "timestamp").length = 1 ∧
      ∃ f ∈ fieldsOf d.topic.2.toList, f.name = "timestamp" ∧ f.ty = "uint64_t" ∧ f.count = 1 := by
    rw [hfields]
    refine ⟨?_, _, List.mem_cons_self, rfl, rfl, rfl⟩
    rw [List.filter_cons_of_pos (by decide), List.filter_eq_nil_iff.mpr]
    · rfl
    · exact fun f hf hname => honce f hf (of_decide_eq_true hname)
  unfold recordTime
  rw [if_neg (by rw [not_or, not_not, not_not]; exact hstamped), h.time]
  dsimp only
  cases hlast : s.lastTimestamp d.msgId with
  | none =>
    rw [if_neg (by simp)]
    refine ⟨fun h => ⟨fun last h' => ?_, (Except.ok.inj h).symm⟩, fun h => congrArg _ h.2.symm⟩
    rw [hlast] at h'
    cases h'
  | some last =>
    by_cases hle : last ≤ d.tUs.toInt64
    · rw [if_neg (by simpa using Int64.not_lt.mpr hle)]
      refine ⟨fun h => ⟨fun last' h' => ?_, (Except.ok.inj h).symm⟩, fun h => congrArg _ h.2.symm⟩
      rw [hlast] at h'
      exact Option.some.inj h' ▸ hle
    · rw [if_pos (by simpa using Int64.not_le.mp hle)]
      exact iff_of_false (fun h => by cases h) fun h => hle (h.1 last hlast)

/-- **Data are decoded under their topic**, when they are readable and not before the last ones.
-/
theorem readData_data (h : d.Typed) (hs : s.subs d.msgId = some (declared d.topic))
    {read : Reference.Ulog.Message × Session} :
    readData s off (Message.data d).payload raw = .ok read ↔
      (d.Readable ∧ d.NotBefore s) ∧
        read = (.decoded d.record, s.observe d.msgId d.tUs.toInt64) := by
  have hpayload : (Message.data d).payload = leBytes 2 d.msgId.toNat ++ d.all.flatMap Value.bytes :=
    rfl
  have hlong : ¬ (Message.data d).payload.length < 2 := by
    rw [hpayload, List.length_append, length_leBytes]
    omega
  have hword : word 2 (Message.data d).payload = .ok d.msgId.toNat :=
    word_leBytes_append d.msgId.toNat_lt _
  have hbody : (slice (Message.data d).payload 2 (Message.data d).payload.length :
      Checked ReadError _) = .ok (d.all.flatMap Value.bytes) := by
    rw [Scanner.slice_rest (by omega), hpayload, List.drop_left']
    exact length_leBytes _ _
  have hkeys : (d.fields.map Prod.fst).Nodup := h.keys ▸ h.sound.distinct
  unfold readData
  rw [if_neg hlong, hword, ok_bind]
  dsimp only
  rw [UInt16.ofNat_toNat, hs]
  dsimp only
  rw [show (declared d.topic).fields = fieldsOf d.topic.2.toList from rfl,
    flattenFields_plain h.sound.plain h.sound.small, hbody]
  dsimp only
  rw [ok_bind, and_assoc]
  refine bind_eq_ok_and (decodeFields_bytes h.sound.plain h.matched) fun _ => ?_
  dsimp only
  rw [if_neg (by rw [not_or, not_not, not_not]; exact ⟨rfl, hkeys⟩)]
  exact bind_eq_ok_iff (recordTime_fields h) fun _ => rfl

end Reading

/-! ## 5. Messages -/

/-- A message whose size is not cut. -/
def Message.Fits (m : Message) : Prop := m.payload.length < 2 ^ 16

instance : DecidablePred Message.Fits := fun m =>
  inferInstanceAs (Decidable (m.payload.length < 2 ^ 16))

/-- A message that means what it says: of a topic, of data of their topic. -/
def Message.Typed : Message → Prop
  | .format topic => Sound topic.1 topic.2.toList
  | .data d => d.Typed
  | _ => True

/-- What a message is read as. -/
def Message.item : Message → Reference.Ulog.Message
  | .flagBits => .flagBits
  | .format topic => .format (some (declared topic))
  | .info _ _ => .other (.ofNat 'I'.toNat)
  | .paramF32 _ _ | .paramI32 _ _ => .other (.ofNat 'P'.toNat)
  | .subscription msgId name => .subscribe 0 msgId name
  | .data d => .decoded d.record
  | .logged level tUs text => .logged level tUs text

/-- What the reader knows after a message. -/
def Message.next (s : Session) : Message → Session
  | .format topic => { s with formats := s.formats ++ [declared topic] }
  | .subscription msgId name => s.subscribe 0 0 msgId name
  | .data d => s.observe d.msgId d.tUs.toInt64
  | _ => s

/-- A message that is read after what the reader knows.  Only data can fail: by a time that has no
number, or one before the last under their id. -/
def Message.Good (s : Session) : Message → Prop
  | .data d => d.Readable ∧ d.NotBefore s
  | _ => True

/-- Data of a subscription. -/
def Message.Bound (s : Session) : Message → Prop
  | .data d => s.subs d.msgId = some (declared d.topic)
  | _ => True

theorem textField_utf8 (text : String) (off : ℕ) : textField (utf8 text) off = .ok text := by
  have htext : fromUtf8 (utf8 text) = .ok text := by
    rw [fromUtf8_eq_ok, utf8, toByteArray_toList, utf8Chunks_encode]
  rw [textField, htext]

section Messages

variable {s : Session} {off : ℕ} {raw : List UInt8} {m : Message}

/-- A message is read as its body. -/
theorem readMessage_msg (h : m.Fits) (rest : List UInt8)
    {read : Reference.Ulog.Message × ℕ × Session} :
    readMessage 0 s (m.bytes ++ rest) off = .ok read ↔
      ∃ r, readBody 0 s off (.ofNat m.ty.toNat) m.payload m.bytes = .ok r ∧
        read = (r.1, m.bytes.length, r.2) := by
  have hbytes : m.bytes ++ rest = leBytes 2 m.payload.length ++
      (.ofNat m.ty.toNat :: (m.payload ++ rest)) := by
    rw [Message.bytes, msg, List.append_assoc, List.cons_append]
  have hlength : m.bytes.length = 3 + m.payload.length := by
    rw [Message.bytes, msg, List.length_append, length_leBytes, List.length_cons]
    omega
  have hsize : word 2 (m.bytes ++ rest) = .ok m.payload.length := by
    rw [hbytes]
    exact word_leBytes_append h _
  have hty : (index (m.bytes ++ rest) 2 : Checked ReadError UInt8) = .ok (.ofNat m.ty.toNat) := by
    rw [hbytes, index, List.getElem?_append_right (by simp), length_leBytes]
    rfl
  have hlong : ¬ (m.bytes ++ rest).length < 3 + m.payload.length := by
    rw [List.length_append, hlength]
    omega
  have hpayload : (slice (m.bytes ++ rest) 3 (3 + m.payload.length) :
      Checked ReadError _) = .ok m.payload := by
    have hsplit : m.bytes ++ rest = (leBytes 2 m.payload.length ++ [.ofNat m.ty.toNat]) ++
        (m.payload ++ rest) := by
      rw [hbytes, List.append_assoc, List.singleton_append]
    rw [hsplit]
    exact slice_middle _ _ (by simp) (by simp)
  have hraw : (slice (m.bytes ++ rest) 0 (3 + m.payload.length) : Checked ReadError _) =
      .ok m.bytes := by
    rw [← hlength, slice_eq (Nat.zero_le _) (by simp), List.drop_zero, Nat.sub_zero,
      List.take_left]
  unfold readMessage
  rw [hsize, ok_bind, hty, ok_bind, if_neg hlong, hpayload, ok_bind, hraw, ok_bind, bind_eq_ok,
    hlength]
  refine exists_congr fun r => and_congr_right fun _ => ?_
  exact ⟨fun h => (Except.ok.inj h).symm, fun h => congrArg Except.ok h.symm⟩

/-- **What a message says is read**, exactly when it is good: a text always, data when their time
is one that the reader takes here. -/
theorem readBody_message (htyped : m.Typed) (hbound : m.Bound s)
    {read : Reference.Ulog.Message × Session} :
    readBody 0 s off (.ofNat m.ty.toNat) m.payload raw = .ok read ↔
      m.Good s ∧ read = (m.item, m.next s) := by
  have hput {r : Reference.Ulog.Message × Session} :
      (.ok r : Checked ReadError _) = .ok read ↔ True ∧ read = r :=
    ⟨fun h => ⟨trivial, (Except.ok.inj h).symm⟩, fun h => congrArg _ h.2.symm⟩
  cases m with
  | flagBits => exact hput
  | format topic =>
    have hread : readBody 0 s off (.ofNat 'F'.toNat) (utf8 (definition topic)) raw =
        .ok (.format (some (declared topic)),
          { s with formats := s.formats ++ [declared topic] }) := by
      have hparse : parseFormat (definition topic) = some (declared topic) :=
        parseFormat_definition htyped
      change Reference.Ulog.readFormat s off (utf8 (definition topic)) = _
      rw [Reference.Ulog.readFormat, textField_utf8, ok_bind, hparse]
      rfl
    rw [show (Message.format topic).payload = utf8 (definition topic) from rfl,
      show (Message.format topic).ty = 'F' from rfl, hread]
    exact hput
  | info key value => exact hput
  | paramF32 name v => exact hput
  | paramI32 name v => exact hput
  | subscription msgId name =>
    have hread : readBody 0 s off (.ofNat 'A'.toNat)
        (0 :: (leBytes 2 msgId.toNat ++ utf8 name)) raw =
        .ok (.subscribe 0 msgId name, s.subscribe 0 0 msgId name) := by
      change Reference.Ulog.readSubscription 0 s off (0 :: (leBytes 2 msgId.toNat ++ utf8 name)) = _
      have hid : (slice (0 :: (leBytes 2 msgId.toNat ++ utf8 name)) 1 3 :
          Checked ReadError _) = .ok (leBytes 2 msgId.toNat) := by
        rw [← List.singleton_append]
        exact slice_middle [0] (utf8 name) rfl (by rw [length_leBytes])
      have hname : (slice (0 :: (leBytes 2 msgId.toNat ++ utf8 name)) 3
          (0 :: (leBytes 2 msgId.toNat ++ utf8 name)).length : Checked ReadError _) =
            .ok (utf8 name) := by
        rw [Scanner.slice_rest (by simp)]
        rfl
      unfold Reference.Ulog.readSubscription
      have hcut : msgId.toNat % 256 ^ 2 = msgId.toNat := Nat.mod_eq_of_lt msgId.toNat_lt
      rw [if_neg (by simp), index, List.getElem?_cons_zero, ok_bind, hid, ok_bind, hname]
      dsimp only
      rw [ok_bind, textField_utf8, ok_bind, ofLeBytes_leBytes, hcut, UInt16.ofNat_toNat]
      rfl
    rw [show (Message.subscription msgId name).payload = 0 :: (leBytes 2 msgId.toNat ++ utf8 name)
      from rfl, show (Message.subscription msgId name).ty = 'A' from rfl, hread]
    exact hput
  | data d => exact readData_data htyped hbound
  | logged level tUs text =>
    have hread : readBody 0 s off (.ofNat 'L'.toNat)
        (level :: (leBytes 8 tUs.toNat ++ utf8 text)) raw = .ok (.logged level tUs text, s) := by
      change Reference.Ulog.readLogged s off (level :: (leBytes 8 tUs.toNat ++ utf8 text)) = _
      have htime : (slice (level :: (leBytes 8 tUs.toNat ++ utf8 text)) 1 9 :
          Checked ReadError _) = .ok (leBytes 8 tUs.toNat) := by
        rw [← List.singleton_append]
        exact slice_middle [level] (utf8 text) rfl (by rw [length_leBytes])
      have htext : (slice (level :: (leBytes 8 tUs.toNat ++ utf8 text)) 9
          (level :: (leBytes 8 tUs.toNat ++ utf8 text)).length : Checked ReadError _) =
            .ok (utf8 text) := by
        rw [Scanner.slice_rest (by simp)]
        rfl
      unfold Reference.Ulog.readLogged
      have hcut : tUs.toNat % 256 ^ 8 = tUs.toNat := Nat.mod_eq_of_lt tUs.toNat_lt
      rw [if_neg (by simp), index, List.getElem?_cons_zero, ok_bind, htime, ok_bind, htext,
        ok_bind, textField_utf8, ok_bind, ofLeBytes_leBytes, hcut, UInt64.ofNat_toNat]
      rfl
    rw [show (Message.logged level tUs text).payload = level :: (leBytes 8 tUs.toNat ++ utf8 text)
      from rfl, show (Message.logged level tUs text).ty = 'L' from rfl, hread]
    exact hput

/-- A message is read whatever comes after it, exactly when it is good. -/
theorem readMessage_message (hfits : m.Fits) (htyped : m.Typed) (hbound : m.Bound s)
    (rest : List UInt8) {read : Reference.Ulog.Message × ℕ × Session} :
    readMessage 0 s (m.bytes ++ rest) off = .ok read ↔
      m.Good s ∧ read = (m.item, m.bytes.length, m.next s) := by
  rw [readMessage_msg hfits]
  constructor
  · rintro ⟨r, hr, rfl⟩
    obtain ⟨hgood, rfl⟩ := (readBody_message htyped hbound).mp hr
    exact ⟨hgood, rfl⟩
  · rintro ⟨hgood, rfl⟩
    exact ⟨_, (readBody_message htyped hbound).mpr ⟨hgood, rfl⟩, rfl⟩

end Messages

/-! ## 6. Recordings -/

/-- Messages as what a writer puts down and the reader makes of it. -/
def reporting : Writing Session Reference.Ulog.Message UInt8 Message where
  write := Message.bytes
  item := Message.item
  next s _ m := m.next s

theorem three_le_length_bytes (m : Message) : 3 ≤ m.bytes.length := by
  rw [Message.bytes, msg, List.length_append, length_leBytes, List.length_cons]
  omega

theorem readBy_message {s : Session} {m : Message} (hfits : m.Fits) (htyped : m.Typed)
    (hbound : m.Bound s) (hgood : m.Good s) (p : ℕ) :
    reporting.ReadBy (Reference.Ulog.messages 0) s p m where
  pos := Nat.lt_of_lt_of_le (by decide) (three_le_length_bytes m)
  more rest := by
    have hlong : 3 ≤ (m.bytes ++ rest).length := by
      rw [List.length_append]
      exact Nat.le_add_right_of_le (three_le_length_bytes m)
    exact decide_eq_true hlong
  step rest := (readMessage_message hfits htyped hbound rest).mpr ⟨hgood, rfl⟩

/-- A message that tells of the recording, not of the vehicle. -/
def Message.Plain : Message → Prop
  | .data _ | .logged _ _ _ => False
  | m => m.Typed

theorem after_eq_foldl (ms : List Message) : ∀ p s,
    reporting.after p s ms = ms.foldl Message.next s := by
  induction ms with
  | nil => exact fun p s => rfl
  | cons m ms ih => exact fun p s => ih _ _

/-- **What a recording says of itself is read**, whatever comes after it. -/
theorem run_preamble (front rest : List UInt8) {ms : List Message}
    (hms : ∀ m ∈ ms, m.Fits ∧ m.Plain) (s : Session) :
    (Reference.Ulog.messages 0).Run (front ++ (reporting.text ms ++ rest)) front.length s
      (reporting.scanned front.length s ms) (front.length + (reporting.text ms).length)
      (ms.foldl Message.next s) := by
  rw [← after_eq_foldl ms front.length s]
  refine (Writing.run (I := fun _ => True) rest (fun m hm s p _ => ⟨?_, trivial⟩) front trivial).1
  obtain ⟨hfits, hplain⟩ := hms m hm
  cases m with
  | data d => exact hplain.elim
  | logged level tUs text => exact hplain.elim
  | _ => exact readBy_message hfits hplain trivial trivial p

/-! ## 7. What is known before the data -/

/-- Every topic is subscribed to. -/
def Subscribed (s : Session) : Prop :=
  ∀ d : Data, d.msgId.toNat < topics.length → s.subs d.msgId = some (declared d.topic)

theorem foldl_formats (ts : List (String × String)) : ∀ s : Session,
    (ts.map Message.format).foldl Message.next s =
      { s with formats := s.formats ++ ts.map declared } := by
  induction ts with
  | nil =>
    intro s
    rw [List.map_nil, List.foldl_nil, List.map_nil, List.append_nil]
  | cons topic ts ih =>
    intro s
    rw [List.map_cons, List.foldl_cons, ih, List.map_cons]
    simp only [Message.next, List.append_assoc, List.singleton_append]

/-- Subscriptions bind their ids, one after the other, and those before them stay as they are. -/
theorem foldl_subscriptions (ts : List (String × String)) : ∀ (k : ℕ) (s : Session),
    k + ts.length ≤ 2 ^ 16 →
    let after := ((ts.zipIdx k).map fun topic =>
      Message.subscription (.ofNat topic.2) topic.1.1).foldl Message.next s
    (∀ id : UInt16, id.toNat < k → after.subs id = s.subs id) ∧
      ∀ id : UInt16, ∀ topic, k ≤ id.toNat → ts[id.toNat - k]? = some topic →
        after.subs id = findFormat s.formats topic.1 := by
  induction ts with
  | nil =>
    intro k s _
    refine ⟨fun id _ => rfl, fun id topic _ h => ?_⟩
    cases h
  | cons first ts ih =>
    intro k s hlong
    rw [List.length_cons] at hlong
    have hk : (UInt16.ofNat k).toNat = k := by
      rw [UInt16.toNat_ofNat', Nat.mod_eq_of_lt (by omega)]
    obtain ⟨hkept, hbound⟩ := ih (k + 1) (s.subscribe 0 0 (.ofNat k) first.1) (by omega)
    rw [List.zipIdx_cons, List.map_cons, List.foldl_cons]
    refine ⟨fun id hid => ?_, fun id topic hid htopic => ?_⟩
    · have hne : id ≠ .ofNat k := by
        rintro rfl
        omega
      exact (hkept id (by omega)).trans (Function.update_of_ne hne _ _)
    · by_cases hsame : id.toNat = k
      · obtain rfl : id = .ofNat k := by rw [← hsame, UInt16.ofNat_toNat]
        rw [hk, Nat.sub_self] at htopic
        obtain rfl := Option.some.inj htopic
        exact (hkept _ (by omega)).trans (Function.update_self _ _ _)
      · refine hbound id topic (by omega) ?_
        rwa [show id.toNat - k = id.toNat - (k + 1) + 1 by omega, List.getElem?_cons_succ] at htopic

/-- A type is found by its name, where no other has it. -/
theorem findFormat_declared {ts : List (String × String)} (hnodup : (ts.map Prod.fst).Nodup)
    {topic : String × String} (h : topic ∈ ts) :
    findFormat (ts.map declared) topic.1 = some (declared topic) := by
  induction ts with
  | nil => cases h
  | cons first ts ih =>
    obtain ⟨hfirst, hnodup⟩ := List.nodup_cons.mp hnodup
    rw [List.map_cons]
    rcases List.mem_cons.mp h with rfl | h
    · exact List.find?_cons_of_pos (decide_eq_true rfl)
    · have hne : ¬ decide ((declared first).name = topic.1) = true := by
        intro hname
        rw [show first.1 = topic.1 from of_decide_eq_true hname] at hfirst
        exact hfirst (List.mem_map_of_mem h)
      have hskip : findFormat (declared first :: ts.map declared) topic.1 =
          findFormat (ts.map declared) topic.1 := List.find?_cons_of_neg hne
      exact hskip.trans (ih hnodup h)

/-- What is not data leaves no time. -/
theorem foldl_lastTimestamp {ms : List Message} (id : UInt16) : ∀ s : Session,
    (∀ m ∈ ms, m.Plain) → s.lastTimestamp id = none →
      (ms.foldl Message.next s).lastTimestamp id = none := by
  induction ms with
  | nil => exact fun s _ h => h
  | cons m ms ih =>
    intro s hms h
    obtain ⟨hm, hms⟩ := List.forall_mem_cons.mp hms
    refine ih _ hms ?_
    cases m with
    | data d => exact hm.elim
    | subscription msgId name =>
      by_cases hid : id = msgId
      · subst hid
        exact Function.update_self _ _ _
      · exact (Function.update_of_ne hid _ _).trans h
    | _ => exact h

theorem fits_preamble : ∀ m ∈ preamble, m.Fits := by decide +kernel

theorem plain_preamble : ∀ m ∈ preamble, m.Plain := by
  have hformats : ∀ m ∈ topics.map Message.format, m.Plain := by
    intro m hm
    obtain ⟨topic, htopic, rfl⟩ := List.mem_map.mp hm
    exact sound_topics topic htopic
  have hsubscriptions : ∀ m ∈ topics.zipIdx.map fun topic =>
      Message.subscription (.ofNat topic.2) topic.1.1, m.Plain := by
    intro m hm
    obtain ⟨topic, -, rfl⟩ := List.mem_map.mp hm
    exact trivial
  have hsettings : ∀ m ∈ settings, m.Plain := by
    simp only [settings, List.forall_mem_cons]
    exact ⟨trivial, trivial, trivial, trivial, trivial, trivial, trivial, trivial, trivial,
      trivial, List.forall_mem_nil _⟩
  rw [preamble, List.forall_mem_append, List.forall_mem_append, List.forall_mem_cons]
  exact ⟨⟨⟨trivial, hformats⟩, hsettings⟩, hsubscriptions⟩

/-- **Before the data every topic is subscribed to**, with the type of its own format. -/
theorem subscribed_preamble : Subscribed (preamble.foldl Message.next .new) := by
  intro d hd
  have htopic : topics[d.msgId.toNat - 0]? = some d.topic := by
    rw [Nat.sub_zero, Data.topic, List.getD_eq_getElem?_getD, List.getElem?_eq_getElem hd,
      Option.getD_some]
  have hmem : d.topic ∈ topics := List.mem_of_getElem? htopic
  have hfound : findFormat (topics.map declared) d.topic.1 = some (declared d.topic) :=
    findFormat_declared (by decide) hmem
  have hsettings (s : Session) : settings.foldl Message.next s = s := rfl
  rw [preamble, List.foldl_append, List.foldl_append, hsettings, List.foldl_cons, foldl_formats]
  exact ((foldl_subscriptions topics 0 _ (by decide)).2 d.msgId d.topic (Nat.zero_le _)
    htopic).trans hfound

/-! ## 8. Which messages are read -/

/-- The topic and the time of data. -/
def Message.stamp : Message → Option (UInt16 × Int64)
  | .data d => some (d.msgId, d.tUs.toInt64)
  | _ => none

def Message.Readable : Message → Prop
  | .data d => d.Readable
  | _ => True

/-- What the loop over the events writes. -/
def Message.Recorded : Message → Prop
  | .data d => d.Typed
  | .logged _ _ _ => True
  | _ => False

/-- Not before the last time under its id.  What is no data is before nothing. -/
def Message.NotBefore (s : Session) (m : Message) : Prop :=
  ∀ x ∈ m.stamp, ∀ last, s.lastTimestamp x.1 = some last → last ≤ x.2

/-- Of two topics, or one not before the other. -/
def InOrder (x y : UInt16 × Int64) : Prop := x.1 = y.1 → x.2 ≤ y.2

section Accepted

variable {s : Session} {m m' : Message}

theorem good_iff : m.Good s ↔ m.Readable ∧ m.NotBefore s := by
  cases m with
  | data d =>
    refine and_congr_right fun _ => ⟨?_, fun h => h _ rfl⟩
    rintro h x ⟨⟩ last hlast
    exact h last hlast
  | _ => exact iff_of_true trivial ⟨trivial, fun x hx => by cases hx⟩

/-- A message that is not before the last ones moves them on. -/
theorem notBefore_next (hm : m.Recorded) (hlast : m.NotBefore s) :
    m'.NotBefore (m.next s) ↔
      m'.NotBefore s ∧ ∀ x ∈ m.stamp, ∀ y ∈ m'.stamp, InOrder x y := by
  cases m with
  | data d =>
    have hlast := hlast _ rfl
    constructor
    · intro h
      refine ⟨fun y hy last hbefore => ?_, ?_⟩
      · have hnext := h y hy
        by_cases hid : y.1 = d.msgId
        · have hle : d.tUs.toInt64 ≤ y.2 := hnext _ (by rw [hid]; exact Function.update_self _ _ _)
          exact Int64.le_trans (hlast last (hid ▸ hbefore)) hle
        · exact hnext last ((Function.update_of_ne hid _ _).trans hbefore)
      · rintro x ⟨⟩ y hy hid
        exact h y hy _ (by rw [← hid]; exact Function.update_self _ _ _)
    · rintro ⟨hbefore, horder⟩ y hy last hnext
      by_cases hid : y.1 = d.msgId
      · have hself : (s.observe d.msgId d.tUs.toInt64).lastTimestamp y.1 = some d.tUs.toInt64 := by
          rw [hid]
          exact Function.update_self _ _ _
        obtain rfl := Option.some.inj (hnext.symm.trans hself)
        exact horder _ rfl y hy hid.symm
      · exact hbefore y hy last ((Function.update_of_ne hid _ _).symm.trans hnext)
  | logged level tUs text =>
    refine ⟨fun h => ⟨h, fun x hx => by cases hx⟩, fun h => h.1⟩
  | _ => exact hm.elim

/-- **The messages that are read**: their times are not too large, and under each id they do not
decrease.  By induction on the messages, where the state is the last time under each id. -/
theorem accepted_iff {ms : List Message} : ∀ (p : ℕ) (s : Session), (∀ m ∈ ms, m.Recorded) →
    (reporting.Accepted (fun s m => m.Good s) p s ms ↔
      (∀ m ∈ ms, m.Readable) ∧ (∀ m ∈ ms, m.NotBefore s) ∧
        (ms.filterMap Message.stamp).Pairwise InOrder) := by
  induction ms with
  | nil =>
    exact fun p s _ => iff_of_true trivial
      ⟨List.forall_mem_nil _, List.forall_mem_nil _, List.Pairwise.nil⟩
  | cons m ms ih =>
    intro p s hms
    obtain ⟨hm, hms⟩ := List.forall_mem_cons.mp hms
    have hmore := ih (p + (reporting.write m).length) (reporting.next s p m) hms
    have hpair : ((m :: ms).filterMap Message.stamp).Pairwise InOrder ↔
        (∀ m' ∈ ms, ∀ x ∈ m.stamp, ∀ y ∈ m'.stamp, InOrder x y) ∧
          (ms.filterMap Message.stamp).Pairwise InOrder := by
      rw [List.pairwise_filterMap, List.pairwise_filterMap, List.pairwise_cons]
      rfl
    rw [Writing.Accepted, hmore, good_iff, List.forall_mem_cons, List.forall_mem_cons, hpair]
    constructor
    · rintro ⟨⟨hreadable, hlast⟩, hall, hnext, hmore⟩
      have hnext := fun m' hm' => (notBefore_next hm hlast).mp (hnext m' hm')
      exact ⟨⟨hreadable, hall⟩, ⟨hlast, fun m' hm' => (hnext m' hm').1⟩,
        fun m' hm' => (hnext m' hm').2, hmore⟩
    · rintro ⟨⟨hreadable, hall⟩, ⟨hlast, hbefore⟩, horder, hmore⟩
      exact ⟨⟨hreadable, hlast⟩, hall,
        fun m' hm' => (notBefore_next hm hlast).mpr ⟨hbefore m' hm', horder m' hm'⟩, hmore⟩

end Accepted

/-- **The messages of a written recording**, which are read exactly when its data are readable and
in the order of their topics. -/
theorem recorded_iff {front : List UInt8} {ms : List Message} (hfront : front.length = 16)
    (hms : ∀ m ∈ ms, m.Fits ∧ m.Recorded)
    {records : List (Scanned Session Reference.Ulog.Message)} :
    Reference.Ulog.Recorded 0 (front ++ (preamble ++ ms).flatMap Message.bytes) records ↔
      ((∀ m ∈ ms, m.Readable) ∧ (ms.filterMap Message.stamp).Pairwise InOrder) ∧
        records = reporting.scanned 16 .new preamble ++
          reporting.scanned (16 + (reporting.text preamble).length)
            (preamble.foldl Message.next .new) ms := by
  have hread (m : Message) (hm : m ∈ ms) (s : Session) (p : ℕ) (hs : Subscribed s)
      (hgood : m.Good s) :
      reporting.ReadBy (Reference.Ulog.messages 0) s p m ∧ Subscribed (m.next s) := by
    obtain ⟨hfits, hrecorded⟩ := hms m hm
    cases m with
    | data d => exact ⟨readBy_message hfits hrecorded (hs d hrecorded.known) hgood p, hs⟩
    | logged level tUs text => exact ⟨readBy_message hfits trivial trivial hgood p, hs⟩
    | _ => exact hrecorded.elim
  have hfail (m : Message) (hm : m ∈ ms) (s : Session) (p : ℕ) (rest : List UInt8)
      (read : Reference.Ulog.Message × ℕ × Session) (hs : Subscribed s) (hbad : ¬ m.Good s) :
      (Reference.Ulog.messages 0).step s (m.bytes ++ rest) p ≠ .ok read := by
    obtain ⟨hfits, hrecorded⟩ := hms m hm
    intro hstep
    cases m with
    | data d =>
      exact hbad ((readMessage_message hfits hrecorded (hs d hrecorded.known) rest).mp hstep).1
    | logged level tUs text => exact hbad trivial
    | _ => exact hrecorded.elim
  have hpos (m : Message) (_ : m ∈ ms) : 0 < (reporting.write m).length :=
    Nat.lt_of_lt_of_le (by decide) (three_le_length_bytes m)
  have hstart (m : Message) (_ : m ∈ ms) : m.NotBefore (preamble.foldl Message.next .new) := by
    intro x _ last hlast
    rw [foldl_lastTimestamp x.1 .new plain_preamble rfl] at hlast
    cases hlast
  have hbytes : front ++ (preamble ++ ms).flatMap Message.bytes =
      (front ++ reporting.text preamble) ++ reporting.text ms := by
    rw [List.flatMap_append, ← List.append_assoc]
    rfl
  -- what the recording says of itself is read first
  have hfirst := run_preamble front (reporting.text ms)
    (fun m hm => ⟨fits_preamble m hm, plain_preamble m hm⟩) .new
  rw [← List.append_assoc, hfront] at hfirst
  have hlength : (front ++ reporting.text preamble).length =
      16 + (reporting.text preamble).length := by rw [List.length_append, hfront]
  have hmore {t : Session} {more : List (Scanned Session Reference.Ulog.Message)} :
      (Reference.Ulog.messages 0).Run ((front ++ reporting.text preamble) ++ reporting.text ms)
        (16 + (reporting.text preamble).length) (preamble.foldl Message.next .new) more
        ((front ++ reporting.text preamble) ++ reporting.text ms).length t ↔
      ((∀ m ∈ ms, m.Readable) ∧ (ms.filterMap Message.stamp).Pairwise InOrder) ∧
        more = reporting.scanned (16 + (reporting.text preamble).length)
          (preamble.foldl Message.next .new) ms ∧
        t = reporting.after (16 + (reporting.text preamble).length)
          (preamble.foldl Message.next .new) ms := by
    have haccepted := accepted_iff (16 + (reporting.text preamble).length)
      (preamble.foldl Message.next .new) fun m hm => (hms m hm).2
    rw [and_iff_right hstart] at haccepted
    rw [← haccepted, ← hlength]
    exact Writing.run_iff hread hfail hpos (front ++ reporting.text preamble) subscribed_preamble
  rw [hbytes]
  constructor
  · rintro ⟨t, hrun⟩
    obtain ⟨more, rfl, hrest⟩ := hfirst.of_shorter hrun (by
      rw [List.length_append, hlength]
      exact Nat.le_add_right _ _)
    obtain ⟨hgood, rfl, -⟩ := hmore.mp hrest
    exact ⟨hgood, rfl⟩
  · rintro ⟨hgood, rfl⟩
    exact ⟨_, hfirst.append (hmore.mpr ⟨hgood, rfl, rfl⟩)⟩

/-! ## 9. The data of events -/

/-- The fields of the topic of an id. -/
def topicFields (id : UInt16) : List Field := fieldsOf (topics.getD id.toNat ("", "")).2.toList

theorem matched_chars {text : String} {cs : List Char} {types : List (List String)}
    (htext : text.toList = cs) (h : matched (fieldsOf cs) types = true) :
    matched (fieldsOf text.toList) types = true := htext ▸ h

theorem key_chars {name text key : String} {cs : List Char} {i : ℕ} (htext : text.toList = cs)
    (h : (topicKeys name (fieldsOf cs))[i]? = some key) :
    (topicKeys name (fieldsOf text.toList))[i]? = some key := htext ▸ h

/-- The types of the values of each topic, against its fields. -/
theorem matched_vehicleStatus : matched (topicFields vehicleStatus)
    [["uint64_t"], ["uint32_t"], ["uint8_t"], ["bool", "uint8_t"], ["bool", "uint8_t"],
      ["uint8_t"]] = true := matched_chars chars₂ (by decide)

theorem matched_batteryStatus : matched (topicFields batteryStatus)
    [["uint64_t"], ["float"], ["float"], ["float"], ["uint8_t"]] = true :=
  matched_chars chars (by decide)

theorem matched_sensorGps : matched (topicFields sensorGps)
    [["uint64_t"], ["uint64_t"], ["int32_t"], ["int32_t"], ["int32_t"], ["float"], ["float"],
      ["float"], ["float"], ["uint8_t"], ["uint8_t"], ["uint8_t"], ["uint8_t"]] = true :=
  matched_chars chars₃ (by decide)

theorem matched_inputRc : matched (topicFields inputRc)
    [["uint64_t"], ["uint64_t"], ["float"], ["int32_t"], ["uint16_t"], ["uint16_t"], ["uint16_t"],
      ["uint16_t"], ["int8_t"], ["bool", "uint8_t"], ["bool", "uint8_t"]] = true :=
  matched_chars chars₂ (by decide)

theorem matched_estimatorStatus : matched (topicFields estimatorStatus)
    [["uint64_t"], ["float"], ["float"], ["float"], ["float"], ["float"], ["uint16_t"],
      ["uint16_t"], ["uint8_t"]] = true := matched_chars chars₃ (by decide)

theorem matched_failsafeFlags : matched (topicFields failsafeFlags)
    [["uint64_t"], ["bool", "uint8_t"], ["bool", "uint8_t"], ["bool", "uint8_t"],
      ["bool", "uint8_t"]] = true := matched_chars chars₂ (by decide)

theorem matched_telemetryStatus : matched (topicFields telemetryStatus)
    [["uint64_t"], ["float"], ["bool", "uint8_t"]] = true := matched_chars chars (by decide)

theorem matched_globalPosition : matched (topicFields vehicleGlobalPosition)
    [["uint64_t"], ["double"], ["double"], ["float"]] = true :=
  matched_chars chars (by decide)

theorem length_bytes_le (v : Value) : v.bytes.length ≤ 8 := by
  cases v <;> simp [Value.bytes]

/-- Data of a few values fit. -/
theorem fits_data {d : Data} (h : d.values.length ≤ 100) : (Message.data d).Fits := by
  have hvalues (vs : List Value) : (vs.flatMap Value.bytes).length ≤ 8 * vs.length := by
    induction vs with
    | nil => exact Nat.zero_le _
    | cons v vs ih =>
      have hv := length_bytes_le v
      rw [List.flatMap_cons, List.length_append, List.length_cons]
      omega
  have hall := hvalues d.values
  rw [Message.Fits, Message.payload, Data.body, List.length_append, List.length_append,
    length_leBytes]
  have htime : (Value.bytes (.u64 d.tUs)).length = 8 := length_leBytes 8 _
  omega

/-- A text that has room in a message.  The size of a message has 16 bits, and nine bytes of it
are for the level and the time. -/
def Fits (e : Event) : Prop :=
  match e.kind with
  | .statusText _ text => 9 + (utf8 text).length < 2 ^ 16
  | _ => True

instance : DecidablePred Fits := fun e => by
  rcases e with ⟨_, _, _, _, _, _, _, ⟨⟩⟩ <;> dsimp only [Fits] <;> infer_instance

/-- The topics that an event has data of. -/
def topicsOf (e : Event) : List UInt16 :=
  match e.kind with
  | .heartbeat _ _ => [vehicleStatus, failsafeFlags, telemetryStatus]
  | .sysStatus _ _ _ => [batteryStatus]
  | .gpsRawInt _ _ _ _ _ _ _ _ => [sensorGps]
  | .globalPositionInt _ _ _ _ => [vehicleGlobalPosition]
  | .rcIn _ _ _ _ => [inputRc]
  | .ekfStatus _ _ _ _ _ _ _ => [estimatorStatus]
  | _ => []

/-- Whether the remote control was received, of an event that says so. -/
def signal (e : Event) : Option Bool :=
  match e.kind with
  | .rcIn _ _ _ valid => some valid
  | _ => none

/-- Times that the reader has numbers for: since the boot, and the wall time of a fix. -/
def Readable (timeline : Timeline) (e : Event) : Prop :=
  (topicsOf e ≠ [] → e.tBootUs.toNat < 2 ^ 63) ∧
    match e.kind with
    | .gpsRawInt _ _ _ _ _ _ _ timeValid => timeValid = true → 0 ≤ timeline.wallUs e
    | _ => True

instance (timeline : Timeline) : DecidablePred (Readable timeline) := fun e => by
  rcases e with ⟨_, _, _, _, _, _, _, ⟨⟩⟩ <;> dsimp only [Readable] <;> infer_instance

section Events

variable {timeline : Timeline} {e : Event}

/-- **The messages of an event mean what they say**, and have the topics and the time of it. -/
theorem recorded_messages (wallUs : ℤ) (s : State) (e : Event) :
    ∀ m ∈ messages wallUs s e, m.Recorded := by
  have hone {m : Message} (h : m.Recorded) : ∀ m' ∈ [m], m'.Recorded :=
    List.forall_mem_singleton.mpr h
  unfold messages
  cases e.kind with
  | heartbeat =>
    exact List.forall_mem_cons.mpr ⟨⟨(by decide : vehicleStatus.toNat < 8), matched_vehicleStatus⟩,
      List.forall_mem_cons.mpr ⟨⟨(by decide : failsafeFlags.toNat < 8), matched_failsafeFlags⟩,
        hone ⟨(by decide : telemetryStatus.toNat < 8), matched_telemetryStatus⟩⟩⟩
  | sysStatus => exact hone ⟨(by decide : batteryStatus.toNat < 8), matched_batteryStatus⟩
  | gpsRawInt => exact hone ⟨(by decide : sensorGps.toNat < 8), matched_sensorGps⟩
  | globalPositionInt =>
    exact hone ⟨(by decide : vehicleGlobalPosition.toNat < 8), matched_globalPosition⟩
  | rcIn => exact hone ⟨(by decide : inputRc.toNat < 8), matched_inputRc⟩
  | ekfStatus => exact hone ⟨(by decide : estimatorStatus.toNat < 8), matched_estimatorStatus⟩
  | statusText => exact hone trivial
  | modeChange | radioStatus | err | reboot | handsetRow | blackboxRow | videoPresence =>
    exact List.forall_mem_nil _

theorem fits_messages (h : Fits e) (wallUs : ℤ) (s : State) :
    ∀ m ∈ messages wallUs s e, m.Fits := by
  have hone {m : Message} (h : m.Fits) : ∀ m' ∈ [m], m'.Fits := List.forall_mem_singleton.mpr h
  revert h
  unfold Fits messages
  cases e.kind with
  | heartbeat =>
    exact fun _ => List.forall_mem_cons.mpr ⟨fits_data (by simp [vehicleStatusData]),
      List.forall_mem_cons.mpr ⟨fits_data (by simp [failsafeFlagsData]),
        hone (fits_data (by simp [telemetryStatusData]))⟩⟩
  | sysStatus => exact fun _ => hone (fits_data (by simp [batteryStatusData]))
  | gpsRawInt => exact fun _ => hone (fits_data (by simp [sensorGpsData]))
  | globalPositionInt => exact fun _ => hone (fits_data (by simp [globalPositionData]))
  | rcIn => exact fun _ => hone (fits_data (by simp [inputRcData]))
  | ekfStatus => exact fun _ => hone (fits_data (by simp [estimatorStatusData]))
  | statusText severity text =>
    intro h
    refine hone ?_
    rw [Message.Fits, Message.payload, List.length_cons, List.length_append, length_leBytes]
    dsimp only at h
    omega
  | modeChange | radioStatus | err | reboot | handsetRow | blackboxRow | videoPresence =>
    exact fun _ => List.forall_mem_nil _

theorem stamps_messages (wallUs : ℤ) (s : State) (e : Event) :
    (messages wallUs s e).filterMap Message.stamp =
      (topicsOf e).map (·, e.tBootUs.toInt64) := by
  unfold messages topicsOf
  cases e.kind <;> rfl

/-- The data of an event are readable when its times are, and that of the last signal. -/
theorem readable_messages (hdated : timeline.FixDated e) (s : State) :
    (∀ m ∈ messages (timeline.wallUs e) s e, m.Readable) ↔
      Readable timeline e ∧ (signal e = some false → s.lastRcT.toNat < 2 ^ 63) := by
  revert hdated
  unfold messages Readable signal topicsOf Timeline.FixDated
  cases e.kind with
  | gpsRawInt fixType satellites ephCm latE7 lonE7 altMm jamInd timeValid =>
    intro hdated
    have hwall := toNat_ofInt_lt_iff hdated.wall
    cases timeValid with
    | false => simp [Message.Readable, Data.Readable, Data.all, Value.Readable, sensorGpsData]
    | true =>
      simp only [Message.Readable, Data.Readable, Data.all, Value.Readable, sensorGpsData,
        List.forall_mem_cons, if_true, hwall]
      simp
  | rcIn chans rssiPct lqPct valid =>
    intro _
    cases valid <;>
      simp [Message.Readable, Data.Readable, Data.all, Value.Readable, inputRcData]
  | _ =>
    intro _
    simp [Message.Readable, Data.Readable, Data.all, Value.Readable, vehicleStatusData,
      failsafeFlagsData, telemetryStatusData, batteryStatusData, globalPositionData,
      estimatorStatusData]

theorem lastRcT_next (s : State) (e : Event) :
    (s.next e).lastRcT = if signal e = some true then e.tBootUs else s.lastRcT := by
  unfold State.next signal
  cases e.kind with
  | rcIn chans rssiPct lqPct valid => cases valid <;> rfl
  | _ => rfl

/-- The data of events are readable when their times are, and the time of the first of them if the
remote control was lost from the start. -/
theorem readable_body {events : List Event} : ∀ s : State,
    (∀ e ∈ events, timeline.FixDated e) →
    ((∀ m ∈ body timeline s events, m.Readable) ↔
      (∀ e ∈ events, Readable timeline e) ∧
        (events.findSome? signal = some false → s.lastRcT.toNat < 2 ^ 63)) := by
  induction events with
  | nil => exact fun s _ => iff_of_true (List.forall_mem_nil _) ⟨List.forall_mem_nil _, nofun⟩
  | cons e events ih =>
    intro s hdated
    obtain ⟨he, hmore⟩ := List.forall_mem_cons.mp hdated
    rw [body, List.forall_mem_append, readable_messages he, ih _ hmore, lastRcT_next,
      List.forall_mem_cons, List.findSome?_cons]
    cases hsignal : signal e with
    | none => simp [and_assoc]
    | some valid =>
      cases valid with
      | false =>
        simp only [true_implies, Option.some.injEq, Bool.false_eq_true, if_false]
        constructor
        · rintro ⟨⟨h1, h2⟩, h3, -⟩
          exact ⟨⟨h1, h3⟩, h2⟩
        · rintro ⟨⟨h1, h3⟩, h2⟩
          exact ⟨⟨h1, h2⟩, h3, fun _ => h2⟩
      | true =>
        have htime : Readable timeline e → e.tBootUs.toNat < 2 ^ 63 := by
          intro h
          refine h.1 ?_
          revert hsignal
          unfold signal topicsOf
          cases e.kind <;> simp
        simp only [Option.some.injEq, Bool.true_eq_false, false_implies, and_true, if_true]
        constructor
        · rintro ⟨h1, h2, -⟩
          exact ⟨h1, h2⟩
        · rintro ⟨h1, h2⟩
          exact ⟨h1, h2, fun _ => htime h1⟩

theorem stamps_body {events : List Event} : ∀ s : State,
    (body timeline s events).filterMap Message.stamp =
      events.flatMap fun e => (topicsOf e).map (·, e.tBootUs.toInt64) := by
  induction events with
  | nil => exact fun s => rfl
  | cons e events ih =>
    intro s
    rw [body, List.filterMap_append, stamps_messages, ih, List.flatMap_cons]

/-- Of topics that differ, or one not before the other. -/
def TopicsInOrder (a b : Event) : Prop := ∀ id ∈ topicsOf a, id ∈ topicsOf b → a.tBootUs ≤ b.tBootUs

instance : DecidableRel TopicsInOrder := fun a b =>
  List.decidableBAll (fun id => id ∈ topicsOf b → a.tBootUs ≤ b.tBootUs) (topicsOf a)

/-- Data are in the order of their topics when the events are. -/
theorem inOrder_body (s : State) {events : List Event}
    (hreadable : ∀ e ∈ events, Readable timeline e) :
    ((body timeline s events).filterMap Message.stamp).Pairwise InOrder ↔
      events.Pairwise TopicsInOrder := by
  have hle {a b : Event} (ha : a ∈ events) (hb : b ∈ events) {id : UInt16}
      (hida : id ∈ topicsOf a) (hidb : id ∈ topicsOf b) :
      a.tBootUs.toInt64 ≤ b.tBootUs.toInt64 ↔ a.tBootUs ≤ b.tBootUs :=
    toInt64_le_toInt64 ((hreadable a ha).1 (List.ne_nil_of_mem hida))
      ((hreadable b hb).1 (List.ne_nil_of_mem hidb))
  rw [stamps_body, List.pairwise_flatMap]
  constructor
  · rintro ⟨-, h⟩
    refine h.imp_of_mem fun {a b} ha hb hab id hida hidb => (hle ha hb hida hidb).mp ?_
    exact hab _ (List.mem_map_of_mem hida) _ (List.mem_map_of_mem hidb) rfl
  · intro h
    refine ⟨fun e _ => ?_, h.imp_of_mem fun {a b} ha hb hab => ?_⟩
    · exact List.pairwise_map.mpr (List.pairwise_of_forall fun x y _ => Int64.le_refl _)
    · intro x hx y hy hid
      obtain ⟨i, hi, rfl⟩ := List.mem_map.mp hx
      obtain ⟨j, hj, rfl⟩ := List.mem_map.mp hy
      obtain rfl : i = j := hid
      exact (hle ha hb hi hj).mpr (hab i hi hj)

theorem forall_mem_body {P : Message → Prop} {events : List Event} : ∀ s : State,
    (∀ e ∈ events, ∀ wallUs s, ∀ m ∈ messages wallUs s e, P m) →
      ∀ m ∈ body timeline s events, P m := by
  induction events with
  | nil => exact fun s _ => List.forall_mem_nil _
  | cons e events ih =>
    intro s h
    obtain ⟨he, hmore⟩ := List.forall_mem_cons.mp h
    exact List.forall_mem_append.mpr ⟨he _ s, ih _ hmore⟩

end Events

/-- The events of a recording that is read: their times have numbers, and those of each topic do
not decrease.  The time of the first is the last signal when the remote control was lost from the
start. -/
structure Accepted (timeline : Timeline) (events : List Event) : Prop where
  readable : ∀ e ∈ events, Readable timeline e
  start : events.findSome? signal = some false →
    ∀ first ∈ events.head?, first.tBootUs.toNat < 2 ^ 63
  ordered : events.Pairwise TopicsInOrder

instance (timeline : Timeline) (events : List Event) : Decidable (Accepted timeline events) :=
  decidable_of_iff ((∀ e ∈ events, Readable timeline e) ∧
      (events.findSome? signal = some false →
        ∀ first ∈ events.head?, first.tBootUs.toNat < 2 ^ 63) ∧ events.Pairwise TopicsInOrder)
    ⟨fun ⟨h1, h2, h3⟩ => ⟨h1, h2, h3⟩, fun ⟨h1, h2, h3⟩ => ⟨h1, h2, h3⟩⟩

/-! ## 10. The report -/

section Report

variable (sha256 : List UInt8 → Digest) (profile : FamilyProfile)

/-- What a message leaves in a report. -/
def Message.observed : Message → List Observation
  | .data d => d.record.observations sha256 profile
  | .logged level tUs text => [loggedObservation sha256 profile level tUs text]
  | _ => []

def Message.isData : Message → Bool
  | .data _ => true
  | _ => false

theorem foldl_add (ms : List Message) : ∀ report : ReadReport,
    (ms.map Message.item).foldl (ReadReport.add sha256 profile) report =
      { report with
        observations := report.observations ++ ms.flatMap (Message.observed sha256 profile)
        dataRecords := report.dataRecords + ms.countP Message.isData
        decodedDataRecords := report.decodedDataRecords + ms.countP Message.isData } := by
  induction ms with
  | nil =>
    intro report
    simp
  | cons m ms ih =>
    intro report
    rw [List.map_cons, List.foldl_cons, ih, List.flatMap_cons, List.countP_cons]
    cases m with
    | data d =>
      simp only [Message.item, ReadReport.add, Message.observed, Message.isData, if_true,
        List.append_assoc]
      congr 1 <;> omega
    | logged level tUs text =>
      simp only [Message.item, ReadReport.add, Message.observed, Message.isData,
        Bool.false_eq_true, if_false, List.append_assoc, Nat.add_zero]
    | _ =>
      simp only [Message.item, ReadReport.add, Message.observed, Message.isData,
        Bool.false_eq_true, if_false, List.nil_append, Nat.add_zero]

end Report

section Log

variable (sha256 : List UInt8 → Digest) {profile : FamilyProfile} {timeline : Timeline}
  {assetId : String} {input : Slice}

theorem isHeader_header (tStart : UInt64) (rest : List UInt8) :
    Reference.Ulog.IsHeader (header tStart ++ rest) := by
  have hlength : (header tStart).length = 16 := by
    rw [header, List.length_append, length_leBytes]
    rfl
  refine ⟨?_, rfl, rfl⟩
  rw [List.length_append, hlength]
  exact Nat.le_add_right _ _

theorem items_scanned (ms more : List Message) (p q : ℕ) (s t : Session) :
    (reporting.scanned p s ms ++ reporting.scanned q t more).map Scanned.item =
      (ms ++ more).map Message.item := by
  rw [List.map_append, Writing.map_item_scanned, Writing.map_item_scanned, List.map_append]
  rfl

/-- What a recording says of itself leaves nothing in the report. -/
theorem observed_preamble (sha256 : List UInt8 → Digest) (profile : FamilyProfile) :
    preamble.flatMap (Message.observed sha256 profile) = [] ∧
      preamble.countP Message.isData = 0 := by
  have hnothing {m : Message} (h : m.Plain) :
      m.observed sha256 profile = [] ∧ m.isData = false := by
    cases m with
    | data d => exact h.elim
    | logged level tUs text => exact h.elim
    | _ => exact ⟨rfl, rfl⟩
  refine ⟨List.flatMap_eq_nil_iff.mpr fun m hm => (hnothing (plain_preamble m hm)).1,
    List.countP_eq_zero.mpr fun m hm => ?_⟩
  rw [(hnothing (plain_preamble m hm)).2]
  exact Bool.false_ne_true

/-- The report on a written recording. -/
theorem readReport_log (hprofile : profile.format = "px4_ulog")
    (hrender : render timeline assetId = .ok input.bytes)
    (hfits : ∀ e ∈ firstBoot (eventsFor timeline assetId .fc), Fits e) {report : ReadReport} :
    Reference.Ulog.readReport sha256 profile input = .ok report ↔
      Accepted timeline (firstBoot (eventsFor timeline assetId .fc)) ∧ report =
        { selectedMultiId := 0
          observations := (log timeline assetId).flatMap (Message.observed sha256 profile)
          dataRecords := (log timeline assetId).countP Message.isData
          decodedDataRecords := (log timeline assetId).countP Message.isData } := by
  obtain ⟨first, more, hevents, hdated, hbytes⟩ := eq_of_render hrender
  have hlog : log timeline assetId =
      body timeline (.new first.tBootUs) (firstBoot (first :: more)) := by
    rw [log, hevents]
  rw [hevents] at hfits ⊢
  rw [hlog] at hbytes ⊢
  generalize hevents : firstBoot (first :: more) = events at hfits hdated hbytes ⊢
  -- the first event is in the first boot, if any is
  have hfirst : ∀ e ∈ events.head?, e = first := by
    intro e he
    rw [← hevents, firstBoot, List.takeWhile_cons] at he
    split at he
    · exact (Option.some.inj he).symm
    · cases he
  have hms : ∀ m ∈ body timeline (.new first.tBootUs) events, m.Fits ∧ m.Recorded :=
    forall_mem_body _ fun e he wallUs s m hm =>
      ⟨fits_messages (hfits e he) wallUs s m hm, recorded_messages wallUs s e m hm⟩
  have hheader : (header first.tBootUs).length = 16 := by
    rw [header, List.length_append, length_leBytes]
    rfl
  have haccepted : (∀ m ∈ body timeline (.new first.tBootUs) events, m.Readable) ∧
      ((body timeline (.new first.tBootUs) events).filterMap Message.stamp).Pairwise InOrder ↔
        Accepted timeline events := by
    rw [readable_body _ hdated]
    constructor
    · rintro ⟨⟨hreadable, hstart⟩, horder⟩
      exact ⟨hreadable, fun hlost e he => hfirst e he ▸ hstart hlost,
        (inOrder_body _ hreadable).mp horder⟩
    · rintro ⟨hreadable, hstart, horder⟩
      refine ⟨⟨hreadable, fun hlost => ?_⟩, (inOrder_body _ hreadable).mpr horder⟩
      cases events with
      | nil => cases hlost
      | cons e events =>
        have he := hstart hlost e rfl
        rwa [hfirst e rfl] at he
  have hitems (p q : ℕ) (s t : Session) :
      ReadReport.of sha256 profile 0 (reporting.scanned p s preamble ++
          reporting.scanned q t (body timeline (.new first.tBootUs) events)) =
        { selectedMultiId := 0
          observations := (body timeline (.new first.tBootUs) events).flatMap
            (Message.observed sha256 profile)
          dataRecords := (body timeline (.new first.tBootUs) events).countP Message.isData
          decodedDataRecords :=
            (body timeline (.new first.tBootUs) events).countP Message.isData } := by
    obtain ⟨hobserved, hcount⟩ := observed_preamble sha256 profile
    have hadd := foldl_add sha256 profile
      (preamble ++ body timeline (.new first.tBootUs) events) { selectedMultiId := 0 }
    rw [← items_scanned _ _ p q s t, List.foldl_map, List.flatMap_append, hobserved,
      List.countP_append, hcount] at hadd
    simp only [List.nil_append, Nat.zero_add] at hadd
    exact hadd
  rw [Reference.Ulog.readReport, Reference.Ulog.readInstanceReport_eq_ok, and_iff_right hprofile]
  rw [hbytes, and_iff_right (isHeader_header _ _)]
  constructor
  · rintro ⟨rs, hrecorded, rfl⟩
    obtain ⟨hgood, rfl⟩ := (recorded_iff hheader hms).mp hrecorded
    exact ⟨haccepted.mp hgood, hitems _ _ _ _⟩
  · rintro ⟨hgood, rfl⟩
    exact ⟨_, (recorded_iff hheader hms).mpr ⟨haccepted.mpr hgood, rfl⟩, (hitems _ _ _ _).symm⟩

/-- A vehicle that sends a heartbeat, a fix with its time and a lost remote control, and logs the
loss, before it boots again. -/
def exampleTimeline : Timeline where
  t0UnixUs := 1788166800000000
  assets := [⟨"plane-01", [.fc, .gcs], .px4Ulog⟩]
  events := [
    ⟨1000, 38000000, 0, "plane-01", .fixedWing, .fc, .rc, .rcIn (1500, 1500, 1000, 1500) 0 0 false⟩,
    ⟨0, 37000000, 0, "plane-01", .fixedWing, .fc, .heartbeat, .heartbeat 4 4⟩,
    ⟨1000, 38000000, 0, "plane-01", .fixedWing, .fc, .gpsEkf,
      .gpsRawInt 3 12 90 350000000 1390000000 10000 0 true⟩,
    ⟨1500, 38500000, 0, "plane-01", .fixedWing, .fc, .event, .statusText 4 "Failsafe: RC lost"⟩,
    ⟨1500, 38500000, 0, "plane-01", .fixedWing, .fc, .event, .modeChange 5 3⟩,
    ⟨2000, 39000000, 0, "plane-01", .fixedWing, .fc, .heartbeat, .heartbeat 5 4⟩,
    ⟨3000, 1000000, 1, "plane-01", .fixedWing, .fc, .event, .reboot 1⟩]

def exampleLog : Slice where
  bytes := header 37000000 ++
    (preamble ++ log exampleTimeline "plane-01").flatMap Message.bytes
  length_lt := by decide +kernel

def exampleProfile : FamilyProfile where
  profileId := "px4-ulg"
  version := "1"
  family := .fixedWing
  sourceRole := .fc
  format := "px4_ulog"
  extensions := ["ulg"]
  fields := ⟨"timestamp", [], [], [], [], []⟩
  fieldUnits := .empty
  channels := []
  expectations := []
  defaultClockBasis := .bootRelative
  declaredPlatformDomain := none
  declaredSender := none
  declaredClockRate := none
  origin := "px4_ulg.toml"

theorem render_example : render exampleTimeline "plane-01" = .ok exampleLog.bytes := by
  decide +kernel

theorem read_example : ∃ report,
    Reference.Ulog.readReport (fun _ => .replicate 32 0) exampleProfile exampleLog = .ok report :=
  ⟨_, (readReport_log _ rfl render_example (by decide)).mpr ⟨by decide, rfl⟩⟩

/-- **Round trip of a ULog recording.** The reader takes what the writer has written exactly when
the times of the first boot have numbers and do not decrease under a topic.  Then every message is
decoded: there are the observations of its data, in their order, with its keys and its values, and
nothing is left unsupported.  `hfits` is about texts alone: one whose size does not fit in 16 bits
is written with a wrapped size, and what the reader makes of the bytes behind it is not what was
written. -/
theorem ulog_read_back (hprofile : profile.format = "px4_ulog")
    (hrender : render timeline assetId = .ok input.bytes)
    (hfits : ∀ e ∈ firstBoot (eventsFor timeline assetId .fc), Fits e) :
    ((∃ report, Reference.Ulog.readReport sha256 profile input = .ok report) ↔
      Accepted timeline (firstBoot (eventsFor timeline assetId .fc))) ∧
    ∀ report, Reference.Ulog.readReport sha256 profile input = .ok report →
      report.observations =
        (log timeline assetId).flatMap (Message.observed sha256 profile) ∧
      report.unsupportedRecords = [] ∧
      report.dataRecords = (log timeline assetId).countP Message.isData ∧
      report.decodedDataRecords = (log timeline assetId).countP Message.isData := by
  simp only [readReport_log sha256 hprofile hrender hfits]
  constructor
  · exact ⟨fun ⟨report, h⟩ => h.1, fun h => ⟨_, h, rfl⟩⟩
  · rintro report ⟨-, rfl⟩
    exact ⟨rfl, rfl, rfl, rfl⟩

theorem exampleTimeline_ulog : ∃ report,
    Reference.Ulog.readReport (fun _ => .replicate 32 0) exampleProfile exampleLog = .ok report ∧
      report.observations = (log exampleTimeline "plane-01").flatMap
        (Message.observed (fun _ => .replicate 32 0) exampleProfile) ∧
      report.unsupportedRecords = [] ∧ report.dataRecords = 8 ∧ report.decodedDataRecords = 8 := by
  have hprofile : exampleProfile.format = "px4_ulog" := rfl
  obtain ⟨hread, hreport⟩ :=
    ulog_read_back (fun _ => .replicate 32 0) hprofile render_example (by decide)
  obtain ⟨report, h⟩ := hread.mpr (by decide)
  exact ⟨report, h, hreport report h⟩

end Log

/-! ## 11. The times of fixes -/

/-- The wall time of a fix that has one, whatever its type. -/
def fixTime (timeline : Timeline) (e : Event) : Option Int64 :=
  match e.kind with
  | .gpsRawInt _ _ _ _ _ _ _ timeValid =>
    if timeValid = true ∧ 946684800000000 < timeline.wallUs e then some (.ofInt (timeline.wallUs e))
    else none
  | _ => none

section Anchors

variable (sha256 : List UInt8 → Digest) {profile : FamilyProfile} {timeline : Timeline}

/-- An anchor with the time since the boot that it belongs to. -/
def anchored (o : Observation) : Option (Option UInt64 × Int64) :=
  o.anchorUnixUs.map (o.tBootUs, ·)

theorem filterMap_anchored (r : DataRecord) :
    (r.observations sha256 profile).filterMap anchored =
      (r.anchor.map (some (max r.tUs 0).toUInt64, ·)).toList := by
  unfold DataRecord.observations
  split <;> cases r.anchor <;> simp [anchored, Reference.observation]

theorem anchor_of_ne {d : Data} (h : d.topic.1 ≠ "sensor_gps") : d.record.anchor = none := if_neg h

theorem anchor_of_eq {r : DataRecord} (h : r.binding.name = "sensor_gps") :
    r.anchor = (integer r.values "sensor_gps.time_utc_usec").filter (946684800000000 < ·) :=
  if_pos h

/-- The anchor of a fix is its wall time. -/
theorem anchor_sensorGps (t : UInt64) {wallUs : ℤ} (hwall : InI64 wallUs) (timeValid : Bool)
    (fixType satellites : UInt8) (ephCm : UInt16) (latE7 lonE7 altMm : Int32) (jamInd : UInt8) :
    (sensorGpsData t (if timeValid then UInt64.ofInt wallUs else 0) fixType satellites ephCm latE7
      lonE7 altMm jamInd).record.anchor =
        if timeValid = true ∧ 946684800000000 < wallUs then some (.ofInt wallUs) else none := by
  generalize hutc : (if timeValid then UInt64.ofInt wallUs else 0) = utc
  have h : (sensorGpsData t utc fixType satellites ephCm latE7 lonE7 altMm jamInd).Typed :=
    ⟨(by decide : sensorGps.toNat < 8), matched_sensorGps⟩
  have hkey : (topicKeys "sensor_gps" (topicFields sensorGps))[1]? =
      some "sensor_gps.time_utc_usec" := key_chars chars₃ (by decide)
  have hvalue : integer (sensorGpsData t utc fixType satellites ephCm latE7 lonE7 altMm
      jamInd).fields "sensor_gps.time_utc_usec" = some utc.toInt64 := by
    refine integer_eq_some (h.keys ▸ h.sound.distinct) ?_
    rw [Data.fields, keyed]
    exact List.mem_map.mpr ⟨("sensor_gps.time_utc_usec", .u64 utc),
      List.mem_of_getElem? (List.getElem?_zip_eq_some.mpr ⟨hkey, rfl⟩), rfl⟩
  have hanchor : (sensorGpsData t utc fixType satellites ephCm latE7 lonE7 altMm
      jamInd).record.anchor = (some utc.toInt64).filter (946684800000000 < ·) := by
    rw [anchor_of_eq rfl, record_values, hvalue]
  have hlt : (946684800000000 : Int64) < .ofInt wallUs ↔ 946684800000000 < wallUs := by
    rw [Int64.lt_iff_toInt_lt, toInt_ofInt64 hwall]
    rfl
  rw [hanchor, Option.filter_some, ← hutc]
  cases timeValid with
  | false => rfl
  | true =>
    rw [if_pos rfl, toInt64_ofInt]
    simp only [hlt, true_and, decide_eq_true_eq]

/-- **Of the messages of an event, only those of a fix with its time have an anchor.** -/
theorem anchored_messages {e : Event} (hdated : timeline.FixDated e)
    (hreadable : Readable timeline e) (s : State) :
    ((messages (timeline.wallUs e) s e).flatMap (Message.observed sha256 profile)).filterMap
        anchored =
      ((fixTime timeline e).map (some e.tBootUs, ·)).toList := by
  have hnone {d : Data} (h : d.topic.1 ≠ "sensor_gps") :
      ((Message.data d).observed sha256 profile).filterMap anchored = [] := by
    rw [Message.observed, filterMap_anchored, anchor_of_ne h]
    rfl
  have hone {d : Data} (h : d.topic.1 ≠ "sensor_gps") :
      ([Message.data d].flatMap (Message.observed sha256 profile)).filterMap anchored = [] := by
    rw [List.flatMap_singleton]
    exact hnone h
  have htime := hreadable.1
  revert hdated htime
  unfold messages fixTime Timeline.FixDated topicsOf
  cases e.kind with
  | gpsRawInt fixType satellites ephCm latE7 lonE7 altMm jamInd timeValid =>
    intro hdated htime
    have hboot := toUInt64_max_toInt64 (htime (List.cons_ne_nil _ _))
    dsimp only at hdated ⊢
    rw [List.flatMap_singleton, Message.observed, filterMap_anchored,
      anchor_sensorGps e.tBootUs hdated.wall]
    exact congrArg (fun t => (Option.map (some t, ·) _).toList) hboot
  | heartbeat =>
    intro _ _
    rw [List.flatMap_cons, List.flatMap_cons, List.filterMap_append, List.filterMap_append,
      hnone (d := vehicleStatusData e.tBootUs s) (by decide : "vehicle_status" ≠ "sensor_gps"),
      hnone (d := failsafeFlagsData e.tBootUs s) (by decide : "failsafe_flags" ≠ "sensor_gps"),
      hone (d := telemetryStatusData e.tBootUs s) (by decide : "telemetry_status" ≠ "sensor_gps")]
    rfl
  | sysStatus => exact fun _ _ => hone (by decide : "battery_status" ≠ "sensor_gps")
  | globalPositionInt =>
    exact fun _ _ => hone (by decide : "vehicle_global_position" ≠ "sensor_gps")
  | rcIn => exact fun _ _ => hone (by decide : "input_rc" ≠ "sensor_gps")
  | ekfStatus => exact fun _ _ => hone (by decide : "estimator_status" ≠ "sensor_gps")
  | statusText | modeChange | radioStatus | err | reboot | handsetRow | blackboxRow
  | videoPresence => exact fun _ _ => rfl

theorem anchored_body {events : List Event} : ∀ s : State,
    (∀ e ∈ events, timeline.FixDated e) → (∀ e ∈ events, Readable timeline e) →
    ((body timeline s events).flatMap (Message.observed sha256 profile)).filterMap anchored =
      events.filterMap fun e => (fixTime timeline e).map (some e.tBootUs, ·) := by
  induction events with
  | nil => exact fun _ _ _ => rfl
  | cons e events ih =>
    intro s hdated hreadable
    obtain ⟨he, hdated⟩ := List.forall_mem_cons.mp hdated
    obtain ⟨he', hreadable⟩ := List.forall_mem_cons.mp hreadable
    rw [body, List.flatMap_append, List.filterMap_append,
      anchored_messages sha256 he he', ih _ hdated hreadable, List.filterMap_cons]
    cases fixTime timeline e <;> rfl

/-- **The anchors of a written recording are its fixes**: the reader finds the time of exactly
those fixes of the first boot that have one after the year 2000, each at its time since boot and
to the microsecond, whatever the type of the fix.  `hfits` is needed here too, since the rest of a
text that was cut in two can be read as a record of a fix.  That the recording is read gives what
is needed of the times. -/
theorem ulog_anchors_read_back {assetId : String} {input : Slice}
    (hprofile : profile.format = "px4_ulog")
    (hrender : render timeline assetId = .ok input.bytes)
    (hfits : ∀ e ∈ firstBoot (eventsFor timeline assetId .fc), Fits e) {report : ReadReport}
    (hread : Reference.Ulog.readReport sha256 profile input = .ok report) :
    report.observations.filterMap (fun o => o.anchorUnixUs.map (o.tBootUs, ·)) =
      (firstBoot (eventsFor timeline assetId .fc)).filterMap fun e =>
        (fixTime timeline e).map (some e.tBootUs, ·) := by
  obtain ⟨⟨hreadable, -, -⟩, rfl⟩ := (readReport_log sha256 hprofile hrender hfits).mp hread
  obtain ⟨first, more, hevents, hdated, -⟩ := eq_of_render hrender
  have hlog : log timeline assetId =
      body timeline (.new first.tBootUs) (firstBoot (first :: more)) := by
    rw [log, hevents]
  rw [hevents] at hreadable ⊢
  dsimp only
  rw [hlog]
  exact anchored_body sha256 _ hdated hreadable

theorem exampleTimeline_ulog_anchors : ∃ report,
    Reference.Ulog.readReport (fun _ => .replicate 32 0) exampleProfile exampleLog = .ok report ∧
      report.observations.filterMap (fun o => o.anchorUnixUs.map (o.tBootUs, ·)) =
        [(some 38000000, 1788166801000000)] := by
  obtain ⟨report, h⟩ := read_example
  have hprofile : exampleProfile.format = "px4_ulog" := rfl
  have hanchors := ulog_anchors_read_back (fun _ => .replicate 32 0) hprofile render_example
    (by decide) h
  exact ⟨report, h, hanchors.trans (by decide)⟩

end Anchors

end Musubi.Writers.Ulog
