/-
# Reading back a DataFlash log

A log that describes itself is read by what it says of itself.  A record whose values are those of
its definition is read as its labels with its values (`readData_rec`), once the definition has
been read.  The log of a writer begins with all its definitions, so what it holds is read back
record for record (`bin_read_back`), unless a time is too large or a text is cut within a
character.

The reader is a scan with a state and the writer a concatenation, and `Lib.Writing` connects them:
an item with its text, read in a state of a certain kind, and the state behind it.  There are two
kinds of items here.  Behind the definitions the state knows all types (`Declared`, `fmts_after`),
and from there on a record does not change what is known, so the rest of the log is read as a
`map`.

The letters of a format fix widths and kinds of values, and the writer's values have widths;
`Width.writes` says which letters a value stands for, and it is checked on the table of
definitions.  A value is then one field, read as what it is (`valueFields_bytes`), with two
exceptions that make up `Readable`: a time of 2^63 or more, which the reader has no integer for,
and a text that was cut at its length in the middle of a character.

The last section is about the time of a fix, which a log has as a week and a millisecond of the
week (`gpsToUnixUs_gpsWeekMs`).
-/
import Musubi.Reference.BinRecords
import Musubi.Writers.Bin

namespace Musubi.Writers.Bin

open Lib Lib.Checked Musubi.Core Reference Scenario
open Reference.Bin (Fmt Entry LogState ReadReport UntimedRecord charLen cstr declaredLen isAscii)

/-! ## 1. Values -/

/-- What a value is read as. -/
def Value.reading : Value → FieldValue
  | .u8 v => .fromUnsigned v.toNat
  | .i8 v => .i64 v.toInt64
  | .u16 v => .fromUnsigned v.toNat
  | .i16 v => .i64 v.toInt64
  | .u32 v => .fromUnsigned v.toNat
  | .i32 v => .i64 v.toInt64
  | .u64 v => .i64 v.toInt64
  | .f32 v => .float32Bits v.bits.toNat
  | .str s n => .text (cstr (zeroPadded n (utf8 s)))

/-- A time that is not too large, and a text that is cut between its characters.  A text without
room for it loses its end, byte by byte. -/
def Value.Readable : Value → Prop
  | .u64 v => v.toNat < 2 ^ 63
  | .str s n => (fromUtf8 ((zeroPadded n (utf8 s)).takeWhile (· ≠ 0))).toOption ≠ none
  | _ => True

instance : DecidablePred Value.Readable := fun v => by
  cases v <;> unfold Value.Readable <;> infer_instance

section Values

variable {v : Value} {c : UInt8}

theorem charLen_of_writes (h : v.width.writes c = true) : charLen c = some v.bytes.length := by
  have h : letter c ∈ v.width.letters := of_decide_eq_true h
  rw [v.length_bytes]
  unfold charLen
  generalize letter c = l at h
  cases v with
  | str s n => rcases Width.mem_letters_str h with ⟨rfl, rfl⟩ | ⟨rfl, rfl⟩ | ⟨rfl, rfl⟩ <;> rfl
  | _ =>
    simp only [Value.width, Width.letters, List.mem_cons, List.not_mem_nil, or_false] at h
    rcases h with rfl | rfl | rfl <;> rfl

/-- A value is decoded as it was written. -/
theorem decodeValue_bytes (h : v.width.writes c = true) :
    Reference.Bin.decodeValue c v.bytes = .ok v.reading := by
  have h : letter c ∈ v.width.letters := of_decide_eq_true h
  unfold Reference.Bin.decodeValue
  generalize letter c = l at h
  cases v with
  | u8 v =>
    have hword := word_byte v
    simp only [Value.width, Width.letters, List.mem_cons, List.not_mem_nil, or_false] at h
    rcases h with rfl | rfl <;> simp only [Value.bytes, hword, ok_bind] <;> rfl
  | i8 v =>
    have hword := word_byte v.toUInt8
    obtain rfl := List.mem_singleton.mp h
    simp only [Value.bytes, hword, ok_bind, FieldValue.fromI8, UInt8.ofNat_toNat]
    rfl
  | u16 v =>
    have hword : word 2 (leBytes 2 v.toNat) = .ok v.toNat := word_leBytes v.toNat_lt
    simp only [Value.width, Width.letters, List.mem_cons, List.not_mem_nil, or_false] at h
    rcases h with rfl | rfl <;> simp only [Value.bytes, hword, ok_bind] <;> rfl
  | i16 v =>
    have hword : word 2 (leBytes 2 v.toUInt16.toNat) = .ok v.toUInt16.toNat :=
      word_leBytes v.toUInt16.toNat_lt
    simp only [Value.width, Width.letters, List.mem_cons, List.not_mem_nil, or_false] at h
    rcases h with rfl | rfl <;>
      simp only [Value.bytes, hword, ok_bind, FieldValue.fromI16, UInt16.ofNat_toNat] <;> rfl
  | u32 v =>
    have hword : word 4 (leBytes 4 v.toNat) = .ok v.toNat := word_leBytes v.toNat_lt
    simp only [Value.width, Width.letters, List.mem_cons, List.not_mem_nil, or_false] at h
    rcases h with rfl | rfl <;> simp only [Value.bytes, hword, ok_bind] <;> rfl
  | i32 v =>
    have hword : word 4 (leBytes 4 v.toUInt32.toNat) = .ok v.toUInt32.toNat :=
      word_leBytes v.toUInt32.toNat_lt
    simp only [Value.width, Width.letters, List.mem_cons, List.not_mem_nil, or_false] at h
    rcases h with rfl | rfl | rfl <;>
      simp only [Value.bytes, hword, ok_bind, FieldValue.fromI32, UInt32.ofNat_toNat] <;> rfl
  | u64 v =>
    have hword : word 8 (leBytes 8 v.toNat) = .ok v.toNat := word_leBytes v.toNat_lt
    obtain rfl := List.mem_singleton.mp h
    simp only [Value.bytes, hword, ok_bind, FieldValue.from64, UInt64.ofNat_toNat]
    rfl
  | f32 v =>
    have hword : word 4 (leBytes 4 v.bits.toNat) = .ok v.bits.toNat := word_leBytes v.bits.toNat_lt
    obtain rfl := List.mem_singleton.mp h
    simp only [Value.bytes, hword, ok_bind]
    rfl
  | str s n => rcases Width.mem_letters_str h with ⟨rfl, -⟩ | ⟨rfl, -⟩ | ⟨rfl, -⟩ <;> rfl

/-- The check of a value is that it is readable. -/
theorem checkValue_bytes (h : v.width.writes c = true) (off : ℕ) :
    Reference.Bin.checkValue off c v.bytes = .ok () ↔ v.Readable := by
  have h : letter c ∈ v.width.letters := of_decide_eq_true h
  unfold Reference.Bin.checkValue
  generalize letter c = l at h
  cases v with
  | u64 v =>
    have hword : word 8 (leBytes 8 v.toNat) = .ok v.toNat := word_leBytes v.toNat_lt
    rw [if_pos (List.mem_singleton.mp h), Value.bytes, hword, ok_bind]
    unfold Value.Readable
    split
    · exact iff_of_false (fun h => by cases h) (by omega)
    · exact iff_of_true rfl (by omega)
  | str s n =>
    have htext : l ∈ ['n', 'N', 'Z'] := by
      rcases Width.mem_letters_str h with ⟨rfl, -⟩ | ⟨rfl, -⟩ | ⟨rfl, -⟩ <;> decide
    have hQ : l ≠ 'Q' := fun hQ => absurd (hQ ▸ htext) (by decide)
    rw [if_neg hQ, Value.bytes, Value.Readable]
    split
    · next hbad => exact iff_of_false (fun h => by cases h) fun hgood => hgood hbad.2
    · next hgood => exact iff_of_true rfl fun hbad => hgood ⟨htext, hbad⟩
  | _ =>
    simp only [Value.width, Width.letters, List.mem_cons, List.not_mem_nil, or_false] at h
    rcases h with rfl | rfl | rfl <;> exact iff_of_true rfl trivial

/-- **A readable value is one field**, and one that is not readable makes the reader fail. -/
theorem valueFields_bytes (h : v.width.writes c = true) (off : ℕ) (key : String)
    {added : Fields} :
    Reference.Bin.valueFields off c key v.bytes = .ok added ↔
      v.Readable ∧ added = [(key, v.reading)] := by
  have ha : letter c ≠ 'a' := by
    intro ha
    have h : letter c ∈ v.width.letters := of_decide_eq_true h
    rw [ha] at h
    cases v with
    | str s n =>
      rcases Width.mem_letters_str h with ⟨h, -⟩ | ⟨h, -⟩ | ⟨h, -⟩ <;> exact absurd h (by decide)
    | _ => exact absurd h (by simp [Value.width, Width.letters])
  rw [Reference.Bin.valueFields, if_neg ha]
  have hcheck {u : Unit} :
      Reference.Bin.checkValue off c v.bytes = .ok u ↔ v.Readable ∧ u = () := by
    rw [checkValue_bytes h off, and_iff_left rfl]
  refine bind_eq_ok_iff hcheck fun _ => ?_
  rw [decodeValue_bytes h]
  rfl

end Values

/-! ## 2. Records -/

/-- Values under their labels. -/
def keyed (name : String) (labels : List String) (values : List Value) : Fields :=
  (labels.zip values).map fun entry => (name ++ "." ++ entry.1, entry.2.reading)

section Records

variable {off : ℕ} {f : Fmt}

theorem foldlM_decodeField {values : List Value} :
    ∀ {cs : List UInt8} {k : ℕ} {labels : List String} (front : List UInt8) {fields : Fields}
      {decoded : Fields × ℕ}, matched cs (values.map Value.width) = true →
      f.labels.drop k = labels → labels.length = cs.length →
      ((cs.zipIdx k).foldlM
        (Reference.Bin.decodeField off f (front ++ values.flatMap Value.bytes))
          (fields, front.length) = .ok decoded ↔
        (∀ v ∈ values, v.Readable) ∧ decoded = (fields ++ keyed f.name labels values,
          (front ++ values.flatMap Value.bytes).length)) := by
  induction values with
  | nil =>
    intro cs k labels front fields decoded hmatched _ hlabels
    cases cs with
    | cons c cs => cases hmatched
    | nil =>
      obtain rfl : labels = [] := List.length_eq_zero_iff.mp hlabels
      rw [List.zipIdx_nil, List.foldlM_nil, List.flatMap_nil, List.append_nil]
      simp only [keyed, List.zip_nil_left, List.map_nil, List.append_nil]
      exact ⟨fun h => ⟨List.forall_mem_nil _, (Except.ok.inj h).symm⟩,
        fun h => congrArg Except.ok h.2.symm⟩
  | cons v values ih =>
    intro cs k labels front fields decoded hmatched hdrop hlabels
    cases cs with
    | nil => cases hmatched
    | cons c cs =>
      cases labels with
      | nil => cases hlabels
      | cons label labels =>
        obtain ⟨hv, hmore⟩ := Bool.and_eq_true_iff.mp hmatched
        have hlabel : f.labels.getD k ("f" ++ k.repr) = label := by
          have hget : f.labels[k]? = some label := by
            rw [← List.head?_drop, hdrop, List.head?_cons]
          rw [List.getD_eq_getElem?_getD, hget, Option.getD_some]
        have hnext : f.labels.drop (k + 1) = labels := by
          rw [← List.tail_drop, hdrop, List.tail_cons]
        have hslice : (slice (front ++ (v.bytes ++ values.flatMap Value.bytes)) front.length
            (front.length + v.bytes.length) : Checked ReadError _) = .ok v.bytes :=
          slice_middle front _ rfl rfl
        have hstep {added : Fields × ℕ} : Reference.Bin.decodeField off f
            (front ++ (v.bytes ++ values.flatMap Value.bytes)) (fields, front.length) (c, k) =
              .ok added ↔ v.Readable ∧ added =
              (fields ++ [(f.name ++ "." ++ label, v.reading)], (front ++ v.bytes).length) := by
          unfold Reference.Bin.decodeField
          simp only [charLen_of_writes hv, Option.getD_some, hlabel, hslice, ok_bind]
          rw [List.length_append]
          exact bind_eq_ok_iff (valueFields_bytes hv off _) fun _ => rfl
        have hrest {fields : Fields} : (cs.zipIdx (k + 1)).foldlM (Reference.Bin.decodeField off f
            (front ++ (v.bytes ++ values.flatMap Value.bytes)))
              (fields, (front ++ v.bytes).length) = .ok decoded ↔
            (∀ w ∈ values, w.Readable) ∧ decoded = (fields ++ keyed f.name labels values,
              (front ++ (v.bytes ++ values.flatMap Value.bytes)).length) := by
          rw [← List.append_assoc]
          exact ih (front ++ v.bytes) hmore hnext (Nat.succ.inj hlabels)
        rw [List.zipIdx_cons, List.foldlM_cons, bind_eq_ok, List.flatMap_cons,
          List.forall_mem_cons]
        simp only [hstep]
        have hkeyed : keyed f.name (label :: labels) (v :: values) =
            (f.name ++ "." ++ label, v.reading) :: keyed f.name labels values := rfl
        rw [hkeyed]
        constructor
        · rintro ⟨_, ⟨hreadable, rfl⟩, hdecoded⟩
          obtain ⟨hall, rfl⟩ := hrest.mp hdecoded
          rw [List.append_assoc, List.singleton_append]
          exact ⟨⟨hreadable, hall⟩, rfl⟩
        · rintro ⟨⟨hreadable, hall⟩, rfl⟩
          refine ⟨_, ⟨hreadable, rfl⟩, hrest.mpr ⟨hall, ?_⟩⟩
          rw [List.append_assoc, List.singleton_append]

/-- **The values of a record are decoded under its labels**, when all of them are readable.  By
induction on the format; the bytes of the values before it are where the reader is. -/
theorem decodeFields_eq_ok {values : List Value} {fields : Fields}
    (h : matched f.format (values.map Value.width) = true) :
    Reference.Bin.decodeFields off f (values.flatMap Value.bytes) = .ok fields ↔
      (∀ v ∈ values, v.Readable) ∧ fields = keyed f.name f.labels values := by
  have hfold {decoded : Fields × ℕ} : f.format.zipIdx.foldlM
      (Reference.Bin.decodeField off f (values.flatMap Value.bytes)) ([], 0) = .ok decoded ↔
        (∀ v ∈ values, v.Readable) ∧ decoded = (keyed f.name f.labels values,
          (values.flatMap Value.bytes).length) :=
    foldlM_decodeField [] h List.drop_zero f.labelled
  exact bind_eq_ok_iff hfold fun _ => rfl

end Records

/-! ## 3. Definitions -/

/-- A text in its field, where it has room. -/
structure FitsIn (n : ℕ) (s : String) : Prop where
  length_le : (utf8 s).length ≤ n
  zero : (0 : UInt8) ∉ utf8 s

instance (n : ℕ) (s : String) : Decidable (FitsIn n s) :=
  decidable_of_iff ((utf8 s).length ≤ n ∧ (0 : UInt8) ∉ utf8 s)
    ⟨fun h => ⟨h.1, h.2⟩, fun h => ⟨h.length_le, h.zero⟩⟩

theorem fromUtf8Lossy_utf8 (s : String) : fromUtf8Lossy (utf8 s) = s := by
  have hlossy : (s.toList.map Utf8Chunk.char).map Utf8Chunk.lossy = s.toList := by
    rw [List.map_map]
    exact List.map_id _
  rw [fromUtf8Lossy, utf8, toByteArray_toList, utf8Chunks_encode, hlossy, String.ofList_toList]

theorem FitsIn.cstr {n : ℕ} {s : String} (h : FitsIn n s) :
    cstr (zeroPadded n (utf8 s)) = s := by
  rw [Reference.Bin.cstr, takeWhile_zeroPadded h.length_le h.zero, fromUtf8Lossy_utf8]

def MsgDef.labelList (d : MsgDef) : List String := (d.labels.toList.splitOn ',').map String.ofList

/-- A definition that says what it means: its texts fit into their fields, and each letter has a
label of its own. -/
structure MsgDef.Sound (d : MsgDef) : Prop where
  name_ne : d.name ≠ ""
  name_ascii : isAscii d.name = true
  name_fits : FitsIn 4 d.name
  format_fits : FitsIn 16 d.format
  labels_fit : FitsIn 64 d.labels
  labelled : d.labelList.length = (utf8 d.format).length
  named : ∀ label ∈ d.labelList, label ≠ "" ∧ isAscii label = true
  distinct : d.labelList.Nodup
  declared : (declaredLen (utf8 d.format)).map (· + 3) = some (recordLen d.format)
  short : recordLen d.format < 256

instance : DecidablePred MsgDef.Sound := fun d =>
  decidable_of_iff (d.name ≠ "" ∧ isAscii d.name = true ∧ FitsIn 4 d.name ∧ FitsIn 16 d.format ∧
      FitsIn 64 d.labels ∧ d.labelList.length = (utf8 d.format).length ∧
      (∀ label ∈ d.labelList, label ≠ "" ∧ isAscii label = true) ∧ d.labelList.Nodup ∧
      (declaredLen (utf8 d.format)).map (· + 3) = some (recordLen d.format) ∧
      recordLen d.format < 256)
    ⟨fun ⟨h1, h2, h3, h4, h5, h6, h7, h8, h9, h10⟩ => ⟨h1, h2, h3, h4, h5, h6, h7, h8, h9, h10⟩,
      fun ⟨h1, h2, h3, h4, h5, h6, h7, h8, h9, h10⟩ => ⟨h1, h2, h3, h4, h5, h6, h7, h8, h9, h10⟩⟩

/-- The format that a definition declares. -/
def MsgDef.fmt (d : MsgDef) (h : d.Sound) : Fmt where
  name := d.name
  len := recordLen d.format
  format := utf8 d.format
  labels := d.labelList
  labelled := h.labelled
  distinct := h.distinct
  declared := h.declared

/-- A definition of records that begin with their time: it is not the one of definitions, and its
first label and letter are those of a time. -/
def MsgDef.Timed (d : MsgDef) : Prop :=
  d.msgid ≠ fmtMsgid ∧ d.labelList.head? = some "TimeUS" ∧ (utf8 d.format).head? = some 81

instance : DecidablePred MsgDef.Timed := fun _ => inferInstanceAs (Decidable (_ ∧ _))

theorem sound_defs : ∀ d ∈ defs, d.Sound ∧ (d = defFmt ∨ d.Timed) := by decide +kernel

/-- **A definition is read as what it declares.** -/
theorem readFmt_fmtRec {d : MsgDef} (h : d.Sound) (off : ℕ) (rest : List UInt8) :
    Reference.Bin.readFmt off ((fmtRec d).buf ++ rest) = .ok (d.msgid, d.fmt h) := by
  have hbuf : (fmtRec d).buf = [0xA3, 0x95, fmtMsgid, d.msgid, .ofNat (recordLen d.format)] ++
      (zeroPadded 4 (utf8 d.name) ++ (zeroPadded 16 (utf8 d.format) ++
        (zeroPadded 64 (utf8 d.labels) ++ []))) := by
    simp [Rec.buf, fmtRec, head, Value.bytes, defFmt]
  have hlength : Reference.Bin.fmtLen ≤ (fmtRec d).buf.length := by
    rw [hbuf]
    simp [Reference.Bin.fmtLen]
  have hlen : (UInt8.ofNat (recordLen d.format)).toNat = recordLen d.format := by
    rw [UInt8.toNat_ofNat', Nat.mod_eq_of_lt h.short]
  have hty : (index (fmtRec d).buf 3 : Checked ReadError UInt8) = .ok d.msgid := by
    rw [hbuf]
    rfl
  have hlenByte : (index (fmtRec d).buf 4 : Checked ReadError UInt8) =
      .ok (.ofNat (recordLen d.format)) := by
    rw [hbuf]
    rfl
  have hname : (slice (fmtRec d).buf 5 9 : Checked ReadError _) =
      .ok (zeroPadded 4 (utf8 d.name)) := by
    rw [hbuf]
    exact slice_middle _ _ rfl (by rw [length_zeroPadded])
  have hformat : (slice (fmtRec d).buf 9 25 : Checked ReadError _) =
      .ok (zeroPadded 16 (utf8 d.format)) := by
    rw [hbuf, ← List.append_assoc]
    exact slice_middle _ _ (by simp) (by rw [length_zeroPadded])
  have hlabels : (slice (fmtRec d).buf 25 89 : Checked ReadError _) =
      .ok (zeroPadded 64 (utf8 d.labels)) := by
    rw [hbuf, ← List.append_assoc, ← List.append_assoc]
    exact slice_middle _ _ (by simp) (by rw [length_zeroPadded])
  have hclear : ¬ (d.name = "" ∨ ¬ isAscii d.name ∨
      d.labelList.length ≠ (utf8 d.format).length ∨
      (∃ label ∈ d.labelList, label = "" ∨ ¬ isAscii label) ∨ ¬ d.labelList.Nodup) := by
    rintro (hbad | hbad | hbad | ⟨label, hlabel, hbad⟩ | hbad)
    · exact h.name_ne hbad
    · exact hbad h.name_ascii
    · exact hbad h.labelled
    · exact hbad.elim (h.named label hlabel).1 fun hbad => hbad (h.named label hlabel).2
    · exact hbad h.distinct
  rw [Reference.Bin.readFmt_append hlength]
  unfold Reference.Bin.readFmt
  rw [hty, ok_bind, hlenByte, ok_bind, hname, ok_bind, hformat, ok_bind, hlabels, ok_bind]
  simp only [h.name_fits.cstr, h.format_fits.cstr, h.labels_fit.cstr, hlen]
  exact (dif_neg hclear).trans (dif_pos h.declared)

/-! ## 4. Records of a definition -/

def Rec.fields (r : Rec) : Fields := keyed r.msgDef.name r.msgDef.labelList r.values

/-- The time that a record begins with. -/
def Rec.timeUs (r : Rec) : UInt64 :=
  match r.values with
  | .u64 t :: _ => t
  | _ => 0

/-- The time of a fix, of a GPS record that has one. -/
def Rec.anchor (r : Rec) : Option Int64 :=
  match Reference.Bin.gpsAnchor r.msgDef.name r.fields with
  | .ok anchor => anchor
  | .error _ => none

/-- What a record is read as. -/
def Rec.observed (sha256 : List UInt8 → Digest) (profile : FamilyProfile) (r : Rec) :
    Observation :=
  { observation sha256 profile (r.timeUs.toInt64 / 1000) (Reference.Bin.channelFor r.msgDef.name)
      r.fields false with
    tBootUs := some r.timeUs
    clockBasis := .bootRelative
    wallMs := none
    timeConfidence := defaultTimeConfidence .bootRelative
    anchorUnixUs := r.anchor }

def Rec.Readable (r : Rec) : Prop := ∀ v ∈ r.values, v.Readable

instance : DecidablePred Rec.Readable := fun _ => inferInstanceAs (Decidable (∀ v ∈ _, _))

theorem gpsAnchor_eq (r : Rec) :
    Reference.Bin.gpsAnchor r.msgDef.name r.fields = .ok r.anchor := by
  have hok : ∃ anchor, Reference.Bin.gpsAnchor r.msgDef.name r.fields = .ok anchor := by
    unfold Reference.Bin.gpsAnchor
    split
    · split
      · split
        · rw [Reference.Bin.gpsToUnixUs_eq, ok_bind]
          exact ⟨_, rfl⟩
        · exact ⟨_, rfl⟩
      · exact ⟨_, rfl⟩
    · exact ⟨_, rfl⟩
  obtain ⟨anchor, hanchor⟩ := hok
  rw [Rec.anchor, hanchor]

section Reading

variable {r : Rec} {off : ℕ} {s : LogState}

theorem length_values (h : r.Typed) (hsound : r.msgDef.Sound) :
    r.msgDef.labelList.length = r.values.length := by
  have hlength : ∀ {cs : List UInt8} {ws : List Width}, matched cs ws = true →
      cs.length = ws.length := by
    intro cs
    induction cs with
    | nil =>
      intro ws h
      cases ws with
      | nil => rfl
      | cons w ws => cases h
    | cons c cs ih =>
      intro ws h
      cases ws with
      | nil => cases h
      | cons w ws => rw [List.length_cons, List.length_cons, ih (Bool.and_eq_true_iff.mp h).2]
  rw [hsound.labelled, hlength h, List.length_map]

theorem nodup_fields (h : r.Typed) (hsound : r.msgDef.Sound) :
    (r.fields.map Prod.fst).Nodup := by
  have hkeys : r.fields.map Prod.fst =
      r.msgDef.labelList.map fun label => r.msgDef.name ++ "." ++ label := by
    have hzip : (r.msgDef.labelList.zip r.values).map Prod.fst = r.msgDef.labelList :=
      List.map_fst_zip (Nat.le_of_eq (length_values h hsound))
    conv_rhs => rw [← hzip]
    rw [Rec.fields, keyed, List.map_map, List.map_map]
    rfl
  rw [hkeys]
  exact hsound.distinct.map fun a b hab => (String.append_right_inj _).mp hab

theorem Width.eq_u64 {w : Width} (h : w.writes 81 = true) : w = .u64 := by
  cases w with
  | u64 => rfl
  | str n =>
    rcases mem_letters_str (of_decide_eq_true h) with ⟨hQ, -⟩ | ⟨hQ, -⟩ | ⟨hQ, -⟩ <;>
      exact absurd hQ (by decide)
  | _ => exact absurd h (by decide)

/-- The first value of a record that begins with its time, from which the reader takes the time of
the observation. -/
theorem exists_time (h : r.Typed) (htimed : r.msgDef.Timed) :
    ∃ values, r.values = .u64 r.timeUs :: values := by
  obtain ⟨d, values⟩ := r
  obtain ⟨-, -, hformat⟩ := htimed
  unfold Rec.Typed at h
  dsimp only at h hformat ⊢
  cases hcs : utf8 d.format with
  | nil =>
    rw [hcs] at hformat
    cases hformat
  | cons c cs =>
    rw [hcs] at hformat h
    obtain rfl := Option.some.inj hformat
    cases values with
    | nil => cases h
    | cons v values =>
      have hwidth := (Bool.and_eq_true_iff.mp h).1
      cases v with
      | u64 t => exact ⟨values, rfl⟩
      | _ => cases Width.eq_u64 hwidth

/-- **A record is read as its labels with its values.** `htimed` says that its definition begins
with a time, without which the record would be kept untimed. -/
theorem readData_rec (sha256 : List UInt8 → Digest) (profile : FamilyProfile) (h : r.Typed)
    (hsound : r.msgDef.Sound) (htimed : r.msgDef.Timed) (rest : List UInt8)
    {read : Entry × Reference.Bin.ReportedUnits} :
    Reference.Bin.readData sha256 profile false s off r.msgDef.msgid (r.msgDef.fmt hsound)
        (r.buf ++ rest) = .ok read ↔
      r.Readable ∧ read = (.observed (r.observed sha256 profile), s.units) := by
  have hpayload : (slice (r.buf ++ rest) 3 (r.msgDef.fmt hsound).len : Checked ReadError _) =
      .ok (r.values.flatMap Value.bytes) := by
    have hbuf : r.buf ++ rest = (head ++ [r.msgDef.msgid]) ++
        (r.values.flatMap Value.bytes ++ rest) := by simp [Rec.buf]
    have hlen : (r.msgDef.fmt hsound).len = r.buf.length := h.length_buf.symm
    rw [hbuf, hlen]
    exact slice_middle _ _ rfl (by simp [Rec.buf, head]; omega)
  have hdecode {fields : Fields} : Reference.Bin.decodeFields off (r.msgDef.fmt hsound)
      (r.values.flatMap Value.bytes) = .ok fields ↔ r.Readable ∧ fields = r.fields :=
    decodeFields_eq_ok h
  obtain ⟨values, hvalues⟩ := exists_time h htimed
  have hnodup := nodup_fields h hsound
  have hfind : (r.msgDef.fmt hsound).labels.findIdx? (· = "TimeUS") = some 0 := by
    obtain ⟨labels, hlabels⟩ : ∃ labels, r.msgDef.labelList = "TimeUS" :: labels := by
      obtain ⟨-, hlabels, -⟩ := htimed
      exact List.head?_eq_some_iff.mp hlabels
    change r.msgDef.labelList.findIdx? _ = _
    rw [hlabels]
    rfl
  have hformat : (index (r.msgDef.fmt hsound).format 0 : Checked ReadError UInt8) = .ok 81 := by
    obtain ⟨-, -, hformat⟩ := htimed
    obtain ⟨cs, hcs⟩ := List.head?_eq_some_iff.mp hformat
    change index (utf8 r.msgDef.format) 0 = _
    rw [hcs]
    rfl
  have htime : integer r.fields (r.msgDef.name ++ ".TimeUS") = some r.timeUs.toInt64 := by
    refine integer_eq_some hnodup ?_
    obtain ⟨-, hlabels, -⟩ := htimed
    obtain ⟨labels, hlabels⟩ := List.head?_eq_some_iff.mp hlabels
    have hkey : r.msgDef.name ++ ".TimeUS" = r.msgDef.name ++ "." ++ "TimeUS" := by
      rw [String.append_assoc]
      rfl
    rw [Rec.fields, hlabels, hvalues, hkey]
    exact List.mem_cons_self
  have hobserved (ht : r.timeUs.toNat < 2 ^ 63) : Reference.Bin.timedObservation sha256 profile
      r.msgDef.name r.timeUs.toInt64 r.fields = .ok (r.observed sha256 profile) := by
    rw [Reference.Bin.timedObservation, gpsAnchor_eq, ok_bind, toUInt64_max_toInt64 ht]
    rfl
  unfold Reference.Bin.readData
  rw [hpayload, ok_bind]
  refine bind_eq_ok_iff hdecode fun hreadable => ?_
  have ht : r.timeUs.toNat < 2 ^ 63 := by
    have hfirst : Value.Readable (.u64 r.timeUs) :=
      hreadable _ (hvalues ▸ List.mem_cons_self)
    exact hfirst
  rw [LogState.reportUnits, if_neg Bool.false_ne_true, pure_bind]
  dsimp only
  rw [if_neg (not_not.mpr hnodup), hfind]
  dsimp only
  rw [hformat, ok_bind, if_neg (by decide)]
  change (unwrap (integer r.fields (r.msgDef.name ++ ".TimeUS")) >>= _) = _
  rw [htime]
  change (Reference.Bin.timedObservation sha256 profile r.msgDef.name r.timeUs.toInt64 r.fields
    >>= _) = _
  rw [hobserved ht]
  rfl

end Reading

/-! ## 5. The definitions of a log -/

/-- A definition as it is written, and what it changes. -/
def declaring : Writing LogState Entry UInt8 {d : MsgDef // d.Sound} where
  write d := (fmtRec d.1).buf
  item d := .format d.1.msgid (d.1.fmt d.2)
  next s _ d := s.declare d.1.msgid (d.1.fmt d.2)

section Declaring

theorem head_buf (r : Rec) (rest : List UInt8) :
    3 ≤ (r.buf ++ rest).length ∧ (r.buf ++ rest).take 2 = Reference.Bin.headBytes ∧
      (r.buf ++ rest)[2]? = some r.msgDef.msgid := by
  refine ⟨?_, rfl, rfl⟩
  rw [List.length_append, r.length_buf]
  omega

theorem readBy_declaring (sha256 : List UInt8 → Digest) (profile : FamilyProfile)
    (d : {d : MsgDef // d.Sound}) (s : LogState) (p : ℕ) :
    declaring.ReadBy (Reference.Bin.records sha256 profile false) s p d := by
  have hlength : (fmtRec d.1).buf.length = Reference.Bin.fmtLen := (fmtRec d.1).length_buf
  refine ⟨?_, fun rest => rfl, fun rest => ?_⟩
  · change 0 < (fmtRec d.1).buf.length
    rw [hlength]
    decide
  · obtain ⟨hlong, hhead, hmsgid⟩ := head_buf (fmtRec d.1) rest
    refine Reference.Bin.readRecord_eq_ok.mpr ⟨hlong, hhead, Or.inl ⟨hmsgid, ?_, ?_⟩⟩
    · rw [List.length_append, hlength]
      exact Nat.le_add_right _ _
    · exact ⟨d.1.msgid, d.1.fmt d.2, readFmt_fmtRec d.2 p rest, rfl, hlength, rfl⟩

/-- What is known of a type that is not defined again stays known, however many definitions come.
-/
theorem fmts_after_of_notMem {ty : UInt8} {ds : List {d : MsgDef // d.Sound}} : ∀ {p s},
    ty ∉ ds.map (fun d => d.1.msgid) → (declaring.after p s ds).fmts ty = s.fmts ty := by
  induction ds with
  | nil => exact fun _ => rfl
  | cons d ds ih =>
    intro p s hty
    rw [List.map_cons, List.mem_cons, not_or] at hty
    rw [Writing.after, ih hty.2]
    exact Function.update_of_ne hty.1 _ _

/-- **Behind definitions of different types, all of them are known**: a later one takes nothing
from an earlier. -/
theorem fmts_after {ds : List {d : MsgDef // d.Sound}} : ∀ {p s},
    (ds.map fun d => d.1.msgid).Nodup →
      ∀ d ∈ ds, (declaring.after p s ds).fmts d.1.msgid = some (d.1.fmt d.2) := by
  induction ds with
  | nil => exact fun _ => List.forall_mem_nil _
  | cons d ds ih =>
    intro p s hnodup
    rw [List.map_cons, List.nodup_cons] at hnodup
    rw [List.forall_mem_cons, Writing.after]
    refine ⟨?_, ih hnodup.2⟩
    rw [fmts_after_of_notMem hnodup.1]
    exact Function.update_self _ _ _

def soundDefs : List {d : MsgDef // d.Sound} :=
  defs.attach.map fun d => ⟨d.1, (sound_defs d.1 d.2).1⟩

theorem map_soundDefs {α : Type} (g : MsgDef → α) :
    soundDefs.map (fun d => g d.1) = defs.map g := by
  rw [soundDefs, List.map_map]
  exact List.attach_map_val ..

/-- The state behind the definitions of a log: every definition of the writer is known as what it
declares. -/
structure Declared (s : LogState) : Prop where
  fmts : ∀ d ∈ defs, ∃ h : d.Sound, s.fmts d.msgid = some (d.fmt h)

theorem declared_after (p : ℕ) (s : LogState) : Declared (declaring.after p s soundDefs) := by
  refine ⟨fun d hd => ?_⟩
  have hnodup : (soundDefs.map fun d => d.1.msgid).Nodup := by
    rw [map_soundDefs MsgDef.msgid]
    decide
  exact ⟨(sound_defs d hd).1, fmts_after hnodup ⟨d, _⟩
    (List.mem_map.mpr ⟨⟨d, hd⟩, List.mem_attach _ _, rfl⟩)⟩

end Declaring

/-! ## 6. The records of a log -/

/-- A record of the writer. -/
structure Rec.Defined (r : Rec) : Prop where
  mem : r.msgDef ∈ defs
  timed : r.msgDef.Timed
  typed : r.Typed

section Data

variable (sha256 : List UInt8 → Digest) (profile : FamilyProfile)

/-- A record as it is written and as it is read. -/
def reporting : Writing LogState Entry UInt8 Rec where
  write := Rec.buf
  item r := .observed (r.observed sha256 profile)
  next s _ _ := s

/-- **A record of a log is read behind the definitions**, when its values are readable, and it
leaves what is known as it was. -/
theorem readRecord_rec {r : Rec} (hr : r.Defined) {s : LogState} (hs : Declared s) (off : ℕ)
    (rest : List UInt8) {read : Entry × ℕ × LogState} :
    Reference.Bin.readRecord sha256 profile false s (r.buf ++ rest) off = .ok read ↔
      r.Readable ∧ read = (.observed (r.observed sha256 profile), r.buf.length, s) := by
  obtain ⟨hsound, hfmt⟩ := hs.fmts r.msgDef hr.mem
  obtain ⟨hlong, hhead, hmsgid⟩ := head_buf r rest
  have hlength : r.buf.length = (r.msgDef.fmt hsound).len := hr.typed.length_buf
  have hfits : (r.msgDef.fmt hsound).len ≤ (r.buf ++ rest).length := by
    rw [List.length_append, hlength]
    exact Nat.le_add_right _ _
  have hdata {read : Entry × Reference.Bin.ReportedUnits} : Reference.Bin.readData sha256 profile
      false s off r.msgDef.msgid (r.msgDef.fmt hsound) (r.buf ++ rest) = .ok read ↔
        r.Readable ∧ read = (.observed (r.observed sha256 profile), s.units) :=
    readData_rec sha256 profile hr.typed hsound hr.timed rest
  obtain ⟨entry, n, s'⟩ := read
  rw [Reference.Bin.readRecord_eq_ok]
  constructor
  · rintro ⟨-, -, ⟨hid, -⟩ | ⟨msgid, f, units, hid, -, hf, -, rfl, rfl, hread⟩⟩
    · exact absurd (Option.some.inj (hmsgid.symm.trans hid)) hr.timed.1
    · obtain rfl := Option.some.inj (hmsgid.symm.trans hid)
      obtain rfl := Option.some.inj (hfmt.symm.trans hf)
      obtain ⟨hreadable, h⟩ := hdata.mp hread
      cases h
      exact ⟨hreadable, by rw [hlength]⟩
  · rintro ⟨hreadable, h⟩
    cases h
    exact ⟨hlong, hhead, Or.inr ⟨r.msgDef.msgid, r.msgDef.fmt hsound, s.units, hmsgid,
      hr.timed.1, hfmt, hfits, hlength, rfl, hdata.mpr ⟨hreadable, rfl⟩⟩⟩

/-- Definitions are read whatever follows them; induction on the definitions, with the position
and the state of the reader free. -/
theorem run_declaring (ds : List {d : MsgDef // d.Sound}) (rest : List UInt8) :
    (Reference.Bin.records sha256 profile false).Run (declaring.text ds ++ rest) 0 .new
      (declaring.scanned 0 .new ds) (declaring.text ds).length (declaring.after 0 .new ds) := by
  have hrun := (Writing.run rest
    (fun d (_ : d ∈ ds) s p (_ : True) =>
      ⟨readBy_declaring sha256 profile d s p, trivial⟩) [] (s := .new) trivial).1
  rwa [List.length_nil, List.nil_append, Nat.zero_add] at hrun

/-- **A log that begins with the definitions is read record for record**, exactly when its records
are readable. -/
theorem recorded_iff {rs : List Rec} (hdefined : ∀ r ∈ rs, r.Defined)
    {records : List (Scanned LogState Entry)} :
    Reference.Bin.Recorded sha256 profile false
        (declaring.text soundDefs ++ (reporting sha256 profile).text rs) records ↔
      (∀ r ∈ rs, r.Readable) ∧
      records = declaring.scanned 0 .new soundDefs ++
        (reporting sha256 profile).scanned (declaring.text soundDefs).length
          (declaring.after 0 .new soundDefs) rs := by
  have hpos (r : Rec) : 0 < r.buf.length := by
    rw [r.length_buf]
    omega
  have hread (r : Rec) (hr : r ∈ rs) (s : LogState) (p : ℕ) (hs : Declared s)
      (hgood : r.Readable) :
      (reporting sha256 profile).ReadBy (Reference.Bin.records sha256 profile false) s p r ∧
        Declared s :=
    ⟨⟨hpos r, fun _ => rfl, fun rest =>
      (readRecord_rec sha256 profile (hdefined r hr) hs p rest).mpr ⟨hgood, rfl⟩⟩, hs⟩
  have hfail (r : Rec) (hr : r ∈ rs) (s : LogState) (p : ℕ) (rest : List UInt8)
      (read : Entry × ℕ × LogState) (hs : Declared s) (hbad : ¬ r.Readable) :
      (Reference.Bin.records sha256 profile false).step s (r.buf ++ rest) p ≠ .ok read :=
    fun hstep => hbad ((readRecord_rec sha256 profile (hdefined r hr) hs p rest).mp hstep).1
  -- the definitions are read whatever follows, and the records behind them
  have hfirst := run_declaring sha256 profile soundDefs ((reporting sha256 profile).text rs)
  have hmore {t : LogState} {more : List (Scanned LogState Entry)} :
      (Reference.Bin.records sha256 profile false).Run
        (declaring.text soundDefs ++ (reporting sha256 profile).text rs)
        (declaring.text soundDefs).length (declaring.after 0 .new soundDefs) more
        (declaring.text soundDefs ++ (reporting sha256 profile).text rs).length t ↔
      (∀ r ∈ rs, r.Readable) ∧
        more = (reporting sha256 profile).scanned (declaring.text soundDefs).length
          (declaring.after 0 .new soundDefs) rs ∧
        t = (reporting sha256 profile).after (declaring.text soundDefs).length
          (declaring.after 0 .new soundDefs) rs := by
    rw [← Writing.accepted_iff_forall (W := reporting sha256 profile) rs
      (declaring.text soundDefs).length (declaring.after 0 .new soundDefs)]
    exact Writing.run_iff hread hfail (fun r _ => hpos r) (declaring.text soundDefs)
      (declared_after 0 .new)
  constructor
  · rintro ⟨t, hrun⟩
    obtain ⟨more, rfl, hrest⟩ := hfirst.of_shorter hrun (by simp)
    obtain ⟨hreadable, rfl, -⟩ := hmore.mp hrest
    exact ⟨hreadable, rfl⟩
  · rintro ⟨hreadable, rfl⟩
    exact ⟨_, hfirst.append (hmore.mpr ⟨hreadable, rfl, rfl⟩)⟩

theorem readReport_of (records : List (Scanned LogState Entry)) :
    ReadReport.of records =
      ⟨(records.map Scanned.item).filterMap Entry.observation,
        (records.map Scanned.item).filterMap Entry.untimedRecord,
        (records.map Scanned.item).countP Entry.isData⟩ := by
  simp only [ReadReport.of, List.filterMap_map, List.countP_map]
  rfl

/-- Definitions leave nothing in a report, and every record one observation. -/
theorem report_items (ds : List {d : MsgDef // d.Sound}) (rs : List Rec) :
    (⟨(ds.map declaring.item ++ rs.map (reporting sha256 profile).item).filterMap
        Entry.observation,
      (ds.map declaring.item ++ rs.map (reporting sha256 profile).item).filterMap
        Entry.untimedRecord,
      (ds.map declaring.item ++ rs.map (reporting sha256 profile).item).countP
        Entry.isData⟩ : ReadReport) =
      ⟨rs.map (Rec.observed sha256 profile), [], rs.length⟩ := by
  have hformats : ∀ entry ∈ ds.map declaring.item, ∃ ty f, entry = .format ty f := by
    intro entry hentry
    obtain ⟨d, -, rfl⟩ := List.mem_map.mp hentry
    exact ⟨_, _, rfl⟩
  have hnone {β : Type} (g : Entry → Option β) (hg : ∀ ty f, g (.format ty f) = none) :
      (ds.map declaring.item).filterMap g = [] := by
    refine List.filterMap_eq_nil_iff.mpr fun entry hentry => ?_
    obtain ⟨ty, f, rfl⟩ := hformats entry hentry
    exact hg ty f
  have hcount : (ds.map declaring.item).countP Entry.isData = 0 := by
    refine List.countP_eq_zero.mpr fun entry hentry => ?_
    obtain ⟨ty, f, rfl⟩ := hformats entry hentry
    exact Bool.false_ne_true
  rw [List.filterMap_append, List.filterMap_append, List.countP_append, hcount,
    hnone _ fun _ _ => rfl, hnone _ fun _ _ => rfl]
  congr 1
  · rw [List.nil_append, List.filterMap_map]
    exact congrFun (List.filterMap_eq_map (f := Rec.observed sha256 profile)) rs
  · rw [List.nil_append, List.filterMap_map]
    exact List.filterMap_eq_nil_iff.mpr fun _ _ => rfl
  · rw [Nat.zero_add, List.countP_map, List.countP_eq_length]
    exact fun _ _ => rfl

/-- The report on such a log: its definitions leave nothing in it. -/
theorem readReport_iff (hprofile : profile.format = "ardupilot_dataflash_bin") {rs : List Rec}
    (hdefined : ∀ r ∈ rs, r.Defined) {input : Slice}
    (hinput : input.bytes = (defs.map fmtRec).flatMap Rec.buf ++ rs.flatMap Rec.buf)
    {report : ReadReport} :
    Reference.Bin.readReport sha256 profile input = .ok report ↔
      (∀ r ∈ rs, r.Readable) ∧
      report = ⟨rs.map (Rec.observed sha256 profile), [], rs.length⟩ := by
  have htext : declaring.text soundDefs = (defs.map fmtRec).flatMap Rec.buf := by
    rw [Writing.text, List.flatMap_map, List.flatMap_def, List.flatMap_def]
    exact congrArg _ (map_soundDefs fun d => (fmtRec d).buf)
  have hreport (p q : ℕ) (s t : LogState) :
      ReadReport.of (declaring.scanned p s soundDefs ++
        (reporting sha256 profile).scanned q t rs) =
          ⟨rs.map (Rec.observed sha256 profile), [], rs.length⟩ := by
    rw [readReport_of, List.map_append, Writing.map_item_scanned, Writing.map_item_scanned]
    exact report_items sha256 profile soundDefs rs
  rw [← htext] at hinput
  unfold Reference.Bin.readReport
  rw [Reference.Bin.readReportImpl_eq_ok, hinput]
  constructor
  · rintro ⟨-, records, hrecorded, rfl⟩
    obtain ⟨hreadable, rfl⟩ := (recorded_iff sha256 profile hdefined).mp hrecorded
    exact ⟨hreadable, hreport _ _ _ _⟩
  · rintro ⟨hreadable, rfl⟩
    exact ⟨hprofile, _, (recorded_iff sha256 profile hdefined).mpr ⟨hreadable, rfl⟩,
      (hreport _ _ _ _).symm⟩

end Data

/-! ## 7. The events of a log -/

/-- A record of the writer, by the place of its definition behind that of the definitions. -/
theorem defined_at {r : Rec} (i : ℕ) (hget : defs.tail[i]? = some r.msgDef) (htyped : r.Typed) :
    r.Defined := by
  have hmem := List.mem_of_getElem? hget
  have hdefs := List.mem_of_mem_tail hmem
  have hid : ∀ d ∈ defs.tail, d.msgid ≠ defFmt.msgid := by decide
  exact ⟨hdefs, (sound_defs _ hdefs).2.resolve_left fun h =>
    hid _ hmem (congrArg MsgDef.msgid h), htyped⟩

theorem defined_header (tUs : UInt64) (vehicle : String) :
    ∀ r ∈ header tUs vehicle, r.Defined := by
  have hmsg (seq : UInt8) (text : String) : (msgRec tUs seq text).Defined :=
    defined_at 1 rfl (typed_msgRec tUs seq text)
  rw [header, List.forall_mem_append]
  refine ⟨fun r hr => ?_, ?_⟩
  · obtain ⟨p, -, rfl⟩ := List.mem_map.mp hr
    exact defined_at 0 rfl (typed_parmRec tUs p.1 p.2)
  · exact List.forall_mem_cons.mpr ⟨hmsg _ _, List.forall_mem_cons.mpr ⟨hmsg _ _,
      List.forall_mem_singleton.mpr (defined_at 5 rfl (typed_armRec tUs))⟩⟩

theorem defined_recs (timeline : Timeline) (msgSeq : UInt8) (lastHdgCdeg : UInt16) (e : Event) :
    ∀ r ∈ recs timeline msgSeq lastHdgCdeg e, r.Defined := by
  have hone {r : Rec} (i : ℕ) (hget : defs.tail[i]? = some r.msgDef) (htyped : r.Typed) :
      ∀ s ∈ [r], s.Defined := List.forall_mem_singleton.mpr (defined_at i hget htyped)
  unfold recs
  cases e.kind with
  | heartbeat => exact hone 15 rfl matched_att
  | sysStatus =>
    exact List.forall_mem_cons.mpr ⟨defined_at 10 rfl matched_bat, hone 11 rfl matched_powr⟩
  | gpsRawInt =>
    exact List.forall_mem_cons.mpr ⟨defined_at 6 rfl matched_gps,
      List.forall_mem_cons.mpr ⟨defined_at 7 rfl matched_gpa, hone 8 rfl matched_ubx1⟩⟩
  | radioStatus => exact hone 14 rfl matched_rad
  | statusText => exact hone 1 rfl matched_msg
  | rcIn =>
    exact List.forall_mem_cons.mpr ⟨defined_at 12 rfl matched_rcin, hone 13 rfl matched_rssi⟩
  | ekfStatus => exact hone 9 rfl matched_xkf4
  | modeChange => exact hone 2 rfl matched_mode
  | err => exact hone 3 rfl matched_err
  | globalPositionInt | reboot | handsetRow | blackboxRow | videoPresence =>
    exact List.forall_mem_nil _

theorem defined_body (timeline : Timeline) (events : List Event) : ∀ msgSeq lastHdgCdeg,
    ∀ r ∈ body timeline msgSeq lastHdgCdeg events, r.Defined := by
  induction events with
  | nil => exact fun _ _ => List.forall_mem_nil _
  | cons e events ih =>
    intro msgSeq lastHdgCdeg
    rw [body, List.forall_mem_append]
    exact ⟨defined_recs timeline msgSeq lastHdgCdeg e, ih _ _⟩

theorem defined_log (timeline : Timeline) (assetId : String) :
    ∀ r ∈ log timeline assetId, r.Defined := by
  unfold log
  split
  · exact List.forall_mem_nil _
  · rw [List.forall_mem_append]
    exact ⟨defined_header _ _, defined_body timeline _ _ _⟩

/-- An event whose records can be read: one without records, or one whose time is not too large,
and a text that is cut between its characters. -/
def Readable (e : Event) : Prop :=
  match e.kind with
  | .globalPositionInt _ _ _ _ | .reboot _ => True
  | .handsetRow _ _ _ _ _ _ _ _ | .blackboxRow _ _ _ _ _ _ _ _ _ _ | .videoPresence _ => True
  | .statusText _ text => e.tBootUs.toNat < 2 ^ 63 ∧ Value.Readable (.str text 64)
  | _ => e.tBootUs.toNat < 2 ^ 63

instance : DecidablePred Readable := fun e => by
  unfold Readable
  split <;> infer_instance

theorem readable_header (tUs : UInt64) (family : Family) :
    (∀ r ∈ header tUs ((vehicleFor family).getD ""), r.Readable) ↔ tUs.toNat < 2 ^ 63 := by
  have hname : ∀ p ∈ parms, Value.Readable (.str p.1 16) := by decide +kernel
  have hversion : Value.Readable
      (.str ((vehicleFor family).getD "" ++ " V4.5.0 (synthetic)") 64) := by
    cases family <;> decide +kernel
  have horigin : Value.Readable
      (.str "Musubi pre-demo synthetic dataflash (public format spec)" 64) := by
    decide +kernel
  have hparm (p : String × F32) (hp : p ∈ parms) :
      (parmRec tUs p.1 p.2).Readable ↔ tUs.toNat < 2 ^ 63 := by
    have htext := hname p hp
    simp only [Rec.Readable, parmRec, List.forall_mem_cons, htext]
    simp [Value.Readable]
  have harm : (armRec tUs).Readable ↔ tUs.toNat < 2 ^ 63 := by
    simp [Rec.Readable, Value.Readable, armRec]
  have hmsg {seq : UInt8} {text : String} (htext : Value.Readable (.str text 64)) :
      (msgRec tUs seq text).Readable ↔ tUs.toNat < 2 ^ 63 := by
    simp only [Rec.Readable, msgRec, List.forall_mem_cons, htext]
    simp [Value.Readable]
  rw [header, List.forall_mem_append]
  constructor
  · rintro ⟨-, h⟩
    exact harm.mp (h _ (List.mem_cons_of_mem _ (List.mem_cons_of_mem _ List.mem_cons_self)))
  · intro h
    refine ⟨fun r hr => ?_, List.forall_mem_cons.mpr ⟨(hmsg hversion).mpr h,
      List.forall_mem_cons.mpr ⟨(hmsg horigin).mpr h, List.forall_mem_singleton.mpr
        (harm.mpr h)⟩⟩⟩
    obtain ⟨p, hp, rfl⟩ := List.mem_map.mp hr
    exact (hparm p hp).mpr h

theorem readable_recs (timeline : Timeline) (msgSeq : UInt8) (lastHdgCdeg : UInt16) (e : Event) :
    (∀ r ∈ recs timeline msgSeq lastHdgCdeg e, r.Readable) ↔ Readable e := by
  unfold recs Readable
  cases e.kind with
  | globalPositionInt | reboot | handsetRow | blackboxRow | videoPresence =>
    exact iff_of_true (List.forall_mem_nil _) trivial
  | statusText severity text => simp [Rec.Readable, Value.Readable, msgRec]
  | heartbeat => simp [Rec.Readable, Value.Readable, attRec]
  | sysStatus => simp [Rec.Readable, Value.Readable, batRec, powrRec]
  | gpsRawInt => simp [Rec.Readable, Value.Readable, gpsRec, gpaRec, ubx1Rec]
  | radioStatus => simp [Rec.Readable, Value.Readable, radRec]
  | rcIn => simp [Rec.Readable, Value.Readable, rcinRec, rssiRec]
  | ekfStatus => simp [Rec.Readable, Value.Readable, xkf4Rec]
  | modeChange => simp [Rec.Readable, Value.Readable, modeRec]
  | err => simp [Rec.Readable, Value.Readable, errRec]

theorem readable_body (timeline : Timeline) (events : List Event) : ∀ msgSeq lastHdgCdeg,
    (∀ r ∈ body timeline msgSeq lastHdgCdeg events, r.Readable) ↔ ∀ e ∈ events, Readable e := by
  induction events with
  | nil => exact fun _ _ => iff_of_true (List.forall_mem_nil _) (List.forall_mem_nil _)
  | cons e events ih =>
    intro msgSeq lastHdgCdeg
    rw [body, List.forall_mem_append, readable_recs, ih, List.forall_mem_cons]

/-- A log is readable when the time of its first event and the events of the first boot are. -/
theorem readable_log (timeline : Timeline) (assetId : String) :
    (∀ r ∈ log timeline assetId, r.Readable) ↔
      (∀ first ∈ (eventsFor timeline assetId .fc).head?, first.tBootUs.toNat < 2 ^ 63) ∧
        ∀ e ∈ firstBoot (eventsFor timeline assetId .fc), Readable e := by
  unfold log
  cases eventsFor timeline assetId .fc with
  | nil =>
    exact iff_of_true (List.forall_mem_nil _)
      ⟨fun first h => absurd h (by simp), List.forall_mem_nil _⟩
  | cons first more =>
    dsimp only
    rw [List.forall_mem_append, readable_header, readable_body]
    simp

/-! ## 8. The time of a fix -/

/-- Milliseconds of GPS time, of a wall time in microseconds. -/
def gpsMs (wallUs : ℤ) : ℤ := wallUs.tdiv 1000 - 315964800 * 1000 + 18 * 1000

/-- A wall time that has its own week number and does not count as none: behind the beginning of
the first week, and within the weeks that 16 bits count. -/
def Dateable (wallUs : ℤ) : Prop := 0 < gpsMs wallUs ∧ gpsMs wallUs < 65536 * (7 * 86400 * 1000)

instance (wallUs : ℤ) : Decidable (Dateable wallUs) := inferInstanceAs (Decidable (_ ∧ _))

theorem toNat_gpsWeekMs {wallUs : ℤ} (h : Dateable wallUs) :
    ((gpsWeekMs wallUs).1.toNat : ℤ) = gpsMs wallUs / (7 * 86400 * 1000) ∧
      ((gpsWeekMs wallUs).2.toNat : ℤ) = gpsMs wallUs % (7 * 86400 * 1000) := by
  obtain ⟨hpos, hlt⟩ := h
  constructor
  · change ((UInt16.ofInt (gpsMs wallUs / (7 * 86400 * 1000))).toNat : ℤ) = _
    rw [UInt16.ofInt, UInt16.toNat_ofNat']
    omega
  · change ((UInt32.ofInt (gpsMs wallUs % (7 * 86400 * 1000))).toNat : ℤ) = _
    rw [UInt32.ofInt, UInt32.toNat_ofNat']
    omega

theorem gpsWeekMs_ne_zero {wallUs : ℤ} (h : Dateable wallUs) : gpsWeekMs wallUs ≠ (0, 0) := by
  intro hzero
  obtain ⟨hweek, hms⟩ := toNat_gpsWeekMs h
  obtain ⟨hpos, -⟩ := h
  rw [hzero] at hweek hms
  simp only [UInt16.toNat_zero, UInt32.toNat_zero, Nat.cast_zero] at hweek hms
  omega

/-- **Week and millisecond give a wall time back**, to the millisecond.  The week is written with
16 bits, and a zero in both means that there is no time; `Dateable` keeps a time away from both.
-/
theorem gpsToUnixUs_gpsWeekMs {wallUs : ℤ} (h : Dateable wallUs) :
    Reference.Bin.gpsToUnixUs (gpsWeekMs wallUs).1 (gpsWeekMs wallUs).2 =
      .ok (wallUs.tdiv 1000 * 1000) := by
  obtain ⟨hweek, hms⟩ := toNat_gpsWeekMs h
  rw [Reference.Bin.gpsToUnixUs_eq, hweek, hms]
  unfold gpsMs
  congr 1
  omega

/-- The wall time of a fix, to the millisecond. -/
def fixTime (timeline : Timeline) (e : Event) : Option Int64 :=
  match e.kind with
  | .gpsRawInt fixType _ _ _ _ _ _ timeValid =>
    if 3 ≤ fixType.toNat ∧ timeValid then some (.ofInt ((timeline.wallUs e).tdiv 1000 * 1000))
    else none
  | _ => none

theorem anchor_of_ne {r : Rec} (h : r.msgDef.name ≠ "GPS") : r.anchor = none := by
  rw [Rec.anchor, Reference.Bin.gpsAnchor, if_neg h]
  rfl

theorem labelList_gps : defGps.labelList =
    ["TimeUS", "I", "Status", "GMS", "GWk", "NSats", "HDop", "Lat", "Lng", "Alt", "Spd", "GCrs",
      "VZ", "Yaw", "U"] := by decide +kernel

theorem anchor_gpsRec (t : UInt64) (week : UInt16 × UInt32) (fixType satellites : UInt8)
    (ephCm : UInt16) (latE7 lonE7 altMm : Int32) :
    .ok (gpsRec t week fixType satellites ephCm latE7 lonE7 altMm).anchor =
      if 3 ≤ fixType.toNat ∧ week ≠ (0, 0) then
        (Reference.Bin.gpsToUnixUs week.1 week.2).map fun us => some (.ofInt us)
      else .ok none := by
  let r := gpsRec t week fixType satellites ephCm latE7 lonE7 altMm
  have hnodup : (r.fields.map Prod.fst).Nodup :=
    nodup_fields matched_gps (sound_defs defGps (List.mem_of_getElem? (i := 7) rfl)).1
  have hinteger (i : ℕ) {name label : String} {v : Int64}
      (hlabel : defGps.labelList[i]? = some label) (hname : "GPS" ++ "." ++ label = name)
      (hv : (r.values[i]?).map Value.reading = some (.i64 v)) :
      integer r.fields name = some v := by
    refine integer_eq_some hnodup (List.mem_of_getElem? (i := i) ?_)
    obtain ⟨value, hvalue, hreading⟩ := Option.map_eq_some_iff.mp hv
    have hzip : (defGps.labelList.zip r.values)[i]? = some (label, value) :=
      List.getElem?_zip_eq_some.mpr ⟨hlabel, hvalue⟩
    have hfields : r.fields = keyed "GPS" defGps.labelList r.values := rfl
    rw [hfields, keyed, List.getElem?_map, hzip, ← hname, ← hreading]
    rfl
  have hstatus : integer r.fields "GPS.Status" = some (.ofNat fixType.toNat) :=
    hinteger 2 (by rw [labelList_gps]; rfl) (by decide +kernel) rfl
  have hgms : integer r.fields "GPS.GMS" = some (.ofNat week.2.toNat) :=
    hinteger 3 (by rw [labelList_gps]; rfl) (by decide +kernel) rfl
  have hgwk : integer r.fields "GPS.GWk" = some (.ofNat week.1.toNat) :=
    hinteger 4 (by rw [labelList_gps]; rfl) (by decide +kernel) rfl
  have hanchor : Reference.Bin.gpsAnchor "GPS" r.fields = .ok r.anchor := gpsAnchor_eq r
  rw [← hanchor]
  unfold Reference.Bin.gpsAnchor
  rw [if_pos rfl]
  simp only [hstatus, hgms, hgwk]
  have htoInt {n : ℕ} (hn : n < 2 ^ 63) : (Int64.ofNat n).toInt = n := Int64.toInt_ofNat_of_lt hn
  have hfix := fixType.toNat_lt
  have hw := week.1.toNat_lt
  have hm := week.2.toNat_lt
  have hgwk16 : (Int64.ofNat week.1.toNat).toUInt64.toUInt16 = week.1 := by
    apply UInt16.toBitVec_inj.mp
    simp
  have hgms32 : (Int64.ofNat week.2.toNat).toUInt64.toUInt32 = week.2 := by
    apply UInt32.toBitVec_inj.mp
    simp
  rw [hgwk16, hgms32]
  refine if_congr ?_ ?_ rfl
  · have hzero (n : ℕ) (hn : n < 2 ^ 63) : 0 < Int64.ofNat n ↔ 0 < n := by
      rw [Int64.lt_iff_toInt_lt, htoInt hn]
      exact Int.natCast_pos
    have hthree : 3 ≤ Int64.ofNat fixType.toNat ↔ 3 ≤ fixType.toNat := by
      rw [Int64.le_iff_toInt_le, htoInt (by omega)]
      exact Int.ofNat_le (m := 3)
    rw [hthree, hzero _ (by omega), hzero _ (by omega)]
    refine and_congr_right fun _ => ?_
    rw [ne_eq, Prod.ext_iff, not_and_or, ← UInt16.toNat_inj, ← UInt32.toNat_inj]
    exact or_congr Nat.pos_iff_ne_zero Nat.pos_iff_ne_zero
  · rw [Reference.Bin.gpsToUnixUs_eq]
    rfl

/-- **Of the records of an event, only a fix with its time has an anchor.** -/
theorem anchors_recs {timeline : Timeline} {e : Event}
    (hdate : fixTime timeline e ≠ none → Dateable (timeline.wallUs e)) (msgSeq : UInt8)
    (lastHdgCdeg : UInt16) :
    (recs timeline msgSeq lastHdgCdeg e).filterMap (fun r => r.anchor.map (r.timeUs, ·)) =
      ((fixTime timeline e).map (e.tBootUs, ·)).toList := by
  have hnone {r : Rec} (h : r.msgDef.name ≠ "GPS") (rs : List Rec) :
      (r :: rs).filterMap (fun r => r.anchor.map (r.timeUs, ·)) =
        rs.filterMap (fun r => r.anchor.map (r.timeUs, ·)) :=
    List.filterMap_cons_none (by rw [anchor_of_ne h]; rfl)
  revert hdate
  unfold recs fixTime
  cases e.kind with
  | gpsRawInt fixType satellites ephCm latE7 lonE7 altMm jamInd timeValid =>
    intro hdate
    dsimp only at hdate ⊢
    have hanchor := anchor_gpsRec e.tBootUs
      (if timeValid then gpsWeekMs (timeline.wallUs e) else (0, 0)) fixType satellites ephCm latE7
      lonE7 altMm
    have hrest (t : UInt64) : [gpaRec t ephCm altMm, ubx1Rec t jamInd].filterMap
        (fun r => r.anchor.map (r.timeUs, ·)) = [] :=
      (hnone (by decide : "GPA" ≠ "GPS") _).trans (hnone (by decide : "UBX1" ≠ "GPS") _)
    by_cases hfix : 3 ≤ fixType.toNat ∧ timeValid
    · rw [if_pos hfix] at hdate ⊢
      have hdate := hdate (Option.some_ne_none _)
      rw [if_pos hfix.2, if_pos ⟨hfix.1, gpsWeekMs_ne_zero hdate⟩,
        gpsToUnixUs_gpsWeekMs hdate] at hanchor
      have hanchor := Except.ok.inj hanchor
      rw [if_pos hfix.2, List.filterMap_cons_some (by rw [hanchor]; rfl), hrest]
      rfl
    · have hno : ¬ (3 ≤ fixType.toNat ∧
          (if timeValid then gpsWeekMs (timeline.wallUs e) else (0, 0)) ≠ (0, 0)) := by
        rintro ⟨hthree, hweek⟩
        have hvalid : ¬ timeValid := fun hvalid => hfix ⟨hthree, hvalid⟩
        exact hweek (if_neg hvalid)
      rw [if_neg hno] at hanchor
      have hanchor := Except.ok.inj hanchor
      rw [if_neg hfix, List.filterMap_cons_none (by rw [hanchor]; rfl), hrest]
      rfl
  | heartbeat => exact fun _ => hnone (by decide : "ATT" ≠ "GPS") _
  | sysStatus =>
    exact fun _ => (hnone (by decide : "BAT" ≠ "GPS") _).trans
      (hnone (by decide : "POWR" ≠ "GPS") _)
  | radioStatus => exact fun _ => hnone (by decide : "RAD" ≠ "GPS") _
  | statusText => exact fun _ => hnone (by decide : "MSG" ≠ "GPS") _
  | rcIn =>
    exact fun _ => (hnone (by decide : "RCIN" ≠ "GPS") _).trans
      (hnone (by decide : "RSSI" ≠ "GPS") _)
  | ekfStatus => exact fun _ => hnone (by decide : "XKF4" ≠ "GPS") _
  | modeChange => exact fun _ => hnone (by decide : "MODE" ≠ "GPS") _
  | err => exact fun _ => hnone (by decide : "ERR" ≠ "GPS") _
  | globalPositionInt | reboot | handsetRow | blackboxRow | videoPresence => exact fun _ => rfl

theorem anchors_body {timeline : Timeline} {events : List Event}
    (hdate : ∀ e ∈ events, fixTime timeline e ≠ none → Dateable (timeline.wallUs e)) :
    ∀ msgSeq lastHdgCdeg, (body timeline msgSeq lastHdgCdeg events).filterMap
        (fun r => r.anchor.map (r.timeUs, ·)) =
      events.filterMap fun e => (fixTime timeline e).map (e.tBootUs, ·) := by
  induction events with
  | nil => exact fun _ _ => rfl
  | cons e events ih =>
    intro msgSeq lastHdgCdeg
    obtain ⟨he, hmore⟩ := List.forall_mem_cons.mp hdate
    rw [body, List.filterMap_append, anchors_recs he, ih hmore, List.filterMap_cons]
    cases fixTime timeline e <;> rfl

/-- What the vehicle says of itself is no anchor, since it has no reading of the host's clock. -/
theorem anchors_header (tUs : UInt64) (vehicle : String) :
    (header tUs vehicle).filterMap (fun r => r.anchor.map (r.timeUs, ·)) = [] := by
  have hname : ∀ r ∈ header tUs vehicle, r.msgDef.name ≠ "GPS" := by
    rw [header, List.forall_mem_append]
    refine ⟨fun r hr => ?_, ?_⟩
    · obtain ⟨p, -, rfl⟩ := List.mem_map.mp hr
      exact (by decide : "PARM" ≠ "GPS")
    · exact List.forall_mem_cons.mpr ⟨(by decide : "MSG" ≠ "GPS"),
        List.forall_mem_cons.mpr ⟨(by decide : "MSG" ≠ "GPS"),
          List.forall_mem_singleton.mpr (by decide : "ARM" ≠ "GPS")⟩⟩
  refine List.filterMap_eq_nil_iff.mpr fun r hr => ?_
  rw [anchor_of_ne (hname r hr)]
  rfl

/-- **The anchors of a log, before it is written.** -/
theorem anchors_log {timeline : Timeline} {assetId : String}
    (hdate : ∀ e ∈ firstBoot (eventsFor timeline assetId .fc),
      fixTime timeline e ≠ none → Dateable (timeline.wallUs e)) :
    (log timeline assetId).filterMap (fun r => r.anchor.map (r.timeUs, ·)) =
      (firstBoot (eventsFor timeline assetId .fc)).filterMap fun e =>
        (fixTime timeline e).map (e.tBootUs, ·) := by
  unfold log
  revert hdate
  cases eventsFor timeline assetId .fc with
  | nil => exact fun _ => rfl
  | cons first more =>
    intro hdate
    dsimp only
    rw [List.filterMap_append, anchors_header, anchors_body hdate, List.nil_append]

section Log

variable (sha256 : List UInt8 → Digest) {profile : FamilyProfile} {timeline : Timeline}
  {assetId : String} {input : Slice}

theorem readReport_log (hprofile : profile.format = "ardupilot_dataflash_bin")
    (hrender : render timeline assetId = .ok input.bytes) {report : ReadReport} :
    Reference.Bin.readReport sha256 profile input = .ok report ↔
      (∀ r ∈ log timeline assetId, r.Readable) ∧ report =
        ⟨(log timeline assetId).map (Rec.observed sha256 profile), [],
          (log timeline assetId).length⟩ := by
  obtain ⟨-, -, hbytes⟩ := eq_of_render hrender
  exact readReport_iff sha256 profile hprofile (defined_log timeline assetId) hbytes

/-- A vehicle that logs its armed mode, a fix with its time, and then another boot. -/
def exampleTimeline : Timeline where
  t0UnixUs := 1788166800000000
  assets := [⟨"ugv-01", [.fc, .gcs], .arduPilotBin⟩]
  events := [
    ⟨1000, 38000000, 0, "ugv-01", .ugv, .fc, .gpsEkf,
      .gpsRawInt 3 12 90 350000000 1390000000 10000 0 true⟩,
    ⟨0, 37000000, 0, "ugv-01", .ugv, .fc, .event, .statusText 6 "Arming motors"⟩,
    ⟨2000, 1000000, 1, "ugv-01", .ugv, .fc, .event, .modeChange 4 1⟩]

def exampleLog : Slice where
  bytes := (defs.map fmtRec).flatMap Rec.buf ++ (log exampleTimeline "ugv-01").flatMap Rec.buf
  length_lt := by decide +kernel

def exampleProfile : FamilyProfile where
  profileId := "ugv-fc"
  version := "1"
  family := .ugv
  sourceRole := .fc
  format := "ardupilot_dataflash_bin"
  extensions := ["bin"]
  fields := ⟨"TimeUS", [], [], [], [], []⟩
  fieldUnits := .empty
  channels := []
  expectations := []
  defaultClockBasis := .bootRelative
  declaredPlatformDomain := none
  declaredSender := none
  declaredClockRate := none
  origin := "ugv-fc.toml"

theorem render_example : render exampleTimeline "ugv-01" = .ok exampleLog.bytes := by
  decide +kernel

theorem read_example : ∃ report,
    Reference.Bin.readReport (fun _ => .replicate 32 0) exampleProfile exampleLog = .ok report :=
  ⟨_, (readReport_log _ rfl render_example).mpr ⟨by decide +kernel, rfl⟩⟩

/-- **Round trip of a DataFlash log.** The reader takes what the writer has written exactly when
the time of the first event and the events of the first boot are readable.  Then there is one
observation for each record, in their order, with its labels and its values, and nothing else.
`hrender` says that the input is what the writer wrote of an arbitrary timeline; the format of the
profile is what the reader looks at before anything else. -/
theorem bin_read_back (hprofile : profile.format = "ardupilot_dataflash_bin")
    (hrender : render timeline assetId = .ok input.bytes) :
    ((∃ report, Reference.Bin.readReport sha256 profile input = .ok report) ↔
      (∀ first ∈ (eventsFor timeline assetId .fc).head?, first.tBootUs.toNat < 2 ^ 63) ∧
        ∀ e ∈ firstBoot (eventsFor timeline assetId .fc), Readable e) ∧
    ∀ report, Reference.Bin.readReport sha256 profile input = .ok report →
      report.observations = (log timeline assetId).map (Rec.observed sha256 profile) ∧
      report.untimedRecords = [] ∧ report.dataRecords = (log timeline assetId).length := by
  simp only [readReport_log sha256 hprofile hrender]
  rw [← readable_log]
  constructor
  · exact ⟨fun ⟨report, h⟩ => h.1, fun h => ⟨_, h, rfl⟩⟩
  · rintro report ⟨-, rfl⟩
    exact ⟨rfl, rfl, rfl⟩

theorem exampleTimeline_bin : ∃ report,
    Reference.Bin.readReport (fun _ => .replicate 32 0) exampleProfile exampleLog = .ok report ∧
      report.observations = (log exampleTimeline "ugv-01").map
        (Rec.observed (fun _ => .replicate 32 0) exampleProfile) ∧
      report.untimedRecords = [] ∧ report.dataRecords = (log exampleTimeline "ugv-01").length := by
  have hprofile : exampleProfile.format = "ardupilot_dataflash_bin" := rfl
  obtain ⟨hread, hreport⟩ := bin_read_back (fun _ => .replicate 32 0) hprofile render_example
  obtain ⟨report, h⟩ := hread.mpr (by decide +kernel)
  exact ⟨report, h, hreport report h⟩

/-- **The anchors of a written log are its fixes**: the reader finds the time of exactly those fixes
of the first boot that have one, each at its time since boot and to the millisecond.  A fix before
the GPS epoch, or behind the last week that a `u16` counts, comes back as another time, so `hdate`
is asked of every fix. -/
theorem anchors_read_back (hrender : render timeline assetId = .ok input.bytes)
    (hdate : ∀ e ∈ firstBoot (eventsFor timeline assetId .fc),
      fixTime timeline e ≠ none → Dateable (timeline.wallUs e))
    {report : ReadReport} (hread : Reference.Bin.readReport sha256 profile input = .ok report) :
    report.observations.filterMap (fun o => o.anchorUnixUs.map (o.tBootUs, ·)) =
      (firstBoot (eventsFor timeline assetId .fc)).filterMap fun e =>
        (fixTime timeline e).map (some e.tBootUs, ·) := by
  have hprofile := (Reference.Bin.readReportImpl_eq_ok.mp hread).1
  obtain ⟨-, rfl⟩ := (readReport_log sha256 hprofile hrender).mp hread
  -- The reader gives every boot time as one that is there.
  have hsome := congrArg (List.map fun p : UInt64 × Int64 => (some p.1, p.2)) (anchors_log hdate)
  rw [List.map_filterMap, List.map_filterMap] at hsome
  rw [List.filterMap_map]
  simp only [Option.map_map] at hsome
  exact hsome

theorem exampleTimeline_anchors : ∃ report,
    Reference.Bin.readReport (fun _ => .replicate 32 0) exampleProfile exampleLog = .ok report ∧
      report.observations.filterMap (fun o => o.anchorUnixUs.map (o.tBootUs, ·)) =
        [(some 38000000, 1788166801000000)] := by
  obtain ⟨report, h⟩ := read_example
  have hanchors := anchors_read_back _ render_example (by decide +kernel) h
  exact ⟨report, h, hanchors.trans (by decide +kernel)⟩

end Log

end Musubi.Writers.Bin
