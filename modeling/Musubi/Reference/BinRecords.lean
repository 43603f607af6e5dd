/-
# The records of a DataFlash log

How long a record is stands in the format of its type, which an earlier record gave and a later
one may give anew.  A format in the table always adds up to its length, so a record that is there
in full is decoded without a read beyond it (`safe_readRecord`), and a binding of units goes with
the format of its type because a new format takes it away (`Bound`).  A reading therefore returns
exactly the records of a run through the whole log (`readReportImpl_eq_ok`), and since a record is
read from its own bytes, the log that is cut behind one of them is read as far as that.

The state of the reader is what makes this log hard: whether a byte string is a record depends on
the formats before it.  `Lib.Scan` keeps the state in the list of what was scanned, so that each
record can be spoken of with the tables that were current at its place (`Scanned.before`), and
everything that holds of the initial tables and is kept by a record holds at all of them.

What a record leaves among the fields of an observation is said value by value: under its label,
or, for an array, under labels with indices, with the units next to it where there are some
(`Holds`, `Decoded`).
-/
import Musubi.Reference.Bin

namespace Musubi.Reference.Bin

open Lib Lib.Checked Musubi.Core

/-! ## 1. Values -/

section Values

variable {off n : ℕ} {c : UInt8} {key : String} {b : List UInt8}

theorem safe_decodeValue (hc : charLen c = some n) (hb : n ≤ b.length) :
    Safe (decodeValue c b) fun v => letter c = 'Q' → ∃ i, v = .i64 i := by
  unfold charLen at hc
  unfold decodeValue
  generalize letter c = l at hc
  split at hc <;> cases hc <;>
    first
    | exact (safe_word hb).bind fun v _ => safe_pure fun _ => ⟨_, rfl⟩
    | exact (safe_word hb).bind fun v _ => safe_pure fun hQ => absurd hQ (by decide)
    | exact safe_pure fun hQ => absurd hQ (by decide)

/-- What the values of a letter leave among the fields: one under their key, unless they are an
array. -/
def Holds (c : UInt8) (key : String) (fields : Fields) : Prop :=
  letter c ≠ 'a' → ∃ v, (key, v) ∈ fields ∧ (letter c = 'Q' → ∃ i, v = .i64 i)

theorem Holds.mono {fields more : Fields} (h : Holds c key fields) (hsub : fields ⊆ more) :
    Holds c key more := by
  intro ha
  obtain ⟨v, hv, hQ⟩ := h ha
  exact ⟨v, hsub hv, hQ⟩

theorem safe_checkValue (hc : charLen c = some n) (hb : b.length = n) :
    Safe (checkValue off c b) fun _ => True := by
  unfold checkValue
  split
  · next hQ =>
    have hn : 8 = n := by
      rw [charLen, hQ] at hc
      exact Option.some.inj hc
    refine (safe_word (by omega)).bind fun v _ => ?_
    exact Safe.guard fun _ => safe_pure trivial
  · exact Safe.guard fun _ => safe_pure trivial

theorem safe_valueFields (hc : charLen c = some n) (hb : b.length = n) :
    Safe (valueFields off c key b) fun added => added ≠ [] ∧ Holds c key added := by
  unfold valueFields
  split
  · next ha =>
    have hn : 64 = n := by
      rw [charLen, ha] at hc
      exact Option.some.inj hc
    refine safe_pure ⟨?_, fun hne => absurd ha hne⟩
    rw [arrayFields, hb, ← hn]
    simp
  · refine (safe_checkValue hc hb).bind fun _ _ => ?_
    refine (safe_decodeValue hc (Nat.le_of_eq hb.symm)).bind fun v hv => ?_
    exact safe_pure ⟨List.cons_ne_nil _ _, fun _ => ⟨v, List.mem_singleton_self _, hv⟩⟩

end Values

/-! ## 2. Fields -/

section Decoding

variable {off : ℕ} {f : Fmt} {payload : List UInt8}

theorem declaredLen_eq_some {format : List UInt8} : ∀ {d : ℕ}, declaredLen format = some d →
    (format.map fun c => (charLen c).getD 0).sum = d ∧
      ∀ c ∈ format, (charLen c).isSome = true := by
  induction format with
  | nil =>
    intro d h
    cases h
    exact ⟨rfl, fun c hc => by cases hc⟩
  | cons c format ih =>
    intro d h
    rw [declaredLen, List.mapM_cons] at h
    cases hc : charLen c with
    | none => simp [hc] at h
    | some n =>
      cases hrest : format.mapM charLen with
      | none => simp [hc, hrest] at h
      | some lens =>
        obtain ⟨hsum, hall⟩ := ih (d := lens.sum) (by rw [declaredLen, hrest, Option.map_some])
        simp only [hc, hrest, Option.bind_eq_bind, Option.bind_some, Option.pure_def,
          Option.map_some, Option.some.injEq, List.sum_cons] at h
        refine ⟨by simp [hc, hsum, ← h], ?_⟩
        rw [List.forall_mem_cons]
        exact ⟨by rw [hc]; rfl, hall⟩

/-- What the fields of a format take, with the head of the record. -/
theorem Fmt.len_eq (f : Fmt) : (f.format.map fun c => (charLen c).getD 0).sum + 3 = f.len ∧
    ∀ c ∈ f.format, (charLen c).isSome = true := by
  obtain ⟨d, hd, hlen⟩ := Option.map_eq_some_iff.mp f.declared
  obtain ⟨hsum, hall⟩ := declaredLen_eq_some hd
  exact ⟨by rw [hsum, hlen], hall⟩

/-- The fields of a record: at least one for each value, and each value under its label. -/
structure Decoded (f : Fmt) (fields : Fields) : Prop where
  length_le : f.format.length ≤ fields.length
  holds : ∀ (i : ℕ) (c : UInt8) (label : String), f.format[i]? = some c →
    f.labels[i]? = some label → Holds c (f.name ++ "." ++ label) fields

theorem safe_decodeFields (hpayload : payload.length + 3 = f.len) :
    Safe (decodeFields off f payload) (Decoded f) := by
  obtain ⟨hsum, hall⟩ := f.len_eq
  have htotal : (f.format.zipIdx.map fun x => (charLen x.1).getD 0).sum = payload.length := by
    have hfst : (f.format.zipIdx.map fun x => (charLen x.1).getD 0) =
        (f.format.zipIdx.map Prod.fst).map fun c => (charLen c).getD 0 := by
      rw [List.map_map]
      rfl
    rw [hfst, List.zipIdx_map_fst]
    omega
  refine Safe.bind (P := fun decoded => f.format.zipIdx.length ≤ decoded.1.length ∧
    ∀ x ∈ f.format.zipIdx, ∀ label, f.labels[x.2]? = some label →
      Holds x.1 (f.name ++ "." ++ label) decoded.1) ?_ fun decoded hdecoded => ?_
  · refine (safe_foldlM_done (I := fun done decoded =>
      decoded.2 = (done.map fun x => (charLen x.1).getD 0).sum ∧
        done.length ≤ decoded.1.length ∧
        ∀ x ∈ done, ∀ label, f.labels[x.2]? = some label →
          Holds x.1 (f.name ++ "." ++ label) decoded.1)
      ⟨rfl, Nat.zero_le _, fun x hx => by cases hx⟩ ?_).mono fun _ h => h.2
    rintro done ⟨c, i⟩ more ⟨fields, p⟩ hsplit ⟨hp, hlen, hdone⟩
    have hmem : (c, i) ∈ f.format.zipIdx := by
      rw [hsplit]
      exact List.mem_append_right _ List.mem_cons_self
    have hget : f.format[i]? = some c := List.mk_mem_zipIdx_iff_getElem?.mp hmem
    obtain ⟨n, hn⟩ := Option.isSome_iff_exists.mp (hall c (List.mem_of_getElem? hget))
    have hfits : p + n ≤ payload.length := by
      rw [← htotal, hsplit, List.map_append, List.sum_append, List.map_cons, List.sum_cons, hn,
        Option.getD_some]
      simp only at hp
      omega
    unfold decodeField
    simp only [hn, Option.getD_some]
    refine (safe_slice (Nat.le_add_right _ _) hfits).bind ?_
    rintro b ⟨-, hb⟩
    rw [Nat.add_sub_cancel_left] at hb
    refine (safe_valueFields hn hb).bind fun added hadded => safe_pure ⟨?_, ?_, ?_⟩
    · simp only at hp
      simp [hp, hn]
    · have hpos := List.length_pos_of_ne_nil hadded.1
      simp only at hlen ⊢
      rw [List.length_append, List.length_append, List.length_singleton]
      omega
    · intro x hx label hlabel
      rcases List.mem_append.mp hx with hx | hx
      · exact (hdone x hx label hlabel).mono (List.subset_append_left _ _)
      · obtain rfl := List.mem_singleton.mp hx
        have hadded := hadded.2.mono (List.subset_append_right fields added)
        rwa [List.getD_eq_getElem?_getD, hlabel, Option.getD_some] at hadded
  · refine safe_pure ⟨by simpa using hdecoded.1, fun i c label hc hlabel => ?_⟩
    exact hdecoded.2 (c, i) (List.mk_mem_zipIdx_iff_getElem?.mpr hc) label hlabel

end Decoding

/-! ## 3. Units -/

/-- Every binding has a unit and a multiplier for each field of the format of its type. -/
def Bound (fmts : UInt8 → Option Fmt) (units : ReportedUnits) : Prop :=
  ∀ ty unitIds multIds, units.bindings ty = some (unitIds, multIds) →
    ∃ f, fmts ty = some f ∧ unitIds.length = f.format.length ∧ multIds.length = f.format.length

section Units

variable {off : ℕ} {id : UInt8} {f : Fmt} {fmts : UInt8 → Option Fmt} {fields : Fields}
  {units : ReportedUnits}

theorem Bound.update (h : Bound fmts units) {ty : UInt8} {target : Fmt}
    (hty : fmts ty = some target) {unitIds multIds : List UInt8}
    (hunits : unitIds.length = target.format.length)
    (hmults : multIds.length = target.format.length) :
    Bound fmts { units with
      bindings := Function.update units.bindings ty (some (unitIds, multIds)) } := by
  intro t u m ht
  by_cases heq : t = ty
  · rw [heq] at ht ⊢
    simp only [Function.update_self, Option.some.injEq, Prod.mk.injEq] at ht
    exact ⟨target, hty, by rw [← ht.1, hunits], by rw [← ht.2, hmults]⟩
  · simp only [Function.update_of_ne heq] at ht
    exact h t u m ht

/-- A record about units has the fields that it is read for. -/
theorem safe_learn (h : Bound fmts units) (hthree : 3 ≤ fields.length)
    (hfour : f.name ≠ "UNIT" → f.name ≠ "MULT" → 4 ≤ fields.length) :
    Safe (units.learn f fmts fields off) (Bound fmts) := by
  unfold ReportedUnits.learn
  refine (safe_index (by omega)).bind ?_
  rintro ⟨-, target⟩ -
  simp only
  split
  · exact safe_fail _
  next target _ =>
  split
  · refine (safe_index (by omega)).bind ?_
    rintro ⟨-, label⟩ -
    simp only
    split
    · exact safe_pure h
    · exact safe_fail _
  next hunit =>
  split
  · refine (safe_index (by omega)).bind ?_
    rintro ⟨-, factor⟩ -
    exact safe_pure h
  next hmult =>
  have hfour := hfour hunit hmult
  refine (safe_index (by omega)).bind ?_
  rintro ⟨-, unitIds⟩ -
  refine (safe_index (by omega)).bind ?_
  rintro ⟨-, multIds⟩ -
  simp only
  split
  · next htarget =>
    refine Safe.guard fun hlens => ?_
    simp only [not_or, not_not] at hlens
    exact safe_pure (h.update htarget hlens.2.2.1 hlens.2.2.2)
  · exact safe_fail _

theorem safe_reportAt (h : Bound fmts units) (hid : fmts id = some f) (raw : FieldValue) {i : ℕ}
    (hi : i < f.format.length) : Safe (units.reportAt id raw i) fun _ => True := by
  unfold ReportedUnits.reportAt
  split
  · exact safe_pure trivial
  next unitIds multIds hbinding =>
  obtain ⟨g, hg, hunits, hmults⟩ := h id unitIds multIds hbinding
  obtain rfl := Option.some.inj (hid.symm.trans hg)
  refine (safe_index (by omega)).bind fun unitId _ => ?_
  refine (safe_index (by omega)).bind fun multId _ => ?_
  exact safe_pure trivial

theorem safe_reportField (h : Bound fmts units) (hid : fmts id = some f) {original : Fields}
    (horiginal : Decoded f original) (hsub : original ⊆ fields) {field : (String × UInt8) × ℕ}
    (hfield : field ∈ (f.labels.zip f.format).zipIdx) :
    Safe (units.reportField id f fields field) fun reported => original ⊆ reported := by
  obtain ⟨⟨label, format⟩, i⟩ := field
  obtain ⟨hlabel, hformat⟩ :=
    List.getElem?_zip_eq_some.mp (List.mk_mem_zipIdx_iff_getElem?.mp hfield)
  unfold ReportedUnits.reportField
  dsimp only
  split
  · exact safe_pure hsub
  next hscalar =>
  have ha : letter format ≠ 'a' := fun ha => hscalar (Or.inr (by rw [ha]; decide))
  obtain ⟨v, hv, -⟩ := horiginal.holds i format label hformat hlabel ha
  have hfind : (fields.find? fun entry => entry.1 = f.name ++ "." ++ label).isSome = true :=
    List.find?_isSome.mpr ⟨_, hsub hv, by simp⟩
  refine (safe_unwrap hfind).bind ?_
  rintro ⟨-, raw⟩ -
  have hi : i < f.format.length := (List.getElem?_eq_some_iff.mp hformat).1
  refine (safe_reportAt h hid raw hi).bind fun reported _ => ?_
  exact safe_pure fun entry hentry => List.mem_append_left _ (hsub hentry)

theorem safe_apply (h : Bound fmts units) (hid : fmts id = some f) (hfields : Decoded f fields) :
    Safe (units.apply id f fmts fields off) fun r => Bound fmts r.1 ∧ fields ⊆ r.2 := by
  unfold ReportedUnits.apply
  split
  · next format labels hmeta =>
    refine Safe.guard fun hlayout => ?_
    simp only [not_or, not_not] at hlayout
    have hlen := hfields.length_le
    rw [hlayout.1] at hlen
    have hlens : (f.name = "UNIT" ∨ f.name = "MULT") ∧ format.length = 3 ∨ format.length = 4 := by
      unfold metadata at hmeta
      split at hmeta
      · next hname =>
        cases hmeta
        exact Or.inl ⟨Or.inl hname, rfl⟩
      split at hmeta
      · next hname =>
        cases hmeta
        exact Or.inl ⟨Or.inr hname, rfl⟩
      split at hmeta
      · cases hmeta
        exact Or.inr rfl
      · cases hmeta
    refine (safe_learn h (by omega) fun hunit hmult => ?_).bind fun learned hlearned => ?_
    · rcases hlens with ⟨hname, -⟩ | hfour
      · exact absurd hname (not_or.mpr ⟨hunit, hmult⟩)
      · omega
    · exact safe_pure ⟨hlearned, List.Subset.refl fields⟩
  · refine (safe_foldlM _ (I := fun reported => fields ⊆ reported) (List.Subset.refl fields)
      fun current field hfield hsub => ?_).bind fun reported hreported => ?_
    · exact safe_reportField h hid hfields hsub hfield
    · exact safe_pure ⟨h, hreported⟩

end Units

/-! ## 4. One record -/

/-- The time of a fix is computed within an `i64`, and exactly. -/
theorem gpsToUnixUs_eq (gwk : UInt16) (gms : UInt32) : gpsToUnixUs gwk gms =
    .ok (((gwk.toNat : ℤ) * 7 * 86400 * 1000 + gms.toNat + 315964800 * 1000 - 18 * 1000)
      * 1000) := by
  have hgwk := gwk.toNat_lt
  have hgms := gms.toNat_lt
  unfold gpsToUnixUs
  rw [i64_eq (by unfold InI64; omega), ok_bind, i64_eq (by unfold InI64; omega), ok_bind,
    i64_eq (by unfold InI64; omega), ok_bind, i64_eq (by unfold InI64; omega), ok_bind,
    i64_eq (by unfold InI64; omega), ok_bind, i64_eq (by unfold InI64; omega), ok_bind,
    i64_eq (by unfold InI64; omega)]

theorem safe_gpsAnchor (name : String) (fields : Fields) :
    Safe (gpsAnchor name fields) fun _ => True := by
  unfold gpsAnchor
  split
  · split
    · split
      · rw [gpsToUnixUs_eq, ok_bind]
        exact safe_pure trivial
      · exact safe_pure trivial
    · exact safe_pure trivial
  · exact safe_pure trivial

/-- An entry for a record of these bytes: what is kept untimed is kept as it is. -/
def Entry.Data (off : ℕ) (bytes : List UInt8) : Entry → Prop
  | .format _ _ => False
  | .observed _ => True
  | .untimed u => u.offset = off ∧ u.bytes = bytes

section Records

variable {sha256 : List UInt8 → Digest} {profile : FamilyProfile} {reportedUnits : Bool}
  {s : LogState} {off : ℕ} {msgid : UInt8} {f : Fmt} {rest : List UInt8}

theorem safe_reportUnits {fields : Fields} (h : Bound s.fmts s.units) (hid : s.fmts msgid = some f)
    (hfields : Decoded f fields) :
    Safe (s.reportUnits reportedUnits off msgid f fields) fun r =>
      Bound s.fmts r.1 ∧ fields ⊆ r.2 := by
  unfold LogState.reportUnits
  split
  · exact safe_apply h hid hfields
  · exact safe_pure ⟨h, List.Subset.refl fields⟩

theorem safe_readData (h : Bound s.fmts s.units) (hid : s.fmts msgid = some f)
    (hlen : f.len ≤ rest.length) :
    Safe (readData sha256 profile reportedUnits s off msgid f rest)
      fun r : Entry × ReportedUnits => r.1.Data off (rest.take f.len) ∧ Bound s.fmts r.2 := by
  have hthree := f.len_eq.1
  unfold readData
  refine (safe_slice (by omega) hlen).bind ?_
  rintro payload ⟨-, hpayload⟩
  refine (safe_decodeFields (by omega)).bind fun decoded hdecoded => ?_
  refine (safe_reportUnits h hid hdecoded).bind ?_
  rintro ⟨units, fields⟩ ⟨hunits, hsub⟩
  dsimp only at hunits hsub ⊢
  refine Safe.guard fun hnodup => ?_
  rw [not_not] at hnodup
  split
  · refine (safe_slice (Nat.zero_le _) hlen).bind ?_
    rintro bytes ⟨hbytes, -⟩
    exact safe_pure ⟨⟨rfl, by rw [hbytes, List.drop_zero, Nat.sub_zero]⟩, hunits⟩
  next timeIndex htime =>
  obtain ⟨htimeLt, hlabel, -⟩ := List.findIdx?_eq_some_iff_getElem.mp htime
  refine (safe_index (by rw [← f.labelled]; exact htimeLt)).bind fun c hc => ?_
  refine Safe.guard fun hQ => ?_
  rw [not_not] at hQ
  -- the label stands for one field, which is the integer that was decoded
  have hlabel : f.labels[timeIndex]? = some "TimeUS" := by
    rw [List.getElem?_eq_getElem htimeLt, of_decide_eq_true hlabel]
  obtain ⟨v, hv, hinteger⟩ := hdecoded.holds timeIndex c "TimeUS" hc hlabel (by rw [hQ]; decide)
  obtain ⟨timeUs, rfl⟩ := hinteger hQ
  have hkey : f.name ++ "." ++ "TimeUS" = f.name ++ ".TimeUS" := by
    rw [String.append_assoc]
    rfl
  rw [hkey] at hv
  rw [integer_eq_some hnodup (hsub hv)]
  refine (safe_unwrap rfl).bind fun timeUs _ => ?_
  refine Safe.bind (P := fun _ => True) ?_ fun o _ => safe_pure ⟨trivial, hunits⟩
  exact (safe_gpsAnchor f.name fields).bind fun _ _ => safe_pure trivial

theorem safe_readFmt (hlen : fmtLen ≤ rest.length) :
    Safe (readFmt off rest) fun _ => True := by
  unfold fmtLen at hlen
  unfold readFmt
  refine (safe_index (by omega)).bind fun ty _ => ?_
  refine (safe_index (by omega)).bind fun lenByte _ => ?_
  refine (safe_slice (by omega) (by omega)).bind fun nameBytes _ => ?_
  refine (safe_slice (by omega) (by omega)).bind fun formatBytes _ => ?_
  refine (safe_slice (by omega) (by omega)).bind fun labelBytes _ => ?_
  dsimp only
  split
  · exact safe_fail _
  split
  · exact safe_pure trivial
  · exact safe_fail _

theorem Bound.declare (h : Bound s.fmts s.units) (ty : UInt8) (f : Fmt) :
    Bound (s.declare ty f).fmts (s.declare ty f).units := by
  intro t unitIds multIds ht
  unfold LogState.declare at ht ⊢
  dsimp only at ht ⊢
  by_cases heq : t = ty
  · rw [heq, Function.update_self] at ht
    cases ht
  · rw [Function.update_of_ne heq] at ht ⊢
    exact h t unitIds multIds ht

/-- What a record is: a format of 89 bytes, or data of the length that the format of its type
declares. -/
def Sized (s : LogState) (off : ℕ) (rest : List UInt8) (entry : Entry) (n : ℕ) : Prop :=
  (∃ ty f, entry = .format ty f ∧ n = fmtLen) ∨
    ∃ msgid f, rest[2]? = some msgid ∧ s.fmts msgid = some f ∧ n = f.len ∧
      entry.Data off (rest.take n)

/-- **A record is read safely** when the bindings go with the formats, and they still do behind
it.  `Sized` says how long it is: a format of 89 bytes, or as long as its format declares. -/
theorem safe_readRecord (h : Bound s.fmts s.units) :
    Safe (readRecord sha256 profile reportedUnits s rest off) fun r =>
      0 < r.2.1 ∧ r.2.1 ≤ rest.length ∧ Bound r.2.2.fmts r.2.2.units ∧
        Sized s off rest r.1 r.2.1 := by
  unfold readRecord
  refine Safe.guard fun hlong => ?_
  refine (safe_slice (by omega) (by omega)).bind fun first _ => ?_
  split
  · refine (safe_index (by omega)).bind fun a _ => ?_
    refine (safe_index (by omega)).bind fun b _ => ?_
    exact safe_fail _
  refine (safe_index (by omega)).bind fun msgid hmsgid => ?_
  split
  · refine Safe.guard fun hlen => ?_
    rw [not_lt] at hlen
    refine (safe_readFmt hlen).bind ?_
    rintro ⟨ty, f⟩ -
    exact safe_pure ⟨Nat.succ_pos _, hlen, h.declare ty f, Or.inl ⟨ty, f, rfl, rfl⟩⟩
  split
  · exact safe_fail _
  next f hf =>
  refine Safe.guard fun hlen => ?_
  rw [not_lt] at hlen
  refine (safe_readData h hf hlen).bind ?_
  rintro ⟨entry, units⟩ ⟨hdata, hunits⟩
  have hthree := f.len_eq.1
  exact safe_pure ⟨by dsimp only; omega, hlen, hunits, Or.inr ⟨msgid, f, hmsgid, hf, rfl, hdata⟩⟩

theorem keeps_records :
    (records sha256 profile reportedUnits).Keeps fun s => Bound s.fmts s.units :=
  fun _ _ _ h _ => (safe_readRecord h).mono fun _ hr => ⟨hr.1, hr.2.1, hr.2.2.1⟩

/-- When a record is read: its head is there, and it is a format record, which declares a type, or
a data record of a declared type that is long enough and decodes.  Everything else about the
reading of a log is said through this condition. -/
theorem readRecord_eq_ok {entry : Entry} {n : ℕ} {s' : LogState} :
    readRecord sha256 profile reportedUnits s rest off = .ok (entry, n, s') ↔
      3 ≤ rest.length ∧ rest.take 2 = headBytes ∧
        ((rest[2]? = some fmtMsgid ∧ fmtLen ≤ rest.length ∧
          ∃ ty f, readFmt off rest = .ok (ty, f) ∧ entry = .format ty f ∧ n = fmtLen ∧
            s' = s.declare ty f) ∨
        ∃ msgid f units, rest[2]? = some msgid ∧ msgid ≠ fmtMsgid ∧ s.fmts msgid = some f ∧
          f.len ≤ rest.length ∧ n = f.len ∧ s' = { s with units } ∧
          readData sha256 profile reportedUnits s off msgid f rest = .ok (entry, units)) := by
  unfold readRecord
  by_cases hlong : rest.length < 3
  · rw [if_pos hlong]
    exact iff_of_false (fun h => by cases h) fun h => absurd h.1 (by omega)
  have htwo : 2 < rest.length := by omega
  have hget : rest[2]? = some rest[2] := List.getElem?_eq_getElem htwo
  rw [if_neg hlong, slice_eq (by omega) (by omega), ok_bind, List.drop_zero, Nat.sub_zero]
  by_cases hhead : rest.take 2 = headBytes
  · rw [if_neg (not_not.mpr hhead), index_eq htwo, ok_bind, hget]
    constructor
    · intro h
      refine ⟨by omega, hhead, ?_⟩
      split at h
      · next hfmt =>
        split at h
        · cases h
        next hlen =>
        obtain ⟨⟨ty, f⟩, hread, h⟩ := bind_eq_ok.mp h
        cases h
        exact Or.inl ⟨congrArg some hfmt, by omega, ty, f, hread, rfl, rfl, rfl⟩
      next hdata =>
      split at h
      · cases h
      next f hf =>
      split at h
      · cases h
      next hlen =>
      obtain ⟨⟨entry, units⟩, hread, h⟩ := bind_eq_ok.mp h
      cases h
      exact Or.inr ⟨_, f, units, rfl, hdata, hf, by omega, rfl, rfl, hread⟩
    · rintro ⟨-, -, ⟨hfmt, hlen, ty, f, hread, rfl, rfl, rfl⟩ |
        ⟨msgid, f, units, hmsgid, hdata, hf, hlen, rfl, rfl, hread⟩⟩
      · rw [if_pos (Option.some.inj hfmt), if_neg (by omega), hread]
        rfl
      · obtain rfl := Option.some.inj hmsgid
        rw [if_neg hdata]
        simp only [hf]
        rw [if_neg (by omega), hread]
        rfl
  · rw [if_pos hhead]
    refine iff_of_false (fun h => ?_) fun h => hhead h.2.1
    rw [index_eq (by omega), ok_bind, index_eq (by omega), ok_bind] at h
    cases h

theorem readFmt_append (hlen : fmtLen ≤ rest.length) (more : List UInt8) :
    readFmt off (rest ++ more) = readFmt off rest := by
  unfold fmtLen at hlen
  have hslice (a : ℕ) {b : ℕ} (hb : b ≤ 89) :
      (slice (rest ++ more) a b : Checked ReadError (List UInt8)) = slice rest a b :=
    slice_append_left (by omega) a more
  unfold readFmt
  rw [index_append_left (by omega), index_append_left (by omega), hslice 5 (by omega),
    hslice 9 (by omega), hslice 25 (by omega)]

theorem readData_append (hlen : f.len ≤ rest.length) (more : List UInt8) :
    readData sha256 profile reportedUnits s off msgid f (rest ++ more) =
      readData sha256 profile reportedUnits s off msgid f rest := by
  unfold readData
  rw [slice_append_left hlen, slice_append_left hlen]

/-- **A record is read from its own bytes**: what stands behind it in the log has no influence,
which is what makes a cut log readable. -/
theorem local_records : (records sha256 profile reportedUnits).Local := by
  intro s r more off entry n s' hstep hn
  obtain ⟨-, hhead, hkind⟩ := readRecord_eq_ok.mp hstep
  have hthree : 3 ≤ n := by
    rcases hkind with ⟨-, -, ty, f, -, -, rfl, -⟩ | ⟨msgid, f, units, -, -, -, -, rfl, -⟩
    · decide
    · have hlen := f.len_eq.1
      omega
  rw [List.take_append_of_le_length (by omega)] at hhead
  rw [List.getElem?_append_left (by omega)] at hkind
  refine ⟨?_, readRecord_eq_ok.mpr ⟨by omega, hhead, ?_⟩⟩
  · cases r with
    | nil => simp only [List.length_nil] at hn; omega
    | cons => rfl
  · rcases hkind with ⟨hfmt, -, ty, f, hread, rfl, rfl, rfl⟩ |
      ⟨msgid, f, units, hmsgid, hdata, hf, -, rfl, rfl, hread⟩
    · rw [readFmt_append hn] at hread
      exact Or.inl ⟨hfmt, hn, ty, f, hread, rfl, rfl, rfl⟩
    · rw [readData_append hn] at hread
      exact Or.inr ⟨msgid, f, units, hmsgid, hdata, hf, hn, rfl, rfl, hread⟩

end Records

/-! ## 5. A log -/

def Entry.observation : Entry → Option Observation
  | .observed o => some o
  | _ => none

def Entry.untimedRecord : Entry → Option UntimedRecord
  | .untimed u => some u
  | _ => none

def Entry.isData : Entry → Bool
  | .format _ _ => false
  | _ => true

/-- The report on some records. -/
def ReadReport.of (rs : List (Scanned LogState Entry)) : ReadReport where
  observations := rs.filterMap fun r => r.item.observation
  untimedRecords := rs.filterMap fun r => r.item.untimedRecord
  dataRecords := rs.countP fun r => r.item.isData

/-- The loop builds the report on the records. -/
theorem foldlM_add (rs : List (Scanned LogState Entry)) :
    rs.foldlM (fun report r => pure (report.add r.item)) ({} : ReadReport) =
      (.ok (.of rs) : Checked ReadError ReadReport) := by
  suffices h : ∀ report : ReadReport,
      rs.foldlM (fun report r => pure (report.add r.item)) report = (.ok {
        observations := report.observations ++ (ReadReport.of rs).observations
        untimedRecords := report.untimedRecords ++ (ReadReport.of rs).untimedRecords
        dataRecords := report.dataRecords + (ReadReport.of rs).dataRecords } :
          Checked ReadError ReadReport) by
    rw [h {}]
    simp
  induction rs with
  | nil =>
    intro report
    simp [ReadReport.of, pure, Except.pure]
  | cons r rs ih =>
    intro report
    rw [List.foldlM_cons, pure_bind, ih]
    cases hr : r.item <;>
      simp [ReadReport.add, ReadReport.of, hr, Entry.observation, Entry.untimedRecord,
        Entry.isData, Nat.add_assoc, Nat.add_comm 1]

/-- Every data record is an observation or is kept as it is. -/
theorem ReadReport.of_dataRecords (rs : List (Scanned LogState Entry)) :
    (ReadReport.of rs).dataRecords =
      (ReadReport.of rs).observations.length + (ReadReport.of rs).untimedRecords.length := by
  unfold ReadReport.of
  induction rs with
  | nil => rfl
  | cons r rs ih =>
    dsimp only at ih ⊢
    rw [List.countP_cons, List.filterMap_cons, List.filterMap_cons, ih]
    cases r.item <;> simp [Entry.observation, Entry.untimedRecord, Entry.isData] <;> omega

section Log

variable {sha256 : List UInt8 → Digest} {profile : FamilyProfile} {reportedUnits : Bool}
  {input : Slice} {report : ReadReport}

/-- The records of a whole log: a run of the reader from the empty tables at its first byte to its
last. -/
def Recorded (sha256 : List UInt8 → Digest) (profile : FamilyProfile) (reportedUnits : Bool)
    (bytes : List UInt8) (rs : List (Scanned LogState Entry)) : Prop :=
  ∃ s, (records sha256 profile reportedUnits).Run bytes 0 .new rs bytes.length s

theorem bound_new : Bound LogState.new.fmts LogState.new.units := by
  intro ty unitIds multIds h
  cases h

theorem safe_add (report : ReadReport) (r : Scanned LogState Entry) :
    Safe (pure (report.add r.item) : Checked ReadError ReadReport) fun _ => True :=
  safe_pure trivial

/-- **A reading returns when the log is one of records**, and then it is the report on them. -/
theorem readReportImpl_eq_ok :
    readReportImpl sha256 profile input reportedUnits = .ok report ↔
      profile.format = "ardupilot_dataflash_bin" ∧
        ∃ rs, Recorded sha256 profile reportedUnits input.bytes rs ∧ report = .of rs := by
  have hkeeps : (records sha256 profile reportedUnits).Keeps _ := keeps_records
  have hscan {q : ℕ} {s : LogState} {built : ReadReport} :=
    Scanner.scan_feed_eq_ok (q := q) (t := s) (b := built) hkeeps safe_add bound_new
      (Nat.zero_le input.bytes.length) (a := {})
  unfold readReportImpl
  split
  · next hrefused => exact iff_of_false (fun h => by cases h) fun h => hrefused h.1
  next hformat =>
  rw [not_not] at hformat
  constructor
  · intro h
    obtain ⟨⟨q, s, built⟩, hok, h⟩ := bind_eq_ok.mp h
    cases h
    obtain ⟨rs, hrun, hstop, hfold⟩ := hscan.mp hok
    have hq := hrun.le_length (Nat.zero_le _)
    have hnil : input.bytes.drop q = [] := by simpa [records] using hstop
    rw [List.drop_eq_nil_iff] at hnil
    obtain rfl : q = input.bytes.length := by omega
    rw [foldlM_add] at hfold
    cases hfold
    exact ⟨hformat, rs, ⟨s, hrun⟩, rfl⟩
  · rintro ⟨-, rs, ⟨s, hrun⟩, rfl⟩
    have hok := hscan.mpr ⟨rs, hrun, by simp [records], foldlM_add rs⟩
    rw [hok]
    rfl

theorem safe_readReportImpl :
    Safe (readReportImpl sha256 profile input reportedUnits) fun _ => True := by
  unfold readReportImpl
  refine Safe.guard fun _ => ?_
  have hkeeps : (records sha256 profile reportedUnits).Keeps _ := keeps_records
  have hscan := Scanner.safe_scan (hkeeps.feed safe_add) (s := (.new, {})) bound_new
    (Nat.zero_le input.bytes.length)
  refine hscan.bind ?_
  rintro ⟨q, s, built⟩ -
  exact safe_pure trivial

/-- What the report on a log accounts for: every byte is in one record, every record is a format
or data, and the data records are in the report, as observations or as they are. -/
structure Accounted (bytes : List UInt8) (rs : List (Scanned LogState Entry))
    (report : ReadReport) : Prop where
  /-- The records cover the log. -/
  tiles : EndToEnd Scanned.start Scanned.stop 0 rs bytes.length
  /-- Each is a format, or data of the length that the current format of its type declares. -/
  sized : ∀ r ∈ rs, Sized r.before r.start (bytes.drop r.start) r.item (r.stop - r.start)
  bound : ∀ r ∈ rs, Bound r.before.fmts r.before.units
  counted : report.dataRecords = report.observations.length + report.untimedRecords.length
  /-- The data records are those that are not formats. -/
  data : report.dataRecords = rs.countP fun r => r.item.isData
  verbatim : ∀ u ∈ report.untimedRecords, ∃ r ∈ rs, r.item = .untimed u ∧ u.offset = r.start ∧
    u.bytes = (bytes.drop r.start).take (r.stop - r.start)

theorem accounted_of_recorded {bytes : List UInt8} {rs : List (Scanned LogState Entry)}
    (h : Recorded sha256 profile reportedUnits bytes rs) : Accounted bytes rs (.of rs) := by
  obtain ⟨s, hrun⟩ := h
  have hbound := hrun.forall_before keeps_records bound_new
  have hsized (r) (hr : r ∈ rs) :
      Sized r.before r.start (bytes.drop r.start) r.item (r.stop - r.start) := by
    obtain ⟨after, hreads⟩ := hrun.reads r hr
    have hsafe : Safe (readRecord sha256 profile reportedUnits r.before (bytes.drop r.start)
        r.start) _ := safe_readRecord (hbound r hr)
    have hstep : readRecord sha256 profile reportedUnits r.before (bytes.drop r.start) r.start =
        .ok (r.item, r.stop - r.start, after) := hreads.step
    rw [hstep] at hsafe
    exact hsafe.2.2.2
  refine ⟨hrun.endToEnd, hsized, hbound, ReadReport.of_dataRecords rs, rfl, ?_⟩
  intro u hu
  obtain ⟨r, hr, hitem⟩ := List.mem_filterMap.mp hu
  obtain hitem : r.item = .untimed u := by
    cases hkind : r.item <;> rw [hkind] at hitem <;> cases hitem
    rfl
  refine ⟨r, hr, hitem, ?_⟩
  rcases hsized r hr with ⟨ty, f, hformat, -⟩ | ⟨msgid, f, -, -, -, hdata⟩
  · rw [hitem] at hformat
    cases hformat
  · rw [hitem] at hdata
    exact hdata

/-- **The log that is cut behind a record is read as far as that.** A cut inside a record is an
error of the reader, for a log that was cut off has lost something. -/
theorem readReportImpl_take (hformat : profile.format = "ardupilot_dataflash_bin")
    {rs : List (Scanned LogState Entry)} {q : ℕ} {s : LogState}
    (hrun : (records sha256 profile reportedUnits).Run input.bytes 0 .new rs q s) {cut : Slice}
    (hcut : cut.bytes = input.bytes.take q) :
    readReportImpl sha256 profile cut reportedUnits = .ok (.of rs) := by
  have hq := hrun.le_length (Nat.zero_le _)
  refine readReportImpl_eq_ok.mpr ⟨hformat, rs, ⟨s, ?_⟩, rfl⟩
  have hlen : cut.bytes.length = q := by
    rw [hcut, List.length_take]
    omega
  rw [hlen, hcut]
  exact hrun.cut local_records q (Nat.le_refl q)

/-- **A reading accounts for the whole log**: the records cover it, every data record is in the
report, untimed ones as they are, units go with the current formats, and the log that is cut
behind any record is read with the report on the records before the cut.  Profile and input are
arbitrary, the option for units too, and `Safe` leaves the reader's own errors as the only
alternative: there is no index out of range and no loop without end, on any bytes. -/
theorem log_accounted (sha256 : List UInt8 → Digest) (profile : FamilyProfile)
    (input : Slice) (reportedUnits : Bool) :
    Safe (readReportImpl sha256 profile input reportedUnits) fun report =>
      ∃ rs, Recorded sha256 profile reportedUnits input.bytes rs ∧ report = .of rs ∧
        Accounted input.bytes rs report ∧
        ∀ first more q, rs = first ++ more →
          EndToEnd Scanned.start Scanned.stop 0 first q → ∀ cut : Slice,
            cut.bytes = input.bytes.take q →
              readReportImpl sha256 profile cut reportedUnits = .ok (.of first) ∧
                (ReadReport.of first).observations <+: report.observations ∧
                (ReadReport.of first).untimedRecords <+: report.untimedRecords := by
  refine safe_readReportImpl.returned.mono ?_
  rintro report ⟨hok, -⟩
  obtain ⟨hformat, rs, hrecorded, rfl⟩ := readReportImpl_eq_ok.mp hok
  refine ⟨rs, hrecorded, rfl, accounted_of_recorded hrecorded, ?_⟩
  rintro first more q rfl hfirst cut hcut
  obtain ⟨s, hrun⟩ := hrecorded
  obtain ⟨m, u, hrun, -⟩ := hrun.of_append
  obtain rfl : m = q := hrun.endToEnd.stop_unique hfirst
  refine ⟨readReportImpl_take hformat hrun hcut, ?_, ?_⟩
  · dsimp only [ReadReport.of]
    rw [List.filterMap_append]
    exact List.prefix_append _ _
  · dsimp only [ReadReport.of]
    rw [List.filterMap_append]
    exact List.prefix_append _ _

end Log

end Musubi.Reference.Bin
