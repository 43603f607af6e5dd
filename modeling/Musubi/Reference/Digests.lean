/-
# What the digests tell apart

The digest of an observation hashes its time, its channel and its fields, each field as its name,
an equals sign, its value and a semicolon; that of an absence hashes two names, a channel and two
times without anything between them.  The times and the channel can always be made out.  The
fields of an observation can be made out only where there is at most one and it can be read in one
way; the two names of an absence only where both are empty.

The hash is assumed not to collide on the messages at hand, so what is at stake is the bytes that
are hashed.  They are no code: a semicolon and an equals sign may stand in a value, so two fields
can be one with a longer text (`fieldBytes_merge`), eight bytes of a number can be a text of eight
bytes, and a blank has a text of its own.  For each of these a second list of fields with the same
bytes is constructed (`exists_fields_ne`), which is the half of the result that says the condition
cannot be weakened.

With the names of an absence it is shorter: the two stand side by side, and a character can be
moved from one to the other.  So an absence whose names are not both empty shares its bytes with
another one, and two absences share theirs exactly when the joined names, the channel and the
times agree.
-/
import Musubi.Core.Digest
import Musubi.Lib.Substr
import Musubi.Lib.Utf8
import Musubi.Reference.Cause

namespace Musubi.Reference

open Lib Musubi.Core

/-! ## 1. Texts and numbers -/

theorem utf8_append (s t : String) : utf8 (s ++ t) = utf8 s ++ utf8 t := by
  unfold utf8
  rw [String.toByteArray_append, ByteArray.data_append, Array.toList_append]

/-- The byte of the equals sign. -/
theorem equals_mem_utf8 {s : String} : 0x3D ∈ utf8 s ↔ '=' ∈ s.toList :=
  mem_toByteArray (c := '=') (by decide) s

theorem int64_ext {a b : Int64} (h : a.toUInt64.toNat = b.toUInt64.toNat) : a = b := by
  cases a
  cases b
  exact congrArg Int64.ofUInt64 (UInt64.toNat_inj.mp h)

theorem leBytes_int64_inj {a b : Int64}
    (h : leBytes 8 a.toUInt64.toNat = leBytes 8 b.toUInt64.toNat) : a = b :=
  int64_ext (leBytes_inj a.toUInt64.toNat_lt b.toUInt64.toNat_lt h)

/-- Eight bytes are an integer.  So a text of eight bytes is written like some number, which is
how two values come to have the same bytes. -/
theorem exists_i64 {bytes : List UInt8} (h : bytes.length = 8) :
    ∃ v : Int64, leBytes 8 v.toUInt64.toNat = bytes := by
  have hlt := ofLeBytes_lt bytes
  have hwrite := leBytes_ofLeBytes bytes
  rw [h] at hlt hwrite
  refine ⟨(UInt64.ofNat (ofLeBytes bytes)).toInt64, ?_⟩
  rw [UInt64.toUInt64_toInt64, UInt64.toNat_ofNat_of_lt' hlt, hwrite]

/-! ## 2. Fields -/

def fieldBytes (field : String × FieldValue) : List UInt8 :=
  utf8 field.1 ++ utf8 "=" ++ fieldValueBytes field.2 ++ utf8 ";"

def fieldsBytes (fields : Fields) : List UInt8 := fields.flatMap fieldBytes

theorem observationBytes_eq (tMs : Int64) (channel : ChannelId) (fields : Fields) :
    observationBytes tMs channel fields =
      leBytes 8 tMs.toUInt64.toNat ++ (utf8 channel.asStr ++ fieldsBytes fields) := by
  unfold observationBytes
  rw [List.append_assoc]
  rfl

/-- No channel starts as another, so where the name of the channel ends is known without a length
in front of it. -/
theorem channel_isPrefix {a b : ChannelId} (h : utf8 a.asStr <+: utf8 b.asStr) : a = b := by
  have hall : ∀ a b : ChannelId, utf8 a.asStr <+: utf8 b.asStr → a = b := by
    intro a b
    cases a
    all_goals
      cases b
      all_goals decide
  exact hall a b h

/-- **The time and the channel can be made out.** The time has eight bytes, and no name of a
channel begins another one followed by a field. -/
theorem observationBytes_inj {t t' : Int64} {channel channel' : ChannelId}
    {fields fields' : Fields}
    (h : observationBytes t channel fields = observationBytes t' channel' fields') :
    t = t' ∧ channel = channel' ∧ fieldsBytes fields = fieldsBytes fields' := by
  rw [observationBytes_eq, observationBytes_eq] at h
  obtain ⟨htime, hrest⟩ := List.append_inj h (by rw [length_leBytes, length_leBytes])
  have hchannel : channel = channel' := by
    rcases List.prefix_or_prefix_of_prefix (List.prefix_append (utf8 channel.asStr) _)
      (hrest ▸ List.prefix_append (utf8 channel'.asStr) _) with hfront | hfront
    · exact channel_isPrefix hfront
    · exact (channel_isPrefix hfront).symm
  subst hchannel
  exact ⟨leBytes_int64_inj htime, rfl, List.append_cancel_left hrest⟩

/-- What can be read in one way only: no field, or one with a text that no number and no blank
is written as, and no equals sign but its own. -/
def HasOneReading : Fields → Prop
  | [] => True
  | [(name, .text s)] =>
    '=' ∉ name.toList ∧ '=' ∉ s.toList ∧ s ≠ "<blank>" ∧ (utf8 s).length ≠ 8
  | _ => False

instance (fields : Fields) : Decidable (HasOneReading fields) := by
  unfold HasOneReading
  split
  all_goals infer_instance

theorem fieldsBytes_cons (field : String × FieldValue) (fields : Fields) :
    fieldsBytes (field :: fields) = fieldBytes field ++ fieldsBytes fields :=
  List.flatMap_cons

/-- Two fields with a text each are one with a longer text. -/
theorem fieldBytes_merge (name name' s s' : String) :
    fieldBytes (name, .text s) ++ fieldBytes (name', .text s') =
      fieldBytes (name, .text (s ++ ";" ++ name' ++ "=" ++ s')) := by
  simp only [fieldBytes, fieldValueBytes, utf8_append, List.append_assoc]

/-- An equals sign in the name may as well be the one between name and value. -/
theorem fieldBytes_split_name (a b s : String) :
    fieldBytes (a ++ "=" ++ b, .text s) = fieldBytes (a, .text (b ++ "=" ++ s)) := by
  simp only [fieldBytes, fieldValueBytes, utf8_append, List.append_assoc]

theorem exists_append_of_mem {c : Char} {s : String} (h : c ∈ s.toList) :
    ∃ a b : String, s = a ++ String.singleton c ++ b := by
  obtain ⟨a, b, hab⟩ := List.append_of_mem h
  refine ⟨String.ofList a, String.ofList b, ?_⟩
  rw [← String.toList_inj]
  simp [hab]

/-- A field with a value that can be written as another: any value but a text, the text that
stands for an absent one, and a text of the length of a number. -/
theorem exists_value_ne {v : FieldValue}
    (h : ∀ s, v = .text s → s = "<blank>" ∨ (utf8 s).length = 8) :
    ∃ w, w ≠ v ∧ fieldValueBytes w = fieldValueBytes v := by
  cases v with
  | i64 v => exact ⟨.f64 ⟨v.toUInt64⟩, nofun, rfl⟩
  | f64 v => exact ⟨.i64 v.bits.toInt64, nofun, by simp [fieldValueBytes]⟩
  | blank => exact ⟨.text "<blank>", nofun, rfl⟩
  | text s =>
    rcases h s rfl with rfl | hlength
    · exact ⟨.blank, nofun, rfl⟩
    · obtain ⟨v, hv⟩ := exists_i64 hlength
      exact ⟨.i64 v, nofun, hv⟩

/-- A field whose value can be written as another, before others.  The rest of the fields stands
on both sides. -/
theorem exists_fields_ne_of_value {name : String} {v : FieldValue} (before rest : Fields)
    (h : ∃ w, w ≠ v ∧ fieldValueBytes w = fieldValueBytes v) :
    ∃ other, other ≠ before ++ (name, v) :: rest ∧
      fieldsBytes other = fieldsBytes (before ++ (name, v) :: rest) := by
  obtain ⟨w, hw, hbytes⟩ := h
  refine ⟨before ++ (name, w) :: rest, ?_, ?_⟩
  · intro heq
    exact hw (Prod.ext_iff.mp (List.cons.inj (List.append_cancel_left heq)).1).2
  · simp only [fieldsBytes, List.flatMap_append, List.flatMap_cons, fieldBytes, hbytes]

/-- The equals sign of a field may be taken for one in its name or its text. -/
theorem exists_fields_ne_of_equals {name s : String} (h : '=' ∈ name.toList ∨ '=' ∈ s.toList) :
    ∃ other, other ≠ [(name, .text s)] ∧ fieldsBytes other = fieldsBytes [(name, .text s)] := by
  have hequals : "=".length = 1 := by decide
  have hne {name' s' : String} (hlength : name'.length ≠ name.length) :
      [(name', FieldValue.text s')] ≠ [(name, FieldValue.text s)] := by
    intro heq
    exact hlength (congrArg (fun f : String × FieldValue => f.1.length) (List.cons.inj heq).1)
  rcases h with hname | hs
  · obtain ⟨a, b, rfl⟩ := exists_append_of_mem hname
    refine ⟨[(a, .text (b ++ "=" ++ s))], hne ?_, ?_⟩
    · rw [String.length_append, String.length_append, String.length_singleton]
      omega
    · rw [fieldsBytes_cons, fieldsBytes_cons]
      exact congrArg (· ++ _) (fieldBytes_split_name a b s).symm
  · obtain ⟨a, b, rfl⟩ := exists_append_of_mem hs
    refine ⟨[(name ++ "=" ++ a, .text b)], hne ?_, ?_⟩
    · rw [String.length_append, String.length_append, hequals]
      omega
    · rw [fieldsBytes_cons, fieldsBytes_cons]
      exact congrArg (· ++ _) (fieldBytes_split_name name a b)

/-- **Fields that can be read in two ways**: there is another list of fields with the same bytes.
-/
theorem exists_fields_ne {fields : Fields} (h : ¬ HasOneReading fields) :
    ∃ other, other ≠ fields ∧ fieldsBytes other = fieldsBytes fields := by
  by_cases hvalue : ∃ before name v rest, fields = before ++ (name, v) :: rest ∧
      ∃ w, w ≠ v ∧ fieldValueBytes w = fieldValueBytes v
  · obtain ⟨before, name, v, rest, rfl, hw⟩ := hvalue
    exact exists_fields_ne_of_value before rest hw
  -- what is left has texts only, none of which a number or a blank is written as
  have htext : ∀ before name v rest, fields = before ++ (name, v) :: rest →
      ∃ s, v = .text s ∧ s ≠ "<blank>" ∧ (utf8 s).length ≠ 8 := by
    intro before name v rest hfields
    by_contra hnot
    refine hvalue ⟨before, name, v, rest, hfields, exists_value_ne fun s hs => ?_⟩
    by_contra hor
    exact hnot ⟨s, hs, not_or.mp hor⟩
  match fields, h, htext with
  | [], h, _ => exact absurd trivial h
  | [(name, v)], h, htext =>
    obtain ⟨s, rfl, hblank, hlength⟩ := htext [] name v [] rfl
    refine exists_fields_ne_of_equals ?_
    by_contra hor
    obtain ⟨hname, hs⟩ := not_or.mp hor
    exact h ⟨hname, hs, hblank, hlength⟩
  | (name, v) :: (name', v') :: rest, _, htext =>
    obtain ⟨s, rfl, -⟩ := htext [] name v ((name', v') :: rest) rfl
    obtain ⟨s', rfl, -⟩ := htext [(name, .text s)] name' v' rest rfl
    refine ⟨(name, .text (s ++ ";" ++ name' ++ "=" ++ s')) :: rest, ?_, ?_⟩
    · intro heq
      have hlength := congrArg List.length heq
      simp at hlength
    · rw [fieldsBytes_cons, fieldsBytes_cons, fieldsBytes_cons, ← List.append_assoc,
        fieldBytes_merge]

/-- Each field has its equals sign, between the name and the value, so there are at least as many
of them as fields. -/
theorem length_le_count (fields : Fields) : fields.length ≤ (fieldsBytes fields).count 0x3D := by
  induction fields with
  | nil => exact Nat.le_refl 0
  | cons field fields ih =>
    have hown : (utf8 "=").count 0x3D = 1 := by decide
    rw [fieldsBytes_cons, List.count_append, List.length_cons]
    simp only [fieldBytes, List.count_append, hown]
    omega

/-- **Fields that can be read in one way.** The other list is arbitrary, of any length. -/
theorem fields_eq_of_hasOneReading {fields other : Fields} (h : HasOneReading fields)
    (heq : fieldsBytes other = fieldsBytes fields) : other = fields := by
  have hcount := length_le_count other
  rw [heq] at hcount
  match fields, h with
  | [], _ => exact List.length_eq_zero_iff.mp (Nat.le_zero.mp hcount)
  | [(name, .text s)], ⟨hname, hs, hblank, hlength⟩ =>
    have hequals : utf8 "=" = [0x3D] := by decide
    have hsemicolon : utf8 ";" = [0x3B] := by decide
    have hone : (fieldsBytes [(name, .text s)]).count 0x3D = 1 := by
      have hname0 := List.count_eq_zero.mpr (mt equals_mem_utf8.mp hname)
      have hs0 := List.count_eq_zero.mpr (mt equals_mem_utf8.mp hs)
      simp [fieldsBytes, fieldBytes, fieldValueBytes, hequals, hsemicolon, hname0, hs0]
    rw [hone] at hcount
    match other, hcount with
    | [], _ =>
      rw [← heq] at hone
      exact absurd hone (by decide)
    | [(name', v)], _ =>
      have hbytes : utf8 name' ++ 0x3D :: (fieldValueBytes v ++ [0x3B]) =
          utf8 name ++ 0x3D :: (utf8 s ++ [0x3B]) := by
        simpa [fieldsBytes, fieldBytes, fieldValueBytes, hequals, hsemicolon] using heq
      -- the one equals sign is that of the field in both
      have hvalue : 0x3D ∉ fieldValueBytes v ++ [0x3B] := by
        have hcount' := congrArg (List.count 0x3D) heq
        rw [hone] at hcount'
        simp [fieldsBytes, fieldBytes, hequals, hsemicolon] at hcount'
        have hzero : (fieldValueBytes v).count 0x3D = 0 := by omega
        simp [List.count_eq_zero.mp hzero]
      have hs' : 0x3D ∉ utf8 s ++ [0x3B] := by
        rw [List.mem_append, equals_mem_utf8]
        simp [hs]
      obtain ⟨hnames, hvalues⟩ := append_cons_inj_right hvalue hs' hbytes
      rw [utf8_injective hnames]
      have hv := List.append_cancel_right hvalues
      cases v with
      | i64 v => exact absurd (by rw [← hv, fieldValueBytes, length_leBytes]) hlength
      | f64 v => exact absurd (by rw [← hv, fieldValueBytes, length_leBytes]) hlength
      | text s' => rw [utf8_injective hv]
      | blank => exact absurd (utf8_injective hv).symm hblank
    | _ :: _ :: _, hcount =>
      exact absurd hcount (by simp)

/-! ## 3. Observations -/

/-- **The digest of an observation is that of no other exactly when its fields can be read in one
way only.** The hash does not collide on a set of messages that holds the observations.  `S`
stands for the messages that occur; the condition is about the fields of the one observation, so
it can be checked when they are written. -/
theorem observationDigest_identifies_iff (sha256 : List UInt8 → Digest) (S : Set (List UInt8))
    (hS : Set.InjOn sha256 S) (t : Int64) (channel : ChannelId) (fields : Fields)
    (hmem : observationBytes t channel fields ∈ S) :
    (∀ t' channel' fields', observationBytes t' channel' fields' ∈ S →
      observationDigest sha256 t' channel' fields' = observationDigest sha256 t channel fields →
      t' = t ∧ channel' = channel ∧ fields' = fields) ↔ HasOneReading fields := by
  constructor
  · intro h
    by_contra hnot
    obtain ⟨other, hne, hbytes⟩ := exists_fields_ne hnot
    have hsame : observationBytes t channel other = observationBytes t channel fields := by
      rw [observationBytes_eq, observationBytes_eq, hbytes]
    exact hne (h t channel other (hsame ▸ hmem) (congrArg sha256 hsame)).2.2
  · intro h t' channel' fields' hmem' hdigest
    obtain ⟨htime, hchannel, hbytes⟩ := observationBytes_inj (hS hmem' hmem hdigest)
    exact ⟨htime, hchannel, fields_eq_of_hasOneReading h hbytes⟩

/-- Two messages that the flight controller wrote, of which the first is identified. -/
def twoTexts : Set (List UInt8) :=
  {observationBytes 1000 .event [("MSG.Message", .text "Armed")],
    observationBytes 4000 .event [("MSG.Message", .text "Disarmed")]}

theorem statusText_identified : HasOneReading [("MSG.Message", .text "Armed")] ∧
    ∀ t' channel' fields', observationBytes t' channel' fields' ∈ twoTexts →
      observationDigest Sha256.hash t' channel' fields' =
        observationDigest Sha256.hash 1000 .event [("MSG.Message", .text "Armed")] →
      t' = 1000 ∧ channel' = .event ∧ fields' = [("MSG.Message", .text "Armed")] := by
  have hne : Sha256.hash (observationBytes 1000 .event [("MSG.Message", .text "Armed")]) ≠
      Sha256.hash (observationBytes 4000 .event [("MSG.Message", .text "Disarmed")]) := by
    decide +kernel
  have hinj : Set.InjOn Sha256.hash twoTexts := Set.injOn_pair.mpr fun h => absurd h hne
  have hreading : HasOneReading [("MSG.Message", .text "Armed")] := by decide
  exact ⟨hreading, (observationDigest_identifies_iff Sha256.hash _ hinj 1000
    .event [("MSG.Message", .text "Armed")] (Or.inl rfl)).mpr hreading⟩

/-- Zero as an integer and as a float, and a text that holds what separates two fields. -/
theorem observationDigest_collides :
    observationDigest Sha256.hash 0 .onboard [("BAT.Volt", .i64 0)] =
        observationDigest Sha256.hash 0 .onboard [("BAT.Volt", .f64 ⟨0⟩)] ∧
      observationDigest Sha256.hash 0 .onboard [("MSG.Message", .text "Mode;ERR.Subsys=FC")] =
        observationDigest Sha256.hash 0 .onboard
          [("MSG.Message", .text "Mode"), ("ERR.Subsys", .text "FC")] ∧
      [("BAT.Volt", FieldValue.i64 0)] ≠ [("BAT.Volt", FieldValue.f64 ⟨0⟩)] ∧
      [("MSG.Message", FieldValue.text "Mode;ERR.Subsys=FC")] ≠
        [("MSG.Message", FieldValue.text "Mode"), ("ERR.Subsys", FieldValue.text "FC")] := by
  refine ⟨congrArg Sha256.hash ?_, congrArg Sha256.hash ?_, by decide, by decide⟩
  · decide
  · decide

/-! ## 4. Absences -/

/-- What the digest of an absence hashes. -/
def negativeBytes (n : NegativeObservation) : List UInt8 :=
  utf8 n.expectationId ++ utf8 n.subject.assetId ++ utf8 n.subject.channel.asStr ++
    leBytes 8 n.absentSinceMs.toUInt64.toNat ++ leBytes 8 n.expectedByMs.toUInt64.toNat

/-- The same expectation was not met by the same asset on the same channel at the same time.  What
else a negative observation holds is not in its digest. -/
structure SameAbsence (a b : NegativeObservation) : Prop where
  expectation : a.expectationId = b.expectationId
  asset : a.subject.assetId = b.subject.assetId
  channel : a.subject.channel = b.subject.channel
  since : a.absentSinceMs = b.absentSinceMs
  by_ : a.expectedByMs = b.expectedByMs

/-- No channel ends as another, so a name in front of it cannot hide where it begins. -/
theorem channel_isSuffix {a b : ChannelId} (h : utf8 a.asStr <:+ utf8 b.asStr) : a = b := by
  have hall : ∀ a b : ChannelId, utf8 a.asStr <:+ utf8 b.asStr → a = b := by
    intro a b
    cases a
    all_goals
      cases b
      all_goals decide
  exact hall a b h

/-- **What the bytes of an absence say**: the channel, the times, and the two names as one. -/
theorem negativeBytes_eq_iff {a b : NegativeObservation} :
    negativeBytes a = negativeBytes b ↔
      a.expectationId ++ a.subject.assetId = b.expectationId ++ b.subject.assetId ∧
        a.subject.channel = b.subject.channel ∧ a.absentSinceMs = b.absentSinceMs ∧
          a.expectedByMs = b.expectedByMs := by
  unfold negativeBytes
  constructor
  · intro h
    obtain ⟨h, hby⟩ := List.append_inj' h (by rw [length_leBytes, length_leBytes])
    obtain ⟨h, hsince⟩ := List.append_inj' h (by rw [length_leBytes, length_leBytes])
    have hchannel : a.subject.channel = b.subject.channel := by
      rcases List.suffix_or_suffix_of_suffix
        (List.suffix_append (utf8 a.expectationId ++ utf8 a.subject.assetId)
          (utf8 a.subject.channel.asStr))
        (h ▸ List.suffix_append _ (utf8 b.subject.channel.asStr)) with hsuffix | hsuffix
      · exact channel_isSuffix hsuffix
      · exact (channel_isSuffix hsuffix).symm
    rw [hchannel] at h
    have hnames := List.append_cancel_right h
    rw [← utf8_append, ← utf8_append] at hnames
    exact ⟨utf8_injective hnames, hchannel, leBytes_int64_inj hsince, leBytes_int64_inj hby⟩
  · rintro ⟨hnames, hchannel, hsince, hby⟩
    rw [← utf8_append a.expectationId, ← utf8_append b.expectationId, hnames, hchannel, hsince,
      hby]

/-- **The digest of an absence is that of no other exactly when both of its names are empty.** The
hash does not collide on a set of messages that holds the absences; on it two absences share their
digest exactly when they have the channel and the times in common, and the two names joined.  The
first half speaks of one absence among all the others, the second of two given ones, where the
names need not be empty. -/
theorem negativeDigest_identifies_iff (sha256 : List UInt8 → Digest) (S : Set (List UInt8))
    (hS : Set.InjOn sha256 S) (n : NegativeObservation) (hmem : negativeBytes n ∈ S) :
    ((∀ other, negativeBytes other ∈ S → negativeDigest sha256 other = negativeDigest sha256 n →
      SameAbsence other n) ↔ n.expectationId = "" ∧ n.subject.assetId = "") ∧
    ∀ other, negativeBytes other ∈ S →
      (negativeDigest sha256 other = negativeDigest sha256 n ↔
        other.expectationId ++ other.subject.assetId = n.expectationId ++ n.subject.assetId ∧
          other.subject.channel = n.subject.channel ∧ other.absentSinceMs = n.absentSinceMs ∧
            other.expectedByMs = n.expectedByMs) := by
  have hpair : ∀ other, negativeBytes other ∈ S →
      (negativeDigest sha256 other = negativeDigest sha256 n ↔
        negativeBytes other = negativeBytes n) := fun other hother => hS.eq_iff hother hmem
  refine ⟨?_, fun other hother => (hpair other hother).trans negativeBytes_eq_iff⟩
  constructor
  · intro h
    -- the names joined, as the one and as the other
    have hshift (expectationId assetId : String)
        (hjoin : expectationId ++ assetId = n.expectationId ++ n.subject.assetId) :
        expectationId = n.expectationId ∧ assetId = n.subject.assetId := by
      obtain ⟨other, hexpectation, hasset, hbytes⟩ : ∃ other : NegativeObservation,
          other.expectationId = expectationId ∧ other.subject.assetId = assetId ∧
            negativeBytes other = negativeBytes n :=
        ⟨{ n with expectationId, subject := { n.subject with assetId } }, rfl, rfl,
          negativeBytes_eq_iff.mpr ⟨hjoin, rfl, rfl, rfl⟩⟩
      have hsame := h other (hbytes ▸ hmem) (congrArg sha256 hbytes)
      exact ⟨hexpectation ▸ hsame.expectation, hasset ▸ hsame.asset⟩
    have hleft := hshift "" (n.expectationId ++ n.subject.assetId) (String.empty_append)
    have hright := hshift (n.expectationId ++ n.subject.assetId) "" (String.append_empty)
    exact ⟨hleft.1.symm, hright.2.symm⟩
  · rintro ⟨hexpectation, hasset⟩ other hother hdigest
    obtain ⟨hnames, hchannel, hsince, hby⟩ :=
      negativeBytes_eq_iff.mp ((hpair other hother).mp hdigest)
    rw [hexpectation, hasset, String.append_empty, String.append_eq_empty_iff] at hnames
    exact ⟨hnames.1.trans hexpectation.symm, hnames.2.trans hasset.symm, hchannel, hsince, hby⟩

/-- A link that was silent for two seconds. -/
def silentLink (expectationId assetId : String) : NegativeObservation where
  subject := ⟨.fpv, assetId, .linkStats⟩
  expectationId := expectationId
  absentSinceMs := 5000
  expectedByMs := 7000
  lastGood := none
  clockBasis := .gpsLocked
  timeConfidenceMin := .ofRat (9 / 10)
  mark := ⟨.ok, "", []⟩

/-- Without names it is identified, among others with names. -/
theorem namelessLink_identified : (silentLink "" "").expectationId = "" ∧
    ∀ other, negativeBytes other ∈ ({negativeBytes (silentLink "" ""),
        negativeBytes (silentLink "link" "uav-1")} : Set (List UInt8)) →
      negativeDigest Sha256.hash other = negativeDigest Sha256.hash (silentLink "" "") →
      SameAbsence other (silentLink "" "") := by
  have hne : Sha256.hash (negativeBytes (silentLink "" "")) ≠
      Sha256.hash (negativeBytes (silentLink "link" "uav-1")) := by decide +kernel
  have hinj : Set.InjOn Sha256.hash
      {negativeBytes (silentLink "" ""), negativeBytes (silentLink "link" "uav-1")} :=
    Set.injOn_pair.mpr fun h => absurd h hne
  exact ⟨rfl, (negativeDigest_identifies_iff Sha256.hash _ hinj (silentLink "" "")
    (Or.inl rfl)).1.mpr ⟨rfl, rfl⟩⟩

/-- Two vehicles that miss two expectations under one digest. -/
theorem negativeDigest_collides :
    negativeDigest Sha256.hash (silentLink "link" "1-uav") =
        negativeDigest Sha256.hash (silentLink "link1" "-uav") ∧
      ¬ SameAbsence (silentLink "link" "1-uav") (silentLink "link1" "-uav") := by
  refine ⟨congrArg Sha256.hash ?_, fun h => absurd h.expectation (by decide)⟩
  decide

end Musubi.Reference
