/-
# The messages of a ULog recording

A message is as long as it says, so a reading that returns has gone through all of them
(`readInstanceReport_eq_ok`), and each changes what is known in a way that depends on the message
alone (`Session.next`).  What an id is bound to is therefore what its last subscription has left
there, and the last time under an id only grows until the id is bound anew: a data message is
decoded with the type of the last subscription of its id, which is one of the selected instance
(`BoundBy`), at a time that is not before those since that subscription.

Bindings and times are both facts about the messages before a place, and the scan of `Lib.Scan`
keeps the state before each message.  A fact of the form "the last message of a kind under this
id" is an induction over the messages from the back; section 4 does it for bindings and section 5
for times.

Safety is the remaining part: sizes and offsets that the file chooses are checked before they are
used, and a message that is too short for what it should hold is kept or refused, and never read
beyond its end.
-/
import Musubi.Lib.LastWrite
import Musubi.Reference.Ulog

namespace Musubi.Reference.Ulog

open Lib Lib.Checked Musubi.Core

/-! ## 1. Values -/

section Values

variable {off n : ℕ} {ty : String} {b : List UInt8}

theorem safe_textField (b : List UInt8) (off : ℕ) : Safe (textField b off) fun _ => True := by
  unfold textField
  split
  · exact trivial
  · exact safe_fail _

theorem safe_decodeScalar (hty : typeLen ty = some n) (hb : n ≤ b.length) :
    Safe (decodeScalar ty b) fun _ => True := by
  unfold decodeScalar
  split <;>
    first
    | exact safe_pure trivial
    | simp only [typeLen, Option.some.injEq] at hty
      exact (safe_word (hty ▸ hb)).bind fun v _ => safe_pure trivial

theorem safe_checkScalar (hty : typeLen ty = some n) (hb : n ≤ b.length) :
    Safe (checkScalar off ty b) fun _ => True := by
  unfold checkScalar
  split
  · next h =>
    subst h
    simp only [typeLen, Option.some.injEq] at hty
    refine (safe_word (by omega)).bind fun v _ => ?_
    exact Safe.guard fun _ => safe_pure trivial
  · split
    · next h =>
      subst h
      simp only [typeLen, Option.some.injEq] at hty
      refine (safe_index (by omega)).bind fun v _ => ?_
      exact Safe.guard fun _ => safe_pure trivial
    · exact safe_pure trivial

end Values

/-! ## 2. Data -/

section Data

variable {off : ℕ} {topic : String} {body : List UInt8}

theorem safe_decodeElement {f : Field} {n : ℕ} (hty : typeLen f.ty = some n)
    (decoded : Fields × ℕ) (i : ℕ) :
    Safe (decodeElement off topic f n body decoded i) fun _ => True := by
  obtain ⟨values, pos⟩ := decoded
  unfold decodeElement
  refine Safe.guard fun hlong => ?_
  refine (safe_slice (Nat.le_add_right _ _) (by omega)).bind ?_
  rintro b ⟨-, hb⟩
  rw [Nat.add_sub_cancel_left] at hb
  refine (safe_checkScalar hty (by omega)).bind fun _ _ => ?_
  exact (safe_decodeScalar hty (by omega)).bind fun _ _ => safe_pure trivial

theorem safe_decodeField (last : ℕ) (decoded : Option (Fields × ℕ)) (field : Field × ℕ) :
    Safe (decodeField off topic last body decoded field) fun _ => True := by
  obtain ⟨f, i⟩ := field
  unfold decodeField
  dsimp only
  split
  · next values pos n hty =>
    split
    · split
      · exact safe_pure trivial
      · exact Safe.guard fun _ => safe_pure trivial
    · split
      · refine Safe.guard fun hlong => ?_
        refine (safe_slice (Nat.le_add_right _ _) (by omega)).bind fun b _ => ?_
        exact (safe_textField b off).bind fun _ _ => safe_pure trivial
      · have helement (decoded : Fields × ℕ) (i : ℕ) :
            Safe (decodeElement off topic f n body decoded i) fun _ => True :=
          safe_decodeElement hty decoded i
        have hloop := safe_foldlM (I := fun _ => True) (List.range f.count) (b := (values, pos))
          trivial fun decoded i _ _ => helement decoded i
        exact hloop.bind fun _ _ => safe_pure trivial
  · exact safe_pure trivial

theorem safe_decodeFields (fields : List Field) :
    Safe (decodeFields off topic fields body) fun _ => True :=
  safe_foldlM fields.zipIdx trivial fun decoded field _ _ =>
    safe_decodeField fields.length decoded field

theorem safe_recordTime (fields : List Field) (values : Fields) (last : Option Int64) :
    Safe (recordTime off topic fields values last) fun _ => True := by
  unfold recordTime
  refine Safe.guard fun _ => ?_
  split
  · exact safe_fail _
  · exact Safe.guard fun _ => safe_pure trivial

theorem safe_readData (s : Session) (p raw : List UInt8) :
    Safe (readData s off p raw) fun _ => True := by
  unfold readData
  refine Safe.guard fun hlong => ?_
  refine (safe_word (by omega)).bind fun id _ => ?_
  dsimp only
  split
  · exact safe_pure trivial
  next binding hbinding =>
  split
  · exact safe_pure trivial
  next fields hfields =>
  refine (safe_slice (by omega) (Nat.le_refl _)).bind fun body _ => ?_
  refine (safe_decodeFields fields).bind fun decoded _ => ?_
  split
  · exact safe_pure trivial
  next values pos =>
  refine Safe.guard fun _ => ?_
  exact (safe_recordTime fields values _).bind fun _ _ => safe_pure trivial

end Data

/-! ## 3. Messages -/

section Messages

variable {selectedMultiId : UInt8} {s : Session} {off : ℕ} {p raw rest : List UInt8}

theorem safe_readBody (ty : UInt8) :
    Safe (readBody selectedMultiId s off ty p raw) fun _ => True := by
  unfold readBody
  split
  · unfold readFlagBits
    refine Safe.guard fun hlong => ?_
    refine (safe_slice (by decide) (by omega)).bind fun _ _ => ?_
    refine (safe_slice (by decide) (by omega)).bind fun _ _ => ?_
    exact Safe.guard fun _ => safe_pure trivial
  · unfold readFormat
    refine (safe_textField p off).bind fun _ _ => ?_
    split
    · exact safe_pure trivial
    · exact safe_pure trivial
  · unfold readSubscription
    refine Safe.guard fun hlong => ?_
    refine (safe_index (by omega)).bind fun _ _ => ?_
    refine (safe_slice (by decide) (by omega)).bind fun _ _ => ?_
    refine (safe_slice (by omega) (Nat.le_refl _)).bind fun name _ => ?_
    exact (safe_textField name off).bind fun _ _ => safe_pure trivial
  · unfold readRemoval
    refine Safe.guard fun hlong => ?_
    exact (safe_word (by omega)).bind fun _ _ => safe_pure trivial
  · exact safe_readData s p raw
  · unfold readLogged
    refine Safe.guard fun hlong => ?_
    refine (safe_index (by omega)).bind fun _ _ => ?_
    refine (safe_slice (by decide) (by omega)).bind fun _ _ => ?_
    refine (safe_slice (by omega) (Nat.le_refl _)).bind fun text _ => ?_
    exact (safe_textField text off).bind fun _ _ => safe_pure trivial
  · unfold readDropout
    refine Safe.guard fun hlong => ?_
    exact (safe_word (by omega)).bind fun _ _ => safe_pure trivial
  · exact safe_pure trivial

/-- What is known behind a message. -/
def Session.next (selectedMultiId : UInt8) (s : Session) : Message → Session
  | .format (some f) => { s with formats := s.formats ++ [f] }
  | .subscribe multiId msgId name => s.subscribe selectedMultiId multiId msgId name
  | .remove msgId => s.remove msgId
  | .decoded d => s.observe d.msgId d.tUs
  | _ => s

def Message.isData : Message → Bool
  | .unsupported _ => true
  | .decoded _ => true
  | _ => false

/-- What a decoded data message `p` of the offset `off` holds, by what is known before it. -/
structure DecodedFrom (s : Session) (off : ℕ) (p : List UInt8) (d : DataRecord) : Prop where
  msgId : d.msgId = UInt16.ofNat (ofLeBytes (p.take 2))
  binding : s.subs d.msgId = some d.binding
  fields : flattenFields d.binding.fields s.formats = some d.fields
  /-- The values take all of the message. -/
  values : decodeFields off d.binding.name d.fields (p.drop 2) =
    .ok (some (d.values, (p.drop 2).length))
  time : integer d.values (d.binding.name ++ ".timestamp") = some d.tUs
  ordered : ∀ last, s.lastTimestamp d.msgId = some last → last ≤ d.tUs

/-- What a message is that was read from its body: what is known behind it, whether it is of the
data, and what it holds if it was decoded or kept as it is. -/
structure Understood (selectedMultiId : UInt8) (s : Session) (off : ℕ) (ty : UInt8)
    (p raw : List UInt8) (message : Message) (s' : Session) : Prop where
  next : s' = s.next selectedMultiId message
  data : message.isData = true ↔ letter ty = 'D'
  verbatim : ∀ u, message = .unsupported u → u.offset = off ∧ u.bytes = raw
  decoded : ∀ d, message = .decoded d → DecodedFrom s off p d

theorem recordTime_eq_ok {topic : String} {fields : List Field} {values : Fields}
    {last : Option Int64} {tUs : Int64} (h : recordTime off topic fields values last = .ok tUs) :
    integer values (topic ++ ".timestamp") = some tUs ∧ ∀ t, last = some t → t ≤ tUs := by
  unfold recordTime at h
  split at h
  · cases h
  split at h
  · cases h
  next t ht =>
  split at h
  · cases h
  next hlast =>
  cases h
  refine ⟨ht, ?_⟩
  rintro t rfl
  exact Int64.not_lt.mp fun hlt => hlast (decide_eq_true hlt)

theorem readData_understood {ty : UInt8} {message : Message} {s' : Session}
    (hty : letter ty = 'D') (h : readData s off p raw = .ok (message, s')) :
    Understood selectedMultiId s off ty p raw message s' := by
  have hunsupported (reason : String) :
      Understood selectedMultiId s off ty p raw (.unsupported ⟨off, reason, raw⟩) s :=
    ⟨rfl, iff_of_true rfl hty, by rintro u ⟨⟩; exact ⟨rfl, rfl⟩, by rintro d ⟨⟩⟩
  unfold readData at h
  split at h
  · cases h
  next hlong =>
  obtain ⟨id, hid, h⟩ := bind_eq_ok.mp h
  dsimp only at h
  split at h
  · cases h
    exact hunsupported _
  next binding hbinding =>
  split at h
  · cases h
    exact hunsupported _
  next fields hfields =>
  obtain ⟨body, hbody, h⟩ := bind_eq_ok.mp h
  obtain ⟨decoded, hdecoded, h⟩ := bind_eq_ok.mp h
  split at h
  · cases h
    exact hunsupported _
  next values pos =>
  split at h
  · cases h
  next hend =>
  obtain ⟨tUs, hrecord, h⟩ := bind_eq_ok.mp h
  cases h
  obtain rfl : id = ofLeBytes (p.take 2) := by
    have hword := safe_word (n := 2) (b := p) (by omega)
    rwa [hid] at hword
  obtain rfl : body = p.drop 2 := by
    rw [Scanner.slice_rest (by omega)] at hbody
    exact (Except.ok.inj hbody).symm
  obtain ⟨htime, hordered⟩ := recordTime_eq_ok hrecord
  rw [not_or, not_not] at hend
  obtain ⟨rfl, -⟩ := hend
  refine ⟨rfl, iff_of_true rfl hty, ?_, ?_⟩
  · rintro u ⟨⟩
  · rintro d ⟨⟩
    exact ⟨rfl, hbinding, hfields, hdecoded, htime, hordered⟩

/-- **A message is understood** in the state before it: as a format, a subscription or its
removal, as data that are decoded, or as data that are kept as they are. -/
theorem readBody_understood {ty : UInt8} {message : Message} {s' : Session}
    (h : readBody selectedMultiId s off ty p raw = .ok (message, s')) :
    Understood selectedMultiId s off ty p raw message s' := by
  have hother {m : Message} (hnext : s' = s.next selectedMultiId m) (hkind : m.isData = false)
      (hty : letter ty ≠ 'D') : Understood selectedMultiId s off ty p raw m s' := by
    refine ⟨hnext, iff_of_false (by rw [hkind]; exact Bool.false_ne_true) hty, ?_, ?_⟩
    · rintro u rfl
      cases hkind
    · rintro d rfl
      cases hkind
  unfold readBody at h
  split at h
  · next hty =>
    unfold readFlagBits at h
    split at h
    · cases h
    obtain ⟨flags, -, h⟩ := bind_eq_ok.mp h
    obtain ⟨appended, -, h⟩ := bind_eq_ok.mp h
    split at h
    · cases h
    cases h
    exact hother rfl rfl (by rw [hty]; decide)
  · next hty =>
    unfold readFormat at h
    obtain ⟨definition, -, h⟩ := bind_eq_ok.mp h
    split at h <;> cases h <;> exact hother rfl rfl (by rw [hty]; decide)
  · next hty =>
    unfold readSubscription at h
    split at h
    · cases h
    obtain ⟨multiId, -, h⟩ := bind_eq_ok.mp h
    obtain ⟨idBytes, -, h⟩ := bind_eq_ok.mp h
    obtain ⟨nameBytes, -, h⟩ := bind_eq_ok.mp h
    obtain ⟨name, -, h⟩ := bind_eq_ok.mp h
    cases h
    exact hother rfl rfl (by rw [hty]; decide)
  · next hty =>
    unfold readRemoval at h
    split at h
    · cases h
    obtain ⟨id, -, h⟩ := bind_eq_ok.mp h
    cases h
    exact hother rfl rfl (by rw [hty]; decide)
  · next hty => exact readData_understood hty h
  · next hty =>
    unfold readLogged at h
    split at h
    · cases h
    obtain ⟨level, -, h⟩ := bind_eq_ok.mp h
    obtain ⟨timeBytes, -, h⟩ := bind_eq_ok.mp h
    obtain ⟨textBytes, -, h⟩ := bind_eq_ok.mp h
    obtain ⟨text, -, h⟩ := bind_eq_ok.mp h
    cases h
    exact hother rfl rfl (by rw [hty]; decide)
  · next hty =>
    unfold readDropout at h
    split at h
    · cases h
    obtain ⟨durationMs, -, h⟩ := bind_eq_ok.mp h
    cases h
    exact hother rfl rfl (by rw [hty]; decide)
  · next hdata _ _ =>
    cases h
    exact hother rfl rfl hdata

theorem safe_readMessage (hlong : 3 ≤ rest.length) :
    Safe (readMessage selectedMultiId s rest off) fun r =>
      r.2.1 = 3 + ofLeBytes (rest.take 2) ∧ r.2.1 ≤ rest.length ∧
        ∃ ty, rest[2]? = some ty ∧ Understood selectedMultiId s off ty
          ((rest.take r.2.1).drop 3) (rest.take r.2.1) r.1 r.2.2 := by
  unfold readMessage
  refine (safe_word (by omega)).bind ?_
  rintro size rfl
  refine (safe_index (by omega)).bind fun ty hty => ?_
  refine Safe.guard fun hlen => ?_
  rw [not_lt] at hlen
  refine (safe_slice (Nat.le_add_right _ _) hlen).bind ?_
  rintro p ⟨rfl, -⟩
  refine (safe_slice (Nat.zero_le _) hlen).bind ?_
  rintro raw ⟨rfl, -⟩
  refine (safe_readBody ty).returned.bind ?_
  rintro ⟨message, s'⟩ ⟨hread, -⟩
  refine safe_pure ⟨rfl, hlen, ty, hty, ?_⟩
  dsimp only
  rw [List.drop_take, ← List.drop_zero (l := rest)]
  exact readBody_understood hread

end Messages

/-! ## 4. Bindings -/

section Bindings

variable {selectedMultiId : UInt8}

/-- A subscription of the id, or its removal. -/
def Message.Rebinds (msgId : UInt16) (message : Message) : Prop :=
  (∃ multiId name, message = .subscribe multiId msgId name) ∨ message = .remove msgId

/-- The formats that messages give, in order. -/
def formatsOf (messages : List Message) : List Format :=
  messages.filterMap fun
    | .format f => f
    | _ => none

/-- The binding of an id after some messages: its last subscription is one of the selected
instance, and to the type that had the name then. -/
def BoundBy (selectedMultiId : UInt8) (messages : List Message) (msgId : UInt16)
    (binding : Format) : Prop :=
  ∃ before name after, messages = before ++ .subscribe selectedMultiId msgId name :: after ∧
    (∀ m ∈ after, ¬ m.Rebinds msgId) ∧ findFormat (formatsOf before) name = some binding

theorem next_formats (s : Session) (message : Message) :
    (s.next selectedMultiId message).formats = s.formats ++ formatsOf [message] := by
  cases message with
  | format f => cases f <;> simp [Session.next, formatsOf]
  | _ => exact (List.append_nil _).symm

theorem foldl_next_formats (messages : List Message) : ∀ s : Session,
    (messages.foldl (Session.next selectedMultiId) s).formats =
      s.formats ++ formatsOf messages := by
  induction messages with
  | nil => exact fun s => (List.append_nil _).symm
  | cons m messages ih =>
    intro s
    rw [List.foldl_cons, ih, next_formats, List.append_assoc]
    exact congrArg _ (List.filterMap_append (l := [m])).symm

/-- Only the messages that rebind an id change its binding; every other one passes it on as it is.
-/
theorem next_subs {msgId : UInt16} (s : Session) {message : Message}
    (h : ¬ message.Rebinds msgId) : (s.next selectedMultiId message).subs msgId = s.subs msgId := by
  cases message with
  | format f => cases f <;> rfl
  | subscribe multiId id name =>
    have hne : msgId ≠ id := by
      rintro rfl
      exact h (Or.inl ⟨multiId, name, rfl⟩)
    exact Function.update_of_ne hne _ _
  | remove id =>
    have hne : msgId ≠ id := by
      rintro rfl
      exact h (Or.inr rfl)
    exact Function.update_of_ne hne _ _
  | _ => rfl

/-- **What an id is bound to is what its last subscription has left.** One of another instance
leaves nothing. -/
theorem boundBy_of_subs {messages : List Message} {msgId : UInt16} {binding : Format}
    (h : (messages.foldl (Session.next selectedMultiId) .new).subs msgId = some binding) :
    BoundBy selectedMultiId messages msgId binding := by
  have hbound : (messages.foldl (Session.next selectedMultiId) .new).subs msgId ≠
      Session.new.subs msgId := by
    rw [h]
    exact Option.some_ne_none _
  obtain ⟨before, e, after, rfl, he, hafter, hview⟩ :=
    exists_last_write (fun s : Session => s.subs msgId) (Message.Rebinds msgId)
      (fun s m hm => next_subs s hm) hbound
  rw [h] at hview
  rcases he with ⟨multiId, name, rfl⟩ | rfl
  · have hsubs : some binding = if multiId = selectedMultiId then
        findFormat (before.foldl (Session.next selectedMultiId) .new).formats name else none :=
      hview.trans (Function.update_self _ _ _)
    split at hsubs
    · next hmulti =>
      subst hmulti
      rw [foldl_next_formats] at hsubs
      exact ⟨before, name, after, rfl, hafter, hsubs.symm⟩
    · cases hsubs
  · have hsubs : some binding = none := hview.trans (Function.update_self _ _ _)
    cases hsubs

end Bindings

/-! ## 5. Times -/

section Times

variable {selectedMultiId : UInt8} {bytes : List UInt8} {p q : ℕ} {s t : Session}
  {rs : List (Scanned Session Message)} {msgId : UInt16}

theorem keeps_messages : (messages selectedMultiId).Keeps fun _ => True := by
  intro s rest p _ hmore
  refine (safe_readMessage (of_decide_eq_true hmore)).mono ?_
  rintro ⟨message, n, s'⟩ ⟨hn, hle, -⟩
  exact ⟨by dsimp only at hn ⊢; omega, hle, trivial⟩

/-- What is known of a step of a reading. -/
theorem understood_of_step {rest : List UInt8} {n : ℕ} {message : Message}
    (hmore : (messages selectedMultiId).more rest = true)
    (hstep : (messages selectedMultiId).step s rest p = .ok (message, n, t)) :
    n = 3 + ofLeBytes (rest.take 2) ∧ n ≤ rest.length ∧ ∃ ty, rest[2]? = some ty ∧
      Understood selectedMultiId s p ty ((rest.take n).drop 3) (rest.take n) message t := by
  have hread : readMessage selectedMultiId s rest p = .ok (message, n, t) := hstep
  have hsafe : Safe (readMessage selectedMultiId s rest p) _ :=
    safe_readMessage (of_decide_eq_true hmore)
  rw [hread] at hsafe
  exact hsafe

theorem next_of_step {rest : List UInt8} {n : ℕ} {message : Message}
    (hmore : (messages selectedMultiId).more rest = true)
    (hstep : (messages selectedMultiId).step s rest p = .ok (message, n, t)) :
    t = s.next selectedMultiId message :=
  have ⟨_, _, _, _, hunderstood⟩ := understood_of_step hmore hstep
  hunderstood.next

/-- A message that does not rebind an id leaves the last time under it, unless it is one of its
data. -/
theorem next_lastTimestamp (s : Session) {message : Message} (h : ¬ message.Rebinds msgId) :
    (s.next selectedMultiId message).lastTimestamp msgId = s.lastTimestamp msgId ∨
      ∃ d, message = .decoded d ∧ d.msgId = msgId ∧
        (s.next selectedMultiId message).lastTimestamp msgId = some d.tUs := by
  cases message with
  | format f => cases f <;> exact Or.inl rfl
  | subscribe multiId id name =>
    have hne : msgId ≠ id := by
      rintro rfl
      exact h (Or.inl ⟨multiId, name, rfl⟩)
    exact Or.inl (Function.update_of_ne hne _ _)
  | remove id =>
    have hne : msgId ≠ id := by
      rintro rfl
      exact h (Or.inr rfl)
    exact Or.inl (Function.update_of_ne hne _ _)
  | decoded d =>
    by_cases hid : msgId = d.msgId
    · subst hid
      exact Or.inr ⟨d, rfl, rfl, Function.update_self _ _ _⟩
    · exact Or.inl (Function.update_of_ne hid _ _)
  | _ => exact Or.inl rfl

/-- **Until an id is bound anew the last time under it only grows.** -/
theorem lastTimestamp_mono (hrun : (messages selectedMultiId).Run bytes p s rs q t)
    (hkept : ∀ r ∈ rs, ¬ r.item.Rebinds msgId) :
    ∀ a, s.lastTimestamp msgId = some a → ∃ b, t.lastTimestamp msgId = some b ∧ a ≤ b := by
  induction hrun with
  | nil => exact fun a ha => ⟨a, ha, Int64.le_refl a⟩
  | @cons p q n s s' t message rs hmore hstep hpos hle hrest ih =>
    intro a ha
    obtain ⟨hfirst, hrs⟩ := List.forall_mem_cons.mp hkept
    obtain ⟨-, -, ty, -, hunderstood⟩ := understood_of_step hmore hstep
    have hnext := hunderstood.next
    have hlast : (s.next selectedMultiId message).lastTimestamp msgId = _ ∨ _ :=
      next_lastTimestamp s hfirst
    rw [← hnext] at hlast
    rcases hlast with hsame | ⟨d, hd, rfl, htime⟩
    · exact ih hrs a (hsame.trans ha)
    · obtain ⟨b, hb, hle⟩ := ih hrs d.tUs htime
      exact ⟨b, hb, Int64.le_trans ((hunderstood.decoded d hd).ordered a ha) hle⟩

end Times

/-! ## 6. A recording -/

section Recording

variable {sha256 : List UInt8 → Digest} {profile : FamilyProfile} {selectedMultiId : UInt8}
  {input : Slice} {report : ReadReport}

/-- The report on some messages. -/
def ReadReport.of (sha256 : List UInt8 → Digest) (profile : FamilyProfile)
    (selectedMultiId : UInt8) (rs : List (Scanned Session Message)) : ReadReport :=
  rs.foldl (fun report r => report.add sha256 profile r.item) { selectedMultiId }

theorem ReadReport.of_concat (rs : List (Scanned Session Message))
    (r : Scanned Session Message) : ReadReport.of sha256 profile selectedMultiId (rs ++ [r]) =
      (ReadReport.of sha256 profile selectedMultiId rs).add sha256 profile r.item := by
  rw [ReadReport.of, List.foldl_append, List.foldl_cons, List.foldl_nil]
  rfl

/-- **Every data record is decoded or kept as it is.** -/
theorem ReadReport.of_counted (rs : List (Scanned Session Message)) :
    (ReadReport.of sha256 profile selectedMultiId rs).dataRecords =
      (ReadReport.of sha256 profile selectedMultiId rs).decodedDataRecords +
        (ReadReport.of sha256 profile selectedMultiId rs).unsupportedRecords.length := by
  induction rs using List.reverseRecOn with
  | nil => rfl
  | append_singleton rs r ih =>
    rw [ReadReport.of_concat]
    cases r.item with
    | unsupported u =>
      simp only [ReadReport.add, List.length_append, List.length_singleton, ih]
      omega
    | decoded d =>
      simp only [ReadReport.add, ih]
      omega
    | _ => exact ih

theorem ReadReport.of_dataRecords (rs : List (Scanned Session Message)) :
    (ReadReport.of sha256 profile selectedMultiId rs).dataRecords =
      rs.countP fun r => r.item.isData := by
  induction rs using List.reverseRecOn with
  | nil => rfl
  | append_singleton rs r ih =>
    rw [ReadReport.of_concat, List.countP_append, List.countP_singleton]
    cases r.item with
    | unsupported u => exact congrArg (· + 1) ih
    | decoded d => exact congrArg (· + 1) ih
    | _ => exact ih

theorem ReadReport.mem_of_unsupported {rs : List (Scanned Session Message)}
    {u : UnsupportedRecord}
    (h : u ∈ (ReadReport.of sha256 profile selectedMultiId rs).unsupportedRecords) :
    ∃ r ∈ rs, r.item = .unsupported u := by
  induction rs using List.reverseRecOn with
  | nil => cases h
  | append_singleton rs r ih =>
    rw [ReadReport.of_concat] at h
    have hold (h : u ∈ (ReadReport.of sha256 profile selectedMultiId rs).unsupportedRecords) :
        ∃ r' ∈ rs ++ [r], r'.item = .unsupported u :=
      have ⟨r', hr', hitem⟩ := ih h
      ⟨r', List.mem_append_left _ hr', hitem⟩
    cases hr : r.item with
    | unsupported u' =>
      rw [hr] at h
      rcases List.mem_append.mp h with h | h
      · exact hold h
      · rw [List.mem_singleton.mp h]
        exact ⟨r, List.mem_append_right _ List.mem_cons_self, hr⟩
    | _ =>
      rw [hr] at h
      exact hold h

/-- A recording of the version that is read. -/
def IsHeader (bytes : List UInt8) : Prop :=
  16 ≤ bytes.length ∧ bytes.take 7 = magic ∧ bytes[7]? = some 1

/-- The messages of a whole recording: a run of the reader from the end of the header to the last
byte. -/
def Recorded (selectedMultiId : UInt8) (bytes : List UInt8)
    (rs : List (Scanned Session Message)) : Prop :=
  ∃ s, (messages selectedMultiId).Run bytes 16 .new rs bytes.length s

theorem safe_add (report : ReadReport) (r : Scanned Session Message) :
    Safe (pure (report.add sha256 profile r.item) : Checked ReadError ReadReport) fun _ => True :=
  safe_pure trivial

/-- **A reading returns exactly when there are messages up to the end**, and then it is the report
on them. -/
theorem readInstanceReport_eq_ok :
    readInstanceReport sha256 profile input selectedMultiId = .ok report ↔
      profile.format = "px4_ulog" ∧ IsHeader input.bytes ∧
        ∃ rs, Recorded selectedMultiId input.bytes rs ∧
          report = .of sha256 profile selectedMultiId rs := by
  unfold readInstanceReport IsHeader
  split
  · next hrefused => exact iff_of_false (fun h => by cases h) fun h => hrefused h.1
  next hformat =>
  rw [not_not] at hformat
  split
  · next hrefused =>
    refine iff_of_false (fun h => by cases h) fun h => ?_
    rcases hrefused with hshort | hmagic
    · exact absurd h.2.1.1 (by omega)
    · exact hmagic h.2.1.2.1
  next hheader =>
  rw [not_or, not_lt, not_not] at hheader
  obtain ⟨hlong, hmagic⟩ := hheader
  have hkeeps : (messages selectedMultiId).Keeps _ := keeps_messages
  have hscan (q : ℕ) (s : Session) (built : ReadReport) :
      ((messages selectedMultiId).feed fun report r =>
        pure (report.add sha256 profile r.item)).scan input.bytes 16 (.new, { selectedMultiId }) =
          .ok (q, s, built) ↔
        ∃ rs, (messages selectedMultiId).Run input.bytes 16 .new rs q s ∧
          (messages selectedMultiId).more (input.bytes.drop q) = false ∧
          built = .of sha256 profile selectedMultiId rs := by
    rw [Scanner.scan_feed_eq_ok hkeeps safe_add trivial hlong]
    simp only [List.foldlM_pure]
    refine exists_congr fun rs => and_congr_right fun _ => and_congr_right fun _ => ?_
    exact ⟨fun h => (Except.ok.inj h).symm, fun h => congrArg Except.ok h.symm⟩
  have hseven : 7 < input.bytes.length := by omega
  rw [index_eq hseven, ok_bind, List.getElem?_eq_getElem hseven]
  split
  · next hversion =>
    refine iff_of_false (fun h => by cases h) fun h => ?_
    exact hversion (Option.some.inj h.2.1.2.2)
  next hversion =>
  rw [not_not] at hversion
  constructor
  · intro h
    obtain ⟨⟨q, s, built⟩, hok, h⟩ := bind_eq_ok.mp h
    obtain ⟨rs, hrun, -, rfl⟩ := (hscan q s built).mp hok
    dsimp only at h
    split at h
    · cases h
    next hend =>
    rw [not_not] at hend
    subst hend
    cases h
    exact ⟨hformat, ⟨hlong, hmagic, congrArg some hversion⟩, rs, ⟨s, hrun⟩, rfl⟩
  · rintro ⟨-, -, rs, ⟨s, hrun⟩, rfl⟩
    have hok := (hscan input.bytes.length s _).mpr ⟨rs, hrun, by simp [messages], rfl⟩
    rw [hok, ok_bind]
    exact if_neg (not_not.mpr rfl)

theorem safe_readInstanceReport :
    Safe (readInstanceReport sha256 profile input selectedMultiId) fun _ => True := by
  unfold readInstanceReport
  refine Safe.guard fun _ => Safe.guard fun hheader => ?_
  rw [not_or, not_lt] at hheader
  refine (safe_index (by omega)).bind fun _ _ => Safe.guard fun _ => ?_
  have hkeeps : (messages selectedMultiId).Keeps _ := keeps_messages
  refine (Scanner.safe_scan (hkeeps.feed safe_add) trivial hheader.1).bind ?_
  rintro ⟨q, s, built⟩ -
  exact Safe.guard fun _ => safe_pure trivial

/-- What the report on a recording accounts for: every byte is in one message, data messages are
the data records, and those are decoded with the type of the last subscription of their id or kept
as they are. -/
structure Accounted (selectedMultiId : UInt8) (bytes : List UInt8)
    (rs : List (Scanned Session Message)) (report : ReadReport) : Prop where
  /-- The messages cover all that is behind the header. -/
  tiles : EndToEnd Scanned.start Scanned.stop 16 rs bytes.length
  /-- Each is as long as it says, and of the kind that its letter says. -/
  framed : ∀ r ∈ rs, r.stop - r.start = 3 + ofLeBytes ((bytes.drop r.start).take 2) ∧
    ∃ ty, bytes[r.start + 2]? = some ty ∧ (r.item.isData = true ↔ letter ty = 'D')
  /-- The data records are the data messages. -/
  data : report.dataRecords = rs.countP fun r => r.item.isData
  counted : report.dataRecords = report.decodedDataRecords + report.unsupportedRecords.length
  verbatim : ∀ u ∈ report.unsupportedRecords, ∃ r ∈ rs, r.item = .unsupported u ∧
    u.offset = r.start ∧ u.bytes = (bytes.drop r.start).take (r.stop - r.start)
  /-- Data are decoded with what the last subscription of their id has bound it to. -/
  decoded : ∀ before r after d, rs = before ++ r :: after → r.item = .decoded d →
    DecodedFrom r.before r.start
        (((bytes.drop r.start).take (r.stop - r.start)).drop 3) d ∧
      BoundBy selectedMultiId (before.map Scanned.item) d.msgId d.binding
  /-- Times under an id only grow until the id is bound anew. -/
  ordered : ∀ before r between r' after d d', rs = before ++ r :: between ++ r' :: after →
    r.item = .decoded d → r'.item = .decoded d' → d.msgId = d'.msgId →
    (∀ m ∈ between, ¬ m.item.Rebinds d.msgId) → d.tUs ≤ d'.tUs

variable {bytes : List UInt8} {rs : List (Scanned Session Message)}

theorem Recorded.understood (h : Recorded selectedMultiId bytes rs) {r : Scanned Session Message}
    (hr : r ∈ rs) :
    r.stop - r.start = 3 + ofLeBytes ((bytes.drop r.start).take 2) ∧
      ∃ ty t, bytes[r.start + 2]? = some ty ∧
        Understood selectedMultiId r.before r.start ty
          (((bytes.drop r.start).take (r.stop - r.start)).drop 3)
          ((bytes.drop r.start).take (r.stop - r.start)) r.item t := by
  obtain ⟨s, hrun⟩ := h
  obtain ⟨t, hreads⟩ := hrun.reads r hr
  obtain ⟨hn, -, ty, hty, hunderstood⟩ := understood_of_step hreads.more hreads.step
  rw [List.getElem?_drop] at hty
  exact ⟨hn, ty, t, hty, hunderstood⟩

/-- Before a message there is what the messages before it have said. -/
theorem Recorded.before_eq {before after : List (Scanned Session Message)}
    {r : Scanned Session Message} (h : Recorded selectedMultiId bytes (before ++ r :: after)) :
    r.before = (before.map Scanned.item).foldl (Session.next selectedMultiId) .new := by
  obtain ⟨s, hrun⟩ := h
  exact hrun.before_eq next_of_step

theorem Recorded.ordered {before between after : List (Scanned Session Message)}
    {r r' : Scanned Session Message} {d d' : DataRecord}
    (h : Recorded selectedMultiId bytes (before ++ r :: between ++ r' :: after))
    (hr : r.item = .decoded d) (hr' : r'.item = .decoded d') (hid : d.msgId = d'.msgId)
    (hkept : ∀ m ∈ between, ¬ m.item.Rebinds d.msgId) : d.tUs ≤ d'.tUs := by
  obtain ⟨hn, ty, t', hty, hsecond⟩ := h.understood (List.mem_append_right _ List.mem_cons_self)
  obtain ⟨s, hrun⟩ := h
  obtain ⟨q, u, hfront, hback⟩ := hrun.of_append
  obtain ⟨p, t, -, hmiddle⟩ := hfront.of_append
  cases hmiddle with
  | cons hmore hstep hpos hle hbetween =>
    -- the first of the two leaves its time, and the second comes upon what is left of it
    have hleft := next_of_step hmore hstep
    dsimp only at hr hbetween
    rw [hr] at hleft
    have hlast : (t.next selectedMultiId (.decoded d)).lastTimestamp d.msgId = some d.tUs :=
      Function.update_self _ _ _
    rw [← hleft] at hlast
    obtain ⟨last, hu, hgrown⟩ := lastTimestamp_mono hbetween hkept d.tUs hlast
    have hbefore : r'.before = u := by
      cases hback
      rfl
    refine Int64.le_trans hgrown ((hsecond.decoded d' hr').ordered last ?_)
    rw [hbefore, ← hid]
    exact hu

theorem accounted_of_recorded (h : Recorded selectedMultiId bytes rs) :
    Accounted selectedMultiId bytes rs (.of sha256 profile selectedMultiId rs) where
  tiles := have ⟨_, hrun⟩ := h
    hrun.endToEnd
  framed r hr :=
    have ⟨hn, ty, _, hty, hunderstood⟩ := h.understood hr
    ⟨hn, ty, hty, hunderstood.data⟩
  data := ReadReport.of_dataRecords rs
  counted := ReadReport.of_counted rs
  verbatim u hu := by
    obtain ⟨r, hr, hitem⟩ := ReadReport.mem_of_unsupported hu
    obtain ⟨-, _, _, -, hunderstood⟩ := h.understood hr
    exact ⟨r, hr, hitem, hunderstood.verbatim u hitem⟩
  decoded before r after d hrs hitem := by
    subst hrs
    have hr : r ∈ before ++ r :: after := List.mem_append_right _ List.mem_cons_self
    obtain ⟨-, _, _, -, hunderstood⟩ := h.understood hr
    have hfrom := hunderstood.decoded d hitem
    refine ⟨hfrom, boundBy_of_subs ?_⟩
    rw [← h.before_eq]
    exact hfrom.binding
  ordered before r between r' after d d' hrs hr hr' hid hkept := by
    subst hrs
    exact h.ordered hr hr' hid hkept

/-- **A recording is read without a panic, and the report that is returned accounts for all of
it.** The messages tile the recording behind its header; each data message is decoded with what
its id was bound to at its place, at a time that is no earlier than the last, or is kept with its
bytes; and the counts of the report are those of the messages.  The input is any byte string, and
the selected instance any number. -/
theorem recording_accounted (sha256 : List UInt8 → Digest) (profile : FamilyProfile)
    (input : Slice) (selectedMultiId : UInt8) :
    Safe (readInstanceReport sha256 profile input selectedMultiId) fun report =>
      IsHeader input.bytes ∧ ∃ rs, Recorded selectedMultiId input.bytes rs ∧
        report = .of sha256 profile selectedMultiId rs ∧
        Accounted selectedMultiId input.bytes rs report := by
  refine safe_readInstanceReport.returned.mono ?_
  rintro report ⟨hread, -⟩
  obtain ⟨-, hheader, rs, hrecorded, rfl⟩ := readInstanceReport_eq_ok.mp hread
  exact ⟨hheader, rs, hrecorded, rfl, accounted_of_recorded hrecorded⟩

end Recording

end Musubi.Reference.Ulog
