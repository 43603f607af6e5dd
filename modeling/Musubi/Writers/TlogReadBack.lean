/-
# Reading a written TLOG

What the TLOG writer writes, the TLOG reader reads: frame for frame, with the words, counters and
payloads that were put down, and with the values of the events under the names of the messages
(`Tells`).  The reader takes every log of the writer but those with a value that it rejects, which
is a condition on single events (`Readable`).

A frame is read as it was sent because writer and reader agree on three tables: the ids, the
lengths and the seeds of the checksums (`Message.Known`); the checksum itself is `x25_agreement`.
What may go wrong then is a value in the payload, and the reader has few rules of this kind, each
of which is traced back to the event that it came from (`payloadFault_messages`).

The first message with a fault fails the whole reading, so a log is read when no message has one.
What a row tells is compared value by value, under the names that the decoder of the message gives
them.
-/
import Musubi.Reference.Scalars
import Musubi.Reference.TlogRecords
import Musubi.Writers.Tlog

namespace Musubi.Writers.Tlog

open Lib Lib.Checked Musubi.Core Mavlink Reference Scenario Reference.Tlog

/-! ## 1. Words of a payload -/

theorem bytesAt_middle {n : ℕ} {bytes : List UInt8} (hn : bytes.length = n)
    (front rest : List UInt8) : bytesAt n (front ++ (bytes ++ rest)) front.length = bytes := by
  refine List.ext_getElem (by simp [bytesAt, hn]) fun i _ h2 => ?_
  simp [bytesAt, List.getD_eq_getElem?_getD, List.getElem?_append_right,
    List.getElem?_append_left h2, h2]

variable {words : List (ℕ × ℕ)} {off : ℕ}

/-- The word at an offset of a packed payload. -/
theorem ofLeBytes_bytesAt {n v : ℕ} (h : wordAt words off n = some v) (hv : v < 256 ^ n) :
    ofLeBytes (bytesAt n (pack words) off) = v := by
  obtain ⟨front, rest, hpack, rfl⟩ := exists_of_wordAt h
  rw [hpack, bytesAt_middle (length_leBytes n v), ofLeBytes_leBytes, Nat.mod_eq_of_lt hv]

theorem u8At_pack (v : UInt8) (h : wordAt words off 1 = some v.toNat) :
    u8At (pack words) off = .ofNat v.toNat := by
  rw [u8At, ofLeBytes_bytesAt h v.toNat_lt]

theorem i8At_pack (v : Int8) (h : wordAt words off 1 = some v.toUInt8.toNat) :
    i8At (pack words) off = v.toInt64 := by
  rw [i8At, ofLeBytes_bytesAt h v.toUInt8.toNat_lt, UInt8.ofNat_toNat]
  rfl

theorem u16At_pack (v : UInt16) (h : wordAt words off 2 = some v.toNat) :
    u16At (pack words) off = .ofNat v.toNat := by
  rw [u16At, ofLeBytes_bytesAt h v.toNat_lt]

theorem u32At_pack (v : UInt32) (h : wordAt words off 4 = some v.toNat) :
    u32At (pack words) off = .ofNat v.toNat := by
  rw [u32At, ofLeBytes_bytesAt h v.toNat_lt]

theorem i32At_pack (v : Int32) (h : wordAt words off 4 = some v.toUInt32.toNat) :
    i32At (pack words) off = v.toInt64 := by
  rw [i32At, ofLeBytes_bytesAt h v.toUInt32.toNat_lt, UInt32.ofNat_toNat]
  rfl

theorem u64At_pack (v : UInt64) (h : wordAt words off 8 = some v.toNat) :
    u64At (pack words) off = v := by
  rw [u64At, ofLeBytes_bytesAt h v.toNat_lt, UInt64.ofNat_toNat]

theorem f32At_pack (v : F32) (h : wordAt words off 4 = some v.bits.toNat) :
    f32At (pack words) off = .ofF32 v := by
  rw [f32At, ofLeBytes_bytesAt h v.bits.toNat_lt, UInt32.ofNat_toNat]

/-! ## 2. One frame -/

/-- A message that the reader knows: its id and its length fit, and its seed is the reader's. -/
structure Message.Known (m : Message) : Prop where
  id_lt : m.id.1.toNat < 2 ^ 24
  length_lt : m.payload.length < 256
  seed : crcExtra m.id.1 = some m.id.2

/-- A sent message as the reader has it. -/
def framed (x : Sent) : Framed where
  recordedWord := x.word
  header := ⟨10, x.message.payload.length, x.message.id.1, false⟩
  wireV2 := true
  payload := x.message.payload
  sequence := x.seq
  systemId := 1
  componentId := 1
  raw := x.frame

theorem length_frame (x : Sent) : x.frame.length = 12 + x.message.payload.length := by
  rw [Sent.frame, List.length_append, length_unsealed, length_leBytes]
  omega

theorem length_bytes (x : Sent) : x.bytes.length = 20 + x.message.payload.length := by
  rw [Sent.bytes, List.length_append, length_beBytes, length_frame]
  omega

/-- **A sent message is read as it was sent**, unless its payload has a fault. -/
theorem readFrame_sent {x : Sent} (hx : x.message.Known) (off : ℕ) (rest : List UInt8) :
    readFrame off (x.bytes ++ rest) =
      match payloadFault off x.message.id.1 x.message.payload with
      | some fault => fail fault
      | none => .ok (framed x) := by
  have hlength := length_bytes x
  have hlong : ¬ (x.bytes ++ rest).length < 8 + 6 := by
    rw [List.length_append]
    omega
  have hfr : (slice (x.bytes ++ rest) 8 (x.bytes ++ rest).length : Checked Malformed _) =
      .ok (x.frame ++ rest) := by
    rw [Scanner.slice_rest (by omega), Sent.bytes, List.append_assoc]
    exact congrArg Except.ok (List.drop_left' (length_beBytes 8 _))
  have hword : UInt64.ofNat (ofBeBytes (bytesAt 8 (x.bytes ++ rest) 0)) = x.word := by
    have h := bytesAt_middle (length_beBytes 8 x.word.toNat) [] (x.frame ++ rest)
    rw [List.length_nil, List.nil_append] at h
    have hlt : x.word.toNat < 256 ^ 8 := x.word.toNat_lt
    rw [Sent.bytes, List.append_assoc, h, ofBeBytes_beBytes, Nat.mod_eq_of_lt hlt,
      UInt64.ofNat_toNat]
  have hheader : readHeader off (x.frame ++ rest) =
      .ok ⟨10, x.message.payload.length, x.message.id.1, false⟩ := by
    rw [Sent.frame, List.append_assoc]
    exact readHeader_unsealed off _ hx.id_lt hx.length_lt
  have hcrc : checkCrc off (x.frame ++ rest)
      ⟨10, x.message.payload.length, x.message.id.1, false⟩ = .ok () :=
    checkCrc_sealed unsealed_ne_nil off hx.seed length_unsealed.symm
  have hmagic : (index (x.frame ++ rest) 0 : Checked Malformed UInt8) = .ok mavlink2Magic := rfl
  have hseq : (index (x.frame ++ rest) 4 : Checked Malformed UInt8) = .ok x.seq := rfl
  have hsystem : (index (x.frame ++ rest) (4 + 1) : Checked Malformed UInt8) = .ok 1 := rfl
  have hcomponent : (index (x.frame ++ rest) (4 + 2) : Checked Malformed UInt8) = .ok 1 := rfl
  have hframe := length_frame x
  have hbehind : (x.frame ++ rest).drop 10 = x.message.payload ++
      leBytes 2 (sealOf (unsealed x.seq x.message.id.1 x.message.payload)
        x.message.id.2).toNat ++ rest := rfl
  have hpayload : (slice (x.frame ++ rest) 10 (10 + x.message.payload.length) :
      Checked Malformed _) = .ok x.message.payload := by
    rw [slice_eq (Nat.le_add_right _ _) (by rw [List.length_append]; omega),
      Nat.add_sub_cancel_left, hbehind, List.append_assoc, List.take_left]
  have htotal : FrameHeader.total ⟨10, x.message.payload.length, x.message.id.1, false⟩ =
      x.frame.length := by
    rw [hframe]
    simp only [FrameHeader.total, Bool.false_eq_true, if_false]
    omega
  have hraw : (slice (x.frame ++ rest) 0 x.frame.length : Checked Malformed _) =
      .ok x.frame := by
    rw [slice_eq (Nat.zero_le _) (by rw [List.length_append]; omega), List.drop_zero,
      Nat.sub_zero, List.take_left]
  have hfits : ¬ (x.frame ++ rest).length < x.frame.length := by
    rw [List.length_append]
    omega
  have hversion : ¬ (mavlink2Magic = mavlink1Magic ∧
      (mavlink1Length x.message.id.1).any (· ≠ x.message.payload.length)) :=
    fun h => absurd h.1 (by decide)
  unfold readFrame
  rw [if_neg hlong, hword, hfr, ok_bind, hheader, ok_bind, hmagic, ok_bind, htotal, if_neg hfits,
    if_neg hversion, hcrc, ok_bind]
  dsimp only
  rw [hpayload, ok_bind]
  cases payloadFault off x.message.id.1 x.message.payload with
  | some fault => rfl
  | none =>
    dsimp only
    rw [if_pos rfl, hseq, ok_bind, hsystem, ok_bind, hcomponent, ok_bind, hraw]
    rfl

/-! ## 3. What the reader takes -/

/-- The reader rejects no value of the event.  It looks at the wall time of a heartbeat, at the
percentages of a system status and at the device clock of a fix. -/
def Readable (timeline : Timeline) (e : Event) : Prop :=
  match e.kind with
  | .heartbeat _ _ => 0 ≤ timeline.wallUs e
  | .sysStatus _ batteryRemaining dropRateComm =>
    -1 ≤ batteryRemaining.toInt ∧ batteryRemaining.toInt ≤ 100 ∧ dropRateComm.toNat ≤ 10000
  | .gpsRawInt _ _ _ _ _ _ _ _ => e.tBootUs.toNat < 2 ^ 63
  | _ => True

instance (timeline : Timeline) (e : Event) : Decidable (Readable timeline e) := by
  rcases e with ⟨_, _, _, _, _, _, _, ⟨⟩⟩ <;> dsimp only [Readable] <;> infer_instance

variable {timeline : Timeline} {e : Event}

/-- The reader knows every message of the writer. -/
theorem known_messages (timeline : Timeline) (mavType : UInt8) (e : Event) :
    ∀ m ∈ messages timeline mavType e, m.Known := by
  have packed {id : UInt32 × UInt8} {words : List (ℕ × ℕ)} (hid : id.1.toNat < 2 ^ 24)
      (hsum : (words.map Prod.fst).sum < 256) (hseed : crcExtra id.1 = some id.2) :
      Message.Known ⟨id, pack words⟩ := ⟨hid, by rwa [length_pack], hseed⟩
  unfold messages
  cases e.kind with
  | heartbeat =>
    refine List.forall_mem_cons.mpr ⟨?_, List.forall_mem_singleton.mpr ?_⟩
    · exact packed (by decide) (by simp) rfl
    · exact packed (by decide) (by simp) rfl
  | sysStatus | gpsRawInt | radioStatus | rcIn | ekfStatus =>
    exact List.forall_mem_singleton.mpr (packed (by decide) (by simp) rfl)
  | globalPositionInt =>
    exact List.forall_mem_singleton.mpr (packed (by decide) (by simp [GpiFields.words]) rfl)
  | statusText severity text =>
    refine List.forall_mem_singleton.mpr ⟨by simp [statustext], ?_, rfl⟩
    rw [statustext, List.length_cons, length_zeroPadded]
    decide
  | modeChange | err | reboot | handsetRow | blackboxRow | videoPresence =>
    exact List.forall_mem_nil _

theorem payloadFault_sysStatus (off : ℕ) (v : UInt16) (b : Int8) (d : UInt16) :
    payloadFault off 1 (sysStatus v b d).payload = none ↔
      -1 ≤ b.toInt ∧ b.toInt ≤ 100 ∧ d.toNat ≤ 10000 := by
  have hlength : (sysStatus v b d).payload.length = 31 := length_pack _
  have hload : u16At (sysStatus v b d).payload 12 = 500 := u16At_pack 500 rfl
  have hbattery : i8At (sysStatus v b d).payload 30 = b.toInt64 := i8At_pack b rfl
  have hdrop : u16At (sysStatus v b d).payload 18 = .ofNat d.toNat := u16At_pack d rfl
  have hd := d.toNat_lt
  have hword : (d.toNat : ℤ).bmod Int64.size = d.toNat :=
    Int.bmod_eq_of_le (by omega) (by simp [Int64.size]; omega)
  simp [payloadFault, hlength, hload, hbattery, hdrop, Int64.lt_iff_toInt_lt,
    Int64.le_iff_toInt_le, hword, and_assoc]

/-- Microseconds have to be those of a signed clock. -/
theorem payloadFault_microseconds (off : ℕ) {id : UInt32} (hid : id = 2 ∨ id = 24)
    (p : List UInt8) : payloadFault off id p = none ↔ (u64At p 0).toNat < 2 ^ 63 := by
  rcases hid with rfl | rfl <;> simp [payloadFault] <;> omega

/-- The other messages have nothing that is checked. -/
theorem payloadFault_unchecked (off : ℕ) {id : UInt32}
    (hid : decide (id ∈ ([0, 33, 65, 109, 193, 253] : List UInt32)) = true) (p : List UInt8) :
    payloadFault off id p = none := by
  replace hid := of_decide_eq_true hid
  simp only [List.mem_cons, List.not_mem_nil, or_false] at hid
  rcases hid with rfl | rfl | rfl | rfl | rfl | rfl <;> simp [payloadFault]

/-- **The reader finds no fault in the messages of an event exactly when it is readable.** -/
theorem payloadFault_messages (hdated : timeline.Dated e) (mavType : UInt8) (off : ℕ) :
    (∀ m ∈ messages timeline mavType e, payloadFault off m.id.1 m.payload = none) ↔
      Readable timeline e := by
  have hwall := hdated.wall
  unfold messages Readable
  cases e.kind with
  | heartbeat customMode systemStatus =>
    rw [List.forall_mem_cons, List.forall_mem_singleton]
    have htime : u64At (systemTime (.ofInt (timeline.wallUs e)) (bootMs e)).payload 0 =
        .ofInt (timeline.wallUs e) := u64At_pack _ rfl
    refine (and_iff_right (payloadFault_unchecked off rfl _)).trans ?_
    refine (payloadFault_microseconds off (Or.inl rfl) _).trans ?_
    rw [htime, toNat_ofInt_lt_iff hwall]
  | sysStatus v b d =>
    exact List.forall_mem_singleton.trans (payloadFault_sysStatus off v b d)
  | gpsRawInt fixType satellites ephCm latE7 lonE7 altMm jamInd timeValid =>
    have htime : u64At (gpsRawInt e.tBootUs latE7 lonE7 altMm ephCm fixType satellites).payload
        0 = e.tBootUs := u64At_pack _ rfl
    refine List.forall_mem_singleton.trans ?_
    refine (payloadFault_microseconds off (Or.inr rfl) _).trans ?_
    rw [htime]
  | globalPositionInt | radioStatus | statusText | rcIn | ekfStatus =>
    exact List.forall_mem_singleton.trans
      (iff_true_intro (payloadFault_unchecked off rfl _))
  | modeChange | err | reboot | handsetRow | blackboxRow | videoPresence =>
    exact iff_true_intro (List.forall_mem_nil _)

/-! ## 4. The run -/

/-- The log as it is read, with or without link tags in its words. -/
def writing (mavproxy : Bool) : Writing Sequences Framed UInt8 Sent where
  write := Sent.bytes
  item := framed
  next sequences off x := (framed x).nextSequences mavproxy off sequences

/-- The reader finds no fault in the message, wherever it stands. -/
def Faultless (x : Sent) : Prop :=
  ∀ off, payloadFault off x.message.id.1 x.message.payload = none

variable {profile : FamilyProfile}

/-- Where a message stands does not make a fault. -/
theorem payloadFault_eq_none (off off' : ℕ) (id : UInt32) (p : List UInt8) :
    payloadFault off id p = none ↔ payloadFault off' id p = none := by
  have hite {c : Prop} [Decidable c] {a : Malformed} {x : Option Malformed} :
      (if c then some a else x) = none ↔ ¬ c ∧ x = none := by
    split <;> simp [*]
  simp only [payloadFault, hite]

theorem exists_fault {x : Sent} (h : ¬ Faultless x) (off : ℕ) :
    ∃ fault, payloadFault off x.message.id.1 x.message.payload = some fault := by
  by_contra hnone
  refine h fun off' => (payloadFault_eq_none off' off _ _).mpr ?_
  exact Option.eq_none_iff_forall_not_mem.mpr fun fault hfault => hnone ⟨fault, hfault⟩

theorem more_bytes (x : Sent) (rest : List UInt8) :
    (records profile).more (x.bytes ++ rest) = true := by
  have hlength := length_bytes x
  have hne : x.bytes ++ rest ≠ [] := List.ne_nil_of_length_pos (by
    rw [List.length_append]
    omega)
  simpa [records] using hne

theorem readBy_writing {x : Sent} (hknown : x.message.Known) (hfault : Faultless x)
    (sequences : Sequences) (off : ℕ) :
    (writing (isMavproxy profile)).ReadBy (records profile) sequences off x := by
  have hlength := length_bytes x
  refine ⟨?_, more_bytes x, fun rest => ?_⟩
  · show 0 < x.bytes.length
    omega
  · have htotal : 8 + (framed x).header.total = x.bytes.length := by
      simp only [framed, FrameHeader.total, Bool.false_eq_true, if_false]
      omega
    show (readFrame off (x.bytes ++ rest) >>= _) = _
    rw [readFrame_sent hknown, hfault off, ok_bind, htotal]
    rfl

theorem mem_number {x : Sent} {ms : List (UInt64 × Message)} :
    ∀ {seq : UInt8}, x ∈ number seq ms → (x.word, x.message) ∈ ms := by
  induction ms with
  | nil =>
    intro seq h
    cases h
  | cons m ms ih =>
    intro seq h
    rcases List.mem_cons.mp h with rfl | h
    · exact List.mem_cons_self
    · exact List.mem_cons_of_mem _ (ih h)

theorem exists_mem_number {m : UInt64 × Message} {ms : List (UInt64 × Message)} (hm : m ∈ ms) :
    ∀ seq, ∃ x ∈ number seq ms, (x.word, x.message) = m := by
  induction ms with
  | nil => cases hm
  | cons first ms ih =>
    intro seq
    rcases List.mem_cons.mp hm with rfl | hm
    · exact ⟨_, List.mem_cons_self, rfl⟩
    · obtain ⟨x, hx, hxm⟩ := ih hm (seq + 1)
      exact ⟨x, List.mem_cons_of_mem _ hx, hxm⟩

variable {assetId : String}

theorem known_of_mem_log {x : Sent} (hx : x ∈ log timeline assetId) : x.message.Known := by
  obtain ⟨e, -, hm⟩ := List.mem_flatMap.mp (mem_number hx)
  obtain ⟨m, hm, hmx⟩ := List.mem_map.mp hm
  obtain rfl : m = x.message := congrArg Prod.snd hmx
  exact known_messages _ _ _ _ hm

/-- **The log has no fault exactly when every event is readable.** -/
theorem faultless_log (hdated : ∀ e ∈ eventsFor timeline assetId .gcs, timeline.Dated e) :
    (∀ x ∈ log timeline assetId, Faultless x) ↔
      ∀ e ∈ eventsFor timeline assetId .gcs, Readable timeline e := by
  constructor
  · intro h e he
    refine (payloadFault_messages (hdated e he)
      (mavTypeOf (eventsFor timeline assetId .gcs)) 0).mp fun m hm => ?_
    have htold : (.ofInt (timeline.wallUs e), m) ∈ (eventsFor timeline assetId .gcs).flatMap
        (told timeline (mavTypeOf (eventsFor timeline assetId .gcs))) :=
      List.mem_flatMap.mpr ⟨e, he, List.mem_map.mpr ⟨m, hm, rfl⟩⟩
    obtain ⟨x, hx, hxm⟩ := exists_mem_number htold 0
    obtain rfl : x.message = m := congrArg Prod.snd hxm
    exact h x hx 0
  · intro h x hx off
    obtain ⟨e, he, hm⟩ := List.mem_flatMap.mp (mem_number hx)
    obtain ⟨m, hm, hmx⟩ := List.mem_map.mp hm
    obtain rfl : m = x.message := congrArg Prod.snd hmx
    exact (payloadFault_messages (hdated e he) _ off).mpr (h e he) _ hm

/-- The records of a log, as the reader has them. -/
def recordsOf (profile : FamilyProfile) (xs : List Sent) : List (Scanned Sequences Framed) :=
  (writing (isMavproxy profile)).scanned 0 (fun _ => none) xs

/-- Messages without a fault are read, whatever comes after them. -/
theorem run_of_faultless (profile : FamilyProfile) {xs : List Sent}
    (hknown : ∀ x ∈ xs, x.message.Known) (hfault : ∀ x ∈ xs, Faultless x) (rest : List UInt8) :
    ∃ sequences, (records profile).Run (xs.flatMap Sent.bytes ++ rest) 0 (fun _ => none)
      (recordsOf profile xs) (xs.flatMap Sent.bytes).length sequences := by
  have hrun := ((writing (isMavproxy profile)).run (S := records profile) (I := fun _ => True)
    rest (fun x hx s p _ => ⟨readBy_writing (hknown x hx) (hfault x hx) s p, trivial⟩)
    [] (s := fun _ => none) trivial).1
  rw [List.nil_append, List.length_nil, Nat.zero_add] at hrun
  exact ⟨_, hrun⟩

variable (sha256 : List UInt8 → Digest) (rc : Bool) {input : Slice}

/-- **A log without a fault is read**: every message has its row. -/
theorem readInternal_faultless (haccepts : Accepts profile)
    (hnone : profile.declaredSender = none) {xs : List Sent}
    (hknown : ∀ x ∈ xs, x.message.Known) (hfault : ∀ x ∈ xs, Faultless x)
    (hinput : input.bytes = xs.flatMap Sent.bytes) :
    readInternal sha256 profile input rc =
      .ok ((recordsOf profile xs).map fun r => row sha256 profile rc r []) := by
  obtain ⟨sequences, hrun⟩ := run_of_faultless profile hknown hfault []
  rw [List.append_nil, ← hinput] at hrun
  exact (readInternal_none hnone).mpr ⟨haccepts, _, ⟨sequences, hrun⟩, rfl⟩

/-- **The first message with a fault fails the reading**, with the fault at its offset. -/
theorem readInternal_fault (haccepts : Accepts profile) (hnone : profile.declaredSender = none)
    {xs more : List Sent} {x : Sent} (hknown : ∀ y ∈ xs ++ x :: more, y.message.Known)
    (hfault : ∀ y ∈ xs, Faultless y) {fault : Malformed}
    (hx : payloadFault (xs.flatMap Sent.bytes).length x.message.id.1 x.message.payload =
      some fault)
    (hinput : input.bytes = (xs ++ x :: more).flatMap Sent.bytes) :
    readInternal sha256 profile input rc = .error (.fail fault.error) := by
  have hrest : (x :: more).flatMap Sent.bytes = x.bytes ++ more.flatMap Sent.bytes := rfl
  rw [List.flatMap_append, hrest] at hinput
  obtain ⟨sequences, hrun⟩ := run_of_faultless profile
    (fun y hy => hknown y (List.mem_append_left _ hy)) hfault
    (x.bytes ++ more.flatMap Sent.bytes)
  rw [← hinput] at hrun
  have hdrop : input.bytes.drop (xs.flatMap Sent.bytes).length =
      x.bytes ++ more.flatMap Sent.bytes := by
    rw [hinput, List.drop_left]
  have hread : readFrame (xs.flatMap Sent.bytes).length (x.bytes ++ more.flatMap Sent.bytes) =
      fail fault := by
    rw [readFrame_sent (hknown x (List.mem_append_right _ List.mem_cons_self)), hx]
  have hemit : (recordsOf profile xs).foldlM (Reference.Tlog.emit sha256 profile rc) ⟨[], 0⟩ =
      .ok _ := foldlM_emit_none hnone _ _
  obtain ⟨fed, hfed⟩ := hrun.feed hemit
  have hmore : (records profile).more (input.bytes.drop (xs.flatMap Sent.bytes).length) =
      true := by
    rw [hdrop]
    exact more_bytes x _
  have hscan := hfed.scan_fail (e := .fail fault) (Nat.zero_le _) hmore (by
    rw [hdrop]
    simp only [Scanner.feed, records, hread]
    rfl)
  rw [readInternal, if_neg (not_not.mpr haccepts), hscan]
  rfl

/-! ## 5. What the rows say -/

/-- The part of a text that a message holds. -/
def cutText (text : String) : String :=
  fromUtf8Lossy ((zeroPadded 50 (utf8 text)).takeWhile (· ≠ 0))

/-- What the messages of an event say, in the words of the reader. -/
def tells (timeline : Timeline) (mavType : UInt8) (e : Event) : List Decoded :=
  let sinceBoot : Option UInt64 := some ((bootMs e).toUInt64 * 1000)
  match e.kind with
  | .heartbeat customMode systemStatus => [
    { channel := .heartbeat
      fields := [
        f "HEARTBEAT.custom_mode" (.ofNat customMode.toNat),
        f "HEARTBEAT.type" (.ofNat mavType.toNat),
        f "HEARTBEAT.system_status" (.ofNat systemStatus.toNat)] },
    { tBootUs := sinceBoot
      anchorUnixUs :=
        if 946684800000000 < timeline.wallUs e then some (.ofInt (timeline.wallUs e)) else none
      fields := [
        f "SYSTEM_TIME.time_unix_usec" (.ofInt (timeline.wallUs e)),
        f "SYSTEM_TIME.time_boot_ms" (.ofNat (bootMs e).toNat)] }]
  | .sysStatus voltageMv batteryRemaining dropRateComm => [
    { channel := .event
      fields := [
        f "SYS_STATUS.voltage_battery" (.ofNat voltageMv.toNat),
        f "SYS_STATUS.battery_remaining" batteryRemaining.toInt64,
        f "SYS_STATUS.drop_rate_comm" (.ofNat dropRateComm.toNat)] }]
  | .gpsRawInt fixType satellites ephCm latE7 lonE7 _ _ _ => [
    { channel := .gpsEkf
      tBootUs := if e.tBootUs < 1000000000000000 then some e.tBootUs else none
      fields := [
        f "GPS_RAW_INT.time_usec" e.tBootUs.toInt64,
        f "GPS_RAW_INT.lat" latE7.toInt64,
        f "GPS_RAW_INT.lon" lonE7.toInt64,
        f "GPS_RAW_INT.eph" (.ofNat ephCm.toNat),
        f "GPS_RAW_INT.fix_type" (.ofNat fixType.toNat),
        f "GPS_RAW_INT.satellites_visible" (.ofNat satellites.toNat)] }]
  | .globalPositionInt latE7 lonE7 altMm _ => [
    { channel := .gpsEkf
      tBootUs := sinceBoot
      fields := [
        f "GLOBAL_POSITION_INT.time_boot_ms" (.ofNat (bootMs e).toNat),
        f "GLOBAL_POSITION_INT.lat" latE7.toInt64,
        f "GLOBAL_POSITION_INT.lon" lonE7.toInt64,
        f "GLOBAL_POSITION_INT.alt" altMm.toInt64] }]
  | .radioStatus rssi remrssi noise rxerrors => [
    { channel := .linkStats
      fields := [
        f "RADIO_STATUS.rxerrors" (.ofNat rxerrors.toNat),
        f "RADIO_STATUS.rssi" (.ofNat rssi.toNat),
        f "RADIO_STATUS.remrssi" (.ofNat remrssi.toNat),
        f "RADIO_STATUS.noise" (.ofNat noise.toNat)] }]
  | .statusText severity text => [
    { channel := .event
      fields := [
        f "STATUSTEXT.severity" (.ofNat severity.toNat),
        Reference.Tlog.text "STATUSTEXT.text" (cutText text)] }]
  | .rcIn chans rssiPct _ valid => [
    { channel := .rc
      tBootUs := sinceBoot
      stale := !valid
      fields := [
        f "RC_CHANNELS.time_boot_ms" (.ofNat (bootMs e).toNat),
        f "RC_CHANNELS.chan1_raw" (.ofNat chans.1.toNat),
        f "RC_CHANNELS.chan3_raw" (.ofNat chans.2.2.1.toNat),
        f "RC_CHANNELS.chancount" (if valid then 4 else 0),
        f "RC_CHANNELS.rssi" (.ofNat (rcRssi rssiPct valid).toNat)] }]
  | .ekfStatus v p _ m solutionStatus _ _ => [
    { channel := .gpsEkf
      fields := [
        ff "EKF_STATUS_REPORT.velocity_variance" (.ofF32 (hundredth v)),
        ff "EKF_STATUS_REPORT.pos_horiz_variance" (.ofF32 (hundredth p)),
        ff "EKF_STATUS_REPORT.compass_variance" (.ofF32 (hundredth m)),
        f "EKF_STATUS_REPORT.flags" (.ofNat (ekfFlags solutionStatus).toNat)] }]
  | _ => []

/-- Under the names of `told` there are its values. -/
def Shows (fields told : Fields) : Prop :=
  ∀ field ∈ told, reported fields field.1 = some field.2

@[simp] theorem shows_nil (fields : Fields) : Shows fields [] := List.forall_mem_nil _

@[simp] theorem shows_cons (fields : Fields) (field : String × FieldValue) (told : Fields) :
    Shows fields (field :: told) ↔ reported fields field.1 = some field.2 ∧ Shows fields told :=
  List.forall_mem_cons

/-- A decoded message says everything that it is to tell: its channel, whether it is stale, its
two clocks, and each value under its name. -/
structure Tells (d t : Decoded) : Prop where
  channel : d.channel = t.channel
  stale : d.stale = t.stale
  tBootUs : d.tBootUs = t.tBootUs
  anchorUnixUs : d.anchorUnixUs = t.anchorUnixUs
  fields : Shows d.fields t.fields

theorem bootUs_pack {words : List (ℕ × ℕ)} {off : ℕ} (v : UInt32)
    (h : wordAt words off 4 = some v.toNat) :
    Reference.Tlog.bootUs (pack words) off = v.toUInt64 * 1000 := by
  have hword : (Int64.ofNat v.toNat).toUInt64 = v.toUInt64 := by
    apply UInt64.toBitVec_inj.mp
    simp
  rw [Reference.Tlog.bootUs, u32At_pack v h, hword]

theorem lt_ofInt_iff {v : ℤ} (hv : InI64 v) (hpos : 0 ≤ v) :
    946684800000000 < UInt64.ofInt v ↔ 946684800000000 < v := by
  have hhigh := hv.2
  have hlt : (v % 2 ^ 64).toNat < 2 ^ 64 := by omega
  have hliteral : (946684800000000 : UInt64).toNat = 946684800000000 := rfl
  rw [UInt64.lt_iff_toNat_lt, UInt64.ofInt, UInt64.toNat_ofNat_of_lt' hlt]
  omega

theorem tells_heartbeat (customMode : UInt32) (mavType systemStatus : UInt8) :
    Tells (Reference.Tlog.heartbeat (heartbeat customMode mavType systemStatus).payload)
      { channel := .heartbeat
        fields := [
          f "HEARTBEAT.custom_mode" (.ofNat customMode.toNat),
          f "HEARTBEAT.type" (.ofNat mavType.toNat),
          f "HEARTBEAT.system_status" (.ofNat systemStatus.toNat)] } := by
  refine ⟨rfl, rfl, rfl, rfl, ?_⟩
  have h0 : u32At (heartbeat customMode mavType systemStatus).payload 0 =
      .ofNat customMode.toNat := u32At_pack customMode rfl
  have h4 : u8At (heartbeat customMode mavType systemStatus).payload 4 =
      .ofNat mavType.toNat := u8At_pack mavType rfl
  have h7 : u8At (heartbeat customMode mavType systemStatus).payload 7 =
      .ofNat systemStatus.toNat := u8At_pack systemStatus rfl
  simp [Reference.Tlog.heartbeat, reported_cons, f, h0, h4, h7]

theorem tells_systemTime {v : ℤ} (hv : InI64 v) (hpos : 0 ≤ v) (boot : UInt32) :
    Tells (Reference.Tlog.systemTime (systemTime (.ofInt v) boot).payload)
      { tBootUs := some (boot.toUInt64 * 1000)
        anchorUnixUs := if 946684800000000 < v then some (.ofInt v) else none
        fields := [
          f "SYSTEM_TIME.time_unix_usec" (.ofInt v),
          f "SYSTEM_TIME.time_boot_ms" (.ofNat boot.toNat)] } := by
  obtain ⟨p, hp⟩ : ∃ p, p = (systemTime (.ofInt v) boot).payload := ⟨_, rfl⟩
  rw [← hp]
  have h0 : u64At p 0 = .ofInt v := hp ▸ u64At_pack _ rfl
  have h8 : u32At p 8 = .ofNat boot.toNat := hp ▸ u32At_pack boot rfl
  have hboot : Reference.Tlog.bootUs p 8 =
      boot.toUInt64 * 1000 := hp ▸ bootUs_pack boot rfl
  refine ⟨rfl, rfl, congrArg some hboot, ?_, ?_⟩
  · rw [Reference.Tlog.systemTime, h0, toInt64_ofInt]
    exact if_congr (lt_ofInt_iff hv hpos) rfl rfl
  · have hfields : (Reference.Tlog.systemTime p).fields =
        [f "SYSTEM_TIME.time_unix_usec" (.ofInt v),
          f "SYSTEM_TIME.time_boot_ms" (.ofNat boot.toNat)] := by
      rw [← toInt64_ofInt, ← h0, ← h8]
      rfl
    rw [hfields]
    simp [reported_cons, f]

theorem tells_sysStatus (v : UInt16) (b : Int8) (d : UInt16) :
    Tells (Reference.Tlog.sysStatus (sysStatus v b d).payload)
      { channel := .event
        fields := [
          f "SYS_STATUS.voltage_battery" (.ofNat v.toNat),
          f "SYS_STATUS.battery_remaining" b.toInt64,
          f "SYS_STATUS.drop_rate_comm" (.ofNat d.toNat)] } := by
  refine ⟨rfl, rfl, rfl, rfl, ?_⟩
  have h14 : u16At (sysStatus v b d).payload 14 = .ofNat v.toNat := u16At_pack v rfl
  have h18 : u16At (sysStatus v b d).payload 18 = .ofNat d.toNat := u16At_pack d rfl
  have h30 : i8At (sysStatus v b d).payload 30 = b.toInt64 := i8At_pack b rfl
  simp [Reference.Tlog.sysStatus, reported_cons, f, h14, h18, h30]

theorem tells_gpsRawInt (t : UInt64) (latE7 lonE7 altMm : Int32) (ephCm : UInt16)
    (fixType satellites : UInt8) :
    Tells (Reference.Tlog.gpsRawInt
        (gpsRawInt t latE7 lonE7 altMm ephCm fixType satellites).payload)
      { channel := .gpsEkf
        tBootUs := if t < 1000000000000000 then some t else none
        fields := [
          f "GPS_RAW_INT.time_usec" t.toInt64,
          f "GPS_RAW_INT.lat" latE7.toInt64,
          f "GPS_RAW_INT.lon" lonE7.toInt64,
          f "GPS_RAW_INT.eph" (.ofNat ephCm.toNat),
          f "GPS_RAW_INT.fix_type" (.ofNat fixType.toNat),
          f "GPS_RAW_INT.satellites_visible" (.ofNat satellites.toNat)] } := by
  obtain ⟨p, hp⟩ :
      ∃ p, p = (gpsRawInt t latE7 lonE7 altMm ephCm fixType satellites).payload := ⟨_, rfl⟩
  rw [← hp]
  have h0 : u64At p 0 = t := hp ▸ u64At_pack t rfl
  have h8 : i32At p 8 = latE7.toInt64 := hp ▸ i32At_pack latE7 rfl
  have h12 : i32At p 12 = lonE7.toInt64 := hp ▸ i32At_pack lonE7 rfl
  have h20 : u16At p 20 = .ofNat ephCm.toNat := hp ▸ u16At_pack ephCm rfl
  have h28 : u8At p 28 = .ofNat fixType.toNat := hp ▸ u8At_pack fixType rfl
  have h29 : u8At p 29 = .ofNat satellites.toNat := hp ▸ u8At_pack satellites rfl
  refine ⟨rfl, rfl, ?_, rfl, ?_⟩
  · simp only [Reference.Tlog.gpsRawInt, h0]
  · simp [Reference.Tlog.gpsRawInt, reported_cons, f, h0, h8, h12, h20, h28, h29]

theorem tells_position (boot : UInt32) (latE7 lonE7 altMm : Int32) (hdgCdeg : UInt16) :
    Tells (Reference.Tlog.globalPositionInt
        (positionMessage boot latE7 lonE7 altMm hdgCdeg).payload)
      { channel := .gpsEkf
        tBootUs := some (boot.toUInt64 * 1000)
        fields := [
          f "GLOBAL_POSITION_INT.time_boot_ms" (.ofNat boot.toNat),
          f "GLOBAL_POSITION_INT.lat" latE7.toInt64,
          f "GLOBAL_POSITION_INT.lon" lonE7.toInt64,
          f "GLOBAL_POSITION_INT.alt" altMm.toInt64] } := by
  obtain ⟨p, hp⟩ : ∃ p, p = (positionMessage boot latE7 lonE7 altMm hdgCdeg).payload := ⟨_, rfl⟩
  rw [← hp]
  have h0 : u32At p 0 = .ofNat boot.toNat := hp ▸ u32At_pack boot rfl
  have h4 : i32At p 4 = latE7.toInt64 := hp ▸ i32At_pack latE7 rfl
  have h8 : i32At p 8 = lonE7.toInt64 := hp ▸ i32At_pack lonE7 rfl
  have h12 : i32At p 12 = altMm.toInt64 := hp ▸ i32At_pack altMm rfl
  have hboot : Reference.Tlog.bootUs p 0 = boot.toUInt64 * 1000 := hp ▸ bootUs_pack boot rfl
  refine ⟨rfl, rfl, congrArg some hboot, rfl, ?_⟩
  simp [Reference.Tlog.globalPositionInt, reported_cons, f, h0, h4, h8, h12]

theorem tells_radioStatus (rssi remrssi noise : UInt8) (rxerrors : UInt16) :
    Tells (Reference.Tlog.radioStatus (radioStatus rssi remrssi noise rxerrors).payload)
      { channel := .linkStats
        fields := [
          f "RADIO_STATUS.rxerrors" (.ofNat rxerrors.toNat),
          f "RADIO_STATUS.rssi" (.ofNat rssi.toNat),
          f "RADIO_STATUS.remrssi" (.ofNat remrssi.toNat),
          f "RADIO_STATUS.noise" (.ofNat noise.toNat)] } := by
  obtain ⟨p, hp⟩ : ∃ p, p = (radioStatus rssi remrssi noise rxerrors).payload := ⟨_, rfl⟩
  rw [← hp]
  have h0 : u16At p 0 = .ofNat rxerrors.toNat := hp ▸ u16At_pack rxerrors rfl
  have h4 : u8At p 4 = .ofNat rssi.toNat := hp ▸ u8At_pack rssi rfl
  have h5 : u8At p 5 = .ofNat remrssi.toNat := hp ▸ u8At_pack remrssi rfl
  have h7 : u8At p 7 = .ofNat noise.toNat := hp ▸ u8At_pack noise rfl
  refine ⟨rfl, rfl, rfl, rfl, ?_⟩
  simp [Reference.Tlog.radioStatus, reported_cons, f, h0, h4, h5, h7]

theorem tells_statustext (severity : UInt8) (text : String) :
    Tells (Reference.Tlog.statustext (statustext severity text).payload)
      { channel := .event
        fields := [
          f "STATUSTEXT.severity" (.ofNat severity.toNat),
          Reference.Tlog.text "STATUSTEXT.text" (cutText text)] } := by
  obtain ⟨p, hp⟩ : ∃ p, p = (statustext severity text).payload := ⟨_, rfl⟩
  rw [← hp]
  have h0 : u8At p 0 = .ofNat severity.toNat := by
    rw [hp]
    rfl
  have h1 : bytesAt 50 p 1 = zeroPadded 50 (utf8 text) := by
    have h := bytesAt_middle (length_zeroPadded 50 (utf8 text)) [severity] []
    rw [List.append_nil] at h
    rw [hp]
    exact h
  refine ⟨rfl, rfl, rfl, rfl, ?_⟩
  simp [Reference.Tlog.statustext, reported_cons, f, Reference.Tlog.text, h0, h1, cutText]

theorem tells_rcChannels (boot : UInt32) (chans : Sticks UInt16) (rssiPct : UInt8)
    (valid : Bool) :
    Tells (Reference.Tlog.rcChannels (rcChannels boot chans (if valid then 4 else 0)
        (rcRssi rssiPct valid)).payload)
      { channel := .rc
        tBootUs := some (boot.toUInt64 * 1000)
        stale := !valid
        fields := [
          f "RC_CHANNELS.time_boot_ms" (.ofNat boot.toNat),
          f "RC_CHANNELS.chan1_raw" (.ofNat chans.1.toNat),
          f "RC_CHANNELS.chan3_raw" (.ofNat chans.2.2.1.toNat),
          f "RC_CHANNELS.chancount" (if valid then 4 else 0),
          f "RC_CHANNELS.rssi" (.ofNat (rcRssi rssiPct valid).toNat)] } := by
  obtain ⟨p, hp⟩ : ∃ p, p = (rcChannels boot chans (if valid then 4 else 0)
      (rcRssi rssiPct valid)).payload := ⟨_, rfl⟩
  rw [← hp]
  have h0 : u32At p 0 = .ofNat boot.toNat := hp ▸ u32At_pack boot rfl
  have h4 : u16At p 4 = .ofNat chans.1.toNat := hp ▸ u16At_pack chans.1 rfl
  have h8 : u16At p 8 = .ofNat chans.2.2.1.toNat := hp ▸ u16At_pack chans.2.2.1 rfl
  have h40 : u8At p 40 = if valid then 4 else 0 := by
    rw [hp, rcChannels, u8At_pack (if valid then 4 else 0) rfl]
    cases valid <;> rfl
  have h41 : u8At p 41 = .ofNat (rcRssi rssiPct valid).toNat := hp ▸ u8At_pack _ rfl
  have hboot : Reference.Tlog.bootUs p 0 = boot.toUInt64 * 1000 := hp ▸ bootUs_pack boot rfl
  refine ⟨rfl, ?_, congrArg some hboot, rfl, ?_⟩
  · simp only [Reference.Tlog.rcChannels, h40]
    cases valid <;> rfl
  · simp [Reference.Tlog.rcChannels, reported_cons, f, h0, h4, h8, h40, h41]

theorem tells_ekfStatusReport (v p m : F32) (flags : UInt16) :
    Tells (Reference.Tlog.ekfStatusReport (ekfStatusReport v p m flags).payload)
      { channel := .gpsEkf
        fields := [
          ff "EKF_STATUS_REPORT.velocity_variance" (.ofF32 v),
          ff "EKF_STATUS_REPORT.pos_horiz_variance" (.ofF32 p),
          ff "EKF_STATUS_REPORT.compass_variance" (.ofF32 m),
          f "EKF_STATUS_REPORT.flags" (.ofNat flags.toNat)] } := by
  obtain ⟨payload, hp⟩ : ∃ payload, payload = (ekfStatusReport v p m flags).payload := ⟨_, rfl⟩
  rw [← hp]
  have h0 : f32At payload 0 = .ofF32 v := hp ▸ f32At_pack v rfl
  have h4 : f32At payload 4 = .ofF32 p := hp ▸ f32At_pack p rfl
  have h12 : f32At payload 12 = .ofF32 m := hp ▸ f32At_pack m rfl
  have h20 : u16At payload 20 = .ofNat flags.toNat := hp ▸ u16At_pack flags rfl
  refine ⟨rfl, rfl, rfl, rfl, ?_⟩
  simp [Reference.Tlog.ekfStatusReport, reported_cons, f, ff, h0, h4, h12, h20]

/-- **The messages of an event tell what it says.** One case for each kind of event, and a lookup
for each value. -/
theorem forall₂_tells (hdated : timeline.Dated e) (hreadable : Readable timeline e)
    (mavType : UInt8) :
    List.Forall₂ (fun m t => Tells (decode m.id.1 m.payload) t) (messages timeline mavType e)
      (tells timeline mavType e) := by
  unfold Readable at hreadable
  unfold messages tells
  cases hkind : e.kind with
  | heartbeat customMode systemStatus =>
    rw [hkind] at hreadable
    exact .cons (tells_heartbeat _ _ _) (.cons (tells_systemTime hdated.wall hreadable _) .nil)
  | sysStatus => exact .cons (tells_sysStatus _ _ _) .nil
  | gpsRawInt => exact .cons (tells_gpsRawInt _ _ _ _ _ _ _) .nil
  | globalPositionInt => exact .cons (tells_position _ _ _ _ _) .nil
  | radioStatus => exact .cons (tells_radioStatus _ _ _ _) .nil
  | statusText => exact .cons (tells_statustext _ _) .nil
  | rcIn => exact .cons (tells_rcChannels _ _ _ _) .nil
  | ekfStatus => exact .cons (tells_ekfStatusReport _ _ _ _) .nil
  | modeChange | err | reboot | handsetRow | blackboxRow | videoPresence => exact .nil

/-! ## 6. Rows -/

/-- What the rows of a log are to tell, each with the word before its frame. -/
def tellings (timeline : Timeline) (assetId : String) : List (UInt64 × Decoded) :=
  let events := eventsFor timeline assetId .gcs
  events.flatMap fun e =>
    (tells timeline (mavTypeOf events) e).map fun t => (.ofInt (timeline.wallUs e), t)

/-- The `i`-th row of a log: its time, what it tells, and its frame as the reader found it. -/
structure RowTells (profile : FamilyProfile) (o : Observation) (i : ℕ) (t : UInt64 × Decoded) :
    Prop where
  time : o.tMs = Reference.Tlog.i64OrMax
    ((if isMavproxy profile then t.1 &&& ~~~3 else t.1).toNat / 1000)
  channel : o.channel = t.2.channel
  stale : o.stale = t.2.stale
  boot : o.tBootUs = t.2.tBootUs
  anchor : o.anchorUnixUs = if isRecorded profile then none else t.2.anchorUnixUs
  fields : Shows o.fields t.2.fields
  sequence : field o "MAVLINK.packet_sequence" = some (byte (.ofNat i))
  system : field o "MAVLINK.system_id" = some (byte 1)
  component : field o "MAVLINK.component_id" = some (byte 1)
  checked : field o "MAVLINK.crc_verified" = some (.i64 1)
  relation : isMavproxy profile = false →
    field o "MAVLINK.recorded_sequence_relation" =
      some (.text (if i = 0 then "FIRST" else "NEXT_MOD256"))

theorem Shows.append {fields told : Fields} (h : Shows fields told) (more : Fields) :
    Shows (fields ++ more) told := by
  intro field hfield
  rw [reported_append, h field hfield, Option.some_or]

/-- The counters before the `i`-th frame of a log. -/
def Before (i : ℕ) (sequences : Sequences) : Prop :=
  match i with
  | 0 => sequences ⟨1, 1, 0⟩ = none
  | j + 1 => ∃ off, sequences ⟨1, 1, 0⟩ = some (.ofNat j, off)

theorem qualified_framed {x : Sent} (hknown : x.message.Known) : (framed x).qualified = true := by
  have hseed : (crcExtra x.message.id.1).isSome = true := by rw [hknown.seed]; rfl
  simp only [Framed.qualified, framed, hseed]
  rfl

theorem before_next {x : Sent} (hknown : x.message.Known) {i : ℕ} (hseq : x.seq = .ofNat i)
    (off : ℕ) (sequences : Sequences) :
    Before (i + 1) ((writing false).next sequences off x) := by
  refine ⟨off, ?_⟩
  show (framed x).nextSequences false off sequences ⟨1, 1, 0⟩ = _
  rw [Framed.nextSequences, if_pos (qualified_framed hknown), ← hseq]
  exact Function.update_self _ _ _

/-- Frame by frame the counter goes up by one. -/
theorem relation_of_before {x : Sent} (hknown : x.message.Known) {i : ℕ}
    (hseq : x.seq = .ofNat i) {sequences : Sequences} (hbefore : Before i sequences) :
    (framed x).relation ((framed x).previous false sequences) =
      if i = 0 then "FIRST" else "NEXT_MOD256" := by
  have hkey : (framed x).sourceKey false = ⟨1, 1, 0⟩ := rfl
  rw [Framed.previous, if_pos (qualified_framed hknown), hkey]
  cases i with
  | zero =>
    have hnone : sequences ⟨1, 1, 0⟩ = none := hbefore
    rw [hnone, Framed.relation, if_pos (qualified_framed hknown), if_pos rfl]
  | succ j =>
    obtain ⟨off, hsome⟩ := hbefore
    have hstep : (framed x).sequence - UInt8.ofNat j = 1 := by
      show x.seq - _ = 1
      rw [hseq, UInt8.ofNat_add, UInt8.add_comm, UInt8.add_sub_cancel]
      rfl
    rw [hsome, if_neg (Nat.succ_ne_zero j)]
    simp only [Framed.relation, hstep]
    rfl

theorem field_relation (r : Scanned Sequences Framed) :
    field (row sha256 profile rc r []) "MAVLINK.recorded_sequence_relation" =
      some (.text (r.item.relation (r.item.previous (isMavproxy profile) r.before))) := by
  rw [field_row sha256 profile rc r [] rfl (by decide), List.append_nil, reported_append]
  unfold Framed.sequenceFields
  cases r.item.previous (isMavproxy profile) r.before <;>
    simp [reported_cons, Reference.Tlog.text, u8Field, f]

theorem rowTells {x : Sent} (hknown : x.message.Known) {t : Decoded} {i : ℕ}
    (htells : Tells (decode x.message.id.1 x.message.payload) t) (hseq : x.seq = .ofNat i)
    {r : Scanned Sequences Framed} (hr : r.item = framed x)
    (hbefore : isMavproxy profile = false → Before i r.before) :
    RowTells profile (row sha256 profile rc r []) i (x.word, t) where
  time := by
    rw [row, hr]
    rfl
  channel := by
    rw [← htells.channel, row, hr]
    rfl
  stale := by
    rw [← htells.stale, row, hr]
    rfl
  boot := by
    rw [← htells.tBootUs, row, hr]
    rfl
  anchor := by
    rw [← htells.anchorUnixUs, row, hr]
    rfl
  fields := by
    rw [row, hr]
    simp only [observation, decodeWith, List.append_assoc]
    exact htells.fields.append _
  sequence := by
    rw [field_packetSequence, hr, ← hseq]
    rfl
  system := by
    rw [field_systemId, hr]
    rfl
  component := by
    rw [field_componentId, hr]
    rfl
  checked := by
    rw [field_crcVerified, hr]
    simp only [framed, hknown.seed]
    rfl
  relation hmavproxy := by
    rw [field_relation, hr, hmavproxy, relation_of_before hknown hseq (hbefore hmavproxy)]

theorem forall₂_rows {ms : List (UInt64 × Message)} {ts : List (UInt64 × Decoded)}
    (h : List.Forall₂ (fun m t => m.2.Known ∧ m.1 = t.1 ∧
      Tells (decode m.2.id.1 m.2.payload) t.2) ms ts) :
    ∀ i p sequences, (isMavproxy profile = false → Before i sequences) →
      List.Forall₂ (fun o t => RowTells profile o t.2 t.1)
        (((writing (isMavproxy profile)).scanned p sequences (number (.ofNat i) ms)).map
          fun r => row sha256 profile rc r [])
        (ts.zipIdx i) := by
  induction h with
  | nil => exact fun i p sequences _ => .nil
  | @cons m t ms ts hmt _ ih =>
    intro i p sequences hbefore
    obtain ⟨word, message⟩ := m
    obtain ⟨t1, t2⟩ := t
    obtain ⟨hknown, hword, htells⟩ := hmt
    obtain rfl : word = t1 := hword
    have hnext : UInt8.ofNat i + 1 = UInt8.ofNat (i + 1) := (UInt8.ofNat_add i 1).symm
    rw [number, hnext, Writing.scanned, List.map_cons, List.zipIdx_cons]
    refine .cons ?_ (ih (i + 1) _ _ fun hmavproxy => ?_)
    · exact rowTells sha256 rc (x := ⟨word, .ofNat i, message⟩) hknown htells rfl rfl hbefore
    · rw [hmavproxy]
      exact before_next (x := ⟨word, .ofNat i, message⟩) hknown rfl p sequences

/-- What is sent and what is told, event by event. -/
theorem forall₂_told (mavType : UInt8) {events : List Event}
    (hdated : ∀ e ∈ events, timeline.Dated e) (hreadable : ∀ e ∈ events, Readable timeline e) :
    List.Forall₂ (fun m t => m.2.Known ∧ m.1 = t.1 ∧ Tells (decode m.2.id.1 m.2.payload) t.2)
      (events.flatMap (told timeline mavType))
      (events.flatMap fun e =>
        (tells timeline mavType e).map fun t => (.ofInt (timeline.wallUs e), t)) := by
  induction events with
  | nil => exact .nil
  | cons e events ih =>
    rw [List.flatMap_cons, List.flatMap_cons]
    refine List.rel_append ?_ (ih (fun e he => hdated e (List.mem_cons_of_mem _ he))
      fun e he => hreadable e (List.mem_cons_of_mem _ he))
    rw [told, List.forall₂_map_left_iff, List.forall₂_map_right_iff]
    have htells := forall₂_tells (hdated e List.mem_cons_self) (hreadable e List.mem_cons_self)
      mavType
    exact (List.forall₂_and_left _ _).mpr
      ⟨known_messages timeline mavType e, htells.imp fun m t h => ⟨rfl, h⟩⟩

/-- A written log is read exactly when its events are readable, and then record for record. -/
theorem readInternal_log (haccepts : Accepts profile) (hnone : profile.declaredSender = none)
    (hrender : render timeline assetId = .ok input.bytes) {obs : List Observation} :
    readInternal sha256 profile input rc = .ok obs ↔
      (∀ e ∈ eventsFor timeline assetId .gcs, Readable timeline e) ∧
      obs = (recordsOf profile (log timeline assetId)).map fun r =>
        row sha256 profile rc r [] := by
  obtain ⟨-, -, hdated, hbytes⟩ := render_eq_ok.mp hrender
  have hknown : ∀ x ∈ log timeline assetId, x.message.Known := fun x hx => known_of_mem_log hx
  rw [← faultless_log hdated]
  by_cases hfault : ∀ x ∈ log timeline assetId, Faultless x
  · rw [readInternal_faultless sha256 rc haccepts hnone hknown hfault hbytes]
    exact ⟨fun h => ⟨hfault, (Except.ok.inj h).symm⟩, fun h => congrArg _ h.2.symm⟩
  · refine iff_of_false (fun hok => ?_) fun h => hfault h.1
    obtain ⟨xs, x, more, hlog, hfirst, hx⟩ := exists_first hfault
    obtain ⟨fault, hx⟩ := exists_fault hx (xs.flatMap Sent.bytes).length
    rw [hlog] at hknown hbytes
    rw [readInternal_fault sha256 rc haccepts hnone hknown hfirst hx hbytes] at hok
    cases hok

/-- **Round trip of a TLOG.** The reader takes what the writer has written exactly when every
event of the ground station is readable.  Then there is one row for each message that the events
stand for, in their order, and it tells what the event says, numbered modulo 256.  `haccepts` is
the reader's own demand on a profile.  `hnone` says that no sender is declared: a profile that
declares another sender than the writer's has a readable log refused. -/
theorem tlog_read_back (haccepts : Accepts profile) (hnone : profile.declaredSender = none)
    (hrender : render timeline assetId = .ok input.bytes) :
    ((∃ obs, readInternal sha256 profile input rc = .ok obs) ↔
      ∀ e ∈ eventsFor timeline assetId .gcs, Readable timeline e) ∧
    ∀ obs, readInternal sha256 profile input rc = .ok obs →
      List.Forall₂ (fun o t => RowTells profile o t.2 t.1) obs
        (tellings timeline assetId).zipIdx := by
  obtain ⟨-, -, hdated, -⟩ := render_eq_ok.mp hrender
  simp only [readInternal_log sha256 rc haccepts hnone hrender]
  refine ⟨⟨fun ⟨_, h, _⟩ => h, fun h => ⟨_, h, rfl⟩⟩, ?_⟩
  rintro obs ⟨hreadable, rfl⟩
  exact forall₂_rows sha256 rc (forall₂_told _ hdated hreadable) 0 0 _ fun _ => rfl

/-- A vehicle that reports its battery a second after its first heartbeat. -/
def exampleTimeline : Timeline where
  t0UnixUs := 1788166800000000
  assets := []
  events := [
    ⟨1000, 38000000, 0, "ugv-01", .ugv, .gcs, .event, .sysStatus 12399 95 0⟩,
    ⟨0, 37000000, 0, "ugv-01", .ugv, .gcs, .heartbeat, .heartbeat 10 4⟩]

def exampleLog : Slice where
  bytes := (log exampleTimeline "ugv-01").flatMap Sent.bytes
  length_lt := by decide +kernel

theorem exampleTimeline_read_back :
    ∃ obs, readInternal (fun _ => .replicate 32 0) exampleProfile exampleLog false = .ok obs ∧
      List.Forall₂ (fun o t => RowTells exampleProfile o t.2 t.1) obs
        (tellings exampleTimeline "ugv-01").zipIdx := by
  have hrender : render exampleTimeline "ugv-01" = .ok exampleLog.bytes := by decide +kernel
  have haccepts : Accepts exampleProfile := by decide
  obtain ⟨hread, htell⟩ := tlog_read_back (fun _ => .replicate 32 0) false haccepts rfl hrender
  obtain ⟨obs, hobs⟩ := hread.mpr (by decide)
  exact ⟨obs, hobs, htell obs hobs⟩

end Musubi.Writers.Tlog
