/-
# How deep a JSON text is nested

`quarantine.rs`, `reject_if_json_nesting_exceeds`: a scan of the bytes that counts brackets
outside of strings, before a text is parsed.  A scanner that starts on a part of a text at some
depth comes out of it at that depth, unless the part is nested too deep from there; and it closes
nothing that the part has not opened.

The scan knows no grammar.  It keeps a depth and two flags, whether it is in a string and whether
the byte before was a backslash, and it takes bytes and not characters.  That it finds the depth
of the VALUE rests on three facts: a byte of a character beyond ASCII is never a bracket, a quote
or a backslash, so a character is passed over as a whole (section 3); in a string an escape takes
the scanner over a quote and to the end where the grammar ends it (section 4); and outside of
strings nothing but arrays and objects has brackets (section 5).

The induction is over the derivation of the text in the grammar of `Lib.JsonText`, one case for
each production.  `Skips` is its statement: from any depth the part is rejected when depth and
nesting add up to more than the limit, and passed over otherwise.

Of a text that is no JSON nothing is said.  There the scan may reject or accept, and the parser
behind it refuses in either case.
-/
import Mathlib.Data.Bool.AllAny
import Musubi.Lib.JsonText
import Musubi.Lib.Utf8

namespace Musubi.Core

open Lib JsonText

/-! ## 1. The source -/

structure JsonNestingExceeded where
  maxDepth : ℕ
deriving DecidableEq, Repr

structure Scanner where
  depth : ℕ := 0
  inString : Bool := false
  escaped : Bool := false
deriving DecidableEq

/-- `b'{' | b'['`. -/
def opens (b : UInt8) : Prop := b = 0x7B ∨ b = 0x5B

/-- `b'}' | b']'`. -/
def closes (b : UInt8) : Prop := b = 0x7D ∨ b = 0x5D

instance (b : UInt8) : Decidable (opens b) := inferInstanceAs (Decidable (_ ∨ _))

instance (b : UInt8) : Decidable (closes b) := inferInstanceAs (Decidable (_ ∨ _))

/-- One byte: `"` is `0x22` and the backslash is `0x5C`. -/
def scanByte (maxDepth : ℕ) (s : Scanner) (b : UInt8) : Except JsonNestingExceeded Scanner :=
  if s.inString then
    if s.escaped then .ok { s with escaped := false }
    else if b = 0x5C then .ok { s with escaped := true }
    else if b = 0x22 then .ok { s with inString := false }
    else .ok s
  else if b = 0x22 then .ok { s with inString := true }
  else if opens b then
    if maxDepth < s.depth + 1 then .error ⟨maxDepth⟩
    else .ok { s with depth := s.depth + 1 }
  else if closes b then .ok { s with depth := s.depth - 1 }
  else .ok s

def scan (maxDepth : ℕ) (s : Scanner) (bytes : List UInt8) : Except JsonNestingExceeded Scanner :=
  bytes.foldlM (scanByte maxDepth) s

def rejectIfJsonNestingExceeds (bytes : List UInt8) (maxDepth : ℕ) :
    Except JsonNestingExceeded Unit :=
  (scan maxDepth {} bytes).map fun _ => ()

/-! ## 2. Parts of a text -/

/-- A bracket is closed that nothing has opened.  The source subtracts one from the depth there,
and saturates. -/
def Underflows (s : Scanner) (b : UInt8) : Prop := s.inString = false ∧ closes b ∧ s.depth = 0

/-- No byte of these underflows. -/
def Safe (maxDepth : ℕ) (s : Scanner) : List UInt8 → Prop
  | [] => True
  | b :: bytes =>
    ¬ Underflows s b ∧ ∀ s', scanByte maxDepth s b = .ok s' → Safe maxDepth s' bytes

variable {maxDepth : ℕ}

/-- A scanner that passes over some bytes: from the first state to the second, whatever comes
after them, and without an underflow on the way. -/
structure Passes (maxDepth : ℕ) (s : Scanner) (bytes : List UInt8) (s' : Scanner) : Prop where
  scan_eq : ∀ rest, scan maxDepth s (bytes ++ rest) = scan maxDepth s' rest
  safe : ∀ rest, Safe maxDepth s' rest → Safe maxDepth s (bytes ++ rest)

theorem passes_nil (s : Scanner) : Passes maxDepth s [] s := ⟨fun _ => rfl, fun _ h => h⟩

theorem passes_byte {s s' : Scanner} {b : UInt8} (hstep : scanByte maxDepth s b = .ok s')
    (hsafe : ¬ Underflows s b) : Passes maxDepth s [b] s' := by
  refine ⟨fun rest => ?_, fun rest h => ⟨hsafe, fun s'' h'' => ?_⟩⟩
  · rw [List.singleton_append, scan, List.foldlM_cons, hstep]
    rfl
  · rw [hstep] at h''
    cases h''
    exact h

theorem Passes.append {s s' s'' : Scanner} {a b : List UInt8} (ha : Passes maxDepth s a s')
    (hb : Passes maxDepth s' b s'') : Passes maxDepth s (a ++ b) s'' := by
  refine ⟨fun rest => ?_, fun rest h => ?_⟩
  · rw [List.append_assoc, ha.scan_eq, hb.scan_eq]
  · rw [List.append_assoc]
    exact ha.safe _ (hb.safe _ h)

/-- Bytes that the scanner does not see. -/
theorem passes_unseen {s : Scanner} {bytes : List UInt8}
    (h : ∀ b ∈ bytes, scanByte maxDepth s b = .ok s ∧ ¬ Underflows s b) :
    Passes maxDepth s bytes s := by
  induction bytes with
  | nil => exact passes_nil s
  | cons b bytes ih =>
    rcases List.forall_mem_cons.mp h with ⟨⟨hstep, hsafe⟩, hrest⟩
    exact (passes_byte hstep hsafe).append (ih hrest)

/-- The bytes of some characters. -/
def encode (t : List Char) : List UInt8 := t.flatMap String.utf8EncodeChar

theorem encode_append (s t : List Char) : encode (s ++ t) = encode s ++ encode t :=
  List.flatMap_append

theorem encode_cons (c : Char) (t : List Char) : encode (c :: t) = encode [c] ++ encode t :=
  encode_append [c] t

/-- A part of a text that is nested `n` deep: the scanner rejects it or passes over it. -/
structure Skips (maxDepth n : ℕ) (t : List Char) : Prop where
  scan_eq : ∀ {d : ℕ} (rest : List UInt8), d ≤ maxDepth →
    scan maxDepth { depth := d } (encode t ++ rest) =
      if maxDepth < d + n then .error ⟨maxDepth⟩ else scan maxDepth { depth := d } rest
  safe : ∀ {d : ℕ} {rest : List UInt8}, d ≤ maxDepth → Safe maxDepth { depth := d } rest →
    Safe maxDepth { depth := d } (encode t ++ rest)

theorem skips_of_passes {t : List Char}
    (h : ∀ d, Passes maxDepth { depth := d } (encode t) { depth := d }) : Skips maxDepth 0 t := by
  refine ⟨fun {d} rest hd => ?_, fun _ hrest => (h _).safe _ hrest⟩
  rw [if_neg (by omega)]
  exact (h d).scan_eq rest

theorem Skips.append {m n : ℕ} {s t : List Char} (hs : Skips maxDepth m s)
    (ht : Skips maxDepth n t) : Skips maxDepth (max m n) (s ++ t) := by
  refine ⟨fun {d} rest hd => ?_, fun hd h => ?_⟩
  · rw [encode_append, List.append_assoc, hs.scan_eq _ hd, ht.scan_eq _ hd]
    by_cases hm : maxDepth < d + m
    · rw [if_pos hm, if_pos (by omega)]
    · rw [if_neg hm]
      exact if_congr (by omega) rfl rfl
  · rw [encode_append, List.append_assoc]
    exact hs.safe hd (ht.safe hd h)

/-! ## 3. What the scanner does not see -/

/-- The characters that it sees outside of strings. -/
def seen : List Char := ['"', '{', '}', '[', ']']

theorem byte_ne_of_mem {c d : Char} {b : UInt8} (hb : b ∈ String.utf8EncodeChar d)
    (hc : c.toNat < 0x80) (hne : d ≠ c) : b ≠ UInt8.ofNat c.toNat := by
  rintro rfl
  exact hne ((mem_utf8EncodeChar hc).mp hb)

theorem skips_unseen {t : List Char} (h : ∀ c ∈ t, c ∉ seen) : Skips maxDepth 0 t := by
  refine skips_of_passes fun d => passes_unseen fun b hb => ?_
  obtain ⟨c, hc, hmem⟩ := List.mem_flatMap.mp hb
  have hne (d : Char) (hd : d ∈ seen) (hascii : d.toNat < 0x80) : b ≠ UInt8.ofNat d.toNat :=
    byte_ne_of_mem hmem hascii fun heq => h c hc (heq ▸ hd)
  have hquote : b ≠ 0x22 := hne '"' (by decide) (by decide)
  have hopens : ¬ opens b := by
    rintro (hb | hb)
    · exact hne '{' (by decide) (by decide) hb
    · exact hne '[' (by decide) (by decide) hb
  have hcloses : ¬ closes b := by
    rintro (hb | hb)
    · exact hne '}' (by decide) (by decide) hb
    · exact hne ']' (by decide) (by decide) hb
  refine ⟨?_, fun hunder => hcloses hunder.2.1⟩
  rw [scanByte, if_neg (by simp), if_neg hquote, if_neg hopens, if_neg hcloses]

theorem skips_ws {w : List Char} (hw : IsWs w) : Skips maxDepth 0 w := by
  refine skips_unseen fun c hc hseen => ?_
  have hws := hw c hc
  simp only [seen, List.mem_cons, List.not_mem_nil, or_false] at hseen
  rcases hseen with rfl | rfl | rfl | rfl | rfl <;> exact absurd hws (by decide)

/-- The characters of numbers. -/
theorem numberChar_of_mem {t : List Char} (ht : IsNumber t) :
    ∀ c ∈ t, c.isDigit = true ∨ c ∈ ['-', '+', '.', 'e', 'E'] := by
  obtain ⟨sign, int, fraction, exponent, hsign, hint, hfraction, hexponent, rfl⟩ := ht
  intro c hc
  simp only [List.mem_append, or_assoc] at hc
  rcases hc with hc | hc | hc | hc
  · rcases hsign with rfl | rfl
    · cases hc
    · rw [List.mem_singleton.mp hc]
      decide
  · cases hint with
    | zero =>
      rw [List.mem_singleton.mp hc]
      decide
    | digits hdigit hzero hrest =>
      rcases List.mem_cons.mp hc with rfl | hc
      · exact .inl hdigit
      · exact .inl (hrest c hc)
  · cases hfraction with
    | none => cases hc
    | digits hdigits =>
      rcases List.mem_cons.mp hc with rfl | hc
      · exact .inr (by decide)
      · exact .inl (hdigits.2 c hc)
  · cases hexponent with
    | none => cases hc
    | digits he hsign hdigits =>
      rcases List.mem_append.mp hc with hc | hc
      · rcases List.mem_cons.mp hc with rfl | hc
        · rcases he with rfl | rfl <;> exact .inr (by decide)
        · rcases hsign with rfl | rfl | rfl
          · cases hc
          · rw [List.mem_singleton.mp hc]
            decide
          · rw [List.mem_singleton.mp hc]
            decide
      · exact .inl (hdigits.2 c hc)

theorem skips_number {t : List Char} (ht : IsNumber t) : Skips maxDepth 0 t := by
  refine skips_unseen fun c hc hseen => ?_
  have hnumber := numberChar_of_mem ht c hc
  simp only [seen, List.mem_cons, List.not_mem_nil, or_false] at hseen
  rcases hseen with rfl | rfl | rfl | rfl | rfl <;> exact absurd hnumber (by decide)

/-! ## 4. Strings -/

/-- In a string, a byte that neither ends it nor escapes. -/
theorem passes_inString {d : ℕ} {bytes : List UInt8} (h : ∀ b ∈ bytes, b ≠ 0x22 ∧ b ≠ 0x5C) :
    Passes maxDepth { depth := d, inString := true } bytes { depth := d, inString := true } := by
  refine passes_unseen fun b hb => ⟨?_, fun hunder => Bool.noConfusion hunder.1⟩
  rw [scanByte, if_pos rfl, if_neg (by simp), if_neg (h b hb).2, if_neg (h b hb).1]

/-- An escape in a string, whatever its byte is. -/
theorem passes_backslash (d : ℕ) (b : UInt8) :
    Passes maxDepth { depth := d, inString := true } [0x5C, b]
      { depth := d, inString := true } := by
  refine Passes.append (passes_byte rfl ?_) (passes_byte rfl ?_)
  · rintro ⟨h, -⟩
    cases h
  · rintro ⟨h, -⟩
    cases h

theorem passes_body {t : List Char} (ht : Body t) (d : ℕ) :
    Passes maxDepth { depth := d, inString := true } (encode t)
      { depth := d, inString := true } := by
  induction ht with
  | nil => exact passes_nil _
  | @plain c t hquote hbackslash hcontrol ht ih =>
    rw [encode_cons]
    refine Passes.append (passes_inString fun b hb => ?_) ih
    rw [encode, List.flatMap_singleton] at hb
    exact ⟨byte_ne_of_mem (c := '"') hb (by decide) hquote,
      byte_ne_of_mem (c := '\\') hb (by decide) hbackslash⟩
  | @escape e t he ht ih =>
    have hbyte : ∃ b, encode [e] = [b] := by
      simp only [escapeLetters, List.mem_cons, List.not_mem_nil, or_false] at he
      rcases he with rfl | rfl | rfl | rfl | rfl | rfl | rfl | rfl <;> exact ⟨_, rfl⟩
    obtain ⟨b, hb⟩ := hbyte
    rw [encode_cons '\\' (e :: t), encode_cons e t, hb]
    exact (passes_backslash d b).append ih
  | @unicode h₁ h₂ h₃ h₄ t hs ht ih =>
    have hhex : ∀ b ∈ encode [h₁, h₂, h₃, h₄], b ≠ 0x22 ∧ b ≠ 0x5C := by
      intro b hb
      obtain ⟨h, hh, hmem⟩ := List.mem_flatMap.mp hb
      have hdigit := hs h hh
      constructor
      · refine byte_ne_of_mem (c := '"') hmem (by decide) ?_
        rintro rfl
        exact absurd hdigit (by decide)
      · refine byte_ne_of_mem (c := '\\') hmem (by decide) ?_
        rintro rfl
        exact absurd hdigit (by decide)
    have hsplit : encode ('\\' :: 'u' :: h₁ :: h₂ :: h₃ :: h₄ :: t) =
        [0x5C, 0x75] ++ (encode [h₁, h₂, h₃, h₄] ++ encode t) := by
      rw [← encode_append]
      rfl
    rw [hsplit]
    exact (passes_backslash d 0x75).append ((passes_inString hhex).append ih)

theorem skips_string {t : List Char} (ht : Body t) : Skips maxDepth 0 ('"' :: t ++ ['"']) := by
  refine skips_of_passes fun d => ?_
  have hsplit : encode ('"' :: t ++ ['"']) = [0x22] ++ (encode t ++ [0x22]) := by
    rw [encode_append, encode_cons]
    rfl
  rw [hsplit]
  refine Passes.append (passes_byte rfl ?_) ((passes_body ht d).append (passes_byte rfl ?_))
  · rintro ⟨-, h, -⟩
    exact absurd h (by decide)
  · rintro ⟨h, -⟩
    cases h

/-! ## 5. Containers -/

theorem scanByte_opens {b : UInt8} (h : opens b) (d : ℕ) : scanByte maxDepth { depth := d } b =
    if maxDepth < d + 1 then .error ⟨maxDepth⟩ else .ok { depth := d + 1 } := by
  have hquote : b ≠ 0x22 := by rcases h with rfl | rfl <;> decide
  rw [scanByte, if_neg (by simp), if_neg hquote, if_pos h]

theorem scanByte_closes {b : UInt8} (h : closes b) (d : ℕ) :
    scanByte maxDepth { depth := d } b = .ok { depth := d - 1 } := by
  have hquote : b ≠ 0x22 := by rcases h with rfl | rfl <;> decide
  have hopens : ¬ opens b := by rcases h with rfl | rfl <;> decide
  rw [scanByte, if_neg (by simp), if_neg hquote, if_neg hopens, if_pos h]

/-- A part between brackets is nested one deeper. -/
theorem Skips.container {n : ℕ} {t : List Char} {o c : Char} {x y : UInt8}
    (ho : encode [o] = [x]) (hc : encode [c] = [y]) (hopens : opens x) (hcloses : closes y)
    (h : Skips maxDepth n t) : Skips maxDepth (n + 1) (o :: t ++ [c]) := by
  have hsplit (rest : List UInt8) :
      encode (o :: t ++ [c]) ++ rest = [x] ++ (encode t ++ ([y] ++ rest)) := by
    rw [encode_append, encode_cons, ho, hc, List.append_assoc, List.append_assoc]
  have hnotcloses : ¬ closes x := by rcases hopens with rfl | rfl <;> decide
  -- the bracket that closes is one deeper, so that it underflows nothing
  have hclose (d : ℕ) : Passes maxDepth { depth := d + 1 } [y] { depth := d } :=
    passes_byte (scanByte_closes hcloses (d + 1)) fun hunder => Nat.succ_ne_zero d hunder.2.2
  refine ⟨fun {d} rest hd => ?_, fun {d rest} hd hrest => ?_⟩
  · rw [hsplit]
    by_cases hdeep : maxDepth < d + 1
    · rw [if_pos (by omega), List.singleton_append, scan, List.foldlM_cons, scanByte_opens hopens,
        if_pos hdeep]
      rfl
    · have hopen : Passes maxDepth { depth := d } [x] { depth := d + 1 } :=
        passes_byte ((scanByte_opens hopens d).trans (if_neg hdeep)) fun hunder =>
          hnotcloses hunder.2.1
      rw [hopen.scan_eq, h.scan_eq _ (by omega), (hclose d).scan_eq]
      exact if_congr (by omega) rfl rfl
  · rw [hsplit]
    refine ⟨fun hunder => hnotcloses hunder.2.1, fun s' hs' => ?_⟩
    rw [scanByte_opens hopens] at hs'
    split at hs'
    · cases hs'
    · next hdeep =>
      cases hs'
      exact h.safe (by omega) ((hclose d).safe rest hrest)

/-- A part of which nothing is seen, with one that is nested. -/
theorem Skips.of_eq {m n : ℕ} {s t : List Char} (h : Skips maxDepth m s) (hm : m = n)
    (hs : s = t) : Skips maxDepth n t := hm ▸ hs ▸ h

/-- **The scanner passes over what the grammar derives**, as deep as it is nested. -/
theorem skips_of_derives {node : Node} {t : List Char} (h : Derives node t) :
    Skips maxDepth node.depth t := by
  have hcomma : Skips maxDepth 0 [','] := skips_unseen (List.all_iff_forall_prop.mp (by decide))
  have hcolon : Skips maxDepth 0 [':'] := skips_unseen (List.all_iff_forall_prop.mp (by decide))
  induction h with
  | null => exact skips_unseen (List.all_iff_forall_prop.mp (by decide))
  | yes => exact skips_unseen (List.all_iff_forall_prop.mp (by decide))
  | no => exact skips_unseen (List.all_iff_forall_prop.mp (by decide))
  | number ht => exact skips_number ht
  | string ht => exact skips_string ht
  | emptyArray hw => exact (skips_ws hw).container rfl rfl (by decide) (by decide)
  | array hne h ih => exact ih.container rfl rfl (by decide) (by decide)
  | emptyObject hw => exact (skips_ws hw).container rfl rfl (by decide) (by decide)
  | object hne h ih => exact ih.container rfl rfl (by decide) (by decide)
  | item hw h hw' ih =>
    have happend := ((skips_ws hw).append ih).append (skips_ws hw')
    exact happend.of_eq (by simp [Node.depth, depthItems]) rfl
  | items hw h hw' hne hrest ih ihrest =>
    have happend := (((skips_ws hw).append ih).append (skips_ws hw')).append
      (hcomma.append ihrest)
    exact happend.of_eq (by simp [Node.depth, depthItems]) rfl
  | member hw hk hw' hw'' h hw₃ ih =>
    have happend := (((skips_ws hw).append (skips_string hk)).append (skips_ws hw')).append
      (hcolon.append (((skips_ws hw'').append ih).append (skips_ws hw₃)))
    exact happend.of_eq (by simp [Node.depth, depthMembers]) rfl
  | members hw hk hw' hw'' h hw₃ hne hrest ih ihrest =>
    have happend := (((skips_ws hw).append (skips_string hk)).append (skips_ws hw')).append
      (hcolon.append ((((skips_ws hw'').append ih).append (skips_ws hw₃)).append
        (hcomma.append ihrest)))
    exact happend.of_eq (by simp [Node.depth, depthMembers]) rfl

/-! ## 6. Whole texts -/

/-- What is safe underflows at none of its bytes. -/
theorem Safe.not_underflows {bytes : List UInt8} : ∀ {s : Scanner}, Safe maxDepth s bytes →
    ∀ {before after : List UInt8} {b : UInt8} {s' : Scanner}, bytes = before ++ b :: after →
      scan maxDepth s before = .ok s' → ¬ Underflows s' b := by
  intro s h before
  induction before generalizing s bytes with
  | nil =>
    rintro after b s' rfl hscan
    cases hscan
    exact h.1
  | cons x before ih =>
    rintro after b s' rfl hscan
    rw [scan, List.foldlM_cons] at hscan
    cases hstep : scanByte maxDepth s x with
    | error e =>
      rw [hstep] at hscan
      cases hscan
    | ok s'' =>
      rw [hstep] at hscan
      exact ih (h.2 s'' hstep) rfl hscan

/-- **A JSON text is rejected exactly when it is nested too deep**: by its value, and whatever its
strings hold.  At no byte that the scan comes to does it close more than was opened, so the
saturating subtraction of the source never saturates on a JSON text.  The hypothesis says that the
text is derived by the grammar as `v`; any blanks between its parts are allowed. -/
theorem rejectIfJsonNestingExceeds_iff {text : String} {v : Value} (h : IsText text.toList v)
    (maxDepth : ℕ) :
    rejectIfJsonNestingExceeds text.toUTF8.data.toList maxDepth =
        (if maxDepth < v.depth then .error ⟨maxDepth⟩ else .ok ()) ∧
      ∀ before b after s, text.toUTF8.data.toList = before ++ b :: after →
        scan maxDepth {} before = .ok s → ¬ Underflows s b := by
  obtain ⟨w, body, w', hw, hbody, hw', htext⟩ := h
  have hbytes : text.toUTF8.data.toList = encode text.toList := toByteArray_toList text
  have hspace : Skips maxDepth 0 w := skips_ws hw
  have hskips := (hspace.append (skips_of_derives hbody)).append (skips_ws hw')
  rw [← htext] at hskips
  have hscan := hskips.scan_eq (d := 0) [] (Nat.zero_le _)
  have hsafe := hskips.safe (d := 0) (Nat.zero_le maxDepth)
    (show Safe maxDepth { depth := 0 } [] from trivial)
  rw [List.append_nil, ← hbytes] at hscan hsafe
  refine ⟨?_, fun before b after s heq hs => hsafe.not_underflows heq hs⟩
  have hdepth : 0 + max (max 0 (Node.value v).depth) 0 = v.depth := by simp [Node.depth]
  rw [hdepth] at hscan
  rw [rejectIfJsonNestingExceeds, hscan]
  split <;> rfl

/-- Brackets, a quote and backslashes in a string, in one array: nested as deep as the array. -/
theorem rejectIfJsonNestingExceeds_string :
    rejectIfJsonNestingExceeds r#"["[{\"\\"]"#.toUTF8.data.toList 1 = .ok () := by
  have hbody : Body ['[', '{', '\\', '"', '\\', '\\'] := by
    refine .plain (by decide) (by decide) (by decide) ?_
    refine .plain (by decide) (by decide) (by decide) ?_
    exact .escape (by decide) (.escape (by decide) .nil)
  have hnone : IsWs [] := by
    rintro c ⟨⟩
  have htext : IsText r#"["[{\"\\"]"#.toList (.array [.string _]) :=
    ⟨[], _, [], hnone, .array (by simp) (.item hnone (.string hbody) hnone), hnone, rfl⟩
  exact (rejectIfJsonNestingExceeds_iff htext 1).1

end Musubi.Core
