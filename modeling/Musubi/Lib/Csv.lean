/-
# Comma-separated values

The format of RFC 4180: records that end with a line break, fields between commas, and a field
with a comma, a quote or a line break in it between quotes, its quotes doubled.  A line feed alone
is a line break too, and a character that is none of the four special ones is text.  A carriage
return that no line feed follows is neither, so it stands between quotes only.

`parse` reads the grammar and nothing else (`parse_eq_some_iff`).  A writer that quotes what it
has to, with or without the carriage return, is read back exactly where it leaves no carriage
return unquoted (`parse_writeRows_iff`).

The rule for quoting is a parameter of the writer, and `QuotesSpecial` is what every rule has to
do.  The direction that is not obvious is that a text with a bare carriage return is NOT read back
as it was written: the field that the grammar finds where a value was written is that value's own
text (`Field.eq_write`), so no other reading can give the rows by accident.
-/
import Mathlib.Data.List.TakeWhile
import Musubi.Lib.Text

namespace Lib.Csv

/-! ## 1. The grammar -/

/-- A character of a field without quotes. -/
def isTextData (c : Char) : Bool := c ∉ [',', '"', '\n', '\r']

/-- Every quote twice. -/
def escape (s : List Char) : List Char := s.flatMap fun c => if c = '"' then ['"', '"'] else [c]

def quote (s : List Char) : List Char := '"' :: (escape s ++ ['"'])

/-- The text of a field, and its value. -/
inductive Field : List Char → List Char → Prop
  | plain {s : List Char} (h : ∀ c ∈ s, isTextData c = true) : Field s s
  | quoted (s : List Char) : Field (quote s) s

inductive Record : List Char → List (List Char) → Prop
  | last {f v : List Char} (h : Field f v) : Record f [v]
  | cons {f v t : List Char} {r : List (List Char)} (h : Field f v) (hr : Record t r) :
    Record (f ++ ',' :: t) (v :: r)

/-- Where a record ends, and what follows: the last one ends with the text. -/
inductive LineEnd : List Char → List Char → Prop
  | eof : LineEnd [] []
  | lf (rest : List Char) : LineEnd ('\n' :: rest) rest
  | crlf (rest : List Char) : LineEnd ('\r' :: '\n' :: rest) rest

/-- A text with the records in it. -/
inductive File : List Char → List (List (List Char)) → Prop
  | nil : File [] []
  | line {t tail rest : List Char} {r : List (List Char)} {rs : List (List (List Char))}
    (hr : Record t r) (he : LineEnd tail rest) (hne : t ++ tail ≠ []) (hf : File rest rs) :
    File (t ++ tail) (r :: rs)

/-! ## 2. A reader -/

/-- The value of a field after its first quote, and what follows its last. -/
def quoted : List Char → Option (List Char × List Char)
  | '"' :: '"' :: rest => (quoted rest).map fun p => ('"' :: p.1, p.2)
  | '"' :: rest => some ([], rest)
  | c :: rest => (quoted rest).map fun p => (c :: p.1, p.2)
  | [] => none

def field : List Char → Option (List Char × List Char)
  | '"' :: rest => quoted rest
  | text => some (text.takeWhile isTextData, text.dropWhile isTextData)

def lineEnd : List Char → Option (List Char)
  | [] => some []
  | '\n' :: rest => some rest
  | '\r' :: '\n' :: rest => some rest
  | _ => none

/-- A record of fewer than the given number of commas, and what follows. -/
def record : ℕ → List Char → Option (List (List Char) × List Char)
  | 0, _ => none
  | n + 1, text =>
    match field text with
    | none => none
    | some (v, ',' :: rest) => (record n rest).map fun p => (v :: p.1, p.2)
    | some (v, tail) => (lineEnd tail).map fun rest => ([v], rest)

def records : ℕ → List Char → Option (List (List (List Char)))
  | _, [] => some []
  | 0, _ :: _ => none
  | n + 1, c :: text =>
    match record (n + 1) (c :: text) with
    | none => none
    | some (r, rest) => (records n rest).map fun rs => r :: rs

/-- The records of a text, if it has the format. -/
def parse (text : List Char) : Option (List (List (List Char))) := records (text.length + 1) text

/-- An empty field, quotes inside quotes, and both line breaks; then a carriage return alone. -/
example : parse "a,\r\n\"b,\"\"\r\",c".toList =
      some [["a".toList, []], ["b,\"\r".toList, "c".toList]] ∧
    parse "a\rb,c\n".toList = none := by decide

/-! ## 3. Fields -/

theorem escape_cons (c : Char) (s : List Char) :
    escape (c :: s) = (if c = '"' then ['"', '"'] else [c]) ++ escape s := List.flatMap_cons

theorem quoted_cons {c : Char} (hc : c ≠ '"') (rest : List Char) :
    quoted (c :: rest) = (quoted rest).map fun p => (c :: p.1, p.2) := by
  rw [quoted]
  · exact fun _ h => absurd h hc
  · exact fun h => absurd h hc

/-- What may follow a field begins with no quote and no character of text. -/
def Stops (rest : List Char) : Prop := ∀ c ∈ rest.head?, c ≠ '"' ∧ isTextData c = false

theorem stops_comma (rest : List Char) : Stops (',' :: rest) := by
  rintro c ⟨⟩
  decide

theorem LineEnd.stops {tail rest : List Char} (h : LineEnd tail rest) : Stops tail := by
  cases h with
  | eof => exact fun c hc => by cases hc
  | lf rest =>
    rintro c ⟨⟩
    decide
  | crlf rest =>
    rintro c ⟨⟩
    decide

theorem quoted_escape {rest : List Char} (h : Stops rest) (s : List Char) :
    quoted (escape s ++ '"' :: rest) = some (s, rest) := by
  induction s with
  | nil =>
    change quoted ('"' :: rest) = _
    rw [quoted]
    rintro t rfl
    exact (h '"' rfl).1 rfl
  | cons c s ih =>
    rw [escape_cons]
    by_cases hc : c = '"'
    · subst hc
      rw [if_pos rfl, List.append_assoc, List.cons_append, List.cons_append, List.nil_append,
        quoted, ih]
      rfl
    · rw [if_neg hc, List.append_assoc, List.cons_append, List.nil_append, quoted_cons hc, ih]
      rfl

theorem eq_of_quoted {text v rest : List Char} (h : quoted text = some (v, rest)) :
    text = escape v ++ '"' :: rest := by
  fun_induction quoted text generalizing v with
  | case1 text ih =>
    obtain ⟨⟨w, rest'⟩, hw, hp⟩ := Option.map_eq_some_iff.mp h
    cases hp
    rw [ih hw, escape_cons, if_pos rfl]
    rfl
  | case2 text hne =>
    cases h
    rfl
  | case3 c text hne hne' ih =>
    obtain ⟨⟨w, rest'⟩, hw, hp⟩ := Option.map_eq_some_iff.mp h
    cases hp
    have hc : c ≠ '"' := by
      rintro rfl
      exact hne' rfl
    rw [ih hw, escape_cons, if_neg hc]
    rfl
  | case4 => cases h

/-- **A field is read, whatever may follow it.** -/
theorem Field.read {f v rest : List Char} (h : Field f v) (hrest : Stops rest) :
    field (f ++ rest) = some (v, rest) := by
  cases h with
  | plain hplain =>
    have htake : (f ++ rest).takeWhile isTextData = f := by
      rw [List.takeWhile_append_of_pos hplain]
      cases rest with
      | nil => rw [List.takeWhile_nil, List.append_nil]
      | cons c rest =>
        rw [List.takeWhile_cons, (hrest c rfl).2, if_neg Bool.false_ne_true, List.append_nil]
    have hdrop : (f ++ rest).dropWhile isTextData = rest := by
      have := List.takeWhile_append_dropWhile (p := isTextData) (l := f ++ rest)
      rw [htake] at this
      exact List.append_cancel_left this
    rw [field, htake, hdrop]
    intro t ht
    cases f with
    | nil =>
      obtain rfl : rest = '"' :: t := ht
      exact (hrest '"' rfl).1 rfl
    | cons c f =>
      cases ht
      exact absurd (hplain '"' List.mem_cons_self) (by decide)
  | quoted =>
    rw [quote, List.cons_append, List.append_assoc]
    exact quoted_escape hrest v

theorem exists_of_field {text v rest : List Char} (h : field text = some (v, rest)) :
    ∃ f, Field f v ∧ text = f ++ rest := by
  unfold field at h
  split at h
  · refine ⟨quote v, .quoted v, ?_⟩
    rw [eq_of_quoted h, quote, List.cons_append, List.append_assoc]
    rfl
  · cases h
    exact ⟨_, .plain fun c hc => List.mem_takeWhile_imp hc,
      List.takeWhile_append_dropWhile.symm⟩

/-! ## 4. Records -/

theorem lineEnd_eq_some_iff {tail rest : List Char} :
    lineEnd tail = some rest ↔ LineEnd tail rest := by
  constructor
  · intro h
    unfold lineEnd at h
    split at h
    · cases h
      exact .eof
    · cases h
      exact .lf _
    · cases h
      exact .crlf _
    · cases h
  · intro h
    cases h with
    | eof => rfl
    | lf rest => rfl
    | crlf rest => rfl

/-- **A record is read up to its end**, if the number of commas allows it; the bound is the fuel
of the reader. -/
theorem Record.read {t tail rest : List Char} {r : List (List Char)} (h : Record t r)
    (he : LineEnd tail rest) : ∀ n, t.length < n → record n (t ++ tail) = some (r, rest) := by
  induction h with
  | last hf =>
    rintro (_ | n) hn
    · exact absurd hn (Nat.not_lt_zero _)
    · rw [record, hf.read he.stops]
      cases he with
      | eof => rfl
      | lf rest => rfl
      | crlf rest => rfl
  | @cons f v t r hf hr ih =>
    rintro (_ | n) hn
    · exact absurd hn (Nat.not_lt_zero _)
    · rw [List.length_append, List.length_cons] at hn
      rw [record, List.append_assoc, List.cons_append, hf.read (stops_comma _)]
      change Option.map _ (record n (t ++ tail)) = _
      rw [ih n (by omega)]
      rfl

theorem exists_of_record {n : ℕ} : ∀ {text rest : List Char} {r : List (List Char)},
    record n text = some (r, rest) →
      ∃ t tail, text = t ++ tail ∧ Record t r ∧ LineEnd tail rest := by
  induction n with
  | zero =>
    intro text rest r h
    cases h
  | succ n ih =>
    intro text rest r h
    unfold record at h
    split at h
    · cases h
    · next v rest' hfield =>
      obtain ⟨⟨r', rest''⟩, hr, hp⟩ := Option.map_eq_some_iff.mp h
      cases hp
      obtain ⟨f, hf, rfl⟩ := exists_of_field hfield
      obtain ⟨t, tail, rfl, hrecord, he⟩ := ih hr
      exact ⟨f ++ ',' :: t, tail, by simp, .cons hf hrecord, he⟩
    · next v tail _ hfield =>
      obtain ⟨rest', hend, hp⟩ := Option.map_eq_some_iff.mp h
      cases hp
      obtain ⟨f, hf, rfl⟩ := exists_of_field hfield
      exact ⟨f, tail, rfl, .last hf, lineEnd_eq_some_iff.mp hend⟩

/-! ## 5. Texts -/

/-- A record that is not at the end of the text leaves less of it. -/
theorem length_lt_of_line {t tail rest : List Char} (he : LineEnd tail rest)
    (hne : t ++ tail ≠ []) : rest.length < (t ++ tail).length := by
  have hpos := List.length_pos_iff.mpr hne
  rw [List.length_append] at hpos ⊢
  cases he with
  | eof => rwa [List.length_nil] at hpos ⊢
  | lf rest =>
    rw [List.length_cons]
    omega
  | crlf rest =>
    rw [List.length_cons, List.length_cons]
    omega

theorem File.read {text : List Char} {rs : List (List (List Char))} (h : File text rs) :
    ∀ n, text.length < n → records n text = some rs := by
  induction h with
  | nil =>
    intro n hn
    cases n <;> rfl
  | @line t tail rest r rs hr he hne hf ih =>
    rintro (_ | n) hn
    · exact absurd hn (Nat.not_lt_zero _)
    · have hlt := length_lt_of_line he hne
      have hrecord := hr.read he (n + 1) (by rw [List.length_append] at hn; omega)
      obtain ⟨c, text, htext⟩ := List.exists_cons_of_ne_nil hne
      rw [htext] at hrecord ⊢
      rw [records, hrecord]
      dsimp only
      rw [ih n (by omega)]
      rfl

theorem file_of_records {n : ℕ} : ∀ {text : List Char} {rs : List (List (List Char))},
    records n text = some rs → File text rs := by
  induction n with
  | zero =>
    rintro (_ | ⟨c, text⟩) rs h
    · cases h
      exact .nil
    · cases h
  | succ n ih =>
    rintro (_ | ⟨c, text⟩) rs h
    · cases h
      exact .nil
    · unfold records at h
      split at h
      · cases h
      · next r rest hrecord =>
        obtain ⟨rs', hrs, rfl⟩ := Option.map_eq_some_iff.mp h
        obtain ⟨t, tail, htext, hr, he⟩ := exists_of_record hrecord
        rw [htext]
        exact .line hr he (htext ▸ List.cons_ne_nil c text) (ih hrs)

/-- **The reader reads the grammar**, so that a text has its records in one way. -/
theorem parse_eq_some_iff {text : List Char} {rs : List (List (List Char))} :
    parse text = some rs ↔ File text rs :=
  ⟨file_of_records, fun h => h.read _ (Nat.lt_succ_self _)⟩

/-! ## 6. Writers -/

/- A writer is a choice of the values that it quotes. -/
variable (quotes : List Char → Bool)

def write (s : List Char) : List Char := if quotes s then quote s else s

/-- A record, ended by a line feed. -/
def writeRow (r : List (List Char)) : List Char :=
  List.intercalate [','] (r.map (write quotes)) ++ ['\n']

def writeRows (rs : List (List (List Char))) : List Char := rs.flatMap (writeRow quotes)

/-- What has to be quoted whatever is made of a carriage return. -/
def QuotesSpecial : Prop := ∀ s, quotes s = false → ',' ∉ s ∧ '"' ∉ s ∧ '\n' ∉ s

/-- No carriage return is left without quotes. -/
def QuotesReturns (r : List (List Char)) : Prop := ∀ s ∈ r, quotes s = false → '\r' ∉ s

variable {quotes}

theorem writeRow_singleton (s : List Char) (y : List Char) :
    writeRow quotes [s] ++ y = write quotes s ++ '\n' :: y := by
  simp [writeRow]

theorem writeRow_cons (s : List Char) {r : List (List Char)} (hr : r ≠ []) (y : List Char) :
    writeRow quotes (s :: r) ++ y = write quotes s ++ ',' :: (writeRow quotes r ++ y) := by
  obtain ⟨s', r, rfl⟩ := List.exists_cons_of_ne_nil hr
  simp [writeRow]

theorem field_write (hq : QuotesSpecial quotes) {s : List Char}
    (h : quotes s = false → '\r' ∉ s) : Field (write quotes s) s := by
  unfold write
  cases hs : quotes s with
  | true => exact .quoted s
  | false =>
    obtain ⟨hcomma, hquote, hfeed⟩ := hq s hs
    refine .plain fun c hc => decide_eq_true ?_
    simp only [List.mem_cons, List.not_mem_nil, or_false, not_or]
    exact ⟨fun e => hcomma (e ▸ hc), fun e => hquote (e ▸ hc), fun e => hfeed (e ▸ hc),
      fun e => h hs (e ▸ hc)⟩

/-- A row that is written is a record and its line break. -/
theorem exists_record_writeRow (hq : QuotesSpecial quotes) {r : List (List Char)} (hne : r ≠ [])
    (h : QuotesReturns quotes r) : ∃ t, Record t r ∧ writeRow quotes r = t ++ ['\n'] := by
  refine ⟨List.intercalate [','] (r.map (write quotes)), ?_, rfl⟩
  induction r with
  | nil => exact absurd rfl hne
  | cons s r ih =>
    have hfield := field_write hq (h s List.mem_cons_self)
    cases r with
    | nil => simpa using Record.last hfield
    | cons s' r =>
      have hrecord := ih (List.cons_ne_nil _ _) fun x hx => h x (List.mem_cons_of_mem _ hx)
      simpa using Record.cons hfield hrecord

theorem file_writeRows (hq : QuotesSpecial quotes) {rs : List (List (List Char))}
    (hne : ∀ r ∈ rs, r ≠ []) (h : ∀ r ∈ rs, QuotesReturns quotes r) :
    File (writeRows quotes rs) rs := by
  induction rs with
  | nil => exact .nil
  | cons r rs ih =>
    obtain ⟨hr, hrs⟩ := List.forall_mem_cons.mp h
    obtain ⟨hrne, hrsne⟩ := List.forall_mem_cons.mp hne
    obtain ⟨t, hrecord, ht⟩ := exists_record_writeRow hq hrne hr
    rw [writeRows, List.flatMap_cons, ht, List.append_assoc]
    exact .line hrecord (.lf _) (by simp) (ih hrsne hrs)

/-- What begins no field with quotes. -/
def Unquoted (y : List Char) : Prop := y.head? ≠ some '"'

theorem Stops.unquoted {y : List Char} (h : Stops y) : Unquoted y :=
  fun hhead => (h '"' hhead).1 rfl

/-- **A field that stands where a value was written is what was written**: the quotes in the text
are those of the writer. -/
theorem Field.eq_write (hq : QuotesSpecial quotes) {f s x y : List Char} (h : Field f s)
    (hx : Unquoted x) (hy : Unquoted y) (heq : f ++ x = write quotes s ++ y) :
    f = write quotes s ∧ (quotes s = false → '\r' ∉ s) := by
  unfold write at heq ⊢
  cases h with
  | plain hplain =>
    cases hs : quotes f with
    | false =>
      refine ⟨rfl, fun _ hmem => ?_⟩
      exact absurd (hplain _ hmem) (by decide)
    | true =>
      rw [hs, if_pos rfl, quote] at heq
      cases f with
      | nil => exact absurd (by rw [List.nil_append] at heq; rw [heq]; rfl) hx
      | cons c f =>
        obtain rfl : c = '"' := (List.cons.inj heq).1
        exact absurd (hplain _ List.mem_cons_self) (by decide)
  | quoted =>
    cases hs : quotes s with
    | true => exact ⟨rfl, fun h => Bool.noConfusion h⟩
    | false =>
      rw [hs, if_neg Bool.false_ne_true, quote] at heq
      cases s with
      | nil => exact absurd (by rw [List.nil_append] at heq; rw [← heq]; rfl) hy
      | cons c s =>
        obtain rfl : '"' = c := (List.cons.inj heq).1
        exact absurd List.mem_cons_self (hq _ hs).2.1

theorem Record.eq_writeRow (hq : QuotesSpecial quotes) {t tail rest : List Char}
    {r : List (List Char)} (h : Record t r) (he : LineEnd tail rest) : ∀ y,
    t ++ tail = writeRow quotes r ++ y → tail = '\n' :: y ∧ QuotesReturns quotes r := by
  induction h with
  | last hf =>
    intro y heq
    rw [writeRow_singleton] at heq
    obtain ⟨rfl, hs⟩ := hf.eq_write hq he.stops.unquoted (by simp [Unquoted]) heq
    exact ⟨List.append_cancel_left heq, List.forall_mem_singleton.mpr hs⟩
  | @cons f v t r hf hr ih =>
    intro y heq
    have hrne : r ≠ [] := by
      cases hr with
      | last => exact List.cons_ne_nil _ _
      | cons => exact List.cons_ne_nil _ _
    rw [writeRow_cons v hrne, List.append_assoc, List.cons_append] at heq
    obtain ⟨rfl, hs⟩ := hf.eq_write hq (stops_comma _).unquoted (stops_comma _).unquoted heq
    obtain ⟨htail, hreturns⟩ := ih y (List.cons.inj (List.append_cancel_left heq)).2
    exact ⟨htail, List.forall_mem_cons.mpr ⟨hs, hreturns⟩⟩

theorem quotesReturns_of_file (hq : QuotesSpecial quotes) {rs : List (List (List Char))} :
    ∀ {text}, File text rs → text = writeRows quotes rs → ∀ r ∈ rs, QuotesReturns quotes r := by
  intro text h
  induction h with
  | nil =>
    intro _ r hr
    cases hr
  | @line t tail rest r rs hr he hne hf ih =>
    intro heq
    rw [writeRows, List.flatMap_cons] at heq
    obtain ⟨rfl, hreturns⟩ := hr.eq_writeRow hq he _ heq
    cases he with
    | lf => exact List.forall_mem_cons.mpr ⟨hreturns, ih rfl⟩

/-- **What is written is read back exactly where every carriage return is between quotes.** A
record without fields has no text of its own and is left out by `hne`. -/
theorem parse_writeRows_iff (hq : QuotesSpecial quotes) {rs : List (List (List Char))}
    (hne : ∀ r ∈ rs, r ≠ []) :
    parse (writeRows quotes rs) = some rs ↔ ∀ r ∈ rs, QuotesReturns quotes r := by
  rw [parse_eq_some_iff]
  exact ⟨fun h => quotesReturns_of_file hq h rfl, file_writeRows hq hne⟩

/-! ## 7. Strings -/

variable (quotes)

/-- A field as a program writes it. -/
theorem toList_write (s : String) :
    (if quotes s.toList then
      "\"" ++ String.ofList (s.toList.flatMap fun c => if c = '"' then ['"', '"'] else [c]) ++ "\""
    else s).toList = write quotes s.toList := by
  unfold write
  split
  · rw [String.toList_append, String.toList_append, String.toList_ofList, String.toList_ofList]
    rfl
  · rfl

variable {quotes}

theorem toList_writeRow {f : String → String}
    (hf : ∀ s, (f s).toList = write quotes s.toList) (cells : List String) :
    (join "," (cells.map f) ++ "\n").toList = writeRow quotes (cells.map String.toList) := by
  have hcells : (cells.map f).map String.toList =
      (cells.map String.toList).map (write quotes) := by
    rw [List.map_map, List.map_map]
    exact List.map_congr_left fun s _ => hf s
  unfold writeRow join
  rw [String.toList_append, String.toList_ofList, hcells]
  rfl

end Lib.Csv
