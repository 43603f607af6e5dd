/-
# Scanning a byte string record by record

A scanner reads one record at a time: from its state, from what is left and from where it
stands, it tells what the record is, how long it is and which state comes next.  `Run` is the
trace of a scan: the records, each with the state before it.  It is what a client reasons
about: `scan_eq_ok` says that a scan returns exactly when there is a run, and an invariant of
one record holds before every record of a run (`Run.forall_before`).

Two properties of a scanner are asked for separately.  `Keeps` is safety with an invariant: a
record does not panic, is at least one element long and no longer than what is left.  `Local`
says that a record is read from its own elements: then the input can be cut after any record,
and the run on what is left of it is the run up to there (`Run.cut`).

A scanner can hand its records to a loop (`feed`): what that returns is the loop over the
records of the run (`scan_feed_eq_ok`), so two loops that are fed by one scanner are compared
over the same records.

What a writer puts down entry by entry is read back entry by entry, when each entry is read
whatever comes after it (`Writing.run`), and exactly when each of them is good in the state in
which it is read, where one that is not good fails (`Writing.run_iff`).
-/
import Musubi.Lib.Checked
import Musubi.Lib.Result
import Musubi.Lib.Segments

namespace Lib

open Checked

/-! ## 1. Scanners -/

structure Scanner (ε σ ι α : Type) where
  /-- Is there another record in what is left? -/
  more : List α → Bool
  /-- The record at the head of what is left: what it is, its length and the state after it. -/
  step : σ → List α → ℕ → Checked ε (ι × ℕ × σ)

/-- A record of a scan, with the state before it. -/
structure Scanned (σ ι : Type) where
  start : ℕ
  before : σ
  item : ι
  stop : ℕ

namespace Scanner

variable {ε σ ι α : Type} (S : Scanner ε σ ι α)

def round (input : List α) (p : ℕ × σ) : Checked ε ((ℕ × σ) ⊕ (ℕ × σ)) := do
  let rest ← slice input p.1 input.length
  if S.more rest then do
    let (_, n, s) ← S.step p.2 rest p.1
    return .inl (p.1 + n, s)
  else return .inr p

/-- Read records from `start` on; where the scan stops, and in which state. -/
def scan (input : List α) (start : ℕ) (s : σ) : Checked ε (ℕ × σ) :=
  loop (S.round input) (input.length + 1) (start, s)

/-- What is left at a position. -/
theorem slice_rest {input : List α} {p : ℕ} (hp : p ≤ input.length) :
    (slice input p input.length : Checked ε (List α)) = .ok (input.drop p) := by
  rw [slice_eq hp (Nat.le_refl _), List.take_of_length_le (Nat.le_of_eq List.length_drop)]

/-! ## 2. Runs -/

/-- The records from one position and state to another. -/
inductive Run (input : List α) : ℕ → σ → List (Scanned σ ι) → ℕ → σ → Prop
  | nil {p : ℕ} {s : σ} : Run input p s [] p s
  | cons {p q n : ℕ} {s s' t : σ} {i : ι} {records : List (Scanned σ ι)}
      (hmore : S.more (input.drop p) = true)
      (hstep : S.step s (input.drop p) p = .ok (i, n, s'))
      (hpos : 0 < n) (hle : n ≤ (input.drop p).length)
      (hrest : Run input (p + n) s' records q t) :
      Run input p s (⟨p, s, i, p + n⟩ :: records) q t

variable {S} {input : List α} {p q : ℕ} {s t : σ} {records : List (Scanned σ ι)}

theorem Run.endToEnd (h : S.Run input p s records q t) :
    EndToEnd Scanned.start Scanned.stop p records q := by
  induction h with
  | nil => rfl
  | cons _ _ _ _ _ ih => exact ⟨rfl, ih⟩

theorem Run.le (h : S.Run input p s records q t) : p + records.length ≤ q := by
  induction h with
  | nil => simp
  | cons _ _ hpos _ _ ih =>
    rw [List.length_cons]
    omega

theorem Run.le_length (h : S.Run input p s records q t) (hp : p ≤ input.length) :
    q ≤ input.length := by
  induction h with
  | nil => exact hp
  | cons _ _ _ hle _ ih =>
    rw [List.length_drop] at hle
    exact ih (by omega)

/-- Runs one after the other. -/
theorem Run.append {more : List (Scanned σ ι)} {r : ℕ} {u : σ}
    (h : S.Run input p s records q t) (hmore : S.Run input q t more r u) :
    S.Run input p s (records ++ more) r u := by
  induction h with
  | nil => exact hmore
  | cons hm hstep hpos hle _ ih => exact .cons hm hstep hpos hle (ih hmore)

/-- A run in two parts. -/
theorem Run.of_append {first more : List (Scanned σ ι)} : ∀ {p : ℕ} {s : σ},
    S.Run input p s (first ++ more) q t →
      ∃ m u, S.Run input p s first m u ∧ S.Run input m u more q t := by
  induction first with
  | nil => exact fun {p s} h => ⟨p, s, .nil, h⟩
  | cons r first ih =>
    intro p s h
    cases h with
    | cons hm hstep hpos hle hrest =>
      obtain ⟨m, u, hfirst, hmore⟩ := ih hrest
      exact ⟨m, u, .cons hm hstep hpos hle hfirst, hmore⟩

/-- A run begins with every run that stops no later. -/
theorem Run.of_shorter {first : List (Scanned σ ι)} {m : ℕ} {u : σ}
    (hfirst : S.Run input p s first m u) (h : S.Run input p s records q t) (hle : m ≤ q) :
    ∃ more, records = first ++ more ∧ S.Run input m u more q t := by
  induction hfirst generalizing records with
  | nil => exact ⟨records, rfl, h⟩
  | cons hm hstep hpos hn hrest ih =>
    have hlonger := hrest.le
    cases h with
    | nil => exact absurd hpos (by omega)
    | cons _ hstep' _ _ hrest' =>
      rw [hstep] at hstep'
      cases hstep'
      obtain ⟨more, rfl, hmore⟩ := ih hrest' hle
      exact ⟨more, rfl, hmore⟩

/-- What is known of a record of a run. -/
structure Reads (S : Scanner ε σ ι α) (input : List α) (r : Scanned σ ι) (after : σ) : Prop where
  more : S.more (input.drop r.start) = true
  step : S.step r.before (input.drop r.start) r.start =
    .ok (r.item, r.stop - r.start, after)
  start_lt : r.start < r.stop
  stop_le : r.stop ≤ input.length

theorem Run.reads (h : S.Run input p s records q t) :
    ∀ r ∈ records, ∃ after, S.Reads input r after := by
  induction h with
  | nil =>
    intro r hr
    cases hr
  | @cons p q n s s' t i records hm hstep hpos hle _ ih =>
    intro r hr
    rcases List.mem_cons.mp hr with rfl | hr
    · rw [List.length_drop] at hle
      refine ⟨s', hm, ?_, by simpa using hpos, by simp only; omega⟩
      simpa using hstep
    · exact ih r hr

/-- The state after a run, where the next state depends on the record alone. -/
theorem Run.after_eq {next : σ → ι → σ}
    (hnext : ∀ {s : σ} {rest : List α} {p n : ℕ} {i : ι} {s' : σ}, S.more rest = true →
      S.step s rest p = .ok (i, n, s') → s' = next s i)
    (h : S.Run input p s records q t) : t = (records.map Scanned.item).foldl next s := by
  induction h with
  | nil => rfl
  | cons hm hstep _ _ _ ih => rw [ih, hnext hm hstep, List.map_cons, List.foldl_cons]

/-- The state before a record of such a run. -/
theorem Run.before_eq {next : σ → ι → σ}
    (hnext : ∀ {s : σ} {rest : List α} {p n : ℕ} {i : ι} {s' : σ}, S.more rest = true →
      S.step s rest p = .ok (i, n, s') → s' = next s i)
    {first more : List (Scanned σ ι)} {r : Scanned σ ι}
    (h : S.Run input p s (first ++ r :: more) q t) :
    r.before = (first.map Scanned.item).foldl next s := by
  obtain ⟨m, u, hfirst, hmore⟩ := h.of_append
  rw [← hfirst.after_eq hnext]
  cases hmore
  rfl

/-! ## 3. Safety -/

/-- A record is read safely, is not empty, and keeps the invariant. -/
def Keeps (S : Scanner ε σ ι α) (I : σ → Prop) : Prop :=
  ∀ s rest p, I s → S.more rest = true →
    Safe (S.step s rest p) fun r => 0 < r.2.1 ∧ r.2.1 ≤ rest.length ∧ I r.2.2

variable {I : σ → Prop}

theorem Keeps.after_step (hS : S.Keeps I) {rest : List α} {i : ι} {n : ℕ} {s' : σ} (hs : I s)
    (hmore : S.more rest = true) (hstep : S.step s rest p = .ok (i, n, s')) : I s' := by
  have hkeep := hS s rest p hs hmore
  rw [hstep] at hkeep
  exact hkeep.2.2

/-- **A scan is safe, and what it returns is the end of a run** after which nothing is left that
could be a record. -/
theorem safe_scan (hS : S.Keeps I) (hs : I s) (hp : p ≤ input.length) :
    Safe (S.scan input p s) fun r =>
      ∃ records, S.Run input p s records r.1 r.2 ∧ S.more (input.drop r.1) = false ∧ I r.2 := by
  have hrounds : input.length - p < input.length + 1 := by omega
  refine safe_loop (I := fun r => ∃ records, S.Run input p s records r.1 r.2 ∧ I r.2)
    (fun r => input.length - r.1) ?_ _ ⟨[], .nil, hs⟩ hrounds
  rintro ⟨m, u⟩ ⟨records, hrun, hu⟩
  have hm : m ≤ input.length := hrun.le_length hp
  unfold round
  rw [slice_rest hm, ok_bind]
  split
  · next hmore =>
    have hkeep := hS u (input.drop m) m hu hmore
    rcases hkeep.cases with ⟨e, he⟩ | ⟨⟨i, n, u'⟩, hok, hpos, hle, hu'⟩
    · rw [he]
      exact trivial
    · rw [hok]
      have hone : S.Run input m u [⟨m, u, i, m + n⟩] (m + n) u' :=
        .cons hmore hok hpos hle .nil
      refine ⟨⟨_, hrun.append hone, hu'⟩, ?_⟩
      rw [List.length_drop] at hle
      simp only at hpos hle ⊢
      omega
  · next hmore => exact ⟨records, hrun, Bool.eq_false_iff.mpr hmore, hu⟩

/-- The invariant holds before every record. -/
theorem Run.forall_before (hS : S.Keeps I) (hs : I s) (h : S.Run input p s records q t) :
    ∀ r ∈ records, I r.before := by
  induction h with
  | nil =>
    intro r hr
    cases hr
  | cons hm hstep _ _ _ ih =>
    intro r hr
    rcases List.mem_cons.mp hr with rfl | hr
    · exact hs
    · exact ih (hS.after_step hs hm hstep) r hr

/-- **A run is what a scan does**, when nothing is left after it that could be a record. -/
theorem Run.scan_eq (h : S.Run input p s records q t) (hp : p ≤ input.length)
    (hstop : S.more (input.drop q) = false) : S.scan input p s = .ok (q, t) := by
  have hlen : records.length < input.length + 1 := by
    have h1 := h.le
    have h2 := h.le_length hp
    omega
  unfold scan
  generalize input.length + 1 = rounds at hlen
  induction h generalizing rounds with
  | @nil m u =>
    cases rounds with
    | zero => exact absurd hlen (Nat.not_lt_zero _)
    | succ rounds =>
      rw [loop, round, slice_rest hp, ok_bind, hstop]
      rfl
  | @cons m q n u u' t i records hm hstep hpos hle _ ih =>
    cases rounds with
    | zero => exact absurd hlen (Nat.not_lt_zero _)
    | succ rounds =>
      rw [List.length_cons, Nat.succ_lt_succ_iff] at hlen
      rw [loop, round, slice_rest hp, ok_bind, if_pos hm, hstep]
      rw [List.length_drop] at hle
      exact ih (by omega) hstop rounds hlen

/-- A record that is not read fails the scan. -/
theorem Run.scan_fail {e : Halt ε} (h : S.Run input p s records q t) (hp : p ≤ input.length)
    (hmore : S.more (input.drop q) = true) (hstep : S.step t (input.drop q) q = .error e) :
    S.scan input p s = .error e := by
  have hlen : records.length < input.length + 1 := by
    have h1 := h.le
    have h2 := h.le_length hp
    omega
  unfold scan
  generalize input.length + 1 = rounds at hlen
  induction h generalizing rounds with
  | @nil m u =>
    cases rounds with
    | zero => exact absurd hlen (Nat.not_lt_zero _)
    | succ rounds =>
      rw [loop, round, slice_rest hp, ok_bind, if_pos hmore, hstep]
      rfl
  | @cons m q n u u' t i records hm hfirst hpos hle _ ih =>
    cases rounds with
    | zero => exact absurd hlen (Nat.not_lt_zero _)
    | succ rounds =>
      rw [List.length_cons, Nat.succ_lt_succ_iff] at hlen
      rw [loop, round, slice_rest hp, ok_bind, if_pos hm, hfirst]
      rw [List.length_drop] at hle
      exact ih (by omega) hmore hstep rounds hlen

/-- **A scan returns exactly when there is a run** that leaves nothing that could be a
record. -/
theorem scan_eq_ok (hS : S.Keeps I) (hs : I s) (hp : p ≤ input.length) :
    S.scan input p s = .ok (q, t) ↔
      ∃ records, S.Run input p s records q t ∧ S.more (input.drop q) = false := by
  constructor
  · intro h
    have hscan := safe_scan hS hs hp
    rw [h] at hscan
    obtain ⟨records, hrun, hstop, -⟩ := hscan
    exact ⟨records, hrun, hstop⟩
  · rintro ⟨records, hrun, hstop⟩
    exact hrun.scan_eq hp hstop

/-! ## 4. Cutting the input -/

/-- A record is read from its own elements. -/
def Local (S : Scanner ε σ ι α) : Prop :=
  ∀ ⦃s r more p i n s'⦄, S.step s (r ++ more) p = .ok (i, n, s') → n ≤ r.length →
    S.more r = true ∧ S.step s r p = .ok (i, n, s')

/-- **A run reads nothing beyond its end.** -/
theorem Run.cut (hS : S.Local) (h : S.Run input p s records q t) : ∀ m, q ≤ m →
    S.Run (input.take m) p s records q t := by
  induction h with
  | nil => exact fun m _ => .nil
  | @cons p q n u u' t i records hm hstep hpos hle hrest ih =>
    intro m hq
    have hpn : p + n ≤ q := Nat.le_trans (Nat.le_add_right _ _) hrest.le
    -- what is left, up to the cut and beyond it
    have hsplit : input.drop p = (input.take m).drop p ++ input.drop m := by
      rw [List.drop_take, show input.drop m = (input.drop p).drop (m - p) by
        rw [List.drop_drop, Nat.add_sub_of_le (by omega)], List.take_append_drop]
    have hlen : n ≤ ((input.take m).drop p).length := by
      rw [List.length_drop] at hle
      rw [List.length_drop, List.length_take]
      omega
    rw [hsplit] at hstep
    obtain ⟨hmore, hstep⟩ := hS hstep hlen
    exact .cons hmore hstep hpos hlen (ih m hq)

/-! ## 5. Feeding the records to a loop -/

section Feed

variable {τ : Type} {g : τ → Scanned σ ι → Checked ε τ}

/-- A scan that hands every record to a loop of its own, which may fail. -/
def feed (S : Scanner ε σ ι α) (g : τ → Scanned σ ι → Checked ε τ) :
    Scanner ε (σ × τ) (Scanned σ ι) α where
  more := S.more
  step s rest p := do
    let (i, n, s') ← S.step s.1 rest p
    let t ← g s.2 ⟨p, s.1, i, p + n⟩
    return (⟨p, s.1, i, p + n⟩, n, (s', t))

theorem Keeps.feed (hS : S.Keeps I) (hg : ∀ t r, Safe (g t r) fun _ => True) :
    (S.feed g).Keeps fun s => I s.1 := by
  intro s rest p hs hmore
  refine (hS s.1 rest p hs hmore).bind fun r hr => ?_
  exact (hg s.2 _).bind fun t _ => safe_pure ⟨hr.1, hr.2.1, hr.2.2⟩

/-- A record that was read and handed over. -/
theorem feed_step_eq_ok {u v : σ × τ} {rest : List α} {n : ℕ} {r : Scanned σ ι} :
    (S.feed g).step u rest p = .ok (r, n, v) ↔
      ∃ i, S.step u.1 rest p = .ok (i, n, v.1) ∧ r = ⟨p, u.1, i, p + n⟩ ∧
        g u.2 r = .ok v.2 := by
  constructor
  · intro h
    simp only [feed] at h
    obtain ⟨⟨i, m, s'⟩, hstep, h⟩ := bind_eq_ok.mp h
    obtain ⟨t', ht, h⟩ := bind_eq_ok.mp h
    cases h
    exact ⟨i, hstep, rfl, ht⟩
  · rintro ⟨i, hstep, rfl, hg⟩
    simp only [feed, hstep, ok_bind, hg]
    rfl

theorem Run.of_feed {u v : σ × τ} {fed : List (Scanned (σ × τ) (Scanned σ ι))}
    (h : (S.feed g).Run input p u fed q v) :
    ∃ records, S.Run input p u.1 records q v.1 ∧ records.foldlM g u.2 = .ok v.2 := by
  induction h with
  | nil => exact ⟨[], .nil, rfl⟩
  | cons hm hfed hpos hle _ ih =>
    obtain ⟨i, hstep, rfl, hg⟩ := feed_step_eq_ok.mp hfed
    obtain ⟨records, hrun, hfold⟩ := ih
    refine ⟨_ :: records, .cons hm hstep hpos hle hrun, ?_⟩
    rw [List.foldlM_cons, hg]
    exact hfold

theorem Run.feed {a b : τ} (h : S.Run input p s records q t)
    (hfold : records.foldlM g a = .ok b) :
    ∃ fed, (S.feed g).Run input p (s, a) fed q (t, b) := by
  induction h generalizing a with
  | nil =>
    cases hfold
    exact ⟨[], .nil⟩
  | cons hm hstep hpos hle _ ih =>
    rw [List.foldlM_cons] at hfold
    obtain ⟨c, hc, hfold⟩ := bind_eq_ok.mp hfold
    obtain ⟨fed, hfed⟩ := ih hfold
    exact ⟨_ :: fed, .cons hm (feed_step_eq_ok.mpr ⟨_, hstep, rfl, hc⟩) hpos hle hfed⟩

/-- **A scan with a loop is the loop over the records of a run.** -/
theorem scan_feed_eq_ok (hS : S.Keeps I) (hg : ∀ t r, Safe (g t r) fun _ => True) (hs : I s)
    (hp : p ≤ input.length) {a b : τ} :
    (S.feed g).scan input p (s, a) = .ok (q, t, b) ↔
      ∃ records, S.Run input p s records q t ∧ S.more (input.drop q) = false ∧
        records.foldlM g a = .ok b := by
  rw [scan_eq_ok (hS.feed hg) hs hp]
  constructor
  · rintro ⟨fed, hrun, hstop⟩
    obtain ⟨records, hrun, hfold⟩ := hrun.of_feed
    exact ⟨records, hrun, hstop, hfold⟩
  · rintro ⟨records, hrun, hstop, hfold⟩
    obtain ⟨fed, hrun⟩ := hrun.feed hfold
    exact ⟨fed, hrun, hstop⟩

end Feed

end Scanner

/-! ## 6. Written strings -/

/-- The first element of a list that has not a property that all before it have. -/
theorem exists_first {α : Type} {P : α → Prop} {l : List α} (h : ¬ ∀ a ∈ l, P a) :
    ∃ front a more, l = front ++ a :: more ∧ (∀ b ∈ front, P b) ∧ ¬ P a := by
  induction l with
  | nil => exact absurd (List.forall_mem_nil _) h
  | cons a l ih =>
    by_cases ha : P a
    · have hl : ¬ ∀ b ∈ l, P b := fun hl => h (List.forall_mem_cons.mpr ⟨ha, hl⟩)
      obtain ⟨front, b, more, rfl, hfront, hb⟩ := ih hl
      exact ⟨a :: front, b, more, rfl, List.forall_mem_cons.mpr ⟨ha, hfront⟩, hb⟩
    · exact ⟨[], a, l, rfl, List.forall_mem_nil _, ha⟩

/-- What a writer puts down for an entry, what a scanner makes of it, and the state after it. -/
structure Writing (σ ι α β : Type) where
  write : β → List α
  item : β → ι
  next : σ → ℕ → β → σ

namespace Writing

variable {ε σ ι α β : Type} (W : Writing σ ι α β)

def text (bs : List β) : List α := bs.flatMap W.write

/-- The records of what is written from a position on. -/
def scanned : ℕ → σ → List β → List (Scanned σ ι)
  | _, _, [] => []
  | p, s, b :: bs =>
    ⟨p, s, W.item b, p + (W.write b).length⟩ ::
      scanned (p + (W.write b).length) (W.next s p b) bs

/-- The state after what is written from a position on. -/
def after : ℕ → σ → List β → σ
  | _, s, [] => s
  | p, s, b :: bs => after (p + (W.write b).length) (W.next s p b) bs

/-- An entry is read, whatever comes after it. -/
structure ReadBy (S : Scanner ε σ ι α) (s : σ) (p : ℕ) (b : β) : Prop where
  pos : 0 < (W.write b).length
  more : ∀ rest, S.more (W.write b ++ rest) = true
  step : ∀ rest, S.step s (W.write b ++ rest) p =
    .ok (W.item b, (W.write b).length, W.next s p b)

@[simp] theorem text_nil : W.text [] = [] := rfl

@[simp] theorem text_cons (b : β) (bs : List β) : W.text (b :: bs) = W.write b ++ W.text bs := rfl

theorem map_item_scanned (bs : List β) : ∀ p s,
    (W.scanned p s bs).map Scanned.item = bs.map W.item := by
  induction bs with
  | nil => exact fun p s => rfl
  | cons b bs ih =>
    intro p s
    rw [scanned, List.map_cons, List.map_cons, ih]

variable {W}

/-- **What is written is read back**, with anything before it and anything after it. -/
theorem run {S : Scanner ε σ ι α} {I : σ → Prop} {bs : List β} (rest : List α)
    (hread : ∀ b ∈ bs, ∀ s p, I s → W.ReadBy S s p b ∧ I (W.next s p b)) :
    ∀ (front : List α) {s : σ}, I s →
      S.Run (front ++ (W.text bs ++ rest)) front.length s (W.scanned front.length s bs)
          (front.length + (W.text bs).length) (W.after front.length s bs) ∧
        I (W.after front.length s bs) := by
  induction bs with
  | nil => exact fun front s hs => ⟨.nil, hs⟩
  | cons b bs ih =>
    intro front s hs
    obtain ⟨hb, hnext⟩ := hread b List.mem_cons_self s front.length hs
    have hdrop : (front ++ (W.text (b :: bs) ++ rest)).drop front.length =
        W.write b ++ (W.text bs ++ rest) := by
      rw [List.drop_left, text_cons, List.append_assoc]
    have hsplit : front ++ (W.text (b :: bs) ++ rest) =
        (front ++ W.write b) ++ (W.text bs ++ rest) := by
      rw [text_cons, List.append_assoc, List.append_assoc]
    obtain ⟨hrun, hafter⟩ :=
      ih (fun b hb => hread b (List.mem_cons_of_mem _ hb)) (front ++ W.write b) hnext
    have hend : (front ++ W.write b).length + (W.text bs).length =
        front.length + (W.text (b :: bs)).length := by
      rw [text_cons, List.length_append, List.length_append, Nat.add_assoc]
    rw [← hsplit, hend, List.length_append] at hrun
    rw [List.length_append] at hafter
    have hmore := hb.more (W.text bs ++ rest)
    have hstep := hb.step (W.text bs ++ rest)
    rw [← hdrop] at hmore hstep
    have hle : (W.write b).length ≤
        ((front ++ (W.text (b :: bs) ++ rest)).drop front.length).length := by
      rw [hdrop, List.length_append]
      exact Nat.le_add_right _ _
    exact ⟨.cons hmore hstep hb.pos hle hrun, hafter⟩

/-- Every entry is good in the state in which it is read. -/
def Accepted (W : Writing σ ι α β) (good : σ → β → Prop) : ℕ → σ → List β → Prop
  | _, _, [] => True
  | p, s, b :: bs =>
    good s b ∧ Accepted W good (p + (W.write b).length) (W.next s p b) bs

theorem accepted_iff_forall {good : β → Prop} (bs : List β) : ∀ (p : ℕ) (s : σ),
    W.Accepted (fun _ => good) p s bs ↔ ∀ b ∈ bs, good b := by
  induction bs with
  | nil => exact fun p s => iff_of_true trivial (List.forall_mem_nil _)
  | cons b bs ih =>
    intro p s
    rw [Accepted, ih, List.forall_mem_cons]

/-- **What is written is read back exactly when every entry is good** in the state in which it is
read, where an entry that is not fails. -/
theorem run_iff {S : Scanner ε σ ι α} {I : σ → Prop} {good : σ → β → Prop} {bs : List β}
    (hread : ∀ b ∈ bs, ∀ s p, I s → good s b → W.ReadBy S s p b ∧ I (W.next s p b))
    (hfail : ∀ b ∈ bs, ∀ s p rest r, I s → ¬ good s b → S.step s (W.write b ++ rest) p ≠ .ok r)
    (hpos : ∀ b ∈ bs, 0 < (W.write b).length) (front : List α) {s t : σ} (hs : I s)
    {records : List (Scanned σ ι)} :
    S.Run (front ++ W.text bs) front.length s records (front ++ W.text bs).length t ↔
      W.Accepted good front.length s bs ∧ records = W.scanned front.length s bs ∧
        t = W.after front.length s bs := by
  induction bs generalizing front s records with
  | nil =>
    rw [text_nil, List.append_nil]
    constructor
    · intro h
      have hle := h.le
      obtain rfl : records = [] := List.length_eq_zero_iff.mp (by omega)
      cases h
      exact ⟨trivial, rfl, rfl⟩
    · rintro ⟨-, rfl, rfl⟩
      exact .nil
  | cons b bs ih =>
    have hb := List.mem_cons_self (a := b) (l := bs)
    have hdrop : (front ++ W.text (b :: bs)).drop front.length = W.write b ++ W.text bs :=
      List.drop_left
    have hsplit : front ++ W.text (b :: bs) = (front ++ W.write b) ++ W.text bs := by
      rw [text_cons, List.append_assoc]
    have hlength : (front ++ W.write b).length = front.length + (W.write b).length :=
      List.length_append
    have hmore {u : σ} {rs : List (Scanned σ ι)} (hu : I u) :
        S.Run (front ++ W.text (b :: bs)) (front.length + (W.write b).length) u rs
            (front ++ W.text (b :: bs)).length t ↔
          W.Accepted good (front.length + (W.write b).length) u bs ∧
            rs = W.scanned (front.length + (W.write b).length) u bs ∧
            t = W.after (front.length + (W.write b).length) u bs := by
      rw [hsplit, ← hlength]
      exact ih (fun c hc => hread c (List.mem_cons_of_mem _ hc))
        (fun c hc => hfail c (List.mem_cons_of_mem _ hc))
        (fun c hc => hpos c (List.mem_cons_of_mem _ hc)) (front ++ W.write b) hu
    have hlonger : front.length < (front ++ W.text (b :: bs)).length := by
      have hwritten := hpos b hb
      rw [hsplit, List.length_append, hlength]
      omega
    generalize hstop : (front ++ W.text (b :: bs)).length = stop at hmore hlonger
    constructor
    · intro h
      cases h with
      | nil => exact absurd hlonger (lt_irrefl _)
      | cons hm hstep hn hle hrest =>
        rw [hdrop] at hstep
        by_cases hgood : good s b
        · obtain ⟨hreads, hnext⟩ := hread b hb s front.length hs hgood
          rw [hreads.step] at hstep
          cases hstep
          obtain ⟨hall, rfl, rfl⟩ := (hmore hnext).mp hrest
          exact ⟨⟨hgood, hall⟩, rfl, rfl⟩
        · exact absurd hstep (hfail b hb s front.length _ _ hs hgood)
    · rintro ⟨⟨hgood, hall⟩, rfl, rfl⟩
      obtain ⟨hreads, hnext⟩ := hread b hb s front.length hs hgood
      refine .cons ?_ ?_ (hpos b hb) ?_ ((hmore hnext).mpr ⟨hall, rfl, rfl⟩)
      · rw [hdrop]
        exact hreads.more _
      · rw [hdrop]
        exact hreads.step _
      · rw [hdrop, List.length_append]
        exact Nat.le_add_right _ _

end Writing

end Lib
