/-
# Checked computations

Programs over byte slices can stop in three ways that are worth telling apart: they PANIC (an
index, a slice bound, a shift or a subtraction out of range), they never come back, or they return
an error of their own.  `Checked ε α` is a computation that returns an `α`, fails with an `ε`,
panics, or runs out of the rounds its loops were given.

`Safe x Q` is the judgment a client proves: `x` does not panic and does not run out of rounds, and
if it returns, what it returns satisfies `Q`; `Ends x Q E` says besides that its own errors
satisfy `E`.  The rules follow the program: one for `bind`, one for each checked operation, one
for a fold, and one for a `while` loop, which asks for an invariant and for a variant that goes
down.  A loop that is `Safe` within a number of rounds terminates.

So a proof of safety is read like the program that it is about.  A checked operation whose bounds
are known is rewritten to its value (section 4), which is how a computation that is safe is turned
into an equation.
-/
import Mathlib.Data.List.Basic

namespace Lib

inductive Halt (ε : Type)
  | panic
  | outOfRounds
  | fail (e : ε)
deriving DecidableEq, Repr

abbrev Checked (ε α : Type) := Except (Halt ε) α

namespace Checked

variable {ε α β σ : Type}

/-- The program's own error. -/
def fail (e : ε) : Checked ε α := .error (.fail e)

/-! ## 1. Operations -/

/-- `l[i]`. -/
def index (l : List α) (i : ℕ) : Checked ε α :=
  match l[i]? with
  | some a => .ok a
  | none => .error .panic

/-- `l[a..b]`. -/
def slice (l : List α) (a b : ℕ) : Checked ε (List α) :=
  if a ≤ b ∧ b ≤ l.length then .ok ((l.drop a).take (b - a)) else .error .panic

/-- `unwrap` and `expect`. -/
def unwrap : Option α → Checked ε α
  | some a => .ok a
  | none => .error .panic

/-- `a - b` on unsigned integers. -/
def sub (a b : ℕ) : Checked ε ℕ := if b ≤ a then .ok (a - b) else .error .panic

/-- `x << s` on `u32`. -/
def shl (x : UInt32) (s : ℕ) : Checked ε UInt32 :=
  if s < 32 then .ok ⟨x.toBitVec <<< s⟩ else .error .panic

/-- `x >> s` on `u32`. -/
def shr (x : UInt32) (s : ℕ) : Checked ε UInt32 :=
  if s < 32 then .ok ⟨x.toBitVec >>> s⟩ else .error .panic

/-- `x >> s` on `i32`, which repeats the sign. -/
def sar (x : Int32) (s : ℕ) : Checked ε Int32 :=
  if s < 32 then .ok (Int32.ofBitVec (x.toBitVec.sshiftRight s)) else .error .panic

/-- `dst[..src.len()].copy_from_slice(src)`: the array afterwards. -/
def copyFront (dst src : List α) : Checked ε (List α) :=
  if src.length ≤ dst.length then .ok (src ++ dst.drop src.length) else .error .panic

/-- `map_err`. -/
def mapErr {ε' : Type} (g : ε → ε') : Checked ε α → Checked ε' α
  | .ok a => .ok a
  | .error (.fail e) => .error (.fail (g e))
  | .error .panic => .error .panic
  | .error .outOfRounds => .error .outOfRounds

/-- The program's own errors become results. -/
def recover {ε' : Type} (g : ε → α) : Checked ε α → Checked ε' α
  | .ok a => .ok a
  | .error (.fail e) => .ok (g e)
  | .error .panic => .error .panic
  | .error .outOfRounds => .error .outOfRounds

/-- A `while` loop: the body goes on with a new state or leaves with a result. -/
def loop (body : σ → Checked ε (σ ⊕ β)) : ℕ → σ → Checked ε β
  | 0, _ => .error .outOfRounds
  | rounds + 1, s => do
    match ← body s with
    | .inl s' => loop body rounds s'
    | .inr b => return b

/-! ## 2. The judgment -/

/-- `x` neither panics nor runs out of rounds, and returns only what satisfies `Q`. -/
def Safe (x : Checked ε α) (Q : α → Prop) : Prop :=
  match x with
  | .ok a => Q a
  | .error (.fail _) => True
  | .error _ => False

variable {x : Checked ε α} {P Q : α → Prop}

/-- A safe computation fails with an error of its own or returns. -/
theorem Safe.cases (h : Safe x Q) : (∃ e, x = .error (.fail e)) ∨ ∃ a, x = .ok a ∧ Q a := by
  match x, h with
  | .ok a, h => exact Or.inr ⟨a, rfl, h⟩
  | .error (.fail e), _ => exact Or.inl ⟨e, rfl⟩

theorem safe_ok {a : α} (h : Q a) : Safe (.ok a : Checked ε α) Q := h

theorem safe_pure {a : α} (h : Q a) : Safe (pure a : Checked ε α) Q := h

theorem safe_fail (e : ε) : Safe (fail e : Checked ε α) Q := trivial

theorem Safe.mono (h : Safe x P) (hPQ : ∀ a, P a → Q a) : Safe x Q := by
  rcases h.cases with ⟨e, rfl⟩ | ⟨a, rfl, ha⟩
  · exact trivial
  · exact hPQ a ha

/-- What is returned is also known as that. -/
theorem Safe.returned (h : Safe x Q) : Safe x fun a => x = .ok a ∧ Q a := by
  rcases h.cases with ⟨e, rfl⟩ | ⟨a, rfl, ha⟩
  · exact trivial
  · exact ⟨rfl, ha⟩

theorem Safe.bind {f : α → Checked ε β} {R : β → Prop} (hx : Safe x P)
    (hf : ∀ a, P a → Safe (f a) R) : Safe (x >>= f) R := by
  rcases hx.cases with ⟨e, rfl⟩ | ⟨a, rfl, ha⟩
  · exact trivial
  · exact hf a ha

/-- A check that fails when `c` holds: afterwards `c` does not hold. -/
theorem Safe.guard {c : Prop} [Decidable c] {e : ε} {y : Checked ε α}
    (h : ¬ c → Safe y Q) : Safe (if c then fail e else y) Q := by
  split
  · exact trivial
  · exact h ‹_›

theorem safe_foldlM {f : β → α → Checked ε β} {I : β → Prop} (l : List α) {b : β} (hb : I b)
    (hf : ∀ b, ∀ a ∈ l, I b → Safe (f b a) I) : Safe (l.foldlM f b) I := by
  induction l generalizing b with
  | nil => exact safe_pure hb
  | cons a l ih =>
    rw [List.foldlM_cons]
    refine (hf b a List.mem_cons_self hb).bind fun b' hb' => ?_
    exact ih hb' fun b a ha => hf b a (List.mem_cons_of_mem _ ha)

/-- A fold whose invariant knows what has been gone through. -/
theorem safe_foldlM_done {f : β → α → Checked ε β} {I : List α → β → Prop} {l : List α} {b : β}
    (hb : I [] b)
    (hf : ∀ done a more b, l = done ++ a :: more → I done b → Safe (f b a) (I (done ++ [a]))) :
    Safe (l.foldlM f b) (I l) := by
  suffices h : ∀ more done b, l = done ++ more → I done b → Safe (more.foldlM f b) (I l) from
    h l [] b rfl hb
  intro more
  induction more with
  | nil =>
    intro done b hl hdone
    rw [List.append_nil] at hl
    rw [hl]
    exact safe_pure hdone
  | cons a more ih =>
    intro done b hl hdone
    rw [List.foldlM_cons]
    refine (hf done a more b hl hdone).bind fun b' hb' => ?_
    exact ih (done ++ [a]) b' (by rw [hl, List.append_assoc, List.singleton_append]) hb'

theorem safe_mapM {f : α → Checked ε β} (l : List α) (hf : ∀ a ∈ l, Safe (f a) fun _ => True) :
    Safe (l.mapM f) fun bs => bs.length = l.length := by
  induction l with
  | nil => exact safe_pure rfl
  | cons a l ih =>
    rw [List.mapM_cons]
    refine (hf a List.mem_cons_self).bind fun b _ => ?_
    refine (ih fun a ha => hf a (List.mem_cons_of_mem _ ha)).bind fun bs hbs => safe_pure ?_
    rw [List.length_cons, List.length_cons, hbs]

/-- Another name for an error is as safe. -/
theorem Safe.mapErr {ε' : Type} {g : ε → ε'} (h : Safe x Q) : Safe (mapErr g x) Q := by
  rcases h.cases with ⟨e, rfl⟩ | ⟨a, rfl, ha⟩
  · exact trivial
  · exact ha

/-- **The loop rule.** A body that keeps the invariant and brings the variant down ends within as
many rounds as the variant says.  The body returns in the sum whether to go on, so the result of
the loop is what the last round returned. -/
theorem safe_loop {body : σ → Checked ε (σ ⊕ β)} {I : σ → Prop} (variant : σ → ℕ)
    {R : β → Prop}
    (hbody : ∀ s, I s → Safe (body s) (Sum.elim (fun s' => I s' ∧ variant s' < variant s) R))
    (rounds : ℕ) : ∀ {s : σ}, I s → variant s < rounds → Safe (loop body rounds s) R := by
  induction rounds with
  | zero =>
    intro s _ hlt
    exact absurd hlt (Nat.not_lt_zero _)
  | succ rounds ih =>
    intro s hs hlt
    refine (hbody s hs).bind fun r hr => ?_
    cases r with
    | inl s' =>
      have hdown : variant s' < variant s := hr.2
      exact ih hr.1 (by omega)
    | inr b => exact hr

/-! ## 3. Which errors -/

/-- `x` is safe, and an error of its own that it fails with satisfies `E`. -/
def Ends (x : Checked ε α) (Q : α → Prop) (E : ε → Prop) : Prop :=
  match x with
  | .ok a => Q a
  | .error (.fail e) => E e
  | .error _ => False

variable {E : ε → Prop}

theorem Ends.cases (h : Ends x Q E) :
    (∃ e, x = .error (.fail e) ∧ E e) ∨ ∃ a, x = .ok a ∧ Q a := by
  match x, h with
  | .ok a, h => exact Or.inr ⟨a, rfl, h⟩
  | .error (.fail e), h => exact Or.inl ⟨e, rfl, h⟩

theorem ends_ok {a : α} (h : Q a) : Ends (.ok a : Checked ε α) Q E := h

theorem ends_pure {a : α} (h : Q a) : Ends (pure a : Checked ε α) Q E := h

theorem ends_fail {e : ε} (h : E e) : Ends (fail e : Checked ε α) Q E := h

theorem Ends.bind {f : α → Checked ε β} {R : β → Prop} (hx : Ends x P E)
    (hf : ∀ a, P a → Ends (f a) R E) : Ends (x >>= f) R E := by
  rcases hx.cases with ⟨e, rfl, he⟩ | ⟨a, rfl, ha⟩
  · exact he
  · exact hf a ha

theorem Ends.guard {c : Prop} [Decidable c] {e : ε} {y : Checked ε α} (he : E e)
    (h : ¬ c → Ends y Q E) : Ends (if c then fail e else y) Q E := by
  split
  · exact he
  · exact h ‹_›

theorem ends_foldlM {f : β → α → Checked ε β} {I : β → Prop} (l : List α) {b : β} (hb : I b)
    (hf : ∀ b, ∀ a ∈ l, I b → Ends (f b a) I E) : Ends (l.foldlM f b) I E := by
  induction l generalizing b with
  | nil => exact ends_pure hb
  | cons a l ih =>
    rw [List.foldlM_cons]
    refine (hf b a List.mem_cons_self hb).bind fun b' hb' => ?_
    exact ih hb' fun b a ha => hf b a (List.mem_cons_of_mem _ ha)

/-- What a computation fails with is what its errors are turned into. -/
theorem ends_mapErr {ε' : Type} {g : ε' → ε} {y : Checked ε' α} (h : Safe y Q)
    (hg : ∀ e, E (g e)) : Ends (mapErr g y) Q E := by
  rcases h.cases with ⟨e, rfl⟩ | ⟨a, rfl, ha⟩
  · exact hg e
  · exact ha

/-! ## 4. Operations in range -/

/-- What has returned goes on. -/
theorem ok_bind (a : α) (f : α → Checked ε β) : (Except.ok a : Checked ε α) >>= f = f a := rfl

/-- What has failed does not. -/
theorem fail_bind (e : ε) (f : α → Checked ε β) : (fail e : Checked ε α) >>= f = fail e := rfl

theorem mapErr_ok {ε' : Type} (g : ε → ε') (a : α) :
    mapErr g (.ok a : Checked ε α) = .ok a := rfl

theorem mapErr_fail {ε' : Type} (g : ε → ε') (e : ε) :
    mapErr g (fail e : Checked ε α) = fail (g e) := rfl

theorem mapErr_eq_ok {ε' : Type} {g : ε → ε'} {x : Checked ε α} {a : α} :
    mapErr g x = .ok a ↔ x = .ok a := by
  rcases x with (_ | _ | e) | b <;> simp [mapErr]

theorem index_eq {l : List α} {i : ℕ} (h : i < l.length) :
    (index l i : Checked ε α) = .ok l[i] := by
  rw [index, List.getElem?_eq_getElem h]

theorem index_map (f : α → β) (l : List α) (i : ℕ) :
    (index (l.map f) i : Checked ε β) = (index l i).map f := by
  simp only [index, List.getElem?_map]
  cases l[i]? with
  | none => rfl
  | some a => rfl

theorem slice_eq {l : List α} {a b : ℕ} (hab : a ≤ b) (hb : b ≤ l.length) :
    (slice l a b : Checked ε (List α)) = .ok ((l.drop a).take (b - a)) := if_pos ⟨hab, hb⟩

/-- An index into a part that the list begins with. -/
theorem index_append_left {l : List α} {i : ℕ} (h : i < l.length) (more : List α) :
    (index (l ++ more) i : Checked ε α) = index l i := by
  rw [index, index, List.getElem?_append_left h]

/-- A slice of a part that the list begins with. -/
theorem slice_append_left {l : List α} {b : ℕ} (h : b ≤ l.length) (a : ℕ) (more : List α) :
    (slice (l ++ more) a b : Checked ε (List α)) = slice l a b := by
  by_cases hab : a ≤ b
  · have hlong : b ≤ (l ++ more).length := by
      rw [List.length_append]
      omega
    rw [slice_eq hab h, slice_eq hab hlong, List.drop_append_of_le_length (by omega),
      List.take_append_of_le_length (by rw [List.length_drop]; omega)]
  · rw [slice, slice, if_neg fun hboth => hab hboth.1, if_neg fun hboth => hab hboth.1]

/-- A part with something before it and something after it. -/
theorem slice_middle (front : List α) {part : List α} (back : List α) {a b : ℕ}
    (ha : front.length = a) (hb : a + part.length = b) :
    (slice (front ++ (part ++ back)) a b : Checked ε (List α)) = .ok part := by
  subst ha hb
  rw [slice_eq (Nat.le_add_right _ _) (by simp [← Nat.add_assoc]), List.drop_left,
    Nat.add_sub_cancel_left, List.take_left]

theorem copyFront_eq {dst src : List α} (h : src.length ≤ dst.length) :
    (copyFront dst src : Checked ε (List α)) = .ok (src ++ dst.drop src.length) := if_pos h

theorem sub_eq {a b : ℕ} (h : b ≤ a) : (sub a b : Checked ε ℕ) = .ok (a - b) := if_pos h

theorem shl_eq {x : UInt32} {s : ℕ} (h : s < 32) :
    (shl x s : Checked ε UInt32) = .ok ⟨x.toBitVec <<< s⟩ := if_pos h

theorem shr_eq {x : UInt32} {s : ℕ} (h : s < 32) :
    (shr x s : Checked ε UInt32) = .ok ⟨x.toBitVec >>> s⟩ := if_pos h

theorem sar_eq {x : Int32} {s : ℕ} (h : s < 32) :
    (sar x s : Checked ε Int32) = .ok (Int32.ofBitVec (x.toBitVec.sshiftRight s)) := if_pos h

/-- A loop over indices in which index `start + i` appends the yield of `cells[i]` appends the
yields of all cells. -/
theorem foldlM_range'_eq {γ : Type} {f : List β → ℕ → Checked ε (List β)} {g : γ → List β}
    (cells : List γ) : ∀ (start : ℕ) (acc : List β),
      (∀ (i : ℕ) (hi : i < cells.length) (acc : List β),
        f acc (start + i) = .ok (acc ++ g cells[i])) →
      (List.range' start cells.length).foldlM f acc = .ok (acc ++ cells.flatMap g) := by
  induction cells with
  | nil =>
    intro start acc _
    rw [List.flatMap_nil, List.append_nil]
    rfl
  | cons c cells ih =>
    intro start acc h
    have hfirst : f acc start = .ok (acc ++ g c) := h 0 (Nat.succ_pos _) acc
    have hrest := ih (start + 1) (acc ++ g c) fun i hi acc => by
      have hi := h (i + 1) (Nat.succ_lt_succ hi) acc
      rwa [← Nat.add_assoc, Nat.add_right_comm] at hi
    rw [List.length_cons, List.range'_succ, List.foldlM_cons, hfirst, List.flatMap_cons,
      ← List.append_assoc]
    exact hrest

theorem safe_index {l : List α} {i : ℕ} (h : i < l.length) :
    Safe (index l i : Checked ε α) fun a => l[i]? = some a := by
  rw [index_eq h]
  exact List.getElem?_eq_getElem h

theorem safe_unwrap {o : Option α} (h : o.isSome = true) :
    Safe (unwrap o : Checked ε α) fun a => o = some a := by
  obtain ⟨a, rfl⟩ := Option.isSome_iff_exists.mp h
  exact rfl

theorem safe_sub {a b : ℕ} (h : b ≤ a) : Safe (sub a b : Checked ε ℕ) fun n => n = a - b := by
  rw [sub_eq h]
  exact safe_ok rfl

theorem safe_shl {x : UInt32} {s : ℕ} (h : s < 32) :
    Safe (shl x s : Checked ε UInt32) fun _ => True := by
  rw [shl_eq h]
  exact safe_ok trivial

theorem safe_shr {x : UInt32} {s : ℕ} (h : s < 32) :
    Safe (shr x s : Checked ε UInt32) fun _ => True := by
  rw [shr_eq h]
  exact safe_ok trivial

theorem safe_sar {x : Int32} {s : ℕ} (h : s < 32) :
    Safe (sar x s : Checked ε Int32) fun _ => True := by
  rw [sar_eq h]
  exact safe_ok trivial

theorem safe_slice {l : List α} {a b : ℕ} (hab : a ≤ b) (hb : b ≤ l.length) :
    Safe (slice l a b : Checked ε (List α)) fun s =>
      s = (l.drop a).take (b - a) ∧ s.length = b - a := by
  rw [slice_eq hab hb]
  refine ⟨rfl, ?_⟩
  rw [List.length_take, List.length_drop]
  omega

end Checked

end Lib
