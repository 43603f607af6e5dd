/-
# Writers that can be read back in only one way

A WRITER appends the encoding of a value to a buffer: `w buf x`.  It is a `PrefixCode` for a
view `q` of the values when its output decides `q x` and where the output ends, whatever
follows it: if `w [] x ++ r = w [] y ++ s` then `q x = q y` and `r = s`.  The view is what the
format promises to preserve; a format that folds several values into one encoding (all the
NaNs into one, say) is a prefix code for the folded view and for nothing finer.

The point of the definition is that it COMPOSES.  Writing one field after another, choosing
between two tagged alternatives, and writing a counted sequence each give a prefix code from
prefix codes, so a whole record format is settled by naming its writers in order:

* `PrefixCode.fixed`  -- encodings of one length;
* `PrefixCode.seq`    -- one field after the other;
* `PrefixCode.sum`    -- a tag, then one of two alternatives;
* `PrefixCode.option` -- a presence tag, then the value if there is one;
* `PrefixCode.list`   -- a count, then that many items;
* `PrefixCode.comap`, `PrefixCode.refine` -- change of the value type, the view, the writer.

A side condition `ok` restricts the values: length prefixes of fixed width cannot tell apart
sequences longer than the width counts.
-/
import Mathlib.Data.List.Basic

namespace Lib

variable {β α α' γ γ' δ : Type}

/-- The writer `w` is uniquely readable on the values satisfying `ok`, up to the view `q`. -/
structure PrefixCode (w : List β → α → List β) (ok : α → Prop) (q : α → γ) : Prop where
  /-- a writer only appends -/
  append : ∀ buf x, w buf x = buf ++ w [] x
  /-- the output decides the view, and its own end -/
  read : ∀ {x y r s}, ok x → ok y → w [] x ++ r = w [] y ++ s → q x = q y ∧ r = s
  /-- the output depends on the view alone -/
  view : ∀ {x y}, q x = q y → w [] x = w [] y

namespace PrefixCode

variable {w : List β → α → List β} {ok : α → Prop} {q : α → γ}
variable {w' : List β → α' → List β} {ok' : α' → Prop} {q' : α' → γ'}

/-- **Equal output means equal view**, for values within the side condition. -/
theorem eq_iff (h : PrefixCode w ok q) {x y : α} (hx : ok x) (hy : ok y) :
    w [] x = w [] y ↔ q x = q y := by
  constructor
  · intro hw
    exact (h.read (r := []) (s := []) hx hy (by rw [List.append_nil, List.append_nil, hw])).1
  · exact h.view

/-- The read law behind a common buffer. -/
theorem read_buf (h : PrefixCode w ok q) {buf : List β} {x y : α} {r s : List β} (hx : ok x)
    (hy : ok y) (he : w buf x ++ r = w buf y ++ s) : q x = q y ∧ r = s := by
  rw [h.append buf x, h.append buf y, List.append_assoc, List.append_assoc] at he
  exact h.read hx hy (List.append_cancel_left he)

/-- Encodings of one fixed length. -/
theorem fixed {e : α → List β} {n : ℕ} (hlen : ∀ x, (e x).length = n)
    (hq : ∀ {x y}, ok x → ok y → e x = e y → q x = q y)
    (hview : ∀ {x y}, q x = q y → e x = e y) :
    PrefixCode (fun buf x => buf ++ e x) ok q where
  append buf x := by rw [List.nil_append]
  read {x y r s} hx hy h := by
    rw [List.nil_append, List.nil_append] at h
    obtain ⟨h1, h2⟩ := List.append_inj h ((hlen x).trans (hlen y).symm)
    exact ⟨hq hx hy h1, h2⟩
  view h := by rw [List.nil_append, List.nil_append, hview h]

/-- Encodings of one fixed length that tell all the values apart. -/
theorem fixed_id {e : α → List β} {n : ℕ} (hlen : ∀ x, (e x).length = n)
    (hinj : ∀ {x y}, ok x → ok y → e x = e y → x = y) :
    PrefixCode (fun buf x => buf ++ e x) ok id :=
  fixed hlen hinj (fun h => congrArg e h)

/-- A writer that writes nothing, for a type of one value. -/
theorem unit : PrefixCode (fun (buf : List β) (_ : Unit) => buf) (fun _ => True) id where
  append buf _ := (List.append_nil buf).symm
  read _ _ h := ⟨rfl, h⟩
  view _ := rfl

/-- Encode through a function on the values. -/
theorem comap (h : PrefixCode w ok q) (f : δ → α) :
    PrefixCode (fun buf x => w buf (f x)) (fun x => ok (f x)) (fun x => q (f x)) where
  append buf x := h.append buf (f x)
  read hx hy he := h.read hx hy he
  view he := h.view he

/-- Restate a prefix code: another name for the writer, a stronger side condition, an
equivalent view. -/
theorem refine {w₂ : List β → α → List β} {ok₂ : α → Prop} {q₂ : α → δ}
    (h : PrefixCode w ok q) (hw : ∀ buf x, w₂ buf x = w buf x) (hok : ∀ x, ok₂ x → ok x)
    (hq : ∀ x y, q x = q y ↔ q₂ x = q₂ y) : PrefixCode w₂ ok₂ q₂ where
  append buf x := by rw [hw, hw, h.append]
  read {x y r s} hx hy he := by
    rw [hw, hw] at he
    obtain ⟨h1, h2⟩ := h.read (hok x hx) (hok y hy) he
    exact ⟨(hq x y).mp h1, h2⟩
  view {x y} he := by rw [hw, hw, h.view ((hq x y).mpr he)]

/-- **One field after the other.** -/
theorem seq (h : PrefixCode w ok q) (h' : PrefixCode w' ok' q') :
    PrefixCode (fun buf x => w' (w buf x.1) x.2) (fun x : α × α' => ok x.1 ∧ ok' x.2)
      (fun x => (q x.1, q' x.2)) where
  append buf x := by
    rw [h'.append (w buf x.1), h.append buf, h'.append (w [] x.1), List.append_assoc]
  read {x y r s} hx hy he := by
    rw [h'.append (w [] x.1), h'.append (w [] y.1), List.append_assoc, List.append_assoc] at he
    obtain ⟨h1, h2⟩ := h.read hx.1 hy.1 he
    obtain ⟨h3, h4⟩ := h'.read hx.2 hy.2 h2
    exact ⟨Prod.ext h1 h3, h4⟩
  view {x y} he := by
    rw [h'.append (w [] x.1), h'.append (w [] y.1), h.view (congrArg Prod.fst he),
      h'.view (congrArg Prod.snd he)]

/-- **A tag, then one of two alternatives.** -/
theorem sum (h : PrefixCode w ok q) (h' : PrefixCode w' ok' q') (t t' : β) (ht : t ≠ t') :
    PrefixCode
      (fun buf (x : α ⊕ α') =>
        Sum.elim (fun a => w (buf ++ [t]) a) (fun a => w' (buf ++ [t']) a) x)
      (Sum.elim ok ok') (Sum.map q q') where
  append buf x := by
    cases x with
    | inl a =>
      rw [Sum.elim_inl, Sum.elim_inl, h.append (buf ++ [t]), h.append ([] ++ [t]),
        List.nil_append, List.append_assoc]
    | inr a =>
      rw [Sum.elim_inr, Sum.elim_inr, h'.append (buf ++ [t']), h'.append ([] ++ [t']),
        List.nil_append, List.append_assoc]
  read {x y r s} hx hy he := by
    cases x with
    | inl a =>
      cases y with
      | inl b =>
        obtain ⟨h1, h2⟩ := h.read_buf hx hy he
        exact ⟨congrArg Sum.inl h1, h2⟩
      | inr b =>
        rw [Sum.elim_inl, Sum.elim_inr, h.append, h'.append] at he
        exact absurd (List.cons.inj he).1 ht
    | inr a =>
      cases y with
      | inl b =>
        rw [Sum.elim_inl, Sum.elim_inr, h.append, h'.append] at he
        exact absurd (List.cons.inj he).1.symm ht
      | inr b =>
        obtain ⟨h1, h2⟩ := h'.read_buf hx hy he
        exact ⟨congrArg Sum.inr h1, h2⟩
  view {x y} he := by
    cases x with
    | inl a =>
      cases y with
      | inl b =>
        rw [Sum.elim_inl, Sum.elim_inl, h.append _ a, h.append _ b, h.view (Sum.inl.inj he)]
      | inr b => cases he
    | inr a =>
      cases y with
      | inl b => cases he
      | inr b =>
        rw [Sum.elim_inr, Sum.elim_inr, h'.append _ a, h'.append _ b, h'.view (Sum.inr.inj he)]

/-- **A presence tag, then the value if there is one.** -/
theorem option (h : PrefixCode w ok q) (t t' : β) (ht : t ≠ t') :
    PrefixCode
      (fun buf (o : Option α) =>
        match o with
        | none => buf ++ [t]
        | some x => w (buf ++ [t']) x)
      (fun o => ∀ x ∈ o, ok x) (Option.map q) := by
  have hs := (unit.sum h t t' ht).comap
    (fun o : Option α => match o with | none => Sum.inl () | some x => Sum.inr x)
  refine hs.refine (fun buf o => ?_) (fun o ho => ?_) (fun a b => ?_)
  · cases o <;> rfl
  · cases o with
    | none => exact trivial
    | some x => exact ho x rfl
  · cases a <;> cases b <;> simp

/-- Writing the items of a list one after the other only appends. -/
theorem foldl_append (h : PrefixCode w ok q) (xs : List α) :
    ∀ buf : List β, xs.foldl w buf = buf ++ xs.foldl w [] := by
  induction xs with
  | nil =>
    intro buf
    exact (List.append_nil buf).symm
  | cons x xs ih =>
    intro buf
    rw [List.foldl_cons, List.foldl_cons, ih (w buf x), ih (w [] x), h.append buf x,
      List.append_assoc]

/-- Two lists of one length can be read back item by item. -/
theorem foldl_read (h : PrefixCode w ok q) {xs : List α} (hxs : ∀ x ∈ xs, ok x) :
    ∀ {ys : List α} {r s : List β}, xs.length = ys.length → (∀ y ∈ ys, ok y) →
      xs.foldl w [] ++ r = ys.foldl w [] ++ s → xs.map q = ys.map q ∧ r = s := by
  induction xs with
  | nil =>
    intro ys r s hlen _ he
    obtain rfl := List.length_eq_zero_iff.mp hlen.symm
    exact ⟨rfl, he⟩
  | cons x xs ih =>
    intro ys r s hlen hys he
    cases ys with
    | nil => cases hlen
    | cons y ys =>
      rw [List.forall_mem_cons] at hxs hys
      rw [List.foldl_cons, List.foldl_cons, h.foldl_append xs, h.foldl_append ys,
        List.append_assoc, List.append_assoc] at he
      obtain ⟨h1, h2⟩ := h.read hxs.1 hys.1 he
      obtain ⟨h3, h4⟩ := ih hxs.2 (Nat.succ.inj hlen) hys.2 h2
      exact ⟨by rw [List.map_cons, List.map_cons, h1, h3], h4⟩

theorem foldl_view (h : PrefixCode w ok q) {xs : List α} :
    ∀ {ys : List α}, xs.map q = ys.map q → xs.foldl w [] = ys.foldl w [] := by
  induction xs with
  | nil =>
    intro ys he
    obtain rfl := List.map_eq_nil_iff.mp he.symm
    rfl
  | cons x xs ih =>
    intro ys he
    cases ys with
    | nil => cases he
    | cons y ys =>
      rw [List.map_cons, List.map_cons] at he
      obtain ⟨h1, h2⟩ := List.cons.inj he
      rw [List.foldl_cons, List.foldl_cons, h.foldl_append xs, h.foldl_append ys, h.view h1,
        ih h2]

/-- **A count, then that many items.** -/
theorem list {wc : List β → ℕ → List β} {okc : ℕ → Prop} (hc : PrefixCode wc okc id)
    (h : PrefixCode w ok q) :
    PrefixCode (fun buf (xs : List α) => xs.foldl w (wc buf xs.length))
      (fun xs => okc xs.length ∧ ∀ x ∈ xs, ok x) (fun xs => xs.map q) where
  append buf xs := by
    rw [h.foldl_append xs, h.foldl_append xs (wc [] _), hc.append buf, List.append_assoc]
  read {xs ys r s} hx hy he := by
    rw [h.foldl_append xs, h.foldl_append ys, List.append_assoc, List.append_assoc] at he
    obtain ⟨h1, h2⟩ := hc.read hx.1 hy.1 he
    exact h.foldl_read hx.2 h1 hy.2 h2
  view {xs ys} he := by
    have hlen : xs.length = ys.length := by
      have h1 := congrArg List.length he
      rwa [List.length_map, List.length_map] at h1
    rw [h.foldl_append xs, h.foldl_append ys, hlen, h.foldl_view he]

end PrefixCode

end Lib
