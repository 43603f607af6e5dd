/-
# Results

What a chain of fallible steps says when it succeeds: each of its steps has succeeded, and the
next one went on with what it returned.  A list of fallible steps succeeds when each of them does.

The rules are equivalences, so that a program is taken apart and put together with the same
lemmas.
-/
import Mathlib.Data.List.Basic
import Mathlib.Data.List.Forall2

namespace Lib

variable {ε ε' α β : Type}

/-- **A chain succeeds** when its first step does and the rest does on what it returns. -/
theorem bind_eq_ok {x : Except ε α} {f : α → Except ε β} {b : β} :
    x >>= f = .ok b ↔ ∃ a, x = .ok a ∧ f a = .ok b := by
  cases x with
  | error e =>
    constructor
    · intro h
      cases h
    · rintro ⟨a, h, -⟩
      cases h
  | ok a =>
    constructor
    · intro h
      exact ⟨a, rfl, h⟩
    · rintro ⟨a', h, hf⟩
      cases h
      exact hf

/-- A first step that returns one thing, under a condition. -/
theorem bind_eq_ok_and {x : Except ε α} {f : α → Except ε β} {P Q : Prop} {a : α} {b : β}
    (hx : ∀ {c}, x = .ok c ↔ P ∧ c = a) (hf : P → (f a = .ok b ↔ Q)) :
    x >>= f = .ok b ↔ P ∧ Q := by
  rw [bind_eq_ok]
  constructor
  · rintro ⟨c, hc, h⟩
    obtain ⟨hP, rfl⟩ := hx.mp hc
    exact ⟨hP, (hf hP).mp h⟩
  · rintro ⟨hP, hQ⟩
    exact ⟨a, hx.mpr ⟨hP, rfl⟩, (hf hP).mpr hQ⟩

/-- A first step that returns one thing, under a condition from which the rest returns. -/
theorem bind_eq_ok_iff {x : Except ε α} {f : α → Except ε β} {P : Prop} {a : α} {b b' : β}
    (hx : ∀ {c}, x = .ok c ↔ P ∧ c = a) (hf : P → f a = .ok b) :
    x >>= f = .ok b' ↔ P ∧ b' = b :=
  bind_eq_ok_and hx fun hP => by
    rw [hf hP]
    exact ⟨fun h => (Except.ok.inj h).symm, fun h => congrArg Except.ok h.symm⟩

theorem map_eq_ok {x : Except ε α} {f : α → β} {b : β} :
    x.map f = .ok b ↔ ∃ a, x = .ok a ∧ f a = b := by
  cases x with
  | error e => exact iff_of_false (fun h => by cases h) (fun ⟨_, h, _⟩ => by cases h)
  | ok a =>
    constructor
    · intro h
      exact ⟨a, rfl, Except.ok.inj h⟩
    · rintro ⟨a', h, rfl⟩
      cases h
      rfl

theorem ok_of_mem_toOption {x : Except ε α} {a : α} (h : a ∈ x.toOption.toList) : x = .ok a := by
  cases x with
  | error e => cases h
  | ok a' => rw [List.mem_singleton.mp h]

/-- A step succeeds whatever its errors are turned into. -/
theorem mapError_eq_ok {x : Except ε α} {g : ε → ε'} {a : α} :
    x.mapError g = .ok a ↔ x = .ok a := by
  cases x with
  | error e =>
    refine iff_of_false ?_ ?_
    · intro h
      cases h
    · intro h
      cases h
  | ok a' =>
    constructor
    · intro h
      cases h
      rfl
    · intro h
      cases h
      rfl

/-- **A list of steps succeeds** when each of them does. -/
theorem mapM_eq_ok {f : α → Except ε β} {l : List α} : ∀ {r : List β},
    l.mapM f = .ok r ↔ List.Forall₂ (fun a b => f a = .ok b) l r := by
  induction l with
  | nil =>
    intro r
    rw [List.mapM_nil, List.forall₂_nil_left_iff]
    exact ⟨fun h => (Except.ok.inj h).symm, fun h => congrArg _ h.symm⟩
  | cons a l ih =>
    intro r
    rw [List.mapM_cons, bind_eq_ok, List.forall₂_cons_left_iff]
    constructor
    · rintro ⟨b, hb, h⟩
      obtain ⟨r, hr, h⟩ := bind_eq_ok.mp h
      cases h
      exact ⟨b, r, hb, ih.mp hr, rfl⟩
    · rintro ⟨b, r, hb, hr, rfl⟩
      refine ⟨b, hb, ?_⟩
      rw [ih.mpr hr]
      rfl

/-- Two relations of lists, one behind the other. -/
theorem forall₂_comp {γ : Type} {R : α → β → Prop} {S : β → γ → Prop} {as : List α} :
    ∀ {cs : List γ}, (∃ bs, List.Forall₂ R as bs ∧ List.Forall₂ S bs cs) ↔
      List.Forall₂ (fun a c => ∃ b, R a b ∧ S b c) as cs := by
  induction as with
  | nil =>
    intro cs
    constructor
    · rintro ⟨bs, hbs, hcs⟩
      cases hbs
      cases hcs
      exact .nil
    · intro h
      cases h
      exact ⟨[], .nil, .nil⟩
  | cons a as ih =>
    intro cs
    constructor
    · rintro ⟨bs, hbs, hcs⟩
      cases hbs with
      | cons hab hbs =>
        cases hcs with
        | cons hbc hcs => exact .cons ⟨_, hab, hbc⟩ (ih.mp ⟨_, hbs, hcs⟩)
    · intro h
      cases h with
      | cons hac h =>
        obtain ⟨b, hab, hbc⟩ := hac
        obtain ⟨bs, hbs, hcs⟩ := ih.mpr h
        exact ⟨b :: bs, .cons hab hbs, .cons hbc hcs⟩

/-- A list of checks passes when each of them does. -/
theorem forM_eq_ok {f : α → Except ε Unit} {l : List α} :
    l.forM f = .ok () ↔ ∀ a ∈ l, f a = .ok () := by
  induction l with
  | nil => exact iff_of_true rfl (by simp)
  | cons a l ih =>
    have hcons : (a :: l).forM f = f a >>= fun _ => l.forM f := rfl
    rw [hcons, bind_eq_ok, List.forall_mem_cons, ← ih]
    constructor
    · rintro ⟨_, ha, hrest⟩
      exact ⟨ha, hrest⟩
    · rintro ⟨ha, hrest⟩
      exact ⟨(), ha, hrest⟩

/-- Every result is one of a step. -/
theorem exists_of_mem_mapM {f : α → Except ε β} {l : List α} {r : List β} {b : β}
    (h : l.mapM f = .ok r) (hb : b ∈ r) : ∃ a ∈ l, f a = .ok b := by
  have hall := mapM_eq_ok.mp h
  clear h
  induction hall with
  | nil => cases hb
  | cons ha _ ih =>
    rcases List.mem_cons.mp hb with rfl | hb
    · exact ⟨_, List.mem_cons_self, ha⟩
    · obtain ⟨a, hmem, ha⟩ := ih hb
      exact ⟨a, List.mem_cons_of_mem _ hmem, ha⟩

/-- Every answer is one to an entry. -/
theorem exists_of_mem_mapM_some {f : α → Option β} {l : List α} : ∀ {r : List β} {b : β},
    l.mapM f = some r → b ∈ r → ∃ a ∈ l, f a = some b := by
  induction l with
  | nil =>
    intro r b h hb
    cases h
    cases hb
  | cons a l ih =>
    intro r b h hb
    rw [List.mapM_cons] at h
    obtain ⟨first, hfirst, h⟩ := Option.bind_eq_some_iff.mp h
    obtain ⟨rest, hrest, h⟩ := Option.bind_eq_some_iff.mp h
    cases h
    rcases List.mem_cons.mp hb with rfl | hb
    · exact ⟨a, List.mem_cons_self, hfirst⟩
    · obtain ⟨a', ha', hmem⟩ := ih hrest hb
      exact ⟨a', List.mem_cons_of_mem _ ha', hmem⟩

/-- Steps that agree on the list do the same. -/
theorem mapM_congr_ok {f g : α → Except ε β} {l : List α} (h : ∀ a ∈ l, f a = g a) :
    l.mapM f = l.mapM g := by
  induction l with
  | nil => rfl
  | cons a l ih =>
    rw [List.mapM_cons, List.mapM_cons, h a List.mem_cons_self,
      ih fun a ha => h a (List.mem_cons_of_mem _ ha)]

/-- A loop whose steps do not fail is a fold. -/
theorem foldlM_eq_ok {f : β → α → Except ε β} {g : β → α → β} (l : List α)
    (h : ∀ b, ∀ a ∈ l, f b a = .ok (g b a)) : ∀ (b : β), l.foldlM f b = .ok (l.foldl g b) := by
  induction l with
  | nil => exact fun b => rfl
  | cons a l ih =>
    intro b
    rw [List.foldlM_cons, h b a List.mem_cons_self]
    exact ih (fun b a ha => h b a (List.mem_cons_of_mem _ ha)) (g b a)

/-- A loop whose steps succeed where those of another do ends with the same. -/
theorem foldlM_ok_mono {f g : β → α → Except ε β}
    (h : ∀ b a b', f b a = .ok b' → g b a = .ok b') {l : List α} : ∀ {b b' : β},
      l.foldlM f b = .ok b' → l.foldlM g b = .ok b' := by
  induction l with
  | nil => exact fun hb => hb
  | cons a l ih =>
    intro b b' hb
    rw [List.foldlM_cons] at hb ⊢
    obtain ⟨next, hnext, hrest⟩ := bind_eq_ok.mp hb
    exact bind_eq_ok.mpr ⟨next, h b a next hnext, ih hrest⟩

/-- A loop that ends keeps an invariant that knows what has been gone through. -/
theorem foldlM_ok_done {f : β → α → Except ε β} {I : List α → β → Prop}
    (hf : ∀ done a b b', I done b → f b a = .ok b' → I (done ++ [a]) b') {l : List α} :
    ∀ {done : List α} {b b' : β}, I done b → l.foldlM f b = .ok b' → I (done ++ l) b' := by
  induction l with
  | nil =>
    intro done b b' hb h
    obtain rfl := Except.ok.inj h
    rwa [List.append_nil]
  | cons a l ih =>
    intro done b b' hb h
    rw [List.foldlM_cons] at h
    obtain ⟨next, hnext, hrest⟩ := bind_eq_ok.mp h
    have hall := ih (hf done a b next hb hnext) hrest
    rwa [List.append_assoc, List.singleton_append] at hall

end Lib
