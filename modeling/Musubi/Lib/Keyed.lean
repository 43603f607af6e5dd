/-
# Values that carry their keys

A list of values, each with a key of its own, is a table: it is looked up by searching for a key.
An ordered map of such values under their keys holds the same table, and two tables are merged by
inserting the values of the second that the first lacks, where a value that the first has
otherwise is an error.

What a merge returns is determined by the two tables and not by the order in which the second is
gone through, so a client states everything with lookups.
-/
import Musubi.Lib.BTreeMap

namespace Lib

variable {κ ν ε : Type} [LinearOrder κ]

/-! ## 1. Lists -/

/-- The first value with that key. -/
def lookupKey (key : ν → κ) (k : κ) (l : List ν) : Option ν := l.find? fun v => key v = k

section Lookup

variable {key : ν → κ} {l : List ν} {k : κ} {v : ν}

theorem key_of_lookupKey (h : lookupKey key k l = some v) : key v = k :=
  of_decide_eq_true (List.find?_some (p := fun v => decide (key v = k)) h)

theorem mem_of_lookupKey (h : lookupKey key k l = some v) : v ∈ l := List.mem_of_find?_eq_some h

/-- Where no key comes twice, every value is found under its key. -/
theorem lookupKey_eq_some_iff (hnodup : (l.map key).Nodup) :
    lookupKey key k l = some v ↔ v ∈ l ∧ key v = k := by
  constructor
  · intro h
    exact ⟨mem_of_lookupKey h, key_of_lookupKey h⟩
  · rintro ⟨hmem, rfl⟩
    have hsome : (lookupKey key (key v) l).isSome :=
      List.find?_isSome.mpr ⟨v, hmem, decide_eq_true rfl⟩
    obtain ⟨v', hv'⟩ := Option.isSome_iff_exists.mp hsome
    rw [hv', List.inj_on_of_nodup_map hnodup (mem_of_lookupKey hv') hmem (key_of_lookupKey hv')]

theorem lookupKey_cons (v : ν) (l : List ν) (k : κ) :
    lookupKey key k (v :: l) = if key v = k then some v else lookupKey key k l := by
  unfold lookupKey
  rw [List.find?_cons]
  split
  · rename_i h
    rw [if_pos (of_decide_eq_true h)]
  · rename_i h
    rw [if_neg (of_decide_eq_false h)]

end Lookup

/-! ## 2. Maps -/

namespace BTreeMap

/-- The values, in the order of their keys. -/
def values (m : BTreeMap κ ν) : List ν := m.entries.map Prod.snd

/-- Every value stands under its own key. -/
def Indexes (key : ν → κ) (m : BTreeMap κ ν) : Prop := ∀ k v, m.get? k = some v → key v = k

/-- The map of a list of values. -/
def index (key : ν → κ) (l : List ν) : BTreeMap κ ν := .ofList (l.map fun v => (key v, v))

variable {key : ν → κ} {m : BTreeMap κ ν} {l : List ν}

/-- Collecting a list does not change what is looked up. -/
theorem get?_index (hnodup : (l.map key).Nodup) (k : κ) :
    (index key l).get? k = lookupKey key k l := by
  have hkeys : ((l.map fun v => (key v, v)).map Prod.fst).Nodup := by
    rw [List.map_map]
    exact hnodup
  refine Option.ext fun v => ?_
  rw [index, get?_ofList_of_nodup hkeys, lookupKey_eq_some_iff hnodup, List.mem_map]
  constructor
  · rintro ⟨v', hmem, heq⟩
    cases heq
    exact ⟨hmem, rfl⟩
  · rintro ⟨hmem, rfl⟩
    exact ⟨v, hmem, rfl⟩

theorem indexes_index (hnodup : (l.map key).Nodup) : (index key l).Indexes key := by
  intro k v h
  rw [get?_index hnodup] at h
  exact key_of_lookupKey h

theorem key_of_mem_entries (h : m.Indexes key) : ∀ e ∈ m.entries, key e.2 = e.1 :=
  fun e he => h e.1 e.2 (mem_entries_iff.mp he)

theorem map_key_values (h : m.Indexes key) : m.values.map key = m.keys := by
  rw [values, List.map_map]
  exact List.map_congr_left (key_of_mem_entries h)

theorem mem_values {v : ν} (h : m.Indexes key) : v ∈ m.values ↔ m.get? (key v) = some v := by
  rw [values, List.mem_map]
  constructor
  · rintro ⟨e, he, rfl⟩
    rw [key_of_mem_entries h e he]
    exact mem_entries_iff.mp he
  · intro hget
    exact ⟨(key v, v), mem_entries_iff.mpr hget, rfl⟩

/-- Listing the values does not change what is looked up. -/
theorem lookupKey_values (h : m.Indexes key) (k : κ) : lookupKey key k m.values = m.get? k := by
  have hnodup : (m.values.map key).Nodup := by
    rw [map_key_values h]
    exact m.nodup_keys
  refine Option.ext fun v => ?_
  rw [lookupKey_eq_some_iff hnodup, mem_values h]
  constructor
  · rintro ⟨hget, rfl⟩
    exact hget
  · intro hget
    obtain rfl := h k v hget
    exact ⟨hget, rfl⟩

/-! ## 3. Merging -/

/-- Insert the values that are not there yet; a value that is there otherwise is an error. -/
def mergeAll [DecidableEq ν] (key : ν → κ) (conflict : ν → ε) :
    BTreeMap κ ν → List ν → Except ε (BTreeMap κ ν)
  | m, [] => .ok m
  | m, v :: l =>
    match m.get? (key v) with
    | some there => if there ≠ v then .error (conflict v) else mergeAll key conflict m l
    | none => mergeAll key conflict (m.insert (key v) v) l

/-- No value of the list has a key under which another value stands. -/
def Agrees (key : ν → κ) (m : BTreeMap κ ν) (l : List ν) : Prop :=
  ∀ v ∈ l, ∀ there, m.get? (key v) = some there → there = v

/-- Another key is not touched by an insertion. -/
theorem agrees_insert {v : ν} (hv : key v ∉ l.map key) :
    Agrees key (m.insert (key v) v) l ↔ Agrees key m l := by
  have hget (w : ν) (hw : w ∈ l) : (m.insert (key v) v).get? (key w) = m.get? (key w) := by
    rw [get?_insert, if_neg]
    intro heq
    exact hv (heq ▸ List.mem_map_of_mem hw)
  constructor
  · intro h w hw there hthere
    exact h w hw there (hget w hw ▸ hthere)
  · intro h w hw there hthere
    exact h w hw there (hget w hw ▸ hthere)

section Merge

variable [DecidableEq ν] {conflict : ν → ε}

/-- **Merging refuses conflicts and nothing else.** -/
theorem mergeAll_isOk_iff (hnodup : (l.map key).Nodup) :
    ∀ m : BTreeMap κ ν, (∃ m', mergeAll key conflict m l = .ok m') ↔ Agrees key m l := by
  induction l with
  | nil =>
    intro m
    exact iff_of_true ⟨m, rfl⟩ fun _ h => nomatch h
  | cons v l ih =>
    intro m
    obtain ⟨hv, hl⟩ := List.nodup_cons.mp hnodup
    have hcons : Agrees key m (v :: l) ↔
        (∀ there, m.get? (key v) = some there → there = v) ∧ Agrees key m l :=
      List.forall_mem_cons
    rw [hcons, mergeAll]
    cases hget : m.get? (key v) with
    | none =>
      dsimp only
      rw [ih hl, agrees_insert hv]
      exact ⟨fun h => ⟨nofun, h⟩, And.right⟩
    | some there =>
      dsimp only
      split
      · rename_i hne
        refine iff_of_false nofun ?_
        rintro ⟨hsame, -⟩
        exact hne (hsame there rfl)
      · rename_i heq
        rw [ih hl]
        refine ⟨fun h => ⟨?_, h⟩, And.right⟩
        rintro _ ⟨⟩
        exact not_not.mp heq

/-- **What is looked up in a merged table**: what the first has, and else what the second has. -/
theorem get?_mergeAll : ∀ {m m' : BTreeMap κ ν}, mergeAll key conflict m l = .ok m' → ∀ k,
    m'.get? k = (m.get? k).or (lookupKey key k l) := by
  induction l with
  | nil =>
    intro m m' h k
    cases h
    exact (Option.or_none).symm
  | cons v l ih =>
    intro m m' h k
    rw [mergeAll] at h
    rw [lookupKey_cons]
    cases hget : m.get? (key v) with
    | none =>
      rw [hget] at h
      rw [ih h k, get?_insert]
      split
      · rename_i heq
        rw [← heq, hget]
        rfl
      · rfl
    | some there =>
      rw [hget] at h
      dsimp only at h
      split at h
      · cases h
      · rw [ih h k]
        split
        · rename_i heq
          rw [← heq, hget]
          rfl
        · rfl

theorem indexes_mergeAll {m m' : BTreeMap κ ν} (h : mergeAll key conflict m l = .ok m')
    (hm : m.Indexes key) : m'.Indexes key := by
  intro k v hv
  rw [get?_mergeAll h, Option.or_eq_some_iff] at hv
  rcases hv with hv | ⟨-, hv⟩
  · exact hm k v hv
  · exact key_of_lookupKey hv

end Merge

end BTreeMap

end Lib
