/-
# An ordered map as its sorted entries

The reference model of an ordered dictionary: the list of its entries, keys strictly increasing.
Iteration order is part of the value, two maps are equal exactly when they hold the same bindings,
and a lookup is a search of the list.  The order is a field, so a map whose iteration could visit
a key twice cannot be built.

Insertion keeps the order and replaces the value of a key that is there, so a map that was filled
from a list of pairs has the LAST pair of each key (`get?_ofList_eq_last`).  A client reasons with
`get?` after an insertion, with membership in the entries, and with extensionality by lookups; the
list itself need not be looked at.
-/
import Mathlib.Order.Lattice
import Mathlib.Data.List.Induction
import Mathlib.Data.List.Nodup
import Mathlib.Data.Finset.Card

namespace Lib

/-- An ordered map: entries with strictly increasing keys. -/
structure BTreeMap (κ ν : Type) [LinearOrder κ] where
  entries : List (κ × ν)
  sorted : entries.Pairwise (fun a b => a.1 < b.1)
deriving DecidableEq

namespace BTreeMap

variable {κ ν : Type} [LinearOrder κ]

/-- Two maps with the same entries are the same map. -/
@[ext] theorem ext {m m' : BTreeMap κ ν} (h : m.entries = m'.entries) : m = m' := by
  cases m
  cases m'
  cases h
  rfl

/-- The map with no entry. -/
def empty : BTreeMap κ ν := ⟨[], List.Pairwise.nil⟩

/-- The keys, in iteration order. -/
def keys (m : BTreeMap κ ν) : List κ := m.entries.map Prod.fst

/-- The value bound to `k`, if any. -/
def get? (m : BTreeMap κ ν) (k : κ) : Option ν :=
  (m.entries.find? (fun e => e.1 = k)).map Prod.snd

/-- Bind `k` to `v` in a sorted entry list, replacing an earlier binding. -/
def insertEntry (k : κ) (v : ν) : List (κ × ν) → List (κ × ν)
  | [] => [(k, v)]
  | e :: es =>
    if k < e.1 then (k, v) :: e :: es
    else if k = e.1 then (k, v) :: es
    else e :: insertEntry k v es

/-- `insertEntry` brings in no key but `k`. -/
theorem mem_insertEntry {k : κ} {v : ν} {es : List (κ × ν)} {x : κ × ν}
    (h : x ∈ insertEntry k v es) : x = (k, v) ∨ x ∈ es := by
  induction es with
  | nil => exact Or.inl (List.mem_singleton.mp h)
  | cons e es ih =>
    simp only [insertEntry] at h
    split at h
    · exact List.mem_cons.mp h
    · split at h
      · rcases List.mem_cons.mp h with h | h
        · exact Or.inl h
        · exact Or.inr (List.mem_cons_of_mem _ h)
      · rcases List.mem_cons.mp h with rfl | h
        · exact Or.inr List.mem_cons_self
        · rcases ih h with h | h
          · exact Or.inl h
          · exact Or.inr (List.mem_cons_of_mem _ h)

/-- Insertion keeps the keys strictly increasing. -/
theorem sorted_insertEntry {k : κ} {v : ν} {es : List (κ × ν)}
    (h : es.Pairwise (fun a b => a.1 < b.1)) :
    (insertEntry k v es).Pairwise (fun a b => a.1 < b.1) := by
  induction es with
  | nil => exact List.pairwise_singleton _ _
  | cons e es ih =>
    obtain ⟨he, hes⟩ := List.pairwise_cons.mp h
    simp only [insertEntry]
    split
    · rename_i hlt
      refine List.pairwise_cons.mpr ⟨?_, h⟩
      intro x hx
      rcases List.mem_cons.mp hx with rfl | hx
      · exact hlt
      · exact lt_trans hlt (he x hx)
    · split
      · rename_i heq
        refine List.pairwise_cons.mpr ⟨fun x hx => ?_, hes⟩
        show k < x.1
        rw [heq]
        exact he x hx
      · rename_i hnlt hne
        refine List.pairwise_cons.mpr ⟨fun x hx => ?_, ih hes⟩
        rcases mem_insertEntry hx with rfl | hx
        · exact lt_of_le_of_ne (not_lt.mp hnlt) (Ne.symm hne)
        · exact he x hx

/-- Bind `k` to `v`. -/
def insert (m : BTreeMap κ ν) (k : κ) (v : ν) : BTreeMap κ ν :=
  ⟨insertEntry k v m.entries, sorted_insertEntry m.sorted⟩

/-- The map that collects a list of keys: an ordered set when the values carry nothing. -/
def ofKeys (ks : List κ) : BTreeMap κ Unit := ks.foldl (fun m k => m.insert k ()) empty

/-! ## Lookup -/

/-- Looking up after an insertion: the new binding at its key, the old map elsewhere. -/
theorem find?_insertEntry (k k' : κ) (v : ν) {es : List (κ × ν)}
    (hs : es.Pairwise (fun a b => a.1 < b.1)) :
    ((insertEntry k v es).find? (fun e => e.1 = k')).map Prod.snd =
      if k = k' then some v else (es.find? (fun e => e.1 = k')).map Prod.snd := by
  induction es with
  | nil => by_cases h : k = k' <;> simp [insertEntry, h]
  | cons e es ih =>
    have ih := ih (List.pairwise_cons.mp hs).2
    simp only [insertEntry]
    by_cases hlt : k < e.1
    · rw [if_pos hlt]
      by_cases h : k = k' <;> simp [h]
    · rw [if_neg hlt]
      by_cases heq : k = e.1
      · rw [if_pos heq]
        by_cases h : k = k'
        · simp [h]
        · have h' : ¬ e.1 = k' := fun hh => h (heq.trans hh)
          simp [h, h']
      · rw [if_neg heq]
        by_cases h' : e.1 = k'
        · have h : ¬ k = k' := fun hh => heq (hh.trans h'.symm)
          simp [h, h']
        · simpa [List.find?_cons, h'] using ih

@[simp] theorem get?_insert (m : BTreeMap κ ν) (k k' : κ) (v : ν) :
    (m.insert k v).get? k' = if k = k' then some v else m.get? k' :=
  find?_insertEntry k k' v m.sorted

/-- A key that is bound is among the keys. -/
theorem mem_keys_of_get? {m : BTreeMap κ ν} {k : κ} {v : ν} (h : m.get? k = some v) :
    k ∈ m.keys := by
  obtain ⟨e, he, -⟩ := Option.map_eq_some_iff.mp h
  have hk : e.1 = k := by simpa using List.find?_some he
  exact List.mem_map.mpr ⟨e, List.mem_of_find?_eq_some he, hk⟩

/-- A key that is not among the keys reads nothing. -/
theorem get?_eq_none {m : BTreeMap κ ν} {k : κ} (h : k ∉ m.keys) : m.get? k = none := by
  cases hg : m.get? k with
  | none => rfl
  | some v => exact absurd (mem_keys_of_get? hg) h

/-- Among the keys means bound. -/
theorem get?_isSome_iff {m : BTreeMap κ ν} {k : κ} : (m.get? k).isSome ↔ k ∈ m.keys := by
  constructor
  · intro h
    obtain ⟨v, hv⟩ := Option.isSome_iff_exists.mp h
    exact mem_keys_of_get? hv
  · intro h
    obtain ⟨e, he, rfl⟩ := List.mem_map.mp h
    have hf : (m.entries.find? (fun x => x.1 = e.1)).isSome :=
      List.find?_isSome.mpr ⟨e, he, by simp⟩
    simpa [get?] using hf

theorem mem_keys_insert {m : BTreeMap κ ν} {k k' : κ} {v : ν} :
    k' ∈ (m.insert k v).keys ↔ k' = k ∨ k' ∈ m.keys := by
  rw [← get?_isSome_iff, get?_insert, ← get?_isSome_iff]
  by_cases h : k = k'
  · simp [h]
  · simp [h, Ne.symm h]

/-- Collecting keys keeps exactly the keys collected. -/
theorem mem_keys_ofKeys {ks : List κ} {k : κ} : k ∈ (ofKeys ks).keys ↔ k ∈ ks := by
  suffices h : ∀ (ks : List κ) (m : BTreeMap κ Unit),
      k ∈ (ks.foldl (fun m k => m.insert k ()) m).keys ↔ k ∈ m.keys ∨ k ∈ ks by
    have h0 := h ks empty
    simpa [ofKeys, keys, empty] using h0
  intro ks
  induction ks with
  | nil => intro m; simp
  | cons x ks ih =>
    intro m
    rw [List.foldl_cons, ih, mem_keys_insert, List.mem_cons, or_assoc]
    exact or_left_comm

/-! ## Entries -/

/-- No key is visited twice. -/
theorem nodup_keys (m : BTreeMap κ ν) : m.keys.Nodup := by
  refine List.pairwise_map.mpr (m.sorted.imp ?_)
  intro a b hab
  exact ne_of_lt hab

/-- **The entries are the bindings.** -/
theorem mem_entries_iff {m : BTreeMap κ ν} {k : κ} {v : ν} :
    (k, v) ∈ m.entries ↔ m.get? k = some v := by
  constructor
  · intro h
    obtain ⟨w, hw⟩ := Option.isSome_iff_exists.mp
      (get?_isSome_iff.mpr (List.mem_map_of_mem (f := Prod.fst) h))
    obtain ⟨e, he, rfl⟩ := Option.map_eq_some_iff.mp hw
    have hk : e.1 = k := by simpa using List.find?_some he
    have heq := List.inj_on_of_nodup_map m.nodup_keys h (List.mem_of_find?_eq_some he) hk.symm
    rw [hw, ← heq]
  · intro h
    obtain ⟨e, he, rfl⟩ := Option.map_eq_some_iff.mp h
    have hk : e.1 = k := by simpa using List.find?_some he
    rw [← hk]
    exact List.mem_of_find?_eq_some he

/-- Maps with the same bindings are equal. -/
theorem ext_get? {m m' : BTreeMap κ ν} (h : ∀ k, m.get? k = m'.get? k) : m = m' := by
  have hmem : ∀ e, e ∈ m.entries ↔ e ∈ m'.entries := by
    rintro ⟨k, v⟩
    rw [mem_entries_iff, mem_entries_iff, h]
  have hperm : m.entries.Perm m'.entries :=
    (List.perm_ext_iff_of_nodup (List.Nodup.of_map _ m.nodup_keys)
      (List.Nodup.of_map _ m'.nodup_keys)).mpr hmem
  refine ext (hperm.eq_of_pairwise ?_ m.sorted m'.sorted)
  intro a b _ _ hab hba
  exact absurd hab (lt_asymm hba)

/-- The map that collects a list of pairs: a later pair replaces an earlier one of its key. -/
def ofList (pairs : List (κ × ν)) : BTreeMap κ ν :=
  pairs.foldl (fun m pair => m.insert pair.1 pair.2) empty

/-- **The last pair of a key counts.** -/
theorem get?_ofList_eq_last (pairs : List (κ × ν)) (k : κ) :
    (ofList pairs).get? k = (pairs.reverse.find? fun p => p.1 = k).map Prod.snd := by
  induction pairs using List.reverseRecOn with
  | nil => rfl
  | append_singleton pairs pair ih =>
    have hfold : ofList (pairs ++ [pair]) = (ofList pairs).insert pair.1 pair.2 := by
      rw [ofList, List.foldl_append]
      rfl
    rw [hfold, get?_insert, ih, List.reverse_append, List.reverse_singleton, List.singleton_append,
      List.find?_cons]
    by_cases h : pair.1 = k
    · simp [h]
    · simp [h]

/-- Pairs that come later count first. -/
theorem get?_ofList_append (xs ys : List (κ × ν)) (k : κ) :
    (ofList (xs ++ ys)).get? k = ((ofList ys).get? k).or ((ofList xs).get? k) := by
  rw [get?_ofList_eq_last, get?_ofList_eq_last, get?_ofList_eq_last, List.reverse_append,
    List.find?_append, Option.map_or]

/-- What is read from a map was collected. -/
theorem mem_of_get?_ofList {pairs : List (κ × ν)} {k : κ} {v : ν}
    (h : (ofList pairs).get? k = some v) : (k, v) ∈ pairs := by
  rw [get?_ofList_eq_last] at h
  obtain ⟨pair, hpair, rfl⟩ := Option.map_eq_some_iff.mp h
  obtain rfl : pair.1 = k := by simpa using List.find?_some hpair
  exact List.mem_reverse.mp (List.mem_of_find?_eq_some hpair)

/-- Something is read under each key that was collected. -/
theorem get?_ofList_isSome {pairs : List (κ × ν)} {k : κ} {v : ν} (h : (k, v) ∈ pairs) :
    ((ofList pairs).get? k).isSome := by
  rw [get?_ofList_eq_last, Option.isSome_map, List.find?_isSome]
  exact ⟨(k, v), List.mem_reverse.mpr h, decide_eq_true rfl⟩

/-- Pairs that give each key one value are read back from the map that collects them. -/
theorem get?_ofList {pairs : List (κ × ν)}
    (h : ∀ p ∈ pairs, ∀ q ∈ pairs, p.1 = q.1 → p.2 = q.2) {k : κ} {v : ν} :
    (ofList pairs).get? k = some v ↔ (k, v) ∈ pairs := by
  refine ⟨mem_of_get?_ofList, fun hmem => ?_⟩
  obtain ⟨w, hw⟩ := Option.isSome_iff_exists.mp (get?_ofList_isSome hmem)
  have hvalue : w = v := h _ (mem_of_get?_ofList hw) _ hmem rfl
  rw [hw, hvalue]

/-- A list with each key once is read back from the map that collects it. -/
theorem get?_ofList_of_nodup {pairs : List (κ × ν)} (h : (pairs.map Prod.fst).Nodup) {k : κ}
    {v : ν} : (ofList pairs).get? k = some v ↔ (k, v) ∈ pairs := by
  refine get?_ofList ?_
  intro p hp q hq heq
  rw [List.inj_on_of_nodup_map h hp hq heq]

/-! ## Agreement -/

/-- The number of entries of `m` that `m'` has too. -/
def agreeing [DecidableEq ν] (m m' : BTreeMap κ ν) : ℕ :=
  (m.entries.filter fun e => m'.get? e.1 = some e.2).length

/-- **Maps are equal when as many entries agree as there are keys in either.** A counter of
differences is zero only then. -/
theorem card_keys_sub_agreeing_eq_zero [DecidableEq ν] {m m' : BTreeMap κ ν} :
    (m.keys.toFinset ∪ m'.keys.toFinset).card - m.agreeing m' = 0 ↔ m = m' := by
  have hkeys : m.keys.toFinset.card = m.entries.length := by
    rw [List.toFinset_card_of_nodup m.nodup_keys, keys, List.length_map]
  constructor
  · intro h
    have hle : m.agreeing m' ≤ m.entries.length := List.length_filter_le _ _
    have hunion : m.keys.toFinset ⊆ m.keys.toFinset ∪ m'.keys.toFinset :=
      Finset.subset_union_left
    have hsame := Finset.eq_of_subset_of_card_le hunion (by omega)
    -- no entry of `m` is missing in `m'`, and no key of `m'` in `m`
    have hall : m.entries.filter (fun e => m'.get? e.1 = some e.2) = m.entries := by
      refine List.filter_sublist.eq_of_length ?_
      have hcard := Finset.card_le_card hunion
      exact le_antisymm hle (by rw [← hkeys]; unfold agreeing at h; omega)
    refine ext_get? ?_
    intro k
    by_cases hk : k ∈ m.keys
    · obtain ⟨v, hv⟩ := Option.isSome_iff_exists.mp (get?_isSome_iff.mpr hk)
      have hagree := List.filter_eq_self.mp hall (k, v) (mem_entries_iff.mpr hv)
      rw [hv, of_decide_eq_true hagree]
    · have hk' : k ∉ m'.keys := by
        intro hmem
        have hin : k ∈ m.keys.toFinset ∪ m'.keys.toFinset :=
          Finset.mem_union_right _ (List.mem_toFinset.mpr hmem)
        rw [← hsame] at hin
        exact hk (List.mem_toFinset.mp hin)
      rw [get?_eq_none hk, get?_eq_none hk']
  · rintro rfl
    have hall : m.entries.filter (fun e => m.get? e.1 = some e.2) = m.entries := by
      refine List.filter_eq_self.mpr ?_
      rintro ⟨k, v⟩ hmem
      exact decide_eq_true (mem_entries_iff.mp hmem)
    rw [Finset.union_self, hkeys, agreeing, hall, Nat.sub_self]

end BTreeMap

end Lib
