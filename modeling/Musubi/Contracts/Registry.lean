/-
# Registries and their overlays

`field-contracts/src/registry.rs`: a registry says what the meanings of observations and labels
are, and a client may lay one of its own over the public one.  What a registry means is the table
from keys to entries that it is; an overlay is the public table with the entries of the client
where the public one has none, so nothing that the public one says can be said otherwise.

A registry is a list, and a key is looked up from its front.  A valid one has each key once, so
the order of its entries does not matter to what it says; the overlay is sorted by keys and has
the version of the contracts, whatever version the two registries carried.

The proof follows the two loops of `overlay`.  The first walks the entries of the client: one
whose key the public registry has must be equal to the public entry, or the overlay is refused
with that key in the error; one whose key it has not is appended.  The second is the validation of
the result.  `Overlays` collects what both ask for, and `overlay_isOk_iff` says that they ask for
nothing else; from there on only the table is used (`resolve_overlay`).

What a registry says of records (section 5) goes through that table: an observation or a label
that the public registry knows, or refuses, is answered before the client's entries are looked at.
-/
import Musubi.Contracts.Records
import Musubi.Lib.Keyed
import Mathlib.Data.Prod.Lex
import Mathlib.Data.String.Basic

namespace Musubi.Contracts

open Lib Lib.BTreeMap

/-! ## 1. Keys -/

/-- Kinds as they are declared: two with the same place in the declaration are the same, so the
order of the keys is a linear one. -/
theorem RegistryKindV1.ctorIdx_injective : Function.Injective RegistryKindV1.ctorIdx := by
  intro a b h
  cases a <;> cases b <;> first | rfl | cases h

/-- Keys are compared field by field. -/
instance : LinearOrder RegistryKeyV1 :=
  LinearOrder.lift'
    (fun k => toLex (k.kind.ctorIdx, toLex (k.namespace_, toLex (k.semanticId, k.semanticVersion))))
    fun a b h => by
      simp only [EmbeddingLike.apply_eq_iff_eq, Prod.mk.injEq] at h
      obtain ⟨hkind, hnamespace, hid, hversion⟩ := h
      cases a
      cases b
      exact (RegistryKeyV1.mk.injEq ..).mpr
        ⟨RegistryKindV1.ctorIdx_injective hkind, hnamespace, hid, hversion⟩

inductive ObservationRegistryOutcomeV1
  | knownValidated (key : RegistryKeyV1)
  | unknownPreserved (key : RegistryKeyV1)
deriving DecidableEq, Repr

inductive AnnotationRegistryOutcomeV1
  | knownValidated (key : RegistryKeyV1)
  | unknownPreserved (key : RegistryKeyV1)
deriving DecidableEq, Repr

def ObservationKindV1.registryKind : ObservationKindV1 → RegistryKindV1
  | raw => .observation
  | derived => .derivedFeature

def ObservationExtensionV1.registryKey (o : ObservationExtensionV1) : RegistryKeyV1 where
  kind := o.observationKind.registryKind
  namespace_ := o.namespace_
  semanticId := o.semanticId
  semanticVersion := o.semanticVersion

def EpisodeAnnotationV1.registryKey (a : EpisodeAnnotationV1) : RegistryKeyV1 where
  kind := .annotationLabel
  namespace_ := a.taxonomyNamespace
  semanticId := a.label
  semanticVersion := a.taxonomyVersion

/-! ## 2. Registries -/

namespace RegistryV1

/-- The first entry with that key. -/
def resolve (r : RegistryV1) (key : RegistryKeyV1) : Option RegistryEntryV1 :=
  lookupKey RegistryEntryV1.key key r.entries

def validateObservation (r : RegistryV1) (o : ObservationExtensionV1) :
    ContractResult ObservationRegistryOutcomeV1 := do
  r.validate
  o.validate
  match r.resolve o.registryKey with
  | none => return .unknownPreserved o.registryKey
  | some entry =>
    ensure (o.valueKind = entry.valueKind) (.invalidField "observation.value_kind"
      "does not match the known registry value_kind")
    ensure (o.unit = entry.unit) (.invalidField "observation.unit"
      "does not match the known registry unit")
    return .knownValidated o.registryKey

def validateAnnotation (r : RegistryV1) (a : EpisodeAnnotationV1) :
    ContractResult AnnotationRegistryOutcomeV1 := do
  r.validate
  a.validate
  match r.resolve a.registryKey with
  | none => return .unknownPreserved a.registryKey
  | some entry =>
    ensure (¬ (entry.valueKind ≠ .text ∨ entry.unit.isSome)) (.invalidField "annotation.label"
      "known annotation labels must be registered as unitless text")
    return .knownValidated a.registryKey

/-- The error of an entry that the other table has otherwise. -/
def silentRedefinition (entry : RegistryEntryV1) : ContractError :=
  .silentRedefinition entry.key.display

def overlay (public_ client : RegistryV1) : ContractResult RegistryV1 := do
  public_.validate
  client.validate
  ensure (public_.scope = .public_) (.invalidField "registry.public.scope"
    "base registry must have public scope")
  ensure (client.scope ≠ .public_) (.invalidField "registry.client.scope"
    "overlay registry must have client_overlay scope")
  let merged ← mergeAll RegistryEntryV1.key silentRedefinition
    (index RegistryEntryV1.key public_.entries) client.entries
  return { schemaVersion := schemaVersionV1, scope := client.scope, entries := merged.values }

/-! ## 3. Valid registries -/

theorem checkEntries_eq_ok {entries : List RegistryEntryV1} : ∀ {keys : List RegistryKeyV1},
    checkEntries keys entries = .ok () ↔
      checkDistinct RegistryEntryV1.validate RegistryEntryV1.key (.missingField "") keys entries =
        .ok () := by
  induction entries with
  | nil =>
    intro keys
    exact Iff.rfl
  | cons entry entries ih =>
    intro keys
    rw [checkEntries, checkDistinct, seq_eq_ok, seq_eq_ok, seq_eq_ok, seq_eq_ok, ensure_eq_ok,
      ensure_eq_ok, ih]

theorem validate_eq_ok {r : RegistryV1} : r.validate = .ok () ↔
    r.schemaVersion = schemaVersionV1 ∧ r.scope.validate = .ok () ∧
      (∀ entry ∈ r.entries, entry.validate = .ok ()) ∧
        (r.entries.map RegistryEntryV1.key).Nodup := by
  rw [validate, seq_eq_ok, seq_eq_ok, checkEntries_eq_ok, checkDistinct_eq_ok, requireSchemaV1,
    ensure_eq_ok]
  refine and_congr_right fun _ => and_congr_right fun _ => and_congr_right fun _ => ?_
  exact and_iff_left fun _ _ => List.not_mem_nil

variable {p c r : RegistryV1}

/-- No key comes twice in a valid registry.  That is one of the checks of `validate`, and it is
what makes looking an entry up by its key a function. -/
theorem nodup_keys (h : r.validate = .ok ()) : (r.entries.map RegistryEntryV1.key).Nodup :=
  (validate_eq_ok.mp h).2.2.2

theorem resolve_eq_some_iff (h : r.validate = .ok ()) {key : RegistryKeyV1}
    {entry : RegistryEntryV1} : r.resolve key = some entry ↔ entry ∈ r.entries ∧ entry.key = key :=
  lookupKey_eq_some_iff (nodup_keys h)

/-! ## 4. Overlays -/

/-- Entries of the two registries under one key are equal, in all their fields; a client may
repeat a public entry. -/
def SharedEqual (p c : RegistryV1) : Prop :=
  ∀ entry ∈ p.entries, ∀ entry' ∈ c.entries, entry.key = entry'.key → entry = entry'

instance (p c : RegistryV1) : Decidable (SharedEqual p c) :=
  inferInstanceAs (Decidable (∀ _ ∈ _, ∀ _ ∈ _, _ → _))

/-- What an overlay asks of the two registries: each is valid by itself, the first is the public
one and the second is not, and they agree on the keys that they share. -/
structure Overlays (p c : RegistryV1) : Prop where
  public_valid : p.validate = .ok ()
  client_valid : c.validate = .ok ()
  public_scope : p.scope = .public_
  client_scope : c.scope ≠ .public_
  shared : SharedEqual p c

theorem agrees_iff_sharedEqual (h : p.validate = .ok ()) :
    Agrees RegistryEntryV1.key (index RegistryEntryV1.key p.entries) c.entries ↔
      SharedEqual p c := by
  have hget (entry' : RegistryEntryV1) (entry : RegistryEntryV1) :
      (index RegistryEntryV1.key p.entries).get? entry'.key = some entry ↔
        entry ∈ p.entries ∧ entry.key = entry'.key := by
    rw [get?_index (nodup_keys h)]
    exact lookupKey_eq_some_iff (nodup_keys h)
  constructor
  · intro hagrees entry hentry entry' hentry' hkey
    exact hagrees entry' hentry' entry ((hget entry' entry).mpr ⟨hentry, hkey⟩)
  · intro hshared entry' hentry' entry hsome
    obtain ⟨hentry, hkey⟩ := (hget entry' entry).mp hsome
    exact hshared entry hentry entry' hentry' hkey

/-- The checks before the merge, and the registry after it.  Both sides are validated, the first
must be public and the second must not; and the merge of the entries goes through. -/
theorem overlay_eq_ok : overlay p c = .ok r ↔
    (p.validate = .ok () ∧ c.validate = .ok () ∧ p.scope = .public_ ∧ c.scope ≠ .public_) ∧
      ∃ merged, mergeAll RegistryEntryV1.key silentRedefinition
          (index RegistryEntryV1.key p.entries) c.entries = .ok merged ∧
        r = { schemaVersion := schemaVersionV1, scope := c.scope, entries := merged.values } := by
  have hunit {α : Type} {x : ContractResult Unit} {y : Unit → ContractResult α} {a : α} :
      x >>= y = .ok a ↔ x = .ok () ∧ y () = .ok a := by
    rw [bind_eq_ok]
    exact ⟨fun ⟨⟨⟩, h⟩ => h, fun h => ⟨(), h⟩⟩
  rw [overlay, hunit, hunit, hunit, hunit, ensure_eq_ok, ensure_eq_ok, bind_eq_ok]
  simp only [and_assoc]
  refine and_congr_right fun _ => and_congr_right fun _ => and_congr_right fun _ =>
    and_congr_right fun _ => exists_congr fun merged => and_congr_right fun _ => ?_
  exact ⟨fun h => (Except.ok.inj h).symm, fun h => congrArg Except.ok h.symm⟩

/-- **When there is an overlay.** -/
theorem overlay_isOk_iff : (∃ r, overlay p c = .ok r) ↔ Overlays p c := by
  constructor
  · rintro ⟨r, h⟩
    obtain ⟨⟨hp, hc, hpublic, hclient⟩, merged, hmerged, -⟩ := overlay_eq_ok.mp h
    exact ⟨hp, hc, hpublic, hclient, (agrees_iff_sharedEqual hp).mp
      ((mergeAll_isOk_iff (nodup_keys hc) _).mp ⟨merged, hmerged⟩)⟩
  · rintro ⟨hp, hc, hpublic, hclient, hshared⟩
    obtain ⟨merged, hmerged⟩ : ∃ merged, mergeAll RegistryEntryV1.key silentRedefinition
        (index RegistryEntryV1.key p.entries) c.entries = .ok merged :=
      (mergeAll_isOk_iff (nodup_keys hc) _).mpr ((agrees_iff_sharedEqual hp).mpr hshared)
    exact ⟨_, overlay_eq_ok.mpr ⟨⟨hp, hc, hpublic, hclient⟩, merged, hmerged, rfl⟩⟩

/-- **An overlay is the public table, and the table of the client where that says nothing.** -/
theorem resolve_overlay (h : overlay p c = .ok r) (key : RegistryKeyV1) :
    r.resolve key = (p.resolve key).or (c.resolve key) := by
  obtain ⟨⟨hp, -⟩, merged, hmerged, rfl⟩ := overlay_eq_ok.mp h
  have hindexes := indexes_mergeAll hmerged (indexes_index (nodup_keys hp))
  rw [resolve, lookupKey_values hindexes, get?_mergeAll hmerged, get?_index (nodup_keys hp)]
  rfl

theorem validate_overlay (h : overlay p c = .ok r) : r.validate = .ok () := by
  have hresolve := resolve_overlay h
  obtain ⟨⟨hp, hc, -⟩, merged, hmerged, rfl⟩ := overlay_eq_ok.mp h
  have hindexes := indexes_mergeAll hmerged (indexes_index (nodup_keys hp))
  refine validate_eq_ok.mpr ⟨rfl, (validate_eq_ok.mp hc).2.1, ?_, ?_⟩
  · intro entry hentry
    have hfound : (p.resolve entry.key).or (c.resolve entry.key) = some entry := by
      rw [← hresolve, resolve, lookupKey_values hindexes]
      exact (mem_values hindexes).mp hentry
    rcases Option.or_eq_some_iff.mp hfound with hfound | ⟨-, hfound⟩
    · exact (validate_eq_ok.mp hp).2.2.1 entry (mem_of_lookupKey hfound)
    · exact (validate_eq_ok.mp hc).2.2.1 entry (mem_of_lookupKey hfound)
  · rw [map_key_values hindexes]
    exact merged.nodup_keys

/-- Laying an overlay over the same registry again changes nothing: its entries already contain
the public ones, and each of them agrees with itself. -/
theorem overlay_overlay (h : overlay p c = .ok r) : overlay p r = .ok r := by
  have hvalid := validate_overlay h
  have hresolve := resolve_overlay h
  obtain ⟨⟨hp, hc, hpublic, hclient⟩, merged, hmerged, hr⟩ := overlay_eq_ok.mp h
  have hscope : r.scope ≠ .public_ := by
    rw [hr]
    exact hclient
  have hshared : SharedEqual p r := by
    intro entry hentry entry' hentry' hkey
    have hfound : p.resolve entry'.key = some entry := (resolve_eq_some_iff hp).mpr ⟨hentry, hkey⟩
    have hfound' : r.resolve entry'.key = some entry' :=
      (resolve_eq_some_iff hvalid).mpr ⟨hentry', rfl⟩
    rw [hresolve, hfound, Option.some_or] at hfound'
    exact Option.some.inj hfound'
  obtain ⟨again, hagain⟩ := overlay_isOk_iff.mpr ⟨hp, hvalid, hpublic, hscope, hshared⟩
  obtain ⟨-, merged', hmerged', hr'⟩ := overlay_eq_ok.mp hagain
  have hsame : merged' = merged := by
    refine ext_get? fun key => ?_
    have hpublic : (index RegistryEntryV1.key p.entries).get? key = p.resolve key :=
      get?_index (nodup_keys hp) key
    have hover : lookupKey RegistryEntryV1.key key r.entries =
        (p.resolve key).or (c.resolve key) := hresolve key
    rw [get?_mergeAll hmerged', get?_mergeAll hmerged, hpublic, hover]
    cases p.resolve key with
    | none => rfl
    | some entry => rfl
  rw [hagain, hr', hsame, hr]

/-! ## 5. What is said about records -/

/-- What the public registry knows, an overlay knows with the same entry. -/
theorem resolve_overlay_of_some (h : overlay p c = .ok r) {key : RegistryKeyV1}
    {entry : RegistryEntryV1} (hentry : p.resolve key = some entry) :
    r.resolve key = some entry := by
  rw [resolve_overlay h, hentry, Option.some_or]

/-- An observation that the public registry knows or rejects has the same outcome under the
overlay, because no public entry is changed there.  Only what it leaves open as unknown can become
known. -/
theorem validateObservation_overlay (h : overlay p c = .ok r) (o : ObservationExtensionV1)
    (hknown : p.validateObservation o ≠ .ok (.unknownPreserved o.registryKey)) :
    r.validateObservation o = p.validateObservation o := by
  have hp : p.validate = .ok () := (overlay_isOk_iff.mp ⟨r, h⟩).public_valid
  unfold validateObservation at hknown ⊢
  rw [hp] at hknown
  rw [validate_overlay h, hp]
  cases hvalid : o.validate with
  | error e => rfl
  | ok u =>
    rw [hvalid] at hknown
    cases hentry : p.resolve o.registryKey with
    | none =>
      rw [hentry] at hknown
      exact absurd rfl hknown
    | some entry => rw [resolve_overlay_of_some h hentry]

/-- The same of an annotation, by the same lemma on looking a public key up in the merged entries.
-/
theorem validateAnnotation_overlay (h : overlay p c = .ok r) (a : EpisodeAnnotationV1)
    (hknown : p.validateAnnotation a ≠ .ok (.unknownPreserved a.registryKey)) :
    r.validateAnnotation a = p.validateAnnotation a := by
  have hp : p.validate = .ok () := (overlay_isOk_iff.mp ⟨r, h⟩).public_valid
  unfold validateAnnotation at hknown ⊢
  rw [hp] at hknown
  rw [validate_overlay h, hp]
  cases hvalid : a.validate with
  | error e => rfl
  | ok u =>
    rw [hvalid] at hknown
    cases hentry : p.resolve a.registryKey with
    | none =>
      rw [hentry] at hknown
      exact absurd rfl hknown
    | some entry => rw [resolve_overlay_of_some h hentry]

/-- **A client can add meanings and change none.** There is an overlay exactly if both registries
are valid, their scopes are right and entries under shared keys are equal.  It is valid, it
resolves a key to what the public registry has and else to what the client has, laying it over
again changes nothing, and what the public registry knows or rejects comes out the same.  The
registries are arbitrary; the one answer that can change is that of a record whose key the public
registry does not have. -/
theorem overlay_preserves_public (p c : RegistryV1) :
    ((∃ r, overlay p c = .ok r) ↔ Overlays p c) ∧
    ∀ r, overlay p c = .ok r →
      r.validate = .ok () ∧
      (∀ key, r.resolve key = (p.resolve key).or (c.resolve key)) ∧
      overlay p r = .ok r ∧
      (∀ o, (∃ key, p.validateObservation o = .ok (.knownValidated key)) ∨
          (∃ e, p.validateObservation o = .error e) →
        r.validateObservation o = p.validateObservation o) ∧
      ∀ a, (∃ key, p.validateAnnotation a = .ok (.knownValidated key)) ∨
          (∃ e, p.validateAnnotation a = .error e) →
        r.validateAnnotation a = p.validateAnnotation a := by
  refine ⟨overlay_isOk_iff, fun r h => ⟨validate_overlay h, resolve_overlay h, overlay_overlay h,
    fun o ho => validateObservation_overlay h o ?_, fun a ha => validateAnnotation_overlay h a ?_⟩⟩
  · intro hunknown
    rw [hunknown] at ho
    rcases ho with ⟨key, ho⟩ | ⟨e, ho⟩
    · cases ho
    · cases ho
  · intro hunknown
    rw [hunknown] at ha
    rcases ha with ⟨key, ha⟩ | ⟨e, ha⟩
    · cases ha
    · cases ha

/-- A voltage, as a public registry has it. -/
def voltageEntry : RegistryEntryV1 where
  key := ⟨.observation, "battery", "voltage", "1"⟩
  valueKind := .f64
  unit := some "V"
  description := "terminal voltage"
  provenance := ⟨.ofBytes (.replicate 32 0), "text/plain", .evidence⟩
  deprecated := false

/-- A label of a client. -/
def snagEntry : RegistryEntryV1 where
  key := ⟨.annotationLabel, "cable", "snag", "1"⟩
  valueKind := .text
  unit := none
  description := "the cable is caught"
  provenance := ⟨.ofBytes (.replicate 32 0), "text/plain", .evidence⟩
  deprecated := false

/-- A client repeats a public entry and adds one of its own. -/
theorem snag_over_voltage :
    ∃ r, overlay ⟨"1", .public_, [voltageEntry]⟩
        ⟨"1", .clientOverlay "tenant" (.ofBytes (.replicate 32 0)), [voltageEntry, snagEntry]⟩ =
          .ok r ∧
      r.resolve voltageEntry.key = some voltageEntry ∧
      r.resolve snagEntry.key = some snagEntry := by
  have hp : RegistryV1.validate ⟨"1", .public_, [voltageEntry]⟩ = .ok () := by decide +kernel
  have hc : RegistryV1.validate ⟨"1", .clientOverlay "tenant" (.ofBytes (.replicate 32 0)),
      [voltageEntry, snagEntry]⟩ = .ok () := by
    decide +kernel
  have hshared : SharedEqual ⟨"1", .public_, [voltageEntry]⟩
      ⟨"1", .clientOverlay "tenant" (.ofBytes (.replicate 32 0)), [voltageEntry, snagEntry]⟩ := by
    decide +kernel
  obtain ⟨hok, hover⟩ := overlay_preserves_public ⟨"1", .public_, [voltageEntry]⟩
    ⟨"1", .clientOverlay "tenant" (.ofBytes (.replicate 32 0)), [voltageEntry, snagEntry]⟩
  obtain ⟨r, hr⟩ := hok.mpr ⟨hp, hc, rfl, nofun, hshared⟩
  obtain ⟨-, hresolve, -⟩ := hover r hr
  exact ⟨r, hr, by rw [hresolve]; decide +kernel, by rw [hresolve]; decide +kernel⟩

end RegistryV1

end Musubi.Contracts
