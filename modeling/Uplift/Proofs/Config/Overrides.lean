import Uplift.Proofs.Config.FieldNames
import Uplift.Proofs.Config.Layers

/-!
# What overrides leave in force

Along a way that the packaged configuration has, a merge that gives settings descends from section
to section, and at its end stands what the overrides have there or else what was packaged. The
names of the fields and the flags of the engine are read from these places and from no others.
-/

set_option autoImplicit false

namespace Uplift

namespace FieldNames

open Entries

theorem sectionOf_setField {key : String} (known : key ∈ Settings.fieldKeys) (fields : FieldNames)
    (name : String) : (Settings.setField fields key name).sectionOf =
      put (.text key) (.text name) fields.sectionOf := by
  simp only [Settings.fieldKeys, List.mem_cons, List.not_mem_nil, or_false] at known
  rcases known with rfl | rfl | rfl | rfl | rfl <;>
    simp [Settings.setField, sectionOf, put, Entries.contains]

theorem exists_lookup_sectionOf {key : String} (fields : FieldNames)
    (known : key ∈ Settings.fieldKeys) :
    ∃ name, lookup (.text key) fields.sectionOf = some (.text name) := by
  simp only [Settings.fieldKeys, List.mem_cons, List.not_mem_nil, or_false] at known
  rcases known with rfl | rfl | rfl | rfl | rfl <;> simp [sectionOf, lookup_cons]

theorem distinctKeys_standard : (Value.object standard.sectionOf).DistinctKeys := by
  simp [standard, sectionOf, Entries.DistinctKeys, Scalar.key]

theorem eq_of_lookup {first second : FieldNames}
    (same : ∀ field ∈ Settings.fieldKeys,
      lookup (.text field) first.sectionOf = lookup (.text field) second.sectionOf) :
    first = second := by
  obtain ⟨content, migrations, version, id, name⟩ := first
  obtain ⟨otherContent, otherMigrations, otherVersion, otherId, otherName⟩ := second
  simpa [Settings.fieldKeys, sectionOf, lookup_cons] using same

end FieldNames

namespace Settings

open Entries FieldNames

theorem isFieldKey_iff {key : Scalar} :
    isFieldKey key = true ↔ ∃ name ∈ fieldKeys, key = .text name := by
  cases key <;> simp [isFieldKey]

/-- The names after reading a section are those that the section gives, and else the ones before. -/
theorem lookup_sectionOf_of_readFields {family name : String} {fields named : FieldNames}
    {entries : Entries Value} (distinct : entries.DistinctKeys)
    (known : ∀ entry ∈ entries, isFieldKey entry.1 = true)
    (read : readFields family fields entries = .ok named) :
    lookup (.text name) named.sectionOf =
      (lookup (.text name) entries).or (lookup (.text name) fields.sectionOf) := by
  induction entries generalizing fields with
  | nil =>
      cases read
      rfl
  | cons entry rest ih =>
      obtain ⟨entryKey, value⟩ := entry
      obtain ⟨key, inKeys, rfl⟩ := isFieldKey_iff.mp (known _ (.head _))
      unfold readFields at read
      split at read
      · rename_i text
        split at read
        · cases read
        · have restKnown : ∀ entry ∈ rest, isFieldKey entry.1 = true :=
            fun entry member => known entry (.tail _ member)
          have restDistinct : DistinctKeys rest := (List.nodup_cons.mp distinct).2
          rw [ih restDistinct restKnown read, Scalar.shown, sectionOf_setField inKeys,
            lookup_put_text, lookup_cons]
          by_cases same : name = key
          · have absent : lookup (.text key) rest = none :=
              distinct.lookup_tail (Scalar.sameKey_refl _)
            simp [absent, same]
          · simp [same]
      · cases read

theorem exists_of_readFamilies {families entries : Entries Value} {named : Entries FieldNames}
    {family : String} (read : readFamilies families entries = .ok named)
    (present : entries.contains (.text family) = true) :
    ∃ own fields, sectionOf families (.text family) = .ok own ∧
      familyFields (.text family) own = .ok fields ∧
      named.lookup (.text family) = some fields := by
  induction entries generalizing named with
  | nil => cases present
  | cons entry rest ih =>
      obtain ⟨key, value⟩ := entry
      obtain ⟨own, opened, reading⟩ := Outcome.bind_eq_ok_iff.mp read
      obtain ⟨fields, named, readingRest⟩ := Outcome.bind_eq_ok_iff.mp reading
      obtain ⟨others, readRest, final⟩ := Outcome.bind_eq_ok_iff.mp readingRest
      cases final
      rw [lookup_cons]
      by_cases same : (Scalar.text family).sameKey key = true
      · have text := same
        rw [Scalar.sameKey_comm, Scalar.sameKey_text_iff] at text
        rw [text] at opened named
        exact ⟨own, fields, opened, named, if_pos same⟩
      · rw [if_neg same]
        refine ih readRest ?_
        rw [contains_eq_isSome_lookup, lookup_cons, if_neg same] at present
        rw [contains_eq_isSome_lookup, present]

theorem lookup_of_readFlag {engine : Entries Value} {flag : String} {standard value : Bool}
    (read : readFlag engine flag standard = .ok value)
    (present : engine.contains (.text flag) = true) :
    engine.lookup (.text flag) = some (.bool value) := by
  rw [contains_eq_isSome_lookup] at present
  unfold readFlag at read
  split at read
  · rename_i absent
    rw [absent] at present
    cases present
  · rename_i found
    cases read
    exact found
  · cases read

end Settings

namespace Config

open Entries

/-- What stands in a configuration where some names lead to, one below the other. -/
def at? (names : List String) (config : Value) : Option Value :=
  names.foldlM (fun node name => node.get? name) config

/-- The entries of the object under a name; anything else that stands there has none. -/
def entriesAt (name : String) (entries : Entries Value) : Entries Value :=
  ((entries.lookup (.text name)).map Value.entries).getD []

/-- What is in force at a place: what the overrides have there, or else what the base has. -/
def inForce? (base overrides : Entries Value) (names : List String) : Option Value :=
  (at? names (.object overrides)).or (at? names (.object base))

variable {base overrides merged entries : Entries Value} {name : String}

theorem at?_singleton (name : String) (entries : Entries Value) :
    at? [name] (.object entries) = entries.lookup (.text name) := by
  cases found : entries.lookup (.text name) <;> simp [at?, Value.get?, found]

theorem at?_cons_cons (name next : String) (rest : List String) (entries : Entries Value) :
    at? (name :: next :: rest) (.object entries) =
      at? (next :: rest) (.object (entriesAt name entries)) := by
  unfold at? entriesAt
  cases found : entries.lookup (.text name) with
  | none => simp [Value.get?, found]
  | some below => cases below <;> simp [Value.get?, Value.entries, found]

theorem inForce?_singleton (base overrides : Entries Value) (name : String) :
    inForce? base overrides [name] =
      (overrides.lookup (.text name)).or (base.lookup (.text name)) := by
  rw [inForce?, at?_singleton, at?_singleton]

theorem inForce?_cons_cons (base overrides : Entries Value) (name next : String)
    (rest : List String) : inForce? base overrides (name :: next :: rest) =
      inForce? (entriesAt name base) (entriesAt name overrides) (next :: rest) := by
  rw [inForce?, at?_cons_cons, at?_cons_cons]
  rfl

theorem distinctKeys_entriesAt (distinct : (Value.object entries).DistinctKeys) (name : String) :
    (Value.object (entriesAt name entries)).DistinctKeys := by
  unfold entriesAt
  cases found : entries.lookup (.text name) with
  | none => exact .empty
  | some below =>
      cases below with
      | object inner => exact distinct.lookup found
      | scalar scalar | array items => exact .empty

theorem entriesAt_of_absent (absent : entries.lookup (.text name) = none) :
    entriesAt name entries = [] := by
  rw [entriesAt, absent]
  rfl

theorem entriesAt_of_object {inner : Entries Value}
    (found : entries.lookup (.text name) = some (.object inner)) :
    entriesAt name entries = inner := by
  rw [entriesAt, found]
  rfl

/-- A section of the base is merged with the same section of the overrides, unless what is made of
both is none. -/
theorem merges_section (made : Merges (.object base) (.object overrides) (.object merged))
    (packaged : base.lookup (.text name) = some (.object (entriesAt name base)))
    (opened : Settings.sectionOf merged (.text name) = .ok entries) :
    Merges (.object (entriesAt name base)) (.object (entriesAt name overrides))
      (.object entries) := by
  obtain ⟨_, same, _, _, under⟩ := merges_objects_iff.mp made
  cases same
  have both := under (.text name)
  rw [packaged] at both
  unfold Settings.sectionOf at opened
  generalize lookup (.text name) merged = result at both opened
  generalize above : lookup (.text name) overrides = override at both
  cases both with
  | kept =>
      cases opened
      rw [entriesAt_of_absent above]
      exact merges_empty _
  | @merged _ override _ merges =>
      cases override with
      | object inner =>
          obtain ⟨below, rfl, _⟩ := merges_objects_iff.mp merges
          cases opened
          rw [entriesAt_of_object above]
          exact merges
      | array items =>
          obtain ⟨_, rfl⟩ := (merges_iff_of_not_objects rfl).mp merges
          cases opened
      | scalar scalar =>
          obtain ⟨fits, _⟩ := (merges_iff_of_not_objects rfl).mp merges
          rcases replaceable_iff.mp fits with null | list | same
          · cases null
          · cases list
          · cases Value.typeName_eq_dict_iff.mp same.symm

/-- A scalar of the base stays in force unless the overrides have something in its place. -/
theorem lookup_of_merges (made : Merges (.object base) (.object overrides) (.object merged))
    {leaf : Scalar} (packaged : base.lookup (.text name) = some (.scalar leaf)) :
    merged.lookup (.text name) = inForce? base overrides [name] := by
  obtain ⟨_, same, _, _, under⟩ := merges_objects_iff.mp made
  cases same
  have both := under (.text name)
  rw [inForce?_singleton, packaged]
  rw [packaged] at both
  generalize lookup (.text name) merged = result at both ⊢
  generalize lookup (.text name) overrides = override at both ⊢
  cases both with
  | kept => rfl
  | merged merges =>
      obtain ⟨_, rfl⟩ := (merges_iff_of_not_objects rfl).mp merges
      rfl

theorem distinctKeys_defaults : defaults.DistinctKeys := by
  simp [defaults, standardFamily, object, Entries.DistinctKeys, Scalar.key]

theorem merges_of_resolve {config : Value} (distinct : (Value.object overrides).DistinctKeys)
    (resolved : resolve (.object overrides) = .ok config) :
    ∃ merged, config = .object merged ∧
      Merges (.object defaults.entries) (.object overrides) (.object merged) := by
  unfold resolve at resolved
  split at resolved
  · rename_i empty
    cases resolved
    rw [Value.saysNothing, List.isEmpty_iff] at empty
    rw [empty]
    exact ⟨_, rfl, merges_empty _⟩
  · have merges := (merge_eq_ok_iff distinctKeys_defaults distinct).mp resolved
    obtain ⟨merged, rfl, _⟩ := merges_objects_iff.mp merges
    exact ⟨merged, rfl, merges⟩

variable {settings : Settings} {family field : String}

theorem packaged_family (packaged : family ∈ ["chain", "service"]) :
    lookup (.text family) (entriesAt "families" defaults.entries) =
        some (.object (entriesAt family (entriesAt "families" defaults.entries))) ∧
      entriesAt family (entriesAt "families" defaults.entries) =
        [(.text "fields", .object FieldNames.standard.sectionOf)] := by
  simp only [List.mem_cons, List.not_mem_nil, or_false] at packaged
  rcases packaged with rfl | rfl <;> exact ⟨rfl, rfl⟩

/-- Settings give a family the field names that are in force. -/
theorem lookup_fieldsFor
    (made : Merges (.object defaults.entries) (.object overrides) (.object merged))
    (distinct : (Value.object overrides).DistinctKeys)
    (accepted : Settings.ofConfig (.object merged) = .ok settings)
    (packaged : family ∈ ["chain", "service"]) (known : field ∈ Settings.fieldKeys) :
    lookup (.text field) (settings.fieldsFor family).sectionOf =
      inForce? defaults.entries overrides ["families", family, "fields", field] := by
  obtain ⟨inFamilies, ownPackaged⟩ := packaged_family packaged
  obtain ⟨⟨families, familiesOpened, read⟩, _, _⟩ := Settings.ofConfig_eq_ok_iff.mp accepted
  have ofFamilies := merges_section made rfl familiesOpened
  have present : families.contains (.text family) = true := by
    rw [ofFamilies.contains, contains_eq_isSome_lookup, inFamilies]
    rfl
  obtain ⟨own, fields, ownOpened, ownRead, named⟩ := Settings.exists_of_readFamilies read present
  obtain ⟨raw, rawOpened, allKnown, reading⟩ := Settings.familyFields_eq_ok_iff.mp ownRead
  have ofFamily := merges_section ofFamilies inFamilies ownOpened
  rw [ownPackaged] at ofFamily
  have ofFields := merges_section ofFamily rfl rawOpened
  have rawDistinct : raw.DistinctKeys := by
    refine (ofFields.distinctKeys FieldNames.distinctKeys_standard ?_).keys
    exact distinctKeys_entriesAt (distinctKeys_entriesAt (distinctKeys_entriesAt distinct _) _) _
  obtain ⟨leaf, leafFound⟩ := FieldNames.exists_lookup_sectionOf FieldNames.standard known
  have inRaw := lookup_of_merges ofFields leafFound
  have fieldsFor : settings.fieldsFor family = fields := by
    rw [Settings.fieldsFor, named]
    rfl
  rw [fieldsFor, Settings.lookup_sectionOf_of_readFields rawDistinct allKnown reading, inRaw,
    inForce?_cons_cons, inForce?_cons_cons, inForce?_cons_cons, ownPackaged]
  rw [inForce?_singleton, Option.or_assoc]
  exact congrArg _ Option.or_self

/-- Settings give the engine the flags that are in force. -/
theorem flags_of_ofConfig
    (made : Merges (.object defaults.entries) (.object overrides) (.object merged))
    (accepted : Settings.ofConfig (.object merged) = .ok settings) :
    inForce? defaults.entries overrides ["engine", "stamp_versions"] =
        some (.bool settings.stampVersions) ∧
      inForce? defaults.entries overrides ["engine", "reject_newer_versions"] =
        some (.bool settings.rejectNewer) := by
  obtain ⟨_, ⟨engine, opened, stamping, rejecting⟩, _⟩ := Settings.ofConfig_eq_ok_iff.mp accepted
  have ofEngine := merges_section made rfl opened
  have inForce {flag : String} {standard value : Bool}
      (packaged : lookup (.text flag) (entriesAt "engine" defaults.entries) =
        some (.bool standard))
      (read : Settings.readFlag engine flag standard = .ok value) :
      inForce? defaults.entries overrides ["engine", flag] = some (.bool value) := by
    have present : engine.contains (.text flag) = true := by
      rw [ofEngine.contains, contains_eq_isSome_lookup, packaged]
      rfl
    rw [inForce?_cons_cons, ← lookup_of_merges ofEngine packaged]
    exact Settings.lookup_of_readFlag read present
  exact ⟨inForce rfl stamping, inForce rfl rejecting⟩

end Config

end Uplift
