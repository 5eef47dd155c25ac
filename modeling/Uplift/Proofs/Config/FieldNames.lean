import Uplift.Config.Defaults
import Uplift.Config.Settings
import Uplift.Proofs.Entries
import Uplift.Proofs.Outcome
import Uplift.Proofs.Scalar.Order
import Uplift.Proofs.Writable

/-!
# Names that a configuration accepts

A configuration gives the fields of a family any names that are not blank, and no others. The names
are checked one by one and never compared, and so two fields may have the same name.
-/

set_option autoImplicit false

namespace Uplift

namespace FieldNames

/-- None of the names is blank. -/
def Visible (fields : FieldNames) : Prop :=
  ∀ name ∈ [fields.content, fields.migrations, fields.version, fields.id, fields.name],
    Text.isBlank name = false

/-- Some configuration is accepted that gives a family these names. -/
def Accepted (family : String) (fields : FieldNames) : Prop :=
  ∃ config settings, Settings.ofConfig config = .ok settings ∧ settings.fieldsFor family = fields

theorem visible_standard : standard.Visible := by
  unfold Visible
  decide

end FieldNames

namespace Settings

open FieldNames

theorem visible_setField {fields : FieldNames} (visible : fields.Visible) {key name : String}
    (shown : Text.isBlank name = false) : (setField fields key name).Visible := by
  grind [Visible, setField]

theorem visible_of_readFields {family : String} {fields named : FieldNames}
    {entries : Entries Value} (read : readFields family fields entries = .ok named)
    (visible : fields.Visible) : named.Visible := by
  induction entries generalizing fields with
  | nil =>
      cases read
      exact visible
  | cons entry rest ih =>
      obtain ⟨key, value⟩ := entry
      unfold readFields at read
      split at read
      · split at read
        · cases read
        · rename_i shown
          exact ih read (visible_setField visible (Bool.eq_false_iff.mpr shown))
      · cases read

theorem familyFields_eq_ok_iff {family : Scalar} {entries : Entries Value}
    {fields : FieldNames} :
    familyFields family entries = .ok fields ↔
      ∃ raw, sectionOf entries (.text "fields") = .ok raw ∧
        (∀ entry ∈ raw, isFieldKey entry.1 = true) ∧
        readFields family.shown .standard raw = .ok fields := by
  constructor
  · intro read
    obtain ⟨raw, opened, checking⟩ := Outcome.bind_eq_ok_iff.mp read
    obtain ⟨unknown, sorted, reading⟩ := Outcome.bind_eq_ok_iff.mp checking
    split at reading
    · rename_i none
      rw [List.isEmpty_iff.mp none, Outcome.mapError_eq_ok_iff] at sorted
      have known := List.filter_eq_nil_iff.mp (Scalar.perm_of_sorted sorted).nil_eq.symm
      refine ⟨raw, opened, fun entry member => ?_, reading⟩
      simpa using known entry.1 (List.mem_map_of_mem member)
    · cases reading
  · rintro ⟨raw, opened, known, reading⟩
    have none : (raw.map (·.1)).filter (fun key => !isFieldKey key) = [] := by
      refine List.filter_eq_nil_iff.mpr fun key member => ?_
      obtain ⟨entry, inRaw, rfl⟩ := List.mem_map.mp member
      simp [known entry inRaw]
    refine Outcome.bind_eq_ok_iff.mpr ⟨raw, opened, Outcome.bind_eq_ok_iff.mpr ⟨[], ?_, reading⟩⟩
    rw [none]
    rfl

theorem visible_of_familyFields {family : Scalar} {entries : Entries Value} {named : FieldNames}
    (read : familyFields family entries = .ok named) : named.Visible := by
  obtain ⟨raw, _, _, reading⟩ := familyFields_eq_ok_iff.mp read
  exact visible_of_readFields reading visible_standard

theorem visible_of_readFamilies {families entries : Entries Value}
    {named : Entries FieldNames} (read : readFamilies families entries = .ok named) :
    ∀ entry ∈ named, entry.2.Visible := by
  induction entries generalizing named with
  | nil =>
      cases read
      exact nofun
  | cons entry rest ih =>
      obtain ⟨_, _, reading⟩ := Outcome.bind_eq_ok_iff.mp read
      obtain ⟨fields, own, readingRest⟩ := Outcome.bind_eq_ok_iff.mp reading
      obtain ⟨others, readRest, final⟩ := Outcome.bind_eq_ok_iff.mp readingRest
      cases final
      exact List.forall_mem_cons.mpr ⟨visible_of_familyFields own, ih readRest⟩

theorem ofConfig_eq_ok_iff {entries : Entries Value} {settings : Settings} :
    ofConfig (.object entries) = .ok settings ↔
      (∃ families, sectionOf entries (.text "families") = .ok families ∧
        readFamilies families families = .ok settings.families) ∧
      (∃ engine, sectionOf entries (.text "engine") = .ok engine ∧
        readFlag engine "stamp_versions" true = .ok settings.stampVersions ∧
        readFlag engine "reject_newer_versions" false = .ok settings.rejectNewer) ∧
      Digest.ofObject .config (.object entries) = .ok settings.configDigest := by
  constructor
  · intro accepted
    obtain ⟨families, listed, reading⟩ := Outcome.bind_eq_ok_iff.mp accepted
    obtain ⟨named, read, opening⟩ := Outcome.bind_eq_ok_iff.mp reading
    obtain ⟨engine, opened, stamping⟩ := Outcome.bind_eq_ok_iff.mp opening
    obtain ⟨stamp, stamped, rejecting⟩ := Outcome.bind_eq_ok_iff.mp stamping
    obtain ⟨reject, rejected, digesting⟩ := Outcome.bind_eq_ok_iff.mp rejecting
    obtain ⟨digest, digested, final⟩ := Outcome.bind_eq_ok_iff.mp digesting
    cases final
    exact ⟨⟨families, listed, read⟩, ⟨engine, opened, stamped, rejected⟩,
      Outcome.mapError_eq_ok_iff.mp digested⟩
  · rintro ⟨⟨families, listed, read⟩, ⟨engine, opened, stamped, rejected⟩, digested⟩
    refine Outcome.bind_eq_ok_iff.mpr ⟨families, listed, ?_⟩
    refine Outcome.bind_eq_ok_iff.mpr ⟨_, read, Outcome.bind_eq_ok_iff.mpr ⟨engine, opened, ?_⟩⟩
    refine Outcome.bind_eq_ok_iff.mpr ⟨_, stamped, Outcome.bind_eq_ok_iff.mpr ⟨_, rejected, ?_⟩⟩
    exact Outcome.bind_eq_ok_iff.mpr ⟨_, Outcome.mapError_eq_ok_iff.mpr digested, rfl⟩

theorem visible_fieldsFor {config : Value} {settings : Settings}
    (accepted : ofConfig config = .ok settings) (family : String) :
    (settings.fieldsFor family).Visible := by
  cases config with
  | scalar scalar | array items => cases accepted
  | object entries =>
      obtain ⟨⟨_, _, read⟩, _, _⟩ := ofConfig_eq_ok_iff.mp accepted
      unfold fieldsFor
      cases found : settings.families.lookup (.text family) with
      | none => exact visible_standard
      | some fields =>
          obtain ⟨entry, located, rfl⟩ := Option.map_eq_some_iff.mp found
          exact visible_of_readFamilies read entry (List.mem_of_find?_eq_some located)

end Settings

namespace FieldNames

/-- A section that gives each field its name. -/
def sectionOf (fields : FieldNames) : Entries Value :=
  [(.text "content", .text fields.content), (.text "migrations", .text fields.migrations),
    (.text "version", .text fields.version), (.text "id", .text fields.id),
    (.text "name", .text fields.name)]

/-- A configuration that gives the fields of a family their names and says nothing else. -/
def configOf (family : String) (fields : FieldNames) : Value :=
  Config.object [("families", Config.object
    [(family, Config.object [("fields", .object fields.sectionOf)])])]

theorem readFields_sectionOf {fields : FieldNames} (visible : fields.Visible) (family : String) :
    Settings.readFields family standard fields.sectionOf = .ok fields := by
  simp only [Visible, List.forall_mem_cons, List.not_mem_nil, false_implies, implies_true,
    and_true] at visible
  obtain ⟨content, migrations, version, id, name⟩ := visible
  simp only [sectionOf, Settings.readFields, content, migrations, version, id, name,
    Bool.false_eq_true, if_false]
  rfl

theorem familyFields_sectionOf {fields : FieldNames} (visible : fields.Visible)
    (family : Scalar) :
    Settings.familyFields family [(.text "fields", .object fields.sectionOf)] = .ok fields := by
  have raw : Settings.sectionOf [(.text "fields", .object fields.sectionOf)] (.text "fields") =
      .ok fields.sectionOf := by
    simp [Settings.sectionOf, Entries.lookup]
  have known : ∀ entry ∈ fields.sectionOf, Settings.isFieldKey entry.1 = true := by
    simp [sectionOf, Settings.isFieldKey, Settings.fieldKeys]
  exact Settings.familyFields_eq_ok_iff.mpr ⟨_, raw, known, readFields_sectionOf visible _⟩

theorem ofConfig_configOf (family : String) {fields : FieldNames} (visible : fields.Visible) :
    Settings.ofConfig (configOf family fields) =
      .ok ⟨true, false, [(.text family, fields)], Digest.hex (configOf family fields)⟩ := by
  let families : Entries Value :=
    [(.text family, Config.object [("fields", .object fields.sectionOf)])]
  have own : Settings.sectionOf families (.text family) =
      .ok [(.text "fields", .object fields.sectionOf)] := by
    simp [families, Settings.sectionOf, Entries.lookup, Config.object]
  have named : Settings.readFamilies families families = .ok [(.text family, fields)] :=
    Outcome.bind_eq_ok_iff.mpr ⟨_, own, Outcome.bind_eq_ok_iff.mpr
      ⟨fields, familyFields_sectionOf visible _, rfl⟩⟩
  exact Settings.ofConfig_eq_ok_iff.mpr
    ⟨⟨families, rfl, named⟩, ⟨[], rfl, rfl, rfl⟩, rfl⟩

/-- A configuration gives the fields of a family any names that are not blank, also if some of them
are the same, and no others. -/
theorem accepted_iff {family : String} {fields : FieldNames} :
    fields.Accepted family ↔ fields.Visible := by
  constructor
  · rintro ⟨config, settings, accepted, rfl⟩
    exact Settings.visible_fieldsFor accepted family
  · intro visible
    refine ⟨_, _, ofConfig_configOf family visible, ?_⟩
    simp [Settings.fieldsFor, Entries.lookup]

end FieldNames

end Uplift
