import Uplift.Proofs.Config.FieldNames
import Uplift.Proofs.Digits
import Uplift.Proofs.Scalar.Order

/-!
# Which configurations give settings

A configuration gives settings exactly if its sections are mappings where they say anything, the
flags of the engine are truth values, and each family names known fields only, by names that are not
blank. Any other is refused for an invalid setting, but for one kind of configuration: to tell the
unknown fields of a family they are sorted first, and where their keys have no order the reading of
the families ends there.
-/

set_option autoImplicit false

namespace Uplift.Settings

/-- The entries of a section: its own if it is a mapping, and none if it is absent or null. -/
inductive Opens (config : Entries Value) (key : Scalar) : Entries Value → Prop where
  | absent : config.lookup key = none → Opens config key []
  | null : config.lookup key = some .null → Opens config key []
  | mapping {entries : Entries Value} :
      config.lookup key = some (.object entries) → Opens config key entries

/-- A name that is not blank. -/
def IsName (value : Value) : Prop :=
  ∃ name, value = .text name ∧ Text.isBlank name = false

/-- A known field. -/
def IsField (key : Scalar) : Prop :=
  ∃ field ∈ ["content", "migrations", "version", "id", "name"], key = .text field

instance : DecidablePred IsField := fun key =>
  inferInstanceAs (Decidable (∃ field ∈ ["content", "migrations", "version", "id", "name"],
    key = .text field))

/-- The `fields` section of a family opens to these entries. -/
def OpensFields (families : Entries Value) (family : Scalar) (raw : Entries Value) : Prop :=
  ∃ own, Opens families family own ∧ Opens own (.text "fields") raw

/-- A family whose fields can be read. -/
def SoundFamily (families : Entries Value) (family : Scalar) : Prop :=
  ∃ raw, OpensFields families family raw ∧ ∀ entry ∈ raw, IsField entry.1 ∧ IsName entry.2

/-- A configuration whose sections are what they should be. -/
structure Sound (config : Entries Value) : Prop where
  families : ∃ families, Opens config (.text "families") families ∧
    ∀ entry ∈ families, SoundFamily families entry.1
  engine : ∃ engine, Opens config (.text "engine") engine ∧
    ∀ flag ∈ ["stamp_versions", "reject_newer_versions"], ∀ value,
      engine.lookup (.text flag) = some value → ∃ set, value = .bool set

def unknownKeys (raw : Entries Value) : List Scalar :=
  (raw.map (·.1)).filter fun key => ¬ IsField key

/-- A family whose unknown fields have keys that cannot be sorted. -/
def Unsorted (families : Entries Value) (family : Scalar) : Prop :=
  ∃ raw, OpensFields families family raw ∧ ¬ (unknownKeys raw).Pairwise Scalar.Comparable

/-- Behind families that are sound comes one whose unknown fields cannot be sorted. -/
def Jams (families : Entries Value) : Prop :=
  ∃ before family value after, families = before ++ (family, value) :: after ∧
    (∀ earlier ∈ before, SoundFamily families earlier.1) ∧ Unsorted families family

/-!
## Sections and fields
-/

theorem sectionOf_eq_ok_iff {config entries : Entries Value} {key : Scalar} :
    sectionOf config key = .ok entries ↔ Opens config key entries := by
  unfold sectionOf
  constructor
  · intro opened
    split at opened
    · rename_i absent
      cases opened
      exact .absent absent
    · rename_i null
      cases opened
      exact .null null
    · rename_i mapping
      cases opened
      exact .mapping mapping
    · cases opened
  · rintro (absent | null | mapping)
    · rw [absent]
    · rw [null]
    · rw [mapping]

theorem sectionOf_ne_fault {config : Entries Value} {key : Scalar} {fault : Fault} :
    sectionOf config key ≠ .error (.fault fault) := by
  unfold sectionOf
  split <;> simp

theorem exists_readFields_iff {family : String} {fields : FieldNames} {raw : Entries Value} :
    (∃ named, readFields family fields raw = .ok named) ↔ ∀ entry ∈ raw, IsName entry.2 := by
  induction raw generalizing fields with
  | nil => exact ⟨fun _ => nofun, fun _ => ⟨fields, rfl⟩⟩
  | cons entry rest ih =>
      obtain ⟨key, value⟩ := entry
      rw [List.forall_mem_cons]
      unfold readFields
      split
      · rename_i name
        cases blank : Text.isBlank name <;> simp [IsName, blank, ih]
      · rename_i other
        simp only [reduceCtorEq, exists_false, false_iff, not_and]
        rintro ⟨name, text, _⟩
        exact absurd text (other name)

theorem readFields_ne_fault {family : String} {fields : FieldNames} {raw : Entries Value}
    {fault : Fault} : readFields family fields raw ≠ .error (.fault fault) := by
  induction raw generalizing fields with
  | nil => simp [readFields]
  | cons entry rest ih =>
      unfold readFields
      split
      · split
        · simp
        · exact ih
      · simp

theorem isFieldKey_eq (key : Scalar) : isFieldKey key = decide (IsField key) := by
  cases key <;> simp [isFieldKey, IsField, fieldKeys]

theorem unknownKeys_eq (raw : Entries Value) :
    (raw.map (·.1)).filter (fun key => !isFieldKey key) = unknownKeys raw := by
  refine List.filter_congr fun key _ => ?_
  rw [isFieldKey_eq, decide_not]

/-!
## Families
-/

section Families

variable {families entries : Entries Value} {family : Scalar} {fault : Fault}

/-- Reads the fields of one family among others. -/
def readFamily (families : Entries Value) (family : Scalar) : Except SettingsError FieldNames :=
  sectionOf families family >>= familyFields family

theorem readFamilies_cons (entry : Scalar × Value) (rest : List (Scalar × Value)) :
    readFamilies families (entry :: rest) =
      readFamily families entry.1 >>= fun fields =>
        readFamilies families rest >>= fun others => .ok ((entry.1, fields) :: others) := by
  rw [readFamilies, readFamily]
  cases sectionOf families entry.1 <;> rfl

theorem exists_readFamily_iff :
    (∃ fields, readFamily families family = .ok fields) ↔ SoundFamily families family := by
  simp only [readFamily, Outcome.bind_eq_ok_iff, familyFields_eq_ok_iff, sectionOf_eq_ok_iff,
    isFieldKey_eq, decide_eq_true_eq]
  constructor
  · rintro ⟨fields, own, ownOpened, raw, opened, known, read⟩
    have named := exists_readFields_iff.mp ⟨fields, read⟩
    exact ⟨raw, ⟨own, ownOpened, opened⟩, fun entry member => ⟨known entry member, named entry member⟩⟩
  · rintro ⟨raw, ⟨own, ownOpened, opened⟩, sound⟩
    obtain ⟨fields, read⟩ := exists_readFields_iff.mpr fun entry member => (sound entry member).2
    exact ⟨fields, own, ownOpened, raw, opened, fun entry member => (sound entry member).1, read⟩

/-- What reading a family fails with beside invalid settings comes from sorting unknown keys. -/
theorem readFamily_eq_fault_iff :
    readFamily families family = .error (.fault fault) ↔
      ∃ raw, OpensFields families family raw ∧
        Scalar.sorted (unknownKeys raw) = .error fault := by
  simp only [readFamily, familyFields, Outcome.bind_eq_error_iff, sectionOf_eq_ok_iff,
    sectionOf_ne_fault, false_or, Outcome.mapError_eq_error_iff, SettingsError.fault.injEq,
    unknownKeys_eq, exists_eq_right, OpensFields]
  constructor
  · rintro ⟨own, ownOpened, raw, opened, sorting | ⟨unknown, _, reading⟩⟩
    · exact ⟨raw, ⟨own, ownOpened, opened⟩, sorting⟩
    · split at reading
      · exact absurd reading readFields_ne_fault
      · cases reading
  · rintro ⟨raw, ⟨own, ownOpened, opened⟩, sorting⟩
    exact ⟨own, ownOpened, raw, opened, .inl sorting⟩

theorem exists_fault_readFamily_iff :
    (∃ fault, readFamily families family = .error (.fault fault)) ↔ Unsorted families family := by
  simp only [readFamily_eq_fault_iff, Unsorted, ← Scalar.exists_sorted_iff]
  constructor
  · rintro ⟨fault, raw, opened, sorting⟩
    exact ⟨raw, opened, by simp [sorting]⟩
  · rintro ⟨raw, opened, unsorted⟩
    cases sorting : Scalar.sorted (unknownKeys raw) with
    | ok sorted => exact absurd ⟨sorted, sorting⟩ unsorted
    | error fault => exact ⟨fault, raw, opened, sorting⟩

theorem exists_readFamilies_iff :
    (∃ named, readFamilies families entries = .ok named) ↔
      ∀ entry ∈ entries, SoundFamily families entry.1 := by
  induction entries with
  | nil => exact ⟨fun _ => nofun, fun _ => ⟨_, rfl⟩⟩
  | cons entry rest ih =>
      rw [List.forall_mem_cons, ← exists_readFamily_iff, ← ih, readFamilies_cons]
      simp only [Outcome.bind_eq_ok_iff]
      constructor
      · rintro ⟨_, fields, read, others, readRest, _⟩
        exact ⟨⟨fields, read⟩, others, readRest⟩
      · rintro ⟨⟨fields, read⟩, others, readRest⟩
        exact ⟨_, fields, read, others, readRest, rfl⟩

/-- Reading families stops with the fault of the first of them that cannot be read. -/
theorem readFamilies_eq_fault_iff :
    readFamilies families entries = .error (.fault fault) ↔
      ∃ before family value after, entries = before ++ (family, value) :: after ∧
        (∀ earlier ∈ before, SoundFamily families earlier.1) ∧
          readFamily families family = .error (.fault fault) := by
  induction entries with
  | nil => simp [readFamilies]
  | cons entry rest ih =>
      rw [readFamilies_cons]
      simp only [Outcome.bind_eq_error_iff, ih, reduceCtorEq, and_false, exists_false, or_false]
      -- Reading goes on behind a family only if that family was read.
      constructor
      · rintro (failed | ⟨fields, read, before, family, value, after, rfl, sound, failed⟩)
        · exact ⟨[], entry.1, entry.2, rest, rfl, nofun, failed⟩
        · have first := exists_readFamily_iff.mp ⟨fields, read⟩
          exact ⟨entry :: before, family, value, after, rfl,
            List.forall_mem_cons.mpr ⟨first, sound⟩, failed⟩
      · rintro ⟨before, family, value, after, split, sound, failed⟩
        cases before with
        | nil =>
            cases split
            exact .inl failed
        | cons first before =>
            obtain ⟨rfl, rfl⟩ := List.cons.inj split
            obtain ⟨ofFirst, ofBefore⟩ := List.forall_mem_cons.mp sound
            obtain ⟨fields, read⟩ := exists_readFamily_iff.mpr ofFirst
            exact .inr ⟨fields, read, before, family, value, after, rfl, ofBefore, failed⟩

theorem exists_fault_readFamilies_iff :
    (∃ fault, readFamilies families families = .error (.fault fault)) ↔ Jams families := by
  simp only [readFamilies_eq_fault_iff, Jams, ← exists_fault_readFamily_iff]
  constructor
  · rintro ⟨fault, before, family, value, after, split, sound, failed⟩
    exact ⟨before, family, value, after, split, sound, fault, failed⟩
  · rintro ⟨before, family, value, after, split, sound, fault, failed⟩
    exact ⟨fault, before, family, value, after, split, sound, failed⟩

end Families

/-!
## Configurations
-/

theorem exists_readFlag_iff {engine : Entries Value} {flag : String} {standard : Bool} :
    (∃ set, readFlag engine flag standard = .ok set) ↔
      ∀ value, engine.lookup (.text flag) = some value → ∃ set, value = .bool set := by
  unfold readFlag
  split
  · rename_i absent
    simp [absent]
  · rename_i found
    simp [found]
  · rename_i found
    simp_all

theorem readFlag_ne_fault {engine : Entries Value} {flag : String} {standard : Bool}
    {fault : Fault} : readFlag engine flag standard ≠ .error (.fault fault) := by
  unfold readFlag
  split <;> simp

variable {config : Entries Value}

theorem exists_ofConfig_iff (writable : (Value.object config).isWritable = true) :
    (∃ settings, ofConfig (.object config) = .ok settings) ↔ Sound config := by
  simp only [ofConfig_eq_ok_iff, sectionOf_eq_ok_iff]
  constructor
  · rintro ⟨settings, ⟨families, listed, read⟩, ⟨engine, opened, stamped, rejected⟩, _⟩
    refine ⟨⟨families, listed, exists_readFamilies_iff.mp ⟨_, read⟩⟩, engine, opened, ?_⟩
    simp only [List.forall_mem_cons, List.not_mem_nil, false_implies, implies_true, and_true]
    exact ⟨exists_readFlag_iff.mp ⟨_, stamped⟩, exists_readFlag_iff.mp ⟨_, rejected⟩⟩
  · rintro ⟨⟨families, listed, sound⟩, engine, opened, flags⟩
    obtain ⟨named, read⟩ := exists_readFamilies_iff.mpr sound
    obtain ⟨stamp, stamped⟩ := exists_readFlag_iff.mpr (flags _ (.head _))
    obtain ⟨reject, rejected⟩ := exists_readFlag_iff.mpr (flags _ (.tail _ (.head _)))
    have digested : Digest.ofObject .config (.object config) =
        .ok (Digest.hex (.object config)) := if_pos writable
    exact ⟨⟨stamp, reject, named, _⟩, ⟨families, listed, read⟩, ⟨engine, opened, stamped, rejected⟩,
      digested⟩

/-- The only fault that ends the reading of a configuration is one of its families. -/
theorem ofConfig_eq_fault_iff (writable : (Value.object config).isWritable = true)
    {fault : Fault} :
    ofConfig (.object config) = .error (.fault fault) ↔
      ∃ families, Opens config (.text "families") families ∧
        readFamilies families families = .error (.fault fault) := by
  have digested : Digest.ofObject .config (.object config) =
      .ok (Digest.hex (.object config)) := if_pos writable
  constructor
  · intro failed
    rcases Outcome.bind_eq_error_iff.mp failed with opening | ⟨families, opened, reading⟩
    · exact absurd opening sectionOf_ne_fault
    · rcases Outcome.bind_eq_error_iff.mp reading with stopped | ⟨named, _, behind⟩
      · exact ⟨families, sectionOf_eq_ok_iff.mp opened, stopped⟩
      · simp [Outcome.bind_eq_error_iff, sectionOf_ne_fault, readFlag_ne_fault, digested] at behind
  · rintro ⟨families, opened, stopped⟩
    exact Outcome.bind_eq_error_iff.mpr (.inr ⟨families, sectionOf_eq_ok_iff.mpr opened,
      Outcome.bind_eq_error_iff.mpr (.inl stopped)⟩)

/-- What becomes of a configuration. -/
structure Decides (config : Entries Value) : Prop where
  accepts : (∃ settings, ofConfig (.object config) = .ok settings) ↔ Sound config
  jams : (∃ fault, ofConfig (.object config) = .error (.fault fault)) ↔
    ∃ families, Opens config (.text "families") families ∧ Jams families
  names : ∀ fault, ofConfig (.object config) = .error (.fault fault) →
    ∃ one other : Scalar, ¬ one.Comparable other ∧
      fault = .unordered "<" one.qualifiedTypeName other.qualifiedTypeName
  refuses : ¬ Sound config → (¬ ∃ families, Opens config (.text "families") families ∧
    Jams families) → ∃ setting, ofConfig (.object config) = .error (.invalid setting)

theorem ofConfig_decides (writable : (Value.object config).isWritable = true) :
    Decides config := by
  have accepts := exists_ofConfig_iff writable
  have jams : (∃ fault, ofConfig (.object config) = .error (.fault fault)) ↔
      ∃ families, Opens config (.text "families") families ∧ Jams families := by
    simp only [ofConfig_eq_fault_iff writable, ← exists_fault_readFamilies_iff]
    constructor
    · rintro ⟨fault, families, opened, failed⟩
      exact ⟨families, opened, fault, failed⟩
    · rintro ⟨families, opened, fault, failed⟩
      exact ⟨fault, families, opened, failed⟩
  refine ⟨accepts, jams, fun fault failed => ?_, fun unsound runs => ?_⟩
  · obtain ⟨families, _, reading⟩ := (ofConfig_eq_fault_iff writable).mp failed
    obtain ⟨_, family, _, _, _, _, stopped⟩ := readFamilies_eq_fault_iff.mp reading
    obtain ⟨raw, _, sorting⟩ := readFamily_eq_fault_iff.mp stopped
    obtain ⟨one, _, other, _, apart, named⟩ := Scalar.unordered_of_sorted sorting
    exact ⟨one, other, apart, named⟩
  · cases outcome : ofConfig (.object config) with
    | ok settings => exact absurd (accepts.mp ⟨settings, outcome⟩) unsound
    | error error =>
        cases error with
        | invalid setting => exact ⟨setting, rfl⟩
        | fault fault => exact absurd (jams.mp ⟨fault, outcome⟩) runs

/-- A configuration of the fields of two families, the second in a section that says nothing. -/
def ofFields (raw : Entries Value) : Entries Value :=
  [(.text "families", Config.object
    [("chain", Config.object [("fields", .object raw)]), ("service", .null)])]

/-- Unknown fields, an integer among them. -/
def mixedFields : Entries Value := [(.int 0, .text "x"), (.text "foo", .text "y")]

theorem ofConfig_decides_mixedFields :
    ofConfig (.object (ofFields mixedFields)) = .error (.fault (.unordered "<" "str" "int")) ∧
      (∃ families, Opens (ofFields mixedFields) (.text "families") families ∧ Jams families) ∧
      ¬ Sound (ofFields mixedFields) ∧
      ofConfig (.object (ofFields (mixedFields.drop 1))) =
        .error (.invalid (.unknownFields "chain" [.text "foo"])) ∧
      Sound (ofFields [(.text "id", .text "key")]) := by
  have writable : (Value.object (ofFields mixedFields)).isWritable = true := by
    simp only [ofFields, mixedFields, Config.object, Value.isWritable, Value.scalars,
      Value.scalarsOfEntries, List.map_cons, List.map_nil, List.all_append, List.all_cons,
      Digits.isWritable_zero]
    rfl
  have mixed := ofConfig_decides writable
  have failed : ofConfig (.object (ofFields mixedFields)) =
      .error (.fault (.unordered "<" "str" "int")) := rfl
  have unsound : ¬ Sound (ofFields mixedFields) := fun sound => by
    obtain ⟨settings, done⟩ := mixed.accepts.mpr sound
    cases failed.symm.trans done
  have known : (Value.object (ofFields [(.text "id", .text "key")])).isWritable = true := rfl
  exact ⟨failed, mixed.jams.mp ⟨_, failed⟩, unsound, rfl,
    (ofConfig_decides known).accepts.mp ⟨_, rfl⟩⟩

end Uplift.Settings
