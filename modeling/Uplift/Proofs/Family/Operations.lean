import Uplift.Proofs.Family.Service
import Uplift.Proofs.Value.Distinct

/-!
# What version 102 makes of the operations of a service

Version 102 fails for content that is no object and for operations that are no array. Of the
operations it names those that have no name, out of what they say of themselves, and it changes
nothing else. Each name that is made is noted.
-/

set_option autoImplicit false

namespace Uplift

/-- A value is given to a name, in the place of what stood under it, or behind all other entries if
nothing did. -/
inductive Entries.Gets {α : Type} (name : String) (value : α) : Entries α → Entries α → Prop where
  | inPlace {old : α} (front back : List (Scalar × α)) :
      Gets name value (front ++ (.text name, old) :: back) (front ++ (.text name, value) :: back)
  | behind {entries : Entries α} : entries.contains (.text name) = false →
      Gets name value entries (entries ++ [(.text name, value)])

theorem Entries.DistinctKeys.gets_put {α : Type} {entries : Entries α}
    (distinct : entries.DistinctKeys) (name : String) (value : α) :
    Entries.Gets name value entries (entries.put (.text name) value) := by
  cases present : entries.contains (.text name) with
  | false =>
      rw [Entries.put_of_not_contains present]
      exact .behind present
  | true =>
      rw [Entries.contains_eq_isSome_lookup, Option.isSome_iff_exists] at present
      obtain ⟨old, found⟩ := present
      obtain ⟨front, back, rfl⟩ := List.append_of_mem (Entries.mem_of_lookup_text found)
      -- No other entry has the name, so to replace it wherever it stands changes one place alone.
      have elsewhere := distinct.contains_beside
      have kept {part : List (Scalar × α)} (within : part ⊆ front ++ back) :
          (part.map fun entry => if entry.1 = .text name then (entry.1, value) else entry) =
            part := by
        refine (List.map_congr_left fun entry member => if_neg fun same => ?_).trans (List.map_id _)
        rw [← same] at elsewhere
        exact Bool.false_ne_true (elsewhere.symm.trans (Entries.contains_of_mem (within member)))
      rw [distinct.put_eq_changeField found fun _ => value, Entries.changeField, List.map_append,
        List.map_cons, if_pos rfl, kept (List.subset_append_left _ _),
        kept (List.subset_append_right _ _)]
      exact .inPlace front back

namespace Service

open Rewrite (outlines onTree thisObject walkItems overOperations)

/-- What becomes of one of the operations, and what is noted on it. -/
inductive Names : Value → Value → Journal → Prop where
  | noObject {item : Value} : item.isObject = false → Names item item []
  | hasName {operation : Entries Value} : Text.isBlank (textIn operation "name") = false →
      Names (.object operation) (.object operation) []
  | noParts {operation : Entries Value} :
      (∀ part ∈ parts operation, Text.isBlank part = true) →
      Names (.object operation) (.object operation) []
  | made {operation named : Entries Value} :
      Text.isBlank (textIn operation "name") = true →
      (∃ part ∈ parts operation, Text.isBlank part = false) →
      Text.isBlank (madeName operation) = false →
      Entries.Gets "name" (.text (madeName operation)) operation named →
      Names (.object operation) (.object named)
        [.event ⟨"service.v102", .debug, "operation name generated",
          [("operation_id", .text (textIn operation "id")),
            ("name", .text (madeName operation))]⟩]

/-- What becomes of operations one by one. -/
inductive NamesEach : List Value → List Value → Journal → Prop where
  | nil : NamesEach [] [] []
  | cons {item named : Value} {rest others : List Value} {notes later : Journal} :
      Names item named notes → NamesEach rest others later →
      NamesEach (item :: rest) (named :: others) (notes ++ later)

/-- A service without operations: they are absent or null, or the content is. -/
inductive Lacks (fields : FieldNames) (root : Entries Value) : Prop where
  | noContent : root.lookup (.text fields.content) = none → Lacks fields root
  | nullContent : root.lookup (.text fields.content) = some .null → Lacks fields root
  | noOperations {content : Entries Value} :
      root.lookup (.text fields.content) = some (.object content) →
      content.lookup (.text "operations") = none → Lacks fields root
  | nullOperations {content : Entries Value} :
      root.lookup (.text fields.content) = some (.object content) →
      content.lookup (.text "operations") = some .null → Lacks fields root

/-- What becomes of a service, and what is noted. -/
inductive NamesOperations (fields : FieldNames) (root : Entries Value) : Value → Journal → Prop where
  | without : Lacks fields root → NamesOperations fields root (.object root) []
  | within {content namedContent namedRoot : Entries Value} {items named : List Value}
      {notes : Journal} :
      root.lookup (.text fields.content) = some (.object content) →
      content.lookup (.text "operations") = some (.array items) →
      NamesEach items named notes →
      Entries.Gets "operations" (.array named) content namedContent →
      Entries.Gets fields.content (.object namedContent) root namedRoot →
      NamesOperations fields root (.object namedRoot) notes

/-- A service of which the operations cannot be visited, and how this is told. -/
inductive Unfit (fields : FieldNames) (root : Entries Value) : Fault → Prop where
  | content {content : Value} : root.lookup (.text fields.content) = some content →
      content ≠ .null → content.isObject = false →
      Unfit fields root (.expectedObject fields.content content.kind)
  | operations {content : Entries Value} {operations : Value} :
      root.lookup (.text fields.content) = some (.object content) →
      content.lookup (.text "operations") = some operations →
      operations ≠ .null → operations.isArray = false →
      Unfit fields root (.expectedArray (fields.content ++ "." ++ "operations") operations.kind)

variable {fields : FieldNames} {root content operation : Entries Value} {fault : Fault}

/-!
## One operation
-/

/-- A name is made exactly if the operation says something of itself. -/
theorem isEmpty_madeName_iff : (madeName operation).isEmpty = true ↔
    ∀ part ∈ parts operation, Text.isBlank part = true := by
  unfold madeName
  constructor
  · intro empty part member
    by_contra visible
    rw [Bool.not_eq_true] at visible
    have kept : part ∈ (parts operation).filter fun part => !Text.isBlank part :=
      List.mem_filter.mpr ⟨member, by rw [visible]; rfl⟩
    have joined := @isBlank_intercalate "-" _ _ kept visible
    rw [String.isEmpty_iff.mp empty] at joined
    cases joined
  · intro blank
    have none : ((parts operation).filter fun part => !Text.isBlank part) = [] :=
      List.filter_eq_nil_iff.mpr fun part member => by simp [blank part member]
    rw [none]
    rfl

/-- A name that is made is not blank. -/
theorem isBlank_madeName (speaks : ∃ part ∈ parts operation, Text.isBlank part = false) :
    Text.isBlank (madeName operation) = false := by
  obtain ⟨part, member, visible⟩ := speaks
  have kept : part ∈ (parts operation).filter fun part => !Text.isBlank part :=
    List.mem_filter.mpr ⟨member, by rw [visible]; rfl⟩
  exact isBlank_intercalate kept visible

theorem names_object (distinct : operation.DistinctKeys) :
    Names (.object operation) (namedOperation (.object operation))
      (namingNotes v102.stepId (.object operation)) := by
  rw [namedOperation, namingNotes, isUnnamed]
  cases named : Text.isBlank (textIn operation "name") with
  | false => exact .hasName named
  | true =>
      cases empty : (madeName operation).isEmpty with
      | true => exact .noParts (isEmpty_madeName_iff.mp empty)
      | false =>
          have speaks : ∃ part ∈ parts operation, Text.isBlank part = false := by
            rw [← Bool.not_eq_true, isEmpty_madeName_iff] at empty
            simpa using empty
          exact .made named speaks (isBlank_madeName speaks) (distinct.gets_put _ _)

theorem names_item {item : Value} (distinct : item.DistinctKeys) :
    Names item (namedOperation item) (namingNotes v102.stepId item) := by
  cases item with
  | scalar value => exact .noObject rfl
  | array items => exact .noObject rfl
  | object operation => exact names_object distinct.keys

theorem namesEach_map {items : List Value} (distinct : ∀ item ∈ items, item.DistinctKeys) :
    NamesEach items (items.map namedOperation) (items.flatMap (namingNotes v102.stepId)) := by
  induction items with
  | nil => exact .nil
  | cons item rest ih =>
      obtain ⟨first, others⟩ := List.forall_mem_cons.mp distinct
      exact .cons (names_item first) (ih others)

/-!
## A service
-/

/-- A service has no operations, or is unfit, or has operations in an array. -/
theorem cases_operations (fields : FieldNames) (root : Entries Value) :
    Lacks fields root ∨ (∃ fault, Unfit fields root fault) ∨
      ∃ (content : Entries Value) (items : List Value),
        root.lookup (.text fields.content) = some (.object content) ∧
          content.lookup (.text "operations") = some (.array items) := by
  cases found : root.lookup (.text fields.content) with
  | none => exact .inl (.noContent found)
  | some value =>
      by_cases null : value = .null
      · exact .inl (.nullContent (null ▸ found))
      · cases value with
        | scalar scalar => exact .inr (.inl ⟨_, .content found null rfl⟩)
        | array items => exact .inr (.inl ⟨_, .content found null rfl⟩)
        | object content =>
            cases listed : Entries.lookup (.text "operations") content with
            | none => exact .inl (.noOperations found listed)
            | some operations =>
                by_cases null : operations = .null
                · exact .inl (.nullOperations found (null ▸ listed))
                · cases operations with
                  | scalar scalar => exact .inr (.inl ⟨_, .operations found listed null rfl⟩)
                  | object entries => exact .inr (.inl ⟨_, .operations found listed null rfl⟩)
                  | array items => exact .inr (.inr ⟨content, items, rfl, listed⟩)

section Operations

variable {change : List Value → Logged Fault (List Value)}

theorem overOperations_of_lacks (lacks : Lacks fields root) :
    overOperations fields change (.object root) = pure (.object root) := by
  unfold overOperations
  cases lacks with
  | noContent found => simp only [found]
  | nullContent found => simp only [found]
  | noOperations found listed => simp only [found, Treatment.operationsField, listed]
  | nullOperations found listed => simp only [found, Treatment.operationsField, listed]

theorem overOperations_of_unfit (unfit : Unfit fields root fault) :
    overOperations fields change (.object root) = Logged.fail fault := by
  unfold overOperations
  cases unfit with
  | @content content found notNull notObject =>
      simp only [found]
      cases content with
      | scalar scalar =>
          cases scalar with
          | null => exact absurd rfl notNull
          | _ => rfl
      | array items => rfl
      | object entries => cases notObject
  | @operations _ operations found listed notNull notArray =>
      simp only [found, Treatment.operationsField, listed]
      cases operations with
      | scalar scalar =>
          cases scalar with
          | null => exact absurd rfl notNull
          | _ => rfl
      | array items => cases notArray
      | object entries => rfl

theorem overOperations_of_items {items : List Value}
    (found : root.lookup (.text fields.content) = some (.object content))
    (listed : content.lookup (.text "operations") = some (.array items)) :
    overOperations fields change (.object root) = change items >>= fun changed =>
      pure (.object (root.put (.text fields.content)
        (.object (content.put (.text "operations") (.array changed))))) := by
  unfold overOperations
  simp only [found, Treatment.operationsField, listed]

end Operations

theorem apply_v102 (fields : FieldNames) (context : Context) (document : Value) :
    (v102.toStep (onTree fields)).apply context document =
      overOperations fields (walkItems (thisObject (nameOperation v102.stepId))) document := by
  change onTree fields v102.stepId (.eachOperation nameOperation) document >>= pure = _
  exact Logged.bind_pure _

theorem apply_v102_of_unfit (context : Context) (unfit : Unfit fields root fault) :
    ((v102.toStep (onTree fields)).apply context (.object root)).outcome = .error fault := by
  rw [apply_v102, overOperations_of_unfit unfit]
  rfl

theorem apply_v102_of_fit (context : Context) (distinct : (Value.object root).DistinctKeys)
    (writable : (Value.object root).isWritable = true) (fit : ∀ fault, ¬ Unfit fields root fault) :
    ∃ migrated, ((v102.toStep (onTree fields)).apply context (.object root)).outcome =
        .ok migrated ∧
      NamesOperations fields root migrated
        ((v102.toStep (onTree fields)).apply context (.object root)).notes := by
  rw [apply_v102]
  rcases cases_operations fields root with lacks | ⟨fault, unfit⟩ | ⟨content, items, found, listed⟩
  · rw [overOperations_of_lacks lacks]
    exact ⟨_, rfl, .without lacks⟩
  · exact absurd unfit (fit fault)
  · have contentDistinct := distinct.lookup found
    have each := Value.DistinctKeys.array_iff.mp (contentDistinct.lookup listed)
    have contentWritable := (Value.isWritable_object_iff.mp writable).lookup found
    have eachWritable := Value.isWritable_array_iff.mp
      ((Value.isWritable_object_iff.mp contentWritable).lookup listed)
    rw [overOperations_of_items found listed, walkItems_nameOperation eachWritable,
      Logged.bind_eq_of_ok _ rfl, Logged.pure_notes, List.append_nil]
    exact ⟨_, rfl, .within found listed (namesEach_map each) (contentDistinct.keys.gets_put _ _)
      (distinct.keys.gets_put _ _)⟩

/-- Version 102 fails exactly for services that are unfit. Of any other it names the operations that
have no name, out of what they say of themselves, and it does nothing else. The service is a tree, so
it shares no parts: an operation that stands elsewhere too would get its name there as well. -/
theorem names_operations (fields : FieldNames) (context : Context)
    (distinct : (Value.object root).DistinctKeys)
    (writable : (Value.object root).isWritable = true) :
    (∀ fault, ((v102.toStep (onTree fields)).apply context (.object root)).outcome =
        .error fault ↔ Unfit fields root fault) ∧
      ((∀ fault, ¬ Unfit fields root fault) →
        ∃ migrated, ((v102.toStep (onTree fields)).apply context (.object root)).outcome =
            .ok migrated ∧ migrated.isWritable = true ∧
          NamesOperations fields root migrated
            ((v102.toStep (onTree fields)).apply context (.object root)).notes) := by
  refine ⟨fun fault => ⟨fun failed => ?_, apply_v102_of_unfit context⟩, fun fit => ?_⟩
  · by_cases fit : ∃ fault, Unfit fields root fault
    · obtain ⟨other, unfit⟩ := fit
      rw [apply_v102_of_unfit context unfit] at failed
      cases failed
      exact unfit
    · obtain ⟨migrated, applied, _⟩ :=
        apply_v102_of_fit context distinct writable (not_exists.mp fit)
      rw [applied] at failed
      cases failed
  · obtain ⟨migrated, applied, names⟩ := apply_v102_of_fit context distinct writable fit
    have keeps := Blueprint.isWritable_of_apply
      (fun _ member => Family.service.writable_treatments (.tail _ (.head _)) member) applied writable
    exact ⟨migrated, applied, keeps, names⟩

/-- A service with operations of every sort. -/
def mixedService (operations : List Value) : Entries Value :=
  [(.text "id", .text "orders"),
    (.text "content", .object
      [(.text "operations", .array operations), (.text "owner", .null)]),
    (.text "version", .int 101)]

def mixedOperations : List Value :=
  [.object [(.text "name", .text " "), (.text "path", .int 7), (.text "id", .text "list")],
    .text "ping",
    .object [(.text "name", .bool false), (.text "id", .text "stop")],
    .object [(.text "id", .array []), (.text "method", .text "\t")],
    .object [(.text "method", .text " get ")]]

theorem names_operations_mixed :
    NamesOperations .standard (mixedService mixedOperations)
      (.object (mixedService
        [.object [(.text "name", .text "list-7"), (.text "path", .int 7), (.text "id", .text "list")],
          .text "ping",
          .object [(.text "name", .bool false), (.text "id", .text "stop")],
          .object [(.text "id", .array []), (.text "method", .text "\t")],
          .object [(.text "method", .text " get "), (.text "name", .text " get ")]]))
      ([("list", "list-7"), ("", " get ")].map fun made => .event
        ⟨"service.v102", .debug, "operation name generated",
          [("operation_id", .text made.1), ("name", .text made.2)]⟩) := by
  have distinct : (Value.object (mixedService mixedOperations)).DistinctKeys := by
    simp [mixedService, mixedOperations, Entries.DistinctKeys, Scalar.key]
  have writable : (Value.object (mixedService mixedOperations)).isWritable = true := by
    decide +kernel
  have fit : ∀ fault, ¬ Unfit .standard (mixedService mixedOperations) fault := by
    intro fault unfit
    cases unfit with
    | content found _ notObject =>
        cases found
        cases notObject
    | operations found listed _ notArray =>
        cases found
        cases listed
        cases notArray
  obtain ⟨migrated, applied, _, names⟩ :=
    (names_operations .standard (.ofFamily "service") distinct writable).2 fit
  have each : ∀ item ∈ mixedOperations, item.isWritable = true := by decide +kernel
  rw [apply_v102, overOperations_of_items rfl rfl, walkItems_nameOperation each] at applied names
  cases applied
  exact names

end Service

end Uplift
