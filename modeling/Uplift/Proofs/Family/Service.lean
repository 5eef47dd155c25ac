import Uplift.Proofs.Engine.Execution
import Uplift.Proofs.Family.Settled
import Uplift.Proofs.Rewrite.Amending
import Uplift.Proofs.Rewrite.Promotion

/-!
# What a service becomes

The two steps of services, and the marker after them, make one pass over the entries of the root:
the identifier and the name stay, and each other entry moves into the content as it is, except that
operations get the names that they lack and the versions are marked. The pass fails for operations
that are no array, and for nothing else.
-/

set_option autoImplicit false

namespace Uplift

namespace Service

open Rewrite (outlines)

/-- What an operation says in a field: the text of a scalar. -/
def textIn (operation : Entries Value) (field : String) : String :=
  match operation.lookup (.text field) with
  | some (.scalar value) => value.wording
  | _ => ""

/-- What an operation says of itself, in the order in which a name is made of it. -/
def parts (operation : Entries Value) : List String :=
  ["id", "method", "path"].map (textIn operation)

def madeName (operation : Entries Value) : String :=
  "-".intercalate ((parts operation).filter fun part => !Text.isBlank part)

/-- An operation that gets a name: it has none of its own, and says something of itself. -/
def isUnnamed (operation : Entries Value) : Bool :=
  Text.isBlank (textIn operation "name") && !(madeName operation).isEmpty

/-- An operation with the name that is made for it, if it has none of its own. -/
def namedOperation : Value → Value
  | .object operation =>
      if isUnnamed operation then
        .object (Entries.put (.text "name") (.text (madeName operation)) operation)
      else .object operation
  | other => other

/-- What is noted of an operation that gets a name. -/
def namingNotes (stepId : String) : Value → Journal
  | .object operation =>
      if isUnnamed operation then
        [.event ⟨stepId, .debug, "operation name generated",
          [("operation_id", .text (textIn operation "id")),
            ("name", .text (madeName operation))]⟩]
      else []
  | _ => []

def namedOperations : Value → Value
  | .array items => .array (items.map namedOperation)
  | other => other

/-- Operations that a root has in a form in which they cannot be visited. -/
structure Misplaced (entries : Entries Value) (operations : Value) : Prop where
  found : entries.lookup (.text "operations") = some operations
  notNull : operations ≠ .null
  notArray : operations.isArray = false

/-- The identifier and the name of a root, as far as it has them. -/
def identity (entries : Entries Value) : Entries Value :=
  ["id", "name"].filterMap fun field =>
    (entries.lookup (.text field)).map fun value => (.text field, value)

/-- What an entry that moves into the content becomes. -/
def upgradedEntry (entry : Scalar × Value) : Scalar × Value :=
  if entry.1 = .text "operations" then (entry.1, namedOperations entry.2)
  else if entry.1 = .text "migrations" then (entry.1, .text "[101, 102]")
  else entry

def upgradedContent (entries : Entries Value) : Entries Value :=
  (entries.filter fun entry => entry.1 ≠ .text "id" && entry.1 ≠ .text "name").map upgradedEntry ++
    if entries.contains (.text "migrations") then []
    else [(.text "migrations", .text "[101, 102]")]

/-- What a service with these entries is after both steps, with its marker. -/
def upgraded (entries : Entries Value) : Value :=
  .object (identity entries ++ [(.text "content", .object (upgradedContent entries))])

variable {entries : Entries Value} {operations : Value}

theorem wordingAt_eq_textIn (operation : Entries Value) (field : String) :
    operation.wordingAt field = textIn operation field := by
  rw [Entries.wordingAt, textIn]
  rcases operation.lookup (.text field) with _ | ⟨scalar⟩ | items | inner <;> rfl

/-- In an operation that can be written each field can be read. -/
theorem textAt_eq {operation : Entries Value} (writable : operation.Writable) (field : String) :
    Outline.textAt field (outlines operation) = .ok (textIn operation field) := by
  rw [outlines, Outline.textAt_mapValues, writable.legibleAt, wordingAt_eq_textIn]
  rfl

theorem operationName_eq {operation : Entries Value} (writable : operation.Writable) :
    operationName (outlines operation) = .ok (madeName operation) := by
  simp only [operationName, nameParts, List.mapM_cons, List.mapM_nil, textAt_eq writable]
  rfl

theorem nameOperation_eq {operation : Entries Value} (writable : operation.Writable)
    (stepId : String) :
    ∃ amendment, nameOperation stepId (outlines operation) = .ok amendment ∧
      amendment.notes = namingNotes stepId (.object operation) ∧
        Value.object (amendment.apply operation) = namedOperation (.object operation) := by
  simp only [nameOperation, textAt_eq writable, operationName_eq writable, namingNotes,
    namedOperation, isUnnamed, bind, Except.bind]
  by_cases named : Text.isBlank (textIn operation "name") = true
  · by_cases empty : (madeName operation).isEmpty = true
    · simp only [named, empty, Bool.not_true, Bool.and_false, Bool.false_eq_true, if_true, if_false]
      exact ⟨_, rfl, rfl, rfl⟩
    · simp only [named, empty, Bool.not_true, Bool.not_false, Bool.and_true, Bool.false_eq_true,
        if_true, if_false]
      exact ⟨_, rfl, rfl, rfl⟩
  · simp only [named, Bool.not_false, Bool.false_and, Bool.false_eq_true, if_true, if_false]
    exact ⟨_, rfl, rfl, rfl⟩

/-- A visit of what can be written, and is among the operations. -/
theorem thisObject_nameOperation {item : Value} (writable : item.isWritable = true)
    (stepId : String) :
    Rewrite.thisObject (nameOperation stepId) item =
      ⟨namingNotes stepId item, .ok (namedOperation item)⟩ := by
  cases item with
  | scalar value => rfl
  | array items => rfl
  | object operation =>
      obtain ⟨amendment, asked, notes, applied⟩ :=
        nameOperation_eq (Value.isWritable_object_iff.mp writable) stepId
      rw [Rewrite.thisObject, Rewrite.ask_eq_of_ok asked, Logged.bind_eq_of_ok _ rfl,
        Logged.pure_notes, List.append_nil, notes, Logged.pure_outcome, applied]

theorem walkItems_nameOperation {items : List Value}
    (writable : ∀ item ∈ items, item.isWritable = true) (stepId : String) :
    Rewrite.walkItems (Rewrite.thisObject (nameOperation stepId)) items =
      ⟨items.flatMap (namingNotes stepId), .ok (items.map namedOperation)⟩ :=
  Rewrite.walkItems_eq_of_ok fun item member =>
    thisObject_nameOperation (writable item member) stepId

/-- The entries that move into the content. -/
abbrev moved (entries : Entries Value) : Entries Value := Promotion.moved .standard entries

theorem distinctKeys_moved (distinct : entries.DistinctKeys) : (moved entries).DistinctKeys :=
  distinct.filter _

/-- A root with a content of its own beside the identifier and the name of a service. -/
def withContent (entries content : Entries Value) : Value :=
  .object (Promotion.root .standard (.object content) entries)

theorem kept_eq_identity (entries : Entries Value) :
    Promotion.kept .standard entries = identity entries := by
  rw [Promotion.kept_eq_keep]
  unfold Promotion.keep identity
  simp only [FieldNames.standard, List.filterMap_cons, List.filterMap_nil]
  cases entries.lookup (.text "id") <;> cases entries.lookup (.text "name") <;> rfl

theorem withContent_eq (entries content : Entries Value) :
    withContent entries content =
      .object (identity entries ++ [(.text "content", .object content)]) := by
  have absent : (Promotion.kept .standard entries).contains (.text "content") = false := by
    rw [← Entries.lookup_eq_none_iff, Promotion.lookup_kept]
    exact if_neg (by decide)
  rw [withContent, Promotion.root, ← kept_eq_identity]
  exact congrArg Value.object (Entries.put_of_not_contains absent _)

/-- The first step moves all entries but the identifier and the name. -/
theorem migrates_v101 (entries : Entries Value) :
    v101.Migrates .standard (.object entries) (withContent entries (moved entries)) :=
  (Blueprint.migrates_single rfl).mpr rfl

private theorem lookup_content (entries content : Entries Value) :
    (Promotion.root .standard (.object content) entries).lookup
      (.text FieldNames.standard.content) = some (.object content) :=
  Entries.lookup_put_same ..

private theorem put_content (entries content other : Entries Value) :
    (Promotion.root .standard (.object content) entries).put
      (.text FieldNames.standard.content) (.object other) =
        Promotion.root .standard (.object other) entries :=
  Entries.put_put_same ..

/-- Changing the operations of a content changes nothing beside it. -/
private theorem overOperations_withContent (change : List Value → Logged Fault (List Value))
    (entries content : Entries Value) :
    Rewrite.overOperations .standard change (withContent entries content) =
      match content.lookup (.text "operations") with
      | none | some .null => pure (withContent entries content)
      | some (.array items) => do
          let changed ← change items
          pure (withContent entries (content.put (.text "operations") (.array changed)))
      | some other => Logged.fail (.expectedArray "content.operations" other.kind) := by
  rw [withContent, Rewrite.overOperations, lookup_content]
  dsimp only [Treatment.operationsField]
  rcases content.lookup (.text "operations") with _ | ⟨scalar⟩ | items | inner
  · rfl
  · cases scalar <;> rfl
  · simp only [put_content]
    rfl
  · rfl

private theorem lookup_operations (entries : Entries Value) :
    (moved entries).lookup (.text "operations") = entries.lookup (.text "operations") :=
  Promotion.lookup_moved (by decide) entries

/-- The second step names the operations of the content. -/
theorem migrates_v102 (distinct : entries.DistinctKeys) (writable : entries.Writable)
    (placed : ¬ ∃ operations, Misplaced entries operations) :
    v102.Migrates .standard (withContent entries (moved entries))
      (withContent entries ((moved entries).changeField "operations" namedOperations)) := by
  have movedDistinct := distinctKeys_moved distinct
  rw [Blueprint.migrates_single rfl, Rewrite.onTree, overOperations_withContent]
  cases found : entries.lookup (.text "operations") with
  | none =>
      rw [← lookup_operations] at found
      have unchanged := movedDistinct.changeField_eq_self namedOperations (by
        intro value present
        cases found.symm.trans present)
      rw [unchanged, found]
      rfl
  | some operations =>
      cases operations with
      | scalar value =>
          by_cases null : value = .null
          · subst null
            rw [← lookup_operations] at found
            have unchanged := movedDistinct.changeField_eq_self namedOperations (by
              intro value present
              cases found.symm.trans present
              rfl)
            rw [unchanged, found]
            rfl
          · exact absurd ⟨_, found, by simpa using null, rfl⟩ placed
      | object inner => exact absurd ⟨_, found, Value.noConfusion, rfl⟩ placed
      | array items =>
          have each := Value.isWritable_array_iff.mp (writable.lookup found)
          rw [← lookup_operations] at found
          rw [← movedDistinct.put_eq_changeField found, found, namedOperations]
          dsimp only
          rw [walkItems_nameOperation each, Logged.bind_eq_of_ok _ rfl]
          rfl

/-- The second step fails for operations that cannot be visited. -/
theorem fails_v102 {context : Context} (misplaced : Misplaced entries operations) :
    (v102.toStep (Rewrite.onTree .standard)).Fails context (withContent entries (moved entries))
      (.expectedArray "content.operations" operations.kind) := by
  refine .raised ?_
  change (Rewrite.overOperations .standard _ (withContent entries (moved entries)) >>=
    pure).outcome = _
  rw [overOperations_withContent, lookup_operations, misplaced.found]
  cases operations with
  | scalar value =>
      cases value with
      | null => exact absurd rfl misplaced.notNull
      | _ => rfl
  | array items => cases misplaced.notArray
  | object inner => rfl

/-- The marker goes into the content. -/
theorem put_withContent (entries content : Entries Value) (text : String) :
    Marker.put .standard text (withContent entries content) =
      withContent entries (content.put (.text "migrations") (.text text)) := by
  rw [withContent, Marker.put_of_content (lookup_content _ _), put_content]
  rfl

/-- Naming the operations and marking the content amends the moved entries one by one. -/
private theorem put_changeField_moved (entries : Entries Value) :
    ((moved entries).changeField "operations" namedOperations).put (.text "migrations")
        (.text "[101, 102]") = upgradedContent entries := by
  have parts : moved entries =
      entries.filter fun entry => entry.1 ≠ .text "id" && entry.1 ≠ .text "name" := by
    rw [moved, Promotion.moved_eq_filter]
    refine List.filter_congr fun entry _ => ?_
    rw [Promotion.stays, Bool.not_or, decide_not, decide_not]
    rfl
  have known : ((moved entries).changeField "operations" namedOperations).contains
      (.text "migrations") = entries.contains (.text "migrations") := by
    rw [Entries.contains_changeField, Entries.contains_eq_isSome_lookup,
      Entries.contains_eq_isSome_lookup, Promotion.lookup_moved (by decide)]
  rw [upgradedContent, ← parts]
  cases present : entries.contains (.text "migrations") with
  | true =>
      rw [present] at known
      rw [Entries.put_of_contains known, Entries.changeField, List.map_map, if_pos rfl,
        List.append_nil]
      refine List.map_congr_left fun entry _ => ?_
      rw [Function.comp_apply, upgradedEntry]
      by_cases operations : entry.1 = .text "operations"
      · rw [if_pos operations, if_pos operations, operations]
        exact if_neg (by decide)
      · rw [if_neg operations, if_neg operations, Scalar.sameKey_comm]
        simp only [Scalar.sameKey_text_iff]
  | false =>
      rw [present] at known
      rw [Entries.put_of_not_contains known, if_neg Bool.false_ne_true, Entries.changeField]
      refine congrArg (· ++ _) (List.map_congr_left fun entry member => ?_)
      have other : entry.1 ≠ .text "migrations" := by
        intro key
        rw [Entries.contains_changeField, ← Bool.not_eq_true, Entries.contains_iff, ← key] at known
        exact known (List.mem_map_of_mem member)
      rw [upgradedEntry, if_neg other]

/-- Both steps and the marker make of a root what one pass over its entries makes of it. -/
theorem marked_eq_upgraded (entries : Entries Value) :
    Marker.put .standard "[101, 102]"
        (withContent entries ((moved entries).changeField "operations" namedOperations)) =
      upgraded entries := by
  rw [put_withContent, withContent_eq, upgraded, put_changeField_moved]

end Service

end Uplift
