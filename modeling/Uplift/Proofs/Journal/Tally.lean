import Uplift.Proofs.Journal
import Uplift.Proofs.Journal.Warnings

/-!
# Warnings and their events

A warning is recorded twice: as an event of warning level, and among the warnings of its step. Both
records say the same as long as no other event is of warning level, and none has an extra field in
the place of those that tell what an event is.
-/

set_option autoImplicit false

namespace Uplift

namespace Event

/-- The fields that every event has, and that of the document. -/
def ownFields : List String := ["run_id", "family", "step_id", "level", "message", "entity_id"]

/-- What a recorded event tells in a field, if that is a text. -/
def told (field : String) (recorded : List (String × Value)) : Option String :=
  match recorded.lookup field with
  | some (.text written) => some written
  | _ => none

def isWarning (recorded : List (String × Value)) : Bool :=
  told "level" recorded = some "WARNING"

theorem lookup_setField {name other : String} (fields : List (String × Value)) (value : Value)
    (apart : other ≠ name) : (setField fields name value).lookup other = fields.lookup other := by
  unfold setField
  split
  · generalize fields = entries
    induction entries with
    | nil => rfl
    | cons field rest ih =>
        obtain ⟨here, old⟩ := field
        rw [List.map_cons, Journal.lookup_pair]
        by_cases same : here = name
        · rw [if_pos same, Journal.lookup_pair, if_neg apart, if_neg (same ▸ apart), ih]
        · rw [if_neg same, Journal.lookup_pair, ih]
  · generalize fields = entries
    induction entries with
    | nil => rw [List.nil_append, Journal.lookup_pair, if_neg apart]
    | cons field rest ih => rw [List.cons_append, Journal.lookup_pair, Journal.lookup_pair, ih]

/-- Extra fields of other names leave a field as it is. -/
theorem lookup_foldl_setField {name : String} {extra : List (String × Value)}
    (apart : ∀ field ∈ extra, name ≠ field.1) (fields : List (String × Value)) :
    (extra.foldl (fun fields field => setField fields field.1 field.2) fields).lookup name =
      fields.lookup name := by
  induction extra generalizing fields with
  | nil => rfl
  | cons field rest ih =>
      obtain ⟨first, others⟩ := List.forall_mem_cons.mp apart
      rw [List.foldl_cons, ih others, lookup_setField _ _ first]

/-- An event is recorded as what it is, if its extra fields have names of their own. -/
theorem told_fields (context : Context) {event : Event}
    (apart : ∀ field ∈ event.extra, field.1 ∉ ownFields) :
    told "level" (event.fields context) = some event.level.name ∧
      told "step_id" (event.fields context) = some event.stepId ∧
        told "message" (event.fields context) = some event.message := by
  have kept {name : String} (own : name ∈ ownFields) (fields : List (String × Value)) :
      (event.extra.foldl (fun fields field => setField fields field.1 field.2) fields).lookup name =
        fields.lookup name :=
    lookup_foldl_setField (fun field member same => apart field member (same ▸ own)) fields
  unfold told Event.fields
  dsimp only
  rw [kept (by decide), kept (by decide), kept (by decide)]
  cases context.runId <;> exact ⟨rfl, rfl, rfl⟩

end Event

/-- A note that is recorded as what it is, and that warns in none but the given steps. -/
def Note.WarnsIn (steps : String → Prop) : Note → Prop
  | .event happened =>
      happened.level.name ≠ "WARNING" ∧ ∀ field ∈ happened.extra, field.1 ∉ Event.ownFields
  | .warning stepId _ => steps stepId

@[simp] theorem Note.warnsIn_event_iff {steps : String → Prop} {happened : Event} :
    (Note.event happened).WarnsIn steps ↔
      happened.level.name ≠ "WARNING" ∧ ∀ field ∈ happened.extra, field.1 ∉ Event.ownFields :=
  Iff.rfl

theorem Note.WarnsIn.imp {steps wider : String → Prop} {note : Note}
    (warns : note.WarnsIn steps) (widens : ∀ stepId, steps stepId → wider stepId) :
    note.WarnsIn wider := by
  cases note with
  | event happened => exact warns
  | warning stepId message => exact widens _ warns

/-- All notes of an action are recorded as what they are, also if it fails. -/
def Logged.WarnsIn {ε α : Type} (steps : String → Prop) (action : Logged ε α) : Prop :=
  ∀ note ∈ action.notes, note.WarnsIn steps

namespace Logged.WarnsIn

variable {ε α β : Type} {steps : String → Prop}

theorem of_nil {action : Logged ε α} (silent : action.notes = []) : action.WarnsIn steps := by
  intro note member
  rw [silent] at member
  cases member

theorem pure (value : α) : (pure value : Logged ε α).WarnsIn steps := of_nil rfl

theorem note {entry : Note} (warns : entry.WarnsIn steps) :
    (Logged.note entry : Logged ε Unit).WarnsIn steps :=
  List.forall_mem_singleton.mpr warns

theorem bind {action : Logged ε α} (first : action.WarnsIn steps) {next : α → Logged ε β}
    (later : ∀ value, action.outcome = .ok value → (next value).WarnsIn steps) :
    (action >>= next).WarnsIn steps := by
  unfold WarnsIn
  cases ended : action.outcome with
  | error failure =>
      rw [bind_eq_of_error _ ended]
      exact first
  | ok value =>
      rw [bind_eq_of_ok _ ended]
      exact List.forall_mem_append.mpr ⟨first, later value ended⟩

end Logged.WarnsIn

namespace Journal

open Event (told isWarning)

/-- The events of a journal as they are recorded. -/
abbrev recorded (context : Context) (journal : Journal) : List (List (String × Value)) :=
  journal.events.map (Event.fields context)

/-- Warnings by step are the recorded events of warning level: under each step their messages in
order, and the steps in the order of their first warnings. -/
structure Tallies (recorded : List (List (String × Value)))
    (warnings : List (String × List String)) : Prop where
  messages : ∀ stepId, ((warnings.lookup stepId).getD []).map some =
    ((recorded.filter isWarning).filter fun event => told "step_id" event = some stepId).map
      (told "message")
  order : warnings.map (·.1) = ((recorded.filter isWarning).filterMap (told "step_id")).eraseDups
  nonempty : ∀ group ∈ warnings, group.2 ≠ []

variable {steps : String → Prop} {journal : Journal}

theorem recorded_cons (context : Context) (note : Note) (rest : Journal) :
    recorded context (note :: rest) =
      note.toEvent.fields context :: recorded context rest := rfl

/-- The recorded events of warning level are the warnings, one by one. -/
theorem filter_isWarning (warn : ∀ note ∈ journal, note.WarnsIn steps) (context : Context) :
    ((recorded context journal).filter isWarning).map (fun event =>
        (told "step_id" event, told "message" event)) =
      (journal.filterMap Note.toWarning?).map fun warning => (some warning.1, some warning.2) := by
  induction journal with
  | nil => rfl
  | cons note rest ih =>
      obtain ⟨first, others⟩ := List.forall_mem_cons.mp warn
      have apart : ∀ field ∈ note.toEvent.extra, field.1 ∉ Event.ownFields := by
        cases note with
        | event happened => exact first.2
        | warning stepId message => exact nofun
      obtain ⟨level, step, message⟩ := Event.told_fields context apart
      rw [recorded_cons, List.filter_cons, isWarning, level]
      cases note with
      | event happened =>
          have quiet : ¬ some happened.level.name = some "WARNING" := fun same =>
            first.1 (Option.some.inj same)
          rw [Note.toEvent, decide_eq_false quiet, List.filterMap_cons, Note.toWarning?]
          exact ih others
      | warning stepId text =>
          rw [Note.toEvent, Level.name, decide_eq_true rfl, if_pos rfl, List.map_cons, ih others]
          rw [Note.toEvent] at step message
          rw [step, message]
          rfl

/-- To add a warning adds its step, unless the step has warnings. -/
theorem map_fst_addWarning (groups : List (String × List String)) (stepId message : String) :
    (addWarning groups stepId message).map (·.1) =
      groups.map (·.1) ++ if stepId ∈ groups.map (·.1) then [] else [stepId] := by
  induction groups with
  | nil => rfl
  | cons group rest ih =>
      obtain ⟨other, messages⟩ := group
      rw [addWarning]
      by_cases same : other = stepId
      · simp [same]
      · rw [if_neg same, List.map_cons, List.map_cons, ih, List.cons_append]
        simp only [List.mem_cons, Ne.symm same, false_or]

theorem map_fst_warnings (journal : Journal) :
    journal.warnings.map (·.1) = ((journal.filterMap Note.toWarning?).map (·.1)).eraseDups := by
  have gathered (warnings : List (String × String)) (groups : List (String × List String)) :
      (warnings.foldl (fun groups warning => addWarning groups warning.1 warning.2) groups).map
          (·.1) = groups.map (·.1) ++
        ((warnings.map (·.1)).filter fun stepId => stepId ∉ groups.map (·.1)).eraseDups := by
    induction warnings generalizing groups with
    | nil => simp
    | cons warning rest ih =>
        rw [List.foldl_cons, ih, map_fst_addWarning, List.map_cons]
        by_cases known : warning.1 ∈ groups.map (·.1)
        · rw [if_pos known, List.append_nil, List.filter_cons_of_neg (by simpa using known)]
        · rw [if_neg known, List.filter_cons_of_pos (by simpa using known), List.eraseDups_cons,
            List.filter_filter, List.append_assoc, List.singleton_append]
          refine congrArg (fun later => _ ++ warning.1 :: List.eraseDups later)
            (List.filter_congr fun stepId _ => ?_)
          rw [Bool.eq_iff_iff, decide_eq_true_eq, List.mem_append, List.mem_singleton]
          simp [not_or, and_comm]
  rw [warnings, gathered, List.map_nil, List.nil_append, List.filter_eq_self.mpr]
  exact fun _ _ => decide_eq_true List.not_mem_nil

theorem nonempty_addWarning {groups : List (String × List String)} (stepId message : String)
    (nonempty : ∀ group ∈ groups, group.2 ≠ []) :
    ∀ group ∈ addWarning groups stepId message, group.2 ≠ [] := by
  induction groups with
  | nil => simp [addWarning]
  | cons group rest ih =>
      obtain ⟨other, messages⟩ := group
      obtain ⟨first, others⟩ := List.forall_mem_cons.mp nonempty
      rw [addWarning]
      split
      · exact List.forall_mem_cons.mpr ⟨by simp, others⟩
      · exact List.forall_mem_cons.mpr ⟨first, ih others⟩

theorem nonempty_warnings (journal : Journal) : ∀ group ∈ journal.warnings, group.2 ≠ [] := by
  have gathered (warnings : List (String × String)) (groups : List (String × List String))
      (nonempty : ∀ group ∈ groups, group.2 ≠ []) :
      ∀ group ∈ warnings.foldl (fun groups warning => addWarning groups warning.1 warning.2) groups,
        group.2 ≠ [] := by
    induction warnings generalizing groups with
    | nil => exact nonempty
    | cons warning rest ih => exact ih _ (nonempty_addWarning _ _ nonempty)
  exact gathered _ _ nofun

theorem warningsOf_eq_map_filter (stepId : String) (journal : Journal) :
    journal.warningsOf stepId =
      ((journal.filterMap Note.toWarning?).filter fun warning => warning.1 = stepId).map (·.2) := by
  rw [warningsOf_eq_filterMap]
  induction journal.filterMap Note.toWarning? with
  | nil => rfl
  | cons warning rest ih =>
      rw [List.filterMap_cons, messageOf?, ih]
      by_cases same : stepId = warning.1
      · simp [same]
      · simp [same, Ne.symm same]

theorem tallies (warn : ∀ note ∈ journal, note.WarnsIn steps) (context : Context) :
    Tallies (recorded context journal) journal.warnings := by
  have same := filter_isWarning warn context
  generalize recorded context journal = events at same ⊢
  refine ⟨fun stepId => ?_, ?_, nonempty_warnings journal⟩
  · have messages := congrArg (fun pairs => (pairs.filter fun pair => pair.1 = some stepId).map (·.2))
      same
    simp only [List.filter_map, List.map_map, Function.comp_def, Option.some.injEq] at messages
    change (journal.warningsOf stepId).map some = _
    rw [warningsOf_eq_map_filter, List.map_map]
    exact messages.symm
  · have ids := congrArg (List.filterMap (·.1)) same
    rw [List.filterMap_map, List.filterMap_map] at ids
    rw [map_fst_warnings]
    exact congrArg _ ((congrFun List.filterMap_eq_map _).symm.trans ids.symm)

/-- What has warnings is one of the steps that are warned in. -/
theorem forall_mem_warnings (warn : ∀ note ∈ journal, note.WarnsIn steps) :
    ∀ group ∈ journal.warnings, steps group.1 := by
  intro group member
  have listed : group.1 ∈ journal.warnings.map (·.1) := List.mem_map_of_mem member
  rw [map_fst_warnings, List.mem_eraseDups] at listed
  obtain ⟨warning, warned, same⟩ := List.mem_map.mp listed
  obtain ⟨note, noted, isWarning⟩ := List.mem_filterMap.mp warned
  rw [← same]
  cases note with
  | event happened => cases isWarning
  | warning stepId message =>
      cases isWarning
      exact warn _ noted

end Journal

end Uplift
