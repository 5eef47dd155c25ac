import Uplift.Proofs.Engine.Staging
import Uplift.Proofs.Family.Parallel
import Uplift.Proofs.Family.Tally

/-!
# Gaps that are filled late

A declared list of versions may have gaps, and then an earlier step of a family runs on what a later
one has left. For versions 102 and 103 of chains this comes to the same as their ascending order, on
documents that share no parts: one order succeeds if the other does, with the same document and the
same warnings. An engine that fills a gap at 102 delivers what it would have delivered from the
ascending order.
-/

set_option autoImplicit false

namespace Uplift.Chain

open Rewrite Logged

variable {fields : FieldNames} {context : Context} {document treated tidied last : Value}

abbrev step102 (fields : FieldNames) : Step Value := v102.toStep (onTree fields)

abbrev step103 (fields : FieldNames) : Step Value := v103.toStep (onTree fields)

/-- Versions 102 and 103 in their order. -/
def inOrder (fields : FieldNames) (context : Context) (document : Value) : Logged Fault Value :=
  (step102 fields).apply context document >>= (step103 fields).apply context

/-- Version 102 after version 103. -/
def outOfOrder (fields : FieldNames) (context : Context) (document : Value) : Logged Fault Value :=
  (step103 fields).apply context document >>= (step102 fields).apply context

/-!
## The steps one after the other
-/

/-- Version 102 runs alike before and after version 103. -/
theorem parallel_v102
    (done : ((step103 fields).apply context document).outcome = .ok tidied) :
    Parallel (fun left right => ((step103 fields).apply context left).outcome = .ok right)
      ((step102 fields).apply context document) ((step102 fields).apply context tidied) := by
  simp only [apply_v102, apply_v103] at done ⊢
  exact parallel_overElements (fun found => (parallel_walks disjoint_propertyRules found).2) done

/-- Version 103 runs alike before and after version 102. -/
theorem parallel_v103
    (done : ((step102 fields).apply context document).outcome = .ok treated) :
    Parallel (fun left right => ((step102 fields).apply context left).outcome = .ok right)
      ((step103 fields).apply context document) ((step103 fields).apply context treated) := by
  simp only [apply_v102, apply_v103] at done ⊢
  exact parallel_overElements (fun found => (parallel_walks disjoint_propertyRules.symm found).2)
    done

/-- One order succeeds exactly if the other does, and with the same document. -/
theorem outOfOrder_eq_ok_iff :
    (outOfOrder fields context document).outcome = .ok last ↔
      (inOrder fields context document).outcome = .ok last :=
  outcome_swap (fun _ done => parallel_v102 done) fun _ done => parallel_v103 done

/-- The rules of version 103 note nothing. -/
theorem notes_propertyRules103 {elementType : String} {rule : FallibleRule}
    (chosen : propertyRules103 elementType = some rule) (stepId : String)
    (entries : Entries Outline) (amendment : Amendment) :
    rule stepId entries = .ok amendment → amendment.notes = [] :=
  @forall_propertyRules103
    (fun rule => rule stepId entries = .ok amendment → amendment.notes = [])
    elementType rule notes_editIf notes_editIf chosen

/-- Version 103 warns of nothing. -/
theorem silent_v103 (fields : FieldNames) (context : Context) (document : Value) :
    ((step103 fields).apply context document).notes.filterMap Note.toWarning? = [] := by
  have warns : ((step103 fields).apply context document).WarnsIn fun _ => False := by
    rw [apply_v103]
    refine warnsIn_overElements (fun found => (warnsIn_walk ?_ found).2) document
    intro elementType rule chosen entries amendment asked
    rw [notes_propertyRules103 chosen _ entries amendment asked]
    exact nofun
  rw [List.filterMap_eq_nil_iff]
  intro note member
  cases note with
  | event happened => rfl
  | warning stepId message => exact (warns _ member).elim

/-- What version 103 leaves is brought by version 102 to where both versions lead in order. -/
theorem outcome_v102
    (done : ((step103 fields).apply context document).outcome = .ok tidied) :
    ((step102 fields).apply context tidied).outcome = (inOrder fields context document).outcome :=
  (parallel_v102 done).outcome_bind.symm

/-- Where version 103 succeeds at first, the orders end alike in every case. -/
theorem outcome_outOfOrder
    (done : ((step103 fields).apply context document).outcome = .ok tidied) :
    (outOfOrder fields context document).outcome =
      (inOrder fields context document).outcome := by
  rw [outOfOrder, Logged.bind_outcome_of_ok _ done, outcome_v102 done]

theorem warnings_outOfOrder
    (done : ((step103 fields).apply context document).outcome = .ok tidied) :
    Journal.warnings (outOfOrder fields context document).notes =
      Journal.warnings (inOrder fields context document).notes := by
  unfold Journal.warnings
  rw [outOfOrder, inOrder, Logged.bind_eq_of_ok _ done, List.filterMap_append, silent_v103,
    List.nil_append, (parallel_v102 done).notes_eq,
    warnings_bind_of_silent _ fun reached => silent_v103 fields context reached]

theorem unfailing_propertyRules103 : Unfailing propertyRules103 := by
  intro elementType rule chosen stepId properties writable
  have drops (field : String) : ∃ amendment,
      FallibleRule.dropIfBlank field stepId (outlines properties) = .ok amendment := by
    unfold FallibleRule.dropIfBlank FallibleRule.editIf
    rw [lookup_outlines]
    cases found : properties.lookup (.text field) with
    | none => exact ⟨_, rfl⟩
    | some value =>
        have legible : value.outline.isLegible = true :=
          Value.isLegible_of_isWritable (writable.lookup found)
        rw [Option.map_some]
        dsimp only
        rw [Outline.isBlank_eq, legible]
        exact ⟨_, rfl⟩
  exact @forall_propertyRules103
    (fun rule => ∃ amendment, rule stepId (outlines properties) = .ok amendment)
    elementType rule (drops _) (drops _) chosen

/-- Version 103 succeeds on every document that can be written. -/
theorem exists_tidied (writable : document.isWritable = true) (fields : FieldNames)
    (context : Context) :
    ∃ tidied, ((step103 fields).apply context document).outcome = .ok tidied := by
  rw [apply_v103]
  exact exists_overElements fun found located =>
    (exists_walked unfailing_propertyRules103 _ found
      (isWritable_of_contentField? located writable)).2

/-!
## Engines that come upon a gap
-/

theorem isObject_of_overElements {change : Value → Logged Fault Value} {treated : Value}
    (done : (overElements fields change document).outcome = .ok treated) :
    treated.isObject = document.isObject := by
  rcases overElements_eq_ok_iff.mp done with ⟨_, rfl⟩ | ⟨_, _, _, _, rfl⟩
  · rfl
  · unfold putContentField
    split
    · split <;> rfl
    · rfl

theorem isWritable_v103 (done : ((step103 fields).apply context document).outcome = .ok tidied)
    (writable : document.isWritable = true) : tidied.isWritable = true :=
  Blueprint.isWritable_of_apply
    (fun _ member => Family.chain.writable_treatments (.tail _ (.tail _ (.head _))) member) done
    writable

/-- Nothing that cannot be written is migrated. -/
theorem migrate_eq_overlong (settings : Settings) (root : document.isObject = true)
    (unwritable : document.isWritable = false) :
    ((Engine.ofTrees settings .chain).migrate document).outcome =
      .error (.untyped .integerTooLong) := by
  rw [Engine.migrate_of_undigested root
    ((Engine.digestion_eq_error_iff root).mpr ⟨unwritable, rfl⟩)]

/-- A chain that an engine migrates, and of whose versions only 102 is not declared. -/
structure HasGap (settings : Settings) (document : Value) (satisfied : Satisfied) : Prop where
  root : document.isObject = true
  writable : document.isWritable = true
  resolved : (Engine.ofTrees settings .chain).resolution document = .ok satisfied
  accepted : (Engine.ofTrees settings .chain).inspection document satisfied.declaration = .ok ()
  hasFirst : satisfied.declaration.contains 101 = true
  lacksSecond : satisfied.declaration.contains 102 = false
  hasThird : satisfied.declaration.contains 103 = true

/-- How an engine delivers a chain that has all versions then. -/
def delivered (settings : Settings) (last : Value) : Value :=
  if settings.stampVersions then
    Marker.put (settings.fieldsFor label) "[101, 102, 103]" last
  else last

private theorem isWritable_v102 : Scalar.isWritable (.int v102.version) = true :=
  Family.chain.isWritable_version (.tail _ (.head _))

namespace HasGap

variable {settings : Settings} {gapped last : Value} {satisfied : Satisfied}
  (gap : HasGap settings gapped satisfied)

include gap

theorem outstanding_eq :
    Plan.outstanding (Engine.ofTrees settings .chain).registry satisfied.declaration =
      [(102, step102 (settings.fieldsFor label))] := by
  have ordered : (Engine.ofTrees settings .chain).registry.ordered =
      [(101, v101.toStep (onTree (settings.fieldsFor label))),
        (102, step102 (settings.fieldsFor label)), (103, step103 (settings.fieldsFor label))] := rfl
  rw [Plan.outstanding, ordered]
  simp [gap.hasFirst, gap.lacksSecond, gap.hasThird]

theorem delivered_eq (last : Value) :
    (Engine.ofTrees settings .chain).delivered satisfied.declaration last =
      delivered settings last := by
  have outstanding : Plan.outstanding (Engine.ofTrees settings .chain).registry
      satisfied.declaration ≠ [] := by
    rw [gap.outstanding_eq]
    exact List.cons_ne_nil _ _
  unfold delivered
  split
  · rename_i stamping
    exact Engine.delivered_of_isMarked (Engine.isMarked_eq_true_iff.mpr ⟨stamping, outstanding⟩)
  · rename_i unstamped
    have unmarked : (Engine.ofTrees settings .chain).isMarked satisfied.declaration = false :=
      Bool.eq_false_iff.mpr fun marked => unstamped (Engine.isMarked_eq_true_iff.mp marked).1
    simp only [Engine.delivered, unmarked, Bool.false_eq_true, if_false]

theorem starts : (Engine.ofTrees settings .chain).Starts gapped satisfied (Digest.hex gapped) :=
  ⟨gap.root, (Engine.digestion_eq_ok_iff gap.root).mpr ⟨gap.writable, rfl⟩, gap.resolved,
    gap.accepted⟩

/-- The step that fills the gap gives what is delivered. -/
theorem migrate_eq_ok
    (filled : ((step102 (settings.fieldsFor label)).apply context gapped).outcome = .ok last) :
    ∃ result, ((Engine.ofTrees settings .chain).migrate gapped).outcome = .ok result ∧
      result.applied = [102] ∧ result.document = delivered settings last := by
  have performed : (Engine.ofTrees settings .chain).execution gapped satisfied.declaration =
      .ok last := by
    rw [apply_v102] at filled
    have root := (isObject_of_overElements filled).trans gap.root
    rw [Engine.execution, gap.outstanding_eq, Engine.performAll_eq_ok_iff]
    refine ⟨List.forall_mem_singleton.mpr isWritable_v102, .cons ⟨?_, root⟩ .nil⟩
    rw [apply_v102, filled]
  have writable : last.isWritable = true :=
    (Engine.performAll_eq_ok_iff.mp performed).2.isWritable
      (fun _ planned => Engine.keepsWritable_of_planned planned) gap.writable
  have completes := gap.starts.completes performed
    (fun _ registered => Engine.isWritable_registered registered) writable
  refine ⟨_, Engine.migrate_eq_ok_iff.mpr ⟨last, completes⟩, ?_, gap.delivered_eq last⟩
  rw [completes.applied]
  exact congrArg _ gap.outstanding_eq

/-- A migration fails as the step does that fills the gap. -/
theorem migrate_eq_error {cause : Fault}
    (failed : ((step102 (settings.fieldsFor label)).apply context gapped).outcome =
      .error cause) :
    ((Engine.ofTrees settings .chain).migrate gapped).outcome =
      .error (.migration (.stepFailed label 102 cause
        ((Engine.ofTrees settings .chain).contextOf gapped).subject)) := by
  refine Engine.migrate_eq_error_iff.mpr (.step gap.starts ?_)
  rw [Engine.execution, gap.outstanding_eq, Engine.performAll_eq_error_iff]
  refine ⟨[], _, _, gapped, ⟨⟨[], rfl⟩, .nil⟩, List.forall_mem_nil _, ?_⟩
  refine Engine.perform_of_fails _ isWritable_v102 (.raised ?_)
  rw [apply_v102] at failed ⊢
  exact failed

end HasGap

/-- Version 102 is applied to a chain before or after version 103, and it comes to the same. -/
structure FillsLate (fields : FieldNames) (context : Context) (document : Value) : Prop where
  /-- Both orders succeed, and give the same document, or both fail. -/
  outcome : ∀ last, (outOfOrder fields context document).outcome = .ok last ↔
    (inOrder fields context document).outcome = .ok last
  warnings : ∀ last, (inOrder fields context document).outcome = .ok last →
    Journal.warnings (outOfOrder fields context document).notes =
      Journal.warnings (inOrder fields context document).notes
  /-- On a document that can be written both orders end alike also where they fail. -/
  written : document.isWritable = true →
    (outOfOrder fields context document).outcome = (inOrder fields context document).outcome ∧
      Journal.warnings (outOfOrder fields context document).notes =
        Journal.warnings (inOrder fields context document).notes
  /-- Of a chain to which version 103 was applied, and not 102, an engine makes what the versions
  give in order. -/
  delivers : ∀ settings gapped satisfied, settings.fieldsFor label = fields →
    ((step103 fields).apply context document).outcome = .ok gapped →
    HasGap settings gapped satisfied →
      ∀ last, (inOrder fields context document).outcome = .ok last →
        ∃ result, ((Engine.ofTrees settings .chain).migrate gapped).outcome = .ok result ∧
          result.applied = [102] ∧ result.document = delivered settings last
  fails : ∀ settings gapped satisfied, settings.fieldsFor label = fields →
    ((step103 fields).apply context document).outcome = .ok gapped →
    HasGap settings gapped satisfied →
      ∀ cause, (inOrder fields context document).outcome = .error cause →
        ((Engine.ofTrees settings .chain).migrate gapped).outcome =
          .error (.migration (.stepFailed label 102 cause
            ((Engine.ofTrees settings .chain).contextOf gapped).subject))
  /-- A chain with a gap that cannot be written is not migrated, and neither is what it was. -/
  overlong : ∀ settings gapped, ((step103 fields).apply context document).outcome = .ok gapped →
    gapped.isObject = true → gapped.isWritable = false →
      ((Engine.ofTrees settings .chain).migrate gapped).outcome =
        .error (.untyped .integerTooLong) ∧
      ((Engine.ofTrees settings .chain).migrate document).outcome =
        .error (.untyped .integerTooLong)

/-- A chain that gets version 102 after version 103 becomes what the versions make of it in order. The
document is a tree, so it shares no parts. A graph that shares none goes the same way, by
`graphOutOfOrder_eq_ok_iff`; in one that shares a part the order may show, as
`inOrder_sharedProperties` and `outOfOrder_sharedProperties` tell. -/
theorem fills_late (fields : FieldNames) (context : Context) (document : Value) :
    FillsLate fields context document where
  outcome last := outOfOrder_eq_ok_iff
  warnings last ended := by
    obtain ⟨tidied, done, _⟩ := Logged.bind_outcome_ok.mp (outOfOrder_eq_ok_iff.mpr ended)
    exact warnings_outOfOrder done
  written writable := by
    obtain ⟨tidied, done⟩ := exists_tidied writable fields context
    exact ⟨outcome_outOfOrder done, warnings_outOfOrder done⟩
  delivers := by
    rintro settings gapped satisfied rfl done gap last ended
    exact gap.migrate_eq_ok ((outcome_v102 done).trans ended)
  fails := by
    rintro settings gapped satisfied rfl done gap cause ended
    exact gap.migrate_eq_error ((outcome_v102 done).trans ended)
  overlong settings gapped done root unwritable := by
    have unwritten : document.isWritable = false := Bool.eq_false_iff.mpr fun writable =>
      Bool.false_ne_true (unwritable.symm.trans (isWritable_v103 done writable))
    rw [apply_v103] at done
    exact ⟨migrate_eq_overlong settings root unwritable,
      migrate_eq_overlong settings ((isObject_of_overElements done).symm.trans root) unwritten⟩

def tidyChain : Value :=
  chainOf
    [(.text "handleChainFailureAction", .text "default"),
      (.text "chainFailureHandlerContainer", .object [])]
    [(.text "priority", .int 7)] []

theorem fills_late_untidy :
    ∃ result, (Engine.ofChains.migrate (Marker.put .standard "[101, 103]" untidyAfter103)).outcome =
        .ok result ∧ result.applied = [102] ∧
      result.document = Marker.put .standard "[101, 102, 103]" tidyChain := by
  have late := fills_late .standard (.ofFamily label) (Marker.put .standard "[101, 103]" untidy)
  have done : ((step103 .standard).apply (.ofFamily label)
      (Marker.put .standard "[101, 103]" untidy)).outcome =
        .ok (Marker.put .standard "[101, 103]" untidyAfter103) := rfl
  have gap : HasGap ⟨true, false, [], ""⟩ (Marker.put .standard "[101, 103]" untidyAfter103)
      ⟨.explicit [101, 103], "nested-content/explicit-list"⟩ :=
    { root := rfl
      writable := by decide +kernel
      resolved := rfl
      accepted := rfl
      hasFirst := rfl
      lacksSecond := rfl
      hasThird := rfl }
  have ended : (inOrder .standard (.ofFamily label)
      (Marker.put .standard "[101, 103]" untidy)).outcome =
        .ok (Marker.put .standard "[101, 103]" tidyChain) := rfl
  obtain ⟨result, migrated, applied, document⟩ := late.delivers _ _ _ rfl done gap _ ended
  refine ⟨result, migrated, applied, document.trans ?_⟩
  rw [delivered, if_pos rfl]
  exact Marker.put_put ..

end Uplift.Chain
