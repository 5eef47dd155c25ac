import Mathlib.Data.List.Flatten
import Uplift.Proofs.Graph.Placed
import Uplift.Proofs.Journal.Parallel
import Uplift.Proofs.Rewrite.Walk

/-!
# Trees that turn into others where they stand

A visit of a part of a graph writes into the places of that part, and else adds nodes. So the parts
beside it stay, and as long as no part is shared a walk over the graph comes to the same as a walk
over the tree, part by part.
-/

set_option autoImplicit false

namespace Uplift

open Logged (Parallel)

namespace Graph

variable {graph middle later : Graph} {before between after : List Nat}

/-- A graph is changed in some places alone, and by adding nodes. What stands there then has some of
those places and new ones. -/
structure Reworks (graph later : Graph) (before after : List Nat) : Prop where
  root : later.root = graph.root
  grows : graph.nodes.size ≤ later.nodes.size
  frame : ∀ index, index < graph.nodes.size → index ∉ before →
    later.nodes[index]? = graph.nodes[index]?
  fresh : ∀ index ∈ after, index ∈ before ∨ graph.nodes.size ≤ index

namespace Reworks

theorem refl (graph : Graph) (places : List Nat) : graph.Reworks graph places places :=
  ⟨rfl, Nat.le_refl _, fun _ _ _ => rfl, fun _ taken => .inl taken⟩

theorem trans (first : graph.Reworks middle before between)
    (second : middle.Reworks later between after) : graph.Reworks later before after where
  root := second.root.trans first.root
  grows := Nat.le_trans first.grows second.grows
  frame index within other := by
    have apart : index ∉ between := fun taken => by
      rcases first.fresh index taken with old | new
      · exact other old
      · omega
    rw [second.frame index (Nat.lt_of_lt_of_le within first.grows) apart,
      first.frame index within other]
  fresh index taken := by
    rcases second.fresh index taken with old | new
    · exact first.fresh index old
    · exact .inr (Nat.le_trans first.grows new)

/-- More places may be changed, and of those all may be kept. -/
theorem widen {wider others : List Nat} (reworks : graph.Reworks later before after)
    (within : before ⊆ wider) (fresh : ∀ index ∈ others, index ∈ after ∨ index ∈ wider) :
    graph.Reworks later wider others where
  root := reworks.root
  grows := reworks.grows
  frame index small other := reworks.frame index small fun taken => other (within taken)
  fresh index taken := by
    rcases fresh index taken with new | old
    · exact (reworks.fresh index new).imp_left (within ·)
    · exact .inl old

theorem holds {placed : Placed} (reworks : graph.Reworks later before after)
    (held : graph.Holds placed) (apart : ∀ index ∈ placed.places, index ∉ before) :
    later.Holds placed :=
  held.of_same fun index taken => reworks.frame index (held.lt_size taken) (apart index taken)

end Reworks

/-- What stood in some places is given up for parts that are held in those places and in new ones. -/
structure Yields (graph later : Graph) (before : List Nat) (parts : List Placed) : Prop where
  holds : ∀ part ∈ parts, later.Holds part
  sound : Placed.SoundParts parts
  reworks : graph.Reworks later before (parts.flatMap Placed.places)

/-- Trees that a graph holds turn into others that are referred to alike. -/
structure TurnsAll (graph later : Graph) (before after : List Placed) : Prop where
  cells : after.map Placed.cell = before.map Placed.cell
  yields : graph.Yields later (before.flatMap Placed.places) after

/-- A tree that a graph holds turns into another that is referred to alike. -/
structure Turns (graph later : Graph) (before after : Placed) : Prop where
  cell : after.cell = before.cell
  holds : later.Holds after
  sound : after.Sound
  reworks : graph.Reworks later before.places after.places

end Graph

open Uplift.Graph (Turns TurnsAll Yields Reworks)

namespace Placed.SoundParts

variable {parts others front back : List Placed}

theorem nil : SoundParts [] := ⟨List.nodup_nil, nofun⟩

theorem append_iff : SoundParts (front ++ back) ↔
    SoundParts front ∧ SoundParts back ∧
      ∀ index ∈ front.flatMap places, index ∉ back.flatMap places := by
  constructor
  · intro parts
    obtain ⟨apart, sound⟩ := parts
    rw [List.flatMap_append] at apart
    rw [List.forall_mem_append] at sound
    exact ⟨⟨apart.of_append_left, sound.1⟩, ⟨apart.of_append_right, sound.2⟩,
      fun index taken other => (List.nodup_append.mp apart).2.2 index taken index other rfl⟩
  · intro known
    obtain ⟨front, back, disjoint⟩ := known
    refine ⟨?_, List.forall_mem_append.mpr ⟨front.sound, back.sound⟩⟩
    rw [List.flatMap_append]
    refine List.nodup_append.mpr ⟨front.apart, back.apart, fun index taken other inOther same => ?_⟩
    exact disjoint index taken (same ▸ inOther)

theorem singleton_iff {part : Placed} : SoundParts [part] ↔ part.Sound := by
  constructor
  · intro parts
    exact parts.sound part (.head _)
  · intro sound
    exact ⟨by simpa using sound.unshared, List.forall_mem_singleton.mpr sound⟩

/-- Some of the parts, in any order, share nothing either. -/
theorem subperm (sound : SoundParts parts) (within : others.Subperm parts) :
    SoundParts others := by
  obtain ⟨chosen, perm, sublist⟩ := within
  have apart : (chosen.flatMap places).Nodup :=
    sound.apart.sublist (sublist.flatMap places)
  refine ⟨(perm.flatMap_right places).nodup_iff.mp apart, fun part member => ?_⟩
  exact sound.sound part (sublist.subset (perm.mem_iff.mpr member))

end Placed.SoundParts

namespace Graph

variable {graph middle later : Graph} {parts others front back frontAfter backAfter : List Placed}

theorem lt_size_of_holds (holds : ∀ part ∈ parts, graph.Holds part) {index : Nat}
    (taken : index ∈ parts.flatMap Placed.places) : index < graph.nodes.size := by
  obtain ⟨part, member, inside⟩ := List.mem_flatMap.mp taken
  exact (holds part member).lt_size inside

/-!
## Parts in place of others
-/

namespace Yields

variable {before between : List Nat}

theorem refl (holds : ∀ part ∈ parts, graph.Holds part) (sound : Placed.SoundParts parts) :
    graph.Yields graph (parts.flatMap Placed.places) parts :=
  ⟨holds, sound, .refl graph _⟩

theorem trans (first : graph.Yields middle before parts)
    (second : middle.Yields later (parts.flatMap Placed.places) others) :
    graph.Yields later before others :=
  ⟨second.holds, second.sound, first.reworks.trans second.reworks⟩

/-- A place that was taken and not given up is not among those of the parts. -/
theorem not_mem (yields : graph.Yields later before parts) {index : Nat}
    (small : index < graph.nodes.size) (kept : index ∉ before) :
    index ∉ parts.flatMap Placed.places := by
  intro taken
  rcases yields.reworks.fresh index taken with old | new
  · exact kept old
  · omega

/-- What is given up for some parts and then for others is given up for all of them, if the others
do not give up the places of the first. -/
theorem append (first : graph.Yields middle before front)
    (second : middle.Yields later between back)
    (within : ∀ index ∈ between, index < graph.nodes.size)
    (disjoint : ∀ index ∈ before, index ∉ between) :
    graph.Yields later (before ++ between) (front ++ back) := by
  have apart : ∀ index ∈ front.flatMap Placed.places, index ∉ between := by
    intro index taken other
    rcases first.reworks.fresh index taken with old | new
    · exact disjoint index old other
    · have small := within index other
      omega
  have apartAfter : ∀ index ∈ front.flatMap Placed.places,
      index ∉ back.flatMap Placed.places := fun index taken =>
    second.not_mem (lt_size_of_holds first.holds taken) (apart index taken)
  refine ⟨List.forall_mem_append.mpr ⟨fun part member => ?_, second.holds⟩,
    Placed.SoundParts.append_iff.mpr ⟨first.sound, second.sound, apartAfter⟩, ?_⟩
  · refine second.reworks.holds (first.holds part member) fun index taken => ?_
    exact apart index (List.mem_flatMap.mpr ⟨part, member, taken⟩)
  · rw [List.flatMap_append]
    have firstWide : graph.Reworks middle (before ++ between)
        (front.flatMap Placed.places ++ between) :=
      first.reworks.widen (List.subset_append_left _ _) fun index taken =>
        (List.mem_append.mp taken).imp_right (List.mem_append_right _)
    refine firstWide.trans (second.reworks.widen (List.subset_append_right _ _) fun index taken => ?_)
    exact (List.mem_append.mp taken).symm.imp_right (List.mem_append_left _)

theorem subperm (yields : graph.Yields later before parts) (within : others.Subperm parts) :
    graph.Yields later before others where
  holds part member := yields.holds part (within.subset member)
  sound := yields.sound.subperm within
  reworks := yields.reworks.widen (List.Subset.refl _) fun index taken => by
    obtain ⟨part, member, inside⟩ := List.mem_flatMap.mp taken
    exact .inl (List.mem_flatMap.mpr ⟨part, within.subset member, inside⟩)

/-- An object is held that refers to the parts, in the place of an object. -/
theorem object {index : Nat} {entries turned : Entries Placed} {keyNodes : List (Scalar × Nat)}
    (yields : graph.Yields later (index :: entries.values.flatMap Placed.places) turned.values)
    (stands : later.nodes[index]? = some (.object (turned.mapValues Placed.cell) keyNodes))
    (distinct : turned.DistinctKeys) (apart : index ∉ turned.values.flatMap Placed.places) :
    graph.Turns later (.object index entries keyNodes) (.object index turned keyNodes) where
  cell := rfl
  holds := holds_object_iff.mpr ⟨stands, yields.holds⟩
  sound := Placed.sound_object_iff.mpr ⟨apart, distinct, yields.sound⟩
  reworks := by
    rw [Placed.places_object, Placed.places_object]
    refine yields.reworks.widen (List.Subset.refl _) fun other taken => ?_
    rcases List.mem_cons.mp taken with rfl | inside
    · exact .inr (.head _)
    · exact .inl inside

end Yields

/-!
## Parts side by side
-/

theorem Turns.refl {placed : Placed} (holds : graph.Holds placed) (sound : placed.Sound) :
    graph.Turns graph placed placed :=
  ⟨rfl, holds, sound, .refl graph _⟩

theorem Turns.trans {before between after : Placed} (first : graph.Turns middle before between)
    (second : middle.Turns later between after) : graph.Turns later before after :=
  ⟨second.cell.trans first.cell, second.holds, second.sound, first.reworks.trans second.reworks⟩

namespace TurnsAll

theorem refl (holds : ∀ part ∈ parts, graph.Holds part) (sound : Placed.SoundParts parts) :
    graph.TurnsAll graph parts parts :=
  ⟨rfl, .refl holds sound⟩

theorem singleton {before after : Placed} (turns : graph.Turns later before after) :
    graph.TurnsAll later [before] [after] where
  cells := by simp [turns.cell]
  yields :=
    { holds := List.forall_mem_singleton.mpr turns.holds
      sound := Placed.SoundParts.singleton_iff.mpr turns.sound
      reworks := by simpa using turns.reworks }

/-- What is done to some parts and then to the others is done to all, since none meets another. -/
theorem append (first : graph.TurnsAll middle front frontAfter)
    (second : middle.TurnsAll later back backAfter)
    (holds : ∀ part ∈ back, graph.Holds part) (sound : Placed.SoundParts (front ++ back)) :
    graph.TurnsAll later (front ++ back) (frontAfter ++ backAfter) := by
  obtain ⟨_, _, disjoint⟩ := Placed.SoundParts.append_iff.mp sound
  refine ⟨by rw [List.map_append, List.map_append, first.cells, second.cells], ?_⟩
  rw [List.flatMap_append]
  exact first.yields.append second.yields (fun _ => lt_size_of_holds holds) disjoint

/-- Trees beside those that turn are held still. -/
theorem holds_beside (turns : graph.TurnsAll later front frontAfter)
    (holds : ∀ part ∈ back, graph.Holds part)
    (disjoint : ∀ index ∈ front.flatMap Placed.places, index ∉ back.flatMap Placed.places) :
    ∀ part ∈ back, later.Holds part := fun part member =>
  turns.yields.reworks.holds (holds part member) fun index taken other =>
    disjoint index other (List.mem_flatMap.mpr ⟨part, member, taken⟩)

/-!
## Parts below a node
-/

variable {index : Nat} {items after : List Placed} {entries turned : Entries Placed}
  {keyNodes : List (Scalar × Nat)}

private theorem reworks_cons (turns : graph.TurnsAll later items after) (index : Nat) :
    graph.Reworks later (index :: items.flatMap Placed.places)
      (index :: after.flatMap Placed.places) :=
  turns.yields.reworks.widen (List.subset_cons_self _ _) fun other taken => by
    rcases List.mem_cons.mp taken with rfl | inside
    · exact .inr (.head _)
    · exact .inl inside

theorem array (turns : graph.TurnsAll later items after)
    (holds : graph.Holds (.array index items)) (sound : (Placed.array index items).Sound) :
    graph.Turns later (.array index items) (.array index after) := by
  obtain ⟨fresh, _⟩ := Placed.sound_array_iff.mp sound
  have small : index < graph.nodes.size := holds.lt_size (by simp)
  refine ⟨rfl, holds_array_iff.mpr ⟨?_, turns.yields.holds⟩, ?_, ?_⟩
  · rw [turns.yields.reworks.frame index small fresh, turns.cells, (holds_array_iff.mp holds).1]
  · exact Placed.sound_array_iff.mpr ⟨turns.yields.not_mem small fresh, turns.yields.sound⟩
  · rw [Placed.places_array, Placed.places_array]
    exact turns.reworks_cons index

theorem object (turns : graph.TurnsAll later entries.values turned.values)
    (keys : turned.map (·.1) = entries.map (·.1))
    (holds : graph.Holds (.object index entries keyNodes))
    (sound : (Placed.object index entries keyNodes).Sound) :
    graph.Turns later (.object index entries keyNodes) (.object index turned keyNodes) := by
  obtain ⟨fresh, distinct, _⟩ := Placed.sound_object_iff.mp sound
  have small : index < graph.nodes.size := holds.lt_size (by simp)
  have cells : turned.mapValues Placed.cell = entries.mapValues Placed.cell := by
    have split (entries : Entries Placed) : entries.mapValues Placed.cell =
        (entries.map (·.1)).zip (entries.values.map Placed.cell) := by
      rw [Entries.values, List.map_map, List.zip_map']
      rfl
    rw [split, split, keys, turns.cells]
  have wide : graph.Yields later (index :: entries.values.flatMap Placed.places) turned.values :=
    ⟨turns.yields.holds, turns.yields.sound,
      turns.yields.reworks.widen (List.subset_cons_self _ _) fun _ taken => .inl taken⟩
  refine wide.object ?_ (distinct.of_keys keys.symm) (turns.yields.not_mem small fresh)
  rw [turns.yields.reworks.frame index small fresh, cells, (holds_object_iff.mp holds).1]

end TurnsAll

/-- What becomes of one entry becomes of it in its object. -/
theorem Turns.entry {index : Nat} {entries : Entries Placed} {keyNodes : List (Scalar × Nat)}
    {name : String} {part turned : Placed} (turns : graph.Turns later part turned)
    (found : entries.lookup (.text name) = some part)
    (holds : graph.Holds (.object index entries keyNodes))
    (sound : (Placed.object index entries keyNodes).Sound) :
    graph.Turns later (.object index entries keyNodes)
      (.object index (entries.put (.text name) turned) keyNodes) := by
  obtain ⟨_, distinct, parts⟩ := Placed.sound_object_iff.mp sound
  obtain ⟨_, held⟩ := holds_object_iff.mp holds
  obtain ⟨front, back, rfl⟩ := List.append_of_mem (Entries.mem_of_lookup_text found)
  rw [distinct.put_middle]
  have split (part : Placed) : Entries.values (front ++ (.text name, part) :: back) =
      Entries.values front ++ ([part] ++ Entries.values back) := by
    simp [Entries.values]
  rw [split] at held parts
  obtain ⟨frontSound, restSound, _⟩ := Placed.SoundParts.append_iff.mp parts
  obtain ⟨_, backSound, disjoint⟩ := Placed.SoundParts.append_iff.mp restSound
  obtain ⟨heldFront, heldRest⟩ := List.forall_mem_append.mp held
  obtain ⟨_, heldBack⟩ := List.forall_mem_append.mp heldRest
  have one := TurnsAll.singleton turns
  have rest := one.append (.refl (one.holds_beside heldBack disjoint) backSound) heldBack restSound
  have all := (TurnsAll.refl heldFront frontSound).append rest heldRest parts
  rw [← split, ← split] at all
  exact all.object (by simp) holds sound

end Graph

end Uplift
