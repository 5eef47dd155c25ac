import Uplift.Scalar

/-!
# Entries of an object

The entries of an object are a list of keys with their values, in the order in which the keys
were first given. Writing an entry whose key is present keeps its place and its key; writing any
other puts it last. The payload is left open, so that trees and graphs of documents share these
operations.
-/

set_option autoImplicit false

namespace Uplift

/-- Keys with their values, in order. -/
abbrev Entries (α : Type) := List (Scalar × α)

namespace Entries

variable {α β : Type}

def lookup (key : Scalar) (entries : Entries α) : Option α :=
  (entries.find? fun entry => key.sameKey entry.1).map (·.2)

def contains (key : Scalar) (entries : Entries α) : Bool :=
  entries.any fun entry => key.sameKey entry.1

/-- Replaces the value of a key in its place, or adds the entry at the end. -/
def put (key : Scalar) (value : α) (entries : Entries α) : Entries α :=
  if entries.contains key then
    entries.map fun entry => if key.sameKey entry.1 then (entry.1, value) else entry
  else entries ++ [(key, value)]

def erase (key : Scalar) (entries : Entries α) : Entries α :=
  entries.filter fun entry => !key.sameKey entry.1

def values (entries : Entries α) : List α :=
  entries.map (·.2)

/-- Writes pairs one after the other: the first of equal keys decides the place, the last one
the value. -/
def ofPairs (pairs : List (Scalar × α)) : Entries α :=
  pairs.foldl (fun entries pair => entries.put pair.1 pair.2) []

def mapValues (change : α → β) (entries : Entries α) : Entries β :=
  entries.map fun entry => (entry.1, change entry.2)

def DistinctKeys (entries : Entries α) : Prop :=
  (entries.map (·.1.key)).Nodup

@[simp] theorem lookup_nil (key : Scalar) : lookup key ([] : Entries α) = none := rfl

theorem lookup_cons (key : Scalar) (entry : Scalar × α) (rest : Entries α) :
    lookup key (entry :: rest) =
      if key.sameKey entry.1 then some entry.2 else lookup key rest := by
  by_cases same : key.sameKey entry.1 <;> simp [lookup, same]

theorem contains_eq_isSome_lookup (key : Scalar) (entries : Entries α) :
    entries.contains key = (entries.lookup key).isSome := by
  induction entries with
  | nil => rfl
  | cons entry rest ih =>
      by_cases same : key.sameKey entry.1
      · simp [contains, lookup_cons, same]
      · simpa [contains, lookup_cons, same] using ih

end Entries

end Uplift
