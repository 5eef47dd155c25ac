/-!
# Ascending lists of versions

The distinct members of a list of versions in ascending order. Two lists with the same members have
the same ascending list.
-/

set_option autoImplicit false

namespace Uplift.Ascending

/-- Puts a version in its place of an ascending list, unless it is there. -/
def insert (version : Int) : List Int → List Int
  | [] => [version]
  | first :: rest =>
      if version < first then version :: first :: rest
      else if version = first then first :: rest
      else first :: insert version rest

def ofList (versions : List Int) : List Int :=
  versions.foldr insert []

theorem mem_insert {version other : Int} {versions : List Int} :
    other ∈ insert version versions ↔ other = version ∨ other ∈ versions := by
  induction versions with
  | nil => simp [insert]
  | cons first rest ih =>
      simp only [insert]
      split
      · simp
      · split
        · rename_i same
          subst same
          simp
        · simp only [List.mem_cons, ih]
          constructor
          · rintro (here | here | here) <;> simp [here]
          · rintro (here | here | here) <;> simp [here]

theorem mem_ofList {version : Int} {versions : List Int} :
    version ∈ ofList versions ↔ version ∈ versions := by
  induction versions with
  | nil => simp [ofList]
  | cons first rest ih =>
      rw [show ofList (first :: rest) = insert first (ofList rest) from rfl, mem_insert, ih]
      simp

end Uplift.Ascending
