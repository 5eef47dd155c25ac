/-!
# Ranges of characters

Classes of characters that are given by tables of code points.
-/

set_option autoImplicit false

namespace Uplift.Text

/-- Whether one of the ranges from `low` up to `high`, which are in ascending order, holds the
code point. Each step halves the part of the table that is left; `fuel` bounds the steps. -/
def searchRanges (ranges : Array (Nat × Nat)) (codePoint fuel low high : Nat) : Bool :=
  match fuel with
  | 0 => false
  | fuel + 1 =>
      if high ≤ low then false
      else
        let middle := (low + high) / 2
        match ranges[middle]? with
        | none => false
        | some (first, last) =>
            if codePoint < first then searchRanges ranges codePoint fuel low middle
            else if last < codePoint then searchRanges ranges codePoint fuel (middle + 1) high
            else true

/-- Whether one of the ranges, which are in ascending order and have both ends, holds the
character. -/
def inRanges (ranges : Array (Nat × Nat)) (char : Char) : Bool :=
  searchRanges ranges char.toNat 32 0 ranges.size

end Uplift.Text
