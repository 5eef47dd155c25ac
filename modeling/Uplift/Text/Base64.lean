/-!
# Base64

Bytes as text over sixty-four characters. Reading passes over characters that do not belong to the
alphabet and ends at complete padding.
-/

set_option autoImplicit false

namespace Uplift.Base64

def alphabet : List Char :=
  "ABCDEFGHIJKLMNOPQRSTUVWXYZabcdefghijklmnopqrstuvwxyz0123456789+/".toList

def charOf (value : Nat) : Char := alphabet.getD value '='

def valueOf? (char : Char) : Option Nat := alphabet.findIdx? (· == char)

/-- Three bytes as four characters; missing bytes are padded. -/
def encodeGroup : List Nat → List Char
  | [first] => [charOf (first / 4), charOf (first % 4 * 16), '=', '=']
  | [first, second] =>
      [charOf (first / 4), charOf (first % 4 * 16 + second / 16), charOf (second % 16 * 4), '=']
  | first :: second :: third :: _ =>
      [charOf (first / 4), charOf (first % 4 * 16 + second / 16),
        charOf (second % 16 * 4 + third / 64), charOf (third % 64)]
  | [] => []

def encode : List UInt8 → List Char
  | first :: second :: third :: rest =>
      encodeGroup [first.toNat, second.toNat, third.toNat] ++ encode rest
  | bytes => encodeGroup (bytes.map UInt8.toNat)

/-- Reads characters after `position` ones of a group of four, where `carried` are the bits that
are left over from them and `pads` counts the padding just before. -/
def decodeFrom (position carried pads : Nat) : List Char → Option (List UInt8)
  | [] => if position = 0 then some [] else none
  | char :: rest =>
      if char = '=' then
        if 2 ≤ position then
          if 4 ≤ position + pads + 1 then some [] else decodeFrom position carried (pads + 1) rest
        else decodeFrom position carried pads rest
      else
        match valueOf? char with
        | none => decodeFrom position carried pads rest
        | some value =>
            match position with
            | 0 => decodeFrom 1 value 0 rest
            | 1 =>
                (decodeFrom 2 (value % 16) 0 rest).map
                  (UInt8.ofNat (carried * 4 + value / 16) :: ·)
            | 2 =>
                (decodeFrom 3 (value % 4) 0 rest).map
                  (UInt8.ofNat (carried * 16 + value / 4) :: ·)
            | _ => (decodeFrom 0 0 0 rest).map (UInt8.ofNat (carried * 64 + value) :: ·)

/-- The bytes of a text; `none` if its last group is not complete. -/
def decode? (chars : List Char) : Option (List UInt8) := decodeFrom 0 0 0 chars

end Uplift.Base64
