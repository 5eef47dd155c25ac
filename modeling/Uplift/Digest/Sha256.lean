/-!
# SHA-256

The digest that identifies a document. A message is padded to whole blocks of sixty-four bytes; each
block is folded into a state of eight words by sixty-four rounds. The message schedule is a window
of sixteen words that moves on by one word in every round.
-/

set_option autoImplicit false

namespace Uplift.Sha256

/-- One constant for each round: the fractions of the cube roots of the first primes. -/
def roundConstants : List UInt32 := [
  0x428a2f98, 0x71374491, 0xb5c0fbcf, 0xe9b5dba5, 0x3956c25b, 0x59f111f1, 0x923f82a4, 0xab1c5ed5,
  0xd807aa98, 0x12835b01, 0x243185be, 0x550c7dc3, 0x72be5d74, 0x80deb1fe, 0x9bdc06a7, 0xc19bf174,
  0xe49b69c1, 0xefbe4786, 0x0fc19dc6, 0x240ca1cc, 0x2de92c6f, 0x4a7484aa, 0x5cb0a9dc, 0x76f988da,
  0x983e5152, 0xa831c66d, 0xb00327c8, 0xbf597fc7, 0xc6e00bf3, 0xd5a79147, 0x06ca6351, 0x14292967,
  0x27b70a85, 0x2e1b2138, 0x4d2c6dfc, 0x53380d13, 0x650a7354, 0x766a0abb, 0x81c2c92e, 0x92722c85,
  0xa2bfe8a1, 0xa81a664b, 0xc24b8b70, 0xc76c51a3, 0xd192e819, 0xd6990624, 0xf40e3585, 0x106aa070,
  0x19a4c116, 0x1e376c08, 0x2748774c, 0x34b0bcb5, 0x391c0cb3, 0x4ed8aa4a, 0x5b9cca4f, 0x682e6ff3,
  0x748f82ee, 0x78a5636f, 0x84c87814, 0x8cc70208, 0x90befffa, 0xa4506ceb, 0xbef9a3f7, 0xc67178f2]

/-- The eight words of the chaining state. -/
structure State where
  a : UInt32
  b : UInt32
  c : UInt32
  d : UInt32
  e : UInt32
  f : UInt32
  g : UInt32
  h : UInt32

/-- The state before the first block: the fractions of the square roots of the first primes. -/
def initial : State :=
  ⟨0x6a09e667, 0xbb67ae85, 0x3c6ef372, 0xa54ff53a,
    0x510e527f, 0x9b05688c, 0x1f83d9ab, 0x5be0cd19⟩

/-- Turns a word to the right; the amount lies between one and thirty-one. -/
def rotateRight (word amount : UInt32) : UInt32 :=
  (word >>> amount) ||| (word <<< (32 - amount))

def smallSigma0 (word : UInt32) : UInt32 :=
  rotateRight word 7 ^^^ rotateRight word 18 ^^^ (word >>> 3)

def smallSigma1 (word : UInt32) : UInt32 :=
  rotateRight word 17 ^^^ rotateRight word 19 ^^^ (word >>> 10)

def bigSigma0 (word : UInt32) : UInt32 :=
  rotateRight word 2 ^^^ rotateRight word 13 ^^^ rotateRight word 22

def bigSigma1 (word : UInt32) : UInt32 :=
  rotateRight word 6 ^^^ rotateRight word 11 ^^^ rotateRight word 25

/-- Takes each bit from the second word where the first has a one, and from the third elsewhere. -/
def choose (selector first second : UInt32) : UInt32 :=
  (selector &&& first) ^^^ (~~~selector &&& second)

def majority (first second third : UInt32) : UInt32 :=
  (first &&& second) ^^^ (first &&& third) ^^^ (second &&& third)

def round (state : State) (constant word : UInt32) : State :=
  let first := state.h + bigSigma1 state.e + choose state.e state.f state.g + constant + word
  let second := bigSigma0 state.a + majority state.a state.b state.c
  ⟨first + second, state.a, state.b, state.c, state.d + first, state.e, state.f, state.g⟩

/-- The window of the schedule, moved on by one word. -/
def advance (window : List UInt32) : List UInt32 :=
  match window with
  | [] => []
  | oldest :: rest =>
      let next :=
        smallSigma1 (rest.getD 13 0) + rest.getD 8 0 + smallSigma0 (rest.getD 0 0) + oldest
      rest ++ [next]

def rounds (constants : List UInt32) (window : List UInt32) (state : State) : State :=
  match constants with
  | [] => state
  | constant :: rest => rounds rest (advance window) (round state constant (window.headD 0))

/-- Four bytes as a word, the most significant first. -/
def wordOfBytes (bytes : List UInt8) : UInt32 :=
  bytes.foldl (fun word byte => word * 256 + byte.toUInt32) 0

def pieces {α : Type} (length count : Nat) (items : List α) : List (List α) :=
  match count with
  | 0 => []
  | count + 1 => items.take length :: pieces length count (items.drop length)

def compress (state : State) (block : List UInt8) : State :=
  let mixed := rounds roundConstants ((pieces 4 16 block).map wordOfBytes) state
  ⟨state.a + mixed.a, state.b + mixed.b, state.c + mixed.c, state.d + mixed.d,
    state.e + mixed.e, state.f + mixed.f, state.g + mixed.g, state.h + mixed.h⟩

/-- The last `count` bytes of a number, the most significant first. -/
def bytesOfNat (count value : Nat) : List UInt8 :=
  match count with
  | 0 => []
  | count + 1 => bytesOfNat count (value / 256) ++ [UInt8.ofNat value]

/-- The message, a one bit, as many zeros as fill the last block, and the length in bits. -/
def pad (message : List UInt8) : List UInt8 :=
  let length := message.length
  let zeros := (119 - length % 64) % 64
  message ++ 0x80 :: List.replicate zeros 0 ++ bytesOfNat 8 (8 * length)

def digest (message : List UInt8) : List UInt8 :=
  let padded := pad message
  let state := (pieces 64 (padded.length / 64) padded).foldl compress initial
  [state.a, state.b, state.c, state.d, state.e, state.f, state.g, state.h].flatMap
    fun word => bytesOfNat 4 word.toNat

def hexText (bytes : List UInt8) : String :=
  String.ofList (bytes.flatMap fun byte =>
    [Nat.digitChar (byte.toNat / 16), Nat.digitChar (byte.toNat % 16)])

end Uplift.Sha256
