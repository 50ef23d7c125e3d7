/-!
# Reading octets as text

The UTF-8 decoder with the exact refusals of a strict reader: at the first octet that cannot go
on, the longest sound beginning of a sequence is one refusal. A reading either consumes the whole
list or names the first refused octets, and never replaces them.

Text files are read with every line ending turned into a line feed, and written as they are.
-/

namespace SampleTypes.Text.Utf8

/-- Why octets are not a text. -/
inductive Cause where
  /-- An octet that starts no sequence. -/
  | start
  /-- A sequence that is broken off by an octet that cannot continue it. -/
  | continuation
  /-- A sequence that is broken off by the end of the octets. -/
  | ended
  deriving DecidableEq, Repr

/-- The refusal of `count` octets from position `start` on; `first` is the first of them. -/
structure Refusal where
  first : Nat
  start : Nat
  count : Nat
  cause : Cause
  deriving DecidableEq, Repr

/-- The wording of a cause. -/
def Cause.message : Cause → String
  | .start => "invalid start byte"
  | .continuation => "invalid continuation byte"
  | .ended => "unexpected end of data"

/-- The two hexadecimal digits of an octet. -/
def hexOctet (n : Nat) : String :=
  String.ofList [Nat.digitChar (n / 16 % 16), Nat.digitChar (n % 16)]

/-- The wording of a refusal: one octet is shown, of several only the positions. -/
def Refusal.message (r : Refusal) : String :=
  if r.count = 1 then
    "'utf-8' codec can't decode byte 0x" ++ hexOctet r.first ++ " in position " ++ toString r.start
      ++ ": " ++ r.cause.message
  else
    "'utf-8' codec can't decode bytes in position " ++ toString r.start ++ "-"
      ++ toString (r.start + r.count - 1) ++ ": " ++ r.cause.message

/-- The octets that may follow a first octet: how many there are, and the range of the second.
The range of the second octet keeps out overlong forms, surrogates and codes beyond the last
plane. -/
def followers? (first : Nat) : Option (Nat × Nat × Nat) :=
  if 0xC2 ≤ first ∧ first ≤ 0xDF then some (1, 0x80, 0xBF)
  else if first = 0xE0 then some (2, 0xA0, 0xBF)
  else if first = 0xED then some (2, 0x80, 0x9F)
  else if 0xE1 ≤ first ∧ first ≤ 0xEF then some (2, 0x80, 0xBF)
  else if first = 0xF0 then some (3, 0x90, 0xBF)
  else if 0xF1 ≤ first ∧ first ≤ 0xF3 then some (3, 0x80, 0xBF)
  else if first = 0xF4 then some (3, 0x80, 0x8F)
  else none

/-- The bits that a first octet contributes when `more` octets follow it. -/
def leadBits (first more : Nat) : Nat :=
  match more with
  | 1 => first % 32
  | 2 => first % 16
  | _ => first % 8

/-- Reads the octets after a first one. `code` holds the bits so far, `taken` counts the octets
read, `more` those still expected, and the next one lies between `low` and `high`. -/
def readRest (code taken low high : Nat) : (more : Nat) → List UInt8 →
    Except (Nat × Cause) (Nat × List UInt8)
  | 0, rest => .ok (code, rest)
  | _ + 1, [] => .error (taken, .ended)
  | more + 1, octet :: rest =>
    if low ≤ octet.toNat ∧ octet.toNat ≤ high then
      readRest (code * 64 + octet.toNat % 64) (taken + 1) 0x80 0xBF more rest
    else .error (taken, .continuation)

/-- Decodes octets that start at `position`. Every step takes at least one octet, so the number
of octets is enough `fuel`. -/
def decodeFrom (position : Nat) : (fuel : Nat) → List UInt8 → Except Refusal (List Char)
  | _, [] => .ok []
  | 0, _ => .ok []
  | fuel + 1, octet :: rest =>
    let first := octet.toNat
    if first < 0x80 then do
      let tail ← decodeFrom (position + 1) fuel rest
      return Char.ofNat first :: tail
    else
      match followers? first with
      | none => .error ⟨first, position, 1, .start⟩
      | some (more, low, high) =>
        match readRest (leadBits first more) 1 low high more rest with
        | .error (taken, cause) => .error ⟨first, position, taken, cause⟩
        | .ok (code, tail) => do
          let after ← decodeFrom (position + 1 + more) fuel tail
          return Char.ofNat code :: after

/-- The text that the octets spell, or the first refusal. -/
def decode (octets : List UInt8) : Except Refusal (List Char) :=
  decodeFrom 0 octets.length octets

/-- Turns each carriage return, with a line feed after it or alone, into one line feed. -/
def normalizeEnds : List Char → List Char
  | [] => []
  | '\r' :: '\n' :: rest => '\n' :: normalizeEnds rest
  | c :: rest => (if c = '\r' then '\n' else c) :: normalizeEnds rest

/-- The text of a file: decoded, with line feeds as its only line endings. -/
def readText (octets : List UInt8) : Except Refusal String :=
  (decode octets).map fun cs => String.ofList (normalizeEnds cs)

end SampleTypes.Text.Utf8
