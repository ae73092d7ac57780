/-!
# Strict UTF-8

Reading bytes as UTF-8, with the place and the cause of the first fault. A byte that cannot start
a character is at fault alone; where a character breaks off, the fault covers the bytes that could
still have begun one.

## Main definitions

* `Text.Utf8Fault` — the cause, where the faulty bytes start, and the bytes themselves
* `Text.decode` — the characters of a byte sequence, or its first fault
-/

namespace Conformance.Text

/-- Why bytes are not UTF-8. -/
inductive Utf8Cause where
  | startByte
  | continuationByte
  | endOfData
  deriving DecidableEq

/-- The first fault of a byte sequence. `bytes` is never empty. -/
structure Utf8Fault where
  cause : Utf8Cause
  position : Nat
  bytes : List UInt8

/-- How many bytes follow a first byte, and between what bounds the second one lies, so that no
overlong form, no surrogate and nothing above U+10FFFF is read. -/
def tailOf? (b : UInt8) : Option (Nat × UInt8 × UInt8) :=
  if b < 0x80 then some (0, 0, 0)
  else if b < 0xc2 then none
  else if b < 0xe0 then some (1, 0x80, 0xbf)
  else if b == 0xe0 then some (2, 0xa0, 0xbf)
  else if b == 0xed then some (2, 0x80, 0x9f)
  else if b < 0xf0 then some (2, 0x80, 0xbf)
  else if b == 0xf0 then some (3, 0x90, 0xbf)
  else if b < 0xf4 then some (3, 0x80, 0xbf)
  else if b == 0xf4 then some (3, 0x80, 0x8f)
  else none

/-- The longest run of bytes, at most `count` of them, that can continue a character whose next
byte lies between `low` and `high`. -/
def continuation : Nat → UInt8 → UInt8 → List UInt8 → List UInt8
  | count + 1, low, high, b :: rest =>
    if low ≤ b && b ≤ high then b :: continuation count 0x80 0xbf rest else []
  | _, _, _, _ => []

/-- The character of a first byte and its continuation. -/
def assemble (first : UInt8) (rest : List UInt8) : Char :=
  let lead := match rest.length with
    | 0 => first.toNat
    | 1 => first.toNat % 0x20
    | 2 => first.toNat % 0x10
    | _ => first.toNat % 0x08
  Char.ofNat (rest.foldl (fun n b => n * 0x40 + b.toNat % 0x40) lead)

/-- Reads the bytes from a position on. -/
def decodeFrom (position : Nat) : List UInt8 → Except Utf8Fault (List Char)
  | [] => .ok []
  | first :: rest =>
    match tailOf? first with
    | none => .error ⟨.startByte, position, [first]⟩
    | some (count, low, high) =>
      let tail := continuation count low high rest
      if tail.length == count then
        match decodeFrom (position + 1 + tail.length) (rest.drop tail.length) with
        | .ok chars => .ok (assemble first tail :: chars)
        | .error fault => .error fault
      else if tail.length == rest.length then .error ⟨.endOfData, position, first :: tail⟩
      else .error ⟨.continuationByte, position, first :: tail⟩
  termination_by bytes => bytes.length
  decreasing_by simp only [List.length_drop, List.length_cons]; omega

/-- The characters of a byte sequence, or its first fault. -/
def decode (bytes : List UInt8) : Except Utf8Fault (List Char) := decodeFrom 0 bytes

/-- What is wrong with the bytes, in words. -/
def Utf8Cause.text : Utf8Cause → String
  | .startByte => "invalid start byte"
  | .continuationByte => "invalid continuation byte"
  | .endOfData => "unexpected end of data"

end Conformance.Text
