/-!
# Binary64 numbers

The numbers of the binary64 interchange format, held exactly: an infinity, or a sign, a
significand and a power of two. NaN is left out, because it is ordered against nothing; a value
type that needs it adds a case of its own.

## Main definitions

* `Binary64` — infinities and finite numbers `± significand * 2 ^ exponent`
* `Binary64.compare`, `Binary64.compareInt` — the exact order, among themselves and against
  integers of any size
* `Binary64.isZero` — both zeros
-/

namespace Conformance

/-- A binary64 number other than NaN. A finite number is `significand * 2 ^ exponent` with a sign
in front, so that the two zeros stay apart. -/
inductive Binary64 where
  | infinite (negative : Bool)
  | finite (negative : Bool) (significand : Nat) (exponent : Int)
  deriving DecidableEq, Inhabited

namespace Binary64

/-- The significand with its sign. -/
def signed (negative : Bool) (significand : Nat) : Int :=
  if negative then -(significand : Int) else significand

/-- Compares `m * 2 ^ e` with `n * 2 ^ f` by bringing both to the smaller of the two powers. -/
def compareScaled (m : Int) (e : Int) (n : Int) (f : Int) : Ordering :=
  let least := min e f
  Ord.compare (m * Nat.pow 2 (e - least).toNat) (n * Nat.pow 2 (f - least).toNat)

/-- The order of the numbers; the two zeros are equal. -/
def compare : Binary64 → Binary64 → Ordering
  | infinite s, infinite t => Ord.compare t s
  | infinite true, finite .. => .lt
  | infinite false, finite .. => .gt
  | finite .., infinite true => .gt
  | finite .., infinite false => .lt
  | finite s m e, finite t n f => compareScaled (signed s m) e (signed t n) f

/-- The order against the integers, without rounding the integer. -/
def compareInt : Binary64 → Int → Ordering
  | infinite true, _ => .lt
  | infinite false, _ => .gt
  | finite s m e, n => compareScaled (signed s m) e n 0

/-- Whether a minus stands in front, as it does of the negative zero. -/
def isNegative : Binary64 → Bool
  | infinite s | finite s .. => s

/-- Both zeros, and nothing else. -/
def isZero : Binary64 → Bool
  | infinite _ => false
  | finite _ m _ => m == 0

end Binary64

end Conformance
