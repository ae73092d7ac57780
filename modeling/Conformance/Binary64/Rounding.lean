import Conformance.Binary64.Basic
import Conformance.Text.Blank

/-!
# Rounding decimals to binary64

A decimal numeral names a rational number; reading it gives the nearest binary64 number, a tie
going to the even significand. The arithmetic is exact, so the length of the numeral does not
matter.

## Main definitions

* `Binary64.ofRatio` — the nearest number to a positive ratio
* `Binary64.ofDecimal` — the nearest number to `± digits * 10 ^ exponent`
* `Binary64.Numeral`, `Binary64.Numeral.ofText?` — numerals as text, infinities and NaN included
-/

namespace Conformance.Binary64

/-- The least exponent of a finite number. -/
def minExponent : Int := -1074

/-- The greatest exponent of a finite number with a full significand. -/
def maxExponent : Int := 971

/-- The nearest integer to `num / den`, a tie going to the even one. -/
def roundHalfEven (num den : Nat) : Nat :=
  let q := num / den
  let r := num % den
  if den < 2 * r || (2 * r == den && q % 2 == 1) then q + 1 else q

/-- `num / den` scaled by `2 ^ (-e)`, as a ratio of natural numbers. -/
def scaleRatio (num den : Nat) (e : Int) : Nat × Nat :=
  if 0 ≤ e then (num, den * Nat.pow 2 e.toNat) else (num * Nat.pow 2 (-e).toNat, den)

/-- The nearest number to the positive ratio `num / den`. The exponent is chosen so that the
significand has 53 bits, or is the least one where that would need a smaller exponent. -/
def ofRatio (negative : Bool) (num den : Nat) : Binary64 :=
  let guess : Int := (Nat.log2 num : Int) - (Nat.log2 den : Int)
  let (n, d) := scaleRatio num den guess
  let top := if n < d then guess - 1 else guess
  let e := max (top - 52) minExponent
  let (n, d) := scaleRatio num den e
  let m := roundHalfEven n d
  let (m, e) := if m == Nat.pow 2 53 then (Nat.pow 2 52, e + 1) else (m, e)
  if maxExponent < e then infinite negative else finite negative m e

/-- The nearest number to `± digits * 10 ^ exponent`. Numerals far outside the range of the format
are decided by their order of magnitude alone. -/
def ofDecimal (negative : Bool) (digits : Nat) (exponent : Int) : Binary64 :=
  if digits == 0 then finite negative 0 minExponent
  else if 400 < exponent then infinite negative
  else if exponent + Nat.log2 digits < -1100 then finite negative 0 minExponent
  else if 0 ≤ exponent then ofRatio negative (digits * Nat.pow 10 exponent.toNat) 1
  else ofRatio negative digits (Nat.pow 10 (-exponent).toNat)

/-- What a floating-point numeral can name. -/
inductive Numeral where
  | nan
  | number (x : Binary64)

/-- The digits at the start of a text, with single underscores allowed between two of them: their
value, their count, and the text after them. -/
def takeDigits : List Char → Nat → Nat → Nat × Nat × List Char
  | c :: rest, value, count =>
    if c.isDigit then takeDigits rest (value * 10 + (c.toNat - '0'.toNat)) (count + 1)
    else match c, rest with
      | '_', d :: more =>
        if 0 < count && d.isDigit then
          takeDigits more (value * 10 + (d.toNat - '0'.toNat)) (count + 1)
        else (value, count, c :: rest)
      | _, _ => (value, count, c :: rest)
  | [], value, count => (value, count, [])

/-- A sign in front of a numeral: whether it is negative, and the text after it. -/
def takeSign : List Char → Bool × List Char
  | '-' :: rest => (true, rest)
  | '+' :: rest => (false, rest)
  | cs => (false, cs)

/-- The exponent part, if the text ends with one: `e` or `E`, a sign and digits. -/
def takeExponent? : List Char → Option Int
  | [] => some 0
  | c :: rest =>
    if c == 'e' || c == 'E' then
      let (negative, rest) := takeSign rest
      match takeDigits rest 0 0 with
      | (_, 0, _) => none
      | (value, _ + 1, []) => some (if negative then -(value : Int) else value)
      | _ => none
    else none

namespace Numeral

/-- Reads an unsigned decimal numeral: digits, a fraction and an exponent, with a digit on at least
one side of the point. -/
def unsigned? (negative : Bool) (cs : List Char) : Option Numeral := do
  let (whole, wholeCount, rest) := takeDigits cs 0 0
  let (digits, fractionCount, rest) := match rest with
    | '.' :: more =>
      match takeDigits more 0 0 with
      | (fraction, count, rest) => (whole * Nat.pow 10 count + fraction, count, rest)
    | rest => (whole, 0, rest)
  if wholeCount + fractionCount == 0 then none
  else
    let exponent ← takeExponent? rest
    some (.number (ofDecimal negative digits (exponent - fractionCount)))

/-- Reads a numeral, with blanks around it or not. Infinity and NaN are spelled out, in capitals or
not. -/
def ofText? (text : String) : Option Numeral :=
  let (negative, rest) := takeSign (Text.trim text.toList)
  match String.ofList (rest.map Char.toLower) with
  | "inf" | "infinity" => some (.number (infinite negative))
  | "nan" => some .nan
  | _ => unsigned? negative rest

end Numeral

end Conformance.Binary64
