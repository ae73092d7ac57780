import Conformance.Binary64.Basic

/-!
# The shortest decimal of a binary64 number

A binary64 number is written with the fewest significant digits that round back to it and, among
the decimals of that length, with the one nearest to the number.

The decimals that round to `m * 2 ^ e` fill an interval around it, whose ends belong to it exactly
if `m` is even. For one digit, two digits and so on, the two neighbours of the number on the grid
of that many digits are tested against the interval; if any point of a grid lies in it, one of the
two does.

## Main definitions

* `Binary64.Shortest.decimal` — the digits and the power of ten
* `Binary64.text` — the written form: positional where the leading digit stands for `10 ^ -4` to
  `10 ^ 15`, and with an exponent of at least two digits elsewhere
-/

namespace Conformance.Binary64

namespace Shortest

/-- A positive number and the interval that rounds to it, all four in units of `1 / den`. -/
structure Interval where
  low : Nat
  mid : Nat
  high : Nat
  den : Nat
  /-- Whether the two ends round to the number. -/
  closed : Bool

/-- The interval of `m * 2 ^ e`. Below a power of two the grid is twice as fine, so the lower end
is nearer there, except at the least exponent. -/
def Interval.of (m : Nat) (e : Int) : Interval :=
  let below := if m == Nat.pow 2 52 && -1074 < e then 1 else 2
  let up := if 2 ≤ e then Nat.pow 2 (e - 2).toNat else 1
  let den := if 2 ≤ e then 1 else Nat.pow 2 (2 - e).toNat
  { low := (4 * m - below) * up
    mid := 4 * m * up
    high := (4 * m + 2) * up
    den
    closed := m % 2 == 0 }

/-- Whether `n / den` lies in the interval. -/
def Interval.holds (i : Interval) (n : Nat) : Bool :=
  if i.closed then i.low ≤ n && n ≤ i.high else i.low < n && n < i.high

/-- How many decimal digits `n` has; none for zero. -/
def digitCount (n : Nat) : Nat := if n == 0 then 0 else (Nat.toDigits 10 n).length

/-- The power of ten of the leading digit of `num / den`. -/
def leadingPower (num den : Nat) : Int :=
  if den ≤ num then digitCount (num / den) - 1
  else -(digitCount ((den + num - 1) / num - 1))

/-- The point of the grid `10 ^ g` that is nearest to the number among those in the interval, if
its neighbours on that grid are in the interval at all. A tie goes to the even point. -/
def nearestOnGrid? (i : Interval) (g : Int) : Option Nat :=
  let scale := if 0 ≤ g then 1 else Nat.pow 10 (-g).toNat
  let step := i.den * (if 0 ≤ g then Nat.pow 10 g.toNat else 1)
  let scaled : Interval :=
    { i with low := i.low * scale, mid := i.mid * scale, high := i.high * scale }
  let k := scaled.mid / step
  let below := scaled.mid - k * step
  let above := (k + 1) * step - scaled.mid
  match scaled.holds (k * step), scaled.holds ((k + 1) * step) with
  | false, false => none
  | true, false => some k
  | false, true => some (k + 1)
  | true, true =>
    if below < above || (below == above && k % 2 == 0) then some k else some (k + 1)

/-- Tries the grids of `count`, `count + 1`, … digits, at most `fuel` of them. -/
def search (i : Interval) (top : Int) : Nat → Nat → Nat × Int
  | 0, _ => (i.mid / i.den, 0)
  | fuel + 1, count =>
    let g := top - count + 1
    match nearestOnGrid? i g with
    | some k => (k, g)
    | none => search i top fuel (count + 1)

/-- The digits and the power of ten of the shortest decimal of `m * 2 ^ e`, for a positive `m`.
Seventeen digits are enough for every number of the format. -/
def decimal (m : Nat) (e : Int) : Nat × Int :=
  let i := Interval.of m e
  search i (leadingPower i.mid i.den) 17 1

end Shortest

/-- The digits without the zeros at their end. -/
def trimZeros (digits : List Char) : List Char :=
  (digits.reverse.dropWhile (· == '0')).reverse

/-- The exponent of scientific notation: a sign and at least two digits. -/
def exponentText (e : Int) : String :=
  let digits := toString e.natAbs
  (if e < 0 then "e-" else "e+") ++ (if digits.length < 2 then "0" ++ digits else digits)

/-- Places the point: `digits` with the first of them standing for `10 ^ lead`. -/
def placed (digits : List Char) (lead : Int) : String :=
  if lead < -4 || 16 ≤ lead then
    let mantissa := match digits with
      | d :: d' :: more => String.ofList (d :: '.' :: d' :: more)
      | ds => String.ofList ds
    mantissa ++ exponentText lead
  else if lead < 0 then
    "0." ++ String.ofList (List.replicate (-lead - 1).toNat '0' ++ digits)
  else
    let whole := lead.toNat + 1
    let head := digits.take whole ++ List.replicate (whole - digits.length) '0'
    let tail := digits.drop whole
    String.ofList head ++ "." ++ (if tail.isEmpty then "0" else String.ofList tail)

/-- The written form of a number: the shortest decimal that reads back to it. -/
def text : Binary64 → String
  | infinite negative => if negative then "-inf" else "inf"
  | finite negative m e =>
    let sign := if negative then "-" else ""
    if m == 0 then sign ++ "0.0"
    else
      let (digits, power) := Shortest.decimal m e
      let all := Nat.toDigits 10 digits
      sign ++ placed (trimZeros all) (power + all.length - 1)

end Conformance.Binary64
