/-!
# Date-times with an offset

The texts that name a moment: a date of the proleptic Gregorian calendar, the letter `T`, a time of
day with an optional fraction of a second, and `Z` or an offset of less than a day. Every field has
a fixed number of ASCII digits.

## Main definitions

* `Calendar.daysInMonth` — the length of a month, leap years included
* `Calendar.isDate`, `Calendar.isTime`, `Calendar.isOffset` — which numbers the fields may hold
* `Calendar.isMoment` — whether a text names a moment
-/

namespace Conformance.Calendar

/-- Years divisible by four, but of the centuries only every fourth. -/
def isLeapYear (year : Nat) : Bool :=
  year % 4 == 0 && (year % 100 != 0 || year % 400 == 0)

/-- The number of days of a month, which is zero for a month that does not exist. -/
def daysInMonth (year month : Nat) : Nat :=
  match month with
  | 1 | 3 | 5 | 7 | 8 | 10 | 12 => 31
  | 4 | 6 | 9 | 11 => 30
  | 2 => if isLeapYear year then 29 else 28
  | _ => 0

/-- Whether the fields name a day of the years 1 to 9999. -/
def isDate (year month day : Nat) : Bool :=
  1 ≤ year && year ≤ 9999 && 1 ≤ day && day ≤ daysInMonth year month

/-- Whether the fields name a second of a day. No minute has a sixty-first second. -/
def isTime (hour minute second : Nat) : Bool :=
  hour < 24 && minute < 60 && second < 60

/-- Whether an offset is less than a day. Its minutes are not bounded by themselves. -/
def isOffset (hours minutes : Nat) : Bool :=
  hours * 60 + minutes < 24 * 60

/-- The number of two digits. -/
def two? (a b : Char) : Option Nat :=
  if a.isDigit && b.isDigit then
    some ((a.toNat - '0'.toNat) * 10 + (b.toNat - '0'.toNat))
  else none

/-- The number of four digits. -/
def four? (a b c d : Char) : Option Nat := do
  let high ← two? a b
  let low ← two? c d
  some (high * 100 + low)

/-- Whether a text is `Z` or a valid offset: a sign, hours, a colon and minutes. -/
def isZone : List Char → Bool
  | ['Z'] => true
  | [sign, a, b, ':', c, d] =>
    (sign == '+' || sign == '-') &&
      match two? a b, two? c d with
      | some hours, some minutes => isOffset hours minutes
      | _, _ => false
  | _ => false

/-- A text without the fraction of a second that it may start with: a point and one to six
digits. -/
def dropFraction : List Char → List Char
  | '.' :: rest =>
    let digits := rest.takeWhile Char.isDigit
    if 1 ≤ digits.length && digits.length ≤ 6 then rest.drop digits.length else '.' :: rest
  | rest => rest

/-- Whether a text names a moment. -/
def isMoment : List Char → Bool
  | y₁ :: y₂ :: y₃ :: y₄ :: '-' :: m₁ :: m₂ :: '-' :: d₁ :: d₂ :: 'T' ::
      h₁ :: h₂ :: ':' :: n₁ :: n₂ :: ':' :: s₁ :: s₂ :: rest =>
    match four? y₁ y₂ y₃ y₄, two? m₁ m₂, two? d₁ d₂, two? h₁ h₂, two? n₁ n₂, two? s₁ s₂ with
    | some year, some month, some day, some hour, some minute, some second =>
      isDate year month day && isTime hour minute second && isZone (dropFraction rest)
    | _, _, _, _, _, _ => false
  | _ => false

example : isMoment "2024-02-29T23:59:59.5-00:30".toList = true := by decide
example : isMoment "2023-02-29T00:00:00Z".toList = false := by decide

end Conformance.Calendar
