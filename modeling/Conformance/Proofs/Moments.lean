import Mathlib.Logic.ExistsUnique
import Mathlib.Tactic.IntervalCases
import Conformance.Callable.Checks

/-!
# Moments and their texts

A text is a date-time if each of its fields can be read and holds a number that is allowed there.
Conversely, the texts that are read are those that are written for moments: a date of the calendar,
a time of day, the digits of a fraction of a second, and a zone. Dates are those of the standard
library, which has the calendar from its own definition of leap years and lengths of months. What is
written tells the moment that it was written for, so that no text names two.

The offset of a zone is less than a day, but its minutes have just two digits. The standard also
wants them to be less than sixty.

## Main definitions

* `Calendar.digits` — the digits of a number
* `Calendar.Zone`, `Calendar.Moment` — with `Zone.text` and `Moment.text`, how they are written
* `Calendar.Zone.IsStandard` — the zones that the standard knows

## Main results

* `Calendar.digits_injective`, `Calendar.two?_eq_some_iff`, `Calendar.four?_eq_some_iff` — digits
* `Calendar.isZone_iff`, `Calendar.isZone_dropFraction_iff`, `Calendar.isDate_iff` — reading fields
* `Calendar.isMoment_iff`, `Calendar.Moment.text_injective` — reading moments
* `Check.dateTime_holds_iff` — a date-time names exactly one moment
-/

namespace Conformance

namespace Calendar

/-! ### Digits -/

/-- The last `width` decimal digits of a number. -/
def digits : Nat → Nat → List Char
  | 0, _ => []
  | width + 1, n => digits width (n / 10) ++ [(n % 10).digitChar]

theorem digits_two (n : Nat) : digits 2 n = [(n / 10 % 10).digitChar, (n % 10).digitChar] := rfl

theorem digits_two_mod (n : Nat) : digits 2 (n % 100) = digits 2 n := by
  have high : n % 100 / 10 % 10 = n / 10 % 10 := by omega
  have low : n % 100 % 10 = n % 10 := by omega
  rw [digits_two, digits_two, high, low]

theorem digits_four (n : Nat) : digits 4 n = digits 2 (n / 100) ++ digits 2 n := by
  simp [digits, Nat.div_div_eq_div_mul]

/-- Digits tell a number that is written in full. -/
theorem digits_injective {width m n : Nat} (hm : m < 10 ^ width) (hn : n < 10 ^ width)
    (h : digits width m = digits width n) : m = n := by
  induction width generalizing m n with
  | zero => omega
  | succ width ih =>
    rw [Nat.pow_succ] at hm hn
    -- The last digits are equal, and so are all before them, which are those of the quotients.
    obtain ⟨front, last⟩ := List.append_inj' h rfl
    have quotient : m / 10 = n / 10 :=
      ih (Nat.div_lt_of_lt_mul (by omega)) (Nat.div_lt_of_lt_mul (by omega)) front
    have remainder : m % 10 = n % 10 := by
      have same := congrArg Char.toNat (List.cons.inj last).1
      rw [Nat.toNat_digitChar_of_lt_ten (Nat.mod_lt _ (by omega)),
        Nat.toNat_digitChar_of_lt_ten (Nat.mod_lt _ (by omega))] at same
      omega
    omega

theorem isDigit_iff {c : Char} : c.isDigit = true ↔ ∃ d < 10, c = d.digitChar := by
  constructor
  · intro digit
    obtain ⟨low, high⟩ := Char.isDigit_iff_toNat.mp digit
    have zero : '0'.toNat = 48 := rfl
    have nine : '9'.toNat = 57 := rfl
    have small : c.toNat - 48 < 10 := by omega
    refine ⟨c.toNat - 48, small, Char.toNat_inj.mp ?_⟩
    rw [Nat.toNat_digitChar_of_lt_ten small]
    omega
  · rintro ⟨d, small, rfl⟩
    rw [Nat.isDigit_digitChar, decide_eq_true small]

theorem two?_digitChar {d e : Nat} (hd : d < 10) (he : e < 10) :
    two? d.digitChar e.digitChar = some (d * 10 + e) := by
  have zero : '0'.toNat = 48 := rfl
  simp [two?, Nat.isDigit_digitChar, Nat.toNat_digitChar_of_lt_ten, hd, he, zero]

/-- Two characters are read as the number whose digits they are. -/
theorem two?_eq_some_iff {a b : Char} {n : Nat} :
    two? a b = some n ↔ n < 100 ∧ [a, b] = digits 2 n := by
  rw [digits_two]
  constructor
  · intro read
    have isDigits : a.isDigit = true ∧ b.isDigit = true := by
      by_contra not
      rw [two?, if_neg (by simpa using not)] at read
      cases read
    obtain ⟨d, hd, rfl⟩ := isDigit_iff.mp isDigits.1
    obtain ⟨e, he, rfl⟩ := isDigit_iff.mp isDigits.2
    rw [two?_digitChar hd he, Option.some.injEq] at read
    subst read
    have high : (d * 10 + e) / 10 % 10 = d := by omega
    have low : (d * 10 + e) % 10 = e := by omega
    rw [high, low]
    exact ⟨by omega, rfl⟩
  · rintro ⟨small, same⟩
    cases same
    rw [two?_digitChar (Nat.mod_lt _ (by omega)) (Nat.mod_lt _ (by omega)), Option.some.injEq]
    omega

/-- Four characters are read as the number whose digits they are. -/
theorem four?_eq_some_iff {a b c d : Char} {n : Nat} :
    four? a b c d = some n ↔ n < 10000 ∧ [a, b, c, d] = digits 4 n := by
  rw [digits_four]
  constructor
  · intro read
    obtain ⟨high, readHigh, read⟩ := Option.bind_eq_some_iff.mp read
    obtain ⟨low, readLow, read⟩ := Option.bind_eq_some_iff.mp read
    cases read
    obtain ⟨smallHigh, sameHigh⟩ := two?_eq_some_iff.mp readHigh
    obtain ⟨smallLow, sameLow⟩ := two?_eq_some_iff.mp readLow
    have front : (high * 100 + low) / 100 = high := by omega
    have back : (high * 100 + low) % 100 = low := by omega
    rw [front, ← digits_two_mod (high * 100 + low), back, ← sameHigh, ← sameLow]
    exact ⟨by omega, rfl⟩
  · rintro ⟨small, same⟩
    rw [← digits_two_mod n] at same
    cases same
    have high := two?_eq_some_iff.mpr ⟨by omega, digits_two (n / 100)⟩
    have low := two?_eq_some_iff.mpr ⟨by omega, digits_two (n % 100)⟩
    simp only [four?, high, low, Option.bind_eq_bind, Option.bind_some, Option.some.injEq]
    omega

/-! ### Offsets and fractions -/

/-- What a time is told against: universal time itself, or an offset from it. -/
inductive Zone where
  | utc
  /-- An offset of less than a day. Each of its fields has two digits. -/
  | offset (west : Bool) (hours minutes : Nat) (twoDigits : minutes < 100)
    (withinDay : hours * 60 + minutes < 24 * 60)

namespace Zone

/-- A zone as it is written. -/
def text : Zone → List Char
  | utc => ['Z']
  | offset west hours minutes .. =>
    (if west then '-' else '+') :: digits 2 hours ++ ':' :: digits 2 minutes

/-- Whether a zone is written as the standard has it: no hour of an offset has sixty minutes. -/
def IsStandard : Zone → Prop
  | utc => True
  | offset _ _ minutes .. => minutes < 60

end Zone

/-- The texts of zones are those that are written for one. -/
theorem isZone_iff {s : List Char} : isZone s = true ↔ ∃ zone : Zone, s = zone.text := by
  constructor
  · intro h
    unfold isZone at h
    split at h
    · exact ⟨.utc, rfl⟩
    next sign a b c d =>
      obtain ⟨signed, fields⟩ := Bool.and_eq_true_iff.mp h
      split at fields
      next hours minutes readHours readMinutes =>
        obtain ⟨-, sameHours⟩ := two?_eq_some_iff.mp readHours
        obtain ⟨twoDigits, sameMinutes⟩ := two?_eq_some_iff.mp readMinutes
        have withinDay : hours * 60 + minutes < 24 * 60 := of_decide_eq_true fields
        refine ⟨.offset (sign == '-') hours minutes twoDigits withinDay, ?_⟩
        -- A sign is told by whether it is a minus, because there are only two.
        have written : (if sign == '-' then '-' else '+') = sign := by
          rcases Bool.or_eq_true_iff.mp signed with plus | minus
          · obtain rfl := beq_iff_eq.mp plus
            rfl
          · obtain rfl := beq_iff_eq.mp minus
            rfl
        rw [Zone.text, written, ← sameHours, ← sameMinutes]
        rfl
      next => cases fields
    · cases h
  · rintro ⟨zone, rfl⟩
    cases zone with
    | utc => rfl
    | offset west hours minutes twoDigits withinDay =>
      have readHours := two?_eq_some_iff.mpr ⟨by omega, digits_two hours⟩
      have readMinutes := two?_eq_some_iff.mpr ⟨twoDigits, digits_two minutes⟩
      have signed : ∀ sign, isZone (sign :: digits 2 hours ++ ':' :: digits 2 minutes) =
          ((sign == '+' || sign == '-') && decide (hours * 60 + minutes < 24 * 60)) := by
        intro sign
        simp only [digits_two, List.cons_append, List.nil_append, isZone, readHours, readMinutes,
          isOffset]
      rw [Zone.text, signed, decide_eq_true withinDay, Bool.and_true]
      cases west <;> rfl

/-- A fraction of a second as it is written: not at all, or as a point and its digits. -/
def fractionText : List (Fin 10) → List Char
  | [] => []
  | fraction => '.' :: fraction.map fun d => d.val.digitChar

theorem fractionText_cons (d : Fin 10) (digits : List (Fin 10)) :
    fractionText (d :: digits) = '.' :: (d :: digits).map fun d => d.val.digitChar := rfl

/-- Digits are written for numbers below ten. -/
theorem exists_digits {cs : List Char} (h : ∀ c ∈ cs, c.isDigit = true) :
    ∃ fraction : List (Fin 10), fraction.map (fun d => d.val.digitChar) = cs := by
  induction cs with
  | nil => exact ⟨[], rfl⟩
  | cons c cs ih =>
    obtain ⟨here, others⟩ := List.forall_mem_cons.mp h
    obtain ⟨d, small, rfl⟩ := isDigit_iff.mp here
    obtain ⟨fraction, rfl⟩ := ih others
    exact ⟨⟨d, small⟩ :: fraction, rfl⟩

/-- No zone starts with a digit or a point. -/
theorem Zone.exists_text_cons (zone : Zone) :
    ∃ c cs, zone.text = c :: cs ∧ c.isDigit = false ∧ c ≠ '.' := by
  cases zone with
  | utc => exact ⟨_, _, rfl, by decide, by decide⟩
  | offset west => cases west <;> exact ⟨_, _, rfl, by decide, by decide⟩

/-- The digits of a fraction end where the zone starts. -/
theorem takeWhile_digits_zone (fraction : List (Fin 10)) (zone : Zone) :
    ((fraction.map fun d => d.val.digitChar) ++ zone.text).takeWhile Char.isDigit =
      fraction.map fun d => d.val.digitChar := by
  obtain ⟨c, cs, starts, notDigit, -⟩ := zone.exists_text_cons
  have digits : ∀ x ∈ fraction.map (fun d => d.val.digitChar), x.isDigit = true := by
    intro x member
    obtain ⟨d, -, rfl⟩ := List.mem_map.mp member
    rw [Nat.isDigit_digitChar, decide_eq_true d.isLt]
  rw [List.takeWhile_append_of_pos digits, starts, List.takeWhile_cons_of_neg (by simp [notDigit]),
    List.append_nil]

theorem dropFraction_text {fraction : List (Fin 10)} (short : fraction.length ≤ 6) (zone : Zone) :
    dropFraction (fractionText fraction ++ zone.text) = zone.text := by
  cases fraction with
  | nil =>
    obtain ⟨c, cs, starts, -, noPoint⟩ := zone.exists_text_cons
    rw [fractionText, List.nil_append, starts]
    unfold dropFraction
    split
    · exact absurd (List.cons.inj ‹_›).1 noPoint
    · rfl
  | cons d rest =>
    have taken := takeWhile_digits_zone (d :: rest) zone
    have some : 1 ≤ ((d :: rest).map fun d => d.val.digitChar).length := by simp
    have few : ((d :: rest).map fun d => d.val.digitChar).length ≤ 6 := by simpa using short
    rw [fractionText_cons, List.cons_append, dropFraction, taken, decide_eq_true some,
      decide_eq_true few, List.drop_left]
    rfl

/-- The end of a text is that of a moment, if a zone is left without the fraction. -/
theorem isZone_dropFraction_iff {s : List Char} :
    isZone (dropFraction s) = true ↔
      ∃ (fraction : List (Fin 10)) (zone : Zone), fraction.length ≤ 6 ∧
        s = fractionText fraction ++ zone.text := by
  constructor
  · intro h
    unfold dropFraction at h
    split at h
    next rest =>
      dsimp only at h
      split at h
      next short =>
        obtain ⟨zone, ends⟩ := isZone_iff.mp h
        obtain ⟨fraction, written⟩ :=
          exists_digits (List.all_eq_true.mp (List.all_takeWhile (l := rest)))
        obtain ⟨ending, whole⟩ := List.takeWhile_prefix Char.isDigit (l := rest)
        simp only [Bool.and_eq_true, decide_eq_true_eq] at short
        rw [← written] at short whole ends
        rw [← whole, List.drop_left] at ends
        rw [List.length_map] at short
        cases fraction with
        | nil => exact absurd short.1 (by simp)
        | cons d digits =>
          refine ⟨d :: digits, zone, short.2, ?_⟩
          rw [fractionText_cons, List.cons_append, ← ends, whole]
      next =>
        obtain ⟨zone, same⟩ := isZone_iff.mp h
        obtain ⟨c, cs, starts, -, noPoint⟩ := zone.exists_text_cons
        exact absurd (List.cons.inj (same.trans starts)).1.symm noPoint
    next =>
      obtain ⟨zone, rfl⟩ := isZone_iff.mp h
      exact ⟨[], zone, Nat.zero_le _, rfl⟩
  · rintro ⟨fraction, zone, short, rfl⟩
    rw [dropFraction_text short, isZone_iff]
    exact ⟨zone, rfl⟩

/-! ### Moments -/

/-- Each field is read by itself, and what is left is the end with the zone. -/
theorem isMoment_iff_fields {s : List Char} :
    isMoment s = true ↔ ∃ year month day hour minute second ending,
      s = digits 4 year ++ '-' :: digits 2 month ++ '-' :: digits 2 day ++
        'T' :: digits 2 hour ++ ':' :: digits 2 minute ++ ':' :: digits 2 second ++ ending ∧
      (year < 10000 ∧ month < 100 ∧ day < 100 ∧ hour < 100 ∧ minute < 100 ∧ second < 100) ∧
      isDate year month day = true ∧ isTime hour minute second = true ∧
      isZone (dropFraction ending) = true := by
  constructor
  · intro h
    unfold isMoment at h
    split at h
    next y₁ y₂ y₃ y₄ m₁ m₂ d₁ d₂ h₁ h₂ n₁ n₂ s₁ s₂ ending =>
      split at h
      next year month day hour minute second readYear readMonth readDay readHour readMinute
          readSecond =>
        obtain ⟨smallYear, sameYear⟩ := four?_eq_some_iff.mp readYear
        obtain ⟨smallMonth, sameMonth⟩ := two?_eq_some_iff.mp readMonth
        obtain ⟨smallDay, sameDay⟩ := two?_eq_some_iff.mp readDay
        obtain ⟨smallHour, sameHour⟩ := two?_eq_some_iff.mp readHour
        obtain ⟨smallMinute, sameMinute⟩ := two?_eq_some_iff.mp readMinute
        obtain ⟨smallSecond, sameSecond⟩ := two?_eq_some_iff.mp readSecond
        obtain ⟨dateTime, zone⟩ := Bool.and_eq_true_iff.mp h
        obtain ⟨date, time⟩ := Bool.and_eq_true_iff.mp dateTime
        refine ⟨year, month, day, hour, minute, second, ending, ?_,
          ⟨smallYear, smallMonth, smallDay, smallHour, smallMinute, smallSecond⟩, date, time, zone⟩
        rw [← sameYear, ← sameMonth, ← sameDay, ← sameHour, ← sameMinute, ← sameSecond]
        rfl
      next => cases h
    next => cases h
  · rintro ⟨year, month, day, hour, minute, second, ending, rfl, ⟨smallYear, smallMonth, smallDay,
      smallHour, smallMinute, smallSecond⟩, date, time, zone⟩
    have readYear := four?_eq_some_iff.mpr ⟨smallYear, (digits_four year).symm⟩
    have readMonth := two?_eq_some_iff.mpr ⟨smallMonth, digits_two month⟩
    have readDay := two?_eq_some_iff.mpr ⟨smallDay, digits_two day⟩
    have readHour := two?_eq_some_iff.mpr ⟨smallHour, digits_two hour⟩
    have readMinute := two?_eq_some_iff.mpr ⟨smallMinute, digits_two minute⟩
    have readSecond := two?_eq_some_iff.mpr ⟨smallSecond, digits_two second⟩
    simp only [digits_four, digits_two, List.cons_append, List.nil_append, isMoment, readYear,
      readMonth, readDay, readHour, readMinute, readSecond, date, time, zone, Bool.and_self]

/-! ### Days -/

/-- Leap years are told by remainders, of natural numbers here and of integers in the library. -/
theorem isLeapYear_eq (year : Nat) :
    isLeapYear year = (Std.Time.Year.Offset.ofNat year).isLeap := by
  have leap : (Std.Time.Year.Offset.ofNat year).isLeap =
      decide ((year : Int).tmod 4 = 0 ∧ ((year : Int).tmod 100 ≠ 0 ∨ (year : Int).tmod 400 = 0)) :=
    rfl
  have by4 : (year : Int).tmod 4 = ((year % 4 : Nat) : Int) := rfl
  have by100 : (year : Int).tmod 100 = ((year % 100 : Nat) : Int) := rfl
  have by400 : (year : Int).tmod 400 = ((year % 400 : Nat) : Int) := rfl
  rw [leap, by4, by100, by400, Bool.eq_iff_iff, decide_eq_true_iff]
  simp [isLeapYear]
  omega

/-- The number of a month. -/
def monthNumber (month : Std.Time.Month.Ordinal) : Nat := month.val.toNat

/-- The number of a day in its month. -/
def dayNumber (day : Std.Time.Day.Ordinal) : Nat := day.val.toNat

theorem monthNumber_lt (month : Std.Time.Month.Ordinal) : monthNumber month < 100 := by
  have high := month.property.2
  rw [monthNumber]
  omega

theorem dayNumber_lt (day : Std.Time.Day.Ordinal) : dayNumber day < 100 := by
  have high := day.property.2
  rw [dayNumber]
  omega

theorem daysInMonth_eq (year : Nat) (month : Std.Time.Month.Ordinal) :
    daysInMonth year (monthNumber month) =
      dayNumber (month.days (Std.Time.Year.Offset.ofNat year).isLeap) := by
  -- Both sides are tables with one entry for each month and kind of year.
  rw [← isLeapYear_eq]
  obtain ⟨number, low, high⟩ := month
  generalize leap : isLeapYear year = b
  interval_cases number <;> cases b <;> simp [daysInMonth, leap] <;> rfl

/-- Three numbers are those of a day of the calendar, in the years that can be written. -/
theorem isDate_iff {year month day : Nat} :
    isDate year month day = true ↔ (1 ≤ year ∧ year ≤ 9999) ∧
      ∃ date : Std.Time.PlainDate, date.year = Std.Time.Year.Offset.ofNat year ∧
        monthNumber date.month = month ∧ dayNumber date.day = day := by
  simp only [isDate, Bool.and_eq_true, decide_eq_true_eq]
  constructor
  · rintro ⟨⟨⟨low, high⟩, first⟩, last⟩
    -- A month with a day exists: those that do not have none.
    have inYear : 1 ≤ month ∧ month ≤ 12 := by
      by_contra outside
      have none : daysInMonth year month = 0 := by
        unfold daysInMonth
        split <;> omega
      omega
    let month' : Std.Time.Month.Ordinal := ⟨month, by omega, by omega⟩
    have same : monthNumber month' = month := rfl
    rw [← same, daysInMonth_eq, dayNumber] at last
    have longest := (month'.days (Std.Time.Year.Offset.ofNat year).isLeap).property.2
    let day' : Std.Time.Day.Ordinal := ⟨day, by omega, by omega⟩
    have valid : (Std.Time.Year.Offset.ofNat year).Valid month' day' := by
      change (day : Int) ≤ (month'.days (Std.Time.Year.Offset.ofNat year).isLeap).val
      omega
    exact ⟨⟨low, high⟩, ⟨_, month', day', valid⟩, rfl, rfl, rfl⟩
  · rintro ⟨⟨low, high⟩, ⟨year', month', day', valid⟩, rfl, rfl, rfl⟩
    change day'.val ≤ (month'.days (Std.Time.Year.Offset.ofNat year).isLeap).val at valid
    have first := day'.property.1
    rw [daysInMonth_eq]
    dsimp only [dayNumber]
    omega

/-- A moment of the years 1 to 9999, to the microsecond. -/
structure Moment where
  date : Std.Time.PlainDate
  inYears : 1 ≤ date.year.toInt ∧ date.year.toInt ≤ 9999
  hour : Fin 24
  minute : Fin 60
  second : Fin 60
  /-- The digits of the fraction of the second. -/
  fraction : List (Fin 10)
  precision : fraction.length ≤ 6
  zone : Zone

/-- A moment as it is written. -/
def Moment.text (m : Moment) : List Char :=
  digits 4 m.date.year.toInt.toNat ++ '-' :: digits 2 (monthNumber m.date.month) ++
    '-' :: digits 2 (dayNumber m.date.day) ++ 'T' :: digits 2 m.hour ++ ':' :: digits 2 m.minute ++
    ':' :: digits 2 m.second ++ (fractionText m.fraction ++ m.zone.text)

/-- The texts that name a moment are those that are written for one. -/
theorem isMoment_iff {s : List Char} : isMoment s = true ↔ ∃ m : Moment, s = m.text := by
  rw [isMoment_iff_fields]
  constructor
  · rintro ⟨year, month, day, hour, minute, second, ending, rfl, -, onDate, atTime, ended⟩
    obtain ⟨⟨low, high⟩, ⟨_, month', day', valid⟩, rfl, rfl, rfl⟩ := isDate_iff.mp onDate
    obtain ⟨fraction, zone, precision, rfl⟩ := isZone_dropFraction_iff.mp ended
    simp only [isTime, Bool.and_eq_true, decide_eq_true_eq] at atTime
    obtain ⟨⟨hourLt, minuteLt⟩, secondLt⟩ := atTime
    have inYears : (1 : Int) ≤ year ∧ (year : Int) ≤ 9999 := by omega
    exact ⟨⟨⟨_, month', day', valid⟩, inYears, ⟨hour, hourLt⟩, ⟨minute, minuteLt⟩,
      ⟨second, secondLt⟩, fraction, precision, zone⟩, rfl⟩
  · rintro ⟨m, rfl⟩
    have ⟨low, high⟩ := m.inYears
    have hour := m.hour.isLt
    have minute := m.minute.isLt
    have second := m.second.isLt
    refine ⟨_, _, _, _, _, _, _, rfl,
      ⟨by omega, monthNumber_lt _, dayNumber_lt _, by omega, by omega, by omega⟩,
      isDate_iff.mpr ⟨by omega, m.date, ?_, rfl, rfl⟩, ?_,
      isZone_dropFraction_iff.mpr ⟨m.fraction, m.zone, m.precision, rfl⟩⟩
    · have nonneg : 0 ≤ m.date.year.toInt := by omega
      exact (Int.toNat_of_nonneg nonneg).symm
    · simp only [isTime, decide_eq_true hour, decide_eq_true minute, decide_eq_true second,
        Bool.and_self]

/-! ### A text names one moment -/

theorem Zone.text_injective {zone zone' : Zone} (h : zone.text = zone'.text) : zone = zone' := by
  cases zone with
  | utc =>
    cases zone' with
    | utc => rfl
    | offset west => cases west <;> cases h
  | offset west hours minutes twoDigits withinDay =>
    cases zone' with
    | utc => cases west <;> cases h
    | offset west' hours' minutes' twoDigits' withinDay' =>
      -- The colon stands at the same place in both texts.
      obtain ⟨front, back⟩ := List.append_inj h rfl
      obtain ⟨sign, front⟩ := List.cons.inj front
      have sameMinutes := digits_injective twoDigits twoDigits' (List.cons.inj back).2
      have sameHours := digits_injective (by omega) (by omega) front
      subst sameMinutes sameHours
      cases west <;> cases west' <;> first | rfl | cases sign

theorem fractionText_injective {fraction fraction' : List (Fin 10)}
    (h : fractionText fraction = fractionText fraction') : fraction = fraction' := by
  have digit : ∀ d e : Fin 10, d.val.digitChar = e.val.digitChar → d = e := by decide
  cases fraction with
  | nil =>
    cases fraction' with
    | nil => rfl
    | cons d digits => cases h
  | cons d digits =>
    cases fraction' with
    | nil => cases h
    | cons d' digits' => exact (List.map_inj_right digit).mp (List.cons.inj h).2

theorem date_eq {date date' : Std.Time.PlainDate} (year : date.year = date'.year)
    (month : monthNumber date.month = monthNumber date'.month)
    (day : dayNumber date.day = dayNumber date'.day) : date = date' := by
  obtain ⟨y, ⟨m, lowM, highM⟩, ⟨d, lowD, highD⟩, valid⟩ := date
  obtain ⟨y', ⟨m', lowM', highM'⟩, ⟨d', lowD', highD'⟩, valid'⟩ := date'
  have sameM : m = m' := by
    change m.toNat = m'.toNat at month
    omega
  have sameD : d = d' := by
    change d.toNat = d'.toNat at day
    omega
  cases year
  cases sameM
  cases sameD
  rfl

theorem Moment.text_injective {m m' : Moment} (h : m.text = m'.text) : m = m' := by
  -- All fields before the end have fixed widths, so the texts agree field by field.
  obtain ⟨h, ending⟩ := List.append_inj h rfl
  obtain ⟨h, second⟩ := List.append_inj h rfl
  obtain ⟨h, minute⟩ := List.append_inj h rfl
  obtain ⟨h, hour⟩ := List.append_inj h rfl
  obtain ⟨h, day⟩ := List.append_inj h rfl
  obtain ⟨year, month⟩ := List.append_inj h rfl
  -- The fraction has no fixed width, but what is left without it is the zone.
  have zone : m.zone = m'.zone := by
    have left := congrArg dropFraction ending
    rw [dropFraction_text m.precision, dropFraction_text m'.precision] at left
    exact Zone.text_injective left
  have fraction : m.fraction = m'.fraction := by
    rw [zone] at ending
    exact fractionText_injective (List.append_cancel_right ending)
  have sameYear : m.date.year = m'.date.year := by
    have ⟨low, high⟩ := m.inYears
    have ⟨low', high'⟩ := m'.inYears
    have same := digits_injective (by omega) (by omega) year
    change m.date.year.toInt = m'.date.year.toInt
    omega
  have date : m.date = m'.date :=
    date_eq sameYear
      (digits_injective (monthNumber_lt _) (monthNumber_lt _) (List.cons.inj month).2)
      (digits_injective (dayNumber_lt _) (dayNumber_lt _) (List.cons.inj day).2)
  have sameHour := digits_injective (by omega) (by omega) (List.cons.inj hour).2
  have sameMinute := digits_injective (by omega) (by omega) (List.cons.inj minute).2
  have sameSecond := digits_injective (by omega) (by omega) (List.cons.inj second).2
  cases m
  cases m'
  simp only [Fin.val_inj] at sameHour sameMinute sameSecond
  cases date
  cases sameHour
  cases sameMinute
  cases sameSecond
  cases fraction
  cases zone
  rfl

end Calendar

/-- A value is a date-time exactly if it is a text that names a moment, and then it names only
one. -/
theorem Check.dateTime_holds_iff (v : Value) :
    Check.dateTime.holds v = true ↔ ∃! m : Calendar.Moment, v = .text (String.ofList m.text) := by
  constructor
  · intro h
    cases v with
    | text s =>
      obtain ⟨m, written⟩ := Calendar.isMoment_iff.mp h
      have named : s = String.ofList m.text := by rw [← written, String.ofList_toList]
      refine ⟨m, congrArg Value.text named, fun m' same => ?_⟩
      rw [named, Value.text.injEq, String.ofList_inj] at same
      exact (Calendar.Moment.text_injective same).symm
    | _ => cases h
  · rintro ⟨m, rfl, -⟩
    have asked (s : String) : Check.dateTime.holds (.text s) = Calendar.isMoment s.toList := rfl
    rw [asked, Calendar.isMoment_iff]
    exact ⟨m, String.toList_ofList⟩

/-- An offset of sixty minutes passes, and no moment with a zone of the standard is written so. -/
theorem Check.dateTime_holds_sixty_minutes :
    Check.dateTime.holds (.text "2025-01-01T00:00:00+00:60") = true ∧
      ∀ m : Calendar.Moment, m.zone.IsStandard →
        Value.text "2025-01-01T00:00:00+00:60" ≠ .text (String.ofList m.text) := by
  refine ⟨by decide, fun m standard same => ?_⟩
  let named : Calendar.Moment :=
    { date := ⟨2025, 1, 1, by decide⟩
      inYears := by decide
      hour := 0
      minute := 0
      second := 0
      fraction := []
      precision := Nat.zero_le _
      zone := .offset false 0 60 (by decide) (by decide) }
  have read : "2025-01-01T00:00:00+00:60".toList = m.text := by
    rw [Value.text.inj same, String.toList_ofList]
  have written : named.text = "2025-01-01T00:00:00+00:60".toList := by decide
  obtain rfl := Calendar.Moment.text_injective (written.trans read)
  exact Nat.lt_irrefl 60 standard

end Conformance
