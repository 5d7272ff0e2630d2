import BucketBench.Number.Digits
import BucketBench.Number.IntRange
import BucketBench.Text.Blank

set_option autoImplicit false

/-!
# Moments in time

A moment is a count of seconds since the start of 1970, UTC, and of nanoseconds in that second; a leap second
goes on counting nanoseconds beyond the end of its second. Texts have an offset when they are read and none
when they are written.
-/

namespace BucketBench

structure Timestamp where
  seconds : Int
  nanos : Nat
deriving DecidableEq, Inhabited

structure Day where
  year : Int
  month : Nat
  day : Nat
deriving DecidableEq

namespace Day

def isLeap (year : Int) : Bool := year % 4 == 0 && (year % 100 != 0 || year % 400 == 0)

def monthLength (year : Int) (month : Nat) : Nat :=
  if month = 2 then (if isLeap year then 29 else 28)
  else if month = 4 ∨ month = 6 ∨ month = 9 ∨ month = 11 then 30
  else 31

def isValid (d : Day) : Bool :=
  decide (1 ≤ d.month ∧ d.month ≤ 12 ∧ 1 ≤ d.day ∧ d.day ≤ monthLength d.year d.month)

/-- Days since the start of 1970. Years are counted from March on, so that the leap day ends a year. -/
def toNumber (d : Day) : Int :=
  let year := if d.month ≤ 2 then d.year - 1 else d.year
  let era := year / 400
  let yearOfEra := year - era * 400
  let monthFromMarch : Int := (d.month + 9) % 12
  let dayOfYear := (153 * monthFromMarch + 2) / 5 + d.day - 1
  let dayOfEra := yearOfEra * 365 + yearOfEra / 4 - yearOfEra / 100 + dayOfYear
  era * 146097 + dayOfEra - 719468

def ofNumber (n : Int) : Day :=
  let n := n + 719468
  let era := n / 146097
  let dayOfEra := n - era * 146097
  let yearOfEra := (dayOfEra - dayOfEra / 1460 + dayOfEra / 36524 - dayOfEra / 146096) / 365
  let dayOfYear := dayOfEra - (365 * yearOfEra + yearOfEra / 4 - yearOfEra / 100)
  let monthFromMarch := (5 * dayOfYear + 2) / 153
  let day := dayOfYear - (153 * monthFromMarch + 2) / 5 + 1
  let month := if monthFromMarch < 10 then monthFromMarch + 3 else monthFromMarch - 9
  ⟨yearOfEra + era * 400 + (if month ≤ 2 then 1 else 0), month.toNat, day.toNat⟩

end Day

namespace Timestamp

def padded (width n : Nat) : String :=
  let digits := toString n
  String.ofList (List.replicate (width - digits.length) '0') ++ digits

/-- The digits of the nanoseconds in groups of three, as many as are needed. -/
def fractionText (nanos : Nat) : String :=
  if nanos = 0 then ""
  else if nanos % 1000000 = 0 then "." ++ padded 3 (nanos / 1000000)
  else if nanos % 1000 = 0 then "." ++ padded 6 (nanos / 1000)
  else "." ++ padded 9 nanos

def yearText (year : Int) : String :=
  if 0 ≤ year ∧ year ≤ 9999 then padded 4 year.toNat
  else (if year < 0 then "-" else "+") ++ padded 4 year.natAbs

/-- The moment in UTC, the nanoseconds of its second written as given. -/
def textWith (fraction : Nat → String) (t : Timestamp) : String :=
  let day := Day.ofNumber (t.seconds / 86400)
  let second := (t.seconds % 86400).toNat
  let leap := t.nanos / 1000000000
  s!"{yearText day.year}-{padded 2 day.month}-{padded 2 day.day}T"
    ++ s!"{padded 2 (second / 3600)}:{padded 2 (second / 60 % 60)}:{padded 2 (second % 60 + leap)}"
    ++ s!"{fraction (t.nanos % 1000000000)}Z"

/-- The moment in UTC, with as many groups of fraction digits as it needs. -/
def text (t : Timestamp) : String := t.textWith fractionText

/-- Between one and `width` decimal digits behind any blanks. -/
def readNumber? (width : Nat) (s : List Char) : Option (Nat × List Char) :=
  let s := s.dropWhile Text.isBlank
  match Digits.spanDigits (s.take width) with
  | ([], _) => none
  | (ds, _) => some (Digits.decimalValue ds, s.drop ds.length)

/-- A year of up to four digits, or of any number of digits behind a sign. -/
def readYear? (s : List Char) : Option (Int × List Char) :=
  match s.dropWhile Text.isBlank with
  | '-' :: r =>
    match Digits.spanDigits r with
    | ([], _) => none
    | (ds, r) => some (-(Digits.decimalValue ds : Int), r)
  | '+' :: r =>
    match Digits.spanDigits r with
    | ([], _) => none
    | (ds, r) => some (Digits.decimalValue ds, r)
  | r => (readNumber? 4 r).map fun (n, r) => (n, r)

def readMark? (mark : Char) (s : List Char) : Option (List Char) :=
  match s.dropWhile Text.isBlank with
  | c :: r => if c = mark then some r else none
  | [] => none

/-- A fraction of a second in nanoseconds; digits beyond the ninth are dropped. -/
def readFraction? : List Char → Option (Nat × List Char)
  | '.' :: r =>
    match Digits.spanDigits r with
    | ([], _) => none
    | (ds, r) =>
      let kept := ds.take 9
      some (Digits.decimalValue kept * Nat.pow 10 (9 - kept.length), r)
  | r => some (0, r)

/-- An offset from UTC in seconds: `Z`, `UTC`, or hours and minutes behind a sign. -/
def readOffset? (s : List Char) : Option (Int × List Char) :=
  let signed (negative : Bool) (r : List Char) : Option (Int × List Char) :=
    match r with
    | a :: b :: r => do
      let hours := 10 * (← Digits.digit? a) + (← Digits.digit? b)
      match r.dropWhile fun c => c == ':' || Text.isBlank c with
      | c :: d :: r =>
        let tens ← Digits.digit? c
        let minutes := 10 * tens + (← Digits.digit? d)
        let offset : Int := hours * 3600 + minutes * 60
        if tens < 6 ∧ offset < 86400 then some (if negative then -offset else offset, r) else none
      | _ => none
    | _ => none
  match s with
  | 'Z' :: r | 'z' :: r => some (0, r)
  | '+' :: r => signed false r
  | '-' :: r => signed true r
  | '\u2212' :: r => signed true r
  | a :: b :: c :: r => if [a, b, c].map Char.toUpper = ['U', 'T', 'C'] then some (0, r) else none
  | _ => none

def years : IntRange := ⟨-262143, 262142⟩

/-- The moment a text names: date, `T`, `t` or a blank, time with optional fraction, offset. -/
def ofText? (text : String) : Option Timestamp := do
  let (year, r) ← readYear? text.toList
  let (month, r) ← readNumber? 2 (← readMark? '-' r)
  let (dayOfMonth, r) ← readNumber? 2 (← readMark? '-' r)
  let r ← match r with
    | 'T' :: r | 't' :: r | ' ' :: r => some r
    | _ => none
  let (hour, r) ← readNumber? 2 r
  let (minute, r) ← readNumber? 2 (← readMark? ':' r)
  let (second, r) ← readNumber? 2 (← readMark? ':' r)
  let (fraction, r) ← readFraction? r
  let (offset, r) ← readOffset? (r.dropWhile Text.isBlank)
  let day : Day := ⟨year, month, dayOfMonth⟩
  let leap := second / 60
  let clock : Int := hour * 3600 + minute * 60 + (second - leap : Nat)
  let seconds := day.toNumber * 86400 + clock - offset
  if day.isValid ∧ year ∈ years ∧ (Day.ofNumber (seconds / 86400)).year ∈ years ∧ hour < 24 ∧ minute < 60
      ∧ second ≤ 60 ∧ (r.dropWhile Text.isBlank).isEmpty then
    some ⟨seconds, fraction + leap * 1000000000⟩
  else none

end Timestamp

end BucketBench
