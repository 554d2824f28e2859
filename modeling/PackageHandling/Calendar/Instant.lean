import PackageHandling.Json.Reader
import PackageHandling.Text.Blank

/-!
# Points in time

A point in time is read from a date, a clock time and an offset from Greenwich, with blanks
before each part, and written in Greenwich time with as many places of a second as it needs:
none, three, six or nine.
-/

namespace PackageHandling
namespace Calendar

def isLeap (year : Int) : Bool := year % 4 = 0 && (year % 100 ≠ 0 || year % 400 = 0)

def daysIn (year : Int) (month : Nat) : Nat :=
  if month = 2 then if isLeap year then 29 else 28
  else if month = 4 ∨ month = 6 ∨ month = 9 ∨ month = 11 then 30 else 31

/-- Days from the first of March of year 0 to a date; the year begins in March, so a leap day
ends it. -/
def dayNumber (year : Int) (month day : Nat) : Int :=
  let year := if month ≤ 2 then year - 1 else year
  let month : Int := (month + 9) % 12
  let era := year.fdiv 400
  let inEra := year - era * 400
  era * 146097 + inEra * 365 + inEra / 4 - inEra / 100 + (153 * month + 2) / 5 + day - 1

def epochDay : Int := dayNumber 1970 1 1

/-- The years of the calendar. -/
def hasYear (year : Int) : Bool := -262143 ≤ year && year ≤ 262142

structure Date where
  year : Int
  month : Nat
  day : Nat
  deriving DecidableEq, Inhabited

/-- The date of a day number. -/
def dateOf (n : Int) : Date :=
  let era := n.fdiv 146097
  let inEra := (n - era * 146097).toNat
  let year := (inEra - inEra / 1460 + inEra / 36524 - inEra / 146096) / 365
  let inYear := inEra - (365 * year + year / 4 - year / 100)
  let shifted := (5 * inYear + 2) / 153
  let day := inYear - (153 * shifted + 2) / 5 + 1
  let month := if shifted < 10 then shifted + 3 else shifted - 9
  ⟨era * 400 + year + if month ≤ 2 then 1 else 0, month, day⟩

/-- Seconds since the start of 1970 and nanoseconds; a leap second has more than a thousand
million of them. -/
structure Instant where
  seconds : Int
  nanos : Nat
  deriving DecidableEq, Inhabited

namespace Instant

abbrev Scan (α : Type) := List Char → Option (α × List Char)

/-- One or more digits, at most `most`. -/
def digits (least most : Nat) : Scan Nat := fun s =>
  let run := (s.take most).takeWhile Char.isDigit
  if run.length < least then none else some (Json.digitsValue run, s.drop run.length)

def literal (c : Char) : Scan Unit
  | x :: rest => if x = c then some ((), rest) else none
  | [] => none

/-- With a sign a year has any number of digits, without one at most four. -/
def year : Scan Int
  | '+' :: rest => (digits 1 rest.length rest).map fun (n, rest) => ((n : Int), rest)
  | '-' :: rest => (digits 1 rest.length rest).map fun (n, rest) => (-(n : Int), rest)
  | s => (digits 1 4 s).map fun (n, rest) => ((n : Int), rest)

/-- Places of a second; more than nine are dropped. -/
def fraction : Scan Nat
  | '.' :: rest =>
    let run := rest.takeWhile Char.isDigit
    if run.isEmpty then none
    else
      let kept := run.take 9
      some (Json.digitsValue kept * Nat.pow 10 (9 - kept.length), rest.drop run.length)
  | s => some (0, s)

/-- The offset from Greenwich in seconds.  Colons and blanks may stand between its hours and
its minutes. -/
def offset (s : List Char) : Option (Int × List Char) :=
  let lower := (s.take 3).map Char.toLower
  if lower = ['u', 't', 'c'] then some (0, s.drop 3)
  else
    match s with
    | 'Z' :: rest => some (0, rest)
    | 'z' :: rest => some (0, rest)
    | c :: rest => do
      if c ≠ '+' ∧ c ≠ '-' ∧ c.toNat ≠ 0x2212 then none
      let sign : Int := if c = '+' then 1 else -1
      let (hours, rest) ← digits 2 2 rest
      let (minutes, rest) ← digits 2 2 (rest.dropWhile fun c => c = ':' || Text.isBlank c)
      if minutes > 59 then none
      else some (sign * (hours * 3600 + minutes * 60), rest)
    | [] => none

/-- The seconds since the start of 1970 at a local time; nothing if the local date or the one in
Greenwich lies outside the calendar. -/
def secondsAt? (date : Date) (secondOfDay : Nat) (shift : Int) : Option Int :=
  let days := dayNumber date.year date.month date.day
  let seconds := (days - epochDay) * 86400 + secondOfDay - shift
  if hasYear date.year && hasYear (dateOf (seconds.fdiv 86400 + epochDay)).year then some seconds
  else none

def read? (text : String) : Option Instant := do
  let (year, s) ← year (Text.trimStart text.toList)
  let (_, s) ← literal '-' (Text.trimStart s)
  let (month, s) ← digits 1 2 (Text.trimStart s)
  let (_, s) ← literal '-' (Text.trimStart s)
  let (day, s) ← digits 1 2 (Text.trimStart s)
  let s ← match s with
    | 'T' :: rest => some rest
    | 't' :: rest => some rest
    | ' ' :: rest => some rest
    | _ => none
  let (hour, s) ← digits 1 2 (Text.trimStart s)
  let (_, s) ← literal ':' (Text.trimStart s)
  let (minute, s) ← digits 1 2 (Text.trimStart s)
  let (_, s) ← literal ':' (Text.trimStart s)
  let (second, s) ← digits 1 2 (Text.trimStart s)
  let (nanos, s) ← fraction s
  let (shift, s) ← offset (Text.trimStart s)
  if Text.trimStart s ≠ [] ∨ month < 1 ∨ month > 12 ∨ day < 1 ∨ day > daysIn year month ∨
    hour > 23 ∨ minute > 59 ∨ second > 60 ∨ shift.natAbs ≥ 86400 then none
  else
    let leap := second = 60
    let second := if leap then 59 else second
    let seconds ← secondsAt? ⟨year, month, day⟩ (hour * 3600 + minute * 60 + second) shift
    return ⟨seconds, if leap then nanos + 1000000000 else nanos⟩

def padded (width n : Nat) : String :=
  let digits := toString n
  String.ofList (List.replicate (width - digits.length) '0') ++ digits

def yearText (year : Int) : String :=
  if 0 ≤ year ∧ year ≤ 9999 then padded 4 year.toNat
  else (if year < 0 then "-" else "+") ++ padded 4 year.natAbs

def fractionText (nanos : Nat) : String :=
  if nanos = 0 then ""
  else if nanos % 1000000 = 0 then "." ++ padded 3 (nanos / 1000000)
  else if nanos % 1000 = 0 then "." ++ padded 6 (nanos / 1000)
  else "." ++ padded 9 nanos

def text (i : Instant) : String :=
  let days := i.seconds.fdiv 86400
  let inDay := (i.seconds - days * 86400).toNat
  let date := dateOf (days + epochDay)
  let leap := i.nanos ≥ 1000000000
  let second := inDay % 60 + if leap then 1 else 0
  yearText date.year ++ "-" ++ padded 2 date.month ++ "-" ++ padded 2 date.day ++ "T" ++
    padded 2 (inDay / 3600) ++ ":" ++ padded 2 (inDay / 60 % 60) ++ ":" ++ padded 2 second ++
    fractionText (i.nanos % 1000000000) ++ "Z"

end Instant
end Calendar
end PackageHandling
