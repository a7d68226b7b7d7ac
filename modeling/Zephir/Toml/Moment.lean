/-!
Dates and times of day. A moment is a date, a time, or both; with both, it may say how far its
clock is from universal time. A time may leave out its seconds.
-/

namespace Zephir

structure CalendarDate where
  year : Nat
  month : Nat
  day : Nat
  deriving DecidableEq

namespace CalendarDate

def isLeapYear (year : Nat) : Bool :=
  year % 4 == 0 && (year % 100 != 0 || year % 400 == 0)

def daysIn (year month : Nat) : Nat :=
  if month = 2 then if isLeapYear year then 29 else 28
  else if month = 4 || month = 6 || month = 9 || month = 11 then 30
  else 31

def isValid (date : CalendarDate) : Bool :=
  1 ≤ date.month && date.month ≤ 12 && 1 ≤ date.day && date.day ≤ daysIn date.year date.month

end CalendarDate

structure ClockTime where
  hour : Nat
  minute : Nat
  second : Option Nat
  fraction : List Char
  deriving DecidableEq

def ClockTime.isValid (time : ClockTime) : Bool :=
  time.hour ≤ 23 && time.minute ≤ 59 && time.second.getD 0 ≤ 60

/-- A date, a time, or both; `offset` is the number of minutes ahead of universal time. -/
structure Moment where
  date : Option CalendarDate
  time : Option ClockTime
  offset : Option Int
  deriving DecidableEq

namespace Moment

def number? (digits : List Char) : Option Nat :=
  if digits.all Char.isDigit then
    some (digits.foldl (fun value c => value * 10 + (c.toNat - '0'.toNat)) 0)
  else none

def readDate? : List Char → Option (CalendarDate × List Char)
  | y :: z :: u :: v :: '-' :: m :: n :: '-' :: d :: e :: rest => do
    let date : CalendarDate := ⟨← number? [y, z, u, v], ← number? [m, n], ← number? [d, e]⟩
    if date.isValid then some (date, rest) else none
  | _ => none

def readFraction? : List Char → Option (List Char × List Char)
  | '.' :: rest =>
    match rest.span Char.isDigit with
    | ([], _) => none
    | (digits, rest) => some (digits, rest)
  | rest => some ([], rest)

def readSecond? : List Char → Option (Option Nat × List Char × List Char)
  | ':' :: s :: t :: rest => do
    let second ← number? [s, t]
    let (fraction, rest) ← readFraction? rest
    return (some second, fraction, rest)
  | ':' :: _ => none
  | rest => some (none, [], rest)

def readTime? : List Char → Option (ClockTime × List Char)
  | h :: i :: ':' :: m :: n :: rest => do
    let hour ← number? [h, i]
    let minute ← number? [m, n]
    let (second, fraction, rest) ← readSecond? rest
    let time : ClockTime := { hour, minute, second, fraction }
    if time.isValid then some (time, rest) else none
  | _ => none

def offset? : List Char → Option (Option Int)
  | [] => some none
  | ['Z'] | ['z'] => some (some 0)
  | [sign, h, i, ':', m, n] => do
    let hours ← number? [h, i]
    let minutes ← number? [m, n]
    if hours ≤ 23 && minutes ≤ 59 then
      if sign = '+' then some (some (hours * 60 + minutes))
      else if sign = '-' then some (some (-(hours * 60 + minutes)))
      else none
    else none
  | _ => none

def isDivider (c : Char) : Bool :=
  c == 'T' || c == 't' || c == ' '

def ofChars? (text : List Char) : Option Moment :=
  match readDate? text with
  | some (date, []) => some ⟨some date, none, none⟩
  | some (date, divider :: rest) => do
    if !isDivider divider then none
    let (time, rest) ← readTime? rest
    return ⟨some date, some time, ← offset? rest⟩
  | none =>
    match readTime? text with
    | some (time, []) => some ⟨none, some time, none⟩
    | _ => none

end Moment

end Zephir
