import ChoreRota.Calendar.Moment
import ChoreRota.Text.Digits

/-!
# RFC 3339 timestamps

Reading goes from left to right and names the first part that cannot be read; only a text that has
the right form is then checked against the calendar. Any one ASCII character may stand between the
date and the time. Writing covers the years 0 to 9999.
-/

namespace ChoreRota.Rfc3339

inductive Part where
  | year | month | day | separator | hour | minute | second | subsecond | offsetHour | offsetMinute
  deriving DecidableEq, Repr

def Part.name : Part → String
  | .year => "year"
  | .month => "month"
  | .day => "day"
  | .separator => "separator"
  | .hour => "hour"
  | .minute => "minute"
  | .second => "second"
  | .subsecond => "subsecond"
  | .offsetHour => "offset hour"
  | .offsetMinute => "offset minute"

inductive Fault where
  | unreadable (part : Part)
  | badLiteral
  | trailing
  | outOfRange (part : Part)
  deriving DecidableEq, Repr

def Fault.message : Fault → String
  | .unreadable part => "the '" ++ part.name ++ "' component could not be parsed"
  | .badLiteral => "a character literal was not valid"
  | .trailing => "unexpected trailing characters; the end of input was expected"
  | .outOfRange part => part.name ++ " was not in range"

def readDigits (part : Part) (count : Nat) (chars : List Char) :
    Except Fault (Nat × List Char) :=
  match Text.takeDigits count chars with
  | some result => .ok result
  | none => .error (.unreadable part)

def readLiteral (literal : Char) : List Char → Except Fault (List Char)
  | c :: rest => if c = literal then .ok rest else .error .badLiteral
  | [] => .error .badLiteral

/-- One ASCII character; the bytes of any other do not all belong to the separator, and what is left
of them is no hour. -/
def readSeparator : List Char → Except Fault (List Char)
  | [] => .error (.unreadable .separator)
  | c :: rest => if c.toNat < 128 then .ok rest else .error (.unreadable .hour)

/-- The digits after a decimal point in nanoseconds; those past the ninth are ignored. -/
def fraction (digits : List Char) : Nat :=
  Text.digitsValue (digits.take 9) * Nat.pow 10 (9 - digits.length)

def readSubsecond : List Char → Except Fault (Nat × List Char)
  | '.' :: rest =>
    let digits := rest.takeWhile Text.isDigit
    if digits.isEmpty then .error (.unreadable .subsecond)
    else .ok (fraction digits, rest.dropWhile Text.isDigit)
  | rest => .ok (0, rest)

def readOffsetClock (sign : Int) (chars : List Char) : Except Fault (Int × List Char) := do
  let (hour, rest) ← readDigits .offsetHour 2 chars
  if 23 < hour then throw (.unreadable .offsetHour)
  let rest ← readLiteral ':' rest
  let (minute, rest) ← readDigits .offsetMinute 2 rest
  if 59 < minute then throw (.outOfRange .offsetMinute)
  return (sign * (hour * 3600 + minute * 60 : Nat), rest)

def readOffset : List Char → Except Fault (Int × List Char)
  | 'Z' :: rest => .ok (0, rest)
  | 'z' :: rest => .ok (0, rest)
  | '+' :: rest => readOffsetClock 1 rest
  | '-' :: rest => readOffsetClock (-1) rest
  | _ => .error (.unreadable .offsetHour)

structure Parts where
  year : Nat
  month : Nat
  day : Nat
  hour : Nat
  minute : Nat
  second : Nat
  nanosecond : Nat
  offset : Int
  deriving DecidableEq, Repr

def readParts (chars : List Char) : Except Fault Parts := do
  let (year, rest) ← readDigits .year 4 chars
  let rest ← readLiteral '-' rest
  let (month, rest) ← readDigits .month 2 rest
  if month = 0 then throw (.unreadable .month)
  let rest ← readLiteral '-' rest
  let (day, rest) ← readDigits .day 2 rest
  let rest ← readSeparator rest
  let (hour, rest) ← readDigits .hour 2 rest
  let rest ← readLiteral ':' rest
  let (minute, rest) ← readDigits .minute 2 rest
  let rest ← readLiteral ':' rest
  let (second, rest) ← readDigits .second 2 rest
  let (nanosecond, rest) ← readSubsecond rest
  let (offset, rest) ← readOffset rest
  if rest.isEmpty then
    return { year, month, day, hour, minute, second, nanosecond, offset }
  else throw .trailing

/-- The last nanosecond of a month in UTC, which stands for the leap second that follows it. -/
def isMonthEnd (timestamp : Timestamp) : Bool :=
  match timestamp.toUtc? with
  | none => false
  | some moment =>
    moment.time.nanos == 86399999999999 && moment.date.day == moment.month.length

/-- A second 60 is read as the last nanosecond before it. -/
def Parts.settled (parts : Parts) : Parts :=
  if parts.second = 60 then { parts with second := 59, nanosecond := 999999999 } else parts

def Parts.time (parts : Parts) : Except Fault TimeOfDay :=
  match TimeOfDay.ofClock? parts.hour parts.minute parts.second parts.nanosecond with
  | some time => .ok time
  | none =>
    if 24 ≤ parts.hour then .error (.outOfRange .hour)
    else if 60 ≤ parts.minute then .error (.outOfRange .minute)
    else .error (.outOfRange .second)

def Parts.date (parts : Parts) : Except Fault Date :=
  if 12 < parts.month then .error (.outOfRange .month)
  else
    match Date.ofMonthDay? (Month.ofYear parts.year parts.month) parts.day with
    | some date => .ok date
    | none => .error (.outOfRange .day)

def Parts.timestamp (parts : Parts) : Except Fault Timestamp := do
  let date ← parts.settled.date
  let time ← parts.settled.time
  let timestamp : Timestamp := ⟨⟨date, time⟩, parts.offset⟩
  if parts.second = 60 && !isMonthEnd timestamp then throw (.outOfRange .second)
  return timestamp

def read (text : String) : Except Fault Timestamp := do
  let parts ← readParts text.toList
  parts.timestamp

/-- A fraction of a second: nothing when it is zero, else a point and digits up to the last that is
not zero. -/
def writeSubsecond (nanosecond : Nat) : List Char :=
  if nanosecond = 0 then []
  else '.' :: ((Text.padded 9 nanosecond).reverse.dropWhile (· == '0')).reverse

def writeOffset (offset : Int) : List Char :=
  if offset = 0 then ['Z']
  else
    (if offset < 0 then '-' else '+') :: Text.padded 2 (offset.natAbs / 3600) ++
      ':' :: Text.padded 2 (offset.natAbs / 60 % 60)

def writeDate (date : Date) : List Char :=
  Text.padded 4 date.year.toNat ++ '-' :: Text.padded 2 date.month.number.toNat ++
    '-' :: Text.padded 2 date.day.toNat

def writeTime (time : TimeOfDay) : List Char :=
  Text.padded 2 time.hour ++ ':' :: Text.padded 2 time.minute ++ ':' :: Text.padded 2 time.second ++
    writeSubsecond time.nanosecond

/-- The written form, for years from 0 to 9999. -/
def write? (timestamp : Timestamp) : Option String :=
  if 0 ≤ timestamp.wall.year ∧ timestamp.wall.year ≤ 9999 then
    some <| String.ofList <|
      writeDate timestamp.wall.date ++ 'T' :: writeTime timestamp.wall.time ++
        writeOffset timestamp.offset
  else none

end ChoreRota.Rfc3339
