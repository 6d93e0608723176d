/-!
# Timestamps

A moment is written as a date and a time of day in UTC, with as many digits of a second as it needs
in groups of three. On reading, any offset from UTC is taken back, parts may have fewer digits and
blanks before them, and a space or a lower-case letter may stand between date and time.
-/

namespace DirectoryService

/-- The number of days of a month. -/
def daysInMonth (year : Int) (month : Nat) : Nat :=
  if month = 2 then
    if year % 4 = 0 ∧ (year % 100 ≠ 0 ∨ year % 400 = 0) then 29 else 28
  else if month = 4 ∨ month = 6 ∨ month = 9 ∨ month = 11 then 30
  else 31

/-- Whether numbers are a date of the calendar between the years -262143 and 262142. -/
def isDate (year : Int) (month day : Nat) : Bool :=
  -262143 ≤ year && year ≤ 262142 && 1 ≤ month && month ≤ 12 && 1 ≤ day &&
    day ≤ daysInMonth year month

/-- Whether numbers are a time of day, of which the last minute second may be a leap second. -/
def isTime (hour minute second nanosecond : Nat) : Bool :=
  hour ≤ 23 && minute ≤ 59 && second ≤ 60 && nanosecond < 1000000000

/-- A moment, as a date and time of day in UTC. -/
structure Timestamp where
  /-- The year of the common era. -/
  year : Int
  /-- The month, from one. -/
  month : Nat
  /-- The day of the month, from one. -/
  day : Nat
  /-- The hour. -/
  hour : Nat
  /-- The minute. -/
  minute : Nat
  /-- The second. -/
  second : Nat
  /-- The part of a second, in billionths. -/
  nanosecond : Nat
  /-- The date is one of the calendar. -/
  date_valid : isDate year month day = true
  /-- The time is one of the clock. -/
  time_valid : isTime hour minute second nanosecond = true
deriving DecidableEq

namespace Timestamp

/-- A moment of the given date and time, if there is one. -/
def ofParts? (year : Int) (month day hour minute second nanosecond : Nat) : Option Timestamp :=
  if date : isDate year month day = true then
    if time : isTime hour minute second nanosecond = true then
      some ⟨year, month, day, hour, minute, second, nanosecond, date, time⟩
    else none
  else none

/-- Decimal digits, with zeros in front up to a width. -/
def padded (width value : Nat) : List Char :=
  let digits := Nat.toDigits 10 value
  List.replicate (width - digits.length) '0' ++ digits

/-- A year: four digits, and a sign if four digits are not enough. -/
def yearChars (year : Int) : List Char :=
  if 0 ≤ year ∧ year ≤ 9999 then padded 4 year.toNat
  else (if year < 0 then '-' else '+') :: padded 4 year.natAbs

/-- The digits of a part of a second after a point, in as few groups of three as are exact. -/
def fractionChars (nanosecond : Nat) : List Char :=
  if nanosecond = 0 then []
  else if nanosecond % 1000000 = 0 then '.' :: padded 3 (nanosecond / 1000000)
  else if nanosecond % 1000 = 0 then '.' :: padded 6 (nanosecond / 1000)
  else '.' :: padded 9 nanosecond

/-- The characters of a moment. -/
def chars (moment : Timestamp) : List Char :=
  yearChars moment.year ++ '-' :: padded 2 moment.month ++ '-' :: padded 2 moment.day ++
    'T' :: padded 2 moment.hour ++ ':' :: padded 2 moment.minute ++ ':' ::
    padded 2 moment.second ++ fractionChars moment.nanosecond ++ ['Z']

/-- The text of a moment. -/
def render (moment : Timestamp) : String := String.ofList moment.chars

/-- The code points of blanks of any alphabet. -/
def isBlank (c : Char) : Bool :=
  let code := c.toNat
  (9 ≤ code && code ≤ 13) || code = 0x20 || code = 0x85 || code = 0xA0 || code = 0x1680 ||
    (0x2000 ≤ code && code ≤ 0x200A) || code = 0x2028 || code = 0x2029 || code = 0x202F ||
    code = 0x205F || code = 0x3000

/-- The characters after leading blanks. -/
def skipBlanks (chars : List Char) : List Char := chars.dropWhile isBlank

/-- The number of at least one and at most `limit` digits, with the characters after them and the
number of digits. -/
def digits? (limit : Nat) (chars : List Char) : Option (Nat × List Char × Nat) :=
  let digits := (chars.take limit).takeWhile Char.isDigit
  if digits.isEmpty then none
  else some (digits.foldl (fun sum digit => 10 * sum + (digit.toNat - 48)) 0,
    chars.drop digits.length, digits.length)

/-- A number of at most two digits after blanks. -/
def pair? (chars : List Char) : Option (Nat × List Char) :=
  (digits? 2 (skipBlanks chars)).map fun (value, rest, _) => (value, rest)

/-- A year: at most four digits, or a sign and any number of digits. -/
def year? (chars : List Char) : Option (Int × List Char) :=
  match skipBlanks chars with
  | '-' :: rest => (digits? rest.length rest).map fun (value, rest, _) => (-value, rest)
  | '+' :: rest => (digits? rest.length rest).map fun (value, rest, _) => (value, rest)
  | rest => (digits? 4 rest).map fun (value, rest, _) => (value, rest)

/-- The characters after a mark that blanks may precede. -/
def after? (mark : Char) (chars : List Char) : Option (List Char) :=
  match skipBlanks chars with
  | c :: rest => if c = mark then some rest else none
  | [] => none

/-- The part of a second after a point, if there is one; digits beyond the ninth are dropped. -/
def fraction? (chars : List Char) : Option (Nat × List Char) :=
  match chars with
  | '.' :: rest => do
    let (value, rest, count) ← digits? 9 rest
    some (value * Nat.pow 10 (9 - count), rest.dropWhile Char.isDigit)
  | rest => some (0, rest)

/-- An offset from UTC in minutes. -/
def offset? (chars : List Char) : Option (Int × List Char) :=
  match chars with
  | 'Z' :: rest => some (0, rest)
  | 'z' :: rest => some (0, rest)
  | sign :: rest =>
    if (chars.take 3).map Char.toLower = ['u', 't', 'c'] then some (0, chars.drop 3)
    else if sign ≠ '+' ∧ sign ≠ '-' ∧ sign ≠ '\u2212' then none
    else do
      let (hours, afterHours, width) ← digits? 2 rest
      if width ≠ 2 then none
      let (minutes, rest, width) ←
        digits? 2 (afterHours.dropWhile fun c => c = ':' || isBlank c)
      if width ≠ 2 ∨ 59 < minutes ∨ 23 < hours then none
      let total : Int := 60 * hours + minutes
      some (if sign = '+' then total else -total, rest)
  | [] => none

/-- The day before a date. -/
def dayBefore (year : Int) (month day : Nat) : Int × Nat × Nat :=
  if 1 < day then (year, month, day - 1)
  else if 1 < month then (year, month - 1, daysInMonth year (month - 1))
  else (year - 1, 12, 31)

/-- The day after a date. -/
def dayAfter (year : Int) (month day : Nat) : Int × Nat × Nat :=
  if day < daysInMonth year month then (year, month, day + 1)
  else if month < 12 then (year, month + 1, 1)
  else (year + 1, 1, 1)

/-- The moment at which clocks that are `offset` minutes ahead of UTC show the given date and
time. -/
def ofLocal? (shown : Timestamp) (offset : Int) : Option Timestamp :=
  let minutes : Int := 60 * shown.hour + shown.minute - offset
  let (year, month, day) :=
    if minutes < 0 then dayBefore shown.year shown.month shown.day
    else if 1440 ≤ minutes then dayAfter shown.year shown.month shown.day
    else (shown.year, shown.month, shown.day)
  let clock := (minutes % 1440).toNat
  ofParts? year month day (clock / 60) (clock % 60) shown.second shown.nanosecond

/-- The moment that characters stand for. -/
def ofChars? (chars : List Char) : Option Timestamp := do
  let (year, rest) ← year? chars
  let (month, rest) ← pair? (← after? '-' rest)
  let (day, rest) ← pair? (← after? '-' rest)
  let rest ← match rest with
    | 'T' :: rest => some rest
    | 't' :: rest => some rest
    | ' ' :: rest => some rest
    | _ => none
  let (hour, rest) ← pair? rest
  let (minute, rest) ← pair? (← after? ':' rest)
  let (second, rest) ← pair? (← after? ':' rest)
  let (nanosecond, rest) ← fraction? rest
  let (offset, rest) ← offset? (skipBlanks rest)
  if (skipBlanks rest).isEmpty then
    ofLocal? (← ofParts? year month day hour minute second nanosecond) offset
  else none

/-- The moment that a text stands for. -/
def parse? (text : String) : Option Timestamp := ofChars? text.toList

end Timestamp

end DirectoryService
