namespace HtmlTemplate

/-!
# Dates and times

Calendar values as templates print and compare them.  A year outside 0 to 9999
is written with its sign.  A fraction of a second is written with three, six or
nine digits, as few as it needs, and not at all when it is zero.  A leap second
is a second with a billion nanoseconds or more, and prints as one second later.
-/

/-- Decimal digits of a number, padded with zeros to a width. -/
def padded (width value : Nat) : List Char :=
  let digits := Nat.toDigits 10 value
  List.replicate (width - digits.length) '0' ++ digits

/-- A day of the proleptic Gregorian calendar. -/
structure Date where
  year : Int
  month : Nat
  day : Nat
  deriving DecidableEq, Repr

/-- A time of day.  `nanosecond` reaches a billion and more in a leap second. -/
structure TimeOfDay where
  hour : Nat
  minute : Nat
  second : Nat
  nanosecond : Nat
  deriving DecidableEq, Repr

/-- A day and a time of day, in no particular time zone. -/
structure DateTime where
  date : Date
  time : TimeOfDay
  deriving DecidableEq, Repr

/-- A local date and time, with the seconds by which the local clock is ahead
of universal time. -/
structure ZonedDateTime where
  clock : DateTime
  offset : Int
  deriving DecidableEq, Repr

namespace Date

/-- Years from 0 to 9999 have four digits, all others a sign and at least four. -/
def yearText (year : Int) : List Char :=
  let digits := padded 4 year.natAbs
  if year < 0 then '-' :: digits
  else if 9999 < year then '+' :: digits
  else digits

/-- Year, month and day. -/
def text (date : Date) : List Char :=
  yearText date.year ++ ['-'] ++ padded 2 date.month ++ ['-'] ++ padded 2 date.day

/-- The days from 1 March of the year 0 to a date.  Counting years from March
puts the leap day at the end of a year. -/
def dayNumber (date : Date) : Int :=
  let year := if date.month ≤ 2 then date.year - 1 else date.year
  let month : Int := (date.month + 9) % 12
  365 * year + year.fdiv 4 - year.fdiv 100 + year.fdiv 400 + (153 * month + 2) / 5 + date.day - 1

/-- Earlier dates come first. -/
def compare (left right : Date) : Ordering :=
  (Ord.compare left.year right.year).then
    ((Ord.compare left.month right.month).then (Ord.compare left.day right.day))

end Date

namespace TimeOfDay

/-- The nanoseconds within the second that is printed. -/
def fraction (time : TimeOfDay) : Nat :=
  time.nanosecond % 1000000000

/-- The second that is printed: one later in a leap second. -/
def printedSecond (time : TimeOfDay) : Nat :=
  time.second + time.nanosecond / 1000000000

/-- The fraction with its point, in three, six or nine digits. -/
def fractionText (nanoseconds : Nat) : List Char :=
  if nanoseconds = 0 then []
  else if nanoseconds % 1000000 = 0 then '.' :: padded 3 (nanoseconds / 1000000)
  else if nanoseconds % 1000 = 0 then '.' :: padded 6 (nanoseconds / 1000)
  else '.' :: padded 9 nanoseconds

/-- Hours, minutes, seconds and the fraction. -/
def text (time : TimeOfDay) : List Char :=
  padded 2 time.hour ++ [':'] ++ padded 2 time.minute ++ [':'] ++
    padded 2 time.printedSecond ++ fractionText time.fraction

/-- The seconds since midnight, a leap second not counted. -/
def secondOfDay (time : TimeOfDay) : Nat :=
  3600 * time.hour + 60 * time.minute + time.second

/-- Earlier times come first; a leap second follows the second it extends. -/
def compare (left right : TimeOfDay) : Ordering :=
  (Ord.compare left.secondOfDay right.secondOfDay).then
    (Ord.compare left.nanosecond right.nanosecond)

end TimeOfDay

namespace DateTime

/-- Date and time with a separator between them. -/
def text (separator : Char) (value : DateTime) : List Char :=
  value.date.text ++ [separator] ++ value.time.text

/-- By date, then by time. -/
def compare (left right : DateTime) : Ordering :=
  (left.date.compare right.date).then (left.time.compare right.time)

end DateTime

namespace ZonedDateTime

/-- The offset as hours and minutes, rounded to the nearest minute, half a
minute away from zero.  An offset that rounds to zero keeps its sign. -/
def offsetText (offset : Int) : List Char :=
  let minutes := (offset.natAbs + 30) / 60
  (if offset < 0 then '-' else '+') :: padded 2 (minutes / 60) ++ [':'] ++ padded 2 (minutes % 60)

/-- The local date and time followed by the offset. -/
def text (value : ZonedDateTime) : List Char :=
  value.clock.text 'T' ++ offsetText value.offset

/-- The moment in universal time, in seconds, and the nanoseconds after it. -/
def instant (value : ZonedDateTime) : Int × Nat :=
  (86400 * value.clock.date.dayNumber + value.clock.time.secondOfDay - value.offset,
    value.clock.time.nanosecond)

/-- By the moment, whatever the offsets are. -/
def compare (left right : ZonedDateTime) : Ordering :=
  (Ord.compare left.instant.1 right.instant.1).then
    (Ord.compare left.instant.2 right.instant.2)

/-- Whether two values are the same moment. -/
def sameInstant (left right : ZonedDateTime) : Bool :=
  left.instant == right.instant

end ZonedDateTime
end HtmlTemplate
