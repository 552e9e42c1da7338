import TickStream.Python.Float

/-!
# Python datetimes

An aware UTC datetime is its distance from the Unix epoch in microseconds.
`fromisoformat` follows the parser of CPython 3.11, quirks included: it reads
one character past the end of a part, and an absent character is NUL.
-/

namespace TickStream.Python

/-- An aware UTC datetime, in microseconds since the Unix epoch. -/
abbrev Instant := Int

def microsPerSecond : Int := 1000000

theorem microsPerSecond_pos : 0 < microsPerSecond := by decide

theorem microsPerSecond_ne_zero : microsPerSecond ≠ 0 :=
  microsPerSecond_pos.ne'

/-- A width in seconds is a width in microseconds. -/
theorem micros_width_pos {secs : Nat} (positive : 0 < secs) :
    0 < (secs : Int) * microsPerSecond := by
  apply Int.mul_pos _ microsPerSecond_pos
  exact Int.natCast_pos.mpr positive

/-- 0001-01-01T00:00:00Z and 9999-12-31T23:59:59.999999Z. -/
def minInstant : Instant := -62135596800000000
def maxInstant : Instant := 253402300799999999

def inDatetimeRange (micros : Int) : Bool :=
  minInstant ≤ micros && micros ≤ maxInstant

def isLeap (year : Int) : Bool :=
  year % 4 = 0 && (year % 100 ≠ 0 || year % 400 = 0)

def daysInMonth (year : Int) (month : Nat) : Nat :=
  match month with
  | 2 => if isLeap year then 29 else 28
  | 4 | 6 | 9 | 11 => 30
  | _ => 31

/-- Days before 1 January of `year`, counted from 0001-01-01. -/
def daysBeforeYear (year : Int) : Int :=
  let previous := year - 1
  previous * 365 + previous / 4 - previous / 100 + previous / 400

def daysBeforeMonth (year : Int) (month : Nat) : Int :=
  ((List.range (month - 1)).map
    (fun index => (daysInMonth year (index + 1) : Int))).sum

/-- Days of 1970-01-01 from 0001-01-01. -/
def epochDay : Int := 719162

/-- Days since the epoch of a calendar date. -/
def dayNumber (year : Int) (month day : Nat) : Int :=
  daysBeforeYear year + daysBeforeMonth year month + (day - 1) - epochDay

/-- The year a day belongs to, by the 400-year cycle that starts in March. -/
def yearOfDay (day : Int) : Int :=
  let shifted := day + 719468
  let era := shifted / 146097
  let dayOfEra := shifted % 146097
  let yearOfEra :=
    (dayOfEra - dayOfEra / 1460 + dayOfEra / 36524 - dayOfEra / 146096) / 365
  let dayOfYear :=
    dayOfEra - (365 * yearOfEra + yearOfEra / 4 - yearOfEra / 100)
  -- January and February are the last two months of a cycle year.
  yearOfEra + era * 400 + if 306 ≤ dayOfYear then 1 else 0

/-- Day of the week of 1 January, Monday being 0. -/
def firstWeekday (year : Int) : Int := daysBeforeYear year % 7

/-- Monday of ISO week 1, counted from 0001-01-01. -/
def isoWeekOneMonday (year : Int) : Int :=
  let firstDay := daysBeforeYear year
  let weekday := firstWeekday year
  let monday := firstDay - weekday
  if 3 < weekday then monday + 7 else monday

/-- A parsed datetime: local microseconds since the epoch, and the offset from
UTC in microseconds if the text gave one. -/
structure LocalTime where
  micros : Int
  offset : Option Int
deriving DecidableEq, Repr

def nul : Char := Char.ofNat 0

def charAt (text : List Char) (index : Nat) : Char := text.getD index nul

/-- Size in UTF-8, which is what the parser measures parts in. -/
def utf8Length (text : List Char) : Nat := (text.map Char.utf8Size).sum

/-- A number of exactly `width` ASCII digits, and the text after it. -/
def fixedDigits (width : Nat) (text : List Char) : Option (Nat × List Char) :=
  let digits := text.take width
  if digits.length = width && digits.all Char.isDigit then
    some (readDigits digits, text.drop width)
  else none

/-- Where the date ends, in a text of UTF-8 size `length`. -/
def dateLength (text : List Char) (length : Nat) : Option Nat :=
  if length = 7 then some 7
  else if 7 < length && charAt text 4 = '-' then
    if charAt text 5 = 'W' then
      if 8 < length && charAt text 8 = '-' then
        if length = 9 then none
        else if 10 < length && (charAt text 10).isDigit then some 8
        else some 10
      else some 8
    else some 10
  else if charAt text 4 = 'W' then
    let position :=
      7 + ((text.drop 7).takeWhile Char.isDigit).length
    if position < 9 then some position
    else if position % 2 = 0 then some 7
    else some 8
  else some 8

/-- Calendar fields of a date, still unchecked, or the day of an ISO week. -/
inductive DateFields where
  | calendar (year month day : Nat)
  | day (number : Int)

/-- Day of an ISO week, since the epoch. -/
def isoWeekDay (year week day : Nat) : Option Int :=
  let longYear :=
    firstWeekday year = 3 || (firstWeekday year = 2 && isLeap year)
  if year < 1 || 9999 < year then none
  else if week = 0 || 53 < week || (week = 53 && !longYear) then none
  else if day = 0 || 7 < day then none
  else
    some (isoWeekOneMonday year + ((week - 1) * 7 + (day - 1) : Int) - epochDay)

def readDate (text : List Char) : Option DateFields := do
  let (year, afterYear) ← fixedDigits 4 text
  let separated := charAt afterYear 0 = '-'
  let rest := if separated then afterYear.drop 1 else afterYear
  if charAt rest 0 = 'W' then
    let (week, afterWeek) ← fixedDigits 2 (rest.drop 1)
    if afterWeek.isEmpty then
      DateFields.day <$> isoWeekDay year week 1
    else if separated && charAt afterWeek 0 ≠ '-' then none
    else
      let (day, _) ←
        fixedDigits 1 (if separated then afterWeek.drop 1 else afterWeek)
      DateFields.day <$> isoWeekDay year week day
  else
    let (month, afterMonth) ← fixedDigits 2 rest
    if separated && charAt afterMonth 0 ≠ '-' then none
    else
      let (day, afterDay) ←
        fixedDigits 2 (if separated then afterMonth.drop 1 else afterMonth)
      if afterDay.isEmpty then some (.calendar year month day) else none

/-- `HH[:MM[:SS[.ffffff]]]` as read so far, and whether a character other than
NUL follows. -/
structure ClockFields where
  hour : Nat
  minute : Nat
  second : Nat
  micros : Nat
  trailing : Bool

/-- A fraction of a second: at most six digits count. -/
def readFraction (text : List Char) (remaining : Nat) : Option (Nat × Bool) := do
  let width := min remaining 6
  let (digits, rest) ← fixedDigits width text
  if width = 0 then none
  else
    let afterDigits := rest.dropWhile Char.isDigit
    some (digits * 10 ^ (6 - width), charAt afterDigits 0 ≠ nul)

/-- Read hours, minutes, seconds and a fraction from the first `remaining`
bytes of `text`. -/
def readClock (text : List Char) (remaining : Nat) : Option ClockFields := do
  let (hour, afterHour) ← fixedDigits 2 text
  let hourMark := charAt afterHour 0
  if remaining ≤ 3 then return ⟨hour, 0, 0, 0, hourMark ≠ nul⟩
  if hourMark = '.' || hourMark = ',' then
    let (micros, trailing) ← readFraction (afterHour.drop 1) (remaining - 3)
    return ⟨hour, 0, 0, micros, trailing⟩
  let separated := hourMark = ':'
  let skip := if separated then 1 else 0
  let (minute, afterMinute) ← fixedDigits 2 (afterHour.drop skip)
  let minuteMark := charAt afterMinute 0
  let remaining := remaining - 2 - skip
  if remaining ≤ 3 then return ⟨hour, minute, 0, 0, minuteMark ≠ nul⟩
  if !(separated && minuteMark = ':') &&
      (minuteMark = '.' || minuteMark = ',') then
    let (micros, trailing) ← readFraction (afterMinute.drop 1) (remaining - 3)
    return ⟨hour, minute, 0, micros, trailing⟩
  if separated && minuteMark ≠ ':' then none
  let (second, afterSecond) ← fixedDigits 2 (afterMinute.drop skip)
  let secondMark := charAt afterSecond 0
  let remaining := remaining - 2 - skip
  if remaining ≤ 3 then return ⟨hour, minute, second, 0, secondMark ≠ nul⟩
  if separated && secondMark = ':' then
    let (micros, trailing) ← readFraction (afterSecond.drop 1) (remaining - 3)
    return ⟨hour, minute, second, micros, trailing⟩
  if secondMark = '.' || secondMark = ',' then
    let (micros, trailing) ← readFraction (afterSecond.drop 1) (remaining - 3)
    return ⟨hour, minute, second, micros, trailing⟩
  if separated then none
  let (micros, trailing) ← readFraction afterSecond (remaining - 2)
  return ⟨hour, minute, second, micros, trailing⟩

def isZoneMark (char : Char) : Bool := char = '+' || char = '-' || char = 'Z'

/-- Time of day and offset, both unchecked. -/
def readTime (text : List Char) : Option (ClockFields × Option Int) := do
  let zonePosition := (text.takeWhile (fun char => !isZoneMark char)).length
  let zonePosition := if text.isEmpty then 1 else zonePosition
  let clock ← readClock text (utf8Length (text.take zonePosition))
  if text.length ≤ zonePosition then
    if clock.trailing then none else some (clock, none)
  else
    let mark := charAt text zonePosition
    let zone := text.drop (zonePosition + 1)
    if mark = 'Z' then
      if charAt zone 0 = nul then some (clock, some 0) else none
    else
      let offset ← readClock zone (utf8Length zone)
      if offset.trailing then none
      else
        let seconds : Int :=
          offset.hour * 3600 + offset.minute * 60 + offset.second
        -- An offset of whole seconds zero is UTC whatever its fraction.
        let micros :=
          if seconds = 0 then 0 else seconds * microsPerSecond + offset.micros
        some (clock, some (if mark = '-' then -micros else micros))

def microsPerDay : Int := 86400000000

/-- `repr` of a nonzero duration. -/
def reprTimedelta (micros : Int) : String :=
  let parts :=
    [("days=", micros / microsPerDay),
      ("seconds=", micros % microsPerDay / microsPerSecond),
      ("microseconds=", micros % microsPerSecond)]
  let shown := (parts.filter (fun part => part.2 ≠ 0)).map
    (fun part => part.1 ++ toString part.2)
  "datetime.timedelta(" ++ ", ".intercalate shown ++ ")"

def invalidIso (text : String) : Result LocalTime :=
  raise .valueError ("Invalid isoformat string: " ++ reprStr text)

/-- The day of a date, with the range checks of the constructor. -/
def dayOfDate : DateFields → Result Int
  | .calendar year month day =>
      if year < 1 || 9999 < year then
        raise .valueError ("year " ++ toString year ++ " is out of range")
      else if month < 1 || 12 < month then
        raise .valueError "month must be in 1..12"
      else if day < 1 || daysInMonth year month < day then
        raise .valueError "day is out of range for month"
      else .ok (dayNumber year month day)
  | .day number =>
      if inDatetimeRange (number * microsPerDay) then .ok number
      else
        raise .valueError
          ("year " ++ toString (yearOfDay number) ++ " is out of range")

/-- Microseconds of a time of day, with the range checks of the
constructor. -/
def microsOfClock (clock : ClockFields) : Result Int :=
  if 23 < clock.hour then raise .valueError "hour must be in 0..23"
  else if 59 < clock.minute then raise .valueError "minute must be in 0..59"
  else if 59 < clock.second then raise .valueError "second must be in 0..59"
  else
    .ok ((clock.hour * 3600 + clock.minute * 60 + clock.second) *
      microsPerSecond + clock.micros)

def buildLocalTime (date : DateFields) (clock : ClockFields)
    (offset : Option Int) : Result LocalTime := do
  let day ← dayOfDate date
  let micros ← microsOfClock clock
  return ⟨day * microsPerDay + micros, offset⟩

/-- `datetime.fromisoformat(text)`. -/
def fromIsoFormat (text : String) : Result LocalTime :=
  let chars := text.toList
  let length := utf8Length chars
  match dateLength chars length with
  | none => invalidIso text
  | some dateEnd =>
      match readDate (chars.take dateEnd) with
      | none => invalidIso text
      | some date =>
          if length ≤ dateEnd then
            buildLocalTime date ⟨0, 0, 0, 0, false⟩ none
          else
            match readTime (chars.drop (dateEnd + 1)) with
            | none => invalidIso text
            | some (clock, offset) =>
                match offset with
                | none => buildLocalTime date clock none
                | some micros =>
                    if micros.natAbs < microsPerDay.natAbs then
                      buildLocalTime date clock (some micros)
                    else
                      raise .valueError
                        ("offset must be a timedelta strictly between -timedelta(hours=24) and timedelta(hours=24), not " ++
                          reprTimedelta micros ++ ".")

/-- `dt.astimezone(UTC)`, with a naive `dt` taken to be in UTC already. -/
def LocalTime.toUtc (time : LocalTime) : Result Instant :=
  match time.offset with
  | none => .ok time.micros
  | some offset =>
      let micros := time.micros - offset
      if inDatetimeRange micros then .ok micros
      else raise .overflowError "date value out of range"

/-- Seconds `gmtime` can break down with a 32-bit year. -/
def gmtimeMin : Int := -67768040609740800
def gmtimeMax : Int := 67768036191676799

/-- Whole seconds and microseconds of a finite timestamp, rounded half to
even. -/
def splitTimestamp (value : Rat) : Int × Int :=
  let whole := truncate value
  let fraction :=
    match roundToDouble ((value - whole) * 1000000) with
    | .fin scaled => roundHalfEven scaled
    | _ => 0
  if microsPerSecond ≤ fraction then (whole + 1, fraction - microsPerSecond)
  else if fraction < 0 then (whole - 1, fraction + microsPerSecond)
  else (whole, fraction)

/-- `datetime.fromtimestamp(value, tz=UTC)`. -/
def fromTimestamp : PyFloat → Result Instant
  | .nan => raise .valueError "cannot convert float NaN to integer"
  | .inf _ => raise .overflowError "cannot convert float infinity to integer"
  | .fin value =>
      let (seconds, micros) := splitTimestamp value
      if seconds < -(2 ^ 63) || 2 ^ 63 ≤ seconds then
        raise .overflowError "timestamp out of range for platform time_t"
      else if seconds < gmtimeMin || gmtimeMax < seconds then
        raise .osError "[Errno 75] Value too large for defined data type"
      else if !inDatetimeRange (seconds * microsPerSecond + micros) then
        raise .valueError
          ("year " ++ toString (yearOfDay (seconds / 86400)) ++
            " is out of range")
      else .ok (seconds * microsPerSecond + micros)

/-- Division of a float by 1000. -/
def millisToSeconds : PyFloat → PyFloat
  | .fin value => roundToDouble (value / 1000)
  | other => other

end TickStream.Python
