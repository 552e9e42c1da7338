import Mathlib.Data.List.TakeWhile
import TickStream.Python.Calendar

/-!
# What `fromisoformat` reads

The parser on a text in the extended format: a calendar date, `T`, a time of
day in whole seconds or with a fraction, and an offset in hours and minutes.
-/

namespace TickStream.Python

/-- A field of `width` ASCII digits. -/
structure Digits (width : Nat) where
  chars : List Char
  length_eq : chars.length = width
  isDigit : ∀ char ∈ chars, char.isDigit = true

def Digits.value {width : Nat} (field : Digits width) : Nat :=
  readDigits field.chars

theorem isDigit_bounds {char : Char} (digit : char.isDigit = true) :
    48 ≤ char.toNat ∧ char.toNat ≤ 57 := by
  simp only [Char.isDigit, Bool.and_eq_true, decide_eq_true_eq] at digit
  exact digit

/-- A character outside the ASCII digits is no digit of a field. -/
theorem ne_of_isDigit {char other : Char} (digit : char.isDigit = true)
    (outside : other.isDigit = false) : char ≠ other := by
  intro same
  rw [same, outside] at digit
  cases digit

theorem utf8Size_of_isDigit {char : Char} (digit : char.isDigit = true) :
    char.utf8Size = 1 := by
  have bounds := isDigit_bounds digit
  rw [Char.utf8Size_eq_one_iff, UInt32.le_iff_toNat_le]
  exact bounds.2.trans (by decide)

theorem readDigits_lt {digits : List Char}
    (allDigits : ∀ char ∈ digits, char.isDigit = true) :
    readDigits digits < 10 ^ digits.length := by
  induction digits using List.reverseRecOn with
  | nil => simp [readDigits]
  | append_singleton digits char induction =>
      have early := induction (fun other member =>
        allDigits other (List.mem_append_left _ member))
      have last := isDigit_bounds (allDigits char
        (List.mem_append_right _ (List.mem_singleton_self char)))
      have value : readDigits [char] = char.toNat - 48 := by
        simp [readDigits]
      rw [readDigits_append, value, List.length_append, List.length_singleton,
        pow_one, pow_succ]
      omega

theorem Digits.value_lt {width : Nat} (field : Digits width) :
    field.value < 10 ^ width := by
  have small := readDigits_lt field.isDigit
  rwa [field.length_eq] at small

def Digits.ofNat (width number : Nat) : Digits width :=
  ⟨paddedDigits width number, paddedDigits_length width number,
    paddedDigits_digits width number⟩

theorem Digits.value_ofNat {width number : Nat}
    (small : number < 10 ^ width) :
    (Digits.ofNat width number).value = number :=
  readDigits_paddedDigits small

theorem fixedDigits_append {width : Nat} (field : Digits width)
    (rest : List Char) :
    fixedDigits width (field.chars ++ rest) = some (field.value, rest) := by
  have taken : (field.chars ++ rest).take width = field.chars := by
    exact List.take_left' field.length_eq
  have dropped : (field.chars ++ rest).drop width = rest := by
    exact List.drop_left' field.length_eq
  have digits : field.chars.all Char.isDigit = true :=
    List.all_eq_true.mpr field.isDigit
  simp [fixedDigits, taken, dropped, field.length_eq, digits, Digits.value]

theorem charAt_append (left right : List Char) (index : Nat) :
    charAt (left ++ right) (left.length + index) = charAt right index := by
  simp [charAt, List.getElem?_append_right]

@[simp] theorem charAt_cons_zero (char : Char) (rest : List Char) :
    charAt (char :: rest) 0 = char := rfl

theorem charAt_field {width : Nat} (field : Digits width) (rest : List Char)
    (index : Nat) :
    charAt (field.chars ++ rest) (width + index) = charAt rest index := by
  have known := charAt_append field.chars rest index
  rwa [field.length_eq] at known

theorem isDigit_charAt {width : Nat} (field : Digits (width + 1))
    (rest : List Char) : (charAt (field.chars ++ rest) 0).isDigit = true := by
  obtain ⟨chars, length, digits⟩ := field
  cases chars with
  | nil => cases length
  | cons first others => exact digits first List.mem_cons_self

section Time

variable (hour minute second : Digits 2)

/-- Hours and minutes alone, as in an offset. -/
private theorem readClock_zone :
    readClock (hour.chars ++ ':' :: minute.chars) 5 =
      some ⟨hour.value, minute.value, 0, 0, false⟩ := by
  have minutes := fixedDigits_append minute []
  rw [List.append_nil] at minutes
  simp [readClock, fixedDigits_append, minutes, charAt, nul]

private theorem readClock_seconds (rest : List Char) :
    readClock (hour.chars ++ ':' ::
        (minute.chars ++ ':' :: (second.chars ++ rest))) 8 =
      some ⟨hour.value, minute.value, second.value, 0,
        charAt rest 0 ≠ nul⟩ := by
  simp [readClock, fixedDigits_append]

private theorem readFraction_append {width : Nat} (fraction : Digits width)
    (nonempty : 1 ≤ width) (short : width ≤ 6) (rest : List Char) :
    readFraction (fraction.chars ++ rest) width =
      some (fraction.value * 10 ^ (6 - width),
        decide (charAt (rest.dropWhile Char.isDigit) 0 ≠ nul)) := by
  have positive : width ≠ 0 := by omega
  simp [readFraction, min_eq_left short, fixedDigits_append, positive]

private theorem readClock_fraction {width : Nat} (fraction : Digits width)
    (nonempty : 1 ≤ width) (short : width ≤ 6) (rest : List Char) :
    readClock (hour.chars ++ ':' :: (minute.chars ++ ':' ::
        (second.chars ++ '.' :: (fraction.chars ++ rest)))) (9 + width) =
      some ⟨hour.value, minute.value, second.value,
        fraction.value * 10 ^ (6 - width),
        charAt (rest.dropWhile Char.isDigit) 0 ≠ nul⟩ := by
  have enough : ¬ 9 + width ≤ 3 := by omega
  have enoughSeconds : ¬ 9 + width ≤ 6 := by omega
  have positive : width ≠ 0 := by omega
  have left : 9 + width - 2 - 1 - 2 - 1 - 3 = width := by omega
  have read := readFraction_append fraction nonempty short rest
  simp [readClock, fixedDigits_append, enough, enoughSeconds, positive, left,
    read]

/-- A time of day in text, with a fraction if `places` is not 0. -/
structure ClockText where
  hour : Digits 2
  minute : Digits 2
  second : Digits 2
  places : Nat
  fraction : Digits places

namespace ClockText

variable (clock : ClockText)

def fractionChars : List Char :=
  if clock.places = 0 then [] else '.' :: clock.fraction.chars

def chars : List Char :=
  clock.hour.chars ++ ':' :: (clock.minute.chars ++ ':' ::
    (clock.second.chars ++ clock.fractionChars))

/-- Microseconds in a fraction of at most six digits. -/
def micros : Nat := clock.fraction.value * 10 ^ (6 - clock.places)

theorem length_eq :
    clock.chars.length = if clock.places = 0 then 8 else 9 + clock.places := by
  simp only [chars, fractionChars, List.length_append, List.length_cons,
    clock.hour.length_eq, clock.minute.length_eq, clock.second.length_eq]
  split_ifs
  · rfl
  · rw [List.length_cons, clock.fraction.length_eq]
    omega

theorem value_of_no_places (none : clock.places = 0) :
    clock.fraction.value = 0 := by
  have small := clock.fraction.value_lt
  have one : 10 ^ clock.places = 1 := by rw [none, pow_zero]
  rw [one] at small
  omega

/-- The fields are read, whatever follows. -/
theorem readClock_chars (short : clock.places ≤ 6) (rest : List Char) :
    ∃ trailing, readClock (clock.chars ++ rest) clock.chars.length =
        some ⟨clock.hour.value, clock.minute.value, clock.second.value,
          clock.micros, trailing⟩ ∧
      (rest = [] → trailing = false) := by
  rw [length_eq]
  by_cases none : clock.places = 0
  · have zero := clock.value_of_no_places none
    have shape : clock.chars ++ rest =
        clock.hour.chars ++ ':' :: (clock.minute.chars ++ ':' ::
          (clock.second.chars ++ rest)) := by
      simp [chars, fractionChars, none]
    rw [if_pos none, shape, readClock_seconds]
    refine ⟨_, by rw [micros, zero, zero_mul], ?_⟩
    intro empty
    rw [empty]
    rfl
  · have shape : clock.chars ++ rest =
        clock.hour.chars ++ ':' :: (clock.minute.chars ++ ':' ::
          (clock.second.chars ++ '.' :: (clock.fraction.chars ++ rest))) := by
      simp [chars, fractionChars, none]
    rw [if_neg none, shape, readClock_fraction _ _ _ clock.fraction
      (Nat.pos_of_ne_zero none) short]
    refine ⟨_, rfl, ?_⟩
    intro empty
    rw [empty]
    rfl

theorem mem_chars {char : Char} (member : char ∈ clock.chars) :
    char.isDigit = true ∨ char = ':' ∨ char = '.' := by
  have point : char ∈ clock.fractionChars →
      char.isDigit = true ∨ char = '.' := by
    intro inFraction
    simp only [fractionChars] at inFraction
    split_ifs at inFraction
    · cases inFraction
    · rcases List.mem_cons.mp inFraction with dot | digit
      · exact Or.inr dot
      · exact Or.inl (clock.fraction.isDigit char digit)
  simp only [chars, List.mem_append, List.mem_cons] at member
  rcases member with hour | colon | minute | colon | second | fraction
  · exact Or.inl (clock.hour.isDigit char hour)
  · exact Or.inr (Or.inl colon)
  · exact Or.inl (clock.minute.isDigit char minute)
  · exact Or.inr (Or.inl colon)
  · exact Or.inl (clock.second.isDigit char second)
  · rcases point fraction with digit | dot
    · exact Or.inl digit
    · exact Or.inr (Or.inr dot)

theorem chars_ne_nil : clock.chars ≠ [] := by
  intro empty
  have length := clock.length_eq
  rw [empty, List.length_nil] at length
  split_ifs at length
  omega

theorem not_zoneMark {char : Char} (member : char ∈ clock.chars) :
    (!isZoneMark char) = true := by
  rcases clock.mem_chars member with digit | rfl | rfl
  · have plus := ne_of_isDigit digit (rfl : '+'.isDigit = false)
    have minus := ne_of_isDigit digit (rfl : '-'.isDigit = false)
    have zulu := ne_of_isDigit digit (rfl : 'Z'.isDigit = false)
    simp [isZoneMark, plus, minus, zulu]
  · rfl
  · rfl

end ClockText

theorem utf8Length_eq_length {text : List Char}
    (ascii : ∀ char ∈ text, char.utf8Size = 1) :
    utf8Length text = text.length := by
  induction text with
  | nil => rfl
  | cons char rest induction =>
      have one := ascii char List.mem_cons_self
      have others := induction (fun other member =>
        ascii other (List.mem_cons_of_mem _ member))
      simp only [utf8Length, List.map_cons, List.sum_cons, one] at others ⊢
      rw [others, List.length_cons, Nat.add_comm]

theorem ClockText.utf8Size_of_mem (clock : ClockText) {char : Char}
    (member : char ∈ clock.chars) : char.utf8Size = 1 := by
  rcases clock.mem_chars member with digit | rfl | rfl
  · exact utf8Size_of_isDigit digit
  · rfl
  · rfl

theorem ClockText.utf8Length_chars (clock : ClockText) :
    utf8Length clock.chars = clock.chars.length :=
  utf8Length_eq_length (fun _ member => clock.utf8Size_of_mem member)

/-- A time of day without an offset. -/
private theorem readTime_clock {clock : ClockText} (short : clock.places ≤ 6) :
    readTime clock.chars =
      some (⟨clock.hour.value, clock.minute.value, clock.second.value,
        clock.micros, false⟩, none) := by
  obtain ⟨trailing, read, ended⟩ := clock.readClock_chars short []
  have same := ended rfl
  subst same
  rw [List.append_nil] at read
  have whole : clock.chars.takeWhile (fun char => !isZoneMark char) =
      clock.chars := by
    apply List.takeWhile_eq_self_iff.mpr
    intro char member
    exact clock.not_zoneMark member
  have nonempty : clock.chars.isEmpty = false :=
    List.isEmpty_eq_false_iff.mpr clock.chars_ne_nil
  simp [readTime, whole, nonempty, clock.utf8Length_chars, read]

/-- An offset in text. -/
structure OffsetText where
  behind : Bool
  hours : Digits 2
  minutes : Digits 2

namespace OffsetText

variable (offset : OffsetText)

def mark : Char := if offset.behind then '-' else '+'

def chars : List Char :=
  offset.mark :: (offset.hours.chars ++ ':' :: offset.minutes.chars)

theorem mem_chars {char : Char} (member : char ∈ offset.chars) :
    char.isDigit = true ∨ char = ':' ∨ char = '+' ∨ char = '-' := by
  simp only [chars, List.mem_cons, List.mem_append] at member
  rcases member with mark | hours | colon | minutes
  · cases behind : offset.behind <;> simp [mark, OffsetText.mark, behind]
  · exact Or.inl (offset.hours.isDigit char hours)
  · exact Or.inr (Or.inl colon)
  · exact Or.inl (offset.minutes.isDigit char minutes)

theorem utf8Size_of_mem {char : Char} (member : char ∈ offset.chars) :
    char.utf8Size = 1 := by
  rcases offset.mem_chars member with digit | rfl | rfl | rfl
  · exact utf8Size_of_isDigit digit
  · rfl
  · rfl
  · rfl

def micros : Int :=
  let size : Int :=
    (offset.hours.value * 3600 + offset.minutes.value * 60) * microsPerSecond
  if offset.behind then -size else size

end OffsetText

/-- A time of day with an offset. -/
private theorem readTime_offset {clock : ClockText} (short : clock.places ≤ 6)
    (offset : OffsetText) :
    ∃ trailing, readTime (clock.chars ++ offset.chars) =
      some (⟨clock.hour.value, clock.minute.value, clock.second.value,
        clock.micros, trailing⟩, some offset.micros) := by
  obtain ⟨trailing, read, _⟩ := clock.readClock_chars short offset.chars
  refine ⟨trailing, ?_⟩
  have isMark : (!isZoneMark offset.mark) = false := by
    cases behind : offset.behind <;> simp [OffsetText.mark, behind, isZoneMark]
  have whole : (clock.chars ++ offset.chars).takeWhile
      (fun char => !isZoneMark char) = clock.chars := by
    rw [List.takeWhile_append_of_pos
      (fun char member => clock.not_zoneMark member)]
    simp [OffsetText.chars, isMark]
  have nonempty : (clock.chars ++ offset.chars).isEmpty = false := by
    apply List.isEmpty_eq_false_iff.mpr
    simp [clock.chars_ne_nil]
  have found : charAt (clock.chars ++ offset.chars) clock.chars.length =
      offset.mark := charAt_append clock.chars offset.chars 0
  have zone : (clock.chars ++ offset.chars).drop (clock.chars.length + 1) =
      offset.hours.chars ++ ':' :: offset.minutes.chars := by
    simp [OffsetText.chars]
  have zoneLength :
      utf8Length (offset.hours.chars ++ ':' :: offset.minutes.chars) = 5 := by
    rw [utf8Length_eq_length]
    · simp [offset.hours.length_eq, offset.minutes.length_eq]
    · intro char member
      exact offset.utf8Size_of_mem (List.mem_cons_of_mem _ member)
  have readZone := readClock_zone offset.hours offset.minutes
  have notWhole : ¬ (clock.chars ++ offset.chars).length ≤
      clock.chars.length := by
    simp [OffsetText.chars]
  have notZulu : offset.mark ≠ 'Z' := by
    cases behind : offset.behind <;> simp [OffsetText.mark, behind]
  simp only [readTime, whole, nonempty, Bool.false_eq_true, if_false,
    List.take_left, clock.utf8Length_chars, read, if_neg notWhole, found,
    if_neg notZulu, zone, zoneLength, readZone, Option.bind_eq_bind,
    Option.bind_some]
  have size : ∀ seconds : Int,
      (if seconds + ((0 : Nat) : Int) = 0 then 0
        else (seconds + ((0 : Nat) : Int)) * microsPerSecond +
          ((0 : Nat) : Int)) = seconds * microsPerSecond := by
    intro seconds
    split_ifs with zero
    · rw [Int.natCast_zero, add_zero] at zero
      rw [zero, zero_mul]
    · simp
  rw [size]
  cases behind : offset.behind <;>
    simp [OffsetText.mark, OffsetText.micros, behind]

end Time

/-- A calendar date in text. -/
structure DateText where
  year : Digits 4
  month : Digits 2
  day : Digits 2

namespace DateText

variable (date : DateText)

def chars : List Char :=
  date.year.chars ++ '-' :: (date.month.chars ++ '-' :: date.day.chars)

theorem length_eq : date.chars.length = 10 := by
  simp [chars, date.year.length_eq, date.month.length_eq, date.day.length_eq]

theorem mem_chars {char : Char} (member : char ∈ date.chars) :
    char.isDigit = true ∨ char = '-' := by
  simp only [chars, List.mem_append, List.mem_cons] at member
  rcases member with year | dash | month | dash | day
  · exact Or.inl (date.year.isDigit char year)
  · exact Or.inr dash
  · exact Or.inl (date.month.isDigit char month)
  · exact Or.inr dash
  · exact Or.inl (date.day.isDigit char day)

theorem utf8Size_of_mem {char : Char} (member : char ∈ date.chars) :
    char.utf8Size = 1 := by
  rcases date.mem_chars member with digit | rfl
  · exact utf8Size_of_isDigit digit
  · rfl

private theorem readDate_chars :
    readDate date.chars =
      some (.calendar date.year.value date.month.value date.day.value) := by
  have days := fixedDigits_append date.day []
  rw [List.append_nil] at days
  have month : charAt (date.month.chars ++ '-' :: date.day.chars) 0 ≠ 'W' :=
    ne_of_isDigit (isDigit_charAt date.month _) rfl
  simp [readDate, chars, fixedDigits_append, days, month]

private theorem dateLength_chars (rest : List Char) {length : Nat}
    (long : 10 < length) :
    dateLength (date.chars ++ rest) length = some 10 := by
  have shape : date.chars ++ rest = date.year.chars ++
      ('-' :: (date.month.chars ++ ('-' :: date.day.chars ++ rest))) := by
    simp [chars]
  have dash : charAt (date.chars ++ rest) 4 = '-' := by
    rw [shape]
    exact charAt_field date.year _ 0
  have month : charAt (date.chars ++ rest) 5 ≠ 'W' := by
    rw [shape]
    have found := charAt_field date.year
      ('-' :: (date.month.chars ++ ('-' :: date.day.chars ++ rest))) 1
    rw [found]
    exact ne_of_isDigit (isDigit_charAt date.month _) rfl
  have notWeek : length ≠ 7 := by omega
  have longer : 7 < length := by omega
  simp [dateLength, notWeek, longer, dash, month]

end DateText

/-- A text of a date and a time of day is read field by field. -/
private theorem fromIsoFormat_of_readTime (date : DateText) (time : List Char)
    {clock : ClockFields} {offset : Option Int}
    (ascii : ∀ char ∈ time, char.utf8Size = 1)
    (read : readTime time = some (clock, offset))
    (small : ∀ micros, offset = some micros →
      micros.natAbs < microsPerDay.natAbs) :
    fromIsoFormat (String.ofList (date.chars ++ 'T' :: time)) =
      buildLocalTime
        (.calendar date.year.value date.month.value date.day.value) clock
        offset := by
  have length : utf8Length (date.chars ++ 'T' :: time) = 11 + time.length := by
    rw [utf8Length_eq_length]
    · rw [List.length_append, date.length_eq, List.length_cons]
      omega
    · intro char member
      rcases List.mem_append.mp member with inDate | inTime
      · exact date.utf8Size_of_mem inDate
      · rcases List.mem_cons.mp inTime with rfl | inTime
        · rfl
        · exact ascii char inTime
  have taken : (date.chars ++ 'T' :: time).take 10 = date.chars :=
    List.take_left' date.length_eq
  have dropped : (date.chars ++ 'T' :: time).drop (10 + 1) = time := by
    rw [← List.drop_drop, List.drop_left' date.length_eq]
    rfl
  have long : ¬ 11 + time.length ≤ 10 := by omega
  simp only [fromIsoFormat, String.toList_ofList, length,
    date.dateLength_chars _ (by omega : 10 < 11 + time.length), taken,
    date.readDate_chars, if_neg long, dropped, read]
  cases offset with
  | none => rfl
  | some micros => exact if_pos (small micros rfl)

/-- A time of day that exists. -/
structure ClockText.Valid (clock : ClockText) : Prop where
  hour : clock.hour.value ≤ 23
  minute : clock.minute.value ≤ 59
  second : clock.second.value ≤ 59

/-- An offset of less than a day. -/
structure OffsetText.Valid (offset : OffsetText) : Prop where
  hours : offset.hours.value ≤ 23
  minutes : offset.minutes.value ≤ 59

def DateText.Valid (date : DateText) : Prop :=
  ValidDate date.year.value date.month.value date.day.value

/-- Microseconds of a local time since the epoch. -/
def localMicros (date : DateText) (clock : ClockText) : Int :=
  dayNumber date.year.value date.month.value date.day.value * microsPerDay +
    ((clock.hour.value * 3600 + clock.minute.value * 60 + clock.second.value) *
      microsPerSecond + clock.micros)

private theorem dayOfDate_valid {date : DateText} (valid : date.Valid) :
    dayOfDate (.calendar date.year.value date.month.value date.day.value) =
      .ok (dayNumber date.year.value date.month.value date.day.value) := by
  obtain ⟨minYear, maxYear, january, december, first, last⟩ := valid
  have year : ¬ (date.year.value < 1 ∨ 9999 < date.year.value) := by omega
  have month : ¬ (date.month.value < 1 ∨ 12 < date.month.value) := by omega
  have day : ¬ (date.day.value < 1 ∨
      daysInMonth date.year.value date.month.value < date.day.value) := by
    omega
  simp only [dayOfDate, Bool.or_eq_true, decide_eq_true_eq]
  rw [if_neg year, if_neg month, if_neg day]

private theorem microsOfClock_valid {clock : ClockText} (valid : clock.Valid)
    (trailing : Bool) :
    microsOfClock ⟨clock.hour.value, clock.minute.value, clock.second.value,
        clock.micros, trailing⟩ =
      .ok ((clock.hour.value * 3600 + clock.minute.value * 60 +
        clock.second.value) * microsPerSecond + clock.micros) := by
  simp only [microsOfClock, if_neg (not_lt.mpr valid.hour),
    if_neg (not_lt.mpr valid.minute), if_neg (not_lt.mpr valid.second)]

theorem OffsetText.natAbs_micros_lt {offset : OffsetText}
    (valid : offset.Valid) :
    offset.micros.natAbs < microsPerDay.natAbs := by
  obtain ⟨hours, minutes⟩ := valid
  have day : microsPerDay.natAbs = 86400000000 := rfl
  rw [day]
  simp only [OffsetText.micros, microsPerSecond]
  split_ifs <;> omega

/-- The text after the `T`. -/
def timeChars (clock : ClockText) (offset : Option OffsetText) : List Char :=
  clock.chars ++ (offset.map OffsetText.chars).getD []

private theorem utf8Size_of_mem_timeChars {clock : ClockText}
    {offset : Option OffsetText} {char : Char}
    (member : char ∈ timeChars clock offset) : char.utf8Size = 1 := by
  rcases List.mem_append.mp member with inClock | inOffset
  · exact clock.utf8Size_of_mem inClock
  · cases offset with
    | none => cases inOffset
    | some offset => exact offset.utf8Size_of_mem inOffset

/-- A valid date, time of day and offset are read as they are written. -/
theorem fromIsoFormat_valid {date : DateText} {clock : ClockText}
    {offset : Option OffsetText} (short : clock.places ≤ 6)
    (validDate : date.Valid) (validClock : clock.Valid)
    (validOffset : ∀ zone ∈ offset, zone.Valid) :
    fromIsoFormat
        (String.ofList (date.chars ++ 'T' :: timeChars clock offset)) =
      .ok ⟨localMicros date clock, offset.map OffsetText.micros⟩ := by
  have read : ∃ trailing, readTime (timeChars clock offset) =
      some (⟨clock.hour.value, clock.minute.value, clock.second.value,
        clock.micros, trailing⟩, offset.map OffsetText.micros) := by
    cases offset with
    | none =>
        refine ⟨false, ?_⟩
        simp only [timeChars, Option.map_none, Option.getD_none,
          List.append_nil]
        exact readTime_clock short
    | some zone => exact readTime_offset short zone
  obtain ⟨trailing, read⟩ := read
  rw [fromIsoFormat_of_readTime date _
    (fun char member => utf8Size_of_mem_timeChars member) read]
  · simp only [buildLocalTime, dayOfDate_valid validDate,
      microsOfClock_valid validClock]
    rfl
  · intro micros known
    obtain ⟨zone, same, rfl⟩ := Option.map_eq_some_iff.mp known
    exact OffsetText.natAbs_micros_lt (validOffset zone same)

end TickStream.Python
