import TickStream.Bucketing
import TickStream.Python.IsoText

/-!
# Timestamps in text

`parse_ts` on the ISO texts the system exchanges: it cuts the fraction to six
digits before the parser sees it, which is the floor of the exact instant.
-/

namespace TickStream

open Python Library

/-- What may stand after the time of day. -/
inductive Zone where
  | absent
  | zulu
  | offset (text : OffsetText)

namespace Zone

def chars : Zone → List Char
  | .absent => []
  | .zulu => ['Z']
  | .offset text => text.chars

def offsetMicros : Zone → Int
  | .offset text => text.micros
  | _ => 0

def Valid : Zone → Prop
  | .offset text => text.Valid
  | _ => True

def zeroOffset : OffsetText := ⟨false, .ofNat 2 0, .ofNat 2 0⟩

/-- The offset once `Z` has been replaced. -/
def expanded : Zone → Option OffsetText
  | .absent => none
  | .zulu => some zeroOffset
  | .offset text => some text

end Zone

/-- A timestamp in text; every part exists. -/
structure Stamp where
  date : DateText
  clock : ClockText
  zone : Zone
  validDate : date.Valid
  validClock : clock.Valid
  validZone : zone.Valid

/-- The time of day with at most six digits of its fraction. -/
def cutClock (clock : ClockText) : ClockText where
  hour := clock.hour
  minute := clock.minute
  second := clock.second
  places := min 6 clock.places
  fraction := {
    chars := clock.fraction.chars.take 6
    length_eq := by rw [List.length_take, clock.fraction.length_eq]
    isDigit := fun char member =>
      clock.fraction.isDigit char (List.mem_of_mem_take member) }

namespace Stamp

variable (stamp : Stamp)

def chars : List Char :=
  stamp.date.chars ++ 'T' :: (stamp.clock.chars ++ stamp.zone.chars)

/-- Microseconds of the whole seconds. -/
def wholeMicros : Int :=
  dayNumber stamp.date.year.value stamp.date.month.value
      stamp.date.day.value * microsPerDay +
    (stamp.clock.hour.value * 3600 + stamp.clock.minute.value * 60 +
      stamp.clock.second.value) * microsPerSecond - stamp.zone.offsetMicros

/-- The instant a text denotes, in microseconds since the epoch. -/
def exact : Rat :=
  stamp.wholeMicros +
    (stamp.clock.fraction.value * 10 ^ 6 : Rat) / 10 ^ stamp.clock.places

/-- The same with the fraction cut to six digits. -/
def truncated : Instant := stamp.wholeMicros + (cutClock stamp.clock).micros

/-- The instant lies in the range of datetimes. -/
def InRange : Prop :=
  (minInstant : Rat) ≤ stamp.exact ∧ stamp.exact < (maxInstant + 1 : Int)

/-- A text is that of the stamp, possibly between blanks. -/
def WrittenAs (text : String) : Prop :=
  ∃ before after, (∀ char ∈ before, isSpace char = true) ∧
    (∀ char ∈ after, isSpace char = true) ∧
    text.toList = before ++ (stamp.chars ++ after)

end Stamp

private theorem readDigits_take {digits : List Char}
    (allDigits : ∀ char ∈ digits, char.isDigit = true) :
    readDigits (digits.take 6) * 10 ^ (6 - min 6 digits.length) =
      readDigits digits * 10 ^ 6 / 10 ^ digits.length := by
  rcases le_total digits.length 6 with short | long
  · rw [List.take_of_length_le short, min_eq_right short]
    apply (Nat.div_eq_of_eq_mul_left (by positivity) _).symm
    rw [mul_assoc, ← pow_add, Nat.sub_add_cancel short]
  · obtain ⟨extra, same⟩ := Nat.exists_eq_add_of_le long
    have split := readDigits_append (digits.take 6) (digits.drop 6)
    rw [List.take_append_drop] at split
    have small := readDigits_lt (fun char member =>
      allDigits char (List.mem_of_mem_drop member) :
        ∀ char ∈ digits.drop 6, char.isDigit = true)
    have restLength : (digits.drop 6).length = extra := by
      rw [List.length_drop, same]
      omega
    rw [restLength] at split small
    rw [min_eq_left long, Nat.sub_self, pow_zero, mul_one, same, pow_add,
      split, mul_comm _ (10 ^ 6), Nat.mul_div_mul_left _ _ (by positivity),
      mul_comm, Nat.mul_add_div (by positivity), Nat.div_eq_of_lt small,
      add_zero]

theorem cut_micros (clock : ClockText) :
    (cutClock clock).micros =
      clock.fraction.value * 10 ^ 6 / 10 ^ clock.places := by
  have cut := readDigits_take clock.fraction.isDigit
  rw [clock.fraction.length_eq] at cut
  exact cut

theorem Stamp.floor_exact (stamp : Stamp) :
    ⌊stamp.exact⌋ = stamp.truncated := by
  have fraction : ⌊(stamp.clock.fraction.value * 10 ^ 6 : Rat) /
      10 ^ stamp.clock.places⌋ = ((cutClock stamp.clock).micros : Int) := by
    rw [cut_micros]
    have floored := Rat.floor_intCast_div_natCast
      ((stamp.clock.fraction.value * 10 ^ 6 : Nat) : Int)
      (10 ^ stamp.clock.places)
    push_cast at floored ⊢
    exact floored
  rw [Stamp.exact, Int.floor_intCast_add, fraction]
  rfl

theorem Stamp.inRange_iff (stamp : Stamp) :
    stamp.InRange ↔ inDatetimeRange stamp.truncated = true := by
  rw [inDatetimeRange_iff, ← stamp.floor_exact, Stamp.InRange]
  rw [Int.le_floor, ← Int.floor_lt, Int.lt_add_one_iff]

private theorem stripBy_blanks {blank : Char → Bool}
    {before text after : List Char}
    (beforeBlank : ∀ char ∈ before, blank char = true)
    (afterBlank : ∀ char ∈ after, blank char = true)
    (clean : ∀ char ∈ text, blank char = false) :
    stripBy blank (before ++ (text ++ after)) = text := by
  have front : ∀ rest : List Char, (∀ char ∈ rest, blank char = false) →
      rest.dropWhile blank = rest := by
    intro rest restClean
    cases rest with
    | nil => rfl
    | cons first others =>
        exact List.dropWhile_cons_of_neg
          (by rw [restClean first List.mem_cons_self]; exact Bool.false_ne_true)
  simp only [stripBy]
  rw [List.dropWhile_append_of_pos beforeBlank]
  cases text with
  | nil =>
      rw [List.nil_append, List.dropWhile_eq_nil_iff.mpr afterBlank]
      rfl
  | cons first others =>
      have notBlank : ¬ blank first = true := by
        rw [clean first List.mem_cons_self]
        exact Bool.false_ne_true
      have reversed : ∀ char ∈ after.reverse, blank char = true :=
        fun char member => afterBlank char (List.mem_reverse.mp member)
      rw [List.cons_append, List.dropWhile_cons_of_neg notBlank,
        ← List.cons_append, List.reverse_append,
        List.dropWhile_append_of_pos reversed, front, List.reverse_reverse]
      intro char member
      exact clean char (List.mem_reverse.mp member)

theorem isSpace_of_isDigit {char : Char} (digit : char.isDigit = true) :
    isSpace char = false := by
  have bounds := isDigit_bounds digit
  simp [isSpace, spaceCodes]
  omega

private theorem isDecimal_of_isDigit {char : Char}
    (digit : char.isDigit = true) :
    isDecimal char = true := by
  have bounds := isDigit_bounds digit
  have first : (decide (0x30 ≤ char.toNat) &&
      decide (char.toNat < 0x30 + 10)) = true := by
    simp only [Bool.and_eq_true, decide_eq_true_eq]
    omega
  simp only [isDecimal, decimalValue?, Option.isSome_map, List.find?_isSome]
  exact ⟨0x30, List.mem_cons_self, first⟩

theorem expandZulu_eq_self {text : List Char}
    (clean : ∀ char ∈ text, char ≠ 'Z') : expandZulu text = text := by
  induction text with
  | nil => rfl
  | cons char rest induction =>
      have others := induction (fun other member =>
        clean other (List.mem_cons_of_mem _ member))
      simp only [expandZulu, List.flatMap_cons] at others ⊢
      rw [others, if_neg (clean char List.mem_cons_self)]
      rfl

private theorem expandZulu_append (left right : List Char) :
    expandZulu (left ++ right) = expandZulu left ++ expandZulu right := by
  simp only [expandZulu, List.flatMap_append]

/-- Outside a fraction text without a point is kept. -/
theorem cutFraction_append {text : List Char}
    (clean : ∀ char ∈ text, char ≠ '.') (rest : List Char) :
    cutFraction none (text ++ rest) = text ++ cutFraction none rest := by
  induction text with
  | nil => rfl
  | cons char others induction =>
      have tail := induction (fun other member =>
        clean other (List.mem_cons_of_mem _ member))
      rw [List.cons_append, cutFraction, if_neg (clean char List.mem_cons_self),
        tail]
      rfl

theorem cutFraction_eq_self {text : List Char}
    (clean : ∀ char ∈ text, char ≠ '.') : cutFraction none text = text := by
  have whole := cutFraction_append clean []
  rwa [List.append_nil, cutFraction, List.append_nil] at whole

/-- In a fraction the first six digits are kept; it ends before `rest`. -/
private theorem cutFraction_digits {digits rest : List Char}
    (allDigits : ∀ char ∈ digits, char.isDigit = true)
    (ends : ∀ kept, cutFraction (some kept) rest = rest) (kept : Nat) :
    cutFraction (some kept) (digits ++ rest) =
      digits.take (6 - kept) ++ rest := by
  induction digits generalizing kept with
  | nil => rw [List.nil_append, ends, List.take_nil, List.nil_append]
  | cons char others induction =>
      have tail := induction (fun other member =>
        allDigits other (List.mem_cons_of_mem _ member))
      have decimal :=
        isDecimal_of_isDigit (allDigits char List.mem_cons_self)
      rw [List.cons_append, cutFraction, if_pos decimal]
      by_cases room : kept < 6
      · obtain ⟨left, same⟩ := Nat.exists_eq_add_of_lt room
        rw [if_pos room, tail]
        have next : 6 - kept = (6 - (kept + 1)) + 1 := by omega
        rw [next, List.take_succ_cons, List.cons_append]
      · have full : 6 - kept = 0 := by omega
        rw [if_neg room, tail, full, List.take_zero, List.take_zero]

namespace Zone

theorem expandZulu_chars (zone : Zone) :
    expandZulu zone.chars =
      (zone.expanded.map OffsetText.chars).getD [] := by
  cases zone with
  | absent => rfl
  | zulu => rfl
  | offset text =>
      apply expandZulu_eq_self
      intro char member same
      subst same
      simpa [Char.isDigit] using text.mem_chars member

theorem ne_point {zone : Zone} {char : Char}
    (member : char ∈ (zone.expanded.map OffsetText.chars).getD []) :
    char ≠ '.' := by
  intro same
  subst same
  cases known : zone.expanded with
  | none =>
      rw [known] at member
      cases member
  | some text =>
      rw [known] at member
      simpa [Char.isDigit] using text.mem_chars member

/-- A zone ends a fraction. -/
theorem cutFraction_chars (zone : Zone) (kept : Nat) :
    cutFraction (some kept) ((zone.expanded.map OffsetText.chars).getD []) =
      (zone.expanded.map OffsetText.chars).getD [] := by
  have clean : ∀ char ∈ (zone.expanded.map OffsetText.chars).getD [],
      char ≠ '.' := fun char member => zone.ne_point member
  cases known : zone.expanded with
  | none => rfl
  | some text =>
      rw [known] at clean
      simp only [Option.map_some, Option.getD_some, OffsetText.chars] at clean ⊢
      have notDecimal : isDecimal text.mark = false := by
        cases behind : text.behind <;> simp [OffsetText.mark, behind] <;> decide
      rw [cutFraction, if_neg (by rw [notDecimal]; exact Bool.false_ne_true),
        if_neg (clean text.mark List.mem_cons_self), cutFraction_eq_self]
      intro char member
      exact clean char (List.mem_cons_of_mem _ member)

end Zone

/-- The time of day without its fraction. -/
def clockHead (clock : ClockText) : List Char :=
  clock.hour.chars ++ ':' :: (clock.minute.chars ++ ':' :: clock.second.chars)

private theorem clockHead_append (clock : ClockText) :
    clock.chars = clockHead clock ++ clock.fractionChars := by
  simp [ClockText.chars, clockHead]

private theorem ne_point_of_mem_clockHead {clock : ClockText} {char : Char}
    (member : char ∈ clockHead clock) : char ≠ '.' := by
  intro same
  subst same
  have point : ('.' : Char).isDigit = false := rfl
  simp only [clockHead, List.mem_append, List.mem_cons] at member
  rcases member with hour | colon | minute | colon | second
  · exact ne_of_isDigit (clock.hour.isDigit _ hour) point rfl
  · cases colon
  · exact ne_of_isDigit (clock.minute.isDigit _ minute) point rfl
  · cases colon
  · exact ne_of_isDigit (clock.second.isDigit _ second) point rfl

private theorem cutFraction_fraction (clock : ClockText) (zone : Zone) :
    cutFraction none (clock.fractionChars ++
        (zone.expanded.map OffsetText.chars).getD []) =
      (cutClock clock).fractionChars ++
        (zone.expanded.map OffsetText.chars).getD [] := by
  by_cases none : clock.places = 0
  · simp only [ClockText.fractionChars, cutClock, none, Nat.min_zero, if_pos,
      List.nil_append]
    exact cutFraction_eq_self (fun char member => zone.ne_point member)
  · have some : ¬ min 6 clock.places = 0 := by omega
    have whole : clock.fractionChars = '.' :: clock.fraction.chars :=
      if_neg none
    have cut : (cutClock clock).fractionChars =
        '.' :: clock.fraction.chars.take 6 := if_neg some
    rw [whole, cut, List.cons_append, cutFraction, if_pos rfl,
      cutFraction_digits clock.fraction.isDigit zone.cutFraction_chars]
    rfl

/-- Cutting a text with its `Z` replaced cuts the fraction of its clock. -/
theorem cutFraction_chars (date : DateText) (clock : ClockText) (zone : Zone) :
    cutFraction none (date.chars ++ 'T' :: timeChars clock zone.expanded) =
      date.chars ++ 'T' :: timeChars (cutClock clock) zone.expanded := by
  have cleanDate : ∀ char ∈ date.chars ++ 'T' :: clockHead clock,
      char ≠ '.' := by
    intro char member same
    subst same
    rcases List.mem_append.mp member with inDate | rest
    · simpa [Char.isDigit] using date.mem_chars inDate
    · rcases List.mem_cons.mp rest with mark | inClock
      · cases mark
      · exact ne_point_of_mem_clockHead inClock rfl
  have shape : ∀ other : ClockText, clockHead other = clockHead clock →
      date.chars ++ 'T' :: timeChars other zone.expanded =
        (date.chars ++ 'T' :: clockHead clock) ++ (other.fractionChars ++
          (zone.expanded.map OffsetText.chars).getD []) := by
    intro other same
    simp [timeChars, clockHead_append, same]
  rw [shape clock rfl, shape (cutClock clock) rfl, cutFraction_append cleanDate,
    cutFraction_fraction]

theorem Stamp.expandZulu_chars (stamp : Stamp) :
    expandZulu stamp.chars =
      stamp.date.chars ++ 'T' :: timeChars stamp.clock stamp.zone.expanded := by
  have clean : ∀ char ∈ stamp.date.chars ++ 'T' :: stamp.clock.chars,
      char ≠ 'Z' := by
    intro char member same
    subst same
    rcases List.mem_append.mp member with inDate | rest
    · simpa [Char.isDigit] using stamp.date.mem_chars inDate
    · rcases List.mem_cons.mp rest with mark | inClock
      · cases mark
      · simpa [Char.isDigit] using stamp.clock.mem_chars inClock
  have shape : stamp.chars =
      (stamp.date.chars ++ 'T' :: stamp.clock.chars) ++ stamp.zone.chars := by
    simp [Stamp.chars]
  rw [shape, expandZulu_append, expandZulu_eq_self clean,
    stamp.zone.expandZulu_chars]
  simp [timeChars]

theorem Stamp.not_isSpace (stamp : Stamp) {char : Char}
    (member : char ∈ stamp.chars) : isSpace char = false := by
  simp only [Stamp.chars, List.mem_append, List.mem_cons] at member
  rcases member with inDate | rfl | inClock | inZone
  · rcases stamp.date.mem_chars inDate with digit | rfl
    · exact isSpace_of_isDigit digit
    · rfl
  · rfl
  · rcases stamp.clock.mem_chars inClock with digit | rfl | rfl
    · exact isSpace_of_isDigit digit
    · rfl
    · rfl
  · cases known : stamp.zone with
    | absent =>
        rw [known] at inZone
        cases inZone
    | zulu =>
        rw [known] at inZone
        rw [List.mem_singleton.mp inZone]
        rfl
    | offset text =>
        rw [known] at inZone
        rcases text.mem_chars inZone with digit | rfl | rfl | rfl
        · exact isSpace_of_isDigit digit
        · rfl
        · rfl
        · rfl

/-- The parser sees the stamp with its fraction cut and its `Z` replaced. -/
private theorem isoText_eq {stamp : Stamp} {text : String}
    (written : stamp.WrittenAs text) :
    isoText text = String.ofList (stamp.date.chars ++
      'T' :: timeChars (cutClock stamp.clock) stamp.zone.expanded) := by
  obtain ⟨before, after, beforeBlank, afterBlank, same⟩ := written
  rw [isoText, same, stripBy_blanks beforeBlank afterBlank
    (fun char member => stamp.not_isSpace member), stamp.expandZulu_chars,
    cutFraction_chars]

theorem Zone.valid_expanded {zone : Zone} (valid : zone.Valid) :
    ∀ text ∈ zone.expanded, text.Valid := by
  intro text known
  cases zone with
  | absent => cases known
  | zulu =>
      cases known
      exact ⟨by decide, by decide⟩
  | offset other =>
      cases known
      exact valid

theorem Zone.micros_expanded (zone : Zone) :
    (zone.expanded.map OffsetText.micros).getD 0 = zone.offsetMicros := by
  cases zone <;> rfl

/-- `parse_ts` floors the instant a text denotes to a microsecond. -/
theorem parseTs_eq {stamp : Stamp} {text : String}
    (written : stamp.WrittenAs text) (inRange : stamp.InRange) :
    parseTs (.str text) = .ok stamp.truncated := by
  have validCut : (cutClock stamp.clock).Valid :=
    ⟨stamp.validClock.hour, stamp.validClock.minute, stamp.validClock.second⟩
  have read := fromIsoFormat_valid (min_le_left 6 stamp.clock.places)
    stamp.validDate validCut (Zone.valid_expanded stamp.validZone)
  have zone := stamp.zone.micros_expanded
  have inside := stamp.inRange_iff.mp inRange
  have total : localMicros stamp.date (cutClock stamp.clock) -
      stamp.zone.offsetMicros = stamp.truncated := by
    simp only [localMicros, Stamp.truncated, Stamp.wholeMicros, cutClock]
    ring
  simp only [parseTs, isoText_eq written, read]
  rw [bind_eq_ok_iff]
  refine ⟨_, rfl, ?_⟩
  cases known : stamp.zone.expanded with
  | none =>
      rw [known] at zone
      have zero : stamp.zone.offsetMicros = 0 := zone.symm
      rw [zero, sub_zero] at total
      rw [← total]
      rfl
  | some text =>
      rw [known] at zone
      have same : text.micros = stamp.zone.offsetMicros := zone
      simp only [LocalTime.toUtc, Option.map_some, same]
      rw [total, if_pos inside]

section IsoFormat

variable {instant : Int}

/-- The text `isoformat` writes, as a stamp. -/
def isoDate (instant : Instant) : DateText :=
  let date := dateOfDay (instant / microsPerDay)
  ⟨.ofNat 4 date.1.toNat, .ofNat 2 date.2.1, .ofNat 2 date.2.2⟩

def isoClock (instant : Instant) : ClockText :=
  let timeOfDay := (instant % microsPerDay).toNat
  let seconds := timeOfDay / 1000000
  let micros := timeOfDay % 1000000
  { hour := .ofNat 2 (seconds / 3600)
    minute := .ofNat 2 (seconds / 60 % 60)
    second := .ofNat 2 (seconds % 60)
    places := if micros = 0 then 0 else 6
    fraction := .ofNat _ micros }

private theorem isoFormat_chars (instant : Instant) :
    (isoFormat instant).toList =
      (isoDate instant).chars ++ 'T' ::
        ((isoClock instant).chars ++ Zone.zeroOffset.chars) := by
  simp only [isoFormat, String.toList_ofList, isoDate, isoClock,
    DateText.chars, ClockText.chars, ClockText.fractionChars, Digits.ofNat]
  by_cases zero : (instant % microsPerDay).toNat % 1000000 = 0
  · simp [zero, Zone.zeroOffset, OffsetText.chars, OffsetText.mark]
    rfl
  · simp [zero]
    rfl

private theorem daysInMonth_le (year : Int) (month : Nat) :
    daysInMonth year month ≤ 31 := by
  simp only [daysInMonth]
  split
  · split_ifs <;> omega
  all_goals omega

private theorem isoDate_spec (inRange : inDatetimeRange instant = true) :
    (isoDate instant).Valid ∧
      dayNumber (isoDate instant).year.value (isoDate instant).month.value
        (isoDate instant).day.value = instant / microsPerDay := by
  obtain ⟨lower, upper⟩ := inDatetimeRange_iff.mp inRange
  have first : (-62135596800000000 : Int) ≤ instant := lower
  have last : instant ≤ (253402300799999999 : Int) := upper
  have afterYearZero : -epochDay ≤ instant / microsPerDay := by
    simp only [epochDay, microsPerDay]
    omega
  have beforeYear10000 : instant / microsPerDay < 3652059 - epochDay := by
    simp only [epochDay, microsPerDay]
    omega
  obtain ⟨valid, number⟩ := dateOfDay_spec afterYearZero beforeYear10000
  have minYear := valid.minYear
  have maxYear := valid.maxYear
  have december := valid.december
  have lastDay : (dateOfDay (instant / microsPerDay)).2.2 < 10 ^ 2 := by
    have month := valid.last.trans (daysInMonth_le _ _)
    omega
  have year : ((isoDate instant).year.value : Int) =
      (dateOfDay (instant / microsPerDay)).1 := by
    rw [isoDate, Digits.value_ofNat (by omega)]
    omega
  have month : (isoDate instant).month.value =
      (dateOfDay (instant / microsPerDay)).2.1 :=
    Digits.value_ofNat (by omega)
  have day : (isoDate instant).day.value =
      (dateOfDay (instant / microsPerDay)).2.2 :=
    Digits.value_ofNat lastDay
  rw [DateText.Valid, year, month, day]
  exact ⟨valid, number⟩

private theorem isoClock_spec (instant : Int) :
    (isoClock instant).Valid ∧
      ((isoClock instant).hour.value * 3600 +
        (isoClock instant).minute.value * 60 +
        (isoClock instant).second.value : Int) * microsPerSecond +
        (cutClock (isoClock instant)).micros = instant % microsPerDay := by
  have nonneg : 0 ≤ instant % microsPerDay :=
    Int.emod_nonneg _ (by decide)
  have less : instant % microsPerDay < 86400000000 :=
    Int.emod_lt_of_pos instant (by decide)
  have hour : (isoClock instant).hour.value =
      (instant % microsPerDay).toNat / 1000000 / 3600 :=
    Digits.value_ofNat (by omega)
  have minute : (isoClock instant).minute.value =
      (instant % microsPerDay).toNat / 1000000 / 60 % 60 :=
    Digits.value_ofNat (by omega)
  have second : (isoClock instant).second.value =
      (instant % microsPerDay).toNat / 1000000 % 60 :=
    Digits.value_ofNat (by omega)
  have micros : (cutClock (isoClock instant)).micros =
      (instant % microsPerDay).toNat % 1000000 := by
    rw [cut_micros]
    by_cases zero : (instant % microsPerDay).toNat % 1000000 = 0
    · have places : (isoClock instant).places = 0 := if_pos zero
      have fraction : (isoClock instant).fraction.value = 0 :=
        (isoClock instant).value_of_no_places places
      rw [fraction, zero_mul, Nat.zero_div, zero]
    · have places : (isoClock instant).places = 6 := if_neg zero
      have small : (instant % microsPerDay).toNat % 1000000 <
          10 ^ (isoClock instant).places := by
        rw [places]
        exact Nat.mod_lt _ (by norm_num)
      have fraction : (isoClock instant).fraction.value =
          (instant % microsPerDay).toNat % 1000000 := Digits.value_ofNat small
      rw [fraction, places, Nat.mul_div_cancel _ (by norm_num)]
  rw [micros]
  refine ⟨⟨?_, ?_, ?_⟩, ?_⟩
  · rw [hour]
    omega
  · rw [minute]
    omega
  · rw [second]
    omega
  · rw [hour, minute, second]
    simp only [microsPerSecond]
    omega

/-- `isoformat` writes a stamp. -/
private theorem isoFormat_writes (inRange : inDatetimeRange instant = true) :
    ∃ stamp : Stamp, stamp.WrittenAs (isoFormat instant) ∧
      stamp.truncated = instant := by
  obtain ⟨validDate, number⟩ := isoDate_spec inRange
  obtain ⟨validClock, timeOfDay⟩ := isoClock_spec instant
  refine ⟨⟨isoDate instant, isoClock instant, .offset Zone.zeroOffset,
    validDate, validClock, ⟨by decide, by decide⟩⟩, ?_, ?_⟩
  · refine ⟨[], [], by simp, by simp, ?_⟩
    rw [isoFormat_chars, List.nil_append, List.append_nil]
    rfl
  · have zero : Zone.zeroOffset.micros = 0 := rfl
    simp only [Stamp.truncated, Stamp.wholeMicros, Zone.offsetMicros, zero,
      number]
    have whole := Int.mul_ediv_add_emod instant microsPerDay
    linarith

theorem parseTs_isoFormat (inRange : inDatetimeRange instant = true) :
    parseTs (.str (isoFormat instant)) = .ok instant := by
  obtain ⟨stamp, written, same⟩ := isoFormat_writes inRange
  have inside : stamp.InRange := by
    rw [stamp.inRange_iff, same]
    exact inRange
  have parsed := parseTs_eq written inside
  rwa [same] at parsed

end IsoFormat

/-- `_ms_to_iso`. -/
def Double.msToIsoText (ms : Int) : Result String :=
  isoFormat <$> Double.msToIso ms

private theorem inDatetimeRange_of_fromTimestamp {double : PyFloat}
    {instant : Instant}
    (returned : fromTimestamp double = .ok instant) :
    inDatetimeRange instant = true := by
  cases double with
  | nan => cases returned
  | inf negative => cases returned
  | fin value =>
      simp only [fromTimestamp] at returned
      split_ifs at returned with wide far outside
      · cases returned
      · cases returned
      · cases returned
      · cases returned
        simpa using outside

/-- What `_ms_to_iso` writes is read back as the instant it stands for. -/
private theorem parseTs_msToIsoText {ms : Int} {text : String}
    (wrote : Double.msToIsoText ms = .ok text) :
    ∃ instant, Double.msToIso ms = .ok instant ∧
      parseTs (.str text) = .ok instant := by
  cases converted : Double.msToIso ms with
  | error failure =>
      simp only [Double.msToIsoText, converted] at wrote
      cases wrote
  | ok instant =>
      simp only [Double.msToIsoText, converted] at wrote
      cases wrote
      refine ⟨instant, rfl, parseTs_isoFormat ?_⟩
      simp only [Double.msToIso, bind_eq_ok_iff] at converted
      obtain ⟨double, _, returned⟩ := converted
      exact inDatetimeRange_of_fromTimestamp returned

/-- Whole seconds, in particular window bounds, survive the way through
text. -/
private theorem parseTs_window_bound {second : Int}
    (lower : minInstant ≤ second * microsPerSecond)
    (upper : second * microsPerSecond ≤ maxInstant) :
    ∃ text, Double.msToIsoText (1000 * second) = .ok text ∧
      parseTs (.str text) = .ok (second * microsPerSecond) := by
  refine ⟨isoFormat (second * microsPerSecond), ?_, ?_⟩
  · rw [Double.msToIsoText, msToIso_second lower upper]
    rfl
  · exact parseTs_isoFormat (inDatetimeRange_iff.mpr ⟨lower, upper⟩)

/-- The window of the floor is the window of the number. -/
private theorem floor_ediv (value : Rat) {width : Int} (positive : 0 < width) :
    ⌊value⌋ / width = ⌊value / (width : Rat)⌋ := by
  apply eq_of_forall_le_iff
  intro window
  have cast : (0 : Rat) < width := by exact_mod_cast positive
  rw [Int.le_ediv_iff_mul_le positive, Int.le_floor, Int.le_floor,
    le_div_iff₀ cast]
  push_cast
  exact Iff.rfl

/-- A timestamp text is parsed to the instant it denotes, cut to six digits,
in the same windows and in the same order; what `isoformat` and `_ms_to_iso`
write is parsed to what was written. -/
theorem parseTs_truncates :
    (∀ (stamp : Stamp) (text : String),
      stamp.WrittenAs text → stamp.InRange →
        parseTs (.str text) = .ok stamp.truncated ∧
          stamp.truncated = ⌊stamp.exact⌋ ∧
          ∀ secs : Nat, 0 < secs →
            stamp.truncated / (secs * microsPerSecond) =
              ⌊stamp.exact / (secs * microsPerSecond : Int)⌋) ∧
      (∀ (earlier later : Stamp) (first second : String),
        earlier.WrittenAs first → later.WrittenAs second →
        earlier.InRange → later.InRange → earlier.exact ≤ later.exact →
          ∃ left right, parseTs (.str first) = .ok left ∧
            parseTs (.str second) = .ok right ∧ left ≤ right) ∧
      (∀ instant, inDatetimeRange instant = true →
        parseTs (.str (isoFormat instant)) = .ok instant) ∧
      (∀ ms text, Double.msToIsoText ms = .ok text →
        ∃ instant, Double.msToIso ms = .ok instant ∧
          parseTs (.str text) = .ok instant) ∧
      ∀ second, minInstant ≤ second * microsPerSecond →
        second * microsPerSecond ≤ maxInstant →
        ∃ text, Double.msToIsoText (1000 * second) = .ok text ∧
          parseTs (.str text) = .ok (second * microsPerSecond) := by
  refine ⟨?_, ?_, ?_, ?_, ?_⟩
  · intro stamp text written inRange
    refine ⟨parseTs_eq written inRange, stamp.floor_exact.symm, ?_⟩
    intro secs positive
    rw [← stamp.floor_exact]
    apply floor_ediv
    exact micros_width_pos positive
  · intro earlier later first second firstWritten secondWritten firstRange
      secondRange ordered
    refine ⟨_, _, parseTs_eq firstWritten firstRange,
      parseTs_eq secondWritten secondRange, ?_⟩
    rw [← earlier.floor_exact, ← later.floor_exact]
    exact Int.floor_le_floor ordered
  · intro instant inRange
    exact parseTs_isoFormat inRange
  · intro ms text wrote
    exact parseTs_msToIsoText wrote
  · intro second lower upper
    exact parseTs_window_bound lower upper

def nanosecondStamp : Stamp where
  date := ⟨.ofNat 4 2026, .ofNat 2 6, .ofNat 2 22⟩
  clock := ⟨.ofNat 2 22, .ofNat 2 14, .ofNat 2 35, 9, .ofNat 9 153209871⟩
  zone := .zulu
  validDate := ⟨by decide, by decide, by decide, by decide, by decide,
    by decide⟩
  validClock := ⟨by decide, by decide, by decide⟩
  validZone := trivial

theorem parseTs_truncates_sample :
    parseTs (.str " 2026-06-22T22:14:35.153209871Z\n") =
      .ok 1782166475153209 := by
  have written : nanosecondStamp.WrittenAs
      " 2026-06-22T22:14:35.153209871Z\n" :=
    ⟨[' '], ['\n'], by simp; rfl, by simp; rfl, rfl⟩
  have inRange : nanosecondStamp.InRange :=
    nanosecondStamp.inRange_iff.mpr (by decide +kernel)
  have parsed := (parseTs_truncates.1 nanosecondStamp _ written inRange).1
  have instant : nanosecondStamp.truncated = 1782166475153209 := by
    decide +kernel
  rwa [instant] at parsed

end TickStream
