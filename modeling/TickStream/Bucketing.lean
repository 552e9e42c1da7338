import TickStream.Dbt.Epoch
import TickStream.Dbt.GoldReference
import TickStream.Processing.Doubles
import TickStream.Producer.Normalize
import TickStream.Quality.Sla

/-!
# One bucketing, four implementations

The reference, gold, the SLA baseline and the processor each compute the start
of the window an event falls into.  Here they compute it through the doubles
they use; `floor` alone is right before the epoch.
-/

namespace TickStream

open Python Library

namespace Double

/-- `total_seconds()` of a column: both operands are made doubles. -/
def totalSeconds (tsEvent : Instant) : PyFloat :=
  match roundToDouble tsEvent with
  | .fin micros => roundToDouble (micros / microsPerSecond)
  | other => other

/-- The bucket of an event time in `_expected_windows_by_symbol`. -/
def bucketSeconds (tsEvent : Instant) (secs : Nat) : Result Int := do
  let epoch ← (Json.float (totalSeconds tsEvent)).toInt
  return epoch / secs * secs

/-- Start of the window the processor puts an event into. -/
def streamStart (tsEvent : Instant) (secs : Nat) : Result Instant := do
  let timestampMs ← timestampMillis tsEvent
  msToIso (timestampMs - timestampMs % (1000 * secs))

end Double

/-- All four open the window of `tsEvent` at second `start`, and the window
contains it. -/
structure OpensAt (tsEvent : Instant) (secs : Nat) (start : Int) : Prop where
  reference : ∃ closing, Double.windowBounds tsEvent secs =
    .ok (start * microsPerSecond, closing)
  gold : Double.windowStart tsEvent secs = some (start * microsPerSecond)
  baseline : Double.bucketSeconds tsEvent secs = .ok start
  stream : Double.streamStart tsEvent secs = .ok (start * microsPerSecond)
  aligned : (secs : Int) ∣ start
  reached : start * microsPerSecond ≤ tsEvent
  unfinished : tsEvent < (start + secs) * microsPerSecond

/-- The first whole multiple of `secs` seconds after an instant. -/
def nextMultiple (tsEvent : Instant) (secs : Nat) : Instant :=
  (tsEvent / (secs * microsPerSecond) + 1) * (secs * microsPerSecond)

/-- An instant read as `read` stays in its window: from the epoch on the
reading is before the window's end, earlier it is a whole second before it. -/
def StaysInside (tsEvent : Instant) (secs : Nat) (read : Instant) : Prop :=
  if 0 ≤ tsEvent then read < nextMultiple tsEvent secs
  else read + microsPerSecond ≤ nextMultiple tsEvent secs

instance (tsEvent : Instant) (secs : Nat) (read : Instant) :
    Decidable (StaysInside tsEvent secs read) :=
  inferInstanceAs (Decidable (if 0 ≤ tsEvent then
    read < nextMultiple tsEvent secs
    else read + microsPerSecond ≤ nextMultiple tsEvent secs))

/-- The window lies in the range of datetimes, and neither the double of the
timestamp nor those of the microsecond count and of the epoch leave it. -/
structure KeepsWindow (tsEvent : Instant) (secs : Nat) : Prop where
  opening : minInstant ≤ nextMultiple tsEvent secs - secs * microsPerSecond
  closing : nextMultiple tsEvent secs ≤ maxInstant
  read : StaysInside tsEvent secs (carried tsEvent)
  floated : StaysInside tsEvent secs (carried (floatMicros tsEvent))
  epoch : epochReading tsEvent < nextMultiple tsEvent secs

theorem ediv_eq_iff_between {value quotient : Int} {divisor : Int}
    (positive : 0 < divisor) :
    value / divisor = quotient ↔
      quotient * divisor ≤ value ∧ value < (quotient + 1) * divisor := by
  rw [← Int.le_ediv_iff_mul_le positive, ← Int.ediv_lt_iff_lt_mul positive]
  omega

/-- `int(read) // secs` from the epoch on. -/
private theorem seconds_ediv_iff_of_nonneg {secs : Nat} {read : Int}
    {window : Int}
    (positive : 0 < secs) (nonneg : 0 ≤ read)
    (reached : window * (secs * microsPerSecond) ≤ read) :
    read.tdiv microsPerSecond / secs = window ↔
      read < (window + 1) * (secs * microsPerSecond) := by
  rw [Int.tdiv_eq_ediv_of_nonneg nonneg,
    Int.ediv_ediv_of_nonneg microsPerSecond_pos.le,
    mul_comm microsPerSecond, ediv_eq_iff_between (micros_width_pos positive)]
  exact and_iff_right reached

/-- `int(read) // secs` before the epoch. -/
private theorem seconds_ediv_iff_of_nonpos {secs : Nat} {read : Int}
    {window : Int}
    (positive : 0 < secs) (nonpos : read ≤ 0)
    (reached : window * (secs * microsPerSecond) < read + microsPerSecond) :
    read.tdiv microsPerSecond / secs = window ↔
      read + microsPerSecond ≤ (window + 1) * (secs * microsPerSecond) := by
  have width : 0 < (secs : Int) := by exact_mod_cast positive
  obtain ⟨micros, rfl⟩ := Int.exists_eq_neg_ofNat nonpos
  rw [ediv_eq_iff_between width, Int.neg_tdiv,
    Int.tdiv_eq_ediv_of_nonneg (Int.natCast_nonneg _)]
  rw [← mul_assoc] at reached ⊢
  generalize window * secs = opening at reached ⊢
  generalize (window + 1) * secs = closing
  simp only [microsPerSecond] at reached ⊢
  omega

/-- A reading of `tsEvent` that has moved away from the epoch by less than a
second, if it has crossed no whole second on the way to it. -/
structure ReadsNear (tsEvent : Instant) (secs : Nat) (read : Instant) :
    Prop where
  after : 0 ≤ tsEvent → 0 ≤ read ∧
    tsEvent / (secs * microsPerSecond) * (secs * microsPerSecond) ≤ read
  before : tsEvent < 0 → read ≤ 0 ∧
    tsEvent / (secs * microsPerSecond) * (secs * microsPerSecond) <
      read + microsPerSecond

theorem ReadsNear.window_iff {tsEvent read : Instant} {secs : Nat}
    (near : ReadsNear tsEvent secs read) (positive : 0 < secs) :
    read.tdiv microsPerSecond / secs = tsEvent / (secs * microsPerSecond) ↔
      StaysInside tsEvent secs read := by
  simp only [StaysInside, nextMultiple]
  by_cases afterEpoch : 0 ≤ tsEvent
  · obtain ⟨nonneg, reached⟩ := near.after afterEpoch
    rw [if_pos afterEpoch]
    exact seconds_ediv_iff_of_nonneg positive nonneg reached
  · obtain ⟨nonpos, reached⟩ := near.before (not_le.mp afterEpoch)
    rw [if_neg afterEpoch]
    exact seconds_ediv_iff_of_nonpos positive nonpos reached

theorem le_carried {tsEvent : Instant} (afterEpoch : 0 ≤ tsEvent) :
    tsEvent ≤ carried tsEvent := by
  rw [carried, if_pos afterEpoch]
  exact Int.le_add_of_nonneg_right (Int.natCast_nonneg _)

private theorem carried_of_nonpos {tsEvent : Int} (beforeEpoch : tsEvent ≤ 0)
    (small : tsEvent.natAbs < 2 ^ 58) :
    carried tsEvent ≤ tsEvent ∧
      tsEvent < carried tsEvent + microsPerSecond := by
  have missing := carriedMicros_lt small
  obtain ⟨micros, rfl⟩ := Int.exists_eq_neg_ofNat beforeEpoch
  rw [Int.natAbs_neg, Int.natAbs_natCast] at missing
  rw [carried_neg_natCast]
  have allowance : microsPerSecond = (10 ^ 6 : Nat) := rfl
  have further :
      -((micros + carriedMicros micros : Nat) : Int) ≤ -(micros : Int) := by
    omega
  have close : -(micros : Int) <
      -((micros + carriedMicros micros : Nat) : Int) + microsPerSecond := by
    omega
  exact ⟨further, close⟩

theorem readsNear_carried {tsEvent read : Instant} {secs : Nat}
    (small : read.natAbs < 2 ^ 58)
    (sameSide : 0 ≤ tsEvent → 0 ≤ read)
    (sameSideBefore : tsEvent < 0 → read ≤ 0)
    (reached : tsEvent / (secs * microsPerSecond) *
      (secs * microsPerSecond) ≤ read) :
    ReadsNear tsEvent secs (carried read) := by
  constructor
  · intro afterEpoch
    have larger := le_carried (sameSide afterEpoch)
    exact ⟨(sameSide afterEpoch).trans larger, reached.trans larger⟩
  · intro beforeEpoch
    have near := carried_of_nonpos (sameSideBefore beforeEpoch) small
    exact ⟨near.1.trans (sameSideBefore beforeEpoch),
      lt_of_le_of_lt reached near.2⟩

section Window

variable {tsEvent : Instant} {secs : Nat}

theorem window_reached (tsEvent : Instant) (positive : 0 < secs) :
    tsEvent / (secs * microsPerSecond) * (secs * microsPerSecond) ≤ tsEvent :=
  Int.ediv_mul_le _ (micros_width_pos positive).ne'

private theorem readsNear_timestamp (small : tsEvent.natAbs < 2 ^ 58)
    (positive : 0 < secs) : ReadsNear tsEvent secs (carried tsEvent) :=
  readsNear_carried small id le_of_lt (window_reached tsEvent positive)

theorem floatMicros_small (inRange : inDatetimeRange tsEvent = true) :
    (floatMicros tsEvent).natAbs < 2 ^ 58 := by
  have small := natAbs_lt_of_inDatetimeRange inRange
  obtain ⟨lower, upper⟩ := inDatetimeRange_iff.mp inRange
  have above := (floatMicros_mono_second small (-62135596800)).1
    (le_trans (by decide) lower)
  have below := (floatMicros_mono_second small 253402300800).2
    (upper.trans (by decide))
  obtain ⟨read, same⟩ : ∃ read : Int, read = floatMicros tsEvent := ⟨_, rfl⟩
  rw [← same] at above below ⊢
  have first : (-62135596800 * 1000000 : Int) ≤ read := above
  have last : read ≤ (253402300800 * 1000000 : Int) := below
  omega

private theorem readsNear_floated (inRange : inDatetimeRange tsEvent = true)
    (positive : 0 < secs) :
    ReadsNear tsEvent secs (carried (floatMicros tsEvent)) := by
  have small := natAbs_lt_of_inDatetimeRange inRange
  have zero := floatMicros_mono_second small 0
  rw [zero_mul] at zero
  apply readsNear_carried (floatMicros_small inRange) zero.1
  · intro beforeEpoch
    exact zero.2 beforeEpoch.le
  · have reached := window_reached tsEvent positive
    rw [← mul_assoc] at reached ⊢
    exact (floatMicros_mono_second small _).1 reached

private theorem toInt_totalSeconds (inRange : inDatetimeRange tsEvent = true) :
    (Json.float (Double.totalSeconds tsEvent)).toInt =
      .ok ((carried (floatMicros tsEvent)).tdiv microsPerSecond) := by
  have small := natAbs_lt_of_inDatetimeRange inRange
  simp only [Double.totalSeconds, roundToDouble_instant small]
  exact toInt_timestamp (floatMicros_small inRange)

/-- The SLA baseline buckets by the reading of the microsecond count. -/
theorem bucketSeconds_reads (inRange : inDatetimeRange tsEvent = true) :
    Double.bucketSeconds tsEvent secs =
      .ok ((carried (floatMicros tsEvent)).tdiv microsPerSecond / secs *
        secs) := by
  simp only [Double.bucketSeconds, toInt_totalSeconds inRange]
  rfl

/-- The reference buckets by the reading of the timestamp, within the range of
datetimes. -/
theorem windowBounds_opens_iff (inRange : inDatetimeRange tsEvent = true)
    {start : Int} :
    (∃ closing, Double.windowBounds tsEvent secs =
        .ok (start * microsPerSecond, closing)) ↔
      (carried tsEvent).tdiv microsPerSecond / secs * secs = start ∧
        minInstant ≤ start * microsPerSecond ∧
        start * microsPerSecond ≤ maxInstant ∧
        minInstant ≤ (start + secs) * microsPerSecond ∧
        (start + secs) * microsPerSecond ≤ maxInstant := by
  simp only [Double.windowBounds,
    toInt_timestamp (natAbs_lt_of_inDatetimeRange inRange), bind_eq_ok_iff,
    Except.ok.injEq, fromTimestamp_intCast]
  constructor
  · intro opens
    obtain ⟨closing, _, rfl, opening, ⟨same, lower, upper⟩, _,
      ⟨_, next⟩, pair⟩ := opens
    cases pair
    have seconds := mul_right_cancel₀ microsPerSecond_ne_zero same
    rw [← seconds] at lower upper next
    exact ⟨seconds.symm, lower, upper, next⟩
  · intro opens
    obtain ⟨rfl, lower, upper, next⟩ := opens
    exact ⟨_, _, rfl, _, ⟨rfl, lower, upper⟩, _, ⟨rfl, next⟩, rfl⟩

/-- The macro opens the window of an instant unless its epoch leaves it. -/
private theorem windowStart_opens_iff (inRange : inDatetimeRange tsEvent = true)
    (positive : 0 < secs) (fits : secs < 2 ^ 53) :
    Double.windowStart tsEvent secs =
        some (tsEvent / (secs * microsPerSecond) *
          (secs * microsPerSecond)) ↔
      epochReading tsEvent < nextMultiple tsEvent secs := by
  have width := micros_width_pos positive
  have further : tsEvent ≤ epochReading tsEvent :=
    Int.le_add_of_nonneg_right (Int.natCast_nonneg _)
  have reached := (window_reached tsEvent positive).trans further
  rw [windowStart_double inRange positive fits, windowStart_eq_ediv,
    Option.some.injEq, mul_left_inj' width.ne', ediv_eq_iff_between width]
  exact and_iff_right reached

private theorem timestampMillis_natCast {micros : Nat} {window : Int}
    (small : micros < 2 ^ 58) (positive : 0 < secs)
    (reached : window * (secs * microsPerSecond) ≤ carried (micros : Int))
    (stays : carried (micros : Int) <
      (window + 1) * (secs * microsPerSecond)) :
    ∃ millis, timestampMillis (micros : Int) = .ok millis ∧
      millis / (1000 * secs) = window := by
  obtain ⟨millis, read, _, reaches, _⟩ := timestampMillis_reads small
  refine ⟨millis, read, ?_⟩
  rw [ediv_eq_iff_between (by positivity)]
  have opening := reaches (window * secs)
  have closing := reaches ((window + 1) * secs)
  rw [mul_assoc] at opening closing
  constructor
  · have before := opening.mpr reached
    linarith
  · have after := mt closing.mp (not_le.mpr stays)
    linarith

private theorem timestampMillis_neg {micros : Nat} {window : Int}
    (small : micros < 2 ^ 58) (positive : 0 < secs)
    (reached : window * (secs * microsPerSecond) ≤ -(micros : Int))
    (stays : microsPerSecond - carried (micros : Int) ≤
      (window + 1) * (secs * microsPerSecond)) :
    ∃ millis, timestampMillis (-(micros : Int)) = .ok millis ∧
      millis / (1000 * secs) = window := by
  obtain ⟨millis, _, read, reaches, capped⟩ := timestampMillis_reads small
  refine ⟨-millis, read, ?_⟩
  rw [ediv_eq_iff_between (by positivity)]
  constructor
  · have atMost := capped (-(window * secs)) (by
      rw [neg_mul, mul_assoc]
      linarith)
    linarith
  · have closing := (reaches (1 - (window + 1) * secs)).mpr (by
      rw [sub_mul, one_mul, mul_assoc]
      linarith)
    linarith

/-- Where the processor opens the window, if the reading stays inside it. -/
private theorem timestampMillis_window (small : tsEvent.natAbs < 2 ^ 58)
    (positive : 0 < secs)
    (stays : StaysInside tsEvent secs (carried tsEvent)) :
    ∃ millis, timestampMillis tsEvent = .ok millis ∧
      millis / (1000 * secs) = tsEvent / (secs * microsPerSecond) := by
  have reached := window_reached tsEvent positive
  simp only [StaysInside, nextMultiple] at stays
  by_cases afterEpoch : 0 ≤ tsEvent
  · rw [if_pos afterEpoch] at stays
    have further := reached.trans (le_carried afterEpoch)
    obtain ⟨micros, rfl⟩ := Int.eq_ofNat_of_zero_le afterEpoch
    exact timestampMillis_natCast small positive further stays
  · rw [if_neg afterEpoch] at stays
    obtain ⟨micros, rfl⟩ :=
      Int.exists_eq_neg_ofNat (not_le.mp afterEpoch).le
    rw [Int.natAbs_neg, Int.natAbs_natCast] at small
    apply timestampMillis_neg small positive reached
    rw [carried_neg_natCast, ← carried_natCast] at stays
    linarith

private theorem streamStart_eq (inRange : inDatetimeRange tsEvent = true)
    (positive : 0 < secs)
    (stays : StaysInside tsEvent secs (carried tsEvent)) {start : Int}
    (window : tsEvent / (secs * microsPerSecond) * secs = start)
    (lower : minInstant ≤ start * microsPerSecond)
    (upper : start * microsPerSecond ≤ maxInstant) :
    Double.streamStart tsEvent secs = .ok (start * microsPerSecond) := by
  obtain ⟨millis, read, reached⟩ := timestampMillis_window
    (natAbs_lt_of_inDatetimeRange inRange) positive stays
  have aligned : millis - millis % (1000 * secs) = 1000 * start := by
    rw [Int.emod_def, reached, ← window]
    ring
  simp only [Double.streamStart, read, bind_eq_ok_iff]
  refine ⟨millis, rfl, ?_⟩
  rw [aligned]
  exact msToIso_second lower upper

end Window

/-- A window between datetimes is not wider than their range. -/
theorem width_lt_of_bounds {secs : Nat} {start : Int}
    (opening : minInstant ≤ start * microsPerSecond)
    (closing : (start + secs) * microsPerSecond ≤ maxInstant) :
    secs < 2 ^ 53 := by
  have first : (-62135596800000000 : Int) ≤ start * 1000000 := opening
  have last : (start + secs) * 1000000 ≤ (253402300799999999 : Int) := closing
  omega

/-- The four implementations choose one aligned window around the event just
when its window is a pair of datetimes that no rounding leaves. -/
theorem buckets_agree_iff {tsEvent : Instant} {secs : Nat}
    (inRange : inDatetimeRange tsEvent = true) (positive : 0 < secs) :
    (∃ start, OpensAt tsEvent secs start) ↔ KeepsWindow tsEvent secs := by
  have readsTimestamp := (readsNear_timestamp
    (natAbs_lt_of_inDatetimeRange inRange) positive).window_iff positive
  have readsMicros := (readsNear_floated inRange positive).window_iff positive
  have width : (secs : Int) ≠ 0 := by omega
  have macros := windowStart_opens_iff inRange positive
  have bounds : nextMultiple tsEvent secs =
      (tsEvent / (secs * microsPerSecond) * secs + secs) * microsPerSecond := by
    simp only [nextMultiple]
    ring
  rw [← mul_assoc] at macros
  constructor
  · intro agree
    obtain ⟨start, opens⟩ := agree
    obtain ⟨reference, lower, _, _, upper⟩ :=
      (windowBounds_opens_iff inRange).mp opens.reference
    have fits := width_lt_of_bounds lower upper
    -- The window is the one around the event that is aligned.
    have window : tsEvent / (secs * microsPerSecond) * secs = start := by
      obtain ⟨index, rfl⟩ := opens.aligned
      have reached := opens.reached
      have unfinished := opens.unfinished
      have same : tsEvent / (secs * microsPerSecond) = index := by
        rw [ediv_eq_iff_between (micros_width_pos positive)]
        constructor <;> linarith
      rw [same, mul_comm]
    have baseline := Except.ok.inj
      ((bucketSeconds_reads inRange).symm.trans opens.baseline)
    have gold := opens.gold
    rw [← window] at reference baseline lower upper gold
    refine ⟨?_, ?_, ?_, ?_, (macros fits).mp gold⟩
    · rw [bounds]
      linarith
    · rw [bounds]
      exact upper
    · exact readsTimestamp.mp (mul_right_cancel₀ width reference)
    · exact readsMicros.mp (mul_right_cancel₀ width baseline)
  · intro keeps
    have lower := keeps.opening
    have upper := keeps.closing
    rw [bounds] at lower upper
    have reached := window_reached tsEvent positive
    have later : tsEvent < nextMultiple tsEvent secs := by
      simp only [nextMultiple]
      exact Int.lt_ediv_add_one_mul_self _ (micros_width_pos positive)
    rw [bounds] at later
    rw [← mul_assoc] at reached
    have reference := readsTimestamp.mpr keeps.read
    have baseline := readsMicros.mpr keeps.floated
    generalize window : tsEvent / (secs * microsPerSecond) * secs = start at *
    have room : 0 < (secs : Int) * microsPerSecond := micros_width_pos positive
    have opening : minInstant ≤ start * microsPerSecond := by linarith
    have before : start * microsPerSecond ≤ maxInstant := by linarith
    have closing : minInstant ≤ (start + secs) * microsPerSecond := by linarith
    have gold := (macros (width_lt_of_bounds opening upper)).mpr keeps.epoch
    refine ⟨start, ?_, gold, ?_, ?_, ?_, reached, later⟩
    · rw [windowBounds_opens_iff inRange, reference]
      exact ⟨window, opening, before, closing, upper⟩
    · rw [bucketSeconds_reads inRange, baseline, window]
    · exact streamStart_eq inRange positive keeps.read window opening before
    · rw [← window]
      exact dvd_mul_left _ _

theorem buckets_agree_iff_sample :
    (∃ start, OpensAt 1767225600500000 60 start) ∧
      ¬ ∃ start, OpensAt (-60500000) 60 start :=
  ⟨(buckets_agree_iff (by decide) (by decide)).mpr
      ⟨by decide, by decide, by decide +kernel, by decide +kernel,
        by decide +kernel⟩,
    fun agree => absurd
      ((buckets_agree_iff (by decide) (by decide)).mp agree).read
      (by decide +kernel)⟩

/-- Half a second before the epoch the reference opens the window of the
epoch, which the event has not reached. -/
theorem buckets_disagree_before_epoch :
    ¬ ∃ start, OpensAt (-500000) 60 start := by
  intro agree
  obtain ⟨start, opens⟩ := agree
  obtain ⟨closing, reference⟩ := opens.reference
  have epoch : Double.windowBounds (-500000) 60 = .ok (0, 60000000) := by
    decide +kernel
  rw [epoch] at reference
  have opening : 0 = start * microsPerSecond :=
    congrArg Prod.fst (Except.ok.inj reference)
  have reached := opens.reached
  rw [← opening] at reached
  exact absurd reached (by decide)

/-- Until the year 2255 a microsecond count is a double. -/
theorem floatMicros_eq_self {tsEvent : Int}
    (exact : tsEvent.natAbs < 2 ^ 53) : floatMicros tsEvent = tsEvent := by
  obtain ⟨micros, rfl | rfl⟩ := Int.eq_nat_or_neg tsEvent
  · exact floatMicros_of_small exact
  · rw [Int.natAbs_neg, Int.natAbs_natCast] at exact
    rw [floatMicros_neg, floatMicros_of_small exact]

end TickStream
