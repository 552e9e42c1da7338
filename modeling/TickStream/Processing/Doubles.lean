import TickStream.Library.TryEach
import TickStream.Processing.Metrics
import TickStream.Processing.Seconds
import TickStream.Python.Arithmetic

/-!
# The reference in doubles

The source reads an instant as a double timestamp and writes a window bound
back as a datetime, which raises outside the years 1 to 9999.  Both the buckets
and the closing of windows depend on the whole seconds a timestamp reaches, so
what the source returns is the exact reference on the readings of the events,
provided their windows lie in the calendar.
-/

namespace TickStream

open Python Library

namespace Double

/-- `window_bounds`. -/
def windowBounds (tsEvent : Instant) (windowSeconds : Nat) :
    Result (Instant × Instant) := do
  let epoch ← (Json.float (timestamp tsEvent)).toInt
  let start := epoch / windowSeconds * windowSeconds
  let opening ← fromTimestamp (.fin start)
  let closing ← fromTimestamp (.fin (start + windowSeconds : Int))
  return (opening, closing)

/-- The instant whose text `_ms_to_iso` writes. -/
def msToIso (ms : Int) : Result Instant := do
  let double ← floatOfInt ms
  fromTimestamp (millisToSeconds double)

section Numbers

variable {F : Type} [Zero F] [Add F] [Sub F] [Mul F] [Div F] [NatCast F]

/-- The key of the accumulator an event is folded into. -/
def bucket (windowSeconds : Nat) (event : MarketEvent F) :
    Result (String × Instant) := do
  let bounds ← windowBounds event.tsEvent windowSeconds
  return (event.symbol, bounds.1)

/-- The accumulators of all events. -/
def foldWindows (windowSeconds : Nat) (events : List (MarketEvent F)) :
    Result (Dict (String × Instant) (Acc F)) :=
  events.foldlM
    (fun acc event => do
      let window ← bucket windowSeconds event
      return acc.alter window
        (fun current => (current.getD Acc.empty).add event))
    Dict.empty

variable [LT F] [DecidableLT F]

/-- The output row of one accumulator; its end is computed from its start. -/
def windowRow (windowSeconds : Nat) (windowLabel : String)
    (entry : (String × Instant) × Acc F) : Result (WindowMetrics F) := do
  let bounds ← windowBounds entry.1.2 windowSeconds
  return { TickStream.windowRow windowSeconds windowLabel entry with
    windowEnd := bounds.2 }

/-- `compute_windows`. -/
def computeWindows (events : List (MarketEvent F)) (windowSeconds : Nat)
    (windowLabel : String) : Result (List (WindowMetrics F)) := do
  let acc ← foldWindows windowSeconds events
  let rows ← acc.entries.mapM (windowRow windowSeconds windowLabel)
  return rows.insertionSort WindowMetrics.precedes

end Numbers

section Closing

variable {F : Type}

/-- Whether a window has closed: its end and the grace are added as doubles
and compared with the timestamp of the watermark. -/
def isClosed (maxTsBySymbol : Dict String Instant) (graceSeconds : Nat)
    (metrics : WindowMetrics F) : Result Bool :=
  match maxTsBySymbol.get? metrics.symbol with
  | none => .ok false
  | some watermark => do
      let grace ← floatOfInt graceSeconds
      return (timestamp metrics.windowEnd + grace).le (timestamp watermark)

/-- `closed_windows`. -/
def closedWindows (metrics : List (WindowMetrics F))
    (maxTsBySymbol : Dict String Instant) (graceSeconds : Nat) :
    Result (List (WindowMetrics F)) :=
  metrics.foldlM
    (fun out row => do
      let closed ← isClosed maxTsBySymbol graceSeconds row
      return if closed then out ++ [row] else out)
    []

end Closing

end Double

/-- The window of an instant lies in the years datetimes have. -/
structure InCalendar (tsEvent : Instant) (windowSeconds : Nat) : Prop where
  opening : minInstant ≤ (windowBounds (carried tsEvent) windowSeconds).1
  closing : (windowBounds (carried tsEvent) windowSeconds).2 ≤ maxInstant

instance (tsEvent : Instant) (windowSeconds : Nat) :
    Decidable (InCalendar tsEvent windowSeconds) :=
  decidable_of_iff
    (minInstant ≤ (windowBounds (carried tsEvent) windowSeconds).1 ∧
      (windowBounds (carried tsEvent) windowSeconds).2 ≤ maxInstant)
    ⟨fun inside => ⟨inside.1, inside.2⟩,
      fun inside => ⟨inside.opening, inside.closing⟩⟩

/-- An event at the instant its double timestamp truncates to. -/
def MarketEvent.reading {F : Type} (event : MarketEvent F) : MarketEvent F :=
  { event with tsEvent := carried event.tsEvent }

theorem SizesNonneg.reading {events : List (MarketEvent Rat)}
    (sizes : SizesNonneg events) :
    SizesNonneg (events.map MarketEvent.reading) := by
  intro read member size present
  obtain ⟨event, eventMember, rfl⟩ := List.mem_map.mp member
  exact sizes event eventMember size present

section Bounds

variable {tsEvent : Instant} {windowSeconds : Nat}

/-- The bounds the source computes are the exact ones of the reading. -/
theorem windowBounds_double_iff
    (inRange : inDatetimeRange tsEvent = true) {bounds : Instant × Instant} :
    Double.windowBounds tsEvent windowSeconds = .ok bounds ↔
      InCalendar tsEvent windowSeconds ∧
        bounds = windowBounds (carried tsEvent) windowSeconds := by
  have small := natAbs_lt_of_inDatetimeRange inRange
  have room : (0 : Int) ≤ windowSeconds * microsPerSecond := by
    have positive := microsPerSecond_pos
    positivity
  simp only [Double.windowBounds, toInt_timestamp small, bind_eq_ok_iff,
    Except.ok.injEq, fromTimestamp_intCast]
  constructor
  · intro returned
    obtain ⟨_, rfl, _, ⟨rfl, lower, _⟩, _, ⟨rfl, _, upper⟩, pair⟩ := returned
    cases pair
    exact ⟨⟨lower, upper⟩, rfl⟩
  · intro inside
    obtain ⟨⟨lower, upper⟩, rfl⟩ := inside
    simp only [windowBounds, Int.add_mul] at lower upper ⊢
    refine ⟨_, rfl, _, ⟨rfl, lower, by linarith⟩, _, ⟨rfl, ?_, upper⟩, rfl⟩
    linarith

/-- Where no double timestamp crosses a second, the source computes the exact
bounds of any window in the calendar. -/
theorem windowBounds_eq_of_double {tsEvent : Int}
    (early : tsEvent.natAbs < 2 ^ 34 * 10 ^ 6)
    {bounds : Instant × Instant}
    (returned : Double.windowBounds tsEvent windowSeconds = .ok bounds) :
    windowBounds tsEvent windowSeconds = bounds := by
  have inRange : inDatetimeRange tsEvent = true := by
    have lower : (-62135596800000000 : Int) ≤ tsEvent := by omega
    have upper : tsEvent ≤ (253402300799999999 : Int) := by omega
    exact inDatetimeRange_iff.mpr ⟨lower, upper⟩
  rw [((windowBounds_double_iff inRange).mp returned).2,
    carried_eq_self early]

/-- The timestamp of a whole second is exact. -/
theorem timestamp_second {second : Int} (small : second.natAbs < 2 ^ 53) :
    timestamp (second * microsPerSecond) = .fin second := by
  simp only [timestamp]
  have quotient : ((second * microsPerSecond : Int) : Rat) /
      microsPerSecond = second := by
    push_cast
    exact mul_div_cancel_right₀ _ (by norm_num [microsPerSecond])
  rw [quotient]
  exact roundToDouble_intCast small

/-- The reading of a whole second is that second. -/
private theorem windowBounds_carried_second {second : Int}
    (small : (second * microsPerSecond).natAbs < 2 ^ 58) :
    windowBounds (carried (second * microsPerSecond)) windowSeconds =
      windowBounds (second * microsPerSecond) windowSeconds := by
  have exact : timestamp (second * microsPerSecond) = .fin second := by
    apply timestamp_second
    simp only [microsPerSecond] at small
    omega
  have read := toInt_timestamp small
  rw [exact, Json.toInt, Except.ok.injEq] at read
  have whole : truncate (second : Rat) = second := by
    simp only [truncate, Rat.floor_intCast, Rat.ceil_intCast, ite_self]
  rw [whole] at read
  simp only [windowBounds, ← read,
    Int.mul_tdiv_cancel _ microsPerSecond_ne_zero]

theorem msToIso_second {second : Int}
    (lower : minInstant ≤ second * microsPerSecond)
    (upper : second * microsPerSecond ≤ maxInstant) :
    Double.msToIso (1000 * second) = .ok (second * microsPerSecond) := by
  have range : (-62135596800000000 : Int) ≤ second * 1000000 ∧
      second * 1000000 ≤ 253402300799999999 := ⟨lower, upper⟩
  have exact : roundToDouble ((1000 * second : Int) : Rat) =
      .fin ((1000 * second : Int) : Rat) := by
    apply roundToDouble_intCast
    omega
  have seconds : roundToDouble ((second : Int) : Rat) = .fin second := by
    apply roundToDouble_intCast
    omega
  have quotient : ((1000 * second : Int) : Rat) / 1000 = second := by
    push_cast
    exact mul_div_cancel_left₀ _ (by norm_num)
  simp only [Double.msToIso, bind_eq_ok_iff, floatOfInt, exact]
  refine ⟨_, rfl, ?_⟩
  simp only [millisToSeconds, quotient, seconds]
  exact fromTimestamp_intCast.mpr ⟨rfl, lower, upper⟩

theorem InCalendar.inRange (inside : InCalendar tsEvent windowSeconds) :
    inDatetimeRange (windowBounds (carried tsEvent) windowSeconds).1 =
      true := by
  have room : (0 : Int) ≤ windowSeconds * microsPerSecond := by
    have positive := microsPerSecond_pos
    positivity
  have upper := inside.closing
  rw [windowBounds_snd_eq] at upper
  rw [inDatetimeRange_iff]
  exact ⟨inside.opening, by linarith⟩

/-- The start of a window has the bounds of the window. -/
theorem InCalendar.start (inside : InCalendar tsEvent windowSeconds) :
    Double.windowBounds (windowBounds (carried tsEvent) windowSeconds).1
        windowSeconds =
      .ok (windowBounds (carried tsEvent) windowSeconds) := by
  have same : windowBounds
      (carried (windowBounds (carried tsEvent) windowSeconds).1)
        windowSeconds = windowBounds (carried tsEvent) windowSeconds := by
    have small := natAbs_lt_of_inDatetimeRange inside.inRange
    exact (windowBounds_carried_second small).trans
      (windowBounds_start (carried tsEvent) windowSeconds)
  rw [windowBounds_double_iff inside.inRange]
  refine ⟨⟨?_, ?_⟩, same.symm⟩
  · rw [same]
    exact inside.opening
  · rw [same]
    exact inside.closing

end Bounds

section Rows

variable {F : Type} [Zero F] [Add F] [Sub F] [Mul F] [Div F] [NatCast F]
  {events : List (MarketEvent F)} {windowSeconds : Nat}

omit [Zero F] [Add F] [Sub F] [Mul F] [Div F] [NatCast F] in
theorem bucket_double_iff {event : MarketEvent F}
    (inRange : inDatetimeRange event.tsEvent = true)
    {window : String × Instant} :
    Double.bucket windowSeconds event = .ok window ↔
      InCalendar event.tsEvent windowSeconds ∧
        window = bucket windowSeconds event.reading := by
  simp only [Double.bucket, bind_eq_ok_iff, windowBounds_double_iff inRange]
  constructor
  · intro returned
    obtain ⟨_, ⟨inside, rfl⟩, same⟩ := returned
    cases same
    exact ⟨inside, rfl⟩
  · intro inside
    obtain ⟨inside, rfl⟩ := inside
    exact ⟨_, ⟨inside, rfl⟩, rfl⟩

/-- The fold gets through the events exactly when all their windows lie in the
calendar, and has then folded their readings. -/
private theorem foldWindows_iff
    (inRange : ∀ event ∈ events, inDatetimeRange event.tsEvent = true)
    {acc : Dict (String × Instant) (Acc F)} :
    Double.foldWindows windowSeconds events = .ok acc ↔
      (∀ event ∈ events, InCalendar event.tsEvent windowSeconds) ∧
        acc = foldKeyed (bucket windowSeconds) Acc.add Acc.empty
          (events.map MarketEvent.reading) := by
  simp only [Double.foldWindows, foldKeyed]
  generalize Dict.empty = start
  induction events generalizing start with
  | nil =>
      simp only [List.foldlM_nil, List.map_nil, List.foldl_nil]
      constructor
      · intro returned
        cases returned
        exact ⟨by simp, rfl⟩
      · intro returned
        rw [returned.2]
        rfl
  | cons event rest induction =>
      have head := inRange event (by simp)
      have tail := induction (fun other member => inRange other (by simp [member]))
      simp only [List.foldlM_cons, bind_eq_ok_iff, bucket_double_iff head,
        List.map_cons, List.foldl_cons, List.forall_mem_cons]
      constructor
      · intro returned
        obtain ⟨next, ⟨window, ⟨inside, rfl⟩, folded⟩, later⟩ := returned
        cases folded
        obtain ⟨others, same⟩ := (tail _).mp later
        exact ⟨⟨inside, others⟩, same⟩
      · intro inside
        obtain ⟨⟨inside, others⟩, same⟩ := inside
        exact ⟨_, ⟨_, ⟨inside, rfl⟩, rfl⟩, (tail _).mpr ⟨others, same⟩⟩

variable [LT F] [DecidableLT F] {windowLabel : String}

/-- Every accumulator has its row. -/
theorem windowRow_double
    (inside : ∀ event ∈ events, InCalendar event.tsEvent windowSeconds)
    {entry : (String × Instant) × Acc F}
    (member : entry ∈ (foldKeyed (bucket windowSeconds) Acc.add Acc.empty
      (events.map MarketEvent.reading)).entries) :
    Double.windowRow windowSeconds windowLabel entry =
      .ok (windowRow windowSeconds windowLabel entry) := by
  obtain ⟨window, acc⟩ := entry
  obtain ⟨⟨read, readMember, rfl⟩, _⟩ := (mem_foldKeyed _ _ _).mp member
  obtain ⟨event, eventMember, rfl⟩ := List.mem_map.mp readMember
  have start := (inside event eventMember).start
  have ending := windowBounds_start (carried event.tsEvent) windowSeconds
  simp only [Double.windowRow, bucket, MarketEvent.reading, start, windowRow,
    ending]
  rfl

/-- The rows the source returns: it returns exactly when all windows lie in
the calendar, and then the rows of the readings. -/
theorem computeWindows_double_iff
    (inRange : ∀ event ∈ events, inDatetimeRange event.tsEvent = true)
    {rows : List (WindowMetrics F)} :
    Double.computeWindows events windowSeconds windowLabel = .ok rows ↔
      (∀ event ∈ events, InCalendar event.tsEvent windowSeconds) ∧
        rows = computeWindows (events.map MarketEvent.reading) windowSeconds
          windowLabel := by
  simp only [Double.computeWindows, bind_eq_ok_iff, foldWindows_iff inRange]
  constructor
  · intro returned
    obtain ⟨_, ⟨inside, rfl⟩, computed, mapped, sorted⟩ := returned
    rw [mapM_ok (fun entry member => windowRow_double inside member)] at mapped
    cases mapped
    cases sorted
    exact ⟨inside, rfl⟩
  · intro inside
    obtain ⟨inside, rfl⟩ := inside
    exact ⟨_, ⟨inside, rfl⟩, _,
      mapM_ok (fun entry member => windowRow_double inside member), rfl⟩

end Rows

section Closing

variable {F : Type}

/-- No timestamp comes near `2 ^ 51` seconds. -/
private theorem reached_lt {tsEvent : Int}
    (inRange : inDatetimeRange tsEvent = true) :
    reached tsEvent < 2 ^ 51 * microsPerSecond := by
  have early := natAbs_lt_of_inDatetimeRange inRange
  have carries := carriedMicros_lt early
  have far : (tsEvent + carriedMicros tsEvent.natAbs : Int) <
      2 ^ 51 * 1000000 := by
    omega
  exact far

/-- A converted integer is a finite double. -/
private theorem floatOfInt_eq_ok {value : Int} {double : PyFloat}
    (converted : floatOfInt value = .ok double) :
    ∃ finite, double = .fin finite ∧ roundToDouble value = .fin finite := by
  simp only [floatOfInt] at converted
  cases rounded : roundToDouble (value : Rat) with
  | nan =>
      simp only [roundToDouble] at rounded
      split_ifs at rounded
  | inf negative =>
      rw [rounded] at converted
      cases converted
  | fin finite =>
      rw [rounded] at converted
      cases converted
      exact ⟨finite, rfl, rfl⟩

/-- Adding a grace beyond all datetimes leaves them behind. -/
private theorem le_add_of_large {second : Int} (small : second.natAbs < 2 ^ 38)
    {grace : Rat} (large : 2 ^ 52 ≤ grace) :
    (PyFloat.fin ((2 ^ 51 : Int) : Rat)).le
      (PyFloat.fin second + .fin grace) = true := by
  have exact : roundToDouble ((2 ^ 51 : Int) : Rat) =
      .fin ((2 ^ 51 : Int) : Rat) := roundToDouble_intCast (by decide)
  have lower : (-(2 ^ 38 : Int) : Rat) ≤ second := by
    exact_mod_cast (by omega : -(2 ^ 38 : Int) ≤ second)
  rw [← exact, PyFloat.fin_add]
  apply roundToDouble_mono
  push_cast at lower ⊢
  linarith

/-- A window end and a grace, added as doubles, stand where they should next to
any timestamp. -/
private theorem grace_le_timestamp_iff {tsEvent : Instant}
    (inRange : inDatetimeRange tsEvent = true) {second : Int}
    (small : second.natAbs < 2 ^ 38) {graceSeconds : Nat} {grace : PyFloat}
    (converted : floatOfInt graceSeconds = .ok grace) :
    (PyFloat.fin second + grace).le (timestamp tsEvent) = true ↔
      (second + graceSeconds) * microsPerSecond ≤ reached tsEvent := by
  have early := natAbs_lt_of_inDatetimeRange inRange
  by_cases exact : graceSeconds < 2 ^ 52
  · have whole : roundToDouble ((graceSeconds : Int) : Rat) =
        .fin ((graceSeconds : Int) : Rat) :=
      roundToDouble_intCast (by omega)
    simp only [floatOfInt, whole, Except.ok.injEq] at converted
    subst converted
    have sum : PyFloat.fin (second : Rat) + .fin ((graceSeconds : Int) : Rat) =
        .fin ((second + graceSeconds : Int) : Rat) := by
      rw [PyFloat.fin_add, ← Int.cast_add]
      exact roundToDouble_intCast (by omega)
    rw [sum, le_timestamp_iff early]
  · -- Neither side can hold: the sum is far beyond all timestamps.
    have wide : (2 : Int) ^ 52 ≤ graceSeconds := by omega
    have cast : ((2 ^ 52 : Int) : Rat) ≤ ((graceSeconds : Int) : Rat) := by
      exact_mod_cast wide
    have ordered := roundToDouble_mono cast
    have exact52 : roundToDouble ((2 ^ 52 : Int) : Rat) =
        .fin ((2 ^ 52 : Int) : Rat) := roundToDouble_intCast (by decide)
    obtain ⟨double, rfl, rounded⟩ := floatOfInt_eq_ok converted
    rw [exact52, rounded] at ordered
    simp only [PyFloat.le, decide_eq_true_eq] at ordered
    push_cast at ordered
    have bound := reached_lt inRange
    constructor
    · intro closes
      have far := PyFloat.le_trans (le_add_of_large small ordered) closes
      rw [le_timestamp_iff early] at far
      linarith
    · intro closes
      have near := lt_of_le_of_lt closes bound
      simp only [microsPerSecond] at near
      omega

/-- Later timestamps reach the seconds of earlier ones. -/
private theorem reached_mono {earlier later : Instant}
    (earlierInRange : inDatetimeRange earlier = true)
    (laterInRange : inDatetimeRange later = true) (ordered : earlier ≤ later)
    {second : Int} (reaches : second * microsPerSecond ≤ reached earlier) :
    second * microsPerSecond ≤ reached later := by
  rw [← le_timestamp_iff (natAbs_lt_of_inDatetimeRange earlierInRange)]
    at reaches
  rw [← le_timestamp_iff (natAbs_lt_of_inDatetimeRange laterInRange)]
  apply PyFloat.le_trans reaches
  apply roundToDouble_mono
  have cast : (earlier : Rat) ≤ (later : Rat) := by exact_mod_cast ordered
  have seconds : (0 : Rat) < microsPerSecond := by
    exact_mod_cast microsPerSecond_pos
  exact div_le_div_of_nonneg_right cast seconds.le

/-- Some event of the row's symbol reaches the end of its window and the grace,
as a double. -/
def closedBy (events : List (MarketEvent F)) (graceSeconds : Nat)
    (row : WindowMetrics F) : Bool :=
  events.any (fun event => event.symbol = row.symbol &&
    decide (row.windowEnd + graceSeconds * microsPerSecond ≤
      reached event.tsEvent))

theorem closedBy_iff {events : List (MarketEvent F)} {graceSeconds : Nat}
    {row : WindowMetrics F} :
    closedBy events graceSeconds row = true ↔
      ∃ event ∈ events, event.symbol = row.symbol ∧
        row.windowEnd + graceSeconds * microsPerSecond ≤
          reached event.tsEvent := by
  simp [closedBy]

/-- The end of a row's window is a whole second of a datetime. -/
def WholeEnd (row : WindowMetrics F) : Prop :=
  ∃ second : Int, row.windowEnd = second * microsPerSecond ∧
    second.natAbs < 2 ^ 38

/-- A row is closed when the watermark of its symbol reaches the end of its
window and the grace. -/
theorem closedBy_watermark {events : List (MarketEvent F)}
    (inRange : ∀ event ∈ events, inDatetimeRange event.tsEvent = true)
    {row : WindowMetrics F} (whole : WholeEnd row) {graceSeconds : Nat} :
    closedBy events graceSeconds row = true ↔
      ∃ watermark, (maxEventTsBySymbol events).get? row.symbol =
          some watermark ∧ inDatetimeRange watermark = true ∧
        row.windowEnd + graceSeconds * microsPerSecond ≤ reached watermark := by
  obtain ⟨second, ending, _⟩ := whole
  rw [closedBy_iff]
  constructor
  · intro closes
    obtain ⟨event, member, symbol, reaches⟩ := closes
    obtain ⟨_, bound, later⟩ := (maxEventTsBySymbol_reaches events
      row.symbol event.tsEvent).mpr ⟨event, member, symbol, le_rfl⟩
    obtain ⟨latest, latestMember, _, rfl⟩ := watermark_attained bound
    refine ⟨_, bound, inRange latest latestMember, ?_⟩
    rw [ending, ← add_mul] at reaches ⊢
    exact_mod_cast reached_mono (inRange event member)
      (inRange latest latestMember) later (by exact_mod_cast reaches)
  · intro closes
    obtain ⟨_, bound, _, reaches⟩ := closes
    obtain ⟨latest, latestMember, latestSymbol, rfl⟩ :=
      watermark_attained bound
    exact ⟨latest, latestMember, latestSymbol, reaches⟩

/-- The comparison of the source, for a row whose symbol has a watermark. -/
private theorem isClosed_double {events : List (MarketEvent F)}
    (inRange : ∀ event ∈ events, inDatetimeRange event.tsEvent = true)
    {row : WindowMetrics F} (whole : WholeEnd row)
    (watched : ∃ event ∈ events, event.symbol = row.symbol)
    (graceSeconds : Nat) :
    Double.isClosed (maxEventTsBySymbol events) graceSeconds row =
      (floatOfInt graceSeconds).map (fun _ =>
        closedBy events graceSeconds row) := by
  obtain ⟨other, otherMember, otherSymbol⟩ := watched
  obtain ⟨watermark, bound, _⟩ := (maxEventTsBySymbol_reaches events row.symbol
    other.tsEvent).mpr ⟨other, otherMember, otherSymbol, le_rfl⟩
  obtain ⟨latest, latestMember, _, rfl⟩ := watermark_attained bound
  have watermarkInRange := inRange latest latestMember
  have closes := @closedBy_watermark F events inRange row whole graceSeconds
  obtain ⟨second, ending, small⟩ := whole
  have endTimestamp : timestamp (second * microsPerSecond) = .fin second :=
    timestamp_second (by omega)
  simp only [Double.isClosed, bound, ending, endTimestamp]
  cases converted : floatOfInt graceSeconds with
  | error failure => rfl
  | ok grace =>
      have compares := grace_le_timestamp_iff watermarkInRange small converted
      change Except.ok _ = Except.ok _
      rw [Except.ok.injEq, Bool.eq_iff_iff, compares, closes, bound, ending,
        ← add_mul]
      simp [watermarkInRange]

private theorem closedWindows_foldlM {metrics : List (WindowMetrics F)}
    {maxTsBySymbol : Dict String Instant} {graceSeconds : Nat}
    {decided : WindowMetrics F → Bool}
    (decides : ∀ row ∈ metrics,
      Double.isClosed maxTsBySymbol graceSeconds row = .ok (decided row)) :
    Double.closedWindows metrics maxTsBySymbol graceSeconds =
      .ok (metrics.filter decided) := by
  have all : ∀ out : List (WindowMetrics F), metrics.foldlM
      (fun out row => do
        let closed ← Double.isClosed maxTsBySymbol graceSeconds row
        return if closed then out ++ [row] else out) out =
      (.ok (out ++ metrics.filter decided) : Result _) := by
    induction metrics with
    | nil =>
        intro out
        rw [List.foldlM_nil, List.filter_nil, List.append_nil]
        rfl
    | cons row rest induction =>
        intro out
        have tail := induction
          (fun other member => decides other (by simp [member]))
        rw [List.foldlM_cons, decides row (by simp)]
        cases chosen : decided row with
        | false =>
            simp only [List.filter_cons, chosen]
            exact tail out
        | true =>
            have appended := tail (out ++ [row])
            rw [List.append_assoc] at appended
            simp only [List.filter_cons, chosen]
            exact appended
  exact all []

/-- The closed windows the source returns: it raises only on a grace beyond the
doubles. -/
theorem closedWindows_double_iff {events : List (MarketEvent F)}
    (inRange : ∀ event ∈ events, inDatetimeRange event.tsEvent = true)
    {metrics : List (WindowMetrics F)}
    (whole : ∀ row ∈ metrics, WholeEnd row)
    (watched : ∀ row ∈ metrics, ∃ event ∈ events, event.symbol = row.symbol)
    {graceSeconds : Nat} {closed : List (WindowMetrics F)} :
    Double.closedWindows metrics (maxEventTsBySymbol events) graceSeconds =
        .ok closed ↔
      (metrics = [] ∨ Returns (floatOfInt graceSeconds)) ∧
        closed = metrics.filter (closedBy events graceSeconds) := by
  have decides := fun row member => isClosed_double inRange (whole row member)
    (watched row member) graceSeconds
  cases converted : floatOfInt graceSeconds with
  | ok grace =>
      have kept : Double.closedWindows metrics (maxEventTsBySymbol events)
          graceSeconds =
            .ok (metrics.filter (closedBy events graceSeconds)) := by
        apply closedWindows_foldlM
        intro row member
        rw [decides row member, converted]
        rfl
      rw [kept]
      simp [eq_comm]
  | error failure =>
      cases metrics with
      | nil =>
          simp only [Double.closedWindows, List.foldlM_nil, List.filter_nil]
          constructor
          · intro returned
            cases returned
            exact ⟨by simp, rfl⟩
          · intro empty
            rw [empty.2]
            rfl
      | cons row rest =>
          have refused := decides row (by simp)
          rw [converted] at refused
          simp only [Double.closedWindows, List.foldlM_cons, refused]
          simp [Except.map, bind, Except.bind]

end Closing

end TickStream
