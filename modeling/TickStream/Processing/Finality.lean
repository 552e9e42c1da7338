import TickStream.Processing.Accumulator
import TickStream.Processing.Doubles

/-!
# Finality of closed windows

A window closes when its symbol's watermark reaches its end and the grace; an
event that could still change it is late then.  The source compares doubles,
so a watermark can close a window it has not reached, and an event that is on
time can still fall into it.
-/

namespace TickStream

open Python Library

section Emission

variable {F : Type} [Zero F] [Add F] [Sub F] [Mul F] [Div F] [NatCast F]
  [LT F] [DecidableLT F]

/-- The rows that are final after some events. -/
def Double.emitted (events : List (MarketEvent F))
    (windowSeconds graceSeconds : Nat) (windowLabel : String) :
    Result (List (WindowMetrics F)) := do
  let metrics ← Double.computeWindows events windowSeconds windowLabel
  Double.closedWindows metrics (maxEventTsBySymbol events) graceSeconds

end Emission

section Lateness

variable {F : Type}

/-- An event that arrives after `earlier` although the watermark of its symbol
has reached the end of its window and the grace. -/
def LateOnArrival (windowSeconds graceSeconds : Nat)
    (earlier : List (MarketEvent F)) (event : MarketEvent F) : Prop :=
  ∃ watermark bounds,
    (maxEventTsBySymbol earlier).get? event.symbol = some watermark ∧
      Double.windowBounds event.tsEvent windowSeconds = .ok bounds ∧
        bounds.2 + graceSeconds * microsPerSecond ≤ watermark

/-- None of the events that follow `first` is late when its turn comes. -/
def NoneLateAfter (windowSeconds graceSeconds : Nat)
    (first second : List (MarketEvent F)) : Prop :=
  ∀ before event after, second = before ++ event :: after →
    ¬ LateOnArrival windowSeconds graceSeconds (first ++ before) event

/-- The double of a watermark reaches a bound that the watermark has not
reached. -/
def RoundsUpTo (watermark bound : Instant) : Prop :=
  watermark < bound ∧ bound ≤ reached watermark

/-- Until the year 2514 no watermark does. -/
private theorem not_roundsUpTo {watermark : Int}
    (early : watermark.natAbs < 2 ^ 34 * 10 ^ 6) (bound : Instant) :
    ¬ RoundsUpTo watermark bound := by
  intro rounds
  obtain ⟨before, after⟩ := rounds
  rw [reached, carriedMicros_eq_zero early] at after
  have same : watermark + (0 : Nat) = watermark := add_zero watermark
  exact absurd (before.trans_le (after.trans_eq same)) (lt_irrefl _)

/-- What follows can be computed, and no contributing event of it falls into a
window of `first` that the watermark has closed by rounding alone. -/
structure Undisturbed (windowSeconds graceSeconds : Nat)
    (first second : List (MarketEvent F)) : Prop where
  inCalendar : ∀ event ∈ second, InCalendar event.tsEvent windowSeconds
  convertible : second = [] ∨ Returns (floatOfInt graceSeconds)
  clear : ∀ event ∈ second, event.Contributes →
    (∃ other ∈ first, bucket windowSeconds other.reading =
      bucket windowSeconds event.reading) →
    ∀ watermark,
      (maxEventTsBySymbol first).get? event.symbol = some watermark →
        ¬ RoundsUpTo watermark
          ((windowBounds (carried event.tsEvent) windowSeconds).2 +
            graceSeconds * microsPerSecond)

/-- Until the year 2514 nothing that can be computed disturbs a window. -/
private theorem undisturbed_of_early {windowSeconds graceSeconds : Nat}
    {first second : List (MarketEvent F)}
    (inCalendar : ∀ event ∈ second, InCalendar event.tsEvent windowSeconds)
    (convertible : second = [] ∨ Returns (floatOfInt graceSeconds))
    (early : ∀ event ∈ first, Int.natAbs event.tsEvent < 2 ^ 34 * 10 ^ 6) :
    Undisturbed windowSeconds graceSeconds first second := by
  refine ⟨inCalendar, convertible, ?_⟩
  intro event _ _ _ watermark bound
  obtain ⟨latest, member, _, rfl⟩ := watermark_attained bound
  exact not_roundsUpTo (early latest member) _

/-- Events of one bucket share their symbol and the end of their window. -/
theorem window_of_bucket {windowSeconds : Nat} {left right : MarketEvent F}
    (same : bucket windowSeconds left.reading =
      bucket windowSeconds right.reading) :
    left.symbol = right.symbol ∧
      (windowBounds (carried left.tsEvent) windowSeconds).2 =
        (windowBounds (carried right.tsEvent) windowSeconds).2 := by
  have sameStart : (windowBounds (carried left.tsEvent) windowSeconds).1 =
      (windowBounds (carried right.tsEvent) windowSeconds).1 :=
    congrArg Prod.snd same
  refine ⟨congrArg Prod.fst same, ?_⟩
  rw [windowBounds_snd_eq, sameStart, ← windowBounds_snd_eq]

/-- An event that is on time and disturbs nothing leaves a closed bucket
alone. -/
private theorem not_contributes_of_closed {windowSeconds graceSeconds : Nat}
    {first second : List (MarketEvent F)}
    (inRange : ∀ event ∈ second, inDatetimeRange event.tsEvent = true)
    (onTime : NoneLateAfter windowSeconds graceSeconds first second)
    (undisturbed : Undisturbed windowSeconds graceSeconds first second)
    {event later : MarketEvent F} (member : event ∈ first)
    (laterMember : later ∈ second)
    (sameBucket : bucket windowSeconds later.reading =
      bucket windowSeconds event.reading) {watermark : Instant}
    (bound : (maxEventTsBySymbol first).get? event.symbol = some watermark)
    (reaches : (windowBounds (carried event.tsEvent) windowSeconds).2 +
      graceSeconds * microsPerSecond ≤ reached watermark) :
    ¬ later.Contributes := by
  intro contributes
  obtain ⟨sameSymbol, sameEnd⟩ := window_of_bucket sameBucket
  rw [← sameSymbol] at bound
  rw [← sameEnd] at reaches
  obtain ⟨before, after, split⟩ := List.append_of_mem laterMember
  apply onTime before later after split
  obtain ⟨latest, latestMember, latestSymbol, sameTime⟩ :=
    watermark_attained bound
  obtain ⟨whole, wholeBound, atLeast⟩ := (maxEventTsBySymbol_reaches
    (first ++ before) later.symbol watermark).mpr ⟨latest,
      List.mem_append_left _ latestMember, latestSymbol, sameTime.ge⟩
  refine ⟨whole, _, wholeBound, (windowBounds_double_iff
    (inRange later laterMember)).mpr
      ⟨undisturbed.inCalendar later laterMember, rfl⟩, ?_⟩
  by_contra short
  apply undisturbed.clear later laterMember contributes
    ⟨event, member, sameBucket.symm⟩ watermark bound
  exact ⟨lt_of_le_of_lt atLeast (not_le.mp short), reaches⟩

end Lateness

section Emitted

variable {F : Type} [Zero F] [Add F] [Sub F] [Mul F] [Div F] [NatCast F]
  [LT F] [DecidableLT F] {windowSeconds graceSeconds : Nat}
  {windowLabel : String} {events first second : List (MarketEvent F)}

/-- The row of an event's bucket. -/
def rowOf (windowSeconds : Nat) (windowLabel : String)
    (events : List (MarketEvent F)) (event : MarketEvent F) :
    WindowMetrics F :=
  windowRow windowSeconds windowLabel
    (bucket windowSeconds event.reading,
      (itemsAt (bucket windowSeconds) (events.map MarketEvent.reading)
        (bucket windowSeconds event.reading)).foldl Acc.add Acc.empty)

theorem rowOf_windowEnd (event : MarketEvent F) :
    (rowOf windowSeconds windowLabel events event).windowEnd =
      (windowBounds (carried event.tsEvent) windowSeconds).2 := by
  simp only [rowOf, windowRow, bucket, MarketEvent.reading, windowBounds_start]

theorem rowOf_wholeEnd {event : MarketEvent F}
    (inside : InCalendar event.tsEvent windowSeconds) :
    WholeEnd (rowOf windowSeconds windowLabel events event) := by
  obtain ⟨start, same⟩ : ∃ start : Int, start =
      (carried event.tsEvent).tdiv microsPerSecond / windowSeconds *
        windowSeconds := ⟨_, rfl⟩
  have lower := inside.opening
  have upper := inside.closing
  have ending : (rowOf windowSeconds windowLabel events event).windowEnd = _ :=
    rowOf_windowEnd event
  simp only [windowBounds, ← same] at lower upper ending
  have afterFirst : (-62135596800000000 : Int) ≤ start * 1000000 := lower
  have beforeLast : (start + windowSeconds) * 1000000 ≤
      (253402300799999999 : Int) := upper
  exact ⟨start + windowSeconds, ending, by omega⟩

theorem mem_computeWindows_reading {row : WindowMetrics F} :
    row ∈ computeWindows (events.map MarketEvent.reading) windowSeconds
        windowLabel ↔
      ∃ event ∈ events,
        row = rowOf windowSeconds windowLabel events event := by
  rw [mem_computeWindows]
  simp only [List.mem_map, exists_exists_and_eq_and]
  rfl

/-- The closed rows of some of the events, under the watermarks of all. -/
theorem closedWindows_reading_iff {kept : List (MarketEvent F)}
    (inRange : ∀ event ∈ events, inDatetimeRange event.tsEvent = true)
    (subset : kept ⊆ events)
    (inside : ∀ event ∈ kept, InCalendar event.tsEvent windowSeconds)
    {closed : List (WindowMetrics F)} :
    Double.closedWindows (computeWindows (kept.map MarketEvent.reading)
        windowSeconds windowLabel) (maxEventTsBySymbol events) graceSeconds =
          .ok closed ↔
      (kept = [] ∨ Returns (floatOfInt graceSeconds)) ∧
        closed = (computeWindows (kept.map MarketEvent.reading) windowSeconds
          windowLabel).filter (closedBy events graceSeconds) := by
  have empty : computeWindows (kept.map MarketEvent.reading) windowSeconds
      windowLabel = [] ↔ kept = [] := by
    simp only [List.eq_nil_iff_forall_not_mem, mem_computeWindows_reading]
    constructor
    · intro none event member
      exact none _ ⟨event, member, rfl⟩
    · intro none row found
      obtain ⟨event, member, _⟩ := found
      exact none event member
  rw [closedWindows_double_iff inRange, empty]
  · intro row member
    obtain ⟨event, eventMember, rfl⟩ := mem_computeWindows_reading.mp member
    exact rowOf_wholeEnd (inside event eventMember)
  · intro row member
    obtain ⟨event, eventMember, rfl⟩ := mem_computeWindows_reading.mp member
    exact ⟨event, subset eventMember, rfl⟩

/-- What is emitted, when nothing raises: the closed rows of the readings. -/
theorem emitted_iff
    (inRange : ∀ event ∈ events, inDatetimeRange event.tsEvent = true)
    {closed : List (WindowMetrics F)} :
    Double.emitted events windowSeconds graceSeconds windowLabel =
        .ok closed ↔
      ((∀ event ∈ events, InCalendar event.tsEvent windowSeconds) ∧
        (events = [] ∨ Returns (floatOfInt graceSeconds))) ∧
      closed = (computeWindows (events.map MarketEvent.reading) windowSeconds
        windowLabel).filter (closedBy events graceSeconds) := by
  simp only [Double.emitted, bind_eq_ok_iff, computeWindows_double_iff inRange]
  constructor
  · intro returned
    obtain ⟨_, ⟨inside, rfl⟩, filtered⟩ := returned
    obtain ⟨convertible, same⟩ := (closedWindows_reading_iff inRange
      (List.Subset.refl events) inside).mp filtered
    exact ⟨⟨inside, convertible⟩, same⟩
  · intro returned
    obtain ⟨⟨inside, convertible⟩, same⟩ := returned
    exact ⟨_, ⟨inside, rfl⟩, (closedWindows_reading_iff inRange
      (List.Subset.refl events) inside).mpr ⟨convertible, same⟩⟩

omit [Zero F] [LT F] [DecidableLT F] in
theorem Acc.add_of_not_contributes {acc : Acc F} {event : MarketEvent F}
    (ignored : ¬ event.Contributes) : acc.add event = acc := by
  simp only [MarketEvent.Contributes] at ignored
  simp only [Acc.add]
  cases kind : event.eventType with
  | trade =>
      cases price : event.price with
      | none => rfl
      | some _ =>
          cases size : event.size with
          | none => rfl
          | some _ => simp [kind, price, size] at ignored
  | ticker =>
      cases bid : event.bestBid with
      | none => rfl
      | some _ =>
          cases ask : event.bestAsk with
          | none => rfl
          | some _ => simp [kind, bid, ask] at ignored

omit [Zero F] [LT F] [DecidableLT F] in
theorem Acc.foldl_of_none_contributes {items : List (MarketEvent F)}
    (ignored : ∀ event ∈ items, ¬ event.Contributes) (acc : Acc F) :
    items.foldl Acc.add acc = acc := by
  induction items generalizing acc with
  | nil => rfl
  | cons event rest induction =>
      rw [List.foldl_cons, Acc.add_of_not_contributes (ignored event (by simp))]
      exact induction (fun other member => ignored other (by simp [member])) acc

omit [Zero F] [LT F] [DecidableLT F] in
/-- Folding counts the events that contribute. -/
theorem Acc.foldl_counts (items : List (MarketEvent F)) (acc : Acc F) :
    (items.foldl Acc.add acc).trades + (items.foldl Acc.add acc).tickers =
      acc.trades + acc.tickers +
        items.countP (fun event => event.Contributes) := by
  induction items generalizing acc with
  | nil => rfl
  | cons event rest induction =>
      rw [List.foldl_cons, induction, List.countP_cons]
      by_cases contributes : event.Contributes
      · have one : (acc.add event).trades + (acc.add event).tickers =
            acc.trades + acc.tickers + 1 := by
          rcases contributes with ⟨kind, price, size⟩ | ⟨kind, bid, ask⟩
          · obtain ⟨price, hasPrice⟩ := Option.isSome_iff_exists.mp price
            obtain ⟨size, hasSize⟩ := Option.isSome_iff_exists.mp size
            simp only [Acc.add, kind, hasPrice, hasSize]
            omega
          · obtain ⟨bid, hasBid⟩ := Option.isSome_iff_exists.mp bid
            obtain ⟨ask, hasAsk⟩ := Option.isSome_iff_exists.mp ask
            simp only [Acc.add, kind, hasBid, hasAsk]
            omega
        rw [one]
        simp only [contributes, decide_true, if_true]
        omega
      · rw [Acc.add_of_not_contributes contributes]
        simp [contributes]

/-- Two rows of one bucket count different numbers of events unless the same
events contribute. -/
theorem rowOf_eventCount (event : MarketEvent F) :
    (rowOf windowSeconds windowLabel events event).eventCount =
      (itemsAt (bucket windowSeconds) (events.map MarketEvent.reading)
        (bucket windowSeconds event.reading)).countP
          (fun item => item.Contributes) := by
  have counts := Acc.foldl_counts (itemsAt (bucket windowSeconds)
    (events.map MarketEvent.reading) (bucket windowSeconds event.reading))
    (Acc.empty (F := F))
  simp only [Acc.empty, Nat.zero_add, Nat.add_zero] at counts
  exact counts

/-- A row closed after `first` counts every contributing event of `second` in
its bucket only if there is none. -/
private theorem none_contributes_of_kept {event : MarketEvent F}
    (kept : rowOf windowSeconds windowLabel first event ∈
      computeWindows ((first ++ second).map MarketEvent.reading) windowSeconds
        windowLabel) :
    ∀ later ∈ second, bucket windowSeconds later.reading =
      bucket windowSeconds event.reading → ¬ later.Contributes := by
  intro later laterMember sameBucket contributes
  obtain ⟨other, _, same⟩ := mem_computeWindows_reading.mp kept
  have otherBucket : bucket windowSeconds other.reading =
      bucket windowSeconds event.reading := by
    have symbols := congrArg WindowMetrics.symbol same
    have starts := congrArg WindowMetrics.windowStart same
    exact (Prod.ext symbols starts).symm
  have counts := congrArg WindowMetrics.eventCount same
  rw [rowOf_eventCount, rowOf_eventCount, otherBucket, List.map_append,
    itemsAt, itemsAt, List.filter_append, List.countP_append] at counts
  have none : ((second.map MarketEvent.reading).filter (fun item =>
      bucket windowSeconds item = bucket windowSeconds event.reading)).countP
        (fun item => item.Contributes) = 0 := by
    omega
  rw [List.countP_eq_zero] at none
  exact none later.reading (List.mem_filter.mpr
    ⟨List.mem_map_of_mem laterMember, by simp [sameBucket]⟩)
    (decide_eq_true (p := later.reading.Contributes) contributes)

/-- A row stays as it is when no event that follows contributes to it. -/
private theorem rowOf_append {event : MarketEvent F}
    (none : ∀ later ∈ second, bucket windowSeconds later.reading =
      bucket windowSeconds event.reading → ¬ later.Contributes) :
    rowOf windowSeconds windowLabel (first ++ second) event =
      rowOf windowSeconds windowLabel first event := by
  have rest : ∀ item ∈ itemsAt (bucket windowSeconds)
      (second.map MarketEvent.reading) (bucket windowSeconds event.reading),
      ¬ item.Contributes := by
    intro item member
    obtain ⟨mapped, sameBucket⟩ := (mem_itemsAt _).mp member
    obtain ⟨later, laterMember, rfl⟩ := List.mem_map.mp mapped
    exact none later laterMember sameBucket
  simp only [itemsAt] at rest
  simp only [rowOf, itemsAt, List.map_append, List.filter_append,
    List.foldl_append]
  rw [Acc.foldl_of_none_contributes rest]

/-- A row is closed after `first` by the watermark of its symbol. -/
theorem rowOf_closed_iff
    (inRange : ∀ event ∈ first, inDatetimeRange event.tsEvent = true)
    {event : MarketEvent F}
    (inside : InCalendar event.tsEvent windowSeconds) :
    closedBy first graceSeconds
        (rowOf windowSeconds windowLabel first event) = true ↔
      ∃ watermark,
        (maxEventTsBySymbol first).get? event.symbol = some watermark ∧
        inDatetimeRange watermark = true ∧
        (windowBounds (carried event.tsEvent) windowSeconds).2 +
          graceSeconds * microsPerSecond ≤ reached watermark := by
  rw [closedBy_watermark inRange (rowOf_wholeEnd inside), rowOf_windowEnd]
  rfl

/-- A contributing event of a closed bucket would change its row. -/
private theorem undisturbed_of_final
    (inRange : ∀ event ∈ first, inDatetimeRange event.tsEvent = true)
    (inside : ∀ event ∈ first, InCalendar event.tsEvent windowSeconds)
    (allInside : ∀ event ∈ first ++ second,
      InCalendar event.tsEvent windowSeconds)
    (convertible : first ++ second = [] ∨ Returns (floatOfInt graceSeconds))
    (final : ∀ event ∈ first, closedBy first graceSeconds
        (rowOf windowSeconds windowLabel first event) = true →
      rowOf windowSeconds windowLabel first event ∈
        computeWindows ((first ++ second).map MarketEvent.reading)
          windowSeconds windowLabel) :
    Undisturbed windowSeconds graceSeconds first second := by
  refine ⟨?_, ?_, ?_⟩
  · intro event member
    exact allInside event (List.mem_append_right _ member)
  · rcases convertible with empty | converts
    · exact Or.inl (List.append_eq_nil_iff.mp empty).2
    · exact Or.inr converts
  · intro event member contributes shared watermark bound rounds
    obtain ⟨other, otherMember, sameBucket⟩ := shared
    obtain ⟨sameSymbol, sameEnd⟩ := window_of_bucket sameBucket
    obtain ⟨latest, latestMember, _, sameTime⟩ := watermark_attained bound
    have closed : closedBy first graceSeconds
        (rowOf windowSeconds windowLabel first other) = true :=
      (rowOf_closed_iff inRange (inside other otherMember)).mpr ⟨watermark,
        by rw [sameSymbol]; exact bound,
        by rw [← sameTime]; exact inRange latest latestMember,
        by rw [sameEnd]; exact rounds.2⟩
    exact none_contributes_of_kept (final other otherMember closed)
      event member sameBucket.symm contributes

/-- What has been emitted is emitted again, unchanged, exactly when the events
that follow disturb no window that was closed by rounding. -/
theorem closedWindows_final_iff
    (inRange : ∀ event ∈ first ++ second, inDatetimeRange event.tsEvent = true)
    (onTime : NoneLateAfter windowSeconds graceSeconds first second)
    {closed : List (WindowMetrics F)}
    (emitted : Double.emitted first windowSeconds graceSeconds windowLabel =
      .ok closed) :
    (∃ later, Double.emitted (first ++ second) windowSeconds graceSeconds
        windowLabel = .ok later ∧ closed ⊆ later) ↔
      Undisturbed windowSeconds graceSeconds first second := by
  have firstInRange : ∀ event ∈ first, inDatetimeRange event.tsEvent = true :=
    fun event member => inRange event (List.mem_append_left _ member)
  obtain ⟨⟨inside, convertible⟩, rfl⟩ := (emitted_iff firstInRange).mp emitted
  constructor
  · intro final
    obtain ⟨later, emittedLater, subset⟩ := final
    obtain ⟨⟨allInside, allConvertible⟩, rfl⟩ :=
      (emitted_iff inRange).mp emittedLater
    apply undisturbed_of_final firstInRange inside allInside allConvertible
    intro event member closed
    exact List.mem_of_mem_filter (subset (List.mem_filter.mpr
      ⟨mem_computeWindows_reading.mpr ⟨event, member, rfl⟩, closed⟩))
  · intro undisturbed
    refine ⟨_, (emitted_iff inRange).mpr ⟨⟨?_, ?_⟩, rfl⟩, ?_⟩
    · intro event member
      rcases List.mem_append.mp member with before | after
      · exact inside event before
      · exact undisturbed.inCalendar event after
    · rcases convertible with empty | converts
      · rcases undisturbed.convertible with nothing | converts
        · exact Or.inl (by rw [empty, nothing]; rfl)
        · exact Or.inr converts
      · exact Or.inr converts
    · intro row member
      obtain ⟨computed, closedRow⟩ := List.mem_filter.mp member
      obtain ⟨event, eventMember, rfl⟩ :=
        mem_computeWindows_reading.mp computed
      obtain ⟨watermark, bound, _, reaches⟩ := (rowOf_closed_iff firstInRange
        (inside event eventMember)).mp closedRow
      have untouched : ∀ later ∈ second, bucket windowSeconds later.reading =
          bucket windowSeconds event.reading → ¬ later.Contributes := by
        intro later laterMember sameBucket
        exact not_contributes_of_closed
          (fun other inSecond => inRange other (List.mem_append_right _ inSecond))
          onTime undisturbed eventMember laterMember sameBucket bound reaches
      refine List.mem_filter.mpr ⟨mem_computeWindows_reading.mpr
        ⟨event, List.mem_append_left _ eventMember,
          (rowOf_append untouched).symm⟩, ?_⟩
      obtain ⟨seen, seenMember, seenReaches⟩ := closedBy_iff.mp closedRow
      exact closedBy_iff.mpr
        ⟨seen, List.mem_append_left _ seenMember, seenReaches⟩

end Emitted

theorem closedWindows_final_sample :
    ∃ closed later,
      Double.emitted [sampleTrade "t-1" 5 100 1, sampleTrade "t-2" 70 101 2]
        60 5 "1m" = .ok closed ∧
      Double.emitted ([sampleTrade "t-1" 5 100 1, sampleTrade "t-2" 70 101 2] ++
        [sampleTrade "t-3" 62 102 1]) 60 5 "1m" = .ok later ∧
      closed.map WindowMetrics.vwap = [some 100] ∧ closed ⊆ later := by
  have emitted : (Double.emitted
      [sampleTrade "t-1" 5 100 1, sampleTrade "t-2" 70 101 2] 60 5 "1m").toOption.map
        (List.map WindowMetrics.vwap) = some [some 100] := by
    decide +kernel
  cases ran : Double.emitted
      [sampleTrade "t-1" 5 100 1, sampleTrade "t-2" 70 101 2] 60 5 "1m" with
  | error failure =>
      rw [ran] at emitted
      cases emitted
  | ok closed =>
      rw [ran] at emitted
      have onTime : NoneLateAfter 60 5
          [sampleTrade "t-1" 5 100 1, sampleTrade "t-2" 70 101 2]
          [sampleTrade "t-3" 62 102 1] := by
        intro before event after split late
        cases before with
        | nil =>
            cases split
            obtain ⟨watermark, bounds, bound, window, reached⟩ := late
            have seen : (maxEventTsBySymbol
                ([sampleTrade "t-1" 5 100 1, sampleTrade "t-2" 70 101 2] ++
                  [])).get? "BTC-USD" = some 70000000 := by
              decide +kernel
            have ends : Double.windowBounds 62000000 60 =
                .ok (60000000, 120000000) := by
              decide +kernel
            cases seen.symm.trans bound
            cases ends.symm.trans window
            exact absurd reached (by decide)
        | cons head tail =>
            have lengths := congrArg List.length split
            simp at lengths
      have undisturbed : Undisturbed 60 5
          [sampleTrade "t-1" 5 100 1, sampleTrade "t-2" 70 101 2]
          [sampleTrade "t-3" 62 102 1] := by
        apply undisturbed_of_early
        · decide +kernel
        · exact Or.inr ⟨.fin 5, by decide +kernel⟩
        · decide
      obtain ⟨later, again, subset⟩ :=
        (closedWindows_final_iff (by decide) onTime ran).mpr undisturbed
      exact ⟨closed, later, rfl, again, Option.some.inj emitted, subset⟩

/-- A trade in the year 2514. -/
def lateTrade (tradeId : String) (tsEvent : Instant) : MarketEvent Rat :=
  { sampleTrade tradeId 0 100 1 with tsEvent := tsEvent }

/-- A microsecond before the end of its minute a trade closes the minute; the
trade that follows is on time and changes it. -/
theorem closedWindows_not_final :
    NoneLateAfter 60 0
        [lateTrade "t-1" 17179869185000000, lateTrade "t-2" 17179869239999999]
        [lateTrade "t-3" 17179869186000000] ∧
      ∃ closed,
        Double.emitted [lateTrade "t-1" 17179869185000000,
          lateTrade "t-2" 17179869239999999] 60 0 "1m" = .ok closed ∧
        ¬ ∃ later,
          Double.emitted ([lateTrade "t-1" 17179869185000000,
            lateTrade "t-2" 17179869239999999] ++
              [lateTrade "t-3" 17179869186000000]) 60 0 "1m" = .ok later ∧
            closed ⊆ later := by
  constructor
  · intro before event after split late
    cases before with
    | nil =>
        cases split
        obtain ⟨watermark, bounds, bound, window, reached⟩ := late
        have seen : (maxEventTsBySymbol ([lateTrade "t-1" 17179869185000000,
            lateTrade "t-2" 17179869239999999] ++ [])).get? "BTC-USD" =
              some 17179869239999999 := by
          decide +kernel
        have ends : Double.windowBounds 17179869186000000 60 =
            .ok (17179869180000000, 17179869240000000) := by
          decide +kernel
        cases seen.symm.trans bound
        cases ends.symm.trans window
        exact absurd reached (by decide)
    | cons head tail =>
        have lengths := congrArg List.length split
        simp at lengths
  · have changed : (match Double.emitted [lateTrade "t-1" 17179869185000000,
          lateTrade "t-2" 17179869239999999] 60 0 "1m",
        Double.emitted ([lateTrade "t-1" 17179869185000000,
          lateTrade "t-2" 17179869239999999] ++
            [lateTrade "t-3" 17179869186000000]) 60 0 "1m" with
      | .ok closed, .ok later => closed.all (fun row => row ∈ later)
      | _, _ => true) = false := by
      decide +kernel
    split at changed
    · rename_i closed later emitted again
      refine ⟨closed, emitted, ?_⟩
      intro final
      obtain ⟨other, same, subset⟩ := final
      rw [again] at same
      cases same
      rw [List.all_eq_false] at changed
      obtain ⟨row, member, absent⟩ := changed
      exact absent (by simpa using subset member)
    · cases changed

end TickStream
