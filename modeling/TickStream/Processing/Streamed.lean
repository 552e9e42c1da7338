import TickStream.Processing.Clock

/-!
# The processor against the reference

A trade without a price or a size stops the processor; the reference passes
over it.  Events that follow only matter for the windows they close: into a
window that has closed nothing is folded any more.
-/

namespace TickStream

open Python Library

section Reference

variable {F : Type} [Zero F] [Add F] [Sub F] [Mul F] [Div F] [NatCast F]
  [LT F] [DecidableLT F]

/-- The closed windows of the reference for every window size, computed on the
events that were not late for that size. -/
def Double.referenceWindows (graceSeconds : Nat)
    (events : List (MarketEvent F)) : Result (List (WindowMetrics F)) := do
  let windows ← windowSizes.mapM (fun size => do
    let onTime ← Double.withoutLate size.2 graceSeconds events
    let metrics ← Double.computeWindows onTime size.2 size.1
    Double.closedWindows metrics (maxEventTsBySymbol events) graceSeconds)
  return windows.flatten

/-- The pipeline runs, and emits exactly the closed windows of the reference,
each once. -/
def Double.MatchesReference (graceSeconds : Nat)
    (events : List (MarketEvent F)) (ran : Result (Outcome F)) : Prop :=
  ∃ outcome reference, ran = .ok outcome ∧
    Double.referenceWindows graceSeconds events = .ok reference ∧
      (outcome.emitted.map WindowRecord.metrics).Perm reference ∧
        (outcome.emitted.map (fun record => record.metrics.key)).Nodup

/-- The grace is a timedelta, and the windows of the events that are not late
lie in the years datetimes have. -/
structure Computable (graceSeconds : Nat) (events : List (MarketEvent F)) :
    Prop where
  grace : graceSeconds < 86400 * 10 ^ 9
  inYears : ∀ size ∈ windowSizes, ∀ event ∈ withoutLate size.2 graceSeconds
    (events.map MarketEvent.reading), InYears size.2 event

/-- Every window that some event closes, late events aside, is closed by a
trade before the first that lacks its price or its size. -/
def ClosesBeforeStop (graceSeconds : Nat) (events : List (MarketEvent F)) :
    Prop :=
  ∀ size ∈ windowSizes, ∀ event ∈ withoutLate size.2 graceSeconds
      (events.map MarketEvent.reading),
    ClosedFor (events.map MarketEvent.reading) graceSeconds size event →
      ClosedFor ((processedTrades events).map MarketEvent.reading)
        graceSeconds size event

variable {graceSeconds : Nat} {events : List (MarketEvent F)}

omit [Zero F] [Add F] [Sub F] [Mul F] [Div F] [NatCast F] [LT F]
  [DecidableLT F] in
/-- A row closes in doubles when it closes on the readings. -/
private theorem closedBy_reading (datable : ∀ event ∈ events, Datable event)
    (row : WindowMetrics F) :
    closedBy events graceSeconds row =
      isClosed (maxEventTsBySymbol (events.map MarketEvent.reading))
        graceSeconds row := by
  rw [Bool.eq_iff_iff, closedBy_iff, isClosed_iff]
  simp only [List.mem_map, exists_exists_and_eq_and]
  apply exists_congr
  intro event
  apply and_congr_right
  intro member
  have same : event.reading.tsEvent = reached event.tsEvent := by
    simp only [MarketEvent.reading, carried, (datable event member).afterEpoch,
      if_true, reached]
  rw [same]
  rfl

/-- What the reference returns, when it returns. -/
theorem referenceWindows_double_iff (datable : ∀ event ∈ events, Datable event)
    (grace : graceSeconds < 86400 * 10 ^ 9)
    {reference : List (WindowMetrics F)} :
    Double.referenceWindows graceSeconds events = .ok reference ↔
      Computable graceSeconds events ∧
        reference = Topic.referenceWindows graceSeconds
          (events.map MarketEvent.reading) := by
  have convertible : Returns (floatOfInt (graceSeconds : Int)) := by
    have whole : roundToDouble ((graceSeconds : Int) : Rat) =
        .fin ((graceSeconds : Int) : Rat) :=
      roundToDouble_intCast (by omega)
    rw [floatOfInt, whole]
    exact returns_ok _
  have sizes : ∀ size ∈ windowSizes, ∀ closed,
      (do
        let onTime ← Double.withoutLate size.2 graceSeconds events
        let metrics ← Double.computeWindows onTime size.2 size.1
        Double.closedWindows metrics (maxEventTsBySymbol events)
          graceSeconds) = (.ok closed : Result (List (WindowMetrics F))) ↔
        (∀ event ∈ withoutLate size.2 graceSeconds
          (events.map MarketEvent.reading), InYears size.2 event) ∧
        closed = closedWindows
          (computeWindows (withoutLate size.2 graceSeconds
            (events.map MarketEvent.reading)) size.2 size.1)
          (maxEventTsBySymbol (events.map MarketEvent.reading))
          graceSeconds := by
    intro size _ closed
    obtain ⟨onTime, kept, sublist, readings⟩ :=
      withoutLate_reading size.2 graceSeconds datable
    have inRange : ∀ event ∈ events, inDatetimeRange event.tsEvent = true :=
      fun event member => (datable event member).inRange
    have inYears : (∀ event ∈ onTime, InCalendar event.tsEvent size.2) ↔
        ∀ event ∈ withoutLate size.2 graceSeconds
          (events.map MarketEvent.reading), InYears size.2 event := by
      rw [← readings, List.forall_mem_map]
      exact forall₂_congr (fun event _ =>
        ⟨fun inside => ⟨inside.1, inside.2⟩,
          fun inside => ⟨inside.1, inside.2⟩⟩)
    have sameClosed : ∀ rows : List (WindowMetrics F),
        rows.filter (closedBy events graceSeconds) = closedWindows rows
          (maxEventTsBySymbol (events.map MarketEvent.reading))
          graceSeconds := by
      intro rows
      exact List.filter_congr (fun row _ => closedBy_reading datable row)
    simp only [kept, bind_eq_ok_iff, Except.ok.injEq, exists_eq_left',
      computeWindows_double_iff
        (fun event member => inRange event (sublist.subset member))]
    rw [← inYears]
    constructor
    · intro returned
      obtain ⟨_, ⟨inside, rfl⟩, closes⟩ := returned
      have same := ((closedWindows_reading_iff inRange sublist.subset
        inside).mp closes).2
      rw [sameClosed, readings] at same
      exact ⟨inside, same⟩
    · intro returned
      obtain ⟨inside, same⟩ := returned
      refine ⟨_, ⟨inside, rfl⟩, (closedWindows_reading_iff inRange
        sublist.subset inside).mpr ⟨Or.inr convertible, ?_⟩⟩
      rw [sameClosed, readings]
      exact same
  simp only [Double.referenceWindows, bind_eq_ok_iff, mapM_eq_ok_iff sizes]
  constructor
  · intro returned
    obtain ⟨_, ⟨inYears, rfl⟩, joined⟩ := returned
    cases joined
    exact ⟨⟨grace, inYears⟩, rfl⟩
  · intro returned
    obtain ⟨computable, rfl⟩ := returned
    exact ⟨_, ⟨computable.inYears, rfl⟩, rfl⟩

omit [LT F] [DecidableLT F] [Zero F] [Add F] [Sub F] [Mul F] [Div F]
  [NatCast F] in
theorem ClosedFor.mono {first second : List (MarketEvent F)}
    {size : String × Nat} {event : MarketEvent F}
    (closed : ClosedFor first graceSeconds size event)
    (subset : first ⊆ second) :
    ClosedFor second graceSeconds size event := by
  obtain ⟨seen, member, reached⟩ := closed
  exact ⟨seen, subset member, reached⟩

private theorem windowSizes_eq_of_label {left right : String × Nat}
    (leftMember : left ∈ windowSizes) (rightMember : right ∈ windowSizes)
    (same : left.1 = right.1) : left = right := by
  have distinct : (windowSizes.map Prod.fst).Nodup := by decide
  exact List.inj_on_of_nodup_map distinct leftMember rightMember same

/-- The reference on the first events has all closed windows exactly when no
window is closed by the others alone. -/
private theorem referenceWindows_initial_iff
    {first second : List (MarketEvent F)}
    (afterEpoch : ∀ event ∈ first ++ second, 0 ≤ event.tsEvent) :
    (Topic.referenceWindows graceSeconds first).Perm
        (Topic.referenceWindows graceSeconds (first ++ second)) ↔
      ∀ size ∈ windowSizes,
        ∀ event ∈ withoutLate size.2 graceSeconds (first ++ second),
          ClosedFor (first ++ second) graceSeconds size event →
            ClosedFor first graceSeconds size event := by
  have nodup : ∀ events : List (MarketEvent F),
      (Topic.referenceWindows graceSeconds events).Nodup :=
    fun events => (Topic.referenceWindows_keys_nodup graceSeconds
      events).of_map WindowMetrics.key
  rw [List.perm_ext_iff_of_nodup (nodup first) (nodup (first ++ second))]
  simp only [Topic.mem_referenceWindows_iff]
  constructor
  · intro same size sizeMember event member closed
    obtain ⟨other, otherMember, early, _, earlyClosed, row⟩ :=
      (same _).mpr ⟨size, sizeMember, event, member, closed, rfl⟩
    have sameSize : size = other := windowSizes_eq_of_label sizeMember
      otherMember (congrArg WindowMetrics.windowSize row)
    subst sameSize
    apply earlyClosed.of_bucket
    exact Prod.ext (congrArg WindowMetrics.symbol row)
      (congrArg WindowMetrics.windowStart row)
  · intro closes metrics
    constructor
    · intro emitted
      obtain ⟨size, sizeMember, event, member, closed, rfl⟩ := emitted
      refine ⟨size, sizeMember, event, ?_,
        closed.mono (List.subset_append_left first second), ?_⟩
      · rw [withoutLate_append]
        exact List.mem_append_left _ member
      · rw [itemsAt_withoutLate_of_closed afterEpoch closed]
    · intro emitted
      obtain ⟨size, sizeMember, event, member, closed, rfl⟩ := emitted
      have early := closes size sizeMember event member closed
      rw [withoutLate_append, List.mem_append] at member
      rcases member with member | late
      · refine ⟨size, sizeMember, event, member, early, ?_⟩
        rw [itemsAt_withoutLate_of_closed afterEpoch early]
      · exact absurd early (not_closedFor_of_onTime afterEpoch late)

/-- A topic matches the reference exactly when the reference returns and has
all its windows from the messages the topic gets through. -/
theorem matchesReference_double_iff {C β : Type} {topic : Topic F C β}
    (projection : Topic.Projection topic)
    (timeless : ∀ value : MarketEvent F,
      topic.columns value.reading = topic.columns value)
    (datable : ∀ event ∈ events, Datable event)
    (kind : ∀ event ∈ events, event.eventType = projection.kind) :
    Double.MatchesReference graceSeconds events
        (Double.run topic graceSeconds events) ↔
      Computable graceSeconds events ∧
        (Topic.referenceWindows graceSeconds
            (((topic.rows events).map Row.value).map
              MarketEvent.reading)).Perm
          (Topic.referenceWindows graceSeconds
            (events.map MarketEvent.reading)) := by
  have readingKind : ∀ event ∈ events.map MarketEvent.reading,
      event.eventType = projection.kind := by
    intro event member
    obtain ⟨original, originalMember, rfl⟩ := List.mem_map.mp member
    exact kind original originalMember
  have afterEpoch : ∀ event ∈ events.map MarketEvent.reading,
      0 ≤ event.tsEvent := by
    intro event member
    obtain ⟨original, originalMember, rfl⟩ := List.mem_map.mp member
    exact (datable original originalMember).reading_nonneg
  have exact := Topic.run_matchesReference projection graceSeconds
    (events.map MarketEvent.reading) readingKind afterEpoch
  have processed : ((topic.rows (events.map MarketEvent.reading)).map
      Row.value) = ((topic.rows events).map Row.value).map
        MarketEvent.reading := by
    rw [rows_reading timeless, List.map_map, List.map_map]
    rfl
  rw [processed] at exact
  have emits := fun computable : Computable graceSeconds events =>
    run_double graceSeconds projection timeless datable computable.inYears
      computable.grace
  constructor
  · intro matched
    obtain ⟨outcome, reference, ran, returned, windows, _⟩ := matched
    have grace : graceSeconds < 86400 * 10 ^ 9 := by
      obtain ⟨_, built, _⟩ := bind_eq_ok_iff.mp ran
      exact (timedelta_eq_ok_iff.mp built).1
    obtain ⟨computable, rfl⟩ :=
      (referenceWindows_double_iff datable grace).mp returned
    obtain ⟨same, ranSame, emitted⟩ := emits computable
    cases ran.symm.trans ranSame
    refine ⟨computable, ?_⟩
    exact exact.windows.symm.trans ((emitted.symm.map _).trans windows)
  · intro matches'
    obtain ⟨computable, windows⟩ := matches'
    obtain ⟨outcome, ran, emitted⟩ := emits computable
    refine ⟨outcome, _, ran, (referenceWindows_double_iff datable
      computable.grace).mpr ⟨computable, rfl⟩, ?_, ?_⟩
    · exact (emitted.map _).trans (exact.windows.trans windows)
    · exact ((emitted.map _).nodup_iff).mpr exact.once

/-- On tickers with both quotes the processor emits exactly the closed windows
of the reference, each once, whenever these can be computed.  On trades it
does exactly when no window is left to the trades that follow one without a
price or a size, which stops it. -/
theorem streamed_windows_match_reference_iff
    [Std.Irrefl (fun left right : F => left < right)]
    (events : List (MarketEvent F)) (graceSeconds : Nat)
    (datable : ∀ event ∈ events, Datable event) :
    ((∀ event ∈ events, event.eventType = .trade) →
      (Double.MatchesReference graceSeconds events
          (Double.run tradesTopic graceSeconds events) ↔
        Computable graceSeconds events ∧
          ClosesBeforeStop graceSeconds events)) ∧
    ((∀ event ∈ events, event.eventType = .ticker ∧
        event.bestBid.isSome = true ∧ event.bestAsk.isSome = true) →
      (Double.MatchesReference graceSeconds events
          (Double.run tickerTopic graceSeconds events) ↔
        Computable graceSeconds events)) := by
  constructor
  · intro trades
    rw [matchesReference_double_iff tradesProjection (fun _ => rfl) datable
      trades, rows_eq_processedTrades]
    apply and_congr_right
    intro _
    obtain ⟨rest, split⟩ := processedTrades_initial events
    have readings : events.map MarketEvent.reading =
        (processedTrades events).map MarketEvent.reading ++
          rest.map MarketEvent.reading := by
      rw [← List.map_append, split]
    simp only [ClosesBeforeStop, readings]
    apply referenceWindows_initial_iff
    rw [← readings, List.forall_mem_map]
    exact fun event member => (datable event member).reading_nonneg
  · intro tickers
    have all : ((tickerTopic (F := F)).rows events).map Row.value = events := by
      rw [rows_complete_iff]
      intro event member
      exact tickerColumns_ok_iff.mpr (tickers event member).2
    rw [matchesReference_double_iff tickerProjection (fun _ => rfl) datable
      (fun event member => (tickers event member).1), all]
    exact and_iff_left (List.Perm.refl _)

end Reference

/-- A trade at a price of 100 whose size may be missing. -/
def tradeOfSize (second : Nat) (size : Option Rat) : MarketEvent PyFloat :=
  { exchange := "coinbase"
    symbol := "BTC-USD"
    eventType := .trade
    price := some (.fin 100)
    size := size.map PyFloat.fin
    tsEvent := second * microsPerSecond
    tsIngest := second * microsPerSecond }

/-- The trade that closes the first minute comes before the one that stops the
processor; what follows closes nothing more. -/
theorem streamed_windows_match_reference_sample :
    Double.MatchesReference 5
      [tradeOfSize 10 (some 2), tradeOfSize 65 (some 1), tradeOfSize 70 none]
      (Double.run tradesTopic 5 [tradeOfSize 10 (some 2),
        tradeOfSize 65 (some 1), tradeOfSize 70 none]) ∧
    Double.MatchesReference 5
      [{ tradeOfSize 10 none with
          eventType := .ticker
          bestBid := some (.fin 99)
          bestAsk := some (.fin 101) }]
      (Double.run tickerTopic 5
        [{ tradeOfSize 10 none with
            eventType := .ticker
            bestBid := some (.fin 99)
            bestAsk := some (.fin 101) }]) := by
  have computable : Computable 5 [tradeOfSize 10 (some 2),
      tradeOfSize 65 (some 1), tradeOfSize 70 none] :=
    ⟨by decide, by decide +kernel⟩
  have closes : ClosesBeforeStop 5 [tradeOfSize 10 (some 2),
      tradeOfSize 65 (some 1), tradeOfSize 70 none] := by
    simp only [ClosesBeforeStop]
    decide +kernel
  constructor
  · exact ((streamed_windows_match_reference_iff _ 5 (by decide +kernel)).1
      (by decide)).mpr ⟨computable, closes⟩
  · exact ((streamed_windows_match_reference_iff _ 5 (by decide +kernel)).2
      (by decide)).mpr ⟨by decide, by decide +kernel⟩

/-- A trade without a size closes a minute for the reference, and stops the
processor before it has emitted it. -/
theorem streamed_windows_not_matching :
    ¬ Double.MatchesReference 5 [tradeOfSize 10 (some 2), tradeOfSize 65 none]
      (Double.run tradesTopic 5
        [tradeOfSize 10 (some 2), tradeOfSize 65 none]) := by
  have nothing : (Double.run tradesTopic 5 [tradeOfSize 10 (some 2),
      tradeOfSize 65 none]).toOption.map
        (fun outcome => outcome.emitted.length) = some 0 := by
    decide +kernel
  have one : (Double.referenceWindows 5 [tradeOfSize 10 (some 2),
      tradeOfSize 65 none]).toOption.map List.length = some 1 := by
    decide +kernel
  intro matched
  obtain ⟨outcome, reference, ran, returned, windows, _⟩ := matched
  have lengths := windows.length_eq
  rw [ran] at nothing
  rw [returned] at one
  simp only [Except.toOption, Option.map_some, Option.some.injEq] at nothing one
  rw [List.length_map, nothing, one] at lengths
  exact absurd lengths (by decide)

end TickStream
