import Mathlib.Algebra.Order.BigOperators.Group.List
import Mathlib.Algebra.Order.Ring.Rat
import TickStream.Processing.Accumulator
import TickStream.Processing.Doubles

/-!
# What the windows should be

The declarative reading of the reference: one row for every bucket some event
contributes to, with the aggregates over exactly those events.  The reference
opens a bucket before it looks at the type of the event, so an event that
contributes nothing also opens one; and it returns nothing at all when some
event's window leaves the calendar.
-/

namespace TickStream

open Python Library

/-- The row of a bucket, from the events in it that contribute. -/
def aggregateRow (windowSeconds : Nat) (windowLabel : String)
    (window : String × Instant) (inBucket : List (MarketEvent Rat)) :
    WindowMetrics Rat :=
  let trades := inBucket.filterMap MarketEvent.tradeOf?
  let quotes := inBucket.filterMap MarketEvent.quoteOf?
  let volume := (trades.map Prod.snd).sum
  { symbol := window.1
    windowSize := windowLabel
    windowStart := window.2
    windowEnd := window.2 + windowSeconds * microsPerSecond
    vwap :=
      if volume = 0 then none
      else some ((trades.map (fun trade => trade.1 * trade.2)).sum / volume)
    tradeVolume := volume
    tradeCount := trades.length
    avgSpread :=
      if quotes = [] then none
      else some ((quotes.map (fun quote => quote.2 - quote.1)).sum /
        quotes.length)
    avgMid :=
      if quotes = [] then none
      else some ((quotes.map (fun quote => (quote.2 + quote.1) / 2)).sum /
        quotes.length)
    tickerCount := quotes.length
    eventCount := trades.length + quotes.length }

/-- The row of a bucket over exact instants. -/
def directRow (windowSeconds : Nat) (windowLabel : String)
    (events : List (MarketEvent Rat)) (window : String × Instant) :
    WindowMetrics Rat :=
  aggregateRow windowSeconds windowLabel window
    (itemsAt (bucket windowSeconds) events window)

/-- The rows of `compute_windows` are those of its definition, windows being
those of `window_bounds`. -/
structure MeetsDefinition (events : List (MarketEvent Rat))
    (windowSeconds : Nat) (windowLabel : String)
    (rows : List (WindowMetrics Rat)) : Prop where
  increasing : rows.Pairwise (fun left right => left.symbol < right.symbol ∨
    left.symbol = right.symbol ∧ left.windowStart < right.windowStart)
  occupied : ∀ symbol start,
    (∃ row ∈ rows, row.symbol = symbol ∧ row.windowStart = start) ↔
      ∃ event ∈ events, event.Contributes ∧
        Double.bucket windowSeconds event = .ok (symbol, start)
  counted : ∀ row ∈ rows, 1 ≤ row.eventCount
  direct : ∀ row ∈ rows,
    row = aggregateRow windowSeconds windowLabel (row.symbol, row.windowStart)
      (events.filter (fun event => Double.bucket windowSeconds event =
        .ok (row.symbol, row.windowStart)))

section Direct

variable {windowSeconds : Nat} {windowLabel : String}

theorem Acc.direct_vol_nonneg {events : List (MarketEvent Rat)}
    (sizes : SizesNonneg events) :
    0 ≤ (Acc.direct events).vol := by
  apply List.sum_nonneg
  intro size member
  obtain ⟨trade, tradeMember, sameSize⟩ := List.mem_map.mp member
  obtain ⟨event, eventMember, found⟩ := List.mem_filterMap.mp tradeMember
  simp only [MarketEvent.tradeOf?] at found
  split at found
  · rename_i price size' _ _ hasSize
    cases found
    rw [← sameSize]
    exact sizes event eventMember size' hasSize
  · cases found

private theorem ite_pos_eq_ite_zero {volume : Rat} (nonneg : 0 ≤ volume)
    (quotient : Rat) :
    (if 0 < volume then some quotient else none) =
      if volume = 0 then none else some quotient := by
  by_cases zero : volume = 0
  · simp [zero]
  · have positive : 0 < volume := lt_of_le_of_ne nonneg (Ne.symm zero)
    simp [zero, positive]

private theorem ite_tickers_eq_ite_nil (events : List (MarketEvent Rat))
    (mean : Rat) :
    (if 0 < (Acc.direct events).tickers then some mean else none) =
      if events.filterMap MarketEvent.quoteOf? = [] then none
      else some mean := by
  by_cases noQuotes : events.filterMap MarketEvent.quoteOf? = []
  · simp [Acc.direct, noQuotes]
  · have positive : 0 < (Acc.direct events).tickers :=
      List.length_pos_iff.mpr noQuotes
    rw [if_pos positive, if_neg noQuotes]

/-- A row computed from the sums of its bucket is the direct one. -/
private theorem windowRow_direct {events : List (MarketEvent Rat)}
    (sizes : SizesNonneg events)
    {window : String × Instant}
    (opened : ∃ event ∈ events, bucket windowSeconds event = window) :
    windowRow windowSeconds windowLabel
        (window, Acc.direct (itemsAt (bucket windowSeconds) events window)) =
      directRow windowSeconds windowLabel events window := by
  obtain ⟨event, _, rfl⟩ := opened
  have nonneg : 0 ≤ (Acc.direct (itemsAt (bucket windowSeconds) events
      (bucket windowSeconds event))).vol := by
    apply Acc.direct_vol_nonneg
    intro other member
    exact sizes other ((mem_itemsAt _).mp member).1
  have ending : (windowBounds (bucket windowSeconds event).2
      windowSeconds).2 =
      (bucket windowSeconds event).2 + windowSeconds * microsPerSecond := by
    rw [windowBounds_snd_eq]
    simp only [bucket, windowBounds_start]
  simp only [windowRow, directRow, aggregateRow, ite_pos_eq_ite_zero nonneg,
    ite_tickers_eq_ite_nil, ending]
  rfl

/-- The reference has one row for every bucket some event falls in, with the
sums over the contributing events of the bucket. -/
theorem mem_computeWindows_iff {events : List (MarketEvent Rat)}
    (sizes : SizesNonneg events)
    {row : WindowMetrics Rat} :
    row ∈ computeWindows events windowSeconds windowLabel ↔
      ∃ event ∈ events, row =
        directRow windowSeconds windowLabel events
          (bucket windowSeconds event) := by
  rw [mem_computeWindows]
  apply exists_congr
  intro event
  apply and_congr_right
  intro member
  rw [Acc.foldl_add, windowRow_direct sizes ⟨event, member, rfl⟩]

theorem directRow_counted_iff {events : List (MarketEvent Rat)}
    {window : String × Instant} :
    1 ≤ (directRow windowSeconds windowLabel events window).eventCount ↔
      ∃ event ∈ events, event.Contributes ∧
        bucket windowSeconds event = window := by
  have positive : ∀ events : List (MarketEvent Rat),
      1 ≤ (events.filterMap MarketEvent.tradeOf?).length +
          (events.filterMap MarketEvent.quoteOf?).length ↔
        ∃ event ∈ events, event.Contributes := by
    intro events
    induction events with
    | nil => simp
    | cons event rest induction =>
        rw [List.exists_mem_cons_iff, ← induction,
          MarketEvent.contributes_iff, List.filterMap_cons,
          List.filterMap_cons]
        cases event.tradeOf? <;> cases event.quoteOf? <;> simp <;> omega
  simp only [directRow, aggregateRow, positive, mem_itemsAt]
  constructor
  · intro found
    rcases found with ⟨event, ⟨member, same⟩, contributes⟩
    exact ⟨event, member, contributes, same⟩
  · intro found
    rcases found with ⟨event, member, contributes, same⟩
    exact ⟨event, ⟨member, same⟩, contributes⟩

/-- Readings aggregate to what the events do. -/
private theorem directRow_reading {events : List (MarketEvent Rat)}
    (inRange : ∀ event ∈ events, inDatetimeRange event.tsEvent = true)
    (inside : ∀ event ∈ events, InCalendar event.tsEvent windowSeconds)
    (window : String × Instant) :
    directRow windowSeconds windowLabel (events.map MarketEvent.reading)
        window =
      aggregateRow windowSeconds windowLabel window
        (events.filter (fun event =>
          Double.bucket windowSeconds event = .ok window)) := by
  have selected : itemsAt (bucket windowSeconds)
      (events.map MarketEvent.reading) window =
      (events.filter (fun event =>
        Double.bucket windowSeconds event = .ok window)).map
          MarketEvent.reading := by
    rw [itemsAt, List.filter_map]
    congr 1
    apply List.filter_congr
    intro event member
    simp only [Function.comp_apply, decide_eq_decide,
      bucket_double_iff (inRange event member), inside event member, true_and]
    exact eq_comm
  have trades : (MarketEvent.tradeOf? (F := Rat)) ∘ MarketEvent.reading =
      MarketEvent.tradeOf? := rfl
  have quotes : (MarketEvent.quoteOf? (F := Rat)) ∘ MarketEvent.reading =
      MarketEvent.quoteOf? := rfl
  simp only [directRow, selected, aggregateRow, List.filterMap_map, trades,
    quotes]

end Direct

section Finite

variable {events : List FiniteEvent} {windowSeconds : Nat}
  {windowLabel : String}

theorem inRange_events
    (inRange : ∀ event ∈ events, inDatetimeRange event.event.tsEvent = true) :
    ∀ event ∈ events.map FiniteEvent.event,
      inDatetimeRange event.tsEvent = true := by
  intro event member
  obtain ⟨finite, finiteMember, rfl⟩ := List.mem_map.mp member
  exact inRange finite finiteMember

/-- The rows are those of the buckets that have an event. -/
theorem mem_computeWindows_finite {row : WindowMetrics Rat} :
    row ∈ computeWindows
        ((events.map FiniteEvent.event).map MarketEvent.reading)
        windowSeconds windowLabel ↔
      ∃ event ∈ events, row = directRow windowSeconds windowLabel
        ((events.map FiniteEvent.event).map MarketEvent.reading)
        (bucket windowSeconds event.event.reading) := by
  rw [mem_computeWindows_iff (FiniteEvent.sizesNonneg events).reading]
  simp only [List.mem_map, exists_exists_and_eq_and]

/-- Where every bucket has a contributing event the rows meet the
definition. -/
private theorem meetsDefinition_of_shared
    (inRange : ∀ event ∈ events, inDatetimeRange event.event.tsEvent = true)
    (shared : ∀ event ∈ events, InCalendar event.event.tsEvent windowSeconds ∧
      ∃ other ∈ events, other.event.Contributes ∧
        Double.bucket windowSeconds other.event =
          Double.bucket windowSeconds event.event) :
    MeetsDefinition (events.map FiniteEvent.event) windowSeconds windowLabel
      (computeWindows ((events.map FiniteEvent.event).map MarketEvent.reading)
        windowSeconds windowLabel) := by
  have inside : ∀ event ∈ events.map FiniteEvent.event,
      InCalendar event.tsEvent windowSeconds := by
    intro event member
    obtain ⟨finite, finiteMember, rfl⟩ := List.mem_map.mp member
    exact (shared finite finiteMember).1
  -- The bucket of an event in the calendar.
  have opens : ∀ event ∈ events, Double.bucket windowSeconds event.event =
      .ok (bucket windowSeconds event.event.reading) := by
    intro event member
    exact (bucket_double_iff (inRange event member)).mpr
      ⟨(shared event member).1, rfl⟩
  refine ⟨computeWindows_increasing _ _ _, ?_, ?_, ?_⟩
  · intro symbol start
    constructor
    · intro found
      rcases found with ⟨row, member, sameSymbol, sameStart⟩
      obtain ⟨event, eventMember, same⟩ := mem_computeWindows_finite.mp member
      obtain ⟨_, other, otherMember, contributes, sameBucket⟩ :=
        shared event eventMember
      refine ⟨other.event, List.mem_map.mpr ⟨other, otherMember, rfl⟩,
        contributes, ?_⟩
      rw [sameBucket, opens event eventMember, ← sameSymbol, ← sameStart,
        same]
      rfl
    · intro found
      rcases found with ⟨event, member, _, opened⟩
      obtain ⟨finite, finiteMember, rfl⟩ := List.mem_map.mp member
      rw [opens finite finiteMember, Except.ok.injEq] at opened
      refine ⟨_, mem_computeWindows_finite.mpr ⟨finite, finiteMember, rfl⟩, ?_⟩
      rw [opened]
      exact ⟨rfl, rfl⟩
  · intro row member
    obtain ⟨event, eventMember, same⟩ := mem_computeWindows_finite.mp member
    obtain ⟨_, other, otherMember, contributes, sameBucket⟩ :=
      shared event eventMember
    rw [opens other otherMember, opens event eventMember, Except.ok.injEq]
      at sameBucket
    rw [same, directRow_counted_iff]
    exact ⟨other.event.reading, List.mem_map_of_mem
      (List.mem_map_of_mem otherMember), contributes, sameBucket⟩
  · intro row member
    obtain ⟨event, _, same⟩ := mem_computeWindows_finite.mp member
    have window : (row.symbol, row.windowStart) =
        bucket windowSeconds event.event.reading := by
      rw [same]
      rfl
    rw [window, ← directRow_reading (inRange_events inRange) inside]
    exact same

end Finite

/-- The reference returns, and meets its definition, exactly when every event's
window lies in the calendar and holds an event that contributes. -/
theorem computeWindows_meets_definition_iff (events : List FiniteEvent)
    (inRange : ∀ event ∈ events, inDatetimeRange event.event.tsEvent = true)
    (windowSeconds : Nat) (windowLabel : String) :
    (∃ rows, Double.computeWindows (events.map FiniteEvent.event)
        windowSeconds windowLabel = .ok rows ∧
      MeetsDefinition (events.map FiniteEvent.event) windowSeconds windowLabel
        rows) ↔
      ∀ event ∈ events, InCalendar event.event.tsEvent windowSeconds ∧
        ∃ other ∈ events, other.event.Contributes ∧
          Double.bucket windowSeconds other.event =
            Double.bucket windowSeconds event.event := by
  simp only [computeWindows_double_iff (inRange_events inRange)]
  constructor
  · intro returned
    obtain ⟨_, ⟨inside, rfl⟩, meets⟩ := returned
    intro event member
    refine ⟨inside _ (List.mem_map_of_mem member), ?_⟩
    have counted := meets.counted _
      (mem_computeWindows_finite.mpr ⟨event, member, rfl⟩)
    obtain ⟨other, otherMember, contributes, same⟩ :=
      directRow_counted_iff.mp counted
    obtain ⟨_, mapped, rfl⟩ := List.mem_map.mp otherMember
    obtain ⟨finite, finiteMember, rfl⟩ := List.mem_map.mp mapped
    refine ⟨finite, finiteMember, contributes, ?_⟩
    rw [(bucket_double_iff (inRange finite finiteMember)).mpr
      ⟨inside _ (List.mem_map_of_mem finiteMember), rfl⟩]
    exact ((bucket_double_iff (inRange event member)).mpr
      ⟨inside _ (List.mem_map_of_mem member), same⟩).symm
  · intro shared
    refine ⟨_, ⟨?_, rfl⟩, meetsDefinition_of_shared inRange shared⟩
    intro event member
    obtain ⟨finite, finiteMember, rfl⟩ := List.mem_map.mp member
    exact (shared finite finiteMember).1

theorem computeWindows_meets_definition_sample :
    ∃ rows, Double.computeWindows
        [sampleTrade "t-1" 5 100 1, sampleTicker 65 1 2] 60 "1m" = .ok rows ∧
      MeetsDefinition [sampleTrade "t-1" 5 100 1, sampleTicker 65 1 2] 60 "1m"
        rows :=
  (computeWindows_meets_definition_iff
    [⟨sampleTrade "t-1" 5 100 1, by decide⟩, ⟨sampleTicker 65 1 2, by decide⟩]
    (by decide) 60 "1m").mpr (by decide +kernel)

/-- A trade whose size is missing; the constructor accepts it. -/
def sizelessTrade : FiniteEvent :=
  { event := { sampleTrade "t-1" 5 100 1 with size := none }
    checked := by decide }

/-- A trade without a size opens a window with no events. -/
theorem computeWindows_spurious_window :
    ¬ ∃ rows, Double.computeWindows ([sizelessTrade].map FiniteEvent.event) 60
        "1m" = .ok rows ∧
      MeetsDefinition ([sizelessTrade].map FiniteEvent.event) 60 "1m" rows := by
  intro returned
  obtain ⟨rows, computed, meets⟩ := returned
  have empty : (match Double.computeWindows
      ([sizelessTrade].map FiniteEvent.event) 60 "1m" with
    | .ok rows => rows.any (fun row => row.eventCount = 0)
    | .error _ => false) = true := by
    decide +kernel
  rw [computed, List.any_eq_true] at empty
  obtain ⟨row, member, none⟩ := empty
  have counted := meets.counted row member
  rw [decide_eq_true_eq] at none
  omega

end TickStream
