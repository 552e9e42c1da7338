import Mathlib.Tactic.Linarith
import TickStream.Library.WeightedMean
import TickStream.Processing.WindowSpec

/-!
# Metrics against the market data

Every metric of a window stays inside the data of the window: the vwap between
the extreme prices of its trades with a size, the mid between its lowest bid
and its highest ask.
-/

namespace TickStream

open Python Library

section Window

variable (windowSeconds : Nat) (events : List (MarketEvent Rat))
  (window : String × Instant)

/-- Price and size of the trades a window counts. -/
def windowTrades : List (Rat × Rat) :=
  (itemsAt (bucket windowSeconds) events window).filterMap
    MarketEvent.tradeOf?

/-- Bid and ask of the tickers a window counts. -/
def windowQuotes : List (Rat × Rat) :=
  (itemsAt (bucket windowSeconds) events window).filterMap
    MarketEvent.quoteOf?

/-- The prices that carry a size. -/
def tradedPrices : List Rat :=
  ((windowTrades windowSeconds events window).filter
    (fun trade => 0 < trade.2)).map Prod.fst

def quotedBids : List Rat :=
  (windowQuotes windowSeconds events window).map Prod.fst

def quotedAsks : List Rat :=
  (windowQuotes windowSeconds events window).map Prod.snd

end Window

private theorem mem_windowTrades {windowSeconds : Nat}
    {events : List (MarketEvent Rat)} {window : String × Instant}
    {price size : Rat} :
    (price, size) ∈ windowTrades windowSeconds events window ↔
      ∃ event ∈ events, bucket windowSeconds event = window ∧
        event.eventType = .trade ∧ event.price = some price ∧
        event.size = some size := by
  simp only [windowTrades, List.mem_filterMap, mem_itemsAt, and_assoc,
    MarketEvent.tradeOf?]
  apply exists_congr
  intro event
  cases event.eventType <;> cases event.price <;> cases event.size <;> simp

private theorem mem_windowQuotes {windowSeconds : Nat}
    {events : List (MarketEvent Rat)} {window : String × Instant}
    {bid ask : Rat} :
    (bid, ask) ∈ windowQuotes windowSeconds events window ↔
      ∃ event ∈ events, bucket windowSeconds event = window ∧
        event.eventType = .ticker ∧ event.bestBid = some bid ∧
        event.bestAsk = some ask := by
  simp only [windowQuotes, List.mem_filterMap, mem_itemsAt, and_assoc,
    MarketEvent.quoteOf?]
  apply exists_congr
  intro event
  cases event.eventType <;> cases event.bestBid <;> cases event.bestAsk <;>
    simp

section Checked

variable {windowSeconds : Nat} {events : List FiniteEvent}
  {window : String × Instant}

/-- The validator's rules on a counted trade. -/
theorem windowTrades_checked {trade : Rat × Rat}
    (member : trade ∈ windowTrades windowSeconds
      (events.map FiniteEvent.event) window) :
    0 < trade.1 ∧ 0 ≤ trade.2 := by
  obtain ⟨price, size⟩ := trade
  obtain ⟨event, eventMember, _, _, hasPrice, hasSize⟩ :=
    mem_windowTrades.mp member
  obtain ⟨finite, _, rfl⟩ := List.mem_map.mp eventMember
  obtain ⟨prices, sizes, _⟩ :=
    MarketEvent.basicContract_ok_iff.mp finite.checked
  have positive := prices (.fin price) (by simp [MarketEvent.ofJson, hasPrice])
  have notNegative := sizes (.fin size) (by simp [MarketEvent.ofJson, hasSize])
  exact ⟨by simpa [PyFloat.le] using positive,
    by simpa [PyFloat.lt] using notNegative⟩

/-- The validator's rules on a counted ticker. -/
theorem windowQuotes_checked {quote : Rat × Rat}
    (member : quote ∈ windowQuotes windowSeconds
      (events.map FiniteEvent.event) window) :
    0 ≤ quote.1 ∧ quote.1 ≤ quote.2 := by
  obtain ⟨bid, ask⟩ := quote
  obtain ⟨event, eventMember, _, _, hasBid, hasAsk⟩ :=
    mem_windowQuotes.mp member
  obtain ⟨finite, _, rfl⟩ := List.mem_map.mp eventMember
  obtain ⟨_, _, bids, _, _, _, uncrossed⟩ :=
    MarketEvent.basicContract_ok_iff.mp finite.checked
  have notNegative := bids (.fin bid) (by simp [MarketEvent.ofJson, hasBid])
  have ordered := uncrossed (.fin bid) (.fin ask)
    (by simp [MarketEvent.ofJson, hasBid])
    (by simp [MarketEvent.ofJson, hasAsk])
  exact ⟨by simpa [PyFloat.lt] using notNegative,
    by simpa [PyFloat.lt] using ordered⟩

/-- The price-volume quotient of a window lies between the extreme prices that
carry a size. -/
private theorem vwap_mem_range
    (volume : ((windowTrades windowSeconds (events.map FiniteEvent.event)
      window).map Prod.snd).sum ≠ 0) :
    ∃ lowest highest,
      IsLeast {price | price ∈ tradedPrices windowSeconds
        (events.map FiniteEvent.event) window} lowest ∧
      IsGreatest {price | price ∈ tradedPrices windowSeconds
        (events.map FiniteEvent.event) window} highest ∧
      0 < lowest ∧
      lowest ≤ weightedMean Prod.fst Prod.snd (windowTrades windowSeconds
        (events.map FiniteEvent.event) window) ∧
      weightedMean Prod.fst Prod.snd (windowTrades windowSeconds
        (events.map FiniteEvent.event) window) ≤ highest := by
  have sizes : ∀ trade ∈ windowTrades windowSeconds
      (events.map FiniteEvent.event) window, 0 ≤ trade.2 := by
    intro trade member
    exact (windowTrades_checked member).2
  have priced : ∀ trade ∈ windowTrades windowSeconds
      (events.map FiniteEvent.event) window, 0 < trade.2 →
        trade.1 ∈ tradedPrices windowSeconds
          (events.map FiniteEvent.event) window := by
    intro trade member positive
    apply List.mem_map_of_mem
    rw [List.mem_filter]
    exact ⟨member, decide_eq_true positive⟩
  obtain ⟨trade, member, positive⟩ := exists_weight_pos sizes volume
  have nonempty := List.ne_nil_of_mem (priced trade member positive)
  obtain ⟨lowest, least⟩ := exists_isLeast_of_ne_nil nonempty
  obtain ⟨highest, greatest⟩ := exists_isGreatest_of_ne_nil nonempty
  refine ⟨lowest, highest, least, greatest, ?_, ?_, ?_⟩
  · obtain ⟨cheapest, kept, samePrice⟩ := List.mem_map.mp least.1
    rw [← samePrice]
    exact (windowTrades_checked (List.mem_filter.mp kept).1).1
  · apply le_weightedMean sizes volume
    intro other otherMember otherPositive
    exact least.2 (priced other otherMember otherPositive)
  · apply weightedMean_le sizes volume
    intro other otherMember otherPositive
    exact greatest.2 (priced other otherMember otherPositive)

def spreadOf (quote : Rat × Rat) : Rat := quote.2 - quote.1

def midOf (quote : Rat × Rat) : Rat := (quote.2 + quote.1) / 2

/-- The mean mid of a window lies between its lowest bid and its highest ask. -/
private theorem mid_mem_range
    (nonempty : windowQuotes windowSeconds (events.map FiniteEvent.event)
      window ≠ []) :
    ∃ lowestBid highestAsk,
      IsLeast {bid | bid ∈ quotedBids windowSeconds
        (events.map FiniteEvent.event) window} lowestBid ∧
      IsGreatest {ask | ask ∈ quotedAsks windowSeconds
        (events.map FiniteEvent.event) window} highestAsk ∧
      lowestBid ≤ weightedMean midOf (fun _ => 1) (windowQuotes windowSeconds
        (events.map FiniteEvent.event) window) ∧
      weightedMean midOf (fun _ => 1) (windowQuotes windowSeconds
        (events.map FiniteEvent.event) window) ≤ highestAsk := by
  have count : ((windowQuotes windowSeconds (events.map FiniteEvent.event)
      window).map (fun _ => (1 : Rat))).sum ≠ 0 := by
    simpa using nonempty
  have bids : quotedBids windowSeconds (events.map FiniteEvent.event)
      window ≠ [] := by
    simpa only [quotedBids, ne_eq, List.map_eq_nil_iff] using nonempty
  have asks : quotedAsks windowSeconds (events.map FiniteEvent.event)
      window ≠ [] := by
    simpa only [quotedAsks, ne_eq, List.map_eq_nil_iff] using nonempty
  obtain ⟨lowestBid, least⟩ := exists_isLeast_of_ne_nil bids
  obtain ⟨highestAsk, greatest⟩ := exists_isGreatest_of_ne_nil asks
  refine ⟨lowestBid, highestAsk, least, greatest, ?_, ?_⟩
  · apply le_weightedMean (fun _ _ => zero_le_one) count
    intro quote member _
    have lower := least.2 (List.mem_map_of_mem (f := Prod.fst) member)
    have ordered := (windowQuotes_checked member).2
    simp only [midOf]
    linarith
  · apply weightedMean_le (fun _ _ => zero_le_one) count
    intro quote member _
    have upper := greatest.2 (List.mem_map_of_mem (f := Prod.snd) member)
    have ordered := (windowQuotes_checked member).2
    simp only [midOf]
    linarith

/-- The mean spread is not negative and at most twice the mean mid. -/
private theorem spread_mem_range
    (nonempty : windowQuotes windowSeconds (events.map FiniteEvent.event)
      window ≠ []) :
    0 ≤ weightedMean spreadOf (fun _ => 1) (windowQuotes windowSeconds
        (events.map FiniteEvent.event) window) ∧
      weightedMean spreadOf (fun _ => 1) (windowQuotes windowSeconds
          (events.map FiniteEvent.event) window) / 2 ≤
        weightedMean midOf (fun _ => 1) (windowQuotes windowSeconds
          (events.map FiniteEvent.event) window) := by
  have count : ((windowQuotes windowSeconds (events.map FiniteEvent.event)
      window).map (fun _ => (1 : Rat))).sum ≠ 0 := by
    simpa using nonempty
  constructor
  · apply le_weightedMean (fun _ _ => zero_le_one) count
    intro quote member _
    have ordered := (windowQuotes_checked member).2
    simp only [spreadOf]
    linarith
  · rw [div_eq_mul_one_div, ← weightedMean_mul]
    apply weightedMean_mono (fun _ _ => zero_le_one)
    intro quote member _
    have positive := (windowQuotes_checked member).1
    simp only [spreadOf, midOf]
    linarith

end Checked

/-- The metrics of a row stay inside the market data of its window.  A trade
without a size and a ticker with one side count for nothing. -/
structure StaysInMarket (windowSeconds : Nat)
    (events : List (MarketEvent Rat)) (row : WindowMetrics Rat) : Prop where
  vwap : ∀ vwap, row.vwap = some vwap →
    ∃ lowest highest,
      IsLeast {price | price ∈ tradedPrices windowSeconds events
        (row.symbol, row.windowStart)} lowest ∧
      IsGreatest {price | price ∈ tradedPrices windowSeconds events
        (row.symbol, row.windowStart)} highest ∧
      lowest ≤ vwap ∧ vwap ≤ highest ∧ 0 < vwap
  quotes : 0 < row.tickerCount →
    ∃ spread mid lowestBid highestAsk,
      row.avgSpread = some spread ∧ row.avgMid = some mid ∧
      IsLeast {bid | bid ∈ quotedBids windowSeconds events
        (row.symbol, row.windowStart)} lowestBid ∧
      IsGreatest {ask | ask ∈ quotedAsks windowSeconds events
        (row.symbol, row.windowStart)} highestAsk ∧
      0 ≤ spread ∧ lowestBid ≤ mid ∧ mid ≤ highestAsk ∧ spread / 2 ≤ mid
  volume : 0 ≤ row.tradeVolume

private theorem directRow_vwap (windowSeconds : Nat) (windowLabel : String)
    (events : List (MarketEvent Rat)) (window : String × Instant) :
    (directRow windowSeconds windowLabel events window).vwap =
      if ((windowTrades windowSeconds events window).map Prod.snd).sum = 0
      then none
      else some (weightedMean Prod.fst Prod.snd
        (windowTrades windowSeconds events window)) := rfl

private theorem directRow_avgSpread (windowSeconds : Nat) (windowLabel : String)
    (events : List (MarketEvent Rat)) (window : String × Instant) :
    (directRow windowSeconds windowLabel events window).avgSpread =
      if windowQuotes windowSeconds events window = [] then none
      else some (weightedMean spreadOf (fun _ => 1)
        (windowQuotes windowSeconds events window)) := by
  rw [weightedMean_one]
  rfl

private theorem directRow_avgMid (windowSeconds : Nat) (windowLabel : String)
    (events : List (MarketEvent Rat)) (window : String × Instant) :
    (directRow windowSeconds windowLabel events window).avgMid =
      if windowQuotes windowSeconds events window = [] then none
      else some (weightedMean midOf (fun _ => 1)
        (windowQuotes windowSeconds events window)) := by
  rw [weightedMean_one]
  rfl

private theorem directRow_staysInMarket (events : List FiniteEvent)
    (windowSeconds : Nat) (windowLabel : String)
    (window : String × Instant) :
    StaysInMarket windowSeconds (events.map FiniteEvent.event)
      (directRow windowSeconds windowLabel (events.map FiniteEvent.event)
        window) := by
  refine ⟨?_, ?_, ?_⟩
  · intro vwap found
    rw [directRow_vwap] at found
    split at found
    · cases found
    · rename_i volume
      cases found
      obtain ⟨lowest, highest, least, greatest, positive, above, below⟩ :=
        vwap_mem_range volume
      exact ⟨lowest, highest, least, greatest, above, below,
        lt_of_lt_of_le positive above⟩
  · intro counted
    have nonempty : windowQuotes windowSeconds
        (events.map FiniteEvent.event) window ≠ [] :=
      List.length_pos_iff.mp counted
    obtain ⟨lowestBid, highestAsk, least, greatest, above, below⟩ :=
      mid_mem_range nonempty
    obtain ⟨notNegative, half⟩ := spread_mem_range nonempty
    refine ⟨_, _, lowestBid, highestAsk, ?_, ?_, least, greatest,
      notNegative, above, below, half⟩
    · rw [directRow_avgSpread, if_neg nonempty]
    · rw [directRow_avgMid, if_neg nonempty]
  · apply sum_weight_nonneg
    intro trade member
    exact (windowTrades_checked member).2

/-- No row of the reference leaves the market data of its window. -/
theorem computeWindows_staysInMarket (events : List FiniteEvent)
    (windowSeconds : Nat) (windowLabel : String) :
    ∀ row ∈ computeWindows (events.map FiniteEvent.event) windowSeconds
        windowLabel,
      StaysInMarket windowSeconds (events.map FiniteEvent.event) row := by
  intro row member
  rw [mem_computeWindows_iff (FiniteEvent.sizesNonneg events)] at member
  obtain ⟨event, _, rfl⟩ := member
  exact directRow_staysInMarket events windowSeconds windowLabel _

def twoTrades : List FiniteEvent :=
  [{ event := sampleTrade "t-1" 5 100 1, checked := rfl },
    { event := sampleTrade "t-2" 9 104 3, checked := rfl }]

theorem computeWindows_staysInMarket_sample :
    ∃ row ∈ computeWindows (twoTrades.map FiniteEvent.event) 60 "1m",
      row.vwap = some 103 ∧
        StaysInMarket 60 (twoTrades.map FiniteEvent.event) row := by
  have computed : ∃ row ∈ computeWindows
      (twoTrades.map FiniteEvent.event) 60 "1m", row.vwap = some 103 := by
    decide +kernel
  obtain ⟨row, member, vwap⟩ := computed
  exact ⟨row, member, vwap,
    computeWindows_staysInMarket twoTrades 60 "1m" row member⟩

end TickStream
