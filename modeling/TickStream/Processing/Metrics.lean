import Mathlib.Data.List.Sort
import Mathlib.Data.String.Basic
import TickStream.Schema
import TickStream.Library.KeyedFold

/-!
# Windowed metrics, computed in one batch

The reference the stream processor and the gold mart are compared with.  It
only uses the operations of its number type, in a fixed order, so it can be
read at any arithmetic, rounding ones included.

Instants are exact and unbounded here: `timestamp()` is the exact number of
seconds, and window bounds need not lie in the calendar.  The source divides
doubles and raises outside the calendar; `windowBounds_double_iff` says when it
returns, and that it then has the exact bounds of the instant its double stands
for, the event time itself less than 2^34 s from 1970.
-/

namespace TickStream

open Python Library

/-- Canonical window sizes: label and seconds. -/
def windowSizes : List (String × Nat) := [("1m", 60), ("5m", 300)]

/-- The metrics of one (symbol, window size, window) bucket. -/
structure WindowMetrics (F : Type) where
  symbol : String
  windowSize : String
  windowStart : Instant
  windowEnd : Instant
  vwap : Option F
  tradeVolume : F
  tradeCount : Nat
  avgSpread : Option F
  avgMid : Option F
  tickerCount : Nat
  eventCount : Nat
deriving DecidableEq, Repr

def WindowMetrics.key {F : Type} (metrics : WindowMetrics F) :
    String × String × Instant :=
  (metrics.symbol, metrics.windowSize, metrics.windowStart)

/-- The epoch-aligned window around `tsEvent`, from its exact timestamp.  `int`
rounds the timestamp toward zero, `//` rounds down. -/
def windowBounds (tsEvent : Instant) (windowSeconds : Nat) :
    Instant × Instant :=
  let epoch := tsEvent.tdiv microsPerSecond
  let start := epoch / windowSeconds * windowSeconds
  (start * microsPerSecond, (start + windowSeconds) * microsPerSecond)

/-- The accumulator of one window. -/
structure Acc (F : Type) where
  pv : F
  vol : F
  trades : Nat
  spreadSum : F
  midSum : F
  tickers : Nat
deriving DecidableEq, Repr

section Numbers

variable {F : Type} [Zero F] [Add F] [Sub F] [Mul F] [Div F] [NatCast F]

def Acc.empty : Acc F :=
  { pv := 0, vol := 0, trades := 0, spreadSum := 0, midSum := 0, tickers := 0 }

/-- Fold one event into the accumulator of its window. -/
def Acc.add (acc : Acc F) (event : MarketEvent F) : Acc F :=
  match event.eventType with
  | .trade =>
      match event.price, event.size with
      | some price, some size =>
          { acc with
            pv := acc.pv + price * size
            vol := acc.vol + size
            trades := acc.trades + 1 }
      | _, _ => acc
  | .ticker =>
      match event.bestBid, event.bestAsk with
      | some bid, some ask =>
          { acc with
            spreadSum := acc.spreadSum + (ask - bid)
            midSum := acc.midSum + (ask + bid) / ((2 : Nat) : F)
            tickers := acc.tickers + 1 }
      | _, _ => acc

/-- The bucket of an event: its symbol and the start of its window. -/
def bucket (windowSeconds : Nat) (event : MarketEvent F) : String × Instant :=
  (event.symbol, (windowBounds event.tsEvent windowSeconds).1)

variable [LT F] [DecidableLT F]

/-- The output row of one bucket. -/
def windowRow (windowSeconds : Nat) (windowLabel : String)
    (entry : (String × Instant) × Acc F) : WindowMetrics F :=
  let acc := entry.2
  { symbol := entry.1.1
    windowSize := windowLabel
    windowStart := entry.1.2
    windowEnd := (windowBounds entry.1.2 windowSeconds).2
    vwap := if 0 < acc.vol then some (acc.pv / acc.vol) else none
    tradeVolume := acc.vol
    tradeCount := acc.trades
    avgSpread :=
      if 0 < acc.tickers then some (acc.spreadSum / (acc.tickers : F)) else none
    avgMid :=
      if 0 < acc.tickers then some (acc.midSum / (acc.tickers : F)) else none
    tickerCount := acc.tickers
    eventCount := acc.trades + acc.tickers }

/-- The sort key `(symbol, window_start)`. -/
def WindowMetrics.precedes (left right : WindowMetrics F) : Prop :=
  left.symbol < right.symbol ∨
    left.symbol = right.symbol ∧ left.windowStart ≤ right.windowStart

instance : DecidableRel (WindowMetrics.precedes (F := F)) := fun left right =>
  inferInstanceAs (Decidable
    (left.symbol < right.symbol ∨
      left.symbol = right.symbol ∧ left.windowStart ≤ right.windowStart))

/-- Tumbling-window metrics, sorted by symbol and window start. -/
def computeWindows (events : List (MarketEvent F)) (windowSeconds : Nat)
    (windowLabel : String) : List (WindowMetrics F) :=
  ((foldKeyed (bucket windowSeconds) Acc.add Acc.empty events).entries.map
    (windowRow windowSeconds windowLabel)).insertionSort
      WindowMetrics.precedes

end Numbers

section Watermarks

variable {F : Type}

/-- Latest event time of every symbol. -/
def maxEventTsBySymbol (events : List (MarketEvent F)) :
    Dict String Instant :=
  events.foldl
    (fun out event =>
      out.alter event.symbol (fun current =>
        match current with
        | none => event.tsEvent
        | some seen => if seen < event.tsEvent then event.tsEvent else seen))
    Dict.empty

/-- Whether the watermark of the symbol has reached end plus grace, in exact
time. -/
def isClosed (maxTsBySymbol : Dict String Instant) (graceSeconds : Nat)
    (metrics : WindowMetrics F) : Bool :=
  match maxTsBySymbol.get? metrics.symbol with
  | none => false
  | some watermark =>
      metrics.windowEnd + graceSeconds * microsPerSecond ≤ watermark

/-- The rows whose window has closed under the given watermarks. -/
def closedWindows (metrics : List (WindowMetrics F))
    (maxTsBySymbol : Dict String Instant) (graceSeconds : Nat) :
    List (WindowMetrics F) :=
  metrics.filter (isClosed maxTsBySymbol graceSeconds)

end Watermarks

/-- Rows with distinct keys for each window size stay distinct over all of
them, provided the key tells the label of the size. -/
theorem windowSizes_keys_nodup {ρ κ : Type} {rows : String × Nat → List ρ}
    (key : ρ → κ) (label : κ → String)
    (distinct : ∀ size, ((rows size).map key).Nodup)
    (labelled : ∀ size, ∀ row ∈ rows size, label (key row) = size.1) :
    ((windowSizes.flatMap rows).map key).Nodup := by
  rw [List.map_flatMap, List.nodup_flatMap]
  constructor
  · intro size _
    exact distinct size
  · have labelsDiffer : windowSizes.Pairwise
        (fun left right => left.1 ≠ right.1) := by decide
    apply labelsDiffer.imp
    intro left right different shared leftMember rightMember
    obtain ⟨leftRow, leftRowMember, leftKey⟩ := List.mem_map.mp leftMember
    obtain ⟨rightRow, rightRowMember, rightKey⟩ :=
      List.mem_map.mp rightMember
    have leftLabel := labelled left leftRow leftRowMember
    have rightLabel := labelled right rightRow rightRowMember
    rw [leftKey] at leftLabel
    rw [rightKey] at rightLabel
    exact different (leftLabel.symm.trans rightLabel)

theorem windowBounds_fst_eq {tsEvent : Instant} (afterEpoch : 0 ≤ tsEvent)
    (windowSeconds : Nat) :
    (windowBounds tsEvent windowSeconds).1 =
      tsEvent / (windowSeconds * microsPerSecond) *
        (windowSeconds * microsPerSecond) := by
  have nested : tsEvent / microsPerSecond / windowSeconds =
      tsEvent / (windowSeconds * microsPerSecond) := by
    rw [Int.ediv_ediv_of_nonneg microsPerSecond_pos.le, Int.mul_comm]
  simp only [windowBounds, Int.tdiv_eq_ediv_of_nonneg afterEpoch, nested,
    Int.mul_assoc]

theorem windowBounds_snd_eq (tsEvent : Instant) (windowSeconds : Nat) :
    (windowBounds tsEvent windowSeconds).2 =
      (windowBounds tsEvent windowSeconds).1 +
        windowSeconds * microsPerSecond := by
  simp only [windowBounds, Int.add_mul]

/-- Bounding a window start again gives the same window. -/
theorem windowBounds_start (tsEvent : Instant) (windowSeconds : Nat) :
    windowBounds (windowBounds tsEvent windowSeconds).1 windowSeconds =
      windowBounds tsEvent windowSeconds := by
  by_cases trivialWidth : windowSeconds = 0
  · subst trivialWidth
    simp [windowBounds]
  · have width : (windowSeconds : Int) ≠ 0 := by omega
    simp only [windowBounds, Int.mul_tdiv_cancel _ microsPerSecond_ne_zero,
      Int.mul_ediv_cancel _ width]

section Rows

variable {F : Type} [Zero F] [Add F] [Sub F] [Mul F] [Div F] [NatCast F]
  [LT F] [DecidableLT F]

theorem computeWindows_perm (events : List (MarketEvent F))
    (windowSeconds : Nat) (windowLabel : String) :
    (computeWindows events windowSeconds windowLabel).Perm
      ((foldKeyed (bucket windowSeconds) Acc.add Acc.empty
        events).entries.map (windowRow windowSeconds windowLabel)) :=
  List.perm_insertionSort _ _

/-- What `compute_windows` holds: one row for every bucket of an event. -/
theorem mem_computeWindows {events : List (MarketEvent F)}
    {windowSeconds : Nat} {windowLabel : String} {row : WindowMetrics F} :
    row ∈ computeWindows events windowSeconds windowLabel ↔
      ∃ event ∈ events, row = windowRow windowSeconds windowLabel
        (bucket windowSeconds event,
          (itemsAt (bucket windowSeconds) events
            (bucket windowSeconds event)).foldl Acc.add Acc.empty) := by
  rw [(computeWindows_perm _ _ _).mem_iff, List.mem_map]
  constructor
  · intro computed
    rcases computed with ⟨⟨window, acc⟩, member, same⟩
    obtain ⟨⟨event, eventMember, sameWindow⟩, folded⟩ :=
      (mem_foldKeyed _ _ _).mp member
    subst sameWindow
    exact ⟨event, eventMember, by rw [← same, folded]⟩
  · intro inBucket
    rcases inBucket with ⟨event, eventMember, same⟩
    exact ⟨_, (mem_foldKeyed _ _ _).mpr ⟨⟨event, eventMember, rfl⟩, rfl⟩,
      same.symm⟩

theorem computeWindows_windowSize {events : List (MarketEvent F)}
    {windowSeconds : Nat} {windowLabel : String} {metrics : WindowMetrics F}
    (member : metrics ∈ computeWindows events windowSeconds windowLabel) :
    metrics.windowSize = windowLabel := by
  have unsorted := (computeWindows_perm _ _ _).mem_iff.mp member
  obtain ⟨entry, _, same⟩ := List.mem_map.mp unsorted
  rw [← same]
  rfl

/-- No bucket has two rows. -/
theorem computeWindows_keys_nodup (events : List (MarketEvent F))
    (windowSeconds : Nat) (windowLabel : String) :
    ((computeWindows events windowSeconds windowLabel).map
      WindowMetrics.key).Nodup := by
  rw [((computeWindows_perm events windowSeconds windowLabel).map
    WindowMetrics.key).nodup_iff, List.map_map]
  have distinct := (foldKeyed (bucket windowSeconds) Acc.add Acc.empty
    events).keysDistinct
  have injective : Function.Injective (fun window : String × Instant =>
      (window.1, windowLabel, window.2)) := by
    intro left right same
    simp only [Prod.mk.injEq, true_and] at same
    exact Prod.ext same.1 same.2
  have renamed := distinct.map injective
  rwa [List.map_map] at renamed

instance : Std.Total (WindowMetrics.precedes (F := F)) where
  total left right := by
    rcases lt_trichotomy left.symbol right.symbol with before | same | after
    · exact Or.inl (Or.inl before)
    · rcases Int.le_total left.windowStart right.windowStart with first | first
      · exact Or.inl (Or.inr ⟨same, first⟩)
      · exact Or.inr (Or.inr ⟨same.symm, first⟩)
    · exact Or.inr (Or.inl after)

instance : IsTrans (WindowMetrics F) WindowMetrics.precedes where
  trans first second third := by
    intro before after
    rcases before with before | ⟨sameSymbol, beforeStart⟩
    · rcases after with after | ⟨same, _⟩
      · exact Or.inl (before.trans after)
      · exact Or.inl (same ▸ before)
    · rcases after with after | ⟨same, afterStart⟩
      · exact Or.inl (sameSymbol ▸ after)
      · exact Or.inr ⟨sameSymbol.trans same, beforeStart.trans afterStart⟩

/-- The order of the output without repetitions. -/
def WindowMetrics.strictlyPrecedes (left right : WindowMetrics F) : Prop :=
  left.symbol < right.symbol ∨
    left.symbol = right.symbol ∧ left.windowStart < right.windowStart

/-- The rows come strictly increasing in symbol and window start. -/
theorem computeWindows_increasing (events : List (MarketEvent F))
    (windowSeconds : Nat) (windowLabel : String) :
    (computeWindows events windowSeconds windowLabel).Pairwise
      WindowMetrics.strictlyPrecedes := by
  have sorted : (computeWindows events windowSeconds windowLabel).Pairwise
      WindowMetrics.precedes := List.pairwise_insertionSort _ _
  have distinct := List.pairwise_map.mp
    (computeWindows_keys_nodup events windowSeconds windowLabel)
  refine (sorted.and distinct).imp_of_mem ?_
  intro left right leftMember rightMember ordered
  rcases ordered with ⟨before | ⟨sameSymbol, notAfter⟩, different⟩
  · exact Or.inl before
  · have sameSize := (computeWindows_windowSize leftMember).trans
      (computeWindows_windowSize rightMember).symm
    have otherStart : left.windowStart ≠ right.windowStart := by
      intro sameStart
      exact different (by
        simp only [WindowMetrics.key, sameSymbol, sameSize, sameStart])
    exact Or.inr ⟨sameSymbol, Int.lt_iff_le_and_ne.mpr ⟨notAfter, otherStart⟩⟩

/-- The rows are determined by the accumulators, in whatever order these were
created. -/
theorem computeWindows_eq_of_perm {left right : List (MarketEvent F)}
    {windowSeconds : Nat} (windowLabel : String)
    (same : (foldKeyed (bucket windowSeconds) Acc.add Acc.empty
        left).entries.Perm
      (foldKeyed (bucket windowSeconds) Acc.add Acc.empty right).entries) :
    computeWindows left windowSeconds windowLabel =
      computeWindows right windowSeconds windowLabel := by
  have rows := ((computeWindows_perm left windowSeconds windowLabel).trans
    (same.map _)).trans (computeWindows_perm right _ _).symm
  apply rows.eq_of_pairwise ?_ (computeWindows_increasing left _ _)
    (computeWindows_increasing right _ _)
  intro first second _ _ before after
  rcases before with before | ⟨same, before⟩
  · rcases after with after | ⟨same, _⟩
    · exact absurd before after.asymm
    · rw [same] at before
      exact absurd before (lt_irrefl _)
  · rcases after with after | ⟨_, after⟩
    · rw [same] at after
      exact absurd after (lt_irrefl _)
    · exact absurd before (Int.lt_asymm after)

end Rows

private theorem le_later_iff (bound seen latest : Int) :
    bound ≤ (if seen < latest then latest else seen) ↔
      bound ≤ seen ∨ bound ≤ latest := by
  split <;> omega

private theorem maxEventTsBySymbol_concat {F : Type}
    (events : List (MarketEvent F))
    (event : MarketEvent F) :
    maxEventTsBySymbol (events ++ [event]) =
      (maxEventTsBySymbol events).alter event.symbol (fun current =>
        match current with
        | none => event.tsEvent
        | some seen => if seen < event.tsEvent then event.tsEvent else seen) := by
  simp [maxEventTsBySymbol]

/-- A symbol's watermark reaches a bound exactly when some event of the symbol
does. -/
theorem maxEventTsBySymbol_reaches {F : Type} (events : List (MarketEvent F))
    (symbol : String) (bound : Instant) :
    (∃ watermark, (maxEventTsBySymbol events).get? symbol = some watermark ∧
        bound ≤ watermark) ↔
      ∃ event ∈ events, event.symbol = symbol ∧ bound ≤ event.tsEvent := by
  induction events using List.reverseRecOn with
  | nil => simp [maxEventTsBySymbol]
  | append_singleton events event induction =>
      rw [maxEventTsBySymbol_concat,
        Dict.reaches_alter_iff _ _ _ event.tsEvent, induction]
      · simp only [List.mem_append, List.mem_singleton, or_and_right,
          exists_or, exists_eq_left]
      · intro bound
        cases (maxEventTsBySymbol events).get? event.symbol with
        | none => simp
        | some seen => simp [le_later_iff]

/-- A watermark is the time of some event of its symbol. -/
theorem watermark_attained {F : Type} {events : List (MarketEvent F)}
    {symbol : String} {watermark : Instant}
    (bound : (maxEventTsBySymbol events).get? symbol = some watermark) :
    ∃ latest ∈ events, latest.symbol = symbol ∧
      latest.tsEvent = watermark := by
  obtain ⟨latest, member, same, atLeast⟩ :=
    (maxEventTsBySymbol_reaches events symbol watermark).mp
      ⟨watermark, bound, le_rfl⟩
  obtain ⟨_, sameBound, largest⟩ :=
    (maxEventTsBySymbol_reaches events symbol latest.tsEvent).mpr
      ⟨latest, member, same, le_rfl⟩
  rw [bound] at sameBound
  cases sameBound
  exact ⟨latest, member, same, le_antisymm largest atLeast⟩

theorem isClosed_iff {F : Type} {events : List (MarketEvent F)}
    {graceSeconds : Nat} {metrics : WindowMetrics F} :
    isClosed (maxEventTsBySymbol events) graceSeconds metrics = true ↔
      ∃ event ∈ events, event.symbol = metrics.symbol ∧
        metrics.windowEnd + graceSeconds * microsPerSecond ≤ event.tsEvent := by
  rw [← maxEventTsBySymbol_reaches]
  simp only [isClosed]
  cases (maxEventTsBySymbol events).get? metrics.symbol with
  | none => simp
  | some watermark => simp

def sampleTrade (tradeId : String) (second : Nat) (price size : Rat) :
    MarketEvent Rat :=
  { exchange := "coinbase"
    symbol := "BTC-USD"
    eventType := .trade
    price := some price
    size := some size
    tradeId := some tradeId
    tsEvent := second * microsPerSecond
    tsIngest := second * microsPerSecond }

def sampleTicker (second : Nat) (bid ask : Rat) : MarketEvent Rat :=
  { exchange := "coinbase"
    symbol := "BTC-USD"
    eventType := .ticker
    bestBid := some bid
    bestAsk := some ask
    tsEvent := second * microsPerSecond
    tsIngest := second * microsPerSecond }

end TickStream
