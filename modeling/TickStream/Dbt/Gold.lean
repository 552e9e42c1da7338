import Mathlib.Data.Rat.Floor
import TickStream.Dbt.Silver

/-!
# The gold model

`gold_window_metrics` groups each silver model by symbol and window for both
window sizes and glues the two sides with a full outer join on the grain
(symbol, window size, window start).  Epochs and numbers are exact here; the
doubles of the engine are in `Dbt.Epoch` and `Dbt.GoldDoubles`.
-/

namespace TickStream

open Python Library

/-- Symbol, window size and window start. -/
abbrev Grain := String × String × Instant

/-- The `window_start` macro, of the exact epoch. -/
def windowStart (tsCol : Instant) (seconds : Nat) : Instant :=
  ⌊(tsCol : Rat) / microsPerSecond / seconds⌋ * seconds * microsPerSecond

section Windows

variable {α ρ : Type} (symbol : α → String) (tsCol : α → Instant)

/-- The group of a row for one window size. -/
def grainOf (size : String × Nat) (row : α) : Grain :=
  (symbol row, size.1, windowStart (tsCol row) size.2)

/-- `group by 1, 2, 3` for each window size, glued by `union all`. -/
def groupWindows (aggregate : Grain → List α → ρ) (rows : List α) : List ρ :=
  windowSizes.flatMap (fun size =>
    (groupBy (grainOf symbol tsCol size) rows).entries.map
      (fun group => aggregate group.1 group.2))

end Windows

/-- A row of `trade_windows`. -/
structure TradeWindow (F : Type := Rat) where
  grain : Grain
  vwap : Option F
  tradeVolume : Option F
  tradeCount : Nat

/-- A row of `ticker_windows`. -/
structure TickerWindow (F : Type := Rat) where
  grain : Grain
  avgSpread : Option F
  avgMid : Option F
  tickerCount : Nat

def tradeWindow (grain : Grain) (trades : List SilverTrade) : TradeWindow :=
  { grain := grain
    vwap :=
      nullDiv (sqlSum (trades.map (fun trade => trade.price * trade.size)))
        (nullIf (sqlSum (trades.map SilverTrade.size)) 0)
    tradeVolume := sqlSum (trades.map SilverTrade.size)
    tradeCount := trades.length }

def tickerWindow (grain : Grain) (tickers : List SilverTicker) :
    TickerWindow :=
  { grain := grain
    avgSpread := sqlAvg (tickers.map SilverTicker.spread)
    avgMid := sqlAvg (tickers.map SilverTicker.mid)
    tickerCount := tickers.length }

def tradeWindows (trades : List SilverTrade) : List TradeWindow :=
  groupWindows SilverTrade.symbol SilverTrade.tsEvent tradeWindow trades

/-- A row of `gold_window_metrics`: the metrics of a window and its key. -/
structure GoldRow (F : Type := Rat) extends WindowMetrics F where
  windowKey : String
deriving DecidableEq

/-- The interval added to a window start, in seconds. -/
def windowSpan (windowSize : String) : Nat :=
  if windowSize = "1m" then 60 else 300

def windowKey (grain : Grain) : String :=
  grain.1 ++ "|" ++ grain.2.1 ++ "|" ++ toString (grain.2.2 / microsPerSecond)

/-- The output row of a joined pair. -/
def goldRow {F : Type} [Zero F]
    (joined : Joined (TradeWindow F) (TickerWindow F)) : GoldRow F :=
  let grain := joined.key TradeWindow.grain TickerWindow.grain
  let tradeCount := (joined.left?.map TradeWindow.tradeCount).getD 0
  let tickerCount := (joined.right?.map TickerWindow.tickerCount).getD 0
  { symbol := grain.1
    windowSize := grain.2.1
    windowStart := grain.2.2
    windowEnd := grain.2.2 + windowSpan grain.2.1 * microsPerSecond
    vwap := joined.left?.bind TradeWindow.vwap
    tradeVolume := (joined.left?.bind TradeWindow.tradeVolume).getD 0
    tradeCount := tradeCount
    avgSpread := joined.right?.bind TickerWindow.avgSpread
    avgMid := joined.right?.bind TickerWindow.avgMid
    tickerCount := tickerCount
    eventCount := tradeCount + tickerCount
    windowKey := windowKey grain }

/-- Both sides grouped, aggregated and joined. -/
def joinAggregates {F : Type} [Zero F]
    (trade : Grain → List SilverTrade → TradeWindow F)
    (ticker : Grain → List SilverTicker → TickerWindow F)
    (trades : List SilverTrade) (tickers : List SilverTicker) :
    List (GoldRow F) :=
  (fullOuterJoin TradeWindow.grain TickerWindow.grain
    (groupWindows SilverTrade.symbol SilverTrade.tsEvent trade trades)
    (groupWindows SilverTicker.symbol SilverTicker.tsEvent ticker
      tickers)).map goldRow

def joinWindows (trades : List SilverTrade) (tickers : List SilverTicker) :
    List GoldRow :=
  joinAggregates tradeWindow tickerWindow trades tickers

def goldWindowMetrics (bronze : List BronzeRow) : List GoldRow :=
  joinWindows (silverTrades bronze) (silverTicker bronze)

section Windows

variable {α ρ : Type} {symbol : α → String} {tsCol : α → Instant}
  {aggregate : Grain → List α → ρ} {rows : List α}

/-- The rows of a window. -/
def inWindow (symbol : α → String) (tsCol : α → Instant) (rows : List α)
    (size : String × Nat) (grain : Grain) : List α :=
  itemsAt (grainOf symbol tsCol size) rows grain

theorem mem_inWindow {size : String × Nat} {grain : Grain} {row : α} :
    row ∈ inWindow symbol tsCol rows size grain ↔
      row ∈ rows ∧ grainOf symbol tsCol size row = grain :=
  mem_itemsAt _

/-- Grouping has a row for every window that holds a row. -/
theorem mem_groupWindows {window : ρ} :
    window ∈ groupWindows symbol tsCol aggregate rows ↔
      ∃ size ∈ windowSizes, ∃ grain,
        inWindow symbol tsCol rows size grain ≠ [] ∧
          window = aggregate grain (inWindow symbol tsCol rows size grain) := by
  simp only [groupWindows, List.mem_flatMap, List.mem_map]
  constructor
  · intro aggregated
    rcases aggregated with ⟨size, sizeMember, ⟨grain, group⟩, member, same⟩
    have sameGroup := ((mem_groupBy _).mp member).2
    have nonempty := group_ne_nil _ member
    subst sameGroup
    exact ⟨size, sizeMember, grain, nonempty, same.symm⟩
  · intro occupied
    rcases occupied with ⟨size, sizeMember, grain, nonempty, same⟩
    obtain ⟨row, present⟩ := List.exists_mem_of_ne_nil _ nonempty
    obtain ⟨rowMember, sameGrain⟩ := mem_inWindow.mp present
    exact ⟨size, sizeMember, (grain, inWindow symbol tsCol rows size grain),
      (mem_groupBy _).mpr ⟨⟨row, rowMember, sameGrain⟩, rfl⟩, same.symm⟩

theorem grain_label {size : String × Nat} {grain : Grain}
    (nonempty : inWindow symbol tsCol rows size grain ≠ []) :
    grain.2.1 = size.1 := by
  obtain ⟨row, present⟩ := List.exists_mem_of_ne_nil _ nonempty
  obtain ⟨_, sameGrain⟩ := mem_inWindow.mp present
  rw [← sameGrain]
  rfl

/-- A label determines its size. -/
theorem size_of_label {left right : String × Nat}
    (leftMember : left ∈ windowSizes) (rightMember : right ∈ windowSizes)
    (sameLabel : left.1 = right.1) : left = right := by
  have distinct : (windowSizes.map Prod.fst).Nodup := by decide
  exact List.inj_on_of_nodup_map distinct leftMember rightMember sameLabel

theorem windowSpan_eq {size : String × Nat} (member : size ∈ windowSizes) :
    windowSpan size.1 = size.2 := by
  have all : ∀ size ∈ windowSizes, windowSpan size.1 = size.2 := by decide
  exact all size member

/-- No window is grouped twice. -/
theorem groupWindows_grains_nodup {grainOfWindow : ρ → Grain}
    (keeps : ∀ grain group, grainOfWindow (aggregate grain group) = grain) :
    ((groupWindows symbol tsCol aggregate rows).map grainOfWindow).Nodup := by
  apply windowSizes_keys_nodup grainOfWindow (fun grain => grain.2.1)
  · intro size
    have grains : ((groupBy (grainOf symbol tsCol size) rows).entries.map
        (fun group => aggregate group.1 group.2)).map grainOfWindow =
      (groupBy (grainOf symbol tsCol size) rows).keys := by
      rw [List.map_map]
      apply List.map_congr_left
      intro group _
      exact keeps group.1 group.2
    rw [grains]
    exact Dict.keys_nodup _
  · intro size window member
    obtain ⟨group, groupMember, same⟩ := List.mem_map.mp member
    obtain ⟨⟨row, _, sameGrain⟩, _⟩ := (mem_groupBy _).mp groupMember
    rw [← same, keeps, ← sameGrain]
    rfl

end Windows

/-- Aggregates that carry the grain of their group. -/
structure KeepsGrain {F : Type}
    (trade : Grain → List SilverTrade → TradeWindow F)
    (ticker : Grain → List SilverTicker → TickerWindow F) : Prop where
  trade : ∀ grain trades, (trade grain trades).grain = grain
  ticker : ∀ grain tickers, (ticker grain tickers).grain = grain

theorem windows_keepGrain : KeepsGrain tradeWindow tickerWindow :=
  ⟨fun _ _ => rfl, fun _ _ => rfl⟩

/-- The grain is unique in gold. -/
theorem joinAggregates_keys_nodup {F : Type} [Zero F]
    {trade : Grain → List SilverTrade → TradeWindow F}
    {ticker : Grain → List SilverTicker → TickerWindow F}
    (keeps : KeepsGrain trade ticker) (trades : List SilverTrade)
    (tickers : List SilverTicker) :
    ((joinAggregates trade ticker trades tickers).map
      (fun row => row.key)).Nodup := by
  simp only [joinAggregates]
  rw [List.map_map]
  exact fullOuterJoin_keys_nodup _ _ (groupWindows_grains_nodup keeps.trade)
    (groupWindows_grains_nodup keeps.ticker)

theorem joinWindows_keys_nodup (trades : List SilverTrade)
    (tickers : List SilverTicker) :
    ((joinWindows trades tickers).map (fun row => row.key)).Nodup :=
  joinAggregates_keys_nodup windows_keepGrain trades tickers

end TickStream
