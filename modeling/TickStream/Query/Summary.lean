import Mathlib.Algebra.Order.Round
import TickStream.Library.KeyedSum
import TickStream.Query.Duck

/-!
# The summary of every symbol

`SYMBOL_SUMMARY_SQL` groups the 1-minute windows by symbol.  A window is a row
of gold, so its counts and volumes are those of the silver rows underneath; the
mean spread is a mean of window means.
-/

namespace TickStream

open Python Library

/-- A row of `SYMBOL_SUMMARY_SQL`. -/
structure SymbolSummaryRow where
  symbol : String
  windows : Nat
  totalVolume : Option Rat
  meanSpread : Option Rat
deriving DecidableEq

/-- `round(value, 6)`, halves away from zero. -/
def roundMillionth (value : Rat) : Rat :=
  if value < 0 then -(⌊-value * 1000000 + 1 / 2⌋ / 1000000 : Rat)
  else (⌊value * 1000000 + 1 / 2⌋ / 1000000 : Rat)

def summaryRow (symbol : String) (windows : List GoldRow) : SymbolSummaryRow :=
  { symbol := symbol
    windows := windows.length
    totalVolume := sqlSum (windows.map (fun row => row.tradeVolume))
    meanSpread := (sqlAvgNullable (windows.map (fun row => row.avgSpread))).map
      roundMillionth }

def symbolSummary (gold : List GoldRow) : List SymbolSummaryRow :=
  orderBy SymbolSummaryRow.symbol
    ((groupBy (fun row => row.symbol) (gold.filter isMinute)).entries.map
      (fun group => summaryRow group.1 group.2))

private theorem roundMillionth_near (value : Rat) :
    value - 1 / 2000000 ≤ roundMillionth value ∧
      roundMillionth value ≤ value + 1 / 2000000 := by
  have near : ∀ scaled : Rat, scaled - 1 / 2 ≤ ⌊scaled + 1 / 2⌋ ∧
      (⌊scaled + 1 / 2⌋ : Rat) ≤ scaled + 1 / 2 := by
    intro scaled
    have below := Int.lt_floor_add_one (scaled + 1 / 2)
    exact ⟨by linarith, Int.floor_le _⟩
  simp only [roundMillionth]
  split_ifs
  · have ⟨lower, upper⟩ := near (-value * 1000000)
    constructor <;> linarith
  · have ⟨lower, upper⟩ := near (value * 1000000)
    constructor <;> linarith

section Groups

variable {rows gold : List GoldRow}

/-- The 1-minute windows of a symbol. -/
def symbolMinutes (gold : List GoldRow) (symbol : String) : List GoldRow :=
  itemsAt (fun row => row.symbol) (gold.filter isMinute) symbol

theorem summaryRow_perm {windows other : List GoldRow} (symbol : String)
    (same : windows.Perm other) :
    summaryRow symbol windows = summaryRow symbol other := by
  simp only [summaryRow, same.length_eq,
    sqlSum_perm (same.map (fun row => row.tradeVolume)),
    sqlAvgNullable_perm (same.map (fun row => row.avgSpread))]

theorem mem_symbolSummary (scanned : rows.Perm gold) {out : SymbolSummaryRow} :
    out ∈ symbolSummary rows ↔
      ∃ symbol, symbolMinutes gold symbol ≠ [] ∧
        out = summaryRow symbol (symbolMinutes gold symbol) := by
  have group : ∀ symbol,
      (symbolMinutes rows symbol).Perm (symbolMinutes gold symbol) :=
    fun symbol => itemsAt_perm _ (scanned.filter isMinute) symbol
  simp only [symbolSummary, mem_orderBy, List.mem_map]
  constructor
  · intro produced
    rcases produced with ⟨⟨symbol, windows⟩, member, rfl⟩
    have occupied := group_ne_nil _ member
    obtain ⟨_, rfl⟩ := (mem_groupBy _).mp member
    refine ⟨symbol, ?_, summaryRow_perm symbol (group symbol)⟩
    intro empty
    rw [← List.length_eq_zero_iff, ← (group symbol).length_eq] at empty
    exact occupied (List.length_eq_zero_iff.mp empty)
  · intro produced
    rcases produced with ⟨symbol, occupied, rfl⟩
    obtain ⟨row, inGroup⟩ := List.exists_mem_of_ne_nil _ occupied
    have present := (mem_itemsAt _).mp ((group symbol).mem_iff.mpr inGroup)
    exact ⟨(symbol, symbolMinutes rows symbol),
      (mem_groupBy _).mpr ⟨⟨row, present⟩, rfl⟩,
      summaryRow_perm symbol (group symbol)⟩

private theorem symbolSummary_pairwise (rows : List GoldRow) :
    (symbolSummary rows).Pairwise
      (fun left right => left.symbol < right.symbol) := by
  apply orderBy_pairwise
  rw [List.map_map]
  exact (groupBy (fun row : GoldRow => row.symbol)
    (rows.filter isMinute)).keysDistinct

end Groups

section Silver

variable {trades : List SilverTrade} {tickers : List SilverTicker}

/-- The minutes in which a symbol has a silver row. -/
def occupiedMinutes (trades : List SilverTrade) (tickers : List SilverTicker)
    (symbol : String) : Finset Instant :=
  ((itemsAt SilverTrade.symbol trades symbol).map
      (fun trade => windowStart trade.tsEvent 60) ++
    (itemsAt SilverTicker.symbol tickers symbol).map
      (fun ticker => windowStart ticker.tsEvent 60)).toFinset

theorem mem_inMinute {α : Type} {symbol : α → String} {tsCol : α → Instant}
    {rows : List α} {grain : Grain} (label : grain.2.1 = "1m") {row : α} :
    row ∈ inWindow symbol tsCol rows ("1m", 60) grain ↔
      row ∈ itemsAt symbol rows grain.1 ∧
        windowStart (tsCol row) 60 = grain.2.2 := by
  obtain ⟨name, size, start⟩ := grain
  dsimp only at label
  subst label
  rw [mem_inWindow, mem_itemsAt, and_assoc]
  simp only [grainOf, Prod.mk.injEq, true_and]

theorem mem_occupiedMinutes {symbol : String} {start : Instant} :
    start ∈ occupiedMinutes trades tickers symbol ↔
      tradesIn trades ("1m", 60) (symbol, "1m", start) ≠ [] ∨
        tickersIn tickers ("1m", 60) (symbol, "1m", start) ≠ [] := by
  have occupied : ∀ {α : Type} {name : α → String} {tsCol : α → Instant}
      {rows : List α},
      inWindow name tsCol rows ("1m", 60) (symbol, "1m", start) ≠ [] ↔
        start ∈ (itemsAt name rows symbol).map
          (fun row => windowStart (tsCol row) 60) := by
    intro α name tsCol rows
    rw [ne_eq, List.eq_nil_iff_forall_not_mem, not_forall_not]
    have inside : ∀ row,
        row ∈ inWindow name tsCol rows ("1m", 60) (symbol, "1m", start) ↔
          row ∈ itemsAt name rows symbol ∧
            windowStart (tsCol row) 60 = start := fun _ => mem_inMinute rfl
    simp only [inside, List.mem_map]
  simp only [occupiedMinutes, List.mem_toFinset, List.mem_append, ← occupied]
  rfl

/-- A symbol has one window for every occupied minute. -/
theorem mem_symbolMinutes {symbol : String} {row : GoldRow} :
    row ∈ symbolMinutes (joinWindows trades tickers) symbol ↔
      ∃ start ∈ occupiedMinutes trades tickers symbol,
        row = goldRow (joinedOf (symbol, "1m", start)
          (tradesIn trades ("1m", 60) (symbol, "1m", start))
          (tickersIn tickers ("1m", 60) (symbol, "1m", start))) := by
  rw [symbolMinutes, mem_itemsAt, mem_minutes]
  constructor
  · intro minute
    rcases minute with ⟨⟨⟨name, size, start⟩, label, occupied, rfl⟩, same⟩
    dsimp only at label
    subst label
    rw [goldRow_eq] at same
    have named : name = symbol := same
    subst named
    exact ⟨start, mem_occupiedMinutes.mpr occupied, rfl⟩
  · intro minute
    rcases minute with ⟨start, occupied, rfl⟩
    refine ⟨⟨(symbol, "1m", start), rfl, mem_occupiedMinutes.mp occupied, rfl⟩,
      ?_⟩
    rw [goldRow_eq]
    rfl

theorem symbolMinutes_starts_nodup (symbol : String) :
    ((symbolMinutes (joinWindows trades tickers) symbol).map
      (fun row => row.windowStart)).Nodup := by
  apply itemsAt_ranks_nodup
  apply minutes_nodup
  · exact (joinWindows_keys_nodup trades tickers).sublist
      (List.filter_sublist.map _)
  · intro row member
    exact (List.mem_filter.mp member).2

theorem symbolMinutes_starts (symbol : String) :
    ((symbolMinutes (joinWindows trades tickers) symbol).map
      (fun row => row.windowStart)).toFinset =
        occupiedMinutes trades tickers symbol := by
  ext start
  simp only [List.mem_toFinset, List.mem_map, mem_symbolMinutes]
  constructor
  · intro started
    rcases started with ⟨row, ⟨minute, occupied, rfl⟩, same⟩
    rw [goldRow_eq] at same
    have here : minute = start := same
    rwa [← here]
  · intro occupied
    refine ⟨_, ⟨start, occupied, rfl⟩, ?_⟩
    rw [goldRow_eq]
    rfl

theorem symbolMinutes_length (symbol : String) :
    (symbolMinutes (joinWindows trades tickers) symbol).length =
      (occupiedMinutes trades tickers symbol).card := by
  rw [← symbolMinutes_starts, List.toFinset_card_of_nodup
    (symbolMinutes_starts_nodup symbol), List.length_map]

/-- The volumes of a symbol's windows add up to its silver trades. -/
private theorem symbolMinutes_volume (symbol : String) :
    ((symbolMinutes (joinWindows trades tickers) symbol).map
      (fun row => row.tradeVolume)).sum =
        ((itemsAt SilverTrade.symbol trades symbol).map
          SilverTrade.size).sum := by
  have volume : (symbolMinutes (joinWindows trades tickers) symbol).map
      (fun row => row.tradeVolume) =
      ((symbolMinutes (joinWindows trades tickers) symbol).map
        (fun row => row.windowStart)).map
          (totalAt (fun trade : SilverTrade => windowStart trade.tsEvent 60)
            SilverTrade.size (itemsAt SilverTrade.symbol trades symbol)) := by
    rw [List.map_map]
    apply List.map_congr_left
    intro row member
    obtain ⟨start, _, rfl⟩ := mem_symbolMinutes.mp member
    have inside : tradesIn trades ("1m", 60) (symbol, "1m", start) =
        itemsAt (fun trade : SilverTrade => windowStart trade.tsEvent 60)
          (itemsAt SilverTrade.symbol trades symbol) start := by
      simp only [tradesIn, inWindow, itemsAt, List.filter_filter]
      apply List.filter_congr
      intro trade _
      simp [grainOf, Bool.and_comm]
    rw [goldRow_eq, inside]
    rfl
  rw [volume]
  apply sum_totalAt_of_covers _ _ (symbolMinutes_starts_nodup symbol)
  intro trade member
  rw [← List.mem_toFinset, symbolMinutes_starts]
  simp only [occupiedMinutes, List.mem_toFinset, List.mem_append]
  exact Or.inl (List.mem_map_of_mem member)

/-- The spread of a window is a mean over its tickers. -/
private theorem goldMetrics_spread_mem {grain : Grain}
    {trades : List SilverTrade}
    {tickers : List SilverTicker} {low high spread : Rat}
    (within : ∀ ticker ∈ tickers, low ≤ ticker.spread ∧ ticker.spread ≤ high)
    (present : (goldMetrics grain trades tickers).avgSpread = some spread) :
    low ≤ spread ∧ spread ≤ high := by
  by_cases positive : 0 < tickers.length
  · simp only [goldMetrics, windowRow, accOf, positive, if_true] at present
    cases present
    exact mean_mem_range (List.ne_nil_of_length_pos positive) within
  · simp only [goldMetrics, windowRow, accOf, positive, if_false] at present
    cases present

private theorem goldMetrics_spread_eq_none (grain : Grain)
    (trades : List SilverTrade)
    (tickers : List SilverTicker) :
    (goldMetrics grain trades tickers).avgSpread = none ↔ tickers = [] := by
  cases tickers with
  | nil => simp [goldMetrics, windowRow, accOf]
  | cons ticker rest => simp [goldMetrics, windowRow, accOf]

/-- A ticker is in the window of its minute. -/
private theorem mem_own_minute {symbol : String} {ticker : SilverTicker}
    (member : ticker ∈ itemsAt SilverTicker.symbol tickers symbol) :
    ticker ∈ tickersIn tickers ("1m", 60)
      (symbol, "1m", windowStart ticker.tsEvent 60) :=
  (mem_inMinute rfl).mpr ⟨member, rfl⟩

/-- A symbol without tickers has no spread. -/
private theorem symbolMinutes_spread_none (symbol : String) :
    (∀ row ∈ symbolMinutes (joinWindows trades tickers) symbol,
      row.avgSpread = none) ↔
        itemsAt SilverTicker.symbol tickers symbol = [] := by
  have spread : ∀ start, (goldRow (joinedOf (symbol, "1m", start)
      (tradesIn trades ("1m", 60) (symbol, "1m", start))
      (tickersIn tickers ("1m", 60) (symbol, "1m", start)))).avgSpread =
        none ↔ tickersIn tickers ("1m", 60) (symbol, "1m", start) = [] := by
    intro start
    rw [goldRow_eq]
    exact goldMetrics_spread_eq_none _ _ _
  constructor
  · intro noSpread
    rw [List.eq_nil_iff_forall_not_mem]
    intro ticker member
    have occupied := List.ne_nil_of_mem (mem_own_minute member)
    have row := noSpread _ (mem_symbolMinutes.mpr
      ⟨_, mem_occupiedMinutes.mpr (Or.inr occupied), rfl⟩)
    exact occupied ((spread _).mp row)
  · intro noTickers row member
    obtain ⟨start, _, rfl⟩ := mem_symbolMinutes.mp member
    rw [spread, List.eq_nil_iff_forall_not_mem]
    intro ticker inside
    have present := ((mem_inMinute rfl).mp inside).1
    rw [noTickers] at present
    cases present

private theorem symbolMinutes_spread_mem {symbol : String}
    {low high spread : Rat}
    (within : ∀ ticker ∈ itemsAt SilverTicker.symbol tickers symbol,
      low ≤ ticker.spread ∧ ticker.spread ≤ high)
    (present : sqlAvgNullable
      ((symbolMinutes (joinWindows trades tickers) symbol).map
        (fun row => row.avgSpread)) = some spread) :
    low ≤ spread ∧ spread ≤ high := by
  refine sqlAvgNullable_mem ?_ present
  intro value inColumn
  obtain ⟨row, member, hasSpread⟩ := List.mem_map.mp inColumn
  obtain ⟨start, _, rfl⟩ := mem_symbolMinutes.mp member
  rw [goldRow_eq] at hasSpread
  refine goldMetrics_spread_mem ?_ hasSpread
  intro ticker inside
  exact within ticker ((mem_inMinute rfl).mp inside).1

end Silver

/-- Over any scan of the gold of some bronze, the summary has one row for every
symbol with a silver row, in order.  Its windows are the minutes with a silver
row, its volume is that of the silver trades, and its spread is null without
tickers and otherwise lies among their spreads, but for the rounding. -/
theorem symbol_summary {bronze : List BronzeRow} {gold rows : List GoldRow}
    (built : GoldOf bronze gold) (scanned : rows.Perm gold) :
    (symbolSummary rows).Pairwise
      (fun left right => left.symbol < right.symbol) ∧
    ∃ silver, SilverOf bronze silver ∧
      (∀ symbol, (∃ out ∈ symbolSummary rows, out.symbol = symbol) ↔
        (occupiedMinutes silver (silverTicker bronze) symbol).Nonempty) ∧
      ∀ out ∈ symbolSummary rows,
        out.windows =
          (occupiedMinutes silver (silverTicker bronze) out.symbol).card ∧
        out.totalVolume = some ((itemsAt SilverTrade.symbol silver
          out.symbol).map SilverTrade.size).sum ∧
        (out.meanSpread = none ↔
          itemsAt SilverTicker.symbol (silverTicker bronze) out.symbol = []) ∧
        ∀ mean, out.meanSpread = some mean → ∀ low high,
          (∀ ticker ∈ itemsAt SilverTicker.symbol (silverTicker bronze)
            out.symbol, low ≤ ticker.spread ∧ ticker.spread ≤ high) →
          low - 1 / 2000000 ≤ mean ∧ mean ≤ high + 1 / 2000000 := by
  obtain ⟨silver, kept, rfl⟩ := built
  refine ⟨symbolSummary_pairwise rows, silver, kept, ?_, ?_⟩
  · intro symbol
    have occupied : symbolMinutes (joinWindows silver (silverTicker bronze))
        symbol ≠ [] ↔
          (occupiedMinutes silver (silverTicker bronze) symbol).Nonempty := by
      rw [← Finset.card_pos, ← symbolMinutes_length, List.length_pos_iff]
    rw [← occupied]
    constructor
    · intro listed
      rcases listed with ⟨out, produced, rfl⟩
      obtain ⟨symbol, nonempty, rfl⟩ := (mem_symbolSummary scanned).mp produced
      exact nonempty
    · intro nonempty
      exact ⟨_, (mem_symbolSummary scanned).mpr ⟨symbol, nonempty, rfl⟩, rfl⟩
  · intro out produced
    obtain ⟨symbol, nonempty, rfl⟩ := (mem_symbolSummary scanned).mp produced
    refine ⟨symbolMinutes_length symbol, ?_, ?_, ?_⟩
    · simp only [summaryRow]
      rw [sqlSum_of_ne_nil (by simpa using nonempty), symbolMinutes_volume]
    · simp only [summaryRow]
      rw [Option.map_eq_none_iff, sqlAvgNullable_eq_none, List.forall_mem_map,
        symbolMinutes_spread_none]
    · intro mean present low high within
      obtain ⟨exactMean, hasMean, rfl⟩ := Option.map_eq_some_iff.mp present
      have range := symbolMinutes_spread_mem within hasMean
      have near := roundMillionth_near exactMean
      constructor <;> linarith [range.1, range.2, near.1, near.2]

theorem symbol_summary_sample :
    symbolSummary (goldWindowMetrics fourMinutes).reverse =
        [{ symbol := "BTC-USD", windows := 4, totalVolume := some 4,
           meanSpread := none }] ∧
      ∃ silver, SilverOf fourMinutes silver ∧
        (occupiedMinutes silver (silverTicker fourMinutes)
          "BTC-USD").Nonempty := by
  have summarized : symbolSummary (goldWindowMetrics fourMinutes).reverse =
      [{ symbol := "BTC-USD", windows := 4, totalVolume := some 4,
         meanSpread := none }] := by decide +kernel
  obtain ⟨_, silver, kept, symbols, _⟩ := symbol_summary
    (goldOf_goldWindowMetrics fourMinutes) (List.reverse_perm _)
  refine ⟨summarized, silver, kept, (symbols "BTC-USD").mp ?_⟩
  rw [summarized]
  exact ⟨_, List.mem_singleton.mpr rfl, rfl⟩

end TickStream
