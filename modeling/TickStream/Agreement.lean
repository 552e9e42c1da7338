import TickStream.Quality.Landed
import TickStream.StreamingBatch

/-!
# The windows dataset against gold

A run leaves the windows its processor emitted and the gold table built from
bronze.  Every landed window of tickers has its gold row.  The windows of trades
have theirs when no trade of a closed window is left out by deduplication, and
once all windows have landed, only then.
-/

namespace TickStream

open Python Library

/-- Gold has a row for a window, with the metrics of the events the window
counts. -/
def AgreesWithGold (bronze : List BronzeRow) (metrics : WindowMetrics Rat) :
    Prop :=
  ∃ row ∈ goldWindowMetrics bronze, row.key = metrics.key ∧
    (0 < metrics.tradeCount → row.vwap = metrics.vwap ∧
      row.tradeVolume = metrics.tradeVolume ∧
      row.tradeCount = metrics.tradeCount) ∧
    (0 < metrics.tickerCount → row.avgSpread = metrics.avgSpread ∧
      row.avgMid = metrics.avgMid ∧ row.tickerCount = metrics.tickerCount)

/-- The bronze rows of one kind. -/
def rowsOfKind (kind : EventType) (bronze : List BronzeRow) :
    List BronzeRow :=
  bronze.filter (fun row => row.eventType = kind)

section Kinds

variable {bronze : List BronzeRow}

theorem validTrades_rowsOfKind (bronze : List BronzeRow) :
    validTrades (rowsOfKind .trade bronze) = validTrades bronze := by
  simp only [validTrades, rowsOfKind]
  rw [List.filterMap_filter]
  apply List.filterMap_congr
  intro row _
  cases kept : SilverTrade.ofBronze? row with
  | none => simp
  | some trade =>
      have kind := (SilverTrade.ofBronze?_eq_some kept).1
      simp [kind]

private theorem silverTrades_rowsOfKind (bronze : List BronzeRow) :
    silverTrades (rowsOfKind .trade bronze) = silverTrades bronze := by
  simp only [silverTrades, validTrades_rowsOfKind]

/-- The trade metrics of a gold row are those of the silver trades alone. -/
theorem inGold_iff_trades {metrics : WindowMetrics Rat}
    (counted : 0 < metrics.tradeCount) :
    InGold bronze metrics ↔ ∃ size ∈ windowSizes,
      let trades := tradesIn (silverTrades bronze) size metrics.key
      trades ≠ [] ∧
        (goldMetrics metrics.key trades []).vwap = metrics.vwap ∧
        (accOf trades []).vol = metrics.tradeVolume ∧
        trades.length = metrics.tradeCount := by
  constructor
  · intro found
    obtain ⟨row, member, sameKey, vwap, volume, count⟩ := found
    obtain ⟨size, sizeMember, grain, occupied, same⟩ :=
      joinWindows_metrics member
    have sameGrain : grain = metrics.key := by
      rw [← sameKey, same, goldMetrics_key]
    subst sameGrain
    rw [same] at vwap volume count
    refine ⟨size, sizeMember, ?_, vwap, volume, count⟩
    intro empty
    have none : (tradesIn (silverTrades bronze) size metrics.key).length =
        metrics.tradeCount := count
    rw [empty, List.length_nil] at none
    omega
  · intro found
    obtain ⟨size, sizeMember, occupied, vwap, volume, count⟩ := found
    refine ⟨_, mem_joinWindows.mpr ⟨size, sizeMember, metrics.key,
      Or.inl occupied, rfl⟩, ?_⟩
    rw [goldRow_metrics]
    exact ⟨rfl, vwap, volume, count⟩

/-- The tickers beside them make no difference. -/
private theorem inGold_rowsOfKind_iff {metrics : WindowMetrics Rat}
    (counted : 0 < metrics.tradeCount) :
    InGold (rowsOfKind .trade bronze) metrics ↔ InGold bronze metrics := by
  rw [inGold_iff_trades counted, inGold_iff_trades counted,
    silverTrades_rowsOfKind]

private theorem everyClosedTradeKept_rowsOfKind_iff {graceSeconds : Nat}
    {records : List (MarketEvent Rat)} :
    EveryClosedTradeKept graceSeconds records (rowsOfKind .trade bronze) ↔
      EveryClosedTradeKept graceSeconds records bronze := by
  simp only [EveryClosedTradeKept, rivals, validTrades_rowsOfKind]

end Kinds

section Tickers

variable {settings : Settings} {bronze rows items : List BronzeRow}

/-- Bid and ask of a silver ticker. -/
def SilverTicker.quote (ticker : SilverTicker) : Rat × Rat :=
  (ticker.bestBid, ticker.bestAsk)

/-- A landed row with both quotes is a silver ticker with these quotes. -/
theorem LandedRow.quoteOf {row : BronzeRow} (landed : LandedRow settings row) :
    (SilverTicker.ofBronze? row).map SilverTicker.quote = row.quoteOf? := by
  obtain ⟨_, _, uncrossed⟩ := landed.values
  cases kind : row.eventType with
  | trade => simp [SilverTicker.ofBronze?, MarketEvent.quoteOf?, kind]
  | ticker =>
      cases bid : row.bestBid with
      | none => simp [SilverTicker.ofBronze?, MarketEvent.quoteOf?, kind, bid]
      | some bidValue =>
          cases ask : row.bestAsk with
          | none =>
              simp [SilverTicker.ofBronze?, MarketEvent.quoteOf?, kind, bid,
                ask]
          | some askValue =>
              have ordered := uncrossed bidValue askValue bid ask
              simp [SilverTicker.ofBronze?, MarketEvent.quoteOf?, kind, bid,
                ask, ordered, SilverTicker.quote]

private theorem quotes_of_landed
    (landed : ∀ row ∈ rows, LandedRow settings row) :
    (rows.filterMap SilverTicker.ofBronze?).map SilverTicker.quote =
      rows.filterMap MarketEvent.quoteOf? := by
  rw [List.map_filterMap]
  apply List.filterMap_congr
  intro row member
  exact (landed row member).quoteOf

/-- What tickers add up to depends on their quotes. -/
private theorem accOf_tickers (trades : List SilverTrade)
    {tickers : List SilverTicker}
    (quotes : (tickers.map SilverTicker.quote).Perm
      (items.filterMap MarketEvent.quoteOf?)) :
    (accOf trades tickers).spreadSum = (Acc.direct items).spreadSum ∧
      (accOf trades tickers).midSum = (Acc.direct items).midSum ∧
      (accOf trades tickers).tickers = (Acc.direct items).tickers := by
  have spreads := (quotes.map (fun quote => quote.2 - quote.1)).sum_eq
  have mids := (quotes.map (fun quote => (quote.2 + quote.1) / 2)).sum_eq
  have count := quotes.length_eq
  rw [List.map_map] at spreads mids
  rw [List.length_map] at count
  simp only [Function.comp_def, SilverTicker.quote] at spreads mids
  simp only [accOf, Acc.direct]
  exact ⟨spreads, mids, count⟩

/-- The silver tickers of a window are those of its records. -/
private theorem tickersIn_eq (afterEpoch : ∀ row ∈ bronze, 0 ≤ row.tsEvent)
    (size : String × Nat) (selected : String × Instant) :
    tickersIn (silverTicker bronze) size (selected.1, size.1, selected.2) =
      (recordsIn bronze size selected).filterMap SilverTicker.ofBronze? := by
  apply itemsAt_filterMap
  intro row member ticker kept
  obtain ⟨_, _, symbol, _, _, time, _⟩ := SilverTicker.ofBronze?_eq_some kept
  have start := windowStart_eq (afterEpoch row member) size.2
  simp [grainOf, bucket, ← symbol, ← time, start, Prod.ext_iff]

private theorem quotes_rowsOfKind (size : String × Nat)
    (selected : String × Instant) :
    (recordsIn (rowsOfKind .ticker bronze) size selected).filterMap
        MarketEvent.quoteOf? =
      (recordsIn bronze size selected).filterMap MarketEvent.quoteOf? := by
  simp only [recordsIn, itemsAt, rowsOfKind]
  rw [List.filter_comm, List.filterMap_filter]
  apply List.filterMap_congr
  intro row _
  cases kind : row.eventType <;> simp [MarketEvent.quoteOf?, kind]

/-- A window folded from all the tickers of its bucket is in gold. -/
private theorem tickers_agree (landed : ∀ row ∈ bronze, LandedRow settings row)
    (afterEpoch : ∀ row ∈ bronze, 0 ≤ row.tsEvent) {size : String × Nat}
    (sizeMember : size ∈ windowSizes) {selected : String × Instant}
    (same : items.Perm
      (recordsIn (rowsOfKind .ticker bronze) size selected))
    (complete : ∀ item ∈ items, item.eventType = .ticker ∧
      item.bestBid.isSome = true ∧ item.bestAsk.isSome = true)
    (occupied : items ≠ []) :
    AgreesWithGold bronze (windowRow size.2 size.1
      (selected, items.foldl Acc.add Acc.empty)) := by
  let grain : Grain := (selected.1, size.1, selected.2)
  let trades := tradesIn (silverTrades bronze) size grain
  let tickers := tickersIn (silverTicker bronze) size grain
  have records : ∀ row ∈ recordsIn bronze size selected,
      LandedRow settings row := by
    intro row member
    exact landed row ((mem_itemsAt _).mp member).1
  have quotes : (tickers.map SilverTicker.quote).Perm
      (items.filterMap MarketEvent.quoteOf?) := by
    have inWindow := quotes_of_landed records
    rw [← tickersIn_eq afterEpoch size selected, ← quotes_rowsOfKind] at inWindow
    exact (List.Perm.of_eq inWindow).trans (same.symm.filterMap _)
  have counted : (items.filterMap MarketEvent.quoteOf?).length =
      items.length := by
    rw [List.length_filterMap_eq_countP, List.countP_eq_length]
    intro item member
    obtain ⟨kind, bid, ask⟩ := complete item member
    obtain ⟨bidValue, hasBid⟩ := Option.isSome_iff_exists.mp bid
    obtain ⟨askValue, hasAsk⟩ := Option.isSome_iff_exists.mp ask
    simp [MarketEvent.quoteOf?, kind, hasBid, hasAsk]
  have noTrades : items.filterMap MarketEvent.tradeOf? = [] := by
    rw [List.filterMap_eq_nil_iff]
    intro item member
    simp [MarketEvent.tradeOf?, (complete item member).1]
  have someTickers : tickers ≠ [] := by
    intro empty
    have lengths := quotes.length_eq
    rw [empty, List.map_nil, List.length_nil, counted] at lengths
    exact occupied (List.eq_nil_of_length_eq_zero lengths.symm)
  obtain ⟨spread, mid, count⟩ := accOf_tickers trades quotes
  refine ⟨_, mem_joinWindows.mpr ⟨size, sizeMember, grain,
    Or.inr someTickers, rfl⟩, ?_⟩
  rw [goldRow_metrics, Acc.foldl_add, goldMetrics_key]
  refine ⟨rfl, ?_, ?_⟩
  · intro positive
    have none : (Acc.direct items).trades = 0 := by
      simp [Acc.direct, noTrades]
    simp only [windowRow, none] at positive
    omega
  · intro _
    simp only [goldMetrics, windowRow, ← spread, ← mid, ← count, trades,
      tickers, grain, and_self]

end Tickers

section Reference

variable {settings : Settings} {bronze records : List BronzeRow}
  {graceSeconds : Nat}

private theorem reference_tickers_agree
    (landed : ∀ row ∈ bronze, LandedRow settings row)
    (afterEpoch : ∀ row ∈ bronze, 0 ≤ row.tsEvent)
    (same : records.Perm (rowsOfKind .ticker bronze))
    (streamable : Streamable (tickerTopic (F := Rat)) records)
    (noneLate : NoneLate graceSeconds records) :
    ∀ metrics ∈ Topic.referenceWindows graceSeconds records,
      AgreesWithGold bronze metrics := by
  intro metrics member
  obtain ⟨size, sizeMember, record, recordMember, _, row⟩ :=
    (mem_referenceWindows noneLate).mp member
  rw [row]
  apply tickers_agree landed afterEpoch sizeMember
    (itemsAt_perm _ same (bucket size.2 record))
  · intro item itemMember
    have inside := ((mem_itemsAt _).mp itemMember).1
    have kind := (List.mem_filter.mp (same.mem_iff.mp inside)).2
    exact ⟨of_decide_eq_true kind,
      tickerColumns_ok_iff.mp (streamable.complete item inside)⟩
  · exact List.ne_nil_of_mem ((mem_itemsAt _).mpr ⟨recordMember, rfl⟩)

/-- A reference window of trades has no tickers to agree on. -/
private theorem agreesWithGold_iff_inGold
    (trades : ∀ record ∈ records, record.eventType = .trade ∧
      record.price.isSome = true ∧ record.size.isSome = true)
    (noneLate : NoneLate graceSeconds records)
    {metrics : WindowMetrics Rat}
    (member : metrics ∈ Topic.referenceWindows graceSeconds records) :
    AgreesWithGold bronze metrics ↔
      InGold (rowsOfKind .trade bronze) metrics := by
  obtain ⟨size, sizeMember, record, recordMember, _, row⟩ :=
    (mem_referenceWindows noneLate).mp member
  have items : ∀ item ∈ itemsAt (bucket size.2) records
      (bucket size.2 record), item.eventType = .trade ∧
        item.price.isSome = true ∧ item.size.isSome = true := by
    intro item itemMember
    exact trades item ((mem_itemsAt _).mp itemMember).1
  have counted : 0 < metrics.tradeCount := by
    have positive := List.length_pos_of_mem
      ((mem_itemsAt (bucket size.2)).mpr ⟨recordMember, rfl⟩)
    have count := foldl_add_count items Acc.empty
    rw [row]
    change 0 < (List.foldl Acc.add Acc.empty _).trades
    omega
  have none : metrics.tickerCount = 0 := by
    have noQuotes : (itemsAt (bucket size.2) records
        (bucket size.2 record)).filterMap MarketEvent.quoteOf? = [] := by
      rw [List.filterMap_eq_nil_iff]
      intro item itemMember
      simp [MarketEvent.quoteOf?, (items item itemMember).1]
    rw [row, Acc.foldl_add]
    simp only [windowRow, Acc.direct, noQuotes, List.length_nil]
  rw [inGold_rowsOfKind_iff counted]
  constructor
  · intro agrees
    obtain ⟨found, foundMember, sameKey, same, _⟩ := agrees
    exact ⟨found, foundMember, sameKey, same counted⟩
  · intro inGold
    obtain ⟨found, foundMember, sameKey, same⟩ := inGold
    refine ⟨found, foundMember, sameKey, fun _ => same, ?_⟩
    intro positive
    omega

/-- The reference windows of trades are in gold exactly when no trade of a
closed window is left out. -/
private theorem reference_trades_agree_iff
    (landed : ∀ row ∈ bronze, LandedRow settings row)
    (same : records.Perm (rowsOfKind .trade bronze))
    (streamable : Streamable (tradesTopic (F := Rat)) records)
    (noneLate : NoneLate graceSeconds records) :
    (∀ metrics ∈ Topic.referenceWindows graceSeconds records,
      AgreesWithGold bronze metrics) ↔
        EveryClosedTradeKept graceSeconds records bronze := by
  have inBronze : ∀ record ∈ records,
      record ∈ bronze ∧ record.eventType = .trade := by
    intro record member
    obtain ⟨inside, kind⟩ := List.mem_filter.mp (same.mem_iff.mp member)
    exact ⟨inside, of_decide_eq_true kind⟩
  have trades : ∀ record ∈ records, TradeRecord record := by
    intro record member
    obtain ⟨inside, kind⟩ := inBronze record member
    obtain ⟨price, size, _⟩ := (landed record inside).values
    exact ⟨kind, price, size⟩
  have complete : ∀ record ∈ records, record.eventType = .trade ∧
      record.price.isSome = true ∧ record.size.isSome = true := by
    intro record member
    exact ⟨(inBronze record member).2,
      tradeColumns_ok_iff.mp (streamable.complete record member)⟩
  have all : ((tradesTopic (F := Rat)).rows records).map Row.value =
      records := rows_complete_iff.mpr streamable.complete
  have windows := (Topic.run_matchesReference tradesProjection graceSeconds
    records (fun record member => (inBronze record member).2)
    streamable.afterEpoch).windows
  rw [all] at windows
  rw [← everyClosedTradeKept_rowsOfKind_iff,
    ← windows_agree_iff records trades streamable.afterEpoch graceSeconds
      noneLate (rowsOfKind .trade bronze) same.symm]
  have emitted : (∀ record ∈ (tradesTopic.run graceSeconds records).emitted,
      InGold (rowsOfKind .trade bronze) record.metrics) ↔
        ∀ metrics ∈ Topic.referenceWindows graceSeconds records,
          InGold (rowsOfKind .trade bronze) metrics := by
    simp only [← windows.mem_iff, List.forall_mem_map]
  rw [emitted]
  apply forall₂_congr
  intro metrics member
  exact agreesWithGold_iff_inGold complete noneLate member

end Reference

section Run

variable {settings : Settings} {fixture : Option (List RecordedMessage)}
  {env : Environment} {partitioner : String → String → Nat}
  {history : BrokerHistory} {lake after : Lake} {result : PipelineResult}

/-- A raw topic carries the published events of its kind. -/
theorem publishedOn_eq (kind : EventType) (topic : String)
    (routed : ∀ value : MarketEvent Rat,
      topicForEvent (settings.isolated env.uid).topics value = topic ↔
        value.eventType = kind) :
    publishedOn settings fixture env topic =
      rowsOfKind kind
        ((publishedRaw settings fixture env).map RawMessage.value) := by
  simp only [publishedOn, rowsOfKind]
  rw [List.filter_map]
  congr 1
  apply List.filter_congr
  intro message member
  have located := publishedRaw_addressed message member
  simp only [RawMessage.address, Prod.mk.injEq] at located
  simp only [Function.comp_apply, located.1, routed]

private theorem publishedOn_trades_eq :
    publishedOn settings fixture env
        (settings.isolated env.uid).topics.tradesRaw =
      rowsOfKind .trade
        ((publishedRaw settings fixture env).map RawMessage.value) := by
  apply publishedOn_eq
  intro value
  have apart := isolated_raw_ne settings env.uid
  simp only [topicForEvent]
  cases value.eventType <;> simp [apart.symm]

private theorem publishedOn_tickers_eq :
    publishedOn settings fixture env
        (settings.isolated env.uid).topics.tickerRaw =
      rowsOfKind .ticker
        ((publishedRaw settings fixture env).map RawMessage.value) := by
  apply publishedOn_eq
  intro value
  have apart := isolated_raw_ne settings env.uid
  simp only [topicForEvent]
  cases value.eventType <;> simp [apart]

/-- In a run that reports every event and got through its topics on time, every
landed window agrees with the gold built beside it if no trade of a closed
window lacks an id or repeats one.  When all windows have landed, they agree
only then. -/
theorem landed_windows_agree_with_gold
    (onBroker : env.OnBroker settings fixture partitioner history)
    (ran : runPipeline settings fixture env lake = .ok (result, after))
    (windows : 0 < result.windowRows) (occupied : 0 < result.bronzeRows)
    (counted : result.bronzeRows = result.replayedEvents)
    (trades : Streamable (tradesTopic (F := Rat))
      (publishedOn settings fixture env
        (settings.isolated env.uid).topics.tradesRaw))
    (tickers : Streamable (tickerTopic (F := Rat))
      (publishedOn settings fixture env
        (settings.isolated env.uid).topics.tickerRaw))
    (tradesOnTime : NoneLate 5 (publishedOn settings fixture env
      (settings.isolated env.uid).topics.tradesRaw))
    (tickersOnTime : NoneLate 5 (publishedOn settings fixture env
      (settings.isolated env.uid).topics.tickerRaw)) :
    let kept := EveryClosedTradeKept 5 (publishedOn settings fixture env
      (settings.isolated env.uid).topics.tradesRaw) after.bronze
    (kept → ∀ window ∈ after.windows,
      AgreesWithGold after.bronze window.metrics) ∧
    (result.windowRows = (publishedWindows settings fixture env).length →
      (∀ window ∈ after.windows,
        AgreesWithGold after.bronze window.metrics) → kept) := by
  intro kept
  have bronze := (landed_of_counts onBroker ran occupied counted).perm
  have landed := (landed_of_run onBroker ran occupied).2
  have sameTrades : (publishedOn settings fixture env
      (settings.isolated env.uid).topics.tradesRaw).Perm
        (rowsOfKind .trade after.bronze) := by
    rw [publishedOn_trades_eq]
    exact (bronze.filter _).symm
  have sameTickers : (publishedOn settings fixture env
      (settings.isolated env.uid).topics.tickerRaw).Perm
        (rowsOfKind .ticker after.bronze) := by
    rw [publishedOn_tickers_eq]
    exact (bronze.filter _).symm
  have afterEpoch : ∀ row ∈ after.bronze, 0 ≤ row.tsEvent := by
    intro row member
    cases kind : row.eventType with
    | trade =>
        exact trades.afterEpoch row (sameTrades.mem_iff.mpr
          (List.mem_filter.mpr ⟨member, decide_eq_true kind⟩))
    | ticker =>
        exact tickers.afterEpoch row (sameTickers.mem_iff.mpr
          (List.mem_filter.mpr ⟨member, decide_eq_true kind⟩))
  have ofReference := reference_trades_agree_iff landed sameTrades trades
    tradesOnTime
  have always := reference_tickers_agree landed afterEpoch sameTickers tickers
    tickersOnTime
  obtain ⟨part, whole⟩ := landed_windows_in_reference onBroker ran windows
    trades tickers
  constructor
  · intro all window member
    have published := part.subset (List.mem_map_of_mem
      (f := WindowRecord.metrics) member)
    rcases List.mem_append.mp published with ofTrade | ofTicker
    · exact ofReference.mpr all _ ofTrade
    · exact always _ ofTicker
  · intro complete agree
    apply ofReference.mp
    intro metrics member
    have present := (whole.mpr complete).mem_iff.mpr
      (List.mem_append_left _ member)
    obtain ⟨window, windowMember, same⟩ := List.mem_map.mp present
    rw [← same]
    exact agree window windowMember

end Run

/-- The three trades of the run that shares its broker are all kept. -/
private theorem minutes_kept :
    EveryClosedTradeKept 5
      (publishedOn sampleSettings (some minutesFixture) minutesEnvironment
        "trades.raw.0")
      ((minutesEnvironment.bronze.rows 30 3).map RawMessage.value) := by
  have all : ∀ record ∈ publishedOn sampleSettings (some minutesFixture)
      minutesEnvironment "trades.raw.0",
      (SilverTrade.ofBronze? record).any (fun trade =>
        rivals ((minutesEnvironment.bronze.rows 30 3).map RawMessage.value)
          trade = [trade]) = true := by
    decide +kernel
  intro size _ record member _
  obtain ⟨trade, valid, alone⟩ := (Option.any_eq_true _ _).mp
    (all record ((processedTrades_initial _).subset member))
  exact ⟨trade, valid, of_decide_eq_true alone⟩

/-- The window it lands agrees with gold. -/
theorem landed_windows_agree_with_gold_sample :
    ∃ result after,
      runPipeline sampleSettings (some minutesFixture) minutesEnvironment
        ⟨[], [], []⟩ = .ok (result, after) ∧ result.windowRows = 1 ∧
      ∀ window ∈ after.windows,
        AgreesWithGold after.bronze window.metrics := by
  obtain ⟨result, after, ran, rows, events⟩ := minutes_reported
  have windows := (runPipeline_gold ran).2.2.1
  have drained : (minutesEnvironment.windows.rows 30 3).length = 1 := by
    decide +kernel
  obtain ⟨_, count, bronze⟩ := runPipeline_eq_ok
    (bronze_delivered_subperm minutes_onBroker) ran
  have nonempty : minutesEnvironment.bronze.rows 30 3 ≠ [] := by
    intro empty
    rw [rows, empty] at count
    cases count
  have tradesOnTime : NoneLate 5 (publishedOn sampleSettings
      (some minutesFixture) minutesEnvironment "trades.raw.0") := by
    simp only [NoneLate]
    decide +kernel
  have tickersOnTime : NoneLate 5 (publishedOn sampleSettings
      (some minutesFixture) minutesEnvironment "ticker.raw.0") := by
    simp only [NoneLate]
    decide +kernel
  refine ⟨result, after, ran, by omega, ?_⟩
  apply (landed_windows_agree_with_gold minutes_onBroker ran (by omega)
    (by omega) (by omega) minutes_streamable.1 minutes_streamable.2
    tradesOnTime tickersOnTime).1
  rw [bronze nonempty]
  exact minutes_kept

end TickStream
