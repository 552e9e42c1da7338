import TickStream.Producer.Publisher
import TickStream.Quality.Contract

/-!
# The ingest check against the data contract

The validator of an event rejects by comparison, which NaN passes; the
contract counts NaN as null.  The rows of an ingested frame are clean except
where a trade carries NaN.
-/

namespace TickStream

open Python Library

section Rules

variable {event : MarketEvent PyFloat}

/-- What the validator already guarantees of the contract's value rules. -/
private theorem meetsRules_iff (checked : event.basicContract = .ok ()) :
    MeetsRules event ↔ (event.eventType = .trade →
      isPresent event.price = true ∧ isPresent event.size = true) := by
  obtain ⟨price, size, bid, ask, bidSize, askSize, uncrossed⟩ :=
    MarketEvent.basicContract_ok_iff.mp checked
  have positive : ∀ value : PyFloat, value.le (.fin 0) = false →
      value.isNaN = false → PyFloat.lt (.fin 0) value = true :=
    fun value notLe number => PyFloat.lt_of_not_le number rfl notLe
  have nonNegative : ∀ value : PyFloat, value.lt (.fin 0) = false →
      value.isNaN = false → PyFloat.le (.fin 0) value = true :=
    fun value notLt number => PyFloat.le_of_not_lt number rfl notLt
  constructor
  · intro rules
    exact rules.tradeCarries
  · intro carries
    refine ⟨?_, ?_, ?_, ?_, ?_, ?_, ?_, carries⟩
    · exact fun value has => positive value (price value has)
    · exact fun value has => nonNegative value (size value has)
    · exact fun value has => nonNegative value (bid value has)
    · exact fun value has => nonNegative value (ask value has)
    · exact fun value has => nonNegative value (bidSize value has)
    · exact fun value has => nonNegative value (askSize value has)
    · intro bidValue askValue hasBid hasAsk bidNumber askNumber
      exact PyFloat.le_of_not_lt askNumber bidNumber
        (uncrossed bidValue askValue hasBid hasAsk)

theorem meetsContract_ingested_iff {symbols : List String}
    (checked : event.basicContract = .ok ())
    (configured : event.symbol ∈ symbols) :
    MeetsContract symbols event ↔
      (event.eventType = .trade →
        isPresent event.price = true ∧ isPresent event.size = true) := by
  rw [← meetsRules_iff checked]
  constructor
  · intro meets
    exact meets.rules
  · intro rules
    exact ⟨rules, configured⟩

end Rules

section Symbols

variable {settings : Settings} {exchange : String} {symbolMap : SymbolMap}

theorem lookupIn_eq_some {map : SymbolMap} {raw : Json} {symbol : String}
    (found : raw.lookupIn map.entries = .ok (some symbol)) :
    ∃ name, map.get? name = some symbol := by
  cases raw with
  | str name => exact ⟨name, Except.ok.inj found⟩
  | arr items => cases found
  | obj members => cases found
  | _ => cases found

theorem productSymbol_configured
    (built : buildSymbolMap settings exchange = .ok symbolMap)
    {record : Json} {symbol : String}
    (resolved : productSymbol (some symbolMap) record = .ok (.str symbol)) :
    symbol ∈ settings.source.symbols := by
  obtain ⟨raw, _, looked⟩ := bind_eq_ok_iff.mp resolved
  obtain ⟨found, lookup, same⟩ := map_eq_ok_iff.mp looked
  cases found with
  | none => cases same
  | some name =>
      cases same
      obtain ⟨key, bound⟩ := lookupIn_eq_some lookup
      exact buildSymbolMap_configured built bound

theorem binanceSymbol_configured
    (built : buildSymbolMap settings exchange = .ok symbolMap)
    {data : Json} {symbol : String}
    (resolved : binanceSymbol symbolMap data = .ok (some symbol)) :
    symbol ∈ settings.source.symbols := by
  obtain ⟨raw, _, looked⟩ := bind_eq_ok_iff.mp resolved
  split_ifs at looked
  · cases looked
  · obtain ⟨key, bound⟩ := lookupIn_eq_some looked
    exact buildSymbolMap_configured built bound

variable {room : Room} {payload : Json} {tsIngest : Instant}
  {source : String}

theorem OffersTrade.configured
    (built : buildSymbolMap settings exchange = .ok symbolMap)
    {fields : TradeFields}
    (offered : OffersTrade room (some symbolMap) payload source fields) :
    fields.symbol ∈ settings.source.symbols := by
  cases offered with
  | coinbase _ _ _ _ reads => exact productSymbol_configured built reads.symbol
  | binance message _ _ => exact binanceSymbol_configured built message.2

theorem OffersTick.configured
    (built : buildSymbolMap settings exchange = .ok symbolMap)
    {fields : TickFields}
    (offered : OffersTick (some symbolMap) payload tsIngest source fields) :
    fields.symbol ∈ settings.source.symbols := by
  cases offered with
  | coinbase _ _ _ _ reads => exact productSymbol_configured built reads.symbol
  | binance message _ _ _ _ => exact binanceSymbol_configured built message.2

end Symbols

/-- The trades a payload offers, as far as the validator passes them, carry no
NaN. -/
def NoNaN (exchange : String) (symbolMap : Option SymbolMap)
    (payload : Json) (tsIngest : Instant) (room : Room := none) : Prop :=
  ∀ fields, OffersTrade room symbolMap payload exchange fields →
    (fields.event exchange tsIngest).basicContract = .ok () →
      fields.price.isNaN = false ∧ fields.size.isNaN = false

section Offered

variable {settings : Settings} {exchange : String} {symbolMap : SymbolMap}
  {room : Room} {payload : Json} {tsIngest : Instant}

/-- An offered trade meets the contract exactly when it carries no NaN. -/
theorem OffersTrade.meetsContract_iff
    (built : buildSymbolMap settings exchange = .ok symbolMap)
    {fields : TradeFields}
    (offered : OffersTrade room (some symbolMap) payload exchange fields)
    (checked : (fields.event exchange tsIngest).basicContract = .ok ()) :
    MeetsContract settings.source.symbols (fields.event exchange tsIngest) ↔
      fields.price.isNaN = false ∧ fields.size.isNaN = false := by
  rw [meetsContract_ingested_iff checked (offered.configured built)]
  simp [TradeFields.event, isPresent]

theorem OffersTick.meetsContract
    (built : buildSymbolMap settings exchange = .ok symbolMap)
    {fields : TickFields}
    (offered : OffersTick (some symbolMap) payload tsIngest exchange fields)
    (checked : (fields.event exchange tsIngest).basicContract = .ok ()) :
    MeetsContract settings.source.symbols
      (fields.event exchange tsIngest) := by
  rw [meetsContract_ingested_iff checked (offered.configured built)]
  intro trade
  cases trade

/-- Nothing is quarantined exactly when every emitted event meets the
contract; there is nothing to check where none is emitted. -/
private theorem quarantines_nothing_iff {engine : Pandera}
    (documented : engine.Documented) (symbols : List String)
    (events : List ValidEvent) :
    (events ≠ [] → (applyContract engine (eventsToFrame
        (events.map ValidEvent.event)) symbols).quarantined = []) ↔
      ∀ event ∈ events, MeetsContract symbols event.event := by
  rw [applyContract_clean_iff documented, List.forall_mem_map]
  constructor
  · intro all event member
    exact all (List.ne_nil_of_mem member) event member
  · intro all _
    exact all

end Offered

/-- The contract quarantines nothing of what normalization emits exactly when
no offered trade carries NaN. -/
theorem ingest_meets_contract_iff {engine : Pandera}
    (documented : engine.Documented) (settings : Settings) (exchange : String)
    (symbolMap : SymbolMap)
    (built : buildSymbolMap settings exchange = .ok symbolMap)
    (members : List (String × Json)) (tsIngest : Instant) (room : Room) :
    (∀ log, normalizeSafe exchange (.obj members) tsIngest (some symbolMap)
        room = .ok log → log.done ≠ [] →
      (applyContract engine (eventsToFrame (log.done.map ValidEvent.event))
        settings.source.symbols).quarantined = []) ↔
      (PayloadSafe exchange (some symbolMap) (.obj members) room →
        NoNaN exchange (some symbolMap) (.obj members) tsIngest room) := by
  simp only [quarantines_nothing_iff documented]
  rw [emitted_forall_iff (MeetsContract settings.source.symbols)]
  apply imp_congr_right
  intro _
  constructor
  · intro offers
    rcases offers with ⟨trades, _⟩
    intro fields offered checked
    exact (offered.meetsContract_iff built checked).mp
      (trades fields offered checked)
  · intro noNaN
    constructor
    · intro fields offered checked
      exact (offered.meetsContract_iff built checked).mpr
        (noNaN fields offered checked)
    · intro fields offered checked
      exact offered.meetsContract built checked

/-- A trade whose price is the text `NaN`. -/
def nanTrade : List (String × Json) :=
  [("channel", .str "market_trades"),
    ("events", .arr [.obj [("type", .str "update"), ("trades",
      .arr [.obj [("product_id", .str "BTC-USD"), ("trade_id", .str "1"),
        ("price", .str "NaN"), ("size", .str "1.0"),
        ("time", .str "2026-01-01T00:00:00Z"),
        ("side", .str "BUY")]])]])]

/-- The Coinbase map of the sample settings. -/
def sampleMap : SymbolMap :=
  foldKeyed ({} : ExchangeProfile).exchangeSymbol (fun _ symbol => symbol) ""
    sampleSettings.source.symbols

theorem nanTrade_emitted :
    returnsEvent
      (fun event => event.eventType = .trade && event.price = some .nan)
      (normalizeSafe "coinbase" (.obj nanTrade) 0 (some sampleMap)) =
        true := by
  decide +kernel

theorem not_clean_of_nan {log : NormalizeLog} {event : ValidEvent}
    (member : event ∈ log.done) (trade : event.event.eventType = .trade)
    (nan : event.event.price = some .nan) (symbols : List String) :
    (applyContract eventPandera (eventsToFrame (log.done.map ValidEvent.event))
      symbols).quarantined ≠ [] := by
  rw [ne_eq, applyContract_clean_iff eventPandera_documented,
    List.forall_mem_map]
  intro clean
  have present := ((clean event member).rules.tradeCarries trade).1
  rw [nan] at present
  cases present

theorem ingest_meets_contract_sample :
    ¬ (PayloadSafe "coinbase" (some sampleMap) (.obj nanTrade) →
      NoNaN "coinbase" (some sampleMap) (.obj nanTrade) 0) := by
  intro noNaN
  obtain ⟨log, ran, event, member, found⟩ :=
    returnsEvent_iff.mp nanTrade_emitted
  simp only [Bool.and_eq_true, decide_eq_true_eq] at found
  exact not_clean_of_nan member found.1 found.2 _
    ((ingest_meets_contract_iff eventPandera_documented sampleSettings
      "coinbase" sampleMap rfl nanTrade 0 none).mpr noNaN log ran
        (List.ne_nil_of_mem member))

/-- The validator lets a NaN price through, which the contract quarantines. -/
theorem ingest_accepts_nan :
    ∃ log, buildSymbolMap sampleSettings "coinbase" = .ok sampleMap ∧
      normalizeSafe "coinbase" (.obj nanTrade) 0 (some sampleMap) = .ok log ∧
        log.done ≠ [] ∧
          (applyContract eventPandera
            (eventsToFrame (log.done.map ValidEvent.event))
              sampleSettings.source.symbols).quarantined ≠ [] := by
  obtain ⟨log, ran, event, member, found⟩ :=
    returnsEvent_iff.mp nanTrade_emitted
  simp only [Bool.and_eq_true, decide_eq_true_eq] at found
  exact ⟨log, rfl, ran, List.ne_nil_of_mem member,
    not_clean_of_nan member found.1 found.2 _⟩

end TickStream
