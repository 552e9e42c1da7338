import TickStream.Processing.App
import TickStream.Producer.Offers

/-!
# Publishing

Accepted events are routed to the raw topic of their type.  The processor
computes its columns from the decoded record and stops on a null operand, so
what matters downstream is which events carry finite numbers.
-/

namespace TickStream

open Python Library

def topicForEvent {F : Type} (topics : Topics) (event : MarketEvent F) :
    String :=
  if event.eventType = .ticker then topics.tickerRaw else topics.tradesRaw

/-- The derived columns of the topic a record reaches are defined on it. -/
def Processable (topics : Topics) (event : MarketEvent PyFloat) : Prop :=
  (topicForEvent topics event = topics.tradesRaw →
    ∃ columns, tradeColumns event.toJsonBytes = .ok columns) ∧
  (topicForEvent topics event = topics.tickerRaw →
    ∃ columns, tickerColumns event.toJsonBytes = .ok columns)

theorem bind_toJson_isSome_iff {field : Option PyFloat} :
    (field.bind PyFloat.toJson).isSome = true ↔
      field.any PyFloat.isFinite = true := by
  cases field with
  | none => simp
  | some value => cases value <;> simp [PyFloat.toJson, PyFloat.isFinite]

section Columns

variable {topics : Topics} {event : MarketEvent PyFloat}

private theorem processable_trade_iff
    (distinct : topics.tradesRaw ≠ topics.tickerRaw)
    (trade : event.eventType = .trade) :
    Processable topics event ↔
      event.price.any PyFloat.isFinite = true ∧
        event.size.any PyFloat.isFinite = true := by
  have routed : topicForEvent topics event = topics.tradesRaw := by
    simp [topicForEvent, trade]
  simp only [Processable]
  rw [routed, tradeColumns_ok_iff]
  simp only [MarketEvent.toJsonBytes, bind_toJson_isSome_iff, forall_const,
    distinct, false_imp_iff, and_true]

private theorem processable_ticker_iff
    (distinct : topics.tradesRaw ≠ topics.tickerRaw)
    (ticker : event.eventType = .ticker) :
    Processable topics event ↔
      event.bestBid.any PyFloat.isFinite = true ∧
        event.bestAsk.any PyFloat.isFinite = true := by
  have routed : topicForEvent topics event = topics.tickerRaw := by
    simp [topicForEvent, ticker]
  simp only [Processable]
  rw [routed, tickerColumns_ok_iff]
  simp only [MarketEvent.toJsonBytes, bind_toJson_isSome_iff, forall_const,
    distinct.symm, false_imp_iff, true_and]

end Columns

/-- The trades a payload offers, as far as the validator passes them, have
finite numbers, and its ticks have two finite quotes. -/
structure FiniteNumbers (exchange : String) (symbolMap : Option SymbolMap)
    (payload : Json) (tsIngest : Instant) (room : Room := none) : Prop where
  trades : ∀ fields, OffersTrade room symbolMap payload exchange fields →
    (fields.event exchange tsIngest).basicContract = .ok () →
      fields.price.isFinite = true ∧ fields.size.isFinite = true
  ticks : ∀ fields, OffersTick symbolMap payload tsIngest exchange fields →
    (fields.event exchange tsIngest).basicContract = .ok () →
      fields.bestBid.any PyFloat.isFinite = true ∧
        fields.bestAsk.any PyFloat.isFinite = true

/-- What normalization emits is determined event by event: a property of all
emitted events is a property of the offered ones that pass the validator. -/
theorem emitted_forall_iff (holds : MarketEvent PyFloat → Prop)
    {exchange : String} {members : List (String × Json)}
    {tsIngest : Instant} {symbolMap : Option SymbolMap} {room : Room} :
    (∀ log, normalizeSafe exchange (.obj members) tsIngest symbolMap room =
        .ok log → ∀ event ∈ log.done, holds event.event) ↔
      (PayloadSafe exchange symbolMap (.obj members) room →
        (∀ fields, OffersTrade room symbolMap (.obj members) exchange fields →
          (fields.event exchange tsIngest).basicContract = .ok () →
            holds (fields.event exchange tsIngest)) ∧
        (∀ fields, OffersTick symbolMap (.obj members) tsIngest exchange
            fields →
          (fields.event exchange tsIngest).basicContract = .ok () →
            holds (fields.event exchange tsIngest))) := by
  rw [← returns_normalizeSafe_iff tsIngest]
  constructor
  · intro all returned
    rcases returned with ⟨log, ran⟩
    constructor
    · intro fields offered checked
      exact all log ran ⟨_, checked⟩
        ((mem_done_iff ran).mpr (Or.inl ⟨fields, offered, rfl⟩))
    · intro fields offered checked
      exact all log ran ⟨_, checked⟩
        ((mem_done_iff ran).mpr (Or.inr ⟨fields, offered, rfl⟩))
  · intro offers log ran event member
    obtain ⟨trades, ticks⟩ := offers ⟨log, ran⟩
    have checked := event.checked
    rcases (mem_done_iff ran).mp member with ⟨fields, offered, same⟩ |
      ⟨fields, offered, same⟩
    · rw [same] at checked ⊢
      exact trades fields offered checked
    · rw [same] at checked ⊢
      exact ticks fields offered checked

/-- Every published event can be processed exactly when the numbers the
payload offers are finite. -/
theorem published_processable_iff (topics : Topics)
    (distinct : topics.tradesRaw ≠ topics.tickerRaw) (exchange : String)
    (members : List (String × Json)) (tsIngest : Instant)
    (symbolMap : Option SymbolMap) (room : Room) :
    (∀ log, normalizeSafe exchange (.obj members) tsIngest symbolMap room =
        .ok log → ∀ event ∈ log.done, Processable topics event.event) ↔
      (PayloadSafe exchange symbolMap (.obj members) room →
        FiniteNumbers exchange symbolMap (.obj members) tsIngest room) := by
  rw [emitted_forall_iff (Processable topics)]
  apply imp_congr_right
  intro _
  have trade : ∀ fields : TradeFields,
      Processable topics (fields.event exchange tsIngest) ↔
        fields.price.isFinite = true ∧ fields.size.isFinite = true :=
    fun fields => processable_trade_iff distinct rfl
  have tick : ∀ fields : TickFields,
      Processable topics (fields.event exchange tsIngest) ↔
        fields.bestBid.any PyFloat.isFinite = true ∧
          fields.bestAsk.any PyFloat.isFinite = true :=
    fun fields => processable_ticker_iff distinct rfl
  simp only [trade, tick]
  constructor
  · intro offers
    rcases offers with ⟨trades, ticks⟩
    exact ⟨trades, ticks⟩
  · intro finite
    exact ⟨finite.trades, finite.ticks⟩

/-- A ticker message without `best_bid`. -/
def missingBid : List (String × Json) :=
  [("channel", .str "ticker"), ("timestamp", .str "2026-01-01T00:00:00Z"),
    ("events", .arr [.obj [("tickers",
      .arr [.obj [("product_id", .str "BTC-USD"),
        ("best_ask", .str "42000.5")]])]])]

theorem missingBid_emitted :
    returnsEvent
      (fun event => event.eventType = .ticker && event.bestBid = none)
      (normalizeSafe "coinbase" (.obj missingBid) 0 none) = true := by
  decide +kernel

theorem not_processable_of_missing {topics : Topics}
    {event : MarketEvent PyFloat} (ticker : event.eventType = .ticker)
    (missing : event.bestBid = none) : ¬ Processable topics event := by
  intro processable
  obtain ⟨columns, computed⟩ := processable.2 (by simp [topicForEvent, ticker])
  have present := tickerColumns_ok_iff.mp ⟨columns, computed⟩
  simp [MarketEvent.toJsonBytes, missing] at present

theorem published_processable_sample :
    ¬ (PayloadSafe "coinbase" none (.obj missingBid) →
      FiniteNumbers "coinbase" none (.obj missingBid) 0) := by
  intro finite
  obtain ⟨log, ran, event, member, found⟩ :=
    returnsEvent_iff.mp missingBid_emitted
  simp only [Bool.and_eq_true, decide_eq_true_eq] at found
  exact not_processable_of_missing found.1 found.2
    ((published_processable_iff {} (by decide) "coinbase" missingBid 0
      none none).mpr finite log ran event member)

/-- A tick without a bid is published and stops the processor. -/
theorem published_missing_bid :
    ∃ log, normalizeSafe "coinbase" (.obj missingBid) 0 none = .ok log ∧
      ∃ event ∈ log.done, ¬ Processable {} event.event := by
  obtain ⟨log, ran, event, member, found⟩ :=
    returnsEvent_iff.mp missingBid_emitted
  simp only [Bool.and_eq_true, decide_eq_true_eq] at found
  exact ⟨log, ran, event, member,
    not_processable_of_missing found.1 found.2⟩

end TickStream
