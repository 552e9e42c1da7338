import Mathlib.Algebra.BigOperators.Group.List.Basic
import Mathlib.Algebra.Ring.Rat
import TickStream.Library.KeyedSum
import TickStream.Processing.Metrics

/-!
# Accumulators as sums

Under exact arithmetic the accumulators are a commutative monoid and folding
an event in adds what the event contributes.  A bucket's accumulator is then
the sum over its events, whatever the order they arrive in.
-/

namespace TickStream

open Python Library

namespace MarketEvent

variable {F : Type}

/-- A trade with price and size, or a ticker with both quotes. -/
def Contributes (event : MarketEvent F) : Prop :=
  event.eventType = .trade ∧ event.price.isSome ∧ event.size.isSome ∨
    event.eventType = .ticker ∧ event.bestBid.isSome ∧ event.bestAsk.isSome

instance (event : MarketEvent F) : Decidable event.Contributes :=
  inferInstanceAs (Decidable
    (event.eventType = .trade ∧ event.price.isSome ∧ event.size.isSome ∨
      event.eventType = .ticker ∧ event.bestBid.isSome ∧
        event.bestAsk.isSome))

/-- Price and size of a contributing trade. -/
def tradeOf? (event : MarketEvent F) : Option (F × F) :=
  match event.eventType, event.price, event.size with
  | .trade, some price, some size => some (price, size)
  | _, _, _ => none

/-- Bid and ask of a contributing ticker. -/
def quoteOf? (event : MarketEvent F) : Option (F × F) :=
  match event.eventType, event.bestBid, event.bestAsk with
  | .ticker, some bid, some ask => some (bid, ask)
  | _, _, _ => none

theorem contributes_iff {event : MarketEvent F} :
    event.Contributes ↔
      event.tradeOf?.isSome = true ∨ event.quoteOf?.isSome = true := by
  simp only [Contributes, tradeOf?, quoteOf?]
  cases event.eventType with
  | trade => cases event.price <;> cases event.size <;> simp
  | ticker => cases event.bestBid <;> cases event.bestAsk <;> simp

end MarketEvent

namespace Acc

instance : Zero (Acc Rat) := ⟨Acc.empty⟩

instance : Add (Acc Rat) :=
  ⟨fun left right =>
    { pv := left.pv + right.pv
      vol := left.vol + right.vol
      trades := left.trades + right.trades
      spreadSum := left.spreadSum + right.spreadSum
      midSum := left.midSum + right.midSum
      tickers := left.tickers + right.tickers }⟩

theorem add_def (left right : Acc Rat) :
    left + right =
      { pv := left.pv + right.pv
        vol := left.vol + right.vol
        trades := left.trades + right.trades
        spreadSum := left.spreadSum + right.spreadSum
        midSum := left.midSum + right.midSum
        tickers := left.tickers + right.tickers } := rfl

theorem zero_def : (0 : Acc Rat) = ⟨0, 0, 0, 0, 0, 0⟩ := rfl

instance : AddCommMonoid (Acc Rat) where
  add_assoc first second third := by
    simp only [add_def, add_assoc]
  zero_add acc := by
    simp only [add_def, zero_def, zero_add]
  add_zero acc := by
    simp only [add_def, zero_def, add_zero]
  add_comm left right := by
    simp only [add_def, add_comm]
  nsmul := nsmulRec

/-- Accumulators are summed field by field. -/
theorem sum_eq (accs : List (Acc Rat)) :
    accs.sum =
      { pv := (accs.map Acc.pv).sum
        vol := (accs.map Acc.vol).sum
        trades := (accs.map Acc.trades).sum
        spreadSum := (accs.map Acc.spreadSum).sum
        midSum := (accs.map Acc.midSum).sum
        tickers := (accs.map Acc.tickers).sum } := by
  induction accs with
  | nil => rfl
  | cons acc rest induction =>
      rw [List.sum_cons, induction]
      simp only [add_def, List.map_cons, List.sum_cons]

/-- What one event contributes. -/
def of (event : MarketEvent Rat) : Acc Rat := Acc.empty.add event

theorem add_eq (acc : Acc Rat) (event : MarketEvent Rat) :
    acc.add event = acc + Acc.of event := by
  simp only [of, add, empty]
  split <;> split <;> simp [add_def]

/-- Exact addition does not see the order of the events. -/
instance : RightCommutative (Acc.add (F := Rat)) where
  right_comm acc first second := by
    simp only [add_eq]
    exact add_right_comm acc (of first) (of second)

/-- The sums over the contributing trades and tickers of some events. -/
def direct (events : List (MarketEvent Rat)) : Acc Rat :=
  let trades := events.filterMap MarketEvent.tradeOf?
  let quotes := events.filterMap MarketEvent.quoteOf?
  { pv := (trades.map (fun trade => trade.1 * trade.2)).sum
    vol := (trades.map Prod.snd).sum
    trades := trades.length
    spreadSum := (quotes.map (fun quote => quote.2 - quote.1)).sum
    midSum := (quotes.map (fun quote => (quote.2 + quote.1) / 2)).sum
    tickers := quotes.length }

theorem of_add_direct (event : MarketEvent Rat)
    (events : List (MarketEvent Rat)) :
    Acc.of event + direct events = direct (event :: events) := by
  simp only [of, add, empty, direct, add_def, List.filterMap_cons,
    MarketEvent.tradeOf?, MarketEvent.quoteOf?]
  cases event.eventType with
  | trade =>
      cases event.price <;> cases event.size <;> simp [add_comm]
  | ticker =>
      cases event.bestBid <;> cases event.bestAsk <;> simp [add_comm]

theorem sum_of (events : List (MarketEvent Rat)) :
    (events.map Acc.of).sum = direct events := by
  induction events with
  | nil => rfl
  | cons event rest induction =>
      rw [List.map_cons, List.sum_cons, induction, of_add_direct]

/-- Folding events into an empty accumulator sums what they contribute. -/
theorem foldl_add (events : List (MarketEvent Rat)) :
    events.foldl Acc.add Acc.empty = direct events := by
  have step : (Acc.add : Acc Rat → MarketEvent Rat → Acc Rat) =
      fun acc event => acc + Acc.of event := by
    funext acc event
    exact add_eq acc event
  rw [step, foldl_add_value, sum_of]
  exact zero_add (direct events)

end Acc

/-- The accumulators of the reference are keyed sums. -/
theorem foldKeyed_add_eq (windowSeconds : Nat)
    (events : List (MarketEvent Rat)) :
    foldKeyed (bucket windowSeconds) Acc.add Acc.empty events =
      keyedSum (bucket windowSeconds) Acc.of events := by
  have step : (Acc.add : Acc Rat → MarketEvent Rat → Acc Rat) =
      fun acc event => acc + Acc.of event := by
    funext acc event
    exact Acc.add_eq acc event
  rw [step]
  rfl

/-- A bucket is bound to the sums over its contributing events. -/
theorem mem_buckets {windowSeconds : Nat} {events : List (MarketEvent Rat)}
    {selected : String × Instant} {acc : Acc Rat} :
    (selected, acc) ∈ (foldKeyed (bucket windowSeconds) Acc.add Acc.empty
        events).entries ↔
      (∃ event ∈ events, bucket windowSeconds event = selected) ∧
        acc = Acc.direct (itemsAt (bucket windowSeconds) events selected) := by
  rw [mem_foldKeyed, Acc.foldl_add]

end TickStream
