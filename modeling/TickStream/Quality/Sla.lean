import Mathlib.Data.List.Dedup
import TickStream.Dbt.Gold

/-!
# SLA measurement

Completeness compares the windows of gold with the windows the bronze rows
imply; the violation count checks the gold rows themselves.
-/

namespace TickStream

open Python Library

/-- Whether silver's filters keep a row.  A comparison with NaN is false. -/
def silverValid (row : BronzeRow) : Bool :=
  let tradeOk := row.eventType = .trade && row.tradeId.isSome &&
    row.price.any (fun price => 0 < price) &&
    row.size.any (fun size => 0 ≤ size)
  let tickerOk := row.eventType = .ticker &&
    match row.bestBid, row.bestAsk with
    | some bid, some ask => bid ≤ ask
    | _, _ => false
  tradeOk || tickerOk

/-- The bucket of an event time: whole seconds, cut toward zero, then rounded
down to the window size. -/
def bucketSeconds (tsEvent : Instant) (secs : Nat) : Int :=
  tsEvent.tdiv microsPerSecond / secs * secs

/-- The distinct (symbol, bucket) pairs of the valid rows. -/
def distinctBuckets (bronze : List BronzeRow) (secs : Nat) :
    List (String × Int) :=
  ((bronze.filter silverValid).map
    (fun row => (row.symbol, bucketSeconds row.tsEvent secs))).dedup

/-- Number of expected windows of every symbol, over all window sizes. -/
def expectedWindowsBySymbol (bronze : List BronzeRow) : Dict String Nat :=
  foldKeyed Prod.fst (fun count _ => count + 1) 0
    (windowSizes.flatMap (fun size => distinctBuckets bronze size.2))

/-- Number of gold rows that break an invariant. -/
def goldViolations (gold : List GoldRow) : Nat :=
  gold.countP (fun row =>
    (0 < row.tickerCount && row.avgSpread.any (fun spread => spread < 0)) ||
    (0 < row.tradeCount && row.vwap.all (fun vwap => vwap ≤ 0)) ||
    row.eventCount ≠ row.tradeCount + row.tickerCount)

/-- `round(value, 2)`. -/
def roundCents (value : Rat) : Rat := (roundHalfEven (value * 100) : Rat) / 100

/-- Number of gold rows of a symbol. -/
def producedWindows (gold : List GoldRow) (symbol : String) : Nat :=
  gold.countP (fun row => row.symbol = symbol)

/-- The completeness percentage of every symbol with an expected window. -/
def completenessBySymbol (bronze : List BronzeRow) (gold : List GoldRow) :
    List (String × Rat) :=
  (expectedWindowsBySymbol bronze).entries.map (fun entry =>
    (entry.1,
      roundCents (100 * producedWindows gold entry.1 / (entry.2 : Rat))))

end TickStream
