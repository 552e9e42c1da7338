import TickStream.Dbt.Epoch
import TickStream.Dbt.Tests
import TickStream.Python.DoubleSum

/-!
# Gold in doubles

The number columns of bronze are doubles, and the engine computes with doubles.
`total` is the order in which it adds up a column; rows come with the windows
the macro opens on their epochs.  Where SQL compares, NaN is above every other
number.
-/

namespace TickStream.Double

open Python Library

/-- The row holds doubles. -/
structure HoldsDoubles (row : BronzeRow) : Prop where
  price : ∀ value, row.price = some value → IsDouble value
  size : ∀ value, row.size = some value → IsDouble value
  bestBid : ∀ value, row.bestBid = some value → IsDouble value
  bestAsk : ∀ value, row.bestAsk = some value → IsDouble value

section Gold

variable (total : List PyFloat → PyFloat)

/-- `sum(..)` of a column without nulls: null on no rows. -/
def sqlSum (values : List PyFloat) : Option PyFloat :=
  if values = [] then none else some (total values)

/-- `avg(..)` of a column without nulls: null on no rows. -/
def sqlAvg (values : List PyFloat) : Option PyFloat :=
  if values = [] then none
  else some (total values / ((values.length : Nat) : PyFloat))

/-- The column `price * size`. -/
def products (trades : List SilverTrade) : List PyFloat :=
  trades.map (fun trade => .fin trade.price * .fin trade.size)

def sizes (trades : List SilverTrade) : List PyFloat :=
  trades.map (fun trade => .fin trade.size)

/-- The columns `spread` and `mid` of `silver_ticker`. -/
def spreads (tickers : List SilverTicker) : List PyFloat :=
  tickers.map (fun ticker => .fin ticker.bestAsk - .fin ticker.bestBid)

def mids (tickers : List SilverTicker) : List PyFloat :=
  tickers.map (fun ticker =>
    (.fin ticker.bestAsk + .fin ticker.bestBid) / .fin 2)

def tradeWindow (grain : Grain) (trades : List SilverTrade) :
    TradeWindow PyFloat :=
  { grain := grain
    vwap :=
      nullDiv (sqlSum total (products trades))
        (nullIf (sqlSum total (sizes trades)) 0)
    tradeVolume := sqlSum total (sizes trades)
    tradeCount := trades.length }

def tickerWindow (grain : Grain) (tickers : List SilverTicker) :
    TickerWindow PyFloat :=
  { grain := grain
    avgSpread := sqlAvg total (spreads tickers)
    avgMid := sqlAvg total (mids tickers)
    tickerCount := tickers.length }

/-- The silver rows at the instants their epochs read. -/
def readTrades (bronze : List BronzeRow) : List SilverTrade :=
  (silverTrades bronze).map SilverTrade.reading

def readTickers (bronze : List BronzeRow) : List SilverTicker :=
  (silverTicker bronze).map SilverTicker.reading

def goldTable (bronze : List BronzeRow) : List (GoldRow PyFloat) :=
  joinAggregates (tradeWindow total) (tickerWindow total) (readTrades bronze)
    (readTickers bronze)

def assertGoldSpreadNonNegative (gold : List (GoldRow PyFloat)) :
    List (GoldRow PyFloat) :=
  gold.filter (fun row =>
    0 < row.tickerCount &&
      row.avgSpread.any (fun spread => spread.lt (.fin 0)))

def assertGoldVwapPositive (gold : List (GoldRow PyFloat)) :
    List (GoldRow PyFloat) :=
  gold.filter (fun row =>
    0 < row.tradeCount && row.vwap.all (fun vwap => vwap.le (.fin 0)))

/-- `bound < abs(left - right)`. -/
def differ (bound : PyFloat) (left right : PyFloat) : Bool :=
  match left - right with
  | .nan => true
  | .inf _ => true
  | .fin value => bound.lt (.fin |value|)

/-- Whether a gold row disagrees with the trade metrics recomputed for its
window. -/
def disagrees (row : GoldRow PyFloat) (window : TradeWindow PyFloat) : Bool :=
  row.tradeCount ≠ window.tradeCount ||
    window.tradeVolume.any (differ (decimalFloat 1 (-9)) row.tradeVolume) ||
    differ (decimalFloat 1 (-6)) (row.vwap.getD 0) (window.vwap.getD 0)

def assertGoldTradeMetricsRecompute (trades : List SilverTrade)
    (gold : List (GoldRow PyFloat)) : List (GoldRow PyFloat) :=
  gold.filter (fun row =>
    (groupWindows SilverTrade.symbol SilverTrade.tsEvent (tradeWindow total)
      trades).any (fun window =>
        row.key = window.grain && disagrees row window))

/-- Every test on the gold table returns nothing. -/
structure GoldTestsPass (bronze : List BronzeRow) : Prop where
  windowKeyUnique :
    notUnique ((goldTable total bronze).map GoldRow.windowKey) = []
  windowSizes : unacceptedWindowSizes (goldTable total bronze) = []
  eventCount : assertGoldEventCount (goldTable total bronze) = []
  spreadNonNegative :
    assertGoldSpreadNonNegative (goldTable total bronze) = []
  vwapPositive : assertGoldVwapPositive (goldTable total bronze) = []
  windowSpan : assertGoldWindowSpan (goldTable total bronze) = []
  recompute : assertGoldTradeMetricsRecompute total (readTrades bronze)
    (goldTable total bronze) = []

/-- Number of gold rows that break an invariant; pandas reads NaN as null. -/
def goldViolations (gold : List (GoldRow PyFloat)) : Nat :=
  gold.countP (fun row =>
    (0 < row.tickerCount &&
      row.avgSpread.any (fun spread => spread.lt (.fin 0))) ||
    (0 < row.tradeCount &&
      row.vwap.all (fun vwap => vwap.isNaN || vwap.le (.fin 0))) ||
    row.eventCount ≠ row.tradeCount + row.tickerCount)

end Gold

end TickStream.Double
