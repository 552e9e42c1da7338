import TickStream.Dbt.GoldDoubles
import TickStream.Quality.Contract
import TickStream.Quality.GoldInvariants

/-!
# When gold satisfies its invariants

Every invariant of gold holds for any bronze data except the one on vwap.  A
window whose trades all have size zero has trades but no vwap, and the contract
admits such trades; and the quotient can leave the range of the doubles.
-/

namespace TickStream

open Python Library

namespace Double

/-- An engine adds up any column that holds a row. -/
def Adds (total : List PyFloat → PyFloat) : Prop :=
  ∀ values, values ≠ [] → SumOf values (total values)

structure GoldInvariants (gold : List (GoldRow PyFloat)) : Prop where
  windowKeyUnique : (gold.map GoldRow.windowKey).Nodup
  eventCount : ∀ row ∈ gold,
    row.eventCount = row.tradeCount + row.tickerCount
  spread : ∀ row ∈ gold, 0 < row.tickerCount →
    ∃ spread, row.avgSpread = some spread ∧ spread.lt (.fin 0) = false
  vwap : ∀ row ∈ gold, 0 < row.tradeCount →
    ∃ vwap, row.vwap = some vwap ∧ (PyFloat.fin 0).lt vwap = true

/-- The numbers of a window stay within the range of the doubles. -/
structure StaysInRange (total : List PyFloat → PyFloat)
    (trades : List SilverTrade) : Prop where
  volume : (total (sizes trades)).isFinite = true
  turnover : (total (products trades)).isFinite = true
  quotient : ∀ turnover volume, total (products trades) = .fin turnover →
    total (sizes trades) = .fin volume → 0 < volume →
      2 ^ (-1075 : Int) < turnover / volume ∧
        (roundToDouble (turnover / volume)).isFinite = true

/-- No window with trades overflows or underflows. -/
def EveryWindowInRange (total : List PyFloat → PyFloat)
    (trades : List SilverTrade) : Prop :=
  ∀ size ∈ windowSizes, ∀ grain, tradesIn trades size grain ≠ [] →
    StaysInRange total (tradesIn trades size grain)

section Columns

variable {total : List PyFloat → PyFloat} {trades : List SilverTrade}
  {tickers : List SilverTicker}

theorem windows_keepGrain (total : List PyFloat → PyFloat) :
    KeepsGrain (tradeWindow total) (tickerWindow total) :=
  ⟨fun _ _ => rfl, fun _ _ => rfl⟩

theorem products_nonneg :
    ∀ value ∈ products trades, (PyFloat.fin 0).le value = true := by
  simp only [products, List.forall_mem_map]
  intro trade _
  exact roundToDouble_nonneg
    (mul_nonneg trade.pricePositive.le trade.sizeNonnegative)

theorem sizes_nonneg :
    ∀ value ∈ sizes trades, (PyFloat.fin 0).le value = true := by
  simp only [sizes, List.forall_mem_map]
  intro trade _
  simpa [PyFloat.le] using trade.sizeNonnegative

private theorem spreads_nonneg :
    ∀ value ∈ spreads tickers, (PyFloat.fin 0).le value = true := by
  simp only [spreads, List.forall_mem_map]
  intro ticker _
  exact roundToDouble_nonneg (by linarith [ticker.uncrossed])

/-- There is no volume without a trade that has a size. -/
theorem sized_of_volume (adds : Adds total) (someTrades : trades ≠ [])
    {volume : Rat} (summed : total (sizes trades) = .fin volume)
    (positive : 0 < volume) : ∃ trade ∈ trades, 0 < trade.size := by
  have sum := adds (sizes trades) (by simpa [sizes] using someTrades)
  by_contra none
  have zeros : ∀ value ∈ sizes trades, value = .fin 0 := by
    simp only [sizes, List.forall_mem_map, PyFloat.fin.injEq]
    intro trade member
    exact le_antisymm (not_lt.mp (fun size => none ⟨trade, member, size⟩))
      trade.sizeNonnegative
  have zero := summed.symm.trans (sum.eq_zero zeros)
  cases zero
  exact lt_irrefl 0 positive

/-- The volume of a window is not below any size in it. -/
theorem size_le_volume (adds : Adds total) {volume bound : Rat}
    (summed : total (sizes trades) = .fin volume) (double : IsDouble bound)
    {trade : SilverTrade} (member : trade ∈ trades)
    (atLeast : bound ≤ trade.size) : bound ≤ volume := by
  have inside : PyFloat.fin trade.size ∈ sizes trades :=
    List.mem_map.mpr ⟨trade, member, rfl⟩
  have reached := (adds _ (List.ne_nil_of_mem inside)).le_of_mem sizes_nonneg
    double ⟨_, inside, by simpa [PyFloat.le] using atLeast⟩
  rw [summed] at reached
  simpa [PyFloat.le] using reached

private theorem product_le_turnover (adds : Adds total) {turnover bound : Rat}
    (summed : total (products trades) = .fin turnover)
    (double : IsDouble bound) {trade : SilverTrade} (member : trade ∈ trades)
    (atLeast : bound ≤ trade.price * trade.size) : bound ≤ turnover := by
  have inside : PyFloat.fin trade.price * .fin trade.size ∈ products trades :=
    List.mem_map.mpr ⟨trade, member, rfl⟩
  have rounded := roundToDouble_mono atLeast
  rw [double] at rounded
  have reached := (adds _ (List.ne_nil_of_mem inside)).le_of_mem
    products_nonneg double ⟨_, inside, rounded⟩
  rw [summed] at reached
  simpa [PyFloat.le] using reached

/-- A window has a volume exactly when a trade in it has a size. -/
theorem volume_pos_iff (adds : Adds total) (someTrades : trades ≠ [])
    (doubles : ∀ trade ∈ trades, IsDouble trade.size) {volume : Rat}
    (summed : total (sizes trades) = .fin volume) :
    0 < volume ↔ ∃ trade ∈ trades, 0 < trade.size := by
  constructor
  · exact sized_of_volume adds someTrades summed
  · rintro ⟨trade, member, size⟩
    exact size.trans_le
      (size_le_volume adds summed (doubles trade member) member le_rfl)

theorem tradeWindow_vwap (someTrades : trades ≠ []) (grain : Grain) :
    (tradeWindow total grain trades).vwap =
      if total (sizes trades) = .fin 0 then none
      else some (total (products trades) / total (sizes trades)) := by
  have someSizes : sizes trades ≠ [] := by simpa [sizes] using someTrades
  have someProducts : products trades ≠ [] := by
    simpa [products] using someTrades
  simp only [tradeWindow, sqlSum, if_neg someSizes, if_neg someProducts]
  have zero : (0 : PyFloat) = .fin 0 := rfl
  by_cases empty : total (sizes trades) = .fin 0
  · simp [nullIf, nullDiv, empty, zero, Option.filter]
  · simp [nullIf, nullDiv, empty, zero, Option.filter]

/-- The quotient is a positive double exactly with volume and in range. -/
theorem priced_iff (adds : Adds total) (someTrades : trades ≠ [])
    (doubles : ∀ trade ∈ trades, IsDouble trade.size) (grain : Grain) :
    (∃ vwap, (tradeWindow total grain trades).vwap = some vwap ∧
      (PyFloat.fin 0).lt vwap = true ∧ vwap.isFinite = true) ↔
        (∃ trade ∈ trades, 0 < trade.size) ∧ StaysInRange total trades := by
  rw [tradeWindow_vwap someTrades]
  have volumeNonneg := (adds (sizes trades)
    (by simpa [sizes] using someTrades)).isNonneg sizes_nonneg
  have turnoverNonneg := (adds (products trades)
    (by simpa [products] using someTrades)).isNonneg products_nonneg
  constructor
  · rintro ⟨vwap, present, priced⟩
    split_ifs at present with empty
    cases present
    obtain ⟨turnover, volume, turnoverIs, volumeIs, positive, above, finite⟩ :=
      (PyFloat.div_pos_finite_iff turnoverNonneg volumeNonneg empty).mp priced
    refine ⟨(volume_pos_iff adds someTrades doubles volumeIs).mp positive,
      by rw [volumeIs]; rfl, by rw [turnoverIs]; rfl, ?_⟩
    intro turnover' volume' sameTurnover sameVolume _
    rw [turnoverIs] at sameTurnover
    rw [volumeIs] at sameVolume
    cases sameTurnover
    cases sameVolume
    exact ⟨above, finite⟩
  · rintro ⟨sized, range⟩
    obtain ⟨volume, volumeIs⟩ := PyFloat.isFinite_iff.mp range.volume
    obtain ⟨turnover, turnoverIs⟩ := PyFloat.isFinite_iff.mp range.turnover
    have positive := (volume_pos_iff adds someTrades doubles volumeIs).mpr sized
    have nonzero : total (sizes trades) ≠ .fin 0 := by
      rw [volumeIs]
      intro zero
      cases zero
      exact lt_irrefl 0 positive
    obtain ⟨above, finite⟩ :=
      range.quotient turnover volume turnoverIs volumeIs positive
    rw [if_neg nonzero]
    exact ⟨_, rfl, (PyFloat.div_pos_finite_iff turnoverNonneg volumeNonneg
      nonzero).mpr
        ⟨turnover, volume, turnoverIs, volumeIs, positive, above, finite⟩⟩

private theorem avgSpread_nonneg (adds : Adds total)
    (someTickers : tickers ≠ [])
    (grain : Grain) :
    ∃ spread, (tickerWindow total grain tickers).avgSpread = some spread ∧
      spread.lt (.fin 0) = false := by
  have someSpreads : spreads tickers ≠ [] := by
    simpa [spreads] using someTickers
  have sum := (adds _ someSpreads).isNonneg spreads_nonneg
  have count : (PyFloat.fin 0).le
      (((spreads tickers).length : Nat) : PyFloat) = true :=
    roundToDouble_nonneg (Nat.cast_nonneg _)
  exact ⟨_, if_neg someSpreads, PyFloat.div_not_negative sum count⟩

end Columns

section Rows

variable {total : List PyFloat → PyFloat} {trades : List SilverTrade}
  {tickers : List SilverTicker} {grain : Grain}

/-- The gold row of a window with the given trades and tickers. -/
def rowOf (total : List PyFloat → PyFloat) (grain : Grain)
    (trades : List SilverTrade) (tickers : List SilverTicker) :
    GoldRow PyFloat :=
  goldRow (joinedBy (tradeWindow total) (tickerWindow total) grain trades
    tickers)

theorem rowOf_key : (rowOf total grain trades tickers).key = grain :=
  joinedBy_key (windows_keepGrain total) grain trades tickers

theorem rowOf_trades (someTrades : trades ≠ []) :
    (rowOf total grain trades tickers).vwap =
        (tradeWindow total grain trades).vwap ∧
      (rowOf total grain trades tickers).tradeVolume = total (sizes trades) ∧
      (rowOf total grain trades tickers).tradeCount = trades.length := by
  have someSizes : sizes trades ≠ [] := by simpa [sizes] using someTrades
  simp only [rowOf, goldRow, joinedBy_left? someTrades]
  simp [tradeWindow, sqlSum, someSizes]

private theorem rowOf_tickers (someTickers : tickers ≠ []) :
    (rowOf total grain trades tickers).avgSpread =
      (tickerWindow total grain tickers).avgSpread := by
  simp only [rowOf, goldRow, joinedBy_right? someTickers]
  rfl

/-- Only a window with trades counts trades. -/
theorem trades_of_rowOf (occupied : trades ≠ [] ∨ tickers ≠ [])
    (counted : 0 < (rowOf total grain trades tickers).tradeCount) :
    trades ≠ [] := by
  rintro rfl
  have someTickers := occupied.resolve_left (fun none => none rfl)
  simp [rowOf, goldRow, joinedBy_left?_nil someTickers] at counted

private theorem tickers_of_rowOf
    (counted : 0 < (rowOf total grain trades tickers).tickerCount) :
    tickers ≠ [] := by
  rintro rfl
  simp [rowOf, goldRow, joinedBy_right?_nil] at counted

theorem mem_gold {row : GoldRow PyFloat} :
    row ∈ joinAggregates (tradeWindow total) (tickerWindow total) trades
        tickers ↔
      ∃ size ∈ windowSizes, ∃ grain,
        (tradesIn trades size grain ≠ [] ∨
          tickersIn tickers size grain ≠ []) ∧
        row = rowOf total grain (tradesIn trades size grain)
          (tickersIn tickers size grain) :=
  mem_joinAggregates (windows_keepGrain total)

/-- Every row with trades has a positive double for its vwap. -/
def EveryRowPriced (gold : List (GoldRow PyFloat)) : Prop :=
  ∀ row ∈ gold, 0 < row.tradeCount →
    ∃ vwap, row.vwap = some vwap ∧ (PyFloat.fin 0).lt vwap = true ∧
      vwap.isFinite = true

private theorem everyRowPriced_iff (adds : Adds total)
    (doubles : ∀ trade ∈ trades, IsDouble trade.size) :
    EveryRowPriced (joinAggregates (tradeWindow total) (tickerWindow total)
        trades tickers) ↔
      EveryMinuteHasVolume trades ∧ EveryWindowInRange total trades := by
  have inside : ∀ size grain, ∀ trade ∈ tradesIn trades size grain,
      IsDouble trade.size := fun size grain trade member =>
    doubles trade (mem_inWindow.mp member).1
  rw [everyMinuteHasVolume_iff]
  constructor
  · intro priced
    have windows : ∀ size ∈ windowSizes, ∀ grain,
        tradesIn trades size grain ≠ [] →
          (∃ trade ∈ tradesIn trades size grain, 0 < trade.size) ∧
            StaysInRange total (tradesIn trades size grain) := by
      intro size sizeMember grain someTrades
      rw [← priced_iff adds someTrades (inside size grain) grain]
      have member : rowOf total grain (tradesIn trades size grain)
          (tickersIn tickers size grain) ∈ _ :=
        mem_gold.mpr ⟨size, sizeMember, grain, Or.inl someTrades, rfl⟩
      have row := priced _ member
      rw [(rowOf_trades someTrades).1, (rowOf_trades someTrades).2.2] at row
      exact row (List.length_pos_of_ne_nil someTrades)
    exact ⟨fun size sizeMember grain someTrades =>
        (windows size sizeMember grain someTrades).1,
      fun size sizeMember grain someTrades =>
        (windows size sizeMember grain someTrades).2⟩
  · rintro ⟨volume, range⟩ row member counted
    obtain ⟨size, sizeMember, grain, occupied, rfl⟩ := mem_gold.mp member
    have someTrades := trades_of_rowOf occupied counted
    rw [(rowOf_trades someTrades).1,
      priced_iff adds someTrades (inside size grain) grain]
    exact ⟨volume size sizeMember grain someTrades,
      range size sizeMember grain someTrades⟩

/-- Every other invariant holds for any data. -/
private theorem goldInvariants_of_priced (adds : Adds total)
    (priced : EveryRowPriced (joinAggregates (tradeWindow total)
      (tickerWindow total) trades tickers)) :
    GoldInvariants (joinAggregates (tradeWindow total) (tickerWindow total)
      trades tickers) := by
  refine ⟨joinAggregates_windowKeys_nodup (windows_keepGrain total) trades
    tickers, ?_, ?_, ?_⟩
  · intro row member
    obtain ⟨_, _, _, _, rfl⟩ := mem_gold.mp member
    rfl
  · intro row member counted
    obtain ⟨size, _, grain, _, rfl⟩ := mem_gold.mp member
    have someTickers := tickers_of_rowOf counted
    rw [rowOf_tickers someTickers]
    exact avgSpread_nonneg adds someTickers grain
  · intro row member counted
    obtain ⟨vwap, present, positive, _⟩ := priced row member counted
    exact ⟨vwap, present, positive⟩

/-- A value differs from itself exactly if it is not finite. -/
theorem differ_self {bound value : PyFloat}
    (nonneg : bound.lt (.fin 0) = false) :
    differ bound value value = !value.isFinite := by
  cases value with
  | nan => rfl
  | inf negative => cases negative <;> rfl
  | fin number =>
      have difference : PyFloat.fin number - .fin number = .fin 0 := by
        change roundToDouble (number + -number) = .fin 0
        rw [add_neg_cancel, isDouble_zero]
      simp only [differ, difference, abs_zero, nonneg, PyFloat.isFinite,
        Bool.not_true]

end Rows

section Tests

private theorem isNaN_of_pos {value : PyFloat}
    (positive : (PyFloat.fin 0).lt value = true) : value.isNaN = false := by
  cases value with
  | nan => cases positive
  | _ => rfl

theorem not_le_of_pos {value : PyFloat}
    (positive : (PyFloat.fin 0).lt value = true) :
    value.le (.fin 0) = false := by
  cases value with
  | nan => cases positive
  | inf negative => cases negative <;> simp_all [PyFloat.lt, PyFloat.le]
  | fin number => simpa [PyFloat.lt, PyFloat.le] using positive

variable {total : List PyFloat → PyFloat} {bronze : List BronzeRow}

theorem goldViolations_eq_zero {gold : List (GoldRow PyFloat)}
    (invariants : GoldInvariants gold) : goldViolations gold = 0 := by
  simp only [goldViolations]
  rw [List.countP_eq_zero]
  intro row member violated
  rw [Bool.or_eq_true, Bool.or_eq_true, decide_eq_true_eq, Bool.and_eq_true,
    Bool.and_eq_true, decide_eq_true_eq, decide_eq_true_eq] at violated
  rcases violated with (⟨counted, negative⟩ | ⟨counted, missing⟩) | miscounted
  · obtain ⟨spread, present, nonneg⟩ := invariants.spread row member counted
    rw [present, Option.any_some] at negative
    exact Bool.false_ne_true (nonneg.symm.trans negative)
  · obtain ⟨vwap, present, positive⟩ := invariants.vwap row member counted
    rw [present, Option.all_some] at missing
    rw [isNaN_of_pos positive, not_le_of_pos positive] at missing
    exact Bool.false_ne_true missing
  · exact miscounted (invariants.eventCount row member)

/-- A row and a recomputed window of its grain have the same trades. -/
theorem sameTrades {trades : List SilverTrade} {tickers : List SilverTicker}
    {row : GoldRow PyFloat}
    (member : row ∈ joinAggregates (tradeWindow total) (tickerWindow total)
      trades tickers) {window : TradeWindow PyFloat}
    (windowMember : window ∈ groupWindows SilverTrade.symbol
      SilverTrade.tsEvent (tradeWindow total) trades)
    (sameGrain : row.key = window.grain) :
    ∃ size ∈ windowSizes, tradesIn trades size row.key ≠ [] ∧
      row = rowOf total row.key (tradesIn trades size row.key)
        (tickersIn tickers size row.key) ∧
      window = tradeWindow total row.key (tradesIn trades size row.key) := by
  obtain ⟨size, sizeMember, grain, occupied, rowIs⟩ := mem_gold.mp member
  obtain ⟨other, otherMember, otherGrain, someTrades, windowIs⟩ :=
    mem_groupWindows.mp windowMember
  have key : row.key = grain := by rw [rowIs, rowOf_key]
  have same : otherGrain = grain := by
    rw [← key, sameGrain, windowIs]
    rfl
  subst same
  have sameSize : size = other := size_of_label sizeMember otherMember
    ((occupied.elim tradesIn_grain tickersIn_grain).symm.trans
      (grain_label someTrades))
  subst sameSize
  rw [key]
  exact ⟨size, sizeMember, someTrades, rowIs, windowIs⟩

/-- A row agrees with the recomputed metrics exactly where these are finite. -/
theorem disagrees_rowOf {trades : List SilverTrade}
    {tickers : List SilverTicker} {grain : Grain} (someTrades : trades ≠ []) :
    disagrees (rowOf total grain trades tickers)
        (tradeWindow total grain trades) = false ↔
      (total (sizes trades)).isFinite = true ∧
        (((tradeWindow total grain trades).vwap).getD (.fin 0)).isFinite =
          true := by
  have someSizes : sizes trades ≠ [] := by simpa [sizes] using someTrades
  obtain ⟨vwapIs, volumeIs, countIs⟩ :=
    @rowOf_trades total trades tickers grain someTrades
  have volume : (tradeWindow total grain trades).tradeVolume =
      some (total (sizes trades)) := if_neg someSizes
  have zero : (0 : PyFloat) = .fin 0 := rfl
  have count : (tradeWindow total grain trades).tradeCount = trades.length :=
    rfl
  have nano : (decimalFloat 1 (-9)).lt (.fin 0) = false := by decide +kernel
  have micro : (decimalFloat 1 (-6)).lt (.fin 0) = false := by decide +kernel
  simp only [disagrees, vwapIs, volumeIs, countIs, volume, count, zero,
    Option.any_some, differ_self nano, differ_self micro, ne_eq,
    not_true_eq_false, decide_false, Bool.false_or, Bool.or_eq_false_iff,
    Bool.not_eq_false']

/-- The invariants and finite metrics are all the tests on gold ask for. -/
private theorem goldTestsPass_of_priced
    (invariants : GoldInvariants (goldTable total bronze))
    (priced : EveryRowPriced (goldTable total bronze))
    (range : EveryWindowInRange total (readTrades bronze)) :
    GoldTestsPass total bronze := by
  refine ⟨?_, ?_, ?_, ?_, ?_, ?_, ?_⟩
  · exact notUnique_eq_nil_iff.mpr invariants.windowKeyUnique
  · simp only [unacceptedWindowSizes]
    rw [List.filter_eq_nil_iff]
    intro label labelMember
    obtain ⟨row, member, same⟩ := List.mem_map.mp labelMember
    obtain ⟨⟨size, sizeMember, sameLabel⟩, _⟩ :=
      joinAggregates_grain (windows_keepGrain total) member
    have accepted : ∀ size ∈ windowSizes, size.1 ∈ ["1m", "5m"] := by
      decide
    rw [← same, sameLabel, decide_eq_true_eq, not_not]
    exact accepted size sizeMember
  · simp only [assertGoldEventCount]
    rw [List.filter_eq_nil_iff]
    intro row member
    simpa using invariants.eventCount row member
  · simp only [assertGoldSpreadNonNegative]
    rw [List.filter_eq_nil_iff]
    intro row member offends
    rw [Bool.and_eq_true, decide_eq_true_eq] at offends
    obtain ⟨spread, present, nonneg⟩ :=
      invariants.spread row member offends.1
    rw [present, Option.any_some, nonneg] at offends
    exact Bool.false_ne_true offends.2
  · simp only [assertGoldVwapPositive]
    rw [List.filter_eq_nil_iff]
    intro row member offends
    rw [Bool.and_eq_true, decide_eq_true_eq] at offends
    obtain ⟨vwap, present, positive⟩ := invariants.vwap row member offends.1
    rw [present, Option.all_some, not_le_of_pos positive] at offends
    exact Bool.false_ne_true offends.2
  · simp only [assertGoldWindowSpan]
    rw [List.filter_eq_nil_iff]
    intro row member
    obtain ⟨size, sizeMember, grain, occupied, rfl⟩ := mem_gold.mp member
    have label : grain.2.1 = size.1 :=
      occupied.elim tradesIn_grain tickersIn_grain
    have demanded : ∀ size ∈ windowSizes,
        demandedSpan size.1 = some (size.2 : Int) := by decide
    have key := joinedBy_key (windows_keepGrain total) grain
      (tradesIn (readTrades bronze) size grain)
      (tickersIn (readTickers bronze) size grain)
    simp [rowOf, goldRow, key, label, demanded size sizeMember,
      windowSpan_eq sizeMember]
  · simp only [assertGoldTradeMetricsRecompute]
    rw [List.filter_eq_nil_iff]
    intro row member offends
    rw [List.any_eq_true] at offends
    obtain ⟨window, windowMember, differs⟩ := offends
    rw [Bool.and_eq_true, decide_eq_true_eq] at differs
    obtain ⟨size, sizeMember, someTrades, rowIs, windowIs⟩ :=
      sameTrades member windowMember differs.1
    have agrees : disagrees row window = false := by
      rw [rowIs, windowIs, disagrees_rowOf someTrades]
      refine ⟨(range size sizeMember row.key someTrades).volume, ?_⟩
      have counted := @rowOf_trades total _
        (tickersIn (readTickers bronze) size row.key) row.key someTrades
      rw [← rowIs] at counted
      obtain ⟨vwap, present, _, finite⟩ := priced row member
        (by rw [counted.2.2]; exact List.length_pos_of_ne_nil someTrades)
      rw [← counted.1, present]
      exact finite
    rw [agrees] at differs
    exact Bool.false_ne_true differs.2

/-- Recomputing the metrics finds out a quotient that is not finite. -/
private theorem priced_of_tests
    (invariants : GoldInvariants (goldTable total bronze))
    (pass : GoldTestsPass total bronze) :
    EveryRowPriced (goldTable total bronze) := by
  intro row member counted
  obtain ⟨vwap, present, positive⟩ := invariants.vwap row member counted
  refine ⟨vwap, present, positive, ?_⟩
  obtain ⟨size, sizeMember, grain, occupied, rfl⟩ := mem_gold.mp member
  have someTrades := trades_of_rowOf occupied counted
  have window : tradeWindow total grain
      (tradesIn (readTrades bronze) size grain) ∈ groupWindows
        SilverTrade.symbol SilverTrade.tsEvent (tradeWindow total)
          (readTrades bronze) :=
    mem_groupWindows.mpr ⟨size, sizeMember, grain, someTrades, rfl⟩
  have agrees : disagrees (rowOf total grain
      (tradesIn (readTrades bronze) size grain)
      (tickersIn (readTickers bronze) size grain))
      (tradeWindow total grain (tradesIn (readTrades bronze) size grain)) =
        false := by
    by_contra differs
    rw [Bool.not_eq_false] at differs
    have passed := List.filter_eq_nil_iff.mp pass.recompute _ member
    apply passed
    rw [List.any_eq_true]
    refine ⟨_, window, ?_⟩
    rw [Bool.and_eq_true, decide_eq_true_eq]
    exact ⟨rowOf_key, differs⟩
  have finite := ((disagrees_rowOf someTrades).mp agrees).2
  rw [(rowOf_trades someTrades).1] at present
  rwa [present] at finite

end Tests

/-- Few rows, with prices and sizes of an ordinary magnitude. -/
structure OrdinaryNumbers (bronze : List BronzeRow) : Prop where
  few : bronze.length < 2 ^ 50
  price : ∀ row ∈ bronze, ∀ price, row.price = some price → 0 < price →
    2 ^ (-200 : Int) ≤ price ∧ price ≤ 2 ^ 200
  size : ∀ row ∈ bronze, ∀ size, row.size = some size → 0 < size →
    2 ^ (-200 : Int) ≤ size ∧ size ≤ 2 ^ 200

section Ordinary

variable {total : List PyFloat → PyFloat} {trades : List SilverTrade}
  {bronze : List BronzeRow}

theorem exists_between {value : PyFloat} {bound : Rat}
    (nonneg : (PyFloat.fin 0).le value = true)
    (atMost : value.le (.fin bound) = true) :
    ∃ number, value = .fin number ∧ 0 ≤ number ∧ number ≤ bound := by
  cases value with
  | nan => cases nonneg
  | inf negative => cases negative <;> simp_all [PyFloat.le]
  | fin number =>
      simp only [PyFloat.le, decide_eq_true_eq] at nonneg atMost
      exact ⟨number, rfl, nonneg, atMost⟩

theorem isDouble_pow (exponent : Nat) (bounded : exponent ≤ 900) :
    IsDouble (2 ^ exponent) := by
  simpa using @isDouble_scaled 1 exponent (by norm_num) bounded

private theorem isFinite_of_le {number : Rat} {exponent : Nat}
    (nonneg : 0 ≤ number) (atMost : number ≤ 2 ^ exponent)
    (bounded : exponent ≤ 900) : (roundToDouble number).isFinite = true := by
  have below := roundToDouble_mono atMost
  rw [isDouble_pow exponent bounded] at below
  obtain ⟨double, same, _⟩ := exists_between (roundToDouble_nonneg nonneg) below
  rw [same]
  rfl

/-- The sum of few numbers of at most `2 ^ exponent`. -/
private theorem sum_of_few (adds : Adds total) {values : List PyFloat}
    (occupied : values ≠ []) (few : values.length < 2 ^ 50)
    (nonneg : ∀ value ∈ values, (PyFloat.fin 0).le value = true)
    {exponent : Nat} (bounded : exponent ≤ 900)
    (atMost : ∀ value ∈ values, value.le (.fin (2 ^ exponent)) = true) :
    ∃ sum, total values = .fin sum ∧ 0 ≤ sum ∧ sum ≤ 2 ^ (50 + exponent) := by
  have summed := adds values occupied
  obtain ⟨sum, same, sumNonneg, sumLe⟩ := exists_between
    (summed.isNonneg nonneg) (summed.le_count bounded atMost (by omega))
  have count : (values.length : Rat) ≤ 2 ^ 50 := by exact_mod_cast few.le
  refine ⟨sum, same, sumNonneg, ?_⟩
  calc sum ≤ values.length * 2 ^ exponent := sumLe
    _ ≤ 2 ^ 50 * 2 ^ exponent := by gcongr
    _ = 2 ^ (50 + exponent) := by rw [← pow_add]

/-- The quotient of ordinary sums is an ordinary number. -/
private theorem quotient_of_ordinary {turnover volume : Rat}
    (positive : 0 < volume) (volumeLow : 2 ^ (-200 : Int) ≤ volume)
    (volumeTop : volume ≤ 2 ^ 250) (turnoverLow : 2 ^ (-400 : Int) ≤ turnover)
    (turnoverTop : turnover ≤ 2 ^ 450) :
    2 ^ (-1075 : Int) < turnover / volume ∧
      (roundToDouble (turnover / volume)).isFinite = true := by
  have turnoverNonneg : 0 ≤ turnover :=
    le_trans (by positivity) turnoverLow
  constructor
  · rw [lt_div_iff₀ positive]
    calc (2 : Rat) ^ (-1075 : Int) * volume
        ≤ 2 ^ (-1075 : Int) * 2 ^ (250 : Int) := by
          rw [show (2 : Rat) ^ (250 : Int) = 2 ^ 250 from zpow_natCast 2 250]
          gcongr
      _ = 2 ^ (-825 : Int) := by rw [← zpow_add₀ (by norm_num)]; rfl
      _ < 2 ^ (-400 : Int) := zpow_lt_zpow_right₀ (by norm_num) (by norm_num)
      _ ≤ turnover := turnoverLow
  · apply isFinite_of_le (div_nonneg turnoverNonneg positive.le) ?_
      (by norm_num : 650 ≤ 900)
    rw [div_le_iff₀ positive]
    calc turnover ≤ 2 ^ 450 := turnoverTop
      _ = 2 ^ (650 : Int) * 2 ^ (-200 : Int) := by
          rw [← zpow_add₀ (by norm_num)]
          exact (zpow_natCast 2 450).symm
      _ = 2 ^ 650 * 2 ^ (-200 : Int) := by
          rw [show (2 : Rat) ^ (650 : Int) = 2 ^ 650 from zpow_natCast 2 650]
      _ ≤ 2 ^ 650 * volume := by gcongr

private theorem staysInRange_of_ordinary (adds : Adds total)
    (someTrades : trades ≠ []) (few : trades.length < 2 ^ 50)
    (prices : ∀ trade ∈ trades,
      2 ^ (-200 : Int) ≤ trade.price ∧ trade.price ≤ 2 ^ 200)
    (sized : ∀ trade ∈ trades, 0 < trade.size →
      2 ^ (-200 : Int) ≤ trade.size ∧ trade.size ≤ 2 ^ 200) :
    StaysInRange total trades := by
  have sizeAtMost : ∀ trade ∈ trades, trade.size ≤ 2 ^ 200 := by
    intro trade member
    by_cases positive : 0 < trade.size
    · exact (sized trade member positive).2
    · exact (not_lt.mp positive).trans (by positivity)
  have sizesAtMost : ∀ value ∈ sizes trades,
      value.le (.fin (2 ^ 200)) = true := by
    simp only [sizes, List.forall_mem_map, PyFloat.le, decide_eq_true_eq]
    exact sizeAtMost
  have productsAtMost : ∀ value ∈ products trades,
      value.le (.fin (2 ^ 400)) = true := by
    simp only [products, List.forall_mem_map]
    intro trade member
    have bound : trade.price * trade.size ≤ 2 ^ 400 := by
      have both := mul_le_mul (prices trade member).2
        (sizeAtMost trade member) trade.sizeNonnegative (by positivity)
      rwa [← pow_add] at both
    have rounded := roundToDouble_mono bound
    rwa [isDouble_pow 400 (by norm_num)] at rounded
  obtain ⟨volume, volumeIs, _, volumeTop⟩ := sum_of_few adds
    (by simpa [sizes] using someTrades) (by simpa [sizes] using few)
    sizes_nonneg (by norm_num) sizesAtMost
  obtain ⟨turnover, turnoverIs, _, turnoverTop⟩ := sum_of_few adds
    (by simpa [products] using someTrades) (by simpa [products] using few)
    products_nonneg (by norm_num) productsAtMost
  refine ⟨by rw [volumeIs]; rfl, by rw [turnoverIs]; rfl, ?_⟩
  intro turnover' volume' sameTurnover sameVolume positive
  rw [turnoverIs] at sameTurnover
  rw [volumeIs] at sameVolume
  cases sameTurnover
  cases sameVolume
  obtain ⟨trade, member, size⟩ :=
    sized_of_volume adds someTrades volumeIs positive
  have sizeLow := (sized trade member size).1
  have volumeLow : 2 ^ (-200 : Int) ≤ volume :=
    size_le_volume adds volumeIs (by decide +kernel) member sizeLow
  have turnoverLow : 2 ^ (-400 : Int) ≤ turnover := by
    apply product_le_turnover adds turnoverIs (by decide +kernel) member
    calc (2 : Rat) ^ (-400 : Int) = 2 ^ (-200 : Int) * 2 ^ (-200 : Int) := by
          rw [← zpow_add₀ (by norm_num)]
          norm_num
      _ ≤ trade.price * trade.size :=
          mul_le_mul (prices trade member).1 sizeLow (by positivity)
            trade.pricePositive.le
  exact quotient_of_ordinary positive volumeLow volumeTop turnoverLow
    turnoverTop

theorem mem_readTrades {trade : SilverTrade}
    (member : trade ∈ readTrades bronze) :
    ∃ row ∈ bronze, row.price = some trade.price ∧
      row.size = some trade.size := by
  obtain ⟨silver, silverMember, rfl⟩ := List.mem_map.mp member
  obtain ⟨row, rowMember, kept⟩ :=
    mem_validTrades.mp (silverTrades_subset silverMember)
  obtain ⟨_, _, _, _, price, size, _⟩ := SilverTrade.ofBronze?_eq_some kept
  exact ⟨row, rowMember, price, size⟩

private theorem readTrades_length_le (bronze : List BronzeRow) :
    (readTrades bronze).length ≤ bronze.length := by
  rw [readTrades, List.length_map]
  have kept : (silverTrades bronze).length ≤ (validTrades bronze).length :=
    ((rowNumberOne_nodup _ _ _).subperm
      (fun _ member => silverTrades_subset member)).length_le
  exact kept.trans (List.length_filterMap_le _ _)

private theorem everyWindowInRange_of_ordinary (adds : Adds total)
    (ordinary : OrdinaryNumbers bronze) :
    EveryWindowInRange total (readTrades bronze) := by
  intro size _ grain someTrades
  have source : ∀ trade ∈ tradesIn (readTrades bronze) size grain,
      ∃ row ∈ bronze, row.price = some trade.price ∧
        row.size = some trade.size :=
    fun trade member => mem_readTrades (mem_inWindow.mp member).1
  have few : (tradesIn (readTrades bronze) size grain).length < 2 ^ 50 :=
    ((List.length_filter_le _ _).trans (readTrades_length_le bronze)).trans_lt
      ordinary.few
  apply staysInRange_of_ordinary adds someTrades few
  · intro trade member
    obtain ⟨row, rowMember, price, _⟩ := source trade member
    exact ordinary.price row rowMember _ price trade.pricePositive
  · intro trade member positive
    obtain ⟨row, rowMember, _, size⟩ := source trade member
    exact ordinary.size row rowMember _ size positive

end Ordinary

/-- A column added up from its first row on. -/
def inOrder : List PyFloat → PyFloat
  | [] => .fin 0
  | value :: rest => rest.foldl (fun sum term => sum + term) value

private theorem sumOf_foldl {earlier : List PyFloat} {sum : PyFloat}
    (summed : SumOf earlier sum) (rest : List PyFloat) :
    SumOf (earlier ++ rest) (rest.foldl (fun sum term => sum + term) sum) := by
  induction rest generalizing earlier sum with
  | nil => simpa using summed
  | cons value rest induction =>
      have next := induction (summed.add (.one value) (.refl _))
      rwa [List.append_assoc] at next

private theorem inOrder_adds : Adds inOrder := by
  intro values someValues
  cases values with
  | nil => exact absurd rfl someValues
  | cons value rest => exact sumOf_foldl (.one value) rest

end Double

/-- Gold satisfies every invariant, counts no violation and passes its tests
exactly when no symbol has a minute whose silver trades all have size zero and
no window leaves the range of the doubles, which ordinary numbers do not. -/
theorem gold_invariants_iff {total : List PyFloat → PyFloat}
    (adds : Double.Adds total) (bronze : List BronzeRow)
    (doubles : ∀ row ∈ bronze, Double.HoldsDoubles row) :
    ((Double.GoldInvariants (Double.goldTable total bronze) ∧
        Double.goldViolations (Double.goldTable total bronze) = 0 ∧
        Double.GoldTestsPass total bronze) ↔
      EveryMinuteHasVolume (Double.readTrades bronze) ∧
        Double.EveryWindowInRange total (Double.readTrades bronze)) ∧
    (Double.OrdinaryNumbers bronze →
      Double.EveryWindowInRange total (Double.readTrades bronze)) := by
  have sizes : ∀ trade ∈ Double.readTrades bronze, IsDouble trade.size := by
    intro trade member
    obtain ⟨row, rowMember, _, size⟩ := Double.mem_readTrades member
    exact (doubles row rowMember).size _ size
  have priced : Double.EveryRowPriced (Double.goldTable total bronze) ↔ _ :=
    Double.everyRowPriced_iff adds sizes
  refine ⟨?_, Double.everyWindowInRange_of_ordinary adds⟩
  rw [← priced]
  constructor
  · rintro ⟨invariants, _, pass⟩
    exact Double.priced_of_tests invariants pass
  · intro everyRow
    have invariants : Double.GoldInvariants (Double.goldTable total bronze) :=
      Double.goldInvariants_of_priced adds everyRow
    exact ⟨invariants, Double.goldViolations_eq_zero invariants,
      Double.goldTestsPass_of_priced invariants everyRow
        (priced.mp everyRow).2⟩

/-- A trade of one unit passes. -/
theorem gold_invariants_sample :
    Double.GoldTestsPass Double.inOrder [sampleTrade "a" 10 100 1] := by
  have doubles : ∀ row ∈ [sampleTrade "a" 10 100 1],
      Double.HoldsDoubles row := by
    intro row member
    rw [List.mem_singleton] at member
    subst member
    constructor <;> simp [sampleTrade] <;> decide +kernel
  have ordinary : Double.OrdinaryNumbers [sampleTrade "a" 10 100 1] := by
    constructor
    · simp
    · simp [sampleTrade]
      norm_num
    · simp [sampleTrade]
      norm_num
  obtain ⟨holds, inRange⟩ :=
    gold_invariants_iff Double.inOrder_adds [sampleTrade "a" 10 100 1] doubles
  have volume : EveryMinuteHasVolume
      (Double.readTrades [sampleTrade "a" 10 100 1]) := by
    unfold EveryMinuteHasVolume
    decide +kernel
  exact (holds.mpr ⟨volume, inRange ordinary⟩).2.2

/-- A single trade of size zero meets the contract, and its window counts as a
violation and fails the vwap test. -/
theorem gold_invariants_zero_size :
    (∀ row ∈ [sampleTrade "a" 10 100 0], MeetsRules row.ofJson) ∧
      ¬ Double.GoldInvariants
        (Double.goldTable Double.inOrder [sampleTrade "a" 10 100 0]) ∧
      Double.goldViolations
        (Double.goldTable Double.inOrder [sampleTrade "a" 10 100 0]) = 2 ∧
      Double.assertGoldVwapPositive
        (Double.goldTable Double.inOrder [sampleTrade "a" 10 100 0]) ≠ [] := by
  refine ⟨?_, ?_, by decide +kernel, by decide +kernel⟩
  · intro row member
    rw [List.mem_singleton] at member
    subst member
    constructor <;> simp [sampleTrade, MarketEvent.ofJson, PyFloat.lt,
      PyFloat.le, isPresent, PyFloat.isNaN]
  · intro invariants
    have none := Double.goldViolations_eq_zero invariants
    have some : Double.goldViolations (Double.goldTable Double.inOrder
        [sampleTrade "a" 10 100 0]) = 2 := by decide +kernel
    rw [some] at none
    cases none

end TickStream
