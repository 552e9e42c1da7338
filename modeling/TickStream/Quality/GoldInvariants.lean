import Mathlib.Tactic.Linarith
import TickStream.Dbt.GoldReference
import TickStream.Library.Text

/-!
# Window keys and windows without volume

The printed key of a gold row determines its window.  A window whose trades all
have size zero has trades but no vwap.
-/

namespace TickStream

open Python Library

theorem windowKey_toList (grain : Grain) :
    (windowKey grain).toList =
      (grain.1.toList ++ '|' :: grain.2.1.toList) ++
        '|' :: (toString (grain.2.2 / microsPerSecond)).toList := by
  have bar : "|".toList = ['|'] := rfl
  simp only [windowKey, String.toList_append, bar, List.append_assoc,
    List.nil_append, List.cons_append]

/-- The printed key determines the window. -/
private theorem windowKey_injective {left right : Grain}
    (leftLabel : '|' ∉ left.2.1.toList) (rightLabel : '|' ∉ right.2.1.toList)
    (leftWhole : microsPerSecond ∣ left.2.2)
    (rightWhole : microsPerSecond ∣ right.2.2)
    (same : windowKey left = windowKey right) : left = right := by
  have chars := congrArg String.toList same
  rw [windowKey_toList, windowKey_toList] at chars
  obtain ⟨sameHead, samePrinted⟩ :=
    append_sep_inj (toString_int_free _) (toString_int_free _) chars
  obtain ⟨sameSymbol, sameLabel⟩ :=
    append_sep_inj leftLabel rightLabel sameHead
  have sameEpoch := toString_int_injective samePrinted
  have sameStart : left.2.2 = right.2.2 := by
    rw [← Int.ediv_mul_cancel leftWhole, ← Int.ediv_mul_cancel rightWhole,
      sameEpoch]
  exact Prod.ext (String.toList_injective sameSymbol)
    (Prod.ext (String.toList_injective sameLabel) sameStart)

section Rows

variable {F : Type} [Zero F]
  {trade : Grain → List SilverTrade → TradeWindow F}
  {ticker : Grain → List SilverTicker → TickerWindow F}
  {trades : List SilverTrade} {tickers : List SilverTicker}

/-- The label and start of a gold row. -/
theorem joinAggregates_grain (keeps : KeepsGrain trade ticker)
    {row : GoldRow F}
    (member : row ∈ joinAggregates trade ticker trades tickers) :
    (∃ size ∈ windowSizes, row.windowSize = size.1) ∧
      microsPerSecond ∣ row.windowStart ∧
        row.windowKey = windowKey row.key := by
  obtain ⟨size, sizeMember, grain, occupied, same⟩ :=
    (mem_joinAggregates keeps).mp member
  have key := joinedBy_key keeps grain (tradesIn trades size grain)
    (tickersIn tickers size grain)
  have label : grain.2.1 = size.1 :=
    occupied.elim tradesIn_grain tickersIn_grain
  have whole : microsPerSecond ∣ grain.2.2 := by
    rcases occupied with someTrades | someTickers
    · obtain ⟨trade, present⟩ := List.exists_mem_of_ne_nil _ someTrades
      rw [← (mem_inWindow.mp present).2]
      exact ⟨_, mul_comm _ _⟩
    · obtain ⟨ticker, present⟩ := List.exists_mem_of_ne_nil _ someTickers
      rw [← (mem_inWindow.mp present).2]
      exact ⟨_, mul_comm _ _⟩
  subst same
  refine ⟨⟨size, sizeMember, ?_⟩, ?_, rfl⟩
  · simp only [goldRow, key, label]
  · simpa only [goldRow, key] using whole

/-- No two gold rows share a printed key. -/
theorem joinAggregates_windowKeys_nodup (keeps : KeepsGrain trade ticker)
    (trades : List SilverTrade) (tickers : List SilverTicker) :
    ((joinAggregates trade ticker trades tickers).map
      GoldRow.windowKey).Nodup := by
  have labelFree : ∀ size ∈ windowSizes, '|' ∉ size.1.toList := by decide
  have keys := joinAggregates_keys_nodup keeps trades tickers
  have distinct := List.Nodup.of_map _ keys
  apply List.Nodup.map_on ?_ distinct
  intro left leftMember right rightMember same
  obtain ⟨⟨leftSize, leftSizeMember, leftLabel⟩, leftWhole, leftKey⟩ :=
    joinAggregates_grain keeps leftMember
  obtain ⟨⟨rightSize, rightSizeMember, rightLabel⟩, rightWhole, rightKey⟩ :=
    joinAggregates_grain keeps rightMember
  rw [leftKey, rightKey] at same
  have sameGrain : left.key = right.key := by
    apply windowKey_injective _ _ leftWhole rightWhole same
    · change '|' ∉ left.windowSize.toList
      rw [leftLabel]
      exact labelFree leftSize leftSizeMember
    · change '|' ∉ right.windowSize.toList
      rw [rightLabel]
      exact labelFree rightSize rightSizeMember
  exact List.inj_on_of_nodup_map keys leftMember rightMember sameGrain

end Rows

theorem sum_pos_iff {α : Type} {rows : List α} {column : α → Rat}
    (nonneg : ∀ row ∈ rows, 0 ≤ column row) :
    0 < (rows.map column).sum ↔ ∃ row ∈ rows, 0 < column row := by
  induction rows with
  | nil => simp
  | cons head rest induction =>
      have headNonneg := nonneg head (by simp)
      have restNonneg : ∀ row ∈ rest, 0 ≤ column row :=
        fun row member => nonneg row (by simp [member])
      have sumNonneg : 0 ≤ (rest.map column).sum := by
        apply List.sum_nonneg
        intro value member
        obtain ⟨row, rowMember, same⟩ := List.mem_map.mp member
        rw [← same]
        exact restNonneg row rowMember
      simp only [List.map_cons, List.sum_cons, List.mem_cons,
        exists_eq_or_imp, ← induction restNonneg]
      constructor
      · intro positive
        by_contra neither
        rw [not_or, not_lt, not_lt] at neither
        linarith
      · intro positive
        rcases positive with positive | positive
        · linarith
        · linarith

/-- A window's quotient is null exactly without volume, and positive with
it. -/
theorem goldMetrics_vwap_iff (grain : Grain) (trades : List SilverTrade)
    (tickers : List SilverTicker) :
    (∃ vwap, (goldMetrics grain trades tickers).vwap = some vwap ∧ 0 < vwap) ↔
      ∃ trade ∈ trades, 0 < trade.size := by
  have volume : 0 < (accOf trades tickers).vol ↔
      ∃ trade ∈ trades, 0 < trade.size :=
    sum_pos_iff (fun trade _ => trade.sizeNonnegative)
  have turnover : 0 < (accOf trades tickers).pv ↔
      ∃ trade ∈ trades, 0 < trade.price * trade.size :=
    sum_pos_iff (fun trade _ =>
      mul_nonneg (le_of_lt trade.pricePositive) trade.sizeNonnegative)
  rw [← volume]
  constructor
  · intro priced
    rcases priced with ⟨vwap, present, _⟩
    by_contra noVolume
    simp [goldMetrics, windowRow, noVolume] at present
  · intro positive
    obtain ⟨trade, member, size⟩ := volume.mp positive
    have turnoverPositive :=
      turnover.mpr ⟨trade, member, mul_pos trade.pricePositive size⟩
    refine ⟨(accOf trades tickers).pv / (accOf trades tickers).vol, ?_,
      div_pos turnoverPositive positive⟩
    simp only [goldMetrics, windowRow, positive, if_true]

/-- Every minute in which a symbol has a silver trade has one of positive
size. -/
def EveryMinuteHasVolume (trades : List SilverTrade) : Prop :=
  ∀ trade ∈ trades, ∃ other ∈ trades, other.symbol = trade.symbol ∧
    windowStart other.tsEvent 60 = windowStart trade.tsEvent 60 ∧
      0 < other.size

section Invariants

variable {trades : List SilverTrade} {tickers : List SilverTicker}

/-- Windows are made of minutes. -/
theorem everyMinuteHasVolume_iff :
    EveryMinuteHasVolume trades ↔
      ∀ size ∈ windowSizes, ∀ grain, tradesIn trades size grain ≠ [] →
        ∃ trade ∈ tradesIn trades size grain, 0 < trade.size := by
  constructor
  · intro volume size sizeMember grain someTrades
    obtain ⟨trade, inside⟩ := List.exists_mem_of_ne_nil _ someTrades
    obtain ⟨tradeMember, sameGrain⟩ := mem_inWindow.mp inside
    obtain ⟨other, otherMember, sameSymbol, sameMinute, positive⟩ :=
      volume trade tradeMember
    refine ⟨other, mem_inWindow.mpr ⟨otherMember, ?_⟩, positive⟩
    rw [← sameGrain]
    simp only [grainOf]
    rw [sameSymbol, windowStart_of_minute sameMinute sizeMember]
  · intro windows trade member
    let minute : String × Nat := ("1m", 60)
    let grain := grainOf SilverTrade.symbol SilverTrade.tsEvent minute trade
    have inside : trade ∈ tradesIn trades minute grain :=
      mem_inWindow.mpr ⟨member, rfl⟩
    obtain ⟨other, otherInside, size⟩ :=
      windows minute (by decide) grain (List.ne_nil_of_mem inside)
    obtain ⟨otherMember, sameGrain⟩ := mem_inWindow.mp otherInside
    simp only [grain, grainOf, Prod.mk.injEq] at sameGrain
    exact ⟨other, otherMember, sameGrain.1, sameGrain.2.2, size⟩

/-- The vwap invariant holds exactly when every minute with trades has
volume. -/
theorem joinWindows_vwap_iff :
    (∀ row ∈ joinWindows trades tickers, 0 < row.tradeCount →
      ∃ vwap, row.vwap = some vwap ∧ 0 < vwap) ↔
        EveryMinuteHasVolume trades := by
  rw [everyMinuteHasVolume_iff]
  constructor
  · intro positive size sizeMember grain someTrades
    have rowMember : goldRow (joinedOf grain (tradesIn trades size grain)
        (tickersIn tickers size grain)) ∈ joinWindows trades tickers :=
      mem_joinWindows.mpr ⟨size, sizeMember, grain, Or.inl someTrades, rfl⟩
    have vwap := positive _ rowMember
    rw [goldRow_metrics, goldMetrics_vwap_iff] at vwap
    exact vwap (List.length_pos_of_ne_nil someTrades)
  · intro volume row member counted
    obtain ⟨size, sizeMember, grain, _, metrics⟩ := joinWindows_metrics member
    rw [metrics] at counted ⊢
    rw [goldMetrics_vwap_iff]
    exact volume size sizeMember grain
      (List.ne_nil_of_length_pos counted)

end Invariants

end TickStream
