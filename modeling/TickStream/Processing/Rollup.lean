import Mathlib.Algebra.Order.Ring.Rat
import TickStream.Processing.Accumulator
import TickStream.Processing.Doubles

/-!
# Rolling narrow windows up into wide ones

Buckets of a width nest in the buckets of its multiples, so the accumulator of
a wide window is the sum of the accumulators of the narrow windows inside it.
Volumes and counts of the rows are then sums, and so are the averages once
they are weighted again.  Sums of doubles are not regrouped that way, and a
wide window can leave the calendar where the narrow ones do not.
-/

namespace TickStream

open Python Library

/-- Sums over nothing are zero. -/
structure Acc.Consistent (acc : Acc Rat) : Prop where
  volNonneg : 0 ≤ acc.vol
  noVolume : acc.vol = 0 → acc.pv = 0
  noTickers : acc.tickers = 0 → acc.spreadSum = 0 ∧ acc.midSum = 0

theorem Acc.consistent_of {event : MarketEvent Rat}
    (sizes : ∀ size, event.size = some size → 0 ≤ size) :
    (Acc.of event).Consistent := by
  simp only [of, add, empty]
  cases event.eventType with
  | trade =>
      cases event.price with
      | none => exact ⟨le_rfl, fun _ => rfl, fun _ => ⟨rfl, rfl⟩⟩
      | some price =>
          cases found : event.size with
          | none => exact ⟨le_rfl, fun _ => rfl, fun _ => ⟨rfl, rfl⟩⟩
          | some size =>
              have nonneg := sizes size found
              refine ⟨by simpa using nonneg, ?_, fun _ => ⟨rfl, rfl⟩⟩
              intro noVolume
              simp only [zero_add] at noVolume ⊢
              rw [noVolume, mul_zero]
  | ticker =>
      cases event.bestBid with
      | none => exact ⟨le_rfl, fun _ => rfl, fun _ => ⟨rfl, rfl⟩⟩
      | some bid =>
          cases event.bestAsk with
          | none => exact ⟨le_rfl, fun _ => rfl, fun _ => ⟨rfl, rfl⟩⟩
          | some ask =>
              refine ⟨le_rfl, fun _ => rfl, ?_⟩
              intro noTickers
              simp at noTickers

theorem Acc.Consistent.add {left right : Acc Rat}
    (leftHolds : left.Consistent) (rightHolds : right.Consistent) :
    (left + right).Consistent := by
  obtain ⟨leftNonneg, leftVolume, leftTickers⟩ := leftHolds
  obtain ⟨rightNonneg, rightVolume, rightTickers⟩ := rightHolds
  rw [add_def]
  refine ⟨add_nonneg leftNonneg rightNonneg, ?_, ?_⟩
  · intro noVolume
    obtain ⟨leftZero, rightZero⟩ :=
      (add_eq_zero_iff_of_nonneg leftNonneg rightNonneg).mp noVolume
    simp only [leftVolume leftZero, rightVolume rightZero, add_zero]
  · intro noTickers
    obtain ⟨leftZero, rightZero⟩ := Nat.add_eq_zero_iff.mp noTickers
    simp only [leftTickers leftZero, rightTickers rightZero, add_zero,
      and_self]

theorem Acc.consistent_direct {events : List (MarketEvent Rat)}
    (sizes : SizesNonneg events) :
    (Acc.direct events).Consistent := by
  induction events with
  | nil => exact ⟨le_rfl, fun _ => rfl, fun _ => ⟨rfl, rfl⟩⟩
  | cons event rest induction =>
      rw [← of_add_direct]
      exact (consistent_of (sizes event (by simp))).add
        (induction (fun other member => sizes other (by simp [member])))

section Row

variable {windowSeconds : Nat} {windowLabel : String}
  {window : String × Instant} {acc : Acc Rat}

theorem windowRow_pv (consistent : acc.Consistent) :
    (windowRow windowSeconds windowLabel (window, acc)).vwap.getD 0 *
        (windowRow windowSeconds windowLabel (window, acc)).tradeVolume =
      acc.pv := by
  by_cases zero : acc.vol = 0
  · simp [windowRow, zero, consistent.noVolume zero]
  · have positive := lt_of_le_of_ne consistent.volNonneg (Ne.symm zero)
    simp only [windowRow, if_pos positive, Option.getD_some]
    exact div_mul_cancel₀ acc.pv zero

private theorem windowRow_vwap_none (consistent : acc.Consistent) :
    (windowRow windowSeconds windowLabel (window, acc)).vwap = none ↔
      acc.vol = 0 := by
  simp only [windowRow, ite_eq_right_iff, reduceCtorEq, imp_false, not_lt]
  exact ⟨fun none => le_antisymm none consistent.volNonneg, le_of_eq⟩

theorem ite_mean_mul {count : Nat} {total : Rat}
    (empty : count = 0 → total = 0) :
    (if 0 < count then some (total / (count : Rat)) else none).getD 0 *
      count = total := by
  by_cases zero : count = 0
  · simp [zero, empty zero]
  · have positive : 0 < count := Nat.pos_of_ne_zero zero
    simp only [if_pos positive, Option.getD_some]
    exact div_mul_cancel₀ total (Nat.cast_ne_zero.mpr zero)

theorem windowRow_spreadSum (consistent : acc.Consistent) :
    (windowRow windowSeconds windowLabel (window, acc)).avgSpread.getD 0 *
        (windowRow windowSeconds windowLabel (window, acc)).tickerCount =
      acc.spreadSum :=
  ite_mean_mul (fun none => (consistent.noTickers none).1)

theorem windowRow_midSum (consistent : acc.Consistent) :
    (windowRow windowSeconds windowLabel (window, acc)).avgMid.getD 0 *
        (windowRow windowSeconds windowLabel (window, acc)).tickerCount =
      acc.midSum :=
  ite_mean_mul (fun none => (consistent.noTickers none).2)

end Row

theorem windowBounds_nested (tsEvent : Instant) {windowSeconds : Nat}
    (width : 0 < windowSeconds) (factor : Nat) :
    (windowBounds (windowBounds tsEvent windowSeconds).1
        (factor * windowSeconds)).1 =
      (windowBounds tsEvent (factor * windowSeconds)).1 := by
  have positive : (0 : Int) < windowSeconds := by exact_mod_cast width
  simp only [windowBounds, Int.mul_tdiv_cancel _ microsPerSecond_ne_zero]
  have nested : ∀ epoch : Int,
      epoch / windowSeconds * windowSeconds /
          ((factor * windowSeconds : Nat) : Int) =
        epoch / ((factor * windowSeconds : Nat) : Int) := by
    intro epoch
    push_cast
    rw [Int.mul_ediv_mul_of_pos_left _ _ positive, mul_comm (factor : Int),
      Int.ediv_ediv_of_nonneg positive.le]
  rw [nested]

/-- The wide window around a narrow one. -/
def wideWindow (wideSeconds : Nat) (window : String × Instant) :
    String × Instant :=
  (window.1, (windowBounds window.2 wideSeconds).1)

private theorem bucket_nested (event : MarketEvent Rat) {windowSeconds : Nat}
    (width : 0 < windowSeconds) (factor : Nat) :
    bucket (factor * windowSeconds) event =
      wideWindow (factor * windowSeconds) (bucket windowSeconds event) := by
  simp only [bucket, wideWindow, windowBounds_nested event.tsEvent width]

/-- Which whole seconds lie in the window that starts at a given time. -/
theorem windowBounds_fst_eq_iff {windowSeconds : Nat}
    (width : 0 < windowSeconds) {instant : Instant}
    (whole : microsPerSecond ∣ instant) (start : Instant) :
    (windowBounds instant windowSeconds).1 = start ↔
      (windowSeconds * microsPerSecond : Int) ∣ start ∧ start ≤ instant ∧
        instant < start + windowSeconds * microsPerSecond := by
  obtain ⟨second, rfl⟩ := whole
  have seconds : microsPerSecond ≠ 0 := microsPerSecond_ne_zero
  have micros : 0 < microsPerSecond := microsPerSecond_pos
  have positive : (0 : Int) < windowSeconds := by exact_mod_cast width
  have bounds : (windowBounds (microsPerSecond * second) windowSeconds).1 =
      windowSeconds * microsPerSecond * (second / windowSeconds) := by
    simp only [windowBounds, Int.mul_tdiv_cancel_left _ seconds]
    ring
  rw [bounds]
  constructor
  · intro same
    subst same
    have below : windowSeconds * (second / windowSeconds) ≤ second :=
      Int.mul_ediv_self_le positive.ne'
    have above : second <
        windowSeconds * (second / windowSeconds) + windowSeconds :=
      Int.lt_mul_ediv_self_add positive
    refine ⟨⟨_, rfl⟩, ?_, ?_⟩
    · nlinarith
    · nlinarith
  · intro inside
    rcases inside with ⟨⟨index, rfl⟩, below, above⟩
    have lower : index ≤ second / windowSeconds := by
      rw [Int.le_ediv_iff_mul_le positive]
      nlinarith
    have upper : second / windowSeconds < index + 1 := by
      rw [Int.ediv_lt_iff_lt_mul positive]
      nlinarith
    have same : second / (windowSeconds : Int) = index := by omega
    rw [same]

section Spans

variable {F : Type} [Zero F] [Add F] [Mul F] [NatCast F]

/-- The rows of one symbol that start in a span of time. -/
def rowsWithin (rows : List (WindowMetrics F)) (symbol : String)
    (start : Instant) (seconds : Nat) : List (WindowMetrics F) :=
  rows.filter (fun row => row.symbol = symbol ∧ start ≤ row.windowStart ∧
    row.windowStart < start + seconds * microsPerSecond)

/-- A wide row is made of the narrow rows inside it: volumes and counts add
up, and so do the averages weighted by what they were taken over. -/
structure RollsUp (inner : List (WindowMetrics F))
    (row : WindowMetrics F) : Prop where
  tradeVolume : row.tradeVolume = (inner.map WindowMetrics.tradeVolume).sum
  tradeCount : row.tradeCount = (inner.map WindowMetrics.tradeCount).sum
  tickerCount : row.tickerCount = (inner.map WindowMetrics.tickerCount).sum
  eventCount : row.eventCount = (inner.map WindowMetrics.eventCount).sum
  vwap : row.vwap.getD 0 * row.tradeVolume =
    (inner.map (fun narrow => narrow.vwap.getD 0 * narrow.tradeVolume)).sum
  avgSpread : row.avgSpread.getD 0 * row.tickerCount =
    (inner.map (fun narrow =>
      narrow.avgSpread.getD 0 * (narrow.tickerCount : F))).sum
  avgMid : row.avgMid.getD 0 * row.tickerCount =
    (inner.map (fun narrow =>
      narrow.avgMid.getD 0 * (narrow.tickerCount : F))).sum
  noVolume : row.vwap = none ↔
    (inner.map WindowMetrics.tradeVolume).sum = 0
  noSpread : row.avgSpread = none ↔
    (inner.map WindowMetrics.tickerCount).sum = 0
  noMid : row.avgMid = none ↔
    (inner.map WindowMetrics.tickerCount).sum = 0

end Spans

section Wide

variable {events : List (MarketEvent Rat)} {windowSeconds factor : Nat}
  {narrowLabel wideLabel : String}

/-- The narrow accumulators inside a wide window. -/
def accsWithin (events : List (MarketEvent Rat)) (windowSeconds : Nat)
    (factor : Nat) (window : String × Instant) :
    List ((String × Instant) × Acc Rat) :=
  (foldKeyed (bucket windowSeconds) Acc.add Acc.empty events).entries.filter
    (fun entry => wideWindow (factor * windowSeconds) entry.1 = window)

private theorem accsWithin_consistent
    (sizes : SizesNonneg events)
    {window : String × Instant} {entry : (String × Instant) × Acc Rat}
    (member : entry ∈ accsWithin events windowSeconds factor window) :
    entry.2.Consistent := by
  obtain ⟨narrow, acc⟩ := entry
  obtain ⟨_, sums⟩ := mem_buckets.mp (List.mem_of_mem_filter member)
  rw [sums]
  apply Acc.consistent_direct
  intro event eventMember
  exact sizes event ((mem_itemsAt _).mp eventMember).1

/-- The accumulator of a wide window is the sum of those inside it. -/
private theorem direct_wide (events : List (MarketEvent Rat)) (factor : Nat)
    (width : 0 < windowSeconds) (window : String × Instant) :
    Acc.direct (itemsAt (bucket (factor * windowSeconds)) events window) =
      ((accsWithin events windowSeconds factor window).map Prod.snd).sum := by
  have nested : bucket (factor * windowSeconds) =
      fun event : MarketEvent Rat =>
        wideWindow (factor * windowSeconds) (bucket windowSeconds event) := by
    funext event
    exact bucket_nested event width factor
  rw [← Acc.sum_of, nested, accsWithin, foldKeyed_add_eq]
  exact totalAt_coarsen (bucket windowSeconds) Acc.of
    (wideWindow (factor * windowSeconds)) events window

/-- A window start is a whole second. -/
theorem whole_windowBounds (tsEvent : Instant) (windowSeconds : Nat) :
    microsPerSecond ∣ (windowBounds tsEvent windowSeconds).1 :=
  Dvd.intro_left _ rfl

/-- The rows inside a wide window come from the accumulators inside it. -/
private theorem rowsWithin_perm (wide : 0 < factor * windowSeconds)
    {event : MarketEvent Rat} :
    (rowsWithin (computeWindows events windowSeconds narrowLabel)
        event.symbol
        (windowBounds event.tsEvent (factor * windowSeconds)).1
        (factor * windowSeconds)).Perm
      ((accsWithin events windowSeconds factor
        (bucket (factor * windowSeconds) event)).map
          (windowRow windowSeconds narrowLabel)) := by
  refine ((computeWindows_perm _ _ _).filter _).trans ?_
  rw [List.filter_map]
  apply List.Perm.of_eq
  congr 1
  apply List.filter_congr
  intro entry member
  obtain ⟨⟨symbol, start⟩, acc⟩ := entry
  obtain ⟨⟨other, _, sameBucket⟩, _⟩ := mem_buckets.mp member
  have whole : microsPerSecond ∣ start := by
    have sameStart : (windowBounds other.tsEvent windowSeconds).1 = start :=
      congrArg Prod.snd sameBucket
    rw [← sameStart]
    exact whole_windowBounds other.tsEvent windowSeconds
  have onGrid : ((factor * windowSeconds : Nat) * microsPerSecond : Int) ∣
      (windowBounds event.tsEvent (factor * windowSeconds)).1 := by
    have self := (windowBounds_fst_eq_iff wide
      (whole_windowBounds event.tsEvent (factor * windowSeconds)) _).mp
        (congrArg Prod.fst (windowBounds_start event.tsEvent _))
    exact self.1
  have inside := windowBounds_fst_eq_iff wide whole
    (windowBounds event.tsEvent (factor * windowSeconds)).1
  simp only [onGrid, true_and] at inside
  apply decide_eq_decide.mpr
  simp only [windowRow, wideWindow, bucket, Prod.mk.injEq, inside]

/-- A sum over the narrow rows inside a wide window, read off their
accumulators. -/
theorem sum_rowsWithin (narrowLabel : String) {β : Type} [AddCommMonoid β]
    (sizes : SizesNonneg events)
    (wide : 0 < factor * windowSeconds) (event : MarketEvent Rat)
    (field : WindowMetrics Rat → β) (part : Acc Rat → β)
    (same : ∀ window acc, acc.Consistent →
      field (windowRow windowSeconds narrowLabel (window, acc)) = part acc) :
    ((rowsWithin (computeWindows events windowSeconds narrowLabel)
        event.symbol
        (windowBounds event.tsEvent (factor * windowSeconds)).1
        (factor * windowSeconds)).map field).sum =
      (((accsWithin events windowSeconds factor
        (bucket (factor * windowSeconds) event)).map Prod.snd).map
          part).sum := by
  rw [((rowsWithin_perm wide).map field).sum_eq, List.map_map, List.map_map]
  congr 1
  apply List.map_congr_left
  intro entry member
  exact same entry.1 entry.2 (accsWithin_consistent sizes member)

/-- The row of a wide window rolls up the narrow rows inside it. -/
private theorem windowRow_rollsUp
    (sizes : SizesNonneg events)
    (width : 0 < windowSeconds) (multiple : 0 < factor)
    (event : MarketEvent Rat) :
    RollsUp
      (rowsWithin (computeWindows events windowSeconds narrowLabel)
        event.symbol
        (windowBounds event.tsEvent (factor * windowSeconds)).1
        (factor * windowSeconds))
      (windowRow (factor * windowSeconds) wideLabel
        (bucket (factor * windowSeconds) event,
          Acc.direct (itemsAt (bucket (factor * windowSeconds)) events
            (bucket (factor * windowSeconds) event)))) := by
  have wide : 0 < factor * windowSeconds := Nat.mul_pos multiple width
  have consistent : (Acc.direct (itemsAt (bucket (factor * windowSeconds))
      events (bucket (factor * windowSeconds) event))).Consistent := by
    apply Acc.consistent_direct
    intro other member
    exact sizes other ((mem_itemsAt _).mp member).1
  have total := direct_wide events factor width
    (bucket (factor * windowSeconds) event)
  rw [Acc.sum_eq] at total
  have volume := sum_rowsWithin narrowLabel sizes wide event
    WindowMetrics.tradeVolume Acc.vol (fun _ _ _ => rfl)
  have tickers := sum_rowsWithin narrowLabel sizes wide event
    WindowMetrics.tickerCount Acc.tickers (fun _ _ _ => rfl)
  have trades := sum_rowsWithin narrowLabel sizes wide event
    WindowMetrics.tradeCount Acc.trades (fun _ _ _ => rfl)
  have counts := sum_rowsWithin narrowLabel sizes wide event
    WindowMetrics.eventCount (fun acc => acc.trades + acc.tickers)
    (fun _ _ _ => rfl)
  have pv := sum_rowsWithin narrowLabel sizes wide event
    (fun row => row.vwap.getD 0 * row.tradeVolume) Acc.pv
    (fun _ _ holds => windowRow_pv holds)
  have spread := sum_rowsWithin narrowLabel sizes wide event
    (fun row => row.avgSpread.getD 0 * (row.tickerCount : Rat)) Acc.spreadSum
    (fun _ _ holds => windowRow_spreadSum holds)
  have mid := sum_rowsWithin narrowLabel sizes wide event
    (fun row => row.avgMid.getD 0 * (row.tickerCount : Rat)) Acc.midSum
    (fun _ _ holds => windowRow_midSum holds)
  refine ⟨?_, ?_, ?_, ?_, ?_, ?_, ?_, ?_, ?_, ?_⟩
  · rw [volume]
    exact congrArg Acc.vol total
  · rw [trades]
    exact congrArg Acc.trades total
  · rw [tickers]
    exact congrArg Acc.tickers total
  · rw [counts, List.sum_map_add]
    exact congrArg (fun acc => acc.trades + acc.tickers) total
  · rw [pv, windowRow_pv consistent]
    exact congrArg Acc.pv total
  · rw [spread, windowRow_spreadSum consistent]
    exact congrArg Acc.spreadSum total
  · rw [mid, windowRow_midSum consistent]
    exact congrArg Acc.midSum total
  · have volumes := congrArg Acc.vol total
    dsimp only at volumes
    rw [volume, ← volumes]
    exact windowRow_vwap_none consistent
  · have counts := congrArg Acc.tickers total
    dsimp only at counts
    rw [tickers, ← counts]
    simp [windowRow]
  · have counts := congrArg Acc.tickers total
    dsimp only at counts
    rw [tickers, ← counts]
    simp [windowRow]

end Wide

/-- The rows of a multiple of a width are the rolled-up rows of that width, in
exact time. -/
private theorem rollup_exact {events : List (MarketEvent Rat)}
    (sizes : SizesNonneg events)
    {windowSeconds factor : Nat} (width : 0 < windowSeconds)
    (multiple : 0 < factor) (narrowLabel wideLabel : String) :
    let narrow := computeWindows events windowSeconds narrowLabel
    let wide := computeWindows events (factor * windowSeconds) wideLabel
    (∀ symbol start,
      (∃ row ∈ wide, row.symbol = symbol ∧ row.windowStart = start) ↔
        ((factor * windowSeconds : Nat) * microsPerSecond : Int) ∣ start ∧
          rowsWithin narrow symbol start (factor * windowSeconds) ≠ []) ∧
      ∀ row ∈ wide, RollsUp
        (rowsWithin narrow row.symbol row.windowStart
          (factor * windowSeconds)) row := by
  intro narrow wide
  have positive : 0 < factor * windowSeconds := Nat.mul_pos multiple width
  constructor
  · intro symbol start
    have inNarrow : rowsWithin narrow symbol start (factor * windowSeconds) ≠
        [] ↔ ∃ event ∈ events, event.symbol = symbol ∧
          start ≤ (windowBounds event.tsEvent windowSeconds).1 ∧
          (windowBounds event.tsEvent windowSeconds).1 <
            start + (factor * windowSeconds : Nat) * microsPerSecond := by
      simp only [rowsWithin, ne_eq, List.filter_eq_nil_iff, narrow,
        mem_computeWindows]
      simp [windowRow, bucket]
    have inWide : (∃ row ∈ wide, row.symbol = symbol ∧
        row.windowStart = start) ↔
        ∃ event ∈ events, event.symbol = symbol ∧
          (windowBounds event.tsEvent (factor * windowSeconds)).1 = start := by
      simp only [wide, mem_computeWindows]
      simp [windowRow, bucket]
    rw [inWide, inNarrow, ← exists_and_left]
    apply exists_congr
    intro event
    rw [← windowBounds_nested event.tsEvent width,
      windowBounds_fst_eq_iff positive (whole_windowBounds _ _)]
    tauto
  · intro row member
    obtain ⟨event, _, same⟩ := mem_computeWindows.mp member
    rw [Acc.foldl_add] at same
    rw [same]
    exact windowRow_rollsUp sizes width multiple event

/-- A narrow window lies in the calendar with the wide one around it. -/
theorem InCalendar.narrow {tsEvent : Instant} {windowSeconds factor : Nat}
    (width : 0 < windowSeconds) (multiple : 0 < factor)
    (inside : InCalendar tsEvent (factor * windowSeconds)) :
    InCalendar tsEvent windowSeconds := by
  have wide : 0 < factor * windowSeconds := Nat.mul_pos multiple width
  have nested := (windowBounds_fst_eq_iff wide
    (whole_windowBounds (carried tsEvent) windowSeconds) _).mp
      (windowBounds_nested (carried tsEvent) width factor)
  obtain ⟨⟨index, aligned⟩, later, earlier⟩ := nested
  have first := inside.opening
  have last := inside.closing
  rw [windowBounds_snd_eq] at last
  refine ⟨first.trans later, ?_⟩
  rw [windowBounds_snd_eq]
  refine le_trans ?_ last
  -- Both ends are multiples of the narrow width.
  obtain ⟨narrowIndex, narrowAligned⟩ : ∃ narrowIndex : Int,
      (windowBounds (carried tsEvent) windowSeconds).1 =
        narrowIndex * (windowSeconds * microsPerSecond) :=
    ⟨_, Int.mul_assoc _ _ _⟩
  rw [aligned, narrowAligned] at earlier ⊢
  push_cast at earlier ⊢
  have positive : (0 : Int) < windowSeconds * microsPerSecond :=
    micros_width_pos width
  have steps : narrowIndex < (index + 1) * factor := by
    have scaled : narrowIndex * (windowSeconds * microsPerSecond) <
        (index + 1) * factor * (windowSeconds * microsPerSecond) := by
      calc narrowIndex * (windowSeconds * microsPerSecond)
          < _ := earlier
        _ = (index + 1) * factor * (windowSeconds * microsPerSecond) := by ring
    exact lt_of_mul_lt_mul_right scaled positive.le
  calc narrowIndex * (windowSeconds * microsPerSecond) +
        windowSeconds * microsPerSecond
      = (narrowIndex + 1) * (windowSeconds * microsPerSecond) := by ring
    _ ≤ (index + 1) * factor * (windowSeconds * microsPerSecond) :=
        mul_le_mul_of_nonneg_right (by omega) positive.le
    _ = _ := by ring

/-- Where the wide windows can be computed the narrow ones can, and the wide
rows are the narrow ones rolled up. -/
theorem computeWindows_rollup (events : List FiniteEvent)
    (inRange : ∀ event ∈ events, inDatetimeRange event.event.tsEvent = true)
    {windowSeconds factor : Nat} (width : 0 < windowSeconds)
    (multiple : 0 < factor) (narrowLabel wideLabel : String)
    {wide : List (WindowMetrics Rat)}
    (computed : Double.computeWindows (events.map FiniteEvent.event)
      (factor * windowSeconds) wideLabel = .ok wide) :
    ∃ narrow, Double.computeWindows (events.map FiniteEvent.event)
        windowSeconds narrowLabel = .ok narrow ∧
      (∀ symbol start,
        (∃ row ∈ wide, row.symbol = symbol ∧ row.windowStart = start) ↔
          ((factor * windowSeconds : Nat) * microsPerSecond : Int) ∣ start ∧
            rowsWithin narrow symbol start (factor * windowSeconds) ≠ []) ∧
      ∀ row ∈ wide, RollsUp
        (rowsWithin narrow row.symbol row.windowStart
          (factor * windowSeconds)) row := by
  have inRange' : ∀ event ∈ events.map FiniteEvent.event,
      inDatetimeRange event.tsEvent = true := by
    intro event member
    obtain ⟨finite, finiteMember, rfl⟩ := List.mem_map.mp member
    exact inRange finite finiteMember
  obtain ⟨inside, rfl⟩ := (computeWindows_double_iff inRange').mp computed
  refine ⟨_, (computeWindows_double_iff inRange').mpr
    ⟨fun event member => (inside event member).narrow width multiple, rfl⟩, ?_⟩
  exact rollup_exact (FiniteEvent.sizesNonneg events).reading width multiple
    narrowLabel wideLabel

/-- Two trades in different minutes of the same five minutes. -/
def twoMinutes : List FiniteEvent :=
  [⟨sampleTrade "t-1" 5 100 1, by decide⟩,
    ⟨sampleTrade "t-2" 65 101 2, by decide⟩]

theorem computeWindows_rollup_sample :
    ∃ narrow wide,
      Double.computeWindows (twoMinutes.map FiniteEvent.event) 60 "1m" =
        .ok narrow ∧
      Double.computeWindows (twoMinutes.map FiniteEvent.event) 300 "5m" =
        .ok wide ∧
      ∃ row ∈ wide, row.tradeVolume = 3 ∧
        RollsUp (rowsWithin narrow row.symbol row.windowStart 300) row := by
  have present : (match Double.computeWindows
      (twoMinutes.map FiniteEvent.event) 300 "5m" with
    | .ok wide => wide.any (fun row => row.tradeVolume = 3)
    | .error _ => false) = true := by
    decide +kernel
  cases computed : Double.computeWindows (twoMinutes.map FiniteEvent.event)
      300 "5m" with
  | error failure =>
      rw [computed] at present
      cases present
  | ok wide =>
      rw [computed, List.any_eq_true] at present
      obtain ⟨row, member, volume⟩ := present
      obtain ⟨narrow, ran, _, rollup⟩ := computeWindows_rollup twoMinutes
        (by decide) (by decide : 0 < 60) (by decide : 0 < 5) "1m" "5m" computed
      exact ⟨narrow, wide, ran, rfl, row, member, of_decide_eq_true volume,
        rollup row member⟩

/-- Three trades in two minutes, in sizes of a tenth, two tenths and three. -/
def tenthsTrades : List (MarketEvent PyFloat) :=
  [(1, 5), (2, 65), (3, 70)].map (fun (tenths, second) =>
    { exchange := "coinbase"
      symbol := "BTC-USD"
      eventType := .trade
      price := some (.fin 1)
      size := some (roundToDouble (tenths / 10))
      tsEvent := second * microsPerSecond
      tsIngest := second * microsPerSecond })

/-- As doubles the volumes of two minutes do not add up to that of the five
minutes around them; and the wide window of a trade in 2026 can leave the
calendar where the narrow one does not. -/
theorem computeWindows_not_rolled_up :
    (∃ narrow wide, Double.computeWindows tenthsTrades 60 "1m" = .ok narrow ∧
      Double.computeWindows tenthsTrades 300 "5m" = .ok wide ∧
      ¬ ∀ row ∈ wide,
        RollsUp (rowsWithin narrow row.symbol row.windowStart 300) row) ∧
    ∃ narrow, Double.computeWindows [sampleTrade "t-1" 1767225605 100 1]
        60000000000 "narrow" = .ok narrow ∧ narrow ≠ [] ∧
      ¬ ∃ wide, Double.computeWindows [sampleTrade "t-1" 1767225605 100 1]
        (5 * 60000000000) "wide" = .ok wide := by
  constructor
  · have apart : (match Double.computeWindows tenthsTrades 60 "1m",
        Double.computeWindows tenthsTrades 300 "5m" with
      | .ok narrow, .ok wide => wide.any (fun row => row.tradeVolume ≠
          ((rowsWithin narrow row.symbol row.windowStart 300).map
            WindowMetrics.tradeVolume).sum)
      | _, _ => false) = true := by
      decide +kernel
    split at apart
    · rename_i narrow wide ranNarrow ranWide
      refine ⟨narrow, wide, ranNarrow, ranWide, ?_⟩
      intro rolls
      obtain ⟨row, member, differs⟩ := List.any_eq_true.mp apart
      exact of_decide_eq_true differs (rolls row member).tradeVolume
    · cases apart
  · have narrowReturns : (Double.computeWindows
        [sampleTrade "t-1" 1767225605 100 1] 60000000000
          "narrow").toOption.map List.length = some 1 := by
      decide +kernel
    have wideRaises : (Double.computeWindows
        [sampleTrade "t-1" 1767225605 100 1] (5 * 60000000000)
          "wide").toOption.isSome = false := by
      decide +kernel
    cases ran : Double.computeWindows [sampleTrade "t-1" 1767225605 100 1]
        60000000000 "narrow" with
    | error failure =>
        rw [ran] at narrowReturns
        cases narrowReturns
    | ok narrow =>
        rw [ran] at narrowReturns
        refine ⟨narrow, rfl, ?_, ?_⟩
        · intro empty
          subst empty
          cases narrowReturns
        · intro returned
          obtain ⟨wide, ranWide⟩ := returned
          rw [ranWide] at wideRaises
          cases wideRaises

end TickStream
