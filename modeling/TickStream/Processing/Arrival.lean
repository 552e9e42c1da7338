import TickStream.Processing.Accumulator

/-!
# Arrival order

What the reference says about a stream depends on the events seen so far, not
on the order they came in.
-/

namespace TickStream

open Python Library

private theorem maxEventTsBySymbol_perm {F : Type}
    {left right : List (MarketEvent F)}
    (permutation : left.Perm right) (symbol : String) :
    (maxEventTsBySymbol left).get? symbol =
      (maxEventTsBySymbol right).get? symbol := by
  apply Dict.get?_eq_of_reaches
  intro bound
  rw [maxEventTsBySymbol_reaches, maxEventTsBySymbol_reaches]
  simp only [permutation.mem_iff]

private theorem closedWindows_congr {F : Type}
    (metrics : List (WindowMetrics F))
    {left right : Dict String Instant}
    (same : ∀ symbol, left.get? symbol = right.get? symbol)
    (graceSeconds : Nat) :
    closedWindows metrics left graceSeconds =
      closedWindows metrics right graceSeconds := by
  apply List.filter_congr
  intro row _
  simp only [isClosed, same]

/-- The windows, the watermarks and the closed windows of a list of events
are those of any reordering of it. -/
theorem arrival_order_irrelevant {left right : List (MarketEvent Rat)}
    (permutation : left.Perm right) (windowSeconds : Nat)
    (windowLabel : String) :
    computeWindows left windowSeconds windowLabel =
        computeWindows right windowSeconds windowLabel ∧
      (∀ symbol, (maxEventTsBySymbol left).get? symbol =
        (maxEventTsBySymbol right).get? symbol) ∧
      ∀ graceSeconds,
        closedWindows (computeWindows left windowSeconds windowLabel)
            (maxEventTsBySymbol left) graceSeconds =
          closedWindows (computeWindows right windowSeconds windowLabel)
            (maxEventTsBySymbol right) graceSeconds := by
  have rows : computeWindows left windowSeconds windowLabel =
      computeWindows right windowSeconds windowLabel :=
    computeWindows_eq_of_perm windowLabel (foldKeyed_perm _ _ _ permutation)
  have watermarks := maxEventTsBySymbol_perm permutation
  refine ⟨rows, watermarks, ?_⟩
  intro graceSeconds
  rw [rows]
  exact closedWindows_congr _ watermarks graceSeconds

theorem arrival_order_irrelevant_sample :
    computeWindows [sampleTrade "t-1" 65 100 1, sampleTrade "t-2" 5 101 2]
        60 "1m" =
      computeWindows [sampleTrade "t-2" 5 101 2, sampleTrade "t-1" 65 100 1]
        60 "1m" :=
  (arrival_order_irrelevant (List.Perm.swap _ _ _) 60 "1m").1

end TickStream
