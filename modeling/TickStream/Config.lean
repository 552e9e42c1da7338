import TickStream.Library.KeyedFold
import TickStream.Python.Value

/-!
# Settings

Topic names and the source declaration.  The connection and path settings are
left out: no modelled function reads them.
-/

namespace TickStream

open Python Library

structure Topics where
  tradesRaw : String := "trades.raw"
  tickerRaw : String := "ticker.raw"
  metricsWindowed : String := "metrics.windowed"
  quarantine : String := "contracts.quarantine"
deriving DecidableEq, Repr

structure ExchangeProfile where
  symbolStyle : String := "dash"
deriving DecidableEq, Repr

/-- A canonical symbol in the exchange's own style. -/
def ExchangeProfile.exchangeSymbol (profile : ExchangeProfile)
    (symbol : String) : String :=
  if profile.symbolStyle = "concat" then
    String.ofList (symbol.toList.filter (fun char => char ≠ '-'))
  else symbol

structure SourceConfig where
  exchange : String
  symbols : List String
  exchanges : Dict String ExchangeProfile
  symbolsNonEmpty : symbols ≠ []

structure Settings where
  topics : Topics
  source : SourceConfig

/-- An exchange's own symbols with their canonical forms. -/
abbrev SymbolMap := Dict String String

/-- Two symbols with one rendering share a key; the later one is its value. -/
def buildSymbolMap (settings : Settings) (exchange : String) :
    Result SymbolMap :=
  match settings.source.exchanges.get? exchange with
  | none => raise .keyError ("'" ++ exchange ++ "'")
  | some profile =>
      .ok (foldKeyed profile.exchangeSymbol (fun _ symbol => symbol) ""
        settings.source.symbols)

private theorem foldl_last_mem {symbols : List String} (occupied : symbols ≠ [])
    (start : String) :
    symbols.foldl (fun _ symbol => symbol) start ∈ symbols := by
  induction symbols generalizing start with
  | nil => exact absurd rfl occupied
  | cons symbol rest induction =>
      cases rest with
      | nil => simp
      | cons next others =>
          exact List.mem_cons_of_mem symbol (induction (by simp) symbol)

/-- A map only leads to configured symbols. -/
theorem buildSymbolMap_configured {settings : Settings} {exchange : String}
    {symbolMap : SymbolMap}
    (built : buildSymbolMap settings exchange = .ok symbolMap)
    {name symbol : String} (found : symbolMap.get? name = some symbol) :
    symbol ∈ settings.source.symbols := by
  simp only [buildSymbolMap] at built
  cases profile : settings.source.exchanges.get? exchange with
  | none =>
      rw [profile] at built
      cases built
  | some profile' =>
      rw [profile] at built
      cases built
      obtain ⟨⟨configured, member, sameName⟩, value⟩ :=
        (mem_foldKeyed _ _ _).mp ((Dict.get?_eq_some_iff _).mp found)
      rw [value]
      have occupied : itemsAt profile'.exchangeSymbol settings.source.symbols
          name ≠ [] :=
        List.ne_nil_of_mem ((mem_itemsAt _).mpr ⟨member, sameName⟩)
      exact ((mem_itemsAt _).mp (foldl_last_mem occupied "")).1

/-- The source declaration that comes with the repository. -/
def sampleSettings : Settings where
  topics := {}
  source :=
    { exchange := "coinbase"
      symbols := ["BTC-USD", "ETH-USD", "SOL-USD"]
      exchanges :=
        ⟨[("coinbase", {}), ("binance_us", { symbolStyle := "concat" })],
          by decide⟩
      symbolsNonEmpty := by decide }

end TickStream
