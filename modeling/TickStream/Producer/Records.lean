import TickStream.Producer.Normalize

/-!
# What a normalizer visits

A payload lists raw records; the normalizer runs one handler on each.  What it
returns is determined by these runs: the events are what the bodies produced,
the rejects are the records whose bodies raised.
-/

namespace TickStream

open Python Library

/-- A record lists an item under a name; nothing is listed under a name that
is absent. -/
def Listed (record : Json) (name : String) (item : Json) : Prop :=
  ∃ listed items, record.get name (.arr []) = .ok listed ∧
    listed.iterate = .ok items ∧ item ∈ items

/-- What a record lists under a name can be looped over. -/
def Iterates (record : Json) (name : String) : Prop :=
  ∃ listed items, record.get name (.arr []) = .ok listed ∧
    listed.iterate = .ok items

def OnChannel (payload : Json) (name : String) : Prop :=
  ∃ channel, payload.get "channel" .null = .ok channel ∧
    channel.isStr name = true

/-- An envelope event that is a dictionary and not a snapshot. -/
def IsUpdate (envelope : Json) : Prop :=
  ∃ kind, envelope.get "type" .null = .ok kind ∧ kind.isStr "snapshot" = false

/-- The handler runs on a record, and its body ends this way. -/
inductive Visits (room : Room) (exchange : String)
    (symbolMap : Option SymbolMap) (tsIngest : Instant) (payload : Json) :
    Json → Result (Option ValidEvent) → Prop where
  | trade {envelope trade : Json} :
      exchange = "coinbase" → OnChannel payload "market_trades" →
      Listed payload "events" envelope → IsUpdate envelope →
      Listed envelope "trades" trade →
      Visits room exchange symbolMap tsIngest payload trade
        (coinbaseTrade room tsIngest symbolMap trade)
  | badEnvelope {failure : Exc} :
      exchange = "coinbase" → OnChannel payload "ticker" →
      envelopeTime payload = .error failure →
      Visits room exchange symbolMap tsIngest payload payload
        (.error ⟨failure.cls, "bad envelope timestamp: " ++ failure.text⟩)
  | tick {envelope tick : Json} {tsEvent : Instant} :
      exchange = "coinbase" → OnChannel payload "ticker" →
      envelopeTime payload = .ok tsEvent →
      Listed payload "events" envelope → Listed envelope "tickers" tick →
      Visits room exchange symbolMap tsIngest payload tick
        (coinbaseTick tsIngest symbolMap tsEvent tick)
  | message {data : Json} {symbol : String} :
      exchange = "binance_us" → payload.get "data" payload = .ok data →
      binanceSymbol (symbolMap.getD .empty) data = .ok (some symbol) →
      Visits room exchange symbolMap tsIngest payload data
        (binanceRecord room tsIngest symbol data)

/-- The log of handler runs. -/
structure LogOf (log : NormalizeLog)
    (runs : Json → Result (Option ValidEvent) → Prop) : Prop where
  done : ∀ event, event ∈ log.done ↔ ∃ record, runs record (.ok (some event))
  refused : ∀ entry, entry ∈ log.refused ↔ ∃ record failure,
    runs record (.error failure) ∧ entry = (failure.text, record)

theorem LogOf.empty {runs : Json → Result (Option ValidEvent) → Prop}
    (silent : ∀ record body, ¬ runs record body) : LogOf .empty runs := by
  constructor
  · intro event
    simp [Log.empty, silent]
  · intro entry
    simp [Log.empty, silent]

theorem LogOf.congr {log : NormalizeLog}
    {runs other : Json → Result (Option ValidEvent) → Prop}
    (logged : LogOf log runs)
    (same : ∀ record body, runs record body ↔ other record body) :
    LogOf log other := by
  have equal : runs = other := by
    funext record body
    exact propext (same record body)
  rwa [← equal]

section Loops

variable {name : String} {normalize : Json → Result (Option ValidEvent)}
  {visit : Json → Result NormalizeLog} {record : Json} {log : NormalizeLog}

theorem tryRecord_log (ran : tryRecord normalize record = .ok log) :
    LogOf log (fun visited body =>
      visited = record ∧ body = normalize record) := by
  constructor
  · intro event
    rw [mem_done_attempt ran]
    simp [eq_comm]
  · intro entry
    rw [mem_refused_attempt ran]
    constructor
    · intro raises
      rcases raises with ⟨failure, raised, same⟩
      exact ⟨record, failure, ⟨rfl, raised.symm⟩, same⟩
    · intro visited
      rcases visited with ⟨_, failure, ⟨rfl, raised⟩, same⟩
      exact ⟨failure, raised.symm, same⟩

theorem returns_tryRecord_iff :
    Returns (tryRecord normalize record) ↔
      Contained caught (normalize record) := returns_attempt_iff

theorem eachListed_log
    {runs : Json → Json → Result (Option ValidEvent) → Prop}
    (ran : eachListed name visit record = .ok log)
    (visited : ∀ item part, Listed record name item →
      visit item = .ok part → LogOf part (runs item)) :
    LogOf log (fun visitedRecord body =>
      ∃ item, Listed record name item ∧ runs item visitedRecord body) := by
  simp only [eachListed, bind_eq_ok_iff] at ran
  obtain ⟨listed, got, items, iterated, looped⟩ := ran
  have same : ∀ item, Listed record name item ↔ item ∈ items := by
    intro item
    simp [Listed, got, iterated]
  have parts : ∀ item ∈ items, ∃ part, visit item = .ok part ∧
      LogOf part (runs item) := by
    intro item member
    obtain ⟨part, ranItem⟩ := returns_forEach_iff.mp ⟨log, looped⟩ item member
    exact ⟨part, ranItem, visited item part ((same item).mpr member) ranItem⟩
  constructor
  · intro event
    rw [mem_done_forEach looped]
    constructor
    · intro visited
      rcases visited with ⟨item, member, part, ranItem, produced⟩
      have logged := visited item part ((same item).mpr member) ranItem
      obtain ⟨visitedRecord, outcome⟩ := (logged.done event).mp produced
      exact ⟨visitedRecord, item, (same item).mpr member, outcome⟩
    · intro visited
      rcases visited with ⟨visitedRecord, item, isListed, outcome⟩
      obtain ⟨part, ranItem, logged⟩ := parts item ((same item).mp isListed)
      exact ⟨item, (same item).mp isListed, part, ranItem,
        (logged.done event).mpr ⟨visitedRecord, outcome⟩⟩
  · intro entry
    rw [mem_refused_forEach looped]
    constructor
    · intro visited
      rcases visited with ⟨item, member, part, ranItem, refused⟩
      have logged := visited item part ((same item).mpr member) ranItem
      obtain ⟨visitedRecord, failure, outcome, entryIs⟩ :=
        (logged.refused entry).mp refused
      exact ⟨visitedRecord, failure, ⟨item, (same item).mpr member, outcome⟩,
        entryIs⟩
    · intro visited
      rcases visited with
        ⟨visitedRecord, failure, ⟨item, isListed, outcome⟩, entryIs⟩
      obtain ⟨part, ranItem, logged⟩ := parts item ((same item).mp isListed)
      exact ⟨item, (same item).mp isListed, part, ranItem,
        (logged.refused entry).mpr ⟨visitedRecord, failure, outcome, entryIs⟩⟩

theorem returns_eachListed_iff :
    Returns (eachListed name visit record) ↔
      Iterates record name ∧
        ∀ item, Listed record name item → Returns (visit item) := by
  simp only [eachListed, Iterates, Listed, returns_bind_iff,
    returns_forEach_iff]
  constructor
  · intro loops
    rcases loops with ⟨listed, got, items, iterated, all⟩
    refine ⟨⟨listed, items, got, iterated⟩, ?_⟩
    intro item isListed
    rcases isListed with ⟨listed', items', got', iterated', member⟩
    rw [got] at got'
    cases got'
    rw [iterated] at iterated'
    cases iterated'
    exact all item member
  · intro loops
    rcases loops with ⟨⟨listed, items, got, iterated⟩, all⟩
    exact ⟨listed, got, items, iterated, fun item member =>
      all item ⟨listed, items, got, iterated, member⟩⟩

end Loops

section Normalizers

variable {room : Room} {tsIngest : Instant} {symbolMap : Option SymbolMap}
  {payload envelope : Json} {log : NormalizeLog}

theorem get_returns_iff (value : Json) (name : String) (fallback : Json) :
    Returns (value.get name fallback) ↔ ∃ members, value = .obj members := by
  cases value <;> simp [Json.get, raise]

private theorem coinbaseTrades_log
    (ran : coinbaseTrades room tsIngest symbolMap envelope = .ok log) :
    LogOf log (fun trade body => IsUpdate envelope ∧
      Listed envelope "trades" trade ∧
        body = coinbaseTrade room tsIngest symbolMap trade) := by
  simp only [coinbaseTrades] at ran
  obtain ⟨kind, got, ranKind⟩ := bind_eq_ok_iff.mp ran
  cases snapshot : kind.isStr "snapshot" with
  | true =>
      rw [snapshot, if_pos rfl] at ranKind
      cases ranKind
      apply LogOf.empty
      intro trade body visited
      rcases visited with ⟨⟨kind', got', update⟩, _⟩
      rw [got] at got'
      cases got'
      rw [snapshot] at update
      cases update
  | false =>
      rw [snapshot, if_neg Bool.false_ne_true] at ranKind
      have logged := eachListed_log ranKind
        (fun item part _ ranItem => tryRecord_log ranItem)
      apply logged.congr
      intro trade body
      constructor
      · intro visited
        rcases visited with ⟨item, listed, rfl, bodyIs⟩
        exact ⟨⟨kind, got, snapshot⟩, listed, bodyIs⟩
      · intro visited
        rcases visited with ⟨_, listed, bodyIs⟩
        exact ⟨trade, listed, rfl, bodyIs⟩

theorem returns_coinbaseTrades_iff :
    Returns (coinbaseTrades room tsIngest symbolMap envelope) ↔
      (∃ members, envelope = .obj members) ∧
        (IsUpdate envelope → Iterates envelope "trades" ∧
          ∀ trade, Listed envelope "trades" trade →
            Contained caught (coinbaseTrade room tsIngest symbolMap trade)) := by
  simp only [coinbaseTrades, IsUpdate]
  rw [returns_bind_iff, ← get_returns_iff envelope "type" .null]
  constructor
  · intro returned
    rcases returned with ⟨kind, got, ran⟩
    refine ⟨⟨kind, got⟩, ?_⟩
    intro isUpdate
    rcases isUpdate with ⟨kind', got', update⟩
    rw [got] at got'
    cases got'
    rw [update, if_neg Bool.false_ne_true] at ran
    simpa only [returns_eachListed_iff, returns_tryRecord_iff] using ran
  · intro safe
    rcases safe with ⟨⟨kind, got⟩, updates⟩
    refine ⟨kind, got, ?_⟩
    cases snapshot : kind.isStr "snapshot" with
    | true => exact returns_ok _
    | false =>
        rw [if_neg Bool.false_ne_true]
        simpa only [returns_eachListed_iff, returns_tryRecord_iff] using
          updates ⟨kind, got, snapshot⟩

/-- The ticks of an envelope, or the envelope itself if its time is bad. -/
private theorem coinbaseTickers_log
    (ran : coinbaseTickers tsIngest symbolMap payload = .ok log) :
    LogOf log (fun record body =>
      (∃ failure, envelopeTime payload = .error failure ∧ record = payload ∧
        body = .error
          ⟨failure.cls, "bad envelope timestamp: " ++ failure.text⟩) ∨
      (∃ tsEvent envelope, envelopeTime payload = .ok tsEvent ∧
        Listed payload "events" envelope ∧
        Listed envelope "tickers" record ∧
          body = coinbaseTick tsIngest symbolMap tsEvent record)) := by
  simp only [coinbaseTickers] at ran
  cases time : envelopeTime payload with
  | ok tsEvent =>
      simp only [time] at ran
      apply (eachListed_log ran (fun envelope part _ ranPart =>
        eachListed_log ranPart
          (fun tick inner _ ranTick => tryRecord_log ranTick))).congr
      intro record body
      constructor
      · intro visited
        rcases visited with ⟨envelope, listed, tick, inside, rfl, rfl⟩
        exact Or.inr ⟨tsEvent, envelope, rfl, listed, inside, rfl⟩
      · intro visited
        rcases visited with ⟨failure, failed, _⟩ |
          ⟨tsEvent', envelope, same, listed, inside, rfl⟩
        · cases failed
        · cases same
          exact ⟨envelope, listed, record, inside, rfl, rfl⟩
  | error failure =>
      simp only [time] at ran
      by_cases isCaught : caught failure = true
      · rw [if_pos isCaught] at ran
        cases ran
        constructor
        · intro event
          simp
        · intro entry
          simp only [List.mem_singleton]
          constructor
          · intro entryIs
            exact ⟨payload, _, Or.inl ⟨failure, rfl, rfl, rfl⟩, entryIs⟩
          · intro visited
            rcases visited with ⟨record, raised, ⟨failure', failed, rfl, same⟩ |
              ⟨tsEvent, envelope, succeeded, _⟩, entryIs⟩
            · cases failed
              cases same
              exact entryIs
            · cases succeeded
      · rw [if_neg isCaught] at ran
        cases ran

theorem returns_coinbaseTickers_iff :
    Returns (coinbaseTickers tsIngest symbolMap payload) ↔
      Contained caught (envelopeTime payload) ∧
        ∀ tsEvent, envelopeTime payload = .ok tsEvent →
          Iterates payload "events" ∧
            ∀ envelope, Listed payload "events" envelope →
              Iterates envelope "tickers" ∧
                ∀ tick, Listed envelope "tickers" tick → Contained caught
                  (coinbaseTick tsIngest symbolMap tsEvent tick) := by
  simp only [coinbaseTickers]
  cases time : envelopeTime payload with
  | ok tsEvent =>
      simp only [returns_eachListed_iff, returns_tryRecord_iff, contained_ok,
        Except.ok.injEq, forall_eq', true_and]
  | error failure =>
      by_cases isCaught : caught failure = true
      · simp [isCaught]
      · simp [isCaught]

/-- No payload is on two channels. -/
theorem OnChannel.unique {first second : String}
    (onFirst : OnChannel payload first) (onSecond : OnChannel payload second) :
    first = second := by
  obtain ⟨channel, got, isFirst⟩ := onFirst
  obtain ⟨channel', got', isSecond⟩ := onSecond
  rw [got] at got'
  cases got'
  cases channel with
  | str text =>
      simp only [Json.isStr, decide_eq_true_eq] at isFirst isSecond
      rw [← isFirst, ← isSecond]
  | _ => cases isFirst

theorem normalizeCoinbase_eq_trades
    (channel : OnChannel payload "market_trades") :
    normalizeCoinbase room tsIngest symbolMap payload =
      eachListed "events" (coinbaseTrades room tsIngest symbolMap) payload := by
  obtain ⟨found, got, isTrades⟩ := channel
  simp only [normalizeCoinbase]
  rw [got]
  change (if found.isStr "market_trades" = true then _ else _) = _
  rw [if_pos isTrades]

theorem normalizeCoinbase_eq_ticker (channel : OnChannel payload "ticker") :
    normalizeCoinbase room tsIngest symbolMap payload =
      coinbaseTickers tsIngest symbolMap payload := by
  have notTrades : ¬ OnChannel payload "market_trades" := by
    intro other
    exact absurd (channel.unique other) (by decide)
  obtain ⟨found, got, isTicker⟩ := channel
  have otherwise : ¬ found.isStr "market_trades" = true :=
    fun isTrades => notTrades ⟨found, got, isTrades⟩
  simp only [normalizeCoinbase]
  rw [got]
  change (if found.isStr "market_trades" = true then _ else _) = _
  rw [if_neg otherwise, if_pos isTicker]

theorem normalizeCoinbase_eq_empty
    (notTrades : ¬ OnChannel payload "market_trades")
    (notTicker : ¬ OnChannel payload "ticker")
    {members : List (String × Json)} (dict : payload = .obj members) :
    normalizeCoinbase room tsIngest symbolMap payload = .ok .empty := by
  obtain ⟨found, got⟩ := (get_returns_iff payload "channel" .null).mpr
    ⟨members, dict⟩
  simp only [normalizeCoinbase]
  rw [got]
  change (if found.isStr "market_trades" = true then _ else _) = _
  rw [if_neg (fun isTrades => notTrades ⟨found, got, isTrades⟩),
    if_neg (fun isTicker => notTicker ⟨found, got, isTicker⟩)]

theorem normalizeBinanceUs_eq {map : SymbolMap} {data : Json}
    (got : payload.get "data" payload = .ok data) :
    normalizeBinanceUs room tsIngest map payload =
      (binanceSymbol map data >>= fun symbol =>
        match symbol with
        | none => .ok .empty
        | some name => tryRecord (binanceRecord room tsIngest name) data) := by
  simp only [normalizeBinanceUs]
  rw [got]
  rfl

end Normalizers

section Dispatch

variable {room : Room} {exchange : String} {symbolMap : Option SymbolMap}
  {tsIngest : Instant} {members : List (String × Json)} {log : NormalizeLog}

private theorem coinbase_log
    (ran : normalizeCoinbase room tsIngest symbolMap (.obj members) = .ok log) :
    LogOf log (Visits room "coinbase" symbolMap tsIngest (.obj members)) := by
  by_cases trades : OnChannel (.obj members) "market_trades"
  · rw [normalizeCoinbase_eq_trades trades] at ran
    apply (eachListed_log ran
      (fun envelope part _ ranPart => coinbaseTrades_log ranPart)).congr
    intro record body
    constructor
    · intro visited
      rcases visited with ⟨envelope, listed, update, inside, rfl⟩
      exact .trade rfl trades listed update inside
    · intro visit
      cases visit with
      | trade _ _ listed update inside =>
          exact ⟨_, listed, update, inside, rfl⟩
      | badEnvelope _ ticker _ =>
          exact absurd (trades.unique ticker) (by decide)
      | tick _ ticker _ _ _ =>
          exact absurd (trades.unique ticker) (by decide)
      | message binance _ _ => exact absurd binance (by decide)
  by_cases ticker : OnChannel (.obj members) "ticker"
  · rw [normalizeCoinbase_eq_ticker ticker] at ran
    apply (coinbaseTickers_log ran).congr
    intro record body
    constructor
    · intro visited
      rcases visited with ⟨failure, failed, rfl, rfl⟩ |
        ⟨tsEvent, envelope, time, listed, inside, rfl⟩
      · exact .badEnvelope rfl ticker failed
      · exact .tick rfl ticker time listed inside
    · intro visit
      cases visit with
      | trade _ other _ _ _ => exact absurd other trades
      | badEnvelope _ _ failed => exact Or.inl ⟨_, failed, rfl, rfl⟩
      | tick _ _ time listed inside =>
          exact Or.inr ⟨_, _, time, listed, inside, rfl⟩
      | message binance _ _ => exact absurd binance (by decide)
  · rw [normalizeCoinbase_eq_empty trades ticker rfl] at ran
    cases ran
    apply LogOf.empty
    intro record body visit
    cases visit with
    | trade _ other _ _ _ => exact trades other
    | badEnvelope _ other _ => exact ticker other
    | tick _ other _ _ _ => exact ticker other
    | message binance _ _ => exact absurd binance (by decide)

private theorem binance_log
    (ran : normalizeBinanceUs room tsIngest (symbolMap.getD .empty)
      (.obj members) = .ok log) :
    LogOf log (Visits room "binance_us" symbolMap tsIngest (.obj members)) := by
  obtain ⟨data, got⟩ := (get_returns_iff (.obj members) "data"
    (.obj members)).mpr ⟨members, rfl⟩
  rw [normalizeBinanceUs_eq got] at ran
  obtain ⟨symbol, resolved, ranSymbol⟩ := bind_eq_ok_iff.mp ran
  have visits : ∀ record body,
      Visits room "binance_us" symbolMap tsIngest (.obj members) record body ↔
        record = data ∧ ∃ name, symbol = some name ∧
          body = binanceRecord room tsIngest name data := by
    intro record body
    constructor
    · intro visit
      cases visit with
      | trade coinbase _ _ _ _ => exact absurd coinbase (by decide)
      | badEnvelope coinbase _ _ => exact absurd coinbase (by decide)
      | tick coinbase _ _ _ _ => exact absurd coinbase (by decide)
      | message _ got' resolved' =>
          rw [got] at got'
          cases got'
          rw [resolved] at resolved'
          cases resolved'
          exact ⟨rfl, _, rfl, rfl⟩
    · intro visited
      rcases visited with ⟨rfl, name, rfl, rfl⟩
      exact .message rfl got resolved
  cases symbol with
  | none =>
      cases ranSymbol
      apply LogOf.empty
      intro record body visit
      obtain ⟨_, name, absent, _⟩ := (visits record body).mp visit
      cases absent
  | some name =>
      apply (tryRecord_log ranSymbol).congr
      intro record body
      rw [visits]
      simp

/-- What normalization returns is the log of the handler runs. -/
theorem normalizeSafe_log
    (ran : normalizeSafe exchange (.obj members) tsIngest symbolMap room =
      .ok log) :
    LogOf log (Visits room exchange symbolMap tsIngest (.obj members)) := by
  simp only [normalizeSafe] at ran
  by_cases coinbase : exchange = "coinbase"
  · subst coinbase
    rw [if_pos rfl] at ran
    exact coinbase_log ran
  rw [if_neg coinbase] at ran
  by_cases binance : exchange = "binance_us"
  · subst binance
    rw [if_pos rfl] at ran
    exact binance_log ran
  · rw [if_neg binance] at ran
    cases ran

end Dispatch

end TickStream
