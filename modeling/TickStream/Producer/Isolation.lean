import TickStream.Producer.Offers

/-!
# Records in isolation

A Coinbase message lists its records in two levels.  Each record contributes
an event, a reject or nothing, by itself; the message returns the
contributions in the order of the records.
-/

namespace TickStream

open Python Library

/-- What a record lists under a name, if it can be looped over. -/
def listedItems (record : Json) (name : String) : List Json :=
  match record.get name (.arr []) with
  | .error _ => []
  | .ok listed =>
      match listed.iterate with
      | .error _ => []
      | .ok items => items

def isSnapshot (envelope : Json) : Bool :=
  match envelope.get "type" .null with
  | .error _ => false
  | .ok kind => kind.isStr "snapshot"

/-- The trades of the envelope events that are no snapshots, in order. -/
def tradeRecords (payload : Json) : List Json :=
  ((listedItems payload "events").filter
    (fun envelope => !isSnapshot envelope)).flatMap
      (fun envelope => listedItems envelope "trades")

/-- The ticks of all envelope events, in order. -/
def tickRecords (payload : Json) : List Json :=
  (listedItems payload "events").flatMap
    (fun envelope => listedItems envelope "tickers")

/-- The records a message is read for, and the body that runs on each: it
depends on the symbol map, the ingest time and, for ticks, the time of the
envelope. -/
inductive Reads (room : Room) (tsIngest : Instant)
    (symbolMap : Option SymbolMap) (payload : Json) :
    List Json → (Json → Result (Option ValidEvent)) → Prop where
  | trades :
      OnChannel payload "market_trades" →
      Reads room tsIngest symbolMap payload (tradeRecords payload)
        (coinbaseTrade room tsIngest symbolMap)
  | ticks {tsEvent : Instant} :
      OnChannel payload "ticker" → envelopeTime payload = .ok tsEvent →
      Reads room tsIngest symbolMap payload (tickRecords payload)
        (coinbaseTick tsIngest symbolMap tsEvent)

/-- What one record contributes. -/
inductive Contribution where
  | event (valid : ValidEvent)
  | reject (entry : Reject)
  | nothing

def contribution (body : Json → Result (Option ValidEvent)) (record : Json) :
    Contribution :=
  match body record with
  | .ok (some valid) => .event valid
  | .ok none => .nothing
  | .error failure => .reject (failure.text, record)

def Contribution.event? : Contribution → Option ValidEvent
  | .event valid => some valid
  | _ => none

def Contribution.reject? : Contribution → Option Reject
  | .reject entry => some entry
  | _ => none

def eventsOf (body : Json → Result (Option ValidEvent))
    (records : List Json) : List ValidEvent :=
  records.filterMap (fun record => (contribution body record).event?)

def rejectsOf (body : Json → Result (Option ValidEvent))
    (records : List Json) : List Reject :=
  records.filterMap (fun record => (contribution body record).reject?)

section Loops

variable {body : Json → Result (Option ValidEvent)} {log : NormalizeLog}

private theorem tryRecord_contributes {record : Json}
    (ran : tryRecord body record = .ok log) :
    log = ⟨(contribution body record).event?.toList,
      (contribution body record).reject?.toList⟩ := by
  simp only [tryRecord, contribution] at ran ⊢
  cases ended : body record with
  | ok produced =>
      rw [ended] at ran
      cases ran
      cases produced <;> rfl
  | error failure =>
      rw [ended] at ran
      obtain ⟨_, rfl⟩ := attempt_error_eq_ok_iff.mp ran
      rfl

/-- A loop over listed items is the loop over the list. -/
theorem eachListed_eq_ok {name : String} {visit : Json → Result NormalizeLog}
    {record : Json} (ran : eachListed name visit record = .ok log) :
    forEach visit (listedItems record name) = .ok log := by
  simp only [eachListed, bind_eq_ok_iff] at ran
  obtain ⟨listed, got, items, iterated, looped⟩ := ran
  simp only [listedItems, got, iterated]
  exact looped

theorem eachListed_contributes {name : String} {record : Json}
    (ran : eachListed name (tryRecord body) record = .ok log) :
    log = ⟨eventsOf body (listedItems record name),
      rejectsOf body (listedItems record name)⟩ := by
  obtain ⟨done, refused⟩ := forEach_eq_flatMap (eachListed_eq_ok ran)
    (fun item => ⟨(contribution body item).event?.toList,
      (contribution body item).reject?.toList⟩)
    (fun item _ part visited => tryRecord_contributes visited)
  obtain ⟨logDone, logRefused⟩ := log
  simp only at done refused
  rw [done, refused]
  simp [eventsOf, rejectsOf, List.filterMap_eq_flatMap_toList]

end Loops

private theorem flatMap_unless {α β : Type} (skipped : α → Bool)
    (part : α → List β)
    (items : List α) :
    items.flatMap (fun item => if skipped item then [] else part item) =
      (items.filter (fun item => !skipped item)).flatMap part := by
  induction items with
  | nil => rfl
  | cons item rest induction =>
      cases skip : skipped item with
      | true => simp [skip, induction]
      | false => simp [skip, induction]

section Message

variable {room : Room} {tsIngest tsEvent : Instant} {symbolMap : Option SymbolMap}
  {payload : Json} {log : NormalizeLog}

private theorem coinbaseTrades_contributes {envelope : Json}
    (ran : coinbaseTrades room tsIngest symbolMap envelope = .ok log) :
    log = if isSnapshot envelope then .empty
      else ⟨eventsOf (coinbaseTrade room tsIngest symbolMap)
          (listedItems envelope "trades"),
        rejectsOf (coinbaseTrade room tsIngest symbolMap)
          (listedItems envelope "trades")⟩ := by
  simp only [coinbaseTrades] at ran
  obtain ⟨kind, got, ran⟩ := bind_eq_ok_iff.mp ran
  simp only [isSnapshot, got]
  cases snapshot : kind.isStr "snapshot" with
  | true =>
      rw [snapshot, if_pos rfl] at ran
      cases ran
      rfl
  | false =>
      rw [snapshot, if_neg Bool.false_ne_true] at ran
      rw [if_neg Bool.false_ne_true]
      exact eachListed_contributes ran

private theorem normalizeCoinbase_trades
    (channel : OnChannel payload "market_trades")
    (ran : normalizeCoinbase room tsIngest symbolMap payload = .ok log) :
    log = ⟨eventsOf (coinbaseTrade room tsIngest symbolMap) (tradeRecords payload),
      rejectsOf (coinbaseTrade room tsIngest symbolMap)
        (tradeRecords payload)⟩ := by
  rw [normalizeCoinbase_eq_trades channel] at ran
  obtain ⟨done, refused⟩ := forEach_eq_flatMap (eachListed_eq_ok ran) _
    (fun envelope _ part visited => coinbaseTrades_contributes visited)
  obtain ⟨logDone, logRefused⟩ := log
  simp only [apply_ite Log.done, apply_ite Log.refused, Log.empty,
    flatMap_unless] at done refused
  rw [done, refused]
  simp [eventsOf, rejectsOf, tradeRecords, List.filterMap_flatMap]

private theorem normalizeCoinbase_ticks (channel : OnChannel payload "ticker")
    (time : envelopeTime payload = .ok tsEvent)
    (ran : normalizeCoinbase room tsIngest symbolMap payload = .ok log) :
    log = ⟨eventsOf (coinbaseTick tsIngest symbolMap tsEvent)
        (tickRecords payload),
      rejectsOf (coinbaseTick tsIngest symbolMap tsEvent)
        (tickRecords payload)⟩ := by
  rw [normalizeCoinbase_eq_ticker channel] at ran
  simp only [coinbaseTickers, time] at ran
  obtain ⟨done, refused⟩ := forEach_eq_flatMap (eachListed_eq_ok ran) _
    (fun envelope _ part visited => eachListed_contributes visited)
  obtain ⟨logDone, logRefused⟩ := log
  simp only at done refused
  rw [done, refused]
  simp [eventsOf, rejectsOf, tickRecords, List.filterMap_flatMap]

/-- A message returns the contributions of its records, in their order. -/
theorem normalizeCoinbase_contributes {records : List Json}
    {body : Json → Result (Option ValidEvent)}
    (reads : Reads room tsIngest symbolMap payload records body)
    (ran : normalizeCoinbase room tsIngest symbolMap payload = .ok log) :
    log = ⟨eventsOf body records, rejectsOf body records⟩ := by
  cases reads with
  | trades channel => exact normalizeCoinbase_trades channel ran
  | ticks channel time => exact normalizeCoinbase_ticks channel time ran

end Message

/-- The symbol of a record is not configured. -/
def Unconfigured (symbolMap : Option SymbolMap) (record : Json) : Prop :=
  productSymbol symbolMap record = .ok .null

private theorem eq_null_of_isNull {value : Json} (null : value.isNull = true) :
    value = .null := by
  cases value <;> simp_all [Json.isNull]

/-- A body that ends without an event found no symbol. -/
theorem nothing_iff {symbol : Result Json}
    {rest : Json → Result (Option ValidEvent)}
    (produces : ∀ found, rest found ≠ .ok none) :
    (symbol >>= fun found =>
        if found.isNull then .ok none else rest found) = .ok none ↔
      symbol = .ok .null := by
  cases symbol with
  | error failure => simp [bind, Except.bind]
  | ok found =>
      simp only [bind, Except.bind, Except.ok.injEq]
      by_cases null : found.isNull = true
      · simp [eq_null_of_isNull null, Json.isNull]
      · rw [if_neg null]
        constructor
        · intro ended
          exact absurd ended (produces found)
        · intro same
          subst same
          exact absurd rfl null

theorem bind_ne_nothing {α : Type} {run : Result α}
    {next : α → Result (Option ValidEvent)}
    (produces : ∀ value, next value ≠ .ok none) :
    run >>= next ≠ .ok none := by
  intro ended
  obtain ⟨value, _, last⟩ := bind_eq_ok_iff.mp ended
  exact produces value last

theorem some_map_ne_nothing (run : Result ValidEvent) :
    some <$> run ≠ .ok none := by
  cases run <;> simp [Functor.map, Except.map]

private theorem coinbaseTrade_nothing_iff {room : Room} {tsIngest : Instant}
    {symbolMap : Option SymbolMap} {trade : Json} :
    coinbaseTrade room tsIngest symbolMap trade = .ok none ↔
      Unconfigured symbolMap trade := by
  simp only [coinbaseTrade]
  apply nothing_iff
  intro symbol
  iterate 5
    apply bind_ne_nothing
    intro _
  exact some_map_ne_nothing _

private theorem coinbaseTick_nothing_iff {tsIngest tsEvent : Instant}
    {symbolMap : Option SymbolMap} {tick : Json} :
    coinbaseTick tsIngest symbolMap tsEvent tick = .ok none ↔
      Unconfigured symbolMap tick := by
  simp only [coinbaseTick]
  apply nothing_iff
  intro symbol
  iterate 5
    apply bind_ne_nothing
    intro _
  exact some_map_ne_nothing _

/-- A record contributes one event, one reject that carries it, or nothing
because its symbol is not configured. -/
def ContributesOne (symbolMap : Option SymbolMap)
    (body : Json → Result (Option ValidEvent)) (record : Json) : Prop :=
  (∃ valid, contribution body record = .event valid) ∨
    (∃ text, contribution body record = .reject (text, record)) ∨
    contribution body record = .nothing ∧ Unconfigured symbolMap record

section Isolation

variable {room : Room} {tsIngest : Instant} {symbolMap : Option SymbolMap}
  {payload : Json} {records : List Json}
  {body : Json → Result (Option ValidEvent)}

theorem Reads.nothing_iff
    (reads : Reads room tsIngest symbolMap payload records body) (record : Json) :
    body record = .ok none ↔ Unconfigured symbolMap record := by
  cases reads with
  | trades _ => exact coinbaseTrade_nothing_iff
  | ticks _ _ => exact coinbaseTick_nothing_iff

theorem Reads.contributesOne
    (reads : Reads room tsIngest symbolMap payload records body) (record : Json) :
    ContributesOne symbolMap body record := by
  simp only [ContributesOne, contribution]
  cases ended : body record with
  | error failure => exact Or.inr (Or.inl ⟨failure.text, rfl⟩)
  | ok produced =>
      cases produced with
      | some valid => exact Or.inl ⟨valid, rfl⟩
      | none => exact Or.inr (Or.inr ⟨rfl, (reads.nothing_iff record).mp ended⟩)

theorem eventsOf_split (before after : List Json) (record : Json) :
    eventsOf body (before ++ record :: after) =
      eventsOf body before ++ (contribution body record).event?.toList ++
        eventsOf body after := by
  simp only [eventsOf, List.filterMap_append, List.filterMap_cons]
  cases (contribution body record).event? <;> simp

theorem rejectsOf_split (before after : List Json) (record : Json) :
    rejectsOf body (before ++ record :: after) =
      rejectsOf body before ++ (contribution body record).reject?.toList ++
        rejectsOf body after := by
  simp only [rejectsOf, List.filterMap_append, List.filterMap_cons]
  cases (contribution body record).reject? <;> simp

/-- What a message returns around one of its records. -/
structure ReturnsAround (body : Json → Result (Option ValidEvent))
    (before : List Json) (record : Json) (after : List Json)
    (log : NormalizeLog) : Prop where
  events : log.done =
    eventsOf body before ++ (contribution body record).event?.toList ++
      eventsOf body after
  rejects : log.refused =
    rejectsOf body before ++ (contribution body record).reject?.toList ++
      rejectsOf body after

/-- A message that returns gives the contributions of its records in order,
one for each; another message with one record replaced differs in the
contribution of that record alone. -/
theorem normalizeCoinbase_isolates_records {log : NormalizeLog}
    (reads : Reads room tsIngest symbolMap payload records body)
    (ran : normalizeCoinbase room tsIngest symbolMap payload = .ok log) :
    (∀ record ∈ records, ContributesOne symbolMap body record) ∧
      log.done = eventsOf body records ∧
      log.refused = rejectsOf body records ∧
      ∀ before record after, records = before ++ record :: after →
        ∀ other replacement otherLog,
          Reads room tsIngest symbolMap other (before ++ replacement :: after)
            body →
          normalizeCoinbase room tsIngest symbolMap other = .ok otherLog →
          ReturnsAround body before record after log ∧
            ReturnsAround body before replacement after otherLog := by
  have same := normalizeCoinbase_contributes reads ran
  refine ⟨fun record _ => reads.contributesOne record, by rw [same],
    by rw [same], ?_⟩
  intro before record after split other replacement otherLog otherReads
    otherRan
  have otherSame := normalizeCoinbase_contributes otherReads otherRan
  rw [split] at same
  constructor
  · rw [same]
    exact ⟨eventsOf_split before after record,
      rejectsOf_split before after record⟩
  · rw [otherSame]
    exact ⟨eventsOf_split before after replacement,
      rejectsOf_split before after replacement⟩

end Isolation

def tradeAtPrice (price : String) : Json :=
  .obj [("product_id", .str "BTC-USD"), ("trade_id", .str price),
    ("price", .str price), ("size", .str "0.01"),
    ("time", .str "2026-01-01T00:00:00Z"), ("side", .str "BUY")]

def tradesMessage (prices : List String) : Json :=
  .obj [("channel", .str "market_trades"),
    ("events", .arr [.obj [("type", .str "update"),
      ("trades", .arr (prices.map tradeAtPrice))]])]

theorem tradesMessage_reads (prices : List String) :
    Reads none 0 none (tradesMessage prices) (prices.map tradeAtPrice)
      (coinbaseTrade none 0 none) := by
  have records : tradeRecords (tradesMessage prices) =
      prices.map tradeAtPrice := by
    have one : tradeRecords (tradesMessage prices) =
        prices.map tradeAtPrice ++ [] := rfl
    rw [one, List.append_nil]
  rw [← records]
  exact Reads.trades ⟨.str "market_trades", rfl, by decide⟩

/-- A bad trade between two good ones, against three good ones. -/
theorem normalizeCoinbase_isolates_records_sample :
    ∃ log otherLog,
      normalizeCoinbase none 0 none (tradesMessage ["100", "-1", "101"]) =
        .ok log ∧
      normalizeCoinbase none 0 none (tradesMessage ["100", "7", "101"]) =
        .ok otherLog ∧
      ReturnsAround (coinbaseTrade none 0 none) [tradeAtPrice "100"]
        (tradeAtPrice "-1") [tradeAtPrice "101"] log ∧
      ReturnsAround (coinbaseTrade none 0 none) [tradeAtPrice "100"]
        (tradeAtPrice "7") [tradeAtPrice "101"] otherLog := by
  have returned : returnsEvent (fun _ => true)
      (normalizeCoinbase none 0 none (tradesMessage ["100", "-1", "101"])) =
        true := by
    decide +kernel
  have otherReturned : returnsEvent (fun _ => true)
      (normalizeCoinbase none 0 none (tradesMessage ["100", "7", "101"])) =
        true := by
    decide +kernel
  obtain ⟨log, ran, _⟩ := returnsEvent_iff.mp returned
  obtain ⟨otherLog, otherRan, _⟩ := returnsEvent_iff.mp otherReturned
  obtain ⟨_, _, _, around⟩ := normalizeCoinbase_isolates_records
    (tradesMessage_reads ["100", "-1", "101"]) ran
  obtain ⟨first, second⟩ := around [tradeAtPrice "100"] (tradeAtPrice "-1")
    [tradeAtPrice "101"] rfl (tradesMessage ["100", "7", "101"])
    (tradeAtPrice "7") otherLog (tradesMessage_reads ["100", "7", "101"])
    otherRan
  exact ⟨log, otherLog, ran, otherRan, first, second⟩

end TickStream
