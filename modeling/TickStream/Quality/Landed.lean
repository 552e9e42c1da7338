import TickStream.EndToEnd
import TickStream.Quality.Completeness
import TickStream.Quality.Ingest
import TickStream.Quality.Ordering
import TickStream.Quality.Split

/-!
# The contract on the landed bronze

`contracts` reads bronze back after a run and splits it.  A row that landed has
passed the validator and has a configured symbol, but JSON has taken the numbers
that are not finite.  The contract rejects exactly a trade that lost its price
or its size that way.  Silver and the completeness baseline drop the same
trades.
-/

namespace TickStream

open Python Library

/-- `read_bronze(settings).to_pandas()`: the columns of the files, then those of
the directories. -/
def bronzeFrame (rows : List BronzeRow) : DataFrame :=
  let events := rows.map MarketEvent.ofJson
  { columns :=
      [eventColumn events "exchange" .str (fun event => .str event.exchange),
        eventColumn events "price" .float64 (fun event => numCell event.price),
        eventColumn events "size" .float64 (fun event => numCell event.size),
        eventColumn events "side" .str
          (fun event => strCell (event.side.map Side.value)),
        eventColumn events "trade_id" .str
          (fun event => strCell event.tradeId),
        eventColumn events "best_bid" .float64
          (fun event => numCell event.bestBid),
        eventColumn events "best_ask" .float64
          (fun event => numCell event.bestAsk),
        eventColumn events "best_bid_size" .float64
          (fun event => numCell event.bestBidSize),
        eventColumn events "best_ask_size" .float64
          (fun event => numCell event.bestAskSize),
        eventColumn events "ts_event" .datetimeMicros
          (fun event => .time event.tsEvent),
        eventColumn events "ts_ingest" .datetimeMicros
          (fun event => .time event.tsIngest),
        eventColumn events "event_type" .str
          (fun event => .str event.eventType.value),
        eventColumn events "symbol" .str (fun event => .str event.symbol)]
    height := rows.length
    aligned := by
      intro column member
      simp only [List.mem_cons, List.not_mem_nil, or_false] at member
      rcases member with rfl | rfl | rfl | rfl | rfl | rfl | rfl | rfl | rfl |
        rfl | rfl | rfl | rfl <;> simp [eventColumn, events] }

/-- What the command prints. -/
structure ContractsReport where
  valid : Nat
  violations : Nat
  outOfOrder : Nat
deriving DecidableEq, Repr

/-- `contracts`, with the rows in the order the dataset gives them. -/
def contracts (engine : Pandera) (settings : Settings)
    (rows : List BronzeRow) : ContractsReport :=
  let result := applyContract engine (bronzeFrame rows) settings.source.symbols
  { valid := result.valid.length
    violations := result.quarantined.length
    outOfOrder :=
      countOutOfOrder MarketEvent.symbol MarketEvent.tsEvent rows }

/-- A trade without a price or without a size. -/
def isUnpriced (row : BronzeRow) : Bool :=
  row.eventType = .trade && (row.price.isNone || row.size.isNone)

/-- The row carries what its silver model asks for besides price and size. -/
def carriesSilverColumns (row : BronzeRow) : Bool :=
  match row.eventType with
  | .trade => row.tradeId.isSome
  | .ticker => row.bestBid.isSome && row.bestAsk.isSome

/-- The columns a contract reads. -/
def ContractSchema.reads (schema : ContractSchema) : List String :=
  schema.columns.map ColumnSchema.name ++ schema.checks.flatMap RowCheck.reads

private theorem mapM_congr {α β : Type} {names : List α}
    {first second : α → Option β}
    (same : ∀ name ∈ names, first name = second name) :
    names.mapM first = names.mapM second := by
  induction names with
  | nil => rfl
  | cons name rest induction =>
      have tail := induction (fun other member =>
        same other (List.mem_cons_of_mem name member))
      rw [List.mapM_cons, List.mapM_cons, same name List.mem_cons_self, tail]

section Columns

variable {engine : Pandera} {schema : ContractSchema}
  {first second : DataFrame}

theorem RowCheck.failures_congr {check : RowCheck}
    (height : first.height = second.height)
    (columns : ∀ name ∈ check.reads,
      first.column? name = second.column? name) :
    check.failures first = check.failures second := by
  have cells : ∀ index, check.cellsAt first index =
      check.cellsAt second index := by
    intro index
    apply mapM_congr
    intro name member
    rw [columns name member]
  have found : check.reads.all (fun name => (first.column? name).isSome) =
      check.reads.all (fun name => (second.column? name).isSome) := by
    rw [Bool.eq_iff_iff, List.all_eq_true, List.all_eq_true]
    apply forall₂_congr
    intro name member
    rw [columns name member]
  have same : check.outcomes first = check.outcomes second := by
    simp only [RowCheck.outcomes, cells, height]
  simp only [RowCheck.failures, same, cells, found, height]

/-- Validation reads the columns it names, whatever their order and whatever
else the frame holds. -/
theorem ContractSchema.validate_congr
    (height : first.height = second.height)
    (columns : ∀ name ∈ schema.reads,
      first.column? name = second.column? name) :
    schema.validate engine first = schema.validate engine second := by
  simp only [reads, List.mem_append, List.mem_map, List.mem_flatMap] at columns
  have typed : ∀ column ∈ schema.columns,
      column.failures engine first = column.failures engine second := by
    intro column member
    have same := columns column.name (Or.inl ⟨column, member, rfl⟩)
    simp only [ColumnSchema.failures, same]
  have checked : ∀ check ∈ schema.checks,
      check.failures first = check.failures second := by
    intro check member
    apply RowCheck.failures_congr height
    intro name read
    exact columns name (Or.inr ⟨check, member, read⟩)
  simp only [validate]
  rw [List.flatMap_congr typed, List.flatMap_congr checked]

private theorem applyContract_congr {symbols : List String}
    (height : first.height = second.height)
    (columns : ∀ name ∈ (buildContract symbols).reads,
      first.column? name = second.column? name) :
    applyContract engine first symbols =
      applyContract engine second symbols := by
  simp only [applyContract, ContractSchema.validate_congr height columns,
    height]

end Columns

/-- The contract sees the rows read back as it sees their events. -/
theorem applyContract_bronzeFrame (engine : Pandera) (rows : List BronzeRow)
    (symbols : List String) :
    applyContract engine (bronzeFrame rows) symbols =
      applyContract engine (eventsToFrame (rows.map MarketEvent.ofJson))
        symbols := by
  apply applyContract_congr
  · simp [bronzeFrame, eventsToFrame]
  · intro name member
    simp only [ContractSchema.reads, buildContract, stringColumn, floatColumn,
      timeColumn, spreadNonNegative, tradeHasPriceAndSize, List.map_cons,
      List.map_nil, List.flatMap_cons, List.flatMap_nil, List.cons_append,
      List.nil_append, List.mem_cons, List.not_mem_nil, or_false] at member
    rcases member with rfl | rfl | rfl | rfl | rfl | rfl | rfl | rfl | rfl |
      rfl | rfl | rfl | rfl | rfl | rfl | rfl <;> rfl

/-- What a row keeps of the event that was accepted. -/
structure LandedRow (settings : Settings) (row : BronzeRow) : Prop where
  checked : row.ofJson.basicContract = .ok ()
  configured : row.symbol ∈ settings.source.symbols

section Row

variable {settings : Settings} {row : BronzeRow}

/-- The contract holds against a landed row that it is an unpriced trade. -/
theorem LandedRow.meetsContract_iff (landed : LandedRow settings row) :
    MeetsContract settings.source.symbols row.ofJson ↔
      isUnpriced row = false := by
  have present : ∀ field : Option Rat,
      isPresent (field.map PyFloat.fin) = field.isSome := by
    intro field
    cases field <;> rfl
  rw [meetsContract_ingested_iff landed.checked landed.configured]
  simp only [MarketEvent.ofJson, present, isUnpriced, Bool.or_eq_false_iff,
    Bool.and_eq_false_iff, decide_eq_false_iff_not,
    Option.isNone_eq_false_iff, ← imp_iff_not_or]

/-- The numbers of a landed row keep to the validator's bounds. -/
theorem LandedRow.values (landed : LandedRow settings row) :
    (∀ price, row.price = some price → 0 < price) ∧
      (∀ size, row.size = some size → 0 ≤ size) ∧
      ∀ bid ask, row.bestBid = some bid → row.bestAsk = some ask →
        bid ≤ ask := by
  obtain ⟨price, size, _, _, _, _, uncrossed⟩ :=
    MarketEvent.basicContract_ok_iff.mp landed.checked
  refine ⟨?_, ?_, ?_⟩
  · intro value carried
    have above := price (.fin value) (by simp [MarketEvent.ofJson, carried])
    simpa [PyFloat.le] using above
  · intro value carried
    have above := size (.fin value) (by simp [MarketEvent.ofJson, carried])
    simpa [PyFloat.lt] using above
  · intro bid ask hasBid hasAsk
    have above := uncrossed (.fin bid) (.fin ask)
      (by simp [MarketEvent.ofJson, hasBid])
      (by simp [MarketEvent.ofJson, hasAsk])
    simpa [PyFloat.lt] using above

/-- Silver and the completeness baseline keep a landed row unless it is a trade
without price or size, or lacks a column its model asks for. -/
theorem LandedRow.silverValid_eq (landed : LandedRow settings row) :
    silverValid row = (!isUnpriced row && carriesSilverColumns row) := by
  obtain ⟨positive, nonnegative, uncrossed⟩ := landed.values
  cases kind : row.eventType with
  | trade =>
      cases price : row.price with
      | none => simp [silverValid, isUnpriced, kind, price]
      | some value =>
          have above := positive value price
          cases size : row.size with
          | none => simp [silverValid, isUnpriced, kind, price, size]
          | some amount =>
              have notBelow := nonnegative amount size
              simp [silverValid, isUnpriced, carriesSilverColumns, kind, price,
                size, above, notBelow]
  | ticker =>
      cases bid : row.bestBid with
      | none => simp [silverValid, carriesSilverColumns, kind, bid]
      | some bidValue =>
          cases ask : row.bestAsk with
          | none => simp [silverValid, carriesSilverColumns, kind, bid, ask]
          | some askValue =>
              have ordered := uncrossed bidValue askValue bid ask
              simp [silverValid, isUnpriced, carriesSilverColumns, kind, bid,
                ask, ordered]

end Row

section Report

variable {engine : Pandera} {settings : Settings} {rows : List BronzeRow}

/-- As a ticker a landed row meets the contract, so the columns and the quotes
are not what a trade is reported for. -/
theorem LandedRow.only_trade_check {row : BronzeRow}
    (landed : LandedRow settings row) :
    (∀ entry ∈ contractColumns settings.source.symbols,
      entry.1.rejects (entry.2.2 row.ofJson) = false) ∧
    spreadNonNegative.passes (quoteCells row.ofJson) ≠ some false := by
  let ticker : BronzeRow := { row with eventType := .ticker }
  have asTicker : LandedRow settings ticker :=
    ⟨landed.checked, landed.configured⟩
  have priced : isUnpriced ticker = false := rfl
  obtain ⟨columns, quotes, _⟩ :=
    (TickStream.meetsContract_iff _ _).mp
      (asTicker.meetsContract_iff.mpr priced)
  refine ⟨?_, quotes⟩
  simp only [contractColumns, List.forall_mem_cons, List.not_mem_nil,
    false_imp_iff, implies_true, and_true] at columns ⊢
  obtain ⟨exchange, symbol, _, others⟩ := columns
  exact ⟨exchange, symbol, rejects_eventType, others⟩

/-- A row of a frame of events breaks a rule when the contract rejects its
event. -/
theorem breaks_iff (documented : engine.Documented)
    (events : List (MarketEvent PyFloat)) (symbols : List String)
    (index : Nat) :
    (∃ rule, (buildContract symbols).Breaks engine true (eventsToFrame events)
      index rule) ↔ ∃ event, events[index]? = some event ∧
        ¬ MeetsContract symbols event := by
  rw [← validate_row_iff documented]
  constructor
  · intro broken
    obtain ⟨rule, breaks⟩ := broken
    exact ⟨_, ContractSchema.mem_validate_iff.mpr breaks, rfl⟩
  · intro reported
    obtain ⟨⟨rule, position⟩, member, here⟩ := reported
    simp only at here
    subst here
    exact ⟨rule, ContractSchema.mem_validate_iff.mp member⟩

theorem mem_quarantined_bronze_iff (documented : engine.Documented)
    (landed : ∀ row ∈ rows, LandedRow settings row) (index : Nat) :
    index ∈ (applyContract engine (bronzeFrame rows)
        settings.source.symbols).quarantined.map Prod.fst ↔
      ∃ row, rows[index]? = some row ∧ isUnpriced row = true := by
  rw [applyContract_bronzeFrame, mem_quarantined_iff, breaks_iff documented]
  simp only [List.getElem?_map, Option.map_eq_some_iff]
  constructor
  · intro broken
    obtain ⟨_, ⟨row, here, rfl⟩, breaks⟩ := broken
    have kept := landed row (List.mem_of_getElem? here)
    rw [kept.meetsContract_iff, Bool.not_eq_false] at breaks
    exact ⟨row, here, breaks⟩
  · intro rejected
    obtain ⟨row, here, rejects⟩ := rejected
    have kept := landed row (List.mem_of_getElem? here)
    refine ⟨row.ofJson, ⟨row, here, rfl⟩, ?_⟩
    rw [kept.meetsContract_iff, rejects]
    exact Bool.noConfusion

/-- A landed row is reported for the check on trades only. -/
private theorem quarantine_reason_bronze (documented : engine.Documented)
    (landed : ∀ row ∈ rows, LandedRow settings row) {index : Nat}
    {reason : String}
    (member : (index, reason) ∈ (applyContract engine (bronzeFrame rows)
      settings.source.symbols).quarantined) :
    reason = "trade_has_price_and_size" := by
  have position := List.mem_map_of_mem (f := Prod.fst) member
  obtain ⟨row, here, _⟩ :=
    (mem_quarantined_bronze_iff documented landed index).mp position
  rw [applyContract_bronzeFrame] at member
  obtain ⟨names, joined, occupied, increasing, broken⟩ :=
    quarantined_reason member
  have event : (rows.map MarketEvent.ofJson)[index]? = some row.ofJson := by
    rw [List.getElem?_map, here, Option.map_some]
  obtain ⟨columns, quotes⟩ :=
    (landed row (List.mem_of_getElem? here)).only_trade_check
  have only : ∀ name ∈ names, name = "trade_has_price_and_size" := by
    intro name listed
    rcases (broken name).mp listed with
      ⟨schema, inside, column, found, breaks⟩ | ⟨check, inside, breaks⟩
    · rw [buildContract_columns] at inside
      obtain ⟨entry, entryMember, rfl⟩ := List.mem_map.mp inside
      obtain ⟨other, otherHere, rejects⟩ :=
        (contractColumn_row_iff documented _ _ index entry entryMember).mp
          ⟨_, ColumnSchema.mem_failures_iff.mpr ⟨column, found, breaks⟩, rfl⟩
      rw [event, Option.some.injEq] at otherHere
      subst otherHere
      rw [columns entry entryMember] at rejects
      cases rejects
    · have reported := RowCheck.mem_failures_iff.mpr breaks
      simp only [buildContract, List.mem_cons, List.not_mem_nil,
        or_false] at inside
      rcases inside with rfl | rfl
      · obtain ⟨other, otherHere, fails⟩ :=
          (spread_row_iff _ index).mp ⟨_, reported, rfl⟩
        rw [event, Option.some.injEq] at otherHere
        subst otherHere
        exact absurd fails quotes
      · exact breaks.2.2.2
  obtain ⟨first, rest, rfl⟩ := List.exists_cons_of_ne_nil occupied
  cases rest with
  | nil => rw [joined, only first (by simp), String.intercalate_singleton]
  | cons second others =>
      have less := List.rel_of_pairwise_cons increasing
        (List.mem_cons_self (a := second) (l := others))
      rw [only first (by simp), only second (by simp)] at less
      exact absurd less (lt_irrefl _)

end Report

private theorem length_filter_positions {α : Type} (holds : α → Bool)
    (rows : List α) :
    ((List.range rows.length).filter
      (fun index => rows[index]?.any holds)).length = rows.countP holds := by
  induction rows with
  | nil => rfl
  | cons row rest induction =>
      rw [List.length_cons, List.range_succ_eq_map, List.filter_cons,
        List.filter_map, List.countP_cons, ← induction]
      simp only [List.getElem?_cons_zero, Option.any_some,
        Function.comp_def, List.getElem?_cons_succ]
      split <;> simp

section Counts

variable {engine : Pandera} {settings : Settings} {rows : List BronzeRow}

private theorem violations_eq_countP (documented : engine.Documented)
    (landed : ∀ row ∈ rows, LandedRow settings row) :
    (contracts engine settings rows).violations = rows.countP isUnpriced := by
  have bad : isBad engine (bronzeFrame rows) settings.source.symbols =
      fun index => rows[index]?.any isUnpriced := by
    funext index
    rw [Bool.eq_iff_iff, isBad_iff, ← mem_quarantined_iff,
      mem_quarantined_bronze_iff documented landed]
    simp [Option.any_eq_true]
  rw [← length_filter_positions]
  simp only [contracts, applyContract_quarantined, List.length_map]
  rw [bad]
  rfl

private theorem valid_add_violations (engine : Pandera) (settings : Settings)
    (rows : List BronzeRow) :
    (contracts engine settings rows).valid +
      (contracts engine settings rows).violations = rows.length := by
  have split := (filter_partition_perm
    (isBad engine (bronzeFrame rows) settings.source.symbols)
    (bronzeFrame rows).height).length_eq
  rw [← applyContract_valid, ← quarantined_positions, List.length_append,
    List.length_map, List.length_range] at split
  exact split

end Counts

section Run

variable {settings : Settings} {fixture : Option (List RecordedMessage)}
  {env : Environment} {partitioner : String → String → Nat}
  {history : BrokerHistory} {lake after : Lake} {result : PipelineResult}

private theorem normalizeMessage_configured {message : RecordedMessage}
    {tsIngest : Instant} {log : NormalizeLog} {valid : ValidEvent}
    (normalized : normalizeMessage settings tsIngest message = .ok log)
    (member : valid ∈ log.done) :
    valid.event.symbol ∈ settings.source.symbols := by
  obtain ⟨symbolMap, built, safe⟩ := bind_eq_ok_iff.mp normalized
  rcases (mem_done_iff safe).mp member with
    ⟨fields, offered, same⟩ | ⟨fields, offered, same⟩
  · rw [same]
    exact offered.configured built
  · rw [same]
    exact offered.configured built

/-- Normalization gives every trade a price and a size, so a trade loses one to
JSON exactly when it is not finite. -/
private theorem normalizeMessage_unpriced_iff {message : RecordedMessage}
    {tsIngest : Instant} {log : NormalizeLog} {valid : ValidEvent}
    (normalized : normalizeMessage settings tsIngest message = .ok log)
    (member : valid ∈ log.done) :
    isUnpriced valid.event.toJsonBytes = true ↔
      valid.event.eventType = .trade ∧ ∃ value,
        (valid.event.price = some value ∨ valid.event.size = some value) ∧
          value.isFinite = false := by
  have lost : ∀ value : PyFloat,
      value.toJson.isNone = true ↔ value.isFinite = false := by
    intro value
    cases value <;> simp [PyFloat.toJson, PyFloat.isFinite]
  obtain ⟨symbolMap, _, safe⟩ := bind_eq_ok_iff.mp normalized
  rcases (mem_done_iff safe).mp member with
    ⟨fields, _, same⟩ | ⟨fields, _, same⟩
  · rw [same]
    simp [isUnpriced, MarketEvent.toJsonBytes, TradeFields.event, lost,
      or_and_right, exists_or]
  · rw [same]
    simp [isUnpriced, MarketEvent.toJsonBytes, TickFields.event]

theorem ValidEvent.landed (valid : ValidEvent)
    (configured : valid.event.symbol ∈ settings.source.symbols) :
    LandedRow settings valid.event.toJsonBytes := by
  obtain ⟨decoded, _, same⟩ := MarketEvent.fromJsonBytes_toJsonBytes valid
  refine ⟨?_, configured⟩
  rw [← same]
  exact decoded.checked

theorem Normalizes.log_mem {clock : Nat → Instant} {count : Nat}
    {messages : List RecordedMessage} {logs : List NormalizeLog}
    (normalizes : Normalizes settings clock count messages logs)
    {log : NormalizeLog} (member : log ∈ logs) :
    ∃ message tsIngest, normalizeMessage settings tsIngest message =
      .ok log := by
  obtain ⟨index, inside, rfl⟩ := List.getElem_of_mem member
  have entries := inside
  rw [← List.Forall₂.length_eq normalizes] at entries
  exact ⟨_, _, List.Forall₂.get normalizes entries inside⟩

/-- Bronze after a run that reports rows: as many as reported, each from an
event the replay published. -/
theorem landed_of_run
    (onBroker : env.OnBroker settings fixture partitioner history)
    (ran : runPipeline settings fixture env lake = .ok (result, after))
    (occupied : 0 < result.bronzeRows) :
    after.bronze.length = result.bronzeRows ∧
      ∀ row ∈ after.bronze, LandedRow settings row := by
  have delivers := bronze_delivered_subperm onBroker
  obtain ⟨_, rows, bronze⟩ := runPipeline_eq_ok delivers ran
  have nonempty : env.bronze.rows 30 3 ≠ [] := by
    intro empty
    rw [empty, List.length_nil] at rows
    omega
  rw [bronze nonempty]
  refine ⟨by rw [List.length_map, rows], ?_⟩
  obtain ⟨messages, rfl, ended, _⟩ := runPipeline_quarantine ran
  obtain ⟨logs, normalizes, raw, _⟩ := replayLoop_logs ended
  intro row member
  obtain ⟨message, drained, rfl⟩ := List.mem_map.mp member
  have published := delivers.subset
    ((env.bronze.rows_initial 30 3).subset drained)
  simp only [publishedRaw, raw, List.mem_flatMap, List.mem_map] at published
  obtain ⟨log, logged, valid, done, rfl⟩ := published
  obtain ⟨message, tsIngest, normalized⟩ := normalizes.log_mem logged
  exact valid.landed (normalizeMessage_configured normalized done)

/-- After a run that reports bronze rows, whoever else used the broker and in
whatever order the dataset is read, `contracts` accounts for every row.  It
quarantines exactly the trades that lost their price or size to JSON, and silver
drops those trades too.  If the report counts every event, the violations are
those of the events normalization made. -/
theorem contracts_after_run {engine : Pandera} (documented : engine.Documented)
    (onBroker : env.OnBroker settings fixture partitioner history)
    (ran : runPipeline settings fixture env lake = .ok (result, after))
    (occupied : 0 < result.bronzeRows) {rows : List BronzeRow}
    (read : rows.Perm after.bronze) :
    let report := contracts engine settings rows
    let quarantined := (applyContract engine (bronzeFrame rows)
      settings.source.symbols).quarantined
    report.valid + report.violations = result.bronzeRows ∧
    (∀ index, index ∈ quarantined.map Prod.fst ↔
      ∃ row, rows[index]? = some row ∧ isUnpriced row = true) ∧
    (∀ index reason, (index, reason) ∈ quarantined →
      reason = "trade_has_price_and_size") ∧
    (∀ row ∈ rows,
      silverValid row = (!isUnpriced row && carriesSilverColumns row)) ∧
    (result.bronzeRows = result.replayedEvents →
      ∃ messages logs, fixture = some messages ∧
        Normalizes (settings.isolated env.uid) env.clock 0 messages logs ∧
        report.violations = (logs.flatMap (fun log => log.done)).countP
          (fun valid => isUnpriced valid.event.toJsonBytes) ∧
        ∀ log ∈ logs, ∀ valid ∈ log.done,
          isUnpriced valid.event.toJsonBytes = true ↔
            valid.event.eventType = .trade ∧ ∃ value,
              (valid.event.price = some value ∨
                valid.event.size = some value) ∧
              value.isFinite = false) := by
  intro report quarantined
  obtain ⟨count, all⟩ := landed_of_run onBroker ran occupied
  have landed : ∀ row ∈ rows, LandedRow settings row := by
    intro row member
    exact all row (read.mem_iff.mp member)
  refine ⟨?_, mem_quarantined_bronze_iff documented landed, ?_, ?_, ?_⟩
  · rw [valid_add_violations, read.length_eq, count]
  · intro index reason member
    exact quarantine_reason_bronze documented landed member
  · intro row member
    exact (landed row member).silverValid_eq
  · intro counted
    obtain ⟨messages, logs, same, normalizes, _, bronze⟩ :=
      run_accounts_for_fixture onBroker ran
    refine ⟨messages, logs, same, normalizes, ?_, ?_⟩
    · have events := bronze occupied counted
      rw [← List.map_flatMap] at events
      rw [violations_eq_countP documented landed,
        (read.trans events).countP_eq, List.countP_map]
      rfl
    · intro log logged valid done
      obtain ⟨message, tsIngest, normalized⟩ := normalizes.log_mem logged
      exact normalizeMessage_unpriced_iff normalized done

end Run

/-- The contract passes the three events of the run that shares its broker. -/
theorem contracts_after_run_sample :
    ∃ result after,
      runPipeline sampleSettings (some minutesFixture) minutesEnvironment
        ⟨[], [], []⟩ = .ok (result, after) ∧
      (contracts eventPandera sampleSettings after.bronze.reverse).valid +
        (contracts eventPandera sampleSettings
          after.bronze.reverse).violations = 3 ∧
      ∀ row ∈ after.bronze.reverse,
        silverValid row = (!isUnpriced row && carriesSilverColumns row) := by
  obtain ⟨result, after, ran, rows, _⟩ := minutes_reported
  obtain ⟨accounted, _, _, silver, _⟩ :=
    contracts_after_run eventPandera_documented minutes_onBroker ran
      (by omega) (List.reverse_perm after.bronze)
  exact ⟨result, after, ran, accounted.trans rows, silver⟩

end TickStream
