import TickStream.Dbt.Restamp
import TickStream.EndToEnd
import TickStream.Quality.Latency

/-!
# Running the pipeline twice

Two runs of one fixture differ in their topics, their clocks, the brokers they
meet and the lakes they find.  When both count every event in bronze they build
the same gold and report the same numbers, up to the latency and the windows
the stream had closed in time.
-/

namespace TickStream

open Python Library

/-- The bronze rows of the events of a log. -/
def rowsOf (log : NormalizeLog) : List BronzeRow :=
  log.done.map (fun valid => valid.event.toJsonBytes)

section Logs

variable {settings : Settings} {first second : Instant}
  {message : RecordedMessage} {log other : NormalizeLog}

/-- Only the ingest time of an event with a time of its own is the clock's. -/
private theorem toJsonBytes_of_clockless {event : MarketEvent PyFloat}
    (timed : event.isBookTicker = false) :
    event.toJsonBytes =
      (event.withoutClock.toJsonBytes).stamped event.tsIngest := by
  simp [MarketEvent.withoutClock, timed, MarketEvent.toJsonBytes,
    MarketEvent.stamped]

/-- Normalized at two times a message gives the same rows, stamped with either
time, and the same rejects. -/
private theorem rowsOf_stamped
    (ran : normalizeMessage settings first message = .ok log)
    (ranOther : normalizeMessage settings second message = .ok other)
    (timed : ∀ valid ∈ log.done, valid.event.isBookTicker = false) :
    rowsOf log = (rowsOf log).map (fun row => row.stamped first) ∧
      rowsOf other = (rowsOf log).map (fun row => row.stamped second) ∧
      log.refused = other.refused := by
  have views : log.view clockless = other.view clockless := by
    have same := clockless_normalizeMessage settings first second message
    rw [ran, ranOther] at same
    exact Except.ok.inj same
  have events : log.done.map clockless = other.done.map clockless :=
    congrArg Log.done views
  have timedOther : ∀ valid ∈ other.done,
      valid.event.isBookTicker = false := by
    intro valid member
    have found : clockless valid ∈ log.done.map clockless := by
      rw [events]
      exact List.mem_map_of_mem member
    obtain ⟨twin, inside, same⟩ := List.mem_map.mp found
    have kind : (clockless twin).isBookTicker =
        (clockless valid).isBookTicker := by rw [same]
    exact kind.symm.trans (timed twin inside)
  have rows : ∀ {tsIngest : Instant} {log : NormalizeLog},
      normalizeMessage settings tsIngest message = .ok log →
      (∀ valid ∈ log.done, valid.event.isBookTicker = false) →
      rowsOf log = (log.done.map clockless).map
        (fun event => event.toJsonBytes.stamped tsIngest) := by
    intro tsIngest log ran timed
    rw [List.map_map]
    apply List.map_congr_left
    intro valid member
    rw [toJsonBytes_of_clockless (timed valid member),
      normalizeMessage_ingested ran valid member]
    rfl
  have restamped : ∀ tsIngest, (rowsOf log).map
      (fun row => row.stamped tsIngest) = (log.done.map clockless).map
        (fun event => event.toJsonBytes.stamped tsIngest) := by
    intro tsIngest
    rw [rows ran timed, List.map_map, List.map_map, List.map_map]
    rfl
  have refused : (log.view clockless).refused =
      (other.view clockless).refused := by rw [views]
  refine ⟨?_, ?_, refused⟩
  · rw [restamped]
    exact rows ran timed
  · rw [restamped, events]
    exact rows ranOther timedOther

end Logs

theorem stampedBy_turn (clock : Nat → Instant) (rows : List BronzeRow)
    (turn : Nat) (entries : List (BronzeRow × Nat)) :
    stampedBy clock (rows.map (fun row => (row, turn)) ++ entries) =
      rows.map (fun row => row.stamped (clock turn)) ++
        stampedBy clock entries := by
  simp [stampedBy, Function.comp_def]

/-- Two replays have the rows of the same turns, stamped by either clock. -/
private theorem normalizes_stamped {settings : Settings}
    {first second : Nat → Instant}
    {count : Nat} {messages : List RecordedMessage}
    {logs others : List NormalizeLog}
    (one : Normalizes settings first count messages logs)
    (two : Normalizes settings second count messages others)
    (timed : ∀ row ∈ logs.flatMap rowsOf, row.isBookTicker = false) :
    ∃ entries : List (BronzeRow × Nat),
      entries.map Prod.fst = logs.flatMap rowsOf ∧
      logs.flatMap rowsOf = stampedBy first entries ∧
      others.flatMap rowsOf = stampedBy second entries ∧
      logs.map Log.refused = others.map Log.refused := by
  induction messages generalizing count logs others with
  | nil =>
      cases one
      cases two
      exact ⟨[], rfl, rfl, rfl, rfl⟩
  | cons message rest induction =>
      cases one with
      | cons ran one =>
          rename_i log logs
          cases two with
          | cons ranOther two =>
              rename_i other others
              rw [List.flatMap_cons] at timed
              obtain ⟨entries, rows, stamped, stampedOther, refused⟩ :=
                induction one two (fun row member =>
                  timed row (List.mem_append_right _ member))
              obtain ⟨here, there, rejects⟩ := rowsOf_stamped ran ranOther
                (fun valid member => timed _
                  (List.mem_append_left _ (List.mem_map_of_mem member)))
              refine ⟨(rowsOf log).map (fun row => (row, count)) ++ entries,
                ?_, ?_, ?_, ?_⟩
              · rw [List.map_append, List.map_map, rows, List.flatMap_cons]
                simp [Function.comp_def]
              · rw [List.flatMap_cons, stampedBy_turn, stamped]
                exact congrArg (fun rows => rows ++ stampedBy first entries)
                  here
              · rw [List.flatMap_cons, stampedBy_turn, stampedOther, there]
              · rw [List.map_cons, List.map_cons, rejects, refused]

section Numbers

variable {bronze other : List BronzeRow} {gold goldOther : List GoldRow}

theorem expectedKeys_perm (same : bronze.Perm other) :
    (expectedKeys bronze).Perm (expectedKeys other) := by
  apply List.Perm.flatMap_left
  intro size _
  apply List.Perm.map
  exact ((same.filter silverValid).map _).dedup

private theorem expectedKeys_stampedBy (clock : Nat → Instant)
    (entries : List (BronzeRow × Nat)) :
    expectedKeys (stampedBy clock entries) =
      expectedKeys (entries.map Prod.fst) := by
  have buckets : ∀ secs, distinctBuckets (stampedBy clock entries) secs =
      distinctBuckets (entries.map Prod.fst) secs := by
    intro secs
    simp only [distinctBuckets, stampedBy, List.filter_map, List.map_map]
    rfl
  simp only [expectedKeys, buckets]

/-- Expected windows and gold determine the completeness of every symbol. -/
private theorem completenessBySymbol_perm
    (expected : (expectedKeys bronze).Perm (expectedKeys other))
    (built : gold.Perm goldOther) :
    (completenessBySymbol bronze gold).Perm
      (completenessBySymbol other goldOther) := by
  have counts : ∀ symbol, expectedCount bronze symbol =
      expectedCount other symbol := by
    intro symbol
    exact expected.countP_eq _
  have produced : ∀ symbol, producedWindows gold symbol =
      producedWindows goldOther symbol := by
    intro symbol
    exact built.countP_eq _
  have entries : (expectedWindowsBySymbol bronze).entries.Perm
      (expectedWindowsBySymbol other).entries := by
    rw [List.perm_ext_iff_of_nodup
      (List.Nodup.of_map _ (expectedWindowsBySymbol bronze).keysDistinct)
      (List.Nodup.of_map _ (expectedWindowsBySymbol other).keysDistinct)]
    intro entry
    rw [mem_expectedWindows_iff, mem_expectedWindows_iff, counts]
  simp only [completenessBySymbol, produced]
  exact entries.map _

private theorem worstCompleteness_perm {left right : List (String × Rat)}
    (same : left.Perm right) :
    worstCompleteness left = worstCompleteness right := by
  induction same with
  | nil => rfl
  | cons first rest => exact (rest.map Prod.snd).foldl_op_eq
  | swap first second rest =>
      simp only [worstCompleteness, List.map_cons, List.foldl_cons, min_comm]
  | trans _ _ first second => exact first.trans second

private theorem goldSnapshots_perm (built : gold.Perm goldOther) :
    goldSnapshots gold = goldSnapshots goldOther := by
  simp only [goldSnapshots, built.any_eq]

end Numbers

section Run

variable {settings : Settings} {messages : List RecordedMessage}
  {env : Environment} {lake after : Lake} {result : PipelineResult}

/-- A report up to what depends on time: the windows closed in the stream and
the latency. -/
def PipelineResult.timeless (result : PipelineResult) : PipelineResult :=
  { result with windowRows := 0, latencyP95 := 0, slaPassed := false }

/-- What a successful run reports about the replay and the bronze it leaves. -/
theorem runPipeline_report
    (ran : runPipeline settings (some messages) env lake =
      .ok (result, after)) :
    (replayLoop (settings.isolated env.uid) none env.clock 0
        messages).outcome = .ok () ∧
    result.timeless =
      { replayedEvents :=
          (publishedRaw settings (some messages) env).length
        bronzeRows := result.bronzeRows
        windowRows := 0
        goldRows := (goldWindowMetrics after.bronze).length
        goldSnapshots := goldSnapshots (goldWindowMetrics after.bronze)
        quarantined :=
          (publishedQuarantine settings (some messages) env).length
        latencyP95 := 0
        completenessPct := worstCompleteness (completenessBySymbol
          after.bronze (goldWindowMetrics after.bronze))
        goldViolations := goldViolations (goldWindowMetrics after.bronze)
        slaPassed := false } := by
  obtain ⟨own, landed, same, completed⟩ := runPipeline_completed ran
  rw [Option.some.injEq] at same
  subst same
  refine ⟨completed.replayed, ?_⟩
  rw [completed.report]
  simp only [PipelineResult.timeless, completed.reconciled,
    publishedQuarantine]

/-- The rows a successful run publishes and its rejects are those of the logs
of its messages. -/
theorem exists_logs
    (ended : (replayLoop (settings.isolated env.uid) none env.clock 0
      messages).outcome = .ok ()) :
    ∃ logs, Normalizes settings env.clock 0 messages logs ∧
      (publishedRaw settings (some messages) env).map RawMessage.value =
        logs.flatMap rowsOf ∧
      publishedQuarantine settings (some messages) env =
        (messages.zip (logs.map Log.refused)).flatMap (fun pair =>
          quarantineRecords pair.1 pair.2) := by
  obtain ⟨logs, normalizes, raw, quarantined⟩ := replayLoop_logs ended
  refine ⟨logs, normalizes, ?_, ?_⟩
  · change ((replayLoop _ none env.clock 0 messages).raw).map _ = _
    rw [raw, List.map_flatMap]
    simp only [List.map_map]
    rfl
  · change (replayLoop _ none env.clock 0 messages).quarantined = _
    rw [quarantined, List.zip_map_right, List.flatMap_map]
    rfl

end Run

/-- Copies of a trade with one event time agree on price and size. -/
def CopiesAgree (rows : List BronzeRow) : Prop :=
  ∀ row ∈ rows, ∀ copy ∈ rows, row.tradeId ≠ none →
    row.symbol = copy.symbol → row.tradeId = copy.tradeId →
    row.tsEvent = copy.tsEvent → row.price = copy.price ∧ row.size = copy.size

/-- Two runs of a fixture without Binance.US quotes that land every event build
the same gold and report the same numbers, whatever brokers they meet and lakes
they find, if copies of a trade agree or the two clocks read the messages in
the same order. -/
theorem pipeline_reproducible {settings : Settings}
    {messages : List RecordedMessage} {env other : Environment}
    {partitioner partitionerOther : String → String → Nat}
    {history historyOther : BrokerHistory}
    {lake lakeOther after afterOther : Lake}
    {result resultOther : PipelineResult}
    (onBroker : env.OnBroker settings (some messages) partitioner history)
    (onBrokerOther : other.OnBroker settings (some messages) partitionerOther
      historyOther)
    (ran : runPipeline settings (some messages) env lake =
      .ok (result, after))
    (ranOther : runPipeline settings (some messages) other lakeOther =
      .ok (resultOther, afterOther))
    (occupied : 0 < result.bronzeRows)
    (counted : result.bronzeRows = result.replayedEvents)
    (countedOther : resultOther.bronzeRows = resultOther.replayedEvents)
    (timed : ∀ message ∈ publishedRaw settings (some messages) env,
      message.value.isBookTicker = false)
    (settled : CopiesAgree ((publishedRaw settings (some messages) env).map
        RawMessage.value) ∨
      ∀ turn later, env.clock turn ≤ env.clock later ↔
        other.clock turn ≤ other.clock later) :
    result.timeless = resultOther.timeless ∧
      ∀ gold goldOther, GoldOf after.bronze gold →
        GoldOf afterOther.bronze goldOther → gold.Perm goldOther := by
  obtain ⟨ended, report⟩ := runPipeline_report ran
  obtain ⟨endedOther, reportOther⟩ := runPipeline_report ranOther
  obtain ⟨logs, normalizes, rows, rejects⟩ := exists_logs ended
  obtain ⟨others, normalizesOther, rowsOther, rejectsOther⟩ :=
    exists_logs endedOther
  obtain ⟨entries, unstamped, stamped, stampedOther, refused⟩ :=
    normalizes_stamped normalizes normalizesOther (by
      intro row member
      rw [← rows] at member
      obtain ⟨message, published, rfl⟩ := List.mem_map.mp member
      exact timed message published)
  have settles : Settles env.clock other.clock entries := by
    intro entry inside copy copyInside named symbol tradeId tsEvent
    rcases settled with agree | order
    · rw [rows, ← unstamped] at agree
      exact Or.inl (agree _ (List.mem_map_of_mem inside) _
        (List.mem_map_of_mem copyInside) named symbol tradeId tsEvent)
    · exact Or.inr (order _ _)
  have lengths : (publishedRaw settings (some messages) env).length =
      (publishedRaw settings (some messages) other).length := by
    have here := congrArg List.length (rows.trans stamped)
    have there := congrArg List.length (rowsOther.trans stampedOther)
    simp only [List.length_map, stampedBy] at here there
    rw [here, there]
  have events : result.replayedEvents = resultOther.replayedEvents := by
    have here := congrArg PipelineResult.replayedEvents report
    have there := congrArg PipelineResult.replayedEvents reportOther
    exact here.trans (lengths.trans there.symm)
  have landed := (landed_of_counts onBroker ran occupied counted).perm
  have landedOther := (landed_of_counts onBrokerOther ranOther (by omega)
    countedOther).perm
  rw [rows, stamped] at landed
  rw [rowsOther, stampedOther] at landedOther
  have golds : ∀ gold goldOther, GoldOf after.bronze gold →
      GoldOf afterOther.bronze goldOther → gold.Perm goldOther := by
    intro gold goldOther built builtOther
    have first := goldOf_perm landed built (goldOf_goldWindowMetrics _)
    have second := goldOf_perm landedOther builtOther
      (goldOf_goldWindowMetrics _)
    exact first.trans ((goldOf_stampedBy settles (goldOf_goldWindowMetrics _)
      (goldOf_goldWindowMetrics _)).trans second.symm)
  have gold := golds _ _ (goldOf_goldWindowMetrics after.bronze)
    (goldOf_goldWindowMetrics afterOther.bronze)
  have expected : (expectedKeys after.bronze).Perm
      (expectedKeys afterOther.bronze) := by
    have here := expectedKeys_perm landed
    have there := expectedKeys_perm landedOther
    rw [expectedKeys_stampedBy] at here there
    exact here.trans there.symm
  have completeness := worstCompleteness_perm
    (completenessBySymbol_perm expected gold)
  have quarantined : publishedQuarantine settings (some messages) env =
      publishedQuarantine settings (some messages) other := by
    rw [rejects, rejectsOther, refused]
  have violations : goldViolations (goldWindowMetrics after.bronze) =
      goldViolations (goldWindowMetrics afterOther.bronze) :=
    gold.countP_eq _
  have landedCounts : result.bronzeRows = resultOther.bronzeRows := by omega
  refine ⟨?_, golds⟩
  rw [report, reportOther, lengths, landedCounts, gold.length_eq,
    goldSnapshots_perm gold, quarantined, completeness, violations]

/-- The same run by a clock that goes on, and too slow for the SLA. -/
def slowEnvironment : Environment :=
  { minutesEnvironment with
    clock := fun turn => 7 * turn
    latencyP95 := fun _ => 61 }

private theorem slow_onBroker :
    slowEnvironment.OnBroker sampleSettings (some minutesFixture)
      samplePartitioner minutesHistory where
  legal := minutesHistory_legal
  events := minutes_onBroker.events
  published := by
    have same : publishedRaw sampleSettings (some minutesFixture)
        slowEnvironment = publishedRaw sampleSettings (some minutesFixture)
          minutesEnvironment := by
      decide +kernel
    rw [same]
    exact minutes_onBroker.published
  quarantined := by
    have runs : (replayLoop (sampleSettings.isolated "0") none
        slowEnvironment.clock 0 minutesFixture).withoutClock =
          (replayLoop (sampleSettings.isolated "0") none
            minutesEnvironment.clock 0 minutesFixture).withoutClock :=
      replayLoop_withoutClock none _ _ 0 minutesFixture
    have records := congrArg ReplayRun.quarantined runs
    have same : publishedQuarantine sampleSettings (some minutesFixture)
        slowEnvironment = publishedQuarantine sampleSettings
          (some minutesFixture) minutesEnvironment := records
    rw [same]
    exact minutes_onBroker.quarantined
  quarantine := minutes_onBroker.quarantine
  bronze := minutes_onBroker.bronze
  windows := minutes_onBroker.windows
  emitted := minutes_onBroker.emitted

/-- A slow run over an old lake reports what a prompt one over an empty lake
does. -/
theorem pipeline_reproducible_sample :
    ∃ result after resultOther afterOther,
      runPipeline sampleSettings (some minutesFixture) minutesEnvironment
        ⟨[], [], []⟩ = .ok (result, after) ∧
      runPipeline sampleSettings (some minutesFixture) slowEnvironment
        ⟨[], [sampleTrade "9" 5 100 1], []⟩ =
          .ok (resultOther, afterOther) ∧
      result.timeless = resultOther.timeless := by
  obtain ⟨result, after, ran, rows, events⟩ := minutes_reported
  have reported : reportedCounts (runPipeline sampleSettings
      (some minutesFixture) slowEnvironment
        ⟨[], [sampleTrade "9" 5 100 1], []⟩) = some (3, 3) := by
    decide +kernel
  obtain ⟨resultOther, afterOther, ranOther, rowsOther, eventsOther⟩ :=
    reportedCounts_eq_some reported
  refine ⟨result, after, resultOther, afterOther, ran, ranOther, ?_⟩
  apply (pipeline_reproducible minutes_onBroker slow_onBroker ran ranOther
    (by omega) (by omega) (by omega) _ _).1
  · decide +kernel
  · left
    unfold CopiesAgree
    decide +kernel

end TickStream
