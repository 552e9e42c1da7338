import Mathlib.Data.List.TakeWhile
import TickStream.Processing.App

/-!
# The processor refines the batch reference

For each topic the aggregates of a window determine the accumulator the
reference builds for the same bucket.  With that projection the emitted
windows of a branch are the closed windows of the reference, computed on the
events that were not late.

The processor works in milliseconds and the reference in exact time; both cut
time at whole seconds, so from the epoch on they agree.
-/

namespace TickStream

open Python Library

section Time

variable {F : Type} {event : MarketEvent F}

theorem le_extractTs_iff (afterEpoch : 0 ≤ event.tsEvent) (ms : Int) :
    ms ≤ extractTs event ↔ msToIso ms ≤ event.tsEvent := by
  simp only [extractTs, msToIso]
  rw [Int.tdiv_eq_ediv_of_nonneg afterEpoch]
  exact Int.le_ediv_iff_mul_le (by decide)

/-- Both sides put an event in the same window. -/
theorem windowBounds_fst_eq_msToIso (afterEpoch : 0 ≤ event.tsEvent)
    (secs : Nat) :
    (windowBounds event.tsEvent secs).1 =
      msToIso (extractTs event - extractTs event % (1000 * secs)) := by
  have nested : event.tsEvent / 1000 / (1000 * secs) =
      event.tsEvent / (secs * microsPerSecond) := by
    rw [Int.ediv_ediv_of_nonneg (by decide)]
    congr 1
    simp only [microsPerSecond]
    ring
  have rounded : extractTs event - extractTs event % (1000 * secs) =
      1000 * secs * (event.tsEvent / (secs * microsPerSecond)) := by
    rw [← nested, extractTs, Int.tdiv_eq_ediv_of_nonneg afterEpoch,
      Int.emod_def]
    ring
  rw [windowBounds_fst_eq afterEpoch, rounded]
  simp only [msToIso, microsPerSecond]
  ring

theorem windowBounds_snd_eq_msToIso (afterEpoch : 0 ≤ event.tsEvent)
    (secs : Nat) :
    (windowBounds
      (msToIso (extractTs event - extractTs event % (1000 * secs))) secs).2 =
      msToIso (extractTs event - extractTs event % (1000 * secs) +
        1000 * secs) := by
  rw [← windowBounds_fst_eq_msToIso afterEpoch, windowBounds_start,
    windowBounds_snd_eq, windowBounds_fst_eq_msToIso afterEpoch]
  simp only [msToIso, microsPerSecond]
  ring

/-- A window of an event has expired after some events exactly when one of
them, of its symbol, has passed the window's end and the grace. -/
private theorem expired_window_iff (earlier : List (MarketEvent F))
    (earlierAfterEpoch : ∀ seen ∈ earlier, 0 ≤ seen.tsEvent)
    (afterEpoch : 0 ≤ event.tsEvent) (secs graceSeconds : Nat) :
    (tumblingWindow MarketEvent.key extractTs secs graceSeconds ()
        (fun _ (_ : MarketEvent F) => ())).expired earlier
        (event.key, extractTs event - extractTs event % (1000 * secs)) =
          true ↔
      ∃ seen ∈ earlier, seen.symbol = event.symbol ∧
        (windowBounds event.tsEvent secs).2 +
          graceSeconds * microsPerSecond ≤ seen.tsEvent := by
  have stop : (windowBounds event.tsEvent secs).2 +
      graceSeconds * microsPerSecond =
        msToIso (extractTs event - extractTs event % (1000 * secs) +
          1000 * secs + 1000 * graceSeconds) := by
    rw [windowBounds_snd_eq, windowBounds_fst_eq_msToIso afterEpoch]
    simp only [msToIso, microsPerSecond]
    ring
  rw [WindowedFold.expired_iff, stop]
  constructor
  · intro reachedMs
    rcases reachedMs with ⟨seen, member, sameKey, reached⟩
    exact ⟨seen, member, sameKey,
      (le_extractTs_iff (earlierAfterEpoch seen member) _).mp reached⟩
  · intro reachedEnd
    rcases reachedEnd with ⟨seen, member, sameKey, reached⟩
    exact ⟨seen, member, sameKey,
      (le_extractTs_iff (earlierAfterEpoch seen member) _).mpr reached⟩

/-- Some processed event of the same symbol has passed the end of the event's
window and the grace. -/
def ClosedFor (processed : List (MarketEvent F)) (graceSeconds : Nat)
    (size : String × Nat) (event : MarketEvent F) : Prop :=
  ∃ seen ∈ processed, seen.symbol = event.symbol ∧
    (windowBounds event.tsEvent size.2).2 +
      graceSeconds * microsPerSecond ≤ seen.tsEvent

instance (processed : List (MarketEvent F)) (graceSeconds : Nat)
    (size : String × Nat) (event : MarketEvent F) :
    Decidable (ClosedFor processed graceSeconds size event) :=
  inferInstanceAs (Decidable (∃ seen ∈ processed,
    seen.symbol = event.symbol ∧ (windowBounds event.tsEvent size.2).2 +
      graceSeconds * microsPerSecond ≤ seen.tsEvent))

/-- Whether an event's window is closed depends on its bucket only. -/
theorem ClosedFor.of_bucket {processed : List (MarketEvent F)}
    {graceSeconds : Nat} {size : String × Nat} {other : MarketEvent F}
    (closed : ClosedFor processed graceSeconds size event)
    (sameBucket : bucket size.2 other = bucket size.2 event) :
    ClosedFor processed graceSeconds size other := by
  obtain ⟨seen, member, sameSymbol, reached⟩ := closed
  obtain ⟨symbol, start⟩ := Prod.mk.inj sameBucket
  refine ⟨seen, member, sameSymbol.trans symbol.symm, ?_⟩
  rw [windowBounds_snd_eq] at reached ⊢
  rwa [start]

theorem withoutLate_append (secs graceSeconds : Nat)
    (first second : List (MarketEvent F)) :
    withoutLate secs graceSeconds (first ++ second) =
      withoutLate secs graceSeconds first ++
        (tumblingWindow MarketEvent.key extractTs secs graceSeconds ()
          (fun _ (_ : MarketEvent F) => ())).onTimeAfter first second :=
  WindowedFold.onTimeAfter_append _ [] first second

/-- An event that is on time finds its window open. -/
theorem not_closedFor_of_onTime {first second : List (MarketEvent F)}
    (afterEpoch : ∀ event ∈ first ++ second, 0 ≤ event.tsEvent)
    {graceSeconds : Nat} {size : String × Nat}
    (onTime : event ∈ (tumblingWindow MarketEvent.key extractTs size.2
      graceSeconds () (fun _ (_ : MarketEvent F) => ())).onTimeAfter first
        second) :
    ¬ ClosedFor first graceSeconds size event := by
  intro closed
  have member : event ∈ first ++ second := by
    have kept := (WindowedFold.onTime_sublist (tumblingWindow MarketEvent.key
      extractTs size.2 graceSeconds () (fun _ (_ : MarketEvent F) => ()))
        (first ++ second)).subset
    apply kept
    change event ∈ withoutLate size.2 graceSeconds (first ++ second)
    rw [withoutLate_append]
    exact List.mem_append_right _ onTime
  have opened := WindowedFold.open_of_mem_onTimeAfter _ onTime
  have expired := (expired_window_iff first
    (fun seen inFirst => afterEpoch seen (List.mem_append_left _ inFirst))
    (afterEpoch event member) size.2 graceSeconds).mpr closed
  exact Bool.false_ne_true (opened.symm.trans expired)

/-- Events that follow add nothing to a window that has closed. -/
theorem itemsAt_withoutLate_of_closed {first second : List (MarketEvent F)}
    {graceSeconds : Nat} {size : String × Nat}
    (afterEpoch : ∀ event ∈ first ++ second, 0 ≤ event.tsEvent)
    (closed : ClosedFor first graceSeconds size event) :
    itemsAt (bucket size.2) (withoutLate size.2 graceSeconds (first ++ second))
        (bucket size.2 event) =
      itemsAt (bucket size.2) (withoutLate size.2 graceSeconds first)
        (bucket size.2 event) := by
  rw [withoutLate_append]
  simp only [itemsAt, List.filter_append]
  rw [List.append_right_eq_self, List.filter_eq_nil_iff]
  intro other onTime sameBucket
  exact not_closedFor_of_onTime afterEpoch onTime
    (closed.of_bucket (of_decide_eq_true sameBucket))

end Time

section Refinement

variable {F C β : Type} [Zero F] [Add F] [Sub F] [Mul F] [Div F] [NatCast F]
  [LT F] [DecidableLT F]

/-- How the aggregates of a topic determine the reference accumulator.
`sound` is what every aggregate of at least one message satisfies. -/
structure Topic.Projection (topic : Topic F C β) where
  kind : EventType
  project : β → Acc F
  sound : β → Prop
  init : project topic.init = Acc.empty
  first : ∀ columns, sound (topic.step topic.init columns)
  next : ∀ agg columns, sound agg → sound (topic.step agg columns)
  simulates : ∀ agg value columns, value.eventType = kind →
    topic.columns value = .ok columns →
      project (topic.step agg columns) = (project agg).add value
  finalizes : ∀ label symbol start secs agg, sound agg →
    (windowBounds (msToIso start) secs).2 = msToIso (start + 1000 * secs) →
      (topic.finalize label symbol start (start + 1000 * secs) agg).metrics =
        windowRow secs label ((symbol, msToIso start), project agg)

namespace Topic

variable {topic : Topic F C β} (projection : Projection topic)
  (graceSeconds : Nat) (size : String × Nat)

/-- The reference bucket of a window key of the processor. -/
def bucketOfWindow (window : String × Int) : String × Instant :=
  (window.1, msToIso window.2)

omit [Zero F] [Add F] [Sub F] [Mul F] [Div F] [NatCast F] [LT F]
  [DecidableLT F] in
private theorem bucketOfWindow_injective :
    Function.Injective bucketOfWindow := by
  intro left right same
  obtain ⟨leftSymbol, leftStart⟩ := left
  obtain ⟨rightSymbol, rightStart⟩ := right
  simp only [bucketOfWindow, msToIso, Prod.mk.injEq] at same
  obtain ⟨sameSymbol, sameStart⟩ := same
  have sameMs : leftStart = rightStart :=
    Int.eq_of_mul_eq_mul_right (by decide) sameStart
  rw [sameSymbol, sameMs]

variable {rows : List (Row F C)}

/-- The groups of a branch are the reference accumulators of the same
messages. -/
private theorem groups_project (rows : List (Row F C))
    (defined : ∀ row ∈ rows, topic.columns row.value = .ok row.columns)
    (kind : ∀ row ∈ rows, row.value.eventType = projection.kind)
    (afterEpoch : ∀ row ∈ rows, 0 ≤ row.value.tsEvent) :
    (foldKeyed (bucket size.2) Acc.add Acc.empty
        (rows.map Row.value)).entries =
      ((topic.branch graceSeconds size).fold.groups rows).entries.map
        (Prod.map bucketOfWindow projection.project) := by
  rw [foldKeyed_map, ← projection.init]
  apply foldKeyed_entries_map
  · exact bucketOfWindow_injective
  · intro row member
    have start := windowBounds_fst_eq_msToIso (afterEpoch row member) size.2
    simp only [bucket, bucketOfWindow, WindowedFold.window, branch,
      tumblingWindow, start, MarketEvent.key]
  · intro agg row member
    exact projection.simulates agg row.value row.columns (kind row member)
      (defined row member)

omit [Zero F] [Add F] [Sub F] [Mul F] [Div F] [NatCast F] [LT F]
  [DecidableLT F] in
theorem withoutLate_rows (topic : Topic F C β) (graceSeconds : Nat)
    (size : String × Nat) (rows : List (Row F C)) :
    withoutLate size.2 graceSeconds (rows.map Row.value) =
      ((topic.branch graceSeconds size).fold.onTime rows).map Row.value := by
  apply WindowedFold.SameWindows.onTime_map
  exact ⟨fun _ => rfl, fun _ => rfl, fun _ => rfl, rfl⟩

/-- A group of a branch has the row the reference gives its bucket. -/
theorem finalize_eq_windowRow
    (afterEpoch : ∀ row ∈ rows, 0 ≤ row.value.tsEvent)
    {entry : (String × Int) × β}
    (member : entry ∈ ((topic.branch graceSeconds size).fold.groups
      rows).entries) :
    ((topic.branch graceSeconds size).finalize entry.1 entry.2).metrics =
      windowRow size.2 size.1
        (Prod.map bucketOfWindow projection.project entry) := by
  obtain ⟨window, agg⟩ := entry
  obtain ⟨⟨row, rowMember, sameWindow⟩, _⟩ :=
    (mem_foldKeyed _ _ _).mp member
  have sound : projection.sound agg := by
    refine foldKeyed_value _ _ _ ?_ ?_ member
    · intro row _
      exact projection.first row.columns
    · intro earlier held row _
      exact projection.next earlier row.columns held
  have stop := windowBounds_snd_eq_msToIso (afterEpoch row rowMember) size.2
  subst sameWindow
  exact projection.finalizes size.1 _ _ size.2 agg sound stop

/-- A window has expired for the processor exactly when its row has closed
under the reference watermarks. -/
private theorem expired_eq_isClosed
    (afterEpoch : ∀ row ∈ rows, 0 ≤ row.value.tsEvent)
    {processed : List (Row F C)}
    (processedAfterEpoch : ∀ row ∈ processed, 0 ≤ row.value.tsEvent)
    {entry : (String × Int) × β}
    (member : entry ∈ ((topic.branch graceSeconds size).fold.groups
      processed).entries) :
    (topic.branch graceSeconds size).fold.expired rows entry.1 =
      isClosed (maxEventTsBySymbol (rows.map Row.value)) graceSeconds
        (windowRow size.2 size.1
          (Prod.map bucketOfWindow projection.project entry)) := by
  obtain ⟨window, agg⟩ := entry
  obtain ⟨⟨row, rowMember, sameWindow⟩, _⟩ :=
    (mem_foldKeyed _ _ _).mp member
  have stop :=
    windowBounds_snd_eq_msToIso (processedAfterEpoch row rowMember) size.2
  subst sameWindow
  have closes : ∀ ms : Int, msToIso ms + graceSeconds * microsPerSecond =
      msToIso (ms + 1000 * graceSeconds) := by
    intro ms
    simp only [msToIso, microsPerSecond]
    ring
  rw [Bool.eq_iff_iff, WindowedFold.expired_iff, isClosed_iff]
  simp only [List.mem_map, exists_exists_and_eq_and, windowRow, Prod.map,
    bucketOfWindow, WindowedFold.window, branch, tumblingWindow, stop, closes]
  constructor
  · intro reachedMs
    rcases reachedMs with ⟨seen, seenMember, sameKey, reached⟩
    exact ⟨seen, seenMember, sameKey,
      (le_extractTs_iff (afterEpoch seen seenMember) _).mp reached⟩
  · intro reachedEnd
    rcases reachedEnd with ⟨seen, seenMember, sameKey, reached⟩
    exact ⟨seen, seenMember, sameKey,
      (le_extractTs_iff (afterEpoch seen seenMember) _).mpr reached⟩

/-- One branch emits the closed windows of its size. -/
private theorem sent_perm_closedWindows
    (defined : ∀ row ∈ rows, topic.columns row.value = .ok row.columns)
    (kind : ∀ row ∈ rows, row.value.eventType = projection.kind)
    (afterEpoch : ∀ row ∈ rows, 0 ≤ row.value.tsEvent) :
    (((topic.branch graceSeconds size).sent rows).map
      WindowRecord.metrics).Perm
      (closedWindows
        (computeWindows
          (withoutLate size.2 graceSeconds (rows.map Row.value)) size.2 size.1)
        (maxEventTsBySymbol (rows.map Row.value)) graceSeconds) := by
  let fold := (topic.branch graceSeconds size).fold
  let groups := fold.groups (fold.onTime rows)
  have kept : ∀ row ∈ fold.onTime rows, row ∈ rows :=
    fun row member => (fold.onTime_sublist rows).subset member
  have emitted := (fold.run_emitted_perm rows).map (fun entry =>
    ((topic.branch graceSeconds size).finalize entry.1 entry.2).metrics)
  have finalized : ((groups.filter (fold.expired rows)).entries.map
      (fun entry =>
        ((topic.branch graceSeconds size).finalize entry.1 entry.2).metrics)) =
      ((groups.entries.map
        (Prod.map bucketOfWindow projection.project)).map
          (windowRow size.2 size.1)).filter
            (isClosed (maxEventTsBySymbol (rows.map Row.value))
              graceSeconds) := by
    rw [Dict.entries_filter, List.map_map, List.filter_map]
    have sameEntries : groups.entries.filter (fun entry =>
          fold.expired rows entry.1) =
        groups.entries.filter
          (isClosed (maxEventTsBySymbol (rows.map Row.value)) graceSeconds ∘
            windowRow size.2 size.1 ∘
              Prod.map bucketOfWindow projection.project) := by
      apply List.filter_congr
      intro entry member
      exact expired_eq_isClosed projection graceSeconds size afterEpoch
        (fun row rowMember => afterEpoch row (kept row rowMember)) member
    rw [sameEntries]
    apply List.map_congr_left
    intro entry member
    exact finalize_eq_windowRow projection graceSeconds size
      (fun row rowMember => afterEpoch row (kept row rowMember))
      (List.mem_of_mem_filter member)
  have reference := groups_project projection graceSeconds size
    (fold.onTime rows)
    (fun row member => defined row (kept row member))
    (fun row member => kind row (kept row member))
    (fun row member => afterEpoch row (kept row member))
  have sorted : (closedWindows
      (computeWindows
        (withoutLate size.2 graceSeconds (rows.map Row.value)) size.2 size.1)
      (maxEventTsBySymbol (rows.map Row.value)) graceSeconds).Perm
      (((groups.entries.map
        (Prod.map bucketOfWindow projection.project)).map
          (windowRow size.2 size.1)).filter
            (isClosed (maxEventTsBySymbol (rows.map Row.value))
              graceSeconds)) := by
    simp only [closedWindows, computeWindows]
    rw [withoutLate_rows topic, reference]
    exact (List.perm_insertionSort _ _).filter _
  have sentMetrics : ((topic.branch graceSeconds size).sent rows).map
      WindowRecord.metrics =
      (fold.run rows).2.map (fun entry =>
        ((topic.branch graceSeconds size).finalize entry.1
          entry.2).metrics) := by
    simp [Branch.sent, fold]
  rw [sentMetrics]
  exact (emitted.trans (List.Perm.of_eq finalized)).trans sorted.symm

/-- The closed windows of the reference for every window size, computed on
the events that were not late for that size. -/
def referenceWindows (graceSeconds : Nat) (events : List (MarketEvent F)) :
    List (WindowMetrics F) :=
  windowSizes.flatMap (fun size =>
    closedWindows
      (computeWindows (withoutLate size.2 graceSeconds events) size.2 size.1)
      (maxEventTsBySymbol events) graceSeconds)

theorem referenceWindows_keys_nodup (graceSeconds : Nat)
    (events : List (MarketEvent F)) :
    ((referenceWindows graceSeconds events).map WindowMetrics.key).Nodup := by
  apply windowSizes_keys_nodup WindowMetrics.key (fun key => key.2.1)
  · intro size
    exact (computeWindows_keys_nodup _ _ _).sublist
      (List.filter_sublist.map WindowMetrics.key)
  · intro size row member
    exact computeWindows_windowSize (List.mem_of_mem_filter member)

/-- The closed windows of the reference, one for every closed bucket. -/
theorem mem_referenceWindows_iff {graceSeconds : Nat}
    {events : List (MarketEvent F)} {metrics : WindowMetrics F} :
    metrics ∈ referenceWindows graceSeconds events ↔
      ∃ size ∈ windowSizes,
        ∃ event ∈ withoutLate size.2 graceSeconds events,
          ClosedFor events graceSeconds size event ∧
            metrics = windowRow size.2 size.1 (bucket size.2 event,
              (itemsAt (bucket size.2)
                (withoutLate size.2 graceSeconds events)
                (bucket size.2 event)).foldl Acc.add Acc.empty) := by
  have closes : ∀ (size : String × Nat) (event : MarketEvent F) (acc : Acc F),
      isClosed (maxEventTsBySymbol events) graceSeconds
          (windowRow size.2 size.1 (bucket size.2 event, acc)) = true ↔
        ClosedFor events graceSeconds size event := by
    intro size event acc
    rw [isClosed_iff]
    simp only [windowRow, bucket, windowBounds_start]
    rfl
  simp only [referenceWindows, closedWindows, List.mem_flatMap,
    List.mem_filter, mem_computeWindows]
  constructor
  · intro emitted
    obtain ⟨size, sizeMember, ⟨event, member, rfl⟩, closed⟩ := emitted
    exact ⟨size, sizeMember, event, member, (closes size event _).mp closed,
      rfl⟩
  · intro emitted
    obtain ⟨size, sizeMember, event, member, closed, rfl⟩ := emitted
    exact ⟨size, sizeMember, ⟨event, member, rfl⟩,
      (closes size event _).mpr closed⟩

/-- The outcome holds exactly the closed windows of the reference, each once. -/
structure MatchesReference (graceSeconds : Nat)
    (events : List (MarketEvent F)) (outcome : Outcome F) : Prop where
  windows : (outcome.emitted.map WindowRecord.metrics).Perm
    (referenceWindows graceSeconds events)
  once : (outcome.emitted.map (fun record => record.metrics.key)).Nodup

/-- A topic matches the reference on the messages it processed. -/
theorem run_matchesReference (events : List (MarketEvent F))
    (kind : ∀ event ∈ events, event.eventType = projection.kind)
    (afterEpoch : ∀ event ∈ events, 0 ≤ event.tsEvent) :
    MatchesReference graceSeconds ((topic.rows events).map Row.value)
      (topic.run graceSeconds events) := by
  have processed : ∀ row ∈ topic.rows events, row.value ∈ events := by
    intro row member
    exact (topic.rows_initial events).subset (List.mem_map_of_mem member)
  have emitted : ((topic.run graceSeconds events).emitted.map
      WindowRecord.metrics).Perm
      (referenceWindows graceSeconds
        ((topic.rows events).map Row.value)) := by
    have sent := (topic.run_emitted_perm graceSeconds events).map
      WindowRecord.metrics
    rw [List.map_flatMap] at sent
    refine sent.trans ?_
    simp only [branches, referenceWindows]
    rw [List.flatMap_map]
    apply List.Perm.flatMap_left
    intro size _
    exact sent_perm_closedWindows projection graceSeconds size
      (fun row member => topic.rows_columns member)
      (fun row member => kind row.value (processed row member))
      (fun row member => afterEpoch row.value (processed row member))
  refine ⟨emitted, ?_⟩
  have keys := (emitted.map WindowMetrics.key).nodup_iff.mpr
    (referenceWindows_keys_nodup graceSeconds _)
  rwa [List.map_map] at keys

end Topic

/-- A trade window is an accumulator without tickers. -/
def tradesProjection : Topic.Projection (tradesTopic (F := F)) where
  kind := .trade
  project := fun agg =>
    { pv := agg.pv, vol := agg.volume, trades := agg.count
      spreadSum := 0, midSum := 0, tickers := 0 }
  sound := fun _ => True
  init := rfl
  first := fun _ => trivial
  next := fun _ _ _ => trivial
  simulates := by
    intro agg value columns kind defined
    simp only [tradesTopic, tradeColumns] at defined
    simp only [Acc.add]
    rw [kind]
    cases price : value.price with
    | none => simp [price, raise] at defined
    | some priceValue =>
        cases size : value.size with
        | none => simp [price, size, raise] at defined
        | some sizeValue =>
            simp only [price, size, Except.ok.injEq] at defined
            subst defined
            rfl
  finalizes := by
    intro label symbol start secs agg _ stop
    simp [tradesTopic, finalizeTradeWindow, windowRow, stop]

/-- A ticker window is an accumulator without trades; its two means run over
the same messages. -/
def tickerProjection [Std.Irrefl (fun left right : F => left < right)] :
    Topic.Projection (tickerTopic (F := F)) where
  kind := .ticker
  project := fun agg =>
    { pv := 0, vol := 0, trades := 0
      spreadSum := agg.spread.total, midSum := agg.mid.total
      tickers := agg.count }
  sound := fun agg =>
    0 < agg.count ∧ agg.spread.count = agg.count ∧ agg.mid.count = agg.count
  init := rfl
  first := by
    intro columns
    exact ⟨Nat.succ_pos _, rfl, rfl⟩
  next := by
    intro agg columns held
    obtain ⟨_, sameSpread, sameMid⟩ := held
    refine ⟨Nat.succ_pos _, ?_, ?_⟩
    · simp [tickerTopic, TickerAgg.add, Mean.add, sameSpread]
    · simp [tickerTopic, TickerAgg.add, Mean.add, sameMid]
  simulates := by
    intro agg value columns kind defined
    simp only [tickerTopic, tickerColumns] at defined
    simp only [Acc.add]
    rw [kind]
    cases ask : value.bestAsk with
    | none => simp [ask, raise] at defined
    | some askValue =>
        cases bid : value.bestBid with
        | none => simp [ask, bid, raise] at defined
        | some bidValue =>
            simp only [ask, bid, Except.ok.injEq] at defined
            subst defined
            rfl
  finalizes := by
    intro label symbol start secs agg held stop
    obtain ⟨positive, sameSpread, sameMid⟩ := held
    have noVolume : ¬ (0 : F) < 0 :=
      Std.Irrefl.irrefl (r := fun left right : F => left < right) 0
    simp [tickerTopic, finalizeTickerWindow, windowRow, stop, Mean.value,
      positive, sameSpread, sameMid, noVolume]

omit [Zero F] [Add F] [Sub F] [Mul F] [Div F] [NatCast F] [LT F]
  [DecidableLT F] in
theorem rows_complete_iff {topic : Topic F C β}
    {events : List (MarketEvent F)} :
    (topic.rows events).map Row.value = events ↔
      ∀ event ∈ events, ∃ columns, topic.columns event = .ok columns := by
  induction events with
  | nil => simp [Topic.rows]
  | cons event rest induction =>
      simp only [Topic.rows]
      cases defined : topic.columns event with
      | error failure => simp [defined]
      | ok columns => simp [defined, induction]

/-- The records the processor gets through. -/
def processedTrades (records : List (MarketEvent F)) : List (MarketEvent F) :=
  records.takeWhile (fun record => record.price.isSome && record.size.isSome)

omit [Zero F] [Add F] [Sub F] [Mul F] [Div F] [NatCast F] [LT F]
  [DecidableLT F] in
theorem processedTrades_initial (records : List (MarketEvent F)) :
    processedTrades records <+: records :=
  List.takeWhile_prefix _

omit [Sub F] [NatCast F] in
theorem rows_eq_processedTrades (records : List (MarketEvent F)) :
    ((tradesTopic (F := F)).rows records).map Row.value =
      processedTrades records := by
  induction records with
  | nil => rfl
  | cons record rest induction =>
      simp only [Topic.rows, processedTrades]
      rw [List.takeWhile_cons]
      have defined : (∃ columns, tradeColumns record = .ok columns) ↔
          record.price.isSome = true ∧ record.size.isSome = true :=
        tradeColumns_ok_iff
      cases columns : tradesTopic.columns record with
      | error failure =>
          have missing : (record.price.isSome && record.size.isSome) = false := by
            by_contra carried
            rw [Bool.not_eq_false, Bool.and_eq_true] at carried
            obtain ⟨found, same⟩ := defined.mpr carried
            change tradeColumns record = _ at columns
            rw [columns] at same
            cases same
          simp [missing]
      | ok found =>
          have carried : (record.price.isSome && record.size.isSome) = true := by
            rw [Bool.and_eq_true]
            exact defined.mp ⟨found, columns⟩
          simp only [carried, if_true, List.map_cons]
          rw [induction]
          rfl

end Refinement

end TickStream
