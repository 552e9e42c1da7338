import TickStream.Dbt.Dedup
import TickStream.Library.SnapshotTable
import TickStream.Pipeline

/-!
# Gold as an Iceberg table

`materialize_gold` drops the table, removes its directory and appends the gold
rows in two steps, the 1-minute windows first.  It raises when the catalog has
the table but its metadata file is gone; files that cannot be removed stay.
Manifests count as part of the metadata file; snapshot ids are any fresh numbers
other than zero.
-/

namespace TickStream

open Library

def isMinute (row : GoldRow) : Bool := row.windowSize = "1m"

def currentSnapshot (table : Table GoldRow) : Option Nat :=
  table.snapshots.getLast?.map Snapshot.id

/-- Append both sizes to a new table; the snapshots after each of the two. -/
def appendGold (gold : List GoldRow) (created : Table GoldRow) :
    (Option Nat × Option Nat) × Table GoldRow :=
  let first := gold.filter isMinute
  let rest := gold.filter (fun row => !isMinute row)
  let (snap1m, after1m) :=
    if first.isEmpty then (none, created)
    else
      let appended := created.append first
      (currentSnapshot appended, appended)
  let (snap5m, after5m) :=
    if rest.isEmpty then (snap1m, after1m)
    else
      let appended := after1m.append rest
      (currentSnapshot appended, appended)
  ((snap1m, snap5m), after5m)

/-- Rebuild the table; none where `table_exists` raises.  `rmtree` ignores its
errors, so some files may stay. -/
def materializeGold (stays : Nat → Bool) (gold : List GoldRow)
    (table : Table GoldRow) :
    Option ((Option Nat × Option Nat) × Table GoldRow) := do
  let there ← table.loads
  let dropped := if there then table.drop else table
  return appendGold gold (dropped.purge stays).create

/-- `read_gold`; none where it raises. -/
def readGold (table : Table GoldRow) (snapshotId : Option Nat) :
    Option (List GoldRow) :=
  table.read snapshotId

/-- `gold_snapshots`, the ids in order. -/
def goldSnapshotIds (table : Table GoldRow) : List Nat :=
  table.snapshots.map Snapshot.id

structure TimeTravel where
  snapshots : List Nat
  currentRows : Nat
  first : Option (Nat × Nat)
deriving DecidableEq, Repr

/-- `time_travel`: the current table against its first snapshot. -/
def timeTravel (table : Table GoldRow) : Option TimeTravel := do
  let snaps := goldSnapshotIds table
  let current ← readGold table none
  match snaps with
  | [] => return ⟨snaps, current.length, none⟩
  | id :: _ =>
      let first ← readGold table (some id)
      return ⟨snaps, current.length, some (id, first.length)⟩

/-- The `gold_snapshots` of a run's result.  An id of zero would count as
missing. -/
def reportedSnapshots (snaps : Option Nat × Option Nat) : Nat :=
  if snaps.2.any (fun id => id ≠ 0) && snaps.2 ≠ snaps.1 then 2 else 1

/-- The appends that have rows. -/
def goldParts (gold : List GoldRow) : List (List GoldRow) :=
  [gold.filter isMinute, gold.filter (fun row => !isMinute row)].filter
    (fun part => !part.isEmpty)

theorem appendGold_table (gold : List GoldRow) (created : Table GoldRow) :
    (appendGold gold created).2 =
      (goldParts gold).foldl Table.append created := by
  simp only [appendGold, goldParts]
  cases first : (gold.filter isMinute).isEmpty <;>
    cases rest : (gold.filter (fun row => !isMinute row)).isEmpty <;>
    simp [first, rest]

/-- A table that is not in the catalog need not be dropped. -/
theorem materializeGold_of_loads {stays : Nat → Bool} {gold : List GoldRow}
    {table : Table GoldRow} {there : Bool}
    (loads : table.loads = some there) :
    materializeGold stays gold table =
      some (appendGold gold (table.drop.purge stays).create) := by
  have dropped : (if there then table.drop else table) = table.drop := by
    cases there with
    | true => rfl
    | false =>
        have absent : table.current = none := by
          cases named : table.current with
          | none => rfl
          | some metadata =>
              simp only [Table.loads, named] at loads
              split at loads <;> cases loads
        rw [if_neg Bool.false_ne_true, Table.drop, ← absent]
  simp only [materializeGold, loads, Option.bind_eq_bind, Option.bind_some,
    dropped]
  rfl

/-- A rebuild is one history of the table's steps. -/
theorem materializeGold_history {γ : Type} [DecidableEq γ]
    {stays : Nat → Bool} {gold : List GoldRow} {state : TableState GoldRow γ}
    {snaps : Option Nat × Option Nat} {after : Table GoldRow}
    (rebuilt : materializeGold stays gold state.table = some (snaps, after)) :
    ∃ history : List (TableEvent GoldRow γ),
      history.foldl TableState.step state =
        { state with table := after, phase := .idle } := by
  obtain ⟨there, loads, _⟩ := Option.bind_eq_some_iff.mp rebuilt
  rw [materializeGold_of_loads loads, Option.some.injEq] at rebuilt
  have same : after = state.table.rebuild stays (goldParts gold) := by
    rw [Table.rebuild, ← appendGold_table, rebuilt]
  rw [same]
  exact TableState.exists_rebuild stays (goldParts gold) state

private theorem goldParts_flatten (gold : List GoldRow) :
    (goldParts gold).flatten =
      gold.filter isMinute ++ gold.filter (fun row => !isMinute row) := by
  simp only [goldParts]
  cases first : gold.filter isMinute <;>
    cases rest : gold.filter (fun row => !isMinute row) <;> simp

theorem goldParts_flatten_perm (gold : List GoldRow) :
    (goldParts gold).flatten.Perm gold := by
  rw [goldParts_flatten]
  exact List.filter_append_perm isMinute gold

/-- The first parts are nothing, the 1-minute windows or everything. -/
private theorem goldParts_take (gold : List GoldRow) (count : Nat) :
    ((goldParts gold).take count).flatten = [] ∨
      ((goldParts gold).take count).flatten = gold.filter isMinute ∨
      ((goldParts gold).take count).flatten = (goldParts gold).flatten := by
  match count with
  | 0 => exact Or.inl rfl
  | 1 =>
      cases first : gold.filter isMinute with
      | nil =>
          right
          right
          cases rest : gold.filter (fun row => !isMinute row) <;>
            simp [goldParts, first, rest]
      | cons row others =>
          right
          left
          simp [goldParts, first]
  | more + 2 =>
      right
      right
      have short : (goldParts gold).length ≤ 2 := List.length_filter_le _ _
      rw [List.take_of_length_le (by omega)]

/-- Whatever rebuilds are started, cut short and started again, and whatever
files are removed meanwhile, a reader of the gold table that finishes has read
nothing, the 1-minute windows or all windows of the gold of one run; no window
appears twice. -/
theorem gold_readers_see_one_rebuild {γ : Type} [DecidableEq γ]
    {history : List (TableEvent GoldRow γ)}
    (rebuilds : ∀ parts ∈ TableState.starts history,
      ∃ bronze gold, GoldOf bronze gold ∧ parts = goldParts gold)
    {reader : γ} {rows : List GoldRow}
    (done : (TableState.run history).readers reader = .finished rows) :
    ∃ gold, goldParts gold ∈ TableState.starts history ∧
      (rows = [] ∨ rows = gold.filter isMinute ∨ rows.Perm gold) ∧
      (rows.map (fun row => row.key)).Nodup := by
  obtain ⟨whole, count, started, same⟩ := TableState.finished_of_run done
  obtain ⟨bronze, gold, built, rfl⟩ := rebuilds whole started
  obtain ⟨silver, _, rfl⟩ := built
  have keys := joinWindows_keys_nodup silver (silverTicker bronze)
  refine ⟨_, started, ?_⟩
  rcases goldParts_take (joinWindows silver (silverTicker bronze)) count
    with none | first | all
  · rw [same, none]
    exact ⟨Or.inl rfl, by simp⟩
  · rw [same, first]
    refine ⟨Or.inr (Or.inl rfl), ?_⟩
    exact keys.sublist (List.filter_sublist.map _)
  · rw [same, all]
    have permutation := goldParts_flatten_perm
      (joinWindows silver (silverTicker bronze))
    refine ⟨Or.inr (Or.inr permutation), ?_⟩
    exact (permutation.map (fun row => row.key)).nodup_iff.mpr keys

/-- A rebuild drops the row and starts to purge while a reader is between the
metadata and the data of the rebuild before it. -/
def overlappingRebuilds : List (TableEvent GoldRow Unit) :=
  [.start (goldParts (goldWindowMetrics [sampleTrade "1" 5 100 1]))] ++
    List.replicate 11 .proceed ++
    [.look () none, .fetch (), .fetch (),
      .start (goldParts (goldWindowMetrics [sampleTrade "2" 70 3 1])),
      .proceed, .unlink 0, .fetch (), .fetch (), .fetch ()]

theorem gold_readers_see_one_rebuild_sample :
    ∃ rows, (TableState.run overlappingRebuilds).readers () =
        .finished rows ∧
      rows.length = 2 ∧ (rows.map (fun row => row.key)).Nodup := by
  have rebuilds : ∀ parts ∈ TableState.starts overlappingRebuilds,
      ∃ bronze gold, GoldOf bronze gold ∧ parts = goldParts gold := by
    intro parts member
    have started : parts ∈ [goldParts (goldWindowMetrics
        [sampleTrade "1" 5 100 1]), goldParts (goldWindowMetrics
          [sampleTrade "2" 70 3 1])] := member
    rcases List.mem_cons.mp started with rfl | last
    · exact ⟨_, _, goldOf_goldWindowMetrics _, rfl⟩
    · rw [List.mem_singleton] at last
      subst last
      exact ⟨_, _, goldOf_goldWindowMetrics _, rfl⟩
  have done : (TableState.run overlappingRebuilds).readers () =
      .finished (goldParts (goldWindowMetrics
        [sampleTrade "1" 5 100 1])).flatten := by
    rfl
  obtain ⟨_, _, _, distinct⟩ := gold_readers_see_one_rebuild rebuilds done
  exact ⟨_, done, by decide +kernel, distinct⟩

section Sizes

variable {trades : List SilverTrade} {tickers : List SilverTicker}

theorem joinWindows_sizes (occupied : joinWindows trades tickers ≠ [])
    {size : String × Nat} (sizeMember : size ∈ windowSizes) :
    ∃ row ∈ joinWindows trades tickers, row.windowSize = size.1 := by
  obtain ⟨row, member⟩ := List.exists_mem_of_ne_nil _ occupied
  obtain ⟨other, _, grain, someRow, _⟩ := mem_joinWindows.mp member
  have built : ∀ grain' : Grain,
      (tradesIn trades size grain' ≠ [] ∨
        tickersIn tickers size grain' ≠ []) → grain'.2.1 = size.1 →
      ∃ row ∈ joinWindows trades tickers, row.windowSize = size.1 := by
    intro grain' inside label
    refine ⟨_, mem_joinWindows.mpr ⟨size, sizeMember, grain', inside, rfl⟩, ?_⟩
    rw [goldRow_eq]
    exact label
  rcases someRow with someTrades | someTickers
  · obtain ⟨trade, present⟩ := List.exists_mem_of_ne_nil _ someTrades
    have here := (mem_inWindow.mp present).1
    apply built (grainOf SilverTrade.symbol SilverTrade.tsEvent size trade)
      (Or.inl _) rfl
    exact List.ne_nil_of_mem (mem_inWindow.mpr ⟨here, rfl⟩)
  · obtain ⟨ticker, present⟩ := List.exists_mem_of_ne_nil _ someTickers
    have here := (mem_inWindow.mp present).1
    apply built (grainOf SilverTicker.symbol SilverTicker.tsEvent size ticker)
      (Or.inr _) rfl
    exact List.ne_nil_of_mem (mem_inWindow.mpr ⟨here, rfl⟩)

end Sizes

section Rebuilt

variable {gold : List GoldRow}

/-- The table reads back as gold; the files next to its own are those that
stayed. -/
private theorem appendGold_reads (stays : Nat → Bool) (gold : List GoldRow)
    (table : Table GoldRow) :
    (∃ rows, readGold (appendGold gold (table.drop.purge stays).create).2
        none = some rows ∧ rows.Perm gold) ∧
    ∀ name ∈ (appendGold gold (table.drop.purge stays).create).2.onDisk,
      table.written.length ≤ name ∨ (name ∈ table.onDisk ∧ stays name) := by
  rw [appendGold_table]
  obtain ⟨has, numbered⟩ := table.rebuild_hasParts stays (goldParts gold)
  refine ⟨⟨_, (has.read numbered).1, goldParts_flatten_perm gold⟩, ?_⟩
  intro name member
  have files := table.rebuild_onDisk stays (goldParts gold)
  rw [Table.rebuild] at files
  rw [files] at member
  rcases List.mem_append.mp member with stayed | new
  · exact Or.inr (List.mem_filter.mp stayed)
  · exact Or.inl (List.mem_range'_1.mp new).1

private theorem goldOf_sizes {bronze : List BronzeRow}
    (built : GoldOf bronze gold)
    (occupied : gold ≠ []) :
    gold.filter isMinute ≠ [] ∧
      gold.filter (fun row => !isMinute row) ≠ [] := by
  obtain ⟨silver, _, rfl⟩ := built
  constructor
  · obtain ⟨row, member, label⟩ := joinWindows_sizes occupied
      (List.mem_cons_self : ("1m", 60) ∈ windowSizes)
    exact List.ne_nil_of_mem
      (List.mem_filter.mpr ⟨member, by simp [isMinute, label]⟩)
  · obtain ⟨row, member, label⟩ := joinWindows_sizes occupied
      (by decide : ("5m", 300) ∈ windowSizes)
    exact List.ne_nil_of_mem
      (List.mem_filter.mpr ⟨member, by simp [isMinute, label]⟩)

/-- With windows of both sizes there are two snapshots, and the first has the
1-minute windows. -/
private theorem appendGold_snapshots (table : Table GoldRow)
    (minutes : gold.filter isMinute ≠ [])
    (others : gold.filter (fun row => !isMinute row) ≠ []) :
    ∃ first second, first ≠ second ∧ second ≠ 0 ∧
      (appendGold gold table.create).1 = (some first, some second) ∧
      goldSnapshotIds (appendGold gold table.create).2 = [first, second] ∧
      readGold (appendGold gold table.create).2 (some first) =
        some (gold.filter isMinute) := by
  have parts : goldParts gold = [gold.filter isMinute,
      gold.filter (fun row => !isMinute row)] := by
    simp [goldParts, minutes, others]
  have created := table.create_hasParts
  have appended : ((goldParts gold).foldl Table.append table.create).HasParts
        ([] ++ goldParts gold) ∧
      ((goldParts gold).foldl Table.append table.create).Numbered :=
    Table.foldl_append_hasParts created table.create_numbered
  obtain ⟨has, numbered⟩ := appended
  have reads := (has.read numbered).2.2
  rw [← appendGold_table, List.nil_append] at reads
  obtain ⟨files1, after1⟩ := created.append_snapshots (gold.filter isMinute)
  obtain ⟨files5, after5⟩ := (created.append
    (gold.filter isMinute)).append_snapshots
      (gold.filter (fun row => !isMinute row))
  rw [Table.create_snapshots, List.nil_append] at after1
  rw [after1] at after5
  have rebuilt : appendGold gold table.create =
      ((currentSnapshot (table.create.append (gold.filter isMinute)),
        currentSnapshot ((table.create.append
          (gold.filter isMinute)).append
            (gold.filter (fun row => !isMinute row)))),
        (table.create.append (gold.filter isMinute)).append
          (gold.filter (fun row => !isMinute row))) := by
    simp only [appendGold, List.isEmpty_iff, minutes, others, if_false]
  have longer : ∀ (other : Table GoldRow) (part : List GoldRow),
      other.written.length < (other.append part).written.length := by
    intro other part
    simp [Table.append, Table.write]
  have grown := longer table.create (gold.filter isMinute)
  refine ⟨table.create.written.length + 1,
    (table.create.append (gold.filter isMinute)).written.length + 1,
    by omega, by omega, ?_, ?_, ?_⟩
  · rw [rebuilt]
    simp only [currentSnapshot, after1, after5]
    rfl
  · rw [rebuilt]
    simp only [goldSnapshotIds, after5]
    rfl
  · have first := reads 0 ⟨table.create.written.length + 1, files1⟩ (by
      rw [rebuilt]
      simp only [after5]
      rfl)
    rw [readGold, first, parts]
    simp

/-- Without rows there is no snapshot. -/
private theorem appendGold_nil (table : Table GoldRow) :
    (appendGold [] table.create).1 = (none, none) ∧
      goldSnapshotIds (appendGold [] table.create).2 = [] := by
  refine ⟨rfl, ?_⟩
  change table.create.snapshots.map Snapshot.id = []
  rw [Table.create_snapshots]
  rfl

/-- Whatever rebuilds came before and wherever they were cut short, a rebuild
goes through: the table reads back as gold, and the directory has its files and
those that could not be removed.  Unless gold is empty, time travel finds the
two reported snapshots, the first with the 1-minute windows; an empty gold has
no snapshot, though one is reported. -/
theorem gold_time_travel {γ : Type} [DecidableEq γ] {bronze : List BronzeRow}
    (built : GoldOf bronze gold) (history : List (TableEvent GoldRow γ))
    (stays : Nat → Bool) :
    let table := (TableState.run history).table
    ∃ snaps rebuilt,
      materializeGold stays gold table = some (snaps, rebuilt) ∧
      (∃ rows, readGold rebuilt none = some rows ∧ rows.Perm gold) ∧
      (∀ name ∈ rebuilt.onDisk,
        table.written.length ≤ name ∨ (name ∈ table.onDisk ∧ stays name)) ∧
      reportedSnapshots snaps = goldSnapshots gold ∧
      (gold ≠ [] → goldSnapshots gold = 2 ∧ ∃ first second,
        readGold rebuilt (some first) = some (gold.filter isMinute) ∧
        timeTravel rebuilt = some ⟨[first, second], gold.length,
          some (first, (gold.filter isMinute).length)⟩) ∧
      (gold = [] → goldSnapshots gold = 1 ∧
        timeTravel rebuilt = some ⟨[], 0, none⟩) := by
  intro table
  obtain ⟨there, loads⟩ := TableState.loads_of_run history
  refine ⟨(appendGold gold (table.drop.purge stays).create).1,
    (appendGold gold (table.drop.purge stays).create).2,
    materializeGold_of_loads loads, ?_⟩
  obtain ⟨⟨rows, current, permutation⟩, files⟩ :=
    appendGold_reads stays gold table
  refine ⟨⟨rows, current, permutation⟩, files, ?_⟩
  by_cases empty : gold = []
  · subst empty
    obtain ⟨none, noIds⟩ := appendGold_nil (table.drop.purge stays)
    refine ⟨?_, fun occupied => absurd rfl occupied, fun _ => ⟨rfl, ?_⟩⟩
    · rw [none]
      rfl
    · have nothing := List.perm_nil.mp permutation
      simp only [timeTravel, noIds, current, nothing]
      rfl
  · obtain ⟨minutes, others⟩ := goldOf_sizes built empty
    obtain ⟨first, second, apart, positive, ids, snapshots, minuteRows⟩ :=
      appendGold_snapshots (table.drop.purge stays) minutes others
    have two : goldSnapshots gold = 2 := by
      obtain ⟨row, member⟩ := List.exists_mem_of_ne_nil _ others
      obtain ⟨inGold, other⟩ := List.mem_filter.mp member
      have some : gold.any (fun row => row.windowSize ≠ "1m") = true := by
        rw [List.any_eq_true]
        exact ⟨row, inGold, by simpa [isMinute] using other⟩
      rw [goldSnapshots, if_pos some]
    refine ⟨?_, fun _ => ⟨two, first, second, minuteRows, ?_⟩,
      fun none => absurd none empty⟩
    · rw [two, ids]
      simp [reportedSnapshots, positive, apart.symm]
    · simp only [timeTravel, snapshots, current, minuteRows,
        ← permutation.length_eq]
      rfl

end Rebuilt

/-- A rebuild after one that was cut short, with one of its files left over. -/
theorem gold_time_travel_sample :
    let gold := goldWindowMetrics [sampleTrade "1" 5 100 1]
    ∃ snaps rebuilt first second,
      materializeGold (fun name => name = 0) gold
          (TableState.run overlappingRebuilds).table = some (snaps, rebuilt) ∧
      timeTravel rebuilt = some ⟨[first, second], 2, some (first, 1)⟩ := by
  intro gold
  obtain ⟨snaps, rebuilt, ran, _, _, _, occupied, _⟩ := gold_time_travel
    (goldOf_goldWindowMetrics [sampleTrade "1" 5 100 1]) overlappingRebuilds
    (fun name => name = 0)
  obtain ⟨_, first, second, _, travelled⟩ := occupied (by decide +kernel)
  refine ⟨snaps, rebuilt, first, second, ran, ?_⟩
  rw [travelled]
  congr 1

end TickStream
