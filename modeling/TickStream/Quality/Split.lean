import Mathlib.Data.List.Perm.Basic
import Mathlib.Data.String.Basic
import TickStream.Library.Text
import TickStream.Quality.Contract

/-!
# The split of a frame

`apply_contract` rebuilds the split from the failure cases that carry a row.
The rows are split rightly whenever no check raises over a row it would fail;
a frame whose only failures belong to columns comes out as valid.
-/

namespace TickStream

open Python Library

/-- The check evaluates on every present cell of the column. -/
def CellCheck.Runs (check : CellCheck) (column : Column) : Prop :=
  ∀ cell ∈ column.cells, cell ≠ .null → (check.passes cell).isSome = true

/-- The check finds its columns and evaluates on every row. -/
def RowCheck.Runs (check : RowCheck) (frame : DataFrame) : Prop :=
  (∀ name ∈ check.reads, (frame.column? name).isSome = true) ∧
    ∀ index < frame.height,
      ((check.cellsAt frame index).bind check.passes).isSome = true

/-- The conversion of the column to its dtype fails at the cell. -/
def ColumnSchema.Refuses (engine : Pandera) (schema : ColumnSchema)
    (column : Column) (cell : Cell) : Prop :=
  schema.coerce = true ∧ ∃ verdict,
    engine.coerce schema.dtype column = .error verdict ∧ verdict.Faults cell

/-- A checked cell breaks a rule of its column.  With `running` the rule has to
be a check that does not raise on the column. -/
def ColumnSchema.CellBreaks (engine : Pandera) (schema : ColumnSchema)
    (running : Bool) (column : Column) (cell : Cell) (rule : String) : Prop :=
  schema.nullable = false ∧ cell = .null ∧ rule = "not_nullable" ∨
    (engine.checkDtype schema.dtype column).Faults cell ∧
      rule = "dtype('" ++ schema.dtypeName ++ "')" ∨
    ∃ check, schema.check = some check ∧
      (running = true → check.Runs column) ∧
      cell ≠ .null ∧ check.passes cell = some false ∧ rule = check.name

/-- A row breaks a rule of a column: its cell is not converted, or the cell
that is checked breaks the rule. -/
def ColumnSchema.Breaks (engine : Pandera) (schema : ColumnSchema)
    (running : Bool) (column : Column) (index : Nat) (rule : String) : Prop :=
  (∃ cell, column.cells[index]? = some cell ∧
      schema.Refuses engine column cell ∧
      rule = "coerce_dtype('" ++ schema.dtypeName ++ "')") ∨
    ∃ cell, (schema.coerced engine column).cells[index]? = some cell ∧
      schema.CellBreaks engine running (schema.coerced engine column) cell rule

/-- A row breaks a check on whole rows. -/
def RowCheck.Breaks (check : RowCheck) (running : Bool) (frame : DataFrame)
    (index : Nat) (rule : String) : Prop :=
  (running = true → check.Runs frame) ∧ index < frame.height ∧
    (check.cellsAt frame index).bind check.passes = some false ∧
    rule = check.name

/-- A row of a frame breaks a rule of a contract. -/
def ContractSchema.Breaks (engine : Pandera) (schema : ContractSchema)
    (running : Bool) (frame : DataFrame) (index : Nat) (rule : String) : Prop :=
  (∃ columnSchema ∈ schema.columns, ∃ column,
      frame.column? columnSchema.name = some column ∧
      columnSchema.Breaks engine running column index rule) ∨
    ∃ check ∈ schema.checks, check.Breaks running frame index rule

/-- The required columns are there, those to be converted are, and all have
their types. -/
def ContractSchema.TypesHold (engine : Pandera) (schema : ContractSchema)
    (frame : DataFrame) : Prop :=
  ∀ columnSchema ∈ schema.columns, ∃ column,
    frame.column? columnSchema.name = some column ∧
      (columnSchema.coerce = true →
        ∃ cells, engine.coerce columnSchema.dtype column = .ok cells) ∧
      (engine.checkDtype columnSchema.dtype
        (columnSchema.coerced engine column)).accepts
          (columnSchema.coerced engine column).cells

/-- The whole frame satisfies a contract. -/
structure ContractSchema.Satisfied (engine : Pandera)
    (schema : ContractSchema) (frame : DataFrame) : Prop where
  types : schema.TypesHold engine frame
  rows : ∀ index < frame.height, ∀ rule,
    ¬ schema.Breaks engine false frame index rule

theorem CellCheck.runs_iff {check : CellCheck} {column : Column} :
    (column.cells.filter (fun cell => cell ≠ .null)).all
        (fun cell => (check.passes cell).isSome) = true ↔
      check.Runs column := by
  simp only [CellCheck.Runs, List.all_eq_true, List.mem_filter,
    decide_eq_true_eq, and_imp]

theorem RowCheck.runs_iff {check : RowCheck} {frame : DataFrame} :
    ((check.outcomes frame).all Option.isSome &&
        check.reads.all (fun name => (frame.column? name).isSome)) = true ↔
      check.Runs frame := by
  simp only [RowCheck.Runs, RowCheck.outcomes, Bool.and_eq_true,
    List.all_eq_true, List.mem_map, List.mem_range, and_comm,
    forall_exists_index, and_imp, forall_apply_eq_imp_iff₂]

namespace ColumnSchema

variable {engine : Pandera} {schema : ColumnSchema} {column : Column}
  {index : Nat} {rule : String}

theorem mem_map_failingAt {passes : Cell → Bool} {cells : List Cell}
    {name : String} :
    (⟨rule, some index⟩ : FailureCase) ∈
        (failingAt passes cells).map (fun row => ⟨name, some row⟩) ↔
      ∃ cell, cells[index]? = some cell ∧ passes cell = false ∧
        rule = name := by
  rw [List.mem_map]
  constructor
  · intro reported
    rcases reported with ⟨row, member, same⟩
    cases same
    obtain ⟨cell, present, fails⟩ := mem_failingAt.mp member
    exact ⟨cell, present, fails, rfl⟩
  · intro broken
    rcases broken with ⟨cell, present, fails, rfl⟩
    exact ⟨index, mem_failingAt.mpr ⟨cell, present, fails⟩, rfl⟩

theorem mem_verdict_failures_iff {verdict : TypeVerdict} {name : String}
    {cells : List Cell} :
    (⟨rule, some index⟩ : FailureCase) ∈ verdict.failures name cells ↔
      ∃ cell, cells[index]? = some cell ∧ verdict.Faults cell ∧
        rule = name := by
  cases verdict with
  | column passes => cases passes <;> simp [TypeVerdict.failures,
      TypeVerdict.Faults]
  | cells passes =>
      simp only [TypeVerdict.failures, mem_map_failingAt, TypeVerdict.Faults,
        TypeVerdict.cells.injEq, exists_eq_left']

private theorem mem_coerceFailures_iff :
    ⟨rule, some index⟩ ∈ schema.coerceFailures engine column ↔
      ∃ cell, column.cells[index]? = some cell ∧
        schema.Refuses engine column cell ∧
        rule = "coerce_dtype('" ++ schema.dtypeName ++ "')" := by
  simp only [coerceFailures, Refuses]
  cases coerces : schema.coerce with
  | false => simp
  | true =>
      cases outcome : engine.coerce schema.dtype column with
      | ok cells => simp
      | error verdict => simp [mem_verdict_failures_iff]

private theorem mem_nullFailures_iff :
    ⟨rule, some index⟩ ∈ schema.nullFailures column ↔
      ∃ cell, column.cells[index]? = some cell ∧ schema.nullable = false ∧
        cell = .null ∧ rule = "not_nullable" := by
  simp only [nullFailures]
  by_cases nullable : schema.nullable = true
  · rw [if_pos nullable]
    simp [nullable]
  · rw [if_neg nullable, mem_map_failingAt]
    simp only [Bool.not_eq_true] at nullable
    simp only [nullable, true_and, decide_eq_false_iff_not, not_not]

private theorem mem_checkFailures_iff :
    ⟨rule, some index⟩ ∈ schema.checkFailures column ↔
      ∃ cell, column.cells[index]? = some cell ∧
        ∃ check, schema.check = some check ∧ check.Runs column ∧
          cell ≠ .null ∧ check.passes cell = some false ∧
          rule = check.name := by
  simp only [checkFailures]
  cases schema.check with
  | none => simp
  | some check =>
      by_cases runs : check.Runs column
      · dsimp only
        rw [if_pos (CellCheck.runs_iff.mpr runs), mem_map_failingAt]
        apply exists_congr
        intro cell
        apply and_congr_right
        intro present
        by_cases null : cell = .null
        · simp [null]
        · have evaluated := runs cell (List.mem_of_getElem? present) null
          obtain ⟨outcome, passes⟩ := Option.isSome_iff_exists.mp evaluated
          simp [null, passes, runs]
      · dsimp only
        rw [if_neg (mt CellCheck.runs_iff.mp runs)]
        simp [runs]

theorem mem_failures_iff {frame : DataFrame} :
    ⟨rule, some index⟩ ∈ schema.failures engine frame ↔
      ∃ column, frame.column? schema.name = some column ∧
        schema.Breaks engine true column index rule := by
  simp only [failures]
  cases frame.column? schema.name with
  | none => simp
  | some column =>
      simp only [List.mem_append, mem_coerceFailures_iff,
        mem_nullFailures_iff, dtypeFailures, mem_verdict_failures_iff,
        mem_checkFailures_iff, Breaks, CellBreaks, forall_const,
        Option.some.injEq, exists_eq_left', and_or_left, exists_or, or_assoc]

end ColumnSchema

theorem RowCheck.mem_failures_iff {check : RowCheck} {frame : DataFrame}
    {index : Nat} {rule : String} :
    ⟨rule, some index⟩ ∈ check.failures frame ↔
      check.Breaks true frame index rule := by
  simp only [RowCheck.failures, RowCheck.Breaks]
  by_cases runs : check.Runs frame
  · rw [if_pos (RowCheck.runs_iff.mpr runs)]
    simp [runs, and_assoc, eq_comm]
  · rw [if_neg (mt RowCheck.runs_iff.mp runs)]
    simp [runs]

/-- The cases with a row are the rules broken through a check that runs. -/
theorem ContractSchema.mem_validate_iff {engine : Pandera}
    {schema : ContractSchema} {frame : DataFrame} {index : Nat}
    {rule : String} :
    ⟨rule, some index⟩ ∈ schema.validate engine frame ↔
      schema.Breaks engine true frame index rule := by
  simp only [validate, Breaks, List.mem_append, List.mem_flatMap,
    ColumnSchema.mem_failures_iff, RowCheck.mem_failures_iff]

theorem ColumnSchema.coerced_length (engine : Pandera) (schema : ColumnSchema)
    (column : Column) :
    (schema.coerced engine column).cells.length = column.cells.length := by
  simp only [coerced]
  cases schema.coerce with
  | false => rfl
  | true =>
      cases engine.coerce schema.dtype column with
      | ok cells => exact cells.2
      | error verdict => rfl

/-- Only a row of the frame breaks a rule. -/
theorem ContractSchema.Breaks.inside {engine : Pandera}
    {schema : ContractSchema} {running : Bool} {frame : DataFrame}
    {index : Nat} {rule : String}
    (breaks : schema.Breaks engine running frame index rule) :
    index < frame.height := by
  rcases breaks with ⟨columnSchema, _, column, found, broken⟩ |
    ⟨check, _, _, inside, _⟩
  · rw [← frame.aligned column (List.mem_of_find?_eq_some found)]
    rcases broken with ⟨cell, present, _⟩ | ⟨cell, present, _⟩
    · exact (List.getElem?_eq_some_iff.mp present).1
    · rw [← columnSchema.coerced_length engine column]
      exact (List.getElem?_eq_some_iff.mp present).1
  · exact inside

theorem ContractSchema.Breaks.any {engine : Pandera} {schema : ContractSchema}
    {frame : DataFrame} {index : Nat} {rule : String}
    (breaks : schema.Breaks engine true frame index rule) :
    schema.Breaks engine false frame index rule := by
  rcases breaks with ⟨columnSchema, member, column, found, broken⟩ |
    ⟨check, member, _, broken⟩
  · refine Or.inl ⟨columnSchema, member, column, found, ?_⟩
    rcases broken with refused | ⟨cell, present, broken⟩
    · exact Or.inl refused
    · refine Or.inr ⟨cell, present, ?_⟩
      rcases broken with null | mistyped | ⟨check, checked, _, fails⟩
      · exact Or.inl null
      · exact Or.inr (Or.inl mistyped)
      · exact Or.inr (Or.inr ⟨check, checked, by simp, fails⟩)
  · exact Or.inr ⟨check, member, by simp, broken⟩

private theorem mem_sortedSet {names : List String} {name : String} :
    name ∈ sortedSet names ↔ name ∈ names := by
  simp only [sortedSet]
  rw [List.mem_insertionSort, List.mem_dedup]

private theorem sortedSet_increasing (names : List String) :
    (sortedSet names).Pairwise (· < ·) := by
  have sorted : (sortedSet names).Pairwise (· ≤ ·) :=
    List.pairwise_insertionSort _ _
  have distinct : (sortedSet names).Nodup :=
    (List.perm_insertionSort _ _).nodup_iff.mpr names.nodup_dedup
  exact (sorted.and distinct).imp (fun both => lt_of_le_of_ne both.1 both.2)

section Split

variable {engine : Pandera} {frame : DataFrame} {symbols : List String}
  {index : Nat}

/-- The failure cases the split is made from. -/
def rowFailures (engine : Pandera) (frame : DataFrame) (symbols : List String) :
    List FailureCase :=
  ((buildContract symbols).validate engine frame).filter
    (fun failure => failure.index.isSome)

theorem mem_rowFailures_iff {rule : String} :
    ⟨rule, some index⟩ ∈ rowFailures engine frame symbols ↔
      (buildContract symbols).Breaks engine true frame index rule := by
  simp only [rowFailures]
  rw [List.mem_filter, ContractSchema.mem_validate_iff]
  simp

private theorem mem_checksAt_iff {rule : String} :
    rule ∈ checksAt (rowFailures engine frame symbols) index ↔
      (buildContract symbols).Breaks engine true frame index rule := by
  rw [← mem_rowFailures_iff]
  simp only [checksAt, List.mem_map, List.mem_filter, decide_eq_true_eq]
  constructor
  · intro listed
    rcases listed with ⟨⟨check, row⟩, ⟨member, same⟩, rfl⟩
    simp only at same
    subst same
    exact member
  · intro member
    exact ⟨_, ⟨member, rfl⟩, rfl⟩

/-- Whether a row is quarantined. -/
def isBad (engine : Pandera) (frame : DataFrame) (symbols : List String)
    (index : Nat) : Bool :=
  (rowFailures engine frame symbols).any
    (fun failure => failure.index = some index)

theorem isBad_iff :
    isBad engine frame symbols index = true ↔
      ∃ rule, (buildContract symbols).Breaks engine true frame index rule := by
  simp only [isBad, List.any_eq_true, decide_eq_true_eq]
  constructor
  · intro reported
    rcases reported with ⟨⟨rule, row⟩, member, same⟩
    simp only at same
    subst same
    exact ⟨rule, mem_rowFailures_iff.mp member⟩
  · intro broken
    rcases broken with ⟨rule, breaks⟩
    exact ⟨_, mem_rowFailures_iff.mpr breaks, rfl⟩

theorem applyContract_valid :
    (applyContract engine frame symbols).valid =
      (List.range frame.height).filter
        (fun row => !isBad engine frame symbols row) := rfl

theorem applyContract_quarantined :
    (applyContract engine frame symbols).quarantined =
      ((List.range frame.height).filter (isBad engine frame symbols)).map
        (fun row => (row, ", ".intercalate
          (sortedSet (checksAt (rowFailures engine frame symbols) row)))) := rfl

theorem quarantined_positions :
    (applyContract engine frame symbols).quarantined.map Prod.fst =
      (List.range frame.height).filter (isBad engine frame symbols) := by
  rw [applyContract_quarantined, List.map_map]
  exact List.map_id _

theorem mem_quarantined_iff :
    index ∈ (applyContract engine frame symbols).quarantined.map Prod.fst ↔
      ∃ rule, (buildContract symbols).Breaks engine true frame index rule := by
  rw [quarantined_positions, List.mem_filter, isBad_iff, List.mem_range]
  constructor
  · intro both
    exact both.2
  · intro broken
    exact ⟨broken.choose_spec.inside, broken⟩

theorem applyContract_ok_iff :
    (applyContract engine frame symbols).ok = true ↔
      ∀ row rule,
        ¬ (buildContract symbols).Breaks engine true frame row rule := by
  simp only [ContractResult.ok, List.isEmpty_iff]
  constructor
  · intro empty row rule breaks
    have member := mem_quarantined_iff.mpr ⟨rule, breaks⟩
    rw [empty] at member
    cases member
  · intro clean
    have none : (applyContract engine frame symbols).quarantined.map Prod.fst =
        [] := by
      apply List.eq_nil_iff_forall_not_mem.mpr
      intro row member
      obtain ⟨rule, breaks⟩ := mem_quarantined_iff.mp member
      exact clean row rule breaks
    exact List.map_eq_nil_iff.mp none

/-- A row's reason lists the rules it is reported for. -/
theorem quarantined_reason {reason : String}
    (member : (index, reason) ∈
      (applyContract engine frame symbols).quarantined) :
    ∃ names, reason = ", ".intercalate names ∧ names ≠ [] ∧
      names.Pairwise (· < ·) ∧
      ∀ rule, rule ∈ names ↔
        (buildContract symbols).Breaks engine true frame index rule := by
  have position : index ∈ (applyContract engine frame symbols).quarantined.map
      Prod.fst := List.mem_map_of_mem (f := Prod.fst) member
  obtain ⟨rule, breaks⟩ := mem_quarantined_iff.mp position
  have listed : ∀ name,
      name ∈ sortedSet (checksAt (rowFailures engine frame symbols) index) ↔
        (buildContract symbols).Breaks engine true frame index name := by
    intro name
    rw [mem_sortedSet, mem_checksAt_iff]
  have joined : reason = ", ".intercalate
      (sortedSet (checksAt (rowFailures engine frame symbols) index)) := by
    rw [applyContract_quarantined, List.mem_map] at member
    obtain ⟨row, _, same⟩ := member
    cases same
    rfl
  exact ⟨_, joined, List.ne_nil_of_mem ((listed rule).mpr breaks),
    sortedSet_increasing _, listed⟩

end Split

/-- The split of a frame is sound and complete: the rows are partitioned in
their order, the quarantined ones are those that break a rule, each with the
rules it breaks, and a frame without any satisfies the contract. -/
structure SplitsSoundly (engine : Pandera) (frame : DataFrame)
    (symbols : List String) (result : ContractResult) : Prop where
  validOrder : result.valid.Sublist (List.range frame.height)
  quarantinedOrder :
    (result.quarantined.map Prod.fst).Sublist (List.range frame.height)
  partition : (result.valid ++ result.quarantined.map Prod.fst).Perm
    (List.range frame.height)
  counts : result.valid.length + result.quarantined.length = frame.height
  complete : ∀ index < frame.height,
    index ∈ result.quarantined.map Prod.fst ↔
      ∃ rule, (buildContract symbols).Breaks engine false frame index rule
  reasons : ∀ index reason, (index, reason) ∈ result.quarantined →
    ∃ names, reason = ", ".intercalate names ∧ names ≠ [] ∧
      names.Pairwise (· < ·) ∧
      ∀ rule, rule ∈ names ↔
        (buildContract symbols).Breaks engine false frame index rule
  ok : result.ok = true → (buildContract symbols).Satisfied engine frame

/-- Every rule a row breaks it also breaks through a check that runs. -/
def ChecksHeard (engine : Pandera) (frame : DataFrame)
    (symbols : List String) : Prop :=
  ∀ index rule, (buildContract symbols).Breaks engine false frame index rule →
    (buildContract symbols).Breaks engine true frame index rule

theorem filter_partition_perm (bad : Nat → Bool) (height : Nat) :
    ((List.range height).filter (fun row => !bad row) ++
      (List.range height).filter bad).Perm (List.range height) :=
  List.perm_append_comm.trans (List.filter_append_perm bad _)

section Sound

variable {engine : Pandera} {frame : DataFrame} {symbols : List String}

/-- A rule that only a raising check would name is missing from the reason. -/
theorem SplitsSoundly.heard
    (sound : SplitsSoundly engine frame symbols
      (applyContract engine frame symbols)) :
    ChecksHeard engine frame symbols := by
  intro index rule breaks
  have member := (sound.complete index breaks.inside).mpr ⟨rule, breaks⟩
  obtain ⟨⟨row, reason⟩, listed, same⟩ := List.mem_map.mp member
  simp only at same
  subst same
  obtain ⟨expected, joined, _, _, broken⟩ := sound.reasons row reason listed
  obtain ⟨reported, sameJoined, nonempty, increasing, running⟩ :=
    quarantined_reason listed
  have among : reported ⊆ expected := by
    intro name reportedMember
    exact (broken name).mpr ((running name).mp reportedMember).any
  have all := subset_of_intercalate_eq (by decide) increasing.nodup among
    nonempty (sameJoined.symm.trans joined)
  exact (running rule).mp (all ((broken rule).mpr breaks))

theorem ChecksHeard.breaks_iff (heard : ChecksHeard engine frame symbols)
    (index : Nat) (rule : String) :
    (buildContract symbols).Breaks engine true frame index rule ↔
      (buildContract symbols).Breaks engine false frame index rule := by
  constructor
  · intro breaks
    exact breaks.any
  · intro breaks
    exact heard index rule breaks

/-- Without a row that breaks a rule, the frame is as good as its schema
part. -/
theorem ChecksHeard.satisfied (heard : ChecksHeard engine frame symbols)
    (typed : (buildContract symbols).TypesHold engine frame ∨
      ∃ index rule,
        (buildContract symbols).Breaks engine false frame index rule)
    (ok : (applyContract engine frame symbols).ok = true) :
    (buildContract symbols).Satisfied engine frame := by
  rw [applyContract_ok_iff] at ok
  have clean : ∀ index rule,
      ¬ (buildContract symbols).Breaks engine false frame index rule := by
    intro index rule breaks
    exact ok index rule (heard index rule breaks)
  rcases typed with types | ⟨index, rule, breaks⟩
  · exact ⟨types, fun index _ => clean index⟩
  · exact absurd breaks (clean index rule)

end Sound

/-- The split is sound and complete exactly when no check raises over a row it
would fail, and a frame whose schema part fails has a row that breaks a
rule. -/
theorem applyContract_splits_soundly_iff (engine : Pandera)
    (frame : DataFrame) (symbols : List String) :
    SplitsSoundly engine frame symbols (applyContract engine frame symbols) ↔
      ChecksHeard engine frame symbols ∧
        ((buildContract symbols).TypesHold engine frame ∨
          ∃ index rule,
            (buildContract symbols).Breaks engine false frame index rule) := by
  constructor
  · intro sound
    refine ⟨sound.heard, ?_⟩
    by_cases ok : (applyContract engine frame symbols).ok = true
    · exact Or.inl (sound.ok ok).types
    · right
      rw [applyContract_ok_iff] at ok
      push Not at ok
      obtain ⟨index, rule, breaks⟩ := ok
      exact ⟨index, rule, breaks.any⟩
  · intro conditions
    rcases conditions with ⟨heard, typed⟩
    refine ⟨?_, ?_, ?_, ?_, ?_, ?_, heard.satisfied typed⟩
    · rw [applyContract_valid]
      exact List.filter_sublist
    · rw [quarantined_positions]
      exact List.filter_sublist
    · rw [applyContract_valid, quarantined_positions]
      exact filter_partition_perm _ _
    · have lengths := (filter_partition_perm (isBad engine frame symbols)
        frame.height).length_eq
      rw [← applyContract_valid, ← quarantined_positions, List.length_append,
        List.length_map, List.length_range] at lengths
      exact lengths
    · intro index _
      rw [mem_quarantined_iff]
      simp only [heard.breaks_iff]
    · intro index reason member
      obtain ⟨names, joined, nonempty, increasing, listed⟩ :=
        quarantined_reason member
      refine ⟨names, joined, nonempty, increasing, ?_⟩
      intro rule
      rw [listed, heard.breaks_iff]

/-- A frame of one valid trade that lost its `exchange` column. -/
def withoutExchange : DataFrame :=
  let whole := eventsToFrame
    [{ exchange := "coinbase"
       symbol := "BTC-USD"
       eventType := .trade
       price := some (.fin 100)
       size := some (.fin 1)
       tsEvent := 0
       tsIngest := 0 }]
  { columns := whole.columns.tail
    height := whole.height
    aligned := by
      intro column member
      exact whole.aligned column (List.mem_of_mem_tail member) }

/-- The missing column is reported without a row, and the contract comes out
as met. -/
theorem applyContract_accepts_missing_column :
    (applyContract eventPandera withoutExchange ["BTC-USD"]).ok = true ∧
      withoutExchange.column? "exchange" = none ∧
      ¬ SplitsSoundly eventPandera withoutExchange ["BTC-USD"]
        (applyContract eventPandera withoutExchange ["BTC-USD"]) := by
  have ok : (applyContract eventPandera withoutExchange ["BTC-USD"]).ok =
      true := by
    decide +kernel
  have missing : withoutExchange.column? "exchange" = none := by
    decide +kernel
  refine ⟨ok, missing, ?_⟩
  intro sound
  obtain ⟨column, found, _⟩ := (sound.ok ok).types
    (stringColumn "exchange" none) (by simp [buildContract])
  have absent : withoutExchange.column? "exchange" = some column := found
  rw [missing] at absent
  cases absent

end TickStream
