import Mathlib.Data.List.Dedup
import Mathlib.Data.List.Sort
import TickStream.Schema

/-!
# The data contract

A frame is a list of named columns of one length; its rows are addressed by
position, as `apply_contract` resets the index.  Validation is lazy: it
collects a case for every failure, with the row's position when the failure
belongs to a row and without one when it belongs to a column or the frame.
What pandera decides about the type of a column is a parameter.
-/

namespace TickStream

open Python

/-- A pandas cell; `null` stands for None, NaN and NaT. -/
inductive Cell where
  | null
  | str (value : String)
  | num (value : PyFloat)
  | time (value : Instant)
deriving DecidableEq, Repr

inductive Dtype where
  | str
  | float64
  | datetimeMicros
  | datetimeNanos
  | object
deriving DecidableEq, Repr

structure Column where
  name : String
  dtype : Dtype
  cells : List Cell
deriving DecidableEq, Repr

structure DataFrame where
  columns : List Column
  height : Nat
  aligned : ∀ column ∈ columns, column.cells.length = height

namespace DataFrame

def column? (frame : DataFrame) (name : String) : Option Column :=
  frame.columns.find? (fun column => column.name = name)

end DataFrame

/-- A failure case: the check and, for a failing row, its position. -/
structure FailureCase where
  check : String
  index : Option Nat
deriving DecidableEq, Repr

/-- A check on the non-null cells of a column; `none` when it raises. -/
structure CellCheck where
  name : String
  passes : Cell → Option Bool

structure ColumnSchema where
  name : String
  dtype : Dtype
  dtypeName : String
  nullable : Bool
  coerce : Bool
  check : Option CellCheck

/-- A check on whole rows; it reads the columns it names. -/
structure RowCheck where
  name : String
  reads : List String
  passes : List Cell → Option Bool

structure ContractSchema where
  columns : List ColumnSchema
  checks : List RowCheck

/-- The positions at which a predicate on cells fails. -/
def failingAt (passes : Cell → Bool) (cells : List Cell) : List Nat :=
  (cells.zipIdx.filter (fun entry => !passes entry.1)).map Prod.snd

/-- The answer to a check on types: one for the column, or one for each cell. -/
inductive TypeVerdict where
  | column (passes : Bool)
  | cells (passes : Cell → Bool)

namespace TypeVerdict

/-- A failure of the column has no row. -/
def failures (verdict : TypeVerdict) (check : String) (cells : List Cell) :
    List FailureCase :=
  match verdict with
  | .column true => []
  | .column false => [⟨check, none⟩]
  | .cells passes =>
      (failingAt passes cells).map (fun index => ⟨check, some index⟩)

def accepts (verdict : TypeVerdict) (cells : List Cell) : Prop :=
  match verdict with
  | .column passes => passes = true
  | .cells passes => ∀ cell ∈ cells, passes cell = true

/-- The verdict names this cell. -/
def Faults (verdict : TypeVerdict) (cell : Cell) : Prop :=
  ∃ passes, verdict = .cells passes ∧ passes cell = false

end TypeVerdict

/-- What pandera decides about types: how it coerces a column to a dtype, or
where that fails, and whether a column has a dtype. -/
structure Pandera where
  coerce : Dtype → (column : Column) →
    Except TypeVerdict {cells : List Cell // cells.length = column.cells.length}
  checkDtype : Dtype → Column → TypeVerdict

namespace ColumnSchema

variable (engine : Pandera) (schema : ColumnSchema)

def coerceFailures (column : Column) : List FailureCase :=
  match schema.coerce, engine.coerce schema.dtype column with
  | true, .error verdict =>
      verdict.failures ("coerce_dtype('" ++ schema.dtypeName ++ "')")
        column.cells
  | _, _ => []

/-- The column that is checked: the coerced one if coercion succeeds. -/
def coerced (column : Column) : Column :=
  match schema.coerce, engine.coerce schema.dtype column with
  | true, .ok cells => { column with dtype := schema.dtype, cells := cells.1 }
  | _, _ => column

def dtypeFailures (column : Column) : List FailureCase :=
  (engine.checkDtype schema.dtype column).failures
    ("dtype('" ++ schema.dtypeName ++ "')") column.cells

def nullFailures (column : Column) : List FailureCase :=
  if schema.nullable then []
  else
    (failingAt (fun cell => cell ≠ .null) column.cells).map
      (fun index => ⟨"not_nullable", some index⟩)

/-- Nulls are skipped; a check that raises on some cell fails as a whole. -/
def checkFailures (column : Column) : List FailureCase :=
  match schema.check with
  | none => []
  | some check =>
      let present := column.cells.filter (fun cell => cell ≠ .null)
      if present.all (fun cell => (check.passes cell).isSome) then
        (failingAt
          (fun cell => cell = .null || (check.passes cell).getD false)
          column.cells).map (fun index => ⟨check.name, some index⟩)
      else [⟨check.name, none⟩]

def failures (frame : DataFrame) : List FailureCase :=
  match frame.column? schema.name with
  | none => [⟨"column_in_dataframe", none⟩]
  | some column =>
      let checked := schema.coerced engine column
      schema.coerceFailures engine column ++ schema.nullFailures checked ++
        schema.dtypeFailures engine checked ++ schema.checkFailures checked

end ColumnSchema

namespace RowCheck

variable (check : RowCheck)

/-- The cells a check reads in one row, if the columns are there. -/
def cellsAt (frame : DataFrame) (index : Nat) : Option (List Cell) :=
  check.reads.mapM (fun name =>
    (frame.column? name).map (fun column => column.cells.getD index .null))

def outcomes (frame : DataFrame) : List (Option Bool) :=
  (List.range frame.height).map (fun index =>
    (check.cellsAt frame index).bind check.passes)

def failures (frame : DataFrame) : List FailureCase :=
  if (check.outcomes frame).all Option.isSome &&
      check.reads.all (fun name => (frame.column? name).isSome) then
    ((List.range frame.height).filter (fun index =>
      (check.cellsAt frame index).bind check.passes = some false)).map
        (fun index => ⟨check.name, some index⟩)
  else [⟨check.name, none⟩]

end RowCheck

/-- The failure cases of `schema.validate(df, lazy=True)`. -/
def ContractSchema.validate (engine : Pandera) (schema : ContractSchema)
    (frame : DataFrame) : List FailureCase :=
  schema.columns.flatMap (fun column => column.failures engine frame) ++
    schema.checks.flatMap (fun check => check.failures frame)

def greaterThanZero : CellCheck where
  name := "greater_than(0)"
  passes
    | .num value => some (PyFloat.lt (.fin 0) value)
    | _ => none

def atLeastZero : CellCheck where
  name := "greater_than_or_equal_to(0)"
  passes
    | .num value => some (PyFloat.le (.fin 0) value)
    | _ => none

/-- `repr` of a list of strings. -/
def reprStrings (values : List String) : String :=
  "[" ++ ", ".intercalate (values.map reprStr) ++ "]"

def isIn (allowed : List String) : CellCheck where
  name := "isin(" ++ reprStrings allowed ++ ")"
  passes
    | .str value => some (allowed.contains value)
    | _ => some false

/-- `best_ask >= best_bid` wherever both are present. -/
def spreadNonNegative : RowCheck where
  name := "spread_non_negative"
  reads := ["best_bid", "best_ask"]
  passes
    | [.null, _] => some true
    | [_, .null] => some true
    | [.num bid, .num ask] => some (bid.le ask)
    | _ => none

def tradeHasPriceAndSize : RowCheck where
  name := "trade_has_price_and_size"
  reads := ["event_type", "price", "size"]
  passes
    | [eventType, price, size] =>
        some (eventType ≠ .str "trade" || (price ≠ .null && size ≠ .null))
    | _ => none

def stringColumn (name : String) (check : Option CellCheck) : ColumnSchema :=
  { name := name
    dtype := .str
    dtypeName := "str"
    nullable := false
    coerce := false
    check := check }

def floatColumn (name : String) (check : CellCheck) : ColumnSchema :=
  { name := name
    dtype := .float64
    dtypeName := "float64"
    nullable := true
    coerce := false
    check := some check }

def timeColumn (name : String) : ColumnSchema :=
  { name := name
    dtype := .datetimeNanos
    dtypeName := "datetime64[ns, UTC]"
    nullable := false
    coerce := true
    check := none }

def buildContract (symbols : List String) : ContractSchema :=
  { columns :=
      [stringColumn "exchange" none,
        stringColumn "symbol" (some (isIn symbols)),
        stringColumn "event_type" (some (isIn ["trade", "ticker"])),
        floatColumn "price" greaterThanZero,
        floatColumn "size" atLeastZero,
        floatColumn "best_bid" atLeastZero,
        floatColumn "best_ask" atLeastZero,
        floatColumn "best_bid_size" atLeastZero,
        floatColumn "best_ask_size" atLeastZero,
        timeColumn "ts_event",
        timeColumn "ts_ingest"]
    checks := [spreadNonNegative, tradeHasPriceAndSize] }

/-- A number in a float column; NaN is null to pandas. -/
def numCell : Option PyFloat → Cell
  | none => .null
  | some value => if value.isNaN then .null else .num value

def strCell : Option String → Cell
  | none => .null
  | some value => .str value

/-- A column of the frame, read off every event. -/
def eventColumn (events : List (MarketEvent PyFloat)) (name : String)
    (dtype : Dtype) (cell : MarketEvent PyFloat → Cell) : Column :=
  { name := name, dtype := dtype, cells := events.map cell }

def eventColumns (events : List (MarketEvent PyFloat)) : List Column :=
  [eventColumn events "exchange" .str (fun event => .str event.exchange),
    eventColumn events "symbol" .str (fun event => .str event.symbol),
    eventColumn events "event_type" .str
      (fun event => .str event.eventType.value),
    eventColumn events "price" .float64 (fun event => numCell event.price),
    eventColumn events "size" .float64 (fun event => numCell event.size),
    eventColumn events "side" .object
      (fun event => strCell (event.side.map Side.value)),
    eventColumn events "trade_id" .object (fun event => strCell event.tradeId),
    eventColumn events "best_bid" .float64
      (fun event => numCell event.bestBid),
    eventColumn events "best_ask" .float64
      (fun event => numCell event.bestAsk),
    eventColumn events "best_bid_size" .float64
      (fun event => numCell event.bestBidSize),
    eventColumn events "best_ask_size" .float64
      (fun event => numCell event.bestAskSize),
    eventColumn events "ts_event" .datetimeMicros
      (fun event => .time event.tsEvent),
    eventColumn events "ts_ingest" .datetimeMicros
      (fun event => .time event.tsIngest)]

def eventsToFrame (events : List (MarketEvent PyFloat)) : DataFrame :=
  { columns := eventColumns events
    height := events.length
    aligned := by
      intro column member
      simp only [eventColumns, List.mem_cons, List.not_mem_nil,
        or_false] at member
      rcases member with rfl | rfl | rfl | rfl | rfl | rfl | rfl | rfl | rfl |
        rfl | rfl | rfl | rfl <;> exact List.length_map _ }

/-- `valid` and `quarantined` list row positions; a quarantined row carries
its reason. -/
structure ContractResult where
  valid : List Nat
  quarantined : List (Nat × String)
  reasons : List String
deriving DecidableEq, Repr

def ContractResult.ok (result : ContractResult) : Bool :=
  result.quarantined.isEmpty

/-- `sorted(set(names))`. -/
def sortedSet (names : List String) : List String :=
  names.dedup.insertionSort (· ≤ ·)

/-- The checks reported for one row. -/
def checksAt (failures : List FailureCase) (index : Nat) : List String :=
  (failures.filter (fun failure => failure.index = some index)).map
    FailureCase.check

/-- Validate a frame and split its rows. -/
def applyContract (engine : Pandera) (frame : DataFrame)
    (symbols : List String) : ContractResult :=
  let failures := ((buildContract symbols).validate engine frame).filter
    (fun failure => failure.index.isSome)
  let bad := fun index =>
    failures.any (fun failure => failure.index = some index)
  { valid := (List.range frame.height).filter (fun index => !bad index)
    quarantined :=
      ((List.range frame.height).filter bad).map (fun index =>
        (index, ", ".intercalate (sortedSet (checksAt failures index))))
    reasons := sortedSet (failures.map FailureCase.check) }

/-- A number that is present and not NaN. -/
def isPresent : Option PyFloat → Bool
  | none => false
  | some value => !value.isNaN

/-- The value rules of the contract, for one event. -/
structure MeetsRules (event : MarketEvent PyFloat) : Prop where
  price : ∀ value, event.price = some value → value.isNaN = false →
    PyFloat.lt (.fin 0) value = true
  size : ∀ value, event.size = some value → value.isNaN = false →
    PyFloat.le (.fin 0) value = true
  bestBid : ∀ value, event.bestBid = some value → value.isNaN = false →
    PyFloat.le (.fin 0) value = true
  bestAsk : ∀ value, event.bestAsk = some value → value.isNaN = false →
    PyFloat.le (.fin 0) value = true
  bestBidSize : ∀ value, event.bestBidSize = some value →
    value.isNaN = false → PyFloat.le (.fin 0) value = true
  bestAskSize : ∀ value, event.bestAskSize = some value →
    value.isNaN = false → PyFloat.le (.fin 0) value = true
  uncrossed : ∀ bid ask, event.bestBid = some bid → event.bestAsk = some ask →
    bid.isNaN = false → ask.isNaN = false → bid.le ask = true
  tradeCarries : event.eventType = .trade →
    isPresent event.price = true ∧ isPresent event.size = true

/-- Every rule of the contract, for one event. -/
structure MeetsContract (symbols : List String)
    (event : MarketEvent PyFloat) : Prop where
  rules : MeetsRules event
  configured : event.symbol ∈ symbols

/-- Nanosecond timestamps cover only part of the calendar. -/
def fitsNanos (instant : Instant) : Bool :=
  -(2 ^ 63) < instant * 1000 && instant * 1000 < 2 ^ 63

def Cell.fitsNanos : Cell → Bool
  | .time instant => TickStream.fitsNanos instant
  | _ => false

def Cell.isStr : Cell → Bool
  | .str _ => true
  | _ => false

def Cell.isTime : Cell → Bool
  | .time _ => true
  | _ => false

/-- What is documented of pandera for the columns of a frame of events.  Text
and float columns have their dtypes.  A column of instants is converted when all
of them fit nanoseconds; otherwise the conversion fails as a whole, and so does
the check of the dtype it should have had. -/
structure Pandera.Documented (engine : Pandera) : Prop where
  strings : ∀ column, column.dtype = .str →
    (∀ cell ∈ column.cells, cell.isStr = true) →
      (engine.checkDtype .str column).accepts column.cells
  floats : ∀ column, column.dtype = .float64 →
    (engine.checkDtype .float64 column).accepts column.cells
  nanos : ∀ column, column.dtype = .datetimeNanos →
    (engine.checkDtype .datetimeNanos column).accepts column.cells
  converts : ∀ column, column.dtype = .datetimeMicros →
    (∀ cell ∈ column.cells, cell.fitsNanos = true) →
      engine.coerce .datetimeNanos column = .ok ⟨column.cells, rfl⟩
  refuses : ∀ column, column.dtype = .datetimeMicros →
    (∀ cell ∈ column.cells, cell.isTime = true) →
    (∃ cell ∈ column.cells, cell.fitsNanos = false) →
      engine.coerce .datetimeNanos column = .error (.column false)
  unconverted : ∀ column, column.dtype = .datetimeMicros →
    engine.checkDtype .datetimeNanos column = .column false

/-- Pandera as far as frames of events go. -/
def eventPandera : Pandera where
  coerce _ column :=
    if column.cells.all Cell.fitsNanos then .ok ⟨column.cells, rfl⟩
    else .error (.column false)
  checkDtype wanted column :=
    match wanted with
    | .str => .cells (fun cell => cell.isStr)
    | wanted => .column (column.dtype = wanted)

theorem eventPandera_documented : eventPandera.Documented where
  strings _ _ texts := texts
  floats _ same := decide_eq_true same
  nanos _ same := decide_eq_true same
  converts _ _ fit := if_pos (List.all_eq_true.mpr fit)
  refuses column _ _ misfit := by
    obtain ⟨cell, member, unfit⟩ := misfit
    have notAll : ¬ column.cells.all Cell.fitsNanos = true := by
      intro all
      rw [List.all_eq_true.mp all cell member] at unfit
      cases unfit
    exact if_neg notAll
  unconverted column same := by
    simp [eventPandera, same]

theorem mem_failingAt {passes : Cell → Bool} {cells : List Cell}
    {index : Nat} :
    index ∈ failingAt passes cells ↔
      ∃ cell, cells[index]? = some cell ∧ passes cell = false := by
  simp only [failingAt, List.mem_map, List.mem_filter, Prod.exists,
    List.mem_zipIdx_iff_getElem?, Bool.not_eq_true', exists_eq_right]

/-- What a column schema rejects in one row. -/
def ColumnSchema.rejects (schema : ColumnSchema) (cell : Cell) : Bool :=
  (!schema.nullable && cell = .null) ||
    match schema.check with
    | none => false
    | some check => cell ≠ .null && check.passes cell = some false

/-- No failure of the column's type names a row, and coercion keeps the
cells. -/
structure ColumnSchema.TypedRows (engine : Pandera) (schema : ColumnSchema)
    (column : Column) : Prop where
  cells : (schema.coerced engine column).cells = column.cells
  coerced : ∀ failure ∈ schema.coerceFailures engine column,
    failure.index = none
  typed : ∀ failure ∈
    schema.dtypeFailures engine (schema.coerced engine column),
      failure.index = none

theorem ColumnSchema.row_failure_iff {engine : Pandera} (schema : ColumnSchema)
    {frame : DataFrame} {column : Column}
    (found : frame.column? schema.name = some column)
    (typedRows : schema.TypedRows engine column)
    (total : ∀ check, schema.check = some check → ∀ cell ∈ column.cells,
      cell ≠ .null → (check.passes cell).isSome = true)
    (index : Nat) :
    (∃ failure ∈ schema.failures engine frame, failure.index = some index) ↔
      ∃ cell, column.cells[index]? = some cell ∧
        schema.rejects cell = true := by
  have rowless : ∀ failures : List FailureCase,
      (∀ failure ∈ failures, failure.index = none) →
        ¬ ∃ failure ∈ failures, failure.index = some index := by
    intro failures none reported
    obtain ⟨failure, member, here⟩ := reported
    rw [none failure member] at here
    cases here
  have coerced := rowless _ typedRows.coerced
  have dtypes := rowless _ typedRows.typed
  have nulls : (∃ failure ∈
      schema.nullFailures (schema.coerced engine column),
        failure.index = some index) ↔ ∃ cell, column.cells[index]? = some cell ∧
        (!schema.nullable && cell = .null) = true := by
    simp only [ColumnSchema.nullFailures, typedRows.cells]
    cases schema.nullable with
    | true => simp
    | false => simp [mem_failingAt]
  have checks : (∃ failure ∈
      schema.checkFailures (schema.coerced engine column),
        failure.index = some index) ↔ ∃ cell, column.cells[index]? = some cell ∧
        (match schema.check with
          | none => false
          | some check =>
              cell ≠ .null && check.passes cell = some false) = true := by
    simp only [ColumnSchema.checkFailures, typedRows.cells]
    cases checked : schema.check with
    | none => simp
    | some check =>
        have all : (column.cells.filter (fun cell => cell ≠ .null)).all
            (fun cell => (check.passes cell).isSome) = true := by
          rw [List.all_eq_true]
          intro cell member
          obtain ⟨cellMember, present⟩ := List.mem_filter.mp member
          exact total check checked cell cellMember (by simpa using present)
        simp only [all, if_true, List.mem_map, exists_exists_and_eq_and,
          Option.some.injEq, exists_eq_right, mem_failingAt]
        refine exists_congr (fun cell => and_congr_right (fun present => ?_))
        have member := List.mem_of_getElem? present
        by_cases null : cell = .null
        · simp [null]
        · obtain ⟨outcome, passes⟩ :=
            Option.isSome_iff_exists.mp (total check checked cell member null)
          simp [null, passes]
  simp only [ColumnSchema.failures, found, List.mem_append, or_and_right,
    exists_or, coerced, nulls, dtypes, checks, false_or, or_false,
    ColumnSchema.rejects, Bool.or_eq_true, and_or_left]

/-- The position and cell of an event in a column of events. -/
private theorem eventColumn_cell {events : List (MarketEvent PyFloat)}
    {name : String}
    {dtype : Dtype} {cell : MarketEvent PyFloat → Cell} {index : Nat}
    {found : Cell} :
    (eventColumn events name dtype cell).cells[index]? = some found ↔
      ∃ event, events[index]? = some event ∧ cell event = found := by
  simp [eventColumn]

theorem RowCheck.row_failure_iff (check : RowCheck) (frame : DataFrame)
    {events : List (MarketEvent PyFloat)}
    (height : frame.height = events.length)
    (cells : MarketEvent PyFloat → List Cell)
    (present : check.reads.all
      (fun name => (frame.column? name).isSome) = true)
    (reads : ∀ index event, events[index]? = some event →
      check.cellsAt frame index = some (cells event))
    (total : ∀ event ∈ events, (check.passes (cells event)).isSome = true)
    (index : Nat) :
    (∃ failure ∈ check.failures frame, failure.index = some index) ↔
      ∃ event, events[index]? = some event ∧
        check.passes (cells event) = some false := by
  have all : (check.outcomes frame).all Option.isSome = true := by
    simp only [RowCheck.outcomes]
    rw [List.all_map, List.all_eq_true]
    intro row member
    have inside : row < events.length := by
      rw [← height]
      exact List.mem_range.mp member
    have event := List.getElem?_eq_getElem inside
    simp only [Function.comp_apply, reads row _ event, Option.bind_some]
    exact total _ (List.getElem_mem inside)
  simp only [RowCheck.failures]
  rw [all, present]
  simp only [Bool.and_self, if_true, List.mem_map, exists_exists_and_eq_and,
    Option.some.injEq, exists_eq_right, List.mem_filter, List.mem_range,
    decide_eq_true_eq]
  constructor
  · intro violated
    rcases violated with ⟨inside, fails⟩
    have event := List.getElem?_eq_getElem (height ▸ inside)
    rw [reads index _ event, Option.bind_some] at fails
    exact ⟨_, event, fails⟩
  · intro violated
    rcases violated with ⟨event, found, fails⟩
    obtain ⟨inside, _⟩ := List.getElem?_eq_some_iff.mp found
    rw [reads index event found, Option.bind_some]
    exact ⟨height ▸ inside, fails⟩

/-- The columns of the contract with the cell each reads off an event. -/
def contractColumns (symbols : List String) :
    List (ColumnSchema × Dtype × (MarketEvent PyFloat → Cell)) :=
  [(stringColumn "exchange" none, .str, fun event => .str event.exchange),
    (stringColumn "symbol" (some (isIn symbols)), .str,
      fun event => .str event.symbol),
    (stringColumn "event_type" (some (isIn ["trade", "ticker"])), .str,
      fun event => .str event.eventType.value),
    (floatColumn "price" greaterThanZero, .float64,
      fun event => numCell event.price),
    (floatColumn "size" atLeastZero, .float64,
      fun event => numCell event.size),
    (floatColumn "best_bid" atLeastZero, .float64,
      fun event => numCell event.bestBid),
    (floatColumn "best_ask" atLeastZero, .float64,
      fun event => numCell event.bestAsk),
    (floatColumn "best_bid_size" atLeastZero, .float64,
      fun event => numCell event.bestBidSize),
    (floatColumn "best_ask_size" atLeastZero, .float64,
      fun event => numCell event.bestAskSize),
    (timeColumn "ts_event", .datetimeMicros, fun event => .time event.tsEvent),
    (timeColumn "ts_ingest", .datetimeMicros,
      fun event => .time event.tsIngest)]

theorem buildContract_columns (symbols : List String) :
    (buildContract symbols).columns =
      (contractColumns symbols).map Prod.fst := rfl

private theorem contractColumns_found (symbols : List String)
    (events : List (MarketEvent PyFloat)) :
    ∀ entry ∈ contractColumns symbols,
      (eventsToFrame events).column? entry.1.name =
        some (eventColumn events entry.1.name entry.2.1 entry.2.2) := by
  intro entry member
  simp only [contractColumns, List.mem_cons, List.not_mem_nil,
    or_false] at member
  rcases member with rfl | rfl | rfl | rfl | rfl | rfl | rfl | rfl | rfl |
    rfl | rfl <;> rfl

theorem numCell_eq_num {field : Option PyFloat}
    (present : numCell field ≠ .null) :
    ∃ value, numCell field = .num value := by
  cases field with
  | none => exact absurd rfl present
  | some value =>
      cases value with
      | nan => exact absurd rfl present
      | inf negative => exact ⟨_, rfl⟩
      | fin value => exact ⟨_, rfl⟩

private theorem contractColumns_total (symbols : List String)
    (event : MarketEvent PyFloat) :
    ∀ entry ∈ contractColumns symbols,
      ∀ check, entry.1.check = some check → entry.2.2 event ≠ .null →
        (check.passes (entry.2.2 event)).isSome = true := by
  have greater : ∀ field, numCell field ≠ .null →
      (greaterThanZero.passes (numCell field)).isSome = true := by
    intro field present
    obtain ⟨value, same⟩ := numCell_eq_num present
    rw [same]
    rfl
  have atLeast : ∀ field, numCell field ≠ .null →
      (atLeastZero.passes (numCell field)).isSome = true := by
    intro field present
    obtain ⟨value, same⟩ := numCell_eq_num present
    rw [same]
    rfl
  intro entry member check checked present
  simp only [contractColumns, List.mem_cons, List.not_mem_nil,
    or_false] at member
  rcases member with rfl | rfl | rfl | rfl | rfl | rfl | rfl | rfl | rfl |
    rfl | rfl <;> cases checked <;>
      first
      | rfl
      | exact greater _ present
      | exact atLeast _ present

private theorem rejects_positive {name : String} {field : Option PyFloat} :
    (floatColumn name greaterThanZero).rejects (numCell field) = true ↔
      ∃ value, field = some value ∧ value.isNaN = false ∧
        PyFloat.lt (.fin 0) value = false := by
  cases field with
  | none => simp [ColumnSchema.rejects, floatColumn, numCell]
  | some value =>
      cases value <;> simp [ColumnSchema.rejects, floatColumn, numCell,
        greaterThanZero, PyFloat.isNaN]

private theorem rejects_nonNegative {name : String} {field : Option PyFloat} :
    (floatColumn name atLeastZero).rejects (numCell field) = true ↔
      ∃ value, field = some value ∧ value.isNaN = false ∧
        PyFloat.le (.fin 0) value = false := by
  cases field with
  | none => simp [ColumnSchema.rejects, floatColumn, numCell]
  | some value =>
      cases value <;> simp [ColumnSchema.rejects, floatColumn, numCell,
        atLeastZero, PyFloat.isNaN]

private theorem rejects_time {name : String} {instant : Instant} :
    (timeColumn name).rejects (.time instant) = false := rfl

private theorem rejects_symbol {symbols : List String} {symbol : String} :
    (stringColumn "symbol" (some (isIn symbols))).rejects (.str symbol) =
      true ↔ symbol ∉ symbols := by
  simp [ColumnSchema.rejects, stringColumn, isIn]

private theorem rejects_exchange {exchange : String} :
    (stringColumn "exchange" none).rejects (.str exchange) = false := rfl

theorem rejects_eventType {eventType : EventType} :
    (stringColumn "event_type" (some (isIn ["trade", "ticker"]))).rejects
      (.str eventType.value) = false := by
  cases eventType <;> rfl

/-- What the row checks read off an event. -/
def quoteCells (event : MarketEvent PyFloat) : List Cell :=
  [numCell event.bestBid, numCell event.bestAsk]

def tradeCells (event : MarketEvent PyFloat) : List Cell :=
  [.str event.eventType.value, numCell event.price, numCell event.size]

theorem spread_passes (event : MarketEvent PyFloat) :
    ∃ outcome, spreadNonNegative.passes (quoteCells event) = some outcome ∧
      (outcome = false ↔ ∃ bid ask, event.bestBid = some bid ∧
        event.bestAsk = some ask ∧ bid.isNaN = false ∧ ask.isNaN = false ∧
          bid.le ask = false) := by
  simp only [quoteCells, spreadNonNegative]
  cases event.bestBid with
  | none => simp [numCell]
  | some bid =>
      cases event.bestAsk with
      | none => cases bid <;> simp [numCell, PyFloat.isNaN]
      | some ask =>
          cases bid <;> cases ask <;> simp [numCell, PyFloat.isNaN]

private theorem numCell_null_iff {field : Option PyFloat} :
    numCell field = .null ↔ isPresent field = false := by
  cases field with
  | none => simp [numCell, isPresent]
  | some value => cases value <;> simp [numCell, isPresent, PyFloat.isNaN]

theorem trade_passes (event : MarketEvent PyFloat) :
    ∃ outcome, tradeHasPriceAndSize.passes (tradeCells event) =
        some outcome ∧
      (outcome = false ↔ event.eventType = .trade ∧
        (isPresent event.price && isPresent event.size) = false) := by
  refine ⟨_, rfl, ?_⟩
  cases event.eventType with
  | trade =>
      simp [EventType.value, numCell_null_iff]
  | ticker => simp [EventType.value]

/-- The rules of a row are what its columns and the row checks reject. -/
theorem meetsContract_iff (symbols : List String)
    (event : MarketEvent PyFloat) :
    MeetsContract symbols event ↔
      (∀ entry ∈ contractColumns symbols,
        entry.1.rejects (entry.2.2 event) = false) ∧
      spreadNonNegative.passes (quoteCells event) ≠ some false ∧
      tradeHasPriceAndSize.passes (tradeCells event) ≠ some false := by
  obtain ⟨spread, spreadPasses, spreadFails⟩ := spread_passes event
  obtain ⟨carries, carriesPasses, carriesFails⟩ := trade_passes event
  rw [spreadPasses, carriesPasses]
  simp only [contractColumns, List.forall_mem_cons, List.not_mem_nil,
    false_imp_iff, implies_true, and_true, rejects_exchange,
    rejects_eventType, ← Bool.not_eq_true, rejects_positive,
    rejects_nonNegative, rejects_time, rejects_symbol, ne_eq,
    Option.some.injEq]
  simp only [Bool.not_eq_true, spreadFails, carriesFails, not_exists, not_and,
    not_not, Bool.not_eq_false, Bool.and_eq_true, true_and]
  constructor
  · intro meets
    obtain ⟨rules, configured⟩ := meets
    obtain ⟨price, size, bid, ask, bidSize, askSize, uncrossed, carried⟩ :=
      rules
    exact ⟨⟨configured, price, size, bid, ask, bidSize, askSize, trivial⟩,
      uncrossed, carried⟩
  · intro accepted
    rcases accepted with ⟨⟨configured, price, size, bid, ask, bidSize, askSize,
      _⟩, uncrossed, carried⟩
    exact ⟨⟨price, size, bid, ask, bidSize, askSize, uncrossed, carried⟩,
      configured⟩

theorem TypeVerdict.failures_of_accepts {verdict : TypeVerdict} {check : String}
    {cells : List Cell} (accepted : verdict.accepts cells) :
    verdict.failures check cells = [] := by
  cases verdict with
  | column passes =>
      cases passes with
      | true => rfl
      | false => cases accepted
  | cells passes =>
      have none : failingAt passes cells = [] := by
        rw [List.eq_nil_iff_forall_not_mem]
        intro index failing
        obtain ⟨cell, present, fails⟩ := mem_failingAt.mp failing
        rw [accepted cell (List.mem_of_getElem? present)] at fails
        cases fails
      rw [failures, none, List.map_nil]

theorem TypeVerdict.rowless_of_accepts {verdict : TypeVerdict}
    {cells : List Cell} (accepted : verdict.accepts cells) (check : String) :
    ∀ failure ∈ verdict.failures check cells, failure.index = none := by
  intro failure member
  rw [failures_of_accepts accepted] at member
  cases member

section Documented

variable {engine : Pandera} {column : Column}

private theorem stringColumn_typedRows (documented : engine.Documented)
    (name : String)
    (check : Option CellCheck) (dtype : column.dtype = .str)
    (texts : ∀ cell ∈ column.cells, cell.isStr = true) :
    (stringColumn name check).TypedRows engine column where
  cells := rfl
  coerced _ member := nomatch member
  typed := TypeVerdict.rowless_of_accepts
    (documented.strings column dtype texts) _

private theorem floatColumn_typedRows (documented : engine.Documented)
    (name : String)
    (check : CellCheck) (dtype : column.dtype = .float64) :
    (floatColumn name check).TypedRows engine column where
  cells := rfl
  coerced _ member := nomatch member
  typed := TypeVerdict.rowless_of_accepts (documented.floats column dtype) _

/-- Converted or not, a column of instants has no failure with a row. -/
private theorem timeColumn_typedRows (documented : engine.Documented)
    (name : String)
    (dtype : column.dtype = .datetimeMicros)
    (instants : ∀ cell ∈ column.cells, cell.isTime = true) :
    (timeColumn name).TypedRows engine column := by
  by_cases fit : ∀ cell ∈ column.cells, cell.fitsNanos = true
  · have converted := documented.converts column dtype fit
    have coerced : (timeColumn name).coerced engine column =
        { column with dtype := .datetimeNanos } := by
      simp only [ColumnSchema.coerced, timeColumn, converted]
    refine ⟨by rw [coerced], ?_, ?_⟩
    · simp [ColumnSchema.coerceFailures, timeColumn, converted]
    · rw [coerced]
      exact TypeVerdict.rowless_of_accepts (documented.nanos _ rfl) _
  · push Not at fit
    obtain ⟨cell, member, unfit⟩ := fit
    have refused := documented.refuses column dtype instants
      ⟨cell, member, by simpa using unfit⟩
    have same : (timeColumn name).coerced engine column = column := by
      simp only [ColumnSchema.coerced, timeColumn, refused]
    refine ⟨by rw [same], ?_, ?_⟩
    · simp [ColumnSchema.coerceFailures, timeColumn, refused,
        TypeVerdict.failures]
    · rw [same]
      simp [ColumnSchema.dtypeFailures, timeColumn,
        documented.unconverted column dtype, TypeVerdict.failures]

/-- Pandera finds no fault with the type of a cell of an event. -/
private theorem contractColumns_typedRows (documented : engine.Documented)
    (symbols : List String) (events : List (MarketEvent PyFloat)) :
    ∀ entry ∈ contractColumns symbols, entry.1.TypedRows engine
      (eventColumn events entry.1.name entry.2.1 entry.2.2) := by
  have texts : ∀ (read : MarketEvent PyFloat → String),
      ∀ cell ∈ events.map (fun event => Cell.str (read event)),
        cell.isStr = true := by
    intro read cell member
    obtain ⟨event, _, rfl⟩ := List.mem_map.mp member
    rfl
  have instants : ∀ (read : MarketEvent PyFloat → Instant),
      ∀ cell ∈ events.map (fun event => Cell.time (read event)),
        cell.isTime = true := by
    intro read cell member
    obtain ⟨event, _, rfl⟩ := List.mem_map.mp member
    rfl
  intro entry member
  simp only [contractColumns, List.mem_cons, List.not_mem_nil,
    or_false] at member
  rcases member with rfl | rfl | rfl | rfl | rfl | rfl | rfl | rfl | rfl |
    rfl | rfl
  iterate 3 exact stringColumn_typedRows documented _ _ rfl (texts _)
  iterate 6 exact floatColumn_typedRows documented _ _ rfl
  iterate 2 exact timeColumn_typedRows documented _ rfl (instants _)

end Documented

/-- A column reports a row exactly when it rejects the cell of its event. -/
theorem contractColumn_row_iff {engine : Pandera}
    (documented : engine.Documented) (symbols : List String)
    (events : List (MarketEvent PyFloat)) (index : Nat) :
    ∀ entry ∈ contractColumns symbols,
      ((∃ failure ∈ entry.1.failures engine (eventsToFrame events),
        failure.index = some index) ↔
          ∃ event, events[index]? = some event ∧
            entry.1.rejects (entry.2.2 event) = true) := by
  intro entry member
  rw [entry.1.row_failure_iff (contractColumns_found symbols events entry
    member) (contractColumns_typedRows documented symbols events entry member)]
  · simp only [eventColumn_cell]
    constructor
    · intro rejectedRow
      rcases rejectedRow with ⟨_, ⟨event, found, rfl⟩, rejected⟩
      exact ⟨event, found, rejected⟩
    · intro rejectedEvent
      rcases rejectedEvent with ⟨event, found, rejected⟩
      exact ⟨_, ⟨event, found, rfl⟩, rejected⟩
  · intro check checked cell cellMember present
    obtain ⟨event, _, rfl⟩ := List.mem_map.mp cellMember
    exact contractColumns_total symbols event entry member check checked
      present

theorem spread_row_iff (events : List (MarketEvent PyFloat)) (index : Nat) :
    (∃ failure ∈ spreadNonNegative.failures (eventsToFrame events),
      failure.index = some index) ↔
        ∃ event, events[index]? = some event ∧
          spreadNonNegative.passes (quoteCells event) = some false := by
  apply spreadNonNegative.row_failure_iff (eventsToFrame events) rfl
    quoteCells rfl
  · intro row event found
    simp [RowCheck.cellsAt, spreadNonNegative, eventsToFrame,
      DataFrame.column?, eventColumns, eventColumn, quoteCells, found,
      List.mapM_cons]
  · intro event _
    obtain ⟨outcome, passes, _⟩ := spread_passes event
    rw [passes]
    rfl

private theorem trade_row_iff (events : List (MarketEvent PyFloat))
    (index : Nat) :
    (∃ failure ∈ tradeHasPriceAndSize.failures (eventsToFrame events),
      failure.index = some index) ↔
        ∃ event, events[index]? = some event ∧
          tradeHasPriceAndSize.passes (tradeCells event) = some false := by
  apply tradeHasPriceAndSize.row_failure_iff (eventsToFrame events) rfl
    tradeCells rfl
  · intro row event found
    simp [RowCheck.cellsAt, tradeHasPriceAndSize, eventsToFrame,
      DataFrame.column?, eventColumns, eventColumn, tradeCells, found,
      List.mapM_cons]
  · intro event _
    obtain ⟨outcome, passes, _⟩ := trade_passes event
    rw [passes]
    rfl

/-- A row of a frame of events has a failure exactly when its event breaks a
rule. -/
theorem validate_row_iff {engine : Pandera} (documented : engine.Documented)
    (events : List (MarketEvent PyFloat))
    (symbols : List String) (index : Nat) :
    (∃ failure ∈ (buildContract symbols).validate engine
      (eventsToFrame events), failure.index = some index) ↔
        ∃ event, events[index]? = some event ∧
          ¬ MeetsContract symbols event := by
  have columns := contractColumn_row_iff documented symbols events index
  simp only [ContractSchema.validate]
  have checks : (buildContract symbols).checks =
      [spreadNonNegative, tradeHasPriceAndSize] := rfl
  rw [buildContract_columns, checks]
  simp only [List.flatMap_cons, List.flatMap_nil, List.append_nil,
    List.mem_append, List.mem_flatMap, List.mem_map, or_and_right, exists_or,
    exists_exists_and_eq_and, spread_row_iff, trade_row_iff,
    meetsContract_iff, not_and_or, not_forall, ne_eq, not_not,
    Bool.not_eq_false, and_or_left, exists_or, exists_prop]
  refine or_congr ?_ Iff.rfl
  constructor
  · intro reported
    rcases reported with ⟨failure, ⟨entry, member, failed⟩, atIndex⟩
    obtain ⟨event, found, rejected⟩ :=
      (columns entry member).mp ⟨failure, failed, atIndex⟩
    exact ⟨event, found, entry, member, rejected⟩
  · intro violated
    rcases violated with ⟨event, found, entry, member, rejected⟩
    obtain ⟨failure, failed, atIndex⟩ :=
      (columns entry member).mpr ⟨event, found, rejected⟩
    exact ⟨failure, ⟨entry, member, failed⟩, atIndex⟩

/-- A frame of events loses no row to quarantine exactly when every event
meets the contract. -/
theorem applyContract_clean_iff {engine : Pandera}
    (documented : engine.Documented) (events : List (MarketEvent PyFloat))
    (symbols : List String) :
    (applyContract engine (eventsToFrame events) symbols).quarantined = [] ↔
      ∀ event ∈ events, MeetsContract symbols event := by
  have rows := validate_row_iff documented events symbols
  simp only [applyContract, List.map_eq_nil_iff, List.filter_eq_nil_iff,
    List.mem_range, List.any_filter, Bool.not_eq_true]
  constructor
  · intro clean event member
    obtain ⟨index, inside, found⟩ := List.getElem_of_mem member
    by_contra breaks
    obtain ⟨failure, failed, atIndex⟩ := (rows index).mpr
      ⟨event, List.getElem?_eq_some_iff.mpr ⟨inside, found⟩, breaks⟩
    have none := List.any_eq_false.mp (clean index inside) failure failed
    simp [atIndex] at none
  · intro meets index _
    rw [List.any_eq_false]
    intro failure failed reported
    simp only [Bool.and_eq_true, decide_eq_true_eq] at reported
    obtain ⟨event, found, breaks⟩ :=
      (rows index).mp ⟨failure, failed, reported.2⟩
    exact breaks (meets event (List.mem_of_getElem? found))

end TickStream
