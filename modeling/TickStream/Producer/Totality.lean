import TickStream.Producer.Records

/-!
# When normalization returns

The record handlers catch four exception classes.  What they do not catch, and
what the code outside them raises, ends the call.  The conditions below follow
the order in which the normalizers read a payload: a bad value does no harm
behind a value that already got the record rejected.
-/

namespace TickStream

open Python Library

section Operations

@[simp] theorem contained_raise_iff {α : Type} {cls : ExcClass}
    {text : String} :
    Contained caught (raise cls text : Result α) ↔
      normalizeErrors.contains cls = true := by
  simp only [raise]
  rw [contained_error_iff]
  rfl

@[simp] theorem contained_item (value : Json) (name : String) :
    Contained caught (value.item name) := by
  simp only [Json.item]
  split
  · split
    · simp
    · simp [normalizeErrors]
  · simp [normalizeErrors]
  · simp [normalizeErrors]
  · simp [normalizeErrors]

private theorem item_eq_ok {value : Json} {name : String} {found : Json}
    (got : value.item name = .ok found) : ∃ members, value = .obj members := by
  cases value with
  | obj members => exact ⟨members, rfl⟩
  | _ => cases got

@[simp] theorem get_obj (members : List (String × Json)) (name : String)
    (fallback : Json) :
    (Json.obj members).get name fallback =
      .ok ((Json.member? members name).getD fallback) := rfl

@[simp] theorem contained_strInt (value : Int) :
    Contained caught (strInt value) := by
  simp only [strInt]
  split
  · simp [normalizeErrors]
  · simp

@[simp] theorem contained_lookupIn {α : Type} (table : List (String × α))
    (value : Json) : Contained caught (value.lookupIn table) := by
  cases value <;> simp [Json.lookupIn, normalizeErrors]

@[simp] theorem contained_resolveSymbol (raw : Json)
    (symbolMap : Option SymbolMap) :
    Contained caught (resolveSymbol raw symbolMap) := by
  cases symbolMap with
  | none => exact contained_ok _
  | some symbolMap =>
      exact contained_map_iff.mpr (contained_lookupIn _ raw)

@[simp] theorem contained_construct (symbol : Json)
    (fields : String → MarketEvent PyFloat) :
    Contained caught (MarketEvent.construct symbol fields) := by
  simp only [MarketEvent.construct, MarketEvent.validate]
  split
  · split
    · exact contained_ok _
    · simp [normalizeErrors]
  · simp [normalizeErrors]

theorem contained_buildLocalTime (date : DateFields) (clock : ClockFields)
    (offset : Option Int) :
    Contained caught (buildLocalTime date clock offset) := by
  have day : Contained caught (dayOfDate date) := by
    cases date with
    | calendar year month day =>
        simp only [dayOfDate]
        split_ifs <;> simp [normalizeErrors]
    | day number =>
        simp only [dayOfDate]
        split_ifs <;> simp [normalizeErrors]
  have micros : Contained caught (microsOfClock clock) := by
    simp only [microsOfClock]
    split_ifs <;> simp [normalizeErrors]
  simp only [buildLocalTime, contained_bind_iff]
  exact ⟨day, fun _ _ => ⟨micros, fun _ _ => contained_ok _⟩⟩

@[simp] theorem contained_fromIsoFormat (text : String) :
    Contained caught (fromIsoFormat text) := by
  have invalid : Contained caught (invalidIso text) := by
    simp [invalidIso, normalizeErrors]
  unfold fromIsoFormat
  dsimp only
  split
  · exact invalid
  split
  · exact invalid
  split_ifs
  · exact contained_buildLocalTime _ _ _
  split
  · exact invalid
  split
  · exact contained_buildLocalTime _ _ _
  split_ifs
  · exact contained_buildLocalTime _ _ _
  · simp [normalizeErrors]

end Operations

/-- An integer that rounds to a finite double. -/
def FitsDouble (number : Int) : Prop :=
  ∃ value, roundToDouble number = .fin value

/-- A value `float` converts or refuses with a caught exception. -/
def FloatSafe (value : Json) : Prop :=
  ∀ number, value = .int number → FitsDouble number

mutual

/-- A value whose `repr` runs out of room nowhere, or not before an integer of
too many digits. -/
def ReprSafe (room : Room) : Json → Prop
  | .arr items => ItemsSafe room items
  | .obj members => MembersSafe room members
  | _ => True

def ItemsSafe (room : Room) : List Json → Prop
  | [] => True
  | item :: rest =>
      ∃ inside, room.enter "repr" = .ok inside ∧ ReprSafe inside item ∧
        (Returns (item.repr inside) → ItemsSafe room rest)

def MembersSafe (room : Room) : List (String × Json) → Prop
  | [] => True
  | (_, value) :: rest =>
      ∃ inside, room.enter "repr" = .ok inside ∧ ReprSafe inside value ∧
        (Returns (value.repr inside) → MembersSafe room rest)

end

/-- A value the interpreter has room to turn into text. -/
def TextSafe (room : Room) (value : Json) : Prop :=
  (∃ text, value = .str text) ∨
    ∃ inside, room.enter "str" = .ok inside ∧ ReprSafe inside value

/-- Text whose time, if it is one, stays within the calendar in UTC. -/
def TimeSafe (value : Json) : Prop :=
  ∃ text, value = .str text ∧ ∀ micros offset,
    fromIsoFormat (isoText text) = .ok ⟨micros, some offset⟩ →
      inDatetimeRange (micros - offset) = true

/-- A timestamp the C library can break down, or not a number at all. -/
def ClockSafe : PyFloat → Prop
  | .nan => True
  | .inf _ => False
  | .fin value =>
      gmtimeMin ≤ (splitTimestamp value).1 ∧
        (splitTimestamp value).1 ≤ gmtimeMax

/-- Milliseconds that are no infinity and reach neither the end of the doubles
nor that of the clock. -/
def MillisSafe (value : Json) : Prop :=
  (∀ negative, value ≠ .float (.inf negative)) ∧
    ∀ millis, value.toInt = .ok millis → ∃ seconds,
      roundToDouble millis = .fin seconds ∧
        ClockSafe (millisToSeconds (.fin seconds))

section Values

theorem roundToDouble_ne_nan (value : Rat) : roundToDouble value ≠ .nan := by
  unfold roundToDouble
  dsimp only
  split_ifs <;> simp

private theorem floatOfInt_eq_ok_iff {number : Int} {double : PyFloat} :
    floatOfInt number = .ok double ↔
      ∃ value, roundToDouble number = .fin value ∧ double = .fin value := by
  simp only [floatOfInt]
  cases rounded : roundToDouble (number : Rat) with
  | nan => exact absurd rounded (roundToDouble_ne_nan _)
  | inf negative => simp [raise]
  | fin value => simp [eq_comm]

theorem contained_floatOfInt_iff {number : Int} :
    Contained caught (floatOfInt number) ↔ FitsDouble number := by
  simp only [floatOfInt, FitsDouble]
  cases rounded : roundToDouble (number : Rat) with
  | nan => exact absurd rounded (roundToDouble_ne_nan _)
  | inf negative => simp [normalizeErrors]
  | fin value => simp

theorem contained_toFloat_iff {value : Json} :
    Contained caught value.toFloat ↔ FloatSafe value := by
  simp only [FloatSafe]
  cases value with
  | int number => simpa [Json.toFloat] using contained_floatOfInt_iff
  | str text =>
      cases read : readFloat text with
      | none => simp [Json.toFloat, read, normalizeErrors]
      | some value => simp [Json.toFloat, read]
  | _ => simp [Json.toFloat, normalizeErrors]

/-- Entering a call raises nothing a handler catches. -/
theorem contained_enter_iff {α : Type} {room : Room} {what : String}
    {body : Room → Result α} :
    Contained caught (room.enter what >>= body) ↔
      ∃ inside, room.enter what = .ok inside ∧ Contained caught (body inside) := by
  cases room with
  | none => simp [Room.enter, contained_bind_iff]
  | some left =>
      cases left with
      | zero => simp [Room.enter, contained_bind_iff, raise, caught,
          normalizeErrors]
      | succ left => simp [Room.enter, contained_bind_iff]

mutual

theorem contained_repr_iff : ∀ (value : Json) {room : Room},
    Contained caught (value.repr room) ↔ ReprSafe room value
  | .null, _ => by simp [Json.repr, ReprSafe]
  | .bool true, _ => by simp [Json.repr, ReprSafe]
  | .bool false, _ => by simp [Json.repr, ReprSafe]
  | .int value, _ => by
      simp only [Json.repr, ReprSafe, contained_strInt]
  | .float _, _ => by simp [Json.repr, ReprSafe]
  | .str _, _ => by simp [Json.repr, ReprSafe]
  | .arr items, _ => by
      simp only [Json.repr, ReprSafe]
      rw [contained_bind_iff, contained_reprItems_iff items]
      exact and_iff_left (fun _ _ => contained_ok _)
  | .obj members, _ => by
      simp only [Json.repr, ReprSafe]
      rw [contained_bind_iff, contained_reprMembers_iff members]
      exact and_iff_left (fun _ _ => contained_ok _)

theorem contained_reprItems_iff : ∀ (items : List Json) {room : Room},
    Contained caught (reprItems room items) ↔ ItemsSafe room items
  | [], _ => by simp [reprItems, ItemsSafe]
  | item :: rest, room => by
      simp only [reprItems, ItemsSafe]
      rw [contained_enter_iff]
      apply exists_congr
      intro inside
      apply and_congr_right
      intro _
      rw [contained_bind_iff, contained_repr_iff item]
      simp only [contained_bind_iff, contained_reprItems_iff rest, Returns,
        pure, Except.pure, contained_ok, implies_true, and_true, exists_imp]

theorem contained_reprMembers_iff :
    ∀ (members : List (String × Json)) {room : Room},
      Contained caught (reprMembers room members) ↔ MembersSafe room members
  | [], _ => by simp [reprMembers, MembersSafe]
  | (_, value) :: rest, room => by
      simp only [reprMembers, MembersSafe]
      rw [contained_enter_iff]
      apply exists_congr
      intro inside
      apply and_congr_right
      intro _
      rw [contained_bind_iff, contained_repr_iff value]
      simp only [contained_bind_iff, contained_reprMembers_iff rest, Returns,
        pure, Except.pure, contained_ok, implies_true, and_true, exists_imp]

end

theorem contained_toStr_iff {room : Room} {value : Json} :
    Contained caught (value.toStr room) ↔ TextSafe room value := by
  cases value with
  | str text => simp [Json.toStr, TextSafe]
  | _ =>
      simp only [Json.toStr, TextSafe, contained_enter_iff, contained_repr_iff,
        reduceCtorEq, exists_false, false_or]

mutual

theorem reprSafe_of_nesting : ∀ (value : Json) {left : Nat},
    value.nesting ≤ left → ReprSafe (some left) value
  | .null, _, _ => trivial
  | .bool _, _, _ => trivial
  | .int _, _, _ => trivial
  | .float _, _, _ => trivial
  | .str _, _, _ => trivial
  | .arr items, _, fits => itemsSafe_of_nesting items fits
  | .obj members, _, fits => membersSafe_of_nesting members fits

theorem itemsSafe_of_nesting : ∀ (items : List Json) {left : Nat},
    itemsNesting items + 1 ≤ left → ItemsSafe (some left) items
  | [], _, _ => trivial
  | item :: rest, left + 1, fits => by
      simp only [itemsNesting] at fits
      exact ⟨some left, rfl, reprSafe_of_nesting item (by omega),
        fun _ => itemsSafe_of_nesting rest (by omega)⟩

theorem membersSafe_of_nesting :
    ∀ (members : List (String × Json)) {left : Nat},
      membersNesting members + 1 ≤ left → MembersSafe (some left) members
  | [], _, _ => trivial
  | (_, value) :: rest, left + 1, fits => by
      simp only [membersNesting] at fits
      exact ⟨some left, rfl, reprSafe_of_nesting value (by omega),
        fun _ => membersSafe_of_nesting rest (by omega)⟩

end

/-- One call for the value itself and one for every level below it are
enough. -/
theorem textSafe_of_nesting {value : Json} {left : Nat}
    (fits : value.nesting < left) : TextSafe (some left) value := by
  cases left with
  | zero => cases fits
  | succ left =>
      exact Or.inr ⟨some left, rfl, reprSafe_of_nesting value (by omega)⟩

private theorem contained_toUtc_iff {time : LocalTime} :
    Contained caught time.toUtc ↔
      ∀ offset, time.offset = some offset →
        inDatetimeRange (time.micros - offset) = true := by
  simp only [LocalTime.toUtc]
  cases time.offset with
  | none => simp
  | some offset =>
      by_cases inside : inDatetimeRange (time.micros - offset) = true
      · simp [inside]
      · simp [inside, normalizeErrors]

private theorem contained_parseTs_iff {value : Json} :
    Contained caught (parseTs value) ↔ TimeSafe value := by
  simp only [TimeSafe]
  cases value with
  | str text =>
      simp only [parseTs, contained_bind_iff, contained_fromIsoFormat, true_and,
        contained_toUtc_iff, Json.str.injEq, exists_eq_left']
      constructor
      · intro safe micros offset read
        exact safe _ read offset rfl
      · intro safe time read offset given
        rcases time with ⟨micros, offset'⟩
        cases given
        exact safe micros offset read
  | _ => simp [parseTs, normalizeErrors]

private theorem contained_fromTimestamp_iff {double : PyFloat} :
    Contained caught (fromTimestamp double) ↔ ClockSafe double := by
  cases double with
  | nan => simp [fromTimestamp, ClockSafe, normalizeErrors]
  | inf negative => simp [fromTimestamp, ClockSafe, normalizeErrors]
  | fin value =>
      unfold fromTimestamp ClockSafe gmtimeMin gmtimeMax
      dsimp only
      split_ifs with overflow outside unrepresentable
      · simp only [contained_raise_iff]
        simp only [Bool.or_eq_true, decide_eq_true_eq] at overflow
        constructor
        · intro impossible
          exact absurd impossible (by decide)
        · intro inside
          omega
      · simp only [contained_raise_iff]
        simp only [Bool.or_eq_true, decide_eq_true_eq] at outside
        constructor
        · intro impossible
          exact absurd impossible (by decide)
        · intro inside
          omega
      · simp only [Bool.or_eq_true, decide_eq_true_eq, not_or] at outside
        simp only [contained_raise_iff]
        constructor
        · intro _
          omega
        · intro _
          decide
      · simp only [Bool.or_eq_true, decide_eq_true_eq, not_or] at outside
        simp only [contained_ok, true_iff]
        omega

private theorem contained_toInt_iff {value : Json} :
    Contained caught value.toInt ↔
      ∀ negative, value ≠ .float (.inf negative) := by
  cases value with
  | float double => cases double <;> simp [Json.toInt, normalizeErrors]
  | str text =>
      have contained : Contained caught (readInt text) := by
        unfold readInt
        dsimp only
        split
        · split_ifs <;> simp [normalizeErrors]
        · simp [normalizeErrors]
      simpa [Json.toInt] using contained
  | _ => simp [Json.toInt, normalizeErrors]

private theorem contained_tsFromMillis_iff {value : Json} :
    Contained caught (tsFromMillis value) ↔ MillisSafe value := by
  simp only [tsFromMillis, MillisSafe, contained_bind_iff, contained_toInt_iff,
    contained_floatOfInt_iff, contained_fromTimestamp_iff, floatOfInt_eq_ok_iff]
  apply and_congr_right
  intro _
  apply forall_congr'
  intro millis
  apply imp_congr_right
  intro _
  constructor
  · intro returned
    rcases returned with ⟨⟨seconds, rounded⟩, safe⟩
    exact ⟨seconds, rounded, safe _ ⟨seconds, rounded, rfl⟩⟩
  · intro safe
    rcases safe with ⟨seconds, rounded, safe⟩
    refine ⟨⟨seconds, rounded⟩, ?_⟩
    intro _ again
    rcases again with ⟨value', rounded', rfl⟩
    rw [rounded] at rounded'
    cases rounded'
    exact safe

end Values

/-- A field of a record satisfies a condition, if the record has it. -/
def FieldSafe (safe : Json → Prop) (record : Json) (name : String) : Prop :=
  ∀ value, record.item name = .ok value → safe value

/-- Optional numbers read one after the other. -/
def NumbersSafe (members : List (String × Json)) : List String → Prop
  | [] => True
  | name :: rest =>
      FloatSafe ((Json.member? members name).getD .null) ∧
        (Returns (optFloatField (.obj members) name) →
          NumbersSafe members rest)

/-- The product of a record resolves to a symbol. -/
def Configured (symbolMap : Option SymbolMap) (record : Json) : Prop :=
  ∃ symbol, productSymbol symbolMap record = .ok symbol ∧
    symbol.isNull = false

/-- An identifier is turned into text if it is present. -/
def IdSafe (room : Room) (present : Json → Bool) (record : Json)
    (name : String) : Prop :=
  FieldSafe (fun value => present value = true → TextSafe room value) record
    name

/-- A side the record lacks is the empty text. -/
def SideSafe (room : Room) (trade : Json) : Prop :=
  ∀ value, trade.get "side" (.str "") = .ok value → TextSafe room value

def CoinbaseTradeSafe (room : Room) (symbolMap : Option SymbolMap)
    (trade : Json) : Prop :=
  Configured symbolMap trade →
    FieldSafe FloatSafe trade "price" ∧
      (Returns (floatField trade "price") →
        FieldSafe FloatSafe trade "size" ∧
          (Returns (floatField trade "size") → SideSafe room trade ∧
            (Returns (sideField room trade) →
              IdSafe room Json.truthy trade "trade_id" ∧
                (Returns (idField room Json.truthy trade "trade_id") →
                  FieldSafe TimeSafe trade "time"))))

def CoinbaseTickSafe (symbolMap : Option SymbolMap) (tick : Json) : Prop :=
  Configured symbolMap tick → ∀ members, tick = .obj members →
    NumbersSafe members
      ["price", "best_bid", "best_ask", "best_bid_quantity",
        "best_ask_quantity"]

def BinanceTradeSafe (room : Room) (data : Json) : Prop :=
  FieldSafe FloatSafe data "p" ∧ (Returns (floatField data "p") →
    FieldSafe FloatSafe data "q" ∧ (Returns (floatField data "q") →
      IdSafe room (fun value => !value.isNull) data "t" ∧
        (Returns (idField room (fun value => !value.isNull) data "t") →
          FieldSafe MillisSafe data "T")))

/-- A message of a configured symbol, once its `data` is a dictionary. -/
def MessageSafe (room : Room) (members : List (String × Json)) : Prop :=
  if isBinanceTrade ((Json.member? members "e").getD .null) (.obj members) then
    BinanceTradeSafe room (.obj members)
  else if (Json.obj members).hasKeys ["b", "a"] then
    NumbersSafe members ["b", "a", "B", "A"]
  else True

section Bodies

variable {room : Room} {symbolMap : Option SymbolMap}
  {tsIngest tsEvent : Instant} {record : Json} {name : String}
  {members : List (String × Json)}

theorem contained_floatField_iff :
    Contained caught (floatField record name) ↔
      FieldSafe FloatSafe record name := by
  simp only [floatField, FieldSafe, contained_bind_iff, contained_item,
    true_and, contained_toFloat_iff]

theorem contained_timeField_iff :
    Contained caught (timeField record name) ↔
      FieldSafe TimeSafe record name := by
  simp only [timeField, FieldSafe, contained_bind_iff, contained_item, true_and,
    contained_parseTs_iff]

private theorem contained_millisField_iff :
    Contained caught (millisField record name) ↔
      FieldSafe MillisSafe record name := by
  simp only [millisField, FieldSafe, contained_bind_iff, contained_item,
    true_and, contained_tsFromMillis_iff]

private theorem contained_optFloat_iff {value : Json} :
    Contained caught (optFloat value) ↔ FloatSafe value := by
  simp only [optFloat]
  by_cases absent : (value.isNull || value.isStr "") = true
  · rw [if_pos absent]
    simp only [contained_ok, true_iff]
    intro number same
    rw [same] at absent
    cases absent
  · rw [if_neg absent, contained_map_iff, contained_toFloat_iff]

theorem contained_optFloatField_iff :
    Contained caught (optFloatField (.obj members) name) ↔
      FloatSafe ((Json.member? members name).getD .null) := by
  simp only [optFloatField, contained_bind_iff, get_obj, contained_ok, true_and,
    Except.ok.injEq, forall_eq', contained_optFloat_iff]

theorem contained_idField_iff {present : Json → Bool} :
    Contained caught (idField room present (.obj members) name) ↔
      IdSafe room present (.obj members) name := by
  simp only [idField, IdSafe, FieldSafe, contained_bind_iff, get_obj,
    contained_ok, true_and, Except.ok.injEq, forall_eq', Json.item]
  cases Json.member? members name with
  | none =>
      simp only [Option.getD_none]
      split_ifs
      · simp [contained_bind_iff, raise, caught, normalizeErrors]
      · simp [raise]
  | some value =>
      simp only [Option.getD_some, Except.ok.injEq, forall_eq']
      split_ifs with here
      · simp only [here, contained_bind_iff, contained_ok, true_and,
          Except.ok.injEq, forall_eq', contained_map_iff, contained_toStr_iff,
          forall_const]
      · simp [here]

private theorem contained_sideField_iff :
    Contained caught (sideField room (.obj members)) ↔
      SideSafe room (.obj members) := by
  simp only [sideField, SideSafe, readSide, contained_bind_iff, get_obj,
    contained_ok, true_and, contained_toStr_iff, pure, Except.pure,
    implies_true, and_true]

theorem contained_productSymbol :
    Contained caught (productSymbol symbolMap record) := by
  simp only [productSymbol, contained_bind_iff, contained_item, true_and,
    contained_resolveSymbol, implies_true]

theorem productSymbol_eq_ok {symbol : Json}
    (resolved : productSymbol symbolMap record = .ok symbol) :
    ∃ members, record = .obj members := by
  obtain ⟨product, got, _⟩ := bind_eq_ok_iff.mp resolved
  exact item_eq_ok got

theorem contained_unless_null {α : Type} {symbol : Json} {value : α}
    {body : Result α} :
    Contained caught (if symbol.isNull then .ok value else body) ↔
      (symbol.isNull = false → Contained caught body) := by
  cases symbol.isNull <;> simp

private theorem contained_coinbaseTrade_iff :
    Contained caught (coinbaseTrade room tsIngest symbolMap record) ↔
      CoinbaseTradeSafe room symbolMap record := by
  simp only [coinbaseTrade, CoinbaseTradeSafe, Configured]
  rw [contained_bind_iff]
  simp only [contained_productSymbol, true_and, exists_imp, and_imp,
    contained_unless_null]
  apply forall_congr'
  intro symbol
  apply imp_congr_right
  intro resolved
  apply imp_congr_right
  intro _
  obtain ⟨members, rfl⟩ := productSymbol_eq_ok resolved
  simp only [contained_bind_iff, contained_floatField_iff,
    contained_sideField_iff, contained_idField_iff, contained_timeField_iff,
    contained_map_iff, contained_construct, implies_true, and_true,
    Returns, exists_imp]

private theorem contained_coinbaseTick_iff :
    Contained caught (coinbaseTick tsIngest symbolMap tsEvent record) ↔
      CoinbaseTickSafe symbolMap record := by
  simp only [coinbaseTick, CoinbaseTickSafe, Configured]
  rw [contained_bind_iff]
  simp only [contained_productSymbol, true_and, exists_imp, and_imp,
    contained_unless_null]
  apply forall_congr'
  intro symbol
  apply imp_congr_right
  intro resolved
  apply imp_congr_right
  intro _
  obtain ⟨members, rfl⟩ := productSymbol_eq_ok resolved
  simp only [contained_bind_iff, contained_optFloatField_iff,
    contained_map_iff, contained_construct, implies_true, and_true,
    Json.obj.injEq, forall_eq', NumbersSafe, Returns, exists_imp]

private theorem contained_binanceTrade_iff {symbol : String} :
    Contained caught (binanceTrade room tsIngest symbol (.obj members)) ↔
      BinanceTradeSafe room (.obj members) := by
  simp only [binanceTrade, BinanceTradeSafe, contained_bind_iff, get_obj,
    contained_ok, true_and, Except.ok.injEq, forall_eq',
    contained_floatField_iff, contained_idField_iff, contained_millisField_iff,
    contained_map_iff, contained_construct, implies_true, and_true, Returns,
    exists_imp]

private theorem contained_binanceTick_iff {symbol : String} :
    Contained caught (binanceTick tsIngest symbol (.obj members)) ↔
      NumbersSafe members ["b", "a", "B", "A"] := by
  simp only [binanceTick, contained_bind_iff, contained_optFloatField_iff,
    contained_map_iff, contained_construct, implies_true, and_true, NumbersSafe,
    Returns, exists_imp]

theorem contained_binanceRecord_iff {symbol : String} :
    Contained caught (binanceRecord room tsIngest symbol (.obj members)) ↔
      MessageSafe room members := by
  simp only [binanceRecord, MessageSafe, contained_bind_iff, get_obj,
    contained_ok, true_and, Except.ok.injEq, forall_eq']
  split_ifs
  · exact contained_binanceTrade_iff
  · exact contained_binanceTick_iff
  · simp

end Bodies

/-- A dictionary key: lists and dictionaries have no hash. -/
def Hashable (value : Json) : Prop :=
  (∀ items, value ≠ .arr items) ∧ ∀ members, value ≠ .obj members

structure CoinbaseSafe (room : Room) (symbolMap : Option SymbolMap)
    (payload : Json) : Prop where
  trades : OnChannel payload "market_trades" →
    Iterates payload "events" ∧
      ∀ envelope, Listed payload "events" envelope →
        (∃ members, envelope = .obj members) ∧
          (IsUpdate envelope → Iterates envelope "trades" ∧
            ∀ trade, Listed envelope "trades" trade →
              CoinbaseTradeSafe room symbolMap trade)
  timestamp : OnChannel payload "ticker" →
    FieldSafe TimeSafe payload "timestamp"
  tickers : OnChannel payload "ticker" → Returns (envelopeTime payload) →
    Iterates payload "events" ∧
      ∀ envelope, Listed payload "events" envelope →
        Iterates envelope "tickers" ∧
          ∀ tick, Listed envelope "tickers" tick →
            CoinbaseTickSafe symbolMap tick

def BinanceSafe (room : Room) (symbolMap : SymbolMap) (payload : Json) :
    Prop :=
  ∃ members, payload.get "data" payload = .ok (.obj members) ∧
    Hashable ((Json.member? members "s").getD .null) ∧
      ∀ symbol, binanceSymbol symbolMap (.obj members) = .ok (some symbol) →
        MessageSafe room members

/-- A payload of a known exchange with no value that raises an exception the
normalizer leaves uncaught. -/
def PayloadSafe (exchange : String) (symbolMap : Option SymbolMap)
    (payload : Json) (room : Room := none) : Prop :=
  (exchange = "coinbase" ∧ CoinbaseSafe room symbolMap payload) ∨
    (exchange = "binance_us" ∧
      BinanceSafe room (symbolMap.getD .empty) payload)

section Payloads

variable {room : Room} {exchange : String} {symbolMap : Option SymbolMap}
  {tsIngest : Instant} {payload : Json} {members : List (String × Json)}

private theorem returns_normalizeCoinbase_iff :
    Returns (normalizeCoinbase room tsIngest symbolMap (.obj members)) ↔
      CoinbaseSafe room symbolMap (.obj members) := by
  by_cases trades : OnChannel (.obj members) "market_trades"
  · have notTicker : ¬ OnChannel (.obj members) "ticker" :=
      fun ticker => absurd (trades.unique ticker) (by decide)
    rw [normalizeCoinbase_eq_trades trades, returns_eachListed_iff]
    simp only [returns_coinbaseTrades_iff, contained_coinbaseTrade_iff]
    constructor
    · intro safe
      exact ⟨fun _ => safe, fun ticker => absurd ticker notTicker,
        fun ticker => absurd ticker notTicker⟩
    · intro safe
      exact safe.trades trades
  by_cases ticker : OnChannel (.obj members) "ticker"
  · rw [normalizeCoinbase_eq_ticker ticker, returns_coinbaseTickers_iff]
    simp only [contained_coinbaseTick_iff, envelopeTime]
    rw [contained_timeField_iff]
    constructor
    · intro safe
      rcases safe with ⟨timestamp, tickers⟩
      refine ⟨fun other => absurd other trades, fun _ => timestamp, ?_⟩
      intro _ timed
      rcases timed with ⟨tsEvent, time⟩
      exact tickers tsEvent time
    · intro safe
      exact ⟨safe.timestamp ticker,
        fun tsEvent time => safe.tickers ticker ⟨tsEvent, time⟩⟩
  · rw [normalizeCoinbase_eq_empty trades ticker rfl]
    simp only [returns_ok, true_iff]
    exact ⟨fun other => absurd other trades, fun other => absurd other ticker,
      fun other => absurd other ticker⟩

theorem returns_binanceSymbol_iff {map : SymbolMap} {data : Json} :
    Returns (binanceSymbol map data) ↔
      ∃ members, data = .obj members ∧
        Hashable ((Json.member? members "s").getD .null) := by
  simp only [binanceSymbol, Hashable]
  cases data with
  | obj members =>
      simp only [returns_bind_iff, get_obj, Except.ok.injEq, exists_eq_left',
        Json.obj.injEq]
      cases (Json.member? members "s").getD .null <;>
        simp [Json.isNull, Json.lookupIn, raise]
  | _ => simp [Json.get, raise, bind, Except.bind]

private theorem returns_normalizeBinanceUs_iff {map : SymbolMap} :
    Returns (normalizeBinanceUs room tsIngest map (.obj members)) ↔
      BinanceSafe room map (.obj members) := by
  obtain ⟨data, got⟩ := (get_returns_iff (.obj members) "data"
    (.obj members)).mpr ⟨members, rfl⟩
  rw [normalizeBinanceUs_eq got]
  simp only [BinanceSafe]
  rw [got]
  constructor
  · intro returned
    obtain ⟨symbol, resolved, ran⟩ := returns_bind_iff.mp returned
    obtain ⟨dataMembers, rfl, hashable⟩ :=
      returns_binanceSymbol_iff.mp ⟨symbol, resolved⟩
    refine ⟨dataMembers, rfl, hashable, ?_⟩
    intro name named
    rw [resolved] at named
    cases named
    exact contained_binanceRecord_iff.mp (returns_tryRecord_iff.mp ran)
  · intro safe
    rcases safe with ⟨dataMembers, same, hashable, safe⟩
    cases same
    obtain ⟨symbol, resolved⟩ :=
      returns_binanceSymbol_iff.mpr ⟨dataMembers, rfl, hashable⟩
    apply returns_bind_iff.mpr
    refine ⟨symbol, resolved, ?_⟩
    cases symbol with
    | none => exact returns_ok _
    | some name =>
        exact returns_tryRecord_iff.mpr
          (contained_binanceRecord_iff.mpr (safe name resolved))

theorem returns_normalizeSafe_iff (tsIngest : Instant) :
    Returns (normalizeSafe exchange (.obj members) tsIngest symbolMap room) ↔
      PayloadSafe exchange symbolMap (.obj members) room := by
  simp only [normalizeSafe, PayloadSafe]
  by_cases coinbase : exchange = "coinbase"
  · subst coinbase
    rw [if_pos rfl, returns_normalizeCoinbase_iff]
    simp
  rw [if_neg coinbase]
  by_cases binance : exchange = "binance_us"
  · subst binance
    rw [if_pos rfl, returns_normalizeBinanceUs_iff]
    simp
  · rw [if_neg binance]
    simp [raise, coinbase, binance]

end Payloads

/-- Normalization returns, with every record it could not normalize among the
rejects, exactly on the payloads without an uncaught value. -/
theorem normalizeSafe_total_iff (exchange : String)
    (members : List (String × Json)) (tsIngest : Instant)
    (symbolMap : Option SymbolMap) (room : Room) :
    (∃ log, normalizeSafe exchange (.obj members) tsIngest symbolMap room =
        .ok log ∧
      ∀ record failure, Visits room exchange symbolMap tsIngest (.obj members)
        record (.error failure) → (failure.text, record) ∈ log.refused) ↔
      PayloadSafe exchange symbolMap (.obj members) room := by
  rw [← returns_normalizeSafe_iff tsIngest]
  constructor
  · intro returned
    rcases returned with ⟨log, ran, _⟩
    exact ⟨log, ran⟩
  · intro returned
    rcases returned with ⟨log, ran⟩
    refine ⟨log, ran, ?_⟩
    intro record failure visit
    exact ((normalizeSafe_log ran).refused (failure.text, record)).mpr
      ⟨record, failure, visit, rfl⟩

/-- A null list of events raises outside every handler. -/
theorem normalizeSafe_null_events :
    ¬ ∃ log, normalizeSafe "coinbase"
      (.obj [("channel", .str "market_trades"), ("events", .null)])
      0 none = .ok log := by
  intro returned
  rcases returned with ⟨log, ran⟩
  cases ran

end TickStream
