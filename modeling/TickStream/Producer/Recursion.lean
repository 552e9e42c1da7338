import TickStream.Producer.Normalize

/-!
# Normalization within the recursion limit

`str` of a nested value needs one recursive call for every level.  An
interpreter that runs out of calls raises what no handler catches; up to that,
the room it has makes no difference.
-/

namespace TickStream

open Python Library

section Texts

variable {room : Room}

private theorem enter_unlimited {α : Type} {what : String}
    (body : Room → Result α) :
    Room.enter none what >>= body = body none := rfl

theorem follows_enter {α : Type} {what : String} {body : Room → Result α}
    {other : Result α}
    (follows : ∀ inside, Follows caught (body inside) other) :
    Follows caught (room.enter what >>= body) other := by
  cases room with
  | none => exact follows none
  | some left =>
      cases left with
      | zero => exact Or.inr ⟨_, rfl, rfl⟩
      | succ left => exact follows (some left)

mutual

theorem follows_repr : ∀ (value : Json) (room : Room),
    Follows caught (value.repr room) (value.repr none)
  | .null, _ => .rfl
  | .bool true, _ => .rfl
  | .bool false, _ => .rfl
  | .int _, _ => by
      simp only [Json.repr]
      exact .rfl
  | .float _, _ => .rfl
  | .str _, _ => .rfl
  | .arr items, room => by
      simp only [Json.repr]
      exact (follows_reprItems items room).bind (fun _ => .rfl)
  | .obj members, room => by
      simp only [Json.repr]
      exact (follows_reprMembers members room).bind (fun _ => .rfl)

theorem follows_reprItems : ∀ (items : List Json) (room : Room),
    Follows caught (reprItems room items) (reprItems none items)
  | [], _ => .rfl
  | item :: rest, room => by
      simp only [reprItems]
      exact follows_enter (fun inside => (follows_repr item inside).bind
        (fun _ => (follows_reprItems rest room).bind (fun _ => .rfl)))

theorem follows_reprMembers :
    ∀ (members : List (String × Json)) (room : Room),
      Follows caught (reprMembers room members) (reprMembers none members)
  | [], _ => .rfl
  | (_, value) :: rest, room => by
      simp only [reprMembers]
      exact follows_enter (fun inside => (follows_repr value inside).bind
        (fun _ => (follows_reprMembers rest room).bind (fun _ => .rfl)))

end

theorem follows_toStr (value : Json) :
    Follows caught (value.toStr room) (value.toStr none) := by
  cases value with
  | str text => exact .rfl
  | _ =>
      simp only [Json.toStr, enter_unlimited]
      exact follows_enter (fun inside => follows_repr _ inside)

theorem follows_idField {present : Json → Bool} {record : Json}
    {name : String} :
    Follows caught (idField room present record name)
      (idField none present record name) := by
  simp only [idField]
  apply Follows.rfl.bind
  intro value
  split_ifs
  · exact Follows.rfl.bind (fun found => (follows_toStr found).map)
  · exact .rfl

private theorem follows_sideField {trade : Json} :
    Follows caught (sideField room trade) (sideField none trade) := by
  simp only [sideField, readSide]
  exact Follows.rfl.bind (fun value =>
    (follows_toStr value).bind (fun _ => .rfl))

end Texts

section Normalizers

variable {room : Room} {tsIngest : Instant} {symbolMap : Option SymbolMap}

private theorem follows_coinbaseTrade (trade : Json) :
    Follows caught (coinbaseTrade room tsIngest symbolMap trade)
      (coinbaseTrade none tsIngest symbolMap trade) := by
  simp only [coinbaseTrade]
  apply Follows.rfl.bind
  intro symbol
  split_ifs
  · exact .rfl
  · exact Follows.rfl.bind (fun _ => Follows.rfl.bind (fun _ =>
      follows_sideField.bind (fun _ => follows_idField.bind (fun _ => .rfl))))

private theorem follows_binanceRecord (symbol : String) (data : Json) :
    Follows caught (binanceRecord room tsIngest symbol data)
      (binanceRecord none tsIngest symbol data) := by
  simp only [binanceRecord, binanceTrade]
  apply Follows.rfl.bind
  intro kind
  split_ifs
  · exact Follows.rfl.bind (fun _ => Follows.rfl.bind (fun _ =>
      Follows.rfl.bind (fun _ => follows_idField.bind (fun _ => .rfl))))
  · exact .rfl
  · exact .rfl

theorem follows_eachListed {name : String}
    {visit other : Json → Result NormalizeLog} (record : Json)
    (visits : ∀ item, Follows caught (visit item) (other item)) :
    Follows caught (eachListed name visit record)
      (eachListed name other record) := by
  simp only [eachListed]
  exact Follows.rfl.bind (fun _ => Follows.rfl.bind (fun _ =>
    follows_forEach visits))

private theorem follows_normalizeCoinbase (payload : Json) :
    Follows caught (normalizeCoinbase room tsIngest symbolMap payload)
      (normalizeCoinbase none tsIngest symbolMap payload) := by
  simp only [normalizeCoinbase]
  apply Follows.rfl.bind
  intro channel
  split_ifs
  · apply follows_eachListed payload
    intro envelope
    simp only [coinbaseTrades]
    apply Follows.rfl.bind
    intro kind
    split_ifs
    · exact .rfl
    · exact follows_eachListed envelope
        (fun trade => follows_attempt (follows_coinbaseTrade trade))
  · exact .rfl
  · exact .rfl

private theorem follows_normalizeBinanceUs (map : SymbolMap) (payload : Json) :
    Follows caught (normalizeBinanceUs room tsIngest map payload)
      (normalizeBinanceUs none tsIngest map payload) := by
  simp only [normalizeBinanceUs]
  apply Follows.rfl.bind
  intro data
  apply Follows.rfl.bind
  intro symbol
  cases symbol with
  | none => exact .rfl
  | some name => exact follows_attempt (follows_binanceRecord name data)

/-- What normalization returns, it returns with more room as well. -/
theorem normalizeSafe_within {exchange : String} {payload : Json}
    {log : NormalizeLog}
    (ran : normalizeSafe exchange payload tsIngest symbolMap room = .ok log) :
    normalizeSafe exchange payload tsIngest symbolMap = .ok log := by
  have follows : Follows caught
      (normalizeSafe exchange payload tsIngest symbolMap room)
      (normalizeSafe exchange payload tsIngest symbolMap) := by
    simp only [normalizeSafe]
    split_ifs
    · exact follows_normalizeCoinbase payload
    · exact follows_normalizeBinanceUs _ payload
    · exact .rfl
  exact follows.eq_ok ran

end Normalizers

end TickStream
