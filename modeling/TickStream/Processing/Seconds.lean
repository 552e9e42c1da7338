import TickStream.Python.DateTime
import TickStream.Python.Rounding

/-!
# Whole seconds of doubles

A double timestamp truncates to the seconds of an instant a few microseconds
further from the epoch: none as long as the spacing of the doubles stays under
a microsecond, fifteen at the end of the datetime range.
-/

namespace TickStream

open Python

/-- `datetime.timestamp()`. -/
def timestamp (instant : Instant) : PyFloat :=
  roundToDouble ((instant : Rat) / microsPerSecond)

/-- `int(timestamp() * 1000)`. -/
def timestampMillis (instant : Instant) : Result Int :=
  match timestamp instant with
  | .fin seconds => (Json.float (roundToDouble (seconds * 1000))).toInt
  | other => (Json.float other).toInt

/-- How many microseconds below a whole second a double still carries a
timestamp of `micros` onto it. -/
def carriedMicros (micros : Nat) : Nat :=
  (10 ^ 6 * 2 ^ Nat.log2 (micros / 10 ^ 6) - 1) / 2 ^ 53

/-- The instant whose exact seconds the double of `tsEvent` truncates to. -/
def carried (tsEvent : Instant) : Instant :=
  if 0 ≤ tsEvent then tsEvent + carriedMicros tsEvent.natAbs
  else tsEvent - carriedMicros tsEvent.natAbs

theorem carriedMicros_iff (micros : Nat) (missing : Int) :
    missing ≤ carriedMicros micros ↔
      missing * 2 ^ 53 <
        ((10 ^ 6 * 2 ^ Nat.log2 (micros / 10 ^ 6) : Nat) : Int) := by
  have positive : 0 < 10 ^ 6 * 2 ^ Nat.log2 (micros / 10 ^ 6) := by positivity
  simp only [carriedMicros]
  generalize 10 ^ 6 * 2 ^ Nat.log2 (micros / 10 ^ 6) = whole at positive ⊢
  omega

/-- No instant lies halfway between two doubles around a whole second. -/
theorem no_tie {size : Nat} (bounded : size ≤ 45) (missing : Int) :
    missing * 2 ^ 53 ≠ ((10 ^ 6 * 2 ^ size : Nat) : Int) := by
  intro tie
  have powers : (2 : Int) ^ 53 = 2 ^ size * 2 ^ 6 * (2 * 2 ^ (46 - size)) := by
    rw [← pow_succ', ← pow_add, ← pow_add]
    congr 1
    omega
  have odd : missing * (2 * 2 ^ (46 - size)) = 15625 := by
    have nonzero : (2 : Int) ^ size * 2 ^ 6 ≠ 0 := by positivity
    apply mul_left_cancel₀ nonzero
    calc (2 : Int) ^ size * 2 ^ 6 * (missing * (2 * 2 ^ (46 - size)))
        = missing * 2 ^ 53 := by rw [powers]; ring
      _ = 2 ^ size * 2 ^ 6 * 15625 := by rw [tie]; push_cast; ring
  generalize (2 : Int) ^ (46 - size) = factor at odd
  have even : (2 : Int) ∣ 15625 := ⟨missing * factor, by linarith⟩
  omega

private theorem seconds_lt_binade (micros : Nat) :
    (micros : Rat) / 1000000 < 2 ^ (Nat.log2 (micros / 10 ^ 6) + 1) := by
  have below := Nat.lt_log2_self (n := micros / 10 ^ 6)
  have whole : micros < 2 ^ (Nat.log2 (micros / 10 ^ 6) + 1) * 10 ^ 6 := by
    rwa [← Nat.div_lt_iff_lt_mul (by positivity)]
  rw [div_lt_iff₀ (by norm_num)]
  exact_mod_cast whole

private theorem binade_le_seconds {micros : Nat} (large : 10 ^ 6 ≤ micros) :
    2 ^ Nat.log2 (micros / 10 ^ 6) ≤ (micros : Rat) / 1000000 := by
  have nonzero : micros / 10 ^ 6 ≠ 0 := by omega
  have above := Nat.log2_self_le nonzero
  have whole : 2 ^ Nat.log2 (micros / 10 ^ 6) * 10 ^ 6 ≤ micros := by
    rwa [← Nat.le_div_iff_mul_le (by positivity)]
  rw [le_div_iff₀ (by norm_num)]
  exact_mod_cast whole

theorem log2_seconds_lt {micros : Nat} (small : micros < 2 ^ 58) :
    Nat.log2 (micros / 10 ^ 6) < 39 := by
  by_cases zero : micros / 10 ^ 6 = 0
  · rw [zero]
    decide
  · rw [Nat.log2_lt zero]
    omega

/-- Whole multiples of the spacing. -/
theorem intCast_eq_steps {size : Nat} (bounded : size ≤ 52) (second : Int) :
    ((second * 2 ^ (52 - size) : Int) : Rat) * spacing size = second := by
  have whole := spacing_mul size
  have powers : (2 : Rat) ^ 52 = 2 ^ (52 - size) * 2 ^ size := by
    rw [← pow_add]
    congr 1
    omega
  have nonzero : (2 : Rat) ^ size ≠ 0 := by positivity
  have unit : (2 : Rat) ^ (52 - size) * spacing size = 1 := by
    apply mul_left_cancel₀ nonzero
    calc (2 : Rat) ^ size * (2 ^ (52 - size) * spacing size)
        = 2 ^ 52 * spacing size := by rw [powers]; ring
      _ = 2 ^ size * 1 := by rw [whole, mul_one]
  push_cast
  rw [mul_assoc, unit, mul_one]

theorem timestamp_cast (micros : Nat) :
    timestamp micros = roundToDouble ((micros : Rat) / 1000000) := by
  simp only [timestamp, microsPerSecond]
  push_cast
  rfl

/-- What the double of a timestamp says about whole seconds: which of them it
reaches, which it does not pass, and that it stays clear of the next. -/
structure ReadsSeconds (micros : Nat) (seconds : Rat) : Prop where
  nonneg : 0 ≤ seconds
  reaches : ∀ second : Int, (second : Rat) ≤ seconds ↔
    second * microsPerSecond ≤ micros + carriedMicros micros
  passes : ∀ second : Int, seconds ≤ (second : Rat) ↔
    micros ≤ second * microsPerSecond + carriedMicros micros
  clear : ∀ second : Int, seconds < second → ∃ size ≤ 53,
    1000 * seconds < 2 ^ size ∧
      1000 * seconds + 1 / 2 ^ (54 - size) < 1000 * second

/-- The double of a positive microsecond count below a second is positive. -/
private theorem timestamp_pos {micros : Nat} (positive : 0 < micros)
    {seconds : Rat}
    (same : timestamp micros = .fin seconds) : 0 < seconds := by
  have least : (1 : Rat) / 1000000 ≤ (micros : Rat) / 1000000 := by
    have cast : (1 : Rat) ≤ micros := by exact_mod_cast positive
    linarith
  have ordered := roundToDouble_mono least
  rw [← timestamp_cast, same] at ordered
  have tiny : (PyFloat.fin 0).lt (roundToDouble (1 / 1000000)) = true := by
    decide +kernel
  have later := PyFloat.lt_of_lt_of_le tiny ordered
  simpa only [PyFloat.lt, decide_eq_true_eq] using later

private theorem readsSeconds_small {micros : Nat} (small : micros < 10 ^ 6) :
    ∃ seconds, timestamp micros = .fin seconds ∧
      ReadsSeconds micros seconds := by
  have below : (micros : Rat) / 1000000 ≤ 1 - 1 / 1000000 := by
    have whole : micros ≤ 999999 := by omega
    have cast : (micros : Rat) ≤ 999999 := by exact_mod_cast whole
    linarith
  have nonneg : (0 : Rat) ≤ (micros : Rat) / 1000000 := by positivity
  have belowOne : (micros : Rat) / 1000000 < 2 ^ 0 := by
    rw [pow_zero]
    linarith
  have nothing : carriedMicros micros = 0 := by
    have zero : micros / 10 ^ 6 = 0 := by omega
    rw [carriedMicros, zero]
    rfl
  obtain ⟨seconds, same, reached, stays, near⟩ :=
    roundToDouble_bounds nonneg belowOne (Nat.zero_le 53)
  have secondsNonneg : 0 ≤ seconds := by
    have zero := reached 0 (by push_cast; exact nonneg)
    exact_mod_cast zero
  have early : seconds < 1 := by
    have one := stays 1 (by push_cast; linarith)
    exact_mod_cast one
  refine ⟨seconds, (timestamp_cast micros).trans same, secondsNonneg, ?_, ?_,
    ?_⟩
  · intro second
    rw [nothing]
    have known : (second : Rat) ≤ seconds ↔ second ≤ 0 := by
      constructor
      · intro reaches
        have less : (second : Rat) < (1 : Int) := by
          push_cast
          linarith
        have whole : second < 1 := by exact_mod_cast less
        omega
      · intro before
        have cast : (second : Rat) ≤ 0 := by exact_mod_cast before
        linarith
    rw [known]
    simp only [microsPerSecond]
    omega
  · intro second
    rw [nothing]
    simp only [microsPerSecond]
    constructor
    · intro within
      have atLeast : (0 : Rat) ≤ second := secondsNonneg.trans within
      have whole : 0 ≤ second := by exact_mod_cast atLeast
      by_cases zero : second = 0
      · subst zero
        by_contra later
        have positive := timestamp_pos (by omega : 0 < micros)
          ((timestamp_cast micros).trans same)
        rw [Int.cast_zero] at within
        linarith
      · omega
    · intro before
      apply roundToDouble_le nonneg (belowOne.trans (by norm_num)) same
      have cast : (micros : Rat) ≤ second * 1000000 := by
        exact_mod_cast (by omega : (micros : Int) ≤ second * 1000000)
      rwa [div_le_iff₀ (by norm_num)]
  · intro second after
    have one : (1 : Rat) ≤ second := by
      have positive : (0 : Rat) < second := by linarith
      have whole : 0 < second := by exact_mod_cast positive
      exact_mod_cast whole
    refine ⟨10, by norm_num, by norm_num; linarith, ?_⟩
    linarith

section Steps

variable {size : Nat} {steps : Int}

theorem steps_reach_iff (bounded : size ≤ 52) (second : Int) :
    (second : Rat) ≤ steps * spacing size ↔
      second * 2 ^ (52 - size) ≤ steps := by
  rw [← intCast_eq_steps bounded second,
    mul_le_mul_iff_left₀ (spacing_pos size)]
  exact Int.cast_le

/-- The microseconds missing at a whole second are carried just when they are
less than half a step. -/
private theorem carried_reaches_iff (micros : Nat) (second : Int) :
    second * microsPerSecond ≤ micros + carriedMicros micros ↔
      ((second : Rat) * 1000000 - micros) * 2 ^ 53 <
        10 ^ 6 * 2 ^ Nat.log2 (micros / 10 ^ 6) := by
  have missing : second * microsPerSecond ≤ micros + carriedMicros micros ↔
      second * microsPerSecond - micros ≤ (carriedMicros micros : Int) := by
    omega
  rw [missing, carriedMicros_iff, ← @Int.cast_lt Rat]
  simp only [microsPerSecond]
  push_cast
  rfl

/-- The steps nearest a timestamp reach a whole second just when less than
half a step is missing. -/
private theorem nearest_steps_reach_iff (bounded : size ≤ 45) {micros : Nat}
    (above : ∀ bound : Int, (bound - 1 / 2) * spacing size <
      (micros : Rat) / 1000000 → bound ≤ steps)
    (below : ∀ bound : Int, (micros : Rat) / 1000000 <
      (bound + 1 / 2) * spacing size → steps ≤ bound) (second : Int) :
    second * 2 ^ (52 - size) ≤ steps ↔
      ((second : Rat) * 1000000 - micros) * 2 ^ 53 < 10 ^ 6 * 2 ^ size := by
  have whole := spacing_mul size
  have multiple := intCast_eq_steps (by omega : size ≤ 52) second
  push_cast at multiple
  constructor
  · intro reaches
    by_contra short
    have apart : ((second : Rat) * 1000000 - micros) * 2 ^ 53 ≠
        10 ^ 6 * 2 ^ size := by
      have integers := no_tie bounded (second * 1000000 - micros)
      exact_mod_cast integers
    have strict := lt_of_le_of_ne (not_lt.mp short) apart.symm
    have next := below (second * 2 ^ (52 - size) - 1) (by
      rw [div_lt_iff₀ (by norm_num)]
      push_cast
      linarith)
    omega
  · intro near
    apply above
    rw [lt_div_iff₀ (by norm_num)]
    push_cast
    linarith

private theorem steps_within_iff (bounded : size ≤ 52) (second : Int) :
    steps * spacing size ≤ (second : Rat) ↔
      steps ≤ second * 2 ^ (52 - size) := by
  rw [← intCast_eq_steps bounded second,
    mul_le_mul_iff_left₀ (spacing_pos size)]
  exact Int.cast_le

/-- The microseconds past a whole second are dropped just when they are less
than half a step. -/
private theorem carried_passes_iff (micros : Nat) (second : Int) :
    micros ≤ second * microsPerSecond + carriedMicros micros ↔
      ((micros : Rat) - second * 1000000) * 2 ^ 53 <
        10 ^ 6 * 2 ^ Nat.log2 (micros / 10 ^ 6) := by
  have past : micros ≤ second * microsPerSecond + carriedMicros micros ↔
      micros - second * microsPerSecond ≤ (carriedMicros micros : Int) := by
    omega
  rw [past, carriedMicros_iff, ← @Int.cast_lt Rat]
  simp only [microsPerSecond]
  push_cast
  rfl

/-- The steps nearest a timestamp stay within a whole second just when less
than half a step is past it. -/
private theorem nearest_steps_within_iff (bounded : size ≤ 45) {micros : Nat}
    (above : ∀ bound : Int, (bound - 1 / 2) * spacing size <
      (micros : Rat) / 1000000 → bound ≤ steps)
    (below : ∀ bound : Int, (micros : Rat) / 1000000 <
      (bound + 1 / 2) * spacing size → steps ≤ bound) (second : Int) :
    steps ≤ second * 2 ^ (52 - size) ↔
      ((micros : Rat) - second * 1000000) * 2 ^ 53 < 10 ^ 6 * 2 ^ size := by
  have whole := spacing_mul size
  have multiple := intCast_eq_steps (by omega : size ≤ 52) second
  push_cast at multiple
  constructor
  · intro within
    by_contra far
    have apart : ((micros : Rat) - second * 1000000) * 2 ^ 53 ≠
        10 ^ 6 * 2 ^ size := by
      have integers := no_tie bounded (micros - second * 1000000)
      exact_mod_cast integers
    have strict := lt_of_le_of_ne (not_lt.mp far) apart.symm
    have next := above (second * 2 ^ (52 - size) + 1) (by
      rw [lt_div_iff₀ (by norm_num)]
      push_cast
      linarith)
    omega
  · intro near
    apply below
    rw [div_lt_iff₀ (by norm_num)]
    push_cast
    linarith

/-- The tolerance of a thousand times the seconds, in steps. -/
private theorem tolerance_eq_steps (early : size < 39) :
    (1 : Rat) / 2 ^ (54 - (size + 11)) = 512 * spacing size := by
  have whole := spacing_mul size
  have split : (2 : Rat) ^ 43 = 2 ^ (54 - (size + 11)) * 2 ^ size := by
    rw [← pow_add]
    congr 1
    omega
  have nonzero : (2 : Rat) ^ size ≠ 0 := by positivity
  rw [div_eq_iff (by positivity)]
  apply mul_right_cancel₀ nonzero
  calc 1 * (2 : Rat) ^ size
      = 2 ^ 52 * spacing size := by rw [whole, one_mul]
    _ = 512 * spacing size * 2 ^ 43 := by ring
    _ = _ := by rw [split]; ring

/-- Steps short of a whole second stay clear of it a thousand times over. -/
private theorem steps_clear (early : size < 39) (top : steps ≤ 2 ^ 53)
    {second : Int}
    (short : steps < second * 2 ^ (52 - size)) :
    1000 * (steps * spacing size) < 2 ^ (size + 11) ∧
      1000 * (steps * spacing size) + 1 / 2 ^ (54 - (size + 11)) <
        1000 * second := by
  have unit := spacing_pos size
  have whole := spacing_mul size
  have multiple := intCast_eq_steps (by omega : size ≤ 52) second
  push_cast at multiple
  have capped : (steps : Rat) ≤ second * 2 ^ (52 - size) - 1 := by
    have integers : steps ≤ second * 2 ^ (52 - size) - 1 := by omega
    exact_mod_cast integers
  have castTop : (steps : Rat) ≤ 2 ^ 53 := by exact_mod_cast top
  have topSeconds := mul_le_mul_of_nonneg_right castTop unit.le
  have gap := mul_le_mul_of_nonneg_right capped unit.le
  have room : (0 : Rat) < 2 ^ size := by positivity
  constructor
  · have powers : (2 : Rat) ^ (size + 11) = 2048 * 2 ^ size := by
      rw [pow_add]
      ring
    rw [powers]
    linarith
  · rw [tolerance_eq_steps early]
    linarith

end Steps

private theorem readsSeconds_large {micros : Nat} (large : 10 ^ 6 ≤ micros)
    (small : micros < 2 ^ 58) :
    ∃ seconds, timestamp micros = .fin seconds ∧
      ReadsSeconds micros seconds := by
  have early := log2_seconds_lt small
  have upper := seconds_lt_binade micros
  have lower := binade_le_seconds large
  have carries := carried_reaches_iff micros
  have drops := carried_passes_iff micros
  rw [timestamp_cast]
  generalize Nat.log2 (micros / 10 ^ 6) = size at *
  obtain ⟨steps, same, above, below⟩ :=
    roundToDouble_binade lower upper (by omega)
  have unit := spacing_pos size
  have whole := spacing_mul size
  have reaches := @steps_reach_iff size steps (by omega : size ≤ 52)
  refine ⟨_, same, ?_, ?_, ?_, ?_⟩
  · have zero := (reaches 0).mpr (above _ (by
      push_cast
      linarith))
    exact_mod_cast zero
  · intro second
    rw [reaches, carries]
    exact nearest_steps_reach_iff (by omega) above below second
  · intro second
    rw [steps_within_iff (by omega), drops]
    exact nearest_steps_within_iff (by omega) above below second
  · intro second after
    rw [← not_le, reaches, not_le] at after
    have top : steps ≤ 2 ^ 53 := below _ (by
      rw [pow_succ] at upper
      push_cast
      linarith)
    exact ⟨size + 11, by omega, steps_clear early top after⟩

theorem readsSeconds {micros : Nat} (small : micros < 2 ^ 58) :
    ∃ seconds, timestamp micros = .fin seconds ∧
      ReadsSeconds micros seconds := by
  rcases lt_or_ge micros (10 ^ 6) with early | large
  · exact readsSeconds_small early
  · exact readsSeconds_large large small

theorem timestamp_neg {micros : Nat} {seconds : Rat}
    (same : timestamp micros = .fin seconds) :
    timestamp (-(micros : Int)) = .fin (-seconds) := by
  have mirrored := roundToDouble_neg same
  rw [← mirrored]
  simp only [timestamp]
  congr 1
  push_cast
  ring

section Reading

variable {micros : Nat} {seconds : Rat}

theorem ReadsSeconds.floor_eq (reads : ReadsSeconds micros seconds) :
    seconds.floor =
      ((micros + carriedMicros micros : Nat) : Int) / microsPerSecond := by
  apply eq_of_forall_le_iff
  intro second
  rw [Rat.le_floor_iff, reads.reaches, Int.le_ediv_iff_mul_le (by decide)]
  push_cast
  exact Iff.rfl

/-- A timestamp of whole seconds or less stays there. -/
theorem ReadsSeconds.le (same : timestamp micros = .fin seconds)
    (small : micros < 2 ^ 58) {second : Int}
    (before : micros ≤ second * microsPerSecond) : seconds ≤ second := by
  have cast : (micros : Rat) ≤ second * 1000000 := by exact_mod_cast before
  have early : (micros : Rat) < 2 ^ 58 := by exact_mod_cast small
  rw [timestamp_cast] at same
  apply roundToDouble_le (by positivity) _ same
  · rw [div_le_iff₀ (by norm_num)]
    exact cast
  · rw [div_lt_iff₀ (by norm_num)]
    linarith

/-- The milliseconds the processor reads reach the same whole seconds. -/
theorem ReadsSeconds.millis (reads : ReadsSeconds micros seconds) :
    ∃ millis, roundToDouble (seconds * 1000) = .fin millis ∧ 0 ≤ millis ∧
      (∀ second : Int, ((1000 * second : Int) : Rat) ≤ millis ↔
        (second : Rat) ≤ seconds) ∧
      ∀ second : Int, seconds ≤ second →
        millis ≤ ((1000 * second : Int) : Rat) := by
  have scaledNonneg : 0 ≤ seconds * 1000 := by
    have nonneg := reads.nonneg
    positivity
  have small : seconds * 1000 < 2 ^ 53 := by
    have later := Rat.lt_floor_add_one seconds
    obtain ⟨size, bounded, below, _⟩ := reads.clear _ later
    have powers : (2 : Rat) ^ size ≤ 2 ^ 53 :=
      pow_le_pow_right₀ (by norm_num) bounded
    linarith
  obtain ⟨millis, rounded, reached, _, _⟩ :=
    roundToDouble_bounds scaledNonneg small le_rfl
  refine ⟨millis, rounded, ?_, ?_, ?_⟩
  · exact_mod_cast reached 0 (by push_cast; exact scaledNonneg)
  · intro second
    constructor
    · intro reaches
      by_contra short
      obtain ⟨size, bounded, below, gap⟩ := reads.clear second (not_le.mp short)
      obtain ⟨other, same, _, stays, _⟩ :=
        roundToDouble_bounds scaledNonneg (by linarith) bounded
      rw [rounded] at same
      cases same
      have less := stays (1000 * second) (by push_cast; linarith)
      exact absurd reaches (not_le.mpr less)
    · intro reaches
      apply reached
      push_cast
      linarith
  · intro second atMost
    apply roundToDouble_le scaledNonneg small rounded
    push_cast
    linarith

end Reading

theorem carried_natCast (micros : Nat) :
    carried (micros : Int) = ((micros + carriedMicros micros : Nat) : Int) := by
  rw [carried, if_pos (Int.natCast_nonneg micros), Int.natAbs_natCast]
  push_cast
  rfl

theorem carried_neg_natCast (micros : Nat) :
    carried (-(micros : Int)) =
      -((micros + carriedMicros micros : Nat) : Int) := by
  cases micros with
  | zero => rfl
  | succ previous =>
      have beforeEpoch : ¬ (0 : Int) ≤ -((previous + 1 : Nat) : Int) := by
        omega
      rw [carried, if_neg beforeEpoch, Int.natAbs_neg, Int.natAbs_natCast]
      push_cast
      ring

theorem carriedMicros_eq_zero {tsEvent : Int}
    (early : tsEvent.natAbs < 2 ^ 34 * 10 ^ 6) :
    carriedMicros tsEvent.natAbs = 0 := by
  have seconds : tsEvent.natAbs / 10 ^ 6 < 2 ^ 34 := by omega
  have powers : 2 ^ Nat.log2 (tsEvent.natAbs / 10 ^ 6) ≤ 2 ^ 33 := by
    apply Nat.pow_le_pow_right (by decide)
    by_cases zero : tsEvent.natAbs / 10 ^ 6 = 0
    · rw [zero]
      decide
    · have below := (Nat.log2_lt zero).mpr seconds
      omega
  simp only [carriedMicros]
  omega

/-- Between 1425 and 2514 doubles carry no timestamp onto a second. -/
theorem carried_eq_self {tsEvent : Int}
    (early : tsEvent.natAbs < 2 ^ 34 * 10 ^ 6) :
    carried tsEvent = tsEvent := by
  simp only [carried, carriedMicros_eq_zero early]
  split_ifs
  · exact add_zero tsEvent
  · exact sub_zero tsEvent

/-- `int(ts.timestamp())`. -/
theorem toInt_timestamp {tsEvent : Instant}
    (small : tsEvent.natAbs < 2 ^ 58) :
    (Json.float (timestamp tsEvent)).toInt =
      .ok ((carried tsEvent).tdiv microsPerSecond) := by
  obtain ⟨micros, rfl | rfl⟩ := Int.eq_nat_or_neg tsEvent
  · rw [Int.natAbs_natCast] at small
    obtain ⟨seconds, same, reads⟩ := readsSeconds small
    rw [same, Json.toInt, truncate_of_nonneg reads.nonneg, reads.floor_eq,
      carried_natCast, Int.tdiv_eq_ediv_of_nonneg (Int.natCast_nonneg _)]
  · rw [Int.natAbs_neg, Int.natAbs_natCast] at small
    obtain ⟨seconds, same, reads⟩ := readsSeconds small
    rw [timestamp_neg same, Json.toInt, truncate_neg reads.nonneg,
      reads.floor_eq, carried_neg_natCast, Int.neg_tdiv,
      Int.tdiv_eq_ediv_of_nonneg (Int.natCast_nonneg _)]

theorem ReadsSeconds.le_millis_iff {micros : Nat} {seconds millis : Rat}
    (reads : ReadsSeconds micros seconds)
    (reaches : ∀ second : Int, ((1000 * second : Int) : Rat) ≤ millis ↔
      (second : Rat) ≤ seconds) (second : Int) :
    1000 * second ≤ millis.floor ↔
      second * microsPerSecond ≤ carried (micros : Int) := by
  rw [Rat.le_floor_iff, reaches, reads.reaches, carried_natCast]
  push_cast
  exact Iff.rfl

/-- `int(ts.timestamp() * 1000)` on both sides of the epoch. -/
theorem timestampMillis_reads {micros : Nat} (small : micros < 2 ^ 58) :
    ∃ millis : Int, timestampMillis (micros : Int) = .ok millis ∧
      timestampMillis (-(micros : Int)) = .ok (-millis) ∧
      (∀ second : Int, 1000 * second ≤ millis ↔
        second * microsPerSecond ≤ carried (micros : Int)) ∧
      ∀ second : Int, micros ≤ second * microsPerSecond →
        millis ≤ 1000 * second := by
  obtain ⟨seconds, same, reads⟩ := readsSeconds small
  obtain ⟨millis, rounded, nonneg, reaches, capped⟩ := reads.millis
  have mirrored : roundToDouble (-seconds * 1000) = .fin (-millis) := by
    rw [neg_mul]
    exact roundToDouble_neg rounded
  refine ⟨millis.floor, ?_, ?_, reads.le_millis_iff reaches, ?_⟩
  · simp only [timestampMillis, same, rounded, Json.toInt,
      truncate_of_nonneg nonneg]
  · simp only [timestampMillis, timestamp_neg same, mirrored, Json.toInt,
      truncate_neg nonneg]
  · intro second before
    have atMost := capped second (ReadsSeconds.le same small before)
    have floored : (millis.floor : Rat) ≤ ((1000 * second : Int) : Rat) :=
      (Rat.floor_le millis).trans atMost
    exact_mod_cast floored

/-- The microsecond count as a double: exact until `2 ^ 53`. -/
def floatMicros (tsEvent : Instant) : Instant :=
  let coarse := Nat.log2 tsEvent.natAbs - 52
  roundHalfEven ((tsEvent : Rat) / 2 ^ coarse) * 2 ^ coarse

theorem floatMicros_of_small {micros : Nat} (small : micros < 2 ^ 53) :
    floatMicros (micros : Int) = micros := by
  have exponent : Nat.log2 micros - 52 = 0 := by
    by_cases zero : micros = 0
    · subst zero
      rfl
    · have below := (Nat.log2_lt zero).mpr small
      omega
  simp only [floatMicros, Int.natAbs_natCast, exponent]
  rw [pow_zero, pow_zero, div_one, mul_one, roundHalfEven_intCast]

theorem roundToDouble_micros {micros : Nat} (small : micros < 2 ^ 58) :
    roundToDouble (micros : Rat) = .fin (floatMicros (micros : Int) : Int) := by
  rcases lt_or_ge micros (2 ^ 53) with exact | large
  · rw [roundToDouble_natCast exact, floatMicros_of_small exact]
    push_cast
    rfl
  · have nonzero : micros ≠ 0 := by omega
    have atLeast : 53 ≤ Nat.log2 micros := by
      rwa [Nat.le_log2 nonzero]
    have below : Nat.log2 micros < 58 := by
      rwa [Nat.log2_lt nonzero]
    have lower : (2 : Rat) ^ Nat.log2 micros ≤ micros := by
      exact_mod_cast Nat.log2_self_le nonzero
    have upper : (micros : Rat) < 2 ^ (Nat.log2 micros + 1) := by
      exact_mod_cast Nat.lt_log2_self
    rw [roundToDouble_eq_binade lower upper (by omega)]
    simp only [floatMicros, Int.natAbs_natCast]
    obtain ⟨coarse, split⟩ := Nat.exists_eq_add_of_le
      (by omega : 52 ≤ Nat.log2 micros)
    rw [split, spacing_add, Nat.add_sub_cancel_left]
    push_cast
    rfl

theorem floatMicros_neg (tsEvent : Instant) :
    floatMicros (-tsEvent) = -floatMicros tsEvent := by
  simp only [floatMicros, Int.natAbs_neg]
  rw [Int.cast_neg, neg_div, roundHalfEven_neg, neg_mul]

/-- Rounding a microsecond count to a double crosses no whole second. -/
theorem floatMicros_mono_second {tsEvent : Instant}
    (small : tsEvent.natAbs < 2 ^ 58) (second : Int) :
    (second * microsPerSecond ≤ tsEvent →
      second * microsPerSecond ≤ floatMicros tsEvent) ∧
      (tsEvent ≤ second * microsPerSecond →
        floatMicros tsEvent ≤ second * microsPerSecond) := by
  have coarseLe : Nat.log2 tsEvent.natAbs - 52 ≤ 6 := by
    by_cases zero : tsEvent.natAbs = 0
    · rw [zero]
      exact Nat.zero_le 6
    · have below := (Nat.log2_lt zero).mpr small
      omega
  simp only [floatMicros]
  generalize Nat.log2 tsEvent.natAbs - 52 = coarse at coarseLe
  have unit : (0 : Rat) < 2 ^ coarse := by positivity
  have wholeUnit : (0 : Int) < 2 ^ coarse := by positivity
  have steps : second * microsPerSecond =
      second * 15625 * 2 ^ (6 - coarse) * 2 ^ coarse := by
    rw [mul_assoc, ← pow_add, Nat.sub_add_cancel coarseLe, mul_assoc]
    rfl
  rw [steps]
  constructor
  · intro reached
    apply mul_le_mul_of_nonneg_right _ wholeUnit.le
    apply le_roundHalfEven
    rw [le_div_iff₀ unit]
    exact_mod_cast reached
  · intro before
    apply mul_le_mul_of_nonneg_right _ wholeUnit.le
    apply roundHalfEven_le
    have atMost : (tsEvent : Rat) / 2 ^ coarse ≤
        ((second * 15625 * 2 ^ (6 - coarse) : Int) : Rat) := by
      rw [div_le_iff₀ unit]
      exact_mod_cast before
    linarith

theorem roundToDouble_instant {tsEvent : Instant}
    (small : tsEvent.natAbs < 2 ^ 58) :
    roundToDouble (tsEvent : Rat) = .fin (floatMicros tsEvent : Int) := by
  obtain ⟨micros, rfl | rfl⟩ := Int.eq_nat_or_neg tsEvent
  · rw [Int.natAbs_natCast] at small
    rw [Int.cast_natCast]
    exact roundToDouble_micros small
  · rw [Int.natAbs_neg, Int.natAbs_natCast] at small
    rw [floatMicros_neg, Int.cast_neg, Int.cast_natCast, Int.cast_neg]
    exact roundToDouble_neg (roundToDouble_micros small)

theorem carriedMicros_lt {micros : Nat} (small : micros < 2 ^ 58) :
    carriedMicros micros < 10 ^ 6 := by
  have early := log2_seconds_lt small
  have powers : 2 ^ Nat.log2 (micros / 10 ^ 6) ≤ 2 ^ 38 :=
    Nat.pow_le_pow_right (by decide) (by omega)
  simp only [carriedMicros]
  omega

theorem inDatetimeRange_iff {micros : Int} :
    inDatetimeRange micros = true ↔
      minInstant ≤ micros ∧ micros ≤ maxInstant := by
  simp [inDatetimeRange]

theorem natAbs_lt_of_inDatetimeRange {tsEvent : Int}
    (inRange : inDatetimeRange tsEvent = true) : tsEvent.natAbs < 2 ^ 58 := by
  obtain ⟨lower, upper⟩ := inDatetimeRange_iff.mp inRange
  have first : (-62135596800000000 : Int) ≤ tsEvent := lower
  have last : tsEvent ≤ (253402300799999999 : Int) := upper
  omega

private theorem splitTimestamp_intCast (second : Int) :
    splitTimestamp second = (second, 0) := by
  have whole : truncate (second : Rat) = second := by
    simp only [truncate, Rat.floor_intCast, Rat.ceil_intCast, ite_self]
  have zero : roundToDouble 0 = .fin 0 := rfl
  have nothing : roundHalfEven 0 = 0 := roundHalfEven_intCast 0
  simp only [splitTimestamp, whole, sub_self, zero_mul, zero, nothing]
  rfl

/-- A whole number of seconds is the datetime it counts to. -/
theorem fromTimestamp_intCast {second : Int} {instant : Instant} :
    fromTimestamp (.fin second) = .ok instant ↔
      instant = second * microsPerSecond ∧
        minInstant ≤ second * microsPerSecond ∧
        second * microsPerSecond ≤ maxInstant := by
  simp only [fromTimestamp, splitTimestamp_intCast, add_zero,
    Bool.or_eq_true, decide_eq_true_eq]
  rw [← inDatetimeRange_iff]
  by_cases inside : inDatetimeRange (second * microsPerSecond) = true
  · have range : (-62135596800000000 : Int) ≤ second * 1000000 ∧
        second * 1000000 ≤ 253402300799999999 :=
      inDatetimeRange_iff.mp inside
    have fits : ¬ (second < -(2 ^ 63) ∨ 2 ^ 63 ≤ second) := by omega
    have breaks : ¬ (second < gmtimeMin ∨ gmtimeMax < second) := by
      simp only [gmtimeMin, gmtimeMax]
      omega
    rw [if_neg fits, if_neg breaks, inside, Bool.not_true,
      if_neg Bool.false_ne_true, Except.ok.injEq]
    simp [eq_comm]
  · have outside : (!inDatetimeRange (second * microsPerSecond)) = true := by
      simp [inside]
    rw [outside, if_pos rfl]
    split_ifs <;> simp [raise, inside]

/-- Instants from the epoch to the year 2242: no double of the source reads
them as another second. -/
structure SecondsExact (instant : Instant) : Prop where
  afterEpoch : 0 ≤ instant
  early : instant < 2 ^ 33 * microsPerSecond

instance (instant : Instant) : Decidable (SecondsExact instant) :=
  decidable_of_iff (0 ≤ instant ∧ instant < 2 ^ 33 * microsPerSecond)
    ⟨fun exact => ⟨exact.1, exact.2⟩,
      fun exact => ⟨exact.afterEpoch, exact.early⟩⟩

theorem SecondsExact.natAbs_lt {instant : Int} (exact : SecondsExact instant) :
    instant.natAbs < 2 ^ 33 * 10 ^ 6 := by
  have lower : 0 ≤ instant := exact.afterEpoch
  have upper : instant < 2 ^ 33 * 1000000 := exact.early
  omega

/-- The latest instant whose whole seconds the double of `tsEvent` reaches. -/
def reached (tsEvent : Instant) : Instant :=
  tsEvent + carriedMicros tsEvent.natAbs

/-- Which whole seconds a timestamp reaches as a double. -/
theorem le_timestamp_iff {tsEvent : Instant} (small : tsEvent.natAbs < 2 ^ 58)
    (second : Int) :
    (PyFloat.fin second).le (timestamp tsEvent) = true ↔
      second * microsPerSecond ≤ reached tsEvent := by
  obtain ⟨micros, rfl | rfl⟩ := Int.eq_nat_or_neg tsEvent
  · rw [Int.natAbs_natCast] at small
    obtain ⟨seconds, same, reads⟩ := readsSeconds small
    simp only [same, PyFloat.le, decide_eq_true_eq, reads.reaches, reached,
      Int.natAbs_natCast]
  · rw [Int.natAbs_neg, Int.natAbs_natCast] at small
    obtain ⟨seconds, same, reads⟩ := readsSeconds small
    have mirrored := reads.passes (-second)
    push_cast at mirrored
    simp only [timestamp_neg same, PyFloat.le, decide_eq_true_eq, reached,
      Int.natAbs_neg, Int.natAbs_natCast]
    rw [le_neg, mirrored]
    constructor
    · intro past
      linarith
    · intro past
      linarith

end TickStream
