import TickStream.Producer.Backoff
import TickStream.Producer.Reconnect

/-!
# Long outages

While no connection produces an event the schedule is never reset.  Its power
is computed before the cap is applied, so that a run survives an outage only
as long as the power is a double.
-/

namespace TickStream

open Python Library

/-- The delays of the generators, each with its own random numbers. -/
def Backoff.schedule (backoff : Backoff) (rngs : Nat → Rng)
    (generator call : Nat) : Result Rat :=
  backoff.call (rngs generator) call

/-- `backoff_delays(base=_BACKOFF_BASE, cap=_BACKOFF_CAP)`. -/
def reconnectBackoff : Backoff := { base := 1 / 2, cap := 30 }

theorem Backoff.returns_schedule_iff {backoff : Backoff}
    (growing : 1 ≤ backoff.factor) {rngs : Nat → Rng}
    {generator call : Nat} :
    Returns (backoff.schedule rngs generator call) ↔
      backoff.factor ^ call ≤ maxDouble := by
  constructor
  · intro returned
    rcases returned with ⟨delay, yielded⟩
    by_contra overflows
    obtain ⟨failure, raised⟩ : ∃ failure,
        backoff.call (rngs generator) call = .error failure :=
      call_error growing overflows
    rw [schedule, raised] at yielded
    cases yielded
  · intro fits
    rw [schedule, call_eq growing fits]
    exact ⟨_, delay_eq_ok_iff.mpr ⟨fits, rfl⟩⟩

namespace Service

/-- No payload of the connection comes to an event, and its rejects can be
written. -/
def Unproductive (service : Service) (symbolMap : SymbolMap)
    (connection : Connection) : Prop :=
  ∀ payload ∈ connection.payloads, ∀ tsIngest,
    service.emitted symbolMap (tsIngest, payload) = [] ∧
      service.Written symbolMap (tsIngest, payload)

/-- A state that differs from `start` in counters of no consequence. -/
structure Idle (start later : ProducerState) : Prop where
  generator : later.generator = start.generator
  calls : later.calls = start.calls
  published : later.published = start.published
  silent : later.producedThisConn = 0

variable {service : Service} {symbolMap : SymbolMap}
  {start state : ProducerState} {connection : Connection}
  {script : List Connection} {history : History}

theorem Plays.left {earlier later : List Connection}
    (plays : service.Plays symbolMap (earlier ++ later)) :
    service.Plays symbolMap earlier where
  built := plays.built
  client := plays.client
  returns connection member :=
    plays.returns connection (List.mem_append_left _ member)
  ending connection member :=
    plays.ending connection (List.mem_append_left _ member)

theorem Idle.receive (idle : Idle start state)
    (below : service.limitReached start.published = false) {payload : Payload}
    (returns : Returns (normalizeSafe service.exchange (.obj payload.members)
      (service.clock state.received) (some symbolMap)))
    (written : service.Written symbolMap
      (service.clock state.received, payload))
    (silent : service.emitted symbolMap
      (service.clock state.received, payload) = []) :
    (service.receivePayload symbolMap state payload).Meets history
      (fun _ => Idle start) (fun _ _ _ => False) := by
  obtain ⟨log, ran⟩ := returns
  rw [receivePayload_eq ran written]
  simp only [silent, List.length_nil, Nat.add_zero, idle.published, below,
    Bool.false_eq_true, if_false]
  constructor
  · intro _
    exact ⟨idle.generator, idle.calls, rfl, idle.silent⟩
  · intro reason stopped
    cases stopped

theorem Idle.readStream (plays : service.Plays symbolMap script)
    (member : connection ∈ script)
    (unproductive : service.Unproductive symbolMap connection)
    (below : service.limitReached start.published = false)
    (idle : Idle start state) :
    ((service.readStream symbolMap connection state).handle onException).Meets
      history (fun _ => Idle start) (fun _ _ _ => False) := by
  apply readStream_meets (fun _ _ => Idle start)
    (plays.ending connection member)
  · intro payload inside rest history state still
    obtain ⟨silent, written⟩ := unproductive payload inside
      (service.clock state.received)
    exact still.receive below (plays.returns connection member payload inside _)
      written silent
  · intro history state exit impossible
    exact impossible.elim
  · intro history state still
    exact still
  · exact idle

/-- An unproductive connection takes the next delay of the same generator. -/
private theorem runConnection_unproductive
    (plays : service.Plays symbolMap script)
    (member : connection ∈ script)
    (unproductive : service.Unproductive symbolMap connection)
    (unlimited : service.maxReconnects = none)
    (below : service.limitReached state.published = false) :
    (service.runConnection symbolMap state connection).Meets history
      (fun _ later =>
        Returns (service.schedule state.generator state.calls) ∧
          later.generator = state.generator ∧
          later.calls = state.calls + 1 ∧ later.published = state.published)
      (fun _ _ _ =>
        ¬ Returns (service.schedule state.generator state.calls)) := by
  have opened : (Run.act .connect { state with producedThisConn := 0 } :
      ProducerRun).Meets history (fun _ => Idle state)
        (fun _ _ _ =>
          ¬ Returns (service.schedule state.generator state.calls)) :=
    Run.act_meets ⟨rfl, rfl, rfl, rfl⟩
  simp only [Service.runConnection, plays.client]
  apply opened.andThen
  intro history later idle
  apply ((idle.readStream plays member unproductive below).mono
    (fun _ _ still => still) (fun _ _ _ impossible => impossible.elim)).andThen
  intro history later still
  have notReset : ¬ 0 < later.producedThisConn := by
    rw [still.silent]
    exact lt_irrefl 0
  simp only [Service.reconnect, unlimited, Option.any_none,
    Bool.false_eq_true, if_false, resetDelays, if_neg notReset, sleepNext,
    still.generator, still.calls]
  cases yielded : service.schedule state.generator state.calls with
  | ok delay =>
      exact Run.act_meets ⟨⟨delay, rfl⟩, rfl, rfl, still.published⟩
  | error failure =>
      exact Run.stop_meets (not_returns_error failure)

/-- The state after a number of unproductive connections. -/
structure Waiting (service : Service) (start : ProducerState) (passed : Nat)
    (later : ProducerState) : Prop where
  generator : later.generator = start.generator
  calls : later.calls = start.calls + passed
  published : later.published = start.published
  yielded : ∀ index < passed,
    Returns (service.schedule start.generator (start.calls + index))

theorem Waiting.next {passed : Nat}
    (waiting : service.Waiting start passed state)
    (plays : service.Plays symbolMap script)
    (member : connection ∈ script)
    (unproductive : service.Unproductive symbolMap connection)
    (unlimited : service.maxReconnects = none)
    (below : service.limitReached start.published = false) :
    (service.runConnection symbolMap state connection).Meets history
      (fun _ => service.Waiting start (passed + 1))
      (fun _ _ _ =>
        ¬ Returns (service.schedule start.generator
          (start.calls + passed))) := by
  rw [← waiting.published] at below
  have met : (service.runConnection symbolMap state connection).Meets history
      _ _ := runConnection_unproductive plays member unproductive unlimited below
  rw [waiting.generator, waiting.calls] at met
  apply met.mono
  · intro history later kept
    obtain ⟨returned, generator, calls, published⟩ := kept
    refine ⟨generator, by omega, published.trans waiting.published, ?_⟩
    intro index early
    rcases Nat.lt_succ_iff_lt_or_eq.mp early with before | last
    · exact waiting.yielded index before
    · rwa [last]
  · intro history later exit failed
    exact failed

/-- Unproductive connections call one generator, once each. -/
private theorem runEach_unproductive {quiet : List Connection}
    (plays : service.Plays symbolMap script)
    (members : ∀ connection ∈ quiet, connection ∈ script)
    (unproductive : ∀ connection ∈ quiet,
      service.Unproductive symbolMap connection)
    (unlimited : service.maxReconnects = none)
    (below : service.limitReached start.published = false) :
    (runEach (service.runConnection symbolMap) start quiet).stopped = none ↔
      ∀ index < quiet.length,
        Returns (service.schedule start.generator (start.calls + index)) := by
  have meets : (runEach (service.runConnection symbolMap) start quiet).Meets []
      (fun _ later => ∃ passed,
        quiet.length = passed + ([] : List Connection).length ∧
          service.Waiting start passed later)
      (fun _ _ _ => ∃ index < quiet.length,
        ¬ Returns (service.schedule start.generator
          (start.calls + index))) := by
    apply runEach_meets (fun rest _ later => ∃ passed,
      quiet.length = passed + rest.length ∧ service.Waiting start passed later)
    · intro connection member rest history state reached
      rcases reached with ⟨passed, split, waiting⟩
      apply (waiting.next plays (members connection member)
        (unproductive connection member) unlimited below).mono
      · intro history later next
        exact ⟨passed + 1, by simp [split]; omega, next⟩
      · intro history later exit failed
        exact ⟨passed, by simp [split], failed⟩
    · refine ⟨0, (Nat.zero_add _).symm, rfl, rfl, rfl, ?_⟩
      intro index impossible
      exact absurd impossible (Nat.not_lt_zero index)
  constructor
  · intro stopped
    obtain ⟨passed, split, waiting⟩ := meets.normal stopped
    rw [split]
    exact waiting.yielded
  · intro yields
    cases stopped : (runEach (service.runConnection symbolMap) start
        quiet).stopped with
    | none => rfl
    | some exit =>
        obtain ⟨index, within, failed⟩ := meets.exits exit stopped
        exact absurd (yields index within) failed

end Service

/-- A run without a ceiling on reconnects is waiting after `earlier` when an
outage begins. -/
structure Outage (service : Service) (symbolMap : SymbolMap)
    (earlier outage : List Connection) : Prop where
  plays : service.Plays symbolMap (earlier ++ outage)
  positive : ∀ limit, service.maxMessages = some limit → 0 < limit
  unlimited : service.maxReconnects = none
  waiting : (runProducer service earlier).stopped = none
  writes : service.WritesRejects symbolMap earlier
  unproductive : ∀ connection ∈ outage,
    service.Unproductive symbolMap connection

section Runs

variable {service : Service} {symbolMap : SymbolMap}
  {earlier outage : List Connection}

/-- A run goes on through an outage as long as the delays it comes to yield. -/
theorem Outage.survives_iff (begins : Outage service symbolMap earlier outage) :
    (runProducer service (earlier ++ outage)).stopped = none ↔
      ∀ index < outage.length, Returns (service.schedule
        (History.standing (runProducer service earlier).actions).productive
        ((History.standing (runProducer service earlier).actions).sleeps +
          index)) := by
  have same : ∀ script, runProducer service script =
      (runEach (service.runConnection symbolMap) {} script).lastly .flush := by
    intro script
    simp only [runProducer, begins.plays.built]
  have waiting := begins.waiting
  rw [same, Run.lastly_stopped] at waiting
  have room : ∀ limit, service.maxReconnects = some limit → 0 ≤ limit := by
    intro limit bounded
    rw [begins.unlimited] at bounded
    cases bounded
  have between := (Service.runProducer_meets begins.positive room
    begins.plays.left begins.writes).normal begins.waiting
  obtain ⟨producing, standing⟩ := between.standing
  rw [List.nil_append] at standing
  have below : service.limitReached
      (runProducer service earlier).state.published = false := by
    rw [Bool.eq_false_iff]
    intro reached
    obtain ⟨limit, bounded, above⟩ :=
      (Service.limitReached_iff begins.positive).mp reached
    exact absurd above (not_le.mpr (between.below limit bounded))
  have state : (runProducer service earlier).state =
      (runEach (service.runConnection symbolMap) {} earlier).state := by
    rw [same, Run.lastly_eq _ waiting]
  rw [standing, same, Run.lastly_stopped, runEach_append,
    Run.andThen_stopped_none _ waiting, ← state]
  exact Service.runEach_unproductive begins.plays
    (fun connection member => List.mem_append_right _ member)
    begins.unproductive begins.unlimited below

end Runs

/-- A schedule yields exactly as long as its power is a double, and an outage
is survived exactly as long as its schedule yields. -/
theorem backoff_yields_iff (backoff : Backoff) (positive : 0 < backoff.base)
    (above : backoff.base ≤ backoff.cap) (growing : 1 ≤ backoff.factor) :
    (∀ rng number, (∃ delay, backoff.Yields rng number delay) ↔
      backoff.factor ^ number ≤ maxDouble) ∧
    ∀ service symbolMap earlier outage rngs,
      service.schedule = backoff.schedule rngs →
        Outage service symbolMap earlier outage →
          ((runProducer service (earlier ++ outage)).stopped = none ↔
            ∀ index < outage.length,
              backoff.factor ^
                ((History.standing (runProducer service earlier).actions).sleeps +
                  index) ≤ maxDouble) := by
  constructor
  · intro rng number
    exact Backoff.yields_iff positive above growing number
  · intro service symbolMap earlier outage rngs schedule begins
    rw [begins.survives_iff, schedule]
    simp only [Backoff.returns_schedule_iff growing]

theorem backoff_yields_sample :
    (∀ rng number, (∃ delay, reconnectBackoff.Yields rng number delay) ↔
      reconnectBackoff.factor ^ number ≤ maxDouble) ∧
    ∀ service symbolMap earlier outage rngs,
      service.schedule = reconnectBackoff.schedule rngs →
        Outage service symbolMap earlier outage →
          ((runProducer service (earlier ++ outage)).stopped = none ↔
            ∀ index < outage.length,
              reconnectBackoff.factor ^
                ((History.standing (runProducer service earlier).actions).sleeps +
                  index) ≤ maxDouble) :=
  backoff_yields_iff reconnectBackoff (by decide +kernel) (by decide +kernel)
    (by decide +kernel)

/-- Random numbers that are all one half. -/
def evenRng : Rng where
  random _ := 1 / 2
  nonneg _ := by decide +kernel
  below _ := by decide +kernel

/-- Connections that the server closes at once. -/
def closedAtOnce (connections : Nat) : List Connection :=
  List.replicate connections { payloads := [] }

def outageService : Service where
  settings := sampleSettings
  clock := fun received => 1000000 * received
  schedule := reconnectBackoff.schedule (fun _ => evenRng)

private theorem closedAtOnce_outage (connections : Nat) :
    Outage outageService sampleSymbolMap [] (closedAtOnce connections) := by
  have empty : ∀ connection ∈ closedAtOnce connections,
      connection = { payloads := [] } :=
    fun connection member => List.eq_of_mem_replicate member
  constructor
  · constructor
    · rfl
    · decide +kernel
    · intro connection member payload inside
      rw [empty connection member] at inside
      cases inside
    · intro connection member failure failed
      rw [empty connection member] at failed
      cases failed
  · intro limit bounded
    cases bounded
  · rfl
  · decide +kernel
  · apply Service.WritesRejects.of_written
    intro connection member
    cases member
  · intro connection member payload inside
    rw [empty connection member] at inside
    cases inside

/-- The call after 1024 others raises, and with it the producer that has seen
1025 connections closed at once. -/
theorem backoff_overflows :
    (¬ ∃ delay, reconnectBackoff.Yields evenRng 1024 delay) ∧
      (runProducer outageService (closedAtOnce 1025)).stopped ≠ none := by
  have overflows : ¬ reconnectBackoff.factor ^ 1024 ≤ maxDouble := by
    intro fits
    exact absurd (two_pow_le_maxDouble_iff.mp fits) (by decide)
  constructor
  · rw [Backoff.yields_iff (by decide +kernel) (by decide +kernel)
      (by decide +kernel)]
    exact overflows
  · intro survived
    have begins := closedAtOnce_outage 1025
    have start : History.standing (runProducer outageService []).actions = {} :=
      rfl
    have yields := begins.survives_iff.mp survived 1024
      (by rw [closedAtOnce, List.length_replicate]; decide)
    have schedule : outageService.schedule =
        reconnectBackoff.schedule (fun _ => evenRng) := rfl
    rw [start, schedule, Backoff.returns_schedule_iff (by decide +kernel),
      Nat.zero_add] at yields
    exact overflows yields

end TickStream
