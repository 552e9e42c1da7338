import TickStream.Broker
import TickStream.Library.Registry

/-!
# Creating topics

`ensure_topics` is called by every process that needs a topic, often at the
same time.  It lists the topics of the cluster, which may lag behind, asks for
the missing ones and takes an answer that the topic already exists as a
success.
-/

namespace TickStream

open Python Library

/-- The topics a call is to ensure. -/
def ensuredTopics (settings : Settings) (topics : Option (List String)) :
    List String :=
  topics.getD settings.topics.all

abbrev AdminHistory (γ : Type) := List (RegistryEvent String γ Exc)

/-- A call of `ensure_topics` that sees some of the topics of the cluster. -/
def ensureTopics {γ : Type} (settings : Settings)
    (topics : Option (List String)) (caller : γ) (seen : List String) :
    RegistryEvent String γ Exc :=
  .look caller (ensuredTopics settings topics) seen

/-- What a call has returned, if it has: the topics it reports as created. -/
def ensureReturned {γ : Type} (cluster : Registry String γ Exc)
    (caller : γ) : Option (Result (List String)) :=
  (cluster.calls caller).bind (fun call =>
    collect call.answers call.requested)

section Race

variable {γ : Type} [DecidableEq γ] {existing : List String}
  {history : AdminHistory γ} {caller : γ} {call : Call String Exc}
  {created : List String}

theorem ensureReturned_eq_ok
    (returned : ensureReturned (Registry.run existing history) caller =
      some (.ok created)) :
    ∃ call, (Registry.run existing history).calls caller = some call ∧
      collect call.answers call.requested = some (.ok created) :=
  Option.bind_eq_some_iff.mp returned

/-- A call that returns leaves its topics on the cluster, whoever created
them. -/
private theorem ensured_of_returned
    (calling : (Registry.run existing history).calls caller = some call)
    (collected : collect call.answers call.requested = some (.ok created)) :
    ∀ topic ∈ call.names,
      topic ∈ (Registry.run existing history).registered := by
  have sound := (Registry.run_sound existing history).calls caller call calling
  have answered := (collect_eq_ok collected).1
  intro topic member
  rcases sound.covered topic member with asked | there
  · rcases answered topic asked with made | there
    · exact (sound.created topic made).1
    · exact sound.alreadyExists topic there
  · exact there

/-- However the calls interleave and whatever they see of the cluster: a call
that returns leaves its topics there; a topic is reported by at most one call,
and only if it is new; if every call returns, each new topic is reported. -/
theorem ensure_topics_race (existing : List String)
    (history : AdminHistory γ) :
    let cluster := Registry.run existing history
    (∀ caller call created, cluster.calls caller = some call →
      ensureReturned cluster caller = some (.ok created) →
      (∀ topic ∈ call.names, topic ∈ cluster.registered) ∧
      ∀ topic ∈ created, topic ∉ existing ∧
        ∀ other reported, ensureReturned cluster other = some (.ok reported) →
          topic ∈ reported → other = caller) ∧
    ((∀ caller, (cluster.calls caller).isSome = true →
        ∃ created, ensureReturned cluster caller = some (.ok created)) →
      ∀ topic ∈ cluster.registered, topic ∉ existing →
        ∃ caller created, ensureReturned cluster caller =
          some (.ok created) ∧ topic ∈ created) := by
  intro cluster
  have sound : cluster.Sound existing := Registry.run_sound existing history
  constructor
  · intro caller call created calling returned
    obtain ⟨same, found, collected⟩ := ensureReturned_eq_ok returned
    change cluster.calls caller = some same at found
    rw [calling, Option.some.injEq] at found
    subst found
    refine ⟨ensured_of_returned calling collected, ?_⟩
    intro topic member
    obtain ⟨_, made⟩ := ((collect_eq_ok collected).2 topic).mp member
    refine ⟨((sound.calls caller call calling).created topic made).2.1, ?_⟩
    intro other reported returnedOther memberOther
    obtain ⟨callOther, callingOther, collectedOther⟩ :=
      ensureReturned_eq_ok returnedOther
    obtain ⟨_, madeOther⟩ :=
      ((collect_eq_ok collectedOther).2 topic).mp memberOther
    exact sound.once other caller callOther call topic callingOther calling
      madeOther made
  · intro all topic member new
    obtain ⟨caller, call, calling, asked, answered⟩ :=
      sound.accounted topic member new
    obtain ⟨created, returned⟩ := all caller (by rw [calling]; rfl)
    obtain ⟨same, found, collected⟩ := ensureReturned_eq_ok returned
    change cluster.calls caller = some same at found
    rw [calling, Option.some.injEq] at found
    subst found
    refine ⟨caller, created, returned, ?_⟩
    obtain ⟨fine, mine⟩ := collect_eq_ok collected
    rcases answered with made | ⟨failure, failed⟩
    · exact (mine topic).mpr ⟨asked, made⟩
    · rcases fine topic asked with made | there
      · rw [failed] at made
        cases made
      · rw [failed] at there
        cases there

/-- Two calls look before either has created anything. -/
def racingCalls : AdminHistory Bool :=
  [ensureTopics sampleSettings (some ["trades.raw", "ticker.raw"]) true [],
    ensureTopics sampleSettings (some ["ticker.raw", "trades.raw"]) false [],
    .handle true "trades.raw" .handled, .handle false "ticker.raw" .handled,
    .handle false "trades.raw" .handled, .handle true "ticker.raw" .handled]

theorem ensure_topics_race_sample :
    ensureReturned (Registry.run [] racingCalls) true =
        some (.ok ["trades.raw"]) ∧
    ensureReturned (Registry.run [] racingCalls) false =
        some (.ok ["ticker.raw"]) ∧
    ∀ other reported, ensureReturned (Registry.run [] racingCalls) other =
      some (.ok reported) → "trades.raw" ∈ reported → other = true := by
  have first : ensureReturned (Registry.run [] racingCalls) true =
      some (.ok ["trades.raw"]) := by
    rfl
  have second : ensureReturned (Registry.run [] racingCalls) false =
      some (.ok ["ticker.raw"]) := by
    rfl
  obtain ⟨call, calling, _⟩ := ensureReturned_eq_ok first
  obtain ⟨_, once⟩ := (ensure_topics_race [] racingCalls).1 true call _
    calling first
  exact ⟨first, second, (once "trades.raw" (by simp)).2⟩

end Race

end TickStream
