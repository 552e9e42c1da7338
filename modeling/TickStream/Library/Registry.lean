import Mathlib.Data.List.Induction
import Mathlib.Logic.Function.Basic

/-!
# Creating names concurrently

Callers look up which names a registry has, request the ones they miss and
collect the answers.  Requests of different callers are handled in any order, a
lookup may be out of date, and an answer may be an error or get lost after the
request took effect.  Names are never removed.
-/

namespace TickStream.Library

inductive Answer (ε : Type) where
  | created
  | alreadyExists
  | failed (failure : ε)

/-- How the registry handles a request. -/
inductive Handling (ε : Type) where
  | handled
  | refused (failure : ε)
  | answerLost (failure : ε)

/-- One call: the names it is to ensure, those it requests, the answers. -/
structure Call (ν ε : Type) where
  names : List ν
  requested : List ν
  answers : ν → Option (Answer ε)

/-- A caller looks up the registry and sees a part of it; one of its requests
is handled. -/
inductive RegistryEvent (ν γ ε : Type) where
  | look (caller : γ) (names : List ν) (seen : List ν)
  | handle (caller : γ) (name : ν) (handling : Handling ε)

structure Registry (ν γ ε : Type) where
  registered : List ν
  calls : γ → Option (Call ν ε)

/-- What a call returns, once the answers it waits for are there. -/
def collect {ν ε : Type} (answers : ν → Option (Answer ε)) :
    List ν → Option (Except ε (List ν))
  | [] => some (.ok [])
  | name :: rest =>
      match answers name with
      | none => none
      | some (.failed failure) => some (.error failure)
      | some .alreadyExists => collect answers rest
      | some .created =>
          (collect answers rest).map (Except.map (fun names => name :: names))

/-- A call that returns got an answer other than a failure to every request,
and returns the names it created. -/
theorem collect_eq_ok {ν ε : Type} {answers : ν → Option (Answer ε)}
    {requested created : List ν}
    (returned : collect answers requested = some (.ok created)) :
    (∀ name ∈ requested, answers name = some .created ∨
      answers name = some .alreadyExists) ∧
    ∀ name, name ∈ created ↔
      name ∈ requested ∧ answers name = some .created := by
  induction requested generalizing created with
  | nil =>
      cases returned
      simp
  | cons name rest induction =>
      simp only [collect] at returned
      split at returned
      · cases returned
      · cases returned
      · rename_i there
        obtain ⟨answered, mine⟩ := induction returned
        refine ⟨?_, ?_⟩
        · intro other member
          rcases List.mem_cons.mp member with rfl | later
          · exact Or.inr there
          · exact answered other later
        · intro other
          rw [mine, List.mem_cons]
          constructor
          · exact fun ⟨later, made⟩ => ⟨Or.inr later, made⟩
          · rintro ⟨rfl | later, made⟩
            · rw [there] at made
              cases made
            · exact ⟨later, made⟩
      · rename_i made
        obtain ⟨tail, collected, same⟩ := Option.map_eq_some_iff.mp returned
        cases tail with
        | error failure => cases same
        | ok others =>
            cases same
            obtain ⟨answered, mine⟩ := induction collected
            refine ⟨?_, ?_⟩
            · intro other member
              rcases List.mem_cons.mp member with rfl | later
              · exact Or.inl made
              · exact answered other later
            · intro other
              rw [List.mem_cons, List.mem_cons, mine]
              constructor
              · rintro (rfl | ⟨later, alsoMade⟩)
                · exact ⟨Or.inl rfl, made⟩
                · exact ⟨Or.inr later, alsoMade⟩
              · rintro ⟨rfl | later, alsoMade⟩
                · exact Or.inl rfl
                · exact Or.inr ⟨later, alsoMade⟩

namespace Call

variable {ν ε : Type} [DecidableEq ν]

def answer (call : Call ν ε) (name : ν) (given : Answer ε) : Call ν ε :=
  { call with answers := Function.update call.answers name (some given) }

@[simp] theorem answer_self (call : Call ν ε) (name : ν) (given : Answer ε) :
    (call.answer name given).answers name = some given :=
  Function.update_self _ _ _

theorem answer_other (call : Call ν ε) {name other : ν} (given : Answer ε)
    (apart : other ≠ name) :
    (call.answer name given).answers other = call.answers other :=
  Function.update_of_ne apart _ _

end Call

namespace Registry

variable {ν γ ε : Type} [DecidableEq ν] [DecidableEq γ]

def handle (registry : Registry ν γ ε) (caller : γ) (call : Call ν ε)
    (name : ν) (answer : Answer ε) : Registry ν γ ε :=
  { registry with
    calls := Function.update registry.calls caller
      (some (call.answer name answer)) }

/-- Register a name unless it is there. -/
def register (registry : Registry ν γ ε) (name : ν) : Registry ν γ ε :=
  if name ∈ registry.registered then registry
  else { registry with registered := registry.registered ++ [name] }

/-- A caller makes one call; a request is handled once. -/
def step (registry : Registry ν γ ε) :
    RegistryEvent ν γ ε → Registry ν γ ε
  | .look caller names seen =>
      match registry.calls caller with
      | some _ => registry
      | none =>
          { registry with
            calls := Function.update registry.calls caller
              (some
                { names := names
                  requested := names.filter (fun name =>
                    name ∉ registry.registered ∨ name ∉ seen)
                  answers := fun _ => none }) }
  | .handle caller name handling =>
      match registry.calls caller with
      | none => registry
      | some call =>
          if name ∈ call.requested ∧ (call.answers name).isNone then
            match handling with
            | .refused failure => registry.handle caller call name
                (.failed failure)
            | .answerLost failure =>
                (registry.register name).handle caller call name
                  (.failed failure)
            | .handled =>
                if name ∈ registry.registered then
                  registry.handle caller call name .alreadyExists
                else
                  (registry.register name).handle caller call name .created
          else registry

def run (initial : List ν) (history : List (RegistryEvent ν γ ε)) :
    Registry ν γ ε :=
  history.foldl step ⟨initial, fun _ => none⟩

/-- What one call knows of the registry. -/
structure CallSound (initial registered : List ν) (call : Call ν ε) :
    Prop where
  covered : ∀ name ∈ call.names,
    name ∈ call.requested ∨ name ∈ registered
  created : ∀ name, call.answers name = some .created →
    name ∈ registered ∧ name ∉ initial ∧ name ∈ call.requested
  alreadyExists : ∀ name, call.answers name = some .alreadyExists →
    name ∈ registered

/-- What holds whatever the callers do. -/
structure Sound (initial : List ν) (registry : Registry ν γ ε) : Prop where
  kept : ∀ name ∈ initial, name ∈ registry.registered
  calls : ∀ caller call, registry.calls caller = some call →
    CallSound initial registry.registered call
  once : ∀ first second callFirst callSecond name,
    registry.calls first = some callFirst →
    registry.calls second = some callSecond →
    callFirst.answers name = some .created →
    callSecond.answers name = some .created → first = second
  accounted : ∀ name ∈ registry.registered, name ∉ initial →
    ∃ caller call, registry.calls caller = some call ∧
      name ∈ call.requested ∧ (call.answers name = some .created ∨
        ∃ failure, call.answers name = some (.failed failure))

variable {initial registered : List ν} {registry : Registry ν γ ε}
  {caller : γ} {call : Call ν ε} {name : ν}

omit [DecidableEq ν] [DecidableEq γ] in
theorem CallSound.grow {larger : List ν}
    (sound : CallSound initial registered call)
    (subset : ∀ name ∈ registered, name ∈ larger) :
    CallSound initial larger call where
  covered := fun name member =>
    (sound.covered name member).imp id (subset name)
  created := fun name made =>
    ⟨subset name (sound.created name made).1, (sound.created name made).2⟩
  alreadyExists := fun name there => subset name (sound.alreadyExists name there)

/-- An answer fits when it says what the registry did. -/
structure Fits (before after : List ν) (name : ν) (answer : Answer ε) :
    Prop where
  grows : ∀ other ∈ before, other ∈ after
  added : ∀ other ∈ after, other ∉ before → other = name ∧
    (answer = .created ∨ ∃ failure, answer = .failed failure)
  created : answer = .created → name ∉ before ∧ name ∈ after
  alreadyExists : answer = .alreadyExists → name ∈ after

/-- A fitting answer to an open request keeps the registry sound. -/
theorem Sound.answer (sound : registry.Sound initial)
    (calling : registry.calls caller = some call)
    (requested : name ∈ call.requested) (waiting : call.answers name = none)
    {after : List ν} {answer : Answer ε}
    (fits : Fits registry.registered after name answer) :
    Sound initial (({ registry with registered := after } :
      Registry ν γ ε).handle caller call name answer) := by
  have own := sound.calls caller call calling
  have found : ∀ other found, (({ registry with registered := after } :
      Registry ν γ ε).handle caller call name answer).calls other =
        some found →
      (other = caller ∧ found = call.answer name answer) ∨
      (other ≠ caller ∧ registry.calls other = some found) := by
    intro other found calls
    by_cases same : other = caller
    · subst same
      simp only [handle, Function.update_self, Option.some.injEq] at calls
      exact Or.inl ⟨rfl, calls.symm⟩
    · simp only [handle, Function.update_of_ne same] at calls
      exact Or.inr ⟨same, calls⟩
  have fresh : answer = .created → ∀ other found,
      registry.calls other = some found →
      found.answers name ≠ some .created := by
    intro made other found calls earlier
    exact (fits.created made).1
      ((sound.calls other found calls).created name earlier).1
  refine ⟨?_, ?_, ?_, ?_⟩
  · intro other member
    exact fits.grows other (sound.kept other member)
  · intro other foundCall calls
    rcases found other foundCall calls with ⟨rfl, rfl⟩ | ⟨_, before⟩
    · refine ⟨(own.grow fits.grows).covered, ?_, ?_⟩
      · intro asked made
        by_cases same : asked = name
        · subst same
          simp only [Call.answer_self, Option.some.injEq] at made
          refine ⟨(fits.created made).2, ?_, requested⟩
          intro old
          exact (fits.created made).1 (sound.kept asked old)
        · rw [Call.answer_other _ _ same] at made
          exact (own.grow fits.grows).created asked made
      · intro asked there
        by_cases same : asked = name
        · subst same
          simp only [Call.answer_self, Option.some.injEq] at there
          exact fits.alreadyExists there
        · rw [Call.answer_other _ _ same] at there
          exact (own.grow fits.grows).alreadyExists asked there
    · exact (sound.calls other foundCall before).grow fits.grows
  · intro first second callFirst callSecond asked callsFirst callsSecond
      madeFirst madeSecond
    rcases found first callFirst callsFirst with
        ⟨firstIs, rfl⟩ | ⟨_, beforeFirst⟩ <;>
      rcases found second callSecond callsSecond with
        ⟨secondIs, rfl⟩ | ⟨_, beforeSecond⟩
    · rw [firstIs, secondIs]
    · by_cases same : asked = name
      · subst same
        simp only [Call.answer_self, Option.some.injEq] at madeFirst
        exact absurd madeSecond (fresh madeFirst second _ beforeSecond)
      · rw [Call.answer_other _ _ same] at madeFirst
        rw [firstIs]
        exact sound.once caller second call callSecond asked calling
          beforeSecond madeFirst madeSecond
    · by_cases same : asked = name
      · subst same
        simp only [Call.answer_self, Option.some.injEq] at madeSecond
        exact absurd madeFirst (fresh madeSecond first _ beforeFirst)
      · rw [Call.answer_other _ _ same] at madeSecond
        rw [secondIs]
        exact sound.once first caller callFirst call asked beforeFirst
          calling madeFirst madeSecond
    · exact sound.once first second callFirst callSecond asked beforeFirst
        beforeSecond madeFirst madeSecond
  · intro other member new
    have mine : (({ registry with registered := after } :
        Registry ν γ ε).handle caller call name answer).calls caller =
          some (call.answer name answer) := by
      simp [handle]
    by_cases old : other ∈ registry.registered
    · obtain ⟨maker, made, calls, asked, answered⟩ :=
        sound.accounted other old new
      by_cases same : maker = caller
      · subst same
        rw [calling, Option.some.injEq] at calls
        subst calls
        have apart : other ≠ name := by
          intro same
          subst same
          rw [waiting] at answered
          simp at answered
        refine ⟨maker, _, mine, asked, ?_⟩
        rw [Call.answer_other _ _ apart]
        exact answered
      · refine ⟨maker, made, ?_, asked, answered⟩
        simp only [handle, Function.update_of_ne same]
        exact calls
    · obtain ⟨rfl, answered⟩ := fits.added other member old
      refine ⟨caller, _, mine, requested, ?_⟩
      simp only [Call.answer_self, Option.some.injEq]
      exact answered

omit [DecidableEq γ] in
theorem register_eq (registry : Registry ν γ ε) (name : ν) :
    registry.register name =
      { registry with
        registered := (registry.register name).registered } := by
  simp only [register]
  split_ifs <;> rfl

omit [DecidableEq γ] in
theorem register_fits {answer : Answer ε} (registry : Registry ν γ ε)
    (name : ν)
    (told : (answer = .created ∧ name ∉ registry.registered) ∨
      ∃ failure, answer = .failed failure) :
    Fits registry.registered (registry.register name).registered name
      answer := by
  simp only [register]
  by_cases there : name ∈ registry.registered
  · rw [if_pos there]
    refine ⟨fun _ member => member, ?_, ?_, fun _ => there⟩
    · intro other member new
      exact absurd member new
    · intro made
      rcases told with ⟨_, new⟩ | ⟨failure, failed⟩
      · exact absurd there new
      · rw [failed] at made
        cases made
  · rw [if_neg there]
    refine ⟨fun _ member => List.mem_append_left _ member, ?_, ?_, ?_⟩
    · intro other member new
      rcases List.mem_append.mp member with old | last
      · exact absurd old new
      · exact ⟨List.mem_singleton.mp last,
          told.imp And.left id⟩
    · exact fun _ => ⟨there, by simp⟩
    · exact fun _ => by simp

theorem Sound.step (sound : registry.Sound initial)
    (event : RegistryEvent ν γ ε) : (registry.step event).Sound initial := by
  cases event with
  | look caller names seen =>
      simp only [Registry.step]
      cases calls : registry.calls caller with
      | some call => exact sound
      | none =>
          have others : ∀ other call, Function.update registry.calls caller
              (some
                { names := names
                  requested := names.filter (fun name =>
                    name ∉ registry.registered ∨ name ∉ seen)
                  answers := fun _ => none }) other = some call →
              (∀ name, call.answers name = none) ∨
                registry.calls other = some call := by
            intro other call found
            by_cases same : other = caller
            · subst same
              rw [Function.update_self, Option.some.injEq] at found
              subst found
              exact Or.inl (fun _ => rfl)
            · rw [Function.update_of_ne same] at found
              exact Or.inr found
          refine ⟨sound.kept, ?_, ?_, ?_⟩
          · intro other call found
            by_cases same : other = caller
            · subst same
              simp only [Function.update_self, Option.some.injEq] at found
              subst found
              refine ⟨?_, by simp, by simp⟩
              intro name member
              by_cases known : name ∈ registry.registered
              · exact Or.inr known
              · exact Or.inl (List.mem_filter.mpr ⟨member, by simp [known]⟩)
            · simp only [Function.update_of_ne same] at found
              exact sound.calls other call found
          · intro first second callFirst callSecond name foundFirst
              foundSecond madeFirst madeSecond
            rcases others first callFirst foundFirst with none | before
            · rw [none] at madeFirst
              cases madeFirst
            rcases others second callSecond foundSecond with none | beforeToo
            · rw [none] at madeSecond
              cases madeSecond
            exact sound.once first second callFirst callSecond name before
              beforeToo madeFirst madeSecond
          · intro name member new
            obtain ⟨maker, made, found, rest⟩ :=
              sound.accounted name member new
            refine ⟨maker, made, ?_, rest⟩
            have apart : maker ≠ caller := by
              intro same
              rw [same, calls] at found
              cases found
            simp only [Function.update_of_ne apart]
            exact found
  | handle caller name handling =>
      simp only [Registry.step]
      cases calls : registry.calls caller with
      | none => exact sound
      | some call =>
          dsimp only
          by_cases waits : name ∈ call.requested ∧
              (call.answers name).isNone = true
          · rw [if_pos waits]
            obtain ⟨requested, waiting⟩ := waits
            rw [Option.isNone_iff_eq_none] at waiting
            cases handling with
            | refused failure =>
                apply sound.answer calls requested waiting
                refine ⟨fun _ member => member, ?_, ?_, ?_⟩
                · intro other member new
                  exact absurd member new
                · intro made
                  cases made
                · intro there
                  cases there
            | answerLost failure =>
                rw [register_eq]
                exact sound.answer calls requested waiting
                  (registry.register_fits name (Or.inr ⟨failure, rfl⟩))
            | handled =>
                dsimp only
                by_cases there : name ∈ registry.registered
                · rw [if_pos there]
                  apply sound.answer calls requested waiting
                  refine ⟨fun _ member => member, ?_, ?_, fun _ => there⟩
                  · intro other member new
                    exact absurd member new
                  · intro made
                    cases made
                · rw [if_neg there, register_eq]
                  exact sound.answer calls requested waiting
                    (registry.register_fits name (Or.inl ⟨rfl, there⟩))
          · rw [if_neg waits]
            exact sound

theorem run_sound (initial : List ν) (history : List (RegistryEvent ν γ ε)) :
    (run initial history).Sound initial := by
  induction history using List.reverseRecOn with
  | nil =>
      refine ⟨fun _ member => member, ?_, ?_, ?_⟩
      · intro caller call calling
        cases calling
      · intro first second callFirst callSecond name calling
        cases calling
      · intro name member new
        exact absurd member new
  | append_singleton history event induction =>
      simp only [run, List.foldl_append, List.foldl_cons, List.foldl_nil]
      exact induction.step event

end Registry

end TickStream.Library
