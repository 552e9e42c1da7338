import Mathlib.Algebra.Order.Ring.Int
import TickStream.Library.KeyedFold

/-!
# Tumbling windows closed by a per-key watermark

The machine keeps, for each key, the largest time seen and the windows still
open.  A message whose window has already expired is dropped; any other
message is folded into its window; then the windows of its key that have
expired are emitted and deleted.

`run_tracks` relates every run to a batch description: the stored windows are
the unexpired groups of the messages that were on time, and the emitted
windows are, up to order, the expired ones.
-/

namespace TickStream.Library

/-- A windowed aggregation.  `expiry` sends the start of a window to the
watermark at which the window expires. -/
structure WindowedFold (α κ β : Type) where
  key : α → κ
  time : α → Int
  start : α → Int
  expiry : Int → Int
  init : β
  step : β → α → β

namespace WindowedFold

/-- Largest time seen for each key, and the windows still open. -/
structure State (κ β : Type) where
  latest : Dict κ Int
  windows : Dict (κ × Int) β

def State.initial {κ β : Type} : State κ β := ⟨Dict.empty, Dict.empty⟩

variable {α κ β : Type} [DecidableEq κ] (spec : WindowedFold α κ β)

/-- The window of a message, qualified by its key. -/
def window (message : α) : κ × Int := (spec.key message, spec.start message)

/-- The watermark of the message's key once the message has been seen. -/
def watermark (state : State κ β) (message : α) : Int :=
  match state.latest.get? (spec.key message) with
  | none => spec.time message
  | some seen => max seen (spec.time message)

/-- Process one message; the second component is what it emits. -/
def receive (state : State κ β) (message : α) :
    State κ β × List ((κ × Int) × β) :=
  let mark := spec.watermark state message
  let folded :=
    if spec.expiry (spec.start message) ≤ mark then state.windows
    else
      state.windows.alter (spec.window message)
        (fun bound => spec.step (bound.getD spec.init) message)
  let expires := fun window : κ × Int =>
    decide (window.1 = spec.key message ∧ spec.expiry window.2 ≤ mark)
  ({ latest := state.latest.alter (spec.key message) (fun _ => mark)
     windows := folded.filter (fun window => !expires window) },
    (folded.filter expires).entries)

/-- Process the messages in order, collecting what is emitted. -/
def run (messages : List α) : State κ β × List ((κ × Int) × β) :=
  messages.foldl
    (fun outcome message =>
      let next := spec.receive outcome.1 message
      (next.1, outcome.2 ++ next.2))
    (State.initial, [])

theorem run_concat (messages : List α) (message : α) :
    spec.run (messages ++ [message]) =
      ((spec.receive (spec.run messages).1 message).1,
        (spec.run messages).2 ++
          (spec.receive (spec.run messages).1 message).2) := by
  simp [run]

/-- Some message seen so far has carried the watermark past the window. -/
def expired (messages : List α) (window : κ × Int) : Bool :=
  messages.any (fun seen =>
    decide (spec.key seen = window.1 ∧ spec.expiry window.2 ≤ spec.time seen))

theorem expired_iff {messages : List α} {window : κ × Int} :
    spec.expired messages window = true ↔
      ∃ seen ∈ messages, spec.key seen = window.1 ∧
        spec.expiry window.2 ≤ spec.time seen := by
  simp [expired]

theorem expired_append (left right : List α) (window : κ × Int) :
    spec.expired (left ++ right) window =
      (spec.expired left window || spec.expired right window) := by
  simp [expired]

/-- Late on arrival: the watermark, this message included, has already passed
the message's window. -/
def late (earlier : List α) (message : α) : Bool :=
  spec.expired (earlier ++ [message]) (spec.window message)

def onTimeAfter : List α → List α → List α
  | _, [] => []
  | earlier, message :: rest =>
      if spec.late earlier message then onTimeAfter (earlier ++ [message]) rest
      else message :: onTimeAfter (earlier ++ [message]) rest

/-- The messages that are not late on arrival, in order. -/
def onTime (messages : List α) : List α := spec.onTimeAfter [] messages

theorem onTimeAfter_append (earlier left right : List α) :
    spec.onTimeAfter earlier (left ++ right) =
      spec.onTimeAfter earlier left ++
        spec.onTimeAfter (earlier ++ left) right := by
  induction left generalizing earlier with
  | nil => simp [onTimeAfter]
  | cons message rest induction =>
      by_cases late : spec.late earlier message = true
      · simp [onTimeAfter, late, induction]
      · simp [onTimeAfter, late, induction]

theorem onTime_concat (messages : List α) (message : α) :
    spec.onTime (messages ++ [message]) =
      spec.onTime messages ++
        if spec.late messages message then [] else [message] := by
  simp only [onTime]
  rw [onTimeAfter_append]
  simp [onTimeAfter]

theorem onTime_sublist (messages : List α) :
    (spec.onTime messages).Sublist messages := by
  induction messages using List.reverseRecOn with
  | nil => exact List.Sublist.refl _
  | append_singleton messages message induction =>
      rw [onTime_concat]
      by_cases late : spec.late messages message = true
      · rw [if_pos late, List.append_nil]
        exact induction.trans (List.sublist_append_left _ _)
      · rw [if_neg late]
        exact induction.append (List.Sublist.refl _)

/-- A message that is on time finds its window open. -/
theorem open_of_mem_onTimeAfter {earlier rest : List α} {message : α}
    (member : message ∈ spec.onTimeAfter earlier rest) :
    spec.expired earlier (spec.window message) = false := by
  induction rest generalizing earlier with
  | nil => simp [onTimeAfter] at member
  | cons next rest induction =>
      have later (tail : message ∈ spec.onTimeAfter (earlier ++ [next]) rest) :
          spec.expired earlier (spec.window message) = false := by
        have still := induction tail
        rw [expired_append, Bool.or_eq_false_iff] at still
        exact still.1
      by_cases late : spec.late earlier next = true
      · simp only [onTimeAfter, late, if_true] at member
        exact later member
      · simp only [onTimeAfter, late] at member
        rcases List.mem_cons.mp member with rfl | tail
        · rw [WindowedFold.late, expired_append, Bool.or_eq_true, not_or] at late
          simpa using late.1
        · exact later tail

/-- Nothing is dropped exactly when no message is late. -/
theorem onTime_eq_self_iff {messages : List α} :
    spec.onTime messages = messages ↔
      ∀ before message after,
        messages = before ++ message :: after →
          spec.late before message = false := by
  induction messages using List.reverseRecOn with
  | nil => simp [onTime, onTimeAfter]
  | append_singleton messages message induction =>
      rw [onTime_concat]
      constructor
      · intro kept before inner after split
        have lastOnTime : spec.late messages message = false := by
          by_contra late
          rw [Bool.not_eq_false] at late
          rw [if_pos late, List.append_nil] at kept
          have shorter := (spec.onTime_sublist messages).length_le
          rw [kept, List.length_append, List.length_singleton] at shorter
          omega
        rw [lastOnTime] at kept
        have earlierKept := List.append_cancel_right kept
        rcases List.eq_nil_or_concat after with rfl | ⟨rest, last, rfl⟩
        · obtain ⟨rfl, sameLast⟩ := List.append_inj' split rfl
          cases sameLast
          exact lastOnTime
        · have regrouped : messages ++ [message] =
              (before ++ inner :: rest) ++ [last] := by
            simpa using split
          obtain ⟨sameEarlier, _⟩ := List.append_inj' regrouped rfl
          exact induction.mp earlierKept before inner rest sameEarlier
      · intro noneLate
        have earlierKept := induction.mpr (by
          intro before inner after split
          exact noneLate before inner (after ++ [message]) (by simp [split]))
        rw [earlierKept, noneLate messages message [] rfl]
        simp

theorem onTime_of_append {left right : List α}
    (kept : spec.onTime (left ++ right) = left ++ right) :
    spec.onTime left = left := by
  rw [onTime_eq_self_iff] at kept ⊢
  intro before message after split
  exact kept before message (after ++ right) (by simp [split])

def groups (messages : List α) : Dict (κ × Int) β :=
  foldKeyed spec.window spec.step spec.init messages

/-- The invariant of a run over `messages`. -/
structure Tracks (messages : List α) (state : State κ β)
    (emitted : List ((κ × Int) × β)) : Prop where
  latest : ∀ key bound,
    (∃ seen, state.latest.get? key = some seen ∧ bound ≤ seen) ↔
      ∃ message ∈ messages, spec.key message = key ∧ bound ≤ spec.time message
  windows : state.windows =
    (spec.groups (spec.onTime messages)).filter
      (fun window => !spec.expired messages window)
  emitted : emitted.Perm
    ((spec.groups (spec.onTime messages)).filter
      (spec.expired messages)).entries

theorem tracks_initial :
    spec.Tracks [] State.initial [] := by
  refine ⟨?_, ?_, ?_⟩
  · intro key bound
    simp [State.initial]
  · apply Dict.eq_of_entries
    rfl
  · exact List.Perm.refl _

/-- The watermark reaches what the stored maximum or the message reaches. -/
theorem le_watermark_iff (state : State κ β) (message : α) (bound : Int) :
    bound ≤ spec.watermark state message ↔
      (∃ seen, state.latest.get? (spec.key message) = some seen ∧
        bound ≤ seen) ∨
      bound ≤ spec.time message := by
  simp only [watermark]
  cases state.latest.get? (spec.key message) with
  | none => simp
  | some seen => simp

variable {spec} {messages : List α} {state : State κ β}
  {emitted : List ((κ × Int) × β)}

/-- The stored maximum is the watermark of the messages seen. -/
theorem Tracks.le_watermark_iff (tracks : spec.Tracks messages state emitted)
    (message : α) (bound : Int) :
    bound ≤ spec.watermark state message ↔
      ∃ seen ∈ messages ++ [message],
        spec.key seen = spec.key message ∧ bound ≤ spec.time seen := by
  rw [spec.le_watermark_iff, tracks.latest]
  simp only [List.mem_append, List.mem_singleton, or_and_right, exists_or,
    exists_eq_left, true_and]

theorem Tracks.expires_iff (tracks : spec.Tracks messages state emitted)
    (message : α) (window : κ × Int) :
    (window.1 = spec.key message ∧
        spec.expiry window.2 ≤ spec.watermark state message) ↔
      window.1 = spec.key message ∧
        spec.expired (messages ++ [message]) window = true := by
  refine and_congr_right (fun sameKey => ?_)
  rw [tracks.le_watermark_iff, expired_iff, sameKey]

/-- A window expires now or had expired before. -/
theorem Tracks.expired_concat (tracks : spec.Tracks messages state emitted)
    (message : α) (window : κ × Int) :
    spec.expired (messages ++ [message]) window =
      (spec.expired messages window ||
        decide (window.1 = spec.key message ∧
          spec.expiry window.2 ≤ spec.watermark state message)) := by
  rw [Bool.eq_iff_iff, Bool.or_eq_true, decide_eq_true_iff,
    tracks.expires_iff, expired_append, Bool.or_eq_true]
  by_cases sameKey : window.1 = spec.key message
  · simp [sameKey]
  · have reverse : spec.key message ≠ window.1 := Ne.symm sameKey
    simp [expired, sameKey, reverse]

/-- The windows after folding the message in, before any is closed. -/
theorem Tracks.folded_eq (tracks : spec.Tracks messages state emitted)
    (message : α) :
    (if spec.expiry (spec.start message) ≤ spec.watermark state message then
        state.windows
      else
        state.windows.alter (spec.window message)
          (fun bound => spec.step (bound.getD spec.init) message)) =
      (spec.groups (spec.onTime (messages ++ [message]))).filter
        (fun window => !spec.expired messages window) := by
  have lateIff : spec.expiry (spec.start message) ≤
      spec.watermark state message ↔ spec.late messages message = true := by
    have expires := tracks.expires_iff message (spec.window message)
    simpa [window, late] using expires
  rw [onTime_concat, tracks.windows]
  by_cases late : spec.late messages message = true
  · rw [if_pos (lateIff.mpr late), if_pos late, List.append_nil]
  · rw [if_neg (fun reached => late (lateIff.mp reached)), if_neg late]
    have open' : spec.expired messages (spec.window message) = false := by
      rw [WindowedFold.late, expired_append, Bool.or_eq_true, not_or] at late
      simpa using late.1
    simp only [groups]
    rw [foldKeyed_concat, Dict.filter_alter_of_kept]
    simp [open']

/-- The windows closed before are not touched by the message. -/
theorem Tracks.closed_eq (message : α) :
    (spec.groups (spec.onTime (messages ++ [message]))).filter
        (spec.expired messages) =
      (spec.groups (spec.onTime messages)).filter
        (spec.expired messages) := by
  rw [onTime_concat]
  by_cases late : spec.late messages message = true
  · rw [if_pos late, List.append_nil]
  · rw [if_neg late]
    simp only [groups]
    rw [foldKeyed_concat, Dict.filter_alter_of_dropped]
    rw [WindowedFold.late, expired_append, Bool.or_eq_true, not_or] at late
    simpa using late.1

/-- One message preserves the invariant. -/
theorem Tracks.receive (tracks : spec.Tracks messages state emitted)
    (message : α) :
    spec.Tracks (messages ++ [message]) (spec.receive state message).1
      (emitted ++ (spec.receive state message).2) := by
  let groups' := spec.groups (spec.onTime (messages ++ [message]))
  let expires := fun window : κ × Int =>
    decide (window.1 = spec.key message ∧
      spec.expiry window.2 ≤ spec.watermark state message)
  have expiredNow : ∀ window, spec.expired (messages ++ [message]) window =
      (spec.expired messages window || expires window) :=
    tracks.expired_concat message
  refine ⟨?_, ?_, ?_⟩
  · intro key bound
    have raised := state.latest.reaches_alter_iff (spec.key message)
      (fun _ => spec.watermark state message) (spec.time message)
      (spec.le_watermark_iff state message) key bound
    rw [tracks.latest] at raised
    simp only [List.mem_append, List.mem_singleton, or_and_right, exists_or,
      exists_eq_left]
    exact raised
  · change Dict.filter _ (fun window => !expires window) = groups'.filter _
    rw [tracks.folded_eq, Dict.filter_filter]
    congr 1
    funext window
    rw [expiredNow, Bool.not_or]
  · change (emitted ++ (Dict.filter _ expires).entries).Perm
      (groups'.filter _).entries
    rw [tracks.folded_eq, Dict.filter_filter]
    have before : emitted.Perm
        (groups'.filter (spec.expired messages)).entries := by
      rw [Tracks.closed_eq]
      exact tracks.emitted
    have split := (groups'.filter
      (spec.expired (messages ++ [message]))).filter_append_perm
        (spec.expired messages)
    rw [Dict.filter_filter, Dict.filter_filter] at split
    have old : (fun window => spec.expired (messages ++ [message]) window &&
        spec.expired messages window) = spec.expired messages := by
      funext window
      rw [expiredNow]
      cases spec.expired messages window <;> simp
    have new : (fun window => spec.expired (messages ++ [message]) window &&
        !spec.expired messages window) =
          fun window => !spec.expired messages window && expires window := by
      funext window
      rw [expiredNow]
      cases spec.expired messages window <;> simp
    rw [old, new] at split
    exact (before.append_right _).trans split

variable (spec)

theorem run_tracks (messages : List α) :
    spec.Tracks messages (spec.run messages).1 (spec.run messages).2 := by
  induction messages using List.reverseRecOn with
  | nil => exact spec.tracks_initial
  | append_singleton messages message induction =>
      rw [run_concat]
      exact induction.receive message

/-- A run emits, up to order, the expired groups of the on-time messages. -/
theorem run_emitted_perm (messages : List α) :
    (spec.run messages).2.Perm
      ((spec.groups (spec.onTime messages)).filter
        (spec.expired messages)).entries :=
  (spec.run_tracks messages).emitted

section Relabel

variable {γ β' : Type} (spec' : WindowedFold γ κ β') (view : γ → α)

/-- The fold on messages that are seen through `view`. -/
def relabel : WindowedFold γ κ β where
  key := fun item => spec.key (view item)
  time := fun item => spec.time (view item)
  start := fun item => spec.start (view item)
  expiry := spec.expiry
  init := spec.init
  step := fun agg item => spec.step agg (view item)

theorem run_relabel (items : List γ) :
    (spec.relabel view).run items = spec.run (items.map view) := by
  simp only [run, List.foldl_map]
  rfl

/-- The two folds window their messages alike. -/
structure SameWindows : Prop where
  key : ∀ item, spec'.key item = spec.key (view item)
  time : ∀ item, spec'.time item = spec.time (view item)
  start : ∀ item, spec'.start item = spec.start (view item)
  expiry : spec'.expiry = spec.expiry

variable {spec spec' view}

theorem SameWindows.expired_map (same : SameWindows spec spec' view)
    (items : List γ) (window : κ × Int) :
    spec.expired (items.map view) window = spec'.expired items window := by
  simp only [expired, List.any_map, Function.comp_def, same.key, same.time,
    same.expiry]

theorem SameWindows.onTime_map (same : SameWindows spec spec' view)
    (items : List γ) :
    spec.onTime (items.map view) = (spec'.onTime items).map view := by
  induction items using List.reverseRecOn with
  | nil => rfl
  | append_singleton items item induction =>
      have lateAlike : spec.late (items.map view) (view item) =
          spec'.late items item := by
        have relabelled := same.expired_map (items ++ [item])
          (spec'.window item)
        simpa [late, window, same.key, same.start] using relabelled
      rw [List.map_append, List.map_singleton, onTime_concat, onTime_concat,
        induction, lateAlike]
      by_cases late : spec'.late items item = true
      · simp [late]
      · simp [late]

end Relabel

section Clocks

/-- The two folds put the messages in the same windows, and their clocks see
the same of these windows expire. -/
structure SameDecisions (spec spec' : WindowedFold α κ β)
    (messages : List α) : Prop where
  window : ∀ message ∈ messages, spec'.window message = spec.window message
  expires : ∀ message ∈ messages, ∀ seen ∈ messages,
    spec'.expiry (spec'.start message) ≤ spec'.time seen ↔
      spec.expiry (spec.start message) ≤ spec.time seen
  init : spec'.init = spec.init
  step : spec'.step = spec.step

variable {spec spec' : WindowedFold α κ β} {messages : List α}

omit [DecidableEq κ] in
theorem SameDecisions.subset (same : SameDecisions spec spec' messages)
    {fewer : List α} (within : fewer ⊆ messages) :
    SameDecisions spec spec' fewer := by
  refine ⟨?_, ?_, same.init, same.step⟩
  · intro message member
    exact same.window message (within member)
  · intro message member seen seenMember
    exact same.expires message (within member) seen (within seenMember)

theorem SameDecisions.expired (same : SameDecisions spec spec' messages)
    {message : α} (member : message ∈ messages) :
    spec'.expired messages (spec'.window message) =
      spec.expired messages (spec.window message) := by
  rw [Bool.eq_iff_iff, expired_iff, expired_iff]
  apply exists_congr
  intro seen
  apply and_congr_right
  intro seenMember
  have seenKey : spec'.key seen = spec.key seen :=
    congrArg Prod.fst (same.window seen seenMember)
  have sameKey : spec'.key message = spec.key message :=
    congrArg Prod.fst (same.window message member)
  simp only [WindowedFold.window, seenKey, sameKey,
    same.expires message member seen seenMember]

theorem SameDecisions.onTime (same : SameDecisions spec spec' messages) :
    spec'.onTime messages = spec.onTime messages := by
  induction messages using List.reverseRecOn with
  | nil => rfl
  | append_singleton messages message induction =>
      have earlier := induction
        (same.subset (List.subset_append_left messages [message]))
      have lateAlike : spec'.late messages message =
          spec.late messages message := same.expired (by simp)
      rw [onTime_concat, onTime_concat, earlier, lateAlike]

theorem SameDecisions.groups (same : SameDecisions spec spec' messages) :
    spec'.groups messages = spec.groups messages := by
  simp only [WindowedFold.groups]
  rw [same.init, same.step]
  induction messages using List.reverseRecOn with
  | nil => rfl
  | append_singleton messages message induction =>
      have earlier := induction
        (same.subset (List.subset_append_left messages [message]))
      rw [foldKeyed_concat, foldKeyed_concat, earlier,
        same.window message (by simp)]

/-- What a run emits depends on its clock only through the windows it sees
expire. -/
theorem SameDecisions.emitted_perm
    (same : SameDecisions spec spec' messages) :
    (spec'.run messages).2.Perm (spec.run messages).2 := by
  have kept : spec.onTime messages ⊆ messages :=
    (spec.onTime_sublist messages).subset
  have groups := (same.subset kept).groups
  have closed : (spec.groups (spec.onTime messages)).entries.filter
      (fun entry => spec'.expired messages entry.1) =
        (spec.groups (spec.onTime messages)).entries.filter
          (fun entry => spec.expired messages entry.1) := by
    apply List.filter_congr
    intro entry member
    obtain ⟨⟨message, onTime, sameWindow⟩, _⟩ :=
      (mem_foldKeyed _ _ _).mp member
    have expired := same.expired (kept onTime)
    rwa [same.window message (kept onTime), sameWindow] at expired
  apply (spec'.run_emitted_perm messages).trans
  rw [same.onTime, groups, Dict.entries_filter, closed]
  exact (spec.run_emitted_perm messages).symm

end Clocks

end WindowedFold

/-- A windowed fold and what it sends downstream for a closed window. -/
structure Branch (α κ β ρ : Type) where
  fold : WindowedFold α κ β
  finalize : κ × Int → β → ρ

namespace Branch

variable {α κ β ρ : Type} [DecidableEq κ]

/-- Hand one message to every branch, in the order of registration. -/
def receiveAll (branches : List (Branch α κ β ρ))
    (states : List (WindowedFold.State κ β)) (message : α) :
    List (WindowedFold.State κ β) × List ρ :=
  match branches, states with
  | branch :: branches, state :: states =>
      let next := branch.fold.receive state message
      let others := receiveAll branches states message
      (next.1 :: others.1,
        next.2.map (fun entry => branch.finalize entry.1 entry.2) ++ others.2)
  | _, _ => ([], [])

def runAll (branches : List (Branch α κ β ρ)) (messages : List α) :
    List (WindowedFold.State κ β) × List ρ :=
  messages.foldl
    (fun outcome message =>
      let next := receiveAll branches outcome.1 message
      (next.1, outcome.2 ++ next.2))
    (branches.map (fun _ => WindowedFold.State.initial), [])

/-- What one branch sends downstream when it runs alone. -/
def sent (branch : Branch α κ β ρ) (messages : List α) : List ρ :=
  (branch.fold.run messages).2.map
    (fun entry => branch.finalize entry.1 entry.2)

theorem runAll_concat (branches : List (Branch α κ β ρ)) (messages : List α)
    (message : α) :
    runAll branches (messages ++ [message]) =
      let next := receiveAll branches (runAll branches messages).1 message
      (next.1, (runAll branches messages).2 ++ next.2) := by
  simp [runAll]

theorem receiveAll_states (branches : List (Branch α κ β ρ))
    (messages : List α) (message : α) :
    (receiveAll branches
        (branches.map (fun branch => (branch.fold.run messages).1))
        message).1 =
      branches.map
        (fun branch => (branch.fold.run (messages ++ [message])).1) := by
  induction branches with
  | nil => rfl
  | cons branch branches induction =>
      simp [receiveAll, induction, WindowedFold.run_concat]

theorem receiveAll_sent (branches : List (Branch α κ β ρ))
    (messages : List α) (message : α) :
    ((branches.flatMap (fun branch => branch.sent messages)) ++
      (receiveAll branches
        (branches.map (fun branch => (branch.fold.run messages).1))
        message).2).Perm
      (branches.flatMap (fun branch => branch.sent (messages ++ [message]))) := by
  induction branches with
  | nil => exact List.Perm.refl _
  | cons branch branches induction =>
      have split : branch.sent (messages ++ [message]) =
          branch.sent messages ++
            (branch.fold.receive (branch.fold.run messages).1 message).2.map
              (fun entry => branch.finalize entry.1 entry.2) := by
        simp [sent, WindowedFold.run_concat]
      simp only [receiveAll, List.map_cons, List.flatMap_cons, split,
        List.append_assoc]
      apply List.Perm.append_left
      refine List.Perm.trans ?_ (List.Perm.append_left _ induction)
      rw [← List.append_assoc, ← List.append_assoc]
      exact List.perm_append_comm.append_right _

/-- The branches run side by side as they run alone; only the order in which
their windows reach the output depends on the others. -/
theorem runAll_tracks (branches : List (Branch α κ β ρ)) (messages : List α) :
    (runAll branches messages).1 =
        branches.map (fun branch => (branch.fold.run messages).1) ∧
      (runAll branches messages).2.Perm
        (branches.flatMap (fun branch => branch.sent messages)) := by
  induction messages using List.reverseRecOn with
  | nil => simp [runAll, WindowedFold.run, sent]
  | append_singleton messages message induction =>
      obtain ⟨states, emitted⟩ := induction
      rw [runAll_concat, states]
      refine ⟨receiveAll_states branches messages message, ?_⟩
      exact (emitted.append_right _).trans
        (receiveAll_sent branches messages message)

end Branch

end TickStream.Library
