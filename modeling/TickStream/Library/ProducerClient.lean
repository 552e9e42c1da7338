import Mathlib.Data.List.Perm.Basic
import TickStream.Library.TryEach

/-!
# A producing client and its delivery reports

Every message a client accepts is queued until the broker acknowledges or
fails it, and either is reported to a callback once.  Reports may come with
any call and settle the queued messages in any order.  A flush returns the
number of messages still queued.
-/

namespace TickStream.Library

/-- A delivery report: the queued message it settles, and whether the broker
took it. -/
structure Report where
  slot : Nat
  acknowledged : Bool
deriving DecidableEq, Repr

/-- The accepted messages by what became of them, and what the callback has
recorded. -/
structure Client (μ σ : Type) where
  queued : List μ
  acked : List μ
  failed : List μ
  recorded : σ
deriving DecidableEq, Repr

/-- What a client meets: for every produce call and the poll after it either
the error the call raises or the reports it serves, and the reports served
during the flush. -/
structure Broker (ε : Type) where
  turn : Nat → Except ε (List Report)
  atFlush : List Report

namespace Client

variable {μ σ ε : Type}

def start (recorded : σ) : Client μ σ := ⟨[], [], [], recorded⟩

/-- All accepted messages. -/
def accepted (client : Client μ σ) : List μ :=
  client.queued ++ (client.acked ++ client.failed)

section Callback

variable (callback : σ → Bool → σ)

/-- Serve one report; a report about no queued message has no effect. -/
def settle (client : Client μ σ) (report : Report) : Client μ σ :=
  match client.queued[report.slot]? with
  | none => client
  | some message =>
      let queued := client.queued.eraseIdx report.slot
      let recorded := callback client.recorded report.acknowledged
      if report.acknowledged then
        { client with
          queued := queued
          acked := client.acked ++ [message]
          recorded := recorded }
      else
        { client with
          queued := queued
          failed := client.failed ++ [message]
          recorded := recorded }

def serve (client : Client μ σ) (reports : List Report) : Client μ σ :=
  reports.foldl (settle callback) client

/-- Produce a message and poll. -/
def produce (broker : Broker ε) (call : Nat) (client : Client μ σ)
    (message : μ) : Except ε (Client μ σ) := do
  let reports ← broker.turn call
  return serve callback { client with queued := client.queued ++ [message] }
    reports

def produceAll (broker : Broker ε) :
    Nat → Client μ σ → List μ → Except ε (Client μ σ)
  | _, client, [] => .ok client
  | call, client, message :: rest => do
      let next ← produce callback broker call client message
      produceAll broker (call + 1) next rest

/-- The number of messages still queued, and the client. -/
def flush (broker : Broker ε) (client : Client μ σ) : Nat × Client μ σ :=
  let served := serve callback client broker.atFlush
  (served.queued.length, served)

/-- What a broker makes of some messages and a flush. -/
def session (broker : Broker ε) (client : Client μ σ) (messages : List μ) :
    Except ε (Client μ σ) := do
  let produced ← produceAll callback broker 0 client messages
  return (flush callback broker produced).2

theorem settle_accepted (client : Client μ σ) (report : Report) :
    (settle callback client report).accepted.Perm client.accepted := by
  simp only [settle]
  split
  · exact List.Perm.refl _
  · rename_i message found
    have queue : client.queued.Perm
        (message :: client.queued.eraseIdx report.slot) := by
      obtain ⟨inside, same⟩ := List.getElem?_eq_some_iff.mp found
      rw [← same]
      exact (List.getElem_cons_eraseIdx_perm inside).symm
    have settled : (client.queued.eraseIdx report.slot ++
        (message :: (client.acked ++ client.failed))).Perm
          client.accepted :=
      List.perm_middle.trans (queue.symm.append_right _)
    split
    · apply List.Perm.trans _ settled
      apply List.Perm.append_left
      rw [List.append_assoc]
      exact List.perm_middle
    · apply List.Perm.trans _ settled
      apply List.Perm.append_left
      rw [← List.append_assoc]
      exact List.perm_append_singleton _ _

/-- What every report preserves, serving reports preserves. -/
theorem serve_keeps (holds : Client μ σ → Prop)
    (kept : ∀ client report, holds client →
      holds (settle callback client report))
    (reports : List Report) {client : Client μ σ} (initially : holds client) :
    holds (serve callback client reports) := by
  induction reports generalizing client with
  | nil => exact initially
  | cons report rest induction =>
      exact induction (kept client report initially)

theorem serve_accepted (client : Client μ σ) (reports : List Report) :
    (serve callback client reports).accepted.Perm client.accepted := by
  apply serve_keeps callback
    (fun served => served.accepted.Perm client.accepted)
  · intro served report same
    exact (settle_accepted callback served report).trans same
  · exact List.Perm.refl _

theorem produce_accepted {broker : Broker ε} {call : Nat}
    {client next : Client μ σ} {message : μ}
    (produced : produce callback broker call client message = .ok next) :
    next.accepted.Perm (client.accepted ++ [message]) := by
  simp only [produce] at produced
  obtain ⟨reports, _, served⟩ := bind_eq_ok_iff.mp produced
  cases served
  apply (serve_accepted callback _ reports).trans
  simp only [accepted]
  rw [List.append_assoc, List.append_assoc]
  exact List.Perm.append_left _ List.perm_append_comm

theorem produce_keeps (holds : Client μ σ → Prop)
    (kept : ∀ client report, holds client →
      holds (settle callback client report))
    (entered : ∀ client message, holds client →
      holds { client with queued := client.queued ++ [message] })
    {broker : Broker ε} {call : Nat} {client next : Client μ σ}
    {message : μ} (initially : holds client)
    (produced : produce callback broker call client message = .ok next) :
    holds next := by
  simp only [produce] at produced
  obtain ⟨reports, _, served⟩ := bind_eq_ok_iff.mp produced
  cases served
  exact serve_keeps callback holds kept reports (entered client message initially)

theorem produceAll_accepted {broker : Broker ε} {call : Nat}
    {client last : Client μ σ} {messages : List μ}
    (produced : produceAll callback broker call client messages = .ok last) :
    last.accepted.Perm (client.accepted ++ messages) := by
  induction messages generalizing call client with
  | nil =>
      cases produced
      rw [List.append_nil]
  | cons message rest induction =>
      obtain ⟨next, first, others⟩ := bind_eq_ok_iff.mp produced
      have tail := induction others
      have head := produce_accepted callback first
      rw [List.append_cons]
      exact tail.trans (head.append_right rest)

theorem flush_accepted (broker : Broker ε) (client : Client μ σ) :
    (flush callback broker client).2.accepted.Perm client.accepted :=
  serve_accepted callback client broker.atFlush

theorem session_accepted {broker : Broker ε} {client last : Client μ σ}
    {messages : List μ}
    (held : session callback broker client messages = .ok last) :
    last.accepted.Perm (client.accepted ++ messages) := by
  obtain ⟨produced, all, flushed⟩ := bind_eq_ok_iff.mp held
  cases flushed
  exact (flush_accepted callback broker produced).trans
    (produceAll_accepted callback all)

/-- A client with nothing queued or failed got everything acknowledged. -/
theorem acked_of_settled {client : Client μ σ} (queued : client.queued = [])
    (failed : client.failed = []) : client.acked = client.accepted := by
  simp [accepted, queued, failed]

end Callback

end Client

end TickStream.Library
