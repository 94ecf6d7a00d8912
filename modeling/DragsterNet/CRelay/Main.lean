/-
Module: DragsterNet.CRelay.Main
Purpose: The event loop of the C relay, one job at a time, and its runs.
Trusted boundary: none
Main exports: Job, State.perform, Loop, Loop.next, Loop.Step
-/
import DragsterNet.Lib.Agenda
import DragsterNet.CRelay.Program

namespace DragsterNet.CRelay

open Lib Relay

/-- The pieces of one iteration of the loop.  `ready` carries the two halves of
the tag that epoll reports. -/
inductive Job where
  | accept (ip : Ip) (port : Nat) (born : Time)
  | ready (ci : Slot) (gen : BitVec 32) (read : Option Bytes) (write : Option Relay.Sent)
  | service (ci : Slot)
  | writable (ci : Slot) (write : Option Relay.Sent)
  | flushAll (sends : Conn → Relay.Sent)
  | flush (ci : Slot) (sent : Relay.Sent)
  | sweep (now : Time)
  | report (now : Time)

namespace State

variable (oracle : Oracle)

/-- `recv`, and the check that the bytes fit the receive buffer. -/
def receive (state : State) (ci : Slot) (data : Bytes) : Option State :=
  let held := (state.clients ci).rx.length
  if data = [] then none
  else if rxCap < held + data.length then none
  else some (state.edit ci fun client => { client with rx := client.rx ++ data })

/-- The line of the check, if it is the check that fails. -/
def noteOverflow (state : State) (ci : Slot) (data : Bytes) : State :=
  let held := (state.clients ci).rx.length
  if data ≠ [] ∧ rxCap < held + data.length then
    state.log (.overflow (state.clients ci).nameOr held data.length rxCap)
  else state

/-- A client that has not been dropped is written to, if its socket is ready. -/
def writable (state : State) (ci : Slot) (write : Option Relay.Sent) : State :=
  match write with
  | some sent => if (state.clients ci).dead then state else state.flush oracle ci sent
  | none => state

/-- One piece of the loop, and the pieces it leads to at once. -/
def perform (state : State) : Job → State × List Job
  | .accept ip port born => (state.acceptClient ip port born, [])
  | .ready ci gen read write =>
      -- The slot may have been dropped, or freed and taken anew, in this batch.
      if (state.clients ci).inUse = false ∨ (state.clients ci).gen ≠ gen then (state, [])
      else if (state.clients ci).dead then (state, [])
      else
        match read with
        | none => (state.writable oracle ci write, [])
        | some data =>
            match state.receive ci data with
            | some received => (received, [.service ci, .writable ci write])
            -- Dropped, it is not written to either.
            | none => ((state.noteOverflow ci data).drop oracle ci, [])
  | .service ci =>
      let (served, again) := state.serviceOnce oracle ci
      (served, if again then [.service ci] else [])
  | .writable ci write => (state.writable oracle ci write, [])
  | .flushAll sends =>
      (state, state.order.map fun ci => .flush ci (sends (state.conn ci)))
  | .flush ci sent =>
      if (state.clients ci).inUse = false ∨ (state.clients ci).dead then (state, [])
      else (state.flush oracle ci sent, [])
  | .sweep now => (state.sweepAt oracle now, [])
  | .report now => ((state.reportAt now).reap, [])

/-- epoll reports the descriptors it watches, by their tags. -/
def reported (state : State) : Event → Option Job
  | .connect ip port born => some (.accept ip port born)
  | .ready conn read write =>
      (state.watched conn).map fun tag => .ready tag.1 tag.2 read write

end State

/-- The globals and what is left of the present iteration. -/
abbrev Loop := Agenda State Job

/-- Either `epoll_wait` returns, or the next piece is done. -/
inductive Act where
  | turn (turn : Turn)
  | work

namespace Loop

variable (oracle : Oracle)

def start (now : Time) : Loop := ⟨State.start now, []⟩

def turn (loop : Loop) (turn : Turn) : Option Loop :=
  match loop.jobs with
  | [] =>
      some ⟨loop.state, turn.events.filterMap loop.state.reported ++
        [.flushAll turn.sends, .sweep turn.now, .report turn.now]⟩
  | _ :: _ => none

def next (loop : Loop) : Act → Option Loop
  | .turn turn => loop.turn turn
  | .work => loop.work fun state job => some (state.perform oracle job)

def Step (before : Loop) (act : Act) (after : Loop) : Prop :=
  before.next oracle act = some after

/-- A step is the start of an iteration, which leaves the globals as they are,
or one job. -/
theorem step_cases {before after : Loop} {act : Act} (step : Step oracle before act after) :
    (∃ turn, act = .turn turn ∧ before.jobs = [] ∧
        after = ⟨before.state, turn.events.filterMap before.state.reported ++
          [.flushAll turn.sends, .sweep turn.now, .report turn.now]⟩) ∨
      ∃ job rest, act = .work ∧ before.jobs = job :: rest ∧
        after = ⟨(before.state.perform oracle job).1,
          (before.state.perform oracle job).2 ++ rest⟩ := by
  cases act with
  | turn turn =>
      obtain ⟨state, jobs⟩ := before
      cases jobs with
      | nil =>
          obtain rfl := Option.some.inj step
          exact Or.inl ⟨turn, rfl, rfl, rfl⟩
      | cons job rest => cases step
  | work =>
      have worked : before.work (fun state job => some (state.perform oracle job)) =
          some after := step
      obtain ⟨job, rest, state, more, isNext, performed, rfl⟩ := Agenda.work_cases worked
      refine Or.inr ⟨job, rest, rfl, isNext, ?_⟩
      rw [Option.some.inj performed]

end Loop

end DragsterNet.CRelay
