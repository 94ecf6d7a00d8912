/-
Module: DragsterNet.Relay.Loop
Purpose: The event loop of the Python relay, one job at a time, and its runs.
Trusted boundary: none
Main exports: Job, Server.perform, Loop, Loop.next, Loop.Step
-/
import DragsterNet.Lib.Agenda
import DragsterNet.Lib.Steps
import DragsterNet.Relay.Server

namespace DragsterNet.Relay

open Lib

/-- The pieces of one iteration of the loop. -/
inductive Job where
  | accept (ip : Ip) (port : Nat) (born : Time)
  | ready (c : Conn) (read : Option Bytes) (write : Option Sent)
  | service (c : Conn)
  | writable (c : Conn) (write : Option Sent)
  | flushAll (sends : Conn → Sent)
  | flush (c : Conn) (sent : Sent)
  | sweep (now : Time)
  | report (now : Time)

namespace Server

variable (oracle : Oracle)

/-- `recv`; a closed socket fails, which reads as no bytes. -/
def received (server : Server) (c : Conn) (data : Bytes) : Bytes :=
  if c ∈ server.clients then data else []

def receive (server : Server) (c : Conn) (data : Bytes) : Server :=
  server.edit c fun client => { client with rx := client.rx ++ data }

/-- A client that is still there is written to, if its socket is ready. -/
def writable (server : Server) (c : Conn) (write : Option Sent) : Server :=
  match write with
  | some sent => if c ∈ server.clients then server.flush oracle c sent else server
  | none => server

/-- One piece of the loop, and the pieces it leads to at once. -/
def perform (patience : Nat) (server : Server) : Job → Except PyErr (Server × List Job)
  | .accept ip port born => .ok (server.accept ip port born, [])
  | .ready c read write =>
      match read with
      | none => .ok (server.writable oracle c write, [])
      | some data =>
          if server.received c data = [] then .ok (server.drop oracle c, [])
          else .ok (server.receive c (server.received c data), [.service c, .writable c write])
  | .service c => do
      let (server, again) ← server.serviceOnce oracle patience c
      return (server, if again then [.service c] else [])
  | .writable c write => .ok (server.writable oracle c write, [])
  | .flushAll sends => .ok (server, server.clients.map fun c => .flush c (sends c))
  | .flush c sent => .ok (server.flush oracle c sent, [])
  | .sweep now => .ok (server.sweepAt oracle now, [])
  | .report now => .ok (server.reportAt now, [])

/-- The selector reports registered sockets only. -/
def report (server : Server) : Event → Option Job
  | .connect ip port born => some (.accept ip port born)
  | .ready c read write => if c ∈ server.clients then some (.ready c read write) else none

end Server

/-- The server and what is left of the present iteration. -/
abbrev Loop := Agenda Server Job

/-- Either the selector returns, or the next piece is done; `patience` is the
number of draws the model allows a name. -/
inductive Act where
  | turn (turn : Turn)
  | work (patience : Nat)

namespace Loop

variable (oracle : Oracle)

def start (now : Time) : Loop := ⟨Server.start now, []⟩

def turn (loop : Loop) (turn : Turn) : Option Loop :=
  match loop.jobs with
  | [] =>
      some ⟨loop.state, turn.events.filterMap loop.state.report ++
        [.flushAll turn.sends, .sweep turn.now, .report turn.now]⟩
  | _ :: _ => none

def next (loop : Loop) : Act → Option Loop
  | .turn turn => loop.turn turn
  | .work patience =>
      loop.work fun server job => (server.perform oracle patience job).toOption

def Step (before : Loop) (act : Act) (after : Loop) : Prop :=
  before.next oracle act = some after

/-- A step is the start of an iteration, which leaves the server as it is, or
one job. -/
theorem step_cases {before after : Loop} {act : Act} (step : Step oracle before act after) :
    (∃ turn, act = .turn turn ∧ after.state = before.state) ∨
      ∃ patience job rest more, act = .work patience ∧ before.jobs = job :: rest ∧
        before.state.perform oracle patience job = .ok (after.state, more) ∧
        after.jobs = more ++ rest := by
  cases act with
  | turn turn =>
      obtain ⟨server, jobs⟩ := before
      cases jobs with
      | nil =>
          obtain rfl := Option.some.inj step
          exact Or.inl ⟨turn, rfl, rfl⟩
      | cons job rest => cases step
  | work patience =>
      have worked : before.work (fun server job =>
          (server.perform oracle patience job).toOption) = some after := step
      obtain ⟨job, rest, state, more, isNext, performed, rfl⟩ := Agenda.work_cases worked
      refine Or.inr ⟨patience, job, rest, more, rfl, isNext, ?_, rfl⟩
      cases outcome : before.state.perform oracle patience job with
      | error err =>
          rw [outcome] at performed
          cases performed
      | ok done =>
          rw [outcome] at performed
          exact congrArg Except.ok (Option.some.inj performed)

end Loop

end DragsterNet.Relay
