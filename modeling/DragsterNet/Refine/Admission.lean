/-
Module: DragsterNet.Refine.Admission
Purpose: When a connection under the caps is admitted: by the relay in Python
  always, by the relay in C unless the slots of dropped clients are in the way.
Trusted boundary: none
Main exports: CRelay.State.retired, CRelay.State.Admits, CRelay.Loop.retired_idle,
  Refine.admission_iff, Refine.admission_refused
-/
import DragsterNet.CRelay.Registry
import DragsterNet.Relay.Pairing

namespace DragsterNet

open Lib Relay

namespace Relay.Server

variable {server : Server} {ip : Ip}

/-- The two checks of `accept`. -/
def UnderCaps (server : Server) (ip : Ip) : Prop :=
  server.clients.length < maxClients ∧
    server.clients.countP (fun other => (server.object other).ip = ip) < maxConnectionsPerIp

instance (server : Server) (ip : Ip) : Decidable (server.UnderCaps ip) :=
  inferInstanceAs (Decidable (_ ∧ _))

/-- The connection is kept: it is the last of the clients, with a new object. -/
def Admits (server : Server) (ip : Ip) (port : Nat) (born : Time) : Prop :=
  (server.accept ip port born).clients = server.clients ++ [server.conns] ∧
    (server.accept ip port born).object server.conns = { ip := ip, port := port, born := born }

theorem admits {port : Nat} {born : Time} (caps : server.UnderCaps ip) :
    server.Admits ip port born := by
  unfold Admits accept
  simp only [if_neg (Nat.not_le.mpr caps.1), if_neg (Nat.not_le.mpr caps.2)]
  exact ⟨rfl, Function.update_self ..⟩

end Relay.Server

namespace CRelay

namespace State

variable {state : State} {ip : Ip} {port : Nat} {born : Time}

/-- The two checks that `accept_client` makes before it looks for a slot. -/
def UnderCaps (state : State) (ip : Ip) : Prop :=
  state.order.length < maxClients ∧
    state.order.countP (fun other => (state.clients other).ip = ip) < maxConnectionsPerIp

instance (state : State) (ip : Ip) : Decidable (state.UnderCaps ip) :=
  inferInstanceAs (Decidable (_ ∧ _))

/-- `client_alloc` finds a slot, and the connection is kept: the slot is the last
of the order, it has the descriptor, and epoll watches it. -/
def Admits (state : State) (ip : Ip) (port : Nat) (born : Time) : Prop :=
  ∃ ci, state.freeSlot = some ci ∧
    (state.acceptClient ip port born).order = state.order ++ [ci] ∧
    ((state.acceptClient ip port born).clients ci).fd = some state.conns ∧
    (state.acceptClient ip port born).watched state.conns = some (ci, (state.clients ci).gen)

/-- The slots that `drop` has retired and `reap` has not freed yet. -/
def retired (state : State) : List Slot :=
  (List.finRange 64).filter fun ci => (state.clients ci).inUse && (state.clients ci).dead

/-! ### The two counts of the clients -/

/-- A slot in use is in the order, or retired. -/
theorem Tidy.taken (tidy : state.Tidy) :
    (List.finRange 64).countP (fun ci => (state.clients ci).inUse) =
      state.order.length + state.retired.length := by
  have alive : state.order.Perm ((List.finRange 64).filter fun ci =>
      (state.clients ci).inUse && !(state.clients ci).dead) := by
    apply (List.perm_ext_iff_of_nodup tidy.nodup ((List.nodup_finRange 64).filter _)).mpr
    intro ci
    rw [tidy.mem_iff, present_roster, List.mem_filter, Bool.and_eq_true, Bool.not_eq_true']
    exact (and_iff_right (List.mem_finRange ci)).symm
  rw [alive.length_eq, ← List.countP_eq_length_filter, retired, ← List.countP_eq_length_filter,
    List.countP_eq_countP_filter_add _ _ (fun ci => (state.clients ci).dead),
    List.countP_filter, List.countP_filter]
  exact Nat.add_comm ..

theorem freeSlot_isSome : state.freeSlot.isSome ↔
    (List.finRange 64).countP (fun ci => (state.clients ci).inUse) < maxClients := by
  have isMax : (List.finRange 64).length = maxClients := List.length_finRange
  rw [← isMax, freeSlot, List.find?_isSome]
  constructor
  · rintro ⟨ci, member, vacant⟩
    apply lt_of_le_of_ne List.countP_le_length
    intro full
    have used : (state.clients ci).inUse = true := List.countP_eq_length.mp full ci member
    simp [used] at vacant
  · intro fewer
    by_contra full
    apply fewer.ne
    apply List.countP_eq_length.mpr
    intro ci member
    by_contra vacant
    exact full ⟨ci, member, by simpa using vacant⟩

/-- Under the caps the connection is kept if there is a slot for it. -/
theorem admits_of_free (caps : state.UnderCaps ip) {ci : Slot} (found : state.freeSlot = some ci) :
    state.Admits ip port born := by
  have found' : ({ state with conns := state.conns + 1 } : State).freeSlot = some ci := found
  refine ⟨ci, found, ?_⟩
  unfold acceptClient
  simp only [if_neg (Nat.not_le.mpr caps.1), if_neg (Nat.not_le.mpr caps.2), found']
  refine ⟨if_pos caps.1, ?_, Function.update_self ..⟩
  have seated := @edit_self { state with conns := state.conns + 1 } ci fun client =>
    { gen := client.gen, tx := client.tx, inUse := true, fd := some state.conns, ip := ip,
      port := port, born := born, holds := some state.conns }
  exact congrArg Client.fd seated

theorem Tidy.admits_iff (tidy : state.Tidy) (caps : state.UnderCaps ip) :
    state.Admits ip port born ↔
      state.order.length + state.retired.length < maxClients := by
  rw [← tidy.taken, ← freeSlot_isSome, Option.isSome_iff_exists]
  constructor
  · rintro ⟨ci, found, -⟩
    exact ⟨ci, found⟩
  · rintro ⟨ci, found⟩
    exact admits_of_free caps found

theorem retired_reap : state.reap.retired = [] := by
  apply List.filter_eq_nil_iff.mpr
  intro ci _
  unfold reap
  simp only
  split
  · simp
  · assumption

end State

namespace Loop

variable {oracle : Oracle} {loop : Loop} {now : Time}

/-- The connection that `accept_client` is about to find. -/
def connecting (loop : Loop) : Option (Ip × Nat × Time) :=
  match loop.jobs with
  | .accept ip port born :: _ => some (ip, port, born)
  | _ => none

/-- Within an iteration the statistics, with `reap`, are still to come. -/
def Closing (loop : Loop) : Prop :=
  (loop.jobs = [] ∧ loop.state.retired = []) ∨ ∃ front later, loop.jobs = front ++ [.report later]

theorem closing_run {meets : Loop → Act → Prop} (run : Run (Step oracle) meets (start now) loop) :
    Closing loop := by
  apply run.invariant Closing
  · exact Or.inl ⟨rfl, List.filter_eq_nil_iff.mpr fun ci _ used => by cases used⟩
  · rintro before act after closing - step
    rcases step_cases oracle step with ⟨turn, -, -, rfl⟩ | ⟨job, rest, -, isNext, rfl⟩
    · refine Or.inr ⟨turn.events.filterMap before.state.reported ++
        [.flushAll turn.sends, .sweep turn.now], turn.now, ?_⟩
      exact (List.append_assoc _ [Job.flushAll turn.sends, .sweep turn.now] _).symm
    · rcases closing with ⟨idle, -⟩ | ⟨front, later, isJobs⟩
      · rw [idle] at isNext
        cases isNext
      · rw [isJobs] at isNext
        cases front with
        | nil =>
            obtain ⟨rfl, rfl⟩ := List.cons.inj isNext
            exact Or.inl ⟨rfl, State.retired_reap⟩
        | cons first front =>
            obtain ⟨rfl, rfl⟩ := List.cons.inj isNext
            exact Or.inr ⟨_ ++ front, later, (List.append_assoc ..).symm⟩

/-- Between two iterations every slot in use is in the order. -/
theorem retired_idle {meets : Loop → Act → Prop}
    (run : Run (Step oracle) meets (start now) loop) (idle : loop.jobs = []) :
    loop.state.retired = [] := by
  rcases closing_run run with ⟨-, none_⟩ | ⟨front, later, isJobs⟩
  · exact none_
  · rw [idle] at isJobs
    exact absurd isJobs.symm (List.append_ne_nil_of_right_ne_nil _ (List.cons_ne_nil _ _))

/-- So the first event of an iteration, if it is a connection under the caps, is
admitted. -/
theorem admits_idle {meets : Loop → Act → Prop} {ip : Ip} {port : Nat} {born : Time}
    (run : Run (Step oracle) meets (start now) loop) (idle : loop.jobs = [])
    (caps : loop.state.UnderCaps ip) : loop.state.Admits ip port born := by
  apply ((tidy_run run).admits_iff caps).mpr
  rw [retired_idle run idle]
  exact caps.1

end Loop

end CRelay

namespace Refine

open CRelay.Loop (turnOf works)

/-- An address of its own for each connection. -/
def address (n : Nat) : Ip := ⟨10, 0, 0, BitVec.ofNat 8 n⟩

/-- `count` connections are accepted, one in an iteration. -/
def crowding (count : Nat) : List CRelay.Act :=
  (List.range count).flatMap fun n => turnOf [.connect (address n) 9000 0] :: works (n + 5)

/-- The first client hangs up, and in the same iteration somebody connects. -/
def replacing : List CRelay.Act :=
  [turnOf [.ready 0 (some []) none, .connect (address 0) 9001 0], .work]

/-- In every state that the C relay reaches, within an iteration or between two, a
connection under the caps is admitted exactly when the order and the slots that are
retired but not freed leave one. -/
theorem admission_iff (oracle : Oracle) (now : Time) (loop : CRelay.Loop)
    (run : Run (CRelay.Loop.Step oracle) always (CRelay.Loop.start now) loop)
    (ip : Ip) (port : Nat) (born : Time) (caps : loop.state.UnderCaps ip) :
    loop.state.Admits ip port born ↔
      loop.state.order.length + loop.state.retired.length < maxClients :=
  (CRelay.Loop.tidy_run run).admits_iff caps

/-- With two clients, of whom one has just hung up. -/
theorem admission_iff_two : ∃ loop : CRelay.Loop, loop.state.order.length = 1 ∧
    loop.state.retired.length = 1 ∧ (loop.state.Admits (address 0) 9001 0 ↔ 1 + 1 < maxClients) := by
  have outcome : ((crowding 2 ++ replacing).foldlM (CRelay.Loop.next plain)
      (CRelay.Loop.start 0)).map (fun loop => decide (loop.state.order.length = 1 ∧
        loop.state.retired.length = 1 ∧ loop.state.UnderCaps (address 0))) = some true := by
    decide +kernel
  obtain ⟨loop, executed, isOutcome⟩ := Option.map_eq_some_iff.mp outcome
  obtain ⟨order, retired, caps⟩ := of_decide_eq_true isOutcome
  have admits := admission_iff plain 0 loop (Run.of_foldlM executed) (address 0) 9001 0 caps
  rw [order, retired] at admits
  exact ⟨loop, order, retired, admits⟩

/-- The same clients, for the relay in Python. -/
def crowdingPy (count : Nat) : List Relay.Act :=
  (List.range count).flatMap fun n =>
    Relay.Loop.turnOf [.connect (address n) 9000 0] :: Relay.Loop.works (n + 5)

def replacingPy : List Relay.Act :=
  [Relay.Loop.turnOf [.ready 0 (some []) none, .connect (address 0) 9001 0], .work 0]

/-- With 64 clients, one hangs up and somebody connects, both in one iteration.  The
relay in C finds no slot and closes the connection; the relay in Python keeps it. -/
theorem admission_refused : ∃ (loop : CRelay.Loop) (loop' : Relay.Loop),
    Run (CRelay.Loop.Step plain) always (CRelay.Loop.start 0) loop ∧
    Run (Relay.Loop.Step plain) always (Relay.Loop.start 0) loop' ∧
    loop.connecting = some (address 0, 9001, 0) ∧ loop.state.UnderCaps (address 0) ∧
    loop.state.freeSlot = none ∧ ¬ loop.state.Admits (address 0) 9001 0 ∧
    loop'.state.UnderCaps (address 0) ∧ loop'.state.Admits (address 0) 9001 0 := by
  have outcome : ((crowding 64 ++ replacing).foldlM (CRelay.Loop.next plain)
      (CRelay.Loop.start 0)).map (fun loop => decide (loop.connecting = some (address 0, 9001, 0) ∧
        loop.state.UnderCaps (address 0) ∧ loop.state.freeSlot = none)) = some true := by
    decide +kernel
  have outcome' : ((crowdingPy 64 ++ replacingPy).foldlM (Relay.Loop.next plain)
      (Relay.Loop.start 0)).map (fun loop => decide (loop.state.UnderCaps (address 0))) =
        some true := by decide +kernel
  obtain ⟨loop, executed, isOutcome⟩ := Option.map_eq_some_iff.mp outcome
  obtain ⟨loop', executed', isOutcome'⟩ := Option.map_eq_some_iff.mp outcome'
  obtain ⟨isNext, caps, none_⟩ := of_decide_eq_true isOutcome
  have caps' := of_decide_eq_true isOutcome'
  refine ⟨loop, loop', Run.of_foldlM executed, Run.of_foldlM executed', isNext, caps, none_, ?_,
    caps', Relay.Server.admits caps'⟩
  rintro ⟨ci, found, -⟩
  rw [none_] at found
  cases found

end Refine

end DragsterNet
