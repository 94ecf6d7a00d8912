/-
Module: DragsterNet.Relay.Registry
Purpose: The names of the Python relay as a roll of its clients, and when it is
  exact.
Trusted boundary: none
Main exports: Server.roll, Server.roll_drop, Server.serviceOnce_roll,
  Loop.Introduced, Loop.roll_next
-/
import DragsterNet.Lib.Roll
import DragsterNet.Relay.Service

namespace DragsterNet.Relay

open Lib

namespace Server

variable {oracle : Oracle} {server after middle : Server} {c host guest : Conn}
  {change : Client → Client} {payload : Bytes} {patience : Nat} {before : List Nat}

/-- The clients by their names, with the name table and the numbers of players
that the Lobby was told. -/
def roll (server : Server) : Roll Conn Text where
  members := server.clients
  name c := (server.object c).name
  entries := server.byName.entries
  told := published server.seen

/-- The Lobby is told, if there is one. -/
def announced (oracle : Oracle) (roll : Roll Conn Text) : Roll Conn Text :=
  if oracle.lobby then roll.tell else roll

/-! ### What each function does to the roll -/

theorem roll_edit (name : (change (server.object c)).name = (server.object c).name) :
    (server.edit c change).roll = server.roll := by
  refine Roll.ext rfl ?_ rfl rfl
  funext other
  by_cases here : other = c
  · subst here
    exact (congrArg Client.name edit_self).trans name
  · exact congrArg Client.name (edit_of_ne here)

theorem roll_note {seen : Seen} (untold : published [seen] = []) :
    (server.note seen).roll = server.roll := by
  refine Roll.ext rfl rfl rfl ?_
  unfold roll note published
  rw [List.filterMap_append]
  exact (congrArg _ untold).trans (List.append_nil _)

theorem roll_log {line : Line} : (server.log line).roll = server.roll := roll_note rfl

theorem roll_count {counts : Stats → Stats} : (server.count counts).roll = server.roll := rfl

theorem roll_send {src : Option Conn} {data : Bytes} :
    (server.send src c data).roll = server.roll := by
  unfold send
  rw [roll_note rfl]
  exact roll_edit rfl

theorem roll_lobbyUpdate : (lobbyUpdate oracle server).roll = announced oracle server.roll := by
  unfold lobbyUpdate announced
  split
  · refine Roll.ext rfl rfl rfl ?_
    unfold roll note published Roll.tell
    rw [List.filterMap_append]
    rfl
  · rfl

theorem roll_unregister (exact_ : server.roll.Exact) (here : c ∈ server.clients) :
    (server.unregister c).roll.entries = (server.roll.leave c).entries ∧
      (server.unregister c).clients = server.clients ∧
      (server.unregister c).object = server.object ∧
      (server.unregister c).seen = server.seen := by
  unfold unregister Roll.leave
  cases isName : (server.object c).name with
  | none =>
      have unnamed : server.roll.name c = none := isName
      rw [unnamed]
      exact ⟨rfl, rfl, rfl, rfl⟩
  | some name =>
      have named : server.roll.name c = some name := isName
      have listed : server.byName.get? name = some c :=
        Dict.mem_entries.mp ((exact_.listed name c).mpr ⟨here, named⟩)
      simp only [if_pos listed]
      rw [named]
      exact ⟨rfl, trivial, trivial, trivial⟩

theorem roll_leavePartner : (server.leavePartner c).roll = server.roll := by
  unfold leavePartner
  split
  · rw [roll_log, roll_send, roll_edit rfl]
  · rfl

/-- A client that is dropped leaves the roll, and the Lobby is told. -/
theorem roll_drop (exact_ : server.roll.Exact) (here : c ∈ server.clients) :
    (server.drop oracle c).roll = announced oracle (server.roll.leave c) := by
  obtain ⟨entries, clients, object, seen⟩ := roll_unregister exact_ here
  unfold drop
  rw [if_pos here, roll_lobbyUpdate]
  apply congrArg
  have farewell_ : ∀ server : Server, (server.farewell c).roll = server.roll := by
    intro server
    unfold farewell
    split
    · exact roll_log
    · rfl
  have left : ((server.unregister c).leavePartner c).roll = (server.unregister c).roll :=
    roll_leavePartner
  rw [farewell_]
  unfold remove
  rw [roll_note rfl]
  refine Roll.ext ?_ ?_ ?_ ?_
  · refine (congrArg (fun roll => roll.members.erase c) left).trans ?_
    exact congrArg (fun clients => List.erase clients c) clients
  · refine (congrArg Roll.name left).trans ?_
    unfold roll
    rw [object]
    rfl
  · exact (congrArg Roll.entries left).trans entries
  · refine (congrArg Roll.told left).trans ?_
    unfold roll
    rw [seen]
    rfl

theorem roll_link : (server.link host guest).roll = server.roll := by
  unfold link
  rw [roll_note rfl, roll_edit rfl, roll_edit rfl]

theorem startFrame_roll {seed : BitVec 16} {role : Nat}
    (started : startFrame oracle server seed role host guest = .ok after) :
    after.roll = server.roll := by
  obtain ⟨header, -, rest⟩ := bind_ok.mp started
  split at rest
  · cases rest
  · obtain ⟨data, -, sent⟩ := bind_ok.mp rest
    obtain rfl := Except.ok.inj sent
    rw [roll_send, roll_edit rfl]

theorem tryPair_roll (tried : server.tryPair oracle c = .ok after) :
    after.roll = server.roll ∨ after.roll = announced oracle server.roll := by
  unfold tryPair at tried
  split at tried
  · obtain rfl := Except.ok.inj tried
    exact Or.inl rfl
  · rename_i other _
    obtain ⟨one, first, rest⟩ := bind_ok.mp tried
    obtain ⟨two, second, done⟩ := bind_ok.mp rest
    obtain rfl := Except.ok.inj done
    right
    rw [roll_lobbyUpdate, roll_log, roll_count, startFrame_roll second, startFrame_roll first,
      roll_link]
    rfl

theorem roll_noteTv : (server.noteTv c payload).roll = server.roll := by
  unfold noteTv
  split
  · rfl
  · exact roll_edit rfl

/-- A client that is given a free name is called by it, and the Lobby is told. -/
theorem roll_register {name : Text} {tv : Byte} {drawn : Nat}
    (free : name ∉ server.roll.entries.map Prod.fst) :
    (server.register oracle c name tv drawn).roll = announced oracle (server.roll.call c name) := by
  have named : ∀ other, ((server.edit c fun client => { client with name := some name }).object
      other).name = Function.update server.roll.name c (some name) other := by
    intro other
    by_cases here : other = c
    · subst here
      rw [edit_self, Function.update_self]
    · rw [edit_of_ne here, Function.update_of_ne here]
      rfl
  unfold register
  rw [roll_lobbyUpdate, roll_log]
  apply congrArg
  exact Roll.ext rfl (funext named) (assign_fresh free) rfl

theorem forward_roll {ftype : Byte} (forwarded : server.forward c ftype payload = .ok after) :
    after.roll = server.roll := by
  unfold forward at forwarded
  split at forwarded
  · obtain rfl := Except.ok.inj forwarded
    rfl
  · obtain ⟨data, -, sent⟩ := bind_ok.mp forwarded
    obtain rfl := Except.ok.inj sent
    exact roll_send

theorem roll_logCrc : (server.logCrc c payload).roll = server.roll := by
  unfold logCrc
  simp only
  split
  · rw [roll_edit rfl, roll_edit rfl]
  · split
    · rw [roll_log, roll_count, roll_edit rfl, roll_edit rfl]
    · rw [roll_count, roll_edit rfl, roll_edit rfl]

theorem roll_accept {ip : Ip} {port : Nat} {born : Time} :
    (server.accept ip port born).roll = server.roll ∨
      (server.accept ip port born).roll = server.roll.enter server.conns := by
  unfold accept
  simp only
  split
  · exact Or.inl (roll_note rfl)
  · split
    · exact Or.inl (roll_note rfl)
    · right
      rw [roll_log]
      refine Roll.ext rfl ?_ rfl rfl
      funext other
      by_cases here : other = server.conns
      · subst here
        exact (congrArg Client.name (Function.update_self ..)).trans
          (Function.update_self server.conns none server.roll.name).symm
      · exact (congrArg Client.name (Function.update_of_ne here ..)).trans
          (Function.update_of_ne here none server.roll.name).symm

/-! ### When it stays exact -/

/-- The roll is exact, and the Lobby has been told nothing since `before`. -/
structure Before (before : List Nat) (server : Server) : Prop where
  exact_ : server.roll.Exact
  untold : server.roll.told = before

/-- The roll is exact, and whatever the Lobby has been told since `before` is the
number of clients with names. -/
structure Current (before : List Nat) (server : Server) : Prop where
  exact_ : server.roll.Exact
  told : server.roll.Told before

theorem Before.congr (ready : Before before server) (same : after.roll = server.roll) :
    Before before after := by
  refine ⟨?_, ?_⟩
  · rw [same]
    exact ready.exact_
  · rw [same]
    exact ready.untold

theorem Before.current (ready : Before before server) : Current before server :=
  ⟨ready.exact_, Roll.told_same ready.untold⟩

theorem Current.congr (current : Current before server) (same : after.roll = server.roll) :
    Current before after := by
  refine ⟨?_, ?_⟩
  · rw [same]
    exact current.exact_
  · rw [same]
    exact current.told

/-- The Lobby is told how many entries there are, which is how many clients have
names. -/
theorem current_announced {roll : Roll Conn Text} (exact_ : roll.Exact)
    (told : roll.Told before) (same : after.roll = announced oracle roll) :
    Current before after := by
  unfold announced at same
  split at same
  · refine ⟨?_, ?_⟩
    · rw [same]
      exact exact_.tell
    · rw [same]
      exact told.tell exact_
  · refine ⟨?_, ?_⟩
    · rw [same]
      exact exact_
    · rw [same]
      exact told

theorem Hushed.roll (hushed : Hushed server after) : after.roll = server.roll :=
  Roll.ext hushed.table.1 (congrArg Floor.name hushed.floor) (congrArg Dict.entries hushed.byName)
    hushed.untold

theorem drop_absent (absent : c ∉ server.clients) : server.drop oracle c = server := by
  unfold drop
  exact if_neg absent

theorem Before.drop (ready : Before before server) : Current before (server.drop oracle c) := by
  by_cases here : c ∈ server.clients
  · exact current_announced (ready.exact_.leave here) (Roll.told_same ready.untold)
      (roll_drop ready.exact_ here)
  · rw [drop_absent here]
    exact ready.current

/-- A client without a name may go at any time. -/
theorem Current.expel (current : Current before server) (unnamed : (server.object c).name = none) :
    Current before (server.drop oracle c) := by
  by_cases here : c ∈ server.clients
  · exact current_announced (current.exact_.leave here)
      (current.told.congr rfl (Roll.population_leave unnamed)) (roll_drop current.exact_ here)
  · rw [drop_absent here]
    exact current

theorem Before.accept {ip : Ip} {port : Nat} {born : Time} (ready : Before before server)
    (tidy : Tidy server) : Before before (server.accept ip port born) := by
  rcases @roll_accept server ip port born with same | entered
  · exact ready.congr same
  · refine ⟨?_, ?_⟩
    · rw [entered]
      exact ready.exact_.enter (new_connection tidy)
    · rw [entered]
      exact ready.untold

theorem Current.tryPair (current : Current before server)
    (tried : server.tryPair oracle c = .ok after) : Current before after := by
  rcases tryPair_roll tried with same | same
  · exact current.congr same
  · exact current_announced current.exact_ current.told same

theorem Before.onHello (ready : Before before server)
    (introduced : (readHello payload).toOption.isSome →
      c ∈ server.clients ∧ (server.object c).name = none)
    (greeted : server.onHello oracle patience c payload = .ok after) : Current before after := by
  have noted : Before before (server.noteTv c payload) := ready.congr roll_noteTv
  unfold Server.onHello at greeted
  simp only at greeted
  cases read : readHello payload with
  | error refusal =>
      rw [read] at greeted
      obtain rfl := Except.ok.inj greeted
      exact Before.drop (noted.congr roll_log)
  | ok hello =>
      obtain ⟨tv, asked⟩ := hello
      rw [read] at greeted introduced
      obtain ⟨here, unnamed⟩ := introduced rfl
      simp only at greeted
      split at greeted
      · cases greeted
      · rename_i name drawn found
        have unused : (server.noteTv c payload).byName.get? name = none :=
          Option.not_isSome_iff_eq_none.mp (Bool.eq_false_iff.mp (freeName_free found))
        have free : name ∉ (server.noteTv c payload).roll.entries.map Prod.fst := by
          intro member
          obtain ⟨entry, isEntry, rfl⟩ := List.mem_map.mp member
          have isSome : (server.noteTv c payload).byName.get? entry.1 = some entry.2 :=
            Dict.mem_entries.mp isEntry
          rw [unused] at isSome
          cases isSome
        have name_ : (server.noteTv c payload).roll.name = server.roll.name :=
          congrArg Roll.name roll_noteTv
        have members : (server.noteTv c payload).roll.members = server.roll.members :=
          congrArg Roll.members roll_noteTv
        have registered : Current before
            ((server.noteTv c payload).register oracle c name tv drawn) := by
          refine current_announced (noted.exact_.call ?_ ?_ free) (Roll.told_same noted.untold)
            (roll_register free)
          · rw [members]
            exact here
          · rw [name_]
            exact unnamed
        exact registered.tryPair greeted

theorem Before.handle {ftype : Byte} (ready : Before before server)
    (introduced : ftype = tHello → (readHello payload).toOption.isSome →
      c ∈ server.clients ∧ (server.object c).name = none)
    (handled : server.handle oracle patience c ftype payload = .ok after) :
    Current before after := by
  unfold Server.handle at handled
  split at handled
  · obtain ⟨middle, relayed, rest⟩ := bind_ok.mp handled
    have forwarded := ready.congr (forward_roll relayed)
    split at rest
    · obtain rfl := Except.ok.inj rest
      exact (forwarded.congr roll_logCrc).current
    · obtain rfl := Except.ok.inj rest
      exact forwarded.current
  · split at handled
    · rename_i isHello
      exact ready.onHello (introduced isHello) handled
    · split at handled
      · obtain ⟨data, -, sent⟩ := bind_ok.mp handled
        obtain rfl := Except.ok.inj sent
        exact (ready.congr roll_send).current
      · split at handled
        · exact ready.current.tryPair handled
        · split at handled
          · obtain rfl := Except.ok.inj handled
            exact (ready.congr roll_send).current
          · split at handled
            · obtain rfl := Except.ok.inj handled
              exact ready.drop
            · obtain rfl := Except.ok.inj handled
              exact (ready.congr roll_log).current

theorem Before.serviceOnce {again : Bool} (ready : Before before server)
    (introduced : ∀ body, server.pending c = some body → body.headD 0 = tHello →
      (readHello body.tail).toOption.isSome →
        c ∈ server.clients ∧ (server.object c).name = none)
    (served : server.serviceOnce oracle patience c = .ok (after, again)) :
    Current before after := by
  unfold Server.serviceOnce at served
  cases read : readFrame (server.object c).rx with
  | short =>
      rw [read] at served
      obtain ⟨rfl, -⟩ := Prod.mk.inj (Except.ok.inj served)
      exact ready.current
  | bad length =>
      rw [read] at served
      obtain ⟨rfl, -⟩ := Prod.mk.inj (Except.ok.inj served)
      exact Before.drop (ready.congr (roll_log.trans roll_count))
  | whole body rest =>
      rw [read] at served
      obtain ⟨middle, handled, done⟩ := bind_ok.mp served
      obtain ⟨rfl, -⟩ := Prod.mk.inj (Except.ok.inj done)
      have isPending : server.pending c = some body := by rw [pending, read]
      have taken : Before before (server.edit c fun client => { client with rx := rest }) :=
        ready.congr (roll_edit rfl)
      refine taken.handle ?_ handled
      intro isHello accepted
      rw [edit_self]
      exact introduced body isPending isHello accepted

theorem start_roll {now : Time} : (Server.start now).roll.Exact where
  nodup := List.nodup_nil
  distinct := List.nodup_nil
  listed _ _ := iff_of_false List.not_mem_nil fun named => List.not_mem_nil named.1

end Server

namespace Loop

variable {oracle : Oracle} {loop after : Loop} {act : Act} {now : Time}

/-- A HELLO that is accepted comes from a client that is connected and has no
name yet. -/
def Introduced (loop : Loop) (act : Act) : Prop :=
  ∀ dispatched ∈ loop.dispatching act, dispatched.2.headD 0 = tHello →
    (Server.readHello dispatched.2.tail).toOption.isSome →
      dispatched.1 ∈ loop.state.clients ∧ (loop.state.object dispatched.1).name = none

instance (loop : Loop) (act : Act) : Decidable (Introduced loop act) :=
  inferInstanceAs (Decidable (∀ dispatched ∈ loop.dispatching act, _))

theorem roll_next (regular : loop.state.Regular) (introduced : Introduced loop act)
    (step : Step oracle loop act after) (exact_ : loop.state.roll.Exact) :
    after.state.Current (Server.published loop.state.seen) := by
  have ready : loop.state.Before (Server.published loop.state.seen) := ⟨exact_, rfl⟩
  rcases step_cases oracle step with ⟨turn, -, same⟩ |
    ⟨patience, job, rest, more, isWork, isNext, performed, -⟩
  · rw [same]
    exact ready.current
  · subst isWork
    refine Server.perform_leads (fun ready hushed => ready.congr hushed.roll)
      (fun current hushed => current.congr hushed.roll) (fun ready => ready.current)
      (fun ready => ready.drop) (fun current unnamed => current.expel unnamed)
      (ready.accept regular.tidy).current ?_ performed ready
    rintro c again rfl once
    refine ready.serviceOnce ?_ once
    intro body isPending
    exact introduced (c, body) (dispatching_service isNext isPending)

theorem roll_run (run : Run (Step oracle) Introduced (start now) loop) :
    loop.state.roll.Exact := by
  have both : loop.state.Regular ∧ loop.state.roll.Exact := by
    refine run.invariant (fun loop => loop.state.Regular ∧ loop.state.roll.Exact)
      ⟨Server.start_regular, Server.start_roll⟩ ?_
    rintro loop act after ⟨regular, exact_⟩ introduced step
    exact ⟨regular_next step regular, (roll_next regular introduced step exact_).exact_⟩
  exact both.2

end Loop

end DragsterNet.Relay
