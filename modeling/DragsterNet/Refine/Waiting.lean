/-
Module: DragsterNet.Refine.Waiting
Purpose: Who waits for a partner in the two relays: nobody next to somebody else
  who has not played yet.
Trusted boundary: none
Main exports: auto_pairs
-/
import DragsterNet.Relay.Service
import DragsterNet.CRelay.Registry

namespace DragsterNet

open Lib

/-! ### The relay in Python -/

namespace Relay.Server

variable {oracle : Oracle} {server after : Server} {c : Conn} {patience : Nat}

/-- With nobody waiting, nobody else is idle. -/
theorem seated_of_waiting (alone : server.waiting c = none) : server.floor.Seated c := by
  refine Or.inr ?_
  rintro other apart ⟨here, named, free⟩
  have nobody := List.argmin_eq_none.mp alone
  have member : other ∈ server.idle.filter (· ≠ c) := by
    apply List.mem_filter.mpr
    refine ⟨List.mem_filter.mpr ⟨here, ?_⟩, decide_eq_true apart⟩
    rw [Bool.and_eq_true]
    exact ⟨named, Option.isNone_iff_eq_none.mpr free⟩
  rw [nobody] at member
  cases member

/-- The caller is seated, by a pairing or because it waits alone. -/
theorem tryPair_floor (tried : server.tryPair oracle c = .ok after) :
    after.floor = server.floor ∧ server.floor.Seated c ∨
      ∃ other, after.floor = server.floor.pair 0 1 other c := by
  cases found : server.waiting c with
  | none =>
      unfold tryPair at tried
      rw [found] at tried
      obtain rfl := Except.ok.inj tried
      exact Or.inl ⟨rfl, seated_of_waiting found⟩
  | some other =>
      unfold tryPair at tried
      rw [found] at tried
      exact Or.inr ⟨other, (pair_cases (waiting_cases found).2.1 tried).2.1⟩

theorem tryPair_table (tried : server.tryPair oracle c = .ok after) : SameTable server after := by
  rcases tryPair_cases tried with rfl | ⟨other, -, table, -⟩
  · exact ⟨rfl, rfl⟩
  · exact table

/-- The clients are as the table has them, and settled. -/
structure Settled (server : Server) : Prop where
  tidy : Tidy server
  settled : server.floor.Settled

theorem Settled.congr (settled : Settled server) (table : SameTable server after)
    (floor : after.floor = server.floor) : Settled after := by
  refine ⟨table.tidy settled.tidy, ?_⟩
  rw [floor]
  exact settled.settled

theorem drop_settled (settled : Settled server) : Settled (server.drop oracle c) := by
  by_cases here : c ∈ server.clients
  · obtain ⟨clients, conns, floor⟩ := @drop_cases oracle server c settled.tidy here
    refine ⟨?_, ?_⟩
    · unfold Tidy
      rw [clients, conns]
      exact ⟨settled.tidy.1.erase c, fun other member =>
        settled.tidy.2 other (List.mem_of_mem_erase member)⟩
    · rw [floor]
      exact settled.settled.leave
  · unfold drop
    rw [if_neg here]
    exact settled

theorem onJoin_settled (settled : Settled server) (joined : server.onJoin oracle c = .ok after) :
    Settled after ∧ after.floor.Seated c := by
  have table : SameTable server after := tryPair_table joined
  rcases tryPair_floor joined with ⟨floor, seated⟩ | ⟨other, floor⟩
  · refine ⟨settled.congr table floor, ?_⟩
    rw [floor]
    exact seated
  · refine ⟨⟨table.tidy settled.tidy, ?_⟩, ?_⟩
    · rw [floor]
      exact settled.settled.pair
    · rw [floor]
      exact Floor.seated_pair

theorem onHello_settled {payload : Bytes} (settled : Settled server)
    (greeted : server.onHello oracle patience c payload = .ok after) :
    Settled after ∧ ((readHello payload).toOption.isSome → after.floor.Seated c) := by
  have noted : Settled (server.noteTv c payload) := settled.congr table_noteTv floor_noteTv
  unfold onHello at greeted
  simp only at greeted
  cases read : readHello payload with
  | error refusal =>
      rw [read] at greeted
      obtain rfl := Except.ok.inj greeted
      exact ⟨drop_settled (noted.congr ⟨rfl, rfl⟩ rfl), fun absurd => by cases absurd⟩
  | ok hello =>
      obtain ⟨tv, asked⟩ := hello
      rw [read] at greeted
      simp only at greeted
      split at greeted
      · cases greeted
      · rename_i name drawn found
        have table : SameTable (server.noteTv c payload) after :=
          table_register.trans (tryPair_table greeted)
        have called := @floor_register oracle (server.noteTv c payload) c name tv drawn
        rcases tryPair_floor greeted with ⟨floor, seated⟩ | ⟨other, floor⟩
        · rw [called] at floor seated
          refine ⟨⟨table.tidy noted.tidy, ?_⟩, fun _ => ?_⟩
          · rw [floor]
            exact noted.settled.call seated
          · rw [floor]
            exact seated
        · rw [called] at floor
          refine ⟨⟨table.tidy noted.tidy, ?_⟩, fun _ => ?_⟩
          · rw [floor]
            exact noted.settled.call_pair
          · rw [floor]
            exact Floor.seated_pair

/-- A frame keeps this, and seats its sender if it gets as far as `try_pair`. -/
theorem handle_settled {body : Bytes} (settled : Settled server)
    (handled : server.handle oracle patience c (body.headD 0) body.tail = .ok after) :
    Settled after ∧ (callsPairing body = true → after.floor.Seated c) := by
  have silent : body.headD 0 ≠ tHello → body.headD 0 ≠ tJoin →
      callsPairing body = true → after.floor.Seated c := by
    intro notHello notJoin calls
    rcases of_decide_eq_true calls with isJoin | ⟨isHello, -⟩
    · exact absurd isJoin notJoin
    · exact absurd isHello notHello
  unfold handle at handled
  split at handled
  · rename_i relayed
    obtain ⟨middle, forwarded, rest⟩ := bind_ok.mp handled
    obtain ⟨table, floor⟩ := forward_cases forwarded
    refine ⟨?_, silent ?_ ?_⟩
    · split at rest
      · obtain rfl := Except.ok.inj rest
        exact settled.congr (table.trans table_logCrc) (floor_logCrc.trans floor)
      · obtain rfl := Except.ok.inj rest
        exact settled.congr table floor
    · intro isHello
      rw [isHello] at relayed
      revert relayed
      decide
    · intro isJoin
      rw [isJoin] at relayed
      revert relayed
      decide
  · split at handled
    · rename_i isHello
      obtain ⟨settled', seated⟩ := onHello_settled settled handled
      refine ⟨settled', fun calls => seated ?_⟩
      rcases of_decide_eq_true calls with isJoin | ⟨-, read⟩
      · rw [isHello] at isJoin
        cases isJoin
      · exact read
    · rename_i notHello
      split at handled
      · rename_i isList
        obtain ⟨table, floor⟩ := sendLobby_cases handled
        refine ⟨settled.congr table floor, silent notHello ?_⟩
        intro isJoin
        rw [isList] at isJoin
        cases isJoin
      · split at handled
        · obtain ⟨settled', seated⟩ := onJoin_settled settled handled
          exact ⟨settled', fun _ => seated⟩
        · rename_i notJoin
          refine ⟨?_, silent notHello notJoin⟩
          split at handled
          · obtain rfl := Except.ok.inj handled
            exact settled.congr ⟨rfl, rfl⟩ floor_send
          · split at handled
            · obtain rfl := Except.ok.inj handled
              exact drop_settled settled
            · obtain rfl := Except.ok.inj handled
              exact settled.congr ⟨rfl, rfl⟩ rfl

theorem serviceOnce_settled {again : Bool} (settled : Settled server)
    (served : server.serviceOnce oracle patience c = .ok (after, again)) :
    Settled after ∧ ∀ body, server.pending c = some body → callsPairing body = true →
      after.floor.Seated c := by
  unfold serviceOnce at served
  unfold pending
  cases read : readFrame (server.object c).rx with
  | short =>
      rw [read] at served
      obtain ⟨rfl, -⟩ := Prod.mk.inj (Except.ok.inj served)
      exact ⟨settled, fun body absurd => by cases absurd⟩
  | bad length =>
      rw [read] at served
      obtain ⟨rfl, -⟩ := Prod.mk.inj (Except.ok.inj served)
      exact ⟨drop_settled (settled.congr ⟨rfl, rfl⟩ rfl), fun body absurd => by cases absurd⟩
  | whole body rest =>
      rw [read] at served
      obtain ⟨middle, handled, done⟩ := bind_ok.mp served
      obtain ⟨rfl, -⟩ := Prod.mk.inj (Except.ok.inj done)
      have taken : Settled (server.edit c fun client => { client with rx := rest }) :=
        settled.congr ⟨rfl, rfl⟩ (floor_edit rfl rfl rfl)
      obtain ⟨settled', seated⟩ := handle_settled taken handled
      refine ⟨settled', fun body' isBody calls => seated ?_⟩
      obtain rfl := Option.some.inj isBody
      exact calls

theorem accept_settled {ip : Ip} {port : Nat} {born : Time} (settled : Settled server) :
    Settled (server.accept ip port born) := by
  refine ⟨accept_tidy settled.tidy, ?_⟩
  obtain ⟨-, ⟨-, floor⟩ | ⟨-, floor⟩⟩ := @accept_cases server ip port born
  · rw [floor]
    exact settled.settled
  · rw [floor]
    exact settled.settled.enter

theorem perform_settled {job : Job} {more : List Job}
    (performed : server.perform oracle patience job = .ok (after, more)) (settled : Settled server) :
    Settled after :=
  perform_keeps (fun settled quiet => settled.congr quiet.table quiet.floor) drop_settled
    (accept_settled settled) (fun _ once => (serviceOnce_settled settled once).1) performed settled

theorem start_settled {now : Time} : Settled (Server.start now) where
  tidy := start_sound.tidy
  settled := ⟨fun _ _ here => absurd here.1.1 List.not_mem_nil, fun _ linked => by cases linked⟩

end Relay.Server

namespace Relay.Loop

variable {oracle : Oracle} {loop after : Loop} {act : Act} {now : Time}

theorem settled_run {meets : Loop → Act → Prop} (run : Run (Step oracle) meets (start now) loop) :
    loop.state.Settled := by
  apply run.invariant (fun loop => loop.state.Settled) Server.start_settled
  intro before act after settled _ step
  rcases step_cases oracle step with ⟨turn, -, same⟩ | ⟨patience, job, rest, more, -, -, performed, -⟩
  · rw [same]
    exact settled
  · exact Server.perform_settled performed settled

/-- Who sends a frame that gets as far as `try_pair` is seated afterwards. -/
theorem seated_next {c : Conn} {body : Bytes} (settled : loop.state.Settled)
    (dispatched : loop.dispatching act = some (c, body)) (calls : Server.callsPairing body = true)
    (step : Step oracle loop act after) : after.state.floor.Seated c := by
  rcases step_cases oracle step with ⟨turn, isTurn, -⟩ |
    ⟨patience, job, rest, more, isWork, isNext, performed, -⟩
  · rw [isTurn] at dispatched
    cases dispatched
  · rw [isWork] at dispatched
    unfold dispatching at dispatched
    simp only [isNext] at dispatched
    cases job with
    | service sender =>
        obtain ⟨pending, isPending, same⟩ := Option.map_eq_some_iff.mp dispatched
        obtain ⟨rfl, rfl⟩ := Prod.mk.inj same
        obtain ⟨⟨served, again⟩, once, done⟩ := bind_ok.mp performed
        obtain ⟨same, -⟩ := Prod.mk.inj (Except.ok.inj done)
        rw [← same]
        exact (Server.serviceOnce_settled settled once).2 _ isPending calls
    | _ => cases dispatched

end Relay.Loop

/-! ### The relay in C -/

namespace CRelay.State

open Relay

variable {oracle : Oracle} {state after : State} {ci host : Slot} {payload : Bytes}

/-- The slots as a matchmaker's floor, with their names. -/
def hall (state : State) : Floor Slot Bytes Nat where
  present := state.board.floor.present
  name ci := (state.roster.badge ci).name
  partner := state.board.floor.partner
  role := state.board.floor.role

theorem hall_congr (board : after.board = state.board)
    (names : ∀ ci, (after.roster.badge ci).name = (state.roster.badge ci).name) :
    after.hall = state.hall := by
  unfold hall
  rw [board]
  exact Floor.ext rfl (funext names) rfl rfl

theorem Quiet.hall (quiet : Quiet state after) : after.hall = state.hall := by
  apply hall_congr quiet.board
  rw [quiet.roster]
  exact fun _ => rfl

theorem leave_name {roster : Roster} (other : Slot) :
    ((roster.leave ci).badge other).name = (roster.badge other).name := by
  have struck : ∀ (roster : Roster) (name : Bytes), (roster.strike name ci).badge = roster.badge := by
    intro roster name
    unfold Roster.strike
    split
    · rfl
    · split
      · rfl
      · rfl
  have marked : ((roster.mark ci).badge other).name = (roster.badge other).name :=
    congrFun Roster.roll_mark other
  unfold Roster.leave
  simp only
  split
  · rw [struck]
    exact marked
  · exact marked

theorem announced_badge {roster : Roster} : (announced oracle roster).badge = roster.badge := by
  unfold announced
  split
  · rfl
  · rfl

theorem hall_drop (alive : (state.clients ci).dead = false) :
    (state.drop oracle ci).hall = state.hall.leave ci := by
  obtain ⟨-, board, -⟩ := @drop_alive oracle state ci alive
  have names : ∀ other, ((state.drop oracle ci).roster.badge other).name =
      (state.roster.badge other).name := by
    intro other
    rw [roster_drop alive, announced_badge]
    exact leave_name other
  have left := @Board.floor_leave state.board ci
  unfold hall
  rw [board, left]
  refine Floor.ext rfl (funext names) ?_ rfl
  rfl

/-- With nobody waiting, nobody else is idle. -/
theorem seated_of_waiting (tidy : state.Tidy) (alone : state.waiting ci = none) :
    state.hall.Seated ci := by
  have searched : ∀ (slots : List Slot) (best : Option Slot),
      slots.foldl (state.older ci) best = none →
        best = none ∧ ∀ other ∈ slots, ¬ Eligible state ci other := by
    intro slots
    induction slots with
    | nil => exact fun best done => ⟨done, fun _ member => absurd member List.not_mem_nil⟩
    | cons slot rest inductionHypothesis =>
        intro best done
        obtain ⟨turn, nobody⟩ := inductionHypothesis _ done
        unfold older at turn
        split at turn
        · rename_i passed
          refine ⟨turn, fun other member => ?_⟩
          rcases List.mem_cons.mp member with rfl | later
          · rintro ⟨apart, named, free⟩
            rcases passed with same | unnamed | linked
            · exact apart same
            · rw [named] at unnamed
              cases unnamed
            · rw [free] at linked
              cases linked
          · exact nobody other later
        · cases best with
          | none => cases turn
          | some first =>
              simp only at turn
              split at turn
              · cases turn
              · cases turn
  obtain ⟨-, nobody⟩ := searched state.order none alone
  refine Or.inr ?_
  rintro other apart ⟨present, named, free⟩
  refine nobody other ((tidy.mem_iff other).mpr present) ⟨apart, ?_, free⟩
  by_contra unnamed
  have none_ := unnamed_badge (Bool.eq_false_iff.mpr unnamed)
  have isName : (state.roster.badge other).name.isSome := named
  rw [none_] at isName
  cases isName

theorem hall_tryPair (found : state.waiting ci = some host) :
    (state.tryPair oracle ci).hall = state.hall.pair 0 1 host ci := by
  have apart : host ≠ ci := (waiting_cases found).2.1
  have board : (state.tryPair oracle ci).board = state.board.link host ci := by
    have linked : ({ state with seeds := state.seeds + 1 }.link host ci).board =
        state.board.link host ci := board_link
    have started : ∀ (state : State) {seed : BitVec 16} {role : Nat} {me them : Slot},
        (startFrame oracle state seed role me them).board = state.board := by
      intro state seed role me them
      have stays : Stays ci state (startFrame oracle state seed role me them) := startFrame_stays
      exact stays.board
    unfold tryPair
    rw [found]
    simp only
    rw [board_lobbyUpdateCount, board_log]
    exact (started _).trans ((started _).trans linked)
  have names : ∀ other, ((state.tryPair oracle ci).roster.badge other).name =
      (state.roster.badge other).name := by
    intro other
    rcases @roster_tryPair oracle state ci with same | same
    · rw [same]
    · rw [same, announced_badge]
  have linked := @Board.floor_link state.board host ci apart
  unfold hall
  rw [board, linked]
  exact Floor.ext rfl (funext names) rfl rfl

theorem hall_register {name : Bytes} {tv : Byte} {drawn : Nat} :
    (state.register oracle ci name tv drawn).hall = state.hall.call ci name := by
  have board : (state.register oracle ci name tv drawn).board = state.board :=
    (@register_stays oracle state ci name tv drawn).board
  unfold hall
  rw [board]
  refine Floor.ext rfl ?_ rfl rfl
  funext other
  have named : ((state.register oracle ci name tv drawn).clients other).badge.name =
      ((state.edit ci fun client =>
        { client with name := name, hasName := true }).clients other).badge.name := by
    rw [clients_register]
  refine Eq.trans named ?_
  by_cases here : other = ci
  · subst here
    rw [edit_self]
    simp [Floor.call, Client.badge]
  · rw [edit_of_ne here]
    simp [Floor.call, roster, here]

/-- The order is as the slots have it, and nobody new waits next to somebody. -/
structure Settled (state : State) : Prop where
  tidy : state.Tidy
  settled : state.hall.Settled

theorem Settled.quiet (settled : Settled state) (quiet : Quiet state after) : Settled after := by
  refine ⟨settled.tidy.roster quiet.roster, ?_⟩
  rw [quiet.hall]
  exact settled.settled

theorem drop_settled (settled : Settled state) : Settled (state.drop oracle ci) := by
  cases dead : (state.clients ci).dead with
  | true =>
      rw [drop_dead dead]
      exact settled
  | false =>
      have moved : Moved False ci state (state.drop oracle ci) := drop_moved
      refine ⟨moved.tidy settled.tidy, ?_⟩
      rw [hall_drop dead]
      exact settled.settled.leave

theorem tryPair_tidy (tidy : state.Tidy) : (state.tryPair oracle ci).Tidy := by
  have moved : Moved True ci state (state.tryPair oracle ci) := tryPair_moved trivial
  exact moved.tidy tidy

theorem tryPair_settled (settled : Settled state) :
    Settled (state.tryPair oracle ci) ∧ (state.tryPair oracle ci).hall.Seated ci := by
  cases found : state.waiting ci with
  | none =>
      have alone : state.tryPair oracle ci = state := by
        unfold tryPair
        rw [found]
      rw [alone]
      exact ⟨settled, seated_of_waiting settled.tidy found⟩
  | some host =>
      refine ⟨⟨tryPair_tidy settled.tidy, ?_⟩, ?_⟩
      · rw [hall_tryPair found]
        exact settled.settled.pair
      · rw [hall_tryPair found]
        exact Floor.seated_pair

/-- Who is registered and then looks for a partner. -/
theorem register_settled {name : Bytes} {tv : Byte} {drawn : Nat} (settled : Settled state) :
    Settled ((state.register oracle ci name tv drawn).tryPair oracle ci) ∧
      ((state.register oracle ci name tv drawn).tryPair oracle ci).hall.Seated ci := by
  have called := @hall_register oracle state ci name tv drawn
  have moved : Moved False ci state (state.register oracle ci name tv drawn) :=
    .stays register_stays
  have tidy := moved.tidy settled.tidy
  generalize state.register oracle ci name tv drawn = registered at called tidy ⊢
  cases found : registered.waiting ci with
  | none =>
      have alone : registered.tryPair oracle ci = registered := by
        unfold tryPair
        rw [found]
      have seated := seated_of_waiting tidy found
      rw [alone]
      refine ⟨⟨tidy, ?_⟩, seated⟩
      rw [called] at seated ⊢
      exact settled.settled.call seated
  | some host =>
      refine ⟨⟨tryPair_tidy tidy, ?_⟩, ?_⟩
      · rw [hall_tryPair found, called]
        exact settled.settled.call_pair
      · rw [hall_tryPair found]
        exact Floor.seated_pair

theorem quiet_noteTv : Quiet state (state.noteTv ci payload) :=
  ⟨roster_noteTv, (@noteTv_stays state ci payload).board⟩

theorem quiet_forward {ftype : Byte} : Quiet state (state.forward ci ftype payload) :=
  ⟨roster_forward, forward_stays.board⟩

theorem quiet_logCrc : Quiet state (state.logCrc ci payload) :=
  ⟨roster_logCrc, (@logCrc_stays state ci payload).board⟩

theorem quiet_send {src : Option Slot} {ftype : Byte} :
    Quiet state (state.sendFrame src ci ftype payload) :=
  ⟨roster_clientSend, board_clientSend⟩

theorem onHello_settled (settled : Settled state) :
    Settled (state.onHello oracle ci payload) ∧
      (state.admits oracle payload = true → (state.onHello oracle ci payload).hall.Seated ci) := by
  have noted : Settled (state.noteTv ci payload) := settled.quiet quiet_noteTv
  have taken : (state.noteTv ci payload).nameTaken = state.nameTaken := by
    unfold nameTaken
    rw [names_noteTv.1]
  unfold onHello admits
  simp only
  cases readHello payload with
  | error refusal =>
      exact ⟨drop_settled (noted.quiet ⟨roster_log, rfl⟩), fun absurd => by cases absurd⟩
  | ok hello =>
      obtain ⟨tv, asked⟩ := hello
      simp only
      rw [taken, names_noteTv.2]
      cases freeName state.nameTaken (nextDigit oracle) nameGuard state.digits asked with
      | error last =>
          refine ⟨drop_settled (noted.quiet ⟨?_, rfl⟩), fun absurd => by cases absurd⟩
          exact roster_log.trans rfl
      | ok free =>
          have registered := @register_settled oracle (state.noteTv ci payload) ci free.1 tv free.2
            noted
          exact ⟨registered.1, fun _ => registered.2⟩

/-- A frame keeps this, and seats its sender if it gets as far as `try_pair`. -/
theorem handle_settled {body : Bytes} (settled : Settled state) :
    Settled (state.handle oracle ci (body.headD 0) body.tail) ∧
      (state.callsPairing oracle body = true →
        (state.handle oracle ci (body.headD 0) body.tail).hall.Seated ci) := by
  unfold handle
  by_cases relayed : body.headD 0 ∈ relayTypes
  · rw [if_pos relayed]
    refine ⟨?_, fun calls => ?_⟩
    · simp only
      split
      · exact (settled.quiet quiet_forward).quiet quiet_logCrc
      · exact settled.quiet quiet_forward
    · rcases of_decide_eq_true calls with isJoin | ⟨isHello, -⟩
      · rw [isJoin] at relayed
        exact absurd relayed (by decide)
      · rw [isHello] at relayed
        exact absurd relayed (by decide)
  rw [if_neg relayed]
  by_cases isHello : body.headD 0 = tHello
  · rw [if_pos isHello]
    obtain ⟨settled', seated⟩ := @onHello_settled oracle state ci body.tail settled
    refine ⟨settled', fun calls => seated ?_⟩
    rcases of_decide_eq_true calls with isJoin | ⟨-, admitted⟩
    · rw [isHello] at isJoin
      cases isJoin
    · exact admitted
  rw [if_neg isHello]
  by_cases isJoin : body.headD 0 = tJoin
  · rw [if_neg (by rw [isJoin]; decide), if_pos isJoin]
    obtain ⟨settled', seated⟩ := @tryPair_settled oracle state ci settled
    exact ⟨settled', fun _ => seated⟩
  · refine ⟨?_, fun calls => ?_⟩
    · split
      · exact settled.quiet quiet_send
      · split
        · exact settled.quiet quiet_send
        · split
          · exact drop_settled settled
          · exact settled.quiet ⟨roster_log, rfl⟩
    · rcases of_decide_eq_true calls with join | ⟨hello, -⟩
      · exact absurd join isJoin
      · exact absurd hello isHello

theorem serviceOnce_settled (settled : Settled state) :
    Settled (state.serviceOnce oracle ci).1 ∧
      ∀ body, state.pending ci = some body → state.callsPairing oracle body = true →
        (state.serviceOnce oracle ci).1.hall.Seated ci := by
  unfold serviceOnce pending
  cases readFrame (state.clients ci).rx with
  | short => exact ⟨settled, fun body absurd => by cases absurd⟩
  | bad length =>
      refine ⟨drop_settled (settled.quiet ⟨roster_log.trans roster_count, rfl⟩),
        fun body absurd => by cases absurd⟩
  | whole body rest =>
      have taken : Settled (state.edit ci fun client => { client with rx := rest }) :=
        settled.quiet ⟨roster_edit_same rfl, board_edit_same rfl⟩
      obtain ⟨settled', seated⟩ := @handle_settled oracle _ ci body taken
      refine ⟨settled', fun body' isBody calls => seated ?_⟩
      obtain rfl := Option.some.inj isBody
      exact calls

theorem hall_clientAlloc {fd : Conn} {ip : Ip} {port : Nat} {born : Time} :
    (state.clientAlloc ci fd ip port born).hall = state.hall.enter ci := by
  have seated := @Board.floor_seat state.board ci fd
  unfold hall
  rw [board_clientAlloc, seated]
  refine Floor.ext rfl ?_ rfl rfl
  funext other
  by_cases here : other = ci
  · subst here
    simp [Floor.enter, roster, clientAlloc, edit, Client.badge]
  · simp [Floor.enter, roster, clientAlloc, edit, here]

theorem hall_reap : state.reap.hall = state.hall := by
  have freed := @Board.floor_free state.board
  have names : ∀ ci, (state.reap.roster.badge ci).name = (state.roster.badge ci).name := by
    intro ci
    rw [roster_reap]
    unfold Roster.free
    simp only
    split
    · rfl
    · rfl
  unfold hall
  rw [board_reap, freed]
  exact Floor.ext rfl (funext names) rfl rfl

theorem accept_settled {ip : Ip} {port : Nat} {born : Time} (settled : Settled state) :
    Settled (state.acceptClient ip port born) := by
  refine ⟨settled.tidy.accept, ?_⟩
  unfold acceptClient
  simp only
  split
  · exact settled.settled
  · split
    · exact settled.settled
    · split
      · exact settled.settled
      · rename_i ci found
        have seated : ((({ state with conns := state.conns + 1 } : State).clientAlloc ci state.conns
            ip port born).log (.connected ip port)).hall = state.hall.enter ci :=
          (Quiet.hall ⟨roster_log, rfl⟩).trans hall_clientAlloc
        rw [seated]
        exact settled.settled.enter

theorem reap_settled (settled : Settled state) : Settled state.reap := by
  refine ⟨settled.tidy.reap, ?_⟩
  rw [hall_reap]
  exact settled.settled

theorem perform_settled {job : Job} (settled : Settled state) :
    Settled (state.perform oracle job).1 := by
  apply perform_leads Settled.quiet Settled.quiet (fun settled => settled) drop_settled
    (fun settled _ => drop_settled settled) (accept_settled settled)
  · rintro ci -
    exact (serviceOnce_settled settled).1
  · exact reap_settled
  · exact settled

theorem start_settled {now : Time} : Settled (State.start now) where
  tidy := start_sound.tidy
  settled := ⟨fun _ _ here => (by cases here.1.1.1), fun _ linked => by cases linked⟩

end CRelay.State

namespace CRelay.Loop

open Relay

variable {oracle : Oracle} {loop after : Loop} {act : Act} {now : Time}

theorem settled_run {meets : Loop → Act → Prop} (run : Run (Step oracle) meets (start now) loop) :
    loop.state.Settled := by
  apply run.invariant (fun loop => loop.state.Settled) State.start_settled
  intro before act after settled _ step
  rcases step_cases oracle step with ⟨turn, -, -, rfl⟩ | ⟨job, rest, -, -, rfl⟩
  · exact settled
  · exact State.perform_settled settled

/-- Who sends a frame that gets as far as `try_pair` is seated afterwards. -/
theorem seated_next {ci : Slot} {body : Bytes} (settled : loop.state.Settled)
    (dispatched : loop.dispatching act = some (ci, body))
    (calls : loop.state.callsPairing oracle body = true)
    (step : Step oracle loop act after) : after.state.hall.Seated ci := by
  rcases step_cases oracle step with ⟨turn, rfl, -, -⟩ | ⟨job, rest, rfl, isNext, rfl⟩
  · cases dispatched
  · unfold dispatching at dispatched
    simp only [isNext] at dispatched
    cases job with
    | service sender =>
        obtain ⟨pending, isPending, same⟩ := Option.map_eq_some_iff.mp dispatched
        obtain ⟨rfl, rfl⟩ := Prod.mk.inj same
        exact (State.serviceOnce_settled settled).2 _ isPending calls
    | _ => cases dispatched

end CRelay.Loop

/-! ### Both relays -/

namespace Refine

open Relay

/-- After every event at most one console waits for its first partner, and who
has just sent an admitted HELLO, or a JOIN, has a partner unless nobody else is
idle. -/
theorem auto_pairs :
    (∀ (oracle : Oracle) (now : Time) (loop : Loop),
      Run (Loop.Step oracle) always (Loop.start now) loop →
        (∀ c d, loop.state.floor.Unplayed c → loop.state.floor.Unplayed d → c = d) ∧
        ∀ act c body after, loop.dispatching act = some (c, body) →
          Server.callsPairing body = true → Loop.Step oracle loop act after →
            after.state.floor.Seated c) ∧
    (∀ (oracle : Oracle) (now : Time) (loop : CRelay.Loop),
      Run (CRelay.Loop.Step oracle) always (CRelay.Loop.start now) loop →
        (∀ ci cj, loop.state.hall.Unplayed ci → loop.state.hall.Unplayed cj → ci = cj) ∧
        ∀ act ci body after, loop.dispatching act = some (ci, body) →
          loop.state.callsPairing oracle body = true → CRelay.Loop.Step oracle loop act after →
            after.state.hall.Seated ci) := by
  constructor
  · intro oracle now loop run
    have settled := Loop.settled_run run
    exact ⟨settled.settled.alone, fun _ _ _ _ dispatched calls step =>
      Loop.seated_next settled dispatched calls step⟩
  · intro oracle now loop run
    have settled := CRelay.Loop.settled_run run
    exact ⟨settled.settled.alone, fun _ _ _ _ dispatched calls step =>
      CRelay.Loop.seated_next settled dispatched calls step⟩

/-- One console waits, and another says HELLO. -/
theorem auto_pairs_two :
    (∃ loop after : Loop, loop.dispatching (.work 0) = some (1, (helloFrame 0x42 0x42).tail) ∧
      Loop.Step plain loop (.work 0) after ∧ after.state.floor.Seated 1) ∧
    (∃ loop after : CRelay.Loop, loop.dispatching .work = some (1, (helloFrame 0x42 0x42).tail) ∧
      CRelay.Loop.Step plain loop .work after ∧ after.state.hall.Seated 1) := by
  constructor
  · have outcome : ((Loop.accepting 2 0 ++ Loop.chunk 0 [helloFrame 0x41 0x41] 2 ++
        [Loop.turnOf [.ready 1 (some (helloFrame 0x42 0x42)) none], .work 0]).foldlM
          (Loop.next plain) (Loop.start 0)).map
        (fun loop => (loop.dispatching (.work 0), (loop.next plain (.work 0)).isSome)) =
          some (some (1, (helloFrame 0x42 0x42).tail), true) := by
      decide +kernel
    obtain ⟨loop, executed, isLoop⟩ := Option.map_eq_some_iff.mp outcome
    obtain ⟨dispatched, goes⟩ := Prod.mk.inj isLoop
    obtain ⟨after, step⟩ := Option.isSome_iff_exists.mp goes
    exact ⟨loop, after, dispatched, step,
      (auto_pairs.1 plain 0 loop (Run.of_foldlM executed)).2 _ _ _ _ dispatched (by decide) step⟩
  · have outcome : ((CRelay.Loop.accepting 2 0 ++ CRelay.Loop.chunk 0 [helloFrame 0x41 0x41] 2 ++
        [CRelay.Loop.turnOf [.ready 1 (some (helloFrame 0x42 0x42)) none], .work]).foldlM
          (CRelay.Loop.next plain) (CRelay.Loop.start 0)).map
        (fun loop => (loop.dispatching .work, (loop.next plain .work).isSome,
          loop.state.callsPairing plain (helloFrame 0x42 0x42).tail)) =
          some (some (1, (helloFrame 0x42 0x42).tail), true, true) := by
      decide +kernel
    obtain ⟨loop, executed, isLoop⟩ := Option.map_eq_some_iff.mp outcome
    simp only [Prod.mk.injEq] at isLoop
    obtain ⟨dispatched, goes, calls⟩ := isLoop
    obtain ⟨after, step⟩ := Option.isSome_iff_exists.mp goes
    exact ⟨loop, after, dispatched, step,
      (auto_pairs.2 plain 0 loop (Run.of_foldlM executed)).2 _ _ _ _ dispatched calls step⟩

/-- Two matches, and a console of each disconnects: the other two stay next to
each other. -/
theorem survivors_wait :
    (∃ loop : Loop, Run (Loop.Step plain) always (Loop.start 0) loop ∧
      loop.state.floor.Idle 1 ∧ loop.state.floor.Idle 3) ∧
    (∃ loop : CRelay.Loop, Run (CRelay.Loop.Step plain) always (CRelay.Loop.start 0) loop ∧
      loop.state.hall.Idle 1 ∧ loop.state.hall.Idle 3) := by
  constructor
  · have outcome : ((Loop.accepting 4 0 ++ Loop.chunk 0 [helloFrame 0x41 0x41] 4 ++
        Loop.chunk 1 [helloFrame 0x42 0x42] 4 ++ Loop.chunk 2 [helloFrame 0x43 0x43] 4 ++
        Loop.chunk 3 [helloFrame 0x44 0x44] 4 ++
        (Loop.turnOf [.ready 0 (some []) none, .ready 2 (some []) none] ::
          Loop.works 2)).foldlM (Loop.next plain) (Loop.start 0)).map
        (fun loop =>
          decide (1 ∈ loop.state.clients ∧ 3 ∈ loop.state.clients ∧
            (loop.state.object 1).name.isSome ∧ (loop.state.object 3).name.isSome ∧
            (loop.state.object 1).partner = none ∧ (loop.state.object 3).partner = none)) =
          some true := by
      decide +kernel
    obtain ⟨loop, executed, isLoop⟩ := Option.map_eq_some_iff.mp outcome
    obtain ⟨one, three, named, named', free, free'⟩ := of_decide_eq_true isLoop
    exact ⟨loop, Run.of_foldlM executed, ⟨one, named, free⟩, three, named', free'⟩
  · have outcome : ((CRelay.Loop.accepting 4 0 ++ CRelay.Loop.chunk 0 [helloFrame 0x41 0x41] 4 ++
        CRelay.Loop.chunk 1 [helloFrame 0x42 0x42] 4 ++
        CRelay.Loop.chunk 2 [helloFrame 0x43 0x43] 4 ++
        CRelay.Loop.chunk 3 [helloFrame 0x44 0x44] 4 ++
        (CRelay.Loop.turnOf [.ready 0 (some []) none, .ready 2 (some []) none] ::
          CRelay.Loop.works 2)).foldlM (CRelay.Loop.next plain) (CRelay.Loop.start 0)).map
        (fun loop =>
          decide (((loop.state.clients 1).inUse = true ∧ (loop.state.clients 1).dead = false) ∧
            ((loop.state.clients 3).inUse = true ∧ (loop.state.clients 3).dead = false) ∧
            (loop.state.clients 1).badge.name.isSome ∧ (loop.state.clients 3).badge.name.isSome ∧
            (loop.state.clients 1).partner = none ∧ (loop.state.clients 3).partner = none)) =
          some true := by
      decide +kernel
    obtain ⟨loop, executed, isLoop⟩ := Option.map_eq_some_iff.mp outcome
    obtain ⟨one, three, named, named', free, free'⟩ := of_decide_eq_true isLoop
    exact ⟨loop, Run.of_foldlM executed, ⟨one, named, free⟩, three, named', free'⟩

end Refine

end DragsterNet
