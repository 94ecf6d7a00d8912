/-
Module: DragsterNet.Relay.Play
Purpose: The frames a playing console gets from the relay, and when every one
  of them has the one size its whole-frame reads count on.
Trusted boundary: none
Main exports: framesTo, Loop.Playing, Loop.Fixed, Loop.play_frames_sized
-/
import DragsterNet.Relay.Service

namespace DragsterNet.Relay

open Lib

/-- The frames that are appended to a transmit buffer. -/
def framesTo (x : Conn) (seen : List Seen) : List Bytes :=
  seen.filterMap fun
    | .append _ dst data => if dst = x then some data else none
    | _ => none

theorem framesTo_append (x : Conn) (early late : List Seen) :
    framesTo x (early ++ late) = framesTo x early ++ framesTo x late :=
  List.filterMap_append

theorem framesTo_silent {x : Conn} {seen : List Seen}
    (silent : ∀ src dst data, Seen.append src dst data ∉ seen) : framesTo x seen = [] := by
  rw [framesTo, List.filterMap_eq_nil_iff]
  intro event member
  cases event with
  | append src dst data => exact absurd member (silent src dst data)
  | sent | close | line | players | paired => rfl

namespace Server

variable {oracle : Oracle} {server after : Server} {x c host guest : Conn}
  {change : Client → Client} {patience : Nat}

/-- What has been appended for `x` since `server` are whole game frames. -/
def Plays (x : Conn) (server after : Server) : Prop :=
  ∃ more, after.seen = server.seen ++ more ∧ Frames.Sized gameFrame (framesTo x more)

theorem Plays.rfl : Plays x server server :=
  ⟨[], (List.append_nil _).symm, fun _ member => absurd member List.not_mem_nil⟩

theorem Plays.trans {middle : Server} (one : Plays x server middle)
    (two : Plays x middle after) : Plays x server after := by
  obtain ⟨more, isMore, sized⟩ := one
  obtain ⟨more', isMore', sized'⟩ := two
  refine ⟨more ++ more', ?_, ?_⟩
  · rw [isMore', isMore, List.append_assoc]
  · rw [framesTo_append]
    intro frame member
    rcases List.mem_append.mp member with early | late
    · exact sized frame early
    · exact sized' frame late

/-- Only what has been seen matters. -/
theorem Plays.congr {later : Server} (plays : Plays x server after)
    (same : later.seen = after.seen) : Plays x server later := by
  unfold Plays
  rw [same]
  exact plays

theorem Plays.quiet {later : Server} (plays : Plays x server after)
    (quiet : Quiet after later) : Plays x server later := by
  obtain ⟨more, isMore, silent⟩ := quiet.seen
  refine plays.trans ⟨more, isMore, ?_⟩
  rw [framesTo_silent silent]
  exact fun _ member => absurd member List.not_mem_nil

theorem Plays.note {seen : Seen} (plays : Plays x server after)
    (silent : ∀ src dst data, Seen.append src dst data ≠ seen) :
    Plays x server (after.note seen) :=
  plays.quiet (quiet_note silent)

theorem Plays.log {line : Line} (plays : Plays x server after) : Plays x server (after.log line) :=
  plays.quiet quiet_log

theorem Plays.count {change : Stats → Stats} (plays : Plays x server after) :
    Plays x server (after.count change) :=
  plays.congr (Eq.refl _)

theorem Plays.edit (plays : Plays x server after) : Plays x server (after.edit c change) :=
  plays.congr (Eq.refl _)

theorem Plays.send {src : Option Conn} {data : Bytes} (plays : Plays x server after)
    (sized : c = x → data.length = gameFrame) : Plays x server (after.send src c data) := by
  refine plays.trans ⟨[.append src c data], Eq.refl _, ?_⟩
  intro frame member
  by_cases here : c = x
  · obtain rfl : frame = data := by simpa [framesTo, here] using member
    exact sized here
  · simp [framesTo, here] at member

theorem Plays.lobbyUpdate (plays : Plays x server after) :
    Plays x server (lobbyUpdate oracle after) := by
  unfold Server.lobbyUpdate
  split
  · exact plays.note fun _ _ _ => Seen.noConfusion
  · exact plays

/-! ### Every function -/

theorem plays_noteTv {payload : Bytes} : Plays x server (server.noteTv c payload) := by
  unfold noteTv
  split
  · exact Plays.rfl
  · exact Plays.rfl.edit

theorem plays_logCrc {payload : Bytes} : Plays x server (server.logCrc c payload) := by
  unfold logCrc
  simp only
  split
  · exact Plays.rfl.edit.edit
  · split
    · exact Plays.rfl.edit.edit.count.log
    · exact Plays.rfl.edit.edit.count

theorem peerLeft_length : peerLeft.length = gameFrame := rfl

/-- The frame that says the partner has gone is a game frame. -/
theorem plays_drop : Plays x server (server.drop oracle c) := by
  unfold drop
  split
  · have unregistered : Plays x server (server.unregister c) := by
      unfold unregister
      split
      · split
        · exact Plays.rfl.congr rfl
        · exact Plays.rfl
      · exact Plays.rfl
    have left : Plays x server ((server.unregister c).leavePartner c) := by
      unfold leavePartner
      split
      · exact (unregistered.edit.send fun _ => peerLeft_length).log
      · exact unregistered
    have removed : Plays x server (((server.unregister c).leavePartner c).remove c) :=
      (left.note fun _ _ _ => Seen.noConfusion).congr rfl
    apply Plays.lobbyUpdate
    unfold farewell
    split
    · exact removed.log
    · exact removed
  · exact Plays.rfl

theorem plays_register {name : Text} {tv : Byte} {drawn : Nat} :
    Plays x server (server.register oracle c name tv drawn) := by
  have named : Plays x server { (server.edit c fun client =>
      { client with name := some name }) with
        byName := server.byName.set name c
        digits := drawn } := Plays.rfl.congr rfl
  exact named.log.lobbyUpdate

theorem startFrame_plays {seed : BitVec 16} {role : Nat} (other : host ≠ x)
    (started : startFrame oracle server seed role host guest = .ok after) :
    Plays x server after := by
  obtain ⟨header, -, rest⟩ := bind_ok.mp started
  split at rest
  · cases rest
  · obtain ⟨data, -, sent⟩ := bind_ok.mp rest
    obtain rfl := Except.ok.inj sent
    exact Plays.rfl.edit.send fun here => absurd here other

theorem tryPair_plays (caller : c ≠ x) (spared : server.waiting c ≠ some x)
    (tried : server.tryPair oracle c = .ok after) : Plays x server after := by
  unfold tryPair at tried
  split at tried
  · obtain rfl := Except.ok.inj tried
    exact Plays.rfl
  · rename_i other found
    have notX : other ≠ x := by
      rintro rfl
      exact spared found
    obtain ⟨one, first, rest⟩ := bind_ok.mp tried
    obtain ⟨two, second, done⟩ := bind_ok.mp rest
    obtain rfl := Except.ok.inj done
    have linked : Plays x server ({ server with seeds := server.seeds + 1 }.link other c) :=
      Plays.note (Plays.rfl.congr rfl) fun _ _ _ => Seen.noConfusion
    have both := (linked.trans (startFrame_plays notX first)).trans
      (startFrame_plays caller second)
    exact both.count.log.lobbyUpdate

theorem onHello_plays {payload : Bytes} (caller : c ≠ x)
    (spared : (readHello payload).toOption.isSome → server.waiting c ≠ some x)
    (greeted : server.onHello oracle patience c payload = .ok after) :
    Plays x server after := by
  unfold onHello at greeted
  simp only at greeted
  cases read : readHello payload with
  | error refusal =>
      rw [read] at greeted
      obtain rfl := Except.ok.inj greeted
      exact plays_noteTv.log.trans plays_drop
  | ok hello =>
      rw [read] at greeted
      simp only at greeted
      split at greeted
      · cases greeted
      · refine plays_noteTv.trans (plays_register.trans (tryPair_plays caller ?_ greeted))
        rw [waiting_register, waiting_noteTv]
        exact spared (by rw [read]; rfl)

theorem forward_plays {ftype : Byte} {payload : Bytes}
    (small : (server.object c).partner = some x → payload.length ≤ gamePayload)
    (forwarded : server.forward c ftype payload = .ok after) : Plays x server after := by
  unfold forward at forwarded
  split at forwarded
  · obtain rfl := Except.ok.inj forwarded
    exact Plays.rfl
  · rename_i partner isPartner
    obtain ⟨data, isFrame, sent⟩ := bind_ok.mp forwarded
    obtain rfl := Except.ok.inj sent
    apply Plays.rfl.send
    rintro rfl
    unfold frame at isFrame
    split at isFrame
    · obtain rfl := Except.ok.inj isFrame
      rw [wire_length, List.length_rightpad, Nat.max_eq_left (small isPartner)]
      rfl
    · cases isFrame

/-- A frame from a client that is not `x`, or one that goes to the partner. -/
theorem handle_plays {body : Bytes}
    (own : c = x → body.headD 0 ∈ relayTypes)
    (small : body.headD 0 ∈ relayTypes → (server.object c).partner = some x →
      body.tail.length ≤ gamePayload)
    (spared : callsPairing body = true → server.waiting c ≠ some x)
    (handled : server.handle oracle patience c (body.headD 0) body.tail = .ok after) :
    Plays x server after := by
  unfold handle at handled
  split at handled
  · rename_i isRelay
    obtain ⟨middle, relayed, rest⟩ := bind_ok.mp handled
    have forwarded := forward_plays (small isRelay) relayed
    split at rest
    · obtain rfl := Except.ok.inj rest
      exact forwarded.trans plays_logCrc
    · obtain rfl := Except.ok.inj rest
      exact forwarded
  · rename_i notRelay
    have caller : c ≠ x := fun here => notRelay (own here)
    split at handled
    · rename_i isHello
      refine onHello_plays caller ?_ handled
      intro read
      exact spared (decide_eq_true (Or.inr ⟨isHello, read⟩))
    · split at handled
      · obtain ⟨data, -, sent⟩ := bind_ok.mp handled
        obtain rfl := Except.ok.inj sent
        exact Plays.rfl.send fun here => absurd here caller
      · split at handled
        · rename_i isJoin
          exact tryPair_plays caller (spared (decide_eq_true (Or.inl isJoin))) handled
        · split at handled
          · obtain rfl := Except.ok.inj handled
            exact Plays.rfl.send fun here => absurd here caller
          · split at handled
            · obtain rfl := Except.ok.inj handled
              exact plays_drop
            · obtain rfl := Except.ok.inj handled
              exact Plays.rfl.log

theorem serviceOnce_plays {again : Bool}
    (own : ∀ body, c = x → server.pending c = some body → body.headD 0 ∈ relayTypes)
    (small : ∀ body, server.pending c = some body → body.headD 0 ∈ relayTypes →
      (server.object c).partner = some x → body.tail.length ≤ gamePayload)
    (spared : ∀ body, server.pending c = some body → callsPairing body = true →
      server.waiting c ≠ some x)
    (served : server.serviceOnce oracle patience c = .ok (after, again)) :
    Plays x server after := by
  unfold serviceOnce at served
  cases read : readFrame (server.object c).rx with
  | short =>
      rw [read] at served
      obtain ⟨rfl, -⟩ := Prod.mk.inj (Except.ok.inj served)
      exact Plays.rfl
  | bad length =>
      rw [read] at served
      obtain ⟨rfl, -⟩ := Prod.mk.inj (Except.ok.inj served)
      exact Plays.rfl.count.log.trans plays_drop
  | whole body rest =>
      rw [read] at served
      obtain ⟨middle, handled, done⟩ := bind_ok.mp served
      obtain ⟨rfl, -⟩ := Prod.mk.inj (Except.ok.inj done)
      have isPending : server.pending c = some body := by rw [pending, read]
      have partner : ((server.edit c fun client => { client with rx := rest }).object
          c).partner = (server.object c).partner := by rw [edit_self]
      refine Plays.rfl.edit.trans (handle_plays (fun here => own body here isPending) ?_ ?_
        handled)
      · rw [partner]
        exact small body isPending
      · rw [waiting_edit rfl]
        exact spared body isPending

theorem accept_plays {ip : Ip} {port : Nat} {born : Time} :
    Plays x server (server.accept ip port born) := by
  unfold accept
  simp only
  split
  · exact (Plays.rfl.note fun _ _ _ => Seen.noConfusion).congr rfl
  · split
    · exact (Plays.rfl.note fun _ _ _ => Seen.noConfusion).congr rfl
    · exact (Plays.rfl.log).congr rfl

end Server

namespace Loop

variable {oracle : Oracle} {loop after : Loop} {act : Act} {x : Conn}

/-- `x` itself sends INPUT and STATE only. -/
def Playing (x : Conn) (loop : Loop) (act : Act) : Prop :=
  ∀ dispatched ∈ loop.dispatching act, dispatched.1 = x →
    dispatched.2.headD 0 = tInput ∨ dispatched.2.headD 0 = tState

/-- What others send keeps to the game: a frame relayed to `x` has at most six
bytes of payload, and no HELLO or JOIN finds `x` waiting. -/
def Fixed (x : Conn) (loop : Loop) (act : Act) : Prop :=
  ∀ dispatched ∈ loop.dispatching act,
    (dispatched.2.headD 0 ∈ relayTypes →
      (loop.state.object dispatched.1).partner = some x →
        dispatched.2.tail.length ≤ gamePayload) ∧
    (Server.callsPairing dispatched.2 = true → loop.state.waiting dispatched.1 ≠ some x)

instance (x : Conn) (loop : Loop) (act : Act) : Decidable (Playing x loop act) :=
  inferInstanceAs (Decidable (∀ dispatched ∈ loop.dispatching act, _))

instance (x : Conn) (loop : Loop) (act : Act) : Decidable (Fixed x loop act) :=
  inferInstanceAs (Decidable (∀ dispatched ∈ loop.dispatching act, _))

theorem plays_next (playing : Playing x loop act) (fixed : Fixed x loop act)
    (step : Step oracle loop act after) : Server.Plays x loop.state after.state := by
  rcases step_cases oracle step with ⟨turn, -, same⟩ |
    ⟨patience, job, rest, more, isWork, isNext, performed, -⟩
  · rw [same]
    exact Server.Plays.rfl
  · subst isWork
    refine Server.perform_keeps (fun plays hushed => plays.quiet hushed.toQuiet)
      (fun plays => plays.trans Server.plays_drop)
      Server.accept_plays ?_ performed Server.Plays.rfl
    rintro c again rfl once
    have dispatches : ∀ {body : Bytes}, loop.state.pending c = some body →
        (c, body) ∈ loop.dispatching (.work patience) := fun isPending =>
      dispatching_service isNext isPending
    refine Server.serviceOnce_plays ?_ ?_ ?_ once
    · intro body here isPending
      rcases playing (c, body) (dispatches isPending) here with isInput | isState
      · rw [isInput]
        decide
      · rw [isState]
        decide
    · intro body isPending isRelay isPartner
      exact (fixed (c, body) (dispatches isPending)).1 isRelay isPartner
    · intro body isPending calls
      exact (fixed (c, body) (dispatches isPending)).2 calls

/-- Every frame that a playing console is sent has eight bytes, while its partner
relays no longer ones and nobody is paired with it anew; what is left of the
stream after any number of frames begins at a frame. -/
theorem play_frames_sized
    (run : Run (Step oracle) (fun loop act => Playing x loop act ∧ Fixed x loop act)
      loop after) :
    (∀ frame ∈ framesTo x (after.state.seen.drop loop.state.seen.length),
        frame.length = gameFrame) ∧
      ∀ count, (framesTo x (after.state.seen.drop loop.state.seen.length)).flatten.drop
          (gameFrame * count) =
        ((framesTo x (after.state.seen.drop loop.state.seen.length)).drop count).flatten := by
  have plays := run.invariant (fun reached => Server.Plays x loop.state reached.state)
    Server.Plays.rfl fun plays meets step => plays.trans (plays_next meets.1 meets.2 step)
  obtain ⟨more, isMore, sized⟩ := plays
  rw [isMore, List.drop_left]
  exact ⟨sized, Frames.flatten_drop sized⟩

/-- An INPUT record with the given payload. -/
def inputFrame (payload : Bytes) : Bytes := wire tInput payload

/-- Two consoles connect and become a match. -/
def inMatch : List Act := twoConsoles ++ chunk 1 [helloFrame 0x42 0x42] 2

theorem play_frames_sized_input : ∃ loop after : Loop,
    framesTo 0 (after.state.seen.drop loop.state.seen.length) =
      [[8 - 1, 6, 1, 2, 3, 4, 5, 6]] ∧
    (∀ frame ∈ framesTo 0 (after.state.seen.drop loop.state.seen.length),
        frame.length = gameFrame) ∧
      ∀ count, (framesTo 0 (after.state.seen.drop loop.state.seen.length)).flatten.drop
          (gameFrame * count) =
        ((framesTo 0 (after.state.seen.drop loop.state.seen.length)).drop count).flatten := by
  have outcome : ((inMatch.foldlM (next plain) (start 0)).bind fun loop =>
      ((chunk 1 [inputFrame [1, 2, 3, 4, 5, 6]] 2).foldlM
        (guarded (next plain) fun loop act => Playing 0 loop act ∧ Fixed 0 loop act) loop).map
          fun after => framesTo 0 (after.state.seen.drop loop.state.seen.length)) =
      some [[8 - 1, 6, 1, 2, 3, 4, 5, 6]] := by decide +kernel
  obtain ⟨loop, -, played⟩ := Option.bind_eq_some_iff.mp outcome
  obtain ⟨after, executed, frames⟩ := Option.map_eq_some_iff.mp played
  exact ⟨loop, after, frames, play_frames_sized (Run.of_guarded executed)⟩

/-- The partner of a console that sends nothing relays a record of seven bytes
and leaves; then a third console says HELLO, and is paired with the console
that is left. -/
def unevenPartner : List Act :=
  chunk 1 [inputFrame [1, 2, 3, 4, 5, 6, 7], wire tBye []] 1 ++ accepting 1 1

/-- The console gets nine bytes, eight, and the fifteen of a second START. -/
theorem play_frames_uneven : ∃ loop after : Loop,
    Run (Step plain) always (start 0) loop ∧
      (framesTo 0 loop.state.seen).map List.length = [15] ∧
      Run (Step plain) (Playing 0) loop after ∧
      (framesTo 0 (after.state.seen.drop loop.state.seen.length)).map List.length =
        [9, 8, 15] := by
  have outcome : ((inMatch.foldlM (next plain) (start 0)).bind fun loop =>
      ((unevenPartner ++ chunk 2 [helloFrame 0x43 0x43] 2).foldlM
        (guarded (next plain) (Playing 0)) loop).map fun after =>
          ((framesTo 0 loop.state.seen).map List.length,
            (framesTo 0 (after.state.seen.drop loop.state.seen.length)).map List.length)) =
      some ([15], [9, 8, 15]) := by decide +kernel
  obtain ⟨loop, executed, played⟩ := Option.bind_eq_some_iff.mp outcome
  obtain ⟨after, executed', lengths⟩ := Option.map_eq_some_iff.mp played
  obtain ⟨started, uneven⟩ := Prod.mk.inj lengths
  exact ⟨loop, after, Run.of_foldlM executed, started, Run.of_guarded executed', uneven⟩

end Loop

end DragsterNet.Relay
