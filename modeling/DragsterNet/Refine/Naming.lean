/-
Module: DragsterNet.Refine.Naming
Purpose: When the search for a free name can come to its end, in either relay,
  and in which runs it always can.
Trusted boundary: none
Main exports: Server.Ends, State.Ends, Sparing, CSparing, names_end, names_run_out
-/
import DragsterNet.Relay.Service
import DragsterNet.Relay.Registry
import DragsterNet.CRelay.Registry

namespace DragsterNet.Refine

open Lib Relay

variable {oracle : Oracle}

/-! ### The relay in Python -/

/-- `str(digit)` -/
def charOf (digit : Fin 10) : Nat := 0x30 + digit.val

theorem charOf_ok (digit : Fin 10) : nameOk (charOf digit) = true := by
  revert digit
  decide

theorem validName_iff {name : Text} :
    validName name = true ↔ 2 ≤ name.length ∧ name.length ≤ 8 ∧ name.all nameOk = true := by
  unfold validName
  rw [Bool.and_eq_true, Bool.and_eq_true, decide_eq_true_iff, decide_eq_true_iff, and_assoc]

namespace Server

variable {server after : Server} {c : Conn} {payload : Bytes} {patience : Nat}

/-- `name in self.by_name` -/
def named (server : Server) (name : Text) : Bool := (server.byName.get? name).isSome

/-- Some digits lead out of the loop of `on_hello`. -/
def Ends (oracle : Oracle) (server : Server) (name : Text) : Prop :=
  ∃ digit patience found,
    freeName (named server) (Server.digitText { oracle with digit := digit }) patience
      server.digits name = .ok found

theorem ends_iff {name : Text} : Ends oracle server name ↔ Relay.Room (named server) charOf name := by
  constructor
  · rintro ⟨digit, patience, found, isFound⟩
    exact @room_of_found _ _ charOf _ _ _ digit _ isFound
  · intro room
    obtain ⟨digit, found, isFound⟩ := room.found (Nat.le_refl 8)
    exact ⟨digit, 8, found, isFound⟩

/-- Every valid name finds its way out exactly if no seven characters have all
their ten names taken. -/
theorem ends_iff_spare :
    (∀ name, validName name = true → Ends oracle server name) ↔
      Spare (named server) charOf nameOk := by
  rw [← room_iff_spare charOf_ok]
  apply forall_congr'
  intro name
  rw [validName_iff, ends_iff]
  exact ⟨fun ends long short legal => ends ⟨long, short, legal⟩,
    fun room valid => room valid.1 valid.2.1 valid.2.2⟩

/-! ### The names in a run -/

theorem named_entries (same : after.roll.entries = server.roll.entries) :
    named after = named server := by
  have entries : after.byName.entries = server.byName.entries := same
  funext name
  unfold named Dict.get?
  rw [entries]

theorem named_roll (same : after.roll = server.roll) : named after = named server :=
  named_entries (congrArg Roll.entries same)

theorem named_lobbyUpdate : named (Relay.Server.lobbyUpdate oracle server) = named server := by
  unfold Relay.Server.lobbyUpdate
  split
  · rfl
  · rfl

/-- A drop adds no name. -/
theorem named_drop {name : Text} (taken : named (server.drop oracle c) name = true) :
    named server name = true := by
  have removed : ∀ server : Server, named (server.remove c) = named server := fun _ => rfl
  have parted : ∀ server : Server, named (server.farewell c) = named server := by
    intro server
    unfold Relay.Server.farewell
    split
    · rfl
    · rfl
  unfold Relay.Server.drop at taken
  split at taken
  · rw [named_lobbyUpdate, parted, removed, named_roll Server.roll_leavePartner] at taken
    unfold Relay.Server.unregister at taken
    split at taken
    · split at taken
      · unfold named at taken ⊢
        rw [Dict.get?_erase] at taken
        split at taken
        · cases taken
        · exact taken
      · exact taken
    · exact taken
  · exact taken

theorem named_tryPair (tried : server.tryPair oracle c = .ok after) :
    named after = named server := by
  rcases Server.tryPair_roll tried with same | same
  · exact named_roll same
  · unfold Server.announced at same
    split at same
    · have entries : after.roll.entries = server.roll.tell.entries := congrArg Roll.entries same
      exact named_entries entries
    · exact named_roll same

/-- A digit is to spare behind any seven characters. -/
abbrev Roomy (server : Server) : Prop := Spare (named server) charOf nameOk

theorem Roomy.congr (roomy : Roomy server) (same : named after = named server) : Roomy after := by
  unfold Roomy
  rw [same]
  exact roomy

theorem Roomy.drop (roomy : Roomy server) : Roomy (server.drop oracle c) :=
  roomy.mono fun _ taken => named_drop taken

/-- HELLO adds one name, which its loop has come to. -/
theorem Roomy.onHello (roomy : Roomy server)
    (lasting : ∀ tv name, Relay.Server.readHello payload = .ok (tv, name) →
      Lasting (named server) charOf name)
    (greeted : server.onHello oracle patience c payload = .ok after) : Roomy after := by
  have noted : named (server.noteTv c payload) = named server := named_roll Server.roll_noteTv
  unfold Relay.Server.onHello at greeted
  simp only at greeted
  split at greeted
  · obtain rfl := Except.ok.inj greeted
    exact ((roomy.congr noted).congr (named_roll Server.roll_log)).drop
  · rename_i tv asked read
    split at greeted
    · cases greeted
    · rename_i name drawn found
      have free : named (server.noteTv c payload) name = false := freeName_free found
      rw [noted] at free
      have reaches : Reaches charOf asked name :=
        @freeName_reaches _ _ charOf asked _ _ _ oracle.digit _ found
      refine Roomy.congr (roomy.taking (lasting tv asked read) reaches free ?_)
        (named_tryPair greeted)
      intro other taken
      unfold Relay.Server.register at taken
      rw [named_lobbyUpdate] at taken
      have isSet : named (server.noteTv c payload) other = true ∨ other = name := by
        by_cases same : other = name
        · exact Or.inr same
        · refine Or.inl ?_
          unfold named at taken ⊢
          have looked : ((server.noteTv c payload).byName.set name c).get? other =
              (server.noteTv c payload).byName.get? other := by
            rw [Dict.get?_set, if_neg same]
          exact (congrArg Option.isSome looked).symm.trans taken
      rwa [noted] at isSet

theorem Roomy.handle {ftype : Byte} (roomy : Roomy server)
    (lasting : ftype = tHello → ∀ tv name, Relay.Server.readHello payload = .ok (tv, name) →
      Lasting (named server) charOf name)
    (handled : server.handle oracle patience c ftype payload = .ok after) : Roomy after := by
  unfold Relay.Server.handle at handled
  split at handled
  · obtain ⟨middle, relayed, rest⟩ := bind_ok.mp handled
    have forwarded := roomy.congr (named_roll (Server.forward_roll relayed))
    split at rest
    · obtain rfl := Except.ok.inj rest
      exact forwarded.congr (named_roll Server.roll_logCrc)
    · obtain rfl := Except.ok.inj rest
      exact forwarded
  · split at handled
    · rename_i isHello
      exact roomy.onHello (lasting isHello) handled
    · split at handled
      · obtain ⟨data, -, sent⟩ := bind_ok.mp handled
        obtain rfl := Except.ok.inj sent
        exact roomy.congr (named_roll Server.roll_send)
      · split at handled
        · exact roomy.congr (named_tryPair handled)
        · split at handled
          · obtain rfl := Except.ok.inj handled
            exact roomy.congr (named_roll Server.roll_send)
          · split at handled
            · obtain rfl := Except.ok.inj handled
              exact roomy.drop
            · obtain rfl := Except.ok.inj handled
              exact roomy.congr (named_roll Server.roll_log)

theorem Roomy.serviceOnce {again : Bool} (roomy : Roomy server)
    (lasting : ∀ body, server.pending c = some body → body.headD 0 = tHello →
      ∀ tv name, Relay.Server.readHello body.tail = .ok (tv, name) →
        Lasting (named server) charOf name)
    (served : server.serviceOnce oracle patience c = .ok (after, again)) : Roomy after := by
  unfold Relay.Server.serviceOnce at served
  cases read : readFrame (server.object c).rx with
  | short =>
      rw [read] at served
      obtain ⟨rfl, -⟩ := Prod.mk.inj (Except.ok.inj served)
      exact roomy
  | bad length =>
      rw [read] at served
      obtain ⟨rfl, -⟩ := Prod.mk.inj (Except.ok.inj served)
      exact (roomy.congr (named_roll (Server.roll_log.trans Server.roll_count))).drop
  | whole body rest =>
      rw [read] at served
      obtain ⟨middle, handled, done⟩ := bind_ok.mp served
      obtain ⟨rfl, -⟩ := Prod.mk.inj (Except.ok.inj done)
      have isPending : server.pending c = some body := by rw [Server.pending, read]
      have taken : named (server.edit c fun client => { client with rx := rest }) =
          named server := rfl
      refine (roomy.congr taken).handle ?_ handled
      rw [taken]
      exact lasting body isPending

end Server

/-- A HELLO that is dispatched cannot take the last free one of the ten names
behind seven characters. -/
def Sparing (loop : Loop) (act : Act) : Prop :=
  ∀ dispatched ∈ loop.dispatching act, dispatched.2.headD 0 = tHello →
    ∀ tv name, Relay.Server.readHello dispatched.2.tail = .ok (tv, name) →
      Lasting (Server.named loop.state) charOf name

theorem roomy_run {now : Time} {loop : Loop}
    (run : Run (Loop.Step oracle) Sparing (Loop.start now) loop) : Server.Roomy loop.state := by
  refine run.invariant (fun loop => Server.Roomy loop.state) (fun _ _ _ => ⟨0, rfl⟩) ?_
  intro before act after roomy sparing step
  rcases Loop.step_cases oracle step with ⟨turn, -, same⟩ |
    ⟨patience, job, rest, more, isWork, isNext, performed, -⟩
  · rw [same]
    exact roomy
  · subst isWork
    refine Server.perform_keeps (fun roomy hushed => roomy.congr (Server.named_roll hushed.roll))
      Server.Roomy.drop ?_ ?_ performed roomy
    · intro ip port born
      apply roomy.congr
      rcases @Server.roll_accept before.state ip port born with same | entered
      · exact Server.named_roll same
      · have entries : (before.state.accept ip port born).roll.entries =
            (before.state.roll.enter before.state.conns).entries := congrArg Roll.entries entered
        exact Server.named_entries entries
    · rintro c again rfl once
      refine roomy.serviceOnce ?_ once
      intro body isPending
      exact sparing (c, body) (Loop.dispatching_service isNext isPending)

/-! ### The relay in C -/

/-- `'0' + digit` -/
def byteOf (digit : Fin 10) : Byte := BitVec.ofNat 8 (0x30 + digit.val)

theorem byteOf_ok (digit : Fin 10) : CRelay.State.nameOk (byteOf digit) = true := by
  revert digit
  decide

/-- The test of `on_hello`. -/
def validBytes (name : Bytes) : Prop :=
  2 ≤ name.length ∧ name.length ≤ 8 ∧ name.all CRelay.State.nameOk = true

namespace State

variable {state after : CRelay.State} {ci : CRelay.Slot} {payload : Bytes}

/-- Some digits lead out of the loop of `on_hello` before its guard does. -/
def Ends (oracle : Oracle) (state : CRelay.State) (name : Bytes) : Prop :=
  ∃ digit found,
    freeName state.nameTaken (CRelay.State.nextDigit { oracle with digit := digit })
      CRelay.nameGuard state.digits name = .ok found

theorem ends_iff {name : Bytes} : Ends oracle state name ↔ Relay.Room state.nameTaken byteOf name := by
  constructor
  · rintro ⟨digit, found, isFound⟩
    exact @room_of_found _ _ byteOf _ _ _ digit _ isFound
  · intro room
    have enough : 8 ≤ CRelay.nameGuard := by decide
    obtain ⟨digit, found, isFound⟩ := room.found enough
    exact ⟨digit, found, isFound⟩

theorem ends_iff_spare :
    (∀ name, validBytes name → Ends oracle state name) ↔
      Spare state.nameTaken byteOf CRelay.State.nameOk := by
  rw [← room_iff_spare byteOf_ok]
  apply forall_congr'
  intro name
  rw [ends_iff]
  exact ⟨fun ends long short legal => ends ⟨long, short, legal⟩,
    fun room valid => room valid.1 valid.2.1 valid.2.2⟩

/-! ### The names in a run -/

theorem taken_byName (same : after.byName = state.byName) : after.nameTaken = state.nameTaken := by
  funext name
  unfold CRelay.State.nameTaken
  rw [same]

theorem taken_roster (same : after.roster = state.roster) : after.nameTaken = state.nameTaken :=
  taken_byName (congrArg CRelay.Roster.byName same)

/-- A drop adds no name. -/
theorem taken_drop {name : Bytes} (taken : (state.drop oracle ci).nameTaken name = true) :
    state.nameTaken name = true := by
  cases alive : (state.clients ci).dead with
  | true =>
      rw [CRelay.State.drop_dead alive] at taken
      exact taken
  | false =>
      have announced : (state.drop oracle ci).byName = (state.roster.leave ci).byName := by
        have gone := @CRelay.State.roster_drop oracle state ci alive
        unfold CRelay.State.announced at gone
        split at gone
        · exact congrArg CRelay.Roster.byName gone
        · exact congrArg CRelay.Roster.byName gone
      have sublist : (state.roster.leave ci).byName.Sublist state.byName := by
        unfold CRelay.Roster.leave CRelay.Roster.strike
        simp only
        split
        · split
          · exact List.Sublist.refl _
          · split
            · exact List.Sublist.refl _
            · exact List.eraseP_sublist
        · exact List.Sublist.refl _
      unfold CRelay.State.nameTaken at taken ⊢
      rw [announced] at taken
      obtain ⟨entry, member, isName⟩ := List.any_eq_true.mp taken
      exact List.any_eq_true.mpr ⟨entry, sublist.mem member, isName⟩

/-- A name that is set is there afterwards; no other one is new. -/
theorem taken_nameSet {name other : Bytes}
    (taken : (state.nameSet name ci).nameTaken other = true) :
    state.nameTaken other = true ∨ other = name := by
  unfold CRelay.State.nameTaken at taken
  obtain ⟨entry, member, isName⟩ := List.any_eq_true.mp taken
  have old : entry ∈ state.byName → state.nameTaken other = true := fun here =>
    List.any_eq_true.mpr ⟨entry, here, isName⟩
  unfold CRelay.State.nameSet at member
  simp only at member
  split at member
  · rcases List.mem_or_eq_of_mem_set member with here | rfl
    · exact Or.inl (old here)
    · exact Or.inr (of_decide_eq_true isName).symm
  · rcases List.mem_append.mp member with here | new
    · split at here
      · exact Or.inl (old (List.mem_of_mem_tail here))
      · exact Or.inl (old here)
    · obtain rfl := List.mem_singleton.mp new
      exact Or.inr (of_decide_eq_true isName).symm

theorem taken_tryPair : (state.tryPair oracle ci).nameTaken = state.nameTaken := by
  rcases @CRelay.State.roster_tryPair oracle state ci with same | same
  · exact taken_roster same
  · unfold CRelay.State.announced at same
    split at same
    · exact taken_byName (congrArg CRelay.Roster.byName same)
    · exact taken_roster same

/-- A digit is to spare behind any seven characters. -/
abbrev Roomy (state : CRelay.State) : Prop :=
  Spare state.nameTaken byteOf CRelay.State.nameOk

theorem Roomy.congr (roomy : Roomy state) (same : after.nameTaken = state.nameTaken) :
    Roomy after := by
  unfold Roomy
  rw [same]
  exact roomy

theorem Roomy.drop (roomy : Roomy state) : Roomy (state.drop oracle ci) :=
  roomy.mono fun _ taken => taken_drop taken

/-- HELLO adds one name, which its loop has come to. -/
theorem Roomy.onHello (roomy : Roomy state)
    (lasting : ∀ tv name, CRelay.State.readHello payload = .ok (tv, name) →
      Lasting state.nameTaken byteOf name) : Roomy (state.onHello oracle ci payload) := by
  have noted : (state.noteTv ci payload).nameTaken = state.nameTaken :=
    taken_roster CRelay.State.roster_noteTv
  unfold CRelay.State.onHello
  simp only
  split
  · exact ((roomy.congr noted).congr (taken_roster CRelay.State.roster_log)).drop
  · rename_i tv asked read
    split
    · apply Roomy.drop
      exact (roomy.congr noted).congr (taken_byName rfl)
    · rename_i name drawn found
      have free : (state.noteTv ci payload).nameTaken name = false := freeName_free found
      rw [noted] at free
      have reaches : Reaches byteOf asked name :=
        @freeName_reaches _ _ byteOf asked _ _ _ oracle.digit _ found
      refine Roomy.congr (roomy.taking (lasting tv asked read) reaches free ?_) taken_tryPair
      intro other taken
      have unannounced : ∀ state : CRelay.State,
          (CRelay.State.lobbyUpdateCount oracle state).nameTaken = state.nameTaken := by
        intro state
        unfold CRelay.State.lobbyUpdateCount
        split
        · rfl
        · rfl
      unfold CRelay.State.register at taken
      simp only at taken
      rw [unannounced] at taken
      have one := @taken_nameSet ((state.noteTv ci payload).edit ci fun client =>
        { client with name := name, hasName := true }) ci name other taken
      have edited : ((state.noteTv ci payload).edit ci fun client =>
          { client with name := name, hasName := true }).nameTaken = state.nameTaken := noted
      rwa [edited] at one

theorem Roomy.handle {ftype : Byte} (roomy : Roomy state)
    (lasting : ftype = tHello → ∀ tv name, CRelay.State.readHello payload = .ok (tv, name) →
      Lasting state.nameTaken byteOf name) : Roomy (state.handle oracle ci ftype payload) := by
  unfold CRelay.State.handle
  split
  · simp only
    split
    · exact roomy.congr (taken_roster
        (CRelay.State.roster_logCrc.trans CRelay.State.roster_forward))
    · exact roomy.congr (taken_roster CRelay.State.roster_forward)
  · split
    · rename_i isHello
      exact roomy.onHello (lasting isHello)
    · split
      · exact roomy.congr (taken_roster CRelay.State.roster_clientSend)
      · split
        · exact roomy.congr taken_tryPair
        · split
          · exact roomy.congr (taken_roster CRelay.State.roster_clientSend)
          · split
            · exact roomy.drop
            · exact roomy.congr (taken_roster CRelay.State.roster_log)

theorem Roomy.serviceOnce (roomy : Roomy state)
    (lasting : ∀ body, state.pending ci = some body → body.headD 0 = tHello →
      ∀ tv name, CRelay.State.readHello body.tail = .ok (tv, name) →
        Lasting state.nameTaken byteOf name) : Roomy (state.serviceOnce oracle ci).1 := by
  unfold CRelay.State.serviceOnce
  cases read : readFrame (state.clients ci).rx with
  | short => exact roomy
  | bad length =>
      exact Roomy.drop (roomy.congr
        (taken_roster (CRelay.State.roster_log.trans CRelay.State.roster_count)))
  | whole body rest =>
      have isPending : state.pending ci = some body := by rw [CRelay.State.pending, read]
      have taken : (state.edit ci fun client => { client with rx := rest }).nameTaken =
          state.nameTaken := rfl
      refine (roomy.congr taken).handle ?_
      rw [taken]
      exact lasting body isPending

end State

/-- The same of the frame that the loop in C dispatches. -/
def CSparing (loop : CRelay.Loop) (act : CRelay.Act) : Prop :=
  ∀ dispatched ∈ loop.dispatching act, dispatched.2.headD 0 = tHello →
    ∀ tv name, CRelay.State.readHello dispatched.2.tail = .ok (tv, name) →
      Lasting loop.state.nameTaken byteOf name

theorem roomy_run' {now : Time} {loop : CRelay.Loop}
    (run : Run (CRelay.Loop.Step oracle) CSparing (CRelay.Loop.start now) loop) :
    State.Roomy loop.state := by
  refine run.invariant (fun loop => State.Roomy loop.state) (fun _ _ _ => ⟨0, rfl⟩) ?_
  intro before act after roomy sparing step
  rcases CRelay.Loop.step_cases oracle step with ⟨turn, -, -, rfl⟩ | ⟨job, rest, rfl, isNext, rfl⟩
  · exact roomy
  · refine CRelay.State.perform_leads
      (fun roomy quiet => State.Roomy.congr roomy (State.taken_roster quiet.roster))
      (fun roomy quiet => State.Roomy.congr roomy (State.taken_roster quiet.roster))
      (fun roomy => roomy)
      State.Roomy.drop (fun roomy _ => State.Roomy.drop roomy) ?_ ?_ ?_ roomy
    · intro ip port born
      apply State.Roomy.congr roomy
      rcases @CRelay.State.roster_acceptClient before.state ip port born with
        same | ⟨ci, -, entered⟩
      · exact State.taken_roster same
      · exact State.taken_byName (congrArg CRelay.Roster.byName entered)
    · rintro ci rfl
      apply State.Roomy.serviceOnce roomy
      intro body isPending
      exact sparing (ci, body) (CRelay.Loop.dispatching_service isNext isPending)
    · exact fun roomy => State.Roomy.congr roomy (State.taken_byName rfl)

/-! ### Both relays -/

/-- The loop that looks for a free name can always be left if and only if no
seven characters have all their ten names taken, and that is so throughout every
run in which no HELLO takes the last of such ten. -/
theorem names_end (oracle : Oracle) (now : Time) :
    (∀ server : Server, (∀ name, validName name = true → Server.Ends oracle server name) ↔
      Spare (Server.named server) charOf nameOk) ∧
    (∀ state : CRelay.State, (∀ name, validBytes name → State.Ends oracle state name) ↔
      Spare state.nameTaken byteOf CRelay.State.nameOk) ∧
    (∀ loop : Loop, Run (Loop.Step oracle) Sparing (Loop.start now) loop →
      ∀ name, validName name = true → Server.Ends oracle loop.state name) ∧
    ∀ loop : CRelay.Loop, Run (CRelay.Loop.Step oracle) CSparing (CRelay.Loop.start now) loop →
      ∀ name, validBytes name → State.Ends oracle loop.state name :=
  ⟨fun _ => Server.ends_iff_spare, fun _ => State.ends_iff_spare,
    fun _ run => Server.ends_iff_spare.mpr (roomy_run run),
    fun _ run => State.ends_iff_spare.mpr (roomy_run' run)⟩

/-! ### Runs -/

/-- HELLO, in NTSC, under a name. -/
def helloAs (name : Bytes) : Bytes := wire tHello (proto :: tvNtsc :: name)

/-- A HELLO is dispatched to an empty table only. -/
def Blank (loop : Loop) (act : Act) : Prop :=
  ∀ dispatched ∈ loop.dispatching act, dispatched.2.headD 0 = tHello →
    loop.state.byName.entries = []

instance (loop : Loop) (act : Act) : Decidable (Blank loop act) :=
  inferInstanceAs (Decidable (∀ dispatched ∈ loop.dispatching act, _))

theorem Blank.sparing {loop : Loop} {act : Act} (blank : Blank loop act) : Sparing loop act := by
  intro dispatched isDispatched isHello tv name _
  apply lasting_fresh
  · intro other
    unfold Server.named Dict.get?
    rw [blank dispatched isDispatched isHello]
    rfl
  · decide

/-- A console has said HELLO; a second one can still be called the same. -/
theorem names_end_first : ∃ loop : Loop, loop.state.byName.get? [0x4A, 0x4F] = some 0 ∧
    Server.Ends plain loop.state [0x4A, 0x4F] := by
  have outcome : ((Loop.accepting 1 0 ++ Loop.chunk 0 [helloAs [0x4A, 0x4F]] 1).foldlM
      (guarded (Loop.next plain) Blank) (Loop.start 0)).map
        (fun loop => loop.state.byName.get? [0x4A, 0x4F]) = some (some 0) := by
    decide +kernel
  obtain ⟨loop, executed, entry⟩ := Option.map_eq_some_iff.mp outcome
  have run : Run (Loop.Step plain) Sparing (Loop.start 0) loop :=
    (Run.of_guarded executed).mono Blank.sparing
  exact ⟨loop, entry, (names_end plain 0).2.2.1 loop run [0x4A, 0x4F] (by decide)⟩

/-- `ABCDEFG` -/
def stem : Text := [0x41, 0x42, 0x43, 0x44, 0x45, 0x46, 0x47]

/-- HELLO under each of the ten names behind it. -/
def tenHellos : List Bytes :=
  (List.finRange 10).map fun digit => helloAs (encode stem ++ [byteOf digit])

/-- A console says HELLO ten times, under the ten names behind ABCDEFG; a HELLO
under any of them has then no way out of the loop. -/
theorem names_run_out : ∃ (loop : Loop) (loop' : CRelay.Loop),
    Run (Loop.Step plain) always (Loop.start 0) loop ∧
    Run (CRelay.Loop.Step plain) always (CRelay.Loop.start 0) loop' ∧
    ∀ digit, validName (stem ++ [charOf digit]) = true ∧
      ¬ Server.Ends plain loop.state (stem ++ [charOf digit]) ∧
      validBytes (encode stem ++ [byteOf digit]) ∧
      ¬ State.Ends plain loop'.state (encode stem ++ [byteOf digit]) := by
  have outcome : ((Loop.accepting 1 0 ++ Loop.chunk 0 tenHellos 1).foldlM (Loop.next plain)
      (Loop.start 0)).map (fun loop => decide (∀ digit,
        Server.named loop.state (stem ++ [charOf digit]) = true)) = some true := by
    decide +kernel
  have outcome' : ((CRelay.Loop.accepting 1 0 ++ CRelay.Loop.chunk 0 tenHellos 1).foldlM
      (CRelay.Loop.next plain) (CRelay.Loop.start 0)).map (fun loop => decide (∀ digit,
        loop.state.nameTaken (encode stem ++ [byteOf digit]) = true)) = some true := by
    decide +kernel
  obtain ⟨loop, executed, isFull⟩ := Option.map_eq_some_iff.mp outcome
  obtain ⟨loop', executed', isFull'⟩ := Option.map_eq_some_iff.mp outcome'
  refine ⟨loop, loop', Run.of_foldlM executed, Run.of_foldlM executed', fun digit => ?_⟩
  have valid : ∀ digit, validName (stem ++ [charOf digit]) = true := by decide
  have valid' : ∀ digit, 2 ≤ (encode stem ++ [byteOf digit]).length ∧
      (encode stem ++ [byteOf digit]).length ≤ 8 ∧
        (encode stem ++ [byteOf digit]).all CRelay.State.nameOk = true := by decide
  refine ⟨valid digit, ?_, valid' digit, ?_⟩
  · rw [Server.ends_iff]
    exact not_room rfl (of_decide_eq_true isFull) digit
  · rw [State.ends_iff]
    exact not_room rfl (of_decide_eq_true isFull') digit

end DragsterNet.Refine
