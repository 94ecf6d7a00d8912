/-
Module: DragsterNet.Relay.Pairing
Purpose: The links between clients as a matching of the live consoles, what
  every function of the Python relay does to it, and when it stays symmetric.
Trusted boundary: none
Main exports: Server.floor, Loop.Orderly, Loop.pairing_symmetric
-/
import DragsterNet.Lib.Matching
import DragsterNet.Relay.Loop

namespace DragsterNet.Relay

open Lib

namespace Server

variable {oracle : Oracle} {server after : Server} {c host guest : Conn}
  {change : Client → Client} {patience : Nat}

/-! ### The floor -/

/-- The server as a matchmaker: its clients, their names, links and roles. -/
def floor (server : Server) : Floor Conn Text Nat where
  present c := c ∈ server.clients
  name c := (server.object c).name
  partner c := (server.object c).partner
  role c := (server.object c).role

theorem edit_self : (server.edit c change).object c = change (server.object c) :=
  Function.update_self ..

theorem edit_of_ne {other : Conn} (apart : other ≠ c) :
    (server.edit c change).object other = server.object other :=
  Function.update_of_ne apart ..

/-- An edit that keeps the name, the link and the role keeps the floor. -/
theorem floor_edit (name : (change (server.object c)).name = (server.object c).name)
    (partner : (change (server.object c)).partner = (server.object c).partner)
    (role : (change (server.object c)).role = (server.object c).role) :
    (server.edit c change).floor = server.floor := by
  have same : ∀ other, ((server.edit c change).object other).name = (server.object other).name ∧
      ((server.edit c change).object other).partner = (server.object other).partner ∧
      ((server.edit c change).object other).role = (server.object other).role := by
    intro other
    by_cases here : other = c
    · subst here
      rw [edit_self]
      exact ⟨name, partner, role⟩
    · rw [edit_of_ne here]
      exact ⟨rfl, rfl, rfl⟩
  apply Floor.ext
  · rfl
  · funext other
    exact (same other).1
  · funext other
    exact (same other).2.1
  · funext other
    exact (same other).2.2

@[simp] theorem floor_note {seen : Seen} : (server.note seen).floor = server.floor := rfl

@[simp] theorem floor_log {line : Line} : (server.log line).floor = server.floor := rfl

@[simp] theorem floor_count {change : Stats → Stats} :
    (server.count change).floor = server.floor := rfl

@[simp] theorem floor_send {src : Option Conn} {data : Bytes} :
    (server.send src c data).floor = server.floor := by
  unfold send
  rw [floor_note]
  exact floor_edit rfl rfl rfl

@[simp] theorem floor_lobbyUpdate : (lobbyUpdate oracle server).floor = server.floor := by
  unfold lobbyUpdate
  split <;> rfl

@[simp] theorem floor_noteTv {payload : Bytes} :
    (server.noteTv c payload).floor = server.floor := by
  unfold noteTv
  split
  · rfl
  · exact floor_edit rfl rfl rfl

@[simp] theorem floor_logCrc {payload : Bytes} :
    (server.logCrc c payload).floor = server.floor := by
  unfold logCrc
  simp only
  split
  · rw [floor_edit rfl rfl rfl, floor_edit rfl rfl rfl]
  · split
    · rw [floor_log, floor_count, floor_edit rfl rfl rfl, floor_edit rfl rfl rfl]
    · rw [floor_count, floor_edit rfl rfl rfl, floor_edit rfl rfl rfl]

theorem floor_register {name : Text} {tv : Byte} {drawn : Nat} :
    (server.register oracle c name tv drawn).floor = server.floor.call c name := by
  unfold register
  rw [floor_lobbyUpdate, floor_log]
  refine Floor.ext rfl ?_ ?_ ?_
  all_goals
    funext other
    by_cases here : other = c
    · simp [floor, Floor.call, edit, here]
    · simp [floor, Floor.call, edit, here]

theorem floor_link (apart : host ≠ guest) :
    (server.link host guest).floor = server.floor.pair 0 1 host guest := by
  unfold link
  rw [floor_note]
  refine Floor.ext rfl ?_ ?_ ?_
  all_goals
    funext other
    by_cases isGuest : other = guest
    · simp [floor, Floor.pair, edit, isGuest, apart.symm]
    · by_cases isHost : other = host
      · simp [floor, Floor.pair, edit, isHost, apart]
      · simp [floor, Floor.pair, edit, isHost, isGuest]

/-! ### The table of clients -/

/-- No client stands twice in the table, and none is a connection yet to come. -/
def Tidy (server : Server) : Prop :=
  server.clients.Nodup ∧ ∀ c ∈ server.clients, c < server.conns

/-- The clients and the count of connections are as before. -/
def SameTable (server after : Server) : Prop :=
  after.clients = server.clients ∧ after.conns = server.conns

theorem SameTable.trans {middle : Server} (one : SameTable server middle)
    (two : SameTable middle after) : SameTable server after :=
  ⟨two.1.trans one.1, two.2.trans one.2⟩

theorem SameTable.tidy (same : SameTable server after) (tidy : Tidy server) : Tidy after := by
  unfold Tidy
  rw [same.1, same.2]
  exact tidy

theorem table_lobbyUpdate : SameTable server (lobbyUpdate oracle server) := by
  unfold lobbyUpdate
  split <;> exact ⟨rfl, rfl⟩

theorem table_noteTv {payload : Bytes} : SameTable server (server.noteTv c payload) := by
  unfold noteTv
  split <;> exact ⟨rfl, rfl⟩

theorem table_logCrc {payload : Bytes} : SameTable server (server.logCrc c payload) := by
  unfold logCrc
  simp only
  split
  · exact ⟨rfl, rfl⟩
  · split <;> exact ⟨rfl, rfl⟩

theorem table_register {name : Text} {tv : Byte} {drawn : Nat} :
    SameTable server (server.register oracle c name tv drawn) := by
  unfold register
  exact SameTable.trans ⟨rfl, rfl⟩ table_lobbyUpdate

theorem table_unregister : SameTable server (server.unregister c) := by
  unfold unregister
  split
  · split <;> exact ⟨rfl, rfl⟩
  · exact ⟨rfl, rfl⟩

theorem table_leavePartner : SameTable server (server.leavePartner c) := by
  unfold leavePartner
  split <;> exact ⟨rfl, rfl⟩

theorem table_farewell : SameTable server (server.farewell c) := by
  unfold farewell
  split <;> exact ⟨rfl, rfl⟩

/-! ### Leaving -/

theorem floor_unregister : (server.unregister c).floor = server.floor := by
  unfold unregister
  split
  · split <;> rfl
  · rfl

theorem object_unregister : (server.unregister c).object = server.object := by
  unfold unregister
  split
  · split <;> rfl
  · rfl

theorem floor_farewell : (server.farewell c).floor = server.floor := by
  unfold farewell
  split <;> rfl

/-- What dropping a client of the table does. -/
theorem drop_cases (tidy : Tidy server) (here : c ∈ server.clients) :
    (server.drop oracle c).clients = server.clients.erase c ∧
      (server.drop oracle c).conns = server.conns ∧
      (server.drop oracle c).floor = server.floor.leave c := by
  have table : SameTable server ((server.unregister c).leavePartner c) :=
    table_unregister.trans table_leavePartner
  have after : SameTable (((server.unregister c).leavePartner c).remove c)
      (server.drop oracle c) := by
    rw [drop, if_pos here]
    exact table_farewell.trans table_lobbyUpdate
  have clients : (server.drop oracle c).clients = server.clients.erase c := by
    rw [after.1, ← table.1]
    rfl
  refine ⟨clients, after.2.trans table.2, ?_⟩
  have partner : ((server.unregister c).leavePartner c).floor.partner =
      (server.floor.leave c).partner := by
    unfold leavePartner
    rw [object_unregister]
    cases isPartner : (server.object c).partner with
    | none =>
        funext other
        simp [floor, Floor.leave, isPartner, object_unregister]
    | some left =>
        funext other
        by_cases isLeft : other = left
        · simp [floor, Floor.leave, isPartner, isLeft, send, edit, log, note]
        · simp [floor, Floor.leave, isPartner, isLeft, send, edit, log, note,
            object_unregister]
  have others : ((server.unregister c).leavePartner c).floor.name = server.floor.name ∧
      ((server.unregister c).leavePartner c).floor.role = server.floor.role := by
    unfold leavePartner
    split
    · rename_i left isPartner
      refine ⟨?_, ?_⟩
      all_goals
        funext other
        by_cases isLeft : other = left
        · simp [floor, isLeft, send, edit, log, note, object_unregister]
        · simp [floor, isLeft, send, edit, log, note, object_unregister]
    · rw [floor_unregister]
      exact ⟨rfl, rfl⟩
  have whole : (server.drop oracle c).floor =
      ((((server.unregister c).leavePartner c).remove c)).floor := by
    rw [drop, if_pos here, floor_lobbyUpdate, floor_farewell]
  refine Floor.ext ?_ ?_ ?_ ?_
  · funext other
    show (other ∈ (server.drop oracle c).clients) = (other ∈ server.clients ∧ other ≠ c)
    rw [clients, tidy.1.mem_erase_iff, and_comm]
  · rw [whole]
    exact others.1
  · rw [whole]
    exact partner
  · rw [whole]
    exact others.2

/-! ### Waiting consoles -/

theorem waiting_cases {other : Conn} (found : server.waiting c = some other) :
    other ∈ server.clients ∧ other ≠ c ∧ (server.object other).name.isSome ∧
      (server.object other).partner = none := by
  have member := List.argmin_mem found
  obtain ⟨isIdle, apart⟩ := List.mem_filter.mp member
  obtain ⟨here, named, free⟩ : other ∈ server.clients ∧
      (server.object other).name.isSome ∧ (server.object other).partner.isNone := by
    simpa [idle, List.mem_filter] using isIdle
  exact ⟨here, by simpa using apart, named, Option.isNone_iff_eq_none.mp free⟩

/-- Who waits depends on the clients other than the caller, and on the times of
acceptance. -/
theorem waiting_congr (clients : after.clients = server.clients)
    (born : ∀ other, (after.object other).born = (server.object other).born)
    (others : ∀ other, other ≠ c → after.object other = server.object other) :
    after.waiting c = server.waiting c := by
  unfold waiting idle
  have same : (fun other => (after.object other).born) =
      fun other => (server.object other).born := funext born
  rw [same, clients, List.filter_filter, List.filter_filter]
  congr 1
  apply List.filter_congr
  intro other _
  by_cases here : other = c
  · simp [here]
  · simp [here, others other here]

/-! ### What a dispatch does to the floor -/

/-- The frames that get as far as `try_pair`. -/
def callsPairing (body : Bytes) : Bool :=
  body.headD 0 = tJoin ∨
    body.headD 0 = tHello ∧ (readHello body.tail).toOption.isSome

/-- The frame at the head of a client's receive buffer. -/
def pending (server : Server) (c : Conn) : Option Bytes :=
  match readFrame (server.object c).rx with
  | .whole body _ => some body
  | .short => none
  | .bad _ => none

/-- A name that fits the eight bytes it gets in a frame. -/
def ShortName (name : Text) : Prop := name.length ≤ 8 ∧ ∀ char ∈ name, char < 0x80

theorem nameOk_ascii {char : Nat} (ok : nameOk char = true) : char < 0x80 := by
  unfold nameOk at ok
  simp only [Bool.or_eq_true, Bool.and_eq_true, decide_eq_true_eq] at ok
  omega

theorem readHello_short {payload : Bytes} {tv : Byte} {name : Text}
    (read : readHello payload = .ok (tv, name)) : ShortName name := by
  unfold readHello at read
  simp only at read
  split at read
  · cases read
  · split at read
    · cases read
    · split at read
      · cases read
      · split at read
        · rename_i valid
          obtain ⟨-, rfl⟩ := Prod.mk.inj (Except.ok.inj read)
          simp only [validName, Bool.and_eq_true, decide_eq_true_eq, List.all_eq_true] at valid
          exact ⟨valid.1.2, fun char member => nameOk_ascii (valid.2 char member)⟩
        · cases read

/-- Replacing the last character by digits keeps a name short. -/
theorem freeName_short {taken : Text → Bool} {drawn : Nat} {name free : Text} {last : Nat}
    (short : ShortName name)
    (found : freeName taken (digitText oracle) patience drawn name = .ok (free, last)) :
    ShortName free := by
  induction patience generalizing drawn name with
  | zero =>
      unfold freeName at found
      split at found
      · cases found
      · obtain ⟨rfl, -⟩ := Prod.mk.inj (Except.ok.inj found)
        exact short
  | succ patience inductionHypothesis =>
      unfold freeName at found
      split at found
      · refine inductionHypothesis ⟨?_, ?_⟩ found
        · rw [List.length_append, List.length_take, List.length_singleton]
          omega
        · intro char member
          rcases List.mem_append.mp member with kept | new
          · exact short.2 char (List.mem_of_mem_take kept)
          · rw [List.mem_singleton.mp new, digitText]
            have bound := (oracle.digit drawn).isLt
            omega
      · obtain ⟨rfl, -⟩ := Prod.mk.inj (Except.ok.inj found)
        exact short

/-- The ways a piece of work for `c` moves the floor; `calls` holds of the work
that gets as far as `try_pair`. -/
inductive Moved (calls : Prop) (server : Server) (c : Conn) (after : Server) : Prop where
  | stays (table : SameTable server after) (floor : after.floor = server.floor)
  | drops (here : c ∈ server.clients) (clients : after.clients = server.clients.erase c)
      (conns : after.conns = server.conns) (floor : after.floor = server.floor.leave c)
  | names (table : SameTable server after) (name : Text) (short : ShortName name)
      (floor : after.floor = server.floor.call c name)
  | pairs (called : calls) (other : Conn) (found : server.waiting c = some other)
      (table : SameTable server after) (middle : Floor Conn Text Nat)
      (named : middle = server.floor ∧ (server.floor.name c).isSome ∨
        ∃ name, ShortName name ∧ middle = server.floor.call c name)
      (floor : after.floor = middle.pair 0 1 other c)

variable {calls : Prop}

/-- Only the table, the floor and who waits matter. -/
theorem Moved.congr {early : Server} (moved : Moved calls server c after)
    (table : SameTable early server) (floor : server.floor = early.floor)
    (waits : server.waiting c = early.waiting c) : Moved calls early c after := by
  cases moved with
  | stays table' floor' => exact .stays (table.trans table') (floor'.trans floor)
  | drops here clients conns floor' =>
      exact .drops (table.1 ▸ here) (table.1 ▸ clients) (conns.trans table.2)
        (floor ▸ floor')
  | names table' name short floor' =>
      exact .names (table.trans table') name short (floor ▸ floor')
  | pairs called other found table' middle named floor' =>
      exact .pairs called other (waits ▸ found) (table.trans table') middle
        (floor ▸ named) floor'

theorem drop_moved (tidy : Tidy server) : Moved calls server c (server.drop oracle c) := by
  by_cases here : c ∈ server.clients
  · obtain ⟨clients, conns, floor⟩ := drop_cases tidy here
    exact .drops here clients conns floor
  · rw [drop, if_neg here]
    exact .stays ⟨rfl, rfl⟩ rfl

theorem startFrame_cases {seed : BitVec 16} {role : Nat}
    (started : startFrame oracle server seed role host guest = .ok after) :
    SameTable server after ∧ after.floor = server.floor ∧
      (server.object guest).name.isSome := by
  obtain ⟨header, -, rest⟩ := bind_ok.mp started
  cases isName : (server.object guest).name with
  | none =>
      rw [isName] at rest
      cases rest
  | some name =>
      rw [isName] at rest
      obtain ⟨data, -, sent⟩ := bind_ok.mp rest
      obtain rfl := Except.ok.inj sent
      refine ⟨⟨rfl, rfl⟩, ?_, rfl⟩
      rw [floor_send]
      exact floor_edit rfl rfl rfl

theorem pair_cases (apart : host ≠ guest)
    (paired : server.pair oracle host guest = .ok after) :
    SameTable server after ∧ after.floor = server.floor.pair 0 1 host guest ∧
      (server.floor.name guest).isSome := by
  obtain ⟨one, first, rest⟩ := bind_ok.mp paired
  obtain ⟨two, second, done⟩ := bind_ok.mp rest
  obtain ⟨table, floor, named⟩ := startFrame_cases first
  obtain ⟨table', floor', -⟩ := startFrame_cases second
  have linked : ({ server with seeds := server.seeds + 1 }.link host guest).floor =
      server.floor.pair 0 1 host guest := floor_link apart
  obtain rfl := Except.ok.inj done
  refine ⟨?_, ?_, ?_⟩
  · exact SameTable.trans (SameTable.trans (SameTable.trans ⟨rfl, rfl⟩ table) table')
      (SameTable.trans ⟨rfl, rfl⟩ table_lobbyUpdate)
  · rw [floor_lobbyUpdate, floor_log, floor_count, floor', floor, linked]
  · have named' : (({ server with seeds := server.seeds + 1 }.link
        host guest).floor.name guest).isSome := named
    rw [linked] at named'
    exact named'

theorem tryPair_cases (tried : server.tryPair oracle c = .ok after) :
    after = server ∨ ∃ other, server.waiting c = some other ∧ SameTable server after ∧
      after.floor = server.floor.pair 0 1 other c ∧ (server.floor.name c).isSome := by
  unfold tryPair at tried
  cases found : server.waiting c with
  | none =>
      rw [found] at tried
      exact Or.inl (Except.ok.inj tried).symm
  | some other =>
      rw [found] at tried
      exact Or.inr ⟨other, rfl, pair_cases (waiting_cases found).2.1 tried⟩

theorem onJoin_moved (called : calls) (joined : server.onJoin oracle c = .ok after) :
    Moved calls server c after := by
  rcases tryPair_cases joined with rfl | ⟨other, found, table, floor, named⟩
  · exact .stays ⟨rfl, rfl⟩ rfl
  · exact .pairs called other found table server.floor (Or.inl ⟨rfl, named⟩) floor

theorem waiting_register {name : Text} {tv : Byte} {drawn : Nat} :
    (server.register oracle c name tv drawn).waiting c = server.waiting c := by
  have object : (server.register oracle c name tv drawn).object =
      (server.edit c fun client => { client with name := some name }).object := by
    unfold register lobbyUpdate
    split <;> rfl
  apply waiting_congr table_register.1
  · intro other
    rw [object]
    by_cases here : other = c
    · rw [here, edit_self]
    · rw [edit_of_ne here]
  · intro other apart
    rw [object, edit_of_ne apart]

theorem waiting_edit (born : (change (server.object c)).born = (server.object c).born) :
    (server.edit c change).waiting c = server.waiting c := by
  apply waiting_congr
  · rfl
  · intro other
    by_cases here : other = c
    · rw [here, edit_self, born]
    · rw [edit_of_ne here]
  · intro other apart
    exact edit_of_ne apart

theorem waiting_noteTv {payload : Bytes} :
    (server.noteTv c payload).waiting c = server.waiting c := by
  unfold noteTv
  split
  · rfl
  · exact waiting_edit rfl

theorem onHello_moved {payload : Bytes} (tidy : Tidy server)
    (called : (readHello payload).toOption.isSome → calls)
    (greeted : server.onHello oracle patience c payload = .ok after) :
    Moved calls server c after := by
  have noted : SameTable server (server.noteTv c payload) := table_noteTv
  unfold onHello at greeted
  simp only at greeted
  cases read : readHello payload with
  | error refusal =>
      rw [read] at greeted
      obtain rfl := Except.ok.inj greeted
      have tidy' : Tidy ((server.noteTv c payload).log
          (refusalLine ((server.noteTv c payload).object c).ip refusal)) := noted.tidy tidy
      exact (drop_moved tidy').congr noted floor_noteTv waiting_noteTv
  | ok hello =>
      obtain ⟨tv, asked⟩ := hello
      rw [read] at greeted
      simp only at greeted
      split at greeted
      · cases greeted
      · rename_i name drawn found
        have short := freeName_short (readHello_short read) found
        have registered : SameTable server
            ((server.noteTv c payload).register oracle c name tv drawn) :=
          noted.trans table_register
        have floor : ((server.noteTv c payload).register oracle c name tv drawn).floor =
            server.floor.call c name := by
          rw [floor_register, floor_noteTv]
        rcases tryPair_cases greeted with rfl | ⟨other, waits, table, paired, -⟩
        · exact .names registered name short floor
        · rw [waiting_register, waiting_noteTv] at waits
          rw [floor] at paired
          exact .pairs (called (by rw [read]; rfl)) other waits (registered.trans table) _
            (Or.inr ⟨name, short, rfl⟩) paired

theorem forward_cases {ftype : Byte} {payload : Bytes}
    (forwarded : server.forward c ftype payload = .ok after) :
    SameTable server after ∧ after.floor = server.floor := by
  unfold forward at forwarded
  split at forwarded
  · obtain rfl := Except.ok.inj forwarded
    exact ⟨⟨rfl, rfl⟩, rfl⟩
  · obtain ⟨data, -, sent⟩ := bind_ok.mp forwarded
    obtain rfl := Except.ok.inj sent
    exact ⟨⟨rfl, rfl⟩, floor_send⟩

theorem sendLobby_cases (listed : server.sendLobby c = .ok after) :
    SameTable server after ∧ after.floor = server.floor := by
  obtain ⟨data, -, sent⟩ := bind_ok.mp listed
  obtain rfl := Except.ok.inj sent
  exact ⟨⟨rfl, rfl⟩, floor_send⟩

theorem handle_moved {body : Bytes} (tidy : Tidy server)
    (called : callsPairing body = true → calls)
    (handled : server.handle oracle patience c (body.headD 0) body.tail = .ok after) :
    Moved calls server c after := by
  unfold handle at handled
  split at handled
  · obtain ⟨middle, relayed, rest⟩ := bind_ok.mp handled
    obtain ⟨table, floor⟩ := forward_cases relayed
    split at rest
    · obtain rfl := Except.ok.inj rest
      exact .stays (table.trans table_logCrc) (floor_logCrc.trans floor)
    · obtain rfl := Except.ok.inj rest
      exact .stays table floor
  · split at handled
    · rename_i isHello
      apply onHello_moved tidy _ handled
      intro read
      exact called (decide_eq_true (Or.inr ⟨isHello, read⟩))
    · split at handled
      · obtain ⟨table, floor⟩ := sendLobby_cases handled
        exact .stays table floor
      · split at handled
        · rename_i isJoin
          exact onJoin_moved (called (decide_eq_true (Or.inl isJoin))) handled
        · split at handled
          · obtain rfl := Except.ok.inj handled
            exact .stays ⟨rfl, rfl⟩ floor_send
          · split at handled
            · obtain rfl := Except.ok.inj handled
              exact drop_moved tidy
            · obtain rfl := Except.ok.inj handled
              exact .stays ⟨rfl, rfl⟩ rfl

theorem serviceOnce_moved {again : Bool} (tidy : Tidy server)
    (served : server.serviceOnce oracle patience c = .ok (after, again)) :
    Moved (∃ body, server.pending c = some body ∧ callsPairing body = true)
      server c after := by
  unfold serviceOnce at served
  cases read : readFrame (server.object c).rx with
  | short =>
      rw [read] at served
      obtain ⟨rfl, -⟩ := Prod.mk.inj (Except.ok.inj served)
      exact .stays ⟨rfl, rfl⟩ rfl
  | bad length =>
      rw [read] at served
      obtain ⟨rfl, -⟩ := Prod.mk.inj (Except.ok.inj served)
      have tidy' : Tidy ((server.count fun stats =>
          { stats with badFrames := stats.badFrames + 1 }).log
            (.badLength ((server.object c).nameOr "?") length.toNat)) := tidy
      exact (drop_moved tidy').congr ⟨rfl, rfl⟩ rfl rfl
  | whole body rest =>
      rw [read] at served
      obtain ⟨middle, handled, done⟩ := bind_ok.mp served
      obtain ⟨rfl, -⟩ := Prod.mk.inj (Except.ok.inj done)
      have isPending : server.pending c = some body := by
        rw [pending, read]
      have tidy' : Tidy (server.edit c fun client => { client with rx := rest }) := tidy
      exact (handle_moved tidy' (fun pairs => ⟨body, isPending, pairs⟩) handled).congr
        ⟨rfl, rfl⟩ (floor_edit rfl rfl rfl) (waiting_edit rfl)

/-! ### The matching -/

/-- The links are a symmetric matching, in the roles 0 and 1. -/
def Symmetric (server : Server) : Prop := Floor.Paired 0 1 server.floor

/-- A console that may be paired: it is connected and plays nobody. -/
def Free (server : Server) (c : Conn) : Prop :=
  c ∈ server.clients ∧ (server.object c).partner = none

instance (server : Server) (c : Conn) : Decidable (Free server c) :=
  inferInstanceAs (Decidable (_ ∧ _))

structure Sound (server : Server) : Prop where
  tidy : Tidy server
  symmetric : Symmetric server

theorem Sound.congr (sound : Sound server) (table : SameTable server after)
    (floor : after.floor = server.floor) : Sound after where
  tidy := table.tidy sound.tidy
  symmetric := by
    unfold Symmetric
    rw [floor]
    exact sound.symmetric

theorem Moved.sound (moved : Moved calls server c after)
    (free : calls → (server.waiting c).isSome → Free server c) (sound : Sound server) :
    Sound after := by
  cases moved with
  | stays table floor => exact sound.congr table floor
  | drops here clients conns floor =>
      refine ⟨?_, ?_⟩
      · unfold Tidy
        rw [clients, conns]
        refine ⟨sound.tidy.1.erase c, ?_⟩
        intro other member
        exact sound.tidy.2 other (List.mem_of_mem_erase member)
      · unfold Symmetric
        rw [floor]
        exact Floor.Paired.leave sound.symmetric here
  | names table name _ floor =>
      refine ⟨table.tidy sound.tidy, ?_⟩
      unfold Symmetric
      rw [floor]
      exact Floor.Paired.call sound.symmetric c name
  | pairs called other found table middle named floor =>
      obtain ⟨here, apart, isNamed, alone⟩ := waiting_cases found
      obtain ⟨caller, unpaired⟩ := free called (by rw [found]; rfl)
      refine ⟨table.tidy sound.tidy, ?_⟩
      unfold Symmetric
      rw [floor]
      rcases named with ⟨rfl, already⟩ | ⟨name, -, rfl⟩
      · exact Floor.Paired.pair sound.symmetric apart ⟨here, caller⟩ ⟨isNamed, already⟩
          ⟨alone, unpaired⟩
      · refine (Floor.Paired.call sound.symmetric c name).pair apart ⟨here, caller⟩
          ⟨?_, ?_⟩ ⟨alone, unpaired⟩
        · have kept : (server.floor.call c name).name other = (server.object other).name :=
            Function.update_of_ne apart ..
          rw [kept]
          exact isNamed
        · simp [Floor.call]

/-- A connection is turned away, or it enters the floor. -/
theorem accept_cases {ip : Ip} {port : Nat} {born : Time} :
    (server.accept ip port born).conns = server.conns + 1 ∧
      ((server.accept ip port born).clients = server.clients ∧
          (server.accept ip port born).floor = server.floor ∨
        (server.accept ip port born).clients = server.clients ++ [server.conns] ∧
          (server.accept ip port born).floor = server.floor.enter server.conns) := by
  unfold accept
  simp only
  split
  · exact ⟨rfl, Or.inl ⟨rfl, rfl⟩⟩
  · split
    · exact ⟨rfl, Or.inl ⟨rfl, rfl⟩⟩
    · refine ⟨rfl, Or.inr ⟨rfl, ?_⟩⟩
      refine Floor.ext ?_ ?_ ?_ ?_
      · funext c
        apply propext
        show c ∈ server.clients ++ [server.conns] ↔ c = server.conns ∨ c ∈ server.clients
        rw [List.mem_append, List.mem_singleton, or_comm]
      all_goals
        funext c
        by_cases new : c = server.conns
        · simp [floor, Floor.enter, log, note, new]
        · simp [floor, Floor.enter, log, note, new]

theorem new_connection (tidy : Tidy server) : server.conns ∉ server.clients := by
  intro member
  exact Nat.lt_irrefl _ (tidy.2 _ member)

theorem accept_tidy {ip : Ip} {port : Nat} {born : Time} (tidy : Tidy server) :
    Tidy (server.accept ip port born) := by
  have later : ∀ c ∈ server.clients, c < server.conns + 1 := by
    intro c member
    exact Nat.lt_succ_of_lt (tidy.2 c member)
  obtain ⟨conns, ⟨clients, -⟩ | ⟨clients, -⟩⟩ :=
    @accept_cases server ip port born
  · unfold Tidy
    rw [conns, clients]
    exact ⟨tidy.1, later⟩
  · unfold Tidy
    rw [conns, clients]
    refine ⟨?_, ?_⟩
    · rw [← List.concat_eq_append]
      exact tidy.1.concat (new_connection tidy)
    · intro c member
      rcases List.mem_append.mp member with old | new
      · exact later c old
      · rw [List.mem_singleton.mp new]
        exact Nat.lt_succ_self _

theorem accept_sound {ip : Ip} {port : Nat} {born : Time} (sound : Sound server) :
    Sound (server.accept ip port born) := by
  refine ⟨accept_tidy sound.tidy, ?_⟩
  unfold Symmetric
  obtain ⟨-, ⟨-, floor⟩ | ⟨-, floor⟩⟩ :=
    @accept_cases server ip port born
  · rw [floor]
    exact sound.symmetric
  · rw [floor]
    exact Floor.Paired.enter sound.symmetric (new_connection sound.tidy)

theorem drop_sound (sound : Sound server) : Sound (server.drop oracle c) :=
  Moved.sound (drop_moved sound.tidy) False.elim sound

/-! ### The rule for one piece of the loop -/

/-- The clients, the floor and the names are as before, and nothing has been
appended to a transmit buffer. -/
structure Quiet (server after : Server) : Prop where
  table : SameTable server after
  floor : after.floor = server.floor
  byName : after.byName = server.byName
  seen : ∃ more, after.seen = server.seen ++ more ∧
    ∀ src dst data, Seen.append src dst data ∉ more

theorem quiet_count {change : Stats → Stats} : Quiet server (server.count change) :=
  ⟨⟨rfl, rfl⟩, rfl, rfl, [], (List.append_nil _).symm, fun _ _ _ => List.not_mem_nil⟩

theorem quiet_edit (floor : (server.edit c change).floor = server.floor) :
    Quiet server (server.edit c change) :=
  ⟨⟨rfl, rfl⟩, floor, rfl, [], (List.append_nil _).symm, fun _ _ _ => List.not_mem_nil⟩

theorem quiet_note {seen : Seen} (silent : ∀ src dst data, Seen.append src dst data ≠ seen) :
    Quiet server (server.note seen) :=
  ⟨⟨rfl, rfl⟩, rfl, rfl, [seen], rfl, fun src dst data member =>
    silent src dst data (List.mem_singleton.mp member)⟩

theorem quiet_log {line : Line} : Quiet server (server.log line) :=
  quiet_note fun _ _ _ => Seen.noConfusion

theorem Quiet.trans {middle : Server} (one : Quiet server middle) (two : Quiet middle after) :
    Quiet server after := by
  obtain ⟨more, isMore, silent⟩ := one.seen
  obtain ⟨more', isMore', silent'⟩ := two.seen
  refine ⟨one.table.trans two.table, two.floor.trans one.floor, two.byName.trans one.byName,
    more ++ more', ?_, ?_⟩
  · rw [isMore', isMore, List.append_assoc]
  · intro src dst data member
    rcases List.mem_append.mp member with early | late
    · exact silent src dst data early
    · exact silent' src dst data late

/-- The numbers of players that the Lobby was told, in order. -/
def published (seen : List Seen) : List Nat :=
  seen.filterMap fun
    | .players count => some count
    | _ => none

/-- A quiet change that touches no checksum and tells the Lobby nothing. -/
structure Hushed (server after : Server) : Prop extends Quiet server after where
  crc : ∀ c, (after.object c).crc = (server.object c).crc
  untold : published after.seen = published server.seen

theorem hushed_count {change : Stats → Stats} : Hushed server (server.count change) :=
  { quiet_count with crc := fun _ => rfl, untold := rfl }

theorem hushed_edit (floor : (server.edit c change).floor = server.floor)
    (crc : (change (server.object c)).crc = (server.object c).crc) :
    Hushed server (server.edit c change) :=
  { quiet_edit floor with
    crc := fun other => by
      by_cases here : other = c
      · rw [here, edit_self, crc]
      · rw [edit_of_ne here]
    untold := rfl }

theorem hushed_note {seen : Seen} (silent : ∀ src dst data, Seen.append src dst data ≠ seen)
    (untold : published [seen] = []) : Hushed server (server.note seen) :=
  { quiet_note silent with
    crc := fun _ => rfl
    untold := by
      unfold note published
      rw [List.filterMap_append]
      exact (congrArg _ untold).trans (List.append_nil _) }

theorem hushed_log {line : Line} : Hushed server (server.log line) :=
  hushed_note (fun _ _ _ => Seen.noConfusion) rfl

theorem Hushed.trans {middle : Server} (one : Hushed server middle) (two : Hushed middle after) :
    Hushed server after :=
  { one.toQuiet.trans two.toQuiet with
    crc := fun c => (two.crc c).trans (one.crc c)
    untold := two.untold.trans one.untold }

section Leads

variable {Inv Post : Server → Prop}
  (quiet : ∀ {server after : Server}, Inv server → Hushed server after → Inv after)
  (quiet' : ∀ {server after : Server}, Post server → Hushed server after → Post after)
  (weaken : ∀ {server : Server}, Inv server → Post server)
  (drop : ∀ {server : Server} {c : Conn}, Inv server → Post (server.drop oracle c))
  (expel : ∀ {server : Server} {c : Conn}, Post server → (server.object c).name = none →
    Post (server.drop oracle c))

include quiet weaken drop in
theorem checkBacklog_leads (holds : Inv server) : Post (server.checkBacklog oracle c) := by
  unfold checkBacklog
  simp only
  split
  · exact drop (quiet holds (hushed_count.trans hushed_log))
  · exact weaken holds

include quiet weaken drop in
theorem flush_leads {sent : Sent} (holds : Inv server) : Post (server.flush oracle c sent) := by
  unfold flush
  simp only
  split
  · exact weaken holds
  · split
    · exact drop holds
    · cases sent with
      | failed => exact drop holds
      | blocked => exact checkBacklog_leads quiet weaken drop holds
      | took count =>
          apply checkBacklog_leads quiet weaken drop
          exact quiet holds ((hushed_edit (floor_edit rfl rfl rfl) rfl).trans
            (hushed_note (fun _ _ _ => Seen.noConfusion) rfl))

include quiet weaken drop in
theorem writable_leads {write : Option Sent} (holds : Inv server) :
    Post (server.writable oracle c write) := by
  unfold writable
  split
  · split
    · exact flush_leads quiet weaken drop holds
    · exact weaken holds
  · exact weaken holds

include quiet' expel in
theorem expire_leads {now : Time} (holds : Post server) : Post (expire oracle now server c) := by
  unfold expire
  split
  · rename_i late
    exact expel (quiet' holds hushed_count) (Option.isNone_iff_eq_none.mp late.1)
  · exact holds

include quiet' expel in
theorem sweep_leads {now : Time} (holds : Post server) : Post (server.sweep oracle now) := by
  have swept : ∀ (clients : List Conn) (server : Server), Post server →
      Post (clients.foldl (expire oracle now) server) := by
    intro clients
    induction clients with
    | nil => exact fun server holds => holds
    | cons c rest inductionHypothesis =>
        intro server holds
        exact inductionHypothesis _ (expire_leads quiet' expel holds)
  exact swept server.clients server holds

include quiet' weaken expel in
theorem sweepAt_leads {now : Time} (holds : Inv server) : Post (server.sweepAt oracle now) := by
  unfold sweepAt
  split
  · exact quiet' (sweep_leads quiet' expel (weaken holds)) ⟨⟨⟨rfl, rfl⟩, rfl, rfl, [],
      (List.append_nil _).symm, fun _ _ _ => List.not_mem_nil⟩, fun _ => rfl, rfl⟩
  · exact weaken holds

include quiet quiet' weaken drop expel in
/-- What accepting, dropping and servicing lead to, every piece of the loop leads
to, if a quiet change keeps it and a sweep, which drops the nameless, does. -/
theorem perform_leads {job : Job} {more : List Job}
    (accept : ∀ {ip : Ip} {port : Nat} {born : Time}, Post (server.accept ip port born))
    (service : ∀ {c : Conn} {again : Bool}, job = .service c →
      server.serviceOnce oracle patience c = .ok (after, again) → Post after)
    (performed : server.perform oracle patience job = .ok (after, more))
    (holds : Inv server) : Post after := by
  cases job with
  | accept ip port born =>
      obtain ⟨rfl, -⟩ := Prod.mk.inj (Except.ok.inj performed)
      exact accept
  | ready c read write =>
      unfold perform at performed
      cases read with
      | none =>
          obtain ⟨rfl, -⟩ := Prod.mk.inj (Except.ok.inj performed)
          exact writable_leads quiet weaken drop holds
      | some data =>
          simp only at performed
          split at performed
          · obtain ⟨rfl, -⟩ := Prod.mk.inj (Except.ok.inj performed)
            exact drop holds
          · obtain ⟨rfl, -⟩ := Prod.mk.inj (Except.ok.inj performed)
            exact weaken (quiet holds (hushed_edit (floor_edit rfl rfl rfl) rfl))
  | service c =>
      obtain ⟨⟨served, again⟩, once, done⟩ := bind_ok.mp performed
      obtain ⟨rfl, -⟩ := Prod.mk.inj (Except.ok.inj done)
      exact service rfl once
  | writable c write =>
      obtain ⟨rfl, -⟩ := Prod.mk.inj (Except.ok.inj performed)
      exact writable_leads quiet weaken drop holds
  | flushAll sends =>
      obtain ⟨rfl, -⟩ := Prod.mk.inj (Except.ok.inj performed)
      exact weaken holds
  | flush c sent =>
      obtain ⟨rfl, -⟩ := Prod.mk.inj (Except.ok.inj performed)
      exact flush_leads quiet weaken drop holds
  | sweep now =>
      obtain ⟨rfl, -⟩ := Prod.mk.inj (Except.ok.inj performed)
      exact sweepAt_leads quiet' weaken expel holds
  | report now =>
      obtain ⟨rfl, -⟩ := Prod.mk.inj (Except.ok.inj performed)
      apply weaken
      unfold reportAt
      split
      · have reported : Hushed server (server.log (.stats server.stats)) := hushed_log
        exact quiet holds ⟨⟨⟨rfl, rfl⟩, rfl, rfl, reported.seen⟩, fun _ => rfl, reported.untold⟩
      · exact holds

end Leads

/-- What accepting, dropping and servicing keep, every piece of the loop keeps,
if a quiet change keeps it. -/
theorem perform_keeps {Inv : Server → Prop} {job : Job} {more : List Job}
    (quiet : ∀ {server after : Server}, Inv server → Hushed server after → Inv after)
    (drop : ∀ {server : Server} {c : Conn}, Inv server → Inv (server.drop oracle c))
    (accept : ∀ {ip : Ip} {port : Nat} {born : Time}, Inv (server.accept ip port born))
    (service : ∀ {c : Conn} {again : Bool}, job = .service c →
      server.serviceOnce oracle patience c = .ok (after, again) → Inv after)
    (performed : server.perform oracle patience job = .ok (after, more))
    (holds : Inv server) : Inv after :=
  perform_leads quiet quiet (fun holds => holds) drop (fun holds _ => drop holds) accept service
    performed holds

/-- Every piece of the loop keeps the matching, if a frame that finds somebody
waiting comes from a console that may be paired. -/
theorem perform_sound {job : Job} {more : List Job}
    (free : ∀ c body, job = .service c → server.pending c = some body →
      callsPairing body = true → (server.waiting c).isSome → Free server c)
    (performed : server.perform oracle patience job = .ok (after, more))
    (sound : Sound server) : Sound after := by
  refine perform_keeps (fun sound quiet => sound.congr quiet.table quiet.floor) drop_sound
    (accept_sound sound) ?_ performed sound
  intro c again isService once
  refine Moved.sound (serviceOnce_moved sound.tidy once) ?_ sound
  rintro ⟨body, isPending, calls⟩ waits
  exact free c body isService isPending calls waits

theorem start_sound {now : Time} : Sound (Server.start now) where
  tidy := ⟨List.nodup_nil, fun _ member => absurd member List.not_mem_nil⟩
  symmetric := fun _ _ here => absurd here List.not_mem_nil

end Server

namespace Loop

variable {oracle : Oracle} {loop after : Loop} {act : Act} {now : Time}

/-- The client whose frame an action dispatches, and the frame. -/
def dispatching (loop : Loop) : Act → Option (Conn × Bytes)
  | .turn _ => none
  | .work _ =>
      match loop.jobs with
      | .service c :: _ => (loop.state.pending c).map fun body => (c, body)
      | _ => none

/-- A HELLO or JOIN that finds somebody waiting comes from a console that is
connected and plays nobody. -/
def Orderly (loop : Loop) (act : Act) : Prop :=
  ∀ dispatched ∈ loop.dispatching act, Server.callsPairing dispatched.2 = true →
    (loop.state.waiting dispatched.1).isSome → loop.state.Free dispatched.1

instance (loop : Loop) (act : Act) : Decidable (Orderly loop act) :=
  inferInstanceAs (Decidable (∀ dispatched ∈ loop.dispatching act, _))

theorem dispatching_service {c : Conn} {body : Bytes} {rest : List Job} {patience : Nat}
    (isNext : loop.jobs = .service c :: rest) (isPending : loop.state.pending c = some body) :
    loop.dispatching (.work patience) = some (c, body) := by
  simp only [dispatching, isNext, isPending, Option.map_some]

theorem sound_next (orderly : Orderly loop act) (step : Step oracle loop act after)
    (sound : loop.state.Sound) : after.state.Sound := by
  rcases step_cases oracle step with ⟨turn, -, same⟩ |
    ⟨patience, job, rest, more, isWork, isNext, performed, -⟩
  · rw [same]
    exact sound
  · refine Server.perform_sound ?_ performed sound
    rintro c body rfl isPending calls waits
    subst isWork
    exact orderly (c, body) (dispatching_service isNext isPending) calls waits

/-- The pairing is a symmetric matching of live consoles with names and opposite
roles, in every run whose pairings are orderly. -/
theorem pairing_symmetric (run : Run (Step oracle) Orderly (start now) loop)
    {c p : Conn} (live : c ∈ loop.state.clients)
    (linked : (loop.state.object c).partner = some p) :
    p ∈ loop.state.clients ∧ p ≠ c ∧
      ((loop.state.object c).name.isSome ∧ (loop.state.object p).name.isSome) ∧
      (loop.state.object p).partner = some c ∧
      ((loop.state.object c).role = some 0 ∧ (loop.state.object p).role = some 1 ∨
        (loop.state.object c).role = some 1 ∧ (loop.state.object p).role = some 0) := by
  have sound := run.invariant (fun loop => loop.state.Sound) Server.start_sound
    fun sound orderly step => sound_next orderly step sound
  have link := sound.symmetric c p live linked
  exact ⟨link.present, link.apart, link.names, link.back, link.roles⟩

/-! ### Schedules -/

/-- An iteration in which no socket takes a byte at the end. -/
def turnOf (events : List Event) : Act :=
  .turn { events := events, sends := fun _ => .blocked, now := 0 }

def works (count : Nat) : List Act := List.replicate count (.work 0)

/-- `count` connections are accepted in one iteration, with `clients` there
already. -/
def accepting (count clients : Nat) : List Act :=
  turnOf (List.replicate count (.connect ⟨127, 0, 0, 1⟩ 9000 0)) ::
    works (2 * count + clients + 3)

/-- A console's chunk is received, and the frames in it handled; `clients` are
there afterwards. -/
def chunk (c : Conn) (frames : List Bytes) (clients : Nat) : List Act :=
  turnOf [.ready c (some frames.flatten) none] ::
    works (frames.length + clients + 6)

/-- Three consoles connect; the first two say HELLO and become a match, then the
third does. -/
def threeConsoles : List Act :=
  accepting 3 0 ++ chunk 0 [helloFrame 0x41 0x41] 3 ++ chunk 1 [helloFrame 0x42 0x42] 3 ++
    chunk 2 [helloFrame 0x43 0x43] 3

theorem pairing_symmetric_three : ∃ loop : Loop,
    0 ∈ loop.state.clients ∧ (loop.state.object 0).partner = some 1 ∧
    1 ∈ loop.state.clients ∧ 1 ≠ 0 ∧
      ((loop.state.object 0).name.isSome ∧ (loop.state.object 1).name.isSome) ∧
      (loop.state.object 1).partner = some 0 ∧
      ((loop.state.object 0).role = some 0 ∧ (loop.state.object 1).role = some 1 ∨
        (loop.state.object 0).role = some 1 ∧ (loop.state.object 1).role = some 0) := by
  have outcome : (threeConsoles.foldlM (guarded (next plain) Orderly) (start 0)).map
      (fun loop => (decide (0 ∈ loop.state.clients), (loop.state.object 0).partner)) =
        some (true, some 1) := by decide +kernel
  obtain ⟨loop, executed, isOutcome⟩ := Option.map_eq_some_iff.mp outcome
  simp only [Prod.mk.injEq, decide_eq_true_eq] at isOutcome
  exact ⟨loop, isOutcome.1, isOutcome.2,
    pairing_symmetric (Run.of_guarded executed) isOutcome.1 isOutcome.2⟩

/-- The first console, in its match with the second, sends JOIN, which pairs it
with the third; the second still holds a link to it. -/
theorem pairing_one_sided : ∃ loop : Loop,
    Run (Step plain) always (start 0) loop ∧ 1 ∈ loop.state.clients ∧
      (loop.state.object 1).partner = some 0 ∧ (loop.state.object 0).partner = some 2 := by
  have outcome : ((threeConsoles ++ chunk 0 [joinFrame] 3).foldlM (next plain) (start 0)).map
      (fun loop => (decide (1 ∈ loop.state.clients), (loop.state.object 1).partner,
        (loop.state.object 0).partner)) = some (true, some 0, some 2) := by decide +kernel
  obtain ⟨loop, executed, isOutcome⟩ := Option.map_eq_some_iff.mp outcome
  simp only [Prod.mk.injEq, decide_eq_true_eq] at isOutcome
  exact ⟨loop, Run.of_foldlM executed, isOutcome⟩

end Loop

end DragsterNet.Relay
