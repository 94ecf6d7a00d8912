/-
Module: DragsterNet.Relay.Segments
Purpose: When the outcome of a client's bytes does not depend on the chunks in
  which they are received.
Trusted boundary: none
Main exports: Feeds, SameOutcome, Loop.segmentation_iff
-/
import DragsterNet.Lib.Framing
import DragsterNet.Relay.Play

namespace DragsterNet.Relay

open Lib

namespace Server

variable {oracle : Oracle} {server after : Server} {c d host guest : Conn}
  {change : Client → Client} {patience : Nat} {rx data : Bytes}

/-! ### The receive buffer is read by the framing alone -/

/-- The server with other bytes in `c`'s receive buffer. -/
def holding (server : Server) (c : Conn) (rx : Bytes) : Server :=
  server.edit c fun client => { client with rx := rx }

theorem object_holding : (server.holding c rx).object d =
    if d = c then { server.object d with rx := rx } else server.object d := by
  unfold holding
  split
  · rename_i here
    subst here
    exact edit_self
  · rename_i apart
    exact edit_of_ne apart

theorem rx_holding : ((server.holding c rx).object c).rx = rx := by
  rw [object_holding, if_pos rfl]

/-- A field other than the buffer is as before. -/
theorem field_holding {α : Type} {field : Client → α}
    (blind : ∀ client rx, field { client with rx := rx } = field client) :
    field ((server.holding c rx).object d) = field (server.object d) := by
  rw [object_holding]
  split
  · exact blind _ _
  · rfl

@[simp] theorem name_holding : ((server.holding c rx).object d).name = (server.object d).name :=
  @field_holding server c d rx _ Client.name fun _ _ => rfl

@[simp] theorem partner_holding :
    ((server.holding c rx).object d).partner = (server.object d).partner :=
  @field_holding server c d rx _ Client.partner fun _ _ => rfl

@[simp] theorem ip_holding : ((server.holding c rx).object d).ip = (server.object d).ip :=
  @field_holding server c d rx _ Client.ip fun _ _ => rfl

@[simp] theorem born_holding : ((server.holding c rx).object d).born = (server.object d).born :=
  @field_holding server c d rx _ Client.born fun _ _ => rfl

@[simp] theorem crc_holding : ((server.holding c rx).object d).crc = (server.object d).crc :=
  @field_holding server c d rx _ Client.crc fun _ _ => rfl

@[simp] theorem lap_holding : ((server.holding c rx).object d).lap = (server.object d).lap :=
  @field_holding server c d rx _ Client.lap fun _ _ => rfl

@[simp] theorem lastTick_holding :
    ((server.holding c rx).object d).lastTick = (server.object d).lastTick :=
  @field_holding server c d rx _ Client.lastTick fun _ _ => rfl

@[simp] theorem nameOr_holding {default : String} :
    ((server.holding c rx).object d).nameOr default = (server.object d).nameOr default :=
  @field_holding server c d rx _ (fun client => client.nameOr default) fun _ _ => rfl

theorem holding_same : server.holding c (server.object c).rx = server := by
  have same : (server.holding c (server.object c).rx).object = server.object := by
    funext d
    rw [object_holding]
    split
    · rename_i here
      subst here
      rfl
    · rfl
  exact congrArg (fun object => { server with object := object }) same

theorem holding_holding {rx' : Bytes} :
    (server.holding c rx).holding c rx' = server.holding c rx' := by
  have same : ((server.holding c rx).holding c rx').object = (server.holding c rx').object := by
    funext d
    rw [object_holding, object_holding, object_holding]
    split
    · rfl
    · rfl
  exact congrArg (fun object => { server with object := object }) same

/-- An edit that neither reads nor writes the buffer. -/
theorem edit_holding
    (blind : ∀ client rx, change { client with rx := rx } = { change client with rx := rx }) :
    (server.holding c rx).edit d change = (server.edit d change).holding c rx := by
  have same : ((server.holding c rx).edit d change).object =
      ((server.edit d change).holding c rx).object := by
    funext e
    rw [object_holding]
    by_cases isD : e = d
    · subst isD
      rw [edit_self, edit_self, object_holding]
      split
      · exact blind _ _
      · rfl
    · rw [edit_of_ne isD, edit_of_ne isD, object_holding]
  exact congrArg (fun object => { server with object := object }) same

theorem holding_log {line : Line} :
    (server.holding c rx).log line = (server.log line).holding c rx := rfl

theorem holding_count {counts : Stats → Stats} :
    (server.holding c rx).count counts = (server.count counts).holding c rx := rfl

theorem holding_send {src : Option Conn} {data : Bytes} :
    (server.holding c rx).send src d data = (server.send src d data).holding c rx := by
  unfold send
  rw [edit_holding fun _ _ => rfl]
  rfl

theorem holding_lobbyUpdate :
    lobbyUpdate oracle (server.holding c rx) = (lobbyUpdate oracle server).holding c rx := by
  unfold lobbyUpdate
  split <;> rfl

theorem holding_noteTv {payload : Bytes} :
    (server.holding c rx).noteTv d payload = (server.noteTv d payload).holding c rx := by
  unfold noteTv
  split
  · rfl
  · exact edit_holding fun _ _ => rfl

theorem holding_unregister :
    (server.holding c rx).unregister d = (server.unregister d).holding c rx := by
  unfold unregister
  rw [name_holding]
  split
  · rename_i name _
    have same : (server.holding c rx).byName = server.byName := rfl
    rw [same]
    split <;> rfl
  · rfl

theorem holding_leavePartner :
    (server.holding c rx).leavePartner d = (server.leavePartner d).holding c rx := by
  unfold leavePartner
  rw [partner_holding]
  split
  · rw [edit_holding fun _ _ => rfl, holding_send, nameOr_holding]
    rfl
  · rfl

theorem holding_farewell :
    (server.holding c rx).farewell d = (server.farewell d).holding c rx := by
  unfold farewell
  rw [name_holding]
  split <;> rfl

theorem holding_drop :
    (server.holding c rx).drop oracle d = (server.drop oracle d).holding c rx := by
  have removed : ∀ {server : Server}, (server.holding c rx).remove d =
      (server.remove d).holding c rx := rfl
  have clients : (server.holding c rx).clients = server.clients := rfl
  unfold drop
  rw [clients]
  split
  · rw [holding_unregister, holding_leavePartner, removed, holding_farewell,
      holding_lobbyUpdate]
  · rfl

theorem holding_waiting : (server.holding c rx).waiting d = server.waiting d := by
  have clients : (server.holding c rx).clients = server.clients := rfl
  unfold waiting idle
  simp only [name_holding, partner_holding, born_holding, clients]

theorem holding_link : (server.holding c rx).link host guest =
    (server.link host guest).holding c rx := by
  unfold link
  rw [edit_holding fun _ _ => rfl, edit_holding fun _ _ => rfl]
  rfl

theorem startFrame_holding {seed : BitVec 16} {role : Nat}
    (started : startFrame oracle server seed role host guest = .ok after) :
    startFrame oracle (server.holding c rx) seed role host guest =
      .ok (after.holding c rx) := by
  obtain ⟨header, isHeader, rest⟩ := bind_ok.mp started
  refine bind_ok.mpr ⟨header, isHeader, ?_⟩
  rw [name_holding]
  split at rest
  · cases rest
  · rename_i name isName
    obtain ⟨data, framed, sent⟩ := bind_ok.mp rest
    obtain rfl := Except.ok.inj sent
    refine bind_ok.mpr ⟨data, framed, congrArg Except.ok ?_⟩
    rw [edit_holding fun _ _ => rfl, holding_send]

theorem pair_holding (paired : server.pair oracle host guest = .ok after) :
    (server.holding c rx).pair oracle host guest = .ok (after.holding c rx) := by
  obtain ⟨one, first, rest⟩ := bind_ok.mp paired
  obtain ⟨two, second, done⟩ := bind_ok.mp rest
  obtain rfl := Except.ok.inj done
  have linked : ({ server.holding c rx with seeds := server.seeds + 1 } : Server).link host
      guest = (({ server with seeds := server.seeds + 1 } : Server).link host guest).holding
        c rx := @holding_link { server with seeds := server.seeds + 1 } c host guest rx
  have first' := @startFrame_holding oracle _ one c host guest rx _ _ first
  rw [← linked] at first'
  refine bind_ok.mpr ⟨_, first', bind_ok.mpr ⟨_, startFrame_holding second, ?_⟩⟩
  apply congrArg Except.ok
  rw [nameOr_holding, nameOr_holding, holding_count, holding_log, holding_lobbyUpdate]
  rfl

theorem tryPair_holding (tried : server.tryPair oracle d = .ok after) :
    (server.holding c rx).tryPair oracle d = .ok (after.holding c rx) := by
  unfold tryPair at tried ⊢
  rw [holding_waiting]
  split at tried
  · obtain rfl := Except.ok.inj tried
    rfl
  · exact pair_holding tried

theorem holding_register {name : Text} {tv : Byte} {drawn : Nat} :
    (server.holding c rx).register oracle d name tv drawn =
      (server.register oracle d name tv drawn).holding c rx := by
  unfold register
  rw [edit_holding fun _ _ => rfl, ip_holding, ← holding_lobbyUpdate]
  rfl

theorem onHello_holding {payload : Bytes}
    (greeted : server.onHello oracle patience d payload = .ok after) :
    (server.holding c rx).onHello oracle patience d payload = .ok (after.holding c rx) := by
  unfold onHello at greeted ⊢
  simp only at greeted ⊢
  rw [holding_noteTv]
  split at greeted
  · obtain rfl := Except.ok.inj greeted
    rw [ip_holding, holding_log, holding_drop]
  · have names : ((server.noteTv d payload).holding c rx).byName =
        (server.noteTv d payload).byName := rfl
    have digits : ((server.noteTv d payload).holding c rx).digits =
        (server.noteTv d payload).digits := rfl
    rw [names, digits]
    split at greeted
    · cases greeted
    · rw [holding_register]
      exact tryPair_holding greeted

theorem lobbyEntries_holding : (server.holding c rx).lobbyEntries = server.lobbyEntries := by
  have clients : (server.holding c rx).clients = server.clients := rfl
  unfold lobbyEntries
  simp only [name_holding, partner_holding, clients]

theorem sendLobby_holding (listed : server.sendLobby d = .ok after) :
    (server.holding c rx).sendLobby d = .ok (after.holding c rx) := by
  obtain ⟨data, framed, sent⟩ := bind_ok.mp listed
  obtain rfl := Except.ok.inj sent
  refine bind_ok.mpr ⟨data, ?_, congrArg Except.ok holding_send⟩
  rw [lobbyEntries_holding]
  exact framed

theorem partnerCrc_holding {key : Nat} :
    (server.holding c rx).partnerCrc d key = server.partnerCrc d key := by
  unfold partnerCrc
  simp only [partner_holding, crc_holding]

theorem holding_logCrc {payload : Bytes} :
    (server.holding c rx).logCrc d payload = (server.logCrc d payload).holding c rx := by
  unfold logCrc
  simp only
  rw [lap_holding, lastTick_holding, edit_holding fun _ _ => rfl, partnerCrc_holding]
  split
  · exact edit_holding fun _ _ => rfl
  · rw [edit_holding fun _ _ => rfl, nameOr_holding]
    split <;> rfl

theorem forward_holding {ftype : Byte} {payload : Bytes}
    (forwarded : server.forward d ftype payload = .ok after) :
    (server.holding c rx).forward d ftype payload = .ok (after.holding c rx) := by
  unfold forward at forwarded ⊢
  rw [partner_holding]
  split at forwarded
  · obtain rfl := Except.ok.inj forwarded
    rfl
  · obtain ⟨data, framed, sent⟩ := bind_ok.mp forwarded
    obtain rfl := Except.ok.inj sent
    exact bind_ok.mpr ⟨data, framed, congrArg Except.ok holding_send⟩

/-- A frame is handled in the same way whatever the buffers hold. -/
theorem handle_holding {ftype : Byte} {payload : Bytes}
    (handled : server.handle oracle patience d ftype payload = .ok after) :
    (server.holding c rx).handle oracle patience d ftype payload = .ok (after.holding c rx) := by
  unfold handle at handled ⊢
  split at handled
  · rename_i isRelay
    obtain ⟨middle, forwarded, rest⟩ := bind_ok.mp handled
    rw [if_pos isRelay]
    refine bind_ok.mpr ⟨_, forward_holding forwarded, ?_⟩
    split at rest
    · rename_i logged
      obtain rfl := Except.ok.inj rest
      rw [if_pos logged]
      exact congrArg Except.ok holding_logCrc
    · rename_i unlogged
      obtain rfl := Except.ok.inj rest
      rw [if_neg unlogged]
      rfl
  rename_i notRelay
  rw [if_neg notRelay]
  split at handled
  · rename_i isHello
    rw [if_pos isHello]
    exact onHello_holding handled
  rename_i notHello
  rw [if_neg notHello]
  split at handled
  · rename_i isList
    rw [if_pos isList]
    exact sendLobby_holding handled
  rename_i notList
  rw [if_neg notList]
  split at handled
  · rename_i isJoin
    rw [if_pos isJoin]
    exact tryPair_holding handled
  rename_i notJoin
  rw [if_neg notJoin]
  split at handled
  · rename_i isPing
    obtain rfl := Except.ok.inj handled
    rw [if_pos isPing]
    exact congrArg Except.ok holding_send
  rename_i notPing
  rw [if_neg notPing]
  split at handled
  · rename_i isBye
    obtain rfl := Except.ok.inj handled
    rw [if_pos isBye]
    exact congrArg Except.ok holding_drop
  · rename_i notBye
    obtain rfl := Except.ok.inj handled
    rw [if_neg notBye, nameOr_holding]
    rfl

/-! ### Frames of a stream -/

/-- The frame at the front of a receive buffer, and the bytes behind it. -/
def takeFrame (data : Bytes) : Option (Bytes × Bytes) :=
  match readFrame data with
  | .whole body rest => some (body, rest)
  | .short => none
  | .bad _ => none

theorem takeFrame_some {body rest : Bytes} :
    takeFrame data = some (body, rest) ↔ readFrame data = .whole body rest := by
  unfold takeFrame
  cases readFrame data with
  | short => simp
  | bad length => simp
  | whole first behind => simp

theorem readFrame_cons {n : Byte} {more : Bytes} :
    readFrame (n :: more) =
      if n.toNat < 1 ∨ 200 < n.toNat then .bad n
      else if more.length < n.toNat then .short
      else .whole (more.take n.toNat) (more.drop n.toNat) := rfl

theorem readFrame_whole_iff {body rest : Bytes} :
    readFrame data = .whole body rest ↔
      ∃ n, (1 ≤ n.toNat ∧ n.toNat ≤ 200) ∧ body.length = n.toNat ∧
        data = n :: (body ++ rest) := by
  cases data with
  | nil =>
      constructor
      · intro absurd
        cases absurd
      · rintro ⟨n, -, -, absurd⟩
        cases absurd
  | cons n more =>
      rw [readFrame_cons]
      constructor
      · intro read
        split at read
        · cases read
        rename_i fair
        split at read
        · cases read
        rename_i enough
        obtain ⟨rfl, rfl⟩ := Head.whole.inj read
        refine ⟨n, by omega, ?_, ?_⟩
        · rw [List.length_take]
          omega
        · rw [List.take_append_drop]
      · rintro ⟨m, fair, length, same⟩
        obtain ⟨rfl, rfl⟩ := List.cons.inj same
        have unfair : ¬ (n.toNat < 1 ∨ 200 < n.toNat) := by omega
        have short : ¬ (body ++ rest).length < n.toNat := by
          rw [List.length_append]
          omega
        rw [if_neg unfair, if_neg short, ← length, List.take_left, List.drop_left]

/-- The framing of both relays. -/
def framing : Framing Byte Bytes where
  read := takeFrame
  exact_ := by
    intro data body rest read
    obtain ⟨n, fair, length, rfl⟩ := readFrame_whole_iff.mp (takeFrame_some.mp read)
    refine ⟨n :: body, List.cons_ne_nil _ _, rfl, ?_⟩
    apply takeFrame_some.mpr
    exact readFrame_whole_iff.mpr ⟨n, fair, length, by rw [List.append_nil]⟩
  stable := by
    intro data body rest more read
    obtain ⟨n, fair, length, rfl⟩ := readFrame_whole_iff.mp (takeFrame_some.mp read)
    apply takeFrame_some.mpr
    exact readFrame_whole_iff.mpr ⟨n, fair, length, by simp⟩

/-- The buffer begins with a length byte that no frame has. -/
def Broken (data : Bytes) : Prop := ∃ n, readFrame data = .bad n

theorem broken_iff : Broken data ↔ ∃ n, data.head? = some n ∧ (n.toNat < 1 ∨ 200 < n.toNat) := by
  unfold Broken
  cases data with
  | nil => simp [readFrame]
  | cons n more =>
      rw [readFrame_cons]
      by_cases bad : n.toNat < 1 ∨ 200 < n.toNat
      · rw [if_pos bad]
        simpa using bad
      · rw [if_neg bad]
        have fair : ¬ ∃ m, (n :: more).head? = some m ∧ (m.toNat < 1 ∨ 200 < m.toNat) := by
          simpa using bad
        refine iff_of_false ?_ fair
        rintro ⟨m, absurd⟩
        split at absurd <;> cases absurd

instance (data : Bytes) : Decidable (Broken data) :=
  decidable_of_iff _ broken_iff.symm

theorem Broken.append {more : Bytes} (broken : Broken data) : Broken (data ++ more) := by
  obtain ⟨n, isHead, bad⟩ := broken_iff.mp broken
  refine broken_iff.mpr ⟨n, ?_, bad⟩
  rw [List.head?_append, isHead]
  rfl

/-! ### Frames are handled one after the other -/

/-- The frames are handled in their order, each with draws enough. -/
inductive Handles (oracle : Oracle) (c : Conn) : Server → List Bytes → Server → Prop where
  | nil (server : Server) : Handles oracle c server [] server
  | cons {server middle after : Server} {body : Bytes} {rest : List Bytes} (patience : Nat)
      (handled : server.handle oracle patience c (body.headD 0) body.tail = .ok middle)
      (later : Handles oracle c middle rest after) :
      Handles oracle c server (body :: rest) after

variable {bodies early late : List Bytes}

theorem Handles.holding (handles : Handles oracle c server bodies after) (rx : Bytes) :
    Handles oracle c (server.holding c rx) bodies (after.holding c rx) := by
  induction handles with
  | nil server => exact .nil _
  | cons patience handled later inductionHypothesis =>
      exact .cons patience (handle_holding handled) inductionHypothesis

theorem Handles.unique {after' : Server} (one : Handles oracle c server bodies after)
    (two : Handles oracle c server bodies after') : after = after' := by
  induction one with
  | nil server =>
      cases two with
      | nil => rfl
  | cons patience handled later inductionHypothesis =>
      cases two with
      | cons patience' handled' later' =>
          obtain rfl := handle_agree handled handled'
          exact inductionHypothesis later'

theorem handles_append : Handles oracle c server (early ++ late) after ↔
    ∃ middle, Handles oracle c server early middle ∧ Handles oracle c middle late after := by
  induction early generalizing server with
  | nil =>
      constructor
      · intro handles
        exact ⟨server, .nil server, handles⟩
      · rintro ⟨middle, none, handles⟩
        cases none with
        | nil => exact handles
  | cons body rest inductionHypothesis =>
      constructor
      · intro handles
        cases handles with
        | cons patience handled later =>
            obtain ⟨middle, first, second⟩ := inductionHypothesis.mp later
            exact ⟨middle, .cons patience handled first, second⟩
      · rintro ⟨middle, handles, second⟩
        cases handles with
        | cons patience handled later =>
            exact .cons patience handled (inductionHypothesis.mpr ⟨middle, later, second⟩)

theorem handles_one {body : Bytes} : Handles oracle c server [body] after ↔
    ∃ patience, server.handle oracle patience c (body.headD 0) body.tail = .ok after := by
  constructor
  · intro handles
    cases handles with
    | cons patience handled later =>
        cases later with
        | nil => exact ⟨patience, handled⟩
  · rintro ⟨patience, handled⟩
    exact .cons patience handled (.nil after)

theorem Handles.still (handles : Handles oracle c server bodies after) : Still server after := by
  induction handles with
  | nil server => exact Still.rfl
  | cons patience handled later inductionHypothesis =>
      exact (handle_still handled).trans inductionHypothesis

theorem Handles.regular (handles : Handles oracle c server bodies after)
    (regular : Regular server) : Regular after := by
  induction handles with
  | nil server => exact regular
  | cons patience handled later inductionHypothesis =>
      have moved := @handle_moved oracle _ _ c patience True _ regular.tidy (fun _ => trivial) handled
      exact inductionHypothesis (moved.regular regular)

/-- A client that has gone does not come back. -/
theorem Handles.gone (handles : Handles oracle c server bodies after) (tidy : Tidy server)
    (gone : c ∉ server.clients) : c ∉ after.clients := by
  induction handles with
  | nil server => exact gone
  | cons patience handled later inductionHypothesis =>
      have moved := @handle_moved oracle _ _ c patience True _ tidy (fun _ => trivial) handled
      cases moved with
      | stays table floor =>
          exact inductionHypothesis (table.tidy tidy) (by rw [table.1]; exact gone)
      | drops here clients conns floor => exact absurd here gone
      | names table name short floor =>
          exact inductionHypothesis (table.tidy tidy) (by rw [table.1]; exact gone)
      | pairs called other found table middle named floor =>
          exact inductionHypothesis (table.tidy tidy) (by rw [table.1]; exact gone)

/-- What `service` does at the end of its loop. -/
def finish (oracle : Oracle) (c : Conn) (server : Server) : Server :=
  match readFrame (server.object c).rx with
  | .bad n =>
      ((server.count fun stats => { stats with badFrames := stats.badFrames + 1 }).log
        (.badLength ((server.object c).nameOr "?") n.toNat)).drop oracle c
  | _ => server

theorem holding_of_rx (same : (server.object c).rx = rx) : server.holding c rx = server := by
  rw [← same]
  exact holding_same

/-- A turn takes the frame at the front, and handles it. -/
theorem serviceTurn_iff : ServiceTurn oracle c server patience after ↔
    ∃ body rest, framing.read (server.object c).rx = some (body, rest) ∧
      (server.holding c rest).handle oracle patience c (body.headD 0) body.tail = .ok after := by
  have taking : ∀ body rest, framing.read (server.object c).rx = some (body, rest) ↔
      readFrame (server.object c).rx = .whole body rest := fun body rest => takeFrame_some
  unfold ServiceTurn serviceOnce
  constructor
  · intro turn
    split at turn
    · cases turn
    · cases turn
    · rename_i body rest read
      obtain ⟨middle, handled, done⟩ := bind_ok.mp turn
      obtain ⟨rfl, -⟩ := Prod.mk.inj (Except.ok.inj done)
      exact ⟨body, rest, (taking body rest).mpr read, handled⟩
  · rintro ⟨body, rest, read, handled⟩
    rw [(taking body rest).mp read]
    exact bind_ok.mpr ⟨after, handled, rfl⟩

theorem serviceOnce_stuck {last : Server} (stuck : framing.read (server.object c).rx = none) :
    server.serviceOnce oracle patience c = .ok (last, false) ↔ last = finish oracle c server := by
  unfold serviceOnce finish
  cases read : readFrame (server.object c).rx with
  | whole body rest =>
      have taken : framing.read (server.object c).rx = some (body, rest) :=
        takeFrame_some.mpr read
      rw [stuck] at taken
      cases taken
  | short | bad length =>
      constructor
      · intro served
        exact (Prod.mk.inj (Except.ok.inj served)).1.symm
      · rintro rfl
        rfl

/-- `service` handles the whole frames in the buffer, and then comes to what is
left. -/
theorem serviceReturns_iff {last : Server} :
    ServiceReturns oracle c server last ↔
      ∃ middle, Handles oracle c (server.holding c (framing.split (server.object c).rx).2)
          (framing.split (server.object c).rx).1 middle ∧
        last = finish oracle c middle := by
  suffices all : ∀ data server, (server.object c).rx = data →
      (ServiceReturns oracle c server last ↔
        ∃ middle, Handles oracle c (server.holding c (framing.split data).2)
          (framing.split data).1 middle ∧ last = finish oracle c middle) from
    all _ server rfl
  intro data
  induction data using framing.induct_on with
  | stuck data stuck =>
      rintro server rfl
      rw [framing.split_none stuck, holding_same]
      constructor
      · rintro ⟨middle, patience, run, done⟩
        rcases run.cases_head with rfl | ⟨patience', next, -, turn, -⟩
        · exact ⟨server, .nil server, (serviceOnce_stuck stuck).mp done⟩
        · obtain ⟨body, rest, read, -⟩ := serviceTurn_iff.mp turn
          rw [stuck] at read
          cases read
      · rintro ⟨middle, none, isLast⟩
        cases none with
        | nil => exact ⟨server, 0, .refl server, (serviceOnce_stuck stuck).mpr isLast⟩
  | frame data body rest read inductionHypothesis =>
      rintro server rfl
      rw [framing.split_some read]
      constructor
      · rintro ⟨middle, patience, run, done⟩
        rcases run.cases_head with rfl | ⟨patience', next, -, turn, run'⟩
        · unfold serviceOnce at done
          rw [takeFrame_some.mp read] at done
          obtain ⟨_, -, absurd⟩ := bind_ok.mp done
          cases absurd
        · obtain ⟨body', rest', read', handled⟩ := serviceTurn_iff.mp turn
          rw [read] at read'
          obtain ⟨rfl, rfl⟩ := Prod.mk.inj (Option.some.inj read')
          have left : (next.object c).rx = rest := (handle_still handled c).rx.trans rx_holding
          obtain ⟨last', handles, isLast⟩ :=
            (inductionHypothesis next left).mp ⟨middle, patience, run', done⟩
          refine ⟨last', .cons patience' ?_ handles, isLast⟩
          have again := @handle_holding oracle _ _ c c patience' (framing.split rest).2 _ _ handled
          rwa [holding_holding] at again
      · rintro ⟨middle, handles, isLast⟩
        cases handles with
        | @cons _ next _ _ _ patience handled later =>
            have first := @handle_holding oracle _ _ c c patience rest _ _ handled
            rw [holding_holding] at first
            have turn : ServiceTurn oracle c server patience (next.holding c rest) :=
              serviceTurn_iff.mpr ⟨body, rest, read, first⟩
            have left : (next.object c).rx = (framing.split rest).2 :=
              (handle_still handled c).rx.trans rx_holding
            have later' : Handles oracle c
                ((next.holding c rest).holding c (framing.split rest).2)
                (framing.split rest).1 middle := by
              rw [holding_holding, holding_of_rx left]
              exact later
            obtain ⟨ending, patience', run, done⟩ := (inductionHypothesis (next.holding c rest)
              rx_holding).mpr ⟨middle, later', isLast⟩
            have start : Run (ServiceTurn oracle c) always server (next.holding c rest) :=
              .tail patience (.refl server) trivial turn
            exact ⟨ending, patience', start.trans run, done⟩

theorem serviceReturns_unique {one two : Server} (first : ServiceReturns oracle c server one)
    (again : ServiceReturns oracle c server two) : one = two := by
  obtain ⟨middle, handles, rfl⟩ := serviceReturns_iff.mp first
  obtain ⟨middle', handles', rfl⟩ := serviceReturns_iff.mp again
  rw [handles.unique handles']

/-- The line and the count for a length byte that no frame has, and the drop. -/
def breakOff (oracle : Oracle) (c : Conn) (n : Byte) (server : Server) : Server :=
  ((server.count fun stats => { stats with badFrames := stats.badFrames + 1 }).log
    (.badLength ((server.object c).nameOr "?") n.toNat)).drop oracle c

theorem finish_whole (whole : ¬ Broken (server.object c).rx) : finish oracle c server = server := by
  unfold finish
  split
  · rename_i n bad
    exact absurd ⟨n, bad⟩ whole
  · rfl

theorem finish_broken {n : Byte} (bad : readFrame rx = .bad n) :
    finish oracle c (server.holding c rx) = (breakOff oracle c n server).holding c rx := by
  unfold finish breakOff
  rw [rx_holding, bad]
  simp only
  rw [nameOr_holding, holding_count, holding_log, holding_drop]

/-! ### Chunks -/

/-- A client's chunks are received and served one after the other.  Once the
client is dropped, nothing more is received. -/
inductive Feeds (oracle : Oracle) (c : Conn) : Server → List Bytes → Server → Prop where
  | done (server : Server) : Feeds oracle c server [] server
  | gone {server : Server} {chunk : Bytes} {rest : List Bytes} (gone : c ∉ server.clients) :
      Feeds oracle c server (chunk :: rest) server
  | chunk {server middle after : Server} {chunk : Bytes} {rest : List Bytes}
      (here : c ∈ server.clients)
      (served : ServiceReturns oracle c (server.receive c chunk) middle)
      (later : Feeds oracle c middle rest after) : Feeds oracle c server (chunk :: rest) after

variable {chunks more : List Bytes}

theorem Feeds.unique {one two : Server} (first : Feeds oracle c server chunks one)
    (again : Feeds oracle c server chunks two) : one = two := by
  induction first with
  | done server =>
      cases again with
      | done => rfl
  | gone gone =>
      cases again with
      | gone => rfl
      | chunk here served later => exact absurd here gone
  | chunk here served later inductionHypothesis =>
      cases again with
      | gone gone => exact absurd here gone
      | chunk here' served' later' =>
          obtain rfl := serviceReturns_unique served served'
          exact inductionHypothesis later'

theorem Feeds.append {middle : Server} (first : Feeds oracle c server chunks middle)
    (second : Feeds oracle c middle more after) : Feeds oracle c server (chunks ++ more) after := by
  induction first with
  | done server => exact second
  | gone gone =>
      cases second with
      | done => exact .gone gone
      | gone => exact .gone gone
      | chunk here served later => exact absurd here gone
  | chunk here served later inductionHypothesis =>
      exact .chunk here served (inductionHypothesis second)

/-- With a client that is still there, only the later chunks are left. -/
theorem feeds_append {middle : Server} (first : Feeds oracle c server chunks middle)
    (live : c ∈ middle.clients) :
    Feeds oracle c server (chunks ++ more) after ↔ Feeds oracle c middle more after := by
  constructor
  · intro whole
    induction first with
    | done server => exact whole
    | gone gone => exact absurd live gone
    | chunk here served later inductionHypothesis =>
        cases whole with
        | gone gone => exact absurd here gone
        | chunk here' served' later' =>
            obtain rfl := serviceReturns_unique served served'
            exact inductionHypothesis live later'
  · exact first.append

/-- Nothing is heard from a client that has gone. -/
theorem feeds_gone (gone : c ∉ server.clients) :
    Feeds oracle c server chunks after ↔ after = server := by
  constructor
  · intro feeds
    cases feeds with
    | done => rfl
    | gone => rfl
    | chunk here served later => exact absurd here gone
  · rintro rfl
    cases chunks with
    | nil => exact .done after
    | cons chunk rest => exact .gone gone

theorem receive_holding : (server.receive c data).holding c rx = server.holding c rx :=
  holding_holding

theorem rx_receive : ((server.receive c data).object c).rx = (server.object c).rx ++ data := by
  unfold receive
  rw [edit_self]

/-- What `service` makes of a chunk. -/
theorem chunk_returns_iff {last : Server} :
    ServiceReturns oracle c (server.receive c data) last ↔
      ∃ middle, Handles oracle c server
          (framing.split ((server.object c).rx ++ data)).1 middle ∧
        last = finish oracle c
          (middle.holding c (framing.split ((server.object c).rx ++ data)).2) := by
  rw [serviceReturns_iff, rx_receive, receive_holding]
  constructor
  · rintro ⟨middle, handles, rfl⟩
    refine ⟨middle.holding c (server.object c).rx, ?_, ?_⟩
    · have back := handles.holding (server.object c).rx
      rwa [holding_holding, holding_same] at back
    · rw [holding_holding, holding_of_rx ((handles.still c).rx.trans rx_holding)]
  · rintro ⟨middle, handles, rfl⟩
    exact ⟨_, handles.holding _, rfl⟩

/-- `service`, with at most `fuel` turns and no name to be drawn for. -/
def serve (oracle : Oracle) (c : Conn) : Nat → Server → Option Server
  | 0, _ => none
  | fuel + 1, server =>
      match server.serviceOnce oracle 0 c with
      | .ok (after, true) => serve oracle c fuel after
      | .ok (after, false) => some after
      | .error _ => none

theorem serve_returns {fuel : Nat} (served : serve oracle c fuel server = some after) :
    ServiceReturns oracle c server after := by
  induction fuel generalizing server with
  | zero => cases served
  | succ fuel inductionHypothesis =>
      unfold serve at served
      split at served
      · rename_i next once
        obtain ⟨middle, patience, run, done⟩ := inductionHypothesis served
        have turn : Run (ServiceTurn oracle c) always server next :=
          .tail 0 (.refl server) trivial once
        exact ⟨middle, patience, turn.trans run, done⟩
      · rename_i next once
        obtain rfl := Option.some.inj served
        exact ⟨server, 0, .refl server, once⟩
      · cases served

/-- Feeding the chunks, with at most `fuel` turns a chunk. -/
def feed (oracle : Oracle) (c : Conn) (fuel : Nat) : List Bytes → Server → Option Server
  | [], server => some server
  | chunk :: rest, server =>
      if c ∈ server.clients then
        (serve oracle c fuel (server.receive c chunk)).bind (feed oracle c fuel rest)
      else some server

theorem feeds_of_feed {fuel : Nat} (fed : feed oracle c fuel chunks server = some after) :
    Feeds oracle c server chunks after := by
  induction chunks generalizing server with
  | nil =>
      obtain rfl := Option.some.inj fed
      exact .done server
  | cons chunk rest inductionHypothesis =>
      unfold feed at fed
      split at fed
      · rename_i here
        obtain ⟨middle, served, later⟩ := Option.bind_eq_some_iff.mp fed
        exact .chunk here (serve_returns served) (inductionHypothesis later)
      · rename_i gone
        obtain rfl := Option.some.inj fed
        exact .gone gone

/-! ### The bytes up to a place in the stream -/

theorem split_broken (broken : Broken data) : framing.split data = ([], data) := by
  obtain ⟨n, bad⟩ := broken
  apply framing.split_none
  have taken : framing.read data = takeFrame data := rfl
  rw [taken, takeFrame, bad]

theorem Handles.here (handles : Handles oracle c server bodies after) (regular : Regular server)
    (live : c ∈ after.clients) : c ∈ server.clients := by
  by_contra gone
  exact handles.gone regular.tidy gone live

theorem regular_holding (regular : Regular server) : Regular (server.holding c rx) :=
  regular.congr ⟨rfl, rfl⟩ (floor_edit rfl rfl rfl)

/-- What has been handled of a chunk, if the client stays and its stream is
sound. -/
theorem chunk_returns {left : Bytes}
    (whole : framing.split ((server.object c).rx ++ data) = (bodies, left))
    (handles : Handles oracle c server bodies after) (sound : ¬ Broken left) :
    ServiceReturns oracle c (server.receive c data) (after.holding c left) := by
  apply chunk_returns_iff.mpr
  rw [whole]
  refine ⟨after, handles, ?_⟩
  rw [finish_whole]
  rw [rx_holding]
  exact sound

/-- As long as the client stays and its stream is sound, every frame that is
whole has been handled. -/
theorem feeds_live {left : Bytes} (regular : Regular server)
    (short : framing.read (server.object c).rx = none)
    (whole : framing.split ((server.object c).rx ++ chunks.flatten) = (bodies, left))
    (handles : Handles oracle c server bodies after) (live : c ∈ after.clients)
    (sound : ¬ Broken left) : Feeds oracle c server chunks (after.holding c left) := by
  induction chunks generalizing server bodies after with
  | nil =>
      rw [List.flatten_nil, List.append_nil, framing.split_none short] at whole
      obtain ⟨rfl, rfl⟩ := Prod.mk.inj whole
      cases handles with
      | nil =>
          rw [holding_same]
          exact .done server
  | cons chunk rest inductionHypothesis =>
      rw [List.flatten_cons, ← List.append_assoc, framing.split_append] at whole
      have stuck := framing.split_left ((server.object c).rx ++ chunk)
      cases isSplit : framing.split ((server.object c).rx ++ chunk) with
      | mk first remains =>
          rw [isSplit] at whole stuck
          obtain ⟨rfl, isLeft⟩ := Prod.mk.inj whole
          obtain ⟨middle, early, late⟩ := handles_append.mp handles
          have fair : ¬ Broken remains := by
            intro broken
            have broken' : Broken (remains ++ rest.flatten) := broken.append
            simp only [split_broken broken'] at isLeft
            exact sound (isLeft ▸ broken')
          have regular' : Regular middle := early.regular regular
          have here : c ∈ middle.clients := late.here regular' live
          have later := @inductionHypothesis (middle.holding c remains) (after.holding c remains) _
            (regular_holding regular') (by rw [rx_holding]; exact stuck)
            (by rw [rx_holding]; exact Prod.ext rfl isLeft) (late.holding remains) live
          rw [holding_holding] at later
          exact .chunk (early.here regular here) (chunk_returns isSplit early fair) later

/-- A chunk in which the client is dropped: `front` is the stream through the
frame that drops it. -/
theorem feeds_dropped {before behind front : Bytes} {body : Bytes} {middle : Server}
    (regular : Regular server) (short : framing.read (server.object c).rx = none)
    (isFront : (server.object c).rx ++ (chunks.flatten ++ before) = front) (some : before ≠ [])
    (whole : framing.split front = (bodies ++ [body], []))
    (handles : Handles oracle c server bodies middle) (live : c ∈ middle.clients)
    (drops : Handles oracle c middle [body] after) (gone : c ∉ after.clients) {last : Server} :
    Feeds oracle c server (chunks ++ (before ++ behind) :: more) last ↔
      ∃ ending, Handles oracle c after (framing.split behind).1 ending ∧
        last = finish oracle c (ending.holding c (framing.split behind).2) := by
  rw [← isFront, ← List.append_assoc] at whole
  obtain ⟨late, rfl, isLate⟩ := framing.split_last some whole
  obtain ⟨reached, early, handles'⟩ := handles_append.mp handles
  have regular' := early.regular regular
  have here : c ∈ reached.clients := handles'.here regular' live
  have fair : ¬ Broken (framing.split ((server.object c).rx ++ chunks.flatten)).2 := by
    intro broken
    rw [split_broken broken.append] at isLate
    exact absurd (Prod.mk.inj isLate).1.symm (List.append_ne_nil_of_right_ne_nil _
      (List.cons_ne_nil _ _))
  have first := feeds_live regular short rfl early here fair
  rw [feeds_append first here]
  generalize (framing.split ((server.object c).rx ++ chunks.flatten)).2 = remains at isLate fair first ⊢
  have split : framing.split ((((reached.holding c remains).object c).rx) ++ (before ++ behind)) =
      ((late ++ [body]) ++ (framing.split behind).1, (framing.split behind).2) := by
    rw [rx_holding, ← List.append_assoc]
    exact framing.split_front isLate
  have served : ∀ {outcome : Server}, ServiceReturns oracle c
      ((reached.holding c remains).receive c (before ++ behind)) outcome ↔
        ∃ ending, Handles oracle c after (framing.split behind).1 ending ∧
          outcome = finish oracle c (ending.holding c (framing.split behind).2) := by
    intro outcome
    have dropping : Handles oracle c reached (late ++ [body]) after :=
      handles_append.mpr ⟨middle, handles', drops⟩
    rw [chunk_returns_iff, split]
    constructor
    · rintro ⟨ending, all, rfl⟩
      obtain ⟨after', dropping', rest⟩ := handles_append.mp all
      obtain rfl := (dropping.holding remains).unique dropping'
      have back := rest.holding (after.object c).rx
      rw [holding_holding, holding_same] at back
      refine ⟨_, back, ?_⟩
      rw [holding_holding]
    · rintro ⟨ending, rest, rfl⟩
      refine ⟨ending.holding c remains, ?_, ?_⟩
      · exact handles_append.mpr ⟨_, dropping.holding remains, rest.holding remains⟩
      · rw [holding_holding]
  have regularAfter : Regular after := drops.regular (handles'.regular regular')
  have goneAfter : ∀ {ending : Server}, Handles oracle c after (framing.split behind).1 ending →
      c ∉ (finish oracle c (ending.holding c (framing.split behind).2)).clients := by
    intro ending rest
    have left := rest.gone regularAfter.tidy gone
    unfold finish
    split
    · unfold drop
      split
      · rename_i absurd
        exact (left absurd).elim
      · exact left
    · exact left
  constructor
  · intro feeds
    cases feeds with
    | gone left => exact absurd here left
    | chunk here' served' later =>
        obtain ⟨ending, rest, rfl⟩ := served.mp served'
        obtain rfl := (feeds_gone (goneAfter rest)).mp later
        exact ⟨ending, rest, rfl⟩
  · rintro ⟨ending, rest, rfl⟩
    exact .chunk here (served.mpr ⟨ending, rest, rfl⟩) ((feeds_gone (goneAfter rest)).mpr rfl)

theorem drop_gone (tidy : Tidy server) : c ∉ (server.drop oracle c).clients := by
  by_cases here : c ∈ server.clients
  · rw [(drop_cases tidy here).1, tidy.1.mem_erase_iff]
    exact fun both => both.1 rfl
  · rw [drop, if_neg here]
    exact here

theorem split_append_broken {left : Bytes} (whole : framing.split data = (bodies, left))
    (broken : Broken left) : framing.split (data ++ rx) = (bodies, left ++ rx) := by
  rw [framing.split_append, whole, split_broken broken.append, List.append_nil]

/-- The chunk with the length byte that no frame has. -/
theorem feeds_broken {left : Bytes} {n : Byte} (regular : Regular server)
    (short : framing.read (server.object c).rx = none) (fair : ¬ Broken (server.object c).rx)
    (whole : framing.split ((server.object c).rx ++ chunks.flatten) = (bodies, n :: left))
    (bad : n.toNat < 1 ∨ 200 < n.toNat)
    (handles : Handles oracle c server bodies after) (live : c ∈ after.clients) :
    ∃ rest, Feeds oracle c server chunks ((breakOff oracle c n after).holding c rest) := by
  obtain ⟨front, back, same, isFront, isBack⟩ :=
    @Framing.split_cut _ _ framing _ bodies [] _ (by rw [List.append_nil]; exact whole)
  have isLeft : back = n :: left := by
    have whole' := framing.split_of_nil (congrArg Prod.fst isBack)
    rw [isBack] at whole'
    exact (Prod.mk.inj whole').2.symm
  subst isLeft
  have broken : Broken [n] := broken_iff.mpr ⟨n, rfl, bad⟩
  have through : framing.split (front ++ [n]) = (bodies, [n]) := by
    rw [framing.split_front isFront, split_broken broken, List.append_nil]
  -- The bad byte is not among those that were there before.
  obtain ⟨beyond, some, isBeyond, same'⟩ : ∃ beyond, beyond ≠ [] ∧
      front ++ [n] = (server.object c).rx ++ beyond ∧ chunks.flatten = beyond ++ left := by
    have absurd : ∀ inside, (server.object c).rx ≠ (front ++ [n]) ++ inside := by
      intro inside isRx
      have split := @split_append_broken inside _ _ _ through broken
      rw [← isRx, framing.split_none short] at split
      obtain ⟨-, isRx'⟩ := Prod.mk.inj split
      exact fair (isRx' ▸ broken.append)
    have same₂ : (server.object c).rx ++ chunks.flatten = (front ++ [n]) ++ left := by
      rw [same, List.append_assoc]
      rfl
    rcases List.append_eq_append_iff.mp same₂ with ⟨beyond, isBeyond, rest⟩ | ⟨inside, isRx, -⟩
    · refine ⟨beyond, ?_, isBeyond, rest⟩
      rintro rfl
      exact absurd [] (by rw [isBeyond, List.append_nil, List.append_nil])
    · exact (absurd inside isRx).elim
  obtain ⟨early, before, behind, late, rfl, some', rfl, -⟩ := locate some same'
  rw [isBeyond, ← List.append_assoc, framing.split_append] at through
  obtain ⟨both, isBad⟩ := Prod.mk.inj through
  subst both
  obtain ⟨reached, handles₁, handles₂⟩ := handles_append.mp handles
  have regular' := handles₁.regular regular
  have here : c ∈ reached.clients := handles₂.here regular' live
  have fair' : ¬ Broken (framing.split ((server.object c).rx ++ early.flatten)).2 := by
    intro broken
    rw [split_broken broken.append] at isBad
    obtain ⟨m, isHead, -⟩ := broken_iff.mp broken
    have lengths := congrArg List.length isBad
    have one := List.length_pos_of_mem (List.mem_of_mem_head? isHead)
    have two := List.length_pos_iff.mpr some'
    rw [List.length_append, List.length_singleton] at lengths
    omega
  have first := feeds_live regular short rfl handles₁ here fair'
  generalize framing.split ((server.object c).rx ++ early.flatten) = part at isBad fair' first handles₂
  refine ⟨n :: behind, first.append (.chunk here ?_ ((feeds_gone ?_).mpr rfl))⟩
  · apply chunk_returns_iff.mpr
    have split : framing.split ((part.2 ++ before) ++ behind) =
        ((framing.split (part.2 ++ before)).1, n :: behind) :=
      @split_append_broken behind _ _ [n] (Prod.ext rfl isBad) broken
    rw [rx_holding, ← List.append_assoc, split]
    refine ⟨_, handles₂.holding part.2, ?_⟩
    have isBad' : readFrame (n :: behind) = .bad n := by
      rw [readFrame_cons, if_pos bad]
    rw [holding_holding, finish_broken isBad']
  · exact drop_gone (handles₂.regular regular').tidy

/-! ### What the others see -/

/-- The pairing, the names, the counters and what is queued for everybody but
`c` are the same. -/
structure SameOutcome (c : Conn) (one two : Server) : Prop where
  clients : two.clients = one.clients
  floor : two.floor = one.floor
  byName : two.byName = one.byName
  stats : two.stats = one.stats
  tx : ∀ d, d ≠ c → (two.object d).tx = (one.object d).tx

variable {one two : Server}

theorem SameOutcome.rfl : SameOutcome c server server :=
  ⟨Eq.refl _, Eq.refl _, Eq.refl _, Eq.refl _, fun _ _ => Eq.refl _⟩

theorem SameOutcome.symm (same : SameOutcome c one two) : SameOutcome c two one :=
  ⟨same.clients.symm, same.floor.symm, same.byName.symm, same.stats.symm, fun d apart =>
    (same.tx d apart).symm⟩

theorem SameOutcome.trans {three : Server} (first : SameOutcome c one two)
    (second : SameOutcome c two three) : SameOutcome c one three :=
  ⟨second.clients.trans first.clients, second.floor.trans first.floor,
    second.byName.trans first.byName, second.stats.trans first.stats, fun d apart =>
      (second.tx d apart).trans (first.tx d apart)⟩

theorem same_edit (floor : (server.edit c change).floor = server.floor) :
    SameOutcome c server (server.edit c change) := by
  refine ⟨rfl, floor, rfl, rfl, ?_⟩
  intro d apart
  rw [edit_of_ne apart]

theorem same_holding : SameOutcome c server (server.holding c rx) :=
  same_edit (floor_edit rfl rfl rfl)

theorem same_log {line : Line} : SameOutcome c server (server.log line) :=
  ⟨rfl, rfl, rfl, rfl, fun _ _ => rfl⟩

theorem same_send {src : Option Conn} : SameOutcome c server (server.send src c data) := by
  have sent : SameOutcome c server (server.edit c fun client =>
      { client with tx := client.tx ++ data }) := same_edit (floor_edit rfl rfl rfl)
  exact ⟨rfl, floor_send, rfl, rfl, sent.tx⟩

theorem same_noteTv {payload : Bytes} : SameOutcome c server (server.noteTv c payload) := by
  unfold noteTv
  split
  · exact .rfl
  · exact same_edit (floor_edit rfl rfl rfl)

/-- A checksum that has no partner to be compared with. -/
theorem same_logCrc {payload : Bytes} (alone : (server.object c).partner = none) :
    SameOutcome c server (server.logCrc c payload) := by
  unfold logCrc
  simp only
  have missed : ∀ {change : Client → Client} {key : Nat},
      (change (server.object c)).partner = (server.object c).partner →
        (server.edit c change).partnerCrc c key = none := by
    intro change key kept
    unfold partnerCrc
    rw [edit_self, kept, alone]
    rfl
  rw [missed rfl]
  exact (same_edit (floor_edit rfl rfl rfl)).trans (same_edit (floor_edit rfl rfl rfl))

/-- A frame that a client which has gone is not heard with: nothing is relayed,
no name is admitted and nobody is paired. -/
structure Mute (server : Server) (c : Conn) (body : Bytes) : Prop where
  relay : body.headD 0 ∈ relayTypes → (server.object c).partner = none
  hello : body.headD 0 = tHello → (readHello body.tail).toOption = none
  join : body.headD 0 = tJoin → server.waiting c = none

theorem drop_of_gone (gone : c ∉ server.clients) : server.drop oracle c = server := if_neg gone

/-- A mute frame is answered, and nobody else sees anything of it. -/
theorem mute_handled {body : Bytes} (regular : Regular server) (gone : c ∉ server.clients)
    (mute : Mute server c body) :
    ∃ after, server.handle oracle 0 c (body.headD 0) body.tail = .ok after ∧
      SameOutcome c server after := by
  unfold handle
  by_cases isRelay : body.headD 0 ∈ relayTypes
  · have alone := mute.relay isRelay
    have kept : server.forward c (body.headD 0) body.tail = .ok server := by
      unfold forward
      rw [alone]
    rw [if_pos isRelay, kept]
    by_cases logged : body.headD 0 = tInput ∧ 6 ≤ body.tail.length
    · refine ⟨server.logCrc c body.tail, ?_, same_logCrc alone⟩
      exact if_pos logged
    · refine ⟨server, ?_, .rfl⟩
      exact if_neg logged
  rw [if_neg isRelay]
  by_cases isHello : body.headD 0 = tHello
  · rw [if_pos isHello]
    unfold onHello
    cases read : readHello body.tail with
    | ok hello =>
        have refused := mute.hello isHello
        rw [read] at refused
        cases refused
    | error refusal =>
        refine ⟨_, rfl, ?_⟩
        rw [drop_of_gone]
        · exact same_noteTv.trans same_log
        · have clients : ((server.noteTv c body.tail).log (refusalLine ((server.noteTv c
              body.tail).object c).ip refusal)).clients = server.clients := table_noteTv.1
          rw [clients]
          exact gone
  rw [if_neg isHello]
  by_cases isList : body.headD 0 = tList
  · rw [if_pos isList]
    obtain ⟨after, listed⟩ := @sendLobby_returns _ c regular
    refine ⟨after, listed, ?_⟩
    obtain ⟨data, -, sent⟩ := bind_ok.mp listed
    obtain rfl := Except.ok.inj sent
    exact same_send
  rw [if_neg isList]
  by_cases isJoin : body.headD 0 = tJoin
  · rw [if_pos isJoin]
    refine ⟨server, ?_, .rfl⟩
    unfold onJoin tryPair
    rw [mute.join isJoin]
  rw [if_neg isJoin]
  by_cases isPing : body.headD 0 = tPing
  · rw [if_pos isPing]
    exact ⟨_, rfl, same_send⟩
  rw [if_neg isPing]
  by_cases isBye : body.headD 0 = tBye
  · rw [if_pos isBye]
    refine ⟨_, rfl, ?_⟩
    rw [drop_of_gone gone]
    exact .rfl
  · rw [if_neg isBye]
    exact ⟨_, rfl, same_log⟩

theorem tx_logCrc {payload : Bytes} :
    ((server.logCrc c payload).object d).tx = (server.object d).tx := by
  have edits : ∀ {server : Server} {e : Conn} {change : Client → Client},
      (∀ client, (change client).tx = client.tx) →
        ((server.edit e change).object d).tx = (server.object d).tx := by
    intro server e change kept
    by_cases here : d = e
    · subst here
      rw [edit_self, kept]
    · rw [edit_of_ne here]
  unfold logCrc
  simp only
  split
  · refine (edits ?_).trans (edits ?_)
    all_goals exact fun _ => rfl
  · rename_i partner other _
    have done : ∀ {server : Server} {line : Line} {counts counts' : Stats → Stats},
        ((if other ≠ payload.getD 4 0 then (server.count counts).log line
          else server.count counts').object d).tx = (server.object d).tx := by
      intro server line counts counts'
      split <;> rfl
    refine done.trans ((edits ?_).trans (edits ?_))
    all_goals exact fun _ => rfl

theorem byName_startFrame {seed : BitVec 16} {role : Nat}
    (started : startFrame oracle server seed role host guest = .ok after) :
    after.byName = server.byName ∧ after.stats = server.stats := by
  obtain ⟨header, -, rest⟩ := bind_ok.mp started
  split at rest
  · cases rest
  · obtain ⟨data, -, sent⟩ := bind_ok.mp rest
    obtain rfl := Except.ok.inj sent
    exact ⟨rfl, rfl⟩

/-- A pairing is counted, and leaves the names as they are. -/
theorem tryPair_counts (tried : server.tryPair oracle c = .ok after) :
    after.byName = server.byName ∧
      ((server.waiting c).isSome → after.stats.matches_ = server.stats.matches_ + 1) := by
  unfold tryPair at tried
  cases found : server.waiting c with
  | none =>
      rw [found] at tried
      obtain rfl := Except.ok.inj tried
      refine ⟨rfl, ?_⟩
      intro absurd
      cases absurd
  | some other =>
      rw [found] at tried
      obtain ⟨one, first, rest⟩ := bind_ok.mp tried
      obtain ⟨two, second, done⟩ := bind_ok.mp rest
      obtain rfl := Except.ok.inj done
      obtain ⟨names, stats⟩ := byName_startFrame first
      obtain ⟨names', stats'⟩ := byName_startFrame second
      have updated : ∀ {server : Server}, (lobbyUpdate oracle server).byName = server.byName ∧
          (lobbyUpdate oracle server).stats = server.stats := by
        intro server
        unfold lobbyUpdate
        split <;> exact ⟨rfl, rfl⟩
      refine ⟨?_, fun _ => ?_⟩
      · rw [updated.1]
        exact names'.trans names
      · rw [updated.2]
        exact congrArg (fun stats => Stats.matches_ stats + 1) (stats'.trans stats)

/-- Any other frame is seen by somebody, if it is answered. -/
theorem loud_handled {body : Bytes} (gone : c ∉ server.clients)
    (apart : (server.object c).partner ≠ some c)
    (handled : server.handle oracle patience c (body.headD 0) body.tail = .ok after)
    (same : SameOutcome c server after) : Mute server c body := by
  unfold handle at handled
  refine ⟨?_, ?_, ?_⟩
  · intro isRelay
    rw [if_pos isRelay] at handled
    obtain ⟨middle, forwarded, rest⟩ := bind_ok.mp handled
    cases isPartner : (server.object c).partner with
    | none => rfl
    | some partner =>
        have other : partner ≠ c := by
          rintro rfl
          exact apart isPartner
        unfold forward at forwarded
        rw [isPartner] at forwarded
        obtain ⟨data, framed, sent⟩ := bind_ok.mp forwarded
        obtain rfl := Except.ok.inj sent
        have grown : (after.object partner).tx = (server.object partner).tx ++ data := by
          have relayed : ((server.send (some c) partner data).object partner).tx =
              (server.object partner).tx ++ data := by
            unfold send note
            simp only
            rw [edit_self]
          split at rest
          · obtain rfl := Except.ok.inj rest
            rw [tx_logCrc, relayed]
          · obtain rfl := Except.ok.inj rest
            exact relayed
        rw [same.tx partner other] at grown
        have nothing : data = [] := List.self_eq_append_right.mp grown
        unfold frame at framed
        split at framed
        · rw [← Except.ok.inj framed] at nothing
          cases nothing
        · cases framed
  · intro isHello
    have notRelay : body.headD 0 ∉ relayTypes := by
      rw [isHello]
      decide
    rw [if_neg notRelay, if_pos isHello] at handled
    unfold onHello at handled
    simp only at handled
    cases read : readHello body.tail with
    | error refusal => rfl
    | ok hello =>
        rw [read] at handled
        simp only at handled
        split at handled
        · cases handled
        · rename_i name drawn found
          have names := (tryPair_counts handled).1
          have registered : ∀ {server : Server} {tv : Byte},
              (server.register oracle c name tv drawn).byName = server.byName.set name c := by
            intro server tv
            unfold register lobbyUpdate
            split <;> rfl
          have untaken := freeName_free found
          rw [registered, same.byName, noteTv_names.1] at names
          rw [noteTv_names.1] at untaken
          have isSet : (server.byName.get? name).isSome := by
            rw [names, Dict.get?_set, if_pos rfl]
            rfl
          rw [untaken] at isSet
          cases isSet
  · intro isJoin
    have others : body.headD 0 ∉ relayTypes ∧ body.headD 0 ≠ tHello ∧ body.headD 0 ≠ tList := by
      rw [isJoin]
      decide
    rw [if_neg others.1, if_neg others.2.1, if_neg others.2.2, if_pos isJoin] at handled
    cases waits : server.waiting c with
    | none => rfl
    | some other =>
        have counted := (tryPair_counts handled).2 (by rw [waits]; rfl)
        rw [same.stats] at counted
        omega

theorem waiting_same (same : SameOutcome c one two) (still : Still one two) :
    two.waiting d = one.waiting d := by
  have names : ∀ e, (two.object e).name = (one.object e).name :=
    congrFun (congrArg Floor.name same.floor)
  have partners : ∀ e, (two.object e).partner = (one.object e).partner :=
    congrFun (congrArg Floor.partner same.floor)
  have born : ∀ e, (two.object e).born = (one.object e).born := fun e => (still e).born
  unfold waiting idle
  simp only [names, partners, born, same.clients]

theorem Mute.congr {body : Bytes} (mute : Mute one c body) (same : SameOutcome c one two)
    (still : Still one two) : Mute two c body where
  relay isRelay := by
    have partner : (two.object c).partner = (one.object c).partner :=
      congrFun (congrArg Floor.partner same.floor) c
    rw [partner]
    exact mute.relay isRelay
  hello := mute.hello
  join isJoin := by
    rw [waiting_same same still]
    exact mute.join isJoin

/-- Nobody is its own partner. -/
def NotOwn (server : Server) : Prop := ∀ c, server.floor.partner c ≠ some c

theorem Moved.notOwn {calls : Prop} (moved : Moved calls server c after)
    (notOwn : NotOwn server) : NotOwn after := by
  cases moved with
  | stays table floor =>
      unfold NotOwn
      rw [floor]
      exact notOwn
  | drops here clients conns floor =>
      intro d
      rw [floor]
      unfold Floor.leave
      cases isPartner : server.floor.partner c with
      | none => exact notOwn d
      | some left =>
          simp only
          by_cases isLeft : d = left
          · subst isLeft
            rw [Function.update_self]
            exact (Option.some_ne_none d).symm
          · rw [Function.update_of_ne isLeft]
            exact notOwn d
  | names table name short floor =>
      unfold NotOwn
      rw [floor]
      exact notOwn
  | pairs called other found table middle named floor =>
      have apart := (waiting_cases found).2.1
      have partner : middle.partner = server.floor.partner := by
        rcases named with ⟨rfl, -⟩ | ⟨name, -, rfl⟩ <;> rfl
      intro d
      rw [floor]
      unfold Floor.pair
      simp only
      by_cases isGuest : d = c
      · subst isGuest
        rw [Function.update_self]
        exact fun same => apart (Option.some.inj same)
      · rw [Function.update_of_ne isGuest]
        by_cases isHost : d = other
        · subst isHost
          rw [Function.update_self]
          exact fun same => apart (Option.some.inj same).symm
        · rw [Function.update_of_ne isHost, partner]
          exact notOwn d

theorem accept_notOwn {ip : Ip} {port : Nat} {born : Time} (notOwn : NotOwn server) :
    NotOwn (server.accept ip port born) := by
  obtain ⟨-, ⟨-, floor⟩ | ⟨-, floor⟩⟩ := @accept_cases server ip port born
  · unfold NotOwn
    rw [floor]
    exact notOwn
  · intro c
    rw [floor]
    unfold Floor.enter
    simp only
    by_cases new : c = server.conns
    · subst new
      rw [Function.update_self]
      exact (Option.some_ne_none _).symm
    · rw [Function.update_of_ne new]
      exact notOwn c

theorem Handles.notOwn (handles : Handles oracle c server bodies after) (regular : Regular server)
    (notOwn : NotOwn server) : NotOwn after := by
  induction handles with
  | nil server => exact notOwn
  | cons patience handled later inductionHypothesis =>
      have moved := @handle_moved oracle _ _ c patience True _ regular.tidy (fun _ => trivial)
        handled
      exact inductionHypothesis (moved.regular regular) (moved.notOwn notOwn)

/-- Mute frames are all answered, and nobody else sees anything of them. -/
theorem mute_run (regular : Regular server) (gone : c ∉ server.clients)
    (mute : ∀ body ∈ bodies, Mute server c body) :
    ∃ after, Handles oracle c server bodies after ∧ SameOutcome c server after := by
  suffices all : ∀ (bodies : List Bytes) (middle : Server), Regular middle →
      SameOutcome c server middle → Still server middle →
      (∀ body ∈ bodies, Mute server c body) →
      ∃ after, Handles oracle c middle bodies after ∧ SameOutcome c server after from
    all bodies server regular .rfl .rfl mute
  intro bodies
  induction bodies with
  | nil =>
      intro middle _ same _ _
      exact ⟨middle, .nil middle, same⟩
  | cons body rest inductionHypothesis =>
      intro middle regular' same still mute'
      have gone' : c ∉ middle.clients := by
        rw [same.clients]
        exact gone
      have mute₁ := (mute' body List.mem_cons_self).congr same still
      obtain ⟨next, handled, same'⟩ := @mute_handled oracle _ _ _ regular' gone' mute₁
      have one : Handles oracle c middle [body] next := handles_one.mpr ⟨0, handled⟩
      obtain ⟨after, handles, same''⟩ := inductionHypothesis next (one.regular regular')
        (same.trans same') (still.trans (handle_still handled)) fun other member =>
          mute' other (List.mem_cons_of_mem body member)
      exact ⟨after, .cons 0 handled handles, same''⟩

/-! ### Any two cuts -/

def recvSize : Nat := 4096

/-- The bytes in chunks, each of which `recv` can return. -/
structure Cut (data : Bytes) (chunks : List Bytes) : Prop where
  flatten : chunks.flatten = data
  fits : ∀ chunk ∈ chunks, chunk ≠ [] ∧ chunk.length ≤ recvSize

/-- `front`, the stream with what the buffer holds, ends with the frame that drops
the client. -/
def DropsAfter (oracle : Oracle) (c : Conn) (server : Server) (front : Bytes)
    (after : Server) : Prop :=
  ∃ bodies body middle, framing.split front = (bodies ++ [body], []) ∧
    Handles oracle c server bodies middle ∧ c ∈ middle.clients ∧
    Handles oracle c middle [body] after ∧ c ∉ after.clients

/-- Behind the frame that drops the client, as far as the same chunk can reach,
come mute frames only, and no length byte that no frame has. -/
def Unheard (oracle : Oracle) (c : Conn) (server : Server) (data : Bytes) : Prop :=
  ∀ front back after, (server.object c).rx ++ data = front ++ back →
    DropsAfter oracle c server front after →
    (∀ body ∈ (framing.split (back.take (recvSize - 1))).1, Mute after c body) ∧
      ¬ Broken (framing.split (back.take (recvSize - 1))).2

/-- Frames either all find the client there, or one of them drops it, or one of
them is never answered. -/
theorem course (regular : Regular server) (live : c ∈ server.clients) (bodies : List Bytes) :
    (∃ after, Handles oracle c server bodies after ∧ c ∈ after.clients) ∨
      ∃ early body late middle, bodies = early ++ body :: late ∧
        Handles oracle c server early middle ∧ c ∈ middle.clients ∧
        ((∃ after, Handles oracle c middle [body] after ∧ c ∉ after.clients) ∨
          ∀ after, ¬ Handles oracle c middle [body] after) := by
  induction bodies generalizing server with
  | nil => exact Or.inl ⟨server, .nil server, live⟩
  | cons body rest inductionHypothesis =>
      by_cases answered : ∃ next, Handles oracle c server [body] next
      · obtain ⟨next, handles⟩ := answered
        by_cases here : c ∈ next.clients
        · rcases inductionHypothesis (handles.regular regular) here with
            ⟨after, all, stays⟩ | ⟨early, other, late, middle, rfl, first, stays, ends⟩
          · exact Or.inl ⟨after, handles_append.mpr ⟨next, handles, all⟩, stays⟩
          · exact Or.inr ⟨body :: early, other, late, middle, rfl,
              handles_append.mpr ⟨next, handles, first⟩, stays, ends⟩
        · exact Or.inr ⟨[], body, rest, server, rfl, .nil server, live,
            Or.inl ⟨next, handles, here⟩⟩
      · exact Or.inr ⟨[], body, rest, server, rfl, .nil server, live,
          Or.inr fun next handles => answered ⟨next, handles⟩⟩

/-- What has been handled when the chunks are fed: the frames up to one that
drops the client, or all of them. -/
theorem feeds_prefix {left : Bytes} (regular : Regular server) (live : c ∈ server.clients)
    (short : framing.read (server.object c).rx = none)
    (whole : framing.split ((server.object c).rx ++ chunks.flatten) = (bodies, left))
    (feeds : Feeds oracle c server chunks after) :
    ∃ early late middle, bodies = early ++ late ∧ Handles oracle c server early middle ∧
      (late ≠ [] → c ∉ middle.clients) := by
  induction chunks generalizing server bodies with
  | nil =>
      rw [List.flatten_nil, List.append_nil, framing.split_none short] at whole
      obtain ⟨rfl, -⟩ := Prod.mk.inj whole
      exact ⟨[], [], server, rfl, .nil server, fun absurd => (absurd rfl).elim⟩
  | cons chunk rest inductionHypothesis =>
      cases feeds with
      | gone gone => exact absurd live gone
      | chunk here served later =>
          obtain ⟨reached, handles, rfl⟩ := chunk_returns_iff.mp served
          rw [List.flatten_cons, ← List.append_assoc, framing.split_append] at whole
          obtain ⟨rfl, isLeft⟩ := Prod.mk.inj whole
          have stuck := framing.split_left ((server.object c).rx ++ chunk)
          generalize framing.split ((server.object c).rx ++ chunk) = part at *
          by_cases stays : c ∈ reached.clients
          · by_cases broken : Broken part.2
            · refine ⟨part.1, [], reached, ?_, handles, fun absurd => (absurd rfl).elim⟩
              rw [split_broken broken.append]
            · have ends : finish oracle c (reached.holding c part.2) =
                  reached.holding c part.2 := by
                apply finish_whole
                rw [rx_holding]
                exact broken
              rw [ends] at later
              have regular' := handles.regular regular
              obtain ⟨early, late, middle, isBodies, handles', last⟩ :=
                @inductionHypothesis (reached.holding c part.2) _ (regular_holding regular') stays
                  (by rw [rx_holding]; exact stuck) (by rw [rx_holding]; exact Prod.ext rfl isLeft)
                  later
              have back := handles'.holding (server.object c).rx
              rw [holding_holding, holding_of_rx (handles.still c).rx] at back
              exact ⟨part.1 ++ early, late, middle.holding c (server.object c).rx,
                (congrArg (part.1 ++ ·) isBodies).trans (List.append_assoc ..).symm,
                handles_append.mpr ⟨reached, handles, back⟩, last⟩
          · exact ⟨part.1, _, reached, rfl, handles, fun _ => stays⟩

theorem broken_head (broken : Broken data) : ∃ n left, data = n :: left ∧
    (n.toNat < 1 ∨ 200 < n.toNat) := by
  obtain ⟨n, isHead, bad⟩ := broken_iff.mp broken
  cases data with
  | nil => cases isHead
  | cons first left =>
      obtain rfl : first = n := by simpa using isHead
      exact ⟨first, left, rfl, bad⟩

/-- A chunk of the cut is the one in which the client is dropped. -/
theorem DropsAfter.locate {front back : Bytes} (drops : DropsAfter oracle c server front after)
    (short : framing.read (server.object c).rx = none)
    (same : (server.object c).rx ++ chunks.flatten = front ++ back) :
    ∃ early before behind late, chunks = early ++ (before ++ behind) :: late ∧ before ≠ [] ∧
      (server.object c).rx ++ (early.flatten ++ before) = front ∧
      back = behind ++ late.flatten := by
  obtain ⟨bodies, body, middle, whole, -, -, -, -⟩ := drops
  obtain ⟨beyond, some, rfl, same'⟩ := framing.split_beyond short whole
    (List.append_ne_nil_of_right_ne_nil _ (List.cons_ne_nil _ _)) same
  obtain ⟨early, before, behind, late, rfl, some', rfl, rfl⟩ := Lib.locate some same'
  exact ⟨early, before, behind, late, rfl, some', rfl, rfl⟩

/-- With the client dropped in a chunk, the rest of that chunk is handled. -/
theorem DropsAfter.feeds {before behind front : Bytes} {last : Server}
    (drops : DropsAfter oracle c server front after) (regular : Regular server)
    (short : framing.read (server.object c).rx = none)
    (isFront : (server.object c).rx ++ (chunks.flatten ++ before) = front) (some : before ≠ []) :
    Feeds oracle c server (chunks ++ (before ++ behind) :: more) last ↔
      ∃ ending, Handles oracle c after (framing.split behind).1 ending ∧
        last = finish oracle c (ending.holding c (framing.split behind).2) := by
  obtain ⟨bodies, body, middle, whole, handles, live, dropping, gone⟩ := drops
  exact feeds_dropped regular short isFront some whole handles live dropping gone

theorem DropsAfter.regular {front : Bytes} (drops : DropsAfter oracle c server front after)
    (regular : Regular server) (notOwn : NotOwn server) :
    Regular after ∧ NotOwn after ∧ c ∉ after.clients := by
  obtain ⟨bodies, body, middle, -, handles, -, dropping, gone⟩ := drops
  have regular' := handles.regular regular
  exact ⟨dropping.regular regular', dropping.notOwn regular' (handles.notOwn regular notOwn),
    gone⟩

/-- If the stream goes unheard behind the drop, a cut that is served tells the
outcome of every other. -/
theorem feeds_all (regular : Regular server) (live : c ∈ server.clients)
    (short : readFrame (server.object c).rx = .short) (unheard : Unheard oracle c server data)
    (cut : Cut data chunks) (feeds : Feeds oracle c server chunks after) :
    ∃ outcome, ∀ chunks', Cut data chunks' →
      ∃ last, Feeds oracle c server chunks' last ∧ SameOutcome c outcome last := by
  have stuck : framing.read (server.object c).rx = none := by
    have taken : framing.read (server.object c).rx = takeFrame (server.object c).rx := rfl
    rw [taken, takeFrame, short]
  have fair : ¬ Broken (server.object c).rx := by
    rintro ⟨n, bad⟩
    rw [short] at bad
    cases bad
  cases whole : framing.split ((server.object c).rx ++ data) with
  | mk bodies left =>
      rcases @course oracle server c regular live bodies with
        ⟨outcome, handles, stays⟩ | ⟨early, body, late, middle, rfl, handles, stays, ends⟩
      · by_cases broken : Broken left
        · obtain ⟨n, left, rfl, bad⟩ := broken_head broken
          refine ⟨breakOff oracle c n outcome, ?_⟩
          intro chunks' cut'
          rw [← cut'.flatten] at whole
          obtain ⟨rest, fed⟩ := feeds_broken regular stuck fair whole bad handles stays
          exact ⟨_, fed, same_holding⟩
        · refine ⟨outcome, ?_⟩
          intro chunks' cut'
          rw [← cut'.flatten] at whole
          exact ⟨_, feeds_live regular stuck whole handles stays broken, same_holding⟩
      · rcases ends with ⟨outcome, dropping, gone⟩ | never
        · obtain ⟨front, back, same, isFront, -⟩ := @Framing.split_cut _ _ framing _
            (early ++ [body]) late _ (by rw [whole, List.append_assoc]; rfl)
          have drops : DropsAfter oracle c server front outcome :=
            ⟨early, body, middle, isFront, handles, stays, dropping, gone⟩
          refine ⟨outcome, ?_⟩
          intro chunks' cut'
          obtain ⟨quiet, sound⟩ := unheard front back outcome same drops
          rw [← cut'.flatten] at same
          obtain ⟨first, before, behind, rest, rfl, some, upTo, rfl⟩ := drops.locate stuck same
          -- What the chunk brings behind the drop is at the front of what it could bring.
          have size : behind.length ≤ recvSize - 1 := by
            have fits := (cut'.fits _ (List.mem_append_right _ List.mem_cons_self)).2
            have pos := List.length_pos_iff.mpr some
            rw [List.length_append] at fits
            omega
          obtain ⟨beyond, isTaken⟩ : ∃ beyond,
              (behind ++ rest.flatten).take (recvSize - 1) = behind ++ beyond := by
            rw [List.take_append, List.take_of_length_le size]
            exact ⟨_, rfl⟩
          rw [isTaken, framing.split_append] at quiet sound
          have regular' := (handles.regular regular)
          obtain ⟨ending, mute, alike⟩ := @mute_run oracle outcome c _
            (dropping.regular regular') gone fun other member =>
              quiet other (List.mem_append_left _ member)
          have whole' : ¬ Broken (framing.split behind).2 := by
            intro broken
            rw [split_broken broken.append] at sound
            exact sound broken.append
          have ends : finish oracle c (ending.holding c (framing.split behind).2) =
              ending.holding c (framing.split behind).2 := by
            apply finish_whole
            rw [rx_holding]
            exact whole'
          refine ⟨_, (drops.feeds regular stuck upTo some).mpr ⟨ending, mute, rfl⟩, ?_⟩
          rw [ends]
          exact alike.trans same_holding
        · rw [← cut.flatten] at whole
          obtain ⟨handled, unhandled, reached, both, handles', last⟩ :=
            feeds_prefix regular live stuck whole feeds
          exfalso
          rcases List.append_eq_append_iff.mp both with
            ⟨beyond, rfl, isLate⟩ | ⟨beyond, rfl, rfl⟩
          · cases beyond with
            | nil =>
                rw [List.append_nil] at handles'
                rw [List.nil_append] at isLate
                obtain rfl := handles.unique handles'
                exact last (isLate ▸ List.cons_ne_nil _ _) stays
            | cons other beyond =>
                obtain ⟨rfl, rfl⟩ := List.cons.inj isLate
                obtain ⟨middle', first, second⟩ := handles_append.mp handles'
                obtain rfl := handles.unique first
                obtain ⟨next, one, -⟩ := @handles_append oracle _ _ _ [body] beyond |>.mp second
                exact never next one
          · obtain ⟨reached', first, second⟩ := handles_append.mp handles
            obtain rfl := handles'.unique first
            exact last (List.append_ne_nil_of_right_ne_nil _ (List.cons_ne_nil _ _))
              (second.here (handles'.regular regular) stays)

/-- The bytes one by one. -/
def bytesOf (data : Bytes) : List Bytes := data.map fun byte => [byte]

theorem bytesOf_flatten : (bytesOf data).flatten = data := by
  induction data with
  | nil => rfl
  | cons byte rest inductionHypothesis => exact congrArg (byte :: ·) inductionHypothesis

theorem bytesOf_fits : ∀ chunk ∈ bytesOf data, chunk ≠ [] ∧ chunk.length ≤ recvSize := by
  intro chunk member
  obtain ⟨byte, -, rfl⟩ := List.mem_map.mp member
  refine ⟨List.cons_ne_nil _ _, ?_⟩
  rw [List.length_singleton]
  decide

/-- Any two cuts that are served have the same outcome. -/
def Seamless (oracle : Oracle) (c : Conn) (server : Server) (data : Bytes) : Prop :=
  ∀ one two, Cut data one → Cut data two → ∀ last, Feeds oracle c server one last →
    ∃ last', Feeds oracle c server two last' ∧ SameOutcome c last last'

/-- What a chunk can bring behind the drop makes no difference, if no cut
does. -/
theorem Seamless.behind {front back behind rest : Bytes}
    (seamless : Seamless oracle c server data) (regular : Regular server)
    (short : framing.read (server.object c).rx = none)
    (same : (server.object c).rx ++ data = front ++ back)
    (drops : DropsAfter oracle c server front after)
    (isTaken : back.take (recvSize - 1) = behind ++ rest) :
    ∃ ending, Handles oracle c after (framing.split behind).1 ending ∧
      SameOutcome c after (finish oracle c (ending.holding c (framing.split behind).2)) := by
  obtain ⟨bodies, body, middle, whole, -, -, -, -⟩ := id drops
  obtain ⟨beyond, some, rfl, rfl⟩ := framing.split_beyond short whole
    (List.append_ne_nil_of_right_ne_nil _ (List.cons_ne_nil _ _)) same
  obtain ⟨early, byte, isBeyond⟩ : ∃ early byte, beyond = early ++ [byte] := by
    rcases List.eq_nil_or_concat beyond with absurd | ⟨early, byte, isBeyond⟩
    · exact (some absurd).elim
    · exact ⟨early, byte, by rw [isBeyond, List.concat_eq_append]⟩
  subst isBeyond
  have upTo : (server.object c).rx ++ ((bytesOf early).flatten ++ [byte]) =
      (server.object c).rx ++ (early ++ [byte]) := by rw [bytesOf_flatten]
  have cut : ∀ behind rest, back.take (recvSize - 1) = behind ++ rest →
      ∃ late, Cut ((early ++ [byte]) ++ back) (bytesOf early ++ ([byte] ++ behind) :: late) := by
    intro behind rest isTaken
    refine ⟨bytesOf (back.drop behind.length), ?_, ?_⟩
    · have isFront : back = behind ++ back.drop behind.length := by
        have whole : back = behind ++ (rest ++ back.drop (recvSize - 1)) := by
          rw [← List.append_assoc, ← isTaken, List.take_append_drop]
        rw [whole, List.drop_left]
      rw [List.flatten_append, List.flatten_cons, bytesOf_flatten, bytesOf_flatten]
      rw [List.append_assoc, List.append_assoc, ← isFront]
    · intro chunk member
      rcases List.mem_append.mp member with single | single
      · exact bytesOf_fits chunk single
      rcases List.mem_cons.mp single with rfl | single
      · refine ⟨List.cons_ne_nil _ _, ?_⟩
        have size := congrArg List.length isTaken
        rw [List.length_take, List.length_append] at size
        rw [List.length_append, List.length_singleton]
        have pos : recvSize = 4096 := rfl
        omega
      · exact bytesOf_fits chunk single
  obtain ⟨late, one⟩ := cut [] _ rfl
  obtain ⟨late', two⟩ := cut behind rest isTaken
  have nothing : Handles oracle c after (framing.split []).1 after := by
    rw [framing.split_nil]
    exact .nil after
  have fed : Feeds oracle c server (bytesOf early ++ ([byte] ++ []) :: late)
      (finish oracle c (after.holding c (framing.split []).2)) :=
    (drops.feeds regular short upTo (List.cons_ne_nil _ _)).mpr ⟨after, nothing, rfl⟩
  obtain ⟨last, second, alike⟩ := seamless _ _ one two _ fed
  obtain ⟨ending, handles, rfl⟩ :=
    (drops.feeds regular short upTo (List.cons_ne_nil _ _)).mp second
  refine ⟨ending, handles, SameOutcome.trans ?_ alike⟩
  rw [framing.split_nil, finish_whole]
  · exact same_holding
  · rw [rx_holding]
    rintro ⟨n, absurd⟩
    cases absurd

theorem Still.symm (still : Still server after) : Still after server := fun c =>
  ⟨(still c).rx.symm, (still c).ip.symm, (still c).port.symm, (still c).born.symm⟩

/-- If what holds of all items before one holds of it, it holds of all. -/
theorem all_of_before {α : Type} {p : α → Prop} {items : List α}
    (next : ∀ early item late, items = early ++ item :: late → (∀ other ∈ early, p other) →
      p item) : ∀ item ∈ items, p item := by
  induction items using List.reverseRecOn with
  | nil => exact fun _ member => absurd member List.not_mem_nil
  | append_singleton early item inductionHypothesis =>
      have before : ∀ other ∈ early, p other := by
        apply inductionHypothesis
        intro early' other late same
        exact next early' other (late ++ [item]) (by rw [same, List.append_assoc]; rfl)
      intro other member
      rcases List.mem_append.mp member with old | new
      · exact before other old
      · rw [List.mem_singleton.mp new]
        exact next early item [] rfl before

/-- No cut makes a difference if and only if the stream goes unheard behind the
frame that drops the client. -/
theorem seamless_iff (regular : Regular server) (notOwn : NotOwn server)
    (live : c ∈ server.clients) (short : readFrame (server.object c).rx = .short) :
    Seamless oracle c server data ↔ Unheard oracle c server data := by
  have stuck : framing.read (server.object c).rx = none := by
    have taken : framing.read (server.object c).rx = takeFrame (server.object c).rx := rfl
    rw [taken, takeFrame, short]
  constructor
  · intro seamless front back after same drops
    obtain ⟨regular', notOwn', gone⟩ := drops.regular regular notOwn
    have quiet : ∀ body ∈ (framing.split (back.take (recvSize - 1))).1, Mute after c body := by
      apply all_of_before
      intro early body late isSplit mute
      obtain ⟨behind, rest, isTaken, isBehind, -⟩ := @Framing.split_cut _ _ framing
        (back.take (recvSize - 1)) (early ++ [body]) late _
        (Prod.ext (by rw [isSplit, List.append_assoc]; rfl) rfl)
      obtain ⟨ending, handles, alike⟩ := seamless.behind regular stuck same drops isTaken
      rw [isBehind] at handles alike
      obtain ⟨reached, first, second⟩ := handles_append.mp handles
      obtain ⟨reached', first', alike'⟩ := @mute_run oracle after c early regular' gone mute
      obtain rfl := first.unique first'
      obtain ⟨patience, handled⟩ := handles_one.mp second
      have ends : finish oracle c (ending.holding c []) = ending.holding c [] := by
        apply finish_whole
        rw [rx_holding]
        rintro ⟨n, absurd⟩
        cases absurd
      rw [ends] at alike
      have unseen : SameOutcome c reached ending :=
        alike'.symm.trans (alike.trans same_holding.symm)
      have gone' : c ∉ reached.clients := by
        rw [alike'.clients]
        exact gone
      exact (loud_handled gone' (first.notOwn regular' notOwn' c) handled unseen).congr
        alike'.symm first.still.symm
    refine ⟨quiet, ?_⟩
    intro broken
    obtain ⟨ending, handles, alike⟩ := @Seamless.behind oracle _ _ c _ front back _ [] seamless regular stuck
      same drops (List.append_nil _).symm
    obtain ⟨ending', handles', alike'⟩ := @mute_run oracle after c _ regular' gone quiet
    obtain rfl := handles.unique handles'
    obtain ⟨n, left, isLeft, bad⟩ := broken_head broken
    have isBad : readFrame (n :: left) = .bad n := by
      rw [readFrame_cons, if_pos bad]
    rw [isLeft, finish_broken isBad] at alike
    have counted := congrArg Stats.badFrames (alike.trans same_holding.symm).stats
    have gone' : c ∉ ending.clients := by
      rw [alike'.clients]
      exact gone
    have added : (breakOff oracle c n ending).stats.badFrames = ending.stats.badFrames + 1 := by
      unfold breakOff
      rw [drop_of_gone]
      · rfl
      · exact gone'
    rw [added, alike'.stats] at counted
    omega
  · intro unheard one two cut cut' last feeds
    obtain ⟨outcome, every⟩ := feeds_all regular live short unheard cut feeds
    obtain ⟨last₁, feeds₁, alike₁⟩ := every one cut
    obtain ⟨last₂, feeds₂, alike₂⟩ := every two cut'
    obtain rfl := feeds.unique feeds₁
    exact ⟨last₂, feeds₂, alike₁.symm.trans alike₂⟩

/-! ### Between the chunks the buffers hold no whole frame -/

/-- Nobody's buffer has changed, and nobody has come. -/
structure Shrinks (server after : Server) : Prop where
  still : Still server after
  fewer : ∀ d ∈ after.clients, d ∈ server.clients

theorem Shrinks.rfl : Shrinks server server := ⟨.rfl, fun _ member => member⟩

theorem Shrinks.trans {middle : Server} (one : Shrinks server middle)
    (two : Shrinks middle after) : Shrinks server after :=
  ⟨one.still.trans two.still, fun d member => one.fewer d (two.fewer d member)⟩

theorem shrinks_drop : Shrinks server (server.drop oracle c) := by
  refine ⟨still_drop, ?_⟩
  intro d member
  unfold drop at member
  split at member
  · rw [table_lobbyUpdate.1, table_farewell.1] at member
    have removed : d ∈ ((server.unregister c).leavePartner c).clients :=
      List.mem_of_mem_erase member
    rwa [table_leavePartner.1, table_unregister.1] at removed
  · exact member

theorem shrinks_log {line : Line} : Shrinks server (server.log line) :=
  ⟨Still.rfl.log, fun _ member => member⟩

theorem shrinks_count {counts : Stats → Stats} : Shrinks server (server.count counts) :=
  ⟨Still.rfl.count, fun _ member => member⟩

theorem shrinks_checkBacklog : Shrinks server (server.checkBacklog oracle c) := by
  unfold checkBacklog
  simp only
  split
  · exact (shrinks_count.trans shrinks_log).trans shrinks_drop
  · exact .rfl

theorem shrinks_flush {sent : Sent} : Shrinks server (server.flush oracle c sent) := by
  unfold flush
  simp only
  split
  · exact .rfl
  split
  · exact shrinks_drop
  cases sent with
  | failed => exact shrinks_drop
  | blocked => exact shrinks_checkBacklog
  | took count =>
      have still : Still server (server.edit c fun client =>
          { client with tx := (server.object c).tx.drop count }) :=
        Still.rfl.edit ⟨rfl, rfl, rfl, rfl⟩
      have taken : Shrinks server ((server.edit c fun client =>
          { client with tx := (server.object c).tx.drop count }).note
            (.sent c ((server.object c).tx.take count))) := ⟨still, fun _ member => member⟩
      exact taken.trans shrinks_checkBacklog

theorem shrinks_writable {write : Option Sent} :
    Shrinks server (server.writable oracle c write) := by
  unfold writable
  split
  · split
    · exact shrinks_flush
    · exact .rfl
  · exact .rfl

theorem shrinks_expire {now : Time} : Shrinks server (expire oracle now server c) := by
  unfold expire
  split
  · exact shrinks_count.trans shrinks_drop
  · exact .rfl

theorem shrinks_sweepAt {now : Time} : Shrinks server (server.sweepAt oracle now) := by
  have swept : ∀ (clients : List Conn) (server : Server),
      Shrinks server (clients.foldl (expire oracle now) server) := by
    intro clients
    induction clients with
    | nil => exact fun server => .rfl
    | cons c rest inductionHypothesis =>
        exact fun server => shrinks_expire.trans (inductionHypothesis _)
  unfold sweepAt
  split
  · exact ⟨(swept _ _).still, (swept _ _).fewer⟩
  · exact .rfl

theorem shrinks_reportAt {now : Time} : Shrinks server (server.reportAt now) := by
  unfold reportAt
  split
  · exact ⟨.rfl, fun _ member => member⟩
  · exact .rfl

/-- Whoever is there after an accept was there before, or has an empty buffer. -/
theorem accept_rx {ip : Ip} {port : Nat} {born : Time}
    (member : d ∈ (server.accept ip port born).clients) :
    d ∈ server.clients ∧
        ((server.accept ip port born).object d).rx = (server.object d).rx ∨
      ((server.accept ip port born).object d).rx = [] := by
  unfold accept at member ⊢
  simp only at member ⊢
  split at member
  · rename_i full
    rw [if_pos full]
    exact Or.inl ⟨member, rfl⟩
  rename_i open_
  rw [if_neg open_]
  split at member
  · rename_i many
    rw [if_pos many]
    exact Or.inl ⟨member, rfl⟩
  · rename_i few
    rw [if_neg few]
    have object : ∀ client : Client, (({ server with
        conns := server.conns + 1
        object := Function.update server.object server.conns client
        clients := server.clients ++ [server.conns] } : Server).log
          (.connected ip port)).object d = Function.update server.object server.conns client d :=
      fun _ => rfl
    rw [object]
    by_cases new : d = server.conns
    · subst new
      rw [Function.update_self]
      exact Or.inr rfl
    · rw [Function.update_of_ne new]
      have old : d ∈ server.clients ++ [server.conns] := member
      rcases List.mem_append.mp old with here | here
      · exact Or.inl ⟨here, rfl⟩
      · exact absurd (List.mem_singleton.mp here) new

/-- A frame is served: no other buffer changes, and nobody comes. -/
theorem serviceOnce_others {again : Bool} (regular : Regular server)
    (served : server.serviceOnce oracle patience c = .ok (after, again)) :
    (∀ d ∈ after.clients, d ∈ server.clients) ∧
      (∀ d, d ≠ c → (after.object d).rx = (server.object d).rx) ∧
      (again = false → c ∈ after.clients → readFrame (after.object c).rx = .short) := by
  refine ⟨?_, ?_, ?_⟩
  · have moved := serviceOnce_moved regular.tidy served
    intro d member
    cases moved with
    | stays table floor => exact table.1 ▸ member
    | drops here clients conns floor =>
        rw [clients] at member
        exact List.mem_of_mem_erase member
    | names table name short floor => exact table.1 ▸ member
    | pairs called other found table middle named floor => exact table.1 ▸ member
  · intro d apart
    unfold serviceOnce at served
    split at served
    · obtain ⟨rfl, -⟩ := Prod.mk.inj (Except.ok.inj served)
      rfl
    · obtain ⟨rfl, -⟩ := Prod.mk.inj (Except.ok.inj served)
      exact ((shrinks_count.trans shrinks_log).trans shrinks_drop).still d |>.rx
    · obtain ⟨middle, handled, done⟩ := bind_ok.mp served
      obtain ⟨rfl, -⟩ := Prod.mk.inj (Except.ok.inj done)
      rw [(handle_still handled d).rx, edit_of_ne apart]
  · rintro rfl here
    unfold serviceOnce at served
    split at served
    · rename_i short
      obtain ⟨rfl, -⟩ := Prod.mk.inj (Except.ok.inj served)
      exact short
    · obtain ⟨rfl, -⟩ := Prod.mk.inj (Except.ok.inj served)
      exact absurd here (drop_gone regular.tidy)
    · obtain ⟨middle, handled, done⟩ := bind_ok.mp served
      cases (Prod.mk.inj (Except.ok.inj done)).2

end Server

namespace Loop

variable {oracle : Oracle} {loop after : Loop} {act : Act} {now : Time} {c : Conn}

/-- A client that is not being served has no whole frame in its buffer. -/
def Drained (loop : Loop) : Prop :=
  ∀ c ∈ loop.state.clients, (∀ job ∈ loop.jobs, job ≠ .service c) →
    readFrame (loop.state.object c).rx = .short

theorem Drained.shrinks {server : Server} {job : Job} {rest more : List Job}
    (drained : Drained ⟨server, job :: rest⟩) (other : ∀ c, job ≠ .service c)
    {after : Server} (shrinks : Server.Shrinks server after) :
    Drained ⟨after, more ++ rest⟩ := by
  intro c member idle
  have rx : (after.object c).rx = (server.object c).rx := (shrinks.still c).rx
  rw [rx]
  apply drained c (shrinks.fewer c member)
  intro waiting present
  rcases List.mem_cons.mp present with rfl | present
  · exact other c
  · exact idle waiting (List.mem_append_right _ present)

theorem drained_step (regular : loop.state.Regular) (drained : Drained loop)
    (step : Step oracle loop act after) : Drained after := by
  cases act with
  | turn turn =>
      obtain ⟨server, jobs⟩ := loop
      cases jobs with
      | nil =>
          obtain rfl := Option.some.inj step
          intro c member _
          exact drained c member fun job absurd => (List.not_mem_nil absurd).elim
      | cons job rest => cases step
  | work patience =>
      obtain ⟨server, jobs⟩ := loop
      have worked : (⟨server, jobs⟩ : Loop).work (fun server job =>
          (server.perform oracle patience job).toOption) = some after := step
      obtain ⟨job, rest, last, more, rfl, outcome, rfl⟩ := Agenda.work_cases worked
      have performed : server.perform oracle patience job = .ok (last, more) := by
        cases isOutcome : server.perform oracle patience job with
        | error err =>
            rw [isOutcome] at outcome
            cases outcome
        | ok done =>
            rw [isOutcome] at outcome
            exact congrArg Except.ok (Option.some.inj outcome)
      cases job with
      | accept ip port born =>
          obtain ⟨rfl, rfl⟩ := Prod.mk.inj (Except.ok.inj performed)
          intro d member idle
          rcases Server.accept_rx member with ⟨here, rx⟩ | empty
          · rw [rx]
            apply drained d here
            intro job present
            rcases List.mem_cons.mp present with rfl | present
            · exact Job.noConfusion
            · exact idle job present
          · rw [empty]
            rfl
      | ready c read write =>
          unfold Server.perform at performed
          cases read with
          | none =>
              obtain ⟨rfl, rfl⟩ := Prod.mk.inj (Except.ok.inj performed)
              exact drained.shrinks (fun _ => Job.noConfusion) Server.shrinks_writable
          | some data =>
              simp only at performed
              split at performed
              · obtain ⟨rfl, rfl⟩ := Prod.mk.inj (Except.ok.inj performed)
                exact drained.shrinks (fun _ => Job.noConfusion) Server.shrinks_drop
              · obtain ⟨rfl, rfl⟩ := Prod.mk.inj (Except.ok.inj performed)
                intro d member idle
                have apart : d ≠ c := by
                  rintro rfl
                  exact idle (.service d) List.mem_cons_self rfl
                have rx := congrArg Client.rx (@Server.edit_of_ne server c (fun client =>
                  { client with rx := client.rx ++ server.received c data }) d apart)
                unfold Server.receive
                rw [rx]
                apply drained d member
                intro job present
                rcases List.mem_cons.mp present with rfl | present
                · exact Job.noConfusion
                · exact idle job (List.mem_append_right _ present)
      | service c =>
          obtain ⟨⟨served, again⟩, once, done⟩ := bind_ok.mp performed
          obtain ⟨rfl, rfl⟩ := Prod.mk.inj (Except.ok.inj done)
          obtain ⟨fewer, others, own⟩ := Server.serviceOnce_others regular once
          intro d member idle
          by_cases here : d = c
          · subst here
            cases again with
            | true => exact (idle (.service d) List.mem_cons_self rfl).elim
            | false => exact own rfl member
          · have rx := others d here
            rw [rx]
            apply drained d (fewer d member)
            intro job present
            rcases List.mem_cons.mp present with rfl | present
            · exact fun same => here (Job.service.inj same).symm
            · exact idle job (List.mem_append_right _ present)
      | writable c write =>
          obtain ⟨rfl, rfl⟩ := Prod.mk.inj (Except.ok.inj performed)
          exact drained.shrinks (fun _ => Job.noConfusion) Server.shrinks_writable
      | flushAll sends =>
          obtain ⟨rfl, rfl⟩ := Prod.mk.inj (Except.ok.inj performed)
          exact drained.shrinks (fun _ => Job.noConfusion) .rfl
      | flush c sent =>
          obtain ⟨rfl, rfl⟩ := Prod.mk.inj (Except.ok.inj performed)
          exact drained.shrinks (fun _ => Job.noConfusion) Server.shrinks_flush
      | sweep now =>
          obtain ⟨rfl, rfl⟩ := Prod.mk.inj (Except.ok.inj performed)
          exact drained.shrinks (fun _ => Job.noConfusion) Server.shrinks_sweepAt
      | report now =>
          obtain ⟨rfl, rfl⟩ := Prod.mk.inj (Except.ok.inj performed)
          exact drained.shrinks (fun _ => Job.noConfusion) Server.shrinks_reportAt

theorem regular_step (regular : loop.state.Regular) (step : Step oracle loop act after) :
    after.state.Regular := by
  rcases step_cases oracle step with ⟨turn, -, same⟩ |
    ⟨patience, job, rest, more, -, -, performed, -⟩
  · rw [same]
    exact regular
  · exact Server.perform_regular performed regular

theorem notOwn_step (regular : loop.state.Regular) (notOwn : loop.state.NotOwn)
    (step : Step oracle loop act after) : after.state.NotOwn := by
  rcases step_cases oracle step with ⟨turn, -, same⟩ |
    ⟨patience, job, rest, more, -, -, performed, -⟩
  · rw [same]
    exact notOwn
  · have keeps := @Server.perform_keeps oracle loop.state after.state patience fun server =>
      server.Regular ∧ server.NotOwn
    have both : after.state.Regular ∧ after.state.NotOwn := by
      refine keeps ?_ ?_ ?_ ?_ performed ⟨regular, notOwn⟩
      · rintro server after ⟨regular, notOwn⟩ quiet
        refine ⟨regular.congr quiet.table quiet.floor, ?_⟩
        unfold Server.NotOwn
        rw [quiet.floor]
        exact notOwn
      · rintro server c ⟨regular, notOwn⟩
        have moved : Server.Moved False server c (server.drop oracle c) :=
          Server.drop_moved regular.tidy
        exact ⟨moved.regular regular, moved.notOwn notOwn⟩
      · intro ip port born
        exact ⟨Server.accept_regular regular, Server.accept_notOwn notOwn⟩
      · intro c again _ once
        have moved := Server.serviceOnce_moved regular.tidy once
        exact ⟨moved.regular regular, moved.notOwn notOwn⟩
    exact both.2

/-- What holds of every reachable state of the loop. -/
theorem drained_run {meets : Loop → Act → Prop}
    (run : Run (Step oracle) meets (start now) loop) :
    loop.state.Regular ∧ loop.state.NotOwn ∧ Drained loop := by
  refine run.invariant (fun loop => loop.state.Regular ∧ loop.state.NotOwn ∧ Drained loop) ?_ ?_
  · refine ⟨Server.start_regular, ?_, ?_⟩
    · intro c absurd
      cases absurd
    · intro c absurd
      exact (List.not_mem_nil absurd).elim
  · rintro before act after ⟨regular, notOwn, drained⟩ - step
    exact ⟨regular_step regular step, notOwn_step regular notOwn step,
      drained_step regular drained step⟩

/-- In every reachable state in which a client is not being served, no two ways
of cutting its bytes into chunks have different outcomes if and only if nothing
that the chunk of a drop can bring behind it is heard. -/
theorem segmentation_iff (run : Run (Step oracle) always (start now) loop)
    (live : c ∈ loop.state.clients) (idle : ∀ job ∈ loop.jobs, job ≠ .service c) (data : Bytes) :
    Server.Seamless oracle c loop.state data ↔ Server.Unheard oracle c loop.state data := by
  obtain ⟨regular, notOwn, drained⟩ := drained_run run
  exact Server.seamless_iff regular notOwn live (drained c live idle)

/-- In a match, the second console says goodbye. -/
theorem segmentation_iff_bye : ∃ loop : Loop, 1 ∈ loop.state.clients ∧
    (Server.Seamless plain 1 loop.state (wire tBye []) ↔
      Server.Unheard plain 1 loop.state (wire tBye [])) := by
  have outcome : (inMatch.foldlM (next plain) (start 0)).map
      (fun loop => (decide (1 ∈ loop.state.clients), loop.jobs.isEmpty)) = some (true, true) := by
    decide +kernel
  obtain ⟨loop, executed, isOutcome⟩ := Option.map_eq_some_iff.mp outcome
  obtain ⟨live, isEmpty⟩ := Prod.mk.inj isOutcome
  have nothing : loop.jobs = [] := List.isEmpty_iff.mp isEmpty
  have idle : ∀ job ∈ loop.jobs, job ≠ .service 1 := by
    rw [nothing]
    exact fun job absurd => (List.not_mem_nil absurd).elim
  exact ⟨loop, of_decide_eq_true live,
    segmentation_iff (Run.of_foldlM executed) (of_decide_eq_true live) idle _⟩

/-- In a match, the second console says goodbye, and sends an INPUT behind it. -/
def byeInput : Bytes := wire tBye [] ++ inputFrame [1, 2, 3, 4, 5, 6]

/-- In one chunk with the BYE, the INPUT is relayed to the console that is left;
in a chunk of its own it is not received. -/
theorem segmentation_matters : ∃ (loop : Loop) (one two : Server),
    Run (Step plain) always (start 0) loop ∧ 1 ∈ loop.state.clients ∧ loop.jobs.isEmpty = true ∧
      Server.Cut byeInput [byeInput] ∧
      Server.Cut byeInput [wire tBye [], inputFrame [1, 2, 3, 4, 5, 6]] ∧
      Server.Feeds plain 1 loop.state [byeInput] one ∧
      Server.Feeds plain 1 loop.state [wire tBye [], inputFrame [1, 2, 3, 4, 5, 6]] two ∧
      (one.object 0).tx ≠ (two.object 0).tx := by
  have outcome : (inMatch.foldlM (next plain) (start 0)).bind (fun loop =>
      (Server.feed plain 1 3 [byeInput] loop.state).bind fun one =>
        (Server.feed plain 1 3 [wire tBye [], inputFrame [1, 2, 3, 4, 5, 6]] loop.state).map
          fun two => decide (1 ∈ loop.state.clients ∧ loop.jobs.isEmpty = true ∧
            (one.object 0).tx ≠ (two.object 0).tx)) = some true := by
    decide +kernel
  obtain ⟨loop, executed, isOutcome⟩ := Option.bind_eq_some_iff.mp outcome
  obtain ⟨one, fedOne, isOutcome⟩ := Option.bind_eq_some_iff.mp isOutcome
  obtain ⟨two, fedTwo, isOutcome⟩ := Option.map_eq_some_iff.mp isOutcome
  obtain ⟨live, isEmpty, apart⟩ := of_decide_eq_true isOutcome
  refine ⟨loop, one, two, Run.of_foldlM executed, live, isEmpty, ?_, ?_,
    Server.feeds_of_feed fedOne, Server.feeds_of_feed fedTwo, apart⟩
  · exact ⟨rfl, by decide⟩
  · exact ⟨rfl, by decide⟩

end Loop

end DragsterNet.Relay
