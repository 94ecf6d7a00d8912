/-
Module: DragsterNet.Refine.Match
Purpose: When a state of the C relay stands for one of the Python relay, and that
  a drop keeps it so.
Trusted boundary: none
Main exports: Match, Match.edit, Match.send, Room, leaving, Match.drop
-/
import DragsterNet.Refine.Mirror
import DragsterNet.Refine.Seating

namespace DragsterNet.Refine

open Lib Relay
open Relay.Server (ShortName namePayload)
open CRelay (Slot Board Counters)

/-! ### The relation -/

/-- The descriptors of the slots. -/
def fds (state : CRelay.State) (ci : Slot) : Option Conn := (state.clients ci).fd

/-- The state of the C relay stands for that of the Python relay, while `serving`
is the slot whose frames are being handled. -/
structure Match (serving : Option Slot) (state : CRelay.State) (server : Server) : Prop where
  content : Content state server
  seats : Seats state.board state.order server.clients server.conns
  links : Links serving state.board server.floor.partner
  names : Names state.board state.byName server.byName server.floor.name
  watch : Watch state.board state.watched (fds state)

variable {oracle : Oracle} {serving : Option Slot} {state after : CRelay.State}
  {server after' : Server} {ci host guest : Slot} {c d : Conn}
  {change : CRelay.Client → CRelay.Client} {change' : Client → Client}

/-! ### Work that moves nobody -/

/-- Who sits where, who is linked and what is registered is as before in the C
relay. -/
structure Frame (state after : CRelay.State) : Prop where
  board : after.board = state.board
  order : after.order = state.order
  byName : after.byName = state.byName
  watched : after.watched = state.watched
  fds : fds after = fds state

/-- The same for the Python relay. -/
structure Frame' (server after : Server) : Prop where
  clients : after.clients = server.clients
  conns : after.conns = server.conns
  floor : after.floor = server.floor
  byName : after.byName = server.byName

theorem fds_edit (kept : (change (state.clients ci)).fd = (state.clients ci).fd) :
    fds (state.edit ci change) = fds state := by
  funext cj
  unfold fds
  by_cases here : cj = ci
  · subst here
    rw [CRelay.State.edit_self]
    exact kept
  · rw [CRelay.State.edit_of_ne here]

theorem frame_edit (face : (change (state.clients ci)).face = (state.clients ci).face)
    (kept : (change (state.clients ci)).fd = (state.clients ci).fd) :
    Frame state (state.edit ci change) :=
  ⟨CRelay.State.board_edit_same face, rfl, rfl, rfl, fds_edit kept⟩

theorem fds_note {seen : Seen} : fds (state.note seen) = fds state := rfl

theorem frame_note {seen : Seen} : Frame state (state.note seen) := ⟨rfl, rfl, rfl, rfl, rfl⟩

theorem frame_note' {seen : Seen} : Frame' server (server.note seen) := ⟨rfl, rfl, rfl, rfl⟩

theorem frame_count {counts : Counters → Counters} : Frame state (state.count counts) :=
  ⟨rfl, rfl, rfl, rfl, rfl⟩

theorem frame_count' {counts : Stats → Stats} : Frame' server (server.count counts) :=
  ⟨rfl, rfl, rfl, rfl⟩

theorem frame_lobbyUpdate : Frame state (state.lobbyUpdateCount oracle) := by
  unfold CRelay.State.lobbyUpdateCount
  split
  · exact frame_note
  · exact ⟨rfl, rfl, rfl, rfl, rfl⟩

theorem frame_lobbyUpdate' : Frame' server (server.lobbyUpdate oracle) := by
  unfold Server.lobbyUpdate
  split
  · exact frame_note'
  · exact ⟨rfl, rfl, rfl, rfl⟩

theorem frame_send {src : Option Slot} {data : Bytes} :
    Frame state (state.clientSend src ci data) := by
  refine ⟨CRelay.State.board_clientSend, CRelay.State.order_clientSend, ?_, ?_, ?_⟩
  all_goals
    unfold CRelay.State.clientSend
    simp only
    split
  · rfl
  · rfl
  · rfl
  · rfl
  · exact fds_edit rfl
  · rw [fds_note]
    exact fds_edit rfl

theorem frame_send' {src : Option Conn} {data : Bytes} :
    Frame' server (server.send src c data) :=
  ⟨rfl, rfl, Server.floor_send, rfl⟩

namespace Match

theorem move (related : Match serving state server) (content : Content after after')
    (frame : Frame state after) (frame' : Frame' server after') :
    Match serving after after' := by
  refine ⟨content, ?_, ?_, ?_, ?_⟩
  · rw [frame.board, frame.order, frame'.clients, frame'.conns]
    exact related.seats
  · rw [frame.board, frame'.floor]
    exact related.links
  · rw [frame.board, frame.byName, frame'.byName, frame'.floor]
    exact related.names
  · rw [frame.board, frame.watched, frame.fds]
    exact related.watch

theorem edit (related : Match serving state server) (holds : (state.board ci).holds = some c)
    (face : (change (state.clients ci)).face = (state.clients ci).face)
    (kept : (change (state.clients ci)).fd = (state.clients ci).fd)
    (floor : (server.edit c change').floor = server.floor)
    (mirror : Mirror (change (state.clients ci)) (change' (server.object c))) :
    Match serving (state.edit ci change) (server.edit c change') :=
  related.move (related.content.edit holds (congrArg CRelay.Face.holds face) mirror)
    (frame_edit face kept) ⟨rfl, rfl, floor, rfl⟩

theorem log (related : Match serving state server) (line : Line) :
    Match serving (state.log line) (server.log line) :=
  related.move (related.content.log line) frame_note frame_note'

theorem count (related : Match serving state server) {counts : Counters → Counters}
    {counts' : Stats → Stats}
    (same : counts (wrapped server.stats) = wrapped (counts' server.stats)) :
    Match serving (state.count counts) (server.count counts') :=
  related.move (related.content.count same) frame_count frame_count'

theorem lobbyUpdate (related : Match serving state server) :
    Match serving (state.lobbyUpdateCount oracle) (server.lobbyUpdate oracle) :=
  related.move (related.content.lobbyUpdate related.names.size) frame_lobbyUpdate
    frame_lobbyUpdate'

theorem send (related : Match serving state server) {src : Option Slot} {src' : Option Conn}
    {data : Bytes} (holds : (state.board ci).holds = some c)
    (sender : src.map state.conn = src')
    (room : (state.clients ci).txLen + data.length ≤ CRelay.txCap) :
    Match serving (state.clientSend src ci data) (server.send src' c data) :=
  related.move (related.content.send holds sender room) frame_send frame_send'

end Match

/-! ### Leaving -/

/-- The bytes fit behind what the transmit buffers hold. -/
def Room (state : CRelay.State) (appended : List (Slot × Nat)) : Prop :=
  ∀ sent ∈ appended, (state.clients sent.1).txLen + sent.2 ≤ CRelay.txCap

instance (state : CRelay.State) (appended : List (Slot × Nat)) :
    Decidable (Room state appended) :=
  inferInstanceAs (Decidable (∀ _ ∈ _, _))

/-- What dropping a client appends: PEER_LEFT, for its partner. -/
def leaving (state : CRelay.State) (ci : Slot) : List (Slot × Nat) :=
  if (state.clients ci).dead then []
  else (state.clients ci).partner.toList.map fun partner => (partner, gameFrame)

theorem Room.edit {appended : List (Slot × Nat)} (room : Room state appended)
    (kept : (change (state.clients ci)).txLen = (state.clients ci).txLen) :
    Room (state.edit ci change) appended := by
  intro sent member
  by_cases here : sent.1 = ci
  · have before := room sent member
    rw [here] at before ⊢
    rw [CRelay.State.edit_self, kept]
    exact before
  · rw [CRelay.State.edit_of_ne here]
    exact room sent member

theorem leaving_edit {slot : Slot}
    (dead : (change (state.clients ci)).dead = (state.clients ci).dead)
    (partner : (change (state.clients ci)).partner = (state.clients ci).partner) :
    leaving (state.edit ci change) slot = leaving state slot := by
  unfold leaving
  by_cases here : slot = ci
  · subst here
    rw [CRelay.State.edit_self, dead, partner]
  · rw [CRelay.State.edit_of_ne here]

theorem content_unregister (content : Content state server) :
    Content (state.unregister ci) (server.unregister c) := by
  have renamed : ∀ (byName : List CRelay.NameEnt) (dict : Dict Text Conn),
      Content { state with byName := byName } { server with byName := dict } := fun _ _ =>
    { content with mirror := content.mirror, apart := content.apart }
  have one : ∃ byName, state.unregister ci = { state with byName := byName } := by
    unfold CRelay.State.unregister
    split
    · unfold CRelay.State.nameDelIfIs
      split
      · exact ⟨state.byName, rfl⟩
      · split
        · exact ⟨state.byName, rfl⟩
        · exact ⟨_, rfl⟩
    · exact ⟨state.byName, rfl⟩
  have two : ∃ dict, server.unregister c = { server with byName := dict } := by
    unfold Server.unregister
    split
    · split
      · exact ⟨_, rfl⟩
      · exact ⟨server.byName, rfl⟩
    · exact ⟨server.byName, rfl⟩
  obtain ⟨byName, isOne⟩ := one
  obtain ⟨dict, isTwo⟩ := two
  rw [isOne, isTwo]
  exact renamed byName dict

theorem content_leavePartner (content : Content state server)
    (holds : (state.board ci).holds = some c)
    (linked : Linked state.board (state.clients ci).partner (server.object c).partner)
    (room : ∀ partner, (state.clients ci).partner = some partner →
      (state.clients partner).txLen + gameFrame ≤ CRelay.txCap)
    (countable : Countable server.stats) :
    Content (state.leavePartner ci) (server.leavePartner c) := by
  have mirror := content.mirror ci c holds
  unfold CRelay.State.leavePartner Server.leavePartner
  cases isPartner : (state.clients ci).partner with
  | none =>
      rw [isPartner] at linked
      have alone : (server.object c).partner = none := linked
      rw [alone]
      exact content
  | some partner =>
      rw [isPartner] at linked
      obtain ⟨d, held, isPartner'⟩ := linked
      rw [isPartner']
      simp only
      have cleared : Content (state.edit partner fun client => { client with partner := none })
          (server.edit d fun client => { client with partner := none }) := by
        apply content.edit held rfl
        refine { content.mirror partner d held with named := ?_ }
        intro absurd
        cases absurd
      have holds' : ∀ slot, ((state.edit partner fun client =>
          { client with partner := none }).board slot).holds = (state.board slot).holds :=
        fun slot => holds_edit rfl
      have sender : (some ci).map (state.edit partner fun client =>
          { client with partner := none }).conn = some c :=
        congrArg some (conn_of_holds ((holds' ci).trans holds))
      have sent := @Content.send _ _ partner d cleared (some ci) (some c) peerLeft
        ((holds' partner).trans held) sender (by
          rw [CRelay.State.edit_self]
          exact room partner isPartner)
      have rounds : state.stats.crcOk.toNat = server.stats.crcOk := by
        rw [content.stats]
        exact Nat.mod_eq_of_lt countable.2.1
      rw [mirror.nameOr, rounds]
      exact sent.log (.ended ((server.object c).nameOr "?") server.stats.crcOk)

theorem content_closeSlot (content : Content state server) (opened : (state.clients ci).fd = some c) :
    Content (state.closeSlot ci) (server.remove c) := by
  unfold CRelay.State.closeSlot Server.remove
  rw [opened]
  have noted : Content ({ state with watched := Function.update state.watched c none }.note
      (.close c)) ({ server with clients := server.clients.erase c }.note (.close c)) := by
    have same : Content { state with watched := Function.update state.watched c none }
        { server with clients := server.clients.erase c } :=
      { content with mirror := content.mirror, apart := content.apart }
    exact same.note (.close c)
  have closed := @Content.solo _ _ ci (fun client => { client with fd := none }) noted rfl
    fun object mirror => { mirror with }
  exact { closed with mirror := closed.mirror, apart := closed.apart }

theorem content_farewell (content : Content state server)
    (holds : (state.board ci).holds = some c) :
    Content (state.farewell ci) (server.farewell c) := by
  have mirror := content.mirror ci c holds
  unfold CRelay.State.farewell Server.farewell
  cases isName : (server.object c).name with
  | none =>
      rw [mirror.name_none isName]
      exact content
  | some name =>
      obtain ⟨has, same⟩ := mirror.name_some isName
      rw [has, same]
      exact content.log (.left (encode name))

theorem unregister_tables : (state.unregister ci).watched = state.watched ∧
    (state.unregister ci).clients = state.clients := by
  unfold CRelay.State.unregister
  split
  · unfold CRelay.State.nameDelIfIs
    split
    · exact ⟨rfl, rfl⟩
    · split <;> exact ⟨rfl, rfl⟩
  · exact ⟨rfl, rfl⟩

theorem leavePartner_tables : (state.leavePartner ci).byName = state.byName ∧
    (state.leavePartner ci).watched = state.watched ∧
    fds (state.leavePartner ci) = fds state := by
  unfold CRelay.State.leavePartner
  split
  · rename_i partner isPartner
    have cleared : fds (state.edit partner fun client => { client with partner := none }) =
        fds state := fds_edit rfl
    have sent : Frame (state.edit partner fun client => { client with partner := none })
        ((state.edit partner fun client => { client with partner := none }).clientSend
          (some ci) partner peerLeft) := frame_send
    exact ⟨sent.byName, sent.watched, sent.fds.trans cleared⟩
  · exact ⟨rfl, rfl, rfl⟩

theorem closeSlot_tables (opened : (state.clients ci).fd = some c) :
    (state.closeSlot ci).byName = state.byName ∧
      (state.closeSlot ci).watched = Function.update state.watched c none ∧
      fds (state.closeSlot ci) = Function.update (fds state) ci none := by
  unfold CRelay.State.closeSlot
  rw [opened]
  refine ⟨rfl, rfl, ?_⟩
  funext cj
  unfold fds
  by_cases here : cj = ci
  · subst here
    simp [CRelay.State.edit]
  · simp [CRelay.State.edit, CRelay.State.note, here]

theorem frame_farewell : Frame state (state.farewell ci) := by
  unfold CRelay.State.farewell
  split
  · exact frame_note
  · exact ⟨rfl, rfl, rfl, rfl, rfl⟩

/-- The tables after a drop. -/
theorem drop_tables (alive : (state.clients ci).dead = false)
    (opened : (state.clients ci).fd = some c) :
    (state.drop oracle ci).byName =
        ((state.edit ci fun client => { client with dead := true }).unregister ci).byName ∧
      (state.drop oracle ci).watched = Function.update state.watched c none ∧
      fds (state.drop oracle ci) = Function.update (fds state) ci none := by
  obtain ⟨marked, isMarked⟩ : ∃ marked : CRelay.State,
      state.edit ci (fun client => { client with dead := true }) = marked := ⟨_, rfl⟩
  have drop : state.drop oracle ci = CRelay.State.lobbyUpdateCount oracle
      ((((marked.unregister ci).leavePartner ci).closeSlot ci).farewell ci) := by
    unfold CRelay.State.drop
    rw [alive, ← isMarked]
    rfl
  have same : fds marked = fds state := isMarked ▸ fds_edit rfl
  have watched : marked.watched = state.watched := isMarked ▸ rfl
  obtain ⟨watched₁, clients₁⟩ := @unregister_tables marked ci
  have fds₁ : fds (marked.unregister ci) = fds marked :=
    congrArg (fun clients ci => CRelay.Client.fd (clients ci)) clients₁
  obtain ⟨byName₂, watched₂, fds₂⟩ := @leavePartner_tables (marked.unregister ci) ci
  have before : fds ((marked.unregister ci).leavePartner ci) = fds state := by
    rw [fds₂, fds₁, same]
  have opened' : (((marked.unregister ci).leavePartner ci).clients ci).fd = some c :=
    (congrFun before ci).trans opened
  obtain ⟨byName₃, watched₃, fds₃⟩ := closeSlot_tables opened'
  have last : Frame (((marked.unregister ci).leavePartner ci).closeSlot ci)
      (state.drop oracle ci) := by
    rw [drop]
    have one := @frame_farewell (((marked.unregister ci).leavePartner ci).closeSlot ci) ci
    have two := @frame_lobbyUpdate oracle
      ((((marked.unregister ci).leavePartner ci).closeSlot ci).farewell ci)
    exact ⟨two.board.trans one.board, two.order.trans one.order, two.byName.trans one.byName,
      two.watched.trans one.watched, two.fds.trans one.fds⟩
  refine ⟨?_, ?_, ?_⟩
  · rw [last.byName, byName₃, byName₂, isMarked]
  · rw [last.watched, watched₃, watched₂, watched₁, watched]
  · rw [last.fds, fds₃, before]

/-- The names after a drop: only `unregister` changes them. -/
theorem drop_names' (here : c ∈ server.clients) :
    (server.drop oracle c).byName = (server.unregister c).byName := by
  have left : ((server.unregister c).leavePartner c).byName = (server.unregister c).byName := by
    unfold Server.leavePartner
    split <;> rfl
  have said : (((server.unregister c).leavePartner c).remove c |>.farewell c).byName =
      ((server.unregister c).leavePartner c).byName := by
    unfold Server.farewell
    split <;> rfl
  have last : (server.drop oracle c).byName =
      ((((server.unregister c).leavePartner c).remove c).farewell c).byName := by
    unfold Server.drop
    rw [if_pos here]
    exact frame_lobbyUpdate'.byName
  rw [last, said, left]

/-- The table of the Python relay is tidy. -/
theorem Match.tidy (related : Match serving state server) : Server.Tidy server := by
  have seats := related.seats
  refine ⟨?_, ?_⟩
  · have distinct : (server.clients.map some).Nodup := by
      rw [← seats.clients]
      apply seats.nodup.map_on
      intro one first two _ same
      obtain ⟨e, held⟩ := seats.seated one ((seats.mem_iff one).mp first).1
      exact seats.apart one two e held (same ▸ held)
    exact distinct.of_map some
  · intro e member
    have listed : some e ∈ state.order.map fun one => (state.board one).holds := by
      rw [seats.clients]
      exact List.mem_map_of_mem member
    obtain ⟨one, -, held⟩ := List.mem_map.mp listed
    exact seats.known one e held

/-- The names of both relays after a live client has left. -/
theorem Match.unregister (related : Match serving state server) (live : Live state.board ci)
    (holds : (state.board ci).holds = some c) :
    Names (state.board.leave ci)
      ((state.edit ci fun client => { client with dead := true }).unregister ci).byName
      (server.unregister c).byName server.floor.name := by
  have mirror := related.content.mirror ci c holds
  have names := related.names
  have has : ((state.edit ci fun client => { client with dead := true }).clients ci).hasName =
      (state.clients ci).hasName := by
    rw [CRelay.State.edit_self]
  have called : ((state.edit ci fun client => { client with dead := true }).clients ci).name =
      (state.clients ci).name := by
    rw [CRelay.State.edit_self]
  have gen : ((state.edit ci fun client => { client with dead := true }).clients ci).gen =
      (state.board ci).gen := by
    rw [CRelay.State.edit_self]
    rfl
  unfold CRelay.State.unregister Server.unregister
  rw [has]
  cases isName : (server.object c).name with
  | none =>
      rw [mirror.name_none isName]
      exact names.unnamed_leave
  | some name =>
      obtain ⟨hasName, isBytes⟩ := mirror.name_some isName
      obtain ⟨got, found⟩ := names.owns ci c name live holds isName
      have erased := names.named_leave related.seats live holds isName
      rw [hasName]
      simp only [↓reduceIte]
      rw [if_pos got, called, isBytes]
      unfold CRelay.State.nameDelIfIs
      rw [gen]
      have found' : ((state.edit ci fun client => { client with dead := true }).byName.find?
          fun entry => entry.name = encode name) =
            some ⟨encode name, ci, (state.board ci).gen⟩ := found
      rw [found']
      simp only [ne_eq, not_true_eq_false, or_self, ↓reduceIte]
      exact erased

/-- What a live client's drop says, and what it leaves in the objects. -/
theorem Match.drop_content (related : Match serving state server) (live : Live state.board ci)
    (holds : (state.board ci).holds = some c) (room : Room state (leaving state ci))
    (countable : Countable server.stats) :
    Content (state.drop oracle ci) (server.drop oracle c) := by
  have dead : (state.clients ci).dead = false := live.2
  have here : c ∈ server.clients := (related.seats.client_iff holds).mpr live
  have opened : (state.clients ci).fd = some c := (related.watch.opened ci live).trans holds
  obtain ⟨marked, isMarked⟩ : ∃ marked : CRelay.State,
      state.edit ci (fun client => { client with dead := true }) = marked := ⟨_, rfl⟩
  have names : Names (state.board.leave ci) (marked.unregister ci).byName
      (server.unregister c).byName server.floor.name :=
    isMarked ▸ related.unregister live holds
  have one : state.drop oracle ci = CRelay.State.lobbyUpdateCount oracle
      ((((marked.unregister ci).leavePartner ci).closeSlot ci).farewell ci) := by
    unfold CRelay.State.drop
    rw [dead, ← isMarked]
    rfl
  have two : server.drop oracle c = Server.lobbyUpdate oracle
      ((((server.unregister c).leavePartner c).remove c).farewell c) := if_pos here
  have markedContent : Content marked server := by
    rw [← isMarked]
    exact related.content.solo rfl fun object mirror => { mirror with }
  have gone : Content (marked.unregister ci) (server.unregister c) :=
    content_unregister markedContent
  obtain ⟨-, clients⟩ := @unregister_tables marked ci
  have same : ∀ slot, (marked.clients slot).txLen = (state.clients slot).txLen ∧
      (marked.clients slot).partner = (state.clients slot).partner ∧
      (marked.clients slot).fd = (state.clients slot).fd ∧
      (marked.clients slot).holds = (state.clients slot).holds := by
    intro slot
    rw [← isMarked]
    by_cases isCi : slot = ci
    · subst isCi
      rw [CRelay.State.edit_self]
      exact ⟨rfl, rfl, rfl, rfl⟩
    · rw [CRelay.State.edit_of_ne isCi]
      exact ⟨rfl, rfl, rfl, rfl⟩
  have holds' : ∀ slot, ((marked.unregister ci).board slot).holds = (state.board slot).holds := by
    intro slot
    unfold CRelay.State.board
    rw [clients]
    exact (same slot).2.2.2
  have partner : ((marked.unregister ci).clients ci).partner = (state.clients ci).partner := by
    rw [clients]
    exact (same ci).2.1
  have linked : Linked (marked.unregister ci).board
      ((marked.unregister ci).clients ci).partner ((server.unregister c).object c).partner := by
    rw [partner, Server.object_unregister]
    exact (related.links ci c (Or.inl live) holds).congr fun slot _ => holds' slot
  have left : Content ((marked.unregister ci).leavePartner ci)
      ((server.unregister c).leavePartner c) := by
    apply content_leavePartner gone ((holds' ci).trans holds) linked
    · intro slot isPartner
      rw [partner] at isPartner
      rw [clients, (same slot).1]
      apply room (slot, gameFrame)
      unfold leaving
      rw [dead, isPartner]
      exact List.mem_singleton.mpr rfl
    · have stats : (server.unregister c).stats = server.stats := by
        unfold Server.unregister
        split
        · split <;> rfl
        · rfl
      rw [stats]
      exact countable
  have opened' : (((marked.unregister ci).leavePartner ci).clients ci).fd = some c := by
    have descriptors := (@leavePartner_tables (marked.unregister ci) ci).2.2
    have before : fds (marked.unregister ci) ci = fds state ci := by
      unfold fds
      rw [clients]
      exact (same ci).2.2.1
    exact ((congrFun descriptors ci).trans before).trans opened
  have closed := content_closeSlot left opened'
  have said : Content ((((marked.unregister ci).leavePartner ci).closeSlot ci).farewell ci)
      ((((server.unregister c).leavePartner c).remove c).farewell c) := by
    apply content_farewell closed
    have board := (@CRelay.State.drop_alive oracle state ci dead).2.1
    rw [one, frame_lobbyUpdate.board, frame_farewell.board] at board
    rw [board]
    exact ((@Board.sameTenants_leave state.board ci) ci).2.2.trans holds
  rw [one, two]
  apply said.lobbyUpdate
  have byName := (@drop_tables oracle state ci c dead opened).1
  rw [one, frame_lobbyUpdate.byName, isMarked] at byName
  have byName' := @drop_names' oracle server c here
  rw [two, frame_lobbyUpdate'.byName] at byName'
  rw [byName, byName']
  exact names.size

/-- A client that is dropped by one is dropped by the other. -/
theorem Match.drop (related : Match serving state server)
    (holds : (state.board ci).holds = some c) (used : (state.board ci).inUse = true)
    (room : Room state (leaving state ci)) (countable : Countable server.stats) :
    Match serving (state.drop oracle ci) (server.drop oracle c) := by
  have seats := related.seats
  cases dead : (state.clients ci).dead with
  | true =>
      have absent : c ∉ server.clients := by
        rw [seats.client_iff holds]
        rintro ⟨-, alive⟩
        have alive' : (state.clients ci).dead = false := alive
        rw [dead] at alive'
        cases alive'
      have one : state.drop oracle ci = state := by
        unfold CRelay.State.drop
        rw [dead]
        rfl
      have two : server.drop oracle c = server := if_neg absent
      rw [one, two]
      exact related
  | false =>
      have live : Live state.board ci := ⟨used, dead⟩
      have here : c ∈ server.clients := (seats.client_iff holds).mpr live
      have opened : (state.clients ci).fd = some c := (related.watch.opened ci live).trans holds
      obtain ⟨order, board, -⟩ := @CRelay.State.drop_alive oracle state ci dead
      obtain ⟨clients, conns, floor⟩ := @Server.drop_cases oracle server c related.tidy here
      obtain ⟨byName, watched, descriptors⟩ := @drop_tables oracle state ci c dead opened
      have names := related.unregister live holds
      refine ⟨related.drop_content live holds room countable, ?_, ?_, ?_, ?_⟩
      · rw [order, board, clients, conns]
        exact seats.leave holds
      · rw [board, floor]
        exact related.links.leave seats live holds
      · rw [board, byName, drop_names' here, floor]
        exact names
      · rw [board, watched, descriptors]
        exact related.watch.leave seats holds

end DragsterNet.Refine
