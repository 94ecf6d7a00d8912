/-
Module: DragsterNet.Refine.Dispatch
Purpose: The C relay handles a frame as the Python relay does: the pairing, HELLO,
  the lobby list, the checksums and the dispatch over them.
Trusted boundary: none
Main exports: Match.tryPair, Match.onHello, Match.logCrc, Match.handle,
  Match.serviceOnce
-/
import DragsterNet.Refine.Match

namespace DragsterNet.Refine

open Lib Relay
open Relay.Server (ShortName namePayload)
open CRelay (Slot Board Counters)

variable {oracle : Oracle} {serving : Option Slot} {state after : CRelay.State}
  {server after' : Server} {ci host guest : Slot} {c d : Conn}

/-! ### Who waits -/

/-- A client that may be chosen to play with `c`. -/
def eligible (server : Server) (c e : Conn) : Bool :=
  decide (e ≠ c) && ((server.object e).name.isSome && (server.object e).partner.isNone)

/-- One turn of the search in the C relay is a turn of Python's `min`, or passes
over a client that is filtered out. -/
theorem older_follows (related : Match serving state server)
    (holds : (state.board ci).holds = some c) {best : Option Slot} {best' : Option Conn}
    (same : Linked state.board best best') {other : Slot} {e : Conn}
    (listed : other ∈ state.order) (held : (state.board other).holds = some e) :
    Linked state.board (state.older ci best other)
      (if eligible server c e then
        List.argAux (fun b a => (server.object b).born < (server.object a).born) best' e
      else best') := by
  have mirror := related.content.mirror other e held
  have live := (related.seats.mem_iff other).mp listed
  have linked := related.links other e (Or.inl live) held
  have self : other = ci ↔ e = c := by
    constructor
    · rintro rfl
      exact Option.some.inj (held.symm.trans holds)
    · rintro rfl
      exact related.seats.apart other ci e held holds
  have free : (state.clients other).partner.isSome = (server.object e).partner.isSome :=
    linked.isSome
  have passes : (other = ci ∨ (state.clients other).hasName = false ∨
      (state.clients other).partner.isSome) ↔ eligible server c e = false := by
    unfold eligible
    rw [self, mirror.hasName, free]
    by_cases isC : e = c
    · simp [isC]
    · cases (server.object e).name <;> cases (server.object e).partner <;> simp [isC]
  unfold CRelay.State.older
  by_cases skipped : eligible server c e = false
  · rw [if_pos (passes.mpr skipped), skipped]
    exact same
  · rw [if_neg fun passed => skipped (passes.mp passed),
      if_pos (Bool.not_eq_false _ ▸ skipped)]
    cases best with
    | none =>
        have none' : best' = none := same
        rw [none']
        exact ⟨e, held, rfl⟩
    | some first =>
        obtain ⟨f, held', rfl⟩ := same
        have born := (related.content.mirror first f held').born
        simp only [List.argAux, mirror.born, born]
        split
        · exact ⟨e, held, rfl⟩
        · exact ⟨f, held', rfl⟩

/-- The console that has waited longest is the same. -/
theorem Match.waiting (related : Match serving state server)
    (holds : (state.board ci).holds = some c) :
    Linked state.board (state.waiting ci) (server.waiting c) := by
  have searched : ∀ (slots : List Slot) (conns : List Conn) (best : Option Slot)
      (best' : Option Conn), (∀ slot ∈ slots, slot ∈ state.order) →
      slots.map (fun slot => (state.board slot).holds) = conns.map some →
      Linked state.board best best' →
      Linked state.board (slots.foldl (state.older ci) best)
        (conns.foldl (fun best e => if eligible server c e then
          List.argAux (fun b a => (server.object b).born < (server.object a).born) best e
        else best) best') := by
    intro slots
    induction slots with
    | nil =>
        intro conns best best' _ table same
        cases conns with
        | nil => exact same
        | cons e rest => cases table
    | cons other rest inductionHypothesis =>
        intro conns best best' listed table same
        cases conns with
        | nil => cases table
        | cons e more =>
            rw [List.map_cons, List.map_cons] at table
            obtain ⟨held, table'⟩ := List.cons.inj table
            rw [List.foldl_cons, List.foldl_cons]
            exact inductionHypothesis more _ _
              (fun slot member => listed slot (List.mem_cons_of_mem _ member)) table'
              (older_follows related holds same (listed other List.mem_cons_self) held)
  have python : server.waiting c = server.clients.foldl (fun best e =>
      if eligible server c e then
        List.argAux (fun b a => (server.object b).born < (server.object a).born) best e
      else best) none := by
    unfold Server.waiting Server.idle List.argmin
    rw [List.filter_filter, List.foldl_filter]
    rfl
  rw [python]
  exact searched state.order server.clients none none (fun _ member => member)
    related.seats.clients rfl

/-! ### The pairing -/

theorem Match.seed (related : Match serving state server) :
    Match serving { state with seeds := state.seeds + 1 }
      { server with seeds := server.seeds + 1 } where
  content :=
    { related.content with
      mirror := related.content.mirror
      apart := related.content.apart
      seeds := congrArg (· + 1) related.content.seeds }
  seats := related.seats
  links := related.links
  names := related.names
  watch := related.watch

theorem fds_link : fds (state.link host guest) = fds state := by
  unfold CRelay.State.link
  simp only
  rw [fds_note, fds_edit rfl, fds_edit rfl]

/-- Two consoles with names are linked. -/
theorem Match.link (related : Match serving state server) (isHost : (state.board host).holds = some c)
    (isGuest : (state.board guest).holds = some d) (apart : host ≠ guest)
    (named : (server.object c).name.isSome ∧ (server.object d).name.isSome) :
    Match serving (state.link host guest) (server.link c d) := by
  have apart' : c ≠ d := by
    rintro rfl
    exact apart (related.seats.apart host guest c isHost isGuest)
  have board : (state.link host guest).board = state.board.link host guest :=
    CRelay.State.board_link
  have floor : (server.link c d).floor = server.floor.pair 0 1 c d := Server.floor_link apart'
  have hosted := related.content.mirror host c isHost
  have seated := related.content.mirror guest d isGuest
  refine ⟨?_, ?_, ?_, ?_, ?_⟩
  · unfold CRelay.State.link Server.link
    simp only
    rw [conn_of_holds isHost, conn_of_holds isGuest]
    apply Content.note
    have one : Content (state.edit host fun client =>
        { client with
          partner := some guest, role := some 0
          linked := some ((state.clients guest).holds, (state.clients guest).gen) })
        (server.edit c fun client => { client with partner := some d, role := some 0 }) := by
      apply related.content.edit isHost rfl
      exact { hosted with named := fun _ => hosted.hasName.trans named.1 }
    apply one.edit ((holds_edit rfl).trans isGuest) rfl
    rw [CRelay.State.edit_of_ne apart.symm, Server.edit_of_ne apart'.symm]
    exact { seated with named := fun _ => seated.hasName.trans named.2 }
  · rw [board]
    exact related.seats.congr (funext fun _ => propext live_link) Board.sameTenants_link
  · rw [board, floor]
    exact related.links.link related.seats apart isHost isGuest
  · rw [board, floor]
    exact related.names.link
  · rw [board, fds_link]
    exact related.watch.link

/-- The length of a START. -/
def startLength : Nat := 15

theorem padName_length {name : Bytes} : (CRelay.State.padName name).length = 8 := by
  unfold CRelay.State.padName List.rightpad
  rw [List.length_append, List.length_replicate, List.length_take]
  omega

/-- A frame that Python can build is what goes on the wire. -/
theorem frame_wire {ftype : Byte} {payload data : Bytes} (framed : frame ftype payload = .ok data) :
    data = wire ftype payload := by
  unfold frame at framed
  split at framed
  · exact (Except.ok.inj framed).symm
  · cases framed

/-- The START for `host` that names `guest`. -/
theorem Match.startFrame (related : Match serving state server)
    (isHost : (state.board host).holds = some c) (isGuest : (state.board guest).holds = some d)
    {seed : BitVec 16} {role : Nat}
    (started : Server.startFrame oracle server seed role c d = .ok after')
    (room : (state.clients host).txLen + startLength ≤ CRelay.txCap) :
    Match serving (CRelay.State.startFrame oracle state seed role host guest) after' := by
  obtain ⟨header, isHeader, rest⟩ := bind_ok.mp started
  cases isName : (server.object d).name with
  | none =>
      rw [isName] at rest
      cases rest
  | some name =>
      rw [isName] at rest
      obtain ⟨data, framed, sent⟩ := bind_ok.mp rest
      obtain rfl := Except.ok.inj sent
      have mirror := related.content.mirror guest d isGuest
      obtain ⟨-, isBytes⟩ := mirror.name_some isName
      have cleared : Match serving (state.edit host fun client => { client with crc := [] })
          (server.edit c fun client => { client with crc := Dict.empty }) :=
        related.edit isHost rfl rfl (Server.floor_edit rfl rfl rfl)
          { related.content.mirror host c isHost with crc := rfl }
      have called : ((state.edit host fun client => { client with crc := [] }).clients
          guest).name = encode name := by
        rw [← isBytes]
        by_cases same : guest = host
        · subst same
          rw [CRelay.State.edit_self]
        · rw [CRelay.State.edit_of_ne same]
      obtain rfl : [BitVec.ofNat 8 role, seed.extractLsb' 0 8, seed.extractLsb' 8 8,
          BitVec.ofInt 8 oracle.delay, BitVec.ofNat 8 oracle.variation.val] = header := by
        unfold Server.startHeader at isHeader
        split at isHeader
        · exact Except.ok.inj isHeader
        · cases isHeader
      obtain rfl := frame_wire framed
      rw [← padName_encode (mirror.short name isName)]
      unfold CRelay.State.startFrame CRelay.State.sendFrame
      simp only
      rw [called]
      apply cleared.send ((holds_edit rfl).trans isHost) rfl
      rw [CRelay.State.edit_self, wire_length, List.length_append, padName_length]
      exact room

/-- What a pairing appends: a START for each of the two. -/
def pairing (state : CRelay.State) (ci : Slot) : List (Slot × Nat) :=
  match state.waiting ci with
  | some host => [(host, startLength), (ci, startLength)]
  | none => []

theorem txLen_startFrame {seed : BitVec 16} {role : Nat} {other : Slot} (apart : other ≠ host) :
    ((CRelay.State.startFrame oracle state seed role host guest).clients other).txLen =
      (state.clients other).txLen := by
  unfold CRelay.State.startFrame CRelay.State.sendFrame CRelay.State.clientSend
  simp only
  split <;> simp [CRelay.State.edit, CRelay.State.note, apart]

theorem txLen_link {other : Slot} :
    ((state.link host guest).clients other).txLen = (state.clients other).txLen := by
  unfold CRelay.State.link
  by_cases isGuest : other = guest
  · subst isGuest
    by_cases isHost : other = host
    · simp [CRelay.State.edit, CRelay.State.note, isHost]
    · simp [CRelay.State.edit, CRelay.State.note, isHost]
  · by_cases isHost : other = host
    · subst isHost
      simp [CRelay.State.edit, CRelay.State.note, isGuest]
    · simp [CRelay.State.edit, CRelay.State.note, isGuest, isHost]

/-- What Python's `try_pair` needs of the two consoles, once it has found one. -/
theorem pair_named (paired : server.pair oracle c d = .ok after') (apart : c ≠ d) :
    (server.object d).name.isSome :=
  (Server.pair_cases apart paired).2.2

/-- The pairing, if it goes through in Python. -/
theorem Match.tryPair (related : Match serving state server)
    (holds : (state.board ci).holds = some c) (tried : server.tryPair oracle c = .ok after')
    (room : Room state (pairing state ci)) :
    Match serving (state.tryPair oracle ci) after' := by
  have waits := related.waiting holds
  unfold CRelay.State.tryPair
  unfold Server.tryPair at tried
  unfold pairing at room
  cases found : state.waiting ci with
  | none =>
      rw [found] at waits
      have nobody : server.waiting c = none := waits
      rw [nobody] at tried
      obtain rfl := Except.ok.inj tried
      exact related
  | some host =>
      rw [found] at waits room
      obtain ⟨h, held, found'⟩ := waits
      rw [found'] at tried
      obtain ⟨-, apart, -, -⟩ := CRelay.State.waiting_cases found
      obtain ⟨-, apart', named, -⟩ := Server.waiting_cases found'
      have roomHost := room (host, startLength) List.mem_cons_self
      have roomGuest := room (ci, startLength) (List.mem_cons_of_mem _ List.mem_cons_self)
      have paired : server.pair oracle h c = .ok after' := tried
      obtain ⟨one, first, rest⟩ := bind_ok.mp paired
      obtain ⟨two, second, done⟩ := bind_ok.mp rest
      obtain rfl := Except.ok.inj done
      have named' : (server.object c).name.isSome := pair_named paired apart'
      have linked := related.seed.link held holds apart ⟨named, named'⟩
      have holds' : ∀ slot, (({ state with seeds := state.seeds + 1 }.link host ci).board
          slot).holds = (state.board slot).holds := by
        intro slot
        rw [CRelay.State.board_link]
        exact ((@Board.sameTenants_link state.board host ci) slot).2.2
      have seeds : oracle.seed server.seeds = oracle.seed state.seeds := by
        rw [related.content.seeds]
      rw [seeds] at first second ⊢
      have started := linked.startFrame ((holds' host).trans held) ((holds' ci).trans holds) first
        (by rw [txLen_link]; exact roomHost)
      have board : ∀ (before : CRelay.State) seed role me them,
          (CRelay.State.startFrame oracle before seed role me them).board = before.board :=
        fun before seed role me them =>
          (@CRelay.State.startFrame_stays oracle before ci seed role me them).board
      have both := started.startFrame
        (by rw [board]; exact (holds' ci).trans holds)
        (by rw [board]; exact (holds' host).trans held) second
        (by rw [txLen_startFrame apart.symm, txLen_link]; exact roomGuest)
      have floor : two.floor.name = server.floor.name := by
        rw [(Server.startFrame_cases second).2.1, (Server.startFrame_cases first).2.1,
          Server.floor_link apart']
        rfl
      have called : ∀ {slot : Slot} {e : Conn}, (state.board slot).holds = some e →
          (server.object e).name.isSome →
          ((CRelay.State.startFrame oracle (CRelay.State.startFrame oracle
            ({ state with seeds := state.seeds + 1 }.link host ci) (oracle.seed state.seeds) 0
              host ci) (oracle.seed state.seeds) 1 ci host).clients slot).name =
            (two.object e).nameOr "" := by
        intro slot e isHeld isNamed
        obtain ⟨name, isName⟩ := Option.isSome_iff_exists.mp isNamed
        have isName' : (two.object e).name = some name := (congrFun floor e).trans isName
        have mirror := both.content.mirror slot e (by
          rw [board, board]
          exact (holds' slot).trans isHeld)
        rw [(mirror.name_some isName').2, Client.nameOr, isName']
        rfl
      apply Match.lobbyUpdate
      rw [← called held named, ← called holds named']
      apply Match.log
      apply both.count
      simp only [wrapped, BitVec.ofNat_add]
      rfl

/-! ### HELLO -/

theorem Match.noteTv (related : Match serving state server)
    (holds : (state.board ci).holds = some c) {payload : Bytes} :
    Match serving (state.noteTv ci payload) (server.noteTv c payload) := by
  unfold CRelay.State.noteTv Server.noteTv
  split
  · exact related
  · exact related.edit holds rfl rfl (Server.floor_edit rfl rfl rfl)
      { related.content.mirror ci c holds with }

/-- The table of names has room for another. -/
def NameRoom (state : CRelay.State) : Prop := state.byName.length < CRelay.nameSlots

instance (state : CRelay.State) : Decidable (NameRoom state) :=
  inferInstanceAs (Decidable (_ < _))

/-- A free name is entered in both tables. -/
theorem Match.register (related : Match serving state server)
    (holds : (state.board ci).holds = some c) {name : Text} {tv : Byte} {drawn : Nat}
    (short : ShortName name) (isFree : server.byName.get? name = none) (room : NameRoom state) :
    Match serving (state.register oracle ci (encode name) tv drawn)
      (server.register oracle c name tv drawn) := by
  have mirror := related.content.mirror ci c holds
  have fresh : (state.byName.findIdx? fun entry => entry.name = encode name) = none := by
    rw [List.findIdx?_eq_none_iff]
    have taken := related.names.taken short
    rw [isFree] at taken
    intro entry member
    exact Bool.not_eq_true _ ▸ List.any_eq_false.mp taken entry member
  have named : Content (state.edit ci fun client =>
        { client with name := encode name, hasName := true })
      (server.edit c fun client => { client with name := some name }) := by
    apply related.content.edit holds rfl
    refine { mirror with name := rfl, short := ?_, named := fun _ => rfl }
    rintro other isName
    obtain rfl := Option.some.inj isName
    exact short
  have board : (state.edit ci fun client =>
      { client with name := encode name, hasName := true }).board = state.board :=
    CRelay.State.board_edit_same rfl
  have gen : ((state.edit ci fun client =>
      { client with name := encode name, hasName := true }).clients ci).gen =
      (state.board ci).gen := by
    rw [CRelay.State.edit_self]
    rfl
  have set : (state.edit ci fun client =>
      { client with name := encode name, hasName := true }).nameSet (encode name) ci =
      { state.edit ci fun client => { client with name := encode name, hasName := true } with
        byName := state.byName ++ [⟨encode name, ci, (state.board ci).gen⟩] } := by
    have fresh' : ((state.edit ci fun client =>
        { client with name := encode name, hasName := true }).byName.findIdx? fun entry =>
          entry.name = encode name) = none := fresh
    unfold CRelay.State.nameSet
    simp only
    rw [fresh', gen]
    simp only
    have kept : ¬ CRelay.nameSlots ≤ (state.edit ci fun client =>
        { client with name := encode name, hasName := true }).byName.length :=
      Nat.not_le.mpr room
    rw [if_neg kept]
    rfl
  have floor : ({ server.edit c fun client => { client with name := some name } with
      byName := server.byName.set name c, digits := drawn } : Server).floor =
        server.floor.call c name := by
    have whole := @Server.floor_register oracle server c name tv drawn
    unfold Server.register at whole
    rwa [Server.floor_lobbyUpdate, Server.floor_log] at whole
  have entered : Match serving
      { (state.edit ci fun client =>
          { client with name := encode name, hasName := true }).nameSet (encode name) ci with
        digits := drawn }
      { server.edit c fun client => { client with name := some name } with
        byName := server.byName.set name c, digits := drawn } := by
    rw [set]
    refine ⟨?_, ?_, ?_, ?_, ?_⟩
    · exact { named with mirror := named.mirror, apart := named.apart, digits := rfl }
    · have seats : Seats (state.edit ci fun client =>
          { client with name := encode name, hasName := true }).board state.order
          server.clients server.conns := by
        rw [board]
        exact related.seats
      exact seats
    · rw [floor]
      have links : Links serving (state.edit ci fun client =>
          { client with name := encode name, hasName := true }).board server.floor.partner := by
        rw [board]
        exact related.links
      exact links
    · rw [floor]
      have names : Names (state.edit ci fun client =>
          { client with name := encode name, hasName := true }).board
          (state.byName ++ [⟨encode name, ci, (state.board ci).gen⟩])
          (server.byName.set name c) (server.floor.call c name).name := by
        rw [board]
        exact related.names.register related.seats holds short isFree
      exact names
    · have watch : Watch (state.edit ci fun client =>
          { client with name := encode name, hasName := true }).board state.watched
          (fds (state.edit ci fun client =>
            { client with name := encode name, hasName := true })) := by
        rw [board, fds_edit rfl]
        exact related.watch
      exact watch
  unfold CRelay.State.register Server.register
  rw [mirror.ip]
  exact (entered.log _).lobbyUpdate

/-- What the answer to a HELLO appends. -/
def greeting (state : CRelay.State) (ci : Slot) (payload : Bytes) : List (Slot × Nat) :=
  match CRelay.State.readHello payload with
  | .error _ => leaving state ci
  | .ok _ => pairing state ci

/-- A refusal is logged in full, and a name that is admitted finds room. -/
def helloFits (state : CRelay.State) (payload : Bytes) : Bool :=
  match CRelay.State.readHello payload with
  | .error refusal => readable refusal
  | .ok _ => decide (NameRoom state)

theorem Room.noteTv {appended : List (Slot × Nat)} (room : Room state appended)
    {payload : Bytes} : Room (state.noteTv ci payload) appended := by
  unfold CRelay.State.noteTv
  split
  · exact room
  · exact room.edit rfl

theorem leaving_noteTv {payload : Bytes} :
    leaving (state.noteTv ci payload) ci = leaving state ci := by
  unfold CRelay.State.noteTv
  split
  · rfl
  · exact leaving_edit rfl rfl

/-- HELLO, if it goes through in Python with as many draws as the C relay makes. -/
theorem Match.onHello (related : Match serving state server)
    (holds : (state.board ci).holds = some c) (used : (state.board ci).inUse = true)
    {payload : Bytes} (short : payload.length ≤ 256)
    (greeted : server.onHello oracle CRelay.nameGuard c payload = .ok after')
    (room : Room state (greeting state ci payload)) (fits : helloFits state payload = true)
    (countable : Countable server.stats) :
    Match serving (state.onHello oracle ci payload) after' := by
  have noted : Match serving (state.noteTv ci payload) (server.noteTv c payload) :=
    related.noteTv holds
  have board : (state.noteTv ci payload).board = state.board :=
    CRelay.State.noteTv_stays.board
  have holds' : ((state.noteTv ci payload).board ci).holds = some c := by
    rw [board]
    exact holds
  have used' : ((state.noteTv ci payload).board ci).inUse = true := by
    rw [board]
    exact used
  have countable' : Countable (server.noteTv c payload).stats := by
    unfold Server.noteTv
    split <;> exact countable
  have mirror := noted.content.mirror ci c holds'
  unfold CRelay.State.onHello
  unfold Server.onHello at greeted
  unfold greeting at room
  unfold helloFits at fits
  simp only at greeted ⊢
  have same := sameHello short
  generalize Server.readHello payload = hello at greeted same
  generalize CRelay.State.readHello payload = hello' at room fits same ⊢
  cases same with
  | refused line =>
      obtain rfl := Except.ok.inj greeted
      simp only at room fits ⊢
      rw [mirror.ip, ← line fits]
      apply (noted.log _).drop holds' used' _ countable'
      have left : Room (state.noteTv ci payload) (leaving (state.noteTv ci payload) ci) := by
        rw [leaving_noteTv]
        exact room.noteTv
      exact left
  | admitted tv name isShort =>
      simp only at greeted room fits ⊢
      have taken : ∀ key, ShortName key →
          (state.noteTv ci payload).nameTaken (encode key) =
            ((server.noteTv c payload).byName.get? key).isSome :=
        fun key isShort => noted.names.taken isShort
      rw [freeName_encode isShort taken, noted.content.digits]
      split at greeted
      · cases greeted
      · rename_i free drawn found
        rw [found]
        simp only [encodeFound]
        have isShort' : ShortName free := Server.freeName_short isShort found
        have isFree : (server.noteTv c payload).byName.get? free = none := by
          have untaken := freeName_free found
          exact Option.isNone_iff_eq_none.mp (Option.isSome_eq_false_iff.mp untaken)
        have nameRoom : NameRoom (state.noteTv ci payload) := by
          unfold NameRoom
          rw [CRelay.State.names_noteTv.1]
          exact of_decide_eq_true fits
        have registered := @Match.register oracle serving (state.noteTv ci payload)
          (server.noteTv c payload) ci c noted holds' free tv drawn isShort' isFree nameRoom
        apply registered.tryPair _ greeted
        · unfold pairing
          rw [CRelay.State.waiting_register, CRelay.State.waiting_noteTv]
          intro sent member
          rw [CRelay.State.clients_register]
          exact (room.noteTv.edit rfl) sent member
        · rw [CRelay.State.register_stays.board]
          exact holds'

/-! ### The lobby list -/

theorem Match.lobbyEntries (related : Match serving state server) :
    state.lobbyEntries = server.lobbyEntries := by
  unfold CRelay.State.lobbyEntries Server.lobbyEntries
  congr 1
  have each : ∀ slot ∈ state.order,
      (if (state.clients slot).hasName then
        some (CRelay.State.padName (state.clients slot).name ++
          [if (state.clients slot).partner.isSome then 1 else 0])
      else none) =
      (state.board slot).holds.bind fun e => (server.object e).name.map fun name =>
        namePayload name ++ [if (server.object e).partner.isSome then (1 : Byte) else 0] := by
    intro slot listed
    have live := (related.seats.mem_iff slot).mp listed
    obtain ⟨e, held⟩ := related.seats.seated slot live.1
    have mirror := related.content.mirror slot e held
    have partner : (state.clients slot).partner.isSome = (server.object e).partner.isSome :=
      (related.links slot e (Or.inl live) held).isSome
    rw [held, Option.bind_some, partner]
    cases isName : (server.object e).name with
    | none =>
        rw [mirror.name_none isName]
        rfl
    | some name =>
        obtain ⟨has, isBytes⟩ := mirror.name_some isName
        rw [has, isBytes, padName_encode (mirror.short name isName)]
        rfl
  rw [List.filterMap_congr each]
  have table := congrArg (List.filterMap fun held : Option Conn => held.bind fun e =>
    (server.object e).name.map fun name =>
      namePayload name ++ [if (server.object e).partner.isSome then (1 : Byte) else 0])
    related.seats.clients
  rw [List.filterMap_map, List.filterMap_map] at table
  exact table

theorem Match.sendLobby (related : Match serving state server)
    (holds : (state.board ci).holds = some c) (listed : server.sendLobby c = .ok after')
    (room : Room state [(ci, state.lobbyEntries.flatten.length + 3)]) :
    Match serving (state.sendLobby ci) after' := by
  obtain ⟨data, framed, sent⟩ := bind_ok.mp listed
  obtain rfl := Except.ok.inj sent
  obtain rfl := frame_wire framed
  unfold CRelay.State.sendLobby CRelay.State.sendFrame
  rw [related.lobbyEntries] at room ⊢
  apply related.send holds rfl
  exact room _ List.mem_cons_self

/-! ### The checksums -/

/-- The laps fit the key, and a new key finds room in the map. -/
def CrcFits (state : CRelay.State) (server : Server) (ci : Slot) (c : Conn) (tick : Byte) :
    Prop :=
  Server.nextLap (server.object c).lap (server.object c).lastTick tick < 2 ^ 56 ∧
    ((CRelay.crcFind (state.clients ci).crc
        (CRelay.State.crcKey (CRelay.State.nextLap (state.clients ci) tick) tick)).isSome ∨
      (state.clients ci).crc.length < CRelay.crcSlots)

instance (state : CRelay.State) (server : Server) (ci : Slot) (c : Conn) (tick : Byte) :
    Decidable (CrcFits state server ci c tick) :=
  inferInstanceAs (Decidable (_ ∧ _))

/-- The partner's checksum for the key is found by both, or by neither. -/
theorem Match.partnerCrc (related : Match serving state server)
    (holds : (state.board ci).holds = some c) (acting : Live state.board ci ∨ serving = some ci)
    {key : BitVec 64} {key' : Nat} (same : key.toNat = key') :
    (state.partnerCrc ci key = none ∧ server.partnerCrc c key' = none) ∨
      ∃ partner d index value, state.partnerCrc ci key = some (partner, index, value) ∧
        server.partnerCrc c key' = some (d, value) ∧ (state.board partner).holds = some d ∧
        CRelay.crcFind (state.clients partner).crc key = some index := by
  subst same
  have linked := related.links ci c acting holds
  unfold CRelay.State.partnerCrc Server.partnerCrc
  cases slot : (state.clients ci).partner with
  | none =>
      have slot' : (state.board ci).partner = none := slot
      rw [slot'] at linked
      have alone : (server.object c).partner = none := linked
      rw [alone]
      exact Or.inl ⟨rfl, rfl⟩
  | some partner =>
      have slot' : (state.board ci).partner = some partner := slot
      rw [slot'] at linked
      obtain ⟨d, held, isPartner⟩ := linked
      have isPartner' : (server.object c).partner = some d := isPartner
      rw [isPartner']
      have entries := (related.content.mirror partner d held).crc
      simp only [Option.bind_some]
      cases found : CRelay.crcFind (state.clients partner).crc key with
      | none =>
          have missed : (server.object d).crc.get? key.toNat = none := by
            unfold Dict.get?
            rw [← entries]
            exact lookup_missed (crcFind_entries.trans found)
          rw [missed]
          exact Or.inl ⟨rfl, rfl⟩
      | some index =>
          obtain ⟨value, at_, looked⟩ := crcFind_found found
          have got : (server.object d).crc.get? key.toNat = some value := by
            unfold Dict.get?
            rw [← entries]
            exact looked
          rw [got]
          simp only [Option.bind_some, at_, Option.map_some]
          exact Or.inr ⟨partner, d, index, value, rfl, rfl, held, found⟩

/-- The outcome of a comparison is counted, and a mismatch logged. -/
theorem Match.compared (related : Match serving state server)
    (holds : (state.board ci).holds = some c) {tick crc other : Byte}
    (named : (state.clients ci).hasName = true) :
    Match serving
      (if other ≠ crc then
        (state.count fun stats => { stats with crcBad := stats.crcBad + 1 }).log
          (.mismatch tick (state.clients ci).name crc other)
      else state.count fun stats => { stats with crcOk := stats.crcOk + 1 })
      (if other ≠ crc then
        (server.count fun stats => { stats with crcBad := stats.crcBad + 1 }).log
          (.mismatch tick ((server.object c).nameOr "None") crc other)
      else server.count fun stats => { stats with crcOk := stats.crcOk + 1 }) := by
  have mirror := related.content.mirror ci c holds
  split
  · rw [mirror.hasName] at named
    obtain ⟨name, isName⟩ := Option.isSome_iff_exists.mp named
    have called : (state.clients ci).name = (server.object c).nameOr "None" := by
      rw [(mirror.name_some isName).2, Client.nameOr, isName]
      rfl
    rw [called]
    apply Match.log
    apply related.count
    simp only [wrapped, BitVec.ofNat_add]
    rfl
  · apply related.count
    simp only [wrapped, BitVec.ofNat_add]
    rfl

/-- A record's checksum is logged, and compared. -/
theorem Match.logCrc (related : Match serving state server)
    (holds : (state.board ci).holds = some c) (acting : Live state.board ci ∨ serving = some ci)
    {payload : Bytes} (fits : CrcFits state server ci c (payload.getD 0 0)) :
    Match serving (state.logCrc ci payload) (server.logCrc c payload) := by
  have mirror := related.content.mirror ci c holds
  obtain ⟨laps, room⟩ := fits
  have lap := nextLap_mirror mirror (Nat.lt_of_lt_of_le laps (by decide))
  unfold CRelay.State.logCrc Server.logCrc
  simp only
  generalize payload.getD 0 0 = tick at laps room lap ⊢
  generalize payload.getD 4 0 = crc
  have isKey : (CRelay.State.crcKey (CRelay.State.nextLap (state.clients ci) tick) tick).toNat =
      Server.nextLap (server.object c).lap (server.object c).lastTick tick * 256 + tick.toNat := by
    rw [crcKey_toNat (by rw [lap]; exact laps), lap]
  generalize isLap' : Server.nextLap (server.object c).lap (server.object c).lastTick tick = lap'
    at laps lap isKey ⊢
  generalize CRelay.State.nextLap (state.clients ci) tick = lap₀ at room lap isKey ⊢
  have logged : Match serving
      (state.edit ci fun client =>
        { client with
          lap := lap₀, haveLastTick := true, lastTick := tick
          crc := CRelay.crcSet client.crc (CRelay.State.crcKey lap₀ tick) crc })
      (server.edit c fun client =>
        { client with
          lap := lap', lastTick := some tick
          crc := client.crc.set (lap' * 256 + tick.toNat) crc }) :=
    related.edit holds rfl rfl (Server.floor_edit rfl rfl rfl) (mirror.logged lap laps room)
  have board : (state.edit ci fun client =>
      { client with
        lap := lap₀, haveLastTick := true, lastTick := tick
        crc := CRelay.crcSet client.crc (CRelay.State.crcKey lap₀ tick) crc }).board =
      state.board := CRelay.State.board_edit_same rfl
  generalize (state.edit ci fun client =>
      { client with
        lap := lap₀, haveLastTick := true, lastTick := tick
        crc := CRelay.crcSet client.crc (CRelay.State.crcKey lap₀ tick) crc }) = noted
    at logged board ⊢
  generalize (server.edit c fun client =>
      { client with
        lap := lap', lastTick := some tick
        crc := client.crc.set (lap' * 256 + tick.toNat) crc }) = noted' at logged ⊢
  have holds' : (noted.board ci).holds = some c := by
    rw [board]
    exact holds
  have acting' : Live noted.board ci ∨ serving = some ci := by
    rw [board]
    exact acting
  rcases logged.partnerCrc holds' acting' isKey with ⟨missed, missed'⟩ |
    ⟨partner, d, index, other, found, found', held, at_⟩
  · rw [missed, missed']
    simp only
    have own := logged.content.mirror ci c holds'
    apply logged.edit holds' rfl rfl (Server.floor_edit rfl rfl rfl)
    refine { own with crc := ?_ }
    have length : (noted.clients ci).crc.length = (noted'.object c).crc.entries.length := by
      rw [← own.crc]
      exact (List.length_map _).symm
    unfold Dict.trim
    simp only
    rw [← own.crc, length, ← own.crc]
    exact List.map_drop
  · rw [found, found']
    simp only
    have theirs := logged.content.mirror partner d held
    have erased : Match serving
        (noted.edit partner fun client => { client with crc := client.crc.eraseIdx index })
        (noted'.edit d fun client =>
          { client with crc := client.crc.erase (lap' * 256 + tick.toNat) }) := by
      apply logged.edit held rfl rfl (Server.floor_edit rfl rfl rfl)
      refine { theirs with crc := ?_ }
      have distinct : ((crcEntries (noted.clients partner).crc).map Prod.fst).Nodup := by
        rw [theirs.crc]
        exact (noted'.object d).crc.distinct
      rw [← isKey, crcErase_entries distinct at_, theirs.crc]
      rfl
    apply erased.compared ((holds_edit rfl).trans holds')
    have linked : (noted.clients ci).partner = some partner := by
      unfold CRelay.State.partnerCrc at found
      obtain ⟨slot, isPartner, rest⟩ := Option.bind_eq_some_iff.mp found
      obtain ⟨_, -, rest'⟩ := Option.bind_eq_some_iff.mp rest
      obtain ⟨_, -, triple⟩ := Option.map_eq_some_iff.mp rest'
      rw [isPartner, (Prod.mk.inj triple).1]
    have named : (noted.clients ci).hasName = true :=
      (logged.content.mirror ci c holds').named (by rw [linked]; rfl)
    by_cases here : ci = partner
    · subst here
      rw [CRelay.State.edit_self]
      exact named
    · rw [CRelay.State.edit_of_ne here]
      exact named

end DragsterNet.Refine
