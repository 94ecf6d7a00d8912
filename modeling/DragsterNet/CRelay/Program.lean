/-
Module: DragsterNet.CRelay.Program
Purpose: The relay in C: fixed arrays of clients, names and checksums, slot
  indices for links, and every function the event loop reaches.
Trusted boundary: none
Main exports: Slot, Client, State, State.clientSend, State.drop, State.tryPair,
  State.onHello, State.handle, State.serviceOnce, State.acceptClient,
  State.flush, State.reap
-/
import Mathlib.Data.List.DropRight
import Mathlib.Data.List.FinRange
import Mathlib.Logic.Function.Basic
import DragsterNet.Relay.Wire

namespace DragsterNet.CRelay

open Relay

def txCap : Nat := 256 * 1024
def rxCap : Nat := 4352
def crcSlots : Nat := 16
def nameSlots : Nat := maxClients * 4
def nameGuard : Nat := 1000

/-- An index into `clients`. -/
abbrev Slot := Fin 64

/-! ### State -/

/-- One slot of `clients`.  The receive buffer is given by the bytes in use; the
transmit buffer by the bytes ever written, of which `txLen` are in use.
`holds` and `linked` are ghosts: the connection last accepted into the slot,
and the connection and generation that `try_pair` last linked it to. -/
structure Client where
  inUse : Bool := false
  fd : Option Conn := none
  gen : BitVec 32 := 0
  ip : Ip := ⟨0, 0, 0, 0⟩
  port : Nat := 0
  rx : Bytes := []
  tx : Bytes := []
  txLen : Nat := 0
  name : Bytes := []
  hasName : Bool := false
  tv : Option Byte := none
  partner : Option Slot := none
  role : Option Nat := none
  born : Time := 0
  dead : Bool := false
  crc : List (BitVec 64 × Byte) := []
  haveLastTick : Bool := false
  lastTick : Byte := 0
  lap : BitVec 64 := 0
  holds : Option Conn := none
  linked : Option (Option Conn × BitVec 32) := none

/-- The bytes of the transmit buffer that are in use; what was never written is
zero. -/
def Client.queued (client : Client) : Bytes :=
  (client.tx.rightpad client.txLen 0).take client.txLen

/-- What is in use is the front of the buffer. -/
theorem Client.queued_front {client : Client} {front rest : Bytes}
    (tx : client.tx = front ++ rest) (txLen : client.txLen = front.length) :
    client.queued = front := by
  unfold Client.queued List.rightpad
  rw [tx, txLen, List.append_assoc, List.take_left']
  rfl

theorem Client.queued_length {client : Client} : client.queued.length = client.txLen := by
  unfold Client.queued List.rightpad
  rw [List.length_take, List.length_append, List.length_replicate]
  omega

/-- `name_or_q` -/
def Client.nameOr (client : Client) : Bytes :=
  if client.hasName then client.name else ascii "?"

structure NameEnt where
  name : Bytes
  ci : Slot
  gen : BitVec 32

/-- The counters, unsigned and 32 bits wide. -/
structure Counters where
  matches_ : BitVec 32 := 0
  crcOk : BitVec 32 := 0
  crcBad : BitVec 32 := 0
  badFrames : BitVec 32 := 0
  txDrops : BitVec 32 := 0
  helloTimeouts : BitVec 32 := 0
  ipRejects : BitVec 32 := 0

def Counters.stats (counters : Counters) : Stats where
  matches_ := counters.matches_.toNat
  crcOk := counters.crcOk.toNat
  crcBad := counters.crcBad.toNat
  badFrames := counters.badFrames.toNat
  txDrops := counters.txDrops.toNat
  helloTimeouts := counters.helloTimeouts.toNat
  ipRejects := counters.ipRejects.toNat

/-- The globals, with the descriptors that epoll watches and the tags they were
added with.  `conns`, `seeds` and `digits` count the connections and the draws
so far. -/
structure State where
  clients : Slot → Client
  order : List Slot
  byName : List NameEnt
  stats : Counters
  watched : Conn → Option (Slot × BitVec 32)
  lastSweep : Time
  lastStats : Time
  conns : Nat
  seeds : Nat
  digits : Nat
  seen : List Seen

def State.start (now : Time) : State where
  clients := fun _ => {}
  order := []
  byName := []
  stats := {}
  watched := fun _ => none
  lastSweep := now
  lastStats := now
  conns := 0
  seeds := 0
  digits := 0
  seen := []

/-! ### `py_repr` -/

/-- The quote: a double one if there are single quotes and no double ones. -/
def reprQuote (text : Bytes) : Byte :=
  if 0x27 ∈ text ∧ 0x22 ∉ text then 0x22 else 0x27

def reprByte (quote byte : Byte) : Bytes :=
  if 0x80 ≤ byte then [0xEF, 0xBF, 0xBD]
  else if byte = quote ∨ byte = 0x5C then [0x5C, byte]
  else if byte = 0x09 then ascii "\\t"
  else if byte = 0x0A then ascii "\\n"
  else if byte = 0x0D then ascii "\\r"
  else if byte < 0x20 ∨ byte = 0x7F then ascii "\\x" ++ hexLower byte
  else [byte]

/-- The loop stops when fewer than eight of the 640 bytes are left. -/
def reprLoop (quote : Byte) : Bytes → Bytes → Bytes
  | written, [] => written
  | written, byte :: rest =>
      if written.length < 640 - 8 then reprLoop quote (written ++ reprByte quote byte) rest
      else written

def pyRepr (text : Bytes) : Bytes :=
  reprLoop (reprQuote text) [reprQuote text] text ++ [reprQuote text]

/-! ### The checksum map of one client -/

def crcFind (crc : List (BitVec 64 × Byte)) (key : BitVec 64) : Option Nat :=
  crc.findIdx? fun entry => entry.1 = key

/-- An entry that is there takes the new value where it stands; with all slots
taken, the last one is overwritten. -/
def crcSet (crc : List (BitVec 64 × Byte)) (key : BitVec 64) (value : Byte) :
    List (BitVec 64 × Byte) :=
  match crcFind crc key with
  | some index => crc.set index (key, value)
  | none => (if crcSlots ≤ crc.length then crc.take (crcSlots - 1) else crc) ++ [(key, value)]

namespace State

/-! ### Updates -/

def edit (state : State) (ci : Slot) (change : Client → Client) : State :=
  { state with clients := Function.update state.clients ci (change (state.clients ci)) }

def count (state : State) (change : Counters → Counters) : State :=
  { state with stats := change state.stats }

def note (state : State) (seen : Seen) : State := { state with seen := state.seen ++ [seen] }

def log (state : State) (line : Line) : State := state.note (.line line.text)

/-- The connection a slot holds, or held last. -/
def conn (state : State) (ci : Slot) : Conn := (state.clients ci).holds.getD 0

variable (oracle : Oracle)

def lobbyUpdateCount (state : State) : State :=
  if oracle.lobby then state.note (.players state.byName.length) else state

/-- The data is appended if it fits; otherwise the buffer is said to be full. -/
def clientSend (state : State) (src : Option Slot) (ci : Slot) (data : Bytes) : State :=
  let client := state.clients ci
  if txCap < client.txLen + data.length then
    state.edit ci fun client => { client with txLen := txCap }
  else
    (state.edit ci fun client =>
      { client with
        tx := client.queued ++ data ++ client.tx.drop (client.txLen + data.length)
        txLen := client.txLen + data.length }).note
      (.append (src.map state.conn) (state.conn ci) data)

def sendFrame (state : State) (src : Option Slot) (ci : Slot) (ftype : Byte)
    (payload : Bytes) : State :=
  state.clientSend src ci (wire ftype payload)

/-! ### Names -/

def nameTaken (state : State) (name : Bytes) : Bool :=
  state.byName.any fun entry => entry.name = name

def nameSet (state : State) (name : Bytes) (ci : Slot) : State :=
  let entry : NameEnt := ⟨name, ci, (state.clients ci).gen⟩
  match state.byName.findIdx? fun entry => entry.name = name with
  | some index => { state with byName := state.byName.set index entry }
  | none =>
      let kept := if nameSlots ≤ state.byName.length then state.byName.tail else state.byName
      { state with byName := kept ++ [entry] }

/-- The entry of that name goes if it is the client's own. -/
def nameDelIfIs (state : State) (name : Bytes) (ci : Slot) : State :=
  match state.byName.find? fun entry => entry.name = name with
  | none => state
  | some entry =>
      if entry.ci ≠ ci ∨ entry.gen ≠ (state.clients ci).gen then state
      else { state with byName := state.byName.eraseP fun entry => entry.name = name }

/-! ### Drops -/

def unregister (state : State) (ci : Slot) : State :=
  if (state.clients ci).hasName then state.nameDelIfIs (state.clients ci).name ci else state

def leavePartner (state : State) (ci : Slot) : State :=
  match (state.clients ci).partner with
  | some partner =>
      ((state.edit partner fun client => { client with partner := none }).sendFrame
        (some ci) partner tPeerLeft (List.replicate gamePayload 0)).log
          (.ended (state.clients ci).nameOr state.stats.crcOk.toNat)
  | none => state

/-- The descriptor is taken out of epoll's set and closed, and the slot out of
the accept order. -/
def closeSlot (state : State) (ci : Slot) : State :=
  let closed : State :=
    match (state.clients ci).fd with
    | some fd =>
        ({ state with watched := Function.update state.watched fd none }.note
          (.close fd)).edit ci fun client => { client with fd := none }
    | none => state
  { closed with order := closed.order.erase ci }

def farewell (state : State) (ci : Slot) : State :=
  if (state.clients ci).hasName then state.log (.left (state.clients ci).name) else state

/-- The slot stays taken until `reap`. -/
def drop (state : State) (ci : Slot) : State :=
  if (state.clients ci).dead then state
  else
    let marked := state.edit ci fun client => { client with dead := true }
    lobbyUpdateCount oracle ((((marked.unregister ci).leavePartner ci).closeSlot ci).farewell ci)

/-! ### The lobby -/

/-- One turn of the search in `try_pair`: the first of the oldest. -/
def older (state : State) (ci : Slot) (best : Option Slot) (other : Slot) : Option Slot :=
  if other = ci ∨ (state.clients other).hasName = false ∨
      (state.clients other).partner.isSome then best
  else
    match best with
    | none => some other
    | some first =>
        if (state.clients other).born < (state.clients first).born then some other
        else some first

def waiting (state : State) (ci : Slot) : Option Slot :=
  state.order.foldl (state.older ci) none

def link (state : State) (host guest : Slot) : State :=
  let tag := fun ci => some ((state.clients ci).holds, (state.clients ci).gen)
  ((state.edit host fun client =>
    { client with partner := some guest, role := some 0, linked := tag guest }).edit
      guest fun client =>
        { client with partner := some host, role := some 1, linked := tag host }).note
          (.paired (state.conn host) (state.conn guest))

/-- `pad_name` -/
def padName (name : Bytes) : Bytes := (name.take 8).rightpad 8 0

def startFrame (state : State) (seed : BitVec 16) (role : Nat) (me them : Slot) : State :=
  let cleared := state.edit me fun client => { client with crc := [] }
  cleared.sendFrame none me tStart
    ([BitVec.ofNat 8 role, seed.extractLsb' 0 8, seed.extractLsb' 8 8,
      BitVec.ofInt 8 oracle.delay, BitVec.ofNat 8 oracle.variation.val] ++
        padName (cleared.clients them).name)

def tryPair (state : State) (ci : Slot) : State :=
  match state.waiting ci with
  | none => state
  | some host =>
      let seed := oracle.seed state.seeds
      let linked := { state with seeds := state.seeds + 1 }.link host ci
      let one := startFrame oracle linked seed 0 host ci
      let two := startFrame oracle one seed 1 ci host
      lobbyUpdateCount oracle
        ((two.count fun stats => { stats with matches_ := stats.matches_ + 1 }).log
          (.paired (two.clients host).name (two.clients ci).name seed oracle.delay
            oracle.variation.val))

def isPad (byte : Byte) : Bool := byte == 0x00 || byte == 0x20

def upper (byte : Byte) : Byte := if 0x61 ≤ byte ∧ byte ≤ 0x7A then byte - 32 else byte

def nameOk (byte : Byte) : Bool :=
  (0x41 ≤ byte && byte ≤ 0x5A) || (0x30 ≤ byte && byte ≤ 0x39)

/-- The checks of `on_hello`, in their order, on the bytes. -/
def readHello (payload : Bytes) : Except (Refusal Bytes) (Byte × Bytes) :=
  if payload.length < 3 ∨ payload.head? ≠ some proto then .error (.version payload.head?)
  else
    let tv := payload.getD 1 0
    let stripped := ((payload.drop 2).dropWhile isPad).rdropWhile isPad
    let name := (stripped.take 256).map upper
    if tv = tvSecam then .error .secam
    else if tv ≠ tvNtsc ∧ tv ≠ tvPal then .error (.standard tv)
    else if 2 ≤ name.length ∧ name.length ≤ 8 ∧ name.all nameOk then .ok (tv, name)
    else .error (.name name)

def noteTv (state : State) (ci : Slot) (payload : Bytes) : State :=
  if payload.length < 3 ∨ payload.head? ≠ some proto then state
  else state.edit ci fun client => { client with tv := payload[1]? }

def refusalLine (ip : Ip) : Refusal Bytes → Line
  | .version declared => .version ip declared
  | .secam => .secam ip
  | .standard tv => .standard ip tv
  | .name name => .badName ip (pyRepr name)

/-- `'0' + next_digit()` -/
def nextDigit (n : Nat) : Byte := BitVec.ofNat 8 (0x30 + (oracle.digit n).val)

def register (state : State) (ci : Slot) (name : Bytes) (tv : Byte) (drawn : Nat) : State :=
  let named := state.edit ci fun client => { client with name := name, hasName := true }
  lobbyUpdateCount oracle
    ({ named.nameSet name ci with digits := drawn }.log
      (.named (state.clients ci).ip name tv))

def onHello (state : State) (ci : Slot) (payload : Bytes) : State :=
  let state := state.noteTv ci payload
  match readHello payload with
  | .error refusal => (state.log (refusalLine (state.clients ci).ip refusal)).drop oracle ci
  | .ok (tv, name) =>
      match freeName state.nameTaken (nextDigit oracle) nameGuard state.digits name with
      | .error name =>
          ({ state with digits := state.digits + nameGuard }.log
            (.noName (state.clients ci).ip name)).drop oracle ci
      | .ok (name, drawn) => (state.register oracle ci name tv drawn).tryPair oracle ci

def lobbyEntries (state : State) : List Bytes :=
  (state.order.filterMap fun ci =>
    if (state.clients ci).hasName then
      some (padName (state.clients ci).name ++
        [if (state.clients ci).partner.isSome then 1 else 0])
    else none).take 8

def sendLobby (state : State) (ci : Slot) : State :=
  state.sendFrame none ci tLobby
    (BitVec.ofNat 8 state.lobbyEntries.length :: state.lobbyEntries.flatten)

/-! ### The checksums -/

def nextLap (client : Client) (tick : Byte) : BitVec 64 :=
  if client.haveLastTick then
    let delta := tick - client.lastTick
    if 0 < delta ∧ delta < 128 ∧ tick < client.lastTick then client.lap + 1 else client.lap
  else client.lap

/-- `c->lap * 256u + tick` -/
def crcKey (lap : BitVec 64) (tick : Byte) : BitVec 64 := lap * 256 + tick.setWidth 64

def partnerCrc (state : State) (ci : Slot) (key : BitVec 64) : Option (Slot × Nat × Byte) :=
  (state.clients ci).partner.bind fun partner =>
    (crcFind (state.clients partner).crc key).bind fun index =>
      ((state.clients partner).crc[index]?).map fun entry => (partner, index, entry.2)

def logCrc (state : State) (ci : Slot) (payload : Bytes) : State :=
  let tick := payload.getD 0 0
  let crc := payload.getD 4 0
  let lap := nextLap (state.clients ci) tick
  let key := crcKey lap tick
  let state := state.edit ci fun client =>
    { client with
      lap := lap, haveLastTick := true, lastTick := tick, crc := crcSet client.crc key crc }
  match state.partnerCrc ci key with
  | none =>
      -- The oldest entries go while there are more than eight.
      state.edit ci fun client => { client with crc := client.crc.drop (client.crc.length - 8) }
  | some (partner, index, other) =>
      let state := state.edit partner fun client =>
        { client with crc := client.crc.eraseIdx index }
      if other ≠ crc then
        (state.count fun stats => { stats with crcBad := stats.crcBad + 1 }).log
          (.mismatch tick (state.clients ci).name crc other)
      else state.count fun stats => { stats with crcOk := stats.crcOk + 1 }

/-! ### Framing -/

def forward (state : State) (ci : Slot) (ftype : Byte) (payload : Bytes) : State :=
  match (state.clients ci).partner with
  | none => state
  | some partner =>
      state.sendFrame (some ci) partner ftype (payload.rightpad gamePayload 0)

def handle (state : State) (ci : Slot) (ftype : Byte) (payload : Bytes) : State :=
  if ftype ∈ relayTypes then
    let state := state.forward ci ftype payload
    if ftype = tInput ∧ 6 ≤ payload.length then state.logCrc ci payload else state
  else if ftype = tHello then state.onHello oracle ci payload
  else if ftype = tList then state.sendLobby ci
  else if ftype = tJoin then state.tryPair oracle ci
  else if ftype = tPing then state.sendFrame none ci tPong []
  else if ftype = tBye then state.drop oracle ci
  else state.log (.unknownType (state.clients ci).nameOr ftype)

/-- One turn of the loop in `service`, and whether the loop goes on. -/
def serviceOnce (state : State) (ci : Slot) : State × Bool :=
  match readFrame (state.clients ci).rx with
  | .short => (state, false)
  | .bad n =>
      (((state.count fun stats => { stats with badFrames := stats.badFrames + 1 }).log
        (.badLength (state.clients ci).nameOr n.toNat)).drop oracle ci, false)
  | .whole body rest =>
      let taken := state.edit ci fun client => { client with rx := rest }
      (taken.handle oracle ci (body.headD 0) body.tail, true)

/-! ### Accepting, sending and timers -/

/-- The first slot that is not in use. -/
def freeSlot (state : State) : Option Slot :=
  (List.finRange 64).find? fun ci => !(state.clients ci).inUse

/-- Every field of the slot but its generation and its buffers starts anew. -/
def clientAlloc (state : State) (ci : Slot) (fd : Conn) (ip : Ip) (port : Nat)
    (born : Time) : State :=
  { state.edit ci fun client =>
      { gen := client.gen, tx := client.tx, inUse := true, fd := some fd, ip := ip,
        port := port, born := born, holds := some fd } with
    order := if state.order.length < maxClients then state.order ++ [ci] else state.order
    watched := Function.update state.watched fd (some (ci, (state.clients ci).gen)) }

def acceptClient (state : State) (ip : Ip) (port : Nat) (born : Time) : State :=
  let fd := state.conns
  let state := { state with conns := state.conns + 1 }
  if maxClients ≤ state.order.length then state.note (.close fd)
  else if maxConnectionsPerIp ≤
      state.order.countP (fun other => (state.clients other).ip = ip) then
    (state.count fun stats => { stats with ipRejects := stats.ipRejects + 1 }).note (.close fd)
  else
    match state.freeSlot with
    | none => state.note (.close fd)
    | some ci => (state.clientAlloc ci fd ip port born).log (.connected ip port)

def checkBacklog (state : State) (ci : Slot) : State :=
  let backlog := (state.clients ci).txLen
  if maxTxBacklog < backlog then
    ((state.count fun stats => { stats with txDrops := stats.txDrops + 1 }).log
      (.backedUp (state.clients ci).nameOr backlog)).drop oracle ci
  else state

/-- `memmove` of what is left, over the bytes that were sent. -/
def consumeTx (client : Client) (count : Nat) : Client :=
  { client with
    tx := client.queued.drop count ++ client.tx.drop (client.txLen - count)
    txLen := client.txLen - count }

def flush (state : State) (ci : Slot) (sent : Relay.Sent) : State :=
  if (state.clients ci).txLen = 0 then state
  else
    match (state.clients ci).fd with
    | none => state.drop oracle ci
    | some fd =>
        match sent with
        | .failed => state.drop oracle ci
        | .blocked => state.checkBacklog oracle ci
        | .took count =>
            ((state.edit ci fun client => consumeTx client count).note
              (.sent fd ((state.clients ci).queued.take count))).checkBacklog oracle ci

def expire (now : Time) (state : State) (ci : Slot) : State :=
  let client := state.clients ci
  if client.inUse ∧ client.dead = false ∧ client.hasName = false ∧
      helloTimeout < now - client.born then
    (state.count fun stats => { stats with helloTimeouts := stats.helloTimeouts + 1 }).drop
      oracle ci
  else state

def sweep (state : State) (now : Time) : State := state.order.foldl (expire oracle now) state

def sweepAt (state : State) (now : Time) : State :=
  if sweepInterval < now - state.lastSweep then
    { state.sweep oracle now with lastSweep := now }
  else state

def reportAt (state : State) (now : Time) : State :=
  if statsInterval < now - state.lastStats then
    { state.log (.stats state.stats.stats) with lastStats := now }
  else state

/-- Every dropped slot is freed; its generation goes up. -/
def reap (state : State) : State :=
  { state with
    clients := fun ci =>
      let client := state.clients ci
      if client.inUse && client.dead then
        { client with inUse := false, gen := client.gen + 1 }
      else client }

end State

end DragsterNet.CRelay
