/-
Module: DragsterNet.Relay.Server
Purpose: The relay in Python: the clients, the name table, and every function
  that a frame or an event of the loop reaches.
Trusted boundary: none
Main exports: Client, Server, Server.drop, Server.tryPair, Server.onHello,
  Server.handle, Server.serviceOnce, Server.accept, Server.flush, Server.sweep
-/
import Mathlib.Data.List.MinMax
import Mathlib.Data.List.DropRight
import DragsterNet.Lib.Dict
import DragsterNet.Relay.Wire

namespace DragsterNet.Relay

open Lib

/-! ### Strings -/

/-- A `str`, by its code points. -/
abbrev Text := List Nat

def utf8Char (char : Nat) : Bytes :=
  if char < 0x80 then [BitVec.ofNat 8 char]
  else if char < 0x800 then
    [BitVec.ofNat 8 (0xC0 + char / 64), BitVec.ofNat 8 (0x80 + char % 64)]
  else if char < 0x10000 then
    [BitVec.ofNat 8 (0xE0 + char / 4096), BitVec.ofNat 8 (0x80 + char / 64 % 64),
      BitVec.ofNat 8 (0x80 + char % 64)]
  else
    [BitVec.ofNat 8 (0xF0 + char / 262144), BitVec.ofNat 8 (0x80 + char / 4096 % 64),
      BitVec.ofNat 8 (0x80 + char / 64 % 64), BitVec.ofNat 8 (0x80 + char % 64)]

def encode (text : Text) : Bytes := text.flatMap utf8Char

def replacement : Nat := 0xFFFD

/-- `decode("ascii", "replace")` -/
def decode (data : Bytes) : Text :=
  data.map fun byte => if byte.toNat < 0x80 then byte.toNat else replacement

/-- The characters of `strip("\x00 ")`. -/
def isPad (char : Nat) : Bool := char == 0x00 || char == 0x20

def strip (text : Text) : Text := (text.dropWhile isPad).rdropWhile isPad

def upper (text : Text) : Text :=
  text.map fun char => if 0x61 ≤ char ∧ char ≤ 0x7A then char - 0x20 else char

def nameOk (char : Nat) : Bool :=
  (0x41 ≤ char && char ≤ 0x5A) || (0x30 ≤ char && char ≤ 0x39)

def validName (name : Text) : Bool :=
  2 ≤ name.length && name.length ≤ 8 && name.all nameOk

/-- The quote `repr` takes: a double one only if the text has single quotes and
no double ones. -/
def reprQuote (text : Text) : Nat :=
  if 0x27 ∈ text ∧ 0x22 ∉ text then 0x22 else 0x27

/-- One character of a `repr`, of text whose other characters are ASCII or
U+FFFD. -/
def reprChar (quote char : Nat) : Bytes :=
  if char = quote ∨ char = 0x5C then [0x5C, BitVec.ofNat 8 char]
  else if char = 0x09 then ascii "\\t"
  else if char = 0x0A then ascii "\\n"
  else if char = 0x0D then ascii "\\r"
  else if char < 0x20 ∨ char = 0x7F then ascii "\\x" ++ hexLower (BitVec.ofNat 8 char)
  else utf8Char char

/-- `%r` -/
def reprText (text : Text) : Bytes :=
  [BitVec.ofNat 8 (reprQuote text)] ++ text.flatMap (reprChar (reprQuote text)) ++
    [BitVec.ofNat 8 (reprQuote text)]

/-! ### State -/

inductive PyErr where
  | assertionError
  | attributeError
  | valueError
  /-- The draws allowed to the model did not free a name. -/
  | spinning
  deriving DecidableEq

/-- A computation that goes through went through each of its parts. -/
theorem bind_ok {ε α β : Type} {first : Except ε α} {rest : α → Except ε β} {result : β} :
    first >>= rest = .ok result ↔ ∃ value, first = .ok value ∧ rest value = .ok result := by
  cases first with
  | error err =>
      constructor
      · intro absurd
        cases absurd
      · rintro ⟨value, absurd, -⟩
        cases absurd
  | ok value =>
      constructor
      · intro done
        exact ⟨value, rfl, done⟩
      · rintro ⟨value', same, done⟩
        obtain rfl := Except.ok.inj same
        exact done

structure Client where
  ip : Ip
  port : Nat
  rx : Bytes := []
  tx : Bytes := []
  name : Option Text := none
  tv : Option Byte := none
  partner : Option Conn := none
  role : Option Nat := none
  born : Time
  crc : Dict Nat Byte := Dict.empty
  lap : Nat := 0
  lastTick : Option Byte := none

/-- The server.  A client object outlives its removal from `clients`, so the
objects are kept by connection; `clients` is in the order of acceptance.
`lastSweep` and `lastStats` are the locals of `run`; `conns`, `seeds` and
`digits` count the connections and the draws so far. -/
structure Server where
  object : Conn → Client
  clients : List Conn
  byName : Dict Text Conn
  stats : Stats
  lastSweep : Time
  lastStats : Time
  conns : Nat
  seeds : Nat
  digits : Nat
  seen : List Seen

def noClient : Client := { ip := ⟨0, 0, 0, 0⟩, port := 0, born := 0 }

def Server.start (now : Time) : Server where
  object := fun _ => noClient
  clients := []
  byName := Dict.empty
  stats := {}
  lastSweep := now
  lastStats := now
  conns := 0
  seeds := 0
  digits := 0
  seen := []

namespace Server

/-! ### Updates -/

def edit (server : Server) (c : Conn) (change : Client → Client) : Server :=
  { server with object := Function.update server.object c (change (server.object c)) }

def count (server : Server) (change : Stats → Stats) : Server :=
  { server with stats := change server.stats }

def note (server : Server) (seen : Seen) : Server :=
  { server with seen := server.seen ++ [seen] }

def log (server : Server) (line : Line) : Server := server.note (.line line.text)

/-- `send`: the data is appended, and nothing else happens. -/
def send (server : Server) (src : Option Conn) (c : Conn) (data : Bytes) : Server :=
  (server.edit c fun client => { client with tx := client.tx ++ data }).note
    (.append src c data)

def lobbyUpdate (oracle : Oracle) (server : Server) : Server :=
  if oracle.lobby then server.note (.players server.byName.size) else server

end Server

/-- `c.name or "?"` -/
def Client.nameOr (client : Client) (default : String) : Bytes :=
  (client.name.map encode).getD (ascii default)

def frame (ftype : Byte) (payload : Bytes) : Except PyErr Bytes :=
  if payload.length + 1 ≤ 255 then .ok (wire ftype payload) else .error .assertionError

namespace Server

variable (oracle : Oracle)

/-! ### Drops -/

/-- `if c.name and self.by_name.get(c.name) is c: del self.by_name[c.name]` -/
def unregister (server : Server) (c : Conn) : Server :=
  match (server.object c).name with
  | some name =>
      if server.byName.get? name = some c then
        { server with byName := server.byName.erase name }
      else server
  | none => server

/-- The partner's link is cleared, and it is told; `c.partner` stays. -/
def leavePartner (server : Server) (c : Conn) : Server :=
  match (server.object c).partner with
  | some partner =>
      ((server.edit partner fun client => { client with partner := none }).send
        (some c) partner peerLeft).log
          (.ended ((server.object c).nameOr "?") server.stats.crcOk)
  | none => server

/-- The socket is closed and the client taken out of the table. -/
def remove (server : Server) (c : Conn) : Server :=
  { server with clients := server.clients.erase c }.note (.close c)

def farewell (server : Server) (c : Conn) : Server :=
  match (server.object c).name with
  | some name => server.log (.left (encode name))
  | none => server

def drop (server : Server) (c : Conn) : Server :=
  if c ∈ server.clients then
    lobbyUpdate oracle ((((server.unregister c).leavePartner c).remove c).farewell c)
  else server

/-! ### The lobby -/

def idle (server : Server) : List Conn :=
  server.clients.filter fun c =>
    (server.object c).name.isSome && (server.object c).partner.isNone

/-- The idle console that has waited longest, other than `c`. -/
def waiting (server : Server) (c : Conn) : Option Conn :=
  (server.idle.filter (· ≠ c)).argmin fun other => (server.object other).born

def link (server : Server) (host guest : Conn) : Server :=
  ((server.edit host fun client => { client with partner := some guest, role := some 0 }).edit
    guest fun client => { client with partner := some host, role := some 1 }).note
      (.paired host guest)

/-- `bytes([me.role, seed & 0xFF, seed >> 8, delay, variation])` -/
def startHeader (role : Nat) (seed : BitVec 16) : Except PyErr Bytes :=
  if 0 ≤ oracle.delay ∧ oracle.delay ≤ 255 then
    .ok [BitVec.ofNat 8 role, seed.extractLsb' 0 8, seed.extractLsb' 8 8,
      BitVec.ofInt 8 oracle.delay, BitVec.ofNat 8 oracle.variation.val]
  else .error .valueError

def namePayload (name : Text) : Bytes := (encode name).rightpad 8 0

/-- `me`'s checksums go, and `me` gets the START that names `them`. -/
def startFrame (server : Server) (seed : BitVec 16) (role : Nat) (me them : Conn) :
    Except PyErr Server := do
  let cleared := server.edit me fun client => { client with crc := Dict.empty }
  let header ← startHeader oracle role seed
  match (server.object them).name with
  | none => .error .attributeError
  | some name =>
      let data ← frame tStart (header ++ namePayload name)
      return cleared.send none me data

def pair (server : Server) (host guest : Conn) : Except PyErr Server := do
  let seed := oracle.seed server.seeds
  let linked := { server with seeds := server.seeds + 1 }.link host guest
  let one ← startFrame oracle linked seed 0 host guest
  let two ← startFrame oracle one seed 1 guest host
  return lobbyUpdate oracle
    ((two.count fun stats => { stats with matches_ := stats.matches_ + 1 }).log
      (.paired ((two.object host).nameOr "") ((two.object guest).nameOr "") seed
        oracle.delay oracle.variation.val))

def tryPair (server : Server) (c : Conn) : Except PyErr Server :=
  match server.waiting c with
  | none => .ok server
  | some other => server.pair oracle other c

/-- The checks of `on_hello`, in their order. -/
def readHello (payload : Bytes) : Except (Refusal Text) (Byte × Text) :=
  if payload.length < 3 ∨ payload.head? ≠ some proto then .error (.version payload.head?)
  else
    let tv := payload.getD 1 0
    let name := upper (strip (decode (payload.drop 2)))
    if tv = tvSecam then .error .secam
    else if tv ≠ tvNtsc ∧ tv ≠ tvPal then .error (.standard tv)
    else if validName name then .ok (tv, name)
    else .error (.name name)

/-- `c.tv = payload[1]`, which is reached once the version is right. -/
def noteTv (server : Server) (c : Conn) (payload : Bytes) : Server :=
  if payload.length < 3 ∨ payload.head? ≠ some proto then server
  else server.edit c fun client => { client with tv := payload[1]? }

def refusalLine (ip : Ip) : Refusal Text → Line
  | .version declared => .version ip declared
  | .secam => .secam ip
  | .standard tv => .standard ip tv
  | .name name => .badName ip (reprText name)

/-- The digit `n` as a character. -/
def digitText (n : Nat) : Nat := 0x30 + (oracle.digit n).val

def register (server : Server) (c : Conn) (name : Text) (tv : Byte) (drawn : Nat) : Server :=
  lobbyUpdate oracle
    ({ (server.edit c fun client => { client with name := some name }) with
        byName := server.byName.set name c
        digits := drawn }.log (.named (server.object c).ip (encode name) tv))

def onHello (patience : Nat) (server : Server) (c : Conn) (payload : Bytes) :
    Except PyErr Server :=
  let server := server.noteTv c payload
  match readHello payload with
  | .error refusal =>
      .ok ((server.log (refusalLine (server.object c).ip refusal)).drop oracle c)
  | .ok (tv, name) =>
      match freeName (fun name => (server.byName.get? name).isSome) (digitText oracle)
          patience server.digits name with
      | .error _ => .error .spinning
      | .ok (name, drawn) => (server.register oracle c name tv drawn).tryPair oracle c

def onJoin (server : Server) (c : Conn) : Except PyErr Server := server.tryPair oracle c

/-- The first eight named clients, with their names and whether they play. -/
def lobbyEntries (server : Server) : List Bytes :=
  (server.clients.filterMap fun c =>
    (server.object c).name.map fun name =>
      namePayload name ++ [if (server.object c).partner.isSome then 1 else 0]).take 8

def sendLobby (server : Server) (c : Conn) : Except PyErr Server := do
  let entries := server.lobbyEntries
  let data ← frame tLobby (BitVec.ofNat 8 entries.length :: entries.flatten)
  return server.send none c data

/-! ### The checksums -/

/-- A tick that is behind the last one and less than half the range ahead of it
has wrapped. -/
def nextLap (lap : Nat) (lastTick : Option Byte) (tick : Byte) : Nat :=
  match lastTick with
  | none => lap
  | some last =>
      let delta := (tick - last).toNat
      if 0 < delta ∧ delta < 128 ∧ tick < last then lap + 1 else lap

/-- The checksum the partner has reported for the same tick, and the partner. -/
def partnerCrc (server : Server) (c : Conn) (key : Nat) : Option (Conn × Byte) :=
  (server.object c).partner.bind fun partner =>
    ((server.object partner).crc.get? key).map fun crc => (partner, crc)

def logCrc (server : Server) (c : Conn) (payload : Bytes) : Server :=
  let tick := payload.getD 0 0
  let crc := payload.getD 4 0
  let lap := nextLap (server.object c).lap (server.object c).lastTick tick
  let key := lap * 256 + tick.toNat
  let server := server.edit c fun client =>
    { client with lap := lap, lastTick := some tick, crc := client.crc.set key crc }
  match server.partnerCrc c key with
  | none => server.edit c fun client => { client with crc := client.crc.trim 8 }
  | some (partner, other) =>
      let server := server.edit partner fun client =>
        { client with crc := client.crc.erase key }
      if other ≠ crc then
        (server.count fun stats => { stats with crcBad := stats.crcBad + 1 }).log
          (.mismatch tick ((server.object c).nameOr "None") crc other)
      else server.count fun stats => { stats with crcOk := stats.crcOk + 1 }

/-! ### Framing -/

/-- A relayed frame, padded on the way out. -/
def forward (server : Server) (c : Conn) (ftype : Byte) (payload : Bytes) :
    Except PyErr Server :=
  match (server.object c).partner with
  | none => .ok server
  | some partner => do
      let data ← frame ftype (payload.rightpad gamePayload 0)
      return server.send (some c) partner data

def handle (patience : Nat) (server : Server) (c : Conn) (ftype : Byte) (payload : Bytes) :
    Except PyErr Server :=
  if ftype ∈ relayTypes then do
    let server ← server.forward c ftype payload
    if ftype = tInput ∧ 6 ≤ payload.length then return server.logCrc c payload
    else return server
  else if ftype = tHello then server.onHello oracle patience c payload
  else if ftype = tList then server.sendLobby c
  else if ftype = tJoin then server.onJoin oracle c
  else if ftype = tPing then return server.send none c (wire tPong [])
  else if ftype = tBye then return server.drop oracle c
  else return server.log (.unknownType ((server.object c).nameOr "?") ftype)

/-- One turn of the loop in `service`, and whether the loop goes on. -/
def serviceOnce (patience : Nat) (server : Server) (c : Conn) :
    Except PyErr (Server × Bool) :=
  match readFrame (server.object c).rx with
  | .short => .ok (server, false)
  | .bad n =>
      .ok (((server.count fun stats => { stats with badFrames := stats.badFrames + 1 }).log
        (.badLength ((server.object c).nameOr "?") n.toNat)).drop oracle c, false)
  | .whole body rest => do
      let taken := server.edit c fun client => { client with rx := rest }
      let server ← taken.handle oracle patience c (body.headD 0) body.tail
      return (server, true)

/-! ### Accepting, sending and timers -/

def accept (server : Server) (ip : Ip) (port : Nat) (born : Time) : Server :=
  let c := server.conns
  let server := { server with conns := server.conns + 1 }
  if maxClients ≤ server.clients.length then server.note (.close c)
  else if maxConnectionsPerIp ≤
      server.clients.countP (fun other => (server.object other).ip = ip) then
    (server.count fun stats => { stats with ipRejects := stats.ipRejects + 1 }).note (.close c)
  else
    { server with
      object := Function.update server.object c { ip := ip, port := port, born := born }
      clients := server.clients ++ [c] }.log (.connected ip port)

def checkBacklog (server : Server) (c : Conn) : Server :=
  let backlog := (server.object c).tx.length
  if maxTxBacklog < backlog then
    ((server.count fun stats => { stats with txDrops := stats.txDrops + 1 }).log
      (.backedUp ((server.object c).nameOr "?") backlog)).drop oracle c
  else server

/-- One `send`, then the check of what is left; a closed socket fails. -/
def flush (server : Server) (c : Conn) (sent : Sent) : Server :=
  let tx := (server.object c).tx
  if tx = [] then server
  else if c ∉ server.clients then server.drop oracle c
  else
    match sent with
    | .failed => server.drop oracle c
    | .blocked => server.checkBacklog oracle c
    | .took count =>
        ((server.edit c fun client => { client with tx := tx.drop count }).note
          (.sent c (tx.take count))).checkBacklog oracle c

/-- A client that has not said HELLO in time is dropped. -/
def expire (now : Time) (server : Server) (c : Conn) : Server :=
  if (server.object c).name.isNone ∧ helloTimeout < now - (server.object c).born then
    (server.count fun stats => { stats with helloTimeouts := stats.helloTimeouts + 1 }).drop
      oracle c
  else server

def sweep (server : Server) (now : Time) : Server :=
  server.clients.foldl (expire oracle now) server

/-- `if now - last_sweep > 5.0` -/
def sweepAt (server : Server) (now : Time) : Server :=
  if sweepInterval < now - server.lastSweep then
    { server.sweep oracle now with lastSweep := now }
  else server

/-- `if now - last_stats > STATS_INTERVAL` -/
def reportAt (server : Server) (now : Time) : Server :=
  if statsInterval < now - server.lastStats then
    { server.log (.stats server.stats) with lastStats := now }
  else server

end Server

end DragsterNet.Relay
