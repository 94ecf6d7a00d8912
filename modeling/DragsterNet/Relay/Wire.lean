/-
Module: DragsterNet.Relay.Wire
Purpose: What both relays share: the frames of the protocol, the lines of the
  log, and what the outside does to a relay and sees of it.
Trusted boundary: none
Main exports: wire, Line, Line.text, Seen, Event, Turn, Oracle
-/
import DragsterNet.Console.Cells

namespace DragsterNet

abbrev Bytes := List Byte

namespace Relay

/-! ### Frames -/

def tHello : Byte := 0x01
def tList : Byte := 0x02
def tLobby : Byte := 0x03
def tJoin : Byte := 0x04
def tStart : Byte := 0x05
def tInput : Byte := 0x06
def tCrc : Byte := 0x07
def tState : Byte := 0x08
def tResync : Byte := 0x09
def tBye : Byte := 0x0A
def tPeerLeft : Byte := 0x0B
def tPing : Byte := 0x0C
def tPong : Byte := 0x0D

/-- The types that go to the partner as they are. -/
def relayTypes : List Byte := [tInput, tCrc, tState, tResync]

instance (ftype : Byte) : Decidable (ftype ∈ relayTypes) :=
  decidable_of_iff (relayTypes.contains ftype = true) List.contains_iff_mem

def gameFrame : Nat := 8
def gamePayload : Nat := gameFrame - 2

def proto : Byte := 2
def tvNtsc : Byte := 0
def tvPal : Byte := 1
def tvSecam : Byte := 2

/-- A frame on the wire; the length byte counts the type and the payload. -/
def wire (ftype : Byte) (payload : Bytes) : Bytes :=
  BitVec.ofNat 8 (payload.length + 1) :: ftype :: payload

@[simp] theorem wire_length (ftype : Byte) (payload : Bytes) :
    (wire ftype payload).length = payload.length + 2 := rfl

/-- What a console gets when its partner has gone. -/
def peerLeft : Bytes := wire tPeerLeft (List.replicate gamePayload 0)

/-- What the head of a receive buffer holds. -/
inductive Head where
  | short
  | bad (length : Byte)
  | whole (body rest : Bytes)

def readFrame : Bytes → Head
  | [] => .short
  | n :: rest =>
      if n.toNat < 1 ∨ 200 < n.toNat then .bad n
      else if rest.length < n.toNat then .short
      else .whole (rest.take n.toNat) (rest.drop n.toNat)

/-- What `on_hello` turns a console away for. -/
inductive Refusal (name : Type) where
  | version (declared : Option Byte)
  | secam
  | standard (tv : Byte)
  | name (name : name)
deriving DecidableEq

/-! ### Limits -/

/-- A reading of the monotonic clock, in microseconds. -/
abbrev Time := Nat

def second : Time := 1000000

def maxTxBacklog : Nat := 64 * 1024
def maxClients : Nat := 64
def maxConnectionsPerIp : Nat := 8
def helloTimeout : Time := 60 * second
def statsInterval : Time := 60 * second
def sweepInterval : Time := 5 * second

/-! ### Text -/

/-- An IPv4 address, as its four bytes. -/
structure Ip where
  a : Byte
  b : Byte
  c : Byte
  d : Byte
  deriving DecidableEq

def ascii (text : String) : Bytes := text.toList.map fun char => BitVec.ofNat 8 char.toNat

/-- `%d` -/
def decimal (number : Nat) : Bytes := ascii (toString number)

/-- `%d`, with a sign. -/
def integer (number : Int) : Bytes := ascii (toString number)

/-- `%02X` for `base = 0x37`, `%02x` for `base = 0x57`. -/
def hex (base : Nat) (byte : Byte) : Bytes :=
  [byte.toNat / 16, byte.toNat % 16].map fun digit =>
    BitVec.ofNat 8 (if digit < 10 then 0x30 + digit else base + digit)

def hexUpper : Byte → Bytes := hex 0x37
def hexLower : Byte → Bytes := hex 0x57

def Ip.text (ip : Ip) : Bytes :=
  decimal ip.a.toNat ++ ascii "." ++ decimal ip.b.toNat ++ ascii "." ++
    decimal ip.c.toNat ++ ascii "." ++ decimal ip.d.toNat

/-! ### The log -/

/-- The counters, as the statistics line prints them. -/
structure Stats where
  matches_ : Nat := 0
  crcOk : Nat := 0
  crcBad : Nat := 0
  badFrames : Nat := 0
  txDrops : Nat := 0
  helloTimeouts : Nat := 0
  ipRejects : Nat := 0

/-- A dict's repr, in insertion order. -/
def Stats.text (stats : Stats) : Bytes :=
  ascii "\x7b'matches': " ++ decimal stats.matches_ ++
    ascii ", 'crc_ok': " ++ decimal stats.crcOk ++
    ascii ", 'crc_bad': " ++ decimal stats.crcBad ++
    ascii ", 'bad_frames': " ++ decimal stats.badFrames ++
    ascii ", 'tx_drops': " ++ decimal stats.txDrops ++
    ascii ", 'hello_timeouts': " ++ decimal stats.helloTimeouts ++
    ascii ", 'ip_rejects': " ++ decimal stats.ipRejects ++ ascii "\x7d"

/-- The lines the relays print, by their formats.  The last two are the C
relay's alone. -/
inductive Line where
  | connected (ip : Ip) (port : Nat)
  | badLength (who : Bytes) (length : Nat)
  | unknownType (who : Bytes) (ftype : Byte)
  | version (ip : Ip) (declared : Option Byte)
  | secam (ip : Ip)
  | standard (ip : Ip) (tv : Byte)
  | badName (ip : Ip) (repr : Bytes)
  | named (ip : Ip) (name : Bytes) (tv : Byte)
  | paired (host guest : Bytes) (seed : BitVec 16) (delay : Int) (variation : Nat)
  | mismatch (tick : Byte) (who : Bytes) (crc other : Byte)
  | ended (who : Bytes) (rounds : Nat)
  | left (who : Bytes)
  | backedUp (who : Bytes) (count : Nat)
  | stats (counters : Stats)
  | noName (ip : Ip) (name : Bytes)
  | overflow (who : Bytes) (held got cap : Nat)

def tvName (tv : Byte) : Bytes := if tv = tvNtsc then ascii "NTSC" else ascii "PAL"

def Line.text : Line → Bytes
  | connected ip port => ip.text ++ ascii ":" ++ decimal port ++ ascii " connected"
  | badLength who length =>
      who ++ ascii ": bad frame length " ++ decimal length ++
        ascii ", dropping the connection"
  | unknownType who ftype => who ++ ascii ": unknown frame type $" ++ hexUpper ftype
  | version ip declared =>
      ip.text ++ ascii ": HELLO version " ++
        (declared.map hexLower).getD (ascii "none") ++ ascii ", wanted " ++
        decimal proto.toNat
  | secam ip =>
      ip.text ++ ascii (": refusing a SECAM console -- no SECAM Dragster image " ++
        "exists to pair it with")
  | standard ip tv =>
      ip.text ++ ascii ": HELLO declares television standard $" ++ hexUpper tv ++
        ascii ", which is not one this server knows"
  | badName ip repr => ip.text ++ ascii ": bad name " ++ repr
  | named ip name tv =>
      ip.text ++ ascii " is " ++ name ++ ascii " (" ++ tvName tv ++ ascii ")"
  | paired host guest seed delay variation =>
      ascii "match: " ++ host ++ ascii " (host) vs " ++ guest ++ ascii ", seed $" ++
        hexUpper (seed.extractLsb' 8 8) ++ hexUpper (seed.extractLsb' 0 8) ++
        ascii ", delay " ++ integer delay ++ ascii ", variation " ++ decimal variation
  | mismatch tick who crc other =>
      ascii "CRC MISMATCH tick " ++ decimal tick.toNat ++ ascii ": " ++ who ++
        ascii "=$" ++ hexUpper crc ++ ascii " vs $" ++ hexUpper other
  | ended who rounds =>
      ascii "match ended: " ++ who ++ ascii " left, " ++ decimal rounds ++
        ascii " CRC rounds verified"
  | left who => who ++ ascii " disconnected"
  | backedUp who count =>
      who ++ ascii ": " ++ decimal count ++ ascii " bytes backed up, dropping"
  | stats counters => ascii "stats " ++ counters.text
  | noName ip name => ip.text ++ ascii ": cannot find a free name for " ++ name
  | overflow who held got cap =>
      who ++ ascii ": rx overflow (" ++ decimal held ++ ascii " + " ++ decimal got ++
        ascii " > " ++ decimal cap ++ ascii "), dropping the connection"

/-! ### What the outside sees -/

/-- Connections are numbered in the order in which they are accepted. -/
abbrev Conn := Nat

inductive Seen where
  /-- `data` is appended to `dst`'s transmit buffer; `src` is the connection whose
  frame or whose leaving it comes from, if it is not the relay's own. -/
  | append (src : Option Conn) (dst : Conn) (data : Bytes)
  /-- The socket takes `data`. -/
  | sent (dst : Conn) (data : Bytes)
  | close (conn : Conn)
  | line (text : Bytes)
  /-- The number of players the room is published with. -/
  | players (count : Nat)
  /-- The two consoles become a match. -/
  | paired (host guest : Conn)
  deriving DecidableEq

/-! ### What the outside does -/

/-- What `send` makes of the bytes it is given. -/
inductive Sent where
  | took (count : Nat)
  | blocked
  | failed

/-- One readiness report.  A `read` of no bytes is a closed or broken
connection. -/
inductive Event where
  | connect (ip : Ip) (port : Nat) (born : Time)
  | ready (conn : Conn) (read : Option Bytes) (write : Option Sent)

/-- One iteration of the event loop: the reports of the selector, what the
sends at its end will take, and the clock there. -/
structure Turn where
  events : List Event
  sends : Conn → Sent
  now : Time

/-- The options of the relay and its random draws: the `n`-th seed and the
`n`-th digit. -/
structure Oracle where
  delay : Int
  variation : Fin 2
  lobby : Bool
  seed : Nat → BitVec 16
  digit : Nat → Fin 10

/-- `name[:7] + str(digit)` until the name is free.  `patience` bounds the
number of draws; with none left the name is still taken. -/
def freeName {char : Type} (taken : List char → Bool) (digit : Nat → char) :
    Nat → Nat → List char → Except (List char) (List char × Nat)
  | patience, drawn, name =>
      if taken name then
        match patience with
        | 0 => .error name
        | patience + 1 =>
            freeName taken digit patience (drawn + 1) (name.take 7 ++ [digit drawn])
      else .ok (name, drawn)

/-! ### Frames and options for schedules -/

/-- The options of a relay without a lobby; every draw is the same. -/
def plain : Oracle where
  delay := 2
  variation := 0
  lobby := false
  seed := fun _ => 0x1234
  digit := fun _ => 0

/-- HELLO, in NTSC, under a name of two letters. -/
def helloFrame (one two : Byte) : Bytes := wire tHello [proto, tvNtsc, one, two]

def joinFrame : Bytes := wire tJoin []

end Relay

end DragsterNet
