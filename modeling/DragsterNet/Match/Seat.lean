/-
Module: DragsterNet.Match.Seat
Purpose: A console in a match with its cartridge, its socket and the peer's
  records on their way to it.
Trusted boundary: the cartridge executes one transaction at a time and never
  fails one; the relay delivers in order and loses nothing
Main exports: Posted, Cart, Seat, Seat.Act, Seat.next, Seat.start
-/
import DragsterNet.Console.Desk
import DragsterNet.Console.Ticks
import DragsterNet.Lib.WindowRing

namespace DragsterNet

open Lib

/-- A record on its way from the peer, with the unwrapped tick its window ends
at. -/
structure Posted where
  stamp : Int
  frame : List Byte
deriving Repr, DecidableEq

/-- How far the cartridge is with the transaction it was given last: nothing to
do, about to touch the socket, or about to acknowledge. -/
inductive Stage where
  | idle
  | launched (request : Request)
  | served (reply : Painted)

structure Cart where
  painted : Painted
  stage : Stage

namespace Cart

/-- A committed sequence number launches when it is new and not zero. -/
def launch (request : Request) (cart : Cart) : Cart :=
  if request.seq ≠ 0 ∧ request.seq ≠ cart.painted.fnAcks then
    { cart with stage := .launched request }
  else cart

/-- The cartridge after a step of the machine. -/
def commit (cart : Cart) : Option Request → Cart
  | none => cart
  | some request => cart.launch request

/-- STATUS: the count waiting, sixteen bits of it, and a healthy device. -/
def statusReply (waiting : Nat) : Nat → Byte :=
  fun index =>
    if index = nsAvLo then BitVec.ofNat 8 (min waiting 65535)
    else if index = nsAvHi then BitVec.ofNat 8 (min waiting 65535 / 256)
    else if index = nsDevSt then 1
    else 0

/-- READ: the bytes at the front of the reply window, and behind them what was
there before. -/
def readReply (bytes : List Byte) (old : Nat → Byte) : Nat → Byte :=
  fun index => bytes.getD index (old index)

/-- The byte count in a request's length parameter. -/
def count (request : Request) : Nat :=
  (request.tx.getD 1 0).toNat + 256 * (request.tx.getD 2 0).toNat

end Cart

/-- `sock` holds what has arrived and not been read, `wire` what the relay has
still to deliver.  The rest is history: `ring` is the remote ring in unwrapped
ticks, `unread` the records of the current batch that are not consumed and
`rest` those behind them, oldest first; `stored` lists each slot write as the
tick it was for and the byte it left in that tick's slot. -/
structure Seat where
  desk : Desk
  cart : Cart
  sock : List Byte
  wire : List Byte
  ring : WindowRing
  unread : List Posted
  rest : List Posted
  stored : List (Int × Byte)

namespace Seat

/-- The hand-over.  The slots of ticks 0 and 1, which nobody sends, are seeded
with the idle byte; the next record is the first after them. -/
def start (role seq : Byte) (ram : Ram) (painted : Painted) : Seat where
  desk := Desk.start role seq ram
  cart := { painted := painted, stage := .idle }
  sock := []
  wire := []
  ring := { next := 0, mark := -2, base := 1, eaten := [] }
  unread := []
  rest := []
  stored := [(0, iwIdle), (1, iwIdle)]

/-- The boundary of this frame runs its tick. -/
def runsTick (ports : Ports) (ram : Ram) (seat : Seat) : Bool :=
  (seat.desk.atHook ram).runsTick ports

def hook (ports : Ports) (ram : Ram) (seat : Seat) : Option Seat :=
  (seat.desk.hook ports ram).map fun desk =>
    { seat with
      desk := desk
      ring := if seat.runsTick ports ram then seat.ring.use else seat.ring }

/-- The next micro-step consumes a record. -/
def consuming (seat : Seat) : Bool :=
  seat.desk.console.dgNst == .cons && seat.desk.console.dgRdn != 0

/-- The record it consumes is stored, not dropped. -/
def storing (seat : Seat) : Bool :=
  seat.cart.painted.fnRply (seat.desk.console.cursor + 1) == wtInput &&
    Console.checks seat.cart.painted.fnRply seat.desk.console.cursor

/-- The slots of a window as they stand. -/
def windowSlots (stamp : Int) (console : Console) : List (Int × Byte) :=
  [stamp, stamp - 1, stamp - 2].map fun tick =>
    (tick, console.dgRing (ringSlot (tickCell tick)))

/-- A consumed record moves from `unread` to the ring. -/
def consumed (before : Seat) (seat : Seat) : Seat :=
  match before.unread.getLast? with
  | none => seat
  | some posted =>
      { seat with
        ring := seat.ring.consume posted.stamp
        unread := seat.unread.dropLast
        stored :=
          if before.storing then
            seat.stored ++ windowSlots posted.stamp seat.desk.console
          else seat.stored }

def step (seat : Seat) : Option Seat :=
  (seat.desk.step seat.cart.painted).map fun (desk, request) =>
    let stepped :=
      { seat with
        desk := desk
        cart := seat.cart.commit request }
    if seat.consuming then seat.consumed stepped else stepped

def spin (seat : Seat) : Option Seat :=
  seat.desk.spin.map fun desk => { seat with desk := desk }

/-- The relay delivers some more bytes. -/
def deliver (count : Nat) (seat : Seat) : Seat :=
  { seat with
    sock := seat.sock ++ seat.wire.take count
    wire := seat.wire.drop count }

/-- The relay takes a record for this console. -/
def feed (posted : Posted) (seat : Seat) : Seat :=
  { seat with
    wire := seat.wire ++ posted.frame
    rest := seat.rest ++ [posted] }

/-- The acknowledgement of a transaction that returns `length` bytes. -/
def reply (request : Request) (length : Nat) (bytes : Nat → Byte) : Painted where
  fnAcks := request.seq
  fnErr := 0
  fnRxLo := BitVec.ofNat 8 length
  fnRply := bytes

/-- A READ takes the bytes off the socket: the next batch. -/
def serveRead (request : Request) (seat : Seat) : Seat :=
  let bytes := seat.sock.take (Cart.count request)
  let records := Cart.count request / 8
  { seat with
    cart := { seat.cart with
      stage := .served
        (reply request bytes.length (Cart.readReply bytes seat.cart.painted.fnRply)) }
    sock := seat.sock.drop (Cart.count request)
    ring := seat.ring.take
    unread := seat.rest.take records
    rest := seat.rest.drop records }

/-- The cartridge executes the transaction; what a WRITE sends goes out. -/
def serve (seat : Seat) : Option (Seat × Option (List Byte)) :=
  match seat.cart.stage with
  | .launched request =>
      if request.command = ncWrite then
        some
          ({ seat with cart := { seat.cart with
              stage := .served (reply request 0 seat.cart.painted.fnRply) } },
            some (request.tx.drop 3))
      else if request.command = ncStat then
        some
          ({ seat with cart := { seat.cart with
              stage := .served (reply request 4 (Cart.statusReply seat.sock.length)) } },
            none)
      else if request.command = ncRead then some (seat.serveRead request, none)
      else none
  | _ => none

/-- The cartridge publishes the reply and the acknowledgement. -/
def ack (seat : Seat) : Option Seat :=
  match seat.cart.stage with
  | .served reply => some { seat with cart := { painted := reply, stage := .idle } }
  | _ => none

inductive Act where
  | hook (ports : Ports) (ram : Ram)
  | step
  | spin
  | deliver (count : Nat)
  | serve
  | ack
  | feed (posted : Posted)

def next (seat : Seat) : Act → Option Seat
  | .hook ports ram => seat.hook ports ram
  | .step => seat.step
  | .spin => seat.spin
  | .deliver count => some (seat.deliver count)
  | .serve => seat.serve.map (·.1)
  | .ack => seat.ack
  | .feed posted => some (seat.feed posted)

/-- The steps of one console and its surroundings. -/
def Step (before : Seat) (act : Act) (after : Seat) : Prop :=
  before.next act = some after

end Seat

end DragsterNet
