/-
Module: DragsterNet.Console.Shim
Purpose: The routine that runs once a frame: the capture of this console's own
  input, the lockstep gate, the stall, and the mixer.
Trusted boundary: none
Main exports: Console.dgCap, Console.dgNt1, Console.gateOpen, Console.dgNt2,
  Console.dgStall, Console.dgShim
-/
import DragsterNet.Console.Cells

namespace DragsterNet

namespace Console

/-! ### The capture -/

/-- The desync repair: a synthetic press of RESET in this console's own wire
byte, cleared as it is pressed. -/
def dgRsy (byte : Byte) (console : Console) : Byte × Console :=
  if console.has dgeRsy then
    (byte &&& ~~~iwRst, { console with dgEnt := console.dgEnt &&& ~~~dgeRsy })
  else (byte, console)

/-- This console's own stick, trigger and switches in one wire byte. -/
def dgCap (ports : Ports) (console : Console) : Byte × Console :=
  dgRsy
    (((ports.swchb &&& 0x03#8) <<< 4) |||
      ((ports.inpt4 &&& iwTrig) ||| (ports.swcha >>> 4)) ||| iwDiff)
    console

/-- The tick moves on: `INC DGTICK`, and the flag that asked for it is
cleared. -/
def advance (console : Console) : Console :=
  { console with
    dgTick := console.dgTick + 1
    dgEnt := console.dgEnt &&& ~~~dgeRan }

/-- Entering the tick: advance, and sample the checksum of the state that
enters it. -/
def sample (console : Console) : Console :=
  { console.advance with dgCrcv := dgCrc console.ram }

/-- Put a captured byte in the local ring, for the tick `d` ahead. -/
def store (byte : Byte) (console : Console) : Console :=
  { console with
    dgLoc := Function.update console.dgLoc (localSlot (console.dgTick + dgD)) byte }

/-- The boundary of a tick that ran: advance, sample and capture.  A boundary
that is being retried does none of it. -/
def dgNt1 (ports : Ports) (console : Console) : Console :=
  if console.has dgeRan then
    store (dgCap ports console.sample).1 (dgCap ports console.sample).2
  else console

/-! ### The gate -/

/-- `DGRWAT - DGTICK` is not negative as a signed byte. -/
def gateOpen (console : Console) : Bool :=
  !(console.dgRwat - console.dgTick).msb

/-- This console's own byte for the tick. -/
def ownByte (console : Console) : Byte :=
  console.dgLoc (localSlot console.dgTick)

/-- The peer's byte for the tick. -/
def peerByte (console : Console) : Byte :=
  console.dgRing (ringSlot console.dgTick)

/-- Two wire bytes, player 0's first, into the cells the game reads. -/
def dgMix (ports : Ports) (first second : Byte) (console : Console) : Console :=
  { console with
    ram := Function.update
      (Function.update console.ram joy0 (first &&& iwStick)) joy1
      (second &&& iwStick)
    dgTrig0 := first &&& iwTrig
    dgTrig1 := second &&& iwTrig
    dgSwb := ((ports.swchb &&& 0x08#8) |||
      (((first &&& second) >>> 4) &&& 0x03#8)) ||| 0xF4#8 }

/-- The tick runs.  The host drives player 0, so a guest's bytes change
places. -/
def dgNt2 (ports : Ports) (console : Console) : Console :=
  let cleared := { console with dgErr := console.dgErr &&& 0x0F }
  let (first, second) :=
    if cleared.has dgeRole then (cleared.peerByte, cleared.ownByte)
    else (cleared.ownByte, cleared.peerByte)
  let mixed := dgMix ports first second cleared
  dgClk (dgPhi { mixed with dgEnt := mixed.dgEnt ||| dgeRan })

/-- The peer is gone: the boot bank takes over. -/
def dgGone (console : Console) : Console :=
  { console with
    dgEnt := (console.dgEnt &&& ~~~(dgeNet ||| dgeWarm)) ||| dgeLeft
    bank := .boot }

/-- The peer's input has not arrived.  The count of stalls in the high nibble
saturates into `dgGone`. -/
def dgStall (console : Console) : Console :=
  if console.dgErr < 0xF0 then
    { console with dgAdv := 0, dgErr := console.dgErr + 0x10 }
  else dgGone { console with dgAdv := 0 }

def dgNt1b (ports : Ports) (console : Console) : Console :=
  if console.gateOpen then dgNt2 ports console else dgStall console

def dgNet (ports : Ports) (console : Console) : Console :=
  if console.has dgePh then dgClk (dgPhi console)
  else dgNt1b ports (dgNt1 ports console)

/-! ### Once a frame -/

/-- Not in a match: the console drives both cars. -/
def dgLoc0 (ports : Ports) (console : Console) : Console :=
  { console with
    ram := Function.update
      (Function.update console.ram joy1 (ports.swcha &&& 0x0F)) joy0
      (ports.swcha >>> 4)
    dgTrig0 := ports.inpt4
    dgTrig1 := ports.inpt5
    dgSwb := ports.swchb }

/-- Assume that the sim advances. -/
def assume (console : Console) : Console :=
  { console with dgAdv := 0xFF }

def dgShim (ports : Ports) (console : Console) : Console :=
  if console.assume.has dgeNet then dgNet ports console.assume
  else dgClk (dgLoc0 ports console.assume)

/-- The boot bank's hand-over into a match, `role` being zero for the host.
The sequence cell is shared with the session and keeps its value. -/
def handOver (role seq : Byte) (ram : Ram) : Console where
  dgEnt := role ||| (dgeNet ||| dgeRan)
  dgSeq := seq
  dgErr := 0
  dgTick := 0xFF
  dgNst := .wiss
  dgCrcv := 0
  dgAdv := 0
  dgSwb := 0
  dgTrig0 := 0
  dgTrig1 := 0
  dgRwat := 0xFE
  dgRing := fun _ => iwIdle
  dgLoc := fun _ => iwIdle
  dgRdn := 0
  ram := ram
  bank := .game

end Console

end DragsterNet
