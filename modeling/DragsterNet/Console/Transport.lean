/-
Module: DragsterNet.Console.Transport
Purpose: The non-blocking network machine: one bounded micro-step of the
  WRITE / STATUS / READ / consume cycle over the cartridge's mailbox.
Trusted boundary: the cartridge behind the mailbox
Main exports: Painted, Request, Console.dgNstep, Console.dgsWiss,
  Console.dgsCons, inputFrame, checkByte
-/
import DragsterNet.Console.Shim

namespace DragsterNet

/-- What the cartridge has painted in the mailbox, as the machine reads it. -/
structure Painted where
  fnAcks : Byte
  fnErr : Byte
  fnRxLo : Byte
  fnRply : Nat → Byte

/-- A transaction as it is committed: the registers, the parameter stream and
the sequence number that launches it. -/
structure Request where
  device : Byte
  command : Byte
  params : Byte
  tx : List Byte
  seq : Byte
deriving Repr, DecidableEq

def netDev : Byte := 0x71
def ncRead : Byte := 0x52
def ncWrite : Byte := 0x57
def ncStat : Byte := 0x53

/-- Bytes of a STATUS reply: the count waiting, low and high, and the device's
own status. -/
def nsAvLo : Nat := 0
def nsAvHi : Nat := 1
def nsDevSt : Nat := 3

/-- The check byte's salt and the five bytes it covers. -/
def checkByte (tick newest middle oldest crc : Byte) : Byte :=
  irSeed ^^^ tick ^^^ newest ^^^ middle ^^^ oldest ^^^ crc

/-- The eight bytes of a record: length, type, tick, the window newest first,
checksum and check byte. -/
def inputFrame (tick newest middle oldest crc : Byte) : List Byte :=
  [irLen - 1, wtInput, tick, newest, middle, oldest, crc,
    checkByte tick newest middle oldest crc]

/-- The sequence number after the cartridge's own; zero is reserved. -/
def nextSeq (acks : Byte) : Byte :=
  if acks + 1 = 0 then 1 else acks + 1

/-- The sequence number a launch chooses is new to the cartridge. -/
theorem nextSeq_new : ∀ acks : Byte, nextSeq acks ≠ 0 ∧ acks ≠ nextSeq acks := by
  decide

namespace Console

/-- Commit a transaction and go to `state`. -/
def dgLnch (state : NetState) (command params : Byte) (tx : List Byte)
    (painted : Painted) (console : Console) : Console × Option Request :=
  ({ console with dgNst := state, dgSeq := nextSeq painted.fnAcks },
    some { device := netDev, command, params, tx, seq := nextSeq painted.fnAcks })

/-- The cartridge has answered. -/
def dgAck (painted : Painted) (console : Console) : Bool :=
  painted.fnAcks == console.dgSeq

def dgsFail (console : Console) : Console :=
  { console with
    dgErr := (console.dgErr &&& 0xF0) ||| fneBad
    dgNst := .wiss }

/-- The record of this moment: the tick the window ends at, three slots of the
local ring going back from it, and the checksum of the last boundary. -/
def record (console : Console) : List Byte :=
  let tick := console.dgTick + dgD
  inputFrame tick (console.dgLoc (localSlot tick))
    (console.dgLoc (localSlot (tick - 1))) (console.dgLoc (localSlot (tick - 2)))
    console.dgCrcv

def dgsWiss (painted : Painted) (console : Console) : Console × Option Request :=
  dgLnch .wack ncWrite 1 ([2, irLen, 0] ++ console.record) painted console

def dgsWack (painted : Painted) (console : Console) : Console :=
  if dgAck painted console then
    if painted.fnErr ≠ 0 then dgsFail console
    else { console with dgNst := .siss }
  else console

def dgsSiss (painted : Painted) (console : Console) : Console × Option Request :=
  dgLnch .sack ncStat 2 [1, 0, 1, 0] painted console

def dgsSack (painted : Painted) (console : Console) : Console :=
  if dgAck painted console then
    if painted.fnErr ≠ 0 then dgsFail console
    else if painted.fnRply nsDevSt ≠ 1 then dgsFail console
    else if painted.fnRply nsAvHi ≠ 0 then
      { console with dgRdn := 0xF8, dgNst := .riss }
    else if painted.fnRply nsAvLo &&& irMask = 0 then
      { console with dgNst := .wiss }
    else
      { console with dgRdn := painted.fnRply nsAvLo &&& irMask, dgNst := .riss }
  else console

def dgsRiss (painted : Painted) (console : Console) : Console × Option Request :=
  dgLnch .rack ncRead 1 [2, console.dgRdn, 0] painted console

def dgsRack (painted : Painted) (console : Console) : Console :=
  if dgAck painted console then
    if painted.fnErr ≠ 0 then dgsFail console
    else { console with dgRdn := painted.fnRxLo >>> 3, dgNst := .cons }
  else console

/-- Store one window in the remote ring. -/
def storeWindow (tick newest middle oldest : Byte) (console : Console) : Console :=
  { console with
    dgRing := Function.update (Function.update (Function.update console.dgRing
      (ringSlot tick) newest) (ringSlot (tick - 1)) middle)
      (ringSlot (tick - 2)) oldest }

/-- A record of the tick this console is on must carry its checksum; a
difference arms the repair, once. -/
def detectDesync (tick crc : Byte) (console : Console) : Console :=
  if tick - dgD ≠ console.dgTick then console
  else if console.has dgeRsy then console
  else if crc = console.dgCrcv then console
  else { console with dgEnt := console.dgEnt ||| dgeRsy }

/-- Only a newer record moves the watermark. -/
def raiseWatermark (tick : Byte) (console : Console) : Console :=
  if (tick - console.dgRwat).msb then console
  else { console with dgRwat := tick }

/-- The check byte of the frame at offset `y` agrees with what it covers. -/
def checks (reply : Nat → Byte) (y : Nat) : Bool :=
  reply (y + 2) ^^^ reply (y + 3) ^^^ reply (y + 4) ^^^ reply (y + 5) ^^^
    reply (y + 6) ^^^ irSeed == reply (y + 7)

/-- Consume the record at offset `y` of the reply window. -/
def consumeAt (reply : Nat → Byte) (y : Nat) (console : Console) : Console :=
  if reply (y + 1) = wtInput then
    if checks reply y then
      raiseWatermark (reply (y + 2)) (detectDesync (reply (y + 2)) (reply (y + 6))
        (storeWindow (reply (y + 2)) (reply (y + 3)) (reply (y + 4))
          (reply (y + 5)) console))
    else console
  else if reply (y + 1) = wtLeft then { console with dgErr := 0xF0 ||| fnePeer }
  else console

/-- The offset of the record the next step consumes. -/
def cursor (console : Console) : Nat :=
  ((console.dgRdn - 1) <<< 3).toNat

/-- One record a step, backwards, so that `dgRdn` is the counter and the
cursor. -/
def dgsCons (painted : Painted) (console : Console) : Console :=
  if console.dgRdn = 0 then { console with dgNst := .wiss }
  else
    consumeAt painted.fnRply console.cursor
      { console with dgRdn := console.dgRdn - 1 }

/-- One bounded step of the machine, dispatched on its state. -/
def dgNstep (painted : Painted) (console : Console) : Console × Option Request :=
  match console.dgNst with
  | .idle => (console, none)
  | .wiss => dgsWiss painted console
  | .wack => (dgsWack painted console, none)
  | .siss => dgsSiss painted console
  | .sack => (dgsSack painted console, none)
  | .riss => dgsRiss painted console
  | .rack => (dgsRack painted console, none)
  | .cons => (dgsCons painted console, none)
  | .fail => (dgsFail console, none)

end Console

end DragsterNet
