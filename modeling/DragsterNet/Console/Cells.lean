/-
Module: DragsterNet.Console.Cells
Purpose: The console's memory: the game's zero page, the netcode's cells above
  it, the wire constants, and the small routines over them (the checksum, the
  sim clock and the phase).
Trusted boundary: none
Main exports: Console, Ports, dgCrc, Console.dgClk, Console.dgPhi,
  Console.has, localSlot, ringSlot
-/
import Mathlib.Logic.Function.Basic
import Mathlib.Data.BitVec

namespace DragsterNet

abbrev Byte := BitVec 8

/-- The game's RAM, by zero-page address. -/
abbrev Ram := Byte → Byte

/-! ### The game's own cells -/

def gameVar : Byte := 0x80
def frameCnt : Byte := 0x81
def lfsr : Byte := 0x82
def countdown : Byte := 0x8D
def rpm : Byte := 0xA8
def joy0 : Byte := 0xAD
def joy1 : Byte := 0xAE
def attract : Byte := 0xB9
def raceDone : Byte := 0xD2

/-! ### The bits of `dgEnt` -/

def dgeWarm : Byte := 0x01
def dgeNet : Byte := 0x02
def dgeRole : Byte := 0x04
def dgeRan : Byte := 0x08
def dgeLeft : Byte := 0x10
def dgeRsy : Byte := 0x20
def dgePh : Byte := 0xC0

/-! ### The wire byte of one player, active low -/

def iwTrig : Byte := 0x80
def iwDiff : Byte := 0x40
def iwSel : Byte := 0x20
def iwRst : Byte := 0x10
def iwStick : Byte := 0x0F
def iwIdle : Byte := iwTrig ||| iwDiff ||| iwSel ||| iwRst ||| iwStick

/-! ### Records and the tick -/

def irLen : Byte := 8
def irSeed : Byte := 0xA5
def irMask : Byte := 0xF8
def wtInput : Byte := 0x06
def wtLeft : Byte := 0x0B

/-- The input delay, in ticks. -/
def dgD : Byte := 2

/-- The local ring's mask. -/
def dgLm : Byte := 3

/-- Ticks of input in every record. -/
def dgWin : Nat := 3

/-! ### Transport errors, in the low nibble of `dgErr` -/

def fneBad : Byte := 2
def fnePeer : Byte := 3

/-- The states of the network micro-step machine, in the order of its dispatch
table. -/
inductive NetState where
  | idle
  | wiss
  | wack
  | siss
  | sack
  | riss
  | rack
  | cons
  | fail
deriving Repr, DecidableEq

/-- The switchable banks. -/
inductive Bank where
  | boot
  | game
  | kern
deriving Repr, DecidableEq

/-- The console ports and switches read in one frame. -/
structure Ports where
  swcha : Byte
  swchb : Byte
  inpt4 : Byte
  inpt5 : Byte
deriving Repr, DecidableEq

/-- The cells the match code reads and writes, and the bank it runs in. -/
structure Console where
  dgEnt : Byte
  dgSeq : Byte
  dgErr : Byte
  dgTick : Byte
  dgNst : NetState
  dgCrcv : Byte
  dgAdv : Byte
  dgSwb : Byte
  dgTrig0 : Byte
  dgTrig1 : Byte
  dgRwat : Byte
  dgRing : Fin 8 → Byte
  dgLoc : Fin 4 → Byte
  dgRdn : Byte
  ram : Ram
  bank : Bank

/-- The remote ring's slot of a tick, `AND #7`. -/
def ringSlot (tick : Byte) : Fin 8 :=
  ⟨(tick &&& 7).toNat, Nat.lt_of_le_of_lt Nat.and_le_right (by decide)⟩

/-- The local ring's slot of a tick, `AND #DGLM`. -/
def localSlot (tick : Byte) : Fin 4 :=
  ⟨(tick &&& dgLm).toNat, Nat.lt_of_le_of_lt Nat.and_le_right (by decide)⟩

/-! ### The checksum -/

/-- One round, `ASL A / ADC cell`: rotate and add. -/
def crcRound (sum cell : Byte) : Byte :=
  (sum <<< 1) + cell + (if sum.msb then 1 else 0)

/-- The cells the checksum covers, in the order it visits them. -/
def crcCells : List Byte :=
  ((List.range 0x28).reverse.map fun x => rpm + BitVec.ofNat 8 x) ++
    ((List.range 0x06).reverse.map fun x => raceDone + BitVec.ofNat 8 x) ++
    [gameVar, frameCnt, lfsr, countdown]

def dgCrc (ram : Ram) : Byte :=
  crcCells.foldl (fun sum cell => crcRound sum (ram cell)) 0

/-! ### The clock and the phase -/

/-- `INC FrameCnt`, and at its wrap the stock attract counter behind it. -/
def countFrame (ram : Ram) : Ram :=
  let frames := ram frameCnt + 1
  let counted := Function.update ram frameCnt frames
  if frames ≠ 0 then counted
  else
    let idle := counted attract + 1
    -- `SEC / ROR` of a zero leaves only the carry, in bit 7.
    Function.update counted attract (if idle ≠ 0 then idle else 0x80)

namespace Console

/-- Some bit of the mask is set in `dgEnt`. -/
def has (console : Console) (mask : Byte) : Bool :=
  console.dgEnt &&& mask != 0

/-- The sim clock. -/
def dgClk (console : Console) : Console :=
  { console with ram := countFrame console.ram }

/-- Advance the frame-in-tick phase; the carry out of bit 7 is discarded. -/
def dgPhi (console : Console) : Console :=
  { console with dgEnt := console.dgEnt + 0x40 }

end Console

end DragsterNet
