/-
Module: DragsterNet.Console.Desk
Purpose: One console in a match from the hand-over on, with the history of what
  it captured, sampled, sent and ran.
Trusted boundary: none
Main exports: Desk, Desk.hook, Desk.step, Desk.spin, Desk.start
-/
import DragsterNet.Console.Transport

namespace DragsterNet

/-- A tick that ran: the two bytes it took from the rings, and what the mixer
left in the cells the game reads. -/
structure Ran where
  own : Byte
  peer : Byte
  joy0 : Byte
  joy1 : Byte
  trig0 : Byte
  trig1 : Byte
  swb : Byte
deriving Repr, DecidableEq

/-- A record as it was written, and the number of the tick it was written in:
the times the tick has been incremented since the hand-over, less one. -/
structure Sent where
  tick : Nat
  frame : List Byte
deriving Repr, DecidableEq

/-- `waiting` says that the console is in the step loop of its overscan wait.
`caps` and `crcs` hold the capture and the checksum of every boundary that
advanced the tick, `runs` every tick that ran, `writes` every record sent, all
in order. -/
structure Desk where
  console : Console
  waiting : Bool
  caps : List Byte
  crcs : List Byte
  writes : List Sent
  runs : List Ran

namespace Console

/-- This frame is a tick boundary of a match. -/
def atBoundary (console : Console) : Bool :=
  console.has dgeNet && !console.has dgePh

/-- This boundary advances the tick. -/
def advances (console : Console) : Bool :=
  console.atBoundary && console.has dgeRan

/-- The byte captured at a boundary that advances. -/
def capture (ports : Ports) (console : Console) : Byte :=
  (dgCap ports console.sample).1

/-- This boundary runs its tick. -/
def runsTick (ports : Ports) (console : Console) : Bool :=
  console.atBoundary && (console.dgNt1 ports).gateOpen

/-- The tick a boundary ran, from the console at the gate and after it. -/
def ran (gate after : Console) : Ran where
  own := gate.ownByte
  peer := gate.peerByte
  joy0 := after.ram joy0
  joy1 := after.ram joy1
  trig0 := after.dgTrig0
  trig1 := after.dgTrig1
  swb := after.dgSwb

end Console

namespace Desk

/-- Hand-over into a match. -/
def start (role seq : Byte) (ram : Ram) : Desk where
  console := Console.handOver role seq ram
  waiting := false
  caps := []
  crcs := []
  writes := []
  runs := []

/-- The console at the hook of a frame whose logic left `ram`. -/
def atHook (ram : Ram) (desk : Desk) : Console :=
  { desk.console with ram := ram }

/-- The frame reaches the hook: the shim runs, and in a match the step loop is
entered.  Once the boot bank has taken over there is no hook. -/
def hook (ports : Ports) (ram : Ram) (desk : Desk) : Option Desk :=
  if desk.waiting || desk.console.bank != .game then none
  else
    let before := desk.atHook ram
    let after := before.dgShim ports
    some
      { desk with
        console := after
        waiting := after.bank == .game && after.has dgeNet
        caps := if before.advances then desk.caps ++ [before.capture ports]
          else desk.caps
        crcs := if before.advances then desk.crcs ++ [dgCrc ram] else desk.crcs
        runs := if before.runsTick ports then
            desk.runs ++ [Console.ran (before.dgNt1 ports) after]
          else desk.runs }

/-- One micro-step, with whatever the cartridge shows at that moment. -/
def step (painted : Painted) (desk : Desk) : Option (Desk × Option Request) :=
  if desk.waiting then
    let (console, request) := desk.console.dgNstep painted
    let writes :=
      match request with
      | none => desk.writes
      | some request =>
          if request.command = ncWrite then
            -- The record follows the three bytes of the length parameter.
            desk.writes ++ [⟨desk.caps.length - 1, request.tx.drop 3⟩]
          else desk.writes
    some ({ desk with console := console, writes := writes }, request)
  else none

/-- The slack of this frame is gone. -/
def spin (desk : Desk) : Option Desk :=
  if desk.waiting then some { desk with waiting := false } else none

/-- What a console can do by itself, the mailbox showing anything at all. -/
inductive Act where
  | hook (ports : Ports) (ram : Ram)
  | step (painted : Painted)
  | spin

def next (desk : Desk) : Act → Option Desk
  | .hook ports ram => desk.hook ports ram
  | .step painted => (desk.step painted).map (·.1)
  | .spin => desk.spin

/-- The steps of one console. -/
def Step (before : Desk) (act : Act) (after : Desk) : Prop :=
  before.next act = some after

end Desk

end DragsterNet
