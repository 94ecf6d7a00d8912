/-
Module: DragsterNet.Console.Ticks
Purpose: Unwrapped ticks and the eight bits a console keeps of them: the slots
  of the two rings, the gate's signed comparison, and the byte that belongs to
  a tick.
Trusted boundary: none
Main exports: tickCell, ringSlot_tickCell, localSlot_tickCell, captureFor,
  captureFor_append, captured?
-/
import DragsterNet.Console.Facts
import DragsterNet.Lib.Serial

namespace DragsterNet

open Lib

/-- The low eight bits of an unwrapped tick. -/
def tickCell (tick : Int) : Byte :=
  BitVec.ofInt 8 tick

theorem tickCell_add (tick more : Int) :
    tickCell (tick + more) = tickCell tick + tickCell more :=
  BitVec.ofInt_add tick more

theorem tickCell_sub (tick less : Int) :
    tickCell (tick - less) = tickCell tick - tickCell less :=
  Serial.ofInt_sub tick less

theorem tickCell_succ (tick : Int) : tickCell tick + 1 = tickCell (tick + 1) :=
  (tickCell_add tick 1).symm

theorem tickCell_ahead (tick : Int) : tickCell tick + dgD = tickCell (tick + 2) :=
  (tickCell_add tick 2).symm

theorem tickCell_pred (tick : Int) : tickCell tick - 1 = tickCell (tick - 1) :=
  (tickCell_sub tick 1).symm

theorem tickCell_pred_pred (tick : Int) : tickCell tick - 2 = tickCell (tick - 2) :=
  (tickCell_sub tick 2).symm

/-- Within half the range, the sign of the difference is the order of the
ticks. -/
theorem tickCell_sub_msb {one two : Int} (above : -128 ≤ one - two)
    (below : one - two < 128) :
    (tickCell one - tickCell two).msb = decide (one < two) := by
  have order := Serial.sub_msb_iff  (by omega) (by omega : one - two < 2 ^ 7)
  rw [Bool.eq_iff_iff, decide_eq_true_iff]
  exact order

/-! ### Slots -/

theorem ringSlot_val (tick : Int) : (ringSlot (tickCell tick)).val = (tick % 8).toNat := by
  have masked := Serial.toNat_and_mask (show 3 ≤ 8 by decide) tick
  show (tickCell tick &&& 7).toNat = _
  rw [BitVec.toNat_and, show (7 : Byte).toNat = 2 ^ 3 - 1 from rfl,
    Nat.and_two_pow_sub_one_eq_mod]
  exact masked

theorem localSlot_val (tick : Int) :
    (localSlot (tickCell tick)).val = (tick % 4).toNat := by
  have masked := Serial.toNat_and_mask (show 2 ≤ 8 by decide) tick
  show (tickCell tick &&& dgLm).toNat = _
  rw [BitVec.toNat_and, show dgLm.toNat = 2 ^ 2 - 1 from rfl,
    Nat.and_two_pow_sub_one_eq_mod]
  exact masked

theorem ringSlot_tickCell (one two : Int) :
    ringSlot (tickCell one) = ringSlot (tickCell two) ↔ one % 8 = two % 8 := by
  rw [Fin.ext_iff, ringSlot_val, ringSlot_val]
  omega

theorem localSlot_tickCell (one two : Int) :
    localSlot (tickCell one) = localSlot (tickCell two) ↔ one % 4 = two % 4 := by
  rw [Fin.ext_iff, localSlot_val, localSlot_val]
  omega

/-! ### The byte of a tick -/

/-- The byte a console's captures give for a tick: the capture made at the
boundary `d` ticks before it, and the idle byte for the ticks below `d`. -/
def captureFor (caps : List Byte) (tick : Int) : Byte :=
  if tick < 2 then iwIdle else caps.getD (tick - 2).toNat iwIdle

/-- A new capture changes no tick that was captured before. -/
theorem captureFor_append (caps : List Byte) (byte : Byte) {tick : Int}
    (captured : tick ≤ caps.length + 1) :
    captureFor (caps ++ [byte]) tick = captureFor caps tick := by
  unfold captureFor
  split
  · rfl
  · rw [List.getD_eq_getElem?_getD, List.getD_eq_getElem?_getD,
      List.getElem?_append_left (by omega)]

theorem captureFor_newest (caps : List Byte) (byte : Byte) :
    captureFor (caps ++ [byte]) (caps.length + 2) = byte := by
  have notIdle : ¬ (caps.length : Int) + 2 < 2 := by omega
  have index : ((caps.length : Int) + 2 - 2).toNat = caps.length := by omega
  rw [captureFor, if_neg notIdle, index]
  simp

/-- The capture made for a tick, if its boundary has been. -/
def captured? (caps : List Byte) (tick : Nat) : Option Byte :=
  if tick < 2 then some iwIdle else caps[tick - 2]?

theorem captured?_eq {caps : List Byte} {tick : Nat} (captured : tick ≤ caps.length + 1) :
    captured? caps tick = some (captureFor caps tick) := by
  unfold captured? captureFor
  by_cases idle : tick < 2
  · rw [if_pos idle, if_pos (by omega)]
  · have index : ((tick : Int) - 2).toNat = tick - 2 := by omega
    rw [if_neg idle, if_neg (by omega), index, List.getD_eq_getElem?_getD,
      List.getElem?_eq_getElem (by omega)]
    rfl

end DragsterNet
