/-
Module: DragsterNet.Console.Checksum
Purpose: What the sim checksum tells apart: every difference in one cell, and an
  exchange of two cells unless the bits rotated out between them make up for it.
Trusted boundary: none
Main exports: Covered, crc_covers, spilled, Cancels, exchange_shows_iff
-/
import DragsterNet.Console.Cells
import DragsterNet.Lib.Rounds
import Mathlib.Tactic.Ring
import Mathlib.Tactic.LinearCombination

namespace DragsterNet

open Lib

variable {sum sum' : Byte} {ram ram' : Ram} {x y cell : Byte}

/-! ### The cells -/

/-- The physical condition of both cars but for the explosion's countdown, and the
four cells that decide what it means. -/
def Covered (cell : Byte) : Prop :=
  (0xA8 ≤ cell ∧ cell ≤ 0xCF) ∨ (0xD2 ≤ cell ∧ cell ≤ 0xD7) ∨
    cell = gameVar ∨ cell = frameCnt ∨ cell = lfsr ∨ cell = countdown

instance : DecidablePred Covered := fun cell =>
  inferInstanceAs (Decidable ((0xA8 ≤ cell ∧ cell ≤ 0xCF) ∨ (0xD2 ≤ cell ∧ cell ≤ 0xD7) ∨
    cell = gameVar ∨ cell = frameCnt ∨ cell = lfsr ∨ cell = countdown))

theorem mem_crcCells : cell ∈ crcCells ↔ Covered cell := by
  revert cell
  decide +kernel

theorem crcCells_nodup : crcCells.Nodup := by decide +kernel

/-! ### The rounds -/

/-- `ASL A`, with the bit shifted out added by the `ADC` that follows. -/
def rotated (sum : Byte) : Byte := (sum <<< 1) + (if sum.msb then 1 else 0)

theorem crcRound_eq (sum cell : Byte) : crcRound sum cell = rotated sum + cell := by
  unfold crcRound rotated
  ring

/-- Rotating back undoes it. -/
theorem rotated_injective : Function.Injective rotated := by
  have back : ∀ sum : Byte, (rotated sum >>> 1) + (rotated sum <<< 7) = sum := by decide +kernel
  intro one two same
  rw [← back one, ← back two, same]

theorem crcRound_rounds : Rounds crcRound where
  sum := by
    intro cell one two same
    simp only [crcRound_eq] at same
    exact rotated_injective (add_right_cancel same)
  cell := by
    intro sum one two same
    rw [crcRound_eq, crcRound_eq] at same
    exact add_left_cancel same

theorem dgCrc_eq_fold : dgCrc ram = Rounds.fold crcRound ram 0 crcCells := rfl

/-- States that differ in exactly one covered cell have different checksums, and
no other cell is covered. -/
theorem crc_covers (ram ram' : Ram) :
    ((∃! cell, Covered cell ∧ ram cell ≠ ram' cell) → dgCrc ram ≠ dgCrc ram') ∧
    ((∀ cell, Covered cell → ram cell = ram' cell) → dgCrc ram = dgCrc ram') := by
  rw [dgCrc_eq_fold, dgCrc_eq_fold]
  constructor
  · rintro ⟨cell, ⟨covered, differ⟩, only⟩
    apply crcRound_rounds.fold_ne_of_single crcCells_nodup (mem_crcCells.mpr covered) differ
    intro other member apart
    by_contra differ'
    exact apart (only other ⟨mem_crcCells.mp member, differ'⟩)
  · intro agree
    apply Rounds.fold_congr
    intro cell member
    exact agree cell (mem_crcCells.mp member)

/-! ### Two cells exchanged -/

/-- The bit that the next `ASL A` shifts out. -/
def top (sum : Byte) : Byte := if sum.msb then 1 else 0

/-- The bits shifted out while the sum goes through the values and one round
further, read as a binary number; of more than eight, the last eight. -/
def spilled : Byte → List Byte → Byte
  | sum, [] => top sum
  | sum, value :: rest => top sum * 2 ^ (rest.length + 1) + spilled (crcRound sum value) rest

theorem rotated_eq (sum : Byte) : rotated sum = 2 * sum + top sum := by
  have doubled : sum <<< 1 = 2 * sum := by
    rw [BitVec.shiftLeft_eq_mul_twoPow, mul_comm]
    rfl
  rw [rotated, top, doubled]

/-- Each round doubles the difference of two sums, but for the bits that are
shifted out. -/
theorem rotated_foldl_sub (values : List Byte) :
    rotated (values.foldl crcRound sum) - rotated (values.foldl crcRound sum') =
      2 ^ (values.length + 1) * (sum - sum') + (spilled sum values - spilled sum' values) := by
  induction values generalizing sum sum' with
  | nil =>
      rw [List.foldl_nil, List.foldl_nil, rotated_eq, rotated_eq, spilled, spilled,
        List.length_nil]
      ring
  | cons value rest inductionHypothesis =>
      rw [List.foldl_cons, List.foldl_cons, inductionHypothesis, crcRound_eq, crcRound_eq,
        spilled, spilled, List.length_cons, crcRound_eq, crcRound_eq, rotated_eq, rotated_eq]
      ring

/-- How many rounds come before the cell's. -/
def position (cell : Byte) : Nat := crcCells.idxOf cell

/-- The cells taken in before both. -/
def crcBefore (x y : Byte) : List Byte := crcCells.take (min (position x) (position y))

/-- The cells taken in between the two. -/
def crcBetween (x y : Byte) : List Byte :=
  (crcCells.take (max (position x) (position y))).drop (min (position x) (position y) + 1)

/-- The bits shifted out from the earlier of the two cells to the later one, with
`value` in the earlier one. -/
def crcSpilled (ram : Ram) (x y value : Byte) : Byte :=
  spilled (rotated (Rounds.fold crcRound ram 0 (crcBefore x y)) + value) ((crcBetween x y).map ram)

/-- The bits shifted out between the two cells in the one order and in the other
make up for what the distance does to the difference of their values. -/
def Cancels (ram : Ram) (x y : Byte) : Prop :=
  crcSpilled ram x y (ram x) - crcSpilled ram x y (ram y) =
    (2 ^ ((crcBetween x y).length + 1) - 1) * (ram y - ram x)

instance : Decidable (Cancels ram x y) := inferInstanceAs (Decidable (_ = _))

theorem crcBefore_comm : crcBefore x y = crcBefore y x := by
  rw [crcBefore, crcBefore, min_comm]

theorem crcBetween_comm : crcBetween x y = crcBetween y x := by
  rw [crcBetween, crcBetween, min_comm, max_comm]

theorem cancels_comm : Cancels ram x y ↔ Cancels ram y x := by
  unfold Cancels crcSpilled
  rw [crcBefore_comm, crcBetween_comm]
  constructor
  · intro cancels
    linear_combination -cancels
  · intro cancels
    linear_combination -cancels

theorem cancels_iff : Cancels ram x y ↔
    crcRound (Rounds.fold crcRound ram
        (crcRound (Rounds.fold crcRound ram 0 (crcBefore x y)) (ram y)) (crcBetween x y)) (ram x) =
      crcRound (Rounds.fold crcRound ram
        (crcRound (Rounds.fold crcRound ram 0 (crcBefore x y)) (ram x)) (crcBetween x y)) (ram y) := by
  have values : ∀ sum, Rounds.fold crcRound ram sum (crcBetween x y) =
      ((crcBetween x y).map ram).foldl crcRound sum := by
    intro sum
    rw [List.foldl_map]
    rfl
  rw [values, values, crcRound_eq, crcRound_eq, crcRound_eq, crcRound_eq]
  have difference := @rotated_foldl_sub
    (rotated (Rounds.fold crcRound ram 0 (crcBefore x y)) + ram x)
    (rotated (Rounds.fold crcRound ram 0 (crcBefore x y)) + ram y) ((crcBetween x y).map ram)
  rw [List.length_map] at difference
  unfold Cancels crcSpilled
  constructor
  · intro cancels
    linear_combination -difference - cancels
  · intro same
    linear_combination -difference - same

theorem crc_exchange_of_lt (coveredY : Covered y) (earlier : position x < position y) :
    dgCrc (exchange x y ram) = dgCrc ram ↔ Cancels ram x y := by
  have cut := cut_idxOf (mem_crcCells.mpr coveredY) earlier
  have isBefore : crcBefore x y = crcCells.take (position x) := by
    rw [crcBefore, min_eq_left (Nat.le_of_lt earlier)]
  have isBetween : crcBetween x y = (crcCells.take (position y)).drop (position x + 1) := by
    rw [crcBetween, min_eq_left (Nat.le_of_lt earlier), max_eq_right (Nat.le_of_lt earlier)]
  have distinct := crcCells_nodup
  rw [cancels_iff, isBefore, isBetween, dgCrc_eq_fold, dgCrc_eq_fold]
  rw [cut] at distinct
  have exchanged := @Rounds.fold_exchange _ _ _ _ ram 0 _ crcRound_rounds _ _ _ x y distinct
  rwa [← cut] at exchanged

theorem eq_zero_of_doubled {difference : Byte} {rounds : Nat}
    (doubled : difference = 2 ^ (rounds + 1) * difference) : difference = 0 := by
  have again : ∀ times, difference = (2 ^ (rounds + 1)) ^ times * difference := by
    intro times
    induction times with
    | zero => ring
    | succ times inductionHypothesis =>
        rw [pow_succ, mul_assoc, ← doubled]
        exact inductionHypothesis
  have out : ((2 : Byte) ^ (rounds + 1)) ^ 8 = 0 := by
    have eight : (2 : Byte) ^ 8 = 0 := by decide
    rw [pow_right_comm, eight, zero_pow (Nat.succ_ne_zero rounds)]
  rw [again 8, out, zero_mul]

/-- Where the same bits are shifted out in both orders, an exchange of different
values shows. -/
theorem not_cancels_of_spilled (differ : ram x ≠ ram y)
    (same : crcSpilled ram x y (ram x) = crcSpilled ram x y (ram y)) : ¬ Cancels ram x y := by
  unfold Cancels
  intro cancels
  rw [same, sub_self] at cancels
  have doubled : ram y - ram x = 2 ^ ((crcBetween x y).length + 1) * (ram y - ram x) := by
    linear_combination cancels
  exact differ (sub_eq_zero.mp (eq_zero_of_doubled doubled)).symm

end DragsterNet
