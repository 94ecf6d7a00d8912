/-
Module: DragsterNet.Lib.Serial
Purpose: Serial numbers: an unbounded count kept as its low `w` bits, compared
  through the sign of a difference.
Trusted boundary: none
Main exports: Serial.ofInt_sub, Serial.sub_msb_iff, Serial.ofInt_inj,
  Serial.toNat_and_mask, Serial.slot_unique
-/
import Mathlib.Data.Int.ModEq
import Mathlib.Tactic.Ring
import Mathlib.Tactic.Linarith

namespace DragsterNet.Lib.Serial

variable {w : Nat}

theorem ofInt_sub (one two : Int) :
    BitVec.ofInt w (one - two) = BitVec.ofInt w one - BitVec.ofInt w two := by
  rw [sub_eq_add_neg, BitVec.ofInt_add, BitVec.ofInt_neg, BitVec.sub_eq_add_neg]

/-- Within half the range either way, the sign bit of a difference of serial
numbers is the order of the counts behind them. -/
theorem sub_msb_iff {one two : Int} (above : -2 ^ w ≤ one - two)
    (below : one - two < 2 ^ w) :
    (BitVec.ofInt (w + 1) one - BitVec.ofInt (w + 1) two).msb = true ↔
      one < two := by
  rw [← ofInt_sub, BitVec.msb_eq_toInt, BitVec.toInt_ofInt_eq_self (by omega)]
  · simp
  · simpa using above
  · simpa using below

/-- Serial numbers less than one lap apart are equal only for equal counts. -/
theorem ofInt_inj {one two : Int} (above : -2 ^ w < one - two)
    (below : one - two < 2 ^ w) :
    BitVec.ofInt w one = BitVec.ofInt w two ↔ one = two := by
  refine ⟨fun same => ?_, congrArg _⟩
  have zero : BitVec.ofInt w (one - two) = 0#w := by
    rw [ofInt_sub, same, BitVec.sub_self]
  have residue : (one - two) % 2 ^ w = 0 := by
    have toNat := congrArg BitVec.toNat zero
    rw [BitVec.toNat_ofInt] at toNat
    have nonneg : 0 ≤ (one - two) % ((2 ^ w : Nat) : Int) :=
      Int.emod_nonneg _ (by positivity)
    have cast : ((2 ^ w : Nat) : Int) = 2 ^ w := by push_cast; rfl
    rw [cast] at nonneg toNat
    simp only [BitVec.toNat_zero] at toNat
    omega
  have divides : (2 : Int) ^ w ∣ one - two := Int.dvd_of_emod_eq_zero residue
  have := Int.eq_zero_of_abs_lt_dvd divides (abs_lt.mpr ⟨above, below⟩)
  omega

/-- Masking a serial number with `2 ^ k - 1` leaves the count's residue. -/
theorem toNat_and_mask {k : Nat} (fits : k ≤ w) (count : Int) :
    (BitVec.ofInt w count).toNat % 2 ^ k = (count % 2 ^ k).toNat := by
  rw [BitVec.toNat_ofInt]
  have divides : ((2 ^ k : Nat) : Int) ∣ ((2 ^ w : Nat) : Int) :=
    Int.natCast_dvd_natCast.mpr (pow_dvd_pow 2 fits)
  have nonneg : 0 ≤ count % ((2 ^ w : Nat) : Int) :=
    Int.emod_nonneg _ (by positivity)
  have cast : ((2 ^ k : Nat) : Int) = 2 ^ k := by push_cast; rfl
  apply Int.ofNat_inj.mp
  rw [Int.natCast_emod, Int.toNat_of_nonneg nonneg,
    Int.emod_emod_of_dvd _ divides, cast,
    Int.toNat_of_nonneg (Int.emod_nonneg _ (by positivity))]

/-- Two counts in the same slot of a ring and less than one lap apart are the
same count. -/
theorem slot_unique {size : Nat} {one two : Int}
    (same : one % size = two % size) (above : -(size : Int) < one - two)
    (below : one - two < size) : one = two := by
  have divides : (size : Int) ∣ one - two :=
    Int.dvd_of_emod_eq_zero (Int.emod_eq_emod_iff_emod_sub_eq_zero.mp same)
  have := Int.eq_zero_of_abs_lt_dvd divides (abs_lt.mpr ⟨above, below⟩)
  omega

end DragsterNet.Lib.Serial
