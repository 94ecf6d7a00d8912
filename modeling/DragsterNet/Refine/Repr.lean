/-
Module: DragsterNet.Refine.Repr
Purpose: The repr of a refused name: the C relay writes what Python does for as
  long as its buffer lasts.
Trusted boundary: none
Main exports: reprCost, Lasts, repr_agrees_iff, repr_cut
-/
import DragsterNet.Refine.Text

namespace DragsterNet.Refine

open Lib Relay

variable {quote byte : Byte} {written text name : Bytes}

/-- How many bytes the repr of one byte takes. -/
def reprCost (quote byte : Byte) : Nat :=
  if 0x80 ≤ byte then 3
  else if byte = quote ∨ byte = 0x5C ∨ byte = 0x09 ∨ byte = 0x0A ∨ byte = 0x0D then 2
  else if byte < 0x20 ∨ byte = 0x7F then 4
  else 1

theorem reprByte_length : (CRelay.reprByte quote byte).length = reprCost quote byte := by
  unfold CRelay.reprByte reprCost
  by_cases high : 0x80 ≤ byte
  · rw [if_pos high, if_pos high]
    rfl
  · rw [if_neg high, if_neg high]
    by_cases escaped : byte = quote ∨ byte = 0x5C
    · rw [if_pos escaped, if_pos (escaped.imp_right Or.inl)]
      rfl
    · rw [if_neg escaped]
      obtain ⟨notQuote, notSlash⟩ := not_or.mp escaped
      by_cases tab : byte = 0x09
      · rw [if_pos tab, if_pos (.inr (.inr (.inl tab)))]
        rfl
      · rw [if_neg tab]
        by_cases feed : byte = 0x0A
        · rw [if_pos feed, if_pos (.inr (.inr (.inr (.inl feed))))]
          rfl
        · rw [if_neg feed]
          by_cases back : byte = 0x0D
          · rw [if_pos back, if_pos (.inr (.inr (.inr (.inr back))))]
            rfl
          · have short : ¬ (byte = quote ∨ byte = 0x5C ∨ byte = 0x09 ∨ byte = 0x0A ∨
                byte = 0x0D) := by
              rintro (same | same | same | same | same)
              · exact notQuote same
              · exact notSlash same
              · exact tab same
              · exact feed same
              · exact back same
            rw [if_neg back, if_neg short]
            split <;> rfl

theorem reprCost_pos : 0 < reprCost quote byte := by
  unfold reprCost
  repeat' split
  all_goals decide

theorem flatMap_reprByte_length : (text.flatMap (CRelay.reprByte quote)).length =
    (text.map (reprCost quote)).sum := by
  rw [List.length_flatMap]
  exact congrArg List.sum (List.map_congr_left fun byte _ => reprByte_length)

/-- With its last byte left out, the name and the quote before it take less than
the 632 bytes at which the loop stops. -/
def Lasts (name : Bytes) : Prop :=
  1 + (name.dropLast.map (reprCost (CRelay.reprQuote name))).sum < 640 - 8

instance : Decidable (Lasts name) := inferInstanceAs (Decidable (_ < _))

theorem lasts_iff_untruncated : Lasts name ↔ Untruncated name := by
  unfold Lasts Untruncated
  rw [flatMap_reprByte_length]

/-- The loop drops what comes after its limit. -/
theorem reprLoop_cut (rest : text ≠ [])
    (full : 640 - 8 ≤ written.length + (text.dropLast.map (reprCost quote)).sum) :
    (CRelay.reprLoop quote written text).length <
      written.length + (text.flatMap (CRelay.reprByte quote)).length := by
  induction text generalizing written with
  | nil => exact absurd rfl rest
  | cons byte text inductionHypothesis =>
      rw [CRelay.reprLoop, List.flatMap_cons, List.length_append]
      have writes : 0 < (CRelay.reprByte quote byte).length := by
        rw [reprByte_length]
        exact reprCost_pos
      split
      · rename_i room
        cases text with
        | nil =>
            rw [List.dropLast_singleton, List.map_nil, List.sum_nil] at full
            exact absurd room (Nat.not_lt.mpr full)
        | cons next more =>
            have later : 640 - 8 ≤ (written ++ CRelay.reprByte quote byte).length +
                ((next :: more).dropLast.map (reprCost quote)).sum := by
              rw [List.dropLast_cons_cons, List.map_cons, List.sum_cons] at full
              rw [List.length_append, reprByte_length]
              omega
            have cut := inductionHypothesis (List.cons_ne_nil next more) later
            rw [List.length_append] at cut
            omega
      · omega

/-- `py_repr` gives what `repr` gives of the decoded name exactly if the name lasts
no longer than the buffer. -/
theorem repr_agrees_iff (name : Bytes) :
    CRelay.pyRepr name = reprText (decode name) ↔ Lasts name := by
  rw [decode_eq]
  constructor
  · intro agrees
    by_contra full
    have nonempty : name ≠ [] := by
      rintro rfl
      exact full (by decide)
    have cut := @reprLoop_cut (CRelay.reprQuote name) [CRelay.reprQuote name] name nonempty
      (Nat.not_lt.mp full)
    have lengths := congrArg List.length agrees
    rw [reprText_glyph, CRelay.pyRepr, List.length_append, List.length_append,
      List.length_append] at lengths
    omega
  · intro lasts
    exact pyRepr_glyph (lasts_iff_untruncated.mp lasts)

/-- A HELLO that a frame can carry, under a name of 159 control bytes; the last of
them is missing from the line. -/
theorem repr_cut : ∃ payload name : Bytes, payload.length ≤ 199 ∧ name.length ≤ 197 ∧
    CRelay.State.readHello payload = .error (.name name) ∧
      CRelay.pyRepr name ≠ reprText (decode name) :=
  ⟨proto :: tvNtsc :: List.replicate 159 0x01, List.replicate 159 0x01, by decide +kernel,
    by decide +kernel, by decide +kernel, by decide +kernel⟩

end DragsterNet.Refine
