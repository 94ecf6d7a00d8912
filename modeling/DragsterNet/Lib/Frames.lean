/-
Module: DragsterNet.Lib.Frames
Purpose: A byte stream made of frames of one length, cut at frame boundaries.
Trusted boundary: none
Main exports: Frames.flatten_length, Frames.flatten_drop, Frames.flatten_getElem?
-/
import Mathlib.Data.List.Basic
import Mathlib.Tactic.Ring

namespace DragsterNet.Lib.Frames

variable {α : Type*} {size : Nat} {frames : List (List α)}

/-- Every frame has `size` elements. -/
def Sized (size : Nat) (frames : List (List α)) : Prop :=
  ∀ frame ∈ frames, frame.length = size

theorem flatten_length (sized : Sized size frames) :
    frames.flatten.length = size * frames.length := by
  induction frames with
  | nil => rfl
  | cons frame rest inductionHypothesis =>
      have tail := inductionHypothesis fun other member =>
        sized other (List.mem_cons_of_mem frame member)
      rw [List.flatten_cons, List.length_append, tail, sized frame List.mem_cons_self,
        List.length_cons]
      ring

theorem flatten_drop (sized : Sized size frames) (count : Nat) :
    frames.flatten.drop (size * count) = (frames.drop count).flatten := by
  induction frames generalizing count with
  | nil => simp
  | cons frame rest inductionHypothesis =>
      have tail := inductionHypothesis fun other member =>
        sized other (List.mem_cons_of_mem frame member)
      have length := sized frame List.mem_cons_self
      cases count with
      | zero => simp
      | succ count =>
          have split : size * (count + 1) = frame.length + size * count := by
            rw [length]
            ring
          rw [List.flatten_cons, split, List.drop_length_add_append, tail,
            List.drop_succ_cons]

/-- The element at an offset inside the frame of a given index. -/
theorem flatten_getElem? (sized : Sized size frames) (index : Nat) {offset : Nat}
    (inside : offset < size) :
    frames.flatten[size * index + offset]? =
      frames[index]?.bind fun frame => frame[offset]? := by
  have dropped : frames.flatten[size * index + offset]? =
      (frames.drop index).flatten[offset]? := by
    rw [← flatten_drop sized, List.getElem?_drop]
  rw [dropped]
  cases rest : frames.drop index with
  | nil =>
      have none : frames[index]? = none := by
        rw [List.getElem?_eq_none_iff]
        exact List.drop_eq_nil_iff.mp rest
      simp [none]
  | cons frame later =>
      have first : frames[index]? = some frame := by
        rw [← List.head?_drop, rest, List.head?_cons]
      have length : frame.length = size :=
        sized frame (List.mem_of_getElem? first)
      rw [first, List.flatten_cons, List.getElem?_append_left (by omega)]
      rfl

end DragsterNet.Lib.Frames
