/-
Module: DragsterNet.Lib.Framing
Purpose: Taking whole frames off the front of a stream, and what more of the
  stream changes about it.
Trusted boundary: none
Main exports: Framing, Framing.split, Framing.split_append, Framing.split_cut,
  Framing.Reassembles, locate
-/
import Mathlib.Data.List.Basic

namespace DragsterNet.Lib

/-- A reader of one frame.  It takes a frame off the front of the stream as soon
as the frame is whole, and never for what comes behind it. -/
structure Framing (β φ : Type) where
  read : List β → Option (φ × List β)
  exact_ : ∀ {data body rest}, read data = some (body, rest) →
    ∃ used, used ≠ [] ∧ data = used ++ rest ∧ read used = some (body, [])
  stable : ∀ {data body rest} (more : List β), read data = some (body, rest) →
    read (data ++ more) = some (body, rest ++ more)

namespace Framing

variable {β φ : Type} (framing : Framing β φ) {data more rest used : List β} {body : φ}

theorem shrinks (read : framing.read data = some (body, rest)) : rest.length < data.length := by
  obtain ⟨used, some, rfl, -⟩ := framing.exact_ read
  rw [List.length_append]
  exact Nat.lt_add_of_pos_left (List.length_pos_iff.mpr some)

/-- The whole frames at the front of the stream, and what is left. -/
def split (data : List β) : List φ × List β :=
  match _read : framing.read data with
  | none => ([], data)
  | some (body, rest) =>
      (body :: (split rest).1, (split rest).2)
  termination_by data.length
  decreasing_by all_goals exact framing.shrinks _read

theorem split_none (stuck : framing.read data = none) : framing.split data = ([], data) := by
  rw [split]
  split
  · rfl
  · rename_i read
    rw [stuck] at read
    cases read

theorem split_some (read : framing.read data = some (body, rest)) :
    framing.split data = (body :: (framing.split rest).1, (framing.split rest).2) := by
  rw [split]
  split
  · rename_i stuck
    rw [stuck] at read
    cases read
  · rename_i read'
    rw [read] at read'
    obtain ⟨rfl, rfl⟩ := Prod.mk.inj (Option.some.inj read')
    rfl

/-- A stream either is stuck or has a frame at its front. -/
theorem induct_on {motive : List β → Prop}
    (stuck : ∀ data, framing.read data = none → motive data)
    (frame : ∀ data body rest, framing.read data = some (body, rest) → motive rest →
      motive data) (data : List β) : motive data := by
  induction size : data.length using Nat.strongRecOn generalizing data with
  | ind size inductionHypothesis =>
      cases read : framing.read data with
      | none => exact stuck data read
      | some taken =>
          obtain ⟨body, rest⟩ := taken
          exact frame data body rest read
            (inductionHypothesis rest.length (size ▸ framing.shrinks read) rest rfl)

/-- No frame is left in what is left. -/
theorem split_left (data : List β) : framing.read (framing.split data).2 = none := by
  induction data using framing.induct_on with
  | stuck data stuck =>
      rw [framing.split_none stuck]
      exact stuck
  | frame data body rest read inductionHypothesis =>
      rw [framing.split_some read]
      exact inductionHypothesis

/-- More of the stream is split behind what was left. -/
theorem split_append (data more : List β) :
    framing.split (data ++ more) =
      ((framing.split data).1 ++ (framing.split ((framing.split data).2 ++ more)).1,
        (framing.split ((framing.split data).2 ++ more)).2) := by
  induction data using framing.induct_on with
  | stuck data stuck =>
      rw [framing.split_none stuck]
      rfl
  | frame data body rest read inductionHypothesis =>
      rw [framing.split_some read, framing.split_some (framing.stable more read),
        inductionHypothesis]
      rfl

theorem split_nil : framing.split [] = ([], []) := by
  apply framing.split_none
  cases read : framing.read [] with
  | none => rfl
  | some taken =>
      obtain ⟨body, rest⟩ := taken
      exact absurd (framing.shrinks read) (Nat.not_lt_zero _)

/-- What is split off a stream is split off one end of it. -/
theorem split_cut {early late : List φ} {left : List β}
    (whole : framing.split data = (early ++ late, left)) :
    ∃ front back, data = front ++ back ∧ framing.split front = (early, []) ∧
      framing.split back = (late, left) := by
  induction early generalizing data with
  | nil => exact ⟨[], data, rfl, framing.split_nil, whole⟩
  | cons body early inductionHypothesis =>
      cases read : framing.read data with
      | none =>
          rw [framing.split_none read] at whole
          cases (Prod.mk.inj whole).1
      | some taken =>
          obtain ⟨first, rest⟩ := taken
          rw [framing.split_some read] at whole
          obtain ⟨bodies, isLeft⟩ := Prod.mk.inj whole
          obtain ⟨rfl, tail⟩ := List.cons.inj bodies
          obtain ⟨front, back, rfl, isFront, isBack⟩ :=
            inductionHypothesis (Prod.ext tail isLeft)
          obtain ⟨used, -, rfl, readUsed⟩ := framing.exact_ read
          refine ⟨used ++ front, back, (List.append_assoc ..).symm, ?_, isBack⟩
          have readFront := framing.stable front readUsed
          rw [framing.split_some readFront, List.nil_append, isFront]

/-- Frames that are used up to the last byte do not change what comes behind
them. -/
theorem split_front {early : List φ} (whole : framing.split data = (early, [])) :
    framing.split (data ++ more) =
      (early ++ (framing.split more).1, (framing.split more).2) := by
  rw [framing.split_append, whole]
  rfl

/-- As long as no frame is whole, a frame ends behind what there is. -/
theorem split_beyond {early : List φ} {front back : List β} (stuck : framing.read data = none)
    (whole : framing.split front = (early, [])) (some : early ≠ [])
    (same : data ++ more = front ++ back) :
    ∃ beyond, beyond ≠ [] ∧ front = data ++ beyond ∧ more = beyond ++ back := by
  rcases List.append_eq_append_iff.mp same with ⟨beyond, rfl, rfl⟩ | ⟨inside, rfl, -⟩
  · refine ⟨beyond, ?_, rfl, rfl⟩
    rintro rfl
    rw [List.append_nil, framing.split_none stuck] at whole
    exact some (Prod.mk.inj whole).1.symm
  · have early' := @split_front _ _ framing _ inside _ whole
    rw [framing.split_none stuck] at early'
    have nothing := (Prod.mk.inj early').1
    exact absurd (List.append_eq_nil_iff.mp nothing.symm).1 some

theorem split_of_nil (none_ : (framing.split data).1 = []) : framing.split data = ([], data) := by
  cases read : framing.read data with
  | none => exact framing.split_none read
  | some taken =>
      obtain ⟨body, rest⟩ := taken
      rw [framing.split_some read] at none_
      cases none_

/-- A frame that ends with the stream is not whole before. -/
theorem split_last {bodies : List φ} {last : φ} (some : more ≠ [])
    (whole : framing.split (data ++ more) = (bodies ++ [last], [])) :
    ∃ late, bodies = (framing.split data).1 ++ late ∧
      framing.split ((framing.split data).2 ++ more) = (late ++ [last], []) := by
  rw [framing.split_append] at whole
  obtain ⟨both, nothing⟩ := Prod.mk.inj whole
  rcases List.eq_nil_or_concat (framing.split ((framing.split data).2 ++ more)).1 with
    none_ | ⟨late, body, isLate⟩
  · rw [framing.split_of_nil none_] at nothing
    exact absurd (List.append_eq_nil_iff.mp nothing).2 some
  · rw [isLate, List.concat_eq_append, ← List.append_assoc] at both
    obtain ⟨isBodies, isLast⟩ := List.append_inj' both rfl
    obtain ⟨rfl, -⟩ := List.cons.inj isLast
    refine ⟨late, isBodies.symm, Prod.ext ?_ nothing⟩
    rw [isLate, List.concat_eq_append]

/-! ### Reassembly -/

/-- What has been taken off a stream so far and what is left of it go together:
the frames of the stream are those taken and then those of what is left. -/
def Reassembles (stream : List β) (taken : List φ) (left : List β) : Prop :=
  framing.split stream = (taken ++ (framing.split left).1, (framing.split left).2)

variable {framing} {stream left : List β} {taken : List φ}

theorem reassembles_nil : framing.Reassembles [] [] [] := rfl

/-- More of the stream goes behind what is left. -/
theorem Reassembles.receive (reassembles : framing.Reassembles stream taken left)
    (more : List β) : framing.Reassembles (stream ++ more) taken (left ++ more) := by
  unfold Reassembles at reassembles ⊢
  rw [framing.split_append stream, framing.split_append left, reassembles, List.append_assoc]

/-- A frame is taken off what is left. -/
theorem Reassembles.take (reassembles : framing.Reassembles stream taken left)
    (read : framing.read left = some (body, rest)) :
    framing.Reassembles stream (taken ++ [body]) rest := by
  unfold Reassembles at reassembles ⊢
  rw [reassembles, framing.split_some read, List.append_assoc]
  rfl

/-- With no whole frame left, the frames of the stream are those taken. -/
theorem Reassembles.stuck (reassembles : framing.Reassembles stream taken left)
    (read : framing.read left = none) : framing.split stream = (taken, left) := by
  unfold Reassembles at reassembles
  rw [reassembles, framing.split_none read, List.append_nil]

end Framing

/-- A place behind the start of a stream lies in one of its chunks, behind the
chunk's start. -/
theorem locate {β : Type} {chunks : List (List β)} {front back : List β} (some : front ≠ [])
    (same : chunks.flatten = front ++ back) :
    ∃ early before behind late, chunks = early ++ (before ++ behind) :: late ∧ before ≠ [] ∧
      front = early.flatten ++ before ∧ back = behind ++ late.flatten := by
  induction chunks generalizing front with
  | nil => exact absurd (List.append_eq_nil_iff.mp same.symm).1 some
  | cons chunk rest inductionHypothesis =>
      rw [List.flatten_cons] at same
      rcases List.append_eq_append_iff.mp same with ⟨beyond, rfl, same'⟩ | ⟨inside, rfl, same'⟩
      · by_cases exact_ : beyond = []
        · subst exact_
          rw [List.append_nil] at some
          refine ⟨[], chunk, [], rest, ?_, some, ?_, same'.symm⟩
          · rw [List.append_nil]
            rfl
          · rw [List.append_nil]
            rfl
        · obtain ⟨early, before, behind, late, rfl, some', rfl, rfl⟩ :=
            inductionHypothesis exact_ same'
          refine ⟨chunk :: early, before, behind, late, rfl, some', ?_, rfl⟩
          rw [List.flatten_cons, List.append_assoc]
      · exact ⟨[], front, inside, rest, rfl, some, rfl, same'⟩

end DragsterNet.Lib
