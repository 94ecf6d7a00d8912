/-
Module: DragsterNet.Disasm.Walk
Purpose: What the descent finds: the instructions that can be reached from the
  reset, their bytes, and the addresses they name.
Trusted boundary: none
Main exports: Image.decode, Image.flow, Image.Reached, Disassembler.Walked,
  walked
-/
import DragsterNet.Lib.Descent
import DragsterNet.Disasm.Program

namespace DragsterNet.Disasm

open Lib

namespace Image

variable (image : Image)

/-- The instruction at an address, if there is one and it ends in the ROM. -/
def decode (pc : Nat) : Option (Mnem × Mode) :=
  if InRom pc then (ops (image.byte pc)).filter fun found => pc + found.2.length ≤ romEnd
  else none

/-- An instruction stands at the address. -/
def Enters (pc : Nat) : Prop := (image.decode pc).isSome

instance (pc : Nat) : Decidable (image.Enters pc) := inferInstanceAs (Decidable (_ = true))

/-- Where control may go from an instruction. -/
def flow (pc : Nat) : List Nat :=
  match image.decode pc with
  | none => []
  | some (_, mode) =>
      if mode = .rel then [pc + mode.length, image.branch pc]
      else if image.byte pc = 0x20 then [pc + mode.length, image.word (pc + 1)]
      else if image.byte pc = 0x4C then [image.word (pc + 1)]
      else if image.byte pc ∈ terminal then []
      else [pc + mode.length]

/-- Control may come to the instruction from the reset. -/
def Reached (pc : Nat) : Prop := Descent.Reach image.flow image.Enters romBase pc

/-- The address is one of a byte of the instruction. -/
def Covers (pc a : Nat) : Prop :=
  ∃ found ∈ image.decode pc, pc ≤ a ∧ a < pc + found.2.length

/-- The instruction jumps or branches to the address. -/
def Targets (pc a : Nat) : Prop :=
  ∃ found ∈ image.decode pc,
    if found.2 = .rel then a = image.branch pc
    else (image.byte pc = 0x20 ∨ image.byte pc = 0x4C) ∧ a = image.word (pc + 1)

/-- The instruction has the address as an operand of two bytes. -/
def Refers (pc a : Nat) : Prop :=
  ∃ found ∈ image.decode pc, found.2.refers = true ∧ a = image.word (pc + 1)

variable {image} {pc : Nat} {mnem : Mnem} {mode : Mode}

theorem decode_eq_some_iff : image.decode pc = some (mnem, mode) ↔
    InRom pc ∧ ops (image.byte pc) = some (mnem, mode) ∧ pc + mode.length ≤ romEnd := by
  unfold decode
  split
  · rename_i inRom
    rw [Option.filter_eq_some_iff, decide_eq_true_iff]
    exact (and_iff_right inRom).symm
  · rename_i outside
    simp [outside]

theorem length_flow_le : (image.flow pc).length ≤ 2 := by
  unfold flow
  repeat' split
  all_goals simp

theorem inRom_of_enters (enters : image.Enters pc) : InRom pc := by
  obtain ⟨⟨mnem, mode⟩, found⟩ := Option.isSome_iff_exists.mp enters
  exact (decode_eq_some_iff.mp found).1

theorem Reached.decode (reached : image.Reached pc) :
    ∃ mnem mode, image.decode pc = some (mnem, mode) := by
  obtain ⟨⟨mnem, mode⟩, found⟩ := Option.isSome_iff_exists.mp reached.enterable
  exact ⟨mnem, mode, found⟩

end Image

namespace Disassembler

variable {image : Image} {d : Disassembler} {pc a : Nat} {mnem : Mnem} {mode : Mode}

/-- What is noted of an instruction that is entered. -/
def enter (image : Image) (d : Disassembler) (pc : Nat) (mode : Mode) : Disassembler :=
  let d := d.start pc mode.length
  if mode = .rel then d.target (image.branch pc)
  else
    let d := if mode.refers then d.ref (image.word (pc + 1)) else d
    if image.byte pc = 0x20 ∨ image.byte pc = 0x4C then d.target (image.word (pc + 1)) else d

theorem visit_enter (found : image.decode pc = some (mnem, mode)) (new : pc ∉ d.starts) :
    visit image d pc = (d.enter image pc mode, image.flow pc) := by
  obtain ⟨inRom, isOp, ends⟩ := Image.decode_eq_some_iff.mp found
  unfold visit Image.flow enter
  rw [if_neg (not_or.mpr ⟨not_not.mpr inRom, new⟩)]
  simp only [isOp, found, if_neg (Nat.not_lt.mpr ends)]
  by_cases isRel : mode = .rel
  · simp only [if_pos isRel]
  · simp only [if_neg isRel]
    by_cases isJsr : image.byte pc = 0x20
    · rw [if_pos isJsr, if_pos isJsr, if_pos (Or.inl (b := image.byte pc = 0x4C) isJsr)]
    · rw [if_neg isJsr, if_neg isJsr]
      by_cases isJmp : image.byte pc = 0x4C
      · rw [if_pos isJmp, if_pos isJmp, if_pos (Or.inr (a := image.byte pc = 0x20) isJmp)]
      · rw [if_neg isJmp, if_neg isJmp, if_neg (not_or.mpr ⟨isJsr, isJmp⟩)]
        split <;> rfl

/-- What is not entered leaves a problem at most. -/
theorem visit_pass (old : image.Enters pc → pc ∈ d.starts) :
    ∃ more, visit image d pc = ({ d with problems := d.problems ++ more }, []) := by
  unfold visit
  split
  · exact ⟨[], by rw [List.append_nil]⟩
  · rename_i inside
    obtain ⟨inRom, new⟩ := not_or.mp inside
    have outside : image.decode pc = none :=
      Option.not_isSome_iff_eq_none.mp fun enters => new (old enters)
    cases isOp : ops (image.byte pc) with
    | none =>
        simp only [isOp]
        exact ⟨[_], rfl⟩
    | some found =>
        obtain ⟨mnem, mode⟩ := found
        have runs : romEnd < pc + mode.length := by
          by_contra ends
          have found := Image.decode_eq_some_iff.mpr
            ⟨not_not.mp inRom, isOp, Nat.not_lt.mp ends⟩
          rw [outside] at found
          cases found
        simp only [isOp, if_pos runs]
        exact ⟨[_], rfl⟩

/-! ### An instruction that is entered -/

theorem starts_enter (new : pc ∉ d.starts) : (d.enter image pc mode).starts = pc :: d.starts := by
  have inserted : (d.start pc mode.length).starts = pc :: d.starts := List.insert_of_not_mem new
  rw [← inserted]
  unfold enter
  repeat' split
  all_goals rfl

theorem labels_enter : (d.enter image pc mode).labels = d.labels := by
  unfold enter
  repeat' split
  all_goals rfl

theorem mem_covered {start n : Nat} {covered : List Nat} :
    a ∈ (List.range' start n).foldl (fun covered a => covered.insert a) covered ↔
      a ∈ covered ∨ start ≤ a ∧ a < start + n := by
  induction n generalizing start covered with
  | zero =>
      have none : ¬(start ≤ a ∧ a < start + 0) := by omega
      exact (or_iff_left none).symm
  | succ n inductionHypothesis =>
      rw [List.range'_succ, List.foldl_cons, inductionHypothesis, List.mem_insert_iff,
        or_comm (a := a = start), or_assoc]
      apply or_congr_right
      omega

theorem covered_enter : a ∈ (d.enter image pc mode).covered ↔
    a ∈ d.covered ∨ pc ≤ a ∧ a < pc + mode.length := by
  have same : (d.enter image pc mode).covered = (d.start pc mode.length).covered := by
    unfold enter
    repeat' split
    all_goals rfl
  rw [same]
  exact mem_covered

theorem targets_enter : a ∈ (d.enter image pc mode).targets ↔
    a ∈ d.targets ∨ if mode = .rel then a = image.branch pc
      else (image.byte pc = 0x20 ∨ image.byte pc = 0x4C) ∧ a = image.word (pc + 1) := by
  have kept : (if mode.refers then (d.start pc mode.length).ref (image.word (pc + 1))
      else d.start pc mode.length).targets = d.targets := by
    split <;> rfl
  unfold enter
  by_cases isRel : mode = .rel
  · rw [if_pos isRel, if_pos isRel, or_comm]
    exact List.mem_insert_iff
  · rw [if_neg isRel, if_neg isRel]
    by_cases jumps : image.byte pc = 0x20 ∨ image.byte pc = 0x4C
    · rw [if_pos jumps, and_iff_right jumps, or_comm, ← kept]
      exact List.mem_insert_iff
    · rw [if_neg jumps, or_iff_left fun jump => jumps jump.1, kept]

theorem refs_enter : a ∈ (d.enter image pc mode).refs ↔
    a ∈ d.refs ∨ mode.refers = true ∧ a = image.word (pc + 1) := by
  unfold enter
  by_cases isRel : mode = .rel
  · subst isRel
    rw [if_pos rfl]
    exact (or_iff_left fun refers => Bool.noConfusion refers.1).symm
  · rw [if_neg isRel]
    have kept : ∀ other : Disassembler,
        (if image.byte pc = 0x20 ∨ image.byte pc = 0x4C then other.target (image.word (pc + 1))
          else other).refs = other.refs := fun other => by
      split <;> rfl
    rw [kept]
    by_cases refers : mode.refers
    · rw [if_pos refers, and_iff_right refers, or_comm]
      exact List.mem_insert_iff
    · rw [if_neg refers]
      exact (or_iff_left fun one => refers one.1).symm

/-- The sets are those of the instructions that were entered. -/
structure Walked (image : Image) (d : Disassembler) : Prop where
  covered : ∀ a, a ∈ d.covered ↔ ∃ pc ∈ d.starts, image.Covers pc a
  targets : ∀ a, a ∈ d.targets ↔ ∃ pc ∈ d.starts, image.Targets pc a
  refs : ∀ a, a ∈ d.refs ↔ ∃ pc ∈ d.starts, image.Refers pc a
  labels : d.labels = Dict.empty

theorem walked_start : Walked image {} where
  covered a := by simp
  targets a := by simp
  refs a := by simp
  labels := rfl

theorem walked_enter (walked : Walked image d) (found : image.decode pc = some (mnem, mode))
    (new : pc ∉ d.starts) : Walked image (d.enter image pc mode) where
  covered a := by
    rw [covered_enter, walked.covered, starts_enter new, List.exists_mem_cons_iff, or_comm]
    simp [Image.Covers, found]
  targets a := by
    rw [targets_enter, walked.targets, starts_enter new, List.exists_mem_cons_iff, or_comm]
    simp [Image.Targets, found]
  refs a := by
    rw [refs_enter, walked.refs, starts_enter new, List.exists_mem_cons_iff, or_comm]
    simp [Image.Refers, found]
  labels := labels_enter.trans walked.labels

/-- The walk is the descent along the flow of control. -/
theorem walked_walkFrom {fuel : Nat} {pending : List Nat} (walked : Walked image d) :
    Walked image (walkFrom image fuel pending d) ∧
      (walkFrom image fuel pending d).starts =
        Descent.descend image.flow image.Enters fuel pending d.starts := by
  induction fuel generalizing pending d with
  | zero => exact ⟨walked, rfl⟩
  | succ fuel inductionHypothesis =>
      cases pending with
      | nil => exact ⟨walked, rfl⟩
      | cons pc pending =>
          by_cases new : image.Enters pc ∧ pc ∉ d.starts
          · obtain ⟨⟨mnem, mode⟩, found⟩ := Option.isSome_iff_exists.mp new.1
            have next := @inductionHypothesis _ (image.flow pc ++ pending)
              (walked_enter walked found new.2)
            rw [starts_enter new.2] at next
            rw [Descent.descend, if_pos new]
            unfold walkFrom
            rw [visit_enter found new.2]
            exact next
          · obtain ⟨more, passed⟩ := @visit_pass image d pc fun enters =>
              by_contra fun unseen => new ⟨enters, unseen⟩
            rw [Descent.descend, if_neg new]
            unfold walkFrom
            rw [passed]
            exact inductionHypothesis ⟨walked.covered, walked.targets, walked.refs, walked.labels⟩

theorem walked (image : Image) : Walked image (walk image {} romBase) :=
  (walked_walkFrom walked_start).1

/-- The walk starts the instructions that can be reached, and no others. -/
theorem mem_starts : pc ∈ (walk image {} romBase).starts ↔ image.Reached pc := by
  unfold walk
  rw [(walked_walkFrom walked_start).2]
  have all : ∀ one, image.Enters one → one ∈ List.range' romBase 2048 := by
    intro one enters
    obtain ⟨low, high⟩ := Image.inRom_of_enters enters
    rw [List.mem_range'_1]
    exact ⟨low, high⟩
  apply Descent.mem_descend (fun one => Image.length_flow_le) all
  rw [List.length_range']
  exact Nat.lt_succ_self _

end Disassembler

end DragsterNet.Disasm
