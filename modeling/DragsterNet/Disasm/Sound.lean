/-
Module: DragsterNet.Disasm.Sound
Purpose: What the checks of the disassembler leave open: whether the instructions it
  writes end in their regions, and whether the labels it writes are defined.
Trusted boundary: none
Main exports: Image.Names, advance, Printed, Uses, Sound
-/
import DragsterNet.Disasm.Labels

namespace DragsterNet.Disasm

open Lib Layout

variable (image : Image) (map : Map)

instance (pc : Nat) : Decidable (image.Reached pc) :=
  decidable_of_iff _ (@Disassembler.mem_starts image pc)

/-- The last address of the ROM up to `v` that has a label, if it is close enough. -/
structure Near (v a : Nat) : Prop where
  inRom : InRom a
  labelled : Labelled image map a
  below : a ≤ v
  close : v ≤ a + 16
  nearest : ∀ b, InRom b → Labelled image map b → b ≤ v → b ≤ a

/-- The operand of the instruction is written with the label of the address. -/
inductive Image.Names (pc : Nat) : Nat → Prop where
  | branch {mnem : Mnem} (found : image.decode pc = some (mnem, .rel)) : Names pc (image.branch pc)
  | biased {a : Nat} {mnem : Mnem} {mode : Mode} {base : String} {delta : Int}
      (found : image.decode pc = some (mnem, mode)) (refers : mode.refers = true)
      (declared : bias.lookup pc = some (base, delta)) (site : (a, base) ∈ dataLbl) : Names pc a
  | exact {mnem : Mnem} {mode : Mode} (found : image.decode pc = some (mnem, mode))
      (refers : mode.refers = true) (unbiased : bias.lookup pc = none)
      (register : riot.lookup (image.word (pc + 1)) = none)
      (labelled : Labelled image map (image.word (pc + 1))) : Names pc (image.word (pc + 1))
  | near {a : Nat} {mnem : Mnem} {mode : Mode} (found : image.decode pc = some (mnem, mode))
      (refers : mode.refers = true) (unbiased : bias.lookup pc = none)
      (register : riot.lookup (image.word (pc + 1)) = none)
      (unlabelled : ¬ Labelled image map (image.word (pc + 1)))
      (inRom : InRom (image.word (pc + 1))) (near : Near image map (image.word (pc + 1)) a) :
      Names pc a

/-- The region that is written as words. -/
def Region.Vectors (region : Region) : Prop :=
  region.kind = .data ∧ region.hi - region.lo = 6 ∧ region.lo = 0xF7FA

instance (region : Region) : Decidable region.Vectors := inferInstanceAs (Decidable (_ ∧ _ ∧ _))

/-- How many bytes are written at an address of the region. -/
def advance (region : Region) (pc : Nat) : Nat :=
  if region.kind = .code then
    if image.Reached pc then ((image.decode pc).map fun found => found.2.length).getD 1 else 1
  else if region.Vectors then 2
  else 1

/-- The address is written as one of its own: it is not in the middle of an
instruction or of a word. -/
def Printed (region : Region) (pc : Nat) : Prop :=
  Swept (advance image region) region.hi region.lo pc

/-- What is written at the address has the label of another one in it. -/
def Uses (region : Region) (pc a : Nat) : Prop :=
  region.kind = .code ∧ image.Reached pc ∧ image.Names map pc a ∨
    region.Vectors ∧ Labelled image map (image.word pc) ∧ a = image.word pc

/-- No instruction goes beyond the end of its region, and each label that is written
in an operand is that of an address that is printed. -/
structure Sound : Prop where
  ends : ∀ region ∈ map.regions, ∀ pc, Printed image region pc →
    pc + advance image region pc ≤ region.hi
  defined : ∀ region ∈ map.regions, ∀ pc, Printed image region pc → ∀ a,
    Uses image map region pc a → ∃ other ∈ map.regions, Printed image other a

variable {image map} {region : Region} {pc a : Nat} {mnem : Mnem} {mode : Mode}

theorem Near.unique {v b : Nat} (one : Near image map v a) (two : Near image map v b) : a = b :=
  Nat.le_antisymm (two.nearest a one.inRom one.labelled one.below)
    (one.nearest b two.inRom two.labelled two.below)

/-- What an operand of two bytes names where no bias is declared. -/
theorem names_iff (found : image.decode pc = some (mnem, mode)) (refers : mode.refers = true)
    (unbiased : bias.lookup pc = none) : image.Names map pc a ↔
      riot.lookup (image.word (pc + 1)) = none ∧
        (Labelled image map (image.word (pc + 1)) ∧ a = image.word (pc + 1) ∨
          ¬ Labelled image map (image.word (pc + 1)) ∧ InRom (image.word (pc + 1)) ∧
            Near image map (image.word (pc + 1)) a) := by
  constructor
  · intro names
    cases names with
    | branch found' =>
        rw [found] at found'
        obtain rfl := congrArg Prod.snd (Option.some.inj found')
        cases refers
    | biased _ _ declared _ =>
        rw [unbiased] at declared
        cases declared
    | exact _ _ _ register labelled => exact ⟨register, .inl ⟨labelled, rfl⟩⟩
    | near _ _ _ register unlabelled inRom near =>
        exact ⟨register, .inr ⟨unlabelled, inRom, near⟩⟩
  · rintro ⟨register, ⟨labelled, rfl⟩ | ⟨unlabelled, inRom, near⟩⟩
    · exact .exact found refers unbiased register labelled
    · exact .near found refers unbiased register unlabelled inRom near

theorem advance_pos : 0 < advance image region pc := by
  unfold advance
  repeat' split
  · cases image.decode pc with
    | none => exact Nat.one_pos
    | some found =>
        obtain ⟨mnem, mode⟩ := found
        cases mode <;> exact Nat.succ_pos _
  all_goals exact Nat.succ_pos _

end DragsterNet.Disasm
