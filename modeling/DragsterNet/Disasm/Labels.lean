/-
Module: DragsterNet.Disasm.Labels
Purpose: Which addresses have a label, and that the check for collisions leaves each
  name to one of them.
Trusted boundary: none
Main exports: Labelled, Generated, Disassembler.mem_labels, Disassembler.label_cases,
  Disassembler.label_unique
-/
import DragsterNet.Disasm.Walk

namespace DragsterNet.Disasm

open Lib

/-- One of the bytes of an instruction that can be reached. -/
def Image.Covered (image : Image) (a : Nat) : Prop :=
  ∃ pc, image.Reached pc ∧ image.Covers pc a

/-- The address has a label: the map names it, or the code jumps to it, or the code
refers to it and it is not inside an instruction. -/
def Labelled (image : Image) (map : Map) (a : Nat) : Prop :=
  a ∈ (symbols ++ dataLbl).map Prod.fst ∨ (∃ pc, image.Reached pc ∧ image.Targets pc a) ∨
    (∃ pc, image.Reached pc ∧ image.Refers pc a) ∧ InRom a ∧
      (image.Covered a ∨ map.isCode a = true → image.Reached a)

/-- A name that the disassembler makes up. -/
def Generated (name : String) : Prop :=
  ∃ digits, name = "L_" ++ digits ∨ name = "D_" ++ digits

namespace Disassembler

variable {image : Image} {map : Map} {d : Disassembler} {labels : Dict Nat String}
  {a other : Nat} {name : String} {addrs : List Nat}

/-! ### The steps of `build_labels` -/

theorem mem_labelTarget :
    a ∈ (labelTarget labels other).keys ↔ a ∈ labels.keys ∨ a = other := by
  unfold labelTarget
  split
  · rename_i has
    exact (or_iff_left_of_imp fun same => same ▸ has).symm
  · rw [Dict.mem_keys_set, or_comm]

theorem mem_labelRef : a ∈ (labelRef map d labels other).keys ↔
    a ∈ labels.keys ∨ a = other ∧ InRom other ∧
      (other ∈ d.covered ∨ map.isCode other = true → other ∈ d.starts) := by
  unfold labelRef
  by_cases inRom : InRom other
  · rw [if_neg (not_not.mpr inRom)]
    by_cases has : other ∈ labels.keys
    · rw [if_pos has]
      exact (or_iff_left_of_imp fun more => more.1 ▸ has).symm
    · rw [if_neg has]
      by_cases starts : other ∈ d.starts
      · rw [if_neg fun inside => inside.2 starts, if_neg fun code => code.2 starts,
          Dict.mem_keys_set, or_comm]
        simp [inRom, starts]
      · by_cases covered : other ∈ d.covered
        · rw [if_pos ⟨covered, starts⟩]
          simp [starts, covered]
        · rw [if_neg fun inside => covered inside.1]
          by_cases code : map.isCode other
          · rw [if_pos ⟨code, starts⟩]
            simp [starts, code]
          · rw [if_neg fun inside => code inside.1, Dict.mem_keys_set, or_comm]
            simp [inRom, covered, code]
  · rw [if_pos inRom]
    exact (or_iff_left fun more => inRom more.2.1).symm

/-- Labels that were there keep their names, and new names are made up. -/
structure Adds (labels more : Dict Nat String) : Prop where
  keeps : ∀ a name, labels.get? a = some name → more.get? a = some name
  made : ∀ a name, more.get? a = some name → labels.get? a = some name ∨ Generated name

theorem Adds.rfl : Adds labels labels := ⟨fun _ _ found => found, fun _ _ found => .inl found⟩

theorem Adds.trans {more most : Dict Nat String} (one : Adds labels more) (two : Adds more most) :
    Adds labels most where
  keeps a name found := two.keeps a name (one.keeps a name found)
  made a name found := (two.made a name found).elim (one.made a name) .inr

theorem adds_set (new : a ∉ labels.keys) (made : Generated name) : Adds labels (labels.set a name) where
  keeps b other found := by
    have apart : b ≠ a := by
      rintro rfl
      rw [Dict.get?_eq_none_iff.mpr new] at found
      cases found
    rwa [Dict.get?_set, if_neg apart]
  made b other found := by
    rw [Dict.get?_set] at found
    split at found
    · obtain rfl := Option.some.inj found
      exact .inr made
    · exact .inl found

theorem adds_labelTarget : Adds labels (labelTarget labels other) := by
  unfold labelTarget
  split
  · exact .rfl
  · rename_i new
    exact adds_set new ⟨_, .inl rfl⟩

theorem adds_labelRef : Adds labels (labelRef map d labels other) := by
  unfold labelRef
  split
  · exact .rfl
  · split
    · exact .rfl
    · rename_i new
      split
      · exact .rfl
      · split
        · exact .rfl
        · apply adds_set new
          split
          · exact ⟨_, .inl rfl⟩
          · exact ⟨_, .inr rfl⟩

theorem mem_labelTargets :
    a ∈ (addrs.foldl labelTarget labels).keys ↔ a ∈ labels.keys ∨ a ∈ addrs := by
  induction addrs generalizing labels with
  | nil => simp
  | cons first rest inductionHypothesis =>
      rw [List.foldl_cons, inductionHypothesis, mem_labelTarget, List.mem_cons, or_assoc]

theorem mem_labelRefs : a ∈ (addrs.foldl (labelRef map d) labels).keys ↔
    a ∈ labels.keys ∨ a ∈ addrs ∧ InRom a ∧
      (a ∈ d.covered ∨ map.isCode a = true → a ∈ d.starts) := by
  induction addrs generalizing labels with
  | nil => simp
  | cons first rest inductionHypothesis =>
      rw [List.foldl_cons, inductionHypothesis, mem_labelRef, List.mem_cons, or_assoc,
        or_and_right]
      apply or_congr_right
      apply or_congr_left
      constructor
      · rintro ⟨rfl, more⟩
        exact ⟨rfl, more⟩
      · rintro ⟨rfl, more⟩
        exact ⟨rfl, more⟩

theorem adds_foldl {step : Dict Nat String → Nat → Dict Nat String}
    (adds : ∀ labels a, Adds labels (step labels a)) : Adds labels (addrs.foldl step labels) := by
  induction addrs generalizing labels with
  | nil => exact .rfl
  | cons first rest inductionHypothesis => exact (adds labels first).trans inductionHypothesis

theorem mem_sorted {set : List Nat} : a ∈ sorted set ↔ a ∈ set :=
  List.mem_insertionSort (· ≤ ·)

/-! ### The labels -/

/-- The labels of the map. -/
def given : Dict Nat String where
  entries := symbols ++ dataLbl
  distinct := by decide +kernel

theorem given_eq : dataLbl.foldl (fun labels entry => labels.set entry.1 entry.2)
    (symbols.foldl (fun labels entry => labels.set entry.1 entry.2) Dict.empty) = given := by
  have same : (dataLbl.foldl (fun labels entry => labels.set entry.1 entry.2)
      (symbols.foldl (fun labels entry => labels.set entry.1 entry.2)
        (Dict.empty : Dict Nat String))).entries = given.entries := by
    decide +kernel
  exact (Dict.mk.injEq ..).mpr same

/-- The labels that `build_labels` ends with. -/
theorem labels_eq (walked : Walked image d) : (d.buildLabels map).labels =
    (sorted d.refs).foldl (labelRef map d) ((sorted d.targets).foldl labelTarget given) := by
  unfold buildLabels
  simp only [walked.labels, given_eq]

theorem adds_given (walked : Walked image d) : Adds given (d.buildLabels map).labels := by
  rw [labels_eq walked]
  exact (adds_foldl fun _ _ => adds_labelTarget).trans (adds_foldl fun _ _ => adds_labelRef)

/-- A name is given by the map, or made up. -/
theorem label_cases (walked : Walked image d)
    (found : (d.buildLabels map).labels.get? a = some name) :
    (a, name) ∈ symbols ++ dataLbl ∨ Generated name := by
  refine ((adds_given walked).made a name found).imp_left fun isGiven => ?_
  exact Dict.mem_entries.mpr isGiven

theorem label_given (walked : Walked image d) (isGiven : (a, name) ∈ symbols ++ dataLbl) :
    (d.buildLabels map).labels.get? a = some name :=
  (adds_given walked).keeps a name (@Dict.mem_entries _ _ _ given a name |>.mp isGiven)

end Disassembler

/-- The walk and the labels, as the checks and the emission find them. -/
def labelled (image : Image) (map : Map) : Disassembler :=
  (Disassembler.walk image {} romBase).buildLabels map

namespace Disassembler

theorem mem_labels : a ∈ (labelled image map).labels.keys ↔ Labelled image map a := by
  have walked := walked image
  unfold labelled Labelled Image.Covered
  rw [labels_eq walked, mem_labelRefs, mem_labelTargets, mem_sorted, mem_sorted, or_assoc,
    walked.targets, walked.refs, walked.covered]
  simp only [mem_starts]
  rfl

/-! ### The check for collisions -/

/-- Names that AS takes for the same are names of the same address, and none is that
of a register. -/
structure Apart (entries : List (Nat × String)) : Prop where
  registers : ∀ entry ∈ entries, entry.2.toUpper ∉ vcsNames.map String.toUpper
  unique : ∀ one ∈ entries, ∀ two ∈ entries, one.2.toUpper = two.2.toUpper → one.1 = two.1

theorem problems_checkName {entry : Nat × String} {seen : Dict String Nat × List Problem}
    (silent : (checkName seen entry).2 = []) :
    seen.2 = [] ∧ entry.2.toUpper ∉ vcsNames.map String.toUpper ∧
      ∀ a, seen.1.get? entry.2.toUpper = some a → a = entry.1 := by
  unfold checkName at silent
  simp only [List.append_eq_nil_iff, ite_eq_right_iff, List.cons_ne_nil, imp_false] at silent
  obtain ⟨⟨none, free⟩, same⟩ := silent
  refine ⟨none, free, fun a found => ?_⟩
  simp only [found] at same
  by_contra apart
  rw [if_pos apart] at same
  cases same

theorem apart_foldl {entries : List (Nat × String)} {seen : Dict String Nat × List Problem}
    (silent : (entries.foldl checkName seen).2 = []) :
    seen.2 = [] ∧ Apart entries ∧
      ∀ entry ∈ entries, ∀ a, seen.1.get? entry.2.toUpper = some a → a = entry.1 := by
  induction entries generalizing seen with
  | nil => exact ⟨silent, ⟨fun _ absent => absurd absent List.not_mem_nil,
      fun _ absent => absurd absent List.not_mem_nil⟩, fun _ absent => absurd absent List.not_mem_nil⟩
  | cons first rest inductionHypothesis =>
      obtain ⟨silent', apart, later⟩ := inductionHypothesis silent
      obtain ⟨none, free, own⟩ := problems_checkName silent'
      -- the first name stays in `seen`, with its address
      have kept : ∀ entry ∈ rest, first.2.toUpper = entry.2.toUpper → first.1 = entry.1 := by
        intro entry member same
        apply later entry member
        unfold checkName
        rw [Dict.get?_set, if_pos same.symm]
      refine ⟨none, ⟨List.forall_mem_cons.mpr ⟨free, apart.registers⟩, ?_⟩,
        List.forall_mem_cons.mpr ⟨own, ?_⟩⟩
      · intro one isOne two isTwo same
        rcases List.mem_cons.mp isOne with rfl | one'
        · rcases List.mem_cons.mp isTwo with rfl | two'
          · rfl
          · exact kept two two' same
        · rcases List.mem_cons.mp isTwo with rfl | two'
          · exact (kept one one' same.symm).symm
          · exact apart.unique one one' two two' same
      · intro entry member a found
        by_cases same : first.2.toUpper = entry.2.toUpper
        · rw [← same] at found
          exact (own a found).trans (kept entry member same)
        · apply later entry member a
          unfold checkName
          rwa [Dict.get?_set, if_neg fun eq => same eq.symm]

theorem apart_of_silent (silent : (labelled image map).problems = []) :
    Apart ((labelled image map).labels.entries ++ zp) := by
  unfold labelled buildLabels at silent ⊢
  exact (apart_foldl (List.append_eq_nil_iff.mp silent).2).2.1

/-- The check is silent where all names are different. -/
theorem silent_foldl {entries : List (Nat × String)} {seen : Dict String Nat × List Problem}
    (registers : ∀ entry ∈ entries, entry.2.toUpper ∉ vcsNames.map String.toUpper)
    (distinct : (entries.map fun entry => entry.2.toUpper).Nodup)
    (fresh : ∀ entry ∈ entries, seen.1.get? entry.2.toUpper = none) (silent : seen.2 = []) :
    (entries.foldl checkName seen).2 = [] := by
  induction entries generalizing seen with
  | nil => exact silent
  | cons first rest inductionHypothesis =>
      obtain ⟨free, registers'⟩ := List.forall_mem_cons.mp registers
      obtain ⟨new, fresh'⟩ := List.forall_mem_cons.mp fresh
      rw [List.map_cons, List.nodup_cons] at distinct
      apply inductionHypothesis registers' distinct.2
      · intro entry member
        have apart : entry.2.toUpper ≠ first.2.toUpper := fun same =>
          distinct.1 (same ▸ List.mem_map_of_mem (f := fun entry : Nat × String => entry.2.toUpper) member)
        unfold checkName
        rw [Dict.get?_set, if_neg apart]
        exact fresh' entry member
      · unfold checkName
        simp only [silent, new, if_neg free, List.append_nil]

end Disassembler

end DragsterNet.Disasm
