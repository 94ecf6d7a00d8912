/-
Module: DragsterNet.Disasm.Operands
Purpose: The operands that are written have the values that were read, for AS as for
  the disassembler, and AS chooses the modes that they were read in.
Trusted boundary: none
Main exports: fixed, Means, Disassembler.operand_means, chosen_format
-/
import DragsterNet.Disasm.Assembler
import DragsterNet.Disasm.Sound

namespace DragsterNet.Disasm

open Lib Layout

/-! ### Symbols -/

section Values

variable {known : Table String} {name : String} {value : Nat}

theorem value?_of_mem (distinct : (known.map fun entry => entry.1.toUpper).Nodup)
    (member : (name, value) ∈ known) : value? known name = some value := by
  unfold value?
  cases found : known.find? fun entry => entry.1.toUpper = name.toUpper with
  | none => exact absurd (List.find?_eq_none.mp found _ member) (by simp)
  | some entry =>
      have same := List.inj_on_of_nodup_map distinct (List.mem_of_find?_eq_some found) member
        (of_decide_eq_true (List.find?_some found :))
      rw [Option.map_some, same]

theorem value?_eq_none (apart : ∀ entry ∈ known, entry.1.toUpper ≠ name.toUpper) :
    value? known name = none := by
  unfold value?
  rw [Option.map_eq_none_iff, List.find?_eq_none]
  intro entry member
  simpa using apart entry member

end Values

/-- The names of the registers and of the zero page. -/
def fixed : Table String := vcsInc ++ zp.map fun entry => (entry.2, entry.1)

/-- The names of the registers, the cells, the code and the tables are different. -/
theorem names_distinct :
    ((fixed.map Prod.fst ++ (symbols ++ dataLbl).map Prod.snd).map String.toUpper).Nodup := by
  -- compared as numbers, which is quicker
  apply List.Nodup.of_map fun name => name.toList.map Char.toNat
  rw [List.map_map]
  have same : (fun name => name.toList.map Char.toNat) ∘ String.toUpper =
      fun name => name.toList.map fun char => char.toUpper.toNat := by
    funext name
    rw [Function.comp_apply, String.toUpper, String.toList_map, List.map_map]
    rfl
  rw [same]
  decide +kernel

theorem fixed_distinct : (fixed.map fun entry => entry.1.toUpper).Nodup := by
  have names := names_distinct
  rw [List.map_append, List.nodup_append', List.map_map] at names
  exact names.1

theorem tiaW_fixed : ∀ v ≤ 0x2C, (tiaW.getD v "", v) ∈ fixed := by
  decide +kernel

theorem tiaR_fixed : ∀ v ≤ 0x0D, (tiaR.getD v "", v) ∈ fixed := by
  decide +kernel

theorem riot_fixed : ∀ entry ∈ riot, (entry.2, entry.1) ∈ fixed ∧ 256 ≤ entry.1 := by
  decide +kernel

theorem zp_fixed : ∀ entry ∈ zp, (entry.2, entry.1) ∈ fixed := fun _ member =>
  List.mem_append_right _ (List.mem_map_of_mem member)

/-- The first two letters, as AS reads them. -/
def initials (name : String) : List Char := (name.toList.map Char.toUpper).take 2

theorem initials_eq {name other : String} (same : name.toUpper = other.toUpper) :
    initials name = initials other := by
  have letters : name.toList.map Char.toUpper = other.toList.map Char.toUpper := by
    rw [← String.toList_map, ← String.toList_map]
    exact congrArg String.toList same
  rw [initials, letters, initials]

/-- A name of `vcs.inc` is one of those that the check looks for, or one of the four
for the joystick, which it does not know. -/
theorem vcsInc_cases : ∀ entry ∈ vcsInc, entry.1 ∈ vcsNames ∨ initials entry.1 = ['J', '0'] := by
  decide +kernel

theorem given_apart : ∀ entry ∈ symbols ++ dataLbl,
    initials entry.2 ≠ ['J', '0'] ∧ romBase ≤ entry.1 := by
  decide +kernel

theorem fixed_initials : ∀ entry ∈ fixed,
    initials entry.1 ≠ ['L', '_'] ∧ initials entry.1 ≠ ['D', '_'] := by
  decide +kernel

theorem zp_low : ∀ entry ∈ zp, entry.1 < romBase := by
  decide +kernel

theorem Generated.initials {name : String} (made : Generated name) :
    Disasm.initials name = ['L', '_'] ∨ Disasm.initials name = ['D', '_'] := by
  obtain ⟨digits, rfl | rfl⟩ := made
  · left
    rw [Disasm.initials, String.toList_append, List.map_append]
    rfl
  · right
    rw [Disasm.initials, String.toList_append, List.map_append]
    rfl

section Labels

variable {image : Image} {map : Map} {a other : Nat} {name name' : String}

/-- No label is taken for a register or a cell. -/
theorem label_apart (silent : (labelled image map).problems = [])
    (found : (labelled image map).labels.get? a = some name) :
    ∀ entry ∈ fixed, entry.1.toUpper ≠ name.toUpper := by
  have apart := Disassembler.apart_of_silent silent
  have member : (a, name) ∈ (labelled image map).labels.entries ++ zp :=
    List.mem_append_left _ (Dict.mem_entries.mpr found)
  intro entry isFixed same
  rcases Disassembler.label_cases (Disassembler.walked image) found with isGiven | made
  · rcases List.mem_append.mp isFixed with isVcs | isZp
    · rcases vcsInc_cases entry isVcs with known | unknown
      · exact apart.registers _ member (same ▸ List.mem_map_of_mem known)
      · exact (given_apart _ isGiven).1 ((initials_eq same).symm.trans unknown)
    · obtain ⟨cell, isCell, rfl⟩ := List.mem_map.mp isZp
      have address := apart.unique _ member _ (List.mem_append_right _ isCell) same.symm
      have low := zp_low cell isCell
      have high := (given_apart _ isGiven).2
      simp only at address high
      omega
  · have free := fixed_initials entry isFixed
    rw [initials_eq same] at free
    exact made.initials.elim free.1 free.2

theorem label_unique (silent : (labelled image map).problems = [])
    (found : (labelled image map).labels.get? a = some name)
    (found' : (labelled image map).labels.get? other = some name')
    (same : name.toUpper = name'.toUpper) : a = other :=
  (Disassembler.apart_of_silent silent).unique _
    (List.mem_append_left _ (Dict.mem_entries.mpr found)) _
    (List.mem_append_left _ (Dict.mem_entries.mpr found')) same

end Labels

/-! ### The nearest label -/

section Nearest

variable {addr base : Nat} {keys : List Nat} {table : List (Nat × String)} {expr : Expr}

theorem takeWhile_eq_filter (ascending : keys.Pairwise (· ≤ ·)) :
    keys.takeWhile (· ≤ addr) = keys.filter (· ≤ addr) := by
  induction keys with
  | nil => rfl
  | cons key rest inductionHypothesis =>
      obtain ⟨first, later⟩ := List.pairwise_cons.mp ascending
      by_cases low : key ≤ addr
      · rw [List.takeWhile_cons, List.filter_cons, inductionHypothesis later]
        simp only [low, decide_true, if_true]
      · have none : (key :: rest).filter (· ≤ addr) = [] := by
          apply List.filter_eq_nil_iff.mpr
          intro other member
          have above : key ≤ other := (List.mem_cons.mp member).elim (fun same => same.ge) (first other)
          simp only [decide_eq_true_eq]
          omega
        rw [none, List.takeWhile_cons]
        simp only [low, decide_false, Bool.false_eq_true, if_false]

theorem getLast?_eq_some_iff (ascending : keys.Pairwise (· ≤ ·)) :
    keys.getLast? = some base ↔ base ∈ keys ∧ ∀ key ∈ keys, key ≤ base := by
  rcases List.eq_nil_or_concat keys with rfl | ⟨front, last, rfl⟩
  · simp
  · rw [List.concat_eq_append] at ascending ⊢
    rw [List.getLast?_concat, Option.some.injEq]
    have most : ∀ key ∈ front ++ [last], key ≤ last := by
      intro key member
      rcases List.mem_append.mp member with before | own
      · exact (List.pairwise_append.mp ascending).2.2 key before last (List.mem_singleton.mpr rfl)
      · exact (List.mem_singleton.mp own).le
    have has : last ∈ front ++ [last] := List.mem_append_right _ (List.mem_singleton.mpr rfl)
    constructor
    · rintro rfl
      exact ⟨has, most⟩
    · rintro ⟨member, greatest⟩
      exact Nat.le_antisymm (greatest last has) (most base member)

/-- The last key up to an address. -/
def Nearest (table : List (Nat × String)) (addr base : Nat) : Prop :=
  base ∈ table.map Prod.fst ∧ base ≤ addr ∧ ∀ key ∈ table.map Prod.fst, key ≤ addr → key ≤ base

theorem nearest_iff : ((sorted (table.map Prod.fst)).takeWhile (· ≤ addr)).getLast? = some base ↔
    Nearest table addr base := by
  have ascending : (sorted (table.map Prod.fst)).Pairwise (· ≤ ·) :=
    List.pairwise_insertionSort (· ≤ ·) _
  rw [takeWhile_eq_filter ascending, getLast?_eq_some_iff (ascending.filter _)]
  unfold Nearest
  simp only [List.mem_filter, decide_eq_true_eq, Disassembler.mem_sorted, and_imp, and_assoc]

theorem based_of_nearest (nearest : Nearest table addr base) {name : String}
    (named : table.lookup base = some name) : based addr table =
      if addr = base then some (.symbol name)
      else if 16 < addr - base then none else some (.offset name ↑(addr - base)) := by
  have next : ((sorted (table.map Prod.fst)).find? (base < ·)).any (· ≤ addr) = false := by
    cases found : (sorted (table.map Prod.fst)).find? (base < ·) with
    | none => rfl
    | some key =>
        have above : base < key := of_decide_eq_true (List.find?_some found :)
        have member := Disassembler.mem_sorted.mp (List.mem_of_find?_eq_some found)
        have beyond := nearest.2.2 key member
        rw [Option.any_some, decide_eq_false_iff_not]
        omega
  unfold based
  simp only [nearest_iff.mpr nearest, named, next, Bool.false_eq_true, if_false]

/-- What `_based` finds. -/
theorem based_eq_some (found : based addr table = some expr) :
    ∃ base name, Nearest table addr base ∧ table.lookup base = some name ∧ addr ≤ base + 16 ∧
      expr = if addr = base then .symbol name else .offset name ↑(addr - base) := by
  cases isBase : ((sorted (table.map Prod.fst)).takeWhile (· ≤ addr)).getLast? with
  | none =>
      unfold based at found
      simp only [isBase] at found
      cases found
  | some base =>
      have nearest := nearest_iff.mp isBase
      cases named : table.lookup base with
      | none =>
          unfold based at found
          simp only [isBase, named] at found
          cases found
      | some name =>
          rw [based_of_nearest nearest named] at found
          have below := nearest.2.1
          refine ⟨base, name, nearest, named, ?_, ?_⟩
          · split at found
            · omega
            · split at found
              · cases found
              · omega
          · split at found
            · rename_i same
              rw [if_pos same]
              exact (Option.some.inj found).symm
            · rename_i apart
              rw [if_neg apart]
              split at found
              · cases found
              · exact (Option.some.inj found).symm

theorem based_eq_none (none : based addr table = none) (nearest : Nearest table addr base) :
    base + 16 < addr := by
  obtain ⟨name, named⟩ := Option.isSome_iff_exists.mp
    ((lookup_isSome_iff base table).mpr nearest.1)
  rw [based_of_nearest nearest named] at none
  split at none
  · cases none
  · split at none
    · rename_i far
      omega
    · cases none

end Nearest

/-! ### What an operand means -/

/-- The value of an expression, and the address whose label it names. -/
inductive Means (labels : Dict Nat String) : Expr → Option Nat → Int → Prop where
  | number (value : Nat) : Means labels (.number value) none value
  | fixed {name : String} {value : Nat} (member : (name, value) ∈ fixed) :
      Means labels (.symbol name) none value
  | fixedOffset {name : String} {value : Nat} (member : (name, value) ∈ fixed) (delta : Int)
      (near : -256 < delta) : Means labels (.offset name delta) none (value + delta)
  | label {a : Nat} {name : String} (found : labels.get? a = some name) :
      Means labels (.symbol name) (some a) a
  | labelOffset {a : Nat} {name : String} (found : labels.get? a = some name) (delta : Int)
      (near : -256 < delta) : Means labels (.offset name delta) (some a) (a + delta)

section Means

variable {image : Image} {map : Map} {labels : Dict Nat String} {expr : Expr} {site : Option Nat}
  {value : Int} {a v : Nat} {all : Table String}

/-- A table in which the fixed names and the label of the address have their values. -/
structure Resolves (labels : Dict Nat String) (all : Table String) (site : Option Nat) : Prop where
  distinct : (all.map fun entry => entry.1.toUpper).Nodup
  fixed : ∀ entry ∈ fixed, entry ∈ all
  label : ∀ a ∈ site, ∀ name, labels.get? a = some name → (name, a) ∈ all

theorem Means.value_all (means : Means labels expr site value)
    (resolves : Resolves labels all site) : expr.value all = some value := by
  cases means with
  | number => rfl
  | fixed member =>
      rw [Expr.value, value?_of_mem resolves.distinct (resolves.fixed _ member), Option.map_some]
  | fixedOffset member delta =>
      rw [Expr.value, value?_of_mem resolves.distinct (resolves.fixed _ member), Option.map_some]
  | label found =>
      rw [Expr.value, value?_of_mem resolves.distinct (resolves.label _ rfl _ found),
        Option.map_some]
  | labelOffset found delta =>
      rw [Expr.value, value?_of_mem resolves.distinct (resolves.label _ rfl _ found),
        Option.map_some]

theorem Means.value_fixed (means : Means labels expr none value) :
    expr.value Disasm.fixed = some value :=
  means.value_all ⟨fixed_distinct, fun _ member => member, fun _ absent => nomatch absent⟩

/-- A label is not known in front of the code. -/
theorem Means.value_label (silent : (labelled image map).problems = [])
    (means : Means (labelled image map).labels expr (some a) value) :
    expr.value Disasm.fixed = none := by
  cases means with
  | label found => rw [Expr.value, value?_eq_none (label_apart silent found), Option.map_none]
  | labelOffset found delta =>
      rw [Expr.value, value?_eq_none (label_apart silent found), Option.map_none]

/-! ### The operands that are written -/

theorem zpname_means {mnem : Mnem} : Means labels (Disassembler.zpname v mnem) none v := by
  unfold Disassembler.zpname
  split
  · rename_i write
    exact .fixed (tiaW_fixed v write.1)
  · split
    · rename_i read
      exact .fixed (tiaR_fixed v read.1)
    · split
      · rename_i expr found
        split at found
        · obtain ⟨base, name, nearest, named, -, rfl⟩ := based_eq_some found
          have member := zp_fixed _ (mem_of_lookup named)
          have below := nearest.2.1
          split
          · rename_i same
            subst same
            exact .fixed member
          · have value : (base : Int) + ((v - base : Nat) : Int) = v := by omega
            rw [← value]
            exact .fixedOffset member _ (by omega)
        · cases found
      · exact .number v

variable {d : Disassembler} {pc : Nat} {mnem : Mnem} {mode : Mode} {operand : Operand}

/-- What is written for an address of two bytes: with no label in it, it is marked as
long, or it is. -/
structure Renders (image : Image) (map : Map) (pc : Nat) (operand : Operand) (site : Option Nat) :
    Prop where
  means : Means (labelled image map).labels operand.expr site (image.word (pc + 1))
  long : site = none → operand.forced = true ∨ 256 ≤ image.word (pc + 1)
  names : ∀ a, site = some a ↔ image.Names map pc a

theorem labelled_iff : Labelled image map a ↔
    ∃ name, (labelled image map).labels.get? a = some name := by
  rw [← Disassembler.mem_labels, ← Dict.get?_isSome_iff, Option.isSome_iff_exists]

theorem unlabelled_iff : ¬ Labelled image map a ↔ (labelled image map).labels.get? a = none := by
  rw [← Disassembler.mem_labels, Dict.get?_eq_none_iff]

/-- The nearest label is looked for among those of the ROM. -/
theorem near_iff : Near image map v a ↔
    Nearest ((labelled image map).labels.entries.filter fun entry => InRom entry.1) v a ∧
      v ≤ a + 16 := by
  have keys : ∀ key, key ∈ ((labelled image map).labels.entries.filter
      fun entry => InRom entry.1).map Prod.fst ↔ InRom key ∧ Labelled image map key := by
    intro key
    rw [labelled_iff, List.mem_map]
    simp only [List.mem_filter, decide_eq_true_eq]
    constructor
    · rintro ⟨⟨_, name⟩, ⟨member, inRom⟩, rfl⟩
      exact ⟨inRom, name, Dict.mem_entries.mp member⟩
    · rintro ⟨inRom, name, found⟩
      exact ⟨(key, name), ⟨Dict.mem_entries.mpr found, inRom⟩, rfl⟩
  unfold Nearest
  simp only [keys]
  constructor
  · intro near
    exact ⟨⟨⟨near.inRom, near.labelled⟩, near.below, fun key has => near.nearest key has.1 has.2⟩,
      near.close⟩
  · rintro ⟨⟨⟨inRom, has⟩, below, nearest⟩, close⟩
    exact ⟨inRom, has, below, close, fun key inRom' has' => nearest key ⟨inRom', has'⟩⟩

/-- An address without a name of its own is written with the nearest label, or as a
number. -/
theorem unnamed_renders (labels : d.labels = (labelled image map).labels)
    (found : image.decode pc = some (mnem, mode)) (refers : mode.refers = true)
    (unbiased : bias.lookup pc = none) (register : riot.lookup (image.word (pc + 1)) = none)
    (unlabelled : ¬ Labelled image map (image.word (pc + 1))) :
    ∃ site, Renders image map pc (d.unnamed (image.word (pc + 1)) mnem) site := by
  have names : ∀ a, image.Names map pc a ↔
      InRom (image.word (pc + 1)) ∧ Near image map (image.word (pc + 1)) a := by
    intro a
    rw [names_iff found refers unbiased]
    simp [register, unlabelled]
  unfold Disassembler.unnamed
  rw [labels]
  split
  · rename_i expr isExpr
    split at isExpr
    · rename_i inRom
      obtain ⟨base, name, nearest, looked, close, rfl⟩ := based_eq_some isExpr
      have near := near_iff.mpr ⟨nearest, close⟩
      have named : (labelled image map).labels.get? base = some name :=
        Dict.mem_entries.mp (List.mem_filter.mp (mem_of_lookup looked)).1
      have apart : image.word (pc + 1) ≠ base := fun same => unlabelled (same ▸ near.labelled)
      have value : (base : Int) + ((image.word (pc + 1) - base : Nat) : Int) =
          image.word (pc + 1) := by
        have below := near.below
        omega
      refine ⟨some base, ?_, (nomatch ·), fun a => ?_⟩
      · rw [← value, if_neg apart]
        exact .labelOffset named _ (by omega)
      · rw [names, and_iff_right inRom, Option.some.injEq]
        exact ⟨fun same => same ▸ near, fun near' => near.unique near'⟩
    · cases isExpr
  · rename_i isNone
    have none : ∀ a, none = some a ↔ image.Names map pc a := by
      intro a
      rw [names]
      constructor
      · exact (nomatch ·)
      · rintro ⟨inRom, near⟩
        rw [if_pos inRom] at isNone
        have far := based_eq_none isNone (near_iff.mp near).1
        have close := near.close
        omega
    split
    · refine ⟨Option.none, ?_, fun _ => .inl rfl, none⟩
      split
      · exact zpname_means
      · exact .number _
    · rename_i big
      exact ⟨Option.none, .number _, fun _ => .inr (Nat.not_lt.mp big), none⟩

theorem absexpr_renders (labels : d.labels = (labelled image map).labels)
    (found : image.decode pc = some (mnem, mode)) (refers : mode.refers = true)
    (unbiased : bias.lookup pc = none) :
    ∃ site, Renders image map pc (d.absexpr (image.word (pc + 1)) mnem) site := by
  unfold Disassembler.absexpr
  rw [labels]
  cases register : riot.lookup (image.word (pc + 1)) with
  | some name =>
      have isFixed := riot_fixed _ (mem_of_lookup register)
      refine ⟨none, .fixed isFixed.1, fun _ => .inr isFixed.2, fun a => ?_⟩
      rw [names_iff found refers unbiased, register]
      simp
  | none =>
      cases named : (labelled image map).labels.get? (image.word (pc + 1)) with
      | some name =>
          have has := labelled_iff.mpr ⟨name, named⟩
          refine ⟨some _, .label named, (nomatch ·), fun a => ?_⟩
          rw [names_iff found refers unbiased]
          simp [register, has, eq_comm]
      | none =>
          exact unnamed_renders labels found refers unbiased register (unlabelled_iff.mpr named)

/-! ### The modes that AS chooses -/

/-- AS has the opcodes of the table, and its branches are those of the table. -/
theorem opcodes_encode : ∀ entry ∈ opcodes, encode entry.2.1 entry.2.2 = some entry.1 ∧
    (entry.2.1.branch?.isSome = true ↔ entry.2.2 = .rel) := by
  decide +kernel

theorem ops_encode {op : Nat} (isOp : ops op = some (mnem, mode)) : encode mnem mode = some op ∧
    (mnem.branch?.isSome = true ↔ mode = .rel) :=
  opcodes_encode _ (mem_of_lookup isOp)

/-- AS finds the mode again if it takes the operand for as short as it is. -/
theorem chosen_format {op : Nat} (isOp : ops op = some (mnem, mode))
    (short : mode.length = 2 → mode ≠ .rel → operand.Short fixed)
    (long : mode.length = 3 → ¬ operand.Short fixed) :
    mnem.chosen fixed (mode.format operand) = mode := by
  obtain ⟨encodes, branches⟩ := ops_encode isOp
  have has : (encode mnem mode).isSome = true := by rw [encodes, Option.isSome_some]
  unfold Mnem.chosen Mode.format Mnem.shorter
  cases mode with
  | imp | acc | imm | izx | izy | ind => rfl
  | rel => exact if_pos (branches.mpr rfl)
  | zp =>
      exact (if_neg fun branch => nomatch branches.mp branch).trans
        (if_pos ⟨has, short rfl (nomatch ·)⟩)
  | zpx | zpy => exact if_pos ⟨has, short rfl (nomatch ·)⟩
  | abs =>
      exact (if_neg fun branch => nomatch branches.mp branch).trans
        (if_neg fun both => long rfl both.2)
  | abx | aby => exact if_neg fun both => long rfl both.2

/-- The value of the operand that is read. -/
def Image.operandValue (image : Image) (pc : Nat) (mode : Mode) : Nat :=
  if mode = .rel then image.branch pc
  else if mode.length = 2 then image.byte (pc + 1)
  else image.word (pc + 1)

theorem byte_lt : image.byte a < 256 := (image _).isLt

theorem word_eq : image.word a = image.byte a + 256 * image.byte (a + 1) := by
  have low : image.byte a < 2 ^ 8 := byte_lt
  unfold Image.word
  rw [Nat.or_comm, ← Nat.shiftLeft_add_eq_or_of_lt low, Nat.shiftLeft_eq]
  omega

/-- The operand that is written for an instruction. -/
structure Written (image : Image) (map : Map) (pc : Nat) (mnem : Mnem) (mode : Mode)
    (operand : Operand) (site : Option Nat) : Prop where
  means : mode.length ≠ 1 →
    Means (labelled image map).labels operand.expr site (image.operandValue pc mode)
  chosen : mnem.chosen fixed (mode.format operand) = mode
  names : ∀ a, site = some a ↔ image.Names map pc a

/-- Only branches and operands of two bytes name a label. -/
theorem not_names (found : image.decode pc = some (mnem, mode)) (straight : mode ≠ .rel)
    (small : mode.refers = false) : ¬ image.Names map pc a := by
  intro names
  have same : ∀ {mnem' : Mnem} {mode' : Mode}, image.decode pc = some (mnem', mode') →
      mode' = mode := fun found' => congrArg Prod.snd (Option.some.inj (found'.symm.trans found))
  cases names with
  | branch found' => exact straight (same found').symm
  | biased found' refers | exact found' refers | near found' refers =>
      rw [same found', small] at refers
      cases refers

theorem Means.short (means : Means labels operand.expr none (v : Int)) (free : operand.forced = false)
    (low : v < 256) : operand.Short Disasm.fixed :=
  ⟨free, v, means.value_fixed, Int.natCast_nonneg v, by omega⟩

theorem Renders.not_short (silent : (labelled image map).problems = [])
    (renders : Renders image map pc operand site) : ¬ operand.Short fixed := by
  rintro ⟨free, value, isValue, -, low⟩
  cases site with
  | none =>
      rw [renders.means.value_fixed] at isValue
      obtain rfl := Option.some.inj isValue
      rcases renders.long rfl with forced | big
      · rw [free] at forced
        cases forced
      · omega
  | some a =>
      rw [renders.means.value_label silent] at isValue
      cases isValue

/-- Each bias is declared for the site of a table. -/
theorem bias_site : ∀ entry ∈ bias, -256 < entry.2.2 ∧
    (dataLbl.find? fun site => site.2 = entry.2.1).isSome := by
  decide +kernel

theorem dataLbl_distinct : (dataLbl.map Prod.snd).Nodup := by
  decide +kernel

theorem absname_renders (labels : d.labels = (labelled image map).labels)
    (found : image.decode pc = some (mnem, mode)) (refers : mode.refers = true)
    (rendered : d.absname pc (image.word (pc + 1)) mnem = (operand, [])) :
    ∃ site, Renders image map pc operand site := by
  unfold Disassembler.absname at rendered
  cases declared : bias.lookup pc with
  | none =>
      rw [declared] at rendered
      obtain rfl := congrArg Prod.fst rendered
      exact absexpr_renders labels found refers declared
  | some entry =>
      obtain ⟨base, delta⟩ := entry
      rw [declared] at rendered
      obtain ⟨near, isSite⟩ := bias_site _ (mem_of_lookup declared)
      obtain ⟨⟨a, base'⟩, isSite⟩ := Option.isSome_iff_exists.mp isSite
      have same : base' = base := of_decide_eq_true (List.find?_some isSite :)
      subst same
      have member := List.mem_of_find?_eq_some isSite
      simp only [isSite, Option.map_some, Option.getD_some] at rendered
      obtain rfl := congrArg Prod.fst rendered
      have value : (a : Int) + delta = image.word (pc + 1) := by
        have silent := congrArg Prod.snd rendered
        by_contra differs
        simp only [ne_eq, differs, not_false_eq_true, if_true] at silent
        cases silent
      refine ⟨some a, ?_, (nomatch ·), fun b => ?_⟩
      · rw [← value]
        exact .labelOffset (Disassembler.label_given (Disassembler.walked image)
          (List.mem_append_right _ member)) delta near
      · rw [Option.some.injEq]
        constructor
        · rintro rfl
          exact .biased found refers declared member
        · intro names
          cases names with
          | branch found' =>
              rw [found] at found'
              obtain rfl := congrArg Prod.snd (Option.some.inj found')
              cases refers
          | biased _ _ declared' site =>
              rw [declared] at declared'
              obtain ⟨rfl, -⟩ := Prod.mk.inj (Option.some.inj declared')
              exact congrArg Prod.fst
                (List.inj_on_of_nodup_map dataLbl_distinct member site rfl)
          | exact _ _ unbiased | near _ _ unbiased =>
              rw [declared] at unbiased
              cases unbiased

/-- An operand without a label. -/
theorem written_plain (found : image.decode pc = some (mnem, mode)) (straight : mode ≠ .rel)
    (small : mode.refers = false) (means : mode.length ≠ 1 →
      Means (labelled image map).labels operand.expr none (image.operandValue pc mode))
    (free : mode.length = 2 → operand.forced = false) :
    Written image map pc mnem mode operand none := by
  obtain ⟨-, isOp, -⟩ := Image.decode_eq_some_iff.mp found
  refine ⟨means, chosen_format isOp ?_ ?_, fun a => ?_⟩
  · intro two _
    apply (means (by omega)).short (free two)
    unfold Image.operandValue
    rw [if_neg straight, if_pos two]
    exact byte_lt
  · intro three
    cases mode <;> first | exact absurd three (by decide) | exact Bool.noConfusion small
  · exact iff_of_false (nomatch ·) (not_names found straight small)

/-- The operand of a branch is the label of where it goes. -/
theorem written_branch (reached : image.Reached pc) (found : image.decode pc = some (mnem, .rel)) :
    Written image map pc mnem .rel
      ⟨false, (((labelled image map).labels.get? (image.branch pc)).map .symbol).getD
        (.number (image.branch pc))⟩ (some (image.branch pc)) := by
  obtain ⟨-, isOp, -⟩ := Image.decode_eq_some_iff.mp found
  have jumps : image.Targets pc (image.branch pc) := ⟨_, found, rfl⟩
  have has : Labelled image map (image.branch pc) := .inr (.inl ⟨pc, reached, jumps⟩)
  obtain ⟨name, named⟩ := labelled_iff.mp has
  rw [named, Option.map_some, Option.getD_some]
  refine ⟨fun _ => .label named,
    chosen_format isOp (fun _ straight => absurd rfl straight) (nomatch ·), fun a => ?_⟩
  constructor
  · intro same
    obtain rfl := Option.some.inj same
    exact .branch found
  · intro names
    cases names with
    | branch => rfl
    | biased found' refers | exact found' refers | near found' refers =>
        rw [found] at found'
        obtain rfl := congrArg Prod.snd (Option.some.inj found')
        cases refers

theorem operand_written (silent : (labelled image map).problems = [])
    (labels : d.labels = (labelled image map).labels) (reached : image.Reached pc)
    (found : image.decode pc = some (mnem, mode))
    (rendered : d.operand image pc mnem mode = some (operand, [])) :
    ∃ site, Written image map pc mnem mode operand site := by
  obtain ⟨-, isOp, -⟩ := Image.decode_eq_some_iff.mp found
  unfold Disassembler.operand at rendered
  by_cases isImm : mode = .imm
  · subst isImm
    obtain rfl := congrArg Prod.fst (Option.some.inj rendered)
    exact ⟨none, written_plain found (nomatch ·) rfl (fun _ => .number _) fun _ => rfl⟩
  · rw [if_neg isImm] at rendered
    by_cases isRel : mode = .rel
    · subst isRel
      rw [if_pos rfl, labels] at rendered
      obtain rfl := congrArg Prod.fst (Option.some.inj rendered)
      exact ⟨_, written_branch reached found⟩
    · rw [if_neg isRel] at rendered
      by_cases two : mode.length = 2
      · rw [if_pos two] at rendered
        obtain rfl := congrArg Prod.fst (Option.some.inj rendered)
        have small : mode.refers = false := by cases mode <;> first | rfl | cases two
        refine ⟨none, written_plain found isRel small (fun _ => ?_) fun _ => rfl⟩
        unfold Image.operandValue
        rw [if_neg isRel, if_pos two]
        exact zpname_means
      · rw [if_neg two] at rendered
        split at rendered
        · cases rendered
        · have absolute := Option.some.inj rendered
          by_cases refers : mode.refers = true
          · obtain ⟨site, renders⟩ := absname_renders labels found refers absolute
            refine ⟨site, fun _ => ?_, chosen_format isOp (fun two' => absurd two' two)
              (fun _ => renders.not_short silent), renders.names⟩
            unfold Image.operandValue
            rw [if_neg isRel, if_neg two]
            exact renders.means
          · have one : mode.length = 1 := by
              cases mode <;> first | rfl | exact absurd rfl two | exact absurd rfl refers
            exact ⟨none, written_plain found isRel (Bool.eq_false_of_not_eq_true refers)
              (absurd one ·) fun two' => absurd two' two⟩

end Means

end DragsterNet.Disasm
