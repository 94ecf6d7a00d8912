/-
Module: DragsterNet.Disasm.Bytes
Purpose: The items of the source are as long as what they were read from, whatever the
  labels are, and are assembled to it where the label they name is defined.
Trusted boundary: none
Main exports: Fits, Item.Good, steady, Image.text, code_op
-/
import DragsterNet.Disasm.Operands

namespace DragsterNet.Disasm

open Lib Layout

/-! ### Tables that begin with the fixed names -/

/-- The labels of the code lie behind the zero page. -/
def Fits (known : Table String) : Prop :=
  ∃ labels : Table String, known = fixed ++ labels ∧ ∀ entry ∈ labels, romBase ≤ entry.2

/-- No offset reaches from the ROM to the zero page. -/
def Expr.Good : Expr → Prop
  | .offset _ delta => -256 < delta
  | _ => True

def Item.Good : Item → Prop
  | .op _ argument => ∀ operand ∈ argument.operand?, operand.expr.Good
  | _ => True

section Steady

variable {known all : Table String} {operand : Operand} {expr : Expr} {value : Int} {name : String}
  {mnem : Mnem} {argument : Argument Operand} {item : Item} {mode : Mode} {loc : Nat}

theorem Fits.value?_cases (fits : Fits known) (name : String) : value? known name = value? fixed name ∨
    value? fixed name = none ∧ ∃ value, Disasm.value? known name = some value ∧ romBase ≤ value := by
  obtain ⟨labels, rfl, above⟩ := fits
  unfold Disasm.value?
  rw [List.find?_append]
  cases fixed.find? fun entry => entry.1.toUpper = name.toUpper with
  | some entry => exact .inl rfl
  | none =>
      cases found : labels.find? fun entry => entry.1.toUpper = name.toUpper with
      | none => exact .inl rfl
      | some entry => exact .inr ⟨rfl, entry.2, rfl, above entry (List.mem_of_find?_eq_some found)⟩

theorem Fits.value_cases (fits : Fits known) (good : expr.Good) : expr.value known = expr.value fixed ∨
    expr.value fixed = none ∧ ∃ value, expr.value known = some value ∧ 256 ≤ value := by
  cases expr with
  | number value => exact .inl rfl
  | symbol name =>
      simp only [Expr.value]
      rcases fits.value?_cases name with same | ⟨none, value, isValue, above⟩
      · exact .inl (by rw [same])
      · unfold romBase at above
        exact .inr ⟨by rw [none, Option.map_none], value, by rw [isValue, Option.map_some], by omega⟩
  | offset name delta =>
      have near : -256 < delta := good
      simp only [Expr.value]
      rcases fits.value?_cases name with same | ⟨none, value, isValue, above⟩
      · exact .inl (by rw [same])
      · unfold romBase at above
        exact .inr ⟨by rw [none, Option.map_none], value + delta,
          by rw [isValue, Option.map_some], by omega⟩

theorem Fits.short_iff (fits : Fits known) (good : operand.expr.Good) :
    operand.Short known ↔ operand.Short fixed := by
  unfold Operand.Short
  rcases fits.value_cases good with same | ⟨none, value, isValue, above⟩
  · rw [same]
  · rw [none, isValue]
    apply and_congr_right
    intro _
    constructor
    · rintro ⟨value', isValue', -, low⟩
      obtain rfl := Option.some.inj isValue'
      omega
    · rintro ⟨_, absent, -⟩
      cases absent

theorem Fits.chosen (fits : Fits known) (good : ∀ operand ∈ argument.operand?, operand.expr.Good) :
    mnem.chosen known argument = mnem.chosen fixed argument := by
  cases argument with
  | direct operand | directX operand | directY operand =>
      unfold Mnem.chosen Mnem.shorter
      simp only [fits.short_iff (good operand rfl)]
  | _ => rfl

theorem steady : Steady coding (Item.size fixed) (fun all => Item.code fixed all) Fits Item.Good where
  size known item fits good := by
    cases item with
    | op mnem argument => exact congrArg Mode.length (fits.chosen good)
    | db _ | dw _ => rfl
  code known all loc item fits good := by
    cases item with
    | op mnem argument =>
        unfold coding Item.code
        simp only [fits.chosen good]
    | db _ | dw _ => rfl

theorem wordBytes_length {bytes : List Nat} (isBytes : wordBytes value = some bytes) :
    bytes.length = 2 := by
  unfold wordBytes at isBytes
  split at isBytes
  · obtain rfl := Option.some.inj isBytes
    rfl
  · cases isBytes

theorem operandBytes_length {bytes : List Nat} (more : mode.length ≠ 1)
    (isBytes : operandBytes loc mode value = some bytes) : bytes.length + 1 = mode.length := by
  unfold operandBytes at isBytes
  by_cases isRel : mode = .rel
  · subst isRel
    simp only [if_true] at isBytes
    split at isBytes
    · obtain rfl := Option.some.inj isBytes
      rfl
    · cases isBytes
  · rw [if_neg isRel] at isBytes
    by_cases two : mode.length = 2
    · rw [if_pos two] at isBytes
      split at isBytes
      · obtain rfl := Option.some.inj isBytes
        exact two.symm
      · cases isBytes
    · rw [if_neg two] at isBytes
      rw [wordBytes_length isBytes]
      cases mode <;> first | rfl | exact absurd rfl two | exact absurd rfl more

theorem chosen_length : (mnem.chosen fixed argument).length = 1 ↔ argument.operand? = none := by
  unfold Mnem.chosen Mnem.shorter
  cases argument with
  | implied | accumulator => exact iff_of_true rfl rfl
  | immediate operand | indirect operand | indirectX operand | indirectY operand =>
      exact iff_of_false (nomatch ·) (nomatch ·)
  | direct operand | directX operand | directY operand =>
      apply iff_of_false _ (nomatch ·)
      dsimp only
      repeat' split
      all_goals exact (nomatch ·)

/-- As many bytes as the first pass counts. -/
theorem code_length {bytes : List Nat} (coded : Item.code fixed all loc item = some bytes) :
    bytes.length = Item.size fixed item := by
  cases item with
  | db bytes' =>
      obtain rfl := Option.some.inj coded
      rfl
  | dw expr =>
      obtain ⟨value, -, isBytes⟩ := Option.bind_eq_some_iff.mp coded
      exact wordBytes_length isBytes
  | op mnem argument =>
      obtain ⟨op, -, isBytes⟩ := Option.bind_eq_some_iff.mp coded
      have length := @chosen_length mnem argument
      cases isOperand : argument.operand? with
      | none =>
          rw [isOperand] at isBytes length
          obtain rfl := Option.some.inj isBytes
          exact (length.mpr rfl).symm
      | some operand =>
          rw [isOperand] at isBytes length
          obtain ⟨value, -, isBytes⟩ := Option.bind_eq_some_iff.mp isBytes
          obtain ⟨more, isMore, isBytes⟩ := Option.bind_eq_some_iff.mp isBytes
          obtain rfl := Option.some.inj isBytes
          exact operandBytes_length (fun one => nomatch length.mp one) isMore

end Steady

/-! ### The bytes of the image -/

namespace Image

variable {image : Image} {pc mid stop : Nat}

/-- The bytes from `pc` up to `stop`. -/
def text (image : Image) (pc stop : Nat) : List Nat :=
  (List.range' pc (stop - pc)).map image.byte

theorem text_self : image.text pc pc = [] := by
  unfold text
  rw [Nat.sub_self]
  rfl

theorem text_cons (inside : pc < stop) :
    image.text pc stop = image.byte pc :: image.text (pc + 1) stop := by
  have more : stop - pc = (stop - (pc + 1)) + 1 := by omega
  unfold text
  rw [more, List.range'_succ, List.map_cons]

theorem text_append (low : pc ≤ mid) (high : mid ≤ stop) :
    image.text pc mid ++ image.text mid stop = image.text pc stop := by
  obtain ⟨one, rfl⟩ := Nat.exists_eq_add_of_le low
  obtain ⟨two, rfl⟩ := Nat.exists_eq_add_of_le high
  unfold text
  rw [Nat.add_sub_cancel_left, Nat.add_sub_cancel_left, Nat.add_assoc, Nat.add_sub_cancel_left,
    ← List.map_append, List.range'_append_1]

theorem text_length : (image.text pc stop).length = stop - pc := by
  unfold text
  rw [List.length_map, List.length_range']

theorem text_rom : image.text romBase romEnd = image.bytes := by
  apply List.ext_getElem
  · rw [text_length, bytes, List.length_ofFn]
    rfl
  · intro index inText inBytes
    have small : index < 2048 := by
      rwa [bytes, List.length_ofFn] at inBytes
    simp only [text, bytes, byte, List.getElem_map, List.getElem_range', List.getElem_ofFn]
    have same : Fin.ofNat 2048 (romBase + 1 * index - romBase) = ⟨index, small⟩ := by
      apply Fin.ext
      rw [Fin.val_ofNat, Nat.one_mul, Nat.add_sub_cancel_left, Nat.mod_eq_of_lt small]
    rw [same]

end Image

section Code

variable {image : Image} {map : Map} {pc a : Nat} {mnem : Mnem} {mode : Mode} {operand : Operand}
  {site : Option Nat} {all : Table String}

theorem wordBytes_eq : wordBytes (image.word a) = some (image.text a (a + 2)) := by
  have low : image.byte a < 256 := byte_lt
  have high : image.byte (a + 1) < 256 := byte_lt
  have first : image.word a % 256 = image.byte a := by
    rw [word_eq]
    omega
  have second : image.word a / 256 = image.byte (a + 1) := by
    rw [word_eq]
    omega
  have small : image.word a < 65536 := by
    rw [word_eq]
    omega
  unfold wordBytes
  rw [if_pos ⟨Int.natCast_nonneg _, by omega⟩, Int.toNat_natCast, first, second,
    Image.text_cons (by omega), Image.text_cons (by omega), Image.text_self]

theorem operand?_format : (mode.format operand).operand? =
    if mode.length = 1 then none else some operand := by
  cases mode <;> rfl

theorem size_op (written : Written image map pc mnem mode operand site) :
    Item.size fixed (.op mnem (mode.format operand)) = mode.length :=
  congrArg Mode.length written.chosen

/-- An operand is assembled to the bytes that it was read from. -/
theorem operandBytes_eq (inRom : InRom pc) (more : mode.length ≠ 1) :
    operandBytes pc mode (image.operandValue pc mode) =
      some (image.text (pc + 1) (pc + mode.length)) := by
  have low : image.byte (pc + 1) < 256 := byte_lt
  unfold operandBytes Image.operandValue
  by_cases isRel : mode = .rel
  · subst isRel
    have one : image.text (pc + 1) (pc + Mode.rel.length) = [image.byte (pc + 1)] := by
      rw [show pc + Mode.rel.length = pc + 1 + 1 from rfl, Image.text_cons (Nat.lt_succ_self _),
        Image.text_self]
    have far := inRom.1
    unfold romBase at far
    simp only [one, if_true, Image.branch]
    by_cases back : 127 < image.byte (pc + 1)
    · rw [if_pos back, if_pos (by omega)]
      have same : ((((pc + 2 + image.byte (pc + 1) - 256 : Nat) : Int) - (↑pc + 2)) % 256).toNat =
          image.byte (pc + 1) := by omega
      rw [same]
    · rw [if_neg back, if_pos (by omega)]
      have same : ((((pc + 2 + image.byte (pc + 1) - 0 : Nat) : Int) - (↑pc + 2)) % 256).toNat =
          image.byte (pc + 1) := by omega
      rw [same]
  · simp only [if_neg isRel]
    by_cases two : mode.length = 2
    · simp only [if_pos two]
      rw [if_pos ⟨Int.natCast_nonneg _, by omega⟩, two, Image.text_cons (by omega), Image.text_self,
        Int.toNat_natCast]
    · have three : mode.length = 3 := by
        cases mode <;> first | rfl | exact absurd rfl two | exact absurd rfl more
      simp only [if_neg two]
      rw [wordBytes_eq, three]

theorem code_op (found : image.decode pc = some (mnem, mode))
    (written : Written image map pc mnem mode operand site)
    (resolves : Resolves (labelled image map).labels all site) :
    Item.code fixed all pc (.op mnem (mode.format operand)) =
      some (image.text pc (pc + mode.length)) := by
  obtain ⟨inRom, isOp, -⟩ := Image.decode_eq_some_iff.mp found
  have positive : pc < pc + mode.length := by cases mode <;> exact Nat.lt_add_of_pos_right (by decide)
  simp only [Item.code, written.chosen, (ops_encode isOp).1, operand?_format]
  rw [Image.text_cons positive]
  by_cases one : mode.length = 1
  · simp only [one, Image.text_self]
    rfl
  · simp only [if_neg one, Option.bind_eq_bind, Option.bind_some,
      (written.means one).value_all resolves, operandBytes_eq inRom one]

end Code

end DragsterNet.Disasm
