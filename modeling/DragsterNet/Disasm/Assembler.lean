/-
Module: DragsterNet.Disasm.Assembler
Purpose: Macroassembler AS, as far as the source of the disassembler needs it: the
  6502, the equates of `vcs.inc`, and the choice between the short and the long form.
Trusted boundary: AS
Main exports: encode, vcsInc, Expr.value, Mnem.chosen, coding, assemble
-/
import DragsterNet.Disasm.Program

namespace DragsterNet.Disasm

open Lib Layout

/-! ### The opcodes of the 6502 -/

/-- The instructions for the accumulator: a row of 32 opcodes each. -/
def groupOne : Mnem → Option Nat
  | .ora => some 0
  | .and => some 1
  | .eor => some 2
  | .adc => some 3
  | .sta => some 4
  | .lda => some 5
  | .cmp => some 6
  | .sbc => some 7
  | _ => none

/-- The shifts, and the instructions for X and for a cell. -/
def groupTwo : Mnem → Option Nat
  | .asl => some 0
  | .rol => some 1
  | .lsr => some 2
  | .ror => some 3
  | .stx => some 4
  | .ldx => some 5
  | .dec => some 6
  | .inc => some 7
  | _ => none

/-- The instructions for Y, the comparisons with X and Y, and `BIT`. -/
def groupThree : Mnem → Option Nat
  | .bit => some 1
  | .sty => some 4
  | .ldy => some 5
  | .cpy => some 6
  | .cpx => some 7
  | _ => none

/-- The branches. -/
def Mnem.branch? : Mnem → Option Nat
  | .bpl => some 0x10
  | .bmi => some 0x30
  | .bvc => some 0x50
  | .bvs => some 0x70
  | .bcc => some 0x90
  | .bcs => some 0xB0
  | .bne => some 0xD0
  | .beq => some 0xF0
  | _ => none

/-- The instructions without an operand. -/
def Mnem.implied? : Mnem → Option Nat
  | .brk => some 0x00
  | .php => some 0x08
  | .clc => some 0x18
  | .plp => some 0x28
  | .sec => some 0x38
  | .rti => some 0x40
  | .pha => some 0x48
  | .cli => some 0x58
  | .rts => some 0x60
  | .pla => some 0x68
  | .sei => some 0x78
  | .dey => some 0x88
  | .txa => some 0x8A
  | .tya => some 0x98
  | .txs => some 0x9A
  | .tay => some 0xA8
  | .tax => some 0xAA
  | .clv => some 0xB8
  | .tsx => some 0xBA
  | .iny => some 0xC8
  | .dex => some 0xCA
  | .cld => some 0xD8
  | .inx => some 0xE8
  | .nop => some 0xEA
  | .sed => some 0xF8
  | _ => none

/-- The column of a mode in the rows of the first group. -/
def columnOne (mnem : Mnem) : Mode → Option Nat
  | .izx => some 0
  | .zp => some 1
  | .imm => if mnem = .sta then none else some 2
  | .abs => some 3
  | .izy => some 4
  | .zpx => some 5
  | .aby => some 6
  | .abx => some 7
  | _ => none

def columnTwo (mnem : Mnem) : Mode → Option Nat
  | .imm => if mnem = .ldx then some 0 else none
  | .zp => some 1
  | .acc => if mnem ∈ [.asl, .rol, .lsr, .ror] then some 2 else none
  | .abs => some 3
  | .zpx => if mnem ∈ [.stx, .ldx] then none else some 5
  | .zpy => if mnem ∈ [.stx, .ldx] then some 5 else none
  | .abx => if mnem ∈ [.stx, .ldx] then none else some 7
  | .aby => if mnem = .ldx then some 7 else none
  | _ => none

def columnThree (mnem : Mnem) : Mode → Option Nat
  | .imm => if mnem ∈ [.ldy, .cpy, .cpx] then some 0 else none
  | .zp => some 1
  | .abs => some 3
  | .zpx => if mnem ∈ [.sty, .ldy] then some 5 else none
  | .abx => if mnem = .ldy then some 7 else none
  | _ => none

/-- The opcode of an instruction in a mode, if it has that mode. -/
def encode (mnem : Mnem) (mode : Mode) : Option Nat :=
  match groupOne mnem, groupTwo mnem, groupThree mnem with
  | some row, _, _ => (columnOne mnem mode).map fun column => 32 * row + 4 * column + 1
  | _, some row, _ => (columnTwo mnem mode).map fun column => 32 * row + 4 * column + 2
  | _, _, some row => (columnThree mnem mode).map fun column => 32 * row + 4 * column
  | none, none, none =>
      match mode with
      | .imp => mnem.implied?
      | .rel => mnem.branch?
      | .abs => if mnem = .jsr then some 0x20 else if mnem = .jmp then some 0x4C else none
      | .ind => if mnem = .jmp then some 0x6C else none
      | _ => none

/-! ### Symbols -/

/-- `vcs.inc`. -/
def vcsInc : Table String :=
  [("VSYNC", 0x00), ("VBLANK", 0x01), ("WSYNC", 0x02), ("RSYNC", 0x03), ("NUSIZ0", 0x04),
   ("NUSIZ1", 0x05), ("COLUP0", 0x06), ("COLUP1", 0x07), ("COLUPF", 0x08), ("COLUBK", 0x09),
   ("CTRLPF", 0x0A), ("REFP0", 0x0B), ("REFP1", 0x0C), ("PF0", 0x0D), ("PF1", 0x0E),
   ("PF2", 0x0F), ("RESP0", 0x10), ("RESP1", 0x11), ("RESM0", 0x12), ("RESM1", 0x13),
   ("RESBL", 0x14), ("AUDC0", 0x15), ("AUDC1", 0x16), ("AUDF0", 0x17), ("AUDF1", 0x18),
   ("AUDV0", 0x19), ("AUDV1", 0x1A), ("GRP0", 0x1B), ("GRP1", 0x1C), ("ENAM0", 0x1D),
   ("ENAM1", 0x1E), ("ENABL", 0x1F), ("HMP0", 0x20), ("HMP1", 0x21), ("HMM0", 0x22),
   ("HMM1", 0x23), ("HMBL", 0x24), ("VDELP0", 0x25), ("VDELP1", 0x26), ("VDELBL", 0x27),
   ("RESMP0", 0x28), ("RESMP1", 0x29), ("HMOVE", 0x2A), ("HMCLR", 0x2B), ("CXCLR", 0x2C),
   ("CXM0P", 0x00), ("CXM1P", 0x01), ("CXP0FB", 0x02), ("CXP1FB", 0x03), ("CXM0FB", 0x04),
   ("CXM1FB", 0x05), ("CXBLPF", 0x06), ("CXPPMM", 0x07), ("INPT0", 0x08), ("INPT1", 0x09),
   ("INPT2", 0x0A), ("INPT3", 0x0B), ("INPT4", 0x0C), ("INPT5", 0x0D), ("SWCHA", 0x0280),
   ("SWACNT", 0x0281), ("SWCHB", 0x0282), ("SWBCNT", 0x0283), ("INTIM", 0x0284), ("TIM1T", 0x0294),
   ("TIM8T", 0x0295), ("TIM64T", 0x0296), ("T1024T", 0x0297), ("J0RIGHT", 0x80), ("J0LEFT", 0x40),
   ("J0DOWN", 0x20), ("J0UP", 0x10)]

/-- The value of a symbol; AS does not tell capitals from small letters. -/
def value? (known : Table String) (name : String) : Option Nat :=
  (known.find? fun entry => entry.1.toUpper = name.toUpper).map Prod.snd

def Expr.value (known : Table String) : Expr → Option Int
  | .number value => some value
  | .symbol name => (value? known name).map fun value : Nat => (value : Int)
  | .offset name delta => (value? known name).map fun value : Nat => (value : Int) + delta

/-! ### Items -/

/-- The operand is known to lie in the zero page. -/
def Operand.Short (known : Table String) (operand : Operand) : Prop :=
  operand.forced = false ∧ ∃ value ∈ operand.expr.value known, 0 ≤ value ∧ value < 256

instance (known : Table String) (operand : Operand) : Decidable (operand.Short known) :=
  inferInstanceAs (Decidable (_ ∧ ∃ value ∈ operand.expr.value known, _))

/-- The short form where the instruction has one and the operand allows it. -/
def Mnem.shorter (mnem : Mnem) (known : Table String) (short long : Mode) (operand : Operand) :
    Mode :=
  if (encode mnem short).isSome ∧ operand.Short known then short else long

def Mnem.chosen (mnem : Mnem) (known : Table String) : Argument Operand → Mode
  | .implied => .imp
  | .accumulator => .acc
  | .immediate _ => .imm
  | .direct operand =>
      if mnem.branch?.isSome then .rel else mnem.shorter known .zp .abs operand
  | .directX operand => mnem.shorter known .zpx .abx operand
  | .directY operand => mnem.shorter known .zpy .aby operand
  | .indirect _ => .ind
  | .indirectX _ => .izx
  | .indirectY _ => .izy

def Argument.operand? {α : Type} : Argument α → Option α
  | .implied | .accumulator => none
  | .immediate operand | .direct operand | .directX operand | .directY operand
  | .indirect operand | .indirectX operand | .indirectY operand => some operand

/-- The low byte first. -/
def wordBytes (value : Int) : Option (List Nat) :=
  if 0 ≤ value ∧ value < 65536 then some [value.toNat % 256, value.toNat / 256] else none

/-- The bytes behind an opcode at `loc`. -/
def operandBytes (loc : Nat) (mode : Mode) (value : Int) : Option (List Nat) :=
  if mode = .rel then
    let off := value - (loc + 2)
    if -128 ≤ off ∧ off < 128 then some [(off % 256).toNat] else none
  else if mode.length = 2 then
    if 0 ≤ value ∧ value < 256 then some [value.toNat] else none
  else wordBytes value

def Item.size (known : Table String) : Item → Nat
  | .op mnem argument => (mnem.chosen known argument).length
  | .db bytes => bytes.length
  | .dw _ => 2

def Item.code (known all : Table String) (loc : Nat) : Item → Option (List Nat)
  | .op mnem argument => do
      let mode := mnem.chosen known argument
      let op ← encode mnem mode
      match argument.operand? with
      | none => some [op]
      | some operand =>
          let value ← operand.expr.value all
          let bytes ← operandBytes loc mode value
          some (op :: bytes)
  | .db bytes => some bytes
  | .dw expr => (expr.value all).bind wordBytes

def coding : Coding String Item Nat where
  size := Item.size
  code := Item.code

/-- The source with what its `INCLUDE` stands for. -/
def included (source : Source) : Source :=
  equates vcsInc ++ source

def assemble (source : Source) : Option (List Nat) :=
  coding.assemble String.toUpper romBase (included source)

end DragsterNet.Disasm
