/-
Module: DragsterNet.Disasm.Opcodes
Purpose: The instructions and the registers as the disassembler's tables have them.
Trusted boundary: none
Main exports: Mnem, Mode, Mode.length, Mode.format, ops, enc, tiaW, tiaR, riot
-/
import DragsterNet.Lib.Dict

namespace DragsterNet.Disasm

open Lib

inductive Mnem where
  | adc | and | asl | bcc | bcs | beq | bit | bmi | bne | bpl | brk | bvc | bvs | clc
  | cld | cli | clv | cmp | cpx | cpy | dec | dex | dey | eor | inc | inx | iny | jmp
  | jsr | lda | ldx | ldy | lsr | nop | ora | pha | php | pla | plp | rol | ror | rti
  | rts | sbc | sec | sed | sei | sta | stx | sty | tax | tay | tsx | txa | txs | tya
deriving DecidableEq

inductive Mode where
  | imp | acc | imm | zp | zpx | zpy | izx | izy | rel | abs | abx | aby | ind
deriving DecidableEq

/-- `MODES[mode][0]`. -/
def Mode.length : Mode → Nat
  | .imp | .acc => 1
  | .imm | .zp | .zpx | .zpy | .izx | .izy | .rel => 2
  | .abs | .abx | .aby | .ind => 3

/-- What stands behind a mnemonic. -/
inductive Argument (α : Type) where
  | implied
  | accumulator
  | immediate (operand : α)
  | direct (operand : α)
  | directX (operand : α)
  | directY (operand : α)
  | indirect (operand : α)
  | indirectX (operand : α)
  | indirectY (operand : α)
deriving DecidableEq

variable {α : Type}

/-- The format of `MODES[mode][1]`, which says less than the mode: a zero-page operand
is written like any other. -/
def Mode.format (operand : α) : Mode → Argument α
  | .imp => .implied
  | .acc => .accumulator
  | .imm => .immediate operand
  | .zp | .rel | .abs => .direct operand
  | .zpx | .abx => .directX operand
  | .zpy | .aby => .directY operand
  | .izx => .indirectX operand
  | .izy => .indirectY operand
  | .ind => .indirect operand

/-- `OPS`, the 151 official opcodes. -/
def opcodes : List (Nat × Mnem × Mode) :=
  [(0x00, .brk, .imp), (0x01, .ora, .izx), (0x05, .ora, .zp), (0x06, .asl, .zp),
   (0x08, .php, .imp), (0x09, .ora, .imm), (0x0A, .asl, .acc), (0x0D, .ora, .abs),
   (0x0E, .asl, .abs), (0x10, .bpl, .rel), (0x11, .ora, .izy), (0x15, .ora, .zpx),
   (0x16, .asl, .zpx), (0x18, .clc, .imp), (0x19, .ora, .aby), (0x1D, .ora, .abx),
   (0x1E, .asl, .abx), (0x20, .jsr, .abs), (0x21, .and, .izx), (0x24, .bit, .zp),
   (0x25, .and, .zp), (0x26, .rol, .zp), (0x28, .plp, .imp), (0x29, .and, .imm),
   (0x2A, .rol, .acc), (0x2C, .bit, .abs), (0x2D, .and, .abs), (0x2E, .rol, .abs),
   (0x30, .bmi, .rel), (0x31, .and, .izy), (0x35, .and, .zpx), (0x36, .rol, .zpx),
   (0x38, .sec, .imp), (0x39, .and, .aby), (0x3D, .and, .abx), (0x3E, .rol, .abx),
   (0x40, .rti, .imp), (0x41, .eor, .izx), (0x45, .eor, .zp), (0x46, .lsr, .zp),
   (0x48, .pha, .imp), (0x49, .eor, .imm), (0x4A, .lsr, .acc), (0x4C, .jmp, .abs),
   (0x4D, .eor, .abs), (0x4E, .lsr, .abs), (0x50, .bvc, .rel), (0x51, .eor, .izy),
   (0x55, .eor, .zpx), (0x56, .lsr, .zpx), (0x58, .cli, .imp), (0x59, .eor, .aby),
   (0x5D, .eor, .abx), (0x5E, .lsr, .abx), (0x60, .rts, .imp), (0x61, .adc, .izx),
   (0x65, .adc, .zp), (0x66, .ror, .zp), (0x68, .pla, .imp), (0x69, .adc, .imm),
   (0x6A, .ror, .acc), (0x6C, .jmp, .ind), (0x6D, .adc, .abs), (0x6E, .ror, .abs),
   (0x70, .bvs, .rel), (0x71, .adc, .izy), (0x75, .adc, .zpx), (0x76, .ror, .zpx),
   (0x78, .sei, .imp), (0x79, .adc, .aby), (0x7D, .adc, .abx), (0x7E, .ror, .abx),
   (0x81, .sta, .izx), (0x84, .sty, .zp), (0x85, .sta, .zp), (0x86, .stx, .zp),
   (0x88, .dey, .imp), (0x8A, .txa, .imp), (0x8C, .sty, .abs), (0x8D, .sta, .abs),
   (0x8E, .stx, .abs), (0x90, .bcc, .rel), (0x91, .sta, .izy), (0x94, .sty, .zpx),
   (0x95, .sta, .zpx), (0x96, .stx, .zpy), (0x98, .tya, .imp), (0x99, .sta, .aby),
   (0x9A, .txs, .imp), (0x9D, .sta, .abx), (0xA0, .ldy, .imm), (0xA1, .lda, .izx),
   (0xA2, .ldx, .imm), (0xA4, .ldy, .zp), (0xA5, .lda, .zp), (0xA6, .ldx, .zp),
   (0xA8, .tay, .imp), (0xA9, .lda, .imm), (0xAA, .tax, .imp), (0xAC, .ldy, .abs),
   (0xAD, .lda, .abs), (0xAE, .ldx, .abs), (0xB0, .bcs, .rel), (0xB1, .lda, .izy),
   (0xB4, .ldy, .zpx), (0xB5, .lda, .zpx), (0xB6, .ldx, .zpy), (0xB8, .clv, .imp),
   (0xB9, .lda, .aby), (0xBA, .tsx, .imp), (0xBC, .ldy, .abx), (0xBD, .lda, .abx),
   (0xBE, .ldx, .aby), (0xC0, .cpy, .imm), (0xC1, .cmp, .izx), (0xC4, .cpy, .zp),
   (0xC5, .cmp, .zp), (0xC6, .dec, .zp), (0xC8, .iny, .imp), (0xC9, .cmp, .imm),
   (0xCA, .dex, .imp), (0xCC, .cpy, .abs), (0xCD, .cmp, .abs), (0xCE, .dec, .abs),
   (0xD0, .bne, .rel), (0xD1, .cmp, .izy), (0xD5, .cmp, .zpx), (0xD6, .dec, .zpx),
   (0xD8, .cld, .imp), (0xD9, .cmp, .aby), (0xDD, .cmp, .abx), (0xDE, .dec, .abx),
   (0xE0, .cpx, .imm), (0xE1, .sbc, .izx), (0xE4, .cpx, .zp), (0xE5, .sbc, .zp),
   (0xE6, .inc, .zp), (0xE8, .inx, .imp), (0xE9, .sbc, .imm), (0xEA, .nop, .imp),
   (0xEC, .cpx, .abs), (0xED, .sbc, .abs), (0xEE, .inc, .abs), (0xF0, .beq, .rel),
   (0xF1, .sbc, .izy), (0xF5, .sbc, .zpx), (0xF6, .inc, .zpx), (0xF8, .sed, .imp),
   (0xF9, .sbc, .aby), (0xFD, .sbc, .abx), (0xFE, .inc, .abx)]

/-- `OPS.get`. -/
def ops (op : Nat) : Option (Mnem × Mode) := opcodes.lookup op

/-- `ENC`, built from `OPS`. -/
def enc : Dict (Mnem × Mode) Nat :=
  opcodes.foldl (fun enc entry => enc.set entry.2 entry.1) Dict.empty

def terminal : List Nat := [0x60, 0x40, 0x00, 0x4C, 0x6C]

/-- The modes whose operand is an address of two bytes. -/
def Mode.refers : Mode → Bool
  | .abs | .abx | .aby | .ind => true
  | _ => false

def stores : List Mnem := [.sta, .stx, .sty]

/-! ### The registers -/

/-- `TIA_W`. -/
def tiaW : List String :=
  ["VSYNC", "VBLANK", "WSYNC", "RSYNC", "NUSIZ0", "NUSIZ1", "COLUP0", "COLUP1",
   "COLUPF", "COLUBK", "CTRLPF", "REFP0", "REFP1", "PF0", "PF1", "PF2",
   "RESP0", "RESP1", "RESM0", "RESM1", "RESBL", "AUDC0", "AUDC1", "AUDF0",
   "AUDF1", "AUDV0", "AUDV1", "GRP0", "GRP1", "ENAM0", "ENAM1", "ENABL",
   "HMP0", "HMP1", "HMM0", "HMM1", "HMBL", "VDELP0", "VDELP1", "VDELBL",
   "RESMP0", "RESMP1", "HMOVE", "HMCLR", "CXCLR"]

/-- `TIA_R`. -/
def tiaR : List String :=
  ["CXM0P", "CXM1P", "CXP0FB", "CXP1FB", "CXM0FB", "CXM1FB", "CXBLPF", "CXPPMM",
   "INPT0", "INPT1", "INPT2", "INPT3", "INPT4", "INPT5"]

/-- `RIOT`. -/
def riot : List (Nat × String) :=
  [(0x0280, "SWCHA"), (0x0281, "SWACNT"), (0x0282, "SWCHB"),
   (0x0283, "SWBCNT"), (0x0284, "INTIM"), (0x0294, "TIM1T"),
   (0x0295, "TIM8T"), (0x0296, "TIM64T"), (0x0297, "T1024T")]

/-- `VCS_NAMES`. -/
def vcsNames : List String := tiaW ++ tiaR ++ riot.map Prod.snd

end DragsterNet.Disasm
