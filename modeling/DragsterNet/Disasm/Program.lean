/-
Module: DragsterNet.Disasm.Program
Purpose: The disassembler: the descent through the image, the labels, the operands,
  the checks, and the source that is written.
Trusted boundary: none
Main exports: Image, Problem, Disassembler, Disassembler.walk, Disassembler.buildLabels,
  Disassembler.operand, Disassembler.emit, disassemble
-/
import DragsterNet.Lib.Layout
import DragsterNet.Disasm.Map
import DragsterNet.Disasm.Opcodes

namespace DragsterNet.Disasm

open Lib Layout

abbrev Image := Fin 2048 → Byte

def InRom (a : Nat) : Prop := romBase ≤ a ∧ a < romEnd

instance (a : Nat) : Decidable (InRom a) := inferInstanceAs (Decidable (_ ∧ _))

namespace Image

/-- `byte`, at an address of the ROM. -/
def byte (image : Image) (a : Nat) : Nat := (image (Fin.ofNat 2048 (a - romBase))).toNat

def word (image : Image) (a : Nat) : Nat := image.byte a ||| (image.byte (a + 1) <<< 8)

def bytes (image : Image) : List Nat := List.ofFn fun index => (image index).toNat

/-- Where the branch at `pc` goes. -/
def branch (image : Image) (pc : Nat) : Nat :=
  let off := image.byte (pc + 1)
  pc + 2 + off - if 127 < off then 256 else 0

end Image

/-! ### The lines of the source -/

inductive Expr where
  | number (value : Nat)
  | symbol (name : String)
  | offset (name : String) (delta : Int)
deriving DecidableEq

/-- An operand; `>` in front of it keeps AS from the short form. -/
structure Operand where
  forced : Bool
  expr : Expr
deriving DecidableEq

inductive Item where
  | op (mnem : Mnem) (argument : Argument Operand)
  | db (bytes : List Nat)
  | dw (expr : Expr)
deriving DecidableEq

abbrev Source := List (Line String Item)

inductive Problem where
  | undefinedOpcode (pc op : Nat)
  | runsOff (pc : Nat) (mnem : Mnem)
  | collides (name : String)
  | usedTwice (name : String) (one other : Nat)
  | reencodes (pc : Nat) (mnem : Mnem) (mode : Mode) (op : Nat)
  | reachedAsCode (a : Nat)
  | neverReached (a : Nat)
  | biased (pc : Nat) (base : String) (delta : Int) (v : Nat)
deriving DecidableEq

/-- Sets are lists of which the order is never looked at. -/
structure Disassembler where
  starts : List Nat := []
  covered : List Nat := []
  refs : List Nat := []
  targets : List Nat := []
  labels : Dict Nat String := Dict.empty
  problems : List Problem := []

def sorted (set : List Nat) : List Nat := set.insertionSort (· ≤ ·)

/-- `:04X`. -/
def hex4 (a : Nat) : String :=
  String.ofList (((Nat.toDigits 16 a).map Char.toUpper).leftpad 4 '0')

/-- `_based`. -/
def based (addr : Nat) (table : List (Nat × String)) : Option Expr :=
  let keys := sorted (table.map Prod.fst)
  match (keys.takeWhile (· ≤ addr)).getLast? with
  | none => none
  | some base =>
      match table.lookup base with
      | none => none
      | some name =>
          if addr = base then some (.symbol name)
          else if (keys.find? (base < ·)).any (· ≤ addr) then none
          else if 16 < addr - base then none
          else some (.offset name ↑(addr - base))

namespace Disassembler

variable (image : Image) (map : Map) (d : Disassembler)

/-! ### Pass 1: recursive descent -/

def problem (problem : Problem) : Disassembler :=
  { d with problems := d.problems ++ [problem] }

/-- `starts` and `covered`. -/
def start (pc n : Nat) : Disassembler :=
  { d with
    starts := d.starts.insert pc
    covered := (List.range' pc n).foldl (fun covered a => covered.insert a) d.covered }

def target (a : Nat) : Disassembler := { d with targets := d.targets.insert a }

def ref (a : Nat) : Disassembler := { d with refs := d.refs.insert a }

/-- What becomes of `pc`, and the addresses that are next: the first of them is the
new `pc`, the other one is pushed. -/
def visit (pc : Nat) : Disassembler × List Nat :=
  if ¬ InRom pc ∨ pc ∈ d.starts then (d, [])
  else
    let op := image.byte pc
    match ops op with
    | none => (d.problem (.undefinedOpcode pc op), [])
    | some (mnem, mode) =>
        let nxt := pc + mode.length
        if romEnd < nxt then (d.problem (.runsOff pc mnem), [])
        else
          let d := d.start pc mode.length
          if mode = .rel then
            let tgt := image.branch pc
            (d.target tgt, [nxt, tgt])
          else
            let d := if mode.refers then d.ref (image.word (pc + 1)) else d
            if op = 0x20 then
              let t := image.word (pc + 1)
              (d.target t, [nxt, t])
            else if op = 0x4C then
              let t := image.word (pc + 1)
              (d.target t, [t])
            else if op ∈ terminal then (d, [])
            else (d, [nxt])

/-- The loops of `walk`, on one stack. -/
def walkFrom : Nat → List Nat → Disassembler → Disassembler
  | 0, _, d => d
  | _ + 1, [], d => d
  | fuel + 1, pc :: pending, d =>
      let (d', next) := visit image d pc
      walkFrom fuel (next ++ pending) d'

/-- Each address starts one instruction at most, and pushes one address at most. -/
def walk (entry : Nat) : Disassembler := walkFrom image (2 * 2048 + 1) [entry] d

/-! ### Pass 2: labels -/

/-- The names of the addresses that the code jumps to. -/
def labelTarget (labels : Dict Nat String) (a : Nat) : Dict Nat String :=
  if a ∈ labels.keys then labels else labels.set a ("L_" ++ hex4 a)

/-- The names of the addresses that the code refers to. -/
def labelRef (labels : Dict Nat String) (a : Nat) : Dict Nat String :=
  if ¬ InRom a then labels
  else if a ∈ labels.keys then labels
  else if a ∈ d.covered ∧ a ∉ d.starts then labels
  else if map.isCode a ∧ a ∉ d.starts then labels
  else labels.set a ((if map.isCode a then "L_" else "D_") ++ hex4 a)

/-- One name of the loop that looks for collisions. -/
def checkName (seen : Dict String Nat × List Problem) (entry : Nat × String) :
    Dict String Nat × List Problem :=
  let key := entry.2.toUpper
  (seen.1.set key entry.1,
    seen.2 ++
      (if key ∈ vcsNames.map String.toUpper then [Problem.collides entry.2] else []) ++
      (match seen.1.get? key with
        | some other => if other ≠ entry.1 then [Problem.usedTwice entry.2 other entry.1] else []
        | none => []))

def buildLabels : Disassembler :=
  let labels := symbols.foldl (fun labels entry => labels.set entry.1 entry.2) d.labels
  let labels := dataLbl.foldl (fun labels entry => labels.set entry.1 entry.2) labels
  let labels := (sorted d.targets).foldl labelTarget labels
  let labels := (sorted d.refs).foldl (labelRef map d) labels
  { d with
    labels := labels
    problems := d.problems ++ ((labels.entries ++ zp).foldl checkName (Dict.empty, [])).2 }

/-! ### Operands -/

def zpname (v : Nat) (mnem : Mnem) : Expr :=
  if v ≤ 0x2C ∧ mnem ∈ stores then .symbol (tiaW.getD v "")
  else if v ≤ 0x0D ∧ mnem ∉ stores then .symbol (tiaR.getD v "")
  else
    match if 0x80 ≤ v then based v zp else none with
    | some expr => expr
    | none => .number v

/-- The end of `absname`, for an address without a name of its own. -/
def unnamed (v : Nat) (mnem : Mnem) : Operand :=
  match if InRom v then based v (d.labels.entries.filter fun entry => InRom entry.1) else none with
  | some expr => ⟨false, expr⟩
  | none =>
      if v < 0x100 then ⟨true, if 0x80 ≤ v then zpname v mnem else .number v⟩
      else ⟨false, .number v⟩

/-- The rest of `absname`, where no bias is declared. -/
def absexpr (v : Nat) (mnem : Mnem) : Operand :=
  match (riot.lookup v).or (d.labels.get? v) with
  | some name => ⟨false, .symbol name⟩
  | none => d.unnamed v mnem

def absname (pc v : Nat) (mnem : Mnem) : Operand × List Problem :=
  match bias.lookup pc with
  | some (base, delta) =>
      let site := ((dataLbl.find? fun entry => entry.2 = base).map Prod.fst).getD 0
      (⟨false, .offset base delta⟩,
        if (site : Int) + delta ≠ v then [.biased pc base delta v] else [])
  | none => (d.absexpr v mnem, [])

/-- An instruction of one byte has no operand, but one is rendered: at the end of
the ROM there is no word for it, and an IndexError is raised. -/
def operand (pc : Nat) (mnem : Mnem) (mode : Mode) : Option (Operand × List Problem) :=
  if mode = .imm then some (⟨false, .number (image.byte (pc + 1))⟩, [])
  else if mode = .rel then
    let tgt := image.branch pc
    some (⟨false, ((d.labels.get? tgt).map .symbol).getD (.number tgt)⟩, [])
  else if mode.length = 2 then some (⟨false, zpname (image.byte (pc + 1)) mnem⟩, [])
  else if romEnd ≤ pc + 2 then none
  else some (d.absname pc (image.word (pc + 1)) mnem)

/-! ### The checks -/

def roundtrip : Disassembler :=
  { d with
    problems := d.problems ++ (sorted d.starts).flatMap fun pc =>
      let op := image.byte pc
      match ops op with
      | some (mnem, mode) =>
          if enc.get? (mnem, mode) ≠ some op then [.reencodes pc mnem mode op] else []
      | none => [] }

def declared (map : Map) : List Nat :=
  map.regions.flatMap fun region =>
    if region.kind = .code then List.range' region.lo (region.hi - region.lo) else []

def regionsAgree : Disassembler :=
  { d with
    problems := d.problems ++
      (sorted (d.covered.filter fun a => a ∉ declared map)).map .reachedAsCode ++
      (sorted ((declared map).filter fun a => a ∉ d.covered)).map .neverReached }

/-! ### Emission -/

def labelLine (pc : Nat) : Source := ((d.labels.get? pc).map .label).toList

/-- The lines that are written at `pc` in a region of code, the problems, and where
the loop goes on. -/
def codeLines (pc : Nat) : Option (Source × List Problem × Nat) :=
  if pc ∉ d.starts then some ([.item (.db [image.byte pc])], [], pc + 1)
  else
    match ops (image.byte pc) with
    | none => none
    | some (mnem, mode) =>
        (d.operand image pc mnem mode).map fun rendered =>
          ([.item (.op mnem (mode.format rendered.1))], rendered.2, pc + mode.length)

def emitCode (hi : Nat) : Nat → Nat → Option (Source × List Problem)
  | 0, _ => some ([], [])
  | fuel + 1, pc =>
      if pc < hi then do
        let (lines, problems, pc') ← d.codeLines image pc
        let (rest, others) ← emitCode hi fuel pc'
        return (d.labelLine pc ++ lines ++ rest, problems ++ others)
      else some ([], [])

def flushRow (row : List Nat) : Source := if row = [] then [] else [.item (.db row)]

/-- The vectors, as words, so the reset vector reads as a name. -/
def vectorLine (pc : Nat) : Source :=
  let word := image.word pc
  [.item (.dw (((d.labels.get? word).map .symbol).getD (.number word)))]

def emitData (region : Region) : Nat → Nat → List Nat → Source
  | 0, _, row => flushRow row
  | fuel + 1, pc, row =>
      if pc < region.hi then
        let flushed := if pc ∈ d.labels.keys then flushRow row else []
        let row := if pc ∈ d.labels.keys then [] else row
        if region.hi - region.lo = 6 ∧ region.lo = 0xF7FA then
          flushed ++ d.labelLine pc ++ d.vectorLine image pc ++ emitData region fuel (pc + 2) row
        else
          let row := row ++ [image.byte pc]
          if row.length = 8 then
            flushed ++ d.labelLine pc ++ flushRow row ++ emitData region fuel (pc + 1) []
          else flushed ++ d.labelLine pc ++ emitData region fuel (pc + 1) row
      else flushRow row

def emitRegion (region : Region) : Option (Source × List Problem) :=
  if region.kind = .code then d.emitCode image region.hi (region.hi - region.lo) region.lo
  else some (d.emitData image region (region.hi - region.lo) region.lo [], [])

def emitRegions : List Region → Option (Source × List Problem)
  | [] => some ([], [])
  | region :: rest => do
      let (lines, problems) ← d.emitRegion image region
      let (more, others) ← emitRegions rest
      return (lines ++ more, problems ++ others)

/-- The names of the zero page come first. -/
def zpLines : Source :=
  (sorted (zp.map Prod.fst)).filterMap fun a => (zp.lookup a).map fun name => .equ name a

def emit : Option (Source × List Problem) := do
  let (lines, problems) ← d.emitRegions image map.regions
  return (zpLines ++ lines, problems)

end Disassembler

/-- `main`: the source, and the problems that keep it from being written. -/
def disassemble (image : Image) (map : Map) : Option (Source × List Problem) := do
  let d := ((Disassembler.walk image {} romBase).buildLabels map).roundtrip image
  let d := d.regionsAgree map
  let (text, problems) ← d.emit image map
  return (text, d.problems ++ problems)

end DragsterNet.Disasm
