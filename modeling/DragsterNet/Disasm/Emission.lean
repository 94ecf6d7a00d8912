/-
Module: DragsterNet.Disasm.Emission
Purpose: What is written for a region: the labels of the addresses it comes by, and
  items that are assembled to the bytes at them.
Trusted boundary: none
Main exports: Item.name?, Writes, Writes.code, Laid, Disassembler.emitRegion_laid
-/
import DragsterNet.Disasm.Bytes

namespace DragsterNet.Disasm

open Lib Layout

/-! ### The name in an item -/

def Expr.name? : Expr → Option String
  | .number _ => none
  | .symbol name | .offset name _ => some name

def Item.name? : Item → Option String
  | .op _ argument => argument.operand?.bind fun operand => operand.expr.name?
  | .db _ => none
  | .dw expr => expr.name?

variable {image : Image} {map : Map} {region : Region} {d : Disassembler} {pc a fuel : Nat}
  {site : Option Nat} {value : Int} {expr : Expr} {item : Item} {name : String}
  {mnem : Mnem} {mode : Mode} {operand : Operand} {lines : Source} {all : Table String}

/-- An expression names the label of its site, or a fixed name, or nothing. -/
theorem Means.name_cases {labels : Dict Nat String} (means : Means labels expr site value)
    (named : expr.name? = some name) :
    (∃ value, (name, value) ∈ Disasm.fixed) ∨ ∃ a, site = some a ∧ labels.get? a = some name := by
  cases means with
  | number => cases named
  | fixed member | fixedOffset member =>
      obtain rfl := Option.some.inj named
      exact .inl ⟨_, member⟩
  | label found | labelOffset found =>
      obtain rfl := Option.some.inj named
      exact .inr ⟨_, rfl, found⟩

theorem Means.named {labels : Dict Nat String} (means : Means labels expr (some a) value) :
    ∃ name, expr.name? = some name ∧ labels.get? a = some name := by
  cases means with
  | label found | labelOffset found => exact ⟨_, rfl, found⟩

/-! ### What is written at an address -/

/-- The items that are written for a region, with the addresses they are read from. -/
inductive Writes (image : Image) (map : Map) (region : Region) : Nat → Item → Prop where
  | bytes {pc stop : Nat} (low : pc ≤ stop) : Writes image map region pc (.db (image.text pc stop))
  | instruction {pc : Nat} {mnem : Mnem} {mode : Mode} {operand : Operand} {site : Option Nat}
      (isCode : region.kind = .code) (printed : Printed image region pc)
      (reached : image.Reached pc) (found : image.decode pc = some (mnem, mode))
      (written : Written image map pc mnem mode operand site) :
      Writes image map region pc (.op mnem (mode.format operand))
  | vector {pc : Nat} {expr : Expr} {site : Option Nat} (vectors : region.Vectors)
      (printed : Printed image region pc)
      (means : Means (labelled image map).labels expr site (image.word pc))
      (names : ∀ a, site = some a ↔ Labelled image map (image.word pc) ∧ a = image.word pc) :
      Writes image map region pc (.dw expr)

/-- The labels that the item names have their values. -/
def Defines (image : Image) (map : Map) (region : Region) (all : Table String) (pc : Nat) : Prop :=
  ∀ a, Uses image map region pc a → ∀ name, (labelled image map).labels.get? a = some name →
    (name, a) ∈ all

/-- An item is assembled to what it was read from where its labels are defined. -/
theorem Writes.code (distinct : (all.map fun entry => entry.1.toUpper).Nodup)
    (isFixed : ∀ entry ∈ fixed, entry ∈ all) (writes : Writes image map region pc item)
    (defines : Printed image region pc → Defines image map region all pc) :
    Item.code fixed all pc item = some (image.text pc (pc + Item.size fixed item)) := by
  cases writes with
  | @bytes stop low =>
      have size : pc + Item.size fixed (.db (image.text pc stop)) = stop := by
        rw [Item.size, Image.text_length]
        omega
      rw [size]
      rfl
  | instruction isCode printed reached found written =>
      rw [size_op written]
      apply code_op found written ⟨distinct, isFixed, ?_⟩
      intro a isSite
      exact defines printed a (.inl ⟨isCode, reached, (written.names a).mp isSite⟩)
  | @vector expr site vectors printed means names =>
      have resolves : Resolves (labelled image map).labels all site := by
        refine ⟨distinct, isFixed, fun a isSite => ?_⟩
        exact defines printed a (.inr ⟨vectors, (names a).mp isSite⟩)
      rw [Item.code, means.value_all resolves, Option.bind_some, wordBytes_eq, Item.size]

/-- What an item names is fixed, or the label of an address that is used. -/
theorem Writes.name_cases (writes : Writes image map region pc item)
    (named : item.name? = some name) : (∃ value, (name, value) ∈ fixed) ∨
      ∃ a, Printed image region pc ∧ Uses image map region pc a ∧
        (labelled image map).labels.get? a = some name := by
  cases writes with
  | bytes => cases named
  | @instruction mnem mode operand site isCode printed reached found written =>
      rw [Item.name?, operand?_format] at named
      split at named
      · cases named
      · rename_i more
        refine ((written.means more).name_cases named).imp_right ?_
        rintro ⟨a, isSite, found'⟩
        exact ⟨a, printed, .inl ⟨isCode, reached, (written.names a).mp isSite⟩, found'⟩
  | vector vectors printed means names =>
      refine (means.name_cases named).imp_right ?_
      rintro ⟨a, isSite, found'⟩
      exact ⟨a, printed, .inr ⟨vectors, (names a).mp isSite⟩, found'⟩

/-- An item that uses a label names it. -/
theorem Written.named (written : Written image map pc mnem mode operand site)
    (found : image.decode pc = some (mnem, mode)) (names : image.Names map pc a) :
    ∃ name, (Item.op mnem (mode.format operand)).name? = some name ∧
      (labelled image map).labels.get? a = some name := by
  have more : mode.length ≠ 1 := by
    intro one
    apply not_names found _ _ names
    · rintro rfl
      cases one
    · cases mode <;> first | rfl | exact absurd one (by decide)
  obtain rfl := (written.names a).mpr names
  obtain ⟨name, named, isLabel⟩ := (written.means more).named
  exact ⟨name, by rw [Item.name?, operand?_format, if_neg more]; exact named, isLabel⟩

/-! ### The loops -/

/-- The disassembler at the emission: the walk and the labels are those of the image. -/
structure Ready (image : Image) (map : Map) (d : Disassembler) : Prop where
  starts : ∀ pc, pc ∈ d.starts ↔ image.Reached pc
  labels : d.labels = (labelled image map).labels
  silent : (labelled image map).problems = []

/-- The lines from one address to another. -/
abbrev Lies (image : Image) (map : Map) (region : Region) : Nat → Source → Nat → Prop :=
  Spans (Item.size fixed) (fun a name => (labelled image map).labels.get? a = some name)
    (Writes image map region)

/-- What the loop writes from `pc` on. -/
structure Wrote (image : Image) (map : Map) (region : Region) (fuel pc : Nat) (lines : Source) :
    Prop where
  symbols : symbolsOf lines = (sweep (advance image region) region.hi fuel pc).filterMap
    fun a => (labelled image map).labels.get? a
  lies : Lies image map region pc lines (halt (advance image region) region.hi fuel pc)
  uses : ∀ a ∈ sweep (advance image region) region.hi fuel pc, ∀ b, Uses image map region a b →
    ∃ item, .item item ∈ lines ∧ ∃ name, item.name? = some name ∧
      (labelled image map).labels.get? b = some name

theorem Wrote.nothing (outside : fuel = 0 ∨ ¬ pc < region.hi) :
    Wrote image map region fuel pc [] := by
  cases fuel with
  | zero => exact ⟨rfl, .nil, fun a absent => absurd absent List.not_mem_nil⟩
  | succ fuel =>
      have beyond : ¬ pc < region.hi := outside.resolve_left (Nat.succ_ne_zero fuel)
      have none : sweep (advance image region) region.hi (fuel + 1) pc = [] := if_neg beyond
      have stays : halt (advance image region) region.hi (fuel + 1) pc = pc := if_neg beyond
      refine ⟨by rw [none]; rfl, by rw [stays]; exact .nil, fun a member => ?_⟩
      rw [none] at member
      cases member

/-- One round, and the rest. -/
theorem Wrote.round {front rest : Source} (inside : pc < region.hi)
    (symbols : symbolsOf front = ((labelled image map).labels.get? pc).toList)
    (lies : Lies image map region pc front (pc + advance image region pc))
    (uses : ∀ b, Uses image map region pc b → ∃ item, .item item ∈ front ∧
      ∃ name, item.name? = some name ∧ (labelled image map).labels.get? b = some name)
    (wrote : Wrote image map region fuel (pc + advance image region pc) rest) :
    Wrote image map region (fuel + 1) pc (front ++ rest) := by
  have comes : sweep (advance image region) region.hi (fuel + 1) pc =
      pc :: sweep (advance image region) region.hi fuel (pc + advance image region pc) :=
    if_pos inside
  have goes : halt (advance image region) region.hi (fuel + 1) pc =
      halt (advance image region) region.hi fuel (pc + advance image region pc) := if_pos inside
  refine ⟨?_, ?_, ?_⟩
  · rw [symbolsOf_append, symbols, wrote.symbols, comes, List.filterMap_cons]
    cases (labelled image map).labels.get? pc <;> rfl
  · rw [goes]
    exact lies.append wrote.lies
  · rw [comes]
    intro a member b isUsed
    rcases List.mem_cons.mp member with rfl | later
    · obtain ⟨item, has, named⟩ := uses b isUsed
      exact ⟨item, List.mem_append_left _ has, named⟩
    · obtain ⟨item, has, named⟩ := wrote.uses a later b isUsed
      exact ⟨item, List.mem_append_right _ has, named⟩

namespace Disassembler

theorem symbols_labelLine : symbolsOf (d.labelLine pc) = (d.labels.get? pc).toList := by
  unfold labelLine
  cases d.labels.get? pc <;> rfl

theorem lies_labelLine (ready : Ready image map d) :
    Lies image map region pc (d.labelLine pc) pc := by
  unfold labelLine
  rw [ready.labels]
  cases named : (labelled image map).labels.get? pc with
  | none => exact .nil
  | some name => exact .label named .nil

/-- One round of the loop for code. -/
theorem codeLines_writes (ready : Ready image map d) (isCode : region.kind = .code)
    (printed : Printed image region pc) {lines : Source} {next : Nat}
    (wrote : d.codeLines image pc = some (lines, [], next)) :
    next = pc + advance image region pc ∧ ∃ item, lines = [.item item] ∧
      Writes image map region pc item ∧ pc + Item.size fixed item = next ∧
      ∀ b, Uses image map region pc b → ∃ name, item.name? = some name ∧
        (labelled image map).labels.get? b = some name := by
  have coded : ∀ b, Uses image map region pc b → image.Reached pc ∧ image.Names map pc b := by
    rintro b (⟨-, reached, names⟩ | ⟨⟨isData, -⟩, -⟩)
    · exact ⟨reached, names⟩
    · rw [isCode] at isData
      cases isData
  unfold codeLines at wrote
  unfold advance
  rw [if_pos isCode]
  by_cases reached : image.Reached pc
  · rw [if_neg (not_not.mpr ((ready.starts pc).mpr reached))] at wrote
    obtain ⟨mnem, mode, found⟩ := reached.decode
    rw [if_pos reached, found]
    obtain ⟨-, isOp, -⟩ := Image.decode_eq_some_iff.mp found
    simp only [isOp, Option.map_eq_some_iff, Prod.mk.injEq] at wrote
    obtain ⟨⟨operand, problems⟩, rendered, rfl, rfl, rfl⟩ := wrote
    obtain ⟨site, written⟩ := operand_written ready.silent ready.labels reached found rendered
    refine ⟨rfl, _, rfl, .instruction isCode printed reached found written, ?_, ?_⟩
    · rw [size_op written]
    · exact fun b uses => written.named found (coded b uses).2
  · rw [if_pos fun starts => reached ((ready.starts pc).mp starts)] at wrote
    simp only [Option.some.injEq, Prod.mk.injEq] at wrote
    obtain ⟨rfl, -, rfl⟩ := wrote
    rw [if_neg reached]
    have one : image.text pc (pc + 1) = [image.byte pc] := by
      rw [Image.text_cons (Nat.lt_succ_self pc), Image.text_self]
    refine ⟨rfl, _, rfl, ?_, rfl, fun b uses => absurd (coded b uses).1 reached⟩
    rw [← one]
    exact .bytes (Nat.le_succ pc)

theorem emitCode_wrote (ready : Ready image map d) (isCode : region.kind = .code)
    (enough : region.hi ≤ pc + fuel) (printed : pc < region.hi → Printed image region pc)
    (emitted : d.emitCode image region.hi fuel pc = some (lines, [])) :
    Wrote image map region fuel pc lines := by
  induction fuel generalizing pc lines with
  | zero =>
      obtain rfl := congrArg Prod.fst (Option.some.inj emitted)
      exact .nothing (.inl rfl)
  | succ fuel inductionHypothesis =>
      rw [emitCode] at emitted
      by_cases inside : pc < region.hi
      · rw [if_pos inside] at emitted
        obtain ⟨⟨one, problems, next⟩, isOne, emitted⟩ := Option.bind_eq_some_iff.mp emitted
        obtain ⟨⟨rest, others⟩, isRest, emitted⟩ := Option.bind_eq_some_iff.mp emitted
        obtain ⟨rfl, silent⟩ := Prod.mk.inj (Option.some.inj emitted)
        obtain ⟨rfl, rfl⟩ := List.append_eq_nil_iff.mp silent
        obtain ⟨rfl, item, rfl, writes, size, named⟩ :=
          codeLines_writes ready isCode (printed inside) isOne
        have more : 0 < advance image region pc := advance_pos
        apply Wrote.round inside
        · rw [symbolsOf_append, symbols_labelLine, ready.labels]
          exact List.append_nil _
        · apply (lies_labelLine ready).append
          rw [← size]
          exact .item writes .nil
        · intro b isUsed
          exact ⟨item, List.mem_append_right _ (List.mem_singleton.mpr rfl), named b isUsed⟩
        · exact inductionHypothesis (by omega) (fun inside' => .next (printed inside) inside') isRest
      · rw [if_neg inside] at emitted
        obtain rfl := congrArg Prod.fst (Option.some.inj emitted)
        exact .nothing (.inr inside)

/-- One of the vectors. -/
theorem vectorLine_writes (ready : Ready image map d) (vectors : region.Vectors)
    (printed : Printed image region pc) : ∃ expr, d.vectorLine image pc = [.item (.dw expr)] ∧
      Writes image map region pc (.dw expr) ∧ ∀ b, Uses image map region pc b →
        ∃ name, expr.name? = some name ∧ (labelled image map).labels.get? b = some name := by
  have used : ∀ b, Uses image map region pc b →
      Labelled image map (image.word pc) ∧ b = image.word pc := by
    rintro b (⟨isCode, -⟩ | ⟨-, uses⟩)
    · rw [vectors.1] at isCode
      cases isCode
    · exact uses
  simp only [vectorLine, ready.labels]
  cases named : (labelled image map).labels.get? (image.word pc) with
  | some name =>
      have has := labelled_iff.mpr ⟨name, named⟩
      refine ⟨_, rfl, .vector vectors printed (.label named) fun a => ?_, fun b uses => ?_⟩
      · rw [Option.some.injEq, and_iff_right has, eq_comm]
      · obtain rfl := (used b uses).2
        exact ⟨name, rfl, named⟩
  | none =>
      have unlabelled : ¬ Labelled image map (image.word pc) := unlabelled_iff.mpr named
      exact ⟨_, rfl, .vector vectors printed (.number _) fun a =>
        iff_of_false (nomatch ·) fun has => unlabelled has.1,
        fun b uses => absurd (used b uses).1 unlabelled⟩

/-- The loop for the vectors. -/
theorem emitData_vectors (ready : Ready image map d) (vectors : region.Vectors)
    (enough : region.hi ≤ pc + fuel) (printed : pc < region.hi → Printed image region pc) :
    Wrote image map region fuel pc (d.emitData image region fuel pc []) := by
  have isData : ¬ region.kind = .code := by
    rw [vectors.1]
    exact (nomatch ·)
  have two : ∀ pc, advance image region pc = 2 := by
    intro pc
    unfold advance
    rw [if_neg isData, if_pos vectors]
  induction fuel generalizing pc with
  | zero => exact .nothing (.inl rfl)
  | succ fuel inductionHypothesis =>
      rw [emitData]
      by_cases inside : pc < region.hi
      · have row : (if pc ∈ d.labels.keys then flushRow [] else []) = ([] : Source) := by
          split <;> rfl
        have row' : (if pc ∈ d.labels.keys then [] else []) = ([] : List Nat) := ite_self _
        simp only [if_pos inside, if_pos vectors.2, row, row', List.nil_append]
        have next := two pc
        obtain ⟨expr, isLine, writes, named⟩ := vectorLine_writes ready vectors (printed inside)
        have rest : Wrote image map region fuel (pc + advance image region pc)
            (d.emitData image region fuel (pc + 2) []) := by
          rw [next]
          apply inductionHypothesis (by omega)
          intro inside'
          rw [← next] at inside' ⊢
          exact .next (printed inside) inside'
        apply Wrote.round inside _ _ _ rest
        · rw [isLine, symbolsOf_append, symbols_labelLine, ready.labels]
          exact List.append_nil _
        · apply (lies_labelLine ready).append
          rw [next, isLine]
          exact .item writes .nil
        · intro b isUsed
          rw [isLine]
          exact ⟨_, List.mem_append_right _ (List.mem_singleton.mpr rfl), named b isUsed⟩
      · simp only [if_neg inside]
        exact .nothing (.inr inside)

theorem lies_flushRow {start : Nat} (low : start ≤ pc) :
    Lies image map region start (flushRow (image.text start pc)) pc := by
  unfold flushRow
  split
  · rename_i empty
    have none : pc - start = 0 := by
      rw [← @Image.text_length image, empty, List.length_nil]
    obtain rfl : start = pc := by omega
    exact .nil
  · have size : start + Item.size fixed (.db (image.text start pc)) = pc := by
      rw [Item.size, Image.text_length]
      omega
    apply Spans.item (.bytes low)
    rw [size]
    exact .nil

theorem symbols_flushRow {row : List Nat} : symbolsOf (flushRow row) = [] := by
  unfold flushRow
  split <;> rfl

/-- The loop for the tables: the bytes of a row wait until it is full, or a label
comes, or the region ends. -/
theorem emitData_rows (ready : Ready image map d) {start : Nat} {row : List Nat}
    (isData : region.kind = .data) (plain : ¬ region.Vectors) (enough : region.hi ≤ pc + fuel)
    (isRow : row = image.text start pc) (low : start ≤ pc) (high : pc ≤ region.hi) :
    symbolsOf (d.emitData image region fuel pc row) =
        (sweep (advance image region) region.hi fuel pc).filterMap
          (fun a => (labelled image map).labels.get? a) ∧
      Lies image map region start (d.emitData image region fuel pc row) region.hi := by
  have plain' : ¬(region.hi - region.lo = 6 ∧ region.lo = 0xF7FA) := fun both => plain ⟨isData, both⟩
  have ones : ∀ pc, advance image region pc = 1 := by
    intro pc
    unfold advance
    rw [if_neg (by rw [isData]; exact (nomatch ·)), if_neg plain]
  induction fuel generalizing pc start row with
  | zero =>
      obtain rfl : pc = region.hi := by omega
      subst isRow
      exact ⟨symbols_flushRow, lies_flushRow low⟩
  | succ fuel inductionHypothesis =>
      by_cases inside : pc < region.hi
      · have comes : sweep (advance image region) region.hi (fuel + 1) pc =
            pc :: sweep (advance image region) region.hi fuel (pc + 1) := by
          rw [sweep, if_pos inside, ones]
        have longer : image.text start pc ++ [image.byte pc] = image.text start (pc + 1) := by
          rw [← Image.text_append low (Nat.le_succ pc), Image.text_cons (Nat.lt_succ_self pc),
            Image.text_self]
        rw [emitData, comes, isRow]
        simp only [if_pos inside, if_neg plain']
        by_cases has : pc ∈ d.labels.keys
        · simp only [if_pos has, List.nil_append]
          have single : [image.byte pc] = image.text pc (pc + 1) := by
            rw [Image.text_cons (Nat.lt_succ_self pc), Image.text_self]
          obtain ⟨symbols, lies⟩ := inductionHypothesis (by omega) single (Nat.le_succ pc) inside
          rw [if_neg (by simp)]
          constructor
          · rw [symbolsOf_append, symbolsOf_append, symbols_flushRow, symbols_labelLine,
              ready.labels, symbols, List.filterMap_cons]
            cases (labelled image map).labels.get? pc <;> rfl
          · exact ((lies_flushRow low).append (lies_labelLine ready)).append lies
        · have none : (labelled image map).labels.get? pc = none := by
            rw [← ready.labels]
            exact Dict.get?_eq_none_iff.mpr has
          have free : d.labelLine pc = [] := by
            rw [labelLine, ready.labels, none]
            rfl
          simp only [if_neg has, free, List.nil_append, longer, List.filterMap_cons, none]
          split
          · obtain ⟨symbols, lies⟩ := inductionHypothesis (by omega) Image.text_self.symm
              (Nat.le_refl (pc + 1)) inside
            refine ⟨?_, (lies_flushRow (low.trans (Nat.le_succ pc))).append lies⟩
            rw [symbolsOf_append, symbols_flushRow, symbols]
            rfl
          · exact inductionHypothesis (by omega) rfl (low.trans (Nat.le_succ pc)) inside
      · obtain rfl : pc = region.hi := by omega
        subst isRow
        rw [emitData, sweep]
        simp only [if_neg inside]
        exact ⟨symbols_flushRow, lies_flushRow low⟩

/-- What is written for a region. -/
theorem emitRegion_wrote (ready : Ready image map d) (below : region.lo ≤ region.hi)
    (emitted : d.emitRegion image region = some (lines, [])) :
    Wrote image map region (region.hi - region.lo) region.lo lines := by
  have enough : region.hi ≤ region.lo + (region.hi - region.lo) := by omega
  unfold emitRegion at emitted
  by_cases isCode : region.kind = .code
  · rw [if_pos isCode] at emitted
    exact emitCode_wrote ready isCode enough .first emitted
  · rw [if_neg isCode] at emitted
    obtain rfl := congrArg Prod.fst (Option.some.inj emitted)
    by_cases vectors : region.Vectors
    · exact emitData_vectors ready vectors enough .first
    · have isData : region.kind = .data := by
        cases isKind : region.kind with
        | code => exact absurd isKind isCode
        | data => rfl
      obtain ⟨symbols, lies⟩ := emitData_rows ready isData vectors enough Image.text_self.symm
        (Nat.le_refl region.lo) below
      have ones : ∀ pc, advance image region pc = 1 := by
        intro pc
        unfold advance
        rw [if_neg isCode, if_neg vectors]
      refine ⟨symbols, ?_, ?_⟩
      · rw [(halt_eq_iff below (fun _ => advance_pos) enough).mpr]
        · exact lies
        · intro a member
          rw [ones]
          exact (sweep_bounds member).2
      · rintro a - b (⟨isCode', -⟩ | ⟨vectors', -⟩)
        · exact absurd isCode' isCode
        · exact absurd vectors' vectors

end Disassembler

end DragsterNet.Disasm
