/-
Module: DragsterNet.Disasm.Roundtrip
Purpose: When a source that is written without a problem is assembled to the image
  again, with each label that it refers to defined once.
Trusted boundary: none
Main exports: names, Guaranteed, Disassembler.emitRegions_wrote, roundtrip_problems,
  disassembly_guaranteed_iff
-/
import DragsterNet.Disasm.Emission

namespace DragsterNet.Disasm

open Lib Layout

/-- The symbols that the items of a source refer to. -/
def names (source : Source) : List String :=
  source.filterMap fun line =>
    match line with
    | .item item => item.name?
    | _ => none

/-- Each symbol that the source refers to is defined once, and the source is assembled
to the image. -/
structure Guaranteed (image : Image) (source : Source) : Prop where
  defined : ∀ name ∈ names source,
    (symbolsOf (included source)).countP (fun symbol => symbol.toUpper = name.toUpper) = 1
  assembled : assemble source = some image.bytes

variable {image : Image} {map : Map} {d : Disassembler} {regions : List Region}
  {parts : List Source} {lines source : Source} {want : Nat} {name : String}

/-! ### The regions one after the other -/

/-- The addresses that the loop of a region comes by. -/
def stops (image : Image) (region : Region) : List Nat :=
  sweep (advance image region) region.hi (region.hi - region.lo) region.lo

/-- The parts of the source are written for the regions. -/
abbrev Parts (image : Image) (map : Map) (regions : List Region) (parts : List Source) : Prop :=
  List.Forall₂ (fun region part =>
    Wrote image map region (region.hi - region.lo) region.lo part) regions parts

theorem Tiles.below (tiles : Tiles want regions) : ∀ region ∈ regions, region.lo ≤ region.hi := by
  induction regions generalizing want with
  | nil => exact fun _ absent => absurd absent List.not_mem_nil
  | cons region rest inductionHypothesis =>
      obtain ⟨-, below, tiles'⟩ := tiles
      exact List.forall_mem_cons.mpr ⟨below, inductionHypothesis tiles'⟩

theorem mem_stops {region : Region} {pc : Nat} (below : region.lo ≤ region.hi) :
    pc ∈ stops image region ↔ Printed image region pc :=
  mem_sweep (fun _ => advance_pos) (by omega)

/-- The loop ends where the region does if no instruction goes beyond. -/
theorem stops_end {region : Region} (below : region.lo ≤ region.hi) :
    halt (advance image region) region.hi (region.hi - region.lo) region.lo = region.hi ↔
      ∀ pc ∈ stops image region, pc + advance image region pc ≤ region.hi :=
  halt_eq_iff below (fun _ => advance_pos) (by omega)

namespace Disassembler

theorem emitRegions_wrote (ready : Ready image map d) (below : ∀ region ∈ regions, region.lo ≤ region.hi)
    (emitted : d.emitRegions image regions = some (lines, [])) :
    ∃ parts, lines = parts.flatten ∧ Parts image map regions parts := by
  induction regions generalizing lines with
  | nil =>
      obtain rfl := congrArg Prod.fst (Option.some.inj emitted)
      exact ⟨[], rfl, .nil⟩
  | cons region rest inductionHypothesis =>
      obtain ⟨first, below'⟩ := List.forall_mem_cons.mp below
      obtain ⟨⟨one, problems⟩, isOne, emitted⟩ := Option.bind_eq_some_iff.mp emitted
      obtain ⟨⟨more, others⟩, isMore, emitted⟩ := Option.bind_eq_some_iff.mp emitted
      obtain ⟨rfl, silent⟩ := Prod.mk.inj (Option.some.inj emitted)
      obtain ⟨rfl, rfl⟩ := List.append_eq_nil_iff.mp silent
      obtain ⟨parts, rfl, wrote⟩ := inductionHypothesis below' isMore
      exact ⟨one :: parts, rfl, .cons (emitRegion_wrote ready first isOne) wrote⟩

end Disassembler

namespace Parts

theorem symbols (wrote : Parts image map regions parts) : symbolsOf parts.flatten =
    (regions.flatMap (stops image)).filterMap fun a => (labelled image map).labels.get? a := by
  induction wrote with
  | nil => rfl
  | cons one _ inductionHypothesis =>
      rw [List.flatten_cons, symbolsOf_append, one.symbols, inductionHypothesis, List.flatMap_cons,
        List.filterMap_append]
      rfl

/-- No address is come by twice. -/
theorem ascending (tiles : Tiles want regions) :
    (regions.flatMap (stops image)).Pairwise (· < ·) ∧
      ∀ a ∈ regions.flatMap (stops image), want ≤ a := by
  induction regions generalizing want with
  | nil => exact ⟨.nil, fun _ absent => absurd absent List.not_mem_nil⟩
  | cons region rest inductionHypothesis =>
      obtain ⟨rfl, below, tiles'⟩ := tiles
      obtain ⟨later, bound⟩ := inductionHypothesis tiles'
      rw [List.flatMap_cons]
      constructor
      · rw [List.pairwise_append]
        refine ⟨sweep_ascending fun _ => advance_pos, later, fun a here b there => ?_⟩
        exact (sweep_bounds here).2.trans_le (bound b there)
      · intro a member
        rcases List.mem_append.mp member with here | there
        · exact (sweep_bounds here).1
        · exact below.trans (bound a there)

/-- What is written is as long as the regions, or longer where an instruction goes
beyond the end of its own. -/
theorem length (tiles : Tiles want regions) (wrote : Parts image map regions parts) :
    romEnd ≤ want + lengthOf (Item.size fixed) parts.flatten ∧
      (want + lengthOf (Item.size fixed) parts.flatten = romEnd ↔
        ∀ region ∈ regions, ∀ pc ∈ stops image region,
          pc + advance image region pc ≤ region.hi) := by
  induction wrote generalizing want with
  | nil =>
      have ends : want = romEnd := tiles
      rw [List.flatten_nil, lengthOf, ends]
      exact ⟨Nat.le_refl _, iff_of_true rfl fun _ absent => absurd absent List.not_mem_nil⟩
  | @cons region part rest parts one _ inductionHypothesis =>
      obtain ⟨rfl, below, tiles'⟩ := tiles
      obtain ⟨least, exactly⟩ := inductionHypothesis tiles'
      have enough : region.hi ≤ region.lo + (region.hi - region.lo) := by omega
      have own := one.lies.length
      have own' : region.hi ≤ halt (advance image region) region.hi (region.hi - region.lo) region.lo :=
        le_halt (fun _ => advance_pos) enough
      have whole := @stops_end image region below
      rw [List.flatten_cons, lengthOf_append, ← Nat.add_assoc, own]
      refine ⟨by omega, ?_⟩
      rw [List.forall_mem_cons, ← exactly, ← whole]
      omega

theorem mem_wrote (wrote : Parts image map regions parts) {region : Region} (member : region ∈ regions) :
    ∃ part ∈ parts, Wrote image map region (region.hi - region.lo) region.lo part := by
  induction wrote with
  | nil => cases member
  | cons one _ inductionHypothesis =>
      rcases List.mem_cons.mp member with rfl | later
      · exact ⟨_, List.mem_cons_self, one⟩
      · obtain ⟨part, has, other⟩ := inductionHypothesis later
        exact ⟨part, List.mem_cons_of_mem _ has, other⟩

/-- Each line is written for one of the regions. -/
theorem mem_lines (wrote : Parts image map regions parts) {line : Line String Item}
    (member : line ∈ parts.flatten) : (∃ symbol, line = .label symbol) ∨
      ∃ region ∈ regions, ∃ pc item, line = .item item ∧ Writes image map region pc item := by
  induction wrote with
  | nil => cases member
  | @cons region part rest parts one _ inductionHypothesis =>
      rw [List.flatten_cons, List.mem_append] at member
      rcases member with here | later
      · cases line with
        | equ symbol value => exact absurd here one.lies.no_equ
        | label symbol => exact .inl ⟨symbol, rfl⟩
        | item item =>
            obtain ⟨pc, writes⟩ := one.lies.lies_of_mem here
            exact .inr ⟨region, List.mem_cons_self, pc, item, rfl, writes⟩
      · refine (inductionHypothesis later).imp_right ?_
        rintro ⟨region, has, found⟩
        exact ⟨region, List.mem_cons_of_mem _ has, found⟩

/-- If no instruction goes beyond the end of its region, what is written for the
regions lies where they do. -/
theorem spans (tiles : Tiles want regions) (wrote : Parts image map regions parts)
    (ends : ∀ region ∈ regions, ∀ pc ∈ stops image region, pc + advance image region pc ≤ region.hi) :
    Spans (Item.size fixed) (fun a name => (labelled image map).labels.get? a = some name)
      (fun pc item => ∃ region ∈ regions, Writes image map region pc item) want parts.flatten romEnd := by
  induction wrote generalizing want with
  | nil =>
      obtain rfl : want = romEnd := tiles
      exact .nil
  | @cons region part rest parts one _ inductionHypothesis =>
      obtain ⟨rfl, below, tiles'⟩ := tiles
      obtain ⟨first, ends'⟩ := List.forall_mem_cons.mp ends
      have own := one.lies
      rw [(stops_end below).mpr first] at own
      have here := own.mono (fun _ _ named => named) fun pc item writes =>
        (⟨region, List.mem_cons_self, writes⟩ : ∃ other ∈ region :: rest, Writes image map other pc item)
      have there := (inductionHypothesis tiles' ends').mono (fun _ _ named => named)
        fun pc item ⟨other, has, writes⟩ =>
          (⟨other, List.mem_cons_of_mem _ has, writes⟩ :
            ∃ other ∈ region :: rest, Writes image map other pc item)
      exact here.append there

/-- The names of the source are different for AS. -/
theorem distinct (tiles : Tiles want regions) (silent : (labelled image map).problems = [])
    (wrote : Parts image map regions parts) :
    ((fixed.map Prod.fst ++ symbolsOf parts.flatten).map String.toUpper).Nodup := by
  rw [List.map_append, List.nodup_append', List.map_map]
  refine ⟨fixed_distinct, ?_, ?_⟩
  · rw [wrote.symbols, List.Nodup, List.pairwise_map, List.pairwise_filterMap]
    refine (ascending tiles).1.imp fun {a b} less name found name' found' same => ?_
    exact less.ne (label_unique silent found found' same)
  · intro upper isFixed isLabel
    obtain ⟨entry, member, rfl⟩ := List.mem_map.mp isFixed
    obtain ⟨name, isName, same⟩ := List.mem_map.mp isLabel
    rw [wrote.symbols, List.mem_filterMap] at isName
    obtain ⟨a, -, found⟩ := isName
    exact label_apart silent found entry member same.symm

end Parts

/-! ### The source and its assembly -/

theorem zpLines_eq : Disassembler.zpLines = equates (zp.map fun entry => (entry.2, entry.1)) := by
  decide +kernel

theorem included_eq : included (Disassembler.zpLines ++ lines) = equates fixed ++ lines := by
  rw [included, zpLines_eq, ← List.append_assoc]
  unfold equates fixed
  rw [List.map_append]

theorem Means.good {labels : Dict Nat String} {expr : Expr} {site : Option Nat} {value : Int}
    (means : Means labels expr site value) : expr.Good := by
  cases means with
  | fixedOffset _ _ near | labelOffset _ _ near => exact near
  | _ => trivial

theorem Writes.good {region : Region} {pc : Nat} {item : Item}
    (writes : Writes image map region pc item) : item.Good := by
  cases writes with
  | bytes | vector => trivial
  | instruction _ _ _ _ written =>
      intro operand' isOperand
      rw [operand?_format] at isOperand
      split at isOperand
      · cases isOperand
      · rename_i more
        obtain rfl := Option.some.inj isOperand
        exact (written.means more).good

/-- AS places each label, and assembles each item where it is. -/
theorem Parts.assemble (tiles : Tiles romBase regions) (silent : (labelled image map).problems = [])
    (wrote : Parts image map regions parts) :
    Disasm.assemble (Disassembler.zpLines ++ parts.flatten) =
      codeOf (Item.code fixed (fixed ++ definitions (Item.size fixed) romBase parts.flatten))
        (located (Item.size fixed) romBase parts.flatten) := by
  have free : ∀ symbol value, .equ symbol value ∉ parts.flatten := by
    intro symbol value member
    rcases wrote.mem_lines member with ⟨_, same⟩ | ⟨_, _, _, _, same, _⟩ <;> cases same
  have met : Steady.Met (Item.size fixed) Fits romBase [] (equates fixed ++ parts.flatten) :=
    Steady.met_equates (fun labels above => ⟨labels, rfl, above⟩) free
  have goods : ∀ item, .item item ∈ equates fixed ++ parts.flatten → item.Good := by
    intro item member
    rcases List.mem_append.mp member with front | back
    · exact absurd front item_not_mem_equates
    · rcases wrote.mem_lines back with ⟨_, same⟩ | ⟨region, -, pc, item', same, writes⟩
      · cases same
      · obtain rfl := Line.item.inj same
        exact writes.good
  unfold Disasm.assemble
  rw [included_eq, steady.assemble_eq met goods, symbolsOf_append, symbolsOf_equates,
    if_pos (wrote.distinct tiles silent), definitions_append, definitions_equates,
    located_append, located_equates, lengthOf_equates]
  rfl

/-- A source that is written without a problem consists of what is written for the
regions. -/
theorem disassemble_parts (clean : disassemble image map = some (source, [])) :
    (labelled image map).problems = [] ∧ ∃ parts,
      source = Disassembler.zpLines ++ parts.flatten ∧ Parts image map map.regions parts := by
  obtain ⟨⟨text, problems⟩, isText, clean⟩ := Option.bind_eq_some_iff.mp clean
  obtain ⟨⟨lines, others⟩, isLines, isText⟩ := Option.bind_eq_some_iff.mp isText
  obtain ⟨rfl, rfl⟩ := Prod.mk.inj (Option.some.inj isText)
  obtain ⟨rfl, silent⟩ := Prod.mk.inj (Option.some.inj clean)
  obtain ⟨silent, rfl⟩ := List.append_eq_nil_iff.mp silent
  obtain ⟨silent, -⟩ := List.append_eq_nil_iff.mp silent
  obtain ⟨silent, -⟩ := List.append_eq_nil_iff.mp silent
  obtain ⟨silent, -⟩ := List.append_eq_nil_iff.mp silent
  obtain ⟨silent, -⟩ := List.append_eq_nil_iff.mp silent
  have ready : Ready image map
      (((labelled image map).roundtrip image).regionsAgree map) :=
    ⟨fun pc => Disassembler.mem_starts, rfl, silent⟩
  obtain ⟨parts, rfl, wrote⟩ := Disassembler.emitRegions_wrote ready map.tiles.below isLines
  exact ⟨silent, parts, rfl, wrote⟩

theorem mem_names (wrote : Parts image map map.regions parts)
    (named : name ∈ names (Disassembler.zpLines ++ parts.flatten)) :
    ∃ region ∈ map.regions, ∃ pc item, Writes image map region pc item ∧ item.name? = some name := by
  obtain ⟨line, member, named⟩ := List.mem_filterMap.mp named
  cases line with
  | equ _ _ | label _ => cases named
  | item item =>
      rw [zpLines_eq] at member
      rcases List.mem_append.mp member with front | back
      · exact absurd front item_not_mem_equates
      · rcases wrote.mem_lines back with ⟨_, same⟩ | ⟨region, has, pc, item', same, writes⟩
        · cases same
        · obtain rfl := Line.item.inj same
          exact ⟨region, has, pc, item, writes, named⟩

/-- The labels of the source are those of the addresses that are printed. -/
theorem mem_symbols (wrote : Parts image map map.regions parts) : name ∈ symbolsOf parts.flatten ↔
    ∃ a, (∃ region ∈ map.regions, Printed image region a) ∧
      (labelled image map).labels.get? a = some name := by
  rw [wrote.symbols, List.mem_filterMap]
  apply exists_congr
  intro a
  apply and_congr_left
  intro _
  rw [List.mem_flatMap]
  apply exists_congr
  intro region
  apply and_congr_right
  intro has
  exact mem_stops (map.tiles.below region has)

/-! ### What the checks guarantee -/

/-- A source that is assembled to the image, and that defines its names, is sound. -/
theorem sound_of_guaranteed (silent : (labelled image map).problems = [])
    (wrote : Parts image map map.regions parts)
    (guaranteed : Guaranteed image (Disassembler.zpLines ++ parts.flatten)) : Sound image map where
  ends := by
    have assembled := guaranteed.assembled
    rw [wrote.assemble map.tiles silent] at assembled
    have long : ∀ loc item own,
        Item.code fixed (fixed ++ definitions (Item.size fixed) romBase parts.flatten) loc item =
          some own → own.length = Item.size fixed item := fun _ _ _ coded => code_length coded
    have length := codeOf_length long assembled
    rw [Image.bytes, List.length_ofFn] at length
    have whole : romBase + lengthOf (Item.size fixed) parts.flatten = romEnd := by
      rw [← length]
      rfl
    intro region has pc printed
    exact (wrote.length map.tiles).2.mp whole region has pc
      ((mem_stops (map.tiles.below region has)).mpr printed)
  defined := by
    intro region has pc printed a uses
    obtain ⟨part, isPart, written⟩ := wrote.mem_wrote has
    obtain ⟨item, isItem, name, named, found⟩ :=
      written.uses pc ((mem_stops (map.tiles.below region has)).mpr printed) a uses
    have isName : name ∈ names (Disassembler.zpLines ++ parts.flatten) :=
      List.mem_filterMap.mpr ⟨.item item,
        List.mem_append_right _ (List.mem_flatten.mpr ⟨part, isPart, isItem⟩), named⟩
    have once := guaranteed.defined name isName
    obtain ⟨symbol, isSymbol, same⟩ := List.countP_pos_iff.mp (once ▸ Nat.one_pos)
    rw [included_eq, symbolsOf_append, symbolsOf_equates] at isSymbol
    have same' : symbol.toUpper = name.toUpper := of_decide_eq_true same
    rcases List.mem_append.mp isSymbol with isFixed | isLabel
    · obtain ⟨entry, member, rfl⟩ := List.mem_map.mp isFixed
      exact absurd same' (label_apart silent found entry member)
    · obtain ⟨b, printed', found'⟩ := (mem_symbols wrote).mp isLabel
      obtain rfl := label_unique silent found found' same'.symm
      exact printed'

/-- A sound source is assembled to the image, and defines its names. -/
theorem guaranteed_of_sound (silent : (labelled image map).problems = [])
    (wrote : Parts image map map.regions parts) (sound : Sound image map) :
    Guaranteed image (Disassembler.zpLines ++ parts.flatten) := by
  have distinct := wrote.distinct map.tiles silent
  have keys : (definitions (Item.size fixed) romBase parts.flatten).map Prod.fst =
      symbolsOf parts.flatten := definitions_symbols
  have spans := wrote.spans map.tiles fun region has pc member =>
    sound.ends region has pc ((mem_stops (map.tiles.below region has)).mp member)
  -- a label that is used is one of the source
  have defined : ∀ {region pc a name}, region ∈ map.regions → Printed image region pc →
      Uses image map region pc a → (labelled image map).labels.get? a = some name →
        name ∈ symbolsOf parts.flatten := fun has printed uses found =>
    (mem_symbols wrote).mpr ⟨_, sound.defined _ has _ printed _ uses, found⟩
  constructor
  · intro name isName
    have isSymbol : name ∈ fixed.map Prod.fst ++ symbolsOf parts.flatten := by
      obtain ⟨region, has, pc, item, writes, named⟩ := mem_names wrote isName
      rcases writes.name_cases named with ⟨value, isFixed⟩ | ⟨a, printed, uses, found⟩
      · exact List.mem_append_left _ (List.mem_map_of_mem isFixed)
      · exact List.mem_append_right _ (defined has printed uses found)
    have once := List.count_eq_one_of_mem distinct (List.mem_map_of_mem isSymbol)
    rw [included_eq, symbolsOf_append, symbolsOf_equates]
    rw [List.count, List.countP_map] at once
    rw [← once]
    exact List.countP_congr fun symbol _ => by simp
  · rw [wrote.assemble map.tiles silent, ← Image.text_rom]
    have distinct' : ((fixed ++ definitions (Item.size fixed) romBase parts.flatten).map
        fun entry => entry.1.toUpper).Nodup := by
      have upper := distinct
      rw [← keys, ← List.map_append, List.map_map] at upper
      exact upper
    apply spans.codeOf (fun _ => Image.text_self) (fun _ _ _ => Image.text_append)
    rintro pc item ⟨region, has, writes⟩
    apply writes.code distinct' fun _ member => List.mem_append_left _ member
    intro printed a uses name found
    have isSymbol := defined has printed uses found
    rw [← keys] at isSymbol
    obtain ⟨⟨name', b⟩, member, rfl⟩ := List.mem_map.mp isSymbol
    obtain rfl := label_unique silent found (spans.definition member) rfl
    exact List.mem_append_right _ member

/-! ### Runs without a problem -/

/-- The opcodes are found again from their mnemonics and modes. -/
theorem enc_ops : ∀ entry ∈ opcodes, enc.get? entry.2 = some entry.1 := by
  decide +kernel

/-- The round trip cannot fail. -/
theorem roundtrip_problems : (d.roundtrip image).problems = d.problems := by
  unfold Disassembler.roundtrip
  refine (congrArg (d.problems ++ ·) (List.flatMap_eq_nil_iff.mpr fun pc _ => ?_)).trans
    (List.append_nil _)
  dsimp only
  cases isOp : ops (image.byte pc) with
  | none => rfl
  | some found => exact if_neg (not_not.mpr (enc_ops _ (mem_of_lookup isOp)))

theorem vcsNames_defined : vcsNames ⊆ vcsInc.map Prod.fst := by
  decide +kernel

/-- With no names but those of the map, the check for collisions is silent. -/
theorem labelled_silent (walked : (Disassembler.walk image {} romBase).problems = [])
    (labels : (labelled image map).labels.entries = symbols ++ dataLbl) :
    (labelled image map).problems = [] := by
  have split : (labelled image map).problems = (Disassembler.walk image {} romBase).problems ++
      (((labelled image map).labels.entries ++ zp).foldl Disassembler.checkName
        (Dict.empty, [])).2 := rfl
  have given : ((vcsInc.map Prod.fst).map String.toUpper ++
      (symbols ++ dataLbl ++ zp).map fun entry => entry.2.toUpper).Nodup := by
    have names := names_distinct
    simp only [fixed, List.map_append, List.map_map, List.append_assoc] at names ⊢
    refine (List.Perm.append_left _ ?_).nodup names
    rw [← List.append_assoc (List.map _ symbols)]
    exact List.perm_append_comm
  obtain ⟨-, distinct, apart⟩ := List.nodup_append'.mp given
  rw [split, walked, labels, List.nil_append]
  refine Disassembler.silent_foldl ?_ distinct (fun _ _ => rfl) rfl
  intro entry member isRegister
  apply apart _ (List.mem_map_of_mem (f := fun entry : Nat × String => entry.2.toUpper) member)
  exact List.map_subset _ vcsNames_defined isRegister

/-- A silent walk and silent names leave the regions and the emission to be looked at. -/
theorem disassemble_clean (silent : (labelled image map).problems = [])
    (extra : (labelled image map).covered ⊆ Disassembler.declared map)
    (missing : Disassembler.declared map ⊆ (labelled image map).covered)
    (emitted : ((((labelled image map).roundtrip image).regionsAgree map).emitRegions image
      map.regions).map Prod.snd = some []) :
    ∃ source, disassemble image map = some (source, []) := by
  obtain ⟨⟨lines, problems⟩, isLines, rfl⟩ := Option.map_eq_some_iff.mp emitted
  have agree : (((labelled image map).roundtrip image).regionsAgree map).problems = [] := by
    have none : (labelled image map).covered.filter (fun a => a ∉ Disassembler.declared map) = [] :=
      List.filter_eq_nil_iff.mpr fun a member => by simpa using extra member
    have none' : (Disassembler.declared map).filter (fun a => a ∉ (labelled image map).covered) = [] :=
      List.filter_eq_nil_iff.mpr fun a member => by simpa using missing member
    have both : (((labelled image map).roundtrip image).regionsAgree map).problems =
        ((labelled image map).roundtrip image).problems ++
          (sorted ((labelled image map).covered.filter fun a => a ∉ Disassembler.declared map)).map
            .reachedAsCode ++
          (sorted ((Disassembler.declared map).filter fun a => a ∉ (labelled image map).covered)).map
            .neverReached := rfl
    rw [both, roundtrip_problems, silent, none, none']
    rfl
  refine ⟨Disassembler.zpLines ++ lines, ?_⟩
  have whole : disassemble image map =
      ((((labelled image map).roundtrip image).regionsAgree map).emit image map).bind fun text =>
        some (text.1, (((labelled image map).roundtrip image).regionsAgree map).problems ++ text.2) :=
    rfl
  rw [whole, Disassembler.emit, isLines, agree]
  rfl

/-- Where the disassembler records no problem, each label that its source refers to is
defined once and the source is assembled to the image, if and only if no instruction
that is written goes beyond the end of its region and each label that is written in an
operand is that of an address that is printed. -/
theorem disassembly_guaranteed_iff (clean : disassemble image map = some (source, [])) :
    Guaranteed image source ↔ Sound image map := by
  obtain ⟨silent, parts, rfl, wrote⟩ := disassemble_parts clean
  exact ⟨sound_of_guaranteed silent wrote, guaranteed_of_sound silent wrote⟩

/-- A jump to itself. -/
def loopImage : Image := fun index => ([0x4C, 0x00, 0xF0] : List Byte).getD index 0

def loopMap : Map where
  regions := [⟨0xF000, 0xF003, .code⟩, ⟨0xF003, 0xF800, .data⟩]
  tiles := by decide

theorem loop_clean : ∃ source, disassemble loopImage loopMap = some (source, []) :=
  disassemble_clean (labelled_silent (by decide +kernel) (by decide +kernel)) (by decide +kernel)
    (by decide +kernel) (by decide +kernel)

theorem loop_sound : Sound loopImage loopMap where
  ends := by
    intro region has pc printed
    have below := loopMap.tiles.below region has
    have stop := (mem_stops below).mpr printed
    simp only [loopMap, List.mem_cons, List.not_mem_nil, or_false] at has
    rcases has with rfl | rfl
    · exact (by decide +kernel : ∀ pc ∈ stops loopImage ⟨0xF000, 0xF003, .code⟩,
        pc + advance loopImage ⟨0xF000, 0xF003, .code⟩ pc ≤ 0xF003) pc stop
    · exact (sweep_bounds stop).2
  defined := by
    intro region has pc printed a uses
    have stop := (mem_stops (loopMap.tiles.below region has)).mpr printed
    simp only [loopMap, List.mem_cons, List.not_mem_nil, or_false] at has
    rcases uses with ⟨isCode, -, names⟩ | ⟨vectors, -⟩
    · rcases has with rfl | rfl
      · obtain rfl : pc = 0xF000 := (by decide +kernel : ∀ pc ∈ stops loopImage
          ⟨0xF000, 0xF003, .code⟩, pc = 0xF000) pc stop
        have found : loopImage.decode 0xF000 = some (.jmp, .abs) := by decide +kernel
        have word : loopImage.word (0xF000 + 1) = 0xF000 := by decide +kernel
        rw [names_iff found rfl (by decide), word] at names
        rcases names with ⟨-, ⟨-, rfl⟩ | ⟨unlabelled, -⟩⟩
        · exact ⟨⟨0xF000, 0xF003, .code⟩, List.mem_cons_self, .first (by decide)⟩
        · exact absurd (.inl (by decide +kernel)) unlabelled
      · cases isCode
    · rcases has with rfl | rfl
      · cases vectors.1
      · cases vectors.2.1

/-- The source of the jump is assembled to it. -/
theorem disassembly_guaranteed_loop : ∃ source,
    disassemble loopImage loopMap = some (source, []) ∧ Guaranteed loopImage source := by
  obtain ⟨source, clean⟩ := loop_clean
  exact ⟨source, clean, (disassembly_guaranteed_iff clean).mpr loop_sound⟩

/-- A jump into the jump itself, in the middle of which a branch goes back to it. -/
def strayImage : Image := fun index =>
  ([0x4C, 0x04, 0xF0, 0x00, 0x4C, 0x06, 0xF0, 0xFC, 0x4C, 0x00, 0xF0] : List Byte).getD index 0

def strayMap : Map where
  regions := [⟨0xF000, 0xF003, .code⟩, ⟨0xF003, 0xF004, .data⟩, ⟨0xF004, 0xF00B, .code⟩,
    ⟨0xF00B, 0xF800, .data⟩]
  tiles := by decide

theorem stray_clean : ∃ source, disassemble strayImage strayMap = some (source, []) :=
  disassemble_clean (labelled_silent (by decide +kernel) (by decide +kernel)) (by decide +kernel)
    (by decide +kernel) (by decide +kernel)

/-- The jump at $F004 is written with the label of $F006, which is nowhere printed. -/
theorem stray_unsound : ¬ Sound strayImage strayMap := by
  intro sound
  have found : strayImage.decode 0xF004 = some (.jmp, .abs) := by decide +kernel
  have word : strayImage.word (0xF004 + 1) = 0xF006 := by decide +kernel
  have names : strayImage.Names strayMap 0xF004 0xF006 := by
    rw [names_iff found rfl (by decide), word]
    exact ⟨by decide, .inl ⟨.inl (by decide +kernel), rfl⟩⟩
  have uses : Uses strayImage strayMap ⟨0xF004, 0xF00B, .code⟩ 0xF004 0xF006 :=
    .inl ⟨rfl, by decide +kernel, names⟩
  have printed : Printed strayImage ⟨0xF004, 0xF00B, .code⟩ 0xF004 := .first (by decide)
  obtain ⟨other, has, printed'⟩ := sound.defined _ (by simp [strayMap]) _ printed _ uses
  have stop := (mem_stops (strayMap.tiles.below other has)).mpr printed'
  have bounds := sweep_bounds stop
  simp only [strayMap, List.mem_cons, List.not_mem_nil, or_false] at has
  rcases has with rfl | rfl | rfl | rfl
  · exact absurd bounds.2 (by decide)
  · exact absurd bounds.2 (by decide)
  · exact absurd stop (by decide +kernel)
  · exact absurd bounds.1 (by decide)

/-- No problem is recorded of the jump into itself, and its source is not assembled to
the image, or has a label that is not defined once. -/
theorem disassembly_unguarded : ∃ source,
    disassemble strayImage strayMap = some (source, []) ∧ ¬ Guaranteed strayImage source := by
  obtain ⟨source, clean⟩ := stray_clean
  obtain ⟨silent, parts, rfl, wrote⟩ := disassemble_parts clean
  exact ⟨_, clean, fun guaranteed => stray_unsound (sound_of_guaranteed silent wrote guaranteed)⟩

end DragsterNet.Disasm
