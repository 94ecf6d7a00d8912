/-
Module: DragsterNet.Lib.Layout
Purpose: A source of labels, equates and items in two passes: the first finds
  where the labels are, the second what the items are assembled to.
Trusted boundary: none
Main exports: Line, Table, Coding, Coding.assemble, Steady, Steady.assemble_eq, Spans,
  Spans.codeOf, sweep
-/
import Mathlib.Data.List.Basic
import Mathlib.Data.List.Nodup
import Mathlib.Data.Nat.Basic
import Mathlib.Order.Basic

namespace DragsterNet.Lib.Layout

variable {σ κ ι β : Type}

/-- A line of a source. -/
inductive Line (σ ι : Type) where
  | equ (symbol : σ) (value : Nat)
  | label (symbol : σ)
  | item (item : ι)
deriving DecidableEq

/-- The symbols that are known, in the order of their definitions. -/
abbrev Table (σ : Type) := List (σ × Nat)

/-- How an item is assembled.  How long it is has to be said with the symbols that
are known when it is met; what it is assembled to may depend on later ones. -/
structure Coding (σ ι β : Type) where
  size : Table σ → ι → Nat
  code : Table σ → Table σ → Nat → ι → Option (List β)

namespace Coding

variable (coding : Coding σ ι β)

/-- The first pass, from a location. -/
def place : Nat → Table σ → List (Line σ ι) → Table σ
  | _, known, [] => known
  | loc, known, .equ symbol value :: rest => place loc (known ++ [(symbol, value)]) rest
  | loc, known, .label symbol :: rest => place loc (known ++ [(symbol, loc)]) rest
  | loc, known, .item item :: rest => place (loc + coding.size known item) known rest

/-- The second pass. -/
def generate (all : Table σ) : Nat → Table σ → List (Line σ ι) → Option (List β)
  | _, _, [] => some []
  | loc, known, .equ symbol value :: rest => generate all loc (known ++ [(symbol, value)]) rest
  | loc, known, .label symbol :: rest => generate all loc (known ++ [(symbol, loc)]) rest
  | loc, known, .item item :: rest => do
      let bytes ← coding.code known all loc item
      let more ← generate all (loc + coding.size known item) known rest
      return bytes ++ more

/-- A source that defines a symbol twice is not assembled; symbols with the same key
are the same. -/
def assemble [DecidableEq κ] (key : σ → κ) (org : Nat) (lines : List (Line σ ι)) :
    Option (List β) :=
  let all := coding.place org [] lines
  if (all.map fun entry => key entry.1).Nodup then coding.generate all org [] lines else none

end Coding

/-! ### Sizes that do not depend on the symbols -/

section Widths

variable (width : ι → Nat)

def lengthOf : List (Line σ ι) → Nat
  | [] => 0
  | .equ _ _ :: rest => lengthOf rest
  | .label _ :: rest => lengthOf rest
  | .item item :: rest => width item + lengthOf rest

/-- The symbols that the lines define, with their values. -/
def definitions : Nat → List (Line σ ι) → Table σ
  | _, [] => []
  | loc, .equ symbol value :: rest => (symbol, value) :: definitions loc rest
  | loc, .label symbol :: rest => (symbol, loc) :: definitions loc rest
  | loc, .item item :: rest => definitions (loc + width item) rest

/-- The items with their locations. -/
def located : Nat → List (Line σ ι) → List (Nat × ι)
  | _, [] => []
  | loc, .equ _ _ :: rest => located loc rest
  | loc, .label _ :: rest => located loc rest
  | loc, .item item :: rest => (loc, item) :: located (loc + width item) rest

end Widths

/-- The symbols that the lines define. -/
def symbolsOf : List (Line σ ι) → List σ
  | [] => []
  | .equ symbol _ :: rest => symbol :: symbolsOf rest
  | .label symbol :: rest => symbol :: symbolsOf rest
  | .item _ :: rest => symbolsOf rest

variable {width : ι → Nat} {lines more : List (Line σ ι)} {known all : Table σ}
  {loc mid stop : Nat}

@[simp] theorem lengthOf_append :
    lengthOf width (lines ++ more) = lengthOf width lines + lengthOf width more := by
  induction lines with
  | nil => exact (Nat.zero_add _).symm
  | cons line rest inductionHypothesis =>
      cases line with
      | equ symbol value => exact inductionHypothesis
      | label symbol => exact inductionHypothesis
      | item item =>
          rw [List.cons_append, lengthOf, lengthOf, inductionHypothesis, Nat.add_assoc]

theorem definitions_append : definitions width loc (lines ++ more) =
    definitions width loc lines ++ definitions width (loc + lengthOf width lines) more := by
  induction lines generalizing loc with
  | nil => rfl
  | cons line rest inductionHypothesis =>
      cases line with
      | equ symbol value => exact congrArg _ inductionHypothesis
      | label symbol => exact congrArg _ inductionHypothesis
      | item item =>
          rw [List.cons_append, definitions, definitions, lengthOf, inductionHypothesis,
            Nat.add_assoc]

theorem located_append : located width loc (lines ++ more) =
    located width loc lines ++ located width (loc + lengthOf width lines) more := by
  induction lines generalizing loc with
  | nil => rfl
  | cons line rest inductionHypothesis =>
      cases line with
      | equ symbol value => exact inductionHypothesis
      | label symbol => exact inductionHypothesis
      | item item =>
          rw [List.cons_append, located, located, lengthOf, inductionHypothesis,
            Nat.add_assoc, List.cons_append]

@[simp] theorem symbolsOf_append :
    symbolsOf (lines ++ more) = symbolsOf lines ++ symbolsOf more := by
  induction lines with
  | nil => rfl
  | cons line rest inductionHypothesis =>
      cases line with
      | equ symbol value => exact congrArg _ inductionHypothesis
      | label symbol => exact congrArg _ inductionHypothesis
      | item item => exact inductionHypothesis

theorem definitions_symbols : (definitions width loc lines).map Prod.fst = symbolsOf lines := by
  induction lines generalizing loc with
  | nil => rfl
  | cons line rest inductionHypothesis =>
      cases line with
      | equ symbol value => exact congrArg _ inductionHypothesis
      | label symbol => exact congrArg _ inductionHypothesis
      | item item => exact inductionHypothesis

/-! ### What the items are assembled to -/

/-- The bytes of the items one after the other. -/
def codeOf (code : Nat → ι → Option (List β)) : List (Nat × ι) → Option (List β)
  | [] => some []
  | (loc, item) :: rest => do
      let bytes ← code loc item
      let more ← codeOf code rest
      return bytes ++ more

section Code

variable {code : Nat → ι → Option (List β)} {items : List (Nat × ι)} {bytes : List β}

theorem codeOf_cons {first : Nat × ι} : codeOf code (first :: items) = some bytes ↔
    ∃ own, code first.1 first.2 = some own ∧
      ∃ more, codeOf code items = some more ∧ own ++ more = bytes := by
  obtain ⟨loc, item⟩ := first
  simp [codeOf, Option.bind_eq_some_iff]

/-- There are as many bytes as the items of the lines are long. -/
theorem codeOf_length (long : ∀ loc item own, code loc item = some own → own.length = width item)
    (coded : codeOf code (located width loc lines) = some bytes) :
    bytes.length = lengthOf width lines := by
  induction lines generalizing loc bytes with
  | nil =>
      obtain rfl := Option.some.inj coded
      rfl
  | cons line rest inductionHypothesis =>
      cases line with
      | equ symbol value => exact inductionHypothesis coded
      | label symbol => exact inductionHypothesis coded
      | item item =>
          obtain ⟨own, isOwn, more, isMore, rfl⟩ := codeOf_cons.mp coded
          rw [List.length_append, lengthOf, long loc item own isOwn, inductionHypothesis isMore]

end Code

/-- The items of the lines are as long as `width` says, and assembled as `code`
says, with every table that may be met. -/
structure Steady (coding : Coding σ ι β) (width : ι → Nat)
    (code : Table σ → Nat → ι → Option (List β)) (fits : Table σ → Prop) (good : ι → Prop) :
    Prop where
  size : ∀ known item, fits known → good item → coding.size known item = width item
  code : ∀ known all loc item, fits known → good item →
    coding.code known all loc item = code all loc item

namespace Steady

variable {coding : Coding σ ι β} {code : Table σ → Nat → ι → Option (List β)}
  {fits : Table σ → Prop} {good : ι → Prop}

/-- The tables that are met in front of the items. -/
def Met (width : ι → Nat) (fits : Table σ → Prop) (loc : Nat) (known : Table σ)
    (lines : List (Line σ ι)) : Prop :=
  ∀ front item back, lines = front ++ .item item :: back →
    fits (known ++ definitions width loc front)

theorem Met.equ {symbol : σ} {value : Nat}
    (met : Met width fits loc known (.equ symbol value :: lines)) :
    Met width fits loc (known ++ [(symbol, value)]) lines := by
  rintro front item back rfl
  have one := met (.equ symbol value :: front) item back rfl
  rwa [definitions, ← List.singleton_append, ← List.append_assoc] at one

theorem Met.label {symbol : σ} (met : Met width fits loc known (.label symbol :: lines)) :
    Met width fits loc (known ++ [(symbol, loc)]) lines := by
  rintro front item back rfl
  have one := met (.label symbol :: front) item back rfl
  rwa [definitions, ← List.singleton_append, ← List.append_assoc] at one

theorem Met.item {first : ι} (met : Met width fits loc known (.item first :: lines)) :
    fits known ∧ Met width fits (loc + width first) known lines := by
  constructor
  · have one := met [] first lines rfl
    rwa [definitions, List.append_nil] at one
  · rintro front item back rfl
    exact met (.item first :: front) item back rfl

theorem place_eq (steady : Steady coding width code fits good)
    (met : Met width fits loc known lines) (goods : ∀ item, .item item ∈ lines → good item) :
    coding.place loc known lines = known ++ definitions width loc lines := by
  induction lines generalizing loc known with
  | nil => exact (List.append_nil _).symm
  | cons line rest inductionHypothesis =>
      have goods' : ∀ item, .item item ∈ rest → good item := fun item member =>
        goods item (List.mem_cons_of_mem _ member)
      cases line with
      | equ symbol value =>
          rw [Coding.place, inductionHypothesis met.equ goods', definitions, List.append_assoc]
          rfl
      | label symbol =>
          rw [Coding.place, inductionHypothesis met.label goods', definitions, List.append_assoc]
          rfl
      | item item =>
          obtain ⟨start, met'⟩ := met.item
          rw [Coding.place, steady.size known item start (goods item List.mem_cons_self),
            definitions, inductionHypothesis met' goods']

theorem generate_eq (steady : Steady coding width code fits good)
    (met : Met width fits loc known lines) (goods : ∀ item, .item item ∈ lines → good item) :
    coding.generate all loc known lines = codeOf (code all) (located width loc lines) := by
  induction lines generalizing loc known with
  | nil => rfl
  | cons line rest inductionHypothesis =>
      have goods' : ∀ item, .item item ∈ rest → good item := fun item member =>
        goods item (List.mem_cons_of_mem _ member)
      cases line with
      | equ symbol value => exact inductionHypothesis met.equ goods'
      | label symbol => exact inductionHypothesis met.label goods'
      | item item =>
          obtain ⟨start, met'⟩ := met.item
          have goodItem := goods item List.mem_cons_self
          rw [Coding.generate, steady.size known item start goodItem,
            steady.code known all loc item start goodItem, located, codeOf,
            inductionHypothesis met' goods']

/-- Assembling is placing the labels, and then assembling each item where it is. -/
theorem assemble_eq [DecidableEq κ] {key : σ → κ} (steady : Steady coding width code fits good)
    (met : Met width fits loc [] lines) (goods : ∀ item, .item item ∈ lines → good item) :
    coding.assemble key loc lines =
      if ((symbolsOf lines).map key).Nodup then
        codeOf (code (definitions width loc lines)) (located width loc lines)
      else none := by
  have symbols : (symbolsOf lines).map key =
      (definitions width loc lines).map fun entry => key entry.1 := by
    rw [← @definitions_symbols _ _ width lines loc, List.map_map]
    rfl
  unfold Coding.assemble
  rw [symbols]
  simp only [place_eq steady met goods, generate_eq steady met goods, List.nil_append]

end Steady

/-! ### Lines that lie where they say -/

/-- The labels and items from `loc` to `stop`, each at a location that is its own. -/
inductive Spans (width : ι → Nat) (named : Nat → σ → Prop) (lies : Nat → ι → Prop) :
    Nat → List (Line σ ι) → Nat → Prop where
  | nil {loc : Nat} : Spans width named lies loc [] loc
  | label {loc stop : Nat} {symbol : σ} {rest : List (Line σ ι)} (own : named loc symbol)
      (then_ : Spans width named lies loc rest stop) :
      Spans width named lies loc (.label symbol :: rest) stop
  | item {loc stop : Nat} {item : ι} {rest : List (Line σ ι)} (own : lies loc item)
      (then_ : Spans width named lies (loc + width item) rest stop) :
      Spans width named lies loc (.item item :: rest) stop

namespace Spans

variable {named : Nat → σ → Prop} {lies : Nat → ι → Prop}

theorem append (spans : Spans width named lies loc lines mid)
    (others : Spans width named lies mid more stop) :
    Spans width named lies loc (lines ++ more) stop := by
  induction spans with
  | nil => exact others
  | label own _ inductionHypothesis => exact .label own (inductionHypothesis others)
  | item own _ inductionHypothesis => exact .item own (inductionHypothesis others)

theorem mono {named' : Nat → σ → Prop} {lies' : Nat → ι → Prop}
    (weaker : ∀ loc symbol, named loc symbol → named' loc symbol)
    (weaker' : ∀ loc item, lies loc item → lies' loc item)
    (spans : Spans width named lies loc lines stop) : Spans width named' lies' loc lines stop := by
  induction spans with
  | nil => exact .nil
  | label own _ inductionHypothesis => exact .label (weaker _ _ own) inductionHypothesis
  | item own _ inductionHypothesis => exact .item (weaker' _ _ own) inductionHypothesis

theorem length (spans : Spans width named lies loc lines stop) :
    loc + lengthOf width lines = stop := by
  induction spans with
  | nil => rfl
  | label _ _ inductionHypothesis => exact inductionHypothesis
  | item _ _ inductionHypothesis => rw [lengthOf, ← Nat.add_assoc, inductionHypothesis]

theorem definition (spans : Spans width named lies loc lines stop) {entry : σ × Nat}
    (member : entry ∈ definitions width loc lines) : named entry.2 entry.1 := by
  induction spans with
  | nil => cases member
  | label own _ inductionHypothesis =>
      rcases List.mem_cons.mp member with rfl | later
      · exact own
      · exact inductionHypothesis later
  | item _ _ inductionHypothesis => exact inductionHypothesis member

theorem lies_of_mem (spans : Spans width named lies loc lines stop) {item : ι}
    (member : .item item ∈ lines) : ∃ own, lies own item := by
  induction spans with
  | nil => cases member
  | label _ _ inductionHypothesis =>
      rcases List.mem_cons.mp member with same | later
      · cases same
      · exact inductionHypothesis later
  | item own _ inductionHypothesis =>
      rcases List.mem_cons.mp member with same | later
      · obtain rfl := Line.item.inj same
        exact ⟨_, own⟩
      · exact inductionHypothesis later

/-- If each item is assembled to what a text has where it lies, the lines are
assembled to that part of the text. -/
theorem codeOf {code : Nat → ι → Option (List β)} {text : Nat → Nat → List β}
    (empty : ∀ loc, text loc loc = [])
    (joins : ∀ loc mid stop, loc ≤ mid → mid ≤ stop → text loc mid ++ text mid stop = text loc stop)
    (codes : ∀ loc item, lies loc item → code loc item = some (text loc (loc + width item)))
    (spans : Spans width named lies loc lines stop) :
    Layout.codeOf code (located width loc lines) = some (text loc stop) := by
  induction spans with
  | nil => rw [located, Layout.codeOf, empty]
  | label _ _ inductionHypothesis => exact inductionHypothesis
  | @item loc stop item rest own then_ inductionHypothesis =>
      rw [located, codeOf_cons]
      have reaches : loc + width item ≤ stop := by
        rw [← then_.length]
        exact Nat.le_add_right _ _
      exact ⟨_, codes loc item own, _, inductionHypothesis,
        joins loc _ stop (Nat.le_add_right _ _) reaches⟩

theorem no_equ (spans : Spans width named lies loc lines stop) {symbol : σ} {value : Nat} :
    .equ symbol value ∉ lines := by
  induction spans with
  | nil => exact List.not_mem_nil
  | label _ _ inductionHypothesis => simpa using inductionHypothesis
  | item _ _ inductionHypothesis => simpa using inductionHypothesis

end Spans

/-- Labels lie behind the place where the lines begin. -/
theorem le_of_definition (free : ∀ symbol value, .equ symbol value ∉ lines) {entry : σ × Nat}
    (member : entry ∈ definitions width loc lines) : loc ≤ entry.2 := by
  induction lines generalizing loc with
  | nil => cases member
  | cons line rest inductionHypothesis =>
      have free' : ∀ symbol value, .equ symbol value ∉ rest := fun symbol value later =>
        free symbol value (List.mem_cons_of_mem _ later)
      cases line with
      | equ symbol value => exact absurd List.mem_cons_self (free symbol value)
      | label symbol =>
          rcases List.mem_cons.mp member with rfl | later
          · exact Nat.le_refl _
          · exact inductionHypothesis free' later
      | item item =>
          exact (Nat.le_add_right _ _).trans (inductionHypothesis free' member)

/-! ### Equates in front -/

/-- The lines that define the symbols of a table. -/
def equates (table : Table σ) : List (Line σ ι) := table.map fun entry => .equ entry.1 entry.2

section Equates

variable {table : Table σ}

@[simp] theorem symbolsOf_equates :
    symbolsOf (equates table : List (Line σ ι)) = table.map Prod.fst := by
  induction table with
  | nil => rfl
  | cons entry rest inductionHypothesis => exact congrArg _ inductionHypothesis

@[simp] theorem definitions_equates : definitions width loc (equates table) = table := by
  induction table with
  | nil => rfl
  | cons entry rest inductionHypothesis => exact congrArg _ inductionHypothesis

@[simp] theorem located_equates : located width loc (equates table) = [] := by
  induction table with
  | nil => rfl
  | cons entry rest inductionHypothesis => exact inductionHypothesis

@[simp] theorem lengthOf_equates : lengthOf width (equates table : List (Line σ ι)) = 0 := by
  induction table with
  | nil => rfl
  | cons entry rest inductionHypothesis => exact inductionHypothesis

theorem item_not_mem_equates {item : ι} : .item item ∉ (equates table : List (Line σ ι)) := by
  intro member
  obtain ⟨entry, -, same⟩ := List.mem_map.mp member
  cases same

/-- Behind the equates, what is met is their table and labels of the lines. -/
theorem Steady.met_equates {fits : Table σ → Prop}
    (all : ∀ labels : Table σ, (∀ entry ∈ labels, loc ≤ entry.2) → fits (table ++ labels))
    (free : ∀ symbol value, .equ symbol value ∉ lines) :
    Met width fits loc [] (equates table ++ lines) := by
  intro front item back split
  rcases List.append_eq_append_iff.mp split with ⟨rest, rfl, rest'⟩ | ⟨rest, isFront, rest'⟩
  · rw [definitions_append, definitions_equates, lengthOf_equates, List.nil_append]
    apply all
    intro entry member
    apply le_of_definition _ member
    intro symbol value isEqu
    exact free symbol value (rest' ▸ List.mem_append_left _ isEqu)
  · cases rest with
    | nil =>
        rw [List.append_nil] at isFront
        rw [← isFront, definitions_equates, List.nil_append]
        rw [← List.append_nil table]
        exact all [] fun _ absent => absurd absent List.not_mem_nil
    | cons first rest =>
        obtain ⟨rfl, -⟩ := List.cons.inj rest'
        have member : .item item ∈ (equates table : List (Line σ ι)) :=
          isFront ▸ List.mem_append_right _ List.mem_cons_self
        exact absurd member item_not_mem_equates

end Equates

/-! ### Sweeps -/

section Sweep

variable (advance : Nat → Nat) (hi : Nat)

/-- The addresses that a loop comes by up to `hi`. -/
def sweep : Nat → Nat → List Nat
  | 0, _ => []
  | fuel + 1, pc => if pc < hi then pc :: sweep fuel (pc + advance pc) else []

/-- Where the loop ends. -/
def halt : Nat → Nat → Nat
  | 0, pc => pc
  | fuel + 1, pc => if pc < hi then halt fuel (pc + advance pc) else pc

/-- The loop comes by the address. -/
inductive Swept (lo : Nat) : Nat → Prop where
  | first (inside : lo < hi) : Swept lo lo
  | next {pc : Nat} (swept : Swept lo pc) (inside : pc + advance pc < hi) :
      Swept lo (pc + advance pc)

variable {advance hi} {pc a fuel : Nat}

theorem Swept.cons (inside : pc < hi) (rest : Swept advance hi (pc + advance pc) a) :
    Swept advance hi pc a := by
  induction rest with
  | first inside' => exact .next (.first inside) inside'
  | next _ inside' inductionHypothesis => exact .next inductionHypothesis inside'

theorem Swept.uncons (swept : Swept advance hi pc a) :
    pc < hi ∧ (a = pc ∨ Swept advance hi (pc + advance pc) a) := by
  induction swept with
  | first inside => exact ⟨inside, .inl rfl⟩
  | next _ inside inductionHypothesis =>
      obtain ⟨inside', rfl | later⟩ := inductionHypothesis
      · exact ⟨inside', .inr (.first inside)⟩
      · exact ⟨inside', .inr (.next later inside)⟩

theorem mem_sweep (grows : ∀ pc, 0 < advance pc) (enough : hi ≤ pc + fuel) :
    a ∈ sweep advance hi fuel pc ↔ Swept advance hi pc a := by
  induction fuel generalizing pc with
  | zero =>
      constructor
      · exact fun absent => absurd absent List.not_mem_nil
      · exact fun swept => absurd swept.uncons.1 (Nat.not_lt.mpr enough)
  | succ fuel inductionHypothesis =>
      rw [sweep]
      split
      · rename_i inside
        have more := grows pc
        rw [List.mem_cons, inductionHypothesis (by omega)]
        constructor
        · rintro (rfl | later)
          · exact .first inside
          · exact .cons inside later
        · exact fun swept => swept.uncons.2
      · rename_i outside
        exact ⟨fun absent => absurd absent List.not_mem_nil,
          fun swept => absurd swept.uncons.1 outside⟩

theorem sweep_bounds (member : a ∈ sweep advance hi fuel pc) : pc ≤ a ∧ a < hi := by
  induction fuel generalizing pc with
  | zero => cases member
  | succ fuel inductionHypothesis =>
      rw [sweep] at member
      split at member
      · rename_i inside
        rcases List.mem_cons.mp member with rfl | later
        · exact ⟨Nat.le_refl _, inside⟩
        · have bounds := inductionHypothesis later
          exact ⟨(Nat.le_add_right _ _).trans bounds.1, bounds.2⟩
      · cases member

theorem sweep_ascending (grows : ∀ pc, 0 < advance pc) :
    (sweep advance hi fuel pc).Pairwise (· < ·) := by
  induction fuel generalizing pc with
  | zero => exact .nil
  | succ fuel inductionHypothesis =>
      rw [sweep]
      split
      · apply List.pairwise_cons.mpr ⟨?_, inductionHypothesis⟩
        intro a later
        exact (Nat.lt_add_of_pos_right (grows pc)).trans_le (sweep_bounds later).1
      · exact .nil

theorem le_halt (grows : ∀ pc, 0 < advance pc) (enough : hi ≤ pc + fuel) :
    hi ≤ halt advance hi fuel pc := by
  induction fuel generalizing pc with
  | zero => exact enough
  | succ fuel inductionHypothesis =>
      rw [halt]
      split
      · have more := grows pc
        exact inductionHypothesis (by omega)
      · rename_i outside
        exact Nat.not_lt.mp outside

/-- The loop ends at `hi` if none of its steps goes beyond. -/
theorem halt_eq_iff (below : pc ≤ hi) (grows : ∀ pc, 0 < advance pc) (enough : hi ≤ pc + fuel) :
    halt advance hi fuel pc = hi ↔ ∀ a ∈ sweep advance hi fuel pc, a + advance a ≤ hi := by
  induction fuel generalizing pc with
  | zero =>
      have same : pc = hi := Nat.le_antisymm below enough
      exact ⟨fun _ _ absent => absurd absent List.not_mem_nil, fun _ => same⟩
  | succ fuel inductionHypothesis =>
      have more := grows pc
      rw [halt, sweep]
      split
      · rw [List.forall_mem_cons]
        by_cases fits : pc + advance pc ≤ hi
        · rw [inductionHypothesis fits (by omega)]
          exact (and_iff_right fits).symm
        · have ends : halt advance hi fuel (pc + advance pc) = pc + advance pc := by
            cases fuel with
            | zero => rfl
            | succ fuel => exact if_neg (by omega)
          rw [ends]
          exact ⟨fun same => absurd same.le fits, fun all => absurd all.1 fits⟩
      · rename_i outside
        exact ⟨fun _ _ absent => absurd absent List.not_mem_nil,
          fun _ => Nat.le_antisymm below (Nat.not_lt.mp outside)⟩

end Sweep

end DragsterNet.Lib.Layout
