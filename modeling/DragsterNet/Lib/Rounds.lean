/-
Module: DragsterNet.Lib.Rounds
Purpose: Sums folded over the cells of a memory, each round of which loses
  neither the sum before it nor the cell it takes in.
Trusted boundary: none
Main exports: exchange, Rounds, Rounds.fold_injective, Rounds.fold_ne_of_single,
  Rounds.fold_exchange
-/
import Mathlib.Data.List.Nodup
import Mathlib.Logic.Function.Basic

namespace DragsterNet.Lib

variable {κ α σ : Type}

/-- The memory with the values of two cells exchanged. -/
def exchange [DecidableEq κ] (one two : κ) (memory : κ → α) : κ → α := fun cell =>
  if cell = one then memory two else if cell = two then memory one else memory cell

section Exchange

variable [DecidableEq κ] {one two cell : κ} {memory : κ → α}

@[simp] theorem exchange_left : exchange one two memory one = memory two := if_pos rfl

@[simp] theorem exchange_right : exchange one two memory two = memory one := by
  unfold exchange
  split
  · rename_i same
    rw [same]
  · exact if_pos rfl

theorem exchange_of_ne (notOne : cell ≠ one) (notTwo : cell ≠ two) :
    exchange one two memory cell = memory cell := by
  rw [exchange, if_neg notOne, if_neg notTwo]

theorem exchange_comm : exchange one two memory = exchange two one memory := by
  funext cell
  by_cases isOne : cell = one
  · subst isOne
    rw [exchange_left, exchange_right]
  · by_cases isTwo : cell = two
    · subst isTwo
      rw [exchange_left, exchange_right]
    · rw [exchange_of_ne isOne isTwo, exchange_of_ne isTwo isOne]

end Exchange

/-- A list around two of its items. -/
theorem cut_idxOf [DecidableEq κ] {list : List κ} {one two : κ} (member : two ∈ list)
    (earlier : list.idxOf one < list.idxOf two) :
    list = list.take (list.idxOf one) ++ one ::
      ((list.take (list.idxOf two)).drop (list.idxOf one + 1) ++
        two :: list.drop (list.idxOf two + 1)) := by
  have inside : list.idxOf two < list.length := List.idxOf_lt_length_of_mem member
  have inside' : list.idxOf one < (list.take (list.idxOf two)).length := by
    rw [List.length_take]
    exact Nat.lt_min.mpr ⟨earlier, Nat.lt_trans earlier inside⟩
  have atTwo : list.drop (list.idxOf two) = two :: list.drop (list.idxOf two + 1) := by
    rw [List.drop_eq_getElem_cons inside, List.getElem_idxOf]
  have atOne : (list.take (list.idxOf two)).drop (list.idxOf one) =
      one :: (list.take (list.idxOf two)).drop (list.idxOf one + 1) := by
    rw [List.drop_eq_getElem_cons inside', List.getElem_take, List.getElem_idxOf]
  have front : (list.take (list.idxOf two)).take (list.idxOf one) =
      list.take (list.idxOf one) := by
    rw [List.take_take, Nat.min_eq_left (Nat.le_of_lt earlier)]
  calc list = list.take (list.idxOf two) ++ list.drop (list.idxOf two) :=
        (List.take_append_drop _ _).symm
    _ = ((list.take (list.idxOf two)).take (list.idxOf one) ++
          (list.take (list.idxOf two)).drop (list.idxOf one)) ++ list.drop (list.idxOf two) := by
        rw [List.take_append_drop (list.idxOf one)]
    _ = _ := by rw [front, atOne, atTwo, List.append_assoc, List.cons_append]

/-! ### Rounds -/

/-- A round tells two sums apart, and two cells. -/
structure Rounds (round : σ → α → σ) : Prop where
  sum : ∀ cell, Function.Injective fun sum => round sum cell
  cell : ∀ sum, Function.Injective (round sum)

namespace Rounds

variable {round : σ → α → σ} {cells : List κ} {memory memory' : κ → α} {cell : κ} {start : σ}

/-- The sum over the cells, in the order of the list. -/
def fold (round : σ → α → σ) (memory : κ → α) (start : σ) (cells : List κ) : σ :=
  cells.foldl (fun sum cell => round sum (memory cell)) start

theorem fold_append {more : List κ} : fold round memory start (cells ++ more) =
    fold round memory (fold round memory start cells) more :=
  List.foldl_append

theorem fold_congr (agree : ∀ cell ∈ cells, memory cell = memory' cell) :
    fold round memory start cells = fold round memory' start cells := by
  apply List.foldl_ext
  intro sum cell member
  rw [agree cell member]

theorem fold_injective (rounds : Rounds round) :
    Function.Injective fun start => fold round memory start cells := by
  induction cells with
  | nil => exact Function.injective_id
  | cons first rest inductionHypothesis =>
      exact inductionHypothesis.comp (rounds.sum (memory first))

/-- Memories that differ in one of the cells only have different sums. -/
theorem fold_ne_of_single (rounds : Rounds round) (distinct : cells.Nodup) (member : cell ∈ cells)
    (differ : memory cell ≠ memory' cell)
    (agree : ∀ other ∈ cells, other ≠ cell → memory other = memory' other) :
    fold round memory start cells ≠ fold round memory' start cells := by
  obtain ⟨front, back, rfl⟩ := List.append_of_mem member
  have apart := List.nodup_middle.mp distinct
  have outside : ∀ other ∈ front ++ back, other ≠ cell := by
    rintro other isOther rfl
    exact (List.nodup_cons.mp apart).1 isOther
  have before : fold round memory start front = fold round memory' start front := by
    apply fold_congr
    intro other isOther
    exact agree other (List.mem_append_left _ isOther)
      (outside other (List.mem_append_left _ isOther))
  have after : ∀ sum, fold round memory sum back = fold round memory' sum back := by
    intro sum
    apply fold_congr
    intro other isOther
    exact agree other (List.mem_append_right _ (List.mem_cons_of_mem _ isOther))
      (outside other (List.mem_append_right _ isOther))
  intro same
  rw [fold_append, fold_append, before] at same
  have taken : fold round memory' (round (fold round memory' start front) (memory cell)) back =
      fold round memory' (round (fold round memory' start front) (memory' cell)) back :=
    (after _).symm.trans same
  exact differ (rounds.cell _ (rounds.fold_injective taken))

/-- Whether an exchange of two cells shows is decided by the rounds from the one to
the other. -/
theorem fold_exchange [DecidableEq κ] (rounds : Rounds round) {front between back : List κ}
    {one two : κ} (distinct : (front ++ one :: (between ++ two :: back)).Nodup) :
    fold round (exchange one two memory) start (front ++ one :: (between ++ two :: back)) =
        fold round memory start (front ++ one :: (between ++ two :: back)) ↔
      round (fold round memory (round (fold round memory start front) (memory two)) between)
          (memory one) =
        round (fold round memory (round (fold round memory start front) (memory one)) between)
          (memory two) := by
  have apart := List.nodup_append.mp distinct
  have notOne := (List.nodup_cons.mp apart.2.1).1
  have apart' := List.nodup_append.mp (List.nodup_cons.mp apart.2.1).2
  have notTwo := (List.nodup_cons.mp apart'.2.1).1
  have keeps : ∀ {cells : List κ} {sum : σ}, one ∉ cells → two ∉ cells →
      fold round (exchange one two memory) sum cells = fold round memory sum cells := by
    intro cells sum noOne noTwo
    apply fold_congr
    intro cell member
    exact exchange_of_ne (fun same => noOne (same ▸ member)) fun same => noTwo (same ▸ member)
  have frontOne : one ∉ front := fun member => apart.2.2 _ member _ List.mem_cons_self rfl
  have frontTwo : two ∉ front := fun member => apart.2.2 _ member _
    (List.mem_cons_of_mem _ (List.mem_append_right _ List.mem_cons_self)) rfl
  have betweenOne : one ∉ between := fun member => notOne (List.mem_append_left _ member)
  have betweenTwo : two ∉ between := fun member => apart'.2.2 _ member _ List.mem_cons_self rfl
  have backOne : one ∉ back := fun member =>
    notOne (List.mem_append_right _ (List.mem_cons_of_mem _ member))
  have split : ∀ memory : κ → α,
      fold round memory start (front ++ one :: (between ++ two :: back)) =
        fold round memory (round (fold round memory
          (round (fold round memory start front) (memory one)) between) (memory two)) back := by
    intro memory
    rw [fold_append]
    change fold round memory (round _ (memory one)) (between ++ two :: back) = _
    rw [fold_append]
    rfl
  rw [split, split, keeps backOne notTwo, keeps frontOne frontTwo, keeps betweenOne betweenTwo,
    exchange_left, exchange_right]
  exact rounds.fold_injective.eq_iff

end Rounds

end DragsterNet.Lib
