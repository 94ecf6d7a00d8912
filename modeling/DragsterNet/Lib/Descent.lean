/-
Module: DragsterNet.Lib.Descent
Purpose: A descent with a stack: what is entered is what can be reached.
Trusted boundary: none
Main exports: Reach, descend, mem_descend
-/
import Mathlib.Data.List.Basic
import Mathlib.Data.List.Perm.Subperm

namespace DragsterNet.Lib.Descent

variable {α : Type} (next : α → List α) (enters : α → Prop)

/-- What can be reached from `root` through places that can be entered. -/
inductive Reach (root : α) : α → Prop where
  | root (enter : enters root) : Reach root root
  | step {place other : α} (reached : Reach root place) (leads : other ∈ next place)
      (enter : enters other) : Reach root other

variable {next enters}

theorem Reach.enterable {root place : α} (reached : Reach next enters root place) : enters place := by
  cases reached with
  | root enter => exact enter
  | step _ _ enter => exact enter

/-- What lies behind a place that was seen was seen, or waits, or cannot be entered. -/
def Settled (next : α → List α) (enters : α → Prop) (stack seen : List α) : Prop :=
  ∀ place ∈ seen, ∀ other ∈ next place, enters other → other ∈ seen ∨ other ∈ stack

variable {place : α} {stack seen : List α}

theorem Settled.enter (settled : Settled next enters (place :: stack) seen) :
    Settled next enters (next place ++ stack) (place :: seen) := by
  intro one isOne other leads enter
  rcases List.mem_cons.mp isOne with rfl | before
  · exact .inr (List.mem_append_left _ leads)
  · rcases settled one before other leads enter with isSeen | waits
    · exact .inl (List.mem_cons_of_mem _ isSeen)
    · rcases List.mem_cons.mp waits with rfl | later
      · exact .inl List.mem_cons_self
      · exact .inr (List.mem_append_right _ later)

theorem Settled.pass (settled : Settled next enters (place :: stack) seen)
    (old : enters place → place ∈ seen) : Settled next enters stack seen := by
  intro one isOne other leads enter
  rcases settled one isOne other leads enter with isSeen | waits
  · exact .inl isSeen
  · rcases List.mem_cons.mp waits with rfl | later
    · exact .inl (old enter)
    · exact .inr later

variable [DecidableEq α] (next enters) [DecidablePred enters]

/-- Takes the places off the stack; each that is entered for the first time puts
those behind it on it. -/
def descend : Nat → List α → List α → List α
  | 0, _, seen => seen
  | _ + 1, [], seen => seen
  | fuel + 1, place :: stack, seen =>
      if enters place ∧ place ∉ seen then descend fuel (next place ++ stack) (place :: seen)
      else descend fuel stack seen

variable {next enters} {root : α} {fuel : Nat} {all : List α}

/-- Nothing is entered that cannot be reached. -/
theorem reach_of_descend (sound : ∀ one ∈ seen, Reach next enters root one)
    (waits : ∀ one ∈ stack, enters one → Reach next enters root one)
    (member : place ∈ descend next enters fuel stack seen) : Reach next enters root place := by
  induction fuel generalizing stack seen with
  | zero => exact sound place member
  | succ fuel inductionHypothesis =>
      cases stack with
      | nil => exact sound place member
      | cons first stack =>
          have waits' : ∀ one ∈ stack, enters one → Reach next enters root one :=
            fun one later => waits one (List.mem_cons_of_mem _ later)
          rw [descend] at member
          split at member
          · rename_i new
            have reached := waits first List.mem_cons_self new.1
            apply inductionHypothesis _ _ member
            · intro one isOne
              rcases List.mem_cons.mp isOne with rfl | before
              · exact reached
              · exact sound one before
            · intro one isOne enter
              rcases List.mem_append.mp isOne with leads | later
              · exact reached.step leads enter
              · exact waits' one later enter
          · exact inductionHypothesis sound waits' member

/-- Each place that is entered costs one of `all`, and puts at most one more on the
stack than it takes off. -/
theorem descend_settled (few : ∀ one, (next one).length ≤ 2) (within : ∀ one, enters one → one ∈ all)
    (distinct : seen.Nodup) (sub : seen ⊆ all) (settled : Settled next enters stack seen)
    (enough : 2 * all.length + stack.length ≤ fuel + 2 * seen.length) :
    seen ⊆ descend next enters fuel stack seen ∧
      (∀ one ∈ stack, enters one → one ∈ descend next enters fuel stack seen) ∧
      Settled next enters [] (descend next enters fuel stack seen) := by
  induction fuel generalizing stack seen with
  | zero =>
      have bounded := (List.subperm_of_subset distinct sub).length_le
      have none : stack = [] := List.eq_nil_of_length_eq_zero (by omega)
      subst none
      exact ⟨List.Subset.refl _, fun one absent => absurd absent List.not_mem_nil, settled⟩
  | succ fuel inductionHypothesis =>
      cases stack with
      | nil => exact ⟨List.Subset.refl _, fun one absent => absurd absent List.not_mem_nil, settled⟩
      | cons first stack =>
          rw [List.length_cons] at enough
          rw [descend]
          split
          · rename_i new
            have short := few first
            obtain ⟨keeps, takes, ends⟩ := inductionHypothesis
              (List.nodup_cons.mpr ⟨new.2, distinct⟩)
              (List.cons_subset.mpr ⟨within first new.1, sub⟩) settled.enter (by
                rw [List.length_append, List.length_cons]
                omega)
            refine ⟨fun one before => keeps (List.mem_cons_of_mem _ before), ?_, ends⟩
            intro one isOne enter
            rcases List.mem_cons.mp isOne with rfl | later
            · exact keeps List.mem_cons_self
            · exact takes one (List.mem_append_right _ later) enter
          · rename_i old
            obtain ⟨keeps, takes, ends⟩ := inductionHypothesis distinct sub
              (settled.pass fun enter => by_contra fun unseen => old ⟨enter, unseen⟩) (by omega)
            refine ⟨keeps, ?_, ends⟩
            intro one isOne enter
            rcases List.mem_cons.mp isOne with rfl | later
            · exact keeps (by_contra fun unseen => old ⟨enter, unseen⟩)
            · exact takes one later enter

/-- With enough fuel the descent enters all that can be reached, and nothing else. -/
theorem mem_descend (few : ∀ one, (next one).length ≤ 2) (within : ∀ one, enters one → one ∈ all)
    (enough : 2 * all.length < fuel) :
    place ∈ descend next enters fuel [root] [] ↔ Reach next enters root place := by
  constructor
  · apply reach_of_descend
    · exact fun one absent => absurd absent List.not_mem_nil
    · intro one isOne enter
      obtain rfl := List.mem_singleton.mp isOne
      exact .root enter
  · intro reached
    have nothing : Settled next enters [root] [] := fun one absent => absurd absent List.not_mem_nil
    have bound : 2 * all.length + [root].length ≤ fuel + 2 * ([] : List α).length := enough
    obtain ⟨-, takes, ends⟩ := descend_settled few within List.nodup_nil (List.nil_subset all)
      nothing bound
    induction reached with
    | root enter => exact takes _ (List.mem_singleton.mpr rfl) enter
    | step _ leads enter inductionHypothesis =>
        exact (ends _ inductionHypothesis _ leads enter).resolve_right List.not_mem_nil

end DragsterNet.Lib.Descent
