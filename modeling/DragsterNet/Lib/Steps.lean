/-
Module: DragsterNet.Lib.Steps
Purpose: Runs of a labelled step relation under a condition on each step, with
  the induction rules the protocol proofs use.
Trusted boundary: none
Main exports: Run, Run.invariant, Run.mono, Run.trans, Run.cases_head, guarded, Run.of_guarded,
  Run.of_foldlM, Run.simulate, recorded, recording,
  Run.recorded, Run.of_recording
-/
import Mathlib.Data.List.Basic
import Mathlib.Logic.Basic

namespace DragsterNet.Lib

variable {State Act : Type*}

/-- Runs of `step`.  Every step taken meets `meets`, a condition on the state
before the step and on the action; `fun _ _ => True` gives all runs. -/
inductive Run (step : State → Act → State → Prop) (meets : State → Act → Prop) :
    State → State → Prop where
  | refl (state : State) : Run step meets state state
  | tail {first middle last : State} (act : Act)
      (before : Run step meets first middle) (met : meets middle act)
      (taken : step middle act last) : Run step meets first last

/-- The condition every step meets. -/
def always : State → Act → Prop := fun _ _ => True

/-- A partial step function that stops at an action that misses the
condition. -/
def guarded (next : State → Act → Option State) (meets : State → Act → Prop)
    [∀ state act, Decidable (meets state act)] (state : State) (act : Act) :
    Option State :=
  if meets state act then next state act else none

/-- The steps with a record of them; `marks` says what a step leaves in it. -/
def recorded {Mark : Type*} (step : State → Act → State → Prop)
    (marks : State → Act → List Mark) (before : State × List Mark) (act : Act)
    (after : State × List Mark) : Prop :=
  step before.1 act after.1 ∧ after.2 = before.2 ++ marks before.1 act

/-- A partial step function that keeps the record. -/
def recording {Mark : Type*} (next : State → Act → Option State)
    (marks : State → Act → List Mark) (before : State × List Mark) (act : Act) :
    Option (State × List Mark) :=
  (next before.1 act).map fun after => (after, before.2 ++ marks before.1 act)

namespace Run

variable {step : State → Act → State → Prop} {meets : State → Act → Prop}

/-- An invariant that every step under the condition keeps holds in every
state reached. -/
theorem invariant {first last : State} (run : Run step meets first last)
    (Inv : State → Prop) (start : Inv first)
    (keeps : ∀ {before : State} {act : Act} {after : State},
      Inv before → meets before act → step before act after → Inv after) :
    Inv last := by
  induction run with
  | refl => exact start
  | tail act before met taken inductionHypothesis =>
      exact keeps inductionHypothesis met taken

/-- Weakening the condition keeps a run. -/
theorem mono {weaker : State → Act → Prop} {first last : State}
    (run : Run step meets first last)
    (weaken : ∀ {state : State} {act : Act},
      meets state act → weaker state act) :
    Run step weaker first last := by
  induction run with
  | refl => exact .refl _
  | tail act before met taken inductionHypothesis =>
      exact .tail act inductionHypothesis (weaken met) taken

/-- Runs compose. -/
theorem trans {first middle last : State}
    (one : Run step meets first middle) (two : Run step meets middle last) :
    Run step meets first last := by
  induction two with
  | refl => exact one
  | tail act before met taken inductionHypothesis =>
      exact .tail act inductionHypothesis met taken

/-- A run is empty or begins with a step. -/
theorem cases_head {first last : State} (run : Run step meets first last) :
    first = last ∨ ∃ act second, meets first act ∧ step first act second ∧
      Run step meets second last := by
  induction run with
  | refl => exact Or.inl rfl
  | @tail middle last act before met taken inductionHypothesis =>
      rcases inductionHypothesis with rfl | ⟨first', second, met', taken', rest⟩
      · exact Or.inr ⟨act, last, met, taken, .refl _⟩
      · exact Or.inr ⟨first', second, met', taken', .tail act rest met taken⟩

/-- Executing a list of actions, each under the condition, is a run. -/
theorem of_guarded {next : State → Act → Option State} {meets : State → Act → Prop}
    [∀ state act, Decidable (meets state act)] {acts : List Act} {first last : State}
    (executed : acts.foldlM (guarded next meets) first = some last) :
    Run (fun before act after => next before act = some after) meets first last := by
  induction acts generalizing first with
  | nil =>
      obtain rfl : first = last := by simpa using executed
      exact .refl first
  | cons act rest inductionHypothesis =>
      obtain ⟨middle, taken, later⟩ : ∃ middle,
          guarded next meets first act = some middle ∧
            rest.foldlM (guarded next meets) middle = some last := by
        simpa [List.foldlM_cons, Option.bind_eq_some_iff] using executed
      have one : Run (fun before act after => next before act = some after) meets
          first middle := by
        unfold guarded at taken
        split at taken
        · rename_i met
          exact .tail act (.refl first) met taken
        · cases taken
      exact one.trans (inductionHypothesis later)

/-- Executing a list of actions with a partial step function is a run of the
function's graph. -/
theorem of_foldlM {next : State → Act → Option State} {acts : List Act}
    {first last : State} (executed : acts.foldlM next first = some last) :
    Run (fun before act after => next before act = some after) always
      first last := by
  classical
  have same : guarded next always = next := by
    funext state act
    exact if_pos trivial
  rw [← same] at executed
  exact of_guarded executed

/-- Every run can be recorded. -/
theorem recorded {Mark : Type*} {first last : State} (marks : State → Act → List Mark)
    (run : Run step meets first last) (tape : List Mark) :
    ∃ tape', Run (Lib.recorded step marks) (fun state act => meets state.1 act)
      (first, tape) (last, tape') := by
  induction run with
  | refl => exact ⟨tape, .refl _⟩
  | tail act before met taken inductionHypothesis =>
      obtain ⟨tape', run'⟩ := inductionHypothesis
      exact ⟨_, .tail act run' met ⟨taken, rfl⟩⟩

/-- Executing a list of actions with a record is a recorded run. -/
theorem of_recording {Mark : Type*} {next : State → Act → Option State}
    {marks : State → Act → List Mark} {meets : State → Act → Prop} {acts : List Act}
    {first last : State × List Mark} (met : ∀ state, ∀ act ∈ acts, meets state act)
    (executed : acts.foldlM (recording next marks) first = some last) :
    Run (Lib.recorded (fun before act after => next before act = some after) marks)
      (fun state act => meets state.1 act) first last := by
  induction acts generalizing first with
  | nil =>
      obtain rfl : first = last := by simpa using executed
      exact .refl first
  | cons act rest inductionHypothesis =>
      obtain ⟨middle, taken, later⟩ : ∃ middle, recording next marks first act = some middle ∧
          rest.foldlM (recording next marks) middle = some last := by
        simpa [List.foldlM_cons, Option.bind_eq_some_iff] using executed
      obtain ⟨after, isNext, rfl⟩ := Option.map_eq_some_iff.mp taken
      have one : Run (Lib.recorded (fun before act after => next before act = some after) marks)
          (fun state act => meets state.1 act) first
            (after, first.2 ++ marks first.1 act) :=
        .tail act (.refl first) (met first.1 act List.mem_cons_self) ⟨isNext, rfl⟩
      exact one.trans (inductionHypothesis
        (fun state other member => met state other (List.mem_cons_of_mem _ member)) later)

/-- A relation that matches every step of the first system with a step of the
second lifts to runs. -/
theorem simulate {State' Act' : Type*} {step' : State' → Act' → State' → Prop}
    {meets' : State' → Act' → Prop} {Related : State → State' → Prop}
    {first last : State} {first' : State'}
    (run : Run step meets first last) (start : Related first first')
    (matched : ∀ {before : State} {act : Act} {after : State} {before' : State'},
      Related before before' → meets before act → step before act after →
        ∃ after', Run step' meets' before' after' ∧ Related after after') :
    ∃ last', Run step' meets' first' last' ∧ Related last last' := by
  induction run with
  | refl => exact ⟨first', .refl first', start⟩
  | tail act before met taken inductionHypothesis =>
      obtain ⟨middle', run', related⟩ := inductionHypothesis
      obtain ⟨last', more, related'⟩ := matched related met taken
      exact ⟨last', run'.trans more, related'⟩

end Run

end DragsterNet.Lib
