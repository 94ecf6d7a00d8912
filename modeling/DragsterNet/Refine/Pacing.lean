/-
Module: DragsterNet.Refine.Pacing
Purpose: The two publishers with a clock: their POSTs start a second apart, in C
  unless something ends the debounce wait early.
Trusted boundary: the clock, and the Lobby, which a POST reaches at any speed
Main exports: Relay.Publisher.clocked, CRelay.Publisher.clocked, Undisturbed,
  posts_spaced, posts_crowded
-/
import DragsterNet.Refine.Publishing
import DragsterNet.Lib.Pacing

namespace DragsterNet

open Lib

/-! ### The publisher in Python -/

namespace Relay

def Worker.phase : Worker → Phase
  | check => .top
  | enter => .armed
  | waiting => .armed
  | woken => .armed
  | ready _ => .armed
  | posting _ => .sending
  | pausing => .pausing
  | gone => .gone

namespace Publisher

def face : Lib.Face Publisher where
  phase := fun publisher => publisher.worker.phase
  stopped := Publisher.stop
  now := Publisher.now

variable {clocked clocked' : Clocked Publisher} {publisher after : Publisher} {act : Act}

/-- `stop.wait(1.0)` does not return before its second is over, unless `stop` is
set. -/
def kept (clocked : Clocked Publisher) : Act → Bool
  | .work =>
      decide (face.phase clocked.state = .pausing) && !clocked.state.stop &&
        decide (clocked.state.now < clocked.release)
  | _ => false

def clockedNext (clocked : Clocked Publisher) (act : Act) : Option (Clocked Publisher) :=
  if kept clocked act then none
  else (clocked.state.next act).map (clocked.becomes face second)

def ClockedStep (before : Clocked Publisher) (act : Act) (after : Clocked Publisher) : Prop :=
  clockedNext before act = some after

def clockedStart (listing : Listing) (now : Time) : Clocked Publisher where
  state := start listing now
  release := now
  starts := []

theorem turn_work (free : kept clocked .work = false) (step : clocked.state.work = some after) :
    Clocked.Turn face second clocked after ∧ after.now = clocked.state.now ∧
      after.stop = clocked.state.stop := by
  obtain ⟨⟨payload, dirty, stop, failures, worker, closer, now, updates, rendered, log⟩,
    release, starts⟩ := clocked
  cases worker with
  | check =>
      obtain rfl := Option.some.inj step
      cases stop with
      | true => exact ⟨.leaves rfl, rfl, rfl⟩
      | false => exact ⟨.arms rfl rfl rfl, rfl, rfl⟩
  | enter =>
      cases dirty with
      | true =>
          obtain rfl := Option.some.inj step
          exact ⟨.stays rfl, rfl, rfl⟩
      | false =>
          obtain rfl := Option.some.inj step
          exact ⟨.stays rfl, rfl, rfl⟩
  | woken =>
      obtain rfl := Option.some.inj step
      exact ⟨.stays rfl, rfl, rfl⟩
  | ready body =>
      obtain rfl := Option.some.inj step
      exact ⟨.sends rfl rfl, rfl, rfl⟩
  | pausing =>
      obtain rfl := Option.some.inj step
      cases stop with
      | true => exact ⟨.stops rfl rfl, rfl, rfl⟩
      | false => exact ⟨.expires rfl (Nat.not_lt.mp (of_decide_eq_false free)) rfl, rfl, rfl⟩
  | waiting => cases step
  | posting body => cases step
  | gone => cases step

theorem notify_phase : publisher.notify.worker.phase = publisher.worker.phase := by
  unfold notify
  split
  · rename_i waits
    rw [waits]
    rfl
  · rfl

theorem notify_keeps : publisher.notify.now = publisher.now ∧
    publisher.notify.stop = publisher.stop := by
  unfold notify
  split
  · exact ⟨rfl, rfl⟩
  · exact ⟨rfl, rfl⟩

/-- What else a step leaves: the worker's phase, and a clock and a `stop` that only
go forward. -/
structure Calm (publisher after : Publisher) : Prop where
  phase : after.worker.phase = publisher.worker.phase
  now : publisher.now ≤ after.now
  stop : publisher.stop = true → after.stop = true

theorem Calm.notify : Calm publisher publisher.notify where
  phase := notify_phase
  now := Nat.le_of_eq notify_keeps.1.symm
  stop := fun stopped => notify_keeps.2.trans stopped

theorem calm_shutdown (step : publisher.shutdown = some after) : Calm publisher after := by
  obtain ⟨payload, dirty, stop, failures, worker, closer, now, updates, rendered, log⟩ := publisher
  cases closer with
  | serving =>
      obtain rfl := Option.some.inj step
      exact ⟨rfl, Nat.le_refl now, id⟩
  | marked body =>
      obtain rfl := Option.some.inj step
      exact ⟨rfl, Nat.le_refl now, fun _ => rfl⟩
  | stopped body =>
      obtain rfl := Option.some.inj step
      have calm := @Calm.notify
        ⟨payload, dirty, stop, failures, worker, .stopped body, now, updates, rendered, log⟩
      exact ⟨calm.phase, calm.now, calm.stop⟩
  | joining body since =>
      unfold shutdown at step
      simp only at step
      split at step
      · obtain rfl := Option.some.inj step
        exact ⟨rfl, Nat.le_refl now, id⟩
      · cases step
  | last body =>
      obtain rfl := Option.some.inj step
      exact ⟨rfl, Nat.le_refl now, id⟩
  | posting body => cases step
  | done => cases step

theorem turn_next (free : kept clocked act = false) (step : clocked.state.next act = some after) :
    Clocked.Turn face second clocked after ∧ clocked.state.now ≤ after.now ∧
      (clocked.state.stop = true → after.stop = true) := by
  have calmly : Calm clocked.state after → Clocked.Turn face second clocked after ∧
      clocked.state.now ≤ after.now ∧ (clocked.state.stop = true → after.stop = true) :=
    fun calm => ⟨.stays calm.phase, calm.now, calm.stop⟩
  cases act with
  | update curplayers =>
      unfold next at step
      simp only at step
      split at step
      · obtain rfl := Option.some.inj step
        apply calmly
        have calm := @Calm.notify
          { clocked.state with
            payload := { clocked.state.payload with curplayers := curplayers }
            dirty := true
            updates := clocked.state.updates ++ [curplayers] }
        exact ⟨calm.phase, calm.now, calm.stop⟩
      · cases step
  | work =>
      obtain ⟨turn, now, stop⟩ := turn_work free step
      exact ⟨turn, Nat.le_of_eq now.symm, fun stopped => stop.trans stopped⟩
  | finish outcome =>
      obtain ⟨⟨payload, dirty, stop, failures, worker, closer, now, updates, rendered, log⟩,
        release, starts⟩ := clocked
      cases worker with
      | posting body =>
          obtain rfl := Option.some.inj step
          refine ⟨?_, Nat.le_refl now, id⟩
          by_cases other : outcome = .other
          · exact .leaves (congrArg Worker.phase (if_pos other))
          · exact .pauses (congrArg Worker.phase (if_neg other))
      | _ => cases step
  | wake =>
      obtain ⟨⟨payload, dirty, stop, failures, worker, closer, now, updates, rendered, log⟩,
        release, starts⟩ := clocked
      cases worker with
      | waiting =>
          obtain rfl := Option.some.inj step
          exact calmly ⟨rfl, Nat.le_refl now, id⟩
      | _ => cases step
  | shutdown => exact calmly (calm_shutdown step)
  | expire =>
      apply calmly
      unfold next expire at step
      simp only at step
      split at step
      · split at step
        · obtain rfl := Option.some.inj step
          exact ⟨rfl, Nat.le_refl _, id⟩
        · cases step
      · cases step
  | closed outcome =>
      apply calmly
      unfold next closed at step
      simp only at step
      split at step
      · obtain rfl := Option.some.inj step
        exact ⟨rfl, Nat.le_refl _, id⟩
      · cases step
  | pass time =>
      obtain rfl := Option.some.inj step
      exact calmly ⟨rfl, Nat.le_add_right _ time, id⟩

theorem clockedStep_paced (paced : Clocked.Paced face second clocked)
    (step : ClockedStep clocked act clocked') : Clocked.Paced face second clocked' := by
  unfold ClockedStep clockedNext at step
  split at step
  · cases step
  · rename_i free
    obtain ⟨after, isNext, rfl⟩ := Option.map_eq_some_iff.mp step
    obtain ⟨turn, clock, lasting⟩ := turn_next (Bool.eq_false_iff.mpr free) isNext
    exact paced.becomes turn clock lasting

/-- The clock only takes steps away. -/
theorem run_unclocked {meets : Clocked Publisher → Act → Prop} {listing : Listing} {now : Time}
    (run : Run ClockedStep meets (clockedStart listing now) clocked) :
    Run Step always (start listing now) clocked.state := by
  induction run with
  | refl => exact .refl _
  | tail act before met taken inductionHypothesis =>
      unfold ClockedStep clockedNext at taken
      split at taken
      · cases taken
      · obtain ⟨after, isNext, rfl⟩ := Option.map_eq_some_iff.mp taken
        exact .tail act inductionHypothesis trivial isNext

theorem spaced_run {listing : Listing} {now : Time}
    (run : Run ClockedStep always (clockedStart listing now) clocked) : clocked.Spaced second := by
  have paced : Clocked.Paced face second clocked := by
    apply run.invariant (Clocked.Paced face second) (Clocked.Paced.start rfl)
    intro before act after isPaced _ step
    exact clockedStep_paced isPaced step
  exact paced.spaced

end Publisher

end Relay

/-! ### The publisher in C -/

namespace CRelay

open Relay (Time second)

def Worker.phase : Worker → Phase
  | top => .top
  | waiting => .top
  | woken _ => .top
  | ready _ => .armed
  | posting _ => .sending
  | failed => .spent
  | debounce => .spent
  | pausing => .pausing
  | gone => .gone

namespace Publisher

def face : Lib.Face Publisher where
  phase := fun publisher => publisher.worker.phase
  stopped := Publisher.stopping
  now := Publisher.now

variable {clocked clocked' : Clocked Publisher} {publisher after : Publisher}

/-- What happens to the publisher, or that the debounce wait ends for no reason. -/
inductive ClockedAct where
  | own (act : Act)
  | spurious

/-- The debounce wait does not end by itself before its second is over. -/
def kept (clocked : Clocked Publisher) : Act → Bool
  | .work =>
      decide (face.phase clocked.state = .pausing) && decide (clocked.state.now < clocked.release)
  | _ => false

def clockedNext (clocked : Clocked Publisher) : ClockedAct → Option (Clocked Publisher)
  | .own act =>
      if kept clocked act then none
      else (clocked.state.next act).map (clocked.becomes face second)
  | .spurious =>
      if face.phase clocked.state = .pausing then
        clocked.state.work.map (clocked.becomes face second)
      else none

def ClockedStep (before : Clocked Publisher) (act : ClockedAct) (after : Clocked Publisher) :
    Prop :=
  clockedNext before act = some after

def clockedStart (config : Config) (now : Time) : Clocked Publisher where
  state := start config now
  release := now
  starts := []

/-- Neither a `lobby_update` nor a spurious wake-up ends the debounce wait while the
last POST is less than a second old. -/
def Undisturbed (clocked : Clocked Publisher) : ClockedAct → Prop
  | .own (.update _) =>
      face.phase clocked.state = .pausing → Clocked.Free face second clocked
  | .spurious => Clocked.Free face second clocked
  | _ => True

instance (clocked : Clocked Publisher) (act : ClockedAct) : Decidable (Undisturbed clocked act) :=
  match act with
  | .own (.update _) =>
      inferInstanceAs (Decidable (face.phase clocked.state = .pausing →
        Clocked.Free face second clocked))
  | .spurious => inferInstanceAs (Decidable (Clocked.Free face second clocked))
  | .own .work | .own (.finish _) | .own (.wake _) | .own .shutdown | .own .expire
  | .own (.closed _) | .own (.pass _) => isTrue trivial

/-- What else a step leaves: a clock that only goes forward, and the two flags of
`lobby_shutdown`, which are set together. -/
structure Calm (publisher after : Publisher) : Prop where
  now : publisher.now ≤ after.now
  stopping : publisher.stopping = true → after.stopping = true
  stopEvt : publisher.stopEvt = publisher.stopping → after.stopEvt = after.stopping

theorem Calm.of (now : after.now = publisher.now) (stopping : after.stopping = publisher.stopping)
    (stopEvt : after.stopEvt = publisher.stopEvt) : Calm publisher after where
  now := Nat.le_of_eq now.symm
  stopping := fun stops => stopping.trans stops
  stopEvt := fun together => stopEvt.trans (together.trans stopping.symm)

theorem turn_turn {timedOut : Bool} (top : face.phase clocked.state = .top) :
    Clocked.Turn face second clocked (clocked.state.woke timedOut).turn ∧
      Calm clocked.state (clocked.state.woke timedOut).turn := by
  unfold turn
  split
  · exact ⟨.stays top.symm, .of rfl rfl rfl⟩
  · split
    · exact ⟨.leaves rfl, .of rfl rfl rfl⟩
    · rename_i serves
      refine ⟨?_, .of rfl rfl rfl⟩
      cases isBody : (clocked.state.woke timedOut).snapshot.body with
      | some body => exact .arms top (Bool.eq_false_iff.mpr serves) rfl
      | none => exact .spends rfl

theorem turn_work (together : clocked.state.stopEvt = clocked.state.stopping)
    (due : face.phase clocked.state = .pausing →
      clocked.release ≤ clocked.state.now ∨ Clocked.Free face second clocked)
    (step : clocked.state.work = some after) :
    Clocked.Turn face second clocked after ∧ Calm clocked.state after := by
  cases isWorker : clocked.state.worker with
  | top =>
      simp only [work, isWorker, Option.some.injEq] at step
      obtain rfl := step
      have turned := @turn_turn clocked false (congrArg Worker.phase isWorker)
      rwa [woke_false] at turned
  | woken timedOut =>
      simp only [work, isWorker, Option.some.injEq] at step
      obtain rfl := step
      exact turn_turn (congrArg Worker.phase isWorker)
  | ready body =>
      simp only [work, isWorker, Option.some.injEq] at step
      obtain rfl := step
      exact ⟨.sends (congrArg Worker.phase isWorker) rfl, .of rfl rfl rfl⟩
  | failed =>
      simp only [work, isWorker, Option.some.injEq] at step
      obtain rfl := step
      exact ⟨.spends rfl, .of rfl rfl rfl⟩
  | debounce =>
      simp only [work, isWorker, Option.some.injEq] at step
      obtain rfl := step
      refine ⟨?_, .of rfl rfl rfl⟩
      cases isSet : clocked.state.stopEvt with
      | true => exact .stops (together.symm.trans isSet) rfl
      | false => exact .pauses rfl
  | pausing =>
      simp only [work, isWorker, Option.some.injEq] at step
      obtain rfl := step
      have pausing : face.phase clocked.state = .pausing := congrArg Worker.phase isWorker
      refine ⟨?_, .of rfl rfl rfl⟩
      rcases due pausing with late | free
      · exact .expires pausing late rfl
      · exact .freed free rfl
  | waiting =>
      simp only [work, isWorker] at step
      cases step
  | posting body =>
      simp only [work, isWorker] at step
      cases step
  | gone =>
      simp only [work, isWorker] at step
      cases step

theorem broadcast_flags : publisher.broadcast.now = publisher.now ∧
    publisher.broadcast.stopEvt = publisher.stopEvt := by
  unfold broadcast
  split
  · exact ⟨rfl, rfl⟩
  · exact ⟨rfl, rfl⟩
  · exact ⟨rfl, rfl⟩

theorem Calm.broadcast : Calm publisher publisher.broadcast :=
  .of broadcast_flags.1 broadcast_keeps.1 broadcast_flags.2

/-- A broadcast ends the debounce wait; otherwise the worker is where it was. -/
theorem broadcast_phase : publisher.broadcast.worker.phase =
    if publisher.worker.phase = .pausing then .top else publisher.worker.phase := by
  obtain ⟨snapshot, dirty, stopping, stopEvt, failures, worker, closer, now, updates, rendered,
    log⟩ := publisher
  cases worker with
  | _ => rfl

/-- A step that leaves the worker in its phase. -/
theorem turn_calmly (phase : after.worker.phase = clocked.state.worker.phase)
    (calm : Calm clocked.state after) :
    Clocked.Turn face second clocked after ∧ Calm clocked.state after :=
  ⟨.stays phase, calm⟩

theorem turn_update {curplayers : Nat}
    (undisturbed : Undisturbed clocked (.own (.update curplayers))) :
    Clocked.Turn face second clocked (clocked.state.update curplayers) ∧
      Calm clocked.state (clocked.state.update curplayers) := by
  unfold update
  split
  · exact ⟨.stays rfl, .of rfl rfl rfl⟩
  · have calm := @Calm.broadcast
      { clocked.state with
        snapshot := { clocked.state.snapshot with curplayers := curplayers }
        dirty := true
        updates := clocked.state.updates ++ [curplayers] }
    refine ⟨?_, calm.now, calm.stopping, calm.stopEvt⟩
    by_cases pausing : face.phase clocked.state = .pausing
    · exact .freed (undisturbed pausing) (broadcast_phase.trans (if_pos pausing))
    · exact .stays (broadcast_phase.trans (if_neg pausing))

theorem turn_shutdown (step : clocked.state.shutdown = some after) :
    Clocked.Turn face second clocked after ∧ Calm clocked.state after := by
  cases isCloser : clocked.state.closer with
  | serving =>
      simp only [shutdown, isCloser, Option.some.injEq] at step
      obtain rfl := step
      have calm := @Calm.broadcast
        { clocked.state with
          snapshot := { clocked.state.snapshot with offline := true }
          stopping := true
          stopEvt := true
          closer := .marked { clocked.state.snapshot with offline := true }.body }
      refine ⟨?_, calm.now, fun _ => calm.stopping rfl, fun _ => calm.stopEvt rfl⟩
      by_cases pausing : face.phase clocked.state = .pausing
      · exact .stops (calm.stopping rfl) (broadcast_phase.trans (if_pos pausing))
      · exact .stays (broadcast_phase.trans (if_neg pausing))
  | marked body =>
      simp only [shutdown, isCloser, Option.some.injEq] at step
      obtain rfl := step
      exact turn_calmly rfl (.of rfl rfl rfl)
  | joining body since =>
      simp only [shutdown, isCloser] at step
      split at step
      · obtain rfl := Option.some.inj step
        exact turn_calmly rfl (.of rfl rfl rfl)
      · cases step
  | last body =>
      cases body with
      | some body =>
          simp only [shutdown, isCloser, Option.some.injEq] at step
          obtain rfl := step
          exact turn_calmly rfl (.of rfl rfl rfl)
      | none =>
          simp only [shutdown, isCloser, Option.some.injEq] at step
          obtain rfl := step
          exact turn_calmly rfl (.of rfl rfl rfl)
  | posting body =>
      simp only [shutdown, isCloser] at step
      cases step
  | done =>
      simp only [shutdown, isCloser] at step
      cases step

theorem turn_next {act : Act} (together : clocked.state.stopEvt = clocked.state.stopping)
    (free : kept clocked act = false) (undisturbed : Undisturbed clocked (.own act))
    (step : clocked.state.next act = some after) :
    Clocked.Turn face second clocked after ∧ Calm clocked.state after := by
  cases act with
  | update curplayers =>
      unfold next at step
      simp only at step
      split at step
      · obtain rfl := Option.some.inj step
        exact turn_update undisturbed
      · cases step
  | work =>
      apply turn_work together _ step
      intro pausing
      have late := (Bool.and_eq_false_iff.mp free).resolve_left fun notPausing =>
        of_decide_eq_false notPausing pausing
      exact .inl (Nat.not_lt.mp (of_decide_eq_false late))
  | finish posted =>
      unfold next finish at step
      simp only at step
      split at step
      · obtain rfl := Option.some.inj step
        refine ⟨.spends ?_, .of rfl rfl rfl⟩
        cases posted <;> rfl
      · cases step
  | wake timedOut =>
      unfold next wake at step
      simp only at step
      split at step
      · rename_i waits
        obtain rfl := Option.some.inj step
        exact turn_calmly (congrArg Worker.phase waits).symm (.of rfl rfl rfl)
      · cases step
  | shutdown => exact turn_shutdown step
  | expire =>
      unfold next expire at step
      simp only at step
      split at step
      · split at step
        · obtain rfl := Option.some.inj step
          exact turn_calmly rfl (.of rfl rfl rfl)
        · cases step
      · cases step
  | closed posted =>
      unfold next closed at step
      simp only at step
      split at step
      · obtain rfl := Option.some.inj step
        exact turn_calmly rfl (.of rfl rfl rfl)
      · cases step
  | pass time =>
      obtain rfl := Option.some.inj step
      exact turn_calmly rfl ⟨Nat.le_add_right _ time, id, id⟩

theorem clockedStep_turn {act : ClockedAct}
    (together : clocked.state.stopEvt = clocked.state.stopping)
    (undisturbed : Undisturbed clocked act) (step : ClockedStep clocked act clocked') :
    ∃ after, clocked' = clocked.becomes face second after ∧
      Clocked.Turn face second clocked after ∧ Calm clocked.state after := by
  cases act with
  | own act =>
      unfold ClockedStep clockedNext at step
      simp only at step
      split at step
      · cases step
      · rename_i free
        obtain ⟨after, isNext, rfl⟩ := Option.map_eq_some_iff.mp step
        exact ⟨after, rfl, turn_next together (Bool.eq_false_iff.mpr free) undisturbed isNext⟩
  | spurious =>
      unfold ClockedStep clockedNext at step
      simp only at step
      split at step
      · obtain ⟨after, isNext, rfl⟩ := Option.map_eq_some_iff.mp step
        exact ⟨after, rfl, turn_work together (fun _ => .inr undisturbed) isNext⟩
      · cases step

/-- The clock only takes steps away, and a spurious wake-up is a step the worker may
take by itself without one. -/
theorem run_unclocked {meets : Clocked Publisher → ClockedAct → Prop} {config : Config}
    {now : Time} (run : Run ClockedStep meets (clockedStart config now) clocked) :
    Run Step always (start config now) clocked.state := by
  induction run with
  | refl => exact .refl _
  | tail act before met taken inductionHypothesis =>
      unfold ClockedStep clockedNext at taken
      cases act with
      | own act =>
          simp only at taken
          split at taken
          · cases taken
          · obtain ⟨after, isNext, rfl⟩ := Option.map_eq_some_iff.mp taken
            exact .tail act inductionHypothesis trivial isNext
      | spurious =>
          simp only at taken
          split at taken
          · obtain ⟨after, isNext, rfl⟩ := Option.map_eq_some_iff.mp taken
            exact .tail .work inductionHypothesis trivial isNext
          · cases taken

theorem spaced_run {config : Config} {now : Time}
    (run : Run ClockedStep Undisturbed (clockedStart config now) clocked) :
    clocked.Spaced second := by
  have paced : Clocked.Paced face second clocked ∧
      clocked.state.stopEvt = clocked.state.stopping := by
    apply run.invariant (fun clocked => Clocked.Paced face second clocked ∧
      clocked.state.stopEvt = clocked.state.stopping) ⟨Clocked.Paced.start rfl, rfl⟩
    rintro before act after ⟨isPaced, together⟩ undisturbed step
    obtain ⟨state, rfl, turn, calm⟩ := clockedStep_turn together undisturbed step
    exact ⟨isPaced.becomes turn calm.now calm.stopping, calm.stopEvt together⟩
  exact paced.1.spaced

end Publisher

end CRelay

/-! ### Both publishers -/

namespace Refine

/-- Two POSTs of the worker start at least a second apart: in Python always, in C as
long as nothing ends the debounce wait within a second of the last start. -/
theorem posts_spaced (now : Relay.Time) :
    (∀ (listing : Relay.Listing) (clocked : Clocked Relay.Publisher),
      Run Relay.Publisher.ClockedStep always (Relay.Publisher.clockedStart listing now) clocked →
        clocked.Spaced Relay.second) ∧
    (∀ (config : CRelay.Config) (clocked : Clocked CRelay.Publisher),
      Run CRelay.Publisher.ClockedStep CRelay.Publisher.Undisturbed
          (CRelay.Publisher.clockedStart config now) clocked →
        clocked.Spaced Relay.second) :=
  ⟨fun _ _ run => Relay.Publisher.spaced_run run, fun _ _ run => CRelay.Publisher.spaced_run run⟩

/-- Two POSTs, with an update in between that comes while the first one is under
way. -/
theorem posts_spaced_twice :
    (∃ clocked : Clocked Relay.Publisher, clocked.starts = [0, 1000000] ∧
      clocked.Spaced Relay.second) ∧
    (∃ clocked : Clocked CRelay.Publisher, clocked.starts = [0, 1000000] ∧
      clocked.Spaced Relay.second) := by
  constructor
  · have outcome : (([.work, .work, .work, .update 1, .finish .answered, .pass Relay.second, .work,
        .work, .work, .work] : List Relay.Publisher.Act).foldlM Relay.Publisher.clockedNext
          (Relay.Publisher.clockedStart plainListing 0)).map Clocked.starts =
        some [0, 1000000] := by
      decide +kernel
    obtain ⟨clocked, executed, starts⟩ := Option.map_eq_some_iff.mp outcome
    exact ⟨clocked, starts, (posts_spaced 0).1 plainListing clocked (Run.of_foldlM executed)⟩
  · have outcome : (([.own .work, .own .work, .own (.update 1), .own (.finish true), .own .work,
        .own (.pass Relay.second), .own .work, .own .work, .own .work] :
          List CRelay.Publisher.ClockedAct).foldlM
            (guarded CRelay.Publisher.clockedNext CRelay.Publisher.Undisturbed)
          (CRelay.Publisher.clockedStart plainConfig 0)).map Clocked.starts =
        some [0, 1000000] := by
      decide +kernel
    obtain ⟨clocked, executed, starts⟩ := Option.map_eq_some_iff.mp outcome
    exact ⟨clocked, starts, (posts_spaced 0).2 plainConfig clocked (Run.of_guarded executed)⟩

/-- An update during the debounce wait is posted at once. -/
theorem posts_crowded : ∃ clocked : Clocked CRelay.Publisher,
    Run CRelay.Publisher.ClockedStep always (CRelay.Publisher.clockedStart plainConfig 0) clocked ∧
      clocked.state.closer.retired = false ∧ ¬ clocked.Spaced Relay.second := by
  have outcome : (([.own .work, .own .work, .own (.finish true), .own .work, .own (.update 1),
      .own .work, .own .work] : List CRelay.Publisher.ClockedAct).foldlM
        CRelay.Publisher.clockedNext (CRelay.Publisher.clockedStart plainConfig 0)).map
      (fun clocked => (clocked.state.closer.retired, clocked.starts)) = some (false, [0, 0]) := by
    decide +kernel
  obtain ⟨clocked, executed, isOutcome⟩ := Option.map_eq_some_iff.mp outcome
  obtain ⟨serves, starts⟩ := Prod.mk.inj isOutcome
  refine ⟨clocked, Run.of_foldlM executed, serves, ?_⟩
  intro spaced
  rw [Clocked.Spaced, starts] at spaced
  cases spaced with
  | cons_cons close _ => exact absurd close (by decide)

end Refine

end DragsterNet
