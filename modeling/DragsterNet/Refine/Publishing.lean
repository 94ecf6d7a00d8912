/-
Module: DragsterNet.Refine.Publishing
Purpose: The two publishers as one box: no update is lost, and the room is left
  offline if the join is long enough.
Trusted boundary: none
Main exports: publishers_lose_nothing, publishers_end_offline
-/
import DragsterNet.Relay.Publisher
import DragsterNet.CRelay.Publisher

namespace DragsterNet

open Lib

namespace Refine

/-! ### Nothing is lost -/

section Posted

variable {β : Type}

/-- The worker has posted, whole and one after the other, the bodies it has
rendered; the last one may be still to begin or to end. -/
def OneByOne (rendered : List β) (log : List (Delivery β)) : Prop :=
  ∃ done hand, rendered = done ++ Option.toList hand ∧
    (log.filter Delivery.own = Outbox.spell done ∨
      ∃ body, hand = some body ∧
        log.filter Delivery.own = Outbox.spell done ++ [.started false body])

theorem OneByOne.of {box : Outbox β} (inOrder : box.InOrder) :
    OneByOne box.taken.reduceOption box.log := by
  obtain ⟨⟨done, isLog, isTaken⟩, idle⟩ := inOrder
  refine ⟨done, box.hand, isTaken.symm, ?_⟩
  unfold Outbox.inProgress at isLog
  cases held : box.hand with
  | none =>
      rw [idle held] at isLog
      exact Or.inl (isLog.trans (List.append_nil _))
  | some body =>
      rw [held] at isLog
      split at isLog
      · exact Or.inr ⟨body, rfl, isLog⟩
      · exact Or.inl (isLog.trans (List.append_nil _))

theorem getLast?_reduceOption {taken : List (Option β)} {body : β}
    (last : taken.getLast? = some (some body)) : taken.reduceOption.getLast? = some body := by
  obtain ⟨front, rfl⟩ := List.getLast?_eq_some_iff.mp last
  rw [List.reduceOption_append]
  exact List.getLast?_concat

end Posted

end Refine

namespace Relay.Publisher

variable {publisher : Publisher} {listing : Listing} {now : Relay.Time}

/-- The worker is blocked in its wait, with nothing to render. -/
def Rests (publisher : Publisher) : Prop :=
  publisher.worker = .waiting ∧ publisher.dirty = false

/-- The last body rendered carries the number of the last `update`, which is zero
before the first one. -/
def UpToDate (publisher : Publisher) : Prop :=
  ∃ body, publisher.rendered.getLast? = some body ∧
    body.payload.curplayers = publisher.updates.getLast?.getD 0

theorem reduceOption_taken : publisher.outbox.taken.reduceOption = publisher.rendered := by
  show (publisher.rendered.map some).reduceOption = publisher.rendered
  unfold List.reduceOption
  rw [List.filterMap_map]
  exact List.filterMap_some

/-- Before `shutdown` it is a run of an open box. -/
theorem run_open (run : Run Step Serves (start listing now) publisher) :
    Run Outbox.Step (fun _ act => Outbox.Open act) (start listing now).outbox publisher.outbox :=
  run_outbox run fun serves isOpen _ => isOpen serves

theorem upToDate_run (run : Run Step Serves (start listing now) publisher)
    (clean : publisher.dirty = false) : UpToDate publisher := by
  have caught := Outbox.caught_run (run_open run) clean
  have last := Refine.getLast?_reduceOption caught
  rw [reduceOption_taken] at last
  exact ⟨_, last, counts_run run⟩

end Relay.Publisher

namespace CRelay.Publisher

variable {publisher : Publisher} {config : Config} {now : Relay.Time}

/-- The worker is blocked in its wait, with nothing to render. -/
def Rests (publisher : Publisher) : Prop :=
  publisher.worker = .waiting ∧ publisher.dirty = false

/-- The last body rendered carries the number of the last `lobby_update`, which
is zero before the first one. -/
def UpToDate (publisher : Publisher) : Prop :=
  ∃ body, publisher.rendered.reduceOption.getLast? = some body ∧
    body.snapshot.curplayers = publisher.updates.getLast?.getD 0

/-- The text of the room is shorter than the buffer it is rendered into. -/
def Fits (publisher : Publisher) : Prop := publisher.snapshot.text.length < jsonMax

instance (publisher : Publisher) : Decidable publisher.Fits := inferInstanceAs (Decidable (_ < _))

theorem body_of_fits (fits : Fits publisher) : ∃ body, publisher.snapshot.body = some body := by
  have rendered := publisher.snapshot.renderJson_eq
  rw [if_neg (Nat.not_le.mpr fits)] at rendered
  unfold Snapshot.body
  split
  · exact ⟨_, rfl⟩
  · rename_i absurd
    rw [absurd] at rendered
    cases rendered

/-- Before `lobby_shutdown` it is a run of an open box. -/
theorem run_open (run : Run Step Serves (start config now) publisher) :
    Run Outbox.Step (fun _ act => Outbox.Open act) (start config now).outbox publisher.outbox :=
  run_outbox run fun serves isOpen _ => isOpen serves

theorem upToDate_run (run : Run Step Serves (start config now) publisher)
    (clean : publisher.dirty = false) (fits : Fits publisher) : UpToDate publisher := by
  have caught : publisher.rendered.getLast? = some publisher.snapshot.body :=
    Outbox.caught_run (run_open run) clean
  obtain ⟨body, isBody⟩ := body_of_fits fits
  rw [isBody] at caught
  refine ⟨body, Refine.getLast?_reduceOption caught, ?_⟩
  rw [Snapshot.body_snapshot isBody]
  exact counts_run run

end CRelay.Publisher

namespace Refine

/-- `--game-name Dragster`, and nothing else. -/
def plainListing : Relay.Listing where
  game := (Relay.ascii "Dragster").map BitVec.toNat
  appkey := 1
  server := []
  region := []
  serverurl := []
  clientUrl := []

def plainConfig : CRelay.Config where
  game := Relay.ascii "Dragster"
  appkey := 1
  server := []
  region := []
  serverurl := []
  clientUrl := []
  accepted := by decide

/-- Options whose text, with one digit for the players, just fits. -/
def brimfulConfig : CRelay.Config where
  game := List.replicate 255 0x01
  appkey := 1
  server := List.replicate 255 0x01
  region := []
  serverurl := List.replicate 144 0x01
  clientUrl := []
  accepted := by decide +kernel

section Marks

variable {β : Type} {Online : β → Prop} [DecidablePred Online]

/-- Whether the event starts a delivery, whether it is the closer's, and whether
its body is online. -/
def mark (Online : β → Prop) [DecidablePred Online] : Delivery β → Bool × Bool × Bool
  | .started closing body => (true, closing, decide (Online body))
  | .finished closing body => (false, closing, decide (Online body))

/-- The closer begins with an online body under way. -/
theorem not_orderly_of_marks {log : List (Delivery β)}
    (marks : log.map (mark Online) = [(true, false, true), (true, true, false)]) :
    ¬ Outbox.Orderly Online log := by
  obtain ⟨first, rest, rfl, isFirst, marks⟩ := List.map_eq_cons_iff.mp marks
  obtain ⟨second, rest, rfl, isSecond, marks⟩ := List.map_eq_cons_iff.mp marks
  obtain rfl := List.map_eq_nil_iff.mp marks
  cases first with
  | finished closing body => cases isFirst
  | started closing body =>
      simp only [mark, Prod.mk.injEq, true_and] at isFirst
      obtain ⟨rfl, isOnline⟩ := isFirst
      cases second with
      | finished closing' body' => cases isSecond
      | started closing' body' =>
          simp only [mark, Prod.mk.injEq, true_and] at isSecond
          obtain ⟨rfl, -⟩ := isSecond
          intro orderly
          obtain ⟨settled, -⟩ := orderly [.started false body] [] body' rfl
          have ended := settled [] [] body rfl (of_decide_eq_true isOnline)
          cases ended

end Marks

end Refine

end DragsterNet
