/-
Module: DragsterNet.Lib.Outbox
Purpose: A box for the latest value: a worker takes what is in it and delivers
  it, one delivery at a time, until a closer comes and delivers the last one.
Trusted boundary: none
Main exports: Delivery, Outbox, Outbox.next, Outbox.Caught, Outbox.InOrder,
  Outbox.Orderly, Outbox.caught_run, Outbox.inOrder_run, Outbox.orderly_run
-/
import Mathlib.Data.List.ReduceOption
import DragsterNet.Lib.Steps

namespace DragsterNet.Lib

/-- The start or the end of a delivery, by the worker or by the closer. -/
inductive Delivery (β : Type) where
  | started (closing : Bool) (body : β)
  | finished (closing : Bool) (body : β)
deriving DecidableEq

namespace Delivery

variable {β : Type}

def body : Delivery β → β
  | started _ body => body
  | finished _ body => body

/-- It is the worker's. -/
def own : Delivery β → Bool
  | started closing _ => !closing
  | finished closing _ => !closing

end Delivery

/-- `current` is what would be taken now, if it can be taken at all; `dirty` says
that it has not been.  `hand` is what the worker has taken and not delivered yet,
and `sending` that its delivery has begun.  `taken` and `log` are histories. -/
@[ext] structure Outbox (β : Type) where
  current : Option β
  dirty : Bool
  retired : Bool
  joined : Bool
  hand : Option β
  sending : Bool
  taken : List (Option β)
  log : List (Delivery β)

namespace Outbox

variable {β : Type}

/-- `put` changes the value; `take`, `start` and `finish` are the worker's, which
may take a value again.  The closer retires the box, waits for the worker until
it has `joined` it or has waited long enough, and closes. -/
inductive Act (β : Type) where
  | put (value : Option β)
  | take
  | start
  | finish
  | retire (value : Option β)
  | leave
  | join
  | close (body : β)
  | closed (body : β)

def next (box : Outbox β) : Act β → Option (Outbox β)
  | .put value => if box.retired then none else some { box with current := value, dirty := true }
  | .take =>
      match box.hand with
      | none =>
          some { box with
            hand := box.current, dirty := false, taken := box.taken ++ [box.current] }
      | some _ => none
  | .start =>
      match box.hand with
      | some body =>
          if box.sending then none
          else some { box with sending := true, log := box.log ++ [.started false body] }
      | none => none
  | .finish =>
      match box.hand with
      | some body =>
          if box.sending then
            some { box with
              hand := none, sending := false, log := box.log ++ [.finished false body] }
          else none
      | none => none
  | .retire value => some { box with current := value, retired := true }
  | .leave => if box.retired then some { box with dirty := false } else none
  | .join => if box.retired then some { box with joined := true } else none
  | .close body =>
      if box.joined then some { box with log := box.log ++ [.started true body] } else none
  | .closed body => some { box with log := box.log ++ [.finished true body] }

def Step (before : Outbox β) (act : Act β) (after : Outbox β) : Prop :=
  before.next act = some after

/-- An empty box, never looked into. -/
def fresh (value : Option β) : Outbox β where
  current := value
  dirty := true
  retired := false
  joined := false
  hand := none
  sending := false
  taken := []
  log := []

variable {box after : Outbox β} {act : Act β} {value : Option β}

/-- What each act does. -/
inductive Moved (box : Outbox β) : Act β → Outbox β → Prop where
  | put {value : Option β} (isOpen : box.retired = false) :
      Moved box (.put value) { box with current := value, dirty := true }
  | take (empty : box.hand = none) :
      Moved box .take { box with
        hand := box.current, dirty := false, taken := box.taken ++ [box.current] }
  | start {body : β} (held : box.hand = some body) (rests : box.sending = false) :
      Moved box .start { box with sending := true, log := box.log ++ [.started false body] }
  | finish {body : β} (held : box.hand = some body) (sends : box.sending = true) :
      Moved box .finish { box with
        hand := none, sending := false, log := box.log ++ [.finished false body] }
  | retire {value : Option β} : Moved box (.retire value) { box with current := value, retired := true }
  | leave (retired : box.retired = true) : Moved box .leave { box with dirty := false }
  | join (retired : box.retired = true) : Moved box .join { box with joined := true }
  | close {body : β} (joined : box.joined = true) :
      Moved box (.close body) { box with log := box.log ++ [.started true body] }
  | closed {body : β} : Moved box (.closed body) { box with log := box.log ++ [.finished true body] }

theorem step_cases (step : box.Step act after) : Moved box act after := by
  cases act with
  | put value =>
      simp only [Step, next, Option.ite_none_left_eq_some, Option.some.injEq] at step
      obtain ⟨isOpen, rfl⟩ := step
      exact .put (Bool.eq_false_iff.mpr isOpen)
  | take =>
      cases held : box.hand with
      | none =>
          simp only [Step, next, held, Option.some.injEq] at step
          obtain rfl := step
          exact .take held
      | some body => simp [Step, next, held] at step
  | start =>
      cases held : box.hand with
      | none => simp [Step, next, held] at step
      | some body =>
          simp only [Step, next, held, Option.ite_none_left_eq_some, Option.some.injEq] at step
          obtain ⟨rests, rfl⟩ := step
          rw [← held]
          exact .start held (Bool.eq_false_iff.mpr rests)
  | finish =>
      cases held : box.hand with
      | none => simp [Step, next, held] at step
      | some body =>
          simp only [Step, next, held, Option.ite_none_right_eq_some, Option.some.injEq] at step
          obtain ⟨sends, rfl⟩ := step
          exact .finish held sends
  | retire value =>
      obtain rfl := Option.some.inj step
      exact .retire
  | leave =>
      simp only [Step, next, Option.ite_none_right_eq_some, Option.some.injEq] at step
      obtain ⟨retired, rfl⟩ := step
      exact .leave retired
  | join =>
      simp only [Step, next, Option.ite_none_right_eq_some, Option.some.injEq] at step
      obtain ⟨retired, rfl⟩ := step
      exact .join retired
  | close body =>
      simp only [Step, next, Option.ite_none_right_eq_some, Option.some.injEq] at step
      obtain ⟨joined, rfl⟩ := step
      exact .close joined
  | closed body =>
      obtain rfl := Option.some.inj step
      exact .closed

theorem step_put (isOpen : box.retired = false) :
    box.Step (.put value) { box with current := value, dirty := true } := by
  unfold Step next
  exact if_neg (Bool.eq_false_iff.mp isOpen)

/-- The step of taking, from a hand that is empty. -/
theorem step_take (empty : box.hand = none) :
    box.Step .take { box with
      hand := box.current, dirty := false, taken := box.taken ++ [box.current] } := by
  unfold Step next
  rw [empty]

/-! ### Nothing is lost -/

/-- Unless there is something new, what was taken last is what is there. -/
def Caught (box : Outbox β) : Prop := box.dirty = false → box.taken.getLast? = some box.current

/-- The act does not retire the box. -/
def Open : Act β → Prop
  | .retire _ => False
  | _ => True

theorem caught_next (caught : Caught box ∧ box.retired = false) (isOpen : Open act)
    (step : box.Step act after) : Caught after ∧ after.retired = false := by
  obtain ⟨caught, isOpen'⟩ := caught
  cases step_cases step with
  | put => exact ⟨fun clean => Bool.noConfusion clean, isOpen'⟩
  | take => exact ⟨fun _ => List.getLast?_concat, isOpen'⟩
  | retire => exact isOpen.elim
  | leave retired =>
      rw [isOpen'] at retired
      cases retired
  | join retired =>
      rw [isOpen'] at retired
      cases retired
  | start | finish | close | closed => exact ⟨caught, isOpen'⟩

/-- Before the box is retired nothing put into it is lost. -/
theorem caught_run (run : Run Step (fun _ act => Open act) (fresh value) box) : Caught box :=
  (run.invariant (fun box => Caught box ∧ box.retired = false)
    ⟨fun clean => Bool.noConfusion clean, rfl⟩ caught_next).1

/-! ### One at a time, in order -/

/-- Whole deliveries, one after the other. -/
def spell (bodies : List β) : List (Delivery β) :=
  bodies.flatMap fun body => [.started false body, .finished false body]

/-- The delivery that has begun. -/
def inProgress (box : Outbox β) : List (Delivery β) :=
  if box.sending then box.hand.toList.map (.started false) else []

/-- The worker's deliveries are those of the bodies it has taken, in their order
and one at a time; the last one may be still to begin or to end. -/
structure InOrder (box : Outbox β) : Prop where
  delivered : ∃ done, box.log.filter Delivery.own = spell done ++ box.inProgress ∧
    done ++ box.hand.toList = box.taken.reduceOption
  idle : box.hand = none → box.sending = false

theorem spell_concat (done : List β) (body : β) :
    spell (done ++ [body]) = spell done ++ [.started false body, .finished false body] := by
  unfold spell
  rw [List.flatMap_append, List.flatMap_singleton]

/-- What leaves the deliveries of the worker and its hand alone. -/
theorem InOrder.congr (inOrder : InOrder box)
    (log : after.log.filter Delivery.own = box.log.filter Delivery.own)
    (hand : after.hand = box.hand) (sending : after.sending = box.sending)
    (taken : after.taken = box.taken) : InOrder after := by
  obtain ⟨⟨done, isLog, isTaken⟩, idle⟩ := inOrder
  refine ⟨⟨done, ?_, ?_⟩, ?_⟩
  · unfold inProgress at isLog ⊢
    rw [log, hand, sending]
    exact isLog
  · rw [hand, taken]
    exact isTaken
  · rw [hand, sending]
    exact idle

theorem inOrder_next (inOrder : InOrder box) (step : box.Step act after) : InOrder after := by
  have aside : ∀ {event : Delivery β}, event.own = false →
      (box.log ++ [event]).filter Delivery.own = box.log.filter Delivery.own := by
    intro event other
    simp [other]
  cases step_cases step with
  | take empty =>
      obtain ⟨⟨done, isLog, isTaken⟩, idle⟩ := inOrder
      have rests := idle empty
      refine ⟨⟨done, ?_, ?_⟩, fun _ => rests⟩
      · simp only [inProgress, rests] at isLog ⊢
        exact isLog
      · rw [empty] at isTaken
        rw [← List.concat_eq_append, List.reduceOption_concat, ← isTaken]
        simp
  | @start body held rests =>
      obtain ⟨⟨done, isLog, isTaken⟩, -⟩ := inOrder
      refine ⟨⟨done, ?_, isTaken⟩, fun empty => ?_⟩
      · simp only [inProgress, rests] at isLog ⊢
        rw [List.filter_append, isLog, held]
        simp [Delivery.own]
      · rw [held] at empty
        cases empty
  | @finish body held sends =>
      obtain ⟨⟨done, isLog, isTaken⟩, -⟩ := inOrder
      refine ⟨⟨done ++ [body], ?_, ?_⟩, fun _ => rfl⟩
      · simp only [inProgress, sends] at isLog ⊢
        rw [List.filter_append, isLog, spell_concat, held]
        simp [Delivery.own]
      · rw [held] at isTaken
        rw [← isTaken]
        simp
  | close | closed => exact inOrder.congr (aside rfl) rfl rfl rfl
  | put | retire | leave | join => exact inOrder.congr rfl rfl rfl rfl

theorem inOrder_fresh : InOrder (fresh value) where
  delivered := ⟨[], rfl, rfl⟩
  idle _ := rfl

theorem inOrder_run {meets : Outbox β → Act β → Prop} (run : Run Step meets (fresh value) box) :
    InOrder box :=
  run.invariant InOrder inOrder_fresh fun inOrder _ step => inOrder_next inOrder step

/-! ### The last word is the closer's -/

variable {Online : β → Prop}

/-- Every delivery of an online body has come to its end. -/
def Settled (Online : β → Prop) (log : List (Delivery β)) : Prop :=
  ∀ before after body, log = before ++ .started false body :: after → Online body →
    .finished false body ∈ after

/-- Whenever the closer begins, every online body has been delivered, and none is
delivered afterwards. -/
def Orderly (Online : β → Prop) (log : List (Delivery β)) : Prop :=
  ∀ before after body, log = before ++ .started true body :: after →
    Settled Online before ∧ ¬ Online body ∧ ∀ event ∈ after, ¬ Online event.body

/-- What the closer brings is not online, and it has the worker's last online body
delivered before it goes on. -/
def Patient (Online : β → Prop) (box : Outbox β) : Act β → Prop
  | .retire value => ∀ body ∈ value, ¬ Online body
  | .join => ∀ body ∈ box.hand, ¬ Online body
  | .close body => ¬ Online body
  | .closed body => ¬ Online body
  | _ => True

/-- Whole deliveries are settled. -/
theorem settled_spell {done : List β} {before after tail : List (Delivery β)} {body : β}
    (split : spell done ++ tail = before ++ .started false body :: after) :
    .finished false body ∈ after ∨ .started false body ∈ tail := by
  induction done generalizing before with
  | nil =>
      have isTail : tail = before ++ .started false body :: after := split
      rw [isTail]
      exact Or.inr (List.mem_append_right _ List.mem_cons_self)
  | cons first rest inductionHypothesis =>
      have spelt : (.started false first :: .finished false first :: (spell rest ++ tail)) =
          before ++ .started false body :: after := split
      cases before with
      | nil =>
          obtain ⟨same, isAfter⟩ := List.cons.inj spelt
          obtain rfl : first = body := by injection same
          rw [← isAfter]
          exact Or.inl List.mem_cons_self
      | cons one before =>
          obtain ⟨-, spelt⟩ := List.cons.inj spelt
          cases before with
          | nil =>
              obtain ⟨absurd, -⟩ := List.cons.inj spelt
              cases absurd
          | cons two before =>
              obtain ⟨-, spelt⟩ := List.cons.inj spelt
              exact inductionHypothesis spelt

theorem InOrder.settled (inOrder : InOrder box) (done : ∀ body ∈ box.hand, ¬ Online body) :
    Settled Online box.log := by
  intro before after body isLog isOnline
  obtain ⟨⟨bodies, own, -⟩, -⟩ := inOrder
  rw [isLog, List.filter_append, List.filter_cons_of_pos rfl] at own
  rcases settled_spell own.symm with finished | begun
  · exact List.mem_of_mem_filter finished
  · unfold inProgress at begun
    split at begun
    · obtain ⟨held, isHeld, same⟩ := List.mem_map.mp begun
      obtain rfl : held = body := by injection same
      exact absurd isOnline (done held (Option.mem_toList.mp isHeld))
    · cases begun

/-- Nothing online is left once the box is retired and joined. -/
structure Sealed (Online : β → Prop) (box : Outbox β) : Prop where
  inOrder : InOrder box
  stale : box.retired = true → ∀ body ∈ box.current, ¬ Online body
  given : box.joined = true → box.retired = true ∧ ∀ body ∈ box.hand, ¬ Online body
  begun : ∀ body, .started true body ∈ box.log → box.joined = true
  orderly : Orderly Online box.log

/-- One more event keeps the log orderly, if it is not online or the closer has
not begun; the closer begins when all is settled. -/
theorem Orderly.concat {log : List (Delivery β)} {event : Delivery β}
    (orderly : Orderly Online log)
    (begins : ∀ body, event = .started true body → Settled Online log ∧ ¬ Online body)
    (quiet : ∀ body, .started true body ∈ log → ¬ Online event.body) :
    Orderly Online (log ++ [event]) := by
  intro before after body isLog
  rcases List.eq_nil_or_concat after with rfl | ⟨front, last, rfl⟩
  · obtain ⟨rfl, same⟩ := List.append_inj' isLog rfl
    obtain ⟨settled, offline⟩ := begins body (List.singleton_inj.mp same)
    exact ⟨settled, offline, fun _ member => absurd member List.not_mem_nil⟩
  · have cut : log ++ [event] = (before ++ .started true body :: front) ++ [last] := by
      rw [isLog, List.concat_eq_append, List.append_assoc]
      rfl
    obtain ⟨rfl, same⟩ := List.append_inj' cut rfl
    obtain rfl := List.singleton_inj.mp same
    obtain ⟨settled, offline, rest⟩ := orderly before front body rfl
    refine ⟨settled, offline, fun other member => ?_⟩
    rw [List.concat_eq_append] at member
    rcases List.mem_append.mp member with early | late
    · exact rest other early
    · obtain rfl := List.mem_singleton.mp late
      exact quiet body (List.mem_append_right _ List.mem_cons_self)

theorem mem_concat_of_own {log : List (Delivery β)} {event : Delivery β} {body : β}
    (own : event.own = true) (member : .started true body ∈ log ++ [event]) :
    .started true body ∈ log := by
  rcases List.mem_append.mp member with early | late
  · exact early
  · rw [← List.mem_singleton.mp late] at own
    cases own

theorem sealed_next (sealed_ : Sealed Online box) (patient : Patient Online box act)
    (step : box.Step act after) : Sealed Online after := by
  have inOrder := inOrder_next sealed_.inOrder step
  obtain ⟨before, stale, given, begun, orderly⟩ := sealed_
  cases step_cases step with
  | put isOpen =>
      refine ⟨inOrder, fun retired => ?_, given, begun, orderly⟩
      have isRetired : box.retired = true := retired
      rw [isOpen] at isRetired
      cases isRetired
  | take empty =>
      exact ⟨inOrder, stale, fun joined => ⟨(given joined).1, stale (given joined).1⟩, begun,
        orderly⟩
  | @start body held rests =>
      refine ⟨inOrder, stale, given, fun other member => ?_, ?_⟩
      · exact begun other (mem_concat_of_own rfl member)
      · refine orderly.concat (fun _ absurd => by cases absurd) fun other member => ?_
        exact (given (begun other member)).2 body held
  | @finish body held sends =>
      refine ⟨inOrder, stale, fun joined => ⟨(given joined).1, ?_⟩, fun other member => ?_, ?_⟩
      · exact fun _ absurd => by cases absurd
      · exact begun other (mem_concat_of_own rfl member)
      · refine orderly.concat (fun _ absurd => by cases absurd) fun other member => ?_
        exact (given (begun other member)).2 body held
  | retire => exact ⟨inOrder, fun _ => patient, fun joined => ⟨rfl, (given joined).2⟩, begun, orderly⟩
  | leave retired => exact ⟨inOrder, stale, given, begun, orderly⟩
  | join retired => exact ⟨inOrder, stale, fun _ => ⟨retired, patient⟩, fun _ _ => rfl, orderly⟩
  | @close body joined =>
      refine ⟨inOrder, stale, given, fun _ _ => joined, ?_⟩
      refine orderly.concat (fun other same => ?_) fun _ _ => patient
      obtain rfl : body = other := by injection same
      exact ⟨before.settled (given joined).2, patient⟩
  | @closed body =>
      refine ⟨inOrder, stale, given, fun other member => ?_, ?_⟩
      · rcases List.mem_append.mp member with early | late
        · exact begun other early
        · cases List.mem_singleton.mp late
      · exact orderly.concat (fun _ absurd => by cases absurd) fun _ _ => patient

/-- With a patient closer the last word is the closer's. -/
theorem orderly_run (run : Run Step (Patient Online) (fresh value) box) :
    Orderly Online box.log := by
  have sealed_ : Sealed Online box := by
    refine run.invariant (Sealed Online) ⟨inOrder_fresh, fun absurd => ?_, fun absurd => ?_,
      fun _ member => absurd member List.not_mem_nil, fun before after body absurd => ?_⟩
      sealed_next
    · cases absurd
    · cases absurd
    · cases before <;> cases absurd
  exact sealed_.orderly

end Outbox

end DragsterNet.Lib
