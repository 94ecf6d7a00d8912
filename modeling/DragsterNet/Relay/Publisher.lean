/-
Module: DragsterNet.Relay.Publisher
Purpose: The publisher of the relay in Python: a worker thread that posts the
  room to the Lobby, and the shutdown that posts it offline.
Trusted boundary: the Lobby, which a POST reaches at any speed
Main exports: Payload.dumps, Publisher, Publisher.next, Publisher.outbox,
  Publisher.simulates
-/
import DragsterNet.Lib.Outbox
import DragsterNet.Relay.Server

namespace DragsterNet.Relay

open Lib

/-! ### The body -/

/-- The options the room is published with. -/
structure Listing where
  game : Text
  appkey : Int
  server : Text
  region : Text
  serverurl : Text
  clientUrl : Text

inductive Status where
  | online
  | offline
deriving DecidableEq

structure Payload where
  listing : Listing
  status : Status
  curplayers : Nat

def maxplayers : Nat := 2

def Status.text : Status → Bytes
  | online => ascii "online"
  | offline => ascii "offline"

/-- `\uXXXX` -/
def escapeUnit (unit : Nat) : Bytes :=
  ascii "\\u" ++ hexLower (BitVec.ofNat 8 (unit / 256)) ++ hexLower (BitVec.ofNat 8 unit)

/-- One character of a JSON string, of which only the printable ASCII ones stand
for themselves. -/
def escapeChar (char : Nat) : Bytes :=
  if char = 0x22 then ascii "\\\""
  else if char = 0x5C then ascii "\\\\"
  else if char = 0x0A then ascii "\\n"
  else if char = 0x0D then ascii "\\r"
  else if char = 0x09 then ascii "\\t"
  else if char = 0x0C then ascii "\\f"
  else if char = 0x08 then ascii "\\b"
  else if 0x20 ≤ char ∧ char ≤ 0x7E then [BitVec.ofNat 8 char]
  else if char < 0x10000 then escapeUnit char
  else
    escapeUnit (0xD800 + (char - 0x10000) / 0x400) ++
      escapeUnit (0xDC00 + (char - 0x10000) % 0x400)

def quoted (text : Text) : Bytes := ascii "\"" ++ text.flatMap escapeChar ++ ascii "\""

/-- `json.dumps(self.payload).encode()` -/
def Payload.dumps (payload : Payload) : Bytes :=
  ascii "\x7b\"game\": " ++ quoted payload.listing.game ++
    ascii ", \"appkey\": " ++ integer payload.listing.appkey ++
    ascii ", \"server\": " ++ quoted payload.listing.server ++
    ascii ", \"region\": " ++ quoted payload.listing.region ++
    ascii ", \"serverurl\": " ++ quoted payload.listing.serverurl ++
    ascii ", \"status\": \"" ++ payload.status.text ++
    ascii "\", \"maxplayers\": " ++ decimal maxplayers ++
    ascii ", \"curplayers\": " ++ decimal payload.curplayers ++
    ascii ", \"clients\": [\x7b\"platform\": \"a2600\", \"url\": " ++
    quoted payload.listing.clientUrl ++ ascii "\x7d]\x7d"

/-- The body of a POST, with the payload it was made from. -/
structure Body where
  payload : Payload
  text : Bytes
  spells : text = payload.dumps

def Payload.body (payload : Payload) : Body := ⟨payload, payload.dumps, rfl⟩

/-- A body that carries status online. -/
def Body.Online (body : Body) : Prop := body.payload.status = .online

instance (body : Body) : Decidable body.Online := inferInstanceAs (Decidable (_ = _))

/-! ### The threads -/

/-- Where the worker is in `run`. -/
inductive Worker where
  /-- `while not self.stop.is_set()` -/
  | check
  /-- It is about to take the lock. -/
  | enter
  /-- It is blocked in `cv.wait`. -/
  | waiting
  /-- `cv.wait` is about to take the lock anew. -/
  | woken
  | ready (body : Body)
  | posting (body : Body)
  /-- It is blocked in `stop.wait(1.0)`. -/
  | pausing
  | gone

def Worker.waits : Worker → Bool
  | .waiting => true
  | _ => false

theorem Worker.eq_waiting {worker : Worker} (waits : worker.waits = true) : worker = .waiting := by
  cases worker with
  | waiting => rfl
  | _ => cases waits

/-- Where the main thread is in `shutdown`. -/
inductive Closer where
  | serving
  /-- `stop` is about to be set. -/
  | marked (body : Body)
  /-- The worker is about to be notified. -/
  | stopped (body : Body)
  | joining (body : Body) (since : Time)
  | last (body : Body)
  | posting (body : Body)
  | done

/-- What comes of `urlopen`: an answer, an `OSError`, which `post` catches, or
another exception, which ends the thread. -/
inductive Outcome where
  | answered
  | osError
  | other
deriving DecidableEq

/-- `updates`, `rendered` and `log` are histories: the arguments of `update`, the
bodies the worker has rendered, and the POSTs of both threads. -/
structure Publisher where
  payload : Payload
  dirty : Bool
  stop : Bool
  failures : Nat
  worker : Worker
  closer : Closer
  now : Time
  updates : List Nat
  rendered : List Body
  log : List (Delivery Body)

def joinTimeout : Time := 12 * second

namespace Publisher

def start (listing : Listing) (now : Time) : Publisher where
  payload := ⟨listing, .online, 0⟩
  dirty := true
  stop := false
  failures := 0
  worker := .check
  closer := .serving
  now := now
  updates := []
  rendered := []
  log := []

/-- `cv.notify()` -/
def notify (publisher : Publisher) : Publisher :=
  match publisher.worker with
  | .waiting => { publisher with worker := .woken }
  | _ => publisher

def update (publisher : Publisher) (curplayers : Nat) : Publisher :=
  notify { publisher with
    payload := { publisher.payload with curplayers := curplayers }
    dirty := true
    updates := publisher.updates ++ [curplayers] }

/-- `self.dirty = False`, and the body. -/
def take (publisher : Publisher) : Publisher :=
  { publisher with
    dirty := false
    worker := .ready publisher.payload.body
    rendered := publisher.rendered ++ [publisher.payload.body] }

/-- What the worker does by itself.  A pause may end at any time. -/
def work (publisher : Publisher) : Option Publisher :=
  match publisher.worker with
  | .check => some { publisher with worker := if publisher.stop then .gone else .enter }
  | .enter =>
      if publisher.dirty then some publisher.take
      else some { publisher with worker := .waiting }
  | .woken => some publisher.take
  | .ready body =>
      some { publisher with worker := .posting body, log := publisher.log ++ [.started false body] }
  | .pausing => some { publisher with worker := .check }
  | .waiting | .posting _ | .gone => none

/-- A POST comes to its end. -/
def finish (outcome : Outcome) (publisher : Publisher) : Option Publisher :=
  match publisher.worker with
  | .posting body =>
      some { publisher with
        worker := if outcome = .other then .gone else .pausing
        failures := if outcome = .osError then publisher.failures + 1 else publisher.failures
        log := publisher.log ++ [.finished false body] }
  | _ => none

/-- `cv.wait` returns without a notice: its time is over, or for no reason. -/
def wake (publisher : Publisher) : Option Publisher :=
  match publisher.worker with
  | .waiting => some { publisher with worker := .woken }
  | _ => none

def isGone (publisher : Publisher) : Bool :=
  match publisher.worker with
  | .gone => true
  | _ => false

/-- The steps of `shutdown`; the join ends here if the worker has. -/
def shutdown (publisher : Publisher) : Option Publisher :=
  match publisher.closer with
  | .serving =>
      let payload := { publisher.payload with status := .offline }
      some { publisher with payload := payload, closer := .marked payload.body }
  | .marked body => some { publisher with stop := true, closer := .stopped body }
  | .stopped body => some { publisher.notify with closer := .joining body publisher.now }
  | .joining body _ =>
      if publisher.isGone then some { publisher with closer := .last body } else none
  | .last body =>
      some { publisher with closer := .posting body, log := publisher.log ++ [.started true body] }
  | .posting _ | .done => none

/-- The time of the join is over. -/
def expire (publisher : Publisher) : Option Publisher :=
  match publisher.closer with
  | .joining body since =>
      if since + joinTimeout ≤ publisher.now then some { publisher with closer := .last body }
      else none
  | _ => none

/-- The offline POST comes to its end. -/
def closed (outcome : Outcome) (publisher : Publisher) : Option Publisher :=
  match publisher.closer with
  | .posting body =>
      some { publisher with
        closer := .done
        failures := if outcome = .osError then publisher.failures + 1 else publisher.failures
        log := publisher.log ++ [.finished true body] }
  | _ => none

inductive Act where
  | update (curplayers : Nat)
  | work
  | finish (outcome : Outcome)
  | wake
  | shutdown
  | expire
  | closed (outcome : Outcome)
  | pass (time : Time)

/-- `update` and `shutdown` are called by the main thread, one after the other. -/
def next (publisher : Publisher) : Act → Option Publisher
  | .update curplayers =>
      match publisher.closer with
      | .serving => some (publisher.update curplayers)
      | _ => none
  | .work => publisher.work
  | .finish outcome => publisher.finish outcome
  | .wake => publisher.wake
  | .shutdown => publisher.shutdown
  | .expire => publisher.expire
  | .closed outcome => publisher.closed outcome
  | .pass time => some { publisher with now := publisher.now + time }

def Step (before : Publisher) (act : Act) (after : Publisher) : Prop :=
  before.next act = some after

end Publisher

/-! ### The publisher as a box -/

def Worker.hand : Worker → Option Body
  | ready body => some body
  | posting body => some body
  | _ => none

def Worker.sends : Worker → Bool
  | posting _ => true
  | _ => false

def Closer.retired : Closer → Bool
  | serving => false
  | _ => true

def Closer.joined : Closer → Bool
  | last _ => true
  | posting _ => true
  | done => true
  | _ => false

def Closer.body : Closer → Option Body
  | marked body => some body
  | stopped body => some body
  | joining body _ => some body
  | last body => some body
  | posting body => some body
  | _ => none

namespace Publisher

variable {publisher after : Publisher} {act : Act} {listing : Listing} {now : Time}

def outbox (publisher : Publisher) : Outbox Body where
  current := some publisher.payload.body
  dirty := publisher.dirty
  retired := publisher.closer.retired
  joined := publisher.closer.joined
  hand := publisher.worker.hand
  sending := publisher.worker.sends
  taken := publisher.rendered.map some
  log := publisher.log

/-- The time of the join is over only when the worker is not about to post an
online body, nor posting one. -/
def Waits (publisher : Publisher) : Act → Prop
  | .expire => ∀ body ∈ publisher.worker.hand, ¬ body.Online
  | _ => True

instance (publisher : Publisher) (act : Act) : Decidable (Waits publisher act) :=
  match act with
  | .expire => inferInstanceAs (Decidable (∀ body ∈ publisher.worker.hand, ¬ body.Online))
  | .update _ | .work | .finish _ | .wake | .shutdown | .closed _ | .pass _ => isTrue trivial

/-- `shutdown` has not been called. -/
def Serves (_ : Publisher) : Act → Prop
  | .shutdown => False
  | _ => True

instance (publisher : Publisher) (act : Act) : Decidable (Serves publisher act) :=
  match act with
  | .shutdown => isFalse id
  | .update _ | .work | .finish _ | .wake | .expire | .closed _ | .pass _ => isTrue trivial

/-- What a step is in the box: nothing, or one act, which retires it only if
`shutdown` is called and is patient if the join is. -/
def Shows (publisher : Publisher) (act : Act) (after : Publisher) : Prop :=
  after.outbox = publisher.outbox ∨
    ∃ shown, publisher.outbox.Step shown after.outbox ∧
      (Serves publisher act → Outbox.Open shown) ∧
      (Waits publisher act → Outbox.Patient Body.Online publisher.outbox shown)

theorem notify_outbox : publisher.notify.outbox = publisher.outbox := by
  unfold notify outbox
  split
  · rename_i waits
    rw [waits]
    rfl
  · rfl

theorem take_shows (empty : publisher.worker.hand = none)
    (rests : publisher.worker.sends = false) :
    publisher.outbox.Step .take publisher.take.outbox := by
  have held : publisher.outbox.hand = none := empty
  have taken : publisher.take.outbox = { publisher.outbox with
      hand := publisher.outbox.current
      dirty := false
      taken := publisher.outbox.taken ++ [publisher.outbox.current] } := by
    refine Outbox.ext rfl rfl rfl rfl rfl rests.symm ?_ rfl
    exact List.map_append
  rw [taken]
  exact Outbox.step_take held

/-- An act that neither retires the box nor joins it. -/
theorem Shows.of {shown : Outbox.Act Body} (step : publisher.outbox.Step shown after.outbox)
    (isOpen : Outbox.Open shown) (patient : Outbox.Patient Body.Online publisher.outbox shown) :
    Shows publisher act after :=
  Or.inr ⟨shown, step, fun _ => isOpen, fun _ => patient⟩

theorem work_shows (step : publisher.work = some after) : Shows publisher .work after := by
  obtain ⟨payload, dirty, stop, failures, worker, closer, now, updates, rendered, log⟩ := publisher
  cases worker with
  | check =>
      obtain rfl := Option.some.inj step
      refine Or.inl ?_
      cases stop with
      | true => rfl
      | false => rfl
  | enter =>
      cases dirty with
      | true =>
          obtain rfl := Option.some.inj step
          exact Shows.of (take_shows rfl rfl) trivial trivial
      | false =>
          obtain rfl := Option.some.inj step
          exact Or.inl rfl
  | woken =>
      obtain rfl := Option.some.inj step
      exact Shows.of (take_shows rfl rfl) trivial trivial
  | ready body =>
      obtain rfl := Option.some.inj step
      exact @Shows.of _ _ _ .start rfl trivial trivial
  | pausing =>
      obtain rfl := Option.some.inj step
      exact Or.inl rfl
  | waiting => cases step
  | posting body => cases step
  | gone => cases step

theorem update_shows {curplayers : Nat} (serves : publisher.closer.retired = false) :
    Shows publisher (.update curplayers) (publisher.update curplayers) := by
  have isOpen : publisher.outbox.retired = false := serves
  have put : (publisher.update curplayers).outbox = { publisher.outbox with
      current := some { publisher.payload with curplayers := curplayers }.body, dirty := true } := by
    unfold update
    rw [notify_outbox]
    rfl
  refine @Shows.of _ _ _ (.put (some { publisher.payload with curplayers := curplayers }.body)) ?_
    trivial trivial
  rw [put]
  exact Outbox.step_put isOpen

/-- The bodies in the closer's hands say offline. -/
def Offline (publisher : Publisher) : Prop := ∀ body ∈ publisher.closer.body, ¬ body.Online

theorem shutdown_shows (offline : Offline publisher) (step : publisher.shutdown = some after) :
    Shows publisher .shutdown after ∧ Offline after := by
  obtain ⟨payload, dirty, stop, failures, worker, closer, now, updates, rendered, log⟩ := publisher
  cases closer with
  | serving =>
      obtain rfl := Option.some.inj step
      have marked : ∀ body ∈ some { payload with status := Status.offline }.body,
          ¬ body.Online := by
        intro body isBody
        obtain rfl := Option.some.inj isBody
        exact Status.noConfusion
      exact ⟨Or.inr ⟨.retire _, rfl, fun serves => serves.elim, fun _ => marked⟩, marked⟩
  | marked body =>
      obtain rfl := Option.some.inj step
      exact ⟨Or.inl rfl, offline⟩
  | stopped body =>
      obtain rfl := Option.some.inj step
      refine ⟨Or.inl ?_, offline⟩
      cases worker <;> rfl
  | joining body since =>
      unfold shutdown at step
      simp only at step
      split at step
      · rename_i isGone
        obtain rfl := Option.some.inj step
        cases worker with
        | gone =>
            refine ⟨@Shows.of _ _ _ .join rfl trivial ?_, offline⟩
            exact fun _ absurd => by cases absurd
        | _ => cases isGone
      · cases step
  | last body =>
      obtain rfl := Option.some.inj step
      exact ⟨@Shows.of _ _ _ (.close body) rfl trivial (offline body rfl), offline⟩
  | posting body => cases step
  | done => cases step

theorem next_shows (offline : Offline publisher) (step : Step publisher act after) :
    Shows publisher act after ∧ Offline after := by
  cases act with
  | update curplayers =>
      cases isCloser : publisher.closer with
      | serving =>
          simp only [Step, next, isCloser, Option.some.injEq] at step
          obtain rfl := step
          have serves : publisher.closer.retired = false := by
            rw [isCloser]
            rfl
          refine ⟨update_shows serves, ?_⟩
          have same : (publisher.update curplayers).closer = publisher.closer := by
            unfold update notify
            split
            · rfl
            · rfl
          unfold Offline
          rw [same]
          exact offline
      | _ => simp [Step, next, isCloser] at step
  | work =>
      have worked : publisher.work = some after := step
      refine ⟨work_shows worked, ?_⟩
      have same : after.closer = publisher.closer := by
        unfold work at worked
        split at worked
        any_goals cases worked
        all_goals first | rfl | skip
        split at worked
        · obtain rfl := Option.some.inj worked
          rfl
        · obtain rfl := Option.some.inj worked
          rfl
      unfold Offline
      rw [same]
      exact offline
  | finish outcome =>
      cases isWorker : publisher.worker with
      | posting body =>
          simp only [Step, next, finish, isWorker, Option.some.injEq] at step
          obtain rfl := step
          refine ⟨@Shows.of _ _ _ .finish ?_ trivial trivial, offline⟩
          unfold Outbox.Step Outbox.next outbox
          rw [isWorker]
          cases outcome with
          | answered => rfl
          | osError => rfl
          | other => rfl
      | _ => simp [Step, next, finish, isWorker] at step
  | wake =>
      cases isWorker : publisher.worker with
      | waiting =>
          simp only [Step, next, wake, isWorker, Option.some.injEq] at step
          obtain rfl := step
          refine ⟨Or.inl ?_, offline⟩
          unfold outbox
          rw [isWorker]
          rfl
      | _ => simp [Step, next, wake, isWorker] at step
  | shutdown => exact shutdown_shows offline step
  | expire =>
      cases isCloser : publisher.closer with
      | joining body since =>
          simp only [Step, next, expire, isCloser, Option.ite_none_right_eq_some,
            Option.some.injEq] at step
          obtain ⟨-, rfl⟩ := step
          have held : ∀ body' ∈ (Closer.last body).body, ¬ body'.Online := by
            have said := offline
            unfold Offline at said
            rw [isCloser] at said
            exact said
          refine ⟨Or.inr ⟨.join, ?_, fun _ => trivial, fun waits => waits⟩, held⟩
          unfold Outbox.Step Outbox.next outbox
          rw [isCloser]
          rfl
      | _ => simp [Step, next, expire, isCloser] at step
  | closed outcome =>
      cases isCloser : publisher.closer with
      | posting body =>
          simp only [Step, next, closed, isCloser, Option.some.injEq] at step
          obtain rfl := step
          have said := offline
          unfold Offline at said
          rw [isCloser] at said
          refine ⟨@Shows.of _ _ _ (.closed body) ?_ trivial (said body rfl),
            fun _ absurd => by cases absurd⟩
          unfold Outbox.Step Outbox.next outbox
          rw [isCloser]
          rfl
      | _ => simp [Step, next, closed, isCloser] at step
  | pass time =>
      obtain rfl := Option.some.inj step
      exact ⟨Or.inl rfl, offline⟩

/-! ### Runs -/

/-- A run of the publisher is a run of the box; before `shutdown` it stays open,
and it is patient if the joins are. -/
theorem run_outbox {meets : Publisher → Act → Prop} {meets' : Outbox Body → Outbox.Act Body → Prop}
    (run : Run Step meets (start listing now) publisher)
    (weaken : ∀ {publisher act shown}, meets publisher act →
      (Serves publisher act → Outbox.Open shown) →
      (Waits publisher act → Outbox.Patient Body.Online publisher.outbox shown) →
        meets' publisher.outbox shown) :
    Run Outbox.Step meets' (start listing now).outbox publisher.outbox := by
  have shown : Run Outbox.Step meets' (start listing now).outbox publisher.outbox ∧
      Offline publisher := by
    refine run.invariant (fun publisher =>
      Run Outbox.Step meets' (start listing now).outbox publisher.outbox ∧ Offline publisher)
      ⟨.refl _, fun _ absurd => by cases absurd⟩ ?_
    rintro before act after ⟨before_, offline⟩ met step
    obtain ⟨same | ⟨shown, moves, isOpen, patient⟩, offline'⟩ := next_shows offline step
    · rw [same]
      exact ⟨before_, offline'⟩
    · exact ⟨.tail shown before_ (weaken met isOpen patient) moves, offline'⟩
  exact shown.1

/-- The number of players is the argument of the last `update`, zero before the
first. -/
def Counts (publisher : Publisher) : Prop :=
  publisher.payload.curplayers = publisher.updates.getLast?.getD 0

theorem counts_run {meets : Publisher → Act → Prop}
    (run : Run Step meets (start listing now) publisher) : Counts publisher := by
  refine run.invariant Counts rfl ?_
  intro before act after counts _ step
  unfold Counts at counts ⊢
  have notified : ∀ publisher : Publisher, publisher.notify.payload = publisher.payload ∧
      publisher.notify.updates = publisher.updates := by
    intro publisher
    unfold notify
    split
    · exact ⟨rfl, rfl⟩
    · exact ⟨rfl, rfl⟩
  cases act with
  | update curplayers =>
      simp only [Step, next] at step
      split at step
      · obtain rfl := Option.some.inj step
        unfold update
        rw [(notified _).1, (notified _).2, List.getLast?_concat]
        rfl
      · cases step
  | work =>
      simp only [Step, next, work] at step
      split at step
      any_goals cases step
      any_goals exact counts
      split at step
      · obtain rfl := Option.some.inj step
        exact counts
      · obtain rfl := Option.some.inj step
        exact counts
  | finish outcome =>
      simp only [Step, next, finish] at step
      split at step
      · obtain rfl := Option.some.inj step
        exact counts
      · cases step
  | wake =>
      simp only [Step, next, wake] at step
      split at step
      · obtain rfl := Option.some.inj step
        exact counts
      · cases step
  | shutdown =>
      simp only [Step, next, shutdown] at step
      split at step
      any_goals cases step
      any_goals exact counts
      · rw [(notified before).1, (notified before).2]
        exact counts
      · split at step
        · obtain rfl := Option.some.inj step
          exact counts
        · cases step
  | expire =>
      simp only [Step, next, expire] at step
      split at step
      · split at step
        · obtain rfl := Option.some.inj step
          exact counts
        · cases step
      · cases step
  | closed outcome =>
      simp only [Step, next, closed] at step
      split at step
      · obtain rfl := Option.some.inj step
        exact counts
      · cases step
  | pass time =>
      obtain rfl := Option.some.inj step
      exact counts

end Publisher

end DragsterNet.Relay
