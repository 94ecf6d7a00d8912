/-
Module: DragsterNet.CRelay.Publisher
Purpose: The publisher of the relay in C: a worker thread that renders the room
  into a buffer and posts it, and the shutdown that posts it offline.
Trusted boundary: the Lobby, which a POST reaches at any speed
Main exports: Snapshot.renderJson, Publisher, Publisher.next, Publisher.outbox,
  Publisher.run_outbox
-/
import DragsterNet.Lib.Outbox
import DragsterNet.Relay.Wire

namespace DragsterNet.CRelay

open Lib Relay

/-! ### The body -/

def strMax : Nat := 256
def regionMax : Nat := 64
def jsonMax : Nat := 4096

/-- `copy_ascii`: the string fits, and has ASCII bytes only. -/
def copies (size : Nat) (text : Bytes) : Bool :=
  text.length < size && text.all fun byte => byte != 0 && byte ≤ 0x7F

/-- The options the room is published with, as `lobby_start` accepts them. -/
structure Config where
  game : Bytes
  appkey : Int
  server : Bytes
  region : Bytes
  serverurl : Bytes
  clientUrl : Bytes
  accepted : copies strMax game && copies strMax server && copies regionMax region &&
    copies strMax serverurl && copies strMax clientUrl

def maxplayers : Nat := 2

/-- What `render_json` reads. -/
structure Snapshot where
  config : Config
  offline : Bool
  curplayers : Nat

def escapeByte (byte : Byte) : Bytes :=
  if byte = 0x22 then ascii "\\\""
  else if byte = 0x5C then ascii "\\\\"
  else if byte = 0x08 then ascii "\\b"
  else if byte = 0x0C then ascii "\\f"
  else if byte = 0x0A then ascii "\\n"
  else if byte = 0x0D then ascii "\\r"
  else if byte = 0x09 then ascii "\\t"
  else if byte < 0x20 then ascii "\\u00" ++ hexLower byte
  else [byte]

/-- `json_esc`, which fails where the text and its terminator do not fit. -/
def jsonEsc (size : Nat) : Bytes → Bytes → Option Bytes
  | written, [] => if size ≤ written.length then none else some written
  | written, byte :: rest =>
      if size ≤ written.length + (escapeByte byte).length then none
      else jsonEsc size (written ++ escapeByte byte) rest

/-- The format of `render_json`. -/
def Snapshot.format (snapshot : Snapshot) (game server region serverurl clientUrl : Bytes) :
    Bytes :=
  ascii "\x7b\"game\": \"" ++ game ++
    ascii "\", \"appkey\": " ++ integer snapshot.config.appkey ++
    ascii ", \"server\": \"" ++ server ++
    ascii "\", \"region\": \"" ++ region ++
    ascii "\", \"serverurl\": \"" ++ serverurl ++
    ascii "\", \"status\": \"" ++ (if snapshot.offline then ascii "offline" else ascii "online") ++
    ascii "\", \"maxplayers\": " ++ decimal maxplayers ++
    ascii ", \"curplayers\": " ++ decimal snapshot.curplayers ++
    ascii ", \"clients\": [\x7b\"platform\": \"a2600\", \"url\": \"" ++ clientUrl ++
    ascii "\"\x7d]\x7d"

/-- The escaped strings in the format, if the result fits the buffer. -/
def Snapshot.renderJson (snapshot : Snapshot) : Option Bytes := do
  let game ← jsonEsc (strMax * 6) [] snapshot.config.game
  let server ← jsonEsc (strMax * 6) [] snapshot.config.server
  let region ← jsonEsc (regionMax * 6) [] snapshot.config.region
  let serverurl ← jsonEsc (strMax * 6) [] snapshot.config.serverurl
  let clientUrl ← jsonEsc (strMax * 6) [] snapshot.config.clientUrl
  let text := snapshot.format game server region serverurl clientUrl
  if jsonMax ≤ text.length then none else some text

/-- The body of a POST, with what it was rendered from. -/
structure Body where
  snapshot : Snapshot
  text : Bytes
  renders : snapshot.renderJson = some text

def Snapshot.body (snapshot : Snapshot) : Option Body :=
  match isText : snapshot.renderJson with
  | some text => some ⟨snapshot, text, isText⟩
  | none => none

/-- A body that carries status online. -/
def Body.Online (body : Body) : Prop := body.snapshot.offline = false

instance (body : Body) : Decidable body.Online := inferInstanceAs (Decidable (_ = _))

theorem Snapshot.body_snapshot {snapshot : Snapshot} {body : Body}
    (isBody : body ∈ snapshot.body) : body.snapshot = snapshot := by
  have found : snapshot.body = some body := isBody
  unfold Snapshot.body at found
  split at found
  · obtain rfl := Option.some.inj found
    rfl
  · cases found

/-- The text, with its strings escaped. -/
def Snapshot.text (snapshot : Snapshot) : Bytes :=
  snapshot.format (snapshot.config.game.flatMap escapeByte)
    (snapshot.config.server.flatMap escapeByte) (snapshot.config.region.flatMap escapeByte)
    (snapshot.config.serverurl.flatMap escapeByte) (snapshot.config.clientUrl.flatMap escapeByte)

theorem escapeByte_length (byte : Byte) : (escapeByte byte).length ≤ 6 := by
  unfold escapeByte
  repeat' split
  all_goals simp [ascii, hexLower, hex]

theorem flatMap_escapeByte_length (src : Bytes) :
    (src.flatMap escapeByte).length ≤ 6 * src.length := by
  induction src with
  | nil => exact Nat.zero_le _
  | cons byte rest inductionHypothesis =>
      have one := escapeByte_length byte
      rw [List.flatMap_cons, List.length_append, List.length_cons]
      omega

/-- What fits is escaped. -/
theorem jsonEsc_eq {size : Nat} {written src : Bytes}
    (fits : written.length + (src.flatMap escapeByte).length < size) :
    jsonEsc size written src = some (written ++ src.flatMap escapeByte) := by
  induction src generalizing written with
  | nil =>
      rw [List.flatMap_nil, List.append_nil]
      exact if_neg (Nat.not_le.mpr fits)
  | cons byte rest inductionHypothesis =>
      rw [List.flatMap_cons, List.length_append] at fits
      have here : written.length + (escapeByte byte).length < size := by omega
      unfold jsonEsc
      rw [if_neg (Nat.not_le.mpr here), inductionHypothesis, List.flatMap_cons, List.append_assoc]
      rw [List.length_append]
      omega

/-- The options always fit their own buffers. -/
theorem copies_jsonEsc {size : Nat} {src : Bytes} (accepted : copies size src) :
    jsonEsc (size * 6) [] src = some (src.flatMap escapeByte) := by
  have short : src.length < size := by
    unfold copies at accepted
    exact of_decide_eq_true (Bool.and_eq_true_iff.mp accepted).1
  have six := flatMap_escapeByte_length src
  apply jsonEsc_eq
  rw [List.length_nil]
  omega

/-- Each of them is escaped whole. -/
theorem Config.escapes (config : Config) :
    jsonEsc (strMax * 6) [] config.game = some (config.game.flatMap escapeByte) ∧
      jsonEsc (strMax * 6) [] config.server = some (config.server.flatMap escapeByte) ∧
      jsonEsc (regionMax * 6) [] config.region = some (config.region.flatMap escapeByte) ∧
      jsonEsc (strMax * 6) [] config.serverurl = some (config.serverurl.flatMap escapeByte) ∧
      jsonEsc (strMax * 6) [] config.clientUrl = some (config.clientUrl.flatMap escapeByte) := by
  have accepted := config.accepted
  simp only [Bool.and_eq_true] at accepted
  obtain ⟨⟨⟨⟨game, server⟩, region⟩, serverurl⟩, clientUrl⟩ := accepted
  exact ⟨copies_jsonEsc game, copies_jsonEsc server, copies_jsonEsc region,
    copies_jsonEsc serverurl, copies_jsonEsc clientUrl⟩

/-- The text is rendered unless it is too long for the buffer. -/
theorem Snapshot.renderJson_eq (snapshot : Snapshot) :
    snapshot.renderJson = if jsonMax ≤ snapshot.text.length then none else some snapshot.text := by
  obtain ⟨game, server, region, serverurl, clientUrl⟩ := snapshot.config.escapes
  unfold renderJson text
  simp only [game, server, region, serverurl, clientUrl, Option.bind_eq_bind, Option.bind_some]

/-! ### The threads -/

/-- Where the worker is in `lobby_worker`. -/
inductive Worker where
  /-- It is about to take the lock. -/
  | top
  /-- It is blocked in the wait for the keepalive. -/
  | waiting
  /-- The wait is about to take the lock anew. -/
  | woken (timedOut : Bool)
  | ready (body : Body)
  | posting (body : Body)
  /-- The failure is about to be counted. -/
  | failed
  | debounce
  /-- It is blocked in the debounce wait. -/
  | pausing
  | gone

def Worker.waits : Worker → Bool
  | .waiting => true
  | _ => false

theorem Worker.eq_waiting {worker : Worker} (waits : worker.waits = true) : worker = .waiting := by
  cases worker with
  | waiting => rfl
  | _ => cases waits

/-- Where the main thread is in `lobby_shutdown`; there is no body if it did not
fit the buffer. -/
inductive Closer where
  | serving
  | marked (body : Option Body)
  | joining (body : Option Body) (since : Time)
  | last (body : Option Body)
  | posting (body : Body)
  | done

/-- `updates`, `rendered` and `log` are histories: the arguments of
`lobby_update`, what came of each `render_json` of the worker, and the POSTs of
both threads. -/
structure Publisher where
  snapshot : Snapshot
  dirty : Bool
  stopping : Bool
  stopEvt : Bool
  failures : Nat
  worker : Worker
  closer : Closer
  now : Time
  updates : List Nat
  rendered : List (Option Body)
  log : List (Delivery Body)

def joinTimeout : Time := 12 * second

namespace Publisher

def start (config : Config) (now : Time) : Publisher where
  snapshot := ⟨config, false, 0⟩
  dirty := true
  stopping := false
  stopEvt := false
  failures := 0
  worker := .top
  closer := .serving
  now := now
  updates := []
  rendered := []
  log := []

/-- `pthread_cond_broadcast`, at either of the two waits. -/
def broadcast (publisher : Publisher) : Publisher :=
  match publisher.worker with
  | .waiting => { publisher with worker := .woken false }
  | .pausing => { publisher with worker := .top }
  | _ => publisher

def update (publisher : Publisher) (curplayers : Nat) : Publisher :=
  if publisher.stopping then publisher
  else
    broadcast { publisher with
      snapshot := { publisher.snapshot with curplayers := curplayers }
      dirty := true
      updates := publisher.updates ++ [curplayers] }

/-- The end of the wait, which sets `dirty` if its time is over. -/
def woke (timedOut : Bool) (publisher : Publisher) : Publisher :=
  { publisher with dirty := publisher.dirty || timedOut }

/-- The test of the wait loop and, if it does not wait, what follows up to the
unlock. -/
def turn (publisher : Publisher) : Publisher :=
  if publisher.dirty = false ∧ publisher.stopping = false then
    { publisher with worker := .waiting }
  else if publisher.stopping then { publisher with dirty := false, worker := .gone }
  else
    { publisher with
      dirty := false
      worker :=
        match publisher.snapshot.body with
        | some body => .ready body
        | none => .debounce
      rendered := publisher.rendered ++ [publisher.snapshot.body] }

/-- What the worker does by itself.  A pause may end at any time. -/
def work (publisher : Publisher) : Option Publisher :=
  match publisher.worker with
  | .top => some publisher.turn
  | .woken timedOut => some (publisher.woke timedOut).turn
  | .ready body =>
      some { publisher with worker := .posting body, log := publisher.log ++ [.started false body] }
  | .failed => some { publisher with failures := publisher.failures + 1, worker := .debounce }
  | .debounce => some { publisher with worker := if publisher.stopEvt then .top else .pausing }
  | .pausing => some { publisher with worker := .top }
  | .waiting | .posting _ | .gone => none

/-- A POST comes to its end. -/
def finish (posted : Bool) (publisher : Publisher) : Option Publisher :=
  match publisher.worker with
  | .posting body =>
      some { publisher with
        worker := if posted then .debounce else .failed
        log := publisher.log ++ [.finished false body] }
  | _ => none

/-- The wait returns without a notice: its time is over, or for no reason. -/
def wake (timedOut : Bool) (publisher : Publisher) : Option Publisher :=
  match publisher.worker with
  | .waiting => some { publisher with worker := .woken timedOut }
  | _ => none

def isGone (publisher : Publisher) : Bool :=
  match publisher.worker with
  | .gone => true
  | _ => false

/-- The steps of `lobby_shutdown`; the join ends here if the worker has. -/
def shutdown (publisher : Publisher) : Option Publisher :=
  match publisher.closer with
  | .serving =>
      let snapshot := { publisher.snapshot with offline := true }
      some (broadcast { publisher with
        snapshot := snapshot
        stopping := true
        stopEvt := true
        closer := .marked snapshot.body })
  | .marked body => some { publisher with closer := .joining body publisher.now }
  | .joining body _ =>
      if publisher.isGone then some { publisher with closer := .last body } else none
  | .last (some body) =>
      some { publisher with closer := .posting body, log := publisher.log ++ [.started true body] }
  | .last none => some { publisher with closer := .done }
  | .posting _ | .done => none

/-- The time of the join is over. -/
def expire (publisher : Publisher) : Option Publisher :=
  match publisher.closer with
  | .joining body since =>
      if since + joinTimeout ≤ publisher.now then some { publisher with closer := .last body }
      else none
  | _ => none

/-- The offline POST comes to its end. -/
def closed (posted : Bool) (publisher : Publisher) : Option Publisher :=
  match publisher.closer with
  | .posting body =>
      some { publisher with
        closer := .done
        failures := if posted then publisher.failures else publisher.failures + 1
        log := publisher.log ++ [.finished true body] }
  | _ => none

inductive Act where
  | update (curplayers : Nat)
  | work
  | finish (posted : Bool)
  | wake (timedOut : Bool)
  | shutdown
  | expire
  | closed (posted : Bool)
  | pass (time : Time)

/-- `lobby_update` and `lobby_shutdown` are called by the main thread, one after
the other. -/
def next (publisher : Publisher) : Act → Option Publisher
  | .update curplayers =>
      match publisher.closer with
      | .serving => some (publisher.update curplayers)
      | _ => none
  | .work => publisher.work
  | .finish posted => publisher.finish posted
  | .wake timedOut => publisher.wake timedOut
  | .shutdown => publisher.shutdown
  | .expire => publisher.expire
  | .closed posted => publisher.closed posted
  | .pass time => some { publisher with now := publisher.now + time }

def Step (before : Publisher) (act : Act) (after : Publisher) : Prop :=
  before.next act = some after

end Publisher

/-! ### The publisher as a box -/

def Worker.hand : Worker → Option Body
  | ready body => some body
  | posting body => some body
  | _ => none

def Worker.sends : Worker → Bool
  | posting _ => true
  | _ => false

def Closer.retired : Closer → Bool
  | serving => false
  | _ => true

def Closer.joined : Closer → Bool
  | last _ => true
  | posting _ => true
  | done => true
  | _ => false

def Closer.body : Closer → Option Body
  | marked body => body
  | joining body _ => body
  | last body => body
  | posting body => some body
  | _ => none

namespace Publisher

variable {publisher after : Publisher} {act : Act} {config : Config} {now : Time}

def outbox (publisher : Publisher) : Outbox Body where
  current := publisher.snapshot.body
  dirty := publisher.dirty
  retired := publisher.closer.retired
  joined := publisher.closer.joined
  hand := publisher.worker.hand
  sending := publisher.worker.sends
  taken := publisher.rendered
  log := publisher.log

/-- The time of the join is over only when the worker is not about to post an
online body, nor posting one. -/
def Waits (publisher : Publisher) : Act → Prop
  | .expire => ∀ body ∈ publisher.worker.hand, ¬ body.Online
  | _ => True

instance (publisher : Publisher) (act : Act) : Decidable (Waits publisher act) :=
  match act with
  | .expire => inferInstanceAs (Decidable (∀ body ∈ publisher.worker.hand, ¬ body.Online))
  | .update _ | .work | .finish _ | .wake _ | .shutdown | .closed _ | .pass _ => isTrue trivial

/-- `lobby_shutdown` has not been called. -/
def Serves (_ : Publisher) : Act → Prop
  | .shutdown => False
  | _ => True

instance (publisher : Publisher) (act : Act) : Decidable (Serves publisher act) :=
  match act with
  | .shutdown => isFalse id
  | .update _ | .work | .finish _ | .wake _ | .expire | .closed _ | .pass _ => isTrue trivial

/-- What a step is in the box: nothing, or one act, which retires it only if
`lobby_shutdown` is called and is patient if the join is. -/
def Shows (publisher : Publisher) (act : Act) (after : Publisher) : Prop :=
  after.outbox = publisher.outbox ∨
    ∃ shown, publisher.outbox.Step shown after.outbox ∧
      (Serves publisher act → Outbox.Open shown) ∧
      (Waits publisher act → Outbox.Patient Body.Online publisher.outbox shown)

/-- An act that neither retires the box nor joins it. -/
theorem Shows.of {shown : Outbox.Act Body} (step : publisher.outbox.Step shown after.outbox)
    (isOpen : Outbox.Open shown) (patient : Outbox.Patient Body.Online publisher.outbox shown) :
    Shows publisher act after :=
  Or.inr ⟨shown, step, fun _ => isOpen, fun _ => patient⟩

theorem broadcast_outbox : publisher.broadcast.outbox = publisher.outbox := by
  unfold broadcast outbox
  split
  · rename_i waits
    rw [waits]
    rfl
  · rename_i pauses
    rw [pauses]
    rfl
  · rfl

/-- `stopping` is set by `lobby_shutdown`, and the bodies in its hands say
offline. -/
structure Sound (publisher : Publisher) : Prop where
  stopping : publisher.stopping = publisher.closer.retired
  offline : ∀ body ∈ publisher.closer.body, ¬ body.Online

theorem Sound.congr (sound : Sound publisher) (stopping : after.stopping = publisher.stopping)
    (closer : after.closer = publisher.closer) : Sound after := by
  obtain ⟨isStopping, offline⟩ := sound
  refine ⟨?_, ?_⟩
  · rw [stopping, closer]
    exact isStopping
  · rw [closer]
    exact offline

theorem turn_keeps : publisher.turn.stopping = publisher.stopping ∧
    publisher.turn.closer = publisher.closer ∧ publisher.turn.snapshot = publisher.snapshot ∧
    publisher.turn.updates = publisher.updates := by
  unfold turn
  split
  · exact ⟨rfl, rfl, rfl, rfl⟩
  · split
    · exact ⟨rfl, rfl, rfl, rfl⟩
    · exact ⟨rfl, rfl, rfl, rfl⟩

theorem broadcast_keeps : publisher.broadcast.stopping = publisher.stopping ∧
    publisher.broadcast.closer = publisher.closer ∧
    publisher.broadcast.snapshot = publisher.snapshot ∧
    publisher.broadcast.updates = publisher.updates := by
  unfold broadcast
  split
  · exact ⟨rfl, rfl, rfl, rfl⟩
  · exact ⟨rfl, rfl, rfl, rfl⟩
  · exact ⟨rfl, rfl, rfl, rfl⟩

theorem turn_leaves (stops : publisher.stopping = true) (empty : publisher.worker.hand = none)
    (rests : publisher.worker.sends = false) :
    publisher.turn.outbox = { publisher.outbox with dirty := false } := by
  unfold turn
  simp only [stops, Bool.true_eq_false, and_false, if_false, if_true]
  exact Outbox.ext rfl rfl rfl rfl empty.symm rests.symm rfl rfl

theorem turn_waits (serves : publisher.stopping = false) (clean : publisher.dirty = false)
    (empty : publisher.worker.hand = none) (rests : publisher.worker.sends = false) :
    publisher.turn.outbox = publisher.outbox := by
  unfold turn
  rw [if_pos ⟨clean, serves⟩]
  exact Outbox.ext rfl rfl rfl rfl empty.symm rests.symm rfl rfl

theorem turn_takes (serves : publisher.stopping = false) (isDirty : publisher.dirty = true)
    (rests : publisher.worker.sends = false) :
    publisher.turn.outbox = { publisher.outbox with
      hand := publisher.outbox.current
      dirty := false
      taken := publisher.outbox.taken ++ [publisher.outbox.current] } := by
  unfold turn
  simp only [serves, isDirty, Bool.true_eq_false, false_and, if_false, Bool.false_eq_true]
  refine Outbox.ext rfl rfl rfl rfl ?_ ?_ rfl rfl
  · cases isBody : publisher.snapshot.body with
    | some body => exact isBody.symm
    | none => exact isBody.symm
  · refine Eq.trans ?_ rests.symm
    cases publisher.snapshot.body with
    | some body => rfl
    | none => rfl

/-- A turn with empty hands, after a wait or without one. -/
theorem turn_shows {timedOut : Bool} (sound : Sound publisher)
    (empty : publisher.worker.hand = none) (rests : publisher.worker.sends = false) :
    Shows publisher act (publisher.woke timedOut).turn := by
  rcases Bool.eq_false_or_eq_true publisher.stopping with stops | serves
  · have retired : publisher.outbox.retired = true := sound.stopping.symm.trans stops
    refine @Shows.of _ _ _ .leave ?_ trivial trivial
    rw [@turn_leaves (publisher.woke timedOut) stops empty rests]
    unfold Outbox.Step Outbox.next
    exact if_pos retired
  · rcases Bool.eq_false_or_eq_true (publisher.dirty || timedOut) with isDirty | clean
    · refine @Shows.of _ _ _ .take ?_ trivial trivial
      rw [@turn_takes (publisher.woke timedOut) serves isDirty rests]
      exact Outbox.step_take empty
    · refine Or.inl ?_
      rw [@turn_waits (publisher.woke timedOut) serves clean empty rests]
      have wasClean : publisher.dirty = false := (Bool.or_eq_false_iff.mp clean).1
      exact Outbox.ext rfl (clean.trans wasClean.symm) rfl rfl rfl rfl rfl rfl

theorem woke_false : publisher.woke false = publisher := by
  unfold woke
  rw [Bool.or_false]

theorem work_shows (sound : Sound publisher) (step : publisher.work = some after) :
    Shows publisher .work after := by
  cases isWorker : publisher.worker with
  | top =>
      simp only [work, isWorker, Option.some.injEq] at step
      obtain rfl := step
      have turned := @turn_shows publisher .work false sound
      rw [isWorker, woke_false] at turned
      exact turned rfl rfl
  | woken timedOut =>
      simp only [work, isWorker, Option.some.injEq] at step
      obtain rfl := step
      have turned := @turn_shows publisher .work timedOut sound
      rw [isWorker] at turned
      exact turned rfl rfl
  | ready body =>
      simp only [work, isWorker, Option.some.injEq] at step
      obtain rfl := step
      refine @Shows.of _ _ _ .start ?_ trivial trivial
      unfold Outbox.Step Outbox.next outbox
      rw [isWorker]
      rfl
  | failed =>
      simp only [work, isWorker, Option.some.injEq] at step
      obtain rfl := step
      refine Or.inl ?_
      unfold outbox
      rw [isWorker]
      rfl
  | debounce =>
      simp only [work, isWorker, Option.some.injEq] at step
      obtain rfl := step
      refine Or.inl ?_
      unfold outbox
      rw [isWorker]
      cases publisher.stopEvt with
      | true => rfl
      | false => rfl
  | pausing =>
      simp only [work, isWorker, Option.some.injEq] at step
      obtain rfl := step
      refine Or.inl ?_
      unfold outbox
      rw [isWorker]
      rfl
  | waiting | posting body | gone => simp [work, isWorker] at step

theorem update_shows {curplayers : Nat} (sound : Sound publisher)
    (serves : publisher.closer.retired = false) :
    Shows publisher (.update curplayers) (publisher.update curplayers) := by
  have isOpen : publisher.outbox.retired = false := serves
  have going : publisher.stopping = false := sound.stopping.trans serves
  have put : (publisher.update curplayers).outbox = { publisher.outbox with
      current := { publisher.snapshot with curplayers := curplayers }.body, dirty := true } := by
    unfold update
    rw [if_neg (Bool.eq_false_iff.mp going), broadcast_outbox]
    rfl
  refine @Shows.of _ _ _ (.put { publisher.snapshot with curplayers := curplayers }.body) ?_
    trivial trivial
  rw [put]
  exact Outbox.step_put isOpen

theorem shutdown_shows (sound : Sound publisher) (step : publisher.shutdown = some after) :
    Shows publisher .shutdown after ∧ Sound after := by
  obtain ⟨stopping, offline⟩ := sound
  cases isCloser : publisher.closer with
  | serving =>
      simp only [shutdown, isCloser, Option.some.injEq] at step
      obtain rfl := step
      have marked : ∀ body ∈ (Snapshot.mk publisher.snapshot.config true
          publisher.snapshot.curplayers).body, ¬ body.Online := by
        intro body isBody isOnline
        unfold Body.Online at isOnline
        rw [Snapshot.body_snapshot isBody] at isOnline
        cases isOnline
      refine ⟨Or.inr ⟨.retire (Snapshot.mk publisher.snapshot.config true
        publisher.snapshot.curplayers).body, ?_, fun serves => serves.elim, fun _ => marked⟩, ?_⟩
      · rw [broadcast_outbox]
        unfold Outbox.Step Outbox.next outbox
        rw [isCloser]
        rfl
      · refine ⟨?_, ?_⟩
        · rw [broadcast_keeps.1, broadcast_keeps.2.1]
          rfl
        · rw [broadcast_keeps.2.1]
          exact marked
  | marked body =>
      simp only [shutdown, isCloser, Option.some.injEq] at step
      obtain rfl := step
      rw [isCloser] at stopping offline
      refine ⟨Or.inl ?_, stopping, offline⟩
      unfold outbox
      rw [isCloser]
      rfl
  | joining body since =>
      simp only [shutdown, isCloser, Option.ite_none_right_eq_some, Option.some.injEq] at step
      obtain ⟨isGone, rfl⟩ := step
      have left : publisher.worker.hand = none := by
        cases isWorker : publisher.worker with
        | gone => rfl
        | _ => simp [Publisher.isGone, isWorker] at isGone
      rw [isCloser] at stopping offline
      refine ⟨@Shows.of _ _ _ .join ?_ trivial ?_, stopping, offline⟩
      · unfold Outbox.Step Outbox.next outbox
        rw [isCloser]
        rfl
      · intro body held
        have absurd : body ∈ publisher.worker.hand := held
        rw [left] at absurd
        cases absurd
  | last body =>
      cases body with
      | some body =>
          simp only [shutdown, isCloser, Option.some.injEq] at step
          obtain rfl := step
          rw [isCloser] at stopping offline
          refine ⟨@Shows.of _ _ _ (.close body) ?_ trivial (offline body rfl), stopping, offline⟩
          unfold Outbox.Step Outbox.next outbox
          rw [isCloser]
          rfl
      | none =>
          simp only [shutdown, isCloser, Option.some.injEq] at step
          obtain rfl := step
          rw [isCloser] at stopping
          refine ⟨Or.inl ?_, stopping, fun _ absurd => by cases absurd⟩
          unfold outbox
          rw [isCloser]
          rfl
  | posting body => simp [shutdown, isCloser] at step
  | done => simp [shutdown, isCloser] at step

theorem work_keeps (step : publisher.work = some after) :
    after.stopping = publisher.stopping ∧ after.closer = publisher.closer ∧
      after.snapshot = publisher.snapshot ∧ after.updates = publisher.updates := by
  cases isWorker : publisher.worker with
  | top =>
      simp only [work, isWorker, Option.some.injEq] at step
      obtain rfl := step
      exact turn_keeps
  | woken timedOut =>
      simp only [work, isWorker, Option.some.injEq] at step
      obtain rfl := step
      exact @turn_keeps (publisher.woke timedOut)
  | ready _ | failed | debounce | pausing =>
      simp only [work, isWorker, Option.some.injEq] at step
      obtain rfl := step
      exact ⟨rfl, rfl, rfl, rfl⟩
  | waiting | posting _ | gone => simp [work, isWorker] at step

theorem next_shows (sound : Sound publisher) (step : Step publisher act after) :
    Shows publisher act after ∧ Sound after := by
  cases act with
  | update curplayers =>
      cases isCloser : publisher.closer with
      | serving =>
          simp only [Step, next, isCloser, Option.some.injEq] at step
          obtain rfl := step
          have serves : publisher.closer.retired = false := by
            rw [isCloser]
            rfl
          refine ⟨update_shows sound serves, ?_⟩
          have going : publisher.stopping = false := sound.stopping.trans serves
          unfold update
          rw [if_neg (Bool.eq_false_iff.mp going)]
          exact sound.congr broadcast_keeps.1 broadcast_keeps.2.1
      | _ => simp [Step, next, isCloser] at step
  | work =>
      have worked : publisher.work = some after := step
      exact ⟨work_shows sound worked, sound.congr (work_keeps worked).1 (work_keeps worked).2.1⟩
  | finish posted =>
      cases isWorker : publisher.worker with
      | posting body =>
          simp only [Step, next, finish, isWorker, Option.some.injEq] at step
          obtain rfl := step
          refine ⟨@Shows.of _ _ _ .finish ?_ trivial trivial, sound.congr rfl rfl⟩
          unfold Outbox.Step Outbox.next outbox
          rw [isWorker]
          cases posted with
          | true => rfl
          | false => rfl
      | _ => simp [Step, next, finish, isWorker] at step
  | wake timedOut =>
      cases isWorker : publisher.worker with
      | waiting =>
          simp only [Step, next, wake, isWorker, Option.some.injEq] at step
          obtain rfl := step
          refine ⟨Or.inl ?_, sound.congr rfl rfl⟩
          unfold outbox
          rw [isWorker]
          rfl
      | _ => simp [Step, next, wake, isWorker] at step
  | shutdown => exact shutdown_shows sound step
  | expire =>
      cases isCloser : publisher.closer with
      | joining body since =>
          simp only [Step, next, expire, isCloser, Option.ite_none_right_eq_some,
            Option.some.injEq] at step
          obtain ⟨-, rfl⟩ := step
          obtain ⟨stopping, offline⟩ := sound
          rw [isCloser] at stopping offline
          refine ⟨Or.inr ⟨.join, ?_, fun _ => trivial, fun waits => waits⟩, stopping, offline⟩
          unfold Outbox.Step Outbox.next outbox
          rw [isCloser]
          rfl
      | _ => simp [Step, next, expire, isCloser] at step
  | closed posted =>
      cases isCloser : publisher.closer with
      | posting body =>
          simp only [Step, next, closed, isCloser, Option.some.injEq] at step
          obtain rfl := step
          obtain ⟨stopping, offline⟩ := sound
          rw [isCloser] at stopping offline
          refine ⟨@Shows.of _ _ _ (.closed body) ?_ trivial (offline body rfl), stopping,
            fun _ absurd => by cases absurd⟩
          unfold Outbox.Step Outbox.next outbox
          rw [isCloser]
          rfl
      | _ => simp [Step, next, closed, isCloser] at step
  | pass time =>
      obtain rfl := Option.some.inj step
      exact ⟨Or.inl rfl, sound.congr rfl rfl⟩

/-! ### Runs -/

theorem start_sound : Sound (start config now) := ⟨rfl, fun _ absurd => by cases absurd⟩

/-- A run of the publisher is a run of the box; before `lobby_shutdown` it stays
open, and it is patient if the joins are. -/
theorem run_outbox {meets : Publisher → Act → Prop} {meets' : Outbox Body → Outbox.Act Body → Prop}
    (run : Run Step meets (start config now) publisher)
    (weaken : ∀ {publisher act shown}, meets publisher act →
      (Serves publisher act → Outbox.Open shown) →
      (Waits publisher act → Outbox.Patient Body.Online publisher.outbox shown) →
        meets' publisher.outbox shown) :
    Run Outbox.Step meets' (start config now).outbox publisher.outbox := by
  have shown : Run Outbox.Step meets' (start config now).outbox publisher.outbox ∧
      Sound publisher := by
    refine run.invariant (fun publisher =>
      Run Outbox.Step meets' (start config now).outbox publisher.outbox ∧ Sound publisher)
      ⟨.refl _, start_sound⟩ ?_
    rintro before act after ⟨before_, sound⟩ met step
    obtain ⟨same | ⟨shown, moves, isOpen, patient⟩, sound'⟩ := next_shows sound step
    · rw [same]
      exact ⟨before_, sound'⟩
    · exact ⟨.tail shown before_ (weaken met isOpen patient) moves, sound'⟩
  exact shown.1

/-- The number of players is the argument of the last `lobby_update`, zero before
the first. -/
def Counts (publisher : Publisher) : Prop :=
  publisher.snapshot.curplayers = publisher.updates.getLast?.getD 0

theorem counts_run {meets : Publisher → Act → Prop}
    (run : Run Step meets (start config now) publisher) : Counts publisher := by
  refine run.invariant Counts rfl ?_
  intro before act after counts _ step
  unfold Counts at counts ⊢
  cases act with
  | update curplayers =>
      simp only [Step, next] at step
      split at step
      · obtain rfl := Option.some.inj step
        unfold update
        split
        · exact counts
        · rw [broadcast_keeps.2.2.1, broadcast_keeps.2.2.2, List.getLast?_concat]
          rfl
      · cases step
  | work =>
      obtain ⟨-, -, snapshot, updates⟩ := work_keeps step
      rw [snapshot, updates]
      exact counts
  | finish posted =>
      simp only [Step, next, finish] at step
      split at step
      · obtain rfl := Option.some.inj step
        exact counts
      · cases step
  | wake timedOut =>
      simp only [Step, next, wake] at step
      split at step
      · obtain rfl := Option.some.inj step
        exact counts
      · cases step
  | shutdown =>
      simp only [Step, next, shutdown] at step
      split at step
      any_goals cases step
      any_goals exact counts
      · rw [broadcast_keeps.2.2.1, broadcast_keeps.2.2.2]
        exact counts
      · split at step
        · obtain rfl := Option.some.inj step
          exact counts
        · cases step
  | expire =>
      simp only [Step, next, expire] at step
      split at step
      · split at step
        · obtain rfl := Option.some.inj step
          exact counts
        · cases step
      · cases step
  | closed posted =>
      simp only [Step, next, closed] at step
      split at step
      · obtain rfl := Option.some.inj step
        exact counts
      · cases step
  | pass time =>
      obtain rfl := Option.some.inj step
      exact counts

end Publisher

end DragsterNet.CRelay
