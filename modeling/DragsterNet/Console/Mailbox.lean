/-
Module: DragsterNet.Console.Mailbox
Purpose: The sequence numbers of the mailbox, instruction by instruction: which
  transaction a client that sees its number acknowledged has had answered.
Trusted boundary: the cartridge executes one transaction at a time, launches on
  a number that is new and not zero, and acknowledges with the number it
  launched on
Main exports: Mailbox, Mailbox.next, Mailbox.Kept, Mailbox.kept_next,
  Mailbox.own_acknowledgement
-/
import DragsterNet.Console.Transport
import DragsterNet.Lib.Steps

namespace DragsterNet

open Lib

/-- The routines that launch a transaction: the tail's, the session's and the
transport's. -/
inductive Launcher where
  | fnGo
  | csGo
  | dgLnch
deriving Repr, DecidableEq

/-- The bank a launcher is called from. -/
def Launcher.bank : Launcher → Bank
  | .fnGo | .csGo => .boot
  | .dgLnch => .game

/-- Where the client is in a transaction: in none, with the next number in A,
with the number in its cell and the commit to come, or waiting. -/
inductive Point where
  | away
  | loaded (launcher : Launcher) (acc : Byte)
  | stored (launcher : Launcher)
  | waiting (launcher : Launcher)
deriving Repr, DecidableEq

/-- The client's number is in `dgSeq`, which is FNSEQ too.  The cartridge shows
`ackSeq`, has the number committed last in `seqReg`, and is `executing` a
transaction or not.  The rest is history: transactions are counted from 1 as
they are committed, `launched` is the last one, `acked` the one acknowledged
last, and `quiet` says that the cartridge was executing nothing when the number
was derived. -/
structure Mailbox where
  bank : Bank
  point : Point
  dgSeq : Byte
  ackSeq : Byte
  seqReg : Byte
  executing : Option (Byte × Nat)
  launched : Nat
  acked : Option Nat
  quiet : Bool
deriving Repr, DecidableEq

namespace Mailbox

/-- Power-on, the cartridge idle with any number acknowledged last. -/
def start (dgSeq ackSeq : Byte) : Mailbox where
  bank := .boot
  point := .away
  dgSeq := dgSeq
  ackSeq := ackSeq
  seqReg := ackSeq
  executing := none
  launched := 0
  acked := none
  quiet := true

inductive Act where
  | load (launcher : Launcher)
  | store
  | commit
  | look
  | giveUp
  | handOver
  | leave
  | session
  | restart
  | finish
  | relaunch
deriving Repr, DecidableEq

/-- `lda FNACKS`, plus one, with 0 left out. -/
def load (launcher : Launcher) (mailbox : Mailbox) : Option Mailbox :=
  if mailbox.point = .away ∧ mailbox.bank = launcher.bank then
    some
      { mailbox with
        point := .loaded launcher (nextSeq mailbox.ackSeq)
        quiet := mailbox.executing.isNone }
  else none

def store (mailbox : Mailbox) : Option Mailbox :=
  match mailbox.point with
  | .loaded launcher acc => some { mailbox with point := .stored launcher, dgSeq := acc }
  | _ => none

/-- A committed number launches when it is new and not zero, and nothing is
being executed. -/
def commit (mailbox : Mailbox) : Option Mailbox :=
  match mailbox.point with
  | .stored launcher =>
      some
        { mailbox with
          point := .waiting launcher
          seqReg := mailbox.dgSeq
          launched := mailbox.launched + 1
          executing :=
            if mailbox.executing = none ∧ mailbox.dgSeq ≠ 0 ∧
                mailbox.dgSeq ≠ mailbox.ackSeq then
              some (mailbox.dgSeq, mailbox.launched + 1)
            else mailbox.executing }
  | _ => none

/-- The client sees its number acknowledged. -/
def sees (mailbox : Mailbox) : Bool :=
  mailbox.ackSeq == mailbox.dgSeq

/-- One look at FNACKS. -/
def look (mailbox : Mailbox) : Option Mailbox :=
  match mailbox.point with
  | .waiting _ => some (if mailbox.sees then { mailbox with point := .away } else mailbox)
  | _ => none

/-- FNGO and CSGO run out of patience; the transport never does. -/
def giveUp (mailbox : Mailbox) : Option Mailbox :=
  match mailbox.point with
  | .waiting .fnGo | .waiting .csGo => some { mailbox with point := .away }
  | _ => none

/-- The session is over and the game bank takes the console. -/
def handOver (mailbox : Mailbox) : Option Mailbox :=
  if mailbox.point = .away ∧ mailbox.bank = .boot then some { mailbox with bank := .game }
  else none

/-- DGGONE, in any state of the transport. -/
def leave (mailbox : Mailbox) : Option Mailbox :=
  if mailbox.bank = .game ∧ (mailbox.point = .away ∨ mailbox.point = .waiting .dgLnch) then
    some { mailbox with bank := .boot, point := .away }
  else none

/-- DGBENT clears the zero page. -/
def session (mailbox : Mailbox) : Option Mailbox :=
  if mailbox.point = .away ∧ mailbox.bank = .boot then some { mailbox with dgSeq := 0 }
  else none

/-- DGCOLD, from any instruction; neither the RAM nor the cartridge is reset. -/
def restart (mailbox : Mailbox) : Mailbox :=
  { mailbox with bank := .boot, point := .away }

/-- The cartridge completes what it executes. -/
def finish (mailbox : Mailbox) : Option Mailbox :=
  match mailbox.executing with
  | some (seq, transaction) =>
      some
        { mailbox with ackSeq := seq, executing := none, acked := some transaction }
  | none => none

/-- An idle cartridge may look at the register again. -/
def relaunch (mailbox : Mailbox) : Option Mailbox :=
  if mailbox.executing = none ∧ mailbox.seqReg ≠ 0 ∧ mailbox.seqReg ≠ mailbox.ackSeq then
    some { mailbox with executing := some (mailbox.seqReg, mailbox.launched) }
  else none

def next (mailbox : Mailbox) : Act → Option Mailbox
  | .load launcher => mailbox.load launcher
  | .store => mailbox.store
  | .commit => mailbox.commit
  | .look => mailbox.look
  | .giveUp => mailbox.giveUp
  | .handOver => mailbox.handOver
  | .leave => mailbox.leave
  | .session => mailbox.session
  | .restart => some mailbox.restart
  | .finish => mailbox.finish
  | .relaunch => mailbox.relaunch

def Step (before : Mailbox) (act : Act) (after : Mailbox) : Prop :=
  before.next act = some after

/-- The transport's launch is the three instructions in one, and its look is
`dgAck`. -/
theorem dgLnch_acts {mailbox : Mailbox} {painted : Painted} {console : Console}
    (free : mailbox.point = .away) (here : mailbox.bank = .game)
    (shows : painted.fnAcks = mailbox.ackSeq) (state : NetState)
    (command params : Byte) (tx : List Byte) :
    ∃ after, [Act.load .dgLnch, .store, .commit].foldlM next mailbox = some after ∧
      after.point = .waiting .dgLnch ∧
      ((console.dgLnch state command params tx painted).2.map Request.seq) =
        some after.seqReg ∧
      (console.dgLnch state command params tx painted).1.dgSeq = after.dgSeq ∧
      Console.dgAck painted (console.dgLnch state command params tx painted).1 =
        after.sees := by
  refine ⟨_, by simp [next, load, store, commit, free, here, Launcher.bank]; rfl, ?_⟩
  simp [Console.dgLnch, Console.dgAck, sees, shows]

/-- `transaction` carries `number`: it is being executed, or was the one
acknowledged last. -/
def Carries (mailbox : Mailbox) (number : Byte) (transaction : Nat) : Prop :=
  mailbox.executing = some (number, transaction) ∨
    mailbox.executing = none ∧ mailbox.ackSeq = number ∧
      mailbox.acked = some transaction

/-- What the client holds before the commit: a number that is free, or the
number of a transaction that was pending when it was derived. -/
def Derived (mailbox : Mailbox) (number : Byte) : Prop :=
  if mailbox.quiet then
    mailbox.executing = none ∧ number = nextSeq mailbox.ackSeq
  else ∃ transaction ≤ mailbox.launched, mailbox.Carries number transaction

/-- And after it: its own transaction's number, or an older one's. -/
def Committed (mailbox : Mailbox) : Prop :=
  if mailbox.quiet then mailbox.Carries mailbox.dgSeq mailbox.launched
  else ∃ transaction < mailbox.launched, mailbox.Carries mailbox.dgSeq transaction

def Placed (mailbox : Mailbox) : Prop :=
  match mailbox.point with
  | .away => True
  | .loaded _ acc => mailbox.Derived acc
  | .stored _ => mailbox.Derived mailbox.dgSeq
  | .waiting _ => mailbox.Committed

/-- The invariant: the register holds the number that is being executed or was
acknowledged last, what is executed carries the next number, and the client is
where its number says. -/
structure Kept (mailbox : Mailbox) : Prop where
  idle : mailbox.executing = none → mailbox.seqReg = mailbox.ackSeq
  busy : ∀ {number : Byte} {transaction : Nat},
    mailbox.executing = some (number, transaction) →
      number = nextSeq mailbox.ackSeq ∧ transaction ≤ mailbox.launched ∧
        mailbox.seqReg = number
  placed : mailbox.Placed

theorem kept_start (dgSeq ackSeq : Byte) : (start dgSeq ackSeq).Kept where
  idle := fun _ => rfl
  busy := fun executes => by cases executes
  placed := trivial

/-- Outside a transaction only the cartridge's part is claimed. -/
theorem Kept.away {before after : Mailbox} (kept : before.Kept)
    (free : after.point = .away) (executing : after.executing = before.executing)
    (ackSeq : after.ackSeq = before.ackSeq) (seqReg : after.seqReg = before.seqReg)
    (launched : after.launched = before.launched) : after.Kept where
  idle := by
    rw [executing, seqReg, ackSeq]
    exact kept.idle
  busy := by
    rw [executing, seqReg, ackSeq, launched]
    exact kept.busy
  placed := by
    unfold Placed
    rw [free]
    trivial

theorem kept_load {before after : Mailbox} {launcher : Launcher}
    (kept : before.Kept) (loaded : before.load launcher = some after) :
    after.Kept := by
  unfold load at loaded
  split at loaded
  · obtain rfl := Option.some.inj loaded
    refine ⟨kept.idle, kept.busy, ?_⟩
    change Derived _ _
    cases executes : before.executing with
    | none => simp [Derived]
    | some carried =>
        obtain ⟨number, transaction⟩ := carried
        obtain ⟨rfl, bound, -⟩ := kept.busy executes
        simp only [Derived, Option.isNone_some]
        exact ⟨transaction, bound, Or.inl rfl⟩
  · cases loaded

theorem kept_store {before after : Mailbox} (kept : before.Kept)
    (stored : before.store = some after) : after.Kept := by
  unfold store at stored
  split at stored
  · rename_i launcher acc here
    obtain rfl := Option.some.inj stored
    have derived : before.Derived acc := by simpa [Placed, here] using kept.placed
    exact ⟨kept.idle, kept.busy, derived⟩
  · cases stored

/-- A number derived while the cartridge was idle launches. -/
theorem kept_commit {before after : Mailbox} (kept : before.Kept)
    (committed : before.commit = some after) : after.Kept := by
  unfold commit at committed
  split at committed
  · rename_i launcher here
    obtain rfl := Option.some.inj committed
    have derived : before.Derived before.dgSeq := by simpa [Placed, here] using kept.placed
    unfold Derived at derived
    split at derived
    · rename_i quiet
      obtain ⟨idle, isNext⟩ := derived
      obtain ⟨nonzero, isNew⟩ := nextSeq_new before.ackSeq
      have launches : before.executing = none ∧ before.dgSeq ≠ 0 ∧
          before.dgSeq ≠ before.ackSeq :=
        ⟨idle, isNext ▸ nonzero, fun same => isNew (same.symm.trans isNext)⟩
      simp only [if_pos launches]
      refine ⟨fun empty => ?_, fun executes => ?_, ?_⟩
      · cases empty
      · cases executes
        exact ⟨isNext, Nat.le_refl _, rfl⟩
      · simp [Placed, Committed, Carries, quiet]
    · rename_i loud
      obtain ⟨transaction, bound, pending | ⟨idle, answered, acked⟩⟩ := derived
      · obtain ⟨isNext, -, -⟩ := kept.busy pending
        have stays : ¬(before.executing = none ∧ before.dgSeq ≠ 0 ∧
            before.dgSeq ≠ before.ackSeq) := by simp [pending]
        simp only [if_neg stays]
        refine ⟨fun empty => ?_, fun executes => ?_, ?_⟩
        · rw [pending] at empty
          cases empty
        · rw [pending] at executes
          cases executes
          exact ⟨isNext, Nat.le_succ_of_le bound, rfl⟩
        · simp only [Placed, Committed, loud]
          exact ⟨transaction, Nat.lt_succ_of_le bound, Or.inl pending⟩
      · have stays : ¬(before.executing = none ∧ before.dgSeq ≠ 0 ∧
            before.dgSeq ≠ before.ackSeq) := by simp [answered]
        simp only [if_neg stays]
        refine ⟨fun _ => answered.symm, fun executes => ?_, ?_⟩
        · rw [idle] at executes
          cases executes
        · simp only [Placed, Committed, loud]
          exact ⟨transaction, Nat.lt_succ_of_le bound, Or.inr ⟨idle, answered, acked⟩⟩
  · cases committed

/-- Completing a transaction leaves it the one acknowledged last. -/
theorem carries_finish {before after : Mailbox} {number : Byte} {transaction : Nat}
    (finished : before.finish = some after)
    (carries : before.Carries number transaction) :
    after.Carries number transaction := by
  unfold finish at finished
  split at finished
  · rename_i seq other executes
    obtain rfl := Option.some.inj finished
    obtain pending | ⟨idle, -⟩ := carries
    · rw [executes] at pending
      cases pending
      exact Or.inr ⟨rfl, rfl, rfl⟩
    · rw [executes] at idle
      cases idle
  · cases finished

theorem kept_finish {before after : Mailbox} (kept : before.Kept)
    (finished : before.finish = some after) : after.Kept := by
  have frame : after.executing = none ∧ after.point = before.point ∧
      after.quiet = before.quiet ∧ after.dgSeq = before.dgSeq ∧
      after.launched = before.launched ∧ after.seqReg = before.seqReg ∧
      ∃ transaction, before.executing = some (after.ackSeq, transaction) := by
    unfold finish at finished
    split at finished
    · rename_i seq transaction executes
      obtain rfl := Option.some.inj finished
      exact ⟨rfl, rfl, rfl, rfl, rfl, rfl, transaction, executes⟩
    · cases finished
  obtain ⟨idle, point, quiet, dgSeq, launched, seqReg, transaction, executed⟩ := frame
  obtain ⟨-, -, register⟩ := kept.busy executed
  refine ⟨fun _ => seqReg.trans register, fun executes => ?_, ?_⟩
  · rw [idle] at executes
    cases executes
  have placed := kept.placed
  unfold Placed at placed ⊢
  rw [point]
  -- a number derived from an idle cartridge is not committed yet
  have derived : ∀ number, before.Derived number → after.Derived number := by
    intro number holds
    unfold Derived at holds ⊢
    rw [quiet, launched]
    split at holds
    · rw [executed] at holds
      cases holds.1
    · rename_i loud
      obtain ⟨older, bound, carries⟩ := holds
      rw [if_neg loud]
      exact ⟨older, bound, carries_finish finished carries⟩
  split at placed
  · trivial
  · exact derived _ placed
  · rw [dgSeq]
    exact derived _ placed
  · unfold Committed at placed ⊢
    rw [quiet, dgSeq, launched]
    split at placed
    · rename_i silent
      rw [if_pos silent]
      exact carries_finish finished placed
    · rename_i loud
      rw [if_neg loud]
      obtain ⟨older, bound, carries⟩ := placed
      exact ⟨older, bound, carries_finish finished carries⟩

/-- Every step keeps the invariant; looking at the register again finds
nothing. -/
theorem kept_next {before after : Mailbox} {act : Act} (kept : before.Kept)
    (taken : Step before act after) : after.Kept := by
  unfold Step at taken
  cases act with
  | load launcher => exact kept_load kept taken
  | store => exact kept_store kept taken
  | commit => exact kept_commit kept taken
  | look =>
      simp only [next, look] at taken
      split at taken
      · obtain rfl := Option.some.inj taken
        split
        · exact kept.away rfl rfl rfl rfl rfl
        · exact kept
      · cases taken
  | giveUp =>
      simp only [next, giveUp] at taken
      split at taken
      · obtain rfl := Option.some.inj taken
        exact kept.away rfl rfl rfl rfl rfl
      · obtain rfl := Option.some.inj taken
        exact kept.away rfl rfl rfl rfl rfl
      · cases taken
  | handOver =>
      simp only [next, handOver] at taken
      split at taken
      · rename_i free
        obtain rfl := Option.some.inj taken
        exact kept.away free.1 rfl rfl rfl rfl
      · cases taken
  | leave =>
      simp only [next, leave] at taken
      split at taken
      · obtain rfl := Option.some.inj taken
        exact kept.away rfl rfl rfl rfl rfl
      · cases taken
  | session =>
      simp only [next, session] at taken
      split at taken
      · rename_i free
        obtain rfl := Option.some.inj taken
        exact kept.away free.1 rfl rfl rfl rfl
      · cases taken
  | restart =>
      obtain rfl := Option.some.inj taken
      exact kept.away rfl rfl rfl rfl rfl
  | finish => exact kept_finish kept taken
  | relaunch =>
      simp only [next, relaunch] at taken
      split at taken
      · rename_i again
        exact absurd (kept.idle again.1) again.2.2
      · cases taken

theorem kept_run {dgSeq ackSeq : Byte} {mailbox : Mailbox}
    {meets : Mailbox → Act → Prop}
    (run : Run Step meets (start dgSeq ackSeq) mailbox) : mailbox.Kept := by
  apply run.invariant Kept (kept_start dgSeq ackSeq)
  intro before act after kept _ taken
  exact kept_next kept taken

/-- A number is derived only while the cartridge executes nothing. -/
def Settled (mailbox : Mailbox) (act : Act) : Prop :=
  ∀ launcher, act = .load launcher → mailbox.executing = none

theorem quiet_next {before after : Mailbox} {act : Act} (settled : Settled before act)
    (quiet : before.quiet = true) (taken : Step before act after) :
    after.quiet = true := by
  unfold Step at taken
  cases act with
  | load launcher =>
      have idle := settled launcher rfl
      simp only [next, load] at taken
      split at taken
      · obtain rfl := Option.some.inj taken
        simp [idle]
      · cases taken
  | restart =>
      obtain rfl := Option.some.inj taken
      exact quiet
  | look =>
      simp only [next, look] at taken
      split at taken
      · obtain rfl := Option.some.inj taken
        split <;> exact quiet
      · cases taken
  | store | commit | giveUp | handOver | leave | session | finish | relaunch =>
      simp only [next, store, commit, giveUp, handOver, leave, session, finish,
        relaunch] at taken
      split at taken <;> cases taken <;> exact quiet

/-- Which is what the history bit remembers. -/
theorem quiet_run {dgSeq ackSeq : Byte} {mailbox : Mailbox}
    (run : Run Step Settled (start dgSeq ackSeq) mailbox) : mailbox.quiet = true := by
  apply run.invariant (fun mailbox => mailbox.quiet = true) rfl
  intro before act after quiet met taken
  exact quiet_next met quiet taken

/-- The acknowledgement a launcher sees is its own transaction's exactly when
the cartridge was executing nothing as the number was derived. -/
theorem own_acknowledgement {dgSeq ackSeq : Byte} {mailbox : Mailbox}
    {launcher : Launcher} (run : Run Step always (start dgSeq ackSeq) mailbox)
    (waits : mailbox.point = .waiting launcher) (sees : mailbox.sees = true) :
    mailbox.acked = some mailbox.launched ↔ mailbox.quiet = true := by
  have kept := kept_run run
  have answered : mailbox.ackSeq = mailbox.dgSeq := by simpa [Mailbox.sees] using sees
  have carried : ∀ transaction, mailbox.Carries mailbox.dgSeq transaction →
      mailbox.acked = some transaction := by
    intro transaction carries
    obtain pending | ⟨-, -, acked⟩ := carries
    · obtain ⟨isNext, -⟩ := kept.busy pending
      exact absurd (answered.trans isNext) (nextSeq_new _).2
    · exact acked
  have placed := kept.placed
  simp only [Placed, waits] at placed
  unfold Committed at placed
  split at placed
  · rename_i quiet
    exact iff_of_true (carried _ placed) quiet
  · rename_i loud
    obtain ⟨older, earlier, carries⟩ := placed
    apply iff_of_false _ loud
    intro own
    rw [carried _ carries] at own
    exact absurd (Option.some.inj own) (Nat.ne_of_lt earlier)

/-- A record answered in the match it was launched in. -/
theorem own_acknowledgement_record :
    ∃ mailbox : Mailbox, Run Step always (start 0 255) mailbox ∧
      mailbox.point = .waiting .dgLnch ∧ mailbox.sees = true ∧
      (mailbox.acked = some mailbox.launched ↔ mailbox.quiet = true) := by
  have executed : [Act.handOver, .load .dgLnch, .store, .commit, .finish].foldlM next
      (start 0 255) = some _ := rfl
  have run := Run.of_foldlM executed
  exact ⟨_, run, rfl, rfl, own_acknowledgement run rfl rfl⟩

/-- The peer leaves while the record is with the cartridge; the session's first
transaction derives the record's number again and takes the record's answer for
its own. -/
theorem pending_acknowledgement :
    ¬∀ (dgSeq ackSeq : Byte) (mailbox : Mailbox) (launcher : Launcher),
      Run Step always (start dgSeq ackSeq) mailbox →
        mailbox.point = .waiting launcher → mailbox.sees = true →
          mailbox.acked = some mailbox.launched := by
  intro every
  have executed : [Act.handOver, .load .dgLnch, .store, .commit, .leave, .session,
      .load .csGo, .store, .commit, .finish].foldlM next (start 0 0) = some _ := rfl
  have acked := every 0 0 _ .csGo (Run.of_foldlM executed) rfl rfl
  cases acked

end Mailbox

end DragsterNet
