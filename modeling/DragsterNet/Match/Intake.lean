/-
Module: DragsterNet.Match.Intake
Purpose: The network machine against a cartridge that may answer anything: what
  it asks of the socket, and which records of the stream it examines.
Trusted boundary: the cartridge executes one transaction at a time; a READ that
  succeeds returns exactly the bytes asked for, one that fails consumes none
Main exports: Tape, Intake, Intake.next, Intake.Known, Intake.known_next,
  Intake.reads_reported
-/
import DragsterNet.Match.Receive

namespace DragsterNet

open Lib

/-- The value of a state in its cell, the offset of its entry in the dispatch
table. -/
def NetState.cell : NetState → Byte
  | .idle => 0
  | .wiss => 2
  | .wack => 4
  | .siss => 6
  | .sack => 8
  | .riss => 10
  | .rack => 12
  | .cons => 14
  | .fail => 16

/-- The socket's bytes from the hand-over on, and how far they have been taken.
`status` is the count that the transaction just before reported, if it was a
STATUS, `batch` where the last successful READ began, and `examined` the frames of
the stream the machine has looked at, in order. -/
structure Tape where
  stream : Nat → Byte
  taken : Nat
  status : Nat
  batch : Nat
  examined : List Nat

namespace Tape

/-- The count in the reply of a STATUS. -/
def reported (reply : Nat → Byte) : Nat :=
  (reply nsAvLo).toNat + 256 * (reply nsAvHi).toNat

/-- A READ that succeeds. -/
def reads (outcome : Painted) (request : Request) : Bool :=
  request.command == ncRead && outcome.fnErr == 0

/-- What the cartridge paints: anything at all, but that a successful READ
returns the bytes it was asked for. -/
def answer (outcome : Painted) (request : Request) (tape : Tape) : Painted :=
  if reads outcome request then
    { fnAcks := request.seq
      fnErr := outcome.fnErr
      fnRxLo := BitVec.ofNat 8 (Cart.count request)
      fnRply := fun index =>
        if index < Cart.count request then tape.stream (tape.taken + index)
        else outcome.fnRply index }
  else { outcome with fnAcks := request.seq }

/-- The tape after the transaction. -/
def serve (outcome : Painted) (request : Request) (tape : Tape) : Tape :=
  if reads outcome request then
    { tape with
      taken := tape.taken + Cart.count request
      batch := tape.taken
      status := 0 }
  else if request.command = ncStat then
    { tape with status := reported outcome.fnRply }
  else { tape with status := 0 }

/-- `records` frames at the front of the last batch are all that has been taken
and not been examined once. -/
def Left (tape : Tape) (records : Nat) : Prop :=
  (tape.examined ++ List.range' (tape.batch / 8) records).Perm
    (List.range (tape.taken / 8))

/-- The reply window shows the last batch. -/
def Shows (tape : Tape) (reply : Nat → Byte) : Prop :=
  ∀ index < tape.taken - tape.batch, reply index = tape.stream (tape.batch + index)

/-- A batch is whole frames of the stream, from a frame boundary on. -/
structure Framed (tape : Tape) : Prop where
  taken : tape.taken % 8 = 0
  batch : tape.batch % 8 = 0
  short : tape.batch ≤ tape.taken ∧ tape.taken ≤ tape.batch + 248

/-- A count the machine asks for. -/
structure Bite (status : Nat) (rdn : Byte) : Prop where
  some : rdn ≠ 0
  whole : rdn.toNat % 8 = 0
  capped : rdn.toNat ≤ 248
  reported : rdn.toNat ≤ status

end Tape

structure Intake where
  desk : Desk
  cart : Cart
  tape : Tape

namespace Intake

open Console

/-- The hand-over, the cartridge idle. -/
def start (role seq : Byte) (ram : Ram) (painted : Painted) (stream : Nat → Byte) :
    Intake where
  desk := Desk.start role seq ram
  cart := { painted := painted, stage := .idle }
  tape := { stream := stream, taken := 0, status := 0, batch := 0, examined := [] }

/-- The next micro-step examines a record. -/
def examining (intake : Intake) : Bool :=
  intake.desk.console.dgNst == .cons && intake.desk.console.dgRdn != 0

/-- The frame of the stream at the cursor. -/
def frame (intake : Intake) : Nat :=
  (intake.tape.batch + intake.desk.console.cursor) / 8

def hook (ports : Ports) (ram : Ram) (intake : Intake) : Option Intake :=
  (intake.desk.hook ports ram).map fun desk => { intake with desk := desk }

def step (intake : Intake) : Option Intake :=
  (intake.desk.step intake.cart.painted).map fun (desk, request) =>
    { desk := desk
      cart := intake.cart.commit request
      tape :=
        if intake.examining then
          { intake.tape with examined := intake.tape.examined ++ [intake.frame] }
        else intake.tape }

def spin (intake : Intake) : Option Intake :=
  intake.desk.spin.map fun desk => { intake with desk := desk }

/-- The cartridge executes the transaction, with any outcome. -/
def serve (outcome : Painted) (intake : Intake) : Option Intake :=
  match intake.cart.stage with
  | .launched request =>
      some
        { intake with
          cart := { intake.cart with stage := .served (intake.tape.answer outcome request) }
          tape := intake.tape.serve outcome request }
  | _ => none

/-- It publishes the reply and the acknowledgement. -/
def ack (intake : Intake) : Option Intake :=
  match intake.cart.stage with
  | .served reply => some { intake with cart := { painted := reply, stage := .idle } }
  | _ => none

inductive Act where
  | hook (ports : Ports) (ram : Ram)
  | step
  | spin
  | serve (outcome : Painted)
  | ack

def next (intake : Intake) : Act → Option Intake
  | .hook ports ram => intake.hook ports ram
  | .step => intake.step
  | .spin => intake.spin
  | .serve outcome => intake.serve outcome
  | .ack => intake.ack

def Step (before : Intake) (act : Act) (after : Intake) : Prop :=
  before.next act = some after

def Asked (command : Byte) (request : Request) : Prop :=
  request.command = command

def StatAnswer (tape : Tape) (reply : Painted) : Prop :=
  tape.status = Tape.reported reply.fnRply

/-- A READ is asked for once everything taken is examined. -/
def ReadAsked (rdn : Byte) (tape : Tape) (request : Request) : Prop :=
  request.command = ncRead ∧ request.tx = [2, rdn, 0] ∧ Tape.Bite tape.status rdn ∧
    tape.Left 0

/-- A READ that succeeds leaves its whole batch to be examined, one that fails
nothing. -/
def ReadAnswer (tape : Tape) (reply : Painted) : Prop :=
  if reply.fnErr = 0 then
    reply.fnRxLo.toNat = tape.taken - tape.batch ∧ tape.Shows reply.fnRply ∧
      tape.Left ((tape.taken - tape.batch) / 8)
  else tape.Left 0

/-- What the machine and the cartridge know of each other, by the machine's
state. -/
def Agree (nst : NetState) (seq rdn : Byte) (cart : Cart) (tape : Tape) : Prop :=
  match nst with
  | .idle | .fail => False
  | .wiss | .siss => cart.stage = .idle ∧ tape.Left 0
  | .wack => tape.Left 0 ∧ Seat.Awaiting seq cart (Asked ncWrite) fun _ => True
  | .sack => tape.Left 0 ∧ Seat.Awaiting seq cart (Asked ncStat) (StatAnswer tape)
  | .riss => cart.stage = .idle ∧ tape.Left 0 ∧ Tape.Bite tape.status rdn
  | .rack => Seat.Awaiting seq cart (ReadAsked rdn tape) (ReadAnswer tape)
  | .cons => cart.stage = .idle ∧ 8 * rdn.toNat ≤ tape.taken - tape.batch ∧
      tape.Shows cart.painted.fnRply ∧ tape.Left rdn.toNat

structure Known (intake : Intake) : Prop where
  truthful : intake.desk.Truthful
  framed : intake.tape.Framed
  agree : Agree intake.desk.console.dgNst intake.desk.console.dgSeq intake.desk.console.dgRdn
    intake.cart intake.tape

variable {intake after : Intake} {act : Act} {role seq : Byte} {ram : Ram} {ports : Ports}
  {painted : Painted} {stream : Nat → Byte}

theorem known_start (isRole : role = 0 ∨ role = dgeRole) :
    Known (start role seq ram painted stream) where
  truthful := Desk.truthful_start isRole
  framed := ⟨rfl, rfl, Nat.le_refl 0, Nat.zero_le _⟩
  agree := ⟨rfl, by simp [Tape.Left, start]⟩

theorem known_hook (known : Known intake) (taken : intake.hook ports ram = some after) :
    Known after := by
  obtain ⟨desk, hooked, rfl⟩ := Option.map_eq_some_iff.mp taken
  have truthful := Desk.truthful_hook known.truthful hooked
  have net := known.truthful.net (Desk.hook_bank hooked)
  have agree := known.agree
  obtain ⟨-, -, -, -, cases⟩ := Desk.hook_cases net hooked
  refine ⟨truthful, known.framed, ?_⟩
  cases cases with
  | between _ _ held =>
      have nst : desk.console.dgNst = intake.desk.console.dgNst := held.nst
      have seq : desk.console.dgSeq = intake.desk.console.dgSeq := held.seq
      have rdn : desk.console.dgRdn = intake.desk.console.dgRdn := held.rdn
      rw [← nst, ← seq, ← rdn] at agree
      exact agree
  | boundary _ _ held =>
      obtain ⟨nst, seq, rdn, -⟩ := dgNt1_leaves ports (intake.desk.atHook ram)
      have nst : desk.console.dgNst = intake.desk.console.dgNst := held.nst.trans nst
      have seq : desk.console.dgSeq = intake.desk.console.dgSeq := held.seq.trans seq
      have rdn : desk.console.dgRdn = intake.desk.console.dgRdn := held.rdn.trans rdn
      rw [← nst, ← seq, ← rdn] at agree
      exact agree

theorem bite_low {reply : Nat → Byte} (high : reply nsAvHi = 0)
    (some : reply nsAvLo &&& irMask ≠ 0) :
    Tape.Bite (Tape.reported reply) (reply nsAvLo &&& irMask) := by
  have low := (reply nsAvLo).isLt
  have count : Tape.reported reply = (reply nsAvLo).toNat := by
    unfold Tape.reported
    rw [high]
    rfl
  refine ⟨some, ?_, ?_, ?_⟩
  · rw [Seat.whole_frames]
    omega
  · rw [Seat.whole_frames]
    omega
  · rw [Seat.whole_frames, count]
    omega

/-- 256 bytes or more wait, and the capped bite is 248. -/
theorem bite_high {reply : Nat → Byte} (high : reply nsAvHi ≠ 0) :
    Tape.Bite (Tape.reported reply) 0xF8 := by
  have notZero : (reply nsAvHi).toNat ≠ 0 := fun zero => high (BitVec.eq_of_toNat_eq zero)
  refine ⟨by decide, by decide, by decide, ?_⟩
  show 248 ≤ (reply nsAvLo).toNat + 256 * (reply nsAvHi).toNat
  omega

theorem consumeAt_cycle {reply : Nat → Byte} {y : Nat} {console : Console} :
    (consumeAt reply y console).dgNst = console.dgNst ∧
      (consumeAt reply y console).dgSeq = console.dgSeq ∧
      (consumeAt reply y console).dgRdn = console.dgRdn := by
  have raised : ∀ (tick : Byte) (later : Console),
      (raiseWatermark tick later).dgNst = later.dgNst ∧
        (raiseWatermark tick later).dgSeq = later.dgSeq ∧
        (raiseWatermark tick later).dgRdn = later.dgRdn := by
    intro tick later
    unfold raiseWatermark
    split <;> exact ⟨rfl, rfl, rfl⟩
  have detected : ∀ (tick crc : Byte) (later : Console),
      (detectDesync tick crc later).dgNst = later.dgNst ∧
        (detectDesync tick crc later).dgSeq = later.dgSeq ∧
        (detectDesync tick crc later).dgRdn = later.dgRdn := by
    intro tick crc later
    unfold detectDesync
    repeat' split
    all_goals exact ⟨rfl, rfl, rfl⟩
  unfold consumeAt
  split
  · split
    · obtain ⟨nst, seq, rdn⟩ := raised (reply (y + 2)) (detectDesync (reply (y + 2))
        (reply (y + 6)) (storeWindow (reply (y + 2)) (reply (y + 3)) (reply (y + 4))
          (reply (y + 5)) console))
      obtain ⟨nst', seq', rdn'⟩ := detected (reply (y + 2)) (reply (y + 6))
        (storeWindow (reply (y + 2)) (reply (y + 3)) (reply (y + 4)) (reply (y + 5)) console)
      exact ⟨nst.trans nst', seq.trans seq', rdn.trans rdn'⟩
    · exact ⟨rfl, rfl, rfl⟩
  · split <;> exact ⟨rfl, rfl, rfl⟩

/-- The record the machine is about to examine: `records` more are behind it, it
stands whole in the reply window, and it is the frame of the stream that the
cursor says. -/
structure Examines (intake : Intake) (records : Nat) : Prop where
  count : intake.desk.console.dgRdn.toNat = records + 1
  cursor : intake.desk.console.cursor = 8 * records
  frame : intake.frame = intake.tape.batch / 8 + records
  inside : intake.desk.console.cursor + 8 ≤ intake.tape.taken - intake.tape.batch

theorem examining_iff :
    intake.examining = true ↔
      intake.desk.console.dgNst = .cons ∧ intake.desk.console.dgRdn ≠ 0 := by
  simp [examining]

theorem examines (known : Known intake) (examining : intake.examining = true) :
    ∃ records, Examines intake records := by
  obtain ⟨state, more⟩ := examining_iff.mp examining
  have agree := known.agree
  rw [state] at agree
  obtain ⟨-, inside, -⟩ := agree
  have positive : intake.desk.console.dgRdn.toNat ≠ 0 :=
    fun zero => more (BitVec.eq_of_toNat_eq zero)
  obtain ⟨records, count⟩ := Nat.exists_eq_succ_of_ne_zero positive
  have short := known.framed.short
  have batch := known.framed.batch
  have cursor := Seat.cursor_eq count (by omega)
  refine ⟨records, count, cursor, ?_, by omega⟩
  unfold frame
  rw [cursor]
  omega

/-- Examining the last record left leaves one fewer. -/
theorem left_examine {tape : Tape} {records : Nat} (left : tape.Left (records + 1)) :
    Tape.Left { tape with examined := tape.examined ++ [tape.batch / 8 + records] } records := by
  unfold Tape.Left at left ⊢
  rw [List.range'_concat, Nat.one_mul] at left
  refine List.Perm.trans ?_ left
  rw [List.append_assoc]
  exact List.Perm.append_left _ List.perm_append_comm

/-- A READ of whole frames leaves them all to be examined. -/
theorem left_read {tape : Tape} {count : Nat} (left : tape.Left 0) (framed : tape.Framed)
    (whole : count % 8 = 0) :
    Tape.Left
      { tape with taken := tape.taken + count, batch := tape.taken, status := 0 }
      (count / 8) := by
  have taken := framed.taken
  have sum : (tape.taken + count) / 8 = tape.taken / 8 + count / 8 := by omega
  unfold Tape.Left at left ⊢
  rw [List.range'_zero, List.append_nil] at left
  have later := List.Perm.append_right (List.range' (tape.taken / 8) (count / 8)) left
  refine later.trans ?_
  rw [sum, List.range_eq_range', List.range_eq_range']
  have joined := @List.range'_append 0 (tape.taken / 8) (count / 8) 1
  rw [Nat.zero_add, Nat.one_mul] at joined
  rw [joined]

/-! ### The machine's steps -/

variable {console : Console} {cart : Cart} {tape : Tape} {rdn : Byte}

/-- The agreement, read off a console. -/
abbrev AgreeAt (console : Console) (cart : Cart) (tape : Tape) : Prop :=
  Agree console.dgNst console.dgSeq console.dgRdn cart tape

/-- Whether the WRITE failed or not, there is nothing to examine. -/
theorem agree_wack (agree : Agree .wack console.dgSeq console.dgRdn cart tape)
    (state : console.dgNst = .wack) :
    AgreeAt (dgsWack cart.painted console) cart tape := by
  unfold dgsWack
  split
  · rename_i acked
    obtain ⟨idle, -⟩ := Seat.awaiting_acked agree.2 (by simpa [dgAck] using acked)
    split
    · exact ⟨idle, agree.1⟩
    · exact ⟨idle, agree.1⟩
  · unfold AgreeAt
    rw [state]
    exact agree

/-- Both ways the machine settles on a count, it is one the STATUS reported. -/
theorem agree_sack (agree : Agree .sack console.dgSeq console.dgRdn cart tape)
    (state : console.dgNst = .sack) :
    AgreeAt (dgsSack cart.painted console) cart tape := by
  unfold dgsSack
  split
  · rename_i acked
    obtain ⟨idle, status⟩ := Seat.awaiting_acked agree.2 (by simpa [dgAck] using acked)
    have retry : Agree .wiss console.dgSeq console.dgRdn cart tape := ⟨idle, agree.1⟩
    split
    · exact retry
    · split
      · exact retry
      · split
        · rename_i many
          have bite := bite_high many
          rw [← status] at bite
          exact ⟨idle, agree.1, bite⟩
        · rename_i few
          split
          · exact retry
          · rename_i some
            have bite := bite_low (Decidable.not_not.mp few) some
            rw [← status] at bite
            exact ⟨idle, agree.1, bite⟩
  · unfold AgreeAt
    rw [state]
    exact agree

/-- The length of a READ that succeeded counts its records. -/
theorem agree_rack (agree : Agree .rack console.dgSeq console.dgRdn cart tape)
    (state : console.dgNst = .rack) :
    AgreeAt (dgsRack cart.painted console) cart tape := by
  unfold dgsRack
  split
  · rename_i acked
    have awaiting : Seat.Awaiting console.dgSeq cart (ReadAsked console.dgRdn tape)
        (ReadAnswer tape) := agree
    obtain ⟨idle, answer⟩ := Seat.awaiting_acked awaiting (by simpa [dgAck] using acked)
    split
    · rename_i failed
      rw [ReadAnswer, if_neg failed] at answer
      exact ⟨idle, answer⟩
    · rename_i succeeded
      rw [ReadAnswer, if_pos (Decidable.not_not.mp succeeded)] at answer
      obtain ⟨length, shows, left⟩ := answer
      have records : (cart.painted.fnRxLo >>> 3).toNat = (tape.taken - tape.batch) / 8 := by
        rw [BitVec.toNat_ushiftRight, length, Nat.shiftRight_eq_div_pow]
      rw [← records] at left
      refine ⟨idle, ?_, shows, left⟩
      show 8 * (cart.painted.fnRxLo >>> 3).toNat ≤ _
      rw [records]
      exact Nat.mul_div_le _ 8
  · unfold AgreeAt
    rw [state]
    exact agree

/-- Every step that examines no record keeps the agreement. -/
theorem agree_dgNstep (agree : AgreeAt console cart tape)
    (idle : ¬ (console.dgNst = .cons ∧ console.dgRdn ≠ 0)) :
    AgreeAt (console.dgNstep cart.painted).1
      (cart.commit (console.dgNstep cart.painted).2) tape := by
  unfold AgreeAt at agree
  unfold dgNstep
  cases state : console.dgNst with
  | idle =>
      rw [state] at agree
      exact agree.elim
  | fail =>
      rw [state] at agree
      exact agree.elim
  | wiss =>
      rw [state] at agree
      have asked : Asked ncWrite
          { device := netDev, command := ncWrite, params := 1,
            tx := [2, irLen, 0] ++ console.record, seq := nextSeq cart.painted.fnAcks } := rfl
      exact ⟨agree.2, Seat.awaiting_launched rfl asked⟩
  | wack =>
      rw [state] at agree
      exact agree_wack agree state
  | siss =>
      rw [state] at agree
      have asked : Asked ncStat
          { device := netDev, command := ncStat, params := 2, tx := [1, 0, 1, 0],
            seq := nextSeq cart.painted.fnAcks } := rfl
      exact ⟨agree.2, Seat.awaiting_launched rfl asked⟩
  | sack =>
      rw [state] at agree
      exact agree_sack agree state
  | riss =>
      rw [state] at agree
      have asked : ReadAsked console.dgRdn tape
          { device := netDev, command := ncRead, params := 1, tx := [2, console.dgRdn, 0],
            seq := nextSeq cart.painted.fnAcks } :=
        ⟨rfl, rfl, agree.2.2, agree.2.1⟩
      exact Seat.awaiting_launched rfl asked
  | rack =>
      rw [state] at agree
      exact agree_rack agree state
  | cons =>
      rw [state] at agree
      obtain ⟨isIdle, -, -, left⟩ := agree
      have done : console.dgRdn = 0 := by
        by_contra more
        exact idle ⟨state, more⟩
      rw [done] at left
      show AgreeAt (dgsCons cart.painted console) _ _
      rw [dgsCons, if_pos done]
      exact ⟨isIdle, left⟩

/-- Examining a record leaves the others where they are. -/
theorem agree_examine (agree : Agree .cons seq rdn cart tape) {records : Nat}
    (count : rdn.toNat = records + 1) :
    Agree .cons seq (rdn - 1) cart
      { tape with examined := tape.examined ++ [tape.batch / 8 + records] } := by
  obtain ⟨idle, inside, shows, left⟩ := agree
  have fewer : (rdn - 1).toNat = records := by bv_omega
  rw [count] at inside left
  refine ⟨idle, ?_, shows, ?_⟩
  · rw [fewer]
    exact Nat.le_trans (Nat.mul_le_mul_left 8 (Nat.le_succ records)) inside
  · rw [fewer]
    exact left_examine left

theorem known_step (known : Known intake) (taken : intake.step = some after) : Known after := by
  obtain ⟨⟨desk, request⟩, stepped, rfl⟩ := Option.map_eq_some_iff.mp taken
  have truthful := Desk.truthful_step known.truthful stepped
  have isStep := Desk.step_cases stepped
  have agree := known.agree
  cases examining : intake.examining with
  | true =>
      obtain ⟨records, isNext⟩ := examines known examining
      obtain ⟨state, more⟩ := examining_iff.mp examining
      have console : desk.console = dgsCons intake.cart.painted intake.desk.console := by
        rw [isStep.console, dgNstep, state]
      have noRequest : request = none := by
        rw [isStep.request, dgNstep, state]
      have cycle := @consumeAt_cycle intake.cart.painted.fnRply intake.desk.console.cursor
        { intake.desk.console with dgRdn := intake.desk.console.dgRdn - 1 }
      rw [dgsCons, if_neg more] at console
      rw [← console] at cycle
      obtain ⟨nst, seq, rdn⟩ := cycle
      rw [state] at agree
      have examined := agree_examine agree isNext.count
      refine ⟨truthful, ?_, ?_⟩
      · rw [if_pos rfl]
        exact ⟨known.framed.taken, known.framed.batch, known.framed.short⟩
      · rw [if_pos rfl, noRequest, isNext.frame, nst, seq, rdn]
        show Agree intake.desk.console.dgNst _ _ _ _
        rw [state]
        exact examined
  | false =>
      have idle : ¬ (intake.desk.console.dgNst = .cons ∧ intake.desk.console.dgRdn ≠ 0) := by
        rw [← examining_iff, examining]
        exact Bool.false_ne_true
      have kept := agree_dgNstep agree idle
      rw [← isStep.console, ← isStep.request] at kept
      exact ⟨truthful, known.framed, kept⟩

theorem known_spin (known : Known intake) (taken : intake.spin = some after) : Known after := by
  obtain ⟨desk, spun, rfl⟩ := Option.map_eq_some_iff.mp taken
  have still := Desk.spin_cases spun
  have truthful : desk.Truthful := @Desk.truthful_next _ _ .spin known.truthful spun
  refine ⟨truthful, known.framed, ?_⟩
  rw [still]
  exact known.agree

/-! ### The cartridge's part -/

variable {outcome : Painted} {request : Request}

theorem reads_iff :
    Tape.reads outcome request = true ↔ request.command = ncRead ∧ outcome.fnErr = 0 := by
  simp [Tape.reads]

theorem answer_acks : (tape.answer outcome request).fnAcks = request.seq := by
  unfold Tape.answer
  split <;> rfl

theorem answer_err : (tape.answer outcome request).fnErr = outcome.fnErr := by
  unfold Tape.answer
  split <;> rfl

/-- Executing a transaction answers what was asked. -/
theorem awaiting_served {Asked Asked' : Request → Prop} {Answer Answer' : Painted → Prop}
    {reply : Painted} (awaiting : Seat.Awaiting seq cart Asked Answer)
    (launched : cart.stage = .launched request) (acks : reply.fnAcks = request.seq)
    (answer : Asked request → Answer' reply) :
    Seat.Awaiting seq { cart with stage := .served reply } Asked' Answer' := by
  unfold Seat.Awaiting at awaiting
  rw [launched] at awaiting
  obtain ⟨pending, isSeq, asked⟩ := awaiting
  exact ⟨pending, acks.trans isSeq, answer asked⟩

/-- The count of the READ that a bite asks for. -/
theorem asked_count (tx : request.tx = [2, rdn, 0]) : Cart.count request = rdn.toNat := by
  unfold Cart.count
  rw [tx]
  rfl

/-- What was launched is what the state waits for. -/
theorem awaiting_asked {Asked : Request → Prop} {Answer : Painted → Prop}
    (awaiting : Seat.Awaiting seq cart Asked Answer)
    (launched : cart.stage = .launched request) : Asked request := by
  unfold Seat.Awaiting at awaiting
  rw [launched] at awaiting
  exact awaiting.2.2

theorem serve_idle (other : request.command ≠ ncStat)
    (fails : ¬ Tape.reads outcome request = true) :
    tape.serve outcome request = { tape with status := 0 } := by
  rw [Tape.serve, if_neg fails, if_neg other]

/-- The answer of a READ, whichever way it goes. -/
theorem read_answer (framed : tape.Framed) (asked : ReadAsked rdn tape request) :
    ReadAnswer (tape.serve outcome request) (tape.answer outcome request) := by
  obtain ⟨command, tx, bite, left⟩ := asked
  have isCount := asked_count tx
  unfold ReadAnswer
  rw [answer_err]
  split
  · rename_i succeeds
    have reads := reads_iff.mpr ⟨command, succeeds⟩
    have small := bite.capped
    have whole := bite.whole
    rw [Tape.serve, if_pos reads, Tape.answer, if_pos reads, isCount]
    have length : tape.taken + rdn.toNat - tape.taken = rdn.toNat := by omega
    refine ⟨?_, ?_, ?_⟩
    · show (BitVec.ofNat 8 rdn.toNat).toNat = tape.taken + rdn.toNat - tape.taken
      rw [length, BitVec.ofNat_toNat, BitVec.setWidth_eq]
    · intro index inside
      exact if_pos (length ▸ inside)
    · show Tape.Left _ ((tape.taken + rdn.toNat - tape.taken) / 8)
      rw [length]
      exact left_read left framed whole
  · rename_i fails
    have notRead : ¬ Tape.reads outcome request = true := fun reads =>
      fails (reads_iff.mp reads).2
    rw [serve_idle (by rw [command]; decide) notRead]
    exact left

/-- A batch starts where the last one ended and is whole frames. -/
theorem framed_read (framed : tape.Framed) (asked : ReadAsked rdn tape request) :
    Tape.Framed (tape.serve outcome request) := by
  obtain ⟨command, tx, bite, -⟩ := asked
  have isCount := asked_count tx
  unfold Tape.serve
  split
  · have small := bite.capped
    have whole := bite.whole
    have taken := framed.taken
    rw [isCount]
    refine ⟨?_, taken, Nat.le_add_right _ _, Nat.add_le_add_left small _⟩
    show (tape.taken + rdn.toNat) % 8 = 0
    omega
  · rw [if_neg (by rw [command]; decide)]
    exact ⟨framed.taken, framed.batch, framed.short⟩

/-- The transaction a state waits for is executed, with any outcome. -/
theorem agree_serve {nst : NetState} (agree : Agree nst seq rdn cart tape)
    (framed : tape.Framed) (launched : cart.stage = .launched request) :
    (tape.serve outcome request).Framed ∧
      Agree nst seq rdn { cart with stage := .served (tape.answer outcome request) }
        (tape.serve outcome request) := by
  have busy : cart.stage ≠ .idle := by
    rw [launched]
    exact Stage.noConfusion
  cases nst with
  | idle => exact agree.elim
  | fail => exact agree.elim
  | wiss => exact absurd agree.1 busy
  | siss => exact absurd agree.1 busy
  | riss => exact absurd agree.1 busy
  | cons => exact absurd agree.1 busy
  | wack =>
      have asked : request.command = ncWrite := awaiting_asked agree.2 launched
      have notRead : ¬ Tape.reads outcome request = true := by
        rw [reads_iff, asked]
        exact fun reads => absurd reads.1 (by decide)
      rw [serve_idle (by rw [asked]; decide) notRead]
      exact ⟨⟨framed.taken, framed.batch, framed.short⟩, agree.1,
        awaiting_served agree.2 launched answer_acks fun _ => trivial⟩
  | sack =>
      have asked : request.command = ncStat := awaiting_asked agree.2 launched
      have notRead : ¬ Tape.reads outcome request = true := by
        rw [reads_iff, asked]
        exact fun reads => absurd reads.1 (by decide)
      have served : tape.serve outcome request =
          { tape with status := Tape.reported outcome.fnRply } := by
        rw [Tape.serve, if_neg notRead, if_pos asked]
      have answered : StatAnswer { tape with status := Tape.reported outcome.fnRply }
          (tape.answer outcome request) := by
        rw [Tape.answer, if_neg notRead]
        rfl
      rw [served]
      exact ⟨⟨framed.taken, framed.batch, framed.short⟩, agree.1,
        awaiting_served agree.2 launched answer_acks fun _ => answered⟩
  | rack =>
      have awaiting : Seat.Awaiting seq cart (ReadAsked rdn tape) (ReadAnswer tape) := agree
      have answered : Seat.Awaiting seq
          { cart with stage := .served (tape.answer outcome request) }
          (ReadAsked rdn (tape.serve outcome request))
          (ReadAnswer (tape.serve outcome request)) :=
        awaiting_served awaiting launched answer_acks (read_answer framed)
      exact ⟨framed_read framed (awaiting_asked awaiting launched), answered⟩

theorem serve_cases (taken : intake.serve outcome = some after) :
    ∃ request, intake.cart.stage = .launched request ∧
      after = { intake with
        cart := { intake.cart with stage := .served (intake.tape.answer outcome request) }
        tape := intake.tape.serve outcome request } := by
  unfold serve at taken
  split at taken
  · rename_i request launched
    exact ⟨request, launched, (Option.some.inj taken).symm⟩
  · cases taken

theorem known_serve (known : Known intake) (taken : intake.serve outcome = some after) :
    Known after := by
  obtain ⟨request, launched, rfl⟩ := serve_cases taken
  obtain ⟨framed, agree⟩ := agree_serve known.agree known.framed launched
  exact ⟨known.truthful, framed, agree⟩

theorem agree_ack {nst : NetState} {reply : Painted} (agree : Agree nst seq rdn cart tape)
    (served : cart.stage = .served reply) :
    Agree nst seq rdn { painted := reply, stage := .idle } tape := by
  have busy : cart.stage ≠ .idle := by
    rw [served]
    exact Stage.noConfusion
  cases nst with
  | idle => exact agree
  | fail => exact agree
  | wiss => exact absurd agree.1 busy
  | siss => exact absurd agree.1 busy
  | riss => exact absurd agree.1 busy
  | cons => exact absurd agree.1 busy
  | wack => exact ⟨agree.1, Seat.awaiting_ack agree.2 served⟩
  | sack => exact ⟨agree.1, Seat.awaiting_ack agree.2 served⟩
  | rack =>
      have awaiting : Seat.Awaiting seq cart (ReadAsked rdn tape) (ReadAnswer tape) := agree
      exact Seat.awaiting_ack awaiting served

theorem known_ack (known : Known intake) (taken : intake.ack = some after) : Known after := by
  unfold ack at taken
  split at taken
  · rename_i reply served
    obtain rfl := Option.some.inj taken
    exact ⟨known.truthful, known.framed, agree_ack known.agree served⟩
  · cases taken

theorem known_next (known : Known intake) (taken : intake.next act = some after) :
    Known after := by
  cases act with
  | hook ports ram => exact known_hook known taken
  | step => exact known_step known taken
  | spin => exact known_spin known taken
  | serve outcome => exact known_serve known taken
  | ack => exact known_ack known taken

theorem known_run (isRole : role = 0 ∨ role = dgeRole)
    (run : Run Step always (start role seq ram painted stream) intake) : Known intake := by
  refine run.invariant Known (known_start isRole) ?_
  intro before act after known _ taken
  exact known_next known taken

/-! ### What is asked for and what is examined -/

/-- The transaction the next step issues. -/
def issued (intake : Intake) : Option Request :=
  (intake.desk.step intake.cart.painted).bind (·.2)

/-- A READ is for whole frames, at most thirty-one, that the STATUS just before it
reported. -/
def AsksReported (intake : Intake) : Prop :=
  ∀ request, intake.issued = some request → request.command = ncRead →
    0 < Cart.count request ∧ Cart.count request % 8 = 0 ∧ Cart.count request ≤ 248 ∧
      Cart.count request ≤ intake.tape.status

/-- A READ that succeeds takes the bytes from a frame boundary on. -/
def ReadsAligned (intake : Intake) : Prop :=
  ∀ request outcome after, intake.cart.stage = .launched request →
    Tape.reads outcome request = true → intake.serve outcome = some after →
      intake.tape.taken % 8 = 0 ∧ after.tape.batch = intake.tape.taken ∧
        after.tape.taken = intake.tape.taken + Cart.count request

/-- A record that is examined stands inside the part of the reply window that the
READ filled, is a frame of its batch, and has not been examined before. -/
def ExaminesOnce (intake : Intake) : Prop :=
  ∀ after, intake.examining = true → intake.step = some after →
    intake.desk.console.cursor + 8 ≤ intake.tape.taken - intake.tape.batch ∧
      (∀ offset < 8, intake.cart.painted.fnRply (intake.desk.console.cursor + offset) =
        intake.tape.stream (8 * intake.frame + offset)) ∧
      intake.tape.batch / 8 ≤ intake.frame ∧ intake.frame < intake.tape.taken / 8 ∧
      intake.frame ∉ intake.tape.examined ∧
      after.tape.examined = intake.tape.examined ++ [intake.frame]

/-- A WRITE finds every frame taken examined, and examined once. -/
def WritesExamined (intake : Intake) : Prop :=
  ∀ request, intake.issued = some request → request.command = ncWrite →
    intake.tape.examined.Perm (List.range (intake.tape.taken / 8))

/-- Only the three launching states issue a transaction, each its own. -/
theorem issued_cases (isIssued : intake.issued = some request) :
    (intake.desk.console.dgNst = .wiss ∧ request.command = ncWrite) ∨
      (intake.desk.console.dgNst = .siss ∧ request.command = ncStat) ∨
      (intake.desk.console.dgNst = .riss ∧ request.command = ncRead ∧
        request.tx = [2, intake.desk.console.dgRdn, 0]) := by
  obtain ⟨⟨desk, isRequest⟩, stepped, rfl⟩ := Option.bind_eq_some_iff.mp isIssued
  have launches := (Desk.step_cases stepped).request
  cases state : intake.desk.console.dgNst with
  | wiss =>
      rw [dgNstep, state] at launches
      obtain rfl := Option.some.inj launches
      exact Or.inl ⟨rfl, rfl⟩
  | siss =>
      rw [dgNstep, state] at launches
      obtain rfl := Option.some.inj launches
      exact Or.inr (Or.inl ⟨rfl, rfl⟩)
  | riss =>
      rw [dgNstep, state] at launches
      obtain rfl := Option.some.inj launches
      exact Or.inr (Or.inr ⟨rfl, rfl, rfl⟩)
  | idle | wack | sack | rack | cons | fail =>
      rw [dgNstep, state] at launches
      cases launches

theorem asks_reported (known : Known intake) : intake.AsksReported := by
  intro request isIssued isRead
  rcases issued_cases isIssued with ⟨-, isWrite⟩ | ⟨-, isStat⟩ | ⟨state, -, tx⟩
  · exact absurd (isWrite.symm.trans isRead) (by decide)
  · exact absurd (isStat.symm.trans isRead) (by decide)
  · have agree := known.agree
    rw [state] at agree
    have bite := agree.2.2
    rw [asked_count tx]
    have positive : intake.desk.console.dgRdn.toNat ≠ 0 :=
      fun zero => bite.some (BitVec.eq_of_toNat_eq zero)
    exact ⟨Nat.pos_of_ne_zero positive, bite.whole, bite.capped, bite.reported⟩

theorem reads_aligned (known : Known intake) : intake.ReadsAligned := by
  intro request outcome after launched reads taken
  obtain ⟨request', launched', rfl⟩ := serve_cases taken
  obtain rfl : request' = request := Stage.launched.inj (launched'.symm.trans launched)
  refine ⟨known.framed.taken, ?_, ?_⟩
  · show (Tape.serve outcome request' intake.tape).batch = _
    rw [Tape.serve, if_pos reads]
  · show (Tape.serve outcome request' intake.tape).taken = _
    rw [Tape.serve, if_pos reads]

/-- What is left to examine has not been examined. -/
theorem left_fresh {records : Nat} (left : tape.Left (records + 1)) :
    tape.batch / 8 + records ∉ tape.examined := by
  intro already
  have distinct : (tape.examined ++ List.range' (tape.batch / 8) (records + 1)).Nodup :=
    left.symm.nodup List.nodup_range
  have apart := (List.nodup_append.mp distinct).2.2
  apply apart _ already (tape.batch / 8 + records)
  · rw [List.mem_range'_1]
    omega
  · rfl

theorem examines_once (known : Known intake) : intake.ExaminesOnce := by
  intro after examining taken
  obtain ⟨records, isNext⟩ := examines known examining
  obtain ⟨state, -⟩ := examining_iff.mp examining
  obtain ⟨⟨desk, request⟩, stepped, rfl⟩ := Option.map_eq_some_iff.mp taken
  have agree := known.agree
  rw [state] at agree
  obtain ⟨-, -, shows, left⟩ := agree
  rw [isNext.count] at left
  have cursor := isNext.cursor
  have inside := isNext.inside
  have frame := isNext.frame
  have batch := known.framed.batch
  refine ⟨inside, ?_, ?_, ?_, ?_, ?_⟩
  · intro offset small
    rw [shows _ (by omega)]
    congr 1
    omega
  · rw [frame]
    exact Nat.le_add_right _ _
  · rw [frame]
    omega
  · rw [frame]
    exact left_fresh left
  · show Tape.examined (if intake.examining = true then _ else _) = _
    rw [if_pos examining]

theorem writes_examined (known : Known intake) : intake.WritesExamined := by
  intro request isIssued isWrite
  rcases issued_cases isIssued with ⟨state, -⟩ | ⟨-, isStat⟩ | ⟨-, isRead, -⟩
  · have agree := known.agree
    rw [state] at agree
    have left := agree.2
    unfold Tape.Left at left
    rw [List.range'_zero, List.append_nil] at left
    exact left
  · exact absurd (isStat.symm.trans isWrite) (by decide)
  · exact absurd (isRead.symm.trans isWrite) (by decide)

/-- The machine is in the cycle, in one of the seven states between `idle` and
`fail`. -/
theorem known_cycle (known : Known intake) :
    intake.desk.console.dgNst.cell ∈ ([2, 4, 6, 8, 10, 12, 14] : List Byte) := by
  have agree := known.agree
  cases state : intake.desk.console.dgNst with
  | idle | fail =>
      rw [state] at agree
      exact agree.elim
  | wiss | wack | siss | sack | riss | rack | cons => decide

/-- The cartridge fails or succeeds, with this many bytes waiting. -/
def waiting (err : Byte) (count : Nat) : Painted where
  fnAcks := 0
  fnErr := err
  fnRxLo := 0
  fnRply := Cart.statusReply count

/-- One transaction, from the step that issues it to the step that sees its
answer. -/
def transaction (outcome : Painted) : List Act := [.step, .serve outcome, .ack, .step]

/-- The first READ fails, the second returns two frames and leaves three bytes of
a third, and one of the two is examined. -/
def firstReads : List Act :=
  [.hook ⟨0xFF, 0xFF, 0xFF, 0xFF⟩ fun _ => 0] ++
    transaction (waiting 0 0) ++ transaction (waiting 0 19) ++ transaction (waiting 1 0) ++
    transaction (waiting 0 0) ++ transaction (waiting 0 19) ++ transaction (waiting 0 0) ++
    [.step]

end Intake

end DragsterNet
