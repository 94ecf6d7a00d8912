/-
Module: DragsterNet.Console.Record
Purpose: A record, once sent, is immutable and truthful: what every WRITE of one
  console carries, whatever the mailbox shows and however often it stalls.
Trusted boundary: none
Main exports: Desk.recordFor, Desk.Truthful, Desk.truthful_next,
  Desk.writes_truthful
-/
import DragsterNet.Console.Ticks
import DragsterNet.Lib.Steps

namespace DragsterNet

open Lib

namespace Desk

open Console

variable {ports : Ports} {ram : Ram} {painted : Painted} {desk after : Desk}
  {request : Option Request}

/-- The record of a tick as the captures and checksums give it: the window of
three ticks ending `d` ahead and the checksum sampled on entering the tick. -/
def recordFor (caps crcs : List Byte) (tick : Nat) : List Byte :=
  inputFrame (tickCell (tick + 2)) (captureFor caps (tick + 2))
    (captureFor caps (tick + 1)) (captureFor caps tick) (crcs.getD tick 0)

/-- Later boundaries do not change the record of an earlier tick. -/
theorem recordFor_append {caps crcs : List Byte} {byte crc : Byte} {tick : Nat}
    (samples : crcs.length = caps.length) (made : tick < caps.length) :
    recordFor (caps ++ [byte]) (crcs ++ [crc]) tick = recordFor caps crcs tick := by
  have sampled : (crcs ++ [crc]).getD tick 0 = crcs.getD tick 0 := by
    rw [List.getD_eq_getElem?_getD, List.getD_eq_getElem?_getD,
      List.getElem?_append_left (by omega)]
  unfold recordFor
  rw [captureFor_append caps byte (by omega), captureFor_append caps byte (by omega),
    captureFor_append caps byte (by omega), sampled]

/-- The console's cells agree with the history of its boundaries.  `loc` is the
heart: the local ring holds the four newest ticks, of which a record sends
three. -/
structure Truthful (desk : Desk) : Prop where
  net : desk.console.bank = .game → desk.console.has dgeNet = true
  first : desk.caps = [] →
    desk.console.has dgeRan = true ∧ desk.console.has dgePh = false
  begun : desk.waiting = true → desk.caps ≠ []
  tick : desk.console.dgTick = tickCell (desk.caps.length - 1)
  samples : desk.crcs.length = desk.caps.length
  crcv : desk.caps ≠ [] →
    desk.console.dgCrcv = desk.crcs.getD (desk.caps.length - 1) 0
  loc : ∀ tick : Int, (desk.caps.length : Int) - 3 < tick →
    tick ≤ desk.caps.length + 1 →
    desk.console.dgLoc (localSlot (tickCell tick)) = captureFor desk.caps tick
  sent : ∀ sent ∈ desk.writes, sent.tick < desk.caps.length ∧
    sent.frame = recordFor desk.caps desk.crcs sent.tick

theorem start_has {role seq mask : Byte} : (start role seq ram).console.has mask =
    ((role ||| (dgeNet ||| dgeRan)) &&& mask != 0) := rfl

theorem truthful_start {role seq : Byte} (isRole : role = 0 ∨ role = dgeRole) :
    Truthful (start role seq ram) where
  net := by
    intro _
    rw [start_has]
    rcases isRole with rfl | rfl <;> decide
  first := by
    intro _
    rw [start_has, start_has]
    rcases isRole with rfl | rfl <;> decide
  begun := by simp [start]
  tick := rfl
  samples := rfl
  crcv := by simp [start]
  loc := by
    intro tick _ below
    have idle : tick < 2 := by
      simp only [start, List.length_nil] at below
      omega
    rw [captureFor, if_pos idle]
    rfl
  sent := by simp [start]

/-- The record sent now is the record of the newest boundary. -/
theorem record_eq (truthful : Truthful desk) (captured : desk.caps ≠ []) :
    desk.console.record =
      recordFor desk.caps desk.crcs (desk.caps.length - 1) := by
  have positive : 0 < desk.caps.length := List.length_pos_iff.mpr captured
  have ahead : desk.console.dgTick + dgD = tickCell (desk.caps.length + 1) := by
    rw [truthful.tick, tickCell_ahead]
    congr 1
    omega
  have cast : ((desk.caps.length - 1 : Nat) : Int) = desk.caps.length - 1 := by omega
  simp only [Console.record, recordFor, ahead, tickCell_pred, tickCell_pred_pred]
  rw [truthful.loc _ (by omega) (by omega),
    truthful.loc _ (by omega) (by omega), truthful.loc _ (by omega) (by omega),
    truthful.crcv captured, cast]
  congr 2 <;> omega

theorem truthful_step (truthful : Truthful desk)
    (taken : desk.step painted = some (after, request)) : Truthful after := by
  have stepped := step_cases taken
  have same : SameBoundary desk.console after.console := by
    rw [stepped.console]
    exact dgNstep_sameBoundary
  have captured := truthful.begun stepped.waiting
  refine ⟨?_, ?_, ?_, ?_, ?_, ?_, ?_, ?_⟩
  · rw [same.net, same.bank]
    exact truthful.net
  · rw [stepped.caps]
    exact fun none => absurd none captured
  · rw [stepped.caps]
    exact fun _ => captured
  · rw [same.tick, stepped.caps]
    exact truthful.tick
  · rw [stepped.crcs, stepped.caps]
    exact truthful.samples
  · rw [same.crcv, stepped.crcs, stepped.caps]
    exact truthful.crcv
  · rw [same.loc, stepped.caps]
    exact truthful.loc
  · rw [stepped.crcs, stepped.caps, stepped.writes]
    intro sent isSent
    split at isSent
    · rcases List.mem_append.mp isSent with old | new
      · exact truthful.sent sent old
      · obtain rfl := List.mem_singleton.mp new
        have positive : 0 < desk.caps.length := List.length_pos_iff.mpr captured
        exact ⟨Nat.sub_one_lt_of_lt positive, record_eq truthful captured⟩
    · exact truthful.sent sent isSent

/-- The boundary that advances writes one slot of the local ring, and the three
ticks behind it keep theirs. -/
theorem loc_capture {loc : Fin 4 → Byte} {caps : List Byte} (byte : Byte)
    (held : ∀ tick : Int, (caps.length : Int) - 3 < tick → tick ≤ caps.length + 1 →
      loc (localSlot (tickCell tick)) = captureFor caps tick) :
    ∀ tick : Int, (caps.length : Int) - 2 < tick → tick ≤ caps.length + 2 →
      Function.update loc (localSlot (tickCell (caps.length + 2))) byte
        (localSlot (tickCell tick)) = captureFor (caps ++ [byte]) tick := by
  intro tick above below
  by_cases newest : tick = caps.length + 2
  · rw [newest, Function.update_self, captureFor_newest]
  · have other : localSlot (tickCell tick) ≠ localSlot (tickCell (caps.length + 2)) := by
      rw [Ne, localSlot_tickCell]
      omega
    rw [Function.update_of_ne other, held tick (by omega) (by omega),
      captureFor_append caps byte (by omega)]

theorem truthful_hook (truthful : Truthful desk)
    (taken : desk.hook ports ram = some after) : Truthful after := by
  have net := truthful.net (hook_bank taken)
  obtain ⟨-, -, writes, waiting, hooked⟩ := hook_cases net taken
  cases hooked with
  | between phase quiet held bank' net' ran role caps crcs runs =>
      have captured : desk.caps ≠ [] := by
        intro none
        have noPhase : (desk.atHook ram).has dgePh = false := (truthful.first none).2
        rw [noPhase] at phase
        cases phase
      refine ⟨?_, ?_, ?_, ?_, ?_, ?_, ?_, ?_⟩
      · exact fun _ => net'.trans net
      · exact fun none => absurd (caps ▸ none) captured
      · exact fun _ => caps ▸ captured
      · rw [held.tick, caps]
        exact truthful.tick
      · rw [caps, crcs]
        exact truthful.samples
      · rw [held.crcv, caps, crcs]
        exact truthful.crcv
      · rw [held.loc, caps]
        exact truthful.loc
      · rw [writes, caps, crcs]
        exact truthful.sent
  | boundary phase decides held net' ran role mixed caps crcs runs =>
      cases advancing : (desk.atHook ram).has dgeRan with
      | true =>
          have committed := dgNt1_committed ports advancing
          rw [if_pos advancing] at caps crcs
          have length : (after.caps.length : Int) = desk.caps.length + 1 := by
            rw [caps]; simp
          refine ⟨?_, ?_, ?_, ?_, ?_, ?_, ?_, ?_⟩
          · exact fun stays => (net' stays).trans net
          · simp [caps]
          · simp [caps]
          · rw [held.tick, committed.tick, length]
            show desk.console.dgTick + 1 = _
            rw [truthful.tick, tickCell_succ]
            congr 1
            omega
          · rw [caps, crcs]
            simp [truthful.samples]
          · intro _
            rw [held.crcv, committed.crcv, caps, crcs]
            simp [← truthful.samples]
          · rw [held.loc, committed.loc, length]
            have slot : (desk.atHook ram).dgTick + 1 + dgD =
                tickCell (desk.caps.length + 2) := by
              show desk.console.dgTick + 1 + dgD = _
              rw [truthful.tick, tickCell_succ, tickCell_ahead]
              congr 1
              omega
            rw [slot, caps]
            intro tick above below
            exact loc_capture _ truthful.loc tick (by omega) (by omega)
          · rw [writes, caps, crcs]
            intro sent isSent
            obtain ⟨made, frame⟩ := truthful.sent sent isSent
            refine ⟨by simp; omega, ?_⟩
            rw [recordFor_append truthful.samples made]
            exact frame
      | false =>
          have retry := dgNt1_retry ports advancing
          rw [retry] at held
          have notAdvancing : ¬ (desk.atHook ram).has dgeRan = true := by simp [advancing]
          rw [if_neg notAdvancing] at caps crcs
          have captured : desk.caps ≠ [] := by
            intro none
            have firstRan : (desk.atHook ram).has dgeRan = true := (truthful.first none).1
            exact notAdvancing firstRan
          refine ⟨?_, ?_, ?_, ?_, ?_, ?_, ?_, ?_⟩
          · exact fun stays => (net' stays).trans net
          · exact fun none => absurd (caps ▸ none) captured
          · exact fun _ => caps ▸ captured
          · rw [held.tick, caps]
            exact truthful.tick
          · rw [caps, crcs]
            exact truthful.samples
          · rw [held.crcv, caps, crcs]
            exact truthful.crcv
          · rw [held.loc, caps]
            exact truthful.loc
          · rw [writes, caps, crcs]
            exact truthful.sent

theorem truthful_next {act : Act} (truthful : Truthful desk)
    (taken : desk.next act = some after) : Truthful after := by
  cases act with
  | hook ports ram => exact truthful_hook truthful taken
  | step painted =>
      obtain ⟨⟨stepped, request⟩, taken', rfl⟩ := Option.map_eq_some_iff.mp taken
      exact truthful_step truthful taken'
  | spin =>
      obtain rfl := spin_cases taken
      exact ⟨truthful.net, truthful.first, by simp, truthful.tick, truthful.samples,
        truthful.crcv, truthful.loc, truthful.sent⟩

theorem truthful_run {role seq : Byte} (isRole : role = 0 ∨ role = dgeRole)
    (run : Run Step always (start role seq ram) desk) : Truthful desk :=
  run.invariant Truthful (truthful_start isRole) fun truthful _ taken =>
    truthful_next truthful taken

/-- A record, once sent, is immutable and truthful: in every run of one console
from the hand-over, each WRITE carries the record of the tick it was issued in,
and two WRITEs of one tick are the same bytes. -/
theorem writes_truthful {role seq : Byte} (isRole : role = 0 ∨ role = dgeRole)
    (run : Run Step always (start role seq ram) desk) :
    desk.console.dgTick = tickCell (desk.caps.length - 1) ∧
      desk.crcs.length = desk.caps.length ∧
      (∀ sent ∈ desk.writes, sent.tick < desk.caps.length ∧
        sent.frame = recordFor desk.caps desk.crcs sent.tick) ∧
      ∀ one ∈ desk.writes, ∀ two ∈ desk.writes,
        one.tick = two.tick → one.frame = two.frame := by
  have truthful := truthful_run isRole run
  refine ⟨truthful.tick, truthful.samples, truthful.sent, ?_⟩
  intro one isOne two isTwo same
  rw [(truthful.sent one isOne).2, (truthful.sent two isTwo).2, same]

/-- A mailbox that has answered `seq` and reports a healthy empty socket. -/
def quiet (seq : Byte) : Painted where
  fnAcks := seq
  fnErr := 0
  fnRxLo := 0
  fnRply := fun index => if index = nsDevSt then 1 else 0

/-- The guest presses its trigger at the first boundary, releases it on a
boundary that is only a retry, and writes its record on both sides of it. -/
def retriedBoundary : List Act :=
  [.hook ⟨0xFF, 0xFF, 0x00, 0xFF⟩ fun _ => 0, .step (quiet 0), .step (quiet 1), .spin,
    .hook ⟨0xFF, 0xFF, 0xFF, 0xFF⟩ fun _ => 1, .step (quiet 1), .step (quiet 2),
    .step (quiet 2)]

theorem writes_truthful_retried : ∃ desk : Desk,
    desk.writes.map Sent.tick = [0, 0] ∧
      desk.console.dgTick = tickCell (desk.caps.length - 1) ∧
      desk.crcs.length = desk.caps.length ∧
      (∀ sent ∈ desk.writes, sent.tick < desk.caps.length ∧
        sent.frame = recordFor desk.caps desk.crcs sent.tick) ∧
      ∀ one ∈ desk.writes, ∀ two ∈ desk.writes,
        one.tick = two.tick → one.frame = two.frame := by
  have ticks : (retriedBoundary.foldlM next (start dgeRole 0 fun _ => 0)).map
      (fun desk => desk.writes.map Sent.tick) = some [0, 0] := by decide +kernel
  obtain ⟨desk, executed, written⟩ := Option.map_eq_some_iff.mp ticks
  exact ⟨desk, written, writes_truthful (Or.inr rfl) (Run.of_foldlM executed)⟩

end Desk

end DragsterNet
