/-
Module: DragsterNet.Console.Parting
Purpose: What becomes of a PEER_LEFT between the step that consumes it and the
  first frame whose gate stalls.
Trusted boundary: none
Main exports: Parting, Parting.Marked, Parting.leave_heeded_iff,
  Parting.leave_forgotten
-/
import DragsterNet.Console.Watchdog

namespace DragsterNet

open Lib

/-- A console; whether it has consumed a PEER_LEFT that no frame has stalled on
since; and how many ticks it has run since the last PEER_LEFT. -/
structure Parting where
  desk : Desk
  left : Bool
  ticks : Nat

namespace Parting

open Console

variable {ports : Ports} {painted : Painted} {now ram : Ram} {parting after : Parting}
  {act : Desk.Act} {role seq : Byte}

def start (role seq : Byte) (ram : Ram) : Parting where
  desk := Desk.start role seq ram
  left := false
  ticks := 0

/-- A frame that stalls is the one that PEER_LEFT was kept for. -/
def leftAfter (parting : Parting) : Desk.Act → Bool
  | .hook ports ram => parting.left && !(parting.desk.atHook ram).stalls ports
  | .step painted => parting.left || parting.desk.console.readsLeft painted
  | .spin => parting.left

def ticksAfter (parting : Parting) : Desk.Act → Nat
  | .hook ports ram =>
      if (parting.desk.atHook ram).runsTick ports then parting.ticks + 1 else parting.ticks
  | .step painted => if parting.desk.console.readsLeft painted then 0 else parting.ticks
  | .spin => parting.ticks

def next (parting : Parting) (act : Desk.Act) : Option Parting :=
  (parting.desk.next act).map fun desk =>
    { desk := desk, left := parting.leftAfter act, ticks := parting.ticksAfter act }

def Step (before : Parting) (act : Desk.Act) (after : Parting) : Prop :=
  before.next act = some after

/-- In a match the high nibble of `DGERR` is full as long as no tick has run since
PEER_LEFT, and empty as soon as one has. -/
structure Marked (parting : Parting) : Prop where
  net : parting.desk.console.has dgeNet = true
  count : parting.left = true →
    parting.desk.console.stallCount = if parting.ticks = 0 then 15 else 0

theorem start_marked : Marked (start role seq ram) where
  net := (by decide : ∀ role : Byte, (role ||| (dgeNet ||| dgeRan)) &&& dgeNet != 0) role
  count left := Bool.noConfusion left

/-- PEER_LEFT fills the nibble. -/
theorem dgNstep_left {console : Console} (reads : console.readsLeft painted = true) :
    (dgNstep painted console).1.stallCount = 15 := by
  obtain ⟨⟨isCons, more⟩, isLeft⟩ : (console.dgNst = .cons ∧ console.dgRdn ≠ 0) ∧
      painted.fnRply (console.cursor + 1) = wtLeft := by
    simpa [readsLeft] using reads
  have notInput : ¬ painted.fnRply (console.cursor + 1) = wtInput := by
    rw [isLeft]
    decide
  unfold dgNstep
  rw [isCons]
  simp only [dgsCons]
  rw [if_neg more, consumeAt, if_neg notInput, if_pos isLeft]
  exact (by decide : ((0xF0 ||| fnePeer) >>> 4).toNat = 15)

/-- Errors and other records leave it as it is. -/
theorem marked_step (marked : Marked parting)
    (taken : parting.next (.step painted) = some after) : Marked after := by
  obtain ⟨desk, moved, rfl⟩ := Option.map_eq_some_iff.mp taken
  obtain ⟨⟨stepped, request⟩, taken', rfl⟩ := Option.map_eq_some_iff.mp moved
  have isStep := Desk.step_cases taken'
  have same : SameBoundary parting.desk.console stepped.console := by
    rw [isStep.console]
    exact dgNstep_sameBoundary
  refine ⟨same.net.trans marked.net, fun left => ?_⟩
  have isStepped : stepped.console.stallCount =
      (dgNstep painted parting.desk.console).1.stallCount :=
    congrArg stallCount isStep.console
  change stepped.console.stallCount = if parting.ticksAfter (.step painted) = 0 then 15 else 0
  rw [isStepped]
  by_cases reads : parting.desk.console.readsLeft painted = true
  · have none_ : parting.ticksAfter (.step painted) = 0 := if_pos reads
    rw [none_, dgNstep_left reads]
    rfl
  · have other := Bool.eq_false_iff.mpr reads
    have same : parting.ticksAfter (.step painted) = parting.ticks := if_neg reads
    have before : parting.left = true := by
      have noted : (parting.left || parting.desk.console.readsLeft painted) = true := left
      rwa [other, Bool.or_false] at noted
    rw [same, dgNstep_count other]
    exact marked.count before

/-- A frame that stalls finds the nibble as the last PEER_LEFT or the last tick has
left it; any other frame keeps the record. -/
theorem marked_hook (marked : Marked parting)
    (taken : parting.next (.hook ports now) = some after) :
    (after.desk.console.bank = .game → Marked after) ∧
      (parting.left = true → (parting.desk.atHook now).stalls ports = true →
        (after.desk.console.bank = .boot ↔ parting.ticks = 0) ∧
        (parting.ticks ≠ 0 → after.desk.console.stallCount = 1)) := by
  obtain ⟨desk, hooked, rfl⟩ := Option.map_eq_some_iff.mp taken
  have bank := Desk.hook_bank hooked
  have isShim := Desk.hook_console hooked
  have net : (parting.desk.atHook now).has dgeNet = true := marked.net
  have stays := Vigil.hook_net marked.net hooked
  have count : parting.left = true → (parting.desk.atHook now).stallCount =
      if parting.ticks = 0 then 15 else 0 := marked.count
  have frame := @dgShim_counts ports _ net
  rw [← isShim] at frame
  cases frame with
  | between inside err same =>
      have noTick : (parting.desk.atHook now).runsTick ports = false := by
        simp [runsTick, atBoundary, inside]
      have noStall : (parting.desk.atHook now).stalls ports = false := by
        simp [stalls, atBoundary, inside]
      refine ⟨fun isGame => ⟨stays isGame, fun left => ?_⟩, fun _ stalled => ?_⟩
      · have before : parting.left = true := ((Bool.and_eq_true ..).mp left).1
        have same : desk.console.stallCount = (parting.desk.atHook now).stallCount :=
          congrArg (fun err : Byte => (err >>> 4).toNat) err
        simp only [ticksAfter, noTick]
        exact same.trans (count before)
      · rw [noStall] at stalled
        cases stalled
  | runs opened err same =>
      have noStall := runs_not_stalls opened
      refine ⟨fun isGame => ⟨stays isGame, fun _ => ?_⟩, fun _ stalled => ?_⟩
      · simp only [ticksAfter, opened, if_true, if_neg (Nat.succ_ne_zero _)]
        exact err
      · rw [noStall] at stalled
        cases stalled
  | stalls closed few err same start =>
      have isGame : desk.console.bank = .game := same.trans bank
      refine ⟨fun _ => ⟨stays isGame, fun left => ?_⟩, fun left _ => ?_⟩
      · have passed : (!(parting.desk.atHook now).stalls ports) = true :=
          ((Bool.and_eq_true ..).mp left).2
        rw [closed] at passed
        cases passed
      · have ran : parting.ticks ≠ 0 := by
          intro none_
          have full := count left
          rw [if_pos none_] at full
          exact few full
        have restarted := count left
        rw [if_neg ran] at restarted
        refine ⟨iff_of_false ?_ ran, fun _ => ?_⟩
        · rw [isGame]
          exact Bank.noConfusion
        · rw [err, restarted]
  | gone closed full boot =>
      refine ⟨fun isGame => ?_, fun left _ => ?_⟩
      · rw [boot] at isGame
        cases isGame
      · have none_ : parting.ticks = 0 := by
          by_contra ran
          have restarted := count left
          rw [if_neg ran, full] at restarted
          cases restarted
        exact ⟨iff_of_true boot none_, fun ran => absurd none_ ran⟩

/-- Once the boot bank has taken over there are no more frames. -/
theorem marked_next (marked : parting.desk.console.bank = .game → Marked parting)
    (taken : parting.next act = some after) (isGame : after.desk.console.bank = .game) :
    Marked after := by
  obtain ⟨desk, moved, isAfter⟩ := Option.map_eq_some_iff.mp taken
  cases act with
  | hook ports now => exact (marked_hook (marked (Desk.hook_bank moved)) taken).1 isGame
  | step painted =>
      obtain ⟨⟨stepped, request⟩, taken', rfl⟩ := Option.map_eq_some_iff.mp moved
      have bank : stepped.console.bank = parting.desk.console.bank := by
        rw [(Desk.step_cases taken').console]
        exact dgNstep_sameBoundary.bank
      subst isAfter
      exact marked_step (marked (bank.symm.trans isGame)) taken
  | spin =>
      obtain rfl := Desk.spin_cases moved
      subst isAfter
      have kept := marked isGame
      exact ⟨kept.net, kept.count⟩

theorem marked_run (run : Run Step always (start role seq ram) parting) :
    parting.desk.console.bank = .game → Marked parting := by
  apply run.invariant (fun parting => parting.desk.console.bank = .game → Marked parting)
  · intro _
    exact start_marked
  · intro before act after marked _ taken
    exact marked_next marked taken

/-- In every run, the first frame to stall after a PEER_LEFT gives the peer up exactly
when no tick has run since the last PEER_LEFT; otherwise its stall is the first of a
new count. -/
theorem leave_heeded_iff (run : Run Step always (start role seq ram) parting)
    (left : parting.left = true) (stalled : (parting.desk.atHook now).stalls ports = true)
    (frame : parting.next (.hook ports now) = some after) :
    (after.desk.console.bank = .boot ↔ parting.ticks = 0) ∧
      (parting.ticks ≠ 0 → after.desk.console.stallCount = 1) := by
  obtain ⟨desk, hooked, -⟩ := Option.map_eq_some_iff.mp frame
  have marked := marked_run run (Desk.hook_bank hooked)
  exact (marked_hook marked frame).2 left stalled

/-! ### Two partings -/

open Reel

/-- The first boundary stalls, and the transport reads `count` records. -/
def reading (count : Byte) (batch : Nat → Byte) : List Desk.Act :=
  [frameAt 0 0, .step (Desk.quiet 0), .step (Desk.quiet 1), .step (Desk.quiet 1),
    .step { Desk.quiet 2 with
      fnRply := fun index =>
        if index = nsAvLo then 8 * count else if index = nsDevSt then 1 else 0 },
    .step (Desk.quiet 2),
    .step { Desk.quiet 3 with fnRxLo := 8 * count, fnRply := batch }] ++
    List.replicate count.toNat (.step { Desk.quiet 3 with fnRply := batch }) ++ [.spin]

/-- A frame of PEER_LEFT. -/
def leftFrame : List Byte := [irLen - 1, wtLeft, 0, 0, 0, 0, 0, 0]

/-- Nothing but PEER_LEFT has come: the boundary that stalled gives up when it is
retried. -/
theorem leave_heeded_alone : ∃ parting after : Parting,
    parting.left = true ∧ parting.ticks = 0 ∧
      parting.next (.hook idlePorts blank) = some after ∧ after.desk.console.bank = .boot := by
  have outcome : ((reading 1 fun index => leftFrame.getD index 0).foldlM next
      (start 0 0 blank)).map (fun parting => (parting.left, parting.ticks,
        (parting.desk.atHook blank).stalls idlePorts,
        (parting.next (.hook idlePorts blank)).isSome)) = some (true, 0, true, true) := by
    decide +kernel
  obtain ⟨parting, executed, isParting⟩ := Option.map_eq_some_iff.mp outcome
  simp only [Prod.mk.injEq] at isParting
  obtain ⟨left, none_, stalled, isFrame⟩ := isParting
  obtain ⟨after, frame⟩ := Option.isSome_iff_exists.mp isFrame
  have heeded := leave_heeded_iff (Run.of_foldlM executed) left stalled frame
  exact ⟨parting, after, left, none_, frame, heeded.1.mpr none_⟩

/-- The peer's record of its tick 0 and its PEER_LEFT are read in one batch, the
PEER_LEFT first.  Three ticks run, and the boundary of the fourth stalls and counts
one. -/
theorem leave_forgotten : ∃ parting after : Parting,
    Run Step always (start 0 0 blank) parting ∧ parting.left = true ∧
      (parting.desk.atHook blank).stalls idlePorts = true ∧
      parting.next (.hook idlePorts blank) = some after ∧
      after.desk.console.bank = .game ∧ after.desk.console.stallCount = 1 := by
  have outcome : ((reading 2 (fun index =>
      (inputFrame 2 0xFF 0xFF 0xFF 0 ++ leftFrame).getD index 0) ++
        (List.replicate 12 [frameAt 0 0, .spin]).flatten).foldlM next (start 0 0 blank)).map
      (fun parting => (parting.left, (parting.desk.atHook blank).stalls idlePorts,
        (parting.next (.hook idlePorts blank)).map fun after =>
          (after.desk.console.bank, after.desk.console.stallCount))) =
            some (true, true, some (.game, 1)) := by decide +kernel
  obtain ⟨parting, executed, isParting⟩ := Option.map_eq_some_iff.mp outcome
  simp only [Prod.mk.injEq] at isParting
  obtain ⟨left, stalled, isFrame⟩ := isParting
  obtain ⟨after, frame, isAfter⟩ := Option.map_eq_some_iff.mp isFrame
  obtain ⟨bank, count⟩ := Prod.mk.inj isAfter
  exact ⟨parting, after, Run.of_foldlM executed, left, stalled, frame, bank, count⟩

end Parting

end DragsterNet
