/-
Module: DragsterNet.Console.Watchdog
Purpose: The count of stalls in the high nibble of `DGERR` over runs of frames,
  and the frame on which it gives the peer up.
Trusted boundary: none
Main exports: Vigil, Vigil.Unparted, Vigil.Waits, Vigil.watchdog_waits_iff,
  Vigil.watchdog_impatient
-/
import DragsterNet.Console.Clock

namespace DragsterNet

open Lib

/-- Frames in a tick. -/
def dgK : Nat := 4

namespace Console

variable {ports : Ports} {painted : Painted} {console : Console}

/-- This boundary stalls. -/
def stalls (ports : Ports) (console : Console) : Bool :=
  console.atBoundary && !(console.dgNt1 ports).gateOpen

/-- The high nibble of `DGERR`. -/
def stallCount (console : Console) : Nat := (console.dgErr >>> 4).toNat

theorem nibble_clear : ∀ err : Byte, ((err &&& 0x0F) >>> 4).toNat = 0 := by decide

theorem nibble_fail : ∀ err : Byte, ((err &&& 0xF0) ||| fneBad) >>> 4 = err >>> 4 := by decide

theorem nibble_next : ∀ err : Byte, err < 0xF0 →
    ((err + 0x10) >>> 4).toNat = (err >>> 4).toNat + 1 := by decide

theorem nibble_full : ∀ err : Byte, err < 0xF0 ↔ (err >>> 4).toNat ≠ 15 := by decide

/-! ### A frame -/

theorem dgNt1_err (ports : Ports) (console : Console) :
    (dgNt1 ports console).dgErr = console.dgErr ∧ (dgNt1 ports console).bank = console.bank := by
  unfold dgNt1
  split
  · rcases dgCap_console ports console.sample with same | same
    · rw [same]
      exact ⟨rfl, rfl⟩
    · rw [same]
      exact ⟨rfl, rfl⟩
  · exact ⟨rfl, rfl⟩

/-- What a frame of a match does to the count: nothing within a tick; a tick that
runs clears it; a stall counts, or gives up. -/
inductive Counts (ports : Ports) (before after : Console) : Prop where
  | between (inside : before.has dgePh = true) (err : after.dgErr = before.dgErr)
      (bank : after.bank = before.bank)
  | runs (opened : before.runsTick ports = true) (err : after.stallCount = 0)
      (bank : after.bank = before.bank)
  | stalls (closed : before.stalls ports = true) (few : before.stallCount ≠ 15)
      (err : after.stallCount = before.stallCount + 1) (bank : after.bank = before.bank)
      (start : after.has dgePh = false)
  | gone (closed : before.stalls ports = true) (full : before.stallCount = 15)
      (bank : after.bank = .boot)

theorem dgShim_counts (net : console.has dgeNet = true) :
    Counts ports console (dgShim ports console) := by
  have shim : dgShim ports console = dgNet ports console.assume := if_pos net
  cases inside : console.has dgePh with
  | true =>
      have between : dgShim ports console = dgClk (dgPhi console.assume) := by
        rw [shim, dgNet, assume_has, if_pos inside]
      rw [between]
      exact .between inside rfl rfl
  | false =>
      have start : console.atBoundary = true := by
        unfold atBoundary
        rw [net, inside]
        rfl
      have boundary : dgShim ports console = dgNt1b ports (dgNt1 ports console).assume := by
        rw [shim, dgNet, assume_has, if_neg (by simp [inside]), dgNt1_assume]
      obtain ⟨err, bank⟩ := dgNt1_err ports console
      cases opened : (dgNt1 ports console).gateOpen with
      | true =>
          have runs : dgShim ports console = dgNt2 ports (dgNt1 ports console).assume :=
            boundary.trans (if_pos opened)
          have isRun : console.runsTick ports = true := by
            unfold runsTick
            rw [start, opened]
            rfl
          rw [runs]
          exact .runs isRun (nibble_clear _) bank
      | false =>
          have closed : ¬ (dgNt1 ports console).assume.gateOpen = true := by
            show ¬ (dgNt1 ports console).gateOpen = true
            simp [opened]
          have stalled : dgShim ports console = dgStall (dgNt1 ports console).assume :=
            boundary.trans (if_neg closed)
          have isStall : console.stalls ports = true := by
            unfold stalls
            rw [start, opened]
            rfl
          have sameErr : (dgNt1 ports console).assume.dgErr = console.dgErr := err
          have phase : (dgShim ports console).phase = console.phase := by
            rcases @dgShim_sim ports console net with ⟨-, late | open_⟩ | ⟨stalled, -, -⟩
            · have none_ := has_phase.symm.trans inside
              rw [bne_eq_false_iff_eq] at none_
              exact absurd none_ late
            · rw [opened] at open_
              cases open_
            · exact stalled.phase
          have retried : (dgShim ports console).has dgePh = false := by
            rw [has_phase, phase, ← has_phase, inside]
          rw [stalled] at retried ⊢
          unfold dgStall at retried ⊢
          by_cases few : console.dgErr < 0xF0
          · rw [sameErr, if_pos few] at retried ⊢
            exact .stalls isStall ((nibble_full _).mp few) (nibble_next _ few) bank retried
          · rw [sameErr, if_neg few]
            have full : console.stallCount = 15 :=
              not_not.mp fun short => few ((nibble_full _).mpr short)
            exact .gone isStall full rfl

theorem runs_not_stalls (opened : console.runsTick ports = true) :
    console.stalls ports = false := by
  have isOpen : (dgNt1 ports console).gateOpen = true := by
    simp only [runsTick, Bool.and_eq_true] at opened
    exact opened.2
  unfold stalls
  rw [isOpen]
  exact Bool.and_false _

/-! ### A step of the transport -/

/-- The record about to be consumed says that the peer has left. -/
def readsLeft (painted : Painted) (console : Console) : Bool :=
  console.dgNst == .cons && console.dgRdn != 0 && painted.fnRply (console.cursor + 1) == wtLeft

theorem detectDesync_err {tick crc : Byte} :
    (detectDesync tick crc console).dgErr = console.dgErr := by
  unfold detectDesync
  repeat' split
  all_goals rfl

theorem raiseWatermark_err {tick : Byte} :
    (raiseWatermark tick console).dgErr = console.dgErr := by
  unfold raiseWatermark
  split
  · rfl
  · rfl

theorem consumeAt_err {reply : Nat → Byte} {y : Nat} (stays : reply (y + 1) ≠ wtLeft) :
    (consumeAt reply y console).dgErr = console.dgErr := by
  unfold consumeAt
  split
  · split
    · rw [raiseWatermark_err, detectDesync_err]
      rfl
    · rfl
  · rfl

/-- Short of PEER_LEFT the transport leaves the count alone, its errors too. -/
theorem dgNstep_count (stays : console.readsLeft painted = false) :
    (dgNstep painted console).1.stallCount = console.stallCount := by
  have failed : (dgsFail console).stallCount = console.stallCount :=
    congrArg BitVec.toNat (nibble_fail console.dgErr)
  unfold dgNstep
  cases isState : console.dgNst with
  | wack =>
      simp only [dgsWack]
      repeat' split
      all_goals first | exact failed | rfl
  | sack =>
      simp only [dgsSack]
      repeat' split
      all_goals first | exact failed | rfl
  | rack =>
      simp only [dgsRack]
      repeat' split
      all_goals first | exact failed | rfl
  | cons =>
      simp only [dgsCons]
      split
      · rfl
      · rename_i more
        have other : ¬ console.dgRdn = 0 → painted.fnRply (console.cursor + 1) ≠ wtLeft := by
          simpa [readsLeft, isState] using stays
        have same : (consumeAt painted.fnRply console.cursor
            { console with dgRdn := console.dgRdn - 1 }).dgErr = console.dgErr :=
          consumeAt_err (other more)
        exact congrArg (fun err : Byte => (err >>> 4).toNat) same
  | fail => exact failed
  | idle | wiss | siss | riss => rfl

end Console

/-! ### Runs -/

/-- A console, and on how many frames in a row its gate has stalled. -/
structure Vigil where
  desk : Desk
  stalls : Nat

namespace Vigil

open Console

variable {ports : Ports} {now ram : Ram} {vigil after : Vigil} {act : Desk.Act} {role seq : Byte}

def start (role seq : Byte) (ram : Ram) : Vigil where
  desk := Desk.start role seq ram
  stalls := 0

def next (vigil : Vigil) (act : Desk.Act) : Option Vigil :=
  (vigil.desk.next act).map fun desk =>
    { desk := desk
      stalls :=
        match act with
        | .hook ports ram =>
            if (vigil.desk.atHook ram).stalls ports then vigil.stalls + 1 else 0
        | _ => vigil.stalls }

def Step (before : Vigil) (act : Desk.Act) (after : Vigil) : Prop :=
  before.next act = some after

/-- No PEER_LEFT is consumed. -/
def Unparted (vigil : Vigil) : Desk.Act → Prop
  | .step painted => vigil.desk.console.readsLeft painted = false
  | _ => True

instance (vigil : Vigil) (act : Desk.Act) : Decidable (Unparted vigil act) :=
  match act with
  | .step _ => inferInstanceAs (Decidable (_ = _))
  | .hook _ _ | .spin => isTrue trivial

/-- The count in the high nibble is the number of stalled frames in a row, which
are all boundaries. -/
structure Kept (vigil : Vigil) : Prop where
  net : vigil.desk.console.has dgeNet = true
  count : vigil.desk.console.stallCount = vigil.stalls
  start : vigil.stalls ≠ 0 → vigil.desk.console.has dgePh = false

theorem start_kept : Kept (start role seq ram) where
  net := (by decide : ∀ role : Byte, (role ||| (dgeNet ||| dgeRan)) &&& dgeNet != 0) role
  count := (by decide : ((0 : Byte) >>> 4).toNat = 0)
  start some_ := absurd rfl some_

/-- A frame that stays in the game's bank stays in the match. -/
theorem hook_net {desk hooked : Desk} (net : desk.console.has dgeNet = true)
    (taken : desk.hook ports now = some hooked) (isGame : hooked.console.bank = .game) :
    hooked.console.has dgeNet = true := by
  obtain ⟨-, -, -, -, frame⟩ := Desk.hook_cases net taken
  cases frame with
  | between _ _ _ _ net' _ _ _ _ _ => exact net'.trans net
  | boundary _ _ _ net' _ _ _ _ _ _ => exact (net' isGame).trans net

/-- A frame counts a stall or ends the row of them, or the peer is given up. -/
theorem kept_hook (kept : Kept vigil) (taken : vigil.next (.hook ports now) = some after) :
    (after.desk.console.bank = .game ∧ Kept after ∧
        ((vigil.desk.atHook now).stalls ports = true → vigil.stalls ≠ 15)) ∨
      (after.desk.console.bank = .boot ∧ (vigil.desk.atHook now).stalls ports = true ∧
        vigil.stalls = 15 ∧ after.stalls = 16) := by
  obtain ⟨desk, hooked, rfl⟩ := Option.map_eq_some_iff.mp taken
  have bank := Desk.hook_bank hooked
  have isShim := Desk.hook_console hooked
  have net : (vigil.desk.atHook now).has dgeNet = true := kept.net
  have count : (vigil.desk.atHook now).stallCount = vigil.stalls := kept.count
  have stays := hook_net kept.net hooked
  have frame := @dgShim_counts ports _ net
  rw [← isShim] at frame
  cases frame with
  | between inside err same =>
      have isGame : desk.console.bank = .game := same.trans bank
      have none_ : vigil.stalls = 0 := by
        by_contra some_
        have start : (vigil.desk.atHook now).has dgePh = false := kept.start some_
        rw [inside] at start
        cases start
      have off : (vigil.desk.atHook now).stalls ports = false := by
        simp [Console.stalls, atBoundary, inside]
      have sameCount : desk.console.stallCount = (vigil.desk.atHook now).stallCount :=
        congrArg (fun err : Byte => (err >>> 4).toNat) err
      refine Or.inl ⟨isGame, ⟨stays isGame, ?_, ?_⟩, fun stalled => ?_⟩
      · simp only [off]
        exact sameCount.trans (count.trans none_)
      · simp [off]
      · rw [off] at stalled
        cases stalled
  | runs opened err same =>
      have isGame : desk.console.bank = .game := same.trans bank
      have off : (vigil.desk.atHook now).stalls ports = false := runs_not_stalls opened
      refine Or.inl ⟨isGame, ⟨stays isGame, ?_, ?_⟩, fun stalled => ?_⟩
      · simp only [off]
        exact err
      · simp [off]
      · rw [off] at stalled
        cases stalled
  | stalls closed few err same start =>
      have isGame : desk.console.bank = .game := same.trans bank
      refine Or.inl ⟨isGame, ⟨stays isGame, ?_, fun _ => start⟩, fun _ full => ?_⟩
      · simp only [closed]
        exact err.trans (congrArg (· + 1) count)
      · exact few (count.trans full)
  | gone closed full boot =>
      have fifteen : vigil.stalls = 15 := count.symm.trans full
      refine Or.inr ⟨boot, closed, fifteen, ?_⟩
      simp only [closed, if_true]
      rw [fifteen]

/-- A tick that runs restarts the count. -/
theorem hook_restarts (kept : Kept vigil) (taken : vigil.next (.hook ports now) = some after)
    (opened : (vigil.desk.atHook now).runsTick ports = true) :
    after.desk.console.stallCount = 0 := by
  obtain ⟨desk, hooked, rfl⟩ := Option.map_eq_some_iff.mp taken
  have isShim := Desk.hook_console hooked
  have net : (vigil.desk.atHook now).has dgeNet = true := kept.net
  have closed := runs_not_stalls opened
  have frame := @dgShim_counts ports _ net
  rw [← isShim] at frame
  cases frame with
  | between inside _ _ =>
      have off : (vigil.desk.atHook now).runsTick ports = false := by
        simp [runsTick, atBoundary, inside]
      rw [opened] at off
      cases off
  | runs _ err _ => exact err
  | stalls closed' _ _ _ _ =>
      rw [closed] at closed'
      cases closed'
  | gone closed' _ _ =>
      rw [closed] at closed'
      cases closed'

/-- The boot bank has taken over. -/
structure Over (vigil : Vigil) : Prop where
  bank : vigil.desk.console.bank = .boot
  done : vigil.desk.waiting = false

theorem kept_next (kept : Kept vigil) (unparted : Unparted vigil act)
    (taken : vigil.next act = some after) : Kept after ∨ Over after := by
  cases act with
  | hook ports now =>
      rcases kept_hook kept taken with ⟨-, stays, -⟩ | ⟨boot, -⟩
      · exact Or.inl stays
      · obtain ⟨desk, hooked, rfl⟩ := Option.map_eq_some_iff.mp taken
        refine Or.inr ⟨boot, ?_⟩
        have bank : desk.console.bank = .boot := boot
        have waits := (Desk.hook_cases kept.net hooked).2.2.2.1
        rw [bank] at waits
        exact waits
  | step painted =>
      obtain ⟨desk, moved, rfl⟩ := Option.map_eq_some_iff.mp taken
      obtain ⟨⟨stepped, request⟩, taken', rfl⟩ := Option.map_eq_some_iff.mp moved
      have isStep := Desk.step_cases taken'
      have same : SameBoundary vigil.desk.console stepped.console := by
        rw [isStep.console]
        exact dgNstep_sameBoundary
      have count : stepped.console.stallCount = vigil.desk.console.stallCount := by
        rw [isStep.console]
        exact dgNstep_count unparted
      refine Or.inl ⟨same.net.trans kept.net, count.trans kept.count, fun some_ => ?_⟩
      have start := kept.start some_
      rw [has_phase] at start ⊢
      rw [same.phase]
      exact start
  | spin =>
      obtain ⟨desk, moved, rfl⟩ := Option.map_eq_some_iff.mp taken
      obtain rfl := Desk.spin_cases moved
      exact Or.inl ⟨kept.net, kept.count, kept.start⟩

theorem over_next (over_ : Over vigil) (taken : vigil.next act = some after) : False := by
  obtain ⟨desk, moved, rfl⟩ := Option.map_eq_some_iff.mp taken
  cases act with
  | hook ports now =>
      have bank := Desk.hook_bank moved
      rw [over_.bank] at bank
      cases bank
  | step painted =>
      obtain ⟨⟨stepped, request⟩, taken', rfl⟩ := Option.map_eq_some_iff.mp moved
      have waits := (Desk.step_cases taken').waiting
      rw [over_.done] at waits
      cases waits
  | spin =>
      have spun : vigil.desk.spin = some desk := moved
      unfold Desk.spin at spun
      rw [if_neg (by simp [over_.done])] at spun
      cases spun

/-- In every run without PEER_LEFT the count is kept, up to the frame that gives
the peer up. -/
theorem kept_run (run : Run Step Unparted (start role seq ram) vigil) :
    Kept vigil ∨ Over vigil := by
  apply run.invariant (fun vigil => Kept vigil ∨ Over vigil) (Or.inl start_kept)
  rintro before act after (kept | over_) unparted taken
  · exact kept_next kept unparted taken
  · exact (over_next over_ taken).elim

/-- The boot bank is entered only after fifteen ticks' worth of stalled frames in
a row, and a tick that runs restarts the count. -/
structure Waits (ports : Ports) (now : Ram) (vigil after : Vigil) : Prop where
  second : after.desk.console.bank = .boot → 15 * dgK ≤ after.stalls
  restarts : (vigil.desk.atHook now).runsTick ports = true → after.desk.console.stallCount = 0

/-- The gate stalls on this frame, and has on the fifteen before it. -/
def Sixteenth (ports : Ports) (now : Ram) (vigil : Vigil) : Prop :=
  (vigil.desk.atHook now).stalls ports = true ∧ vigil.stalls = 15

/-- In every run without PEER_LEFT the peer is given up on the sixteenth stalled
frame in a row and on no other one. -/
theorem watchdog_waits_iff (run : Run Step Unparted (start role seq ram) vigil)
    (frame : vigil.next (.hook ports now) = some after) :
    (after.desk.console.bank = .boot ↔ Sixteenth ports now vigil) ∧
      (Waits ports now vigil after ↔ ¬ Sixteenth ports now vigil) := by
  rcases kept_run run with kept | over_
  · have restarts := hook_restarts kept frame
    rcases kept_hook kept frame with ⟨isGame, -, few⟩ | ⟨boot, closed, full, count⟩
    · have stays : after.desk.console.bank ≠ .boot := by
        rw [isGame]
        exact Bank.noConfusion
      have early : ¬ Sixteenth ports now vigil := fun both => few both.1 both.2
      exact ⟨iff_of_false stays early,
        iff_of_true ⟨fun boot => absurd boot stays, restarts⟩ early⟩
    · refine ⟨iff_of_true boot ⟨closed, full⟩, iff_of_false ?_ (not_not_intro ⟨closed, full⟩)⟩
      intro waits
      have second := waits.second boot
      rw [count] at second
      exact absurd second (by decide)
  · exact (over_next over_ frame).elim

open Reel in
/-- A frame has stalled, and the next one stalls too. -/
theorem watchdog_waits_first : ∃ vigil after : Vigil,
    vigil.next (.hook idlePorts blank) = some after ∧ vigil.stalls = 1 ∧
      Waits idlePorts blank vigil after := by
  have outcome : (([frameAt 0 0, .spin] : List Desk.Act).foldlM (guarded next Unparted)
      (start 0 0 blank)).map (fun vigil =>
        (vigil.stalls, (vigil.next (.hook idlePorts blank)).isSome)) = some (1, true) := by
    decide +kernel
  obtain ⟨vigil, executed, isVigil⟩ := Option.map_eq_some_iff.mp outcome
  obtain ⟨count, isFrame⟩ := Prod.mk.inj isVigil
  obtain ⟨after, frame⟩ := Option.isSome_iff_exists.mp isFrame
  have early : ¬ Sixteenth idlePorts blank vigil := by
    rintro ⟨-, full⟩
    rw [count] at full
    cases full
  exact ⟨vigil, after, frame, count,
    (watchdog_waits_iff (Run.of_guarded executed) frame).2.mpr early⟩

open Reel in
/-- The gate stalls on sixteen frames in a row, a good quarter of a second, and
the peer is given up. -/
theorem watchdog_impatient : ∃ vigil after : Vigil,
    Run Step Unparted (start 0 0 blank) vigil ∧
    vigil.next (.hook idlePorts blank) = some after ∧
    after.desk.console.bank = .boot ∧ after.stalls = 16 ∧
      ¬ Waits idlePorts blank vigil after := by
  have outcome : (fifteenStalls.foldlM (guarded next Unparted) (start 0 0 blank)).map
      (fun vigil => (vigil.next (.hook idlePorts blank)).map fun after =>
        (after.desk.console.bank, after.stalls)) = some (some (.boot, 16)) := by
    decide +kernel
  obtain ⟨vigil, executed, isVigil⟩ := Option.map_eq_some_iff.mp outcome
  obtain ⟨after, frame, isAfter⟩ := Option.map_eq_some_iff.mp isVigil
  obtain ⟨boot, count⟩ := Prod.mk.inj isAfter
  refine ⟨vigil, after, Run.of_guarded executed, frame, boot, count, fun waits => ?_⟩
  have second := waits.second boot
  rw [count] at second
  exact absurd second (by decide)

end Vigil

end DragsterNet
