/-
Module: DragsterNet.Console.Clock
Purpose: The sim clock, the phase and the tick of a networked console over runs
  of frames with any stalls: four simulated frames a tick, all counted, and a
  stall that leaves no trace in the simulation.
Trusted boundary: none
Main exports: Reel, Reel.Counted, Reel.attractAt, Reel.clock_counts,
  Reel.clock_ambiguous
-/
import DragsterNet.Console.Record

namespace DragsterNet

open Lib

namespace Console

variable {ports : Ports} {painted : Painted} {console before after : Console}

/-- The frame of the tick, from the top two bits of `dgEnt`. -/
def phase (console : Console) : Nat :=
  (console.dgEnt >>> 6).toNat

theorem phase_add : ∀ flags : Byte,
    ((flags + 0x40) >>> 6).toNat = ((flags >>> 6).toNat + 1) % 4 := by decide

theorem phase_or_ran : ∀ flags : Byte, (flags ||| dgeRan) >>> 6 = flags >>> 6 := by decide

theorem phase_without_ran : ∀ flags : Byte,
    (flags &&& ~~~dgeRan) >>> 6 = flags >>> 6 := by decide

theorem phase_without_rsy : ∀ flags : Byte,
    (flags &&& ~~~dgeRsy) >>> 6 = flags >>> 6 := by decide

theorem phase_gone : ∀ flags : Byte,
    ((flags &&& ~~~(dgeNet ||| dgeWarm)) ||| dgeLeft) >>> 6 = flags >>> 6 := by decide

theorem phase_zero : ∀ flags : Byte,
    (flags &&& dgePh != 0) = ((flags >>> 6).toNat != 0) := by decide

theorem has_phase : console.has dgePh = (console.phase != 0) :=
  phase_zero console.dgEnt

/-- What the frame counter and the attract counter behind it become. -/
def countedIdle (frames idle : Byte) : Byte :=
  if frames + 1 ≠ 0 then idle else if idle + 1 ≠ 0 then idle + 1 else 0x80

theorem countFrame_frameCnt (ram : Ram) :
    countFrame ram frameCnt = ram frameCnt + 1 := by
  unfold countFrame
  simp only []
  split
  · exact Function.update_self _ _ _
  · rw [Function.update_of_ne (by decide), Function.update_self]

theorem countFrame_attract (ram : Ram) :
    countFrame ram attract = countedIdle (ram frameCnt) (ram attract) := by
  unfold countFrame countedIdle
  simp only []
  split
  · exact Function.update_of_ne (by decide) _ _
  · rw [Function.update_self, Function.update_of_ne (by decide)]

/-- A frame whose logic runs: the clock and the phase have counted it. -/
structure Simulated (before after : Console) : Prop where
  adv : after.dgAdv ≠ 0
  phase : after.phase = (before.phase + 1) % 4
  frames : after.ram frameCnt = before.ram frameCnt + 1
  idle : after.ram attract = countedIdle (before.ram frameCnt) (before.ram attract)

/-- A frame whose logic does not run. -/
structure Stalled (before after : Console) : Prop where
  adv : after.dgAdv = 0
  phase : after.phase = before.phase
  ram : after.ram = before.ram

theorem dgNt1_sim (ports : Ports) (console : Console) :
    (dgNt1 ports console).dgAdv = console.dgAdv ∧
      (dgNt1 ports console).phase = console.phase ∧
      (dgNt1 ports console).ram = console.ram := by
  cases ran : console.has dgeRan with
  | false =>
      rw [dgNt1_retry ports ran]
      exact ⟨rfl, rfl, rfl⟩
  | true =>
      have flags : (dgNt1 ports console).phase = console.phase := by
        unfold phase
        rcases dgNt1_flags ports ran with same | cleared
        · rw [same, phase_without_ran]
        · rw [cleared, phase_without_rsy, phase_without_ran]
      rw [dgNt1, if_pos ran] at flags ⊢
      rcases dgCap_console ports console.sample with same | same
      · rw [same] at flags ⊢
        exact ⟨rfl, flags, rfl⟩
      · rw [same] at flags ⊢
        exact ⟨rfl, flags, rfl⟩

theorem assume_awake (ports : Ports) (console : Console) :
    (dgNt1 ports console).assume.dgAdv ≠ 0 :=
  (by decide : (0xFF : Byte) ≠ 0)

theorem dgNt2_simulated (awake : console.dgAdv ≠ 0) :
    Simulated console (dgNt2 ports console) := by
  have other : ∀ (cell first second : Byte), cell ≠ joy0 → cell ≠ joy1 →
      Function.update (Function.update console.ram joy0 (first &&& iwStick)) joy1
        (second &&& iwStick) cell = console.ram cell := by
    intro cell first second notFirst notSecond
    rw [Function.update_of_ne notSecond, Function.update_of_ne notFirst]
  refine ⟨awake, ?_, ?_, ?_⟩
  · show (((console.dgEnt ||| dgeRan) + 0x40) >>> 6).toNat = _
    rw [phase_add, phase_or_ran]
    rfl
  · show countFrame (Function.update _ _ _) frameCnt = _
    rw [countFrame_frameCnt, other _ _ _ (by decide) (by decide)]
  · show countFrame (Function.update _ _ _) attract = _
    rw [countFrame_attract, other _ _ _ (by decide) (by decide),
      other _ _ _ (by decide) (by decide)]

theorem dgStall_stalled : Stalled console (dgStall console) := by
  unfold dgStall
  split
  · exact ⟨rfl, rfl, rfl⟩
  · exact ⟨rfl, congrArg BitVec.toNat (phase_gone console.dgEnt), rfl⟩

/-- The three frames of a match: within a tick, at a boundary that runs, and at
one that stalls. -/
theorem dgShim_sim (net : console.has dgeNet = true) :
    Simulated console (dgShim ports console) ∧
        (console.phase ≠ 0 ∨ (dgNt1 ports console).gateOpen = true) ∨
      Stalled console (dgShim ports console) ∧ console.phase = 0 ∧
        (dgNt1 ports console).gateOpen = false := by
  have shim : dgShim ports console = dgNet ports console.assume := if_pos net
  cases mid : console.has dgePh with
  | true =>
      have inside : console.phase ≠ 0 := by
        rw [has_phase] at mid
        simpa using mid
      refine Or.inl ⟨?_, Or.inl inside⟩
      rw [shim, dgNet, assume_has, if_pos mid]
      exact ⟨(by decide : (0xFF : Byte) ≠ 0), phase_add console.dgEnt,
        countFrame_frameCnt console.ram, countFrame_attract console.ram⟩
  | false =>
      have start : console.phase = 0 := by
        rw [has_phase] at mid
        simpa using mid
      have boundary : dgShim ports console = dgNt1b ports (dgNt1 ports console).assume := by
        rw [shim, dgNet, assume_has, if_neg (by simp [mid]), dgNt1_assume]
      obtain ⟨-, phase, ram⟩ := dgNt1_sim ports console
      have samePhase : (dgNt1 ports console).assume.phase = console.phase := phase
      have sameRam : (dgNt1 ports console).assume.ram = console.ram := ram
      cases opened : (dgNt1 ports console).gateOpen with
      | true =>
          have runs : dgShim ports console = dgNt2 ports (dgNt1 ports console).assume :=
            boundary.trans (if_pos opened)
          have simulated : Simulated (dgNt1 ports console).assume
              (dgNt2 ports (dgNt1 ports console).assume) :=
            dgNt2_simulated (assume_awake ports console)
          rw [runs]
          refine Or.inl ⟨⟨simulated.adv, ?_, ?_, ?_⟩, Or.inr rfl⟩
          · rw [simulated.phase, samePhase]
          · rw [simulated.frames, sameRam]
          · rw [simulated.idle, sameRam]
      | false =>
          have closed : ¬ (dgNt1 ports console).assume.gateOpen = true := by
            show ¬ (dgNt1 ports console).gateOpen = true
            simp [opened]
          have stalls : dgShim ports console = dgStall (dgNt1 ports console).assume :=
            boundary.trans (if_neg closed)
          have stalled : Stalled (dgNt1 ports console).assume
              (dgStall (dgNt1 ports console).assume) := dgStall_stalled
          rw [stalls]
          exact Or.inr ⟨⟨stalled.adv, stalled.phase.trans samePhase,
            stalled.ram.trans sameRam⟩, start, rfl⟩

/-- A boundary that is retried and stalls once more, the count of stalls not yet
full, changes `dgAdv` and that count alone. -/
theorem dgShim_retry (net : console.has dgeNet = true) (start : console.has dgePh = false)
    (retry : console.has dgeRan = false) (closed : console.gateOpen = false)
    (counts : console.dgErr < 0xF0) :
    dgShim ports console = { console with dgAdv := 0, dgErr := console.dgErr + 0x10 } := by
  have shim : dgShim ports console = dgNet ports console.assume := if_pos net
  have gate : ¬ console.assume.gateOpen = true := by
    show ¬ console.gateOpen = true
    simp [closed]
  rw [shim, dgNet, assume_has, if_neg (by simp [start]), dgNt1_assume,
    dgNt1_retry ports retry, dgNt1b, if_neg gate, dgStall]
  exact if_pos counts

/-- The simulation, and whether it ran, as they were. -/
structure SameSim (before after : Console) : Prop where
  ram : after.ram = before.ram
  adv : after.dgAdv = before.dgAdv

theorem detectDesync_sim {tick crc : Byte} : SameSim console (detectDesync tick crc console) := by
  unfold detectDesync
  repeat' split
  all_goals exact ⟨rfl, rfl⟩

theorem raiseWatermark_sim {tick : Byte} : SameSim console (raiseWatermark tick console) := by
  unfold raiseWatermark
  split
  all_goals exact ⟨rfl, rfl⟩

theorem consumeAt_sim {reply : Nat → Byte} {y : Nat} :
    SameSim console (consumeAt reply y console) := by
  unfold consumeAt
  split
  · split
    · obtain ⟨ram, adv⟩ := @raiseWatermark_sim
        (detectDesync (reply (y + 2)) (reply (y + 6)) (storeWindow (reply (y + 2))
          (reply (y + 3)) (reply (y + 4)) (reply (y + 5)) console)) (reply (y + 2))
      obtain ⟨ram', adv'⟩ := @detectDesync_sim (storeWindow (reply (y + 2)) (reply (y + 3))
        (reply (y + 4)) (reply (y + 5)) console) (reply (y + 2)) (reply (y + 6))
      exact ⟨ram.trans ram', adv.trans adv'⟩
    · exact ⟨rfl, rfl⟩
  · split
    all_goals exact ⟨rfl, rfl⟩

/-- No step of the transport reaches the simulation. -/
theorem dgNstep_sim : SameSim console (dgNstep painted console).1 := by
  unfold dgNstep
  cases console.dgNst with
  | wack =>
      simp only [dgsWack]
      repeat' split
      all_goals exact ⟨rfl, rfl⟩
  | sack =>
      simp only [dgsSack]
      repeat' split
      all_goals exact ⟨rfl, rfl⟩
  | rack =>
      simp only [dgsRack]
      repeat' split
      all_goals exact ⟨rfl, rfl⟩
  | cons =>
      simp only [dgsCons]
      split
      · exact ⟨rfl, rfl⟩
      · obtain ⟨ram, adv⟩ := @consumeAt_sim { console with dgRdn := console.dgRdn - 1 }
          painted.fnRply console.cursor
        exact ⟨ram, adv⟩
  | idle | wiss | siss | riss | fail => exact ⟨rfl, rfl⟩

theorem SameBoundary.phase (same : SameBoundary before after) :
    after.phase = before.phase := by
  unfold Console.phase
  rw [← phase_without_rsy after.dgEnt, same.flags, phase_without_rsy]

end Console

theorem Desk.hook_console {ports : Ports} {ram : Ram} {desk after : Desk}
    (taken : desk.hook ports ram = some after) :
    after.console = (desk.atHook ram).dgShim ports := by
  unfold hook at taken
  split at taken
  · cases taken
  · exact congrArg Desk.console (Option.some.inj taken).symm

/-- A console and the ticks of the frames whose logic ran, in order. -/
structure Reel where
  desk : Desk
  frames : List Nat

namespace Reel

open Console

variable {ports : Ports} {ram : Ram} {reel after : Reel} {act : Desk.Act} {role seq : Byte}

def start (role seq : Byte) (ram : Ram) : Reel where
  desk := Desk.start role seq ram
  frames := []

/-- A frame that leaves `dgAdv` nonzero is entered with its tick. -/
def next (reel : Reel) (act : Desk.Act) : Option Reel :=
  (reel.desk.next act).map fun desk =>
    { desk := desk
      frames :=
        match act with
        | .hook _ _ =>
            if desk.console.dgAdv ≠ 0 then reel.frames ++ [desk.caps.length - 1]
            else reel.frames
        | _ => reel.frames }

def Step (before : Reel) (act : Desk.Act) (after : Reel) : Prop :=
  before.next act = some after

/-- The game logic itself does not write `frameCnt`. -/
def Leaves (reel : Reel) : Desk.Act → Prop
  | .hook _ ram => ram frameCnt = reel.desk.console.ram frameCnt
  | _ => True

instance (reel : Reel) (act : Desk.Act) : Decidable (Leaves reel act) :=
  match act with
  | .hook _ _ => inferInstanceAs (Decidable (_ = _))
  | .step _ | .spin => isTrue trivial

/-- The game logic of the `n`-th simulated frame does `logic n` to `attract`; a
frame that stalled runs none. -/
def Plays (logic : Nat → Byte → Byte) (reel : Reel) : Desk.Act → Prop
  | .hook _ ram => ram frameCnt = reel.desk.console.ram frameCnt ∧
      ram attract =
        if reel.desk.console.dgAdv = 0 then reel.desk.console.ram attract
        else logic reel.frames.length (reel.desk.console.ram attract)
  | _ => True

instance (logic : Nat → Byte → Byte) (reel : Reel) (act : Desk.Act) :
    Decidable (Plays logic reel act) :=
  match act with
  | .hook _ _ => inferInstanceAs (Decidable (_ ∧ _))
  | .step _ | .spin => isTrue trivial

/-- The clock, the phase and the tick against the number of simulated frames. -/
structure Counted (first : Byte) (reel : Reel) : Prop where
  truthful : reel.desk.Truthful
  frames : reel.frames = (List.range reel.frames.length).map (· / 4)
  clock : reel.desk.console.ram frameCnt = first + BitVec.ofNat 8 reel.frames.length
  phase : reel.desk.console.phase = reel.frames.length % 4
  tick : reel.desk.caps.length =
    (reel.frames.length + 3) / 4 + if reel.desk.console.has dgeRan then 0 else 1
  inside : reel.desk.console.phase ≠ 0 → reel.desk.console.has dgeRan = true

theorem counted_start (isRole : role = 0 ∨ role = dgeRole) :
    Counted (ram frameCnt) (start role seq ram) where
  truthful := Desk.truthful_start isRole
  frames := rfl
  clock := (BitVec.add_zero _).symm
  phase := by
    rcases isRole with rfl | rfl
    · exact (by decide : ((0 ||| (dgeNet ||| dgeRan)) >>> 6).toNat = 0)
    · exact (by decide : ((dgeRole ||| (dgeNet ||| dgeRan)) >>> 6).toNat = 0)
  tick := by
    have ran : (start role seq ram).desk.console.has dgeRan = true :=
      ((Desk.truthful_start isRole).first rfl).1
    rw [ran]
    simp [start, Desk.start]
  inside := fun _ => ((Desk.truthful_start isRole).first rfl).1

/-- One more simulated frame is entered behind the others. -/
theorem frames_append {frames : List Nat} (counted : frames = (List.range frames.length).map (· / 4)) :
    frames ++ [frames.length / 4] =
      (List.range (frames ++ [frames.length / 4]).length).map (· / 4) := by
  rw [List.length_append, List.length_singleton, List.range_succ, List.map_append, ← counted]
  rfl

/-- The tick a simulated frame belongs to, and what is left of its tick. -/
theorem counted_simulated {first : Byte} {desk : Desk} (counted : Counted first reel)
    (leaves : ram frameCnt = reel.desk.console.ram frameCnt)
    (truthful : desk.Truthful)
    (simulated : Simulated (reel.desk.atHook ram) desk.console)
    (ran : desk.console.has dgeRan = true)
    (caps : desk.caps.length = reel.frames.length / 4 + 1) :
    Counted first { desk := desk, frames := reel.frames ++ [desk.caps.length - 1] } := by
  have tick : desk.caps.length - 1 = reel.frames.length / 4 := by omega
  have longer : (reel.frames ++ [reel.frames.length / 4]).length = reel.frames.length + 1 := by
    rw [List.length_append, List.length_singleton]
  have samePhase : (reel.desk.atHook ram).phase = reel.desk.console.phase := rfl
  rw [tick]
  refine ⟨truthful, frames_append counted.frames, ?_, ?_, ?_, fun _ => ran⟩
  · have clock : (reel.desk.atHook ram).ram frameCnt = first +
        BitVec.ofNat 8 reel.frames.length := leaves.trans counted.clock
    simp only [simulated.frames, clock, longer, BitVec.ofNat_add]
    exact BitVec.add_assoc _ _ _
  · simp only [simulated.phase, samePhase, counted.phase, longer]
    omega
  · simp only [ran, if_true, longer]
    omega

/-- A frame of a match is simulated or it stalls at a boundary; either way the
console is then on the tick of the next simulated frame, or still on that of the
one just run. -/
theorem counted_cases {first : Byte} {desk : Desk} (counted : Counted first reel)
    (hooked : reel.desk.hook ports ram = some desk) :
    desk.caps.length = reel.frames.length / 4 + 1 ∧
      (Simulated (reel.desk.atHook ram) desk.console ∧ desk.console.has dgeRan = true ∨
        Stalled (reel.desk.atHook ram) desk.console ∧ reel.desk.console.phase = 0 ∧
          desk.console.has dgeRan = false) := by
  have net := counted.truthful.net (Desk.hook_bank hooked)
  have tick := counted.tick
  have phase := counted.phase
  have samePhase : (reel.desk.atHook ram).phase = reel.desk.console.phase := rfl
  have sameRan : (reel.desk.atHook ram).has dgeRan = reel.desk.console.has dgeRan := rfl
  have shim := @dgShim_sim ports (reel.desk.atHook ram) net
  rw [← Desk.hook_console hooked, samePhase] at shim
  obtain ⟨-, -, -, -, cases⟩ := Desk.hook_cases net hooked
  cases cases with
  | between isMid _ _ _ _ ran _ caps =>
      rw [has_phase, samePhase] at isMid
      have notZero : reel.desk.console.phase ≠ 0 := by simpa using isMid
      have inside := counted.inside notZero
      rw [inside, if_pos rfl] at tick
      refine ⟨by rw [caps]; omega, ?_⟩
      rcases shim with ⟨simulated, -⟩ | ⟨-, start, -⟩
      · exact Or.inl ⟨simulated, ran.trans inside⟩
      · exact absurd start notZero
  | boundary isStart _ _ _ ran _ _ caps =>
      rw [has_phase, samePhase] at isStart
      have zero : reel.desk.console.phase = 0 := by simpa using isStart
      refine ⟨?_, ?_⟩
      · rw [caps, sameRan]
        split at tick
        · rename_i ran
          rw [if_pos ran, List.length_append, List.length_singleton]
          omega
        · rename_i ran
          rw [if_neg ran]
          omega
      · rcases shim with ⟨simulated, why⟩ | ⟨stalled, start, closed⟩
        · exact Or.inl ⟨simulated, ran.trans (why.resolve_left (not_not_intro zero))⟩
        · exact Or.inr ⟨stalled, start, ran.trans closed⟩

theorem counted_hook {first : Byte} (counted : Counted first reel)
    (leaves : Leaves reel (.hook ports ram))
    (taken : reel.next (.hook ports ram) = some after) : Counted first after := by
  obtain ⟨desk, hooked, rfl⟩ := Option.map_eq_some_iff.mp taken
  have truthful := Desk.truthful_hook counted.truthful hooked
  obtain ⟨caps, ⟨simulated, ran⟩ | ⟨stalled, start, ran⟩⟩ := counted_cases counted hooked
  · simp only [if_pos simulated.adv]
    exact counted_simulated counted leaves truthful simulated ran caps
  · have asleep : ¬ desk.console.dgAdv ≠ 0 := not_not_intro stalled.adv
    have phase := counted.phase
    have isPhase : desk.console.phase = reel.desk.console.phase := stalled.phase
    simp only [if_neg asleep]
    refine ⟨truthful, counted.frames, ?_, isPhase.trans phase, ?_, ?_⟩
    · simp only [stalled.ram]
      exact leaves.trans counted.clock
    · simp only [ran, caps, Bool.false_eq_true, if_false]
      omega
    · exact fun inside => absurd (isPhase.trans start) inside

theorem counted_next {first : Byte} (counted : Counted first reel) (leaves : Leaves reel act)
    (taken : reel.next act = some after) : Counted first after := by
  cases act with
  | hook ports ram => exact counted_hook counted leaves taken
  | step painted =>
      obtain ⟨desk, moved, rfl⟩ := Option.map_eq_some_iff.mp taken
      have truthful := Desk.truthful_next counted.truthful moved
      obtain ⟨⟨stepped, request⟩, taken', rfl⟩ := Option.map_eq_some_iff.mp moved
      have isStep := Desk.step_cases taken'
      have same : SameBoundary reel.desk.console stepped.console := by
        rw [isStep.console]
        exact dgNstep_sameBoundary
      have sim : SameSim reel.desk.console stepped.console := by
        rw [isStep.console]
        exact dgNstep_sim
      refine ⟨truthful, counted.frames, ?_, same.phase.trans counted.phase, ?_, ?_⟩
      · rw [sim.ram]
        exact counted.clock
      · simp only [isStep.caps, same.ran]
        exact counted.tick
      · simp only [same.phase, same.ran]
        exact counted.inside
  | spin =>
      obtain ⟨desk, moved, rfl⟩ := Option.map_eq_some_iff.mp taken
      have truthful := Desk.truthful_next counted.truthful moved
      obtain rfl := Desk.spin_cases moved
      exact ⟨truthful, counted.frames, counted.clock, counted.phase, counted.tick,
        counted.inside⟩

theorem counted_run (isRole : role = 0 ∨ role = dgeRole)
    (run : Run Step Leaves (start role seq ram) reel) : Counted (ram frameCnt) reel :=
  run.invariant (Counted (ram frameCnt)) (counted_start isRole) fun counted leaves taken =>
    counted_next counted leaves taken

/-! ### The attract counter -/

/-- `attract` as the clock leaves it in the `n`-th simulated frame, the first of
which finds `first` in `frameCnt` and `idle` in `attract`. -/
def attractAt (logic : Nat → Byte → Byte) (first idle : Byte) : Nat → Byte
  | 0 => idle
  | frames + 1 => countedIdle (first + BitVec.ofNat 8 frames)
      (if frames = 0 then idle else logic frames (attractAt logic first idle frames))

/-- `attract` once the logic of the last simulated frame has run too. -/
def attractLeft (logic : Nat → Byte → Byte) (first idle : Byte) (frames : Nat) : Byte :=
  if frames = 0 then idle else logic frames (attractAt logic first idle frames)

/-- `attract` is a function of the number of simulated frames, and of whether the
last of them has been left behind. -/
structure Idled (logic : Nat → Byte → Byte) (first idle : Byte) (reel : Reel) : Prop where
  counted : Counted first reel
  awake : reel.desk.console.dgAdv ≠ 0 ↔
    reel.desk.console.has dgeRan = true ∧ reel.frames.length ≠ 0
  attract : reel.desk.console.ram attract =
    if reel.desk.console.has dgeRan then attractAt logic first idle reel.frames.length
    else attractLeft logic first idle reel.frames.length

theorem plays_leaves {logic : Nat → Byte → Byte} (plays : Plays logic reel act) :
    Leaves reel act := by
  cases act with
  | hook ports ram => exact plays.1
  | step _ => trivial
  | spin => trivial

theorem idled_start {logic : Nat → Byte → Byte} (isRole : role = 0 ∨ role = dgeRole) :
    Idled logic (ram frameCnt) (ram attract) (start role seq ram) where
  counted := counted_start isRole
  awake := by simp [start, Desk.start, handOver]
  attract := by
    have ran : (start role seq ram).desk.console.has dgeRan = true :=
      ((Desk.truthful_start isRole).first rfl).1
    rw [ran]
    rfl

/-- What the hook of the next frame finds in `attract`. -/
theorem plays_attract {logic : Nat → Byte → Byte} {first idle : Byte}
    (idled : Idled logic first idle reel) (plays : Plays logic reel (.hook ports ram)) :
    ram attract = attractLeft logic first idle reel.frames.length := by
  obtain ⟨-, left⟩ := plays
  rw [left]
  have attract := idled.attract
  have awake := idled.awake
  unfold attractLeft at attract ⊢
  by_cases none : reel.frames.length = 0
  · have asleep : reel.desk.console.dgAdv = 0 := by
      by_contra adv
      exact (awake.mp adv).2 none
    rw [if_pos asleep, attract, if_pos none, none]
    exact ite_self _
  · rw [if_neg none] at attract ⊢
    cases ran : reel.desk.console.has dgeRan with
    | true =>
        rw [ran, if_pos rfl] at attract
        rw [if_neg (awake.mpr ⟨ran, none⟩), attract]
    | false =>
        have asleep : reel.desk.console.dgAdv = 0 := by
          by_contra adv
          rw [ran] at awake
          exact Bool.false_ne_true (awake.mp adv).1
        rw [ran, if_neg Bool.false_ne_true] at attract
        rw [if_pos asleep, attract]

theorem idled_hook {logic : Nat → Byte → Byte} {first idle : Byte}
    (idled : Idled logic first idle reel) (plays : Plays logic reel (.hook ports ram))
    (taken : reel.next (.hook ports ram) = some after) : Idled logic first idle after := by
  have counted := counted_next idled.counted (plays_leaves plays) taken
  have found := plays_attract idled plays
  obtain ⟨desk, hooked, rfl⟩ := Option.map_eq_some_iff.mp taken
  have clock : (reel.desk.atHook ram).ram frameCnt =
      first + BitVec.ofNat 8 reel.frames.length := plays.1.trans idled.counted.clock
  obtain ⟨-, ⟨simulated, ran⟩ | ⟨stalled, -, ran⟩⟩ := counted_cases idled.counted hooked
  · have left : (reel.desk.atHook ram).ram attract =
        attractLeft logic first idle reel.frames.length := found
    simp only [if_pos simulated.adv] at counted ⊢
    refine ⟨counted, ⟨fun _ => ⟨ran, by simp⟩, fun _ => simulated.adv⟩, ?_⟩
    rw [if_pos ran, simulated.idle, clock, left, List.length_append, List.length_singleton]
    rfl
  · have asleep : ¬ desk.console.dgAdv ≠ 0 := not_not_intro stalled.adv
    simp only [if_neg asleep] at counted ⊢
    refine ⟨counted, ⟨fun adv => absurd adv asleep, fun both => ?_⟩, ?_⟩
    · rw [ran] at both
      exact absurd both.1 Bool.false_ne_true
    · rw [ran, if_neg Bool.false_ne_true, stalled.ram]
      exact found

theorem idled_next {logic : Nat → Byte → Byte} {first idle : Byte}
    (idled : Idled logic first idle reel) (plays : Plays logic reel act)
    (taken : reel.next act = some after) : Idled logic first idle after := by
  cases act with
  | hook ports ram => exact idled_hook idled plays taken
  | step painted =>
      have counted := counted_next idled.counted (plays_leaves plays) taken
      obtain ⟨desk, moved, rfl⟩ := Option.map_eq_some_iff.mp taken
      obtain ⟨⟨stepped, request⟩, taken', rfl⟩ := Option.map_eq_some_iff.mp moved
      have isStep := Desk.step_cases taken'
      have same : SameBoundary reel.desk.console stepped.console := by
        rw [isStep.console]
        exact dgNstep_sameBoundary
      have sim : SameSim reel.desk.console stepped.console := by
        rw [isStep.console]
        exact dgNstep_sim
      refine ⟨counted, ?_, ?_⟩
      · simp only [sim.adv, same.ran]
        exact idled.awake
      · simp only [sim.ram, same.ran]
        exact idled.attract
  | spin =>
      have counted := counted_next idled.counted (plays_leaves plays) taken
      obtain ⟨desk, moved, rfl⟩ := Option.map_eq_some_iff.mp taken
      obtain rfl := Desk.spin_cases moved
      exact ⟨counted, idled.awake, idled.attract⟩

theorem idled_run {logic : Nat → Byte → Byte} (isRole : role = 0 ∨ role = dgeRole)
    (run : Run Step (Plays logic) (start role seq ram) reel) :
    Idled logic (ram frameCnt) (ram attract) reel :=
  run.invariant (Idled logic (ram frameCnt) (ram attract)) (idled_start isRole)
    fun idled plays taken => idled_next idled plays taken

/-! ### Two consoles -/

/-- The same tick and phase, and both before the frames of the tick or both
past them. -/
structure SameFrame (one two : Console) : Prop where
  tick : one.dgTick = two.dgTick
  phase : one.phase = two.phase
  ran : one.has dgeRan = two.has dgeRan

/-- A boundary that is retried and stalls again before the count of stalls is
full. -/
structure Retries (console : Console) : Prop where
  start : console.has dgePh = false
  retry : console.has dgeRan = false
  closed : console.gateOpen = false
  counts : console.dgErr < 0xF0

variable {one two : Reel} {first first' : Byte}

/-- The number of simulated frames, from the tick, the phase and the run flag. -/
theorem frames_eq (counted : Counted first one) (counted' : Counted first' two)
    (phase : one.desk.console.phase = two.desk.console.phase)
    (ran : one.desk.console.has dgeRan = two.desk.console.has dgeRan) :
    (one.frames.length : Int) - two.frames.length =
      4 * ((one.desk.caps.length : Int) - two.desk.caps.length) := by
  have tick := counted.tick
  have tick' := counted'.tick
  have isPhase := counted.phase
  have isPhase' := counted'.phase
  rw [← ran] at tick'
  split at tick
  · rename_i isRan
    rw [if_pos isRan] at tick'
    omega
  · rename_i notRan
    rw [if_neg notRan] at tick'
    have zero : one.desk.console.phase = 0 := by
      by_contra inside
      exact notRan (counted.inside inside)
    omega

theorem frameCnt_eq (counted : Counted first one) (counted' : Counted first two)
    (same : SameFrame one.desk.console two.desk.console) :
    one.desk.console.ram frameCnt = two.desk.console.ram frameCnt := by
  have frames := frames_eq counted counted' same.phase same.ran
  have cells : tickCell (one.desk.caps.length - 1) = tickCell (two.desk.caps.length - 1) := by
    rw [← counted.truthful.tick, ← counted'.truthful.tick]
    exact same.tick
  have residues := congrArg BitVec.toNat cells
  simp only [tickCell, BitVec.toNat_ofInt] at residues
  have counts : BitVec.ofNat 8 one.frames.length = BitVec.ofNat 8 two.frames.length := by
    apply BitVec.eq_of_toNat_eq
    simp only [BitVec.toNat_ofNat]
    omega
  rw [counted.clock, counted'.clock, counts]

theorem attract_eq {logic : Nat → Byte → Byte} {idle : Byte} (idled : Idled logic first idle one)
    (idled' : Idled logic first idle two)
    (caps : one.desk.caps.length = two.desk.caps.length)
    (phase : one.desk.console.phase = two.desk.console.phase)
    (ran : one.desk.console.has dgeRan = two.desk.console.has dgeRan) :
    one.desk.console.ram attract = two.desk.console.ram attract := by
  have frames := frames_eq idled.counted idled'.counted phase ran
  have count : one.frames.length = two.frames.length := by omega
  rw [idled.attract, idled'.attract, ran, count]

/-- The sim clock counts simulated frames and a stall changes nothing, in every
run of frames whose game logic leaves `frameCnt` alone: the simulated frames are
four a tick, in order; `frameCnt` and the phase count them; so two consoles on
the same frame have the same `frameCnt`, and the same `attract` if the logic of
each simulated frame does the same to it; and a boundary retried in vain changes
`dgAdv` and `dgErr` alone. -/
theorem clock_counts (isRole : role = 0 ∨ role = dgeRole)
    (run : Run Step Leaves (start role seq ram) reel) :
    (reel.frames = (List.range reel.frames.length).map (· / 4) ∧
      reel.desk.console.ram frameCnt = ram frameCnt + BitVec.ofNat 8 reel.frames.length ∧
      reel.desk.console.phase = reel.frames.length % 4) ∧
    (∀ (role' seq' : Byte) (ram' : Ram) (other : Reel), role' = 0 ∨ role' = dgeRole →
      Run Step Leaves (start role' seq' ram') other → ram frameCnt = ram' frameCnt →
      SameFrame reel.desk.console other.desk.console →
        reel.desk.console.ram frameCnt = other.desk.console.ram frameCnt) ∧
    (∀ (logic : Nat → Byte → Byte) (role' seq' : Byte) (ram' : Ram) (other : Reel),
      role' = 0 ∨ role' = dgeRole → Run Step (Plays logic) (start role seq ram) reel →
      Run Step (Plays logic) (start role' seq' ram') other →
      ram frameCnt = ram' frameCnt → ram attract = ram' attract →
      reel.desk.caps.length = other.desk.caps.length →
      SameFrame reel.desk.console other.desk.console →
        reel.desk.console.ram attract = other.desk.console.ram attract) ∧
    ∀ (ports : Ports) (now : Ram) (after : Desk), reel.desk.hook ports now = some after →
      Retries (reel.desk.atHook now) →
        after.console = { reel.desk.atHook now with
          dgAdv := 0
          dgErr := (reel.desk.atHook now).dgErr + 0x10 } := by
  have counted := counted_run isRole run
  refine ⟨⟨counted.frames, counted.clock, counted.phase⟩, ?_, ?_, ?_⟩
  · intro role' seq' ram' other isRole' run' clocks same
    have counted' := counted_run isRole' run'
    rw [← clocks] at counted'
    exact frameCnt_eq counted counted' same
  · intro logic role' seq' ram' other isRole' plays plays' clocks idles caps same
    have idled := idled_run isRole plays
    have idled' := idled_run isRole' plays'
    rw [← clocks, ← idles] at idled'
    exact attract_eq idled idled' caps same.phase same.ran
  · intro ports now after hooked retries
    rw [Desk.hook_console hooked]
    exact dgShim_retry (counted.truthful.net (Desk.hook_bank hooked)) retries.start
      retries.retry retries.closed retries.counts

/-! ### Frames -/

def idlePorts : Ports := ⟨0xFF, 0xFF, 0xFF, 0xFF⟩

/-- A frame that finds these two counters. -/
def frameAt (frames idle : Byte) : Desk.Act :=
  .hook idlePorts fun cell =>
    if cell = frameCnt then frames else if cell = attract then idle else 0

/-- Eight bytes wait in the socket. -/
def eightWaiting : Painted :=
  { Desk.quiet 2 with
    fnRply := fun index => if index = nsAvLo then 8 else if index = nsDevSt then 1 else 0 }

/-- They are the peer's record of its tick 0. -/
def firstRecord : Painted :=
  { Desk.quiet 3 with
    fnRxLo := 8
    fnRply := fun index => (inputFrame 2 0xFF 0xFF 0xFF 0).getD index 0 }

/-- Tick 0 stalls for `stalls` frames, the peer's record comes in, and the four
frames of the tick follow. -/
def firstTick (stalls : Nat) : List Desk.Act :=
  (List.replicate (stalls - 1) [frameAt 0 0, .spin]).flatten ++
    [frameAt 0 0, .step (Desk.quiet 0), .step (Desk.quiet 1), .step (Desk.quiet 1),
      .step eightWaiting, .step (Desk.quiet 2), .step firstRecord, .step firstRecord,
      .spin, frameAt 0 0, .spin, frameAt 1 0, .spin, frameAt 2 0, .spin, frameAt 3 0]

def blank : Ram := fun _ => 0

/-- What two consoles on the same frame agree on. -/
def frameOf (reel : Reel) : Nat × Byte × Nat × Bool :=
  (reel.desk.caps.length, reel.desk.console.dgTick, reel.desk.console.phase,
    reel.desk.console.has dgeRan)

theorem sameFrame {one two : Reel} {caps phase : Nat} {tick : Byte} {ran : Bool}
    (isOne : frameOf one = (caps, tick, phase, ran))
    (isTwo : frameOf two = (caps, tick, phase, ran)) :
    one.desk.caps.length = two.desk.caps.length ∧
      SameFrame one.desk.console two.desk.console := by
  simp only [frameOf, Prod.mk.injEq] at isOne isTwo
  obtain ⟨caps, tick, phase, ran⟩ := isOne
  obtain ⟨caps', tick', phase', ran'⟩ := isTwo
  exact ⟨caps.trans caps'.symm, tick.trans tick'.symm, phase.trans phase'.symm,
    ran.trans ran'.symm⟩

def steady : Nat → Byte → Byte := fun _ idle => idle

theorem clock_counts_stalls : ∃ reel other : Reel,
    reel.frames.length = 4 ∧ other.frames.length = 4 ∧
    reel.desk.console.ram frameCnt = blank frameCnt + BitVec.ofNat 8 reel.frames.length ∧
      reel.desk.console.phase = reel.frames.length % 4 ∧
      reel.desk.console.ram frameCnt = other.desk.console.ram frameCnt ∧
      reel.desk.console.ram attract = other.desk.console.ram attract := by
  have outcome : ((firstTick 1).foldlM (guarded next (Plays steady)) (start 0 0 blank)).map
      (fun reel => (reel.frames.length, frameOf reel)) = some (4, 1, 0, 0, true) := by
    decide +kernel
  have outcome' : ((firstTick 3).foldlM (guarded next (Plays steady))
      (start dgeRole 0 blank)).map (fun reel => (reel.frames.length, frameOf reel)) =
        some (4, 1, 0, 0, true) := by decide +kernel
  obtain ⟨reel, executed, isReel⟩ := Option.map_eq_some_iff.mp outcome
  obtain ⟨other, executed', isOther⟩ := Option.map_eq_some_iff.mp outcome'
  obtain ⟨count, frame⟩ := Prod.mk.inj isReel
  obtain ⟨count', frame'⟩ := Prod.mk.inj isOther
  have plays := Run.of_guarded executed
  have plays' := Run.of_guarded executed'
  obtain ⟨caps, same⟩ := sameFrame frame frame'
  obtain ⟨⟨-, clock, isPhase⟩, clocks, idles, -⟩ :=
    clock_counts (Or.inl rfl) (plays.mono plays_leaves)
  exact ⟨reel, other, count, count', clock, isPhase,
    clocks dgeRole 0 blank other (Or.inr rfl) (plays'.mono plays_leaves) rfl same,
    idles steady dgeRole 0 blank other (Or.inr rfl) plays plays' rfl rfl caps same⟩

/-- Fifteen frames stall, and the next boundary is about to be retried. -/
def fifteenStalls : List Desk.Act :=
  (List.replicate 15 [frameAt 0 0, .spin]).flatten

/-- Not by tick and phase alone: a console that stalls at the boundary of tick 0
and one that has run its four frames show the same tick and phase and differ in
`frameCnt`.  Nor is `attract` the clock's alone, and the stall that fills the
count takes the console out of the match. -/
theorem clock_ambiguous :
    (∃ one two : Reel, Run Step Leaves (start 0 0 blank) one ∧
      Run Step Leaves (start 0 0 blank) two ∧
      one.desk.console.dgTick = two.desk.console.dgTick ∧
      one.desk.console.phase = two.desk.console.phase ∧
      one.desk.console.ram frameCnt = 0 ∧ two.desk.console.ram frameCnt = 4) ∧
    (∃ one two : Reel, Run Step Leaves (start 0 0 blank) one ∧
      Run Step Leaves (start 0 0 blank) two ∧
      SameFrame one.desk.console two.desk.console ∧
      one.desk.console.ram attract = 0 ∧ two.desk.console.ram attract = 1) ∧
    ∃ (reel : Reel) (after : Desk), Run Step Leaves (start 0 0 blank) reel ∧
      reel.desk.hook idlePorts blank = some after ∧
      (reel.desk.atHook blank).has dgePh = false ∧
      (reel.desk.atHook blank).has dgeRan = false ∧
      (reel.desk.atHook blank).gateOpen = false ∧
      after.console.dgEnt ≠ reel.desk.console.dgEnt := by
  have stalls : ([frameAt 0 0].foldlM (guarded next Leaves) (start 0 0 blank)).map
      (fun reel => (frameOf reel, reel.desk.console.ram frameCnt,
        reel.desk.console.ram attract)) = some ((1, 0, 0, false), 0, 0) := by decide +kernel
  have runs : ((firstTick 1).foldlM (guarded next Leaves) (start 0 0 blank)).map
      (fun reel => (frameOf reel, reel.desk.console.ram frameCnt)) =
        some ((1, 0, 0, true), 4) := by decide +kernel
  have writes : ([frameAt 0 1].foldlM (guarded next Leaves) (start 0 0 blank)).map
      (fun reel => (frameOf reel, reel.desk.console.ram attract)) =
        some ((1, 0, 0, false), 1) := by decide +kernel
  have fills : (fifteenStalls.foldlM (guarded next Leaves) (start 0 0 blank)).map
      (fun reel => (((reel.desk.atHook blank).has dgePh, (reel.desk.atHook blank).has dgeRan,
        (reel.desk.atHook blank).gateOpen), reel.desk.console.dgEnt,
        (reel.desk.hook idlePorts blank).map fun after => after.console.dgEnt)) =
          some ((false, false, false), dgeNet, some dgeLeft) := by decide +kernel
  obtain ⟨one, stalled, isOne⟩ := Option.map_eq_some_iff.mp stalls
  obtain ⟨two, ran, isTwo⟩ := Option.map_eq_some_iff.mp runs
  obtain ⟨three, written, isThree⟩ := Option.map_eq_some_iff.mp writes
  obtain ⟨reel, filled, isReel⟩ := Option.map_eq_some_iff.mp fills
  simp only [Prod.mk.injEq] at isOne isTwo isThree isReel
  obtain ⟨frame, clock, idle⟩ := isOne
  obtain ⟨frame', clock'⟩ := isTwo
  obtain ⟨frame'', idle'⟩ := isThree
  obtain ⟨⟨start, retry, closed⟩, flags, hooked⟩ := isReel
  obtain ⟨after, isHook, left⟩ := Option.map_eq_some_iff.mp hooked
  refine ⟨⟨one, two, Run.of_guarded stalled, Run.of_guarded ran, ?_, ?_, clock, clock'⟩,
    ⟨one, three, Run.of_guarded stalled, Run.of_guarded written,
      (sameFrame frame frame'').2, idle, idle'⟩,
    reel, after, Run.of_guarded filled, isHook, start, retry, closed, ?_⟩
  · simp only [frameOf, Prod.mk.injEq] at frame frame'
    exact frame.2.1.trans frame'.2.1.symm
  · simp only [frameOf, Prod.mk.injEq] at frame frame'
    exact frame.2.2.1.trans frame'.2.2.1.symm
  · rw [flags, left]
    decide

end Reel

end DragsterNet
