/-
Module: DragsterNet.Console.Facts
Purpose: What each routine of the console can change: the flags of `dgEnt`, the
  cells the shim leaves to the transport, and those the transport leaves to the
  shim.
Trusted boundary: none
Main exports: Console.Held, Console.SameBoundary, Console.dgNt1b_held,
  Console.dgNstep_sameBoundary, Desk.hook_cases, Desk.step_writes
-/
import DragsterNet.Console.Desk

namespace DragsterNet

namespace Console

variable {ports : Ports} {painted : Painted} {console before after later : Console}

/-! ### Flags

Each fact about a flag is about one byte, so it is checked on all of them. -/

theorem net_phase : ∀ flags : Byte,
    ((flags + 0x40) &&& dgeNet != 0) = (flags &&& dgeNet != 0) := by decide

theorem ran_phase : ∀ flags : Byte,
    ((flags + 0x40) &&& dgeRan != 0) = (flags &&& dgeRan != 0) := by decide

theorem net_or_ran : ∀ flags : Byte,
    ((flags ||| dgeRan) &&& dgeNet != 0) = (flags &&& dgeNet != 0) := by decide

theorem ran_or_ran : ∀ flags : Byte,
    ((flags ||| dgeRan) &&& dgeRan != 0) = true := by decide

theorem net_clear_ran : ∀ flags : Byte,
    ((flags &&& ~~~dgeRan) &&& dgeNet != 0) = (flags &&& dgeNet != 0) := by decide

theorem ran_clear_ran : ∀ flags : Byte,
    ((flags &&& ~~~dgeRan) &&& dgeRan != 0) = false := by decide

theorem net_clear_rsy : ∀ flags : Byte,
    ((flags &&& ~~~dgeRsy) &&& dgeNet != 0) = (flags &&& dgeNet != 0) := by decide

theorem ran_clear_rsy : ∀ flags : Byte,
    ((flags &&& ~~~dgeRsy) &&& dgeRan != 0) = (flags &&& dgeRan != 0) := by decide

theorem ran_gone : ∀ flags : Byte,
    (((flags &&& ~~~(dgeNet ||| dgeWarm)) ||| dgeLeft) &&& dgeRan != 0) =
      (flags &&& dgeRan != 0) := by decide

theorem role_phase : ∀ flags : Byte,
    ((flags + 0x40) &&& dgeRole != 0) = (flags &&& dgeRole != 0) := by decide

theorem role_or_ran : ∀ flags : Byte,
    ((flags ||| dgeRan) &&& dgeRole != 0) = (flags &&& dgeRole != 0) := by decide

theorem role_clear_ran : ∀ flags : Byte,
    ((flags &&& ~~~dgeRan) &&& dgeRole != 0) = (flags &&& dgeRole != 0) := by decide

theorem role_clear_rsy : ∀ flags : Byte,
    ((flags &&& ~~~dgeRsy) &&& dgeRole != 0) = (flags &&& dgeRole != 0) := by decide

theorem role_gone : ∀ flags : Byte,
    (((flags &&& ~~~(dgeNet ||| dgeWarm)) ||| dgeLeft) &&& dgeRole != 0) =
      (flags &&& dgeRole != 0) := by decide

theorem clear_rsy_or_rsy : ∀ flags : Byte,
    (flags ||| dgeRsy) &&& ~~~dgeRsy = flags &&& ~~~dgeRsy := by decide

/-! ### The shim -/

/-- The cells of the transport and of the boundary, which a frame leaves alone
once the boundary has committed. -/
structure Held (before after : Console) : Prop where
  tick : after.dgTick = before.dgTick
  loc : after.dgLoc = before.dgLoc
  ring : after.dgRing = before.dgRing
  rwat : after.dgRwat = before.dgRwat
  rdn : after.dgRdn = before.dgRdn
  nst : after.dgNst = before.dgNst
  seq : after.dgSeq = before.dgSeq
  crcv : after.dgCrcv = before.dgCrcv

theorem dgNt2_held : Held console (dgNt2 ports console) := by
  constructor <;> rfl

theorem dgNt2_net : (dgNt2 ports console).has dgeNet = console.has dgeNet := by
  show (((console.dgEnt ||| dgeRan) + 0x40) &&& dgeNet != 0) = _
  rw [net_phase, net_or_ran, has]

theorem dgNt2_ran : (dgNt2 ports console).has dgeRan = true := by
  show (((console.dgEnt ||| dgeRan) + 0x40) &&& dgeRan != 0) = _
  rw [ran_phase, ran_or_ran]

theorem dgNt2_role : (dgNt2 ports console).has dgeRole = console.has dgeRole := by
  show (((console.dgEnt ||| dgeRan) + 0x40) &&& dgeRole != 0) = _
  rw [role_phase, role_or_ran, has]

theorem dgStall_held : Held console (dgStall console) := by
  unfold dgStall dgGone
  split <;> constructor <;> rfl

theorem dgStall_ran : (dgStall console).has dgeRan = console.has dgeRan := by
  unfold dgStall
  split
  · rfl
  · exact ran_gone console.dgEnt

theorem dgStall_role : (dgStall console).has dgeRole = console.has dgeRole := by
  unfold dgStall
  split
  · rfl
  · exact role_gone console.dgEnt

/-- A stall that does not give the match up leaves the bank and the flags. -/
theorem dgStall_stays (stays : (dgStall console).bank = .game) :
    console.bank = .game ∧ (dgStall console).dgEnt = console.dgEnt := by
  unfold dgStall at stays ⊢
  split at stays
  · rename_i counted
    exact ⟨stays, by rw [if_pos counted]⟩
  · cases stays

theorem dgNt1b_held (ports : Ports) (console : Console) :
    Held console (dgNt1b ports console) := by
  unfold dgNt1b
  split
  · exact dgNt2_held
  · exact dgStall_held

theorem dgNt1b_ran (notRan : console.has dgeRan = false) :
    (dgNt1b ports console).has dgeRan = console.gateOpen := by
  unfold dgNt1b
  split
  · rename_i passes
    rw [dgNt2_ran, passes]
  · rename_i stalls
    rw [dgStall_ran, notRan]
    simpa using stalls

theorem dgNt1b_role : (dgNt1b ports console).has dgeRole = console.has dgeRole := by
  unfold dgNt1b
  split
  · exact dgNt2_role
  · exact dgStall_role

theorem dgNt1b_net (stays : (dgNt1b ports console).bank = .game) :
    (dgNt1b ports console).has dgeNet = console.has dgeNet := by
  unfold dgNt1b at stays ⊢
  split
  · exact dgNt2_net
  · rename_i stalls
    rw [if_neg stalls] at stays
    simp only [has, (dgStall_stays stays).2]

/-! ### The boundary -/

/-- The capture changes nothing but the repair flag. -/
theorem dgCap_console (ports : Ports) (console : Console) :
    (dgCap ports console).2 = console ∨
      (dgCap ports console).2 =
        { console with dgEnt := console.dgEnt &&& ~~~dgeRsy } := by
  unfold dgCap dgRsy
  split
  · exact Or.inr rfl
  · exact Or.inl rfl

theorem dgNt1_retry (ports : Ports) (retry : console.has dgeRan = false) :
    dgNt1 ports console = console := by
  simp [dgNt1, retry]

/-- A boundary that advances: the tick, the checksum and the one slot of the
local ring it captures into. -/
structure Committed (ports : Ports) (before after : Console) : Prop where
  tick : after.dgTick = before.dgTick + 1
  crcv : after.dgCrcv = dgCrc before.ram
  loc : after.dgLoc =
    Function.update before.dgLoc (localSlot (before.dgTick + 1 + dgD))
      (before.capture ports)
  ring : after.dgRing = before.dgRing
  rwat : after.dgRwat = before.dgRwat
  rdn : after.dgRdn = before.dgRdn
  nst : after.dgNst = before.dgNst
  seq : after.dgSeq = before.dgSeq
  bank : after.bank = before.bank

theorem dgNt1_committed (ports : Ports) (ran : console.has dgeRan = true) :
    Committed ports console (dgNt1 ports console) := by
  rw [dgNt1, if_pos ran]
  rcases dgCap_console ports console.sample with same | same
  all_goals
    rw [same]
    constructor <;> rfl

/-- No boundary touches the cells of the transport. -/
theorem dgNt1_leaves (ports : Ports) (console : Console) :
    (dgNt1 ports console).dgNst = console.dgNst ∧
      (dgNt1 ports console).dgSeq = console.dgSeq ∧
      (dgNt1 ports console).dgRdn = console.dgRdn ∧
      (dgNt1 ports console).dgRwat = console.dgRwat ∧
      (dgNt1 ports console).dgRing = console.dgRing := by
  cases ran : console.has dgeRan with
  | true =>
      have committed := dgNt1_committed ports ran
      exact ⟨committed.nst, committed.seq, committed.rdn, committed.rwat, committed.ring⟩
  | false =>
      rw [dgNt1_retry ports ran]
      exact ⟨rfl, rfl, rfl, rfl, rfl⟩

/-- The bytes of `dgEnt` after a boundary that advances. -/
theorem dgNt1_flags (ports : Ports) (ran : console.has dgeRan = true) :
    (dgNt1 ports console).dgEnt = console.dgEnt &&& ~~~dgeRan ∨
      (dgNt1 ports console).dgEnt = console.dgEnt &&& ~~~dgeRan &&& ~~~dgeRsy := by
  rw [dgNt1, if_pos ran]
  rcases dgCap_console ports console.sample with same | same
  · exact Or.inl (congrArg dgEnt same)
  · exact Or.inr (congrArg dgEnt same)

@[simp] theorem assume_has {mask : Byte} : console.assume.has mask = console.has mask :=
  rfl

/-- The assumption that the sim advances does not reach the boundary. -/
theorem dgNt1_assume (ports : Ports) (console : Console) :
    dgNt1 ports console.assume = (dgNt1 ports console).assume := by
  unfold dgNt1 dgCap dgRsy
  rw [assume_has, show console.assume.sample.has dgeRsy = console.sample.has dgeRsy from rfl]
  split
  · split <;> rfl
  · rfl

theorem dgNt1_net : (dgNt1 ports console).has dgeNet = console.has dgeNet := by
  cases ran : console.has dgeRan with
  | false => rw [dgNt1_retry ports ran]
  | true =>
      unfold has
      rcases dgNt1_flags ports ran with same | cleared
      · rw [same, net_clear_ran]
      · rw [cleared, net_clear_rsy, net_clear_ran]

theorem dgNt1_role : (dgNt1 ports console).has dgeRole = console.has dgeRole := by
  cases ran : console.has dgeRan with
  | false => rw [dgNt1_retry ports ran]
  | true =>
      unfold has
      rcases dgNt1_flags ports ran with same | cleared
      · rw [same, role_clear_ran]
      · rw [cleared, role_clear_rsy, role_clear_ran]

theorem dgNt1_ran : (dgNt1 ports console).has dgeRan = false := by
  cases ran : console.has dgeRan with
  | false => rw [dgNt1_retry ports ran, ran]
  | true =>
      unfold has
      rcases dgNt1_flags ports ran with same | cleared
      · rw [same, ran_clear_ran]
      · rw [cleared, ran_clear_rsy, ran_clear_ran]

/-! ### The mixer -/

/-- The sim clock counts in two cells and leaves the sticks. -/
theorem countFrame_other {ram : Ram} {cell : Byte} (notFrame : cell ≠ frameCnt)
    (notAttract : cell ≠ attract) : countFrame ram cell = ram cell := by
  unfold countFrame
  simp only []
  split
  · exact Function.update_of_ne notFrame _ _
  · rw [Function.update_of_ne notAttract, Function.update_of_ne notFrame]

/-- The two bytes of a tick, player 0's first. -/
def inOrder (role : Bool) (ran : Ran) : Byte × Byte :=
  if role then (ran.peer, ran.own) else (ran.own, ran.peer)

/-- The cells the game reads are a function of the two bytes in order, but for
the bits of `swb` that stay local. -/
structure Mixed (role : Bool) (ran : Ran) : Prop where
  joy0 : ran.joy0 = (inOrder role ran).1 &&& iwStick
  joy1 : ran.joy1 = (inOrder role ran).2 &&& iwStick
  trig0 : ran.trig0 = (inOrder role ran).1 &&& iwTrig
  trig1 : ran.trig1 = (inOrder role ran).2 &&& iwTrig
  swb : ran.swb &&& 3#8 = (((inOrder role ran).1 &&& (inOrder role ran).2) >>> 4) &&& 3#8

theorem swb_low (local_ mixed : Byte) :
    (((local_ &&& 0x08#8) ||| (mixed &&& 0x03#8)) ||| 0xF4#8) &&& 3#8 = mixed &&& 3#8 := by
  rw [BitVec.and_or_distrib_right, BitVec.and_or_distrib_right, BitVec.and_assoc,
    BitVec.and_assoc]
  simp

theorem dgMix_mixed (role : Bool) (gate console : Console) (first second : Byte)
    (order : (first, second) =
      if role then (gate.peerByte, gate.ownByte) else (gate.ownByte, gate.peerByte)) :
    Mixed role (ran gate (dgClk (dgPhi { dgMix ports first second console with
      dgEnt := (dgMix ports first second console).dgEnt ||| dgeRan }))) := by
  have same : ∀ after, inOrder role (ran gate after) = (first, second) := by
    intro after
    rw [order]
    rfl
  refine ⟨?_, ?_, ?_, ?_, ?_⟩
  · rw [same]
    show countFrame (Function.update (Function.update console.ram DragsterNet.joy0
      (first &&& iwStick)) DragsterNet.joy1 (second &&& iwStick)) DragsterNet.joy0 = _
    rw [countFrame_other (by decide) (by decide), Function.update_of_ne (by decide),
      Function.update_self]
  · rw [same]
    show countFrame (Function.update (Function.update console.ram DragsterNet.joy0
      (first &&& iwStick)) DragsterNet.joy1 (second &&& iwStick)) DragsterNet.joy1 = _
    rw [countFrame_other (by decide) (by decide), Function.update_self]
  · rw [same]
    rfl
  · rw [same]
    rfl
  · rw [same]
    exact swb_low _ _

/-- A tick that runs mixes the bytes the gate found in the rings. -/
theorem dgNt1b_mixed (ports : Ports) (opened : console.gateOpen = true) :
    Mixed (console.has dgeRole) (ran console (dgNt1b ports console)) := by
  rw [dgNt1b, if_pos opened]
  unfold dgNt2
  cases role : console.has dgeRole with
  | true =>
      have cleared : Console.has { console with dgErr := console.dgErr &&& 0x0F }
          dgeRole = true := role
      simp only [cleared, if_true]
      exact dgMix_mixed true console _ _ _ rfl
  | false =>
      have cleared : Console.has { console with dgErr := console.dgErr &&& 0x0F }
          dgeRole = false := role
      simp only [cleared, Bool.false_eq_true, if_false]
      exact dgMix_mixed false console _ _ _ rfl

/-! ### The transport -/

/-- The cells of the boundary, which no step of the transport touches; of the
flags it can set the repair alone. -/
structure SameBoundary (before after : Console) : Prop where
  tick : after.dgTick = before.dgTick
  loc : after.dgLoc = before.dgLoc
  crcv : after.dgCrcv = before.dgCrcv
  bank : after.bank = before.bank
  flags : after.dgEnt &&& ~~~dgeRsy = before.dgEnt &&& ~~~dgeRsy

theorem SameBoundary.rfl : SameBoundary console console := by
  constructor <;> rfl

theorem SameBoundary.trans (one : SameBoundary before after)
    (two : SameBoundary after later) : SameBoundary before later where
  tick := two.tick.trans one.tick
  loc := two.loc.trans one.loc
  crcv := two.crcv.trans one.crcv
  bank := two.bank.trans one.bank
  flags := two.flags.trans one.flags

theorem SameBoundary.net (same : SameBoundary before after) :
    after.has dgeNet = before.has dgeNet := by
  unfold has
  rw [← net_clear_rsy after.dgEnt, same.flags, net_clear_rsy]

theorem SameBoundary.ran (same : SameBoundary before after) :
    after.has dgeRan = before.has dgeRan := by
  unfold has
  rw [← ran_clear_rsy after.dgEnt, same.flags, ran_clear_rsy]

theorem SameBoundary.role (same : SameBoundary before after) :
    after.has dgeRole = before.has dgeRole := by
  unfold has
  rw [← role_clear_rsy after.dgEnt, same.flags, role_clear_rsy]

theorem dgsFail_sameBoundary : SameBoundary console (dgsFail console) := by
  constructor <;> rfl

theorem dgsWack_sameBoundary :
    SameBoundary console (dgsWack painted console) := by
  unfold dgsWack
  repeat' split
  all_goals constructor <;> rfl

theorem dgsSack_sameBoundary :
    SameBoundary console (dgsSack painted console) := by
  unfold dgsSack
  repeat' split
  all_goals constructor <;> rfl

theorem dgsRack_sameBoundary :
    SameBoundary console (dgsRack painted console) := by
  unfold dgsRack
  repeat' split
  all_goals constructor <;> rfl

theorem detectDesync_sameBoundary {tick crc : Byte} :
    SameBoundary console (detectDesync tick crc console) := by
  unfold detectDesync
  repeat' split
  any_goals exact .rfl
  exact ⟨Eq.refl _, Eq.refl _, Eq.refl _, Eq.refl _, clear_rsy_or_rsy console.dgEnt⟩

theorem raiseWatermark_sameBoundary {tick : Byte} :
    SameBoundary console (raiseWatermark tick console) := by
  unfold raiseWatermark
  split
  all_goals constructor <;> rfl

theorem consumeAt_sameBoundary {reply : Nat → Byte} {y : Nat} :
    SameBoundary console (consumeAt reply y console) := by
  unfold consumeAt
  repeat' split
  · have stored : SameBoundary console (storeWindow (reply (y + 2)) (reply (y + 3))
        (reply (y + 4)) (reply (y + 5)) console) := by
      constructor <;> rfl
    exact (stored.trans detectDesync_sameBoundary).trans raiseWatermark_sameBoundary
  all_goals constructor <;> rfl

theorem dgsCons_sameBoundary :
    SameBoundary console (dgsCons painted console) := by
  unfold dgsCons
  split
  · constructor <;> rfl
  · have counted : SameBoundary console
        { console with dgRdn := console.dgRdn - 1 } := by
      constructor <;> rfl
    exact counted.trans consumeAt_sameBoundary

theorem dgNstep_sameBoundary :
    SameBoundary console (dgNstep painted console).1 := by
  unfold dgNstep
  split
  · exact .rfl
  · constructor <;> rfl
  · exact dgsWack_sameBoundary
  · constructor <;> rfl
  · exact dgsSack_sameBoundary
  · constructor <;> rfl
  · exact dgsRack_sameBoundary
  · exact dgsCons_sameBoundary
  · exact dgsFail_sameBoundary

end Console

namespace Desk

open Console

variable {ports : Ports} {ram : Ram} {painted : Painted} {desk after : Desk}
  {request : Option Request}

/-- What one frame's hook does in a match. -/
inductive Hooked (ports : Ports) (before : Console) (desk after : Desk) : Prop where
  /-- Between boundaries nothing is recorded. -/
  | between (phase : before.has dgePh = true) (quiet : before.runsTick ports = false)
      (held : Held before after.console)
      (bank : after.console.bank = before.bank)
      (net : after.console.has dgeNet = before.has dgeNet)
      (ran : after.console.has dgeRan = before.has dgeRan)
      (role : after.console.has dgeRole = before.has dgeRole)
      (caps : after.caps = desk.caps) (crcs : after.crcs = desk.crcs)
      (runs : after.runs = desk.runs)
  /-- A boundary commits, when it advances, and then runs or stalls. -/
  | boundary (phase : before.has dgePh = false)
      (decides : before.runsTick ports = (before.dgNt1 ports).gateOpen)
      (held : Held (before.dgNt1 ports) after.console)
      (net : after.console.bank = .game → after.console.has dgeNet = before.has dgeNet)
      (ran : after.console.has dgeRan = (before.dgNt1 ports).gateOpen)
      (role : after.console.has dgeRole = before.has dgeRole)
      (mixed : (before.dgNt1 ports).gateOpen = true →
        Mixed (before.has dgeRole) (Console.ran (before.dgNt1 ports) after.console))
      (caps : after.caps =
        if before.has dgeRan then desk.caps ++ [before.capture ports] else desk.caps)
      (crcs : after.crcs =
        if before.has dgeRan then desk.crcs ++ [dgCrc before.ram] else desk.crcs)
      (runs : after.runs =
        if (before.dgNt1 ports).gateOpen then
          desk.runs ++ [Console.ran (before.dgNt1 ports) after.console]
        else desk.runs)

/-- Once the boot bank has taken over there is no hook. -/
theorem hook_bank (taken : desk.hook ports ram = some after) :
    desk.console.bank = .game := by
  by_contra other
  simp [hook, other] at taken

theorem hook_cases (net : desk.console.has dgeNet = true)
    (taken : desk.hook ports ram = some after) :
    desk.waiting = false ∧ desk.console.bank = .game ∧
      after.writes = desk.writes ∧
      after.waiting =
        (after.console.bank == .game && after.console.has dgeNet) ∧
      Hooked ports (desk.atHook ram) desk after := by
  unfold hook at taken
  split at taken
  · cases taken
  rename_i enabled
  obtain ⟨notWaiting, bank⟩ : desk.waiting = false ∧ desk.console.bank = .game := by
    simpa using enabled
  obtain rfl := Option.some.inj taken
  refine ⟨notWaiting, bank, rfl, rfl, ?_⟩
  have shim : (desk.atHook ram).dgShim ports =
      dgNet ports (desk.atHook ram).assume := if_pos net
  cases phase : (desk.atHook ram).has dgePh with
  | true =>
      have mid : (desk.atHook ram).dgShim ports =
          dgClk (dgPhi (desk.atHook ram).assume) :=
        shim.trans (if_pos phase)
      have off : (desk.atHook ram).atBoundary = false := by
        simp [atBoundary, phase]
      refine .between phase ?_ ?_ ?_ ?_ ?_ ?_ ?_ ?_ ?_
      · simp [runsTick, off]
      · simp only [mid]
        constructor <;> rfl
      · simp only [mid]
        rfl
      · simp only [mid]
        exact net_phase (desk.atHook ram).dgEnt
      · simp only [mid]
        exact ran_phase (desk.atHook ram).dgEnt
      · simp only [mid]
        exact role_phase (desk.atHook ram).dgEnt
      all_goals simp [advances, runsTick, off]
  | false =>
      have boundary : (desk.atHook ram).dgShim ports =
          dgNt1b ports ((desk.atHook ram).dgNt1 ports).assume := by
        rw [shim, dgNet, if_neg (by simp [phase]), dgNt1_assume]
      have on : (desk.atHook ram).atBoundary = true := by
        simp only [atBoundary, phase, Bool.not_false, Bool.and_true]
        exact net
      refine .boundary phase ?_ ?_ ?_ ?_ ?_ ?_ ?_ ?_ ?_
      · simp [runsTick, on]
      · simp only [boundary]
        have held := dgNt1b_held ports ((desk.atHook ram).dgNt1 ports).assume
        exact ⟨held.tick, held.loc, held.ring, held.rwat, held.rdn, held.nst,
          held.seq, held.crcv⟩
      · simp only [boundary]
        intro stays
        exact (dgNt1b_net stays).trans dgNt1_net
      · simp only [boundary]
        exact dgNt1b_ran dgNt1_ran
      · simp only [boundary]
        exact dgNt1b_role.trans dgNt1_role
      · simp only [boundary]
        intro opened
        have mixed := dgNt1b_mixed ports
          (show ((desk.atHook ram).dgNt1 ports).assume.gateOpen = true from opened)
        rw [assume_has, dgNt1_role] at mixed
        exact mixed
      · simp [advances, on]
      · simp only [advances, on, Bool.true_and]
        rfl
      · simp [runsTick, on]

/-- What one micro-step does: the machine's step, recorded when it wrote. -/
structure Stepped (painted : Painted) (desk after : Desk) (request : Option Request) :
    Prop where
  waiting : desk.waiting = true
  still : after.waiting = true
  console : after.console = (desk.console.dgNstep painted).1
  request : request = (desk.console.dgNstep painted).2
  caps : after.caps = desk.caps
  crcs : after.crcs = desk.crcs
  runs : after.runs = desk.runs
  writes : after.writes =
    if desk.console.dgNst = .wiss then
      desk.writes ++ [⟨desk.caps.length - 1, desk.console.record⟩]
    else desk.writes

theorem step_cases (taken : desk.step painted = some (after, request)) :
    Stepped painted desk after request := by
  unfold step at taken
  split at taken
  · rename_i waiting
    obtain ⟨rfl, rfl⟩ := Prod.mk.inj (Option.some.inj taken)
    refine ⟨waiting, waiting, rfl, rfl, rfl, rfl, rfl, ?_⟩
    cases desk.console.dgNst <;> rfl
  · cases taken

theorem spin_cases (taken : desk.spin = some after) :
    after = { desk with waiting := false } := by
  unfold spin at taken
  split at taken
  · exact (Option.some.inj taken).symm
  · cases taken

end Desk

end DragsterNet
