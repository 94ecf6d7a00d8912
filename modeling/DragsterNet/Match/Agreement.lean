/-
Module: DragsterNet.Match.Agreement
Purpose: What lockstep gives a match: no captured tick skipped, no byte in the
  ring replaced before it is used, and both consoles running every tick on the
  same two bytes; each under the condition on the schedule it needs.
Trusted boundary: none
Main exports: Match.no_tick_skipped, Match.ring_keeps, Match.lockstep_agreement
-/
import DragsterNet.Match.Lockstep

namespace DragsterNet

open Lib

namespace Seat

open Console

variable {peer : Int → Byte} {seat after me other me' other' : Seat} {act : Act}
  {ports : Ports} {ram : Ram}

/-! ### The conditions on one action -/

/-- A boundary advances only while at most two captures are newer than the last
record. -/
def Prompt (seat : Seat) (act : Act) : Prop :=
  ∀ deskAct ∈ seat.deskAct act, Desk.Prompt seat.desk deskAct

/-- A record that is consumed is at most five ticks behind the watermark, or
every tick up to the watermark has run. -/
def Fresh (seat : Seat) : Act → Prop
  | .step => seat.consuming = true → ∀ posted ∈ seat.unread.getLast?,
      seat.ring.mark ≤ posted.stamp + 5 ∨ seat.ring.mark < seat.ring.next
  | _ => True

instance (seat : Seat) (act : Act) : Decidable (Prompt seat act) :=
  inferInstanceAs (Decidable (∀ deskAct ∈ seat.deskAct act, _))

instance (seat : Seat) (act : Act) : Decidable (Fresh seat act) :=
  match act with
  | .step => inferInstanceAs (Decidable (_ → _))
  | .hook _ _ | .feed _ | .spin | .deliver _ | .serve | .ack => isTrue trivial

/-- The skew keeps every record less than a lap ahead, so a fresh one fits. -/
theorem fresh_roomy (one : Linked me other) (two : Linked other me)
    (fresh : Fresh me act) : Roomy me act := by
  cases act with
  | step =>
      intro consuming posted isLast
      have isUnread := List.mem_of_getLast? isLast
      have ahead := (skew one two).2.1 posted.stamp (unread_stamp isUnread)
      have small : (dgWin : Int) = 3 := rfl
      refine ⟨by omega, ?_⟩
      rcases fresh consuming posted isLast with near | used
      · exact Or.inl (by omega)
      · exact Or.inr used
  | hook _ _ => trivial
  | spin => trivial
  | deliver _ => trivial
  | serve => trivial
  | ack => trivial
  | feed _ => trivial

/-! ### The pace of both consoles -/

theorem steady_exchange (one : Linked me other) (steady : me.desk.Steady)
    (steady' : other.desk.Steady) (prompt : Prompt me act)
    (taken : me.exchange other act = some (me', other')) :
    me'.desk.Steady ∧ other'.desk.Steady := by
  have mine : ∀ {acted : Seat}, me.next act = some acted → acted.desk.Steady := by
    intro acted isNext
    rcases desk_next isNext with ⟨deskAct, isDeskAct, moved⟩ | same
    · exact Desk.steady_next one.receives.truthful one.paced steady
        (prompt deskAct isDeskAct) moved
    · rw [same]
      exact steady
  cases exchange_cases one.receives taken with
  | alone acted _ _ same => exact ⟨mine acted, same ▸ steady'⟩
  | sends acted _ _ fed => exact ⟨mine acted, fed ▸ steady'⟩

/-! ### The bytes a tick ran on -/

/-- Every tick that ran took this console's own capture and the peer's, and
mixed them in the order of the roles. -/
def RanTrue (peer : Int → Byte) (top : Int) (desk : Desk) : Prop :=
  ∀ (tick : Nat) (ran : Ran), desk.runs[tick]? = some ran →
    ran.own = captureFor desk.caps tick ∧ ran.peer = peer tick ∧ (tick : Int) ≤ top ∧
      Mixed (desk.console.has dgeRole) ran

/-- The tick that runs now finds its two bytes in the rings. -/
theorem ran_gate {desk : Desk} (receives : Receives peer seat) (gapless : Gapless seat)
    (kept : Kept peer seat) (settled : Settled seat (.hook ports ram))
    (truthful : desk.Truthful)
    (held : Held ((seat.desk.atHook ram).dgNt1 ports) desk.console)
    (length : seat.ring.next + 1 = (desk.caps.length : Int))
    (runs : seat.runsTick ports ram = true) :
    ((seat.desk.atHook ram).dgNt1 ports).ownByte = captureFor desk.caps seat.ring.next ∧
      ((seat.desk.atHook ram).dgNt1 ports).peerByte = peer seat.ring.next := by
  have tick : ((seat.desk.atHook ram).dgNt1 ports).dgTick = tickCell seat.ring.next :=
    gate_tick receives
  refine ⟨?_, ?_⟩
  · rw [ownByte, tick, ← held.loc]
    exact truthful.loc _ (by omega) (by omega)
  · rw [peerByte, tick, (dgNt1_leaves ports _).2.2.2.2]
    exact kept _ le_rfl ⟨_, stored_next receives gapless settled runs⟩

theorem ran_hook {top : Int} (receives : Receives peer seat) (gapless : Gapless seat)
    (kept : Kept peer seat) (settled : Settled seat (.hook ports ram))
    (bound : seat.ring.mark ≤ top) (ranTrue : RanTrue peer top seat.desk)
    (taken : seat.hook ports ram = some after) : RanTrue peer top after.desk := by
  obtain ⟨desk, hooked, rfl⟩ := Option.map_eq_some_iff.mp taken
  have truthful := Desk.truthful_hook receives.truthful hooked
  have net := receives.truthful.net (Desk.hook_bank hooked)
  have count := receives.next
  have turn := turn_bounds receives
  obtain ⟨-, -, -, -, cases⟩ := Desk.hook_cases net hooked
  cases cases with
  | between phase quiet held bank net' ran role caps crcs runs =>
      have sameRole : desk.console.has dgeRole = seat.desk.console.has dgeRole := role
      intro tick isRan
      simp only [runs, caps, sameRole]
      exact ranTrue tick isRan
  | boundary phase decides held net' ran role mixed caps crcs runs =>
      have sameRole : desk.console.has dgeRole = seat.desk.console.has dgeRole := role
      have advanced := boundary_length receives caps
      have grown : ∀ tick : Int, tick ≤ seat.desk.caps.length + 1 →
          captureFor desk.caps tick = captureFor seat.desk.caps tick := by
        intro tick small
        rw [caps]
        split
        · exact captureFor_append _ _ small
        · rfl
      have old : ∀ (tick : Nat) (isRan : Ran), seat.desk.runs[tick]? = some isRan →
          isRan.own = captureFor desk.caps tick ∧ isRan.peer = peer tick ∧
            (tick : Int) ≤ top ∧ Mixed (desk.console.has dgeRole) isRan := by
        intro tick isRan found
        obtain ⟨own, theirs, small, mix⟩ := ranTrue tick isRan found
        have inside : tick < seat.desk.runs.length :=
          (List.getElem?_eq_some_iff.mp found).1
        rw [grown tick (by omega), sameRole]
        exact ⟨own, theirs, small, mix⟩
      intro tick isRan found
      rw [runs] at found
      split at found
      · rename_i opened
        have runsIs : seat.runsTick ports ram = true := decides.trans opened
        rcases Nat.lt_trichotomy tick seat.desk.runs.length with before | same | past
        · rw [List.getElem?_append_left before] at found
          exact old tick isRan found
        · subst same
          rw [List.getElem?_concat_length] at found
          obtain rfl := Option.some.inj found
          obtain ⟨own, theirs⟩ :=
            ran_gate receives gapless kept settled truthful held advanced runsIs
          have passes := gate_passes receives opened
          rw [count] at own theirs
          exact ⟨own, theirs, by omega, sameRole ▸ mixed opened⟩
        · rw [List.getElem?_eq_none (by simp; omega)] at found
          cases found
      · exact old tick isRan found

/-- The other actions run nothing. -/
theorem ran_other {top : Int} (ranTrue : RanTrue peer top seat.desk) (taken : seat.next act = some after)
    (notHook : ∀ ports ram, act ≠ .hook ports ram) : RanTrue peer top after.desk := by
  rcases desk_next taken with ⟨deskAct, isDeskAct, moved⟩ | same
  · cases act with
    | hook ports ram => exact absurd rfl (notHook ports ram)
    | step =>
        obtain rfl := Option.some.inj isDeskAct
        obtain ⟨⟨stepped, request⟩, taken', isAfter⟩ := Option.map_eq_some_iff.mp moved
        have isStep := Desk.step_cases taken'
        have unchanged : SameBoundary seat.desk.console stepped.console := by
          rw [isStep.console]
          exact dgNstep_sameBoundary
        rw [← isAfter]
        intro tick ran
        rw [isStep.runs, isStep.caps, unchanged.role]
        exact ranTrue tick ran
    | spin =>
        obtain rfl := Option.some.inj isDeskAct
        rw [Desk.spin_cases moved]
        exact ranTrue
    | deliver _ => cases isDeskAct
    | serve => cases isDeskAct
    | ack => cases isDeskAct
    | feed _ => cases isDeskAct
  · rw [same]
    exact ranTrue

/-! ### Roles -/

theorem role_next (truthful : seat.desk.Truthful) (taken : seat.next act = some after) :
    after.desk.console.has dgeRole = seat.desk.console.has dgeRole := by
  rcases desk_next taken with ⟨deskAct, -, moved⟩ | same
  · cases deskAct with
    | hook ports ram =>
        obtain ⟨-, -, -, -, hooked⟩ :=
          Desk.hook_cases (truthful.net (Desk.hook_bank moved)) moved
        cases hooked with
        | between _ _ _ _ _ _ role => exact role
        | boundary _ _ _ _ _ role => exact role
    | step painted =>
        obtain ⟨⟨stepped, request⟩, taken', isAfter⟩ := Option.map_eq_some_iff.mp moved
        rw [← isAfter, (Desk.step_cases taken').console]
        exact dgNstep_sameBoundary.role
    | spin => rw [Desk.spin_cases moved]
  · rw [same]

theorem role_exchange (one : Linked me other)
    (taken : me.exchange other act = some (me', other')) :
    me'.desk.console.has dgeRole = me.desk.console.has dgeRole ∧
      other'.desk.console.has dgeRole = other.desk.console.has dgeRole := by
  cases exchange_cases one.receives taken with
  | alone acted _ _ same => exact ⟨role_next one.receives.truthful acted, by rw [same]⟩
  | sends acted _ _ fed => exact ⟨role_next one.receives.truthful acted, by rw [fed]; rfl⟩

/-! ### Both halves together -/

/-- Everything the agreement rests on, of `me` against `other`. -/
structure Faithful (me other : Seat) : Prop where
  linked : Linked me other
  steady : me.desk.Steady
  gapless : Gapless me
  kept : Kept (captureFor other.desk.caps) me
  ran : RanTrue (captureFor other.desk.caps) (other.desk.caps.length + 1) me.desk

theorem faithful_start {role role' seq seq' : Byte} {ram ram' : Ram}
    {painted painted' : Painted} (isRole : role = 0 ∨ role = dgeRole) :
    Faithful (start role seq ram painted) (start role' seq' ram' painted') where
  linked := linked_start isRole
  steady := Desk.steady_start
  gapless := gapless_start
  kept := kept_start fun tick small => if_pos small
  ran := by
    intro tick ran found
    simp [start, Desk.start] at found

/-- The acting console, under the conditions on its action. -/
theorem faithful_acts (one : Faithful me other) (two : Linked other me)
    (settled : Settled me act) (fresh : Fresh me act) (acted : me.next act = some me')
    (notFed : ∀ posted, act ≠ .feed posted) :
    Gapless me' ∧ Kept (captureFor other.desk.caps) me' ∧
      RanTrue (captureFor other.desk.caps) (other.desk.caps.length + 1) me'.desk := by
  have receives := one.linked.receives
  refine ⟨?_, ?_, ?_⟩
  · exact gapless_next receives one.gapless
      (fun posted isFeed => absurd isFeed (notFed posted)) acted
  · exact kept_next receives one.kept (fresh_roomy one.linked two fresh) acted
  · cases act with
    | hook ports ram =>
        exact ran_hook receives one.gapless one.kept settled (mark_bounded one.linked)
          one.ran acted
    | step | spin | deliver _ | serve | ack | feed _ =>
        exact ran_other one.ran acted fun _ _ => Act.noConfusion

/-- Its peer goes on reading the same captures. -/
theorem kept_watches (two : Faithful other me)
    (caps : me'.desk.caps = me.desk.caps ∨
      ∃ byte, me'.desk.caps = me.desk.caps ++ [byte]) :
    Kept (captureFor me'.desk.caps) other ∧
      RanTrue (captureFor me'.desk.caps) (me'.desk.caps.length + 1) other.desk := by
  rcases caps with same | ⟨byte, longer⟩
  · rw [same]
    exact ⟨two.kept, two.ran⟩
  · rw [longer]
    refine ⟨?_, ?_⟩
    · intro tick unused isStored
      have mark := mark_bounded two.linked
      have base := two.linked.bounded other.ring.base (by simp [stamps])
      obtain ⟨byte', isEntry⟩ := isStored
      have near := (two.linked.receives.stored _ isEntry).2
      rw [captureFor_append _ _ (by omega)]
      exact two.kept tick unused ⟨byte', isEntry⟩
    · intro tick ran found
      obtain ⟨own, theirs, small, mix⟩ := two.ran tick ran found
      rw [captureFor_append _ _ small, List.length_append]
      exact ⟨own, theirs, by push_cast; omega, mix⟩

theorem faithful_exchange (one : Faithful me other) (two : Faithful other me)
    (prompt : Prompt me act) (settled : Settled me act) (fresh : Fresh me act)
    (taken : me.exchange other act = some (me', other')) :
    Faithful me' other' ∧ Faithful other' me' := by
  obtain ⟨linked, linked'⟩ := linked_exchange one.linked two.linked taken
  obtain ⟨steady, steady'⟩ := steady_exchange one.linked one.steady two.steady prompt taken
  cases exchange_cases one.linked.receives taken with
  | alone acted notFed sent same =>
      obtain ⟨gapless, kept, ran⟩ := faithful_acts one two.linked settled fresh acted notFed
      obtain ⟨kept', ran'⟩ :=
        kept_watches two (caps_next one.linked.receives.truthful acted)
      subst same
      exact ⟨⟨linked, steady, gapless, kept, ran⟩,
        ⟨linked', steady', two.gapless, kept', ran'⟩⟩
  | @sends out sent acted notFed sends fed =>
      obtain ⟨gapless, kept, ran⟩ := faithful_acts one two.linked settled fresh acted notFed
      obtain ⟨kept', ran'⟩ :=
        kept_watches two (caps_next one.linked.receives.truthful acted)
      have next := sends_next sends one.steady.chain
      have stamp := sends_stamp sends
      have gapless' : Gapless (other.feed ⟨me.lastStamp, out⟩) := by
        refine ⟨chain_feed two.gapless.chain ?_, two.gapless.covered⟩
        rw [two.linked.newest]
        intro newest isNewest
        obtain ⟨tick, isTick, rfl⟩ := Option.map_eq_some_iff.mp isNewest
        obtain ⟨above, below⟩ := next tick isTick
        show GapFree dgWin (tick + 2) me.lastStamp
        exact ⟨by omega, by omega⟩
      subst fed
      exact ⟨⟨linked, steady, gapless, kept, ran⟩,
        ⟨linked', steady', gapless', kept', ran'⟩⟩

end Seat

namespace Match

open Console

variable {host guest : Setup} {table after : Match}

/-- The condition on an action of a match, read off the console that acts. -/
def Acting (Meets : Seat → Seat.Act → Prop) (table : Match) (act : Side × Seat.Act) :
    Prop :=
  Meets (table.seat act.1) act.2

instance (Meets : Seat → Seat.Act → Prop) [∀ seat act, Decidable (Meets seat act)]
    (table : Match) (act : Side × Seat.Act) : Decidable (Acting Meets table act) :=
  inferInstanceAs (Decidable (Meets (table.seat act.1) act.2))

/-! ### Schedules -/

def idleSetup : Setup := ⟨0, fun _ => 0, Seat.handOverMailbox⟩

def onTable : Match := start idleSetup idleSetup

/-- A frame with the trigger held. -/
def pressFrame : Seat.Act := .hook ⟨0xFF, 0xFF, 0x00, 0xFF⟩ fun _ => 0

def by_ (side : Side) (acts : List Seat.Act) : List (Side × Seat.Act) :=
  acts.map fun act => (side, act)

/-- `count` records wait in the socket; they are read and `steps` of the steps
that follow are taken. -/
def reading (count steps : Nat) : List Seat.Act :=
  [.deliver (8 * count)] ++ Seat.transaction ++ Seat.transaction ++
    List.replicate steps .step

/-- Both consoles write the record of tick 0; the guest, its trigger down at the
first boundary, reads the host's, runs three ticks and writes the record of tick
3; the host reads both and is about to consume. -/
def guestAhead : List (Side × Seat.Act) :=
  by_ .host (Seat.idleFrame :: Seat.transaction) ++
    by_ .guest (pressFrame :: Seat.transaction ++ reading 1 2 ++ Seat.frames 13 ++
      Seat.transaction) ++
    by_ .host (reading 2 0)

/-- The host, with two ticks of the guest in its ring, writes the record of tick
0 once more and waits for the acknowledgement while four ticks run. -/
def unacknowledged : List (Side × Seat.Act) :=
  by_ .host (Seat.idleFrame :: Seat.transaction) ++
    by_ .guest (Seat.idleFrame :: Seat.transaction ++ reading 1 2 ++ Seat.frames 9 ++
      Seat.transaction) ++
    by_ .host (reading 2 3 ++ [.step] ++ Seat.frames 17 ++ [.serve, .ack, .step] ++
      Seat.transaction ++ [.step])

/-- The remote ring is large enough for every record that is at most five ticks
behind the watermark: in every reachable state, consuming it leaves the slot of
every tick still to run, up to the watermark, with the peer's byte if it had
it. -/
theorem ring_keeps {side : Side} (run : Run Step always (start host guest) table)
    (taken : table.next (side, .step) = some after)
    (consuming : (table.seat side).consuming = true)
    (fresh : (table.seat side).Fresh .step) :
    (table.seat side).desk.console.dgRwat = tickCell (table.seat side).ring.mark ∧
      ∀ tick : Int, ((table.seat side).desk.runs.length : Int) ≤ tick →
        tick ≤ (table.seat side).ring.mark →
        (table.seat side).desk.console.dgRing (ringSlot (tickCell tick)) =
          captureFor (table.across side).desk.caps tick →
        (after.seat side).desk.console.dgRing (ringSlot (tickCell tick)) =
          captureFor (table.across side).desk.caps tick := by
  obtain ⟨one, two⟩ := (linked_run run).sides side
  have stepped : (table.seat side).step = some (after.seat side) := by
    obtain ⟨acted, isStep, pair⟩ := Option.map_eq_some_iff.mp (next_side taken)
    rw [← (Prod.mk.inj pair).1]
    exact isStep
  refine ⟨one.receives.rwat, ?_⟩
  intro tick notRun belowMark held
  obtain ⟨older, posted, eaten⟩ := Seat.step_eats one.receives stepped consuming
  have fits := Seat.fresh_roomy one two fresh consuming posted (by
    rw [eaten.unread, List.getLast?_concat]
    rfl)
  have unused : (table.seat side).ring.next ≤ tick := by
    rw [one.receives.next]
    exact notRun
  exact Seat.eaten_keeps one.receives eaten fits unused (Or.inl belowMark) held

theorem ring_keeps_ahead : ∃ table after : Match,
    Step table (.host, .step) after ∧
    (table.seat .host).desk.console.dgRwat = tickCell (table.seat .host).ring.mark ∧
      ∀ tick : Int, ((table.seat .host).desk.runs.length : Int) ≤ tick →
        tick ≤ (table.seat .host).ring.mark →
        (table.seat .host).desk.console.dgRing (ringSlot (tickCell tick)) =
          captureFor (table.across .host).desk.caps tick →
        (after.seat .host).desk.console.dgRing (ringSlot (tickCell tick)) =
          captureFor (table.across .host).desk.caps tick := by
  have outcome : ((guestAhead ++ by_ .host [.step]).foldlM next onTable).map
      (fun table => (table.host.consuming, decide (table.host.Fresh .step),
        (table.next (.host, .step)).isSome)) = some (true, true, true) := by
    decide +kernel
  obtain ⟨table, executed, isOutcome⟩ := Option.map_eq_some_iff.mp outcome
  simp only [Prod.mk.injEq, decide_eq_true_eq, Option.isSome_iff_exists] at isOutcome
  obtain ⟨consuming, fresh, after, taken⟩ := isOutcome
  exact ⟨table, after, taken, ring_keeps (Run.of_foldlM executed) taken consuming fresh⟩

/-- The guest writes the record of tick 0 twice; the host reads the first and
goes on to tick 3, whose record lets the guest go on to tick 6, where it presses
its trigger.  The host reads the duplicate and the record of tick 6 together,
and consumes the newer one. -/
def lateDuplicate : List (Side × Seat.Act) :=
  by_ .host (Seat.idleFrame :: Seat.transaction) ++
    by_ .guest (Seat.idleFrame :: Seat.transaction ++ Seat.transaction ++
      Seat.transaction) ++
    by_ .host (reading 1 2 ++ Seat.frames 13 ++ Seat.transaction) ++
    by_ .guest (reading 2 3 ++ Seat.frames 24 ++ [.spin, pressFrame] ++
      Seat.transaction) ++
    by_ .host (reading 2 1)

/-- The duplicate's oldest tick shares its slot with the newest tick of the
ring, and takes it. -/
theorem ring_replaced : ∃ table after : Match,
    Run Step always onTable table ∧ Step table (.host, .step) after ∧
      table.host.desk.runs.length = 3 ∧ table.host.ring.mark = 8 ∧
      table.host.desk.console.dgRing (ringSlot (tickCell 8)) =
        captureFor table.guest.desk.caps 8 ∧
      after.host.desk.console.dgRing (ringSlot (tickCell 8)) ≠
        captureFor table.guest.desk.caps 8 := by
  have outcome : (lateDuplicate.foldlM next onTable).map
      (fun table => (table.host.desk.runs.length, table.host.ring.mark,
        table.host.desk.console.dgRing (ringSlot (tickCell 8)),
        captureFor table.guest.desk.caps 8,
        (table.next (.host, .step)).map fun after =>
          after.host.desk.console.dgRing (ringSlot (tickCell 8)))) =
        some (3, 8, 0x7F, 0x7F, some 0xFF) := by decide +kernel
  obtain ⟨table, executed, isOutcome⟩ := Option.map_eq_some_iff.mp outcome
  simp only [Prod.mk.injEq] at isOutcome
  obtain ⟨ran, mark, held, captured, stepped⟩ := isOutcome
  obtain ⟨after, taken, replaced⟩ := Option.map_eq_some_iff.mp stepped
  refine ⟨table, after, Run.of_foldlM executed, taken, ran, mark, ?_, ?_⟩
  · rw [held, captured]
  · rw [replaced, captured]
    decide

theorem roles_next {act : Side × Seat.Act} (linked : Both Seat.Linked table)
    (taken : table.next act = some after) :
    after.host.desk.console.has dgeRole = table.host.desk.console.has dgeRole ∧
      after.guest.desk.console.has dgeRole = table.guest.desk.console.has dgeRole := by
  obtain ⟨side, act⟩ := act
  have exchanged := next_side taken
  cases side with
  | host => exact Seat.role_exchange linked.1 exchanged
  | guest => exact (Seat.role_exchange linked.2 exchanged).symm

/-- The host drives player 0 for the whole match. -/
theorem roles_run {meets : Match → Side × Seat.Act → Prop}
    (run : Run Step meets (start host guest) table) :
    table.host.desk.console.has dgeRole = false ∧
      table.guest.desk.console.has dgeRole = true := by
  have both := run.invariant
    (fun table => Both Seat.Linked table ∧
      table.host.desk.console.has dgeRole = false ∧
      table.guest.desk.console.has dgeRole = true)
    ⟨⟨Seat.linked_start (Or.inl rfl), Seat.linked_start (Or.inr rfl)⟩,
      (by decide : ((0 ||| (dgeNet ||| dgeRan)) &&& dgeRole != 0) = false),
      (by decide : ((dgeRole ||| (dgeNet ||| dgeRan)) &&& dgeRole != 0) = true)⟩ <| by
      rintro before act after ⟨linked, hostRole, guestRole⟩ - taken
      obtain ⟨sameHost, sameGuest⟩ := roles_next linked taken
      exact ⟨linked.next
          (fun one two _ exchanged => Seat.linked_exchange one two exchanged) taken,
        sameHost.trans hostRole, sameGuest.trans guestRole⟩
  exact both.2

/-- Every action meets the three conditions. -/
def Timely (seat : Seat) (act : Seat.Act) : Prop :=
  seat.Prompt act ∧ seat.Settled act ∧ seat.Fresh act

instance (seat : Seat) (act : Seat.Act) : Decidable (Timely seat act) :=
  inferInstanceAs (Decidable (_ ∧ _ ∧ _))

/-- Lockstep agreement, in every run whose actions are timely: every tick a
console ran took its own capture made `d` boundaries before and the peer's, and
so the two consoles gave the game the same input for it. -/
theorem lockstep_agreement
    (run : Run Step (Acting Timely) (start host guest) table) :
    (∀ (side : Side) (tick : Nat) (ran : Ran),
      (table.seat side).desk.runs[tick]? = some ran →
        captured? (table.seat side).desk.caps tick = some ran.own ∧
        captured? (table.across side).desk.caps tick = some ran.peer) ∧
      ∀ (tick : Nat) (one two : Ran), table.host.desk.runs[tick]? = some one →
        table.guest.desk.runs[tick]? = some two →
          one.joy0 = two.joy0 ∧ one.joy1 = two.joy1 ∧ one.trig0 = two.trig0 ∧
            one.trig1 = two.trig1 ∧ one.swb &&& 3#8 = two.swb &&& 3#8 := by
  have both := run.invariant (Both Seat.Faithful)
    ⟨Seat.faithful_start (Or.inl rfl), Seat.faithful_start (Or.inr rfl)⟩ <| by
      intro before act after both timely taken
      refine both.next ?_ taken
      rintro me other me' other' one two rfl exchanged
      exact Seat.faithful_exchange one two timely.1 timely.2.1 timely.2.2 exchanged
  obtain ⟨hostRole, guestRole⟩ := roles_run run
  refine ⟨?_, ?_⟩
  · intro side tick ran found
    have faithful := both.side side
    obtain ⟨own, theirs, small, -⟩ := faithful.ran tick ran found
    have inside := (List.getElem?_eq_some_iff.mp found).1
    have count := faithful.linked.receives.next
    have turn := Seat.turn_bounds faithful.linked.receives
    rw [captured?_eq (by omega), captured?_eq (by omega), own, theirs]
    exact ⟨rfl, rfl⟩
  · intro tick one two foundOne foundTwo
    obtain ⟨own, theirs, -, mix⟩ := both.1.ran tick one foundOne
    obtain ⟨own', theirs', -, mix'⟩ := both.2.ran tick two foundTwo
    have order : inOrder false one = inOrder true two := by
      simp only [inOrder, Bool.false_eq_true, if_false, if_true, own, theirs, own', theirs']
    rw [hostRole] at mix
    rw [guestRole] at mix'
    exact ⟨by rw [mix.joy0, mix'.joy0, order], by rw [mix.joy1, mix'.joy1, order],
      by rw [mix.trig0, mix'.trig0, order], by rw [mix.trig1, mix'.trig1, order],
      by rw [mix.swb, mix'.swb, order]⟩

theorem lockstep_agreement_ahead : ∃ table : Match,
    table.host.desk.runs.length = 3 ∧ table.guest.desk.runs.length = 3 ∧
    (∀ (side : Side) (tick : Nat) (ran : Ran),
      (table.seat side).desk.runs[tick]? = some ran →
        captured? (table.seat side).desk.caps tick = some ran.own ∧
        captured? (table.across side).desk.caps tick = some ran.peer) ∧
      ∀ (tick : Nat) (one two : Ran), table.host.desk.runs[tick]? = some one →
        table.guest.desk.runs[tick]? = some two →
          one.joy0 = two.joy0 ∧ one.joy1 = two.joy1 ∧ one.trig0 = two.trig0 ∧
            one.trig1 = two.trig1 ∧ one.swb &&& 3#8 = two.swb &&& 3#8 := by
  have outcome : ((guestAhead ++ by_ .host ([.step, .step] ++ Seat.frames 9)).foldlM
      (guarded next (Acting Timely)) onTable).map
      (fun table => (table.host.desk.runs.length, table.guest.desk.runs.length)) =
        some (3, 3) := by decide +kernel
  obtain ⟨table, executed, isOutcome⟩ := Option.map_eq_some_iff.mp outcome
  obtain ⟨host, guest⟩ := Prod.mk.inj isOutcome
  exact ⟨table, host, guest, lockstep_agreement (Run.of_guarded executed)⟩

/-- With only the newest of the two records consumed, the host runs tick 2 on
the idle byte of the hand-over where the guest ran it on its trigger. -/
theorem lockstep_disagreement : ∃ table : Match,
    Run Step always onTable table ∧
      table.host.desk.runs.map (fun ran => (ran.peer, ran.trig1)) =
        [(0xFF, 0x80), (0xFF, 0x80), (0xFF, 0x80)] ∧
      captured? table.guest.desk.caps 2 = some 0x7F ∧
      table.guest.desk.runs.map (fun ran => (ran.own, ran.trig1)) =
        [(0xFF, 0x80), (0xFF, 0x80), (0x7F, 0x00)] := by
  have outcome : ((guestAhead ++ by_ .host ([.step] ++ Seat.frames 9)).foldlM next
      onTable).map
      (fun table => (table.host.desk.runs.map (fun ran => (ran.peer, ran.trig1)),
        captured? table.guest.desk.caps 2,
        table.guest.desk.runs.map (fun ran => (ran.own, ran.trig1)))) =
        some ([(0xFF, 0x80), (0xFF, 0x80), (0xFF, 0x80)], some 0x7F,
          [(0xFF, 0x80), (0xFF, 0x80), (0x7F, 0x00)]) := by decide +kernel
  obtain ⟨table, executed, isOutcome⟩ := Option.map_eq_some_iff.mp outcome
  simp only [Prod.mk.injEq] at isOutcome
  obtain ⟨host, captured, guest⟩ := isOutcome
  exact ⟨table, Run.of_foldlM executed, host, captured, guest⟩

end Match

end DragsterNet
