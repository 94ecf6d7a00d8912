/-
Module: DragsterNet.Match.Repair
Purpose: The desync repair over runs of a match: how often one divergence makes
  a console press its synthetic RESET.
Trusted boundary: none
Main exports: Repair, Watched, Watched.Calm, Watched.pressed_once,
  Watched.pressed_again
-/
import DragsterNet.Match.Detect

namespace DragsterNet

open Lib

/-- What happens to one console's repair flag: the synthetic RESET goes into the
capture of a boundary, or a record sampled at a tick sets the flag. -/
inductive Repair where
  | pressed (boundary : Nat)
  | armed (sampled : Int)
deriving Repr, DecidableEq

namespace Repair

def arms : Repair → Bool
  | .pressed _ => false
  | .armed _ => true

/-- The boundary of a press. -/
def boundary? : Repair → Option Nat
  | .pressed boundary => some boundary
  | .armed _ => none

/-- The boundaries at which the console pressed. -/
def presses (log : List Repair) : List Nat :=
  log.filterMap boundary?

/-- A press holds until it has been applied, `d` ticks after its boundary: no
record sampled up to then sets the flag again. -/
def OneShot (log : List Repair) : Prop :=
  log.Pairwise fun older newer => ∀ (boundary : Nat) (sampled : Int),
    older = .pressed boundary → newer = .armed sampled → boundary + 2 < sampled

theorem mem_presses {log : List Repair} {boundary : Nat} :
    boundary ∈ presses log ↔ .pressed boundary ∈ log := by
  simp only [presses, List.mem_filterMap]
  constructor
  · rintro ⟨event, isEvent, isPress⟩
    cases event with
    | pressed other =>
        obtain rfl := Option.some.inj isPress
        exact isEvent
    | armed sampled => cases isPress
  · intro isEvent
    exact ⟨_, isEvent, rfl⟩

/-- Presses and arms take turns, so a console that is not armed again after a
press has pressed once. -/
theorem presses_once {log : List Repair}
    (turns : log.IsChain fun older newer => older.arms ≠ newer.arms)
    (quiet : log.Pairwise fun older newer => older.arms = false → newer.arms = false) :
    (presses log).length ≤ 1 := by
  induction log with
  | nil => exact Nat.zero_le 1
  | cons event later inductionHypothesis =>
      obtain ⟨quietNow, quietLater⟩ := List.pairwise_cons.mp quiet
      obtain ⟨turnsNow, turnsLater⟩ := List.isChain_cons.mp turns
      cases event with
      | armed sampled => exact inductionHypothesis turnsLater quietLater
      | pressed boundary =>
          cases later with
          | nil => exact le_rfl
          | cons next _ =>
              have silent : next.arms = false := quietNow next (by simp) rfl
              exact absurd silent.symm (turnsNow next rfl)

end Repair

theorem Console.advances_iff {console : Console} :
    console.advances = true ↔
      console.has dgeNet = true ∧ console.has dgePh = false ∧ console.has dgeRan = true := by
  simp [Console.advances, Console.atBoundary, and_assoc]

namespace Seat

open Console

variable {seat after me other me' other' : Seat} {act : Act} {ports : Ports} {ram : Ram}

/-- What an action of a console does to its repair flag. -/
def repairs (seat after : Seat) : Act → List Repair
  | .hook _ ram =>
      if (seat.desk.atHook ram).advances && seat.desk.console.has dgeRsy then
        [.pressed seat.desk.caps.length]
      else []
  | .step =>
      if after.desk.console.has dgeRsy && !seat.desk.console.has dgeRsy then
        seat.unread.getLast?.toList.map fun posted => .armed (posted.stamp - 2)
      else []
  | _ => []

instance (me other : Seat) (tick : Nat) : Decidable (Differ me other tick) :=
  decidable_of_iff
    (tick < me.desk.crcs.length ∧ tick < other.desk.crcs.length ∧
      me.desk.crcs[tick]? ≠ other.desk.crcs[tick]?) <| by
    unfold Differ
    constructor
    · rintro ⟨mine, theirs, apart⟩
      rw [List.getElem?_eq_getElem mine, List.getElem?_eq_getElem theirs] at apart
      exact ⟨_, _, List.getElem?_eq_getElem mine, List.getElem?_eq_getElem theirs,
        fun same => apart (congrArg some same)⟩
    · rintro ⟨mine, theirs, isMine, isTheirs, apart⟩
      refine ⟨(List.getElem?_eq_some_iff.mp isMine).1,
        (List.getElem?_eq_some_iff.mp isTheirs).1, ?_⟩
      rw [isMine, isTheirs]
      exact fun same => apart (Option.some.inj same)

theorem Differ.symm {tick : Nat} (differ : Differ me other tick) : Differ other me tick := by
  obtain ⟨mine, theirs, isMine, isTheirs, apart⟩ := differ
  exact ⟨theirs, mine, isTheirs, isMine, apart.symm⟩

theorem Differ.grow {tick : Nat} (differ : Differ me other tick)
    (mine : me.desk.crcs <+: me'.desk.crcs) (theirs : other.desk.crcs <+: other'.desk.crcs) :
    Differ me' other' tick := by
  obtain ⟨one, two, isOne, isTwo, apart⟩ := differ
  obtain ⟨more, isMore⟩ := mine
  obtain ⟨more', isMore'⟩ := theirs
  refine ⟨one, two, ?_, ?_, apart⟩
  · rw [← isMore, List.getElem?_append_left (List.getElem?_eq_some_iff.mp isOne).1, isOne]
  · rw [← isMore', List.getElem?_append_left (List.getElem?_eq_some_iff.mp isTwo).1, isTwo]

/-- The three things an action can do to the flag. -/
inductive Repaired (me other me' : Seat) (act : Act) : Prop where
  | presses {ports : Ports} {ram : Ram} (isHook : act = .hook ports ram)
      (logged : repairs me me' act = [.pressed me.desk.caps.length])
      (before : me.desk.console.has dgeRsy = true)
      (after : me'.desk.console.has dgeRsy = false)
      (caps : me'.desk.caps = me.desk.caps ++ [(me.desk.atHook ram).capture ports])
  | arms {posted : Posted} {tick : Nat} (isStep : act = .step)
      (logged : repairs me me' act = [.armed tick])
      (before : me.desk.console.has dgeRsy = false)
      (after : me'.desk.console.has dgeRsy = true)
      (consuming : me.consuming = true) (last : posted ∈ me.unread.getLast?)
      (own : (tick : Int) = me.desk.tick) (stamp : posted.stamp = tick + 2)
      (differ : Differ me other tick)
  | quiet (logged : repairs me me' act = [])
      (same : me'.desk.console.has dgeRsy = me.desk.console.has dgeRsy)

/-- No step of the transport clears the flag. -/
theorem stays_armed (taken : me.step = some me') (armed : me.desk.console.has dgeRsy = true) :
    me'.desk.console.has dgeRsy = true := by
  obtain ⟨request, stepped⟩ := desk_step taken
  rw [(Desk.step_cases stepped).console]
  cases consuming : me.consuming with
  | true =>
      obtain ⟨state, more⟩ := consuming_iff.mp consuming
      rw [dgNstep, state, dgsCons_rsy more, armed, Bool.true_or]
  | false =>
      have idle : ¬ (me.desk.console.dgNst = .cons ∧ me.desk.console.dgRdn ≠ 0) := by
        rw [← consuming_iff, consuming]
        exact Bool.false_ne_true
      rw [has, dgNstep_flags idle]
      exact armed

theorem repaired_hook {peer : Int → Byte} (receives : Receives peer me)
    (taken : me.hook ports ram = some me') :
    Repaired me other me' (.hook ports ram) := by
  obtain ⟨desk, hooked, rfl⟩ := Option.map_eq_some_iff.mp taken
  have flag := Desk.hook_rsy hooked
  cases advances : (me.desk.atHook ram).advances with
  | false =>
      refine .quiet ?_ ?_
      · simp [repairs, advances]
      · rw [flag, advances, Bool.not_false, Bool.and_true]
  | true =>
      cases before : me.desk.console.has dgeRsy with
      | false =>
          refine .quiet ?_ ?_
          · simp [repairs, before]
          · rw [flag, before, Bool.false_and]
      | true =>
          have net := receives.truthful.net (Desk.hook_bank hooked)
          obtain ⟨-, -, -, -, cases⟩ := Desk.hook_cases net hooked
          obtain ⟨-, phase, ran⟩ := advances_iff.mp advances
          cases cases with
          | between isMid => rw [phase] at isMid; cases isMid
          | boundary _ _ _ _ _ _ _ caps =>
              rw [if_pos ran] at caps
              refine .presses rfl ?_ before ?_ caps
              · simp [repairs, advances, before]
              · rw [flag, advances, Bool.not_true, Bool.and_false]

theorem repaired_step (one : Linked me other) (two : Linked other me)
    (tallied : Tallied me other) (taken : me.step = some me') :
    Repaired me other me' .step := by
  cases before : me.desk.console.has dgeRsy with
  | true =>
      refine .quiet ?_ ?_
      · simp [repairs, before]
      · rw [before]
        exact stays_armed taken before
  | false =>
      cases after : me'.desk.console.has dgeRsy with
      | false =>
          refine .quiet ?_ (after.trans before.symm)
          simp [repairs, after]
      | true =>
          obtain ⟨-, consuming, posted, last, tick, own, stamp, differ⟩ :=
            arms_next one two tallied (show me.next .step = some me' from taken) before after
          have isLast : me.unread.getLast? = some posted := last
          refine .arms rfl ?_ before after consuming last own stamp differ
          simp [repairs, before, after, isLast, stamp]

theorem repaired_next (one : Linked me other) (two : Linked other me)
    (tallied : Tallied me other) (taken : me.next act = some me') :
    Repaired me other me' act := by
  cases act with
  | hook ports ram => exact repaired_hook one.receives taken
  | step => exact repaired_step one two tallied taken
  | spin =>
      obtain ⟨desk, spun, rfl⟩ := Option.map_eq_some_iff.mp taken
      obtain rfl := Desk.spin_cases spun
      exact .quiet rfl rfl
  | deliver _ | serve | ack | feed _ =>
      rcases desk_next taken with ⟨_, isDeskAct, _⟩ | same
      · cases isDeskAct
      · exact .quiet rfl (by rw [same])

/-- The record about to be consumed is not one of the tick this console is on,
if the checksums of that tick differ and a RESET it has pressed is still to be
applied. -/
def Calm (me other : Seat) (log : List Repair) : Act → Prop
  | .step => me.consuming = true → ∀ posted ∈ me.unread.getLast?,
      posted.stamp = me.desk.tick + 2 →
        ∀ boundary ∈ Repair.presses log, me.desk.tick ≤ (boundary : Int) + 2 →
          me.desk.crcs[me.desk.caps.length - 1]? =
            other.desk.crcs[me.desk.caps.length - 1]?
  | _ => True

instance (me other : Seat) (log : List Repair) (act : Act) :
    Decidable (Calm me other log act) :=
  match act with
  | .step => inferInstanceAs (Decidable (_ → _))
  | .hook _ _ | .feed _ | .spin | .deliver _ | .serve | .ack => isTrue trivial

/-- What a console's log says of it. -/
structure Logged (me other : Seat) (log : List Repair) : Prop where
  oneShot : Repair.OneShot log
  turns : log.IsChain fun older newer => older.arms ≠ newer.arms
  flag : me.desk.console.has dgeRsy = (log.getLast?.map Repair.arms).getD false
  carried : ∀ boundary, .pressed boundary ∈ log →
    ∃ byte, me.desk.caps[boundary]? = some byte ∧ byte &&& iwRst = 0
  genuine : ∀ sampled : Int, .armed sampled ∈ log →
    ∃ tick : Nat, sampled = tick ∧ Differ me other tick

/-- A log stays true while the console's own flag and captures do. -/
theorem Logged.grow {log : List Repair} (logged : Logged me other log)
    (flag : me'.desk.console.has dgeRsy = me.desk.console.has dgeRsy)
    (caps : me.desk.caps <+: me'.desk.caps) (mine : me.desk.crcs <+: me'.desk.crcs)
    (theirs : other.desk.crcs <+: other'.desk.crcs) : Logged me' other' log where
  oneShot := logged.oneShot
  turns := logged.turns
  flag := flag.trans logged.flag
  carried := by
    intro boundary isPress
    obtain ⟨byte, made, pressed⟩ := logged.carried boundary isPress
    obtain ⟨more, isMore⟩ := caps
    refine ⟨byte, ?_, pressed⟩
    rw [← isMore, List.getElem?_append_left (List.getElem?_eq_some_iff.mp made).1, made]
  genuine := by
    intro sampled isArm
    obtain ⟨tick, isTick, differ⟩ := logged.genuine sampled isArm
    exact ⟨tick, isTick, differ.grow mine theirs⟩

theorem caps_grow (truthful : seat.desk.Truthful) (taken : seat.next act = some after) :
    seat.desk.caps <+: after.desk.caps := by
  rcases caps_next truthful taken with same | ⟨byte, longer⟩
  · rw [same]
  · rw [longer]
    exact List.prefix_append _ _

/-- An event that takes its turn keeps the turns. -/
theorem turns_append {log : List Repair} {event : Repair} {flag : Bool}
    (turns : log.IsChain fun older newer => older.arms ≠ newer.arms)
    (last : flag = (log.getLast?.map Repair.arms).getD false)
    (turn : event.arms = !flag) :
    (log ++ [event]).IsChain fun older newer => older.arms ≠ newer.arms := by
  rw [List.isChain_append]
  refine ⟨turns, List.isChain_singleton _, ?_⟩
  intro newest isNewest first isFirst
  obtain rfl : event = first := by simpa using isFirst
  have isLast : log.getLast? = some newest := isNewest
  rw [isLast] at last
  rw [turn, last]
  simp

/-- A press clears the RESET bit of the byte it goes into. -/
theorem press_carried (armed : seat.desk.console.has dgeRsy = true) :
    (seat.desk.atHook ram).capture ports &&& iwRst = 0 := by
  have pressed : (seat.desk.atHook ram).sample.has dgeRsy = true := by
    show ((seat.desk.console.dgEnt &&& ~~~dgeRan) &&& dgeRsy != 0) = true
    rw [rsy_clear_ran]
    exact armed
  unfold capture dgCap dgRsy
  rw [if_pos pressed, BitVec.and_assoc]
  exact BitVec.and_zero

theorem Logged.append {log : List Repair} {event : Repair}
    (logged : Logged me other log) (caps : me.desk.caps <+: me'.desk.caps)
    (mine : me.desk.crcs <+: me'.desk.crcs)
    (turn : event.arms = !me.desk.console.has dgeRsy)
    (flag : me'.desk.console.has dgeRsy = event.arms)
    (oneShot : ∀ (boundary : Nat) (sampled : Int), .pressed boundary ∈ log →
      event = .armed sampled → boundary + 2 < sampled)
    (carried : ∀ boundary, event = .pressed boundary →
      ∃ byte, me'.desk.caps[boundary]? = some byte ∧ byte &&& iwRst = 0)
    (genuine : ∀ sampled : Int, event = .armed sampled →
      ∃ tick : Nat, sampled = tick ∧ Differ me' other tick) :
    Logged me' other (log ++ [event]) where
  oneShot := by
    refine List.pairwise_append.mpr ⟨logged.oneShot, List.pairwise_singleton _ _, ?_⟩
    intro older isOlder newer isNewer boundary sampled isPress isArm
    obtain rfl := List.mem_singleton.mp isNewer
    exact oneShot boundary sampled (isPress ▸ isOlder) isArm
  turns := turns_append logged.turns logged.flag turn
  flag := by
    rw [List.getLast?_concat]
    exact flag
  carried := by
    intro boundary isPress
    rcases List.mem_append.mp isPress with old | new
    · obtain ⟨byte, made, pressed⟩ := logged.carried boundary old
      obtain ⟨more, isMore⟩ := caps
      refine ⟨byte, ?_, pressed⟩
      rw [← isMore, List.getElem?_append_left (List.getElem?_eq_some_iff.mp made).1, made]
    · exact carried boundary (List.mem_singleton.mp new).symm
  genuine := by
    intro sampled isArm
    rcases List.mem_append.mp isArm with old | new
    · obtain ⟨tick, isTick, differ⟩ := logged.genuine sampled old
      exact ⟨tick, isTick, differ.grow mine List.prefix_rfl⟩
    · exact genuine sampled (List.mem_singleton.mp new).symm

/-- The acting console's log, under the condition. -/
theorem logged_acts {log : List Repair} (one : Linked me other) (two : Linked other me)
    (tallied : Tallied me other) (logged : Logged me other log)
    (calm : Calm me other log act) (taken : me.next act = some me') :
    Logged me' other (log ++ repairs me me' act) := by
  have truthful := one.receives.truthful
  have caps := caps_grow truthful taken
  have mine := crcs_next truthful taken
  cases repaired_next one two tallied taken with
  | quiet noEvent same =>
      rw [noEvent, List.append_nil]
      exact logged.grow same caps mine List.prefix_rfl
  | @presses ports ram isHook event before after captured =>
      rw [event]
      refine logged.append caps mine ?_ after (fun _ _ _ => Repair.noConfusion) ?_
        fun _ => Repair.noConfusion
      · rw [before]
        rfl
      · rintro boundary ⟨⟩
        refine ⟨(me.desk.atHook ram).capture ports, ?_, press_carried before⟩
        rw [captured, List.getElem?_concat_length]
  | @arms posted tick isStep event before after consuming last own stamp differ =>
      subst isStep
      rw [event]
      refine logged.append caps mine ?_ after ?_ (fun _ => Repair.noConfusion) ?_
      · rw [before]
        rfl
      · rintro boundary sampled isPress ⟨⟩
        by_contra early
        have agree := calm consuming posted last (by omega) boundary
          (Repair.mem_presses.mpr isPress) (by omega)
        obtain ⟨one', two', isOne, isTwo, apart⟩ := differ
        have here : me.desk.caps.length - 1 = tick := by
          unfold Desk.tick at own
          omega
        rw [here, isOne, isTwo] at agree
        exact apart (Option.some.inj agree)
      · rintro sampled ⟨⟩
        exact ⟨tick, rfl, differ.grow mine List.prefix_rfl⟩

/-- The log of the console that does not act. -/
theorem logged_watches {log : List Repair} (one : Linked me other)
    (logged : Logged other me log) (acted : me.next act = some me')
    (same : other'.desk = other.desk) : Logged other' me' log :=
  logged.grow (by rw [same]) (by rw [same]) (by rw [same])
    (crcs_next one.receives.truthful acted)

theorem logged_exchange {log log' : List Repair} (one : Linked me other)
    (two : Linked other me) (tallied : Tallied me other) (logged : Logged me other log)
    (logged' : Logged other me log') (calm : Calm me other log act)
    (taken : me.exchange other act = some (me', other')) :
    Logged me' other' (log ++ repairs me me' act) ∧ Logged other' me' log' := by
  cases exchange_cases one.receives taken with
  | alone acted _ _ same =>
      rw [same]
      exact ⟨logged_acts one two tallied logged calm acted,
        logged_watches one logged' acted rfl⟩
  | sends acted _ _ fed =>
      rw [fed]
      have acts := logged_acts one two tallied logged calm acted
      exact ⟨acts.grow rfl List.prefix_rfl List.prefix_rfl List.prefix_rfl,
        logged_watches one logged' acted rfl⟩

end Seat

/-! ### A match with its logs -/

def Side.other : Side → Side
  | .host => .guest
  | .guest => .host

theorem Side.either (any side : Side) : any = side ∨ any = side.other := by
  cases any <;> cases side <;> decide

@[simp] theorem Match.seat_other (table : Match) (side : Side) :
    table.seat side.other = table.across side := by
  cases side <;> rfl

@[simp] theorem Match.across_other (table : Match) (side : Side) :
    table.across side.other = table.seat side := by
  cases side <;> rfl

/-- `host` and `guest` hold what happened to each console's repair flag. -/
structure Watched where
  table : Match
  host : List Repair
  guest : List Repair

namespace Watched

open Match

def log (watched : Watched) : Side → List Repair
  | .host => watched.host
  | .guest => watched.guest

def start (host guest : Setup) : Watched where
  table := Match.start host guest
  host := []
  guest := []

/-- A step of the match, entered in the log of the console that acts. -/
def next (watched : Watched) (act : Side × Seat.Act) : Option Watched :=
  (watched.table.next act).map fun after =>
    let events := Seat.repairs (watched.table.seat act.1) (after.seat act.1) act.2
    match act.1 with
    | .host => { watched with table := after, host := watched.host ++ events }
    | .guest => { watched with table := after, guest := watched.guest ++ events }

def Step (before : Watched) (act : Side × Seat.Act) (after : Watched) : Prop :=
  before.next act = some after

/-- The condition on an action, read off the console that acts and its log. -/
def Calm (watched : Watched) (act : Side × Seat.Act) : Prop :=
  Seat.Calm (watched.table.seat act.1) (watched.table.across act.1) (watched.log act.1)
    act.2

instance (watched : Watched) (act : Side × Seat.Act) : Decidable (Calm watched act) :=
  inferInstanceAs (Decidable (Seat.Calm _ _ _ _))

/-- From the tick after a pressed RESET is applied on, the two consoles enter
every tick with the same checksum. -/
def Heals (watched : Watched) : Prop :=
  ∀ side, ∀ boundary ∈ Repair.presses (watched.log side),
    ∀ tick < watched.table.host.desk.crcs.length, boundary + 2 < tick →
      ¬ Seat.Differ watched.table.host watched.table.guest tick

variable {host guest : Setup} {watched after : Watched} {side : Side} {act : Seat.Act}

/-- A step of the match is entered in one log. -/
theorem next_cases (taken : watched.next (side, act) = some after) :
    watched.table.next (side, act) = some after.table ∧
      after.log side = watched.log side ++
        Seat.repairs (watched.table.seat side) (after.table.seat side) act ∧
      after.log side.other = watched.log side.other := by
  obtain ⟨table, isNext, rfl⟩ := Option.map_eq_some_iff.mp taken
  cases side with
  | host => exact ⟨isNext, rfl, rfl⟩
  | guest => exact ⟨isNext, rfl, rfl⟩

/-- Everything the logs rest on. -/
structure Sound (watched : Watched) : Prop where
  linked : Both Seat.Linked watched.table
  tallied : Both Seat.Tallied watched.table
  logged : ∀ side, Seat.Logged (watched.table.seat side) (watched.table.across side)
    (watched.log side)

theorem logged_start {role role' seq seq' : Byte} {ram ram' : Ram}
    {painted painted' : Painted} (isRole : role = 0 ∨ role = dgeRole) :
    Seat.Logged (Seat.start role seq ram painted) (Seat.start role' seq' ram' painted')
      [] where
  oneShot := List.Pairwise.nil
  turns := List.isChain_nil
  flag := by
    rcases isRole with rfl | rfl
    · exact (by decide : ((0 ||| (dgeNet ||| dgeRan)) &&& dgeRsy != 0) = false)
    · exact (by decide : ((dgeRole ||| (dgeNet ||| dgeRan)) &&& dgeRsy != 0) = false)
  carried := fun _ => List.not_mem_nil.elim
  genuine := fun _ => List.not_mem_nil.elim

theorem sound_start : Sound (start host guest) where
  linked := ⟨Seat.linked_start (Or.inl rfl), Seat.linked_start (Or.inr rfl)⟩
  tallied := ⟨fun _ => List.not_mem_nil.elim, fun _ => List.not_mem_nil.elim⟩
  logged := by
    intro side
    cases side with
    | host => exact logged_start (Or.inl rfl)
    | guest => exact logged_start (Or.inr rfl)

theorem sound_next (sound : Sound watched) (calm : Calm watched (side, act))
    (taken : watched.next (side, act) = some after) : Sound after := by
  obtain ⟨moved, own, others⟩ := next_cases taken
  have exchanged := next_side moved
  obtain ⟨one, two⟩ := sound.linked.sides side
  obtain ⟨tallied, tallied'⟩ := sound.tallied.sides side
  have waits := sound.logged side.other
  rw [seat_other, across_other] at waits
  have logged := Seat.logged_exchange one two tallied (sound.logged side) waits calm exchanged
  refine ⟨?_, ?_, ?_⟩
  · exact sound.linked.next
      (fun one two _ exchanged => Seat.linked_exchange one two exchanged) moved
  · have now := Seat.tallied_exchange one tallied tallied' exchanged
    cases side with
    | host => exact now
    | guest => exact now.symm
  · intro any
    rcases any.either side with rfl | rfl
    · rw [own]
      exact logged.1
    · rw [others, seat_other, across_other]
      exact logged.2

theorem sound_run (run : Run Step Calm (start host guest) watched) : Sound watched :=
  run.invariant Sound sound_start fun {_ act _} sound calm taken => by
    obtain ⟨side, act⟩ := act
    exact sound_next sound calm taken

instance (watched : Watched) : Decidable (Heals watched) :=
  decidable_of_iff
    ((∀ boundary ∈ Repair.presses watched.host,
        ∀ tick < watched.table.host.desk.crcs.length, boundary + 2 < tick →
          ¬ Seat.Differ watched.table.host watched.table.guest tick) ∧
      ∀ boundary ∈ Repair.presses watched.guest,
        ∀ tick < watched.table.host.desk.crcs.length, boundary + 2 < tick →
          ¬ Seat.Differ watched.table.host watched.table.guest tick)
    ⟨fun ⟨one, two⟩ side => side.casesOn one two,
      fun heals => ⟨heals .host, heals .guest⟩⟩

def onTable : Watched :=
  start idleSetup idleSetup

/-- A frame after `frames` simulated ones, the first car's engine speed at
`speed`. -/
def raceFrame (frames : Nat) (speed : Byte) : Seat.Act :=
  .hook Seat.idlePorts fun cell =>
    if cell = frameCnt then BitVec.ofNat 8 frames else if cell = rpm then speed else 0

/-- One console enters a tick and writes its record. -/
def writesTick (tick : Nat) (speed : Byte) : List Seat.Act :=
  raceFrame (4 * tick) speed :: Seat.transaction

/-- It reads the peer's, and the other three frames of the tick go by. -/
def readsTick (tick : Nat) (speed : Byte) : List Seat.Act :=
  reading 1 2 ++ [.spin, raceFrame (4 * tick + 1) speed, .spin,
    raceFrame (4 * tick + 2) speed, .spin, raceFrame (4 * tick + 3) speed, .spin]

/-- On tick 0 the boundary stalls until the peer's record is there. -/
def readsFirst (speed : Byte) : List Seat.Act :=
  reading 1 2 ++ [.spin, raceFrame 0 speed, .spin, raceFrame 1 speed, .spin,
    raceFrame 2 speed, .spin, raceFrame 3 speed, .spin]

def firstTick (speed : Byte) : List (Side × Seat.Act) :=
  by_ .host (writesTick 0 speed) ++ by_ .guest (writesTick 0 0) ++
    by_ .host (readsFirst speed) ++ by_ .guest (readsFirst 0)

/-- Both consoles on a later tick, the host's engine at `speed`. -/
def laterTick (tick : Nat) (speed : Byte) : List (Side × Seat.Act) :=
  by_ .host (writesTick tick speed) ++ by_ .guest (writesTick tick 0) ++
    by_ .host (readsTick tick speed) ++ by_ .guest (readsTick tick 0)

/-- The host's engine is off on tick 0, where it reads the guest's record; on tick
1 it reads nothing. -/
def readOnce : List (Side × Seat.Act) :=
  firstTick 1 ++ by_ .host (writesTick 1 1)

/-- The host's engine is off from tick 1 on, until the RESET of tick 4. -/
def divergence : List (Side × Seat.Act) :=
  firstTick 0 ++ laterTick 1 1 ++ laterTick 2 1 ++ laterTick 3 1 ++ laterTick 4 1 ++
    laterTick 5 0

end Watched

end DragsterNet
