/-
Module: DragsterNet.Match.Lockstep
Purpose: Two consoles in one match, the records of each relayed to the other:
  the skew of their ticks, and what it leaves of the ring.
Trusted boundary: none
Main exports: Match, Match.Step, Seat.exchange, Linked, Linked.skew,
  Match.linked_run
-/
import DragsterNet.Match.Watermark
import DragsterNet.Match.Pace

namespace DragsterNet

open Lib

inductive Side where
  | host
  | guest
deriving Repr, DecidableEq

namespace Seat

open Console

variable {peer : Int → Byte} {seat after me other me' other' : Seat} {act : Act}

/-! ### One console's records on their way out -/

/-- A WRITE is with the cartridge and has not gone out. -/
def pending (seat : Seat) : Bool :=
  match seat.cart.stage with
  | .launched request => request.command == ncWrite
  | _ => false

/-- The ticks of the records that have gone out, behind the tick before the
first. -/
def sentTicks (seat : Seat) : List Int :=
  if seat.pending then seat.desk.writeTicks.dropLast else seat.desk.writeTicks

/-- The unwrapped tick the window of the last record written ends at. -/
def lastStamp (seat : Seat) : Int :=
  seat.desk.writeTicks.getLast?.getD (-1) + 2

/-- One action of `me`.  What its cartridge sends the relay passes on to
`other`; the relay itself delivers through `deliver`. -/
def exchange (me other : Seat) : Act → Option (Seat × Seat)
  | .feed _ => none
  | .serve => me.serve.map fun (served, out) =>
      match out with
      | none => (served, other)
      | some frame => (served, other.feed ⟨me.lastStamp, frame⟩)
  | act => (me.next act).map fun acted => (acted, other)

/-- The action of the desk inside an action of the seat. -/
def deskAct (seat : Seat) : Act → Option Desk.Act
  | .hook ports ram => some (.hook ports ram)
  | .step => some (.step seat.cart.painted)
  | .spin => some .spin
  | _ => none

theorem desk_step (taken : seat.step = some after) :
    ∃ request, seat.desk.step seat.cart.painted = some (after.desk, request) := by
  obtain ⟨⟨desk, request⟩, stepped, rfl⟩ := Option.map_eq_some_iff.mp taken
  refine ⟨request, ?_⟩
  rw [stepped]
  simp only [Seat.consumed]
  split
  · split <;> rfl
  · rfl

/-- Apart from the steps of its console a seat keeps its desk. -/
theorem desk_next (taken : seat.next act = some after) :
    (∃ deskAct, seat.deskAct act = some deskAct ∧
      seat.desk.next deskAct = some after.desk) ∨ after.desk = seat.desk := by
  cases act with
  | hook ports ram =>
      obtain ⟨desk, hooked, rfl⟩ := Option.map_eq_some_iff.mp taken
      exact Or.inl ⟨_, rfl, hooked⟩
  | step =>
      obtain ⟨request, stepped⟩ := desk_step taken
      exact Or.inl ⟨_, rfl, by rw [Desk.next, stepped]; rfl⟩
  | spin =>
      obtain ⟨desk, spun, rfl⟩ := Option.map_eq_some_iff.mp taken
      exact Or.inl ⟨_, rfl, spun⟩
  | deliver count =>
      obtain rfl := Option.some.inj taken
      exact Or.inr rfl
  | serve =>
      obtain ⟨⟨served, out⟩, taken', rfl⟩ := Option.map_eq_some_iff.mp taken
      unfold serve at taken'
      split at taken'
      · repeat' split at taken'
        all_goals cases taken'
        all_goals exact Or.inr rfl
      · cases taken'
  | ack =>
      obtain ⟨reply, -, rfl⟩ := ack_cases taken
      exact Or.inr rfl
  | feed posted =>
      obtain rfl := Option.some.inj taken
      exact Or.inr rfl

theorem caps_next (truthful : seat.desk.Truthful) (taken : seat.next act = some after) :
    after.desk.caps = seat.desk.caps ∨
      ∃ byte, after.desk.caps = seat.desk.caps ++ [byte] := by
  rcases desk_next taken with ⟨deskAct, -, acted⟩ | same
  · cases Desk.progress_next truthful acted with
    | captured _ caps => exact Or.inr ⟨_, caps⟩
    | wrote _ caps => exact Or.inl caps
    | neither caps => exact Or.inl caps
  · exact Or.inl (by rw [same])

theorem pending_launched {request : Request} {desk : Desk}
    (isNext : request.seq = nextSeq seat.cart.painted.fnAcks) :
    pending { seat with desk := desk, cart := seat.cart.commit (some request) } =
      (request.command == ncWrite) := by
  rw [Cart.commit, Cart.launch_next isNext]
  rfl

/-- What a step does to the WRITE that may be pending. -/
theorem step_pending (receives : Receives peer seat) (taken : seat.step = some after) :
    seat.desk.console.dgNst = .wiss ∧ seat.pending = false ∧ after.pending = true ∨
      seat.desk.console.dgNst ≠ .wiss ∧ after.pending = seat.pending := by
  cases consuming : seat.consuming with
  | true =>
      obtain ⟨state, -⟩ := consuming_iff.mp consuming
      obtain ⟨older, posted, eaten⟩ := step_eats receives taken consuming
      refine Or.inr ⟨by rw [state]; decide, ?_⟩
      rw [eaten.whole]
      rfl
  | false =>
      obtain ⟨desk, request, stepped, rfl⟩ := step_quiet taken consuming
      have isRequest := (Desk.step_cases stepped).request
      have errand := receives.errand
      unfold Errand at errand
      cases state : seat.desk.console.dgNst with
      | wiss =>
          rw [state] at errand
          rw [dgNstep, state] at isRequest
          refine Or.inl ⟨rfl, by simp [pending, errand.1], ?_⟩
          rw [isRequest]
          exact pending_launched rfl
      | siss =>
          rw [state] at errand
          rw [dgNstep, state] at isRequest
          refine Or.inr ⟨by decide, ?_⟩
          rw [isRequest]
          exact (pending_launched rfl).trans (by simp [pending, errand.1, ncStat, ncWrite])
      | riss =>
          rw [state] at errand
          rw [dgNstep, state] at isRequest
          refine Or.inr ⟨by decide, ?_⟩
          rw [isRequest]
          exact (pending_launched rfl).trans (by simp [pending, errand.1, ncRead, ncWrite])
      | idle | wack | sack | rack | cons | fail =>
          rw [dgNstep, state] at isRequest
          refine Or.inr ⟨by decide, ?_⟩
          rw [isRequest]
          rfl

/-- Nothing goes out but through `serve`. -/
theorem sent_next (receives : Receives peer seat) (taken : seat.next act = some after)
    (silent : act ≠ .serve) : after.sentTicks = seat.sentTicks := by
  cases act with
  | hook ports ram =>
      obtain ⟨desk, hooked, rfl⟩ := Option.map_eq_some_iff.mp taken
      have net := receives.truthful.net (Desk.hook_bank hooked)
      obtain ⟨-, -, writes, -⟩ := Desk.hook_cases net hooked
      simp only [sentTicks, Desk.writeTicks_same writes]
      rfl
  | step =>
      obtain ⟨request, stepped⟩ := desk_step taken
      have isStep := Desk.step_cases stepped
      rcases step_pending receives taken with ⟨state, before, now⟩ | ⟨state, same⟩
      · have writes := isStep.writes
        rw [if_pos state] at writes
        rw [sentTicks, sentTicks, before, now, if_pos rfl, if_neg Bool.false_ne_true,
          Desk.writeTicks_append writes, List.dropLast_concat]
      · have writes := isStep.writes
        rw [if_neg state] at writes
        rw [sentTicks, sentTicks, same, Desk.writeTicks_same writes]
  | spin =>
      obtain ⟨desk, spun, rfl⟩ := Option.map_eq_some_iff.mp taken
      obtain rfl := Desk.spin_cases spun
      rfl
  | deliver count =>
      obtain rfl := Option.some.inj taken
      rfl
  | serve => exact absurd rfl silent
  | ack =>
      obtain ⟨reply, served, rfl⟩ := ack_cases taken
      simp [sentTicks, pending, served]
  | feed posted =>
      obtain rfl := Option.some.inj taken
      rfl

/-- What goes out when the cartridge executes a WRITE is the last record. -/
structure Sends (seat after : Seat) (out : List Byte) (sent : Sent) : Prop where
  frame : out = sent.frame
  desk : after.desk = seat.desk
  last : seat.desk.writes.getLast? = some sent
  before : seat.sentTicks = seat.desk.writeTicks.dropLast
  now : after.sentTicks = seat.desk.writeTicks

theorem serve_sent {out : Option (List Byte)} (receives : Receives peer seat)
    (taken : seat.serve = some (after, out)) :
    out = none ∧ after.sentTicks = seat.sentTicks ∨
      ∃ bytes sent, out = some bytes ∧ Sends seat after bytes sent := by
  obtain ⟨request, launched, write | stat | read⟩ := serve_cases receives taken
  · obtain ⟨-, ⟨command, sent, isLast, tx⟩, rfl, rfl⟩ := write
    refine Or.inr ⟨_, sent, rfl, ?_, rfl, isLast, ?_, ?_⟩
    · rw [tx]
      rfl
    · simp [sentTicks, pending, launched, command]
    · simp [sentTicks, pending]
  · obtain ⟨state, rfl, rfl⟩ := stat
    obtain ⟨-, -, -, write | stat | read⟩ := awaiting_state receives launched
    · rw [state] at write
      cases write.1
    · refine Or.inl ⟨rfl, ?_⟩
      simp [sentTicks, pending, launched, stat.2, ncStat, ncWrite]
    · rw [state] at read
      cases read.1
  · obtain ⟨-, asked, rfl, rfl⟩ := read
    refine Or.inl ⟨rfl, ?_⟩
    simp [sentTicks, pending, launched, asked.1, ncRead, ncWrite, serveRead]

/-! ### The link from one console to the other -/

/-- The receiving half of `me` against the sending half of `other`.  The records
on their way carry what `other` captured, the newest of them is the last that
went out, and a batch is short, for it was read when `me` could not be far
behind. -/
structure Linked (me other : Seat) : Prop where
  receives : Receives (captureFor other.desk.caps) me
  paced : me.desk.Paced
  newest : me.stamps.getLast? = other.sentTicks.getLast?.map (· + 2)
  bounded : ∀ stamp ∈ me.stamps, stamp ≤ other.desk.caps.length + 1
  short : ∀ stamp ∈ me.unread.map Posted.stamp ++ me.ring.eaten,
    stamp ≤ me.ring.base + 6

theorem linked_start {role role' seq seq' : Byte} {ram ram' : Ram}
    {painted painted' : Painted} (isRole : role = 0 ∨ role = dgeRole) :
    Linked (start role seq ram painted) (start role' seq' ram' painted') where
  receives := receives_start isRole fun tick small => if_pos small
  paced := Desk.paced_start
  newest := by simp [stamps, start, sentTicks, pending, Desk.writeTicks, Desk.start]
  bounded := by simp [stamps, start, Desk.start]
  short := by simp [start]

/-- The watermark is one of the stamps, or still that of the hand-over. -/
theorem mark_bounded (linked : Linked me other) :
    me.ring.mark ≤ other.desk.caps.length + 1 := by
  cases last : me.ring.eaten.getLast? with
  | none =>
      have fresh := linked.receives.marked.fresh (List.getLast?_eq_none_iff.mp last)
      have := linked.bounded me.ring.base (by simp [stamps])
      omega
  | some newest =>
      rw [linked.receives.marked.newest newest last]
      have isEaten := List.mem_of_getLast? last
      exact linked.bounded newest (by simp [stamps, isEaten])

/-- The tick a console is on: the oldest it has not run, or the one before. -/
theorem turn_bounds (receives : Receives peer seat) :
    seat.ring.next ≤ seat.desk.caps.length ∧
      (seat.desk.caps.length : Int) ≤ seat.ring.next + 1 := by
  have turn := receives.turn
  split at turn <;> omega

/-- The skew of two consoles: neither is more than three ticks ahead of the
other, so nothing on its way is more than five ticks ahead of the tick to be
run. -/
theorem skew (one : Linked me other) (two : Linked other me) :
    (other.desk.caps.length : Int) ≤ me.desk.caps.length + 3 ∧
      (∀ stamp ∈ me.stamps, stamp ≤ me.ring.next + 5) ∧
      me.ring.mark ≤ me.ring.next + 5 := by
  have mine := turn_bounds one.receives
  have theirs := turn_bounds two.receives
  have lead := two.receives.lead
  have mark := mark_bounded two
  have apart : (other.desk.caps.length : Int) ≤ me.desk.caps.length + 3 := by omega
  have markMine := mark_bounded one
  refine ⟨apart, ?_, by omega⟩
  intro stamp isStamp
  have := one.bounded stamp isStamp
  omega

/-- The watermark is at most six ticks ahead of the batch. -/
theorem mark_close (linked : Linked me other) : me.ring.mark ≤ me.ring.base + 6 := by
  cases last : me.ring.eaten.getLast? with
  | none =>
      have := linked.receives.marked.fresh (List.getLast?_eq_none_iff.mp last)
      omega
  | some newest =>
      rw [linked.receives.marked.newest newest last]
      exact linked.short newest (List.mem_append_right _ (List.mem_of_getLast? last))

/-- Nothing in a batch is older than what was taken before it. -/
theorem base_le (receives : Receives peer seat) {posted : Posted}
    (isUnread : posted ∈ seat.unread) : seat.ring.base ≤ posted.stamp := by
  have ascending := receives.ascending
  rw [stamps, List.cons_append, List.cons_append] at ascending
  exact (List.pairwise_cons.mp (List.isChain_iff_pairwise.mp ascending)).1 _ (by
    simp only [List.mem_append, List.mem_map]
    exact Or.inl (Or.inl ⟨posted, isUnread, rfl⟩))

/-- A short batch is close to the watermark. -/
theorem linked_close (linked : Linked me other) : me.Close := by
  intro posted isLast
  have near := linked.receives.near
  have isUnread := List.mem_of_getLast? isLast
  have above := linked.short posted.stamp
    (List.mem_append_left _ (List.mem_map_of_mem isUnread))
  have below := base_le linked.receives isUnread
  have mark := mark_close linked
  omega

/-- No action of a console but a relayed record adds to the stamps it is
receiving. -/
theorem stamps_next (receives : Receives peer seat) (taken : seat.next act = some after)
    (notFed : ∀ posted, act ≠ .feed posted) :
    after.stamps.getLast? = seat.stamps.getLast? ∧
      ∀ stamp ∈ after.stamps, stamp ∈ seat.stamps := by
  cases motion_next receives taken with
  | frame ground ring =>
      rw [ground.stamps]
      exact ⟨rfl, fun _ => id⟩
  | still ground ring =>
      rw [ground.stamps]
      exact ⟨rfl, fun _ => id⟩
  | eat consuming eaten =>
      rw [stamps_eat eaten]
      exact ⟨rfl, fun _ => id⟩
  | read nothing ring stamps stored slots =>
      have last := last_consumed receives nothing
      have whole : seat.stamps =
          seat.ring.base :: seat.ring.eaten ++ seat.rest.map Posted.stamp := by
        simp [Seat.stamps, nothing]
      rw [stamps, whole]
      refine ⟨WindowRing.last_take last, ?_⟩
      intro stamp isStamp
      rcases List.mem_cons.mp isStamp with rfl | later
      · exact List.mem_append_left _ (List.mem_of_getLast? last)
      · exact List.mem_append_right _ later
  | feed same => exact absurd rfl (notFed _)

/-- The batch stays short: a READ takes nothing that is more than five ticks
ahead of the reader. -/
theorem short_next (one : Linked me other) (two : Linked other me)
    (taken : me.next act = some me') (notFed : ∀ posted, act ≠ .feed posted) :
    ∀ stamp ∈ me'.unread.map Posted.stamp ++ me'.ring.eaten,
      stamp ≤ me'.ring.base + 6 := by
  cases motion_next one.receives taken with
  | frame ground ring =>
      rw [ground.unread, ring]
      split
      · exact one.short
      · exact one.short
  | still ground ring =>
      rw [ground.unread, ring]
      exact one.short
  | eat consuming eaten =>
      rw [eaten.whole]
      intro stamp isStamp
      refine one.short stamp ?_
      rw [eaten.unread]
      simpa [WindowRing.consume] using isStamp
  | read nothing ring stamps stored slots =>
      intro stamp isStamp
      have inStream : stamp ∈ me.stamps := by
        refine (stamps_next one.receives taken notFed).2 stamp ?_
        rw [Seat.stamps]
        exact List.mem_append_left _ (List.mem_cons_of_mem _ isStamp)
      have ahead := (skew one two).2.1 stamp inStream
      have lead := one.receives.lead
      have begun := one.receives.begun
      rw [ring]
      simp only [WindowRing.take]
      omega
  | feed same => exact absurd rfl (notFed _)

/-- The acting console's receiving half. -/
theorem linked_acts (one : Linked me other) (two : Linked other me)
    (taken : me.next act = some me') (notFed : ∀ posted, act ≠ .feed posted) :
    Linked me' other where
  receives := receives_next one.receives (linked_close one)
    (fun posted isFeed => absurd isFeed (notFed posted)) taken
  paced := by
    rcases desk_next taken with ⟨deskAct, -, acted⟩ | same
    · exact Desk.paced_next one.receives.truthful one.paced acted
    · rw [same]
      exact one.paced
  newest := (stamps_next one.receives taken notFed).1.trans one.newest
  bounded := fun stamp isStamp =>
    one.bounded stamp ((stamps_next one.receives taken notFed).2 stamp isStamp)
  short := short_next one two taken notFed

/-- What a console has received does not depend on what its peer captures
later. -/
theorem receives_agree {peer' : Int → Byte} {top : Int} (receives : Receives peer seat)
    (stamps : ∀ stamp ∈ seat.stamps, stamp ≤ top) (mark : seat.ring.mark ≤ top)
    (agree : ∀ tick ≤ top, peer tick = peer' tick) : Receives peer' seat := by
  have genuine : ∀ posted ∈ seat.unread ++ seat.rest, Genuine peer' posted := by
    intro posted isPosted
    have bound : posted.stamp ≤ top := by
      refine stamps posted.stamp ?_
      rcases List.mem_append.mp isPosted with unread | rest
      · simp only [Seat.stamps, List.mem_append, List.mem_cons, List.mem_map]
        exact Or.inl (Or.inl (Or.inr ⟨posted, unread, rfl⟩))
      · simp only [Seat.stamps, List.mem_append, List.mem_map]
        exact Or.inr ⟨posted, rest, rfl⟩
    obtain ⟨crc, frame⟩ := receives.genuine posted isPosted
    refine ⟨crc, ?_⟩
    rw [frame, agree _ bound, agree (posted.stamp - 1) (by omega),
      agree (posted.stamp - 2) (by omega)]
  have base : seat.ring.base ≤ top := stamps _ (by simp [Seat.stamps])
  have stored : ∀ entry ∈ seat.stored, entry.2 = peer' entry.1 ∧
      (entry.1 ≤ seat.ring.mark ∨ entry.1 ≤ seat.ring.base) := by
    intro entry isEntry
    obtain ⟨byte, bound⟩ := receives.stored entry isEntry
    exact ⟨byte.trans (agree entry.1 (by omega)), bound⟩
  exact { receives with genuine := genuine, stored := stored }

/-- The peer of the acting console, when nothing goes out. -/
theorem linked_watches (two : Linked other me)
    (caps : me'.desk.caps = me.desk.caps ∨
      ∃ byte, me'.desk.caps = me.desk.caps ++ [byte])
    (sent : me'.sentTicks = me.sentTicks) : Linked other me' := by
  have grows : (me.desk.caps.length : Int) ≤ me'.desk.caps.length := by
    rcases caps with same | ⟨byte, longer⟩
    · rw [same]
    · rw [longer, List.length_append]
      omega
  have agree : ∀ tick ≤ (me.desk.caps.length : Int) + 1,
      captureFor me.desk.caps tick = captureFor me'.desk.caps tick := by
    intro tick bound
    rcases caps with same | ⟨byte, longer⟩
    · rw [same]
    · rw [longer, captureFor_append _ _ bound]
  refine ⟨receives_agree two.receives two.bounded (mark_bounded two) agree, two.paced,
    ?_, ?_, two.short⟩
  · rw [sent]
    exact two.newest
  · intro stamp isStamp
    have := two.bounded stamp isStamp
    omega

theorem sends_last {out : List Byte} {sent : Sent} (sends : Sends me me' out sent) :
    me.desk.writeTicks.getLast? = some (sent.tick : Int) := by
  rw [Desk.writeTicks, List.getLast?_cons, List.getLast?_map, sends.last]
  rfl

/-- The stamp of the record that goes out. -/
theorem sends_stamp {out : List Byte} {sent : Sent} (sends : Sends me me' out sent) :
    me.lastStamp = sent.tick + 2 := by
  rw [lastStamp, sends_last sends]
  rfl

/-- What goes out is the record of its tick, so it is genuine. -/
theorem sends_genuine {out : List Byte} {sent : Sent} (receives : Receives peer me)
    (sends : Sends me me' out sent) :
    Genuine (captureFor me.desk.caps) ⟨me.lastStamp, out⟩ := by
  obtain ⟨-, frame⟩ := receives.truthful.sent sent (List.mem_of_getLast? sends.last)
  refine ⟨me.desk.crcs.getD sent.tick 0, ?_⟩
  have middle : (sent.tick : Int) + 2 - 1 = sent.tick + 1 := by omega
  have oldest : (sent.tick : Int) + 2 - 2 = sent.tick := by omega
  simp only [sends_stamp sends, middle, oldest]
  exact sends.frame.trans frame

/-- Whatever holds from one record to the next holds from the last that went out
to the one that goes out now. -/
theorem sends_next {Next : Int → Int → Prop} {out : List Byte} {sent : Sent}
    (sends : Sends me me' out sent) (chain : me.desk.writeTicks.IsChain Next) :
    ∀ tick ∈ me.sentTicks.getLast?, Next tick sent.tick := by
  have ticks : me.desk.writeTicks = me.sentTicks ++ [(sent.tick : Int)] := by
    rw [sends.before]
    exact (List.dropLast_append_getLast? _ (sends_last sends)).symm
  rw [ticks] at chain
  intro tick isLast
  exact (List.isChain_append.mp chain).2.2 tick isLast _ (by simp)

/-- The peer of the acting console, when a record goes out to it. -/
theorem linked_fed {out : List Byte} {sent : Sent} (one : Linked me other)
    (two : Linked other me) (sends : Sends me me' out sent) :
    Linked (other.feed ⟨me.lastStamp, out⟩) me' := by
  have stamp := sends_stamp sends
  have ordered := sends_next sends one.paced.ascending
  have own : me.lastStamp ≤ me.desk.caps.length + 1 := by
    have behind := one.paced.behind _ (sends_last sends)
    omega
  refine ⟨?_, two.paced, ?_, ?_, two.short⟩
  · rw [sends.desk]
    refine receives_feed two.receives (sends_genuine one.receives sends) ?_
    rw [two.newest]
    intro newest isNewest
    obtain ⟨tick, isTick, rfl⟩ := Option.map_eq_some_iff.mp isNewest
    have later := ordered tick isTick
    show tick + 2 ≤ me.lastStamp
    omega
  · rw [stamps_feed, List.getLast?_concat, sends.now, stamp, sends_last sends]
    rfl
  · intro other' isStamp
    rw [stamps_feed] at isStamp
    rw [sends.desk]
    rcases List.mem_append.mp isStamp with old | new
    · exact two.bounded other' old
    · obtain rfl := List.mem_singleton.mp new
      exact own

/-- The two kinds of exchange: the console acts and nothing goes out, or its
cartridge sends the last record on. -/
inductive Exchanged (me other me' other' : Seat) (act : Act) : Prop where
  | alone (acted : me.next act = some me') (notFed : ∀ posted, act ≠ .feed posted)
      (sent : me'.sentTicks = me.sentTicks) (same : other' = other)
  | sends {out : List Byte} {sent : Sent} (acted : me.next act = some me')
      (notFed : ∀ posted, act ≠ .feed posted) (sends : Sends me me' out sent)
      (fed : other' = other.feed ⟨me.lastStamp, out⟩)

theorem exchange_cases (receives : Receives peer me)
    (taken : me.exchange other act = some (me', other')) :
    Exchanged me other me' other' act := by
  have alone : ∀ {acted : Option Seat}, acted = me.next act → act ≠ .serve →
      (∀ posted, act ≠ .feed posted) →
      acted.map (fun acted => (acted, other)) = some (me', other') →
        Exchanged me other me' other' act := by
    intro acted isNext silent notFed isPair
    obtain ⟨acted, rfl, pair⟩ := Option.map_eq_some_iff.mp isPair
    obtain ⟨rfl, rfl⟩ := Prod.mk.inj pair
    exact .alone isNext.symm notFed (sent_next receives isNext.symm silent) rfl
  cases act with
  | feed posted => cases taken
  | serve =>
      obtain ⟨⟨served, out⟩, isServe, pair⟩ := Option.map_eq_some_iff.mp taken
      have acted : me.next .serve = some served := by
        rw [next, isServe]
        rfl
      rcases serve_sent receives isServe with ⟨rfl, same⟩ | ⟨bytes, sent, rfl, sends⟩
      · obtain ⟨rfl, rfl⟩ := Prod.mk.inj pair
        exact .alone acted (fun _ => Act.noConfusion) same rfl
      · obtain ⟨rfl, rfl⟩ := Prod.mk.inj pair
        exact .sends acted (fun _ => Act.noConfusion) sends rfl
  | hook ports ram => exact alone rfl Act.noConfusion (fun _ => Act.noConfusion) taken
  | step => exact alone rfl Act.noConfusion (fun _ => Act.noConfusion) taken
  | spin => exact alone rfl Act.noConfusion (fun _ => Act.noConfusion) taken
  | deliver count => exact alone rfl Act.noConfusion (fun _ => Act.noConfusion) taken
  | ack => exact alone rfl Act.noConfusion (fun _ => Act.noConfusion) taken

/-- Both links survive every action of either console. -/
theorem linked_exchange (one : Linked me other) (two : Linked other me)
    (taken : me.exchange other act = some (me', other')) :
    Linked me' other' ∧ Linked other' me' := by
  cases exchange_cases one.receives taken with
  | alone acted notFed sent same =>
      rw [same]
      exact ⟨linked_acts one two acted notFed,
        linked_watches two (caps_next one.receives.truthful acted) sent⟩
  | sends acted notFed sends fed =>
      rw [fed]
      have acts := linked_acts one two acted notFed
      exact ⟨⟨acts.receives, acts.paced, acts.newest, acts.bounded, acts.short⟩,
        linked_fed one two sends⟩

end Seat

/-! ### The match -/

structure Match where
  host : Seat
  guest : Seat

namespace Match

/-- What each console brings to the hand-over: the sequence number and the
mailbox of its session, and its RAM. -/
structure Setup where
  seq : Byte
  ram : Ram
  painted : Painted

def start (host guest : Setup) : Match where
  host := Seat.start 0 host.seq host.ram host.painted
  guest := Seat.start dgeRole guest.seq guest.ram guest.painted

/-- The console on a side, and the one across from it. -/
def seat (table : Match) : Side → Seat
  | .host => table.host
  | .guest => table.guest

def across (table : Match) : Side → Seat
  | .host => table.guest
  | .guest => table.host

/-- One action of one console. -/
def next (table : Match) : Side × Seat.Act → Option Match
  | (.host, act) =>
      (table.host.exchange table.guest act).map fun (host, guest) => ⟨host, guest⟩
  | (.guest, act) =>
      (table.guest.exchange table.host act).map fun (guest, host) => ⟨host, guest⟩

def Step (before : Match) (act : Side × Seat.Act) (after : Match) : Prop :=
  before.next act = some after

variable {before after table : Match} {host guest : Setup}

/-- A property of a console and the one across from it, of both consoles. -/
def Both (Holds : Seat → Seat → Prop) (table : Match) : Prop :=
  Holds table.host table.guest ∧ Holds table.guest table.host

theorem Both.side {Holds : Seat → Seat → Prop} (both : Both Holds table) (side : Side) :
    Holds (table.seat side) (table.across side) := by
  cases side with
  | host => exact both.1
  | guest => exact both.2

theorem Both.sides {Holds : Seat → Seat → Prop} (both : Both Holds table) (side : Side) :
    Holds (table.seat side) (table.across side) ∧
      Holds (table.across side) (table.seat side) := by
  cases side with
  | host => exact both
  | guest => exact both.symm

/-- A step of the match, from the console that acts. -/
theorem next_side {side : Side} {act : Seat.Act}
    (taken : table.next (side, act) = some after) :
    (table.seat side).exchange (table.across side) act =
      some (after.seat side, after.across side) := by
  cases side with
  | host =>
      obtain ⟨⟨host, guest⟩, exchanged, rfl⟩ := Option.map_eq_some_iff.mp taken
      exact exchanged
  | guest =>
      obtain ⟨⟨guest, host⟩, exchanged, rfl⟩ := Option.map_eq_some_iff.mp taken
      exact exchanged

/-- A property that every exchange keeps for both consoles is kept by every
step of the match. -/
theorem Both.next {Holds : Seat → Seat → Prop} {act : Side × Seat.Act}
    (keeps : ∀ {me other me' other' : Seat}, Holds me other → Holds other me →
      me = before.seat act.1 → me.exchange other act.2 = some (me', other') →
        Holds me' other' ∧ Holds other' me')
    (both : Both Holds before) (taken : before.next act = some after) :
    Both Holds after := by
  obtain ⟨side, act⟩ := act
  have exchanged := next_side taken
  cases side with
  | host => exact keeps both.1 both.2 rfl exchanged
  | guest => exact (keeps both.2 both.1 rfl exchanged).symm

theorem linked_run {meets : Match → Side × Seat.Act → Prop}
    (run : Run Step meets (start host guest) table) : Both Seat.Linked table :=
  run.invariant (Both Seat.Linked)
    ⟨Seat.linked_start (Or.inl rfl), Seat.linked_start (Or.inr rfl)⟩
    fun both _ taken => both.next
      (fun one two _ exchanged => Seat.linked_exchange one two exchanged) taken

end Match

end DragsterNet
