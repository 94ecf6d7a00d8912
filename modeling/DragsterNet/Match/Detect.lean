/-
Module: DragsterNet.Match.Detect
Purpose: The eight-bit comparisons of a match are those of the unwrapped ticks:
  the gate, the watermark, and the test that holds a record's checksum against
  this console's own.
Trusted boundary: none
Main exports: Desk.tick, Console.differs, Seat.Tallied, Seat.compares,
  Match.comparisons_exact, Match.detection_sound
-/
import DragsterNet.Match.Agreement

namespace DragsterNet

open Lib

namespace Console

variable {ports : Ports} {painted : Painted} {console : Console} {tick crc : Byte}
  {reply : Nat → Byte} {y : Nat}

/-- The record at offset `y` arms the repair: it is an intact record of the tick
this console is on, with another checksum. -/
def differs (reply : Nat → Byte) (y : Nat) (console : Console) : Bool :=
  (reply (y + 1) == wtInput && checks reply y) &&
    (reply (y + 2) - dgD == console.dgTick && reply (y + 6) != console.dgCrcv)

theorem or_rsy : ∀ flags : Byte, ((flags ||| dgeRsy) &&& dgeRsy != 0) = true := by decide

theorem detectDesync_rsy :
    (detectDesync tick crc console).has dgeRsy =
      (console.has dgeRsy || (tick - dgD == console.dgTick && crc != console.dgCrcv)) := by
  unfold detectDesync
  by_cases other : tick - dgD = console.dgTick
  · rw [if_neg (not_not_intro other)]
    cases armed : console.has dgeRsy with
    | true => rw [if_pos rfl, armed, Bool.true_or]
    | false =>
        rw [if_neg Bool.false_ne_true]
        by_cases same : crc = console.dgCrcv
        · simp [same, armed]
        · rw [if_neg same]
          have arms : Console.has { console with dgEnt := console.dgEnt ||| dgeRsy }
              dgeRsy = true := or_rsy console.dgEnt
          simp [arms, other, same]
  · simp [other]

theorem raiseWatermark_has {mask : Byte} :
    (raiseWatermark tick console).has mask = console.has mask := by
  unfold raiseWatermark
  split <;> rfl

theorem consumeAt_rsy :
    (consumeAt reply y console).has dgeRsy =
      (console.has dgeRsy || console.differs reply y) := by
  unfold consumeAt differs
  by_cases input : reply (y + 1) = wtInput
  · cases intact : checks reply y with
    | true =>
        rw [if_pos input, if_pos rfl, raiseWatermark_has, detectDesync_rsy]
        simp only [input, beq_self_eq_true, Bool.true_and]
        rfl
    | false => simp [input]
  · rw [if_neg input]
    have notInput : (reply (y + 1) == wtInput) = false := by simpa using input
    rw [notInput, Bool.false_and, Bool.false_and, Bool.or_false]
    split <;> rfl

/-- Of the steps of the transport only one that consumes a record can arm the
repair. -/
theorem dgsCons_rsy (more : console.dgRdn ≠ 0) :
    (dgsCons painted console).has dgeRsy =
      (console.has dgeRsy || console.differs painted.fnRply console.cursor) := by
  rw [dgsCons, if_neg more, consumeAt_rsy]
  rfl

theorem dgNstep_flags (idle : ¬ (console.dgNst = .cons ∧ console.dgRdn ≠ 0)) :
    (dgNstep painted console).1.dgEnt = console.dgEnt := by
  unfold dgNstep
  cases state : console.dgNst with
  | idle => rfl
  | wiss => rfl
  | wack =>
      simp only [dgsWack]
      repeat' split
      all_goals rfl
  | siss => rfl
  | sack =>
      simp only [dgsSack]
      repeat' split
      all_goals rfl
  | riss => rfl
  | rack =>
      simp only [dgsRack]
      repeat' split
      all_goals rfl
  | cons =>
      have done : console.dgRdn = 0 := by
        by_contra more
        exact idle ⟨state, more⟩
      simp only [dgsCons, if_pos done]
  | fail => rfl

/-! ### The repair flag in a frame -/

theorem rsy_phase : ∀ flags : Byte,
    ((flags + 0x40) &&& dgeRsy != 0) = (flags &&& dgeRsy != 0) := by decide

theorem rsy_or_ran : ∀ flags : Byte,
    ((flags ||| dgeRan) &&& dgeRsy != 0) = (flags &&& dgeRsy != 0) := by decide

theorem rsy_clear_ran : ∀ flags : Byte,
    ((flags &&& ~~~dgeRan) &&& dgeRsy != 0) = (flags &&& dgeRsy != 0) := by decide

theorem rsy_clear_rsy : ∀ flags : Byte,
    ((flags &&& ~~~dgeRsy) &&& dgeRsy != 0) = false := by decide

theorem rsy_gone : ∀ flags : Byte,
    (((flags &&& ~~~(dgeNet ||| dgeWarm)) ||| dgeLeft) &&& dgeRsy != 0) =
      (flags &&& dgeRsy != 0) := by decide

/-- A capture leaves the flag clear: it was, or the press has cleared it. -/
theorem dgCap_rsy : (dgCap ports console).2.has dgeRsy = false := by
  unfold dgCap dgRsy
  cases armed : console.has dgeRsy with
  | true => exact rsy_clear_rsy console.dgEnt
  | false => exact armed

theorem dgNt1_rsy :
    (dgNt1 ports console).has dgeRsy = (console.has dgeRsy && !console.has dgeRan) := by
  unfold dgNt1
  cases ran : console.has dgeRan with
  | true =>
      rw [if_pos rfl, Bool.not_true, Bool.and_false]
      exact @dgCap_rsy ports console.sample
  | false => simp

theorem dgNt1b_rsy : (dgNt1b ports console).has dgeRsy = console.has dgeRsy := by
  unfold dgNt1b
  split
  · show (((console.dgEnt ||| dgeRan) + 0x40) &&& dgeRsy != 0) = _
    rw [rsy_phase, rsy_or_ran, has]
  · unfold dgStall
    split
    · rfl
    · exact rsy_gone console.dgEnt

theorem dgShim_rsy :
    (dgShim ports console).has dgeRsy = (console.has dgeRsy && !console.advances) := by
  unfold dgShim advances atBoundary
  rw [assume_has]
  cases net : console.has dgeNet with
  | false =>
      rw [if_neg Bool.false_ne_true, Bool.false_and, Bool.false_and, Bool.not_false,
        Bool.and_true]
      rfl
  | true =>
      rw [if_pos rfl, dgNet, assume_has]
      cases phase : console.has dgePh with
      | true =>
          rw [if_pos rfl, Bool.not_true, Bool.and_false, Bool.false_and, Bool.not_false,
            Bool.and_true]
          exact rsy_phase console.dgEnt
      | false =>
          rw [if_neg Bool.false_ne_true, dgNt1b_rsy, dgNt1_rsy]
          simp

end Console

/-- The number of times `DGTICK` has been incremented since the hand-over, less
one: the count of which the cell keeps eight bits. -/
def Desk.tick (desk : Desk) : Int :=
  desk.caps.length - 1

namespace Desk

open Console

variable {ports : Ports} {ram : Ram} {desk after : Desk} {act : Act}

theorem hook_rsy (taken : desk.hook ports ram = some after) :
    after.console.has dgeRsy =
      (desk.console.has dgeRsy && !(desk.atHook ram).advances) := by
  unfold hook at taken
  split at taken
  · cases taken
  · obtain rfl := Option.some.inj taken
    exact dgShim_rsy

/-- The checksums sampled so far stay as they are. -/
theorem crcs_next (truthful : Truthful desk) (taken : desk.next act = some after) :
    desk.crcs <+: after.crcs := by
  cases act with
  | hook ports ram =>
      obtain ⟨-, -, -, -, hooked⟩ := hook_cases (truthful.net (hook_bank taken)) taken
      cases hooked with
      | between _ _ _ _ _ _ _ _ crcs => rw [crcs]
      | boundary _ _ _ _ _ _ _ _ crcs =>
          rw [crcs]
          split
          · exact List.prefix_append _ _
          · exact List.prefix_rfl
  | step painted =>
      obtain ⟨⟨stepped, request⟩, taken', rfl⟩ := Option.map_eq_some_iff.mp taken
      rw [(step_cases taken').crcs]
  | spin => rw [spin_cases taken]

end Desk

namespace Seat

open Console

variable {peer : Int → Byte} {seat after me other me' other' : Seat} {act : Act}
  {ports : Ports} {ram : Ram}

/-! ### The record that is consumed -/

/-- Its bytes, as the machine reads them. -/
structure Reads (seat : Seat) (posted : Posted) : Prop where
  type : seat.cart.painted.fnRply (seat.desk.console.cursor + 1) = wtInput
  stamp : seat.cart.painted.fnRply (seat.desk.console.cursor + 2) = tickCell posted.stamp
  crc : posted.frame[6]? =
    some (seat.cart.painted.fnRply (seat.desk.console.cursor + 6))
  intact : checks seat.cart.painted.fnRply seat.desk.console.cursor = true

theorem consumes_reads (receives : Receives peer seat) (consuming : seat.consuming = true) :
    ∃ older posted, seat.unread = older ++ [posted] ∧ Reads seat posted := by
  obtain ⟨older, posted, unread, inReply⟩ := consumes_frame receives consuming
  obtain ⟨crc, frame⟩ := receives.genuine posted (by simp [unread])
  obtain ⟨state, more⟩ := consuming_iff.mp consuming
  have inFrame := inReply
  rw [frame] at inFrame
  obtain ⟨type, intact, -⟩ := dgsCons_stores more inFrame
  exact ⟨older, posted, unread, type, (Option.some.inj (inFrame 2 (by decide))).symm,
    inReply 6 (by decide), intact⟩

/-- Every unread record is at most eight ticks behind the tick this console is
on and at most six ahead of it. -/
theorem unread_near (one : Linked me other) (two : Linked other me) {posted : Posted}
    (isUnread : posted ∈ me.unread) :
    me.desk.tick ≤ posted.stamp + 8 ∧ posted.stamp ≤ me.desk.tick + 6 := by
  have ahead := (skew one two).2.1 posted.stamp (unread_stamp isUnread)
  have turn := turn_bounds one.receives
  have lead := one.receives.lead
  have begun := one.receives.begun
  have mark := mark_close one
  have oldest := base_le one.receives isUnread
  unfold Desk.tick
  omega

/-! ### The tests of one action -/

/-- The gate lets a tick through exactly when the watermark has reached it. -/
theorem gate_exact (one : Linked me other) (two : Linked other me) :
    ((me.desk.atHook ram).dgNt1 ports).gateOpen =
      decide (me.ring.next ≤ me.ring.mark) := by
  have lead := one.receives.lead
  have begun := one.receives.begun
  have near := one.receives.near
  have ahead := (skew one two).2.2
  have rwat : (me.desk.atHook ram).dgRwat = tickCell me.ring.mark := one.receives.rwat
  have stalls : (tickCell me.ring.mark - tickCell me.ring.next).msb =
      decide (me.ring.mark < me.ring.next) :=
    tickCell_sub_msb (by omega) (by omega)
  rw [gateOpen, gate_tick one.receives, (dgNt1_leaves ports _).2.2.2.1, rwat, stalls,
    ← decide_not, decide_eq_decide]
  exact not_lt

/-- What the eight-bit tests of one action decide, in unwrapped ticks. -/
structure Exact (seat after : Seat) (act : Act) : Prop where
  /-- `DGRWAT - DGTICK`, at a boundary. -/
  gate : ∀ ports ram, act = .hook ports ram → (seat.desk.atHook ram).atBoundary = true →
    ((seat.desk.atHook ram).dgNt1 ports).dgTick = tickCell after.desk.tick ∧
      ((seat.desk.atHook ram).dgNt1 ports).gateOpen =
        decide (after.desk.tick ≤ seat.ring.mark)
  /-- The record's tick less `DGRWAT`, when a record is consumed. -/
  raises : act = .step → seat.consuming = true → ∃ posted ∈ seat.unread.getLast?,
    seat.cart.painted.fnRply (seat.desk.console.cursor + 2) = tickCell posted.stamp ∧
      (seat.cart.painted.fnRply (seat.desk.console.cursor + 2) -
        seat.desk.console.dgRwat).msb = decide (posted.stamp < seat.ring.mark) ∧
      after.ring.mark =
        if posted.stamp < seat.ring.mark then seat.ring.mark else posted.stamp
  climbs : seat.ring.mark ≤ after.ring.mark

theorem exact_gate (one : Linked me other) (two : Linked other me)
    (boundary : (me.desk.atHook ram).atBoundary = true)
    (taken : me.hook ports ram = some me') :
    ((me.desk.atHook ram).dgNt1 ports).dgTick = tickCell me'.desk.tick ∧
      ((me.desk.atHook ram).dgNt1 ports).gateOpen =
        decide (me'.desk.tick ≤ me.ring.mark) := by
  obtain ⟨desk, hooked, rfl⟩ := Option.map_eq_some_iff.mp taken
  have net := one.receives.truthful.net (Desk.hook_bank hooked)
  obtain ⟨-, -, -, -, cases⟩ := Desk.hook_cases net hooked
  cases cases with
  | between phase _ _ _ _ _ _ _ _ _ => simp [atBoundary, phase] at boundary
  | boundary _ _ _ _ _ _ _ caps _ _ =>
      have tick : desk.tick = me.ring.next := by
        have length := boundary_length one.receives caps
        unfold Desk.tick
        omega
      rw [tick]
      exact ⟨gate_tick one.receives, gate_exact one two⟩

theorem exact_raise (linked : Linked me other) (consuming : me.consuming = true)
    (taken : me.step = some me') :
    ∃ posted ∈ me.unread.getLast?,
      me.cart.painted.fnRply (me.desk.console.cursor + 2) = tickCell posted.stamp ∧
        (me.cart.painted.fnRply (me.desk.console.cursor + 2) -
          me.desk.console.dgRwat).msb = decide (posted.stamp < me.ring.mark) ∧
        me'.ring.mark =
          if posted.stamp < me.ring.mark then me.ring.mark else posted.stamp := by
  obtain ⟨older, posted, eaten⟩ := step_eats linked.receives taken consuming
  obtain ⟨older', posted', unread, reads⟩ := consumes_reads linked.receives consuming
  obtain ⟨rfl, same⟩ := List.append_inj' (eaten.unread.symm.trans unread) rfl
  obtain rfl := List.singleton_inj.mp same
  have last : posted ∈ me.unread.getLast? := by
    rw [unread, List.getLast?_concat]
    rfl
  have close := linked_close linked posted last
  refine ⟨posted, last, reads.stamp, ?_, ?_⟩
  · rw [reads.stamp, linked.receives.rwat]
    exact tickCell_sub_msb (by omega) (by omega)
  · rw [eaten.whole]
    simp only [WindowRing.consume]
    split
    · exact max_eq_left (by omega)
    · exact max_eq_right (by omega)

theorem mark_next (receives : Receives peer seat) (taken : seat.next act = some after) :
    seat.ring.mark ≤ after.ring.mark := by
  cases motion_next receives taken with
  | frame ground ring =>
      rw [ring]
      split <;> exact le_rfl
  | still ground ring => rw [ring]
  | eat consuming eaten =>
      rw [eaten.whole]
      exact le_max_left _ _
  | read nothing ring stamps stored slots =>
      rw [ring]
      exact le_rfl
  | feed same =>
      rw [same]
      exact le_rfl

theorem exact_next (one : Linked me other) (two : Linked other me)
    (taken : me.next act = some me') : Exact me me' act where
  gate := by
    rintro ports ram rfl boundary
    exact exact_gate one two boundary taken
  raises := by
    rintro rfl consuming
    exact exact_raise one consuming taken
  climbs := mark_next one.receives taken

/-! ### The checksums on their way -/

/-- The record carries what its sender sampled on entering the tick that is `d`
before its stamp. -/
def Sampled (crcs : List Byte) (posted : Posted) : Prop :=
  ∃ tick : Nat, posted.stamp = tick + 2 ∧ tick < crcs.length ∧
    posted.frame[6]? = crcs[tick]?

/-- So do all the records on their way to `me`. -/
def Tallied (me other : Seat) : Prop :=
  ∀ posted ∈ me.unread ++ me.rest, Sampled other.desk.crcs posted

theorem getD_sampled {crcs : List Byte} {tick : Nat} (made : tick < crcs.length) :
    crcs[tick]? = some (crcs.getD tick 0) := by
  rw [List.getD_eq_getElem?_getD, List.getElem?_eq_getElem made]
  rfl

theorem Sampled.grow {crcs later : List Byte} {posted : Posted}
    (sampled : Sampled crcs posted) (grows : crcs <+: later) : Sampled later posted := by
  obtain ⟨tick, stamp, made, same⟩ := sampled
  obtain ⟨more, rfl⟩ := grows
  refine ⟨tick, stamp, ?_, ?_⟩
  · rw [List.length_append]
    omega
  · rw [same, List.getElem?_append_left made]

/-- Nothing comes in but what the relay takes. -/
theorem records_next (taken : seat.next act = some after)
    (notFed : ∀ posted, act ≠ .feed posted) :
    ∀ posted ∈ after.unread ++ after.rest, posted ∈ seat.unread ++ seat.rest := by
  cases act with
  | hook ports ram =>
      obtain ⟨desk, -, rfl⟩ := Option.map_eq_some_iff.mp taken
      exact fun _ => id
  | step =>
      obtain ⟨⟨desk, request⟩, -, rfl⟩ := Option.map_eq_some_iff.mp taken
      intro posted isPosted
      simp only [consumed] at isPosted
      split at isPosted
      · split at isPosted
        · exact isPosted
        · rcases List.mem_append.mp isPosted with unread | rest
          · exact List.mem_append_left _ (List.dropLast_subset _ unread)
          · exact List.mem_append_right _ rest
      · exact isPosted
  | spin =>
      obtain ⟨desk, -, rfl⟩ := Option.map_eq_some_iff.mp taken
      exact fun _ => id
  | deliver count =>
      obtain rfl := Option.some.inj taken
      exact fun _ => id
  | serve =>
      obtain ⟨⟨served, out⟩, taken', rfl⟩ := Option.map_eq_some_iff.mp taken
      unfold serve at taken'
      split at taken'
      · split at taken'
        · cases taken'
          exact fun _ => id
        · split at taken'
          · cases taken'
            exact fun _ => id
          · split at taken'
            · cases taken'
              intro posted isPosted
              simp only [serveRead, List.take_append_drop] at isPosted
              exact List.mem_append_right _ isPosted
            · cases taken'
      · cases taken'
  | ack =>
      obtain ⟨reply, -, rfl⟩ := ack_cases taken
      exact fun _ => id
  | feed posted => exact absurd rfl (notFed posted)

theorem crcs_next (truthful : seat.desk.Truthful) (taken : seat.next act = some after) :
    seat.desk.crcs <+: after.desk.crcs := by
  rcases desk_next taken with ⟨deskAct, -, moved⟩ | same
  · exact Desk.crcs_next truthful moved
  · rw [same]

/-- What goes out carries the checksum of its tick. -/
theorem sends_sampled {out : List Byte} {sent : Sent} (receives : Receives peer me)
    (sends : Sends me me' out sent) : Sampled me.desk.crcs ⟨me.lastStamp, out⟩ := by
  obtain ⟨made, frame⟩ := receives.truthful.sent sent (List.mem_of_getLast? sends.last)
  have samples := receives.truthful.samples
  have sampled : me.desk.crcs[sent.tick]? = some (me.desk.crcs.getD sent.tick 0) :=
    getD_sampled (by omega)
  refine ⟨sent.tick, sends_stamp sends, by omega, ?_⟩
  rw [sampled, sends.frame, frame]
  rfl

theorem tallied_exchange (one : Linked me other) (tallied : Tallied me other)
    (tallied' : Tallied other me) (taken : me.exchange other act = some (me', other')) :
    Tallied me' other' ∧ Tallied other' me' := by
  have acts : ∀ {acted}, me.next act = some acted → (∀ posted, act ≠ .feed posted) →
      Tallied acted other ∧ Tallied other acted := by
    intro acted isNext notFed
    refine ⟨?_, ?_⟩
    · intro posted isPosted
      exact tallied posted (records_next isNext notFed posted isPosted)
    · intro posted isPosted
      exact (tallied' posted isPosted).grow (crcs_next one.receives.truthful isNext)
  cases exchange_cases one.receives taken with
  | alone acted notFed _ same =>
      rw [same]
      exact acts acted notFed
  | sends acted notFed sends fed =>
      obtain ⟨mine, theirs⟩ := acts acted notFed
      rw [fed]
      refine ⟨mine, ?_⟩
      intro posted isPosted
      simp only [feed, ← List.append_assoc] at isPosted
      rcases List.mem_append.mp isPosted with old | new
      · exact theirs posted old
      · obtain rfl := List.mem_singleton.mp new
        exact (sends_sampled one.receives sends).grow
          (crcs_next one.receives.truthful acted)

/-! ### The desync check -/

/-- The two consoles entered the tick with different checksums. -/
def Differ (me other : Seat) (tick : Nat) : Prop :=
  ∃ mine theirs, me.desk.crcs[tick]? = some mine ∧ other.desk.crcs[tick]? = some theirs ∧
    mine ≠ theirs

/-- A record differs exactly when it is of the tick this console is on and the
two consoles entered that tick with different checksums. -/
theorem differs_iff (one : Linked me other) (two : Linked other me)
    (tallied : Tallied me other) {older : List Posted} {posted : Posted}
    (begun : me.desk.caps ≠ []) (unread : me.unread = older ++ [posted])
    (reads : Reads me posted) :
    me.desk.console.differs me.cart.painted.fnRply me.desk.console.cursor = true ↔
      ∃ tick : Nat, (tick : Int) = me.desk.tick ∧ posted.stamp = tick + 2 ∧
        Differ me other tick := by
  have isUnread : posted ∈ me.unread := by simp [unread]
  obtain ⟨tick, stamp, made, crc⟩ := tallied posted (List.mem_append_left _ isUnread)
  have near := unread_near one two isUnread
  have isTick : tickCell posted.stamp - dgD = tickCell tick := by
    rw [stamp]
    exact (tickCell_sub _ 2).symm.trans (congrArg tickCell (by omega))
  have own : tickCell tick = me.desk.console.dgTick ↔ (tick : Int) = me.desk.tick := by
    rw [one.receives.truthful.tick]
    exact Serial.ofInt_inj (by unfold Desk.tick at near; omega)
      (by unfold Desk.tick at near; omega)
  have samples := one.receives.truthful.samples
  have positive : 0 < me.desk.caps.length := List.length_pos_iff.mpr begun
  have sampled : me.desk.crcs[me.desk.caps.length - 1]? = some me.desk.console.dgCrcv := by
    rw [one.receives.truthful.crcv begun]
    exact getD_sampled (by omega)
  have theirs : other.desk.crcs[tick]? =
      some (me.cart.painted.fnRply (me.desk.console.cursor + 6)) := crc.symm.trans reads.crc
  unfold differs
  simp only [reads.type, reads.intact, reads.stamp, isTick, beq_self_eq_true, Bool.true_and,
    Bool.and_eq_true, beq_iff_eq, bne_iff_ne, own]
  unfold Desk.tick
  constructor
  · rintro ⟨isOwn, apart⟩
    have here : tick = me.desk.caps.length - 1 := by omega
    exact ⟨tick, isOwn, stamp, _, _, here ▸ sampled, theirs, apart.symm⟩
  · rintro ⟨tick', isOwn, stamp', mine, theirs', isMine, isTheirs, apart⟩
    obtain rfl : tick' = tick := by omega
    refine ⟨isOwn, ?_⟩
    have here : tick' = me.desk.caps.length - 1 := by omega
    rw [here, sampled] at isMine
    rw [theirs] at isTheirs
    rw [Option.some.inj isTheirs, Option.some.inj isMine]
    exact apart.symm

/-- An action that sets the repair flag consumes a record of this console's own
tick, on which the checksums differ. -/
theorem arms_next (one : Linked me other) (two : Linked other me)
    (tallied : Tallied me other) (taken : me.next act = some me')
    (clear : me.desk.console.has dgeRsy = false)
    (armed : me'.desk.console.has dgeRsy = true) :
    act = .step ∧ me.consuming = true ∧ ∃ posted ∈ me.unread.getLast?, ∃ tick : Nat,
      (tick : Int) = me.desk.tick ∧ posted.stamp = tick + 2 ∧ Differ me other tick := by
  rcases desk_next taken with ⟨deskAct, isDeskAct, moved⟩ | same
  · cases act with
    | hook ports ram =>
        obtain ⟨desk, hooked, rfl⟩ := Option.map_eq_some_iff.mp taken
        rw [Desk.hook_rsy hooked, clear, Bool.false_and] at armed
        cases armed
    | step =>
        obtain ⟨request, stepped⟩ := desk_step taken
        have isStep := Desk.step_cases stepped
        rw [isStep.console] at armed
        cases consuming : me.consuming with
        | true =>
            obtain ⟨state, more⟩ := consuming_iff.mp consuming
            obtain ⟨older, posted, unread, reads⟩ := consumes_reads one.receives consuming
            have begun := one.receives.truthful.begun isStep.waiting
            have consumes : (dgNstep me.cart.painted me.desk.console).1 =
                dgsCons me.cart.painted me.desk.console := by
              rw [dgNstep, state]
            rw [consumes, dgsCons_rsy more, clear, Bool.false_or] at armed
            have last : posted ∈ me.unread.getLast? := by
              rw [unread, List.getLast?_concat]
              rfl
            exact ⟨rfl, rfl, posted, last,
              (differs_iff one two tallied begun unread reads).mp armed⟩
        | false =>
            have idle : ¬ (me.desk.console.dgNst = .cons ∧ me.desk.console.dgRdn ≠ 0) := by
              rw [← consuming_iff, consuming]
              exact Bool.false_ne_true
            rw [has, dgNstep_flags idle] at armed
            exact absurd (clear.symm.trans armed) Bool.false_ne_true
    | spin =>
        obtain rfl := Option.some.inj isDeskAct
        rw [Desk.spin_cases moved] at armed
        exact absurd (clear.symm.trans armed) Bool.false_ne_true
    | deliver _ => cases isDeskAct
    | serve => cases isDeskAct
    | ack => cases isDeskAct
    | feed _ => cases isDeskAct
  · rw [same, clear] at armed
    cases armed

end Seat

namespace Match

variable {before after table : Match} {host guest : Setup} {side : Side} {act : Seat.Act}

/-- Eight-bit signed tick comparison is exact on every run of two consoles: the
two cells hold the low bytes of the tick and of the watermark, neither tick is
more than `d + 1` ahead of the other, and every test of the next action, the
gate's and the watermark's, decides as the unwrapped ticks do. -/
theorem comparisons_exact (run : Run Step always (start host guest) table) (side : Side) :
    (table.seat side).desk.console.dgTick = tickCell (table.seat side).desk.tick ∧
      (table.seat side).desk.console.dgRwat = tickCell (table.seat side).ring.mark ∧
      (table.seat side).desk.tick ≤ (table.across side).desk.tick + (dgD.toNat + 1) ∧
      ∀ (act : Seat.Act) (after : Match), table.next (side, act) = some after →
        Seat.Exact (table.seat side) (after.seat side) act ∧
          (after.across side).ring = (table.across side).ring := by
  obtain ⟨one, two⟩ := (linked_run run).sides side
  refine ⟨one.receives.truthful.tick, one.receives.rwat, ?_, ?_⟩
  · have apart := (Seat.skew two one).1
    have delay : (dgD.toNat : Int) = 2 := rfl
    unfold Desk.tick
    omega
  · intro act after taken
    cases Seat.exchange_cases one.receives (next_side taken) with
    | alone acted _ _ same =>
        rw [same]
        exact ⟨Seat.exact_next one two acted, rfl⟩
    | sends acted _ _ fed =>
        rw [fed]
        exact ⟨Seat.exact_next one two acted, rfl⟩

theorem comparisons_exact_ahead : ∃ table after : Match,
    table.next (.host, .step) = some after ∧ (table.seat .host).consuming = true ∧
    (table.seat .host).desk.console.dgTick = tickCell (table.seat .host).desk.tick ∧
      (table.seat .host).desk.console.dgRwat = tickCell (table.seat .host).ring.mark ∧
      (table.seat .host).desk.tick ≤ (table.across .host).desk.tick + (dgD.toNat + 1) ∧
      ∀ (act : Seat.Act) (after : Match), table.next (.host, act) = some after →
        Seat.Exact (table.seat .host) (after.seat .host) act ∧
          (after.across .host).ring = (table.across .host).ring := by
  have outcome : (guestAhead.foldlM next onTable).map
      (fun table => (table.host.consuming, (table.next (.host, .step)).isSome)) =
        some (true, true) := by decide +kernel
  obtain ⟨table, executed, isOutcome⟩ := Option.map_eq_some_iff.mp outcome
  simp only [Prod.mk.injEq, Option.isSome_iff_exists] at isOutcome
  obtain ⟨consuming, after, taken⟩ := isOutcome
  exact ⟨table, after, taken, consuming,
    comparisons_exact (Run.of_foldlM executed) .host⟩

/-- In every run the records on their way carry the checksums of their ticks. -/
theorem tallied_run {meets : Match → Side × Seat.Act → Prop}
    (run : Run Step meets (start host guest) table) : Both Seat.Tallied table := by
  have both := run.invariant
    (Both fun me other => Seat.Linked me other ∧ Seat.Tallied me other)
    ⟨⟨Seat.linked_start (Or.inl rfl), fun _ => List.not_mem_nil.elim⟩,
      ⟨Seat.linked_start (Or.inr rfl), fun _ => List.not_mem_nil.elim⟩⟩ <| by
      intro before act after both _ taken
      refine both.next ?_ taken
      rintro me other me' other' ⟨one, tallied⟩ ⟨two, tallied'⟩ - exchanged
      obtain ⟨linked, linked'⟩ := Seat.linked_exchange one two exchanged
      obtain ⟨now, now'⟩ := Seat.tallied_exchange one tallied tallied' exchanged
      exact ⟨⟨linked, now⟩, ⟨linked', now'⟩⟩
  exact ⟨both.1.2, both.2.2⟩

/-- Desync detection has no false positive: in every run of two consoles, the
repair flag is set only by consuming a record, and only when the two consoles
entered the tick this console is on with different checksums. -/
theorem detection_sound (run : Run Step always (start host guest) table)
    (taken : table.next (side, act) = some after)
    (clear : (table.seat side).desk.console.has dgeRsy = false)
    (armed : (after.seat side).desk.console.has dgeRsy = true) :
    act = .step ∧ (table.seat side).consuming = true ∧
      ∃ tick : Nat, (tick : Int) = (table.seat side).desk.tick ∧
        ∃ mine theirs, (table.seat side).desk.crcs[tick]? = some mine ∧
          (table.across side).desk.crcs[tick]? = some theirs ∧ mine ≠ theirs := by
  obtain ⟨one, two⟩ := (linked_run run).sides side
  obtain ⟨tallied, -⟩ := (tallied_run run).sides side
  have acted : (table.seat side).next act = some (after.seat side) := by
    cases Seat.exchange_cases one.receives (next_side taken) with
    | alone acted => exact acted
    | sends acted => exact acted
  obtain ⟨isStep, consuming, posted, -, tick, isOwn, -, apart⟩ :=
    Seat.arms_next one two tallied acted clear armed
  exact ⟨isStep, consuming, tick, isOwn, apart⟩

/-- A frame whose logic left the first car's engine speed elsewhere. -/
def revvedFrame : Seat.Act :=
  .hook Seat.idlePorts fun cell => if cell = rpm then 1 else 0

/-- Both consoles write the record of tick 0, which they entered with different
engine speeds; the host is about to consume the guest's. -/
def guestRevved : List (Side × Seat.Act) :=
  by_ .host (Seat.idleFrame :: Seat.transaction) ++
    by_ .guest (revvedFrame :: Seat.transaction) ++ by_ .host (reading 1 0)

theorem detection_sound_revved : ∃ table after : Match,
    table.next (.host, .step) = some after ∧
      (after.seat .host).desk.console.has dgeRsy = true ∧
      Seat.Act.step = .step ∧ (table.seat .host).consuming = true ∧
      ∃ tick : Nat, (tick : Int) = (table.seat .host).desk.tick ∧
        ∃ mine theirs, (table.seat .host).desk.crcs[tick]? = some mine ∧
          (table.across .host).desk.crcs[tick]? = some theirs ∧ mine ≠ theirs := by
  have outcome : (guestRevved.foldlM next onTable).map
      (fun table => (table.host.desk.console.has dgeRsy,
        (table.next (.host, .step)).map fun after =>
          after.host.desk.console.has dgeRsy)) = some (false, some true) := by
    decide +kernel
  obtain ⟨table, executed, isOutcome⟩ := Option.map_eq_some_iff.mp outcome
  obtain ⟨clear, stepped⟩ := Prod.mk.inj isOutcome
  obtain ⟨after, taken, armed⟩ := Option.map_eq_some_iff.mp stepped
  exact ⟨table, after, taken, armed,
    detection_sound (Run.of_foldlM executed) taken clear armed⟩

end Match

end DragsterNet
