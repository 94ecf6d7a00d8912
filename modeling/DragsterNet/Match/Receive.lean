/-
Module: DragsterNet.Match.Receive
Purpose: The receiving half of a console in unwrapped ticks: the watermark is
  exact, the batch is where the machine thinks it is, and every slot write
  stores the peer's byte.
Trusted boundary: none
Main exports: Genuine, Seat.Receives, Seat.receives_hook, Seat.receives_step,
  Seat.receives_serve, Seat.receives_feed, Seat.receives_next
-/
import DragsterNet.Match.Errand
import DragsterNet.Console.Record

namespace DragsterNet

open Lib

/-- A record that tells the truth about its peer: its window carries the peer's
bytes for its stamp and the two ticks before it. -/
def Genuine (peer : Int → Byte) (posted : Posted) : Prop :=
  ∃ crc, posted.frame =
    inputFrame (tickCell posted.stamp) (peer posted.stamp) (peer (posted.stamp - 1))
      (peer (posted.stamp - 2)) crc

instance (peer : Int → Byte) (posted : Posted) : Decidable (Genuine peer posted) :=
  decidable_of_iff
    (posted.frame =
      inputFrame (tickCell posted.stamp) (peer posted.stamp) (peer (posted.stamp - 1))
        (peer (posted.stamp - 2)) (posted.frame.getD 6 0))
    ⟨fun same => ⟨_, same⟩, by
      rintro ⟨crc, same⟩
      rw [same]
      rfl⟩

theorem genuine_length {peer : Int → Byte} {posted : Posted}
    (genuine : Genuine peer posted) : posted.frame.length = 8 := by
  obtain ⟨crc, frame⟩ := genuine
  rw [frame]
  rfl

namespace Console

variable {painted : Painted} {console : Console}

/-- What consuming one record changes for the transport. -/
structure Consumed (tick newest middle oldest : Byte) (before after : Console) :
    Prop where
  nst : after.dgNst = before.dgNst
  seq : after.dgSeq = before.dgSeq
  rdn : after.dgRdn = before.dgRdn - 1
  ring : after.dgRing =
    Function.update (Function.update (Function.update before.dgRing
      (ringSlot tick) newest) (ringSlot (tick - 1)) middle)
      (ringSlot (tick - 2)) oldest
  rwat : after.dgRwat =
    if (tick - before.dgRwat).msb then before.dgRwat else tick

/-- A record whose check byte agrees is stored and may move the watermark. -/
theorem dgsCons_stores (more : console.dgRdn ≠ 0) {tick newest middle oldest crc : Byte}
    (frame : ∀ offset < 8, (inputFrame tick newest middle oldest crc)[offset]? =
      some (painted.fnRply (console.cursor + offset))) :
    painted.fnRply (console.cursor + 1) = wtInput ∧
      checks painted.fnRply console.cursor = true ∧
      Consumed tick newest middle oldest console (dgsCons painted console) := by
  have type : painted.fnRply (console.cursor + 1) = wtInput :=
    (Option.some.inj (frame 1 (by decide))).symm
  have isTick : painted.fnRply (console.cursor + 2) = tick :=
    (Option.some.inj (frame 2 (by decide))).symm
  have isNewest : painted.fnRply (console.cursor + 3) = newest :=
    (Option.some.inj (frame 3 (by decide))).symm
  have isMiddle : painted.fnRply (console.cursor + 4) = middle :=
    (Option.some.inj (frame 4 (by decide))).symm
  have isOldest : painted.fnRply (console.cursor + 5) = oldest :=
    (Option.some.inj (frame 5 (by decide))).symm
  have isCrc : painted.fnRply (console.cursor + 6) = crc :=
    (Option.some.inj (frame 6 (by decide))).symm
  have isCheck : painted.fnRply (console.cursor + 7) =
      checkByte tick newest middle oldest crc :=
    (Option.some.inj (frame 7 (by decide))).symm
  have checked : checks painted.fnRply console.cursor = true := by
    unfold checks
    rw [isTick, isNewest, isMiddle, isOldest, isCrc, isCheck, beq_iff_eq, checkByte]
    ac_rfl
  refine ⟨type, checked, ?_⟩
  rw [dgsCons, if_neg more, consumeAt, if_pos type, if_pos checked, isTick, isNewest,
    isMiddle, isOldest, isCrc]
  generalize desync : detectDesync tick crc
    (storeWindow tick newest middle oldest { console with dgRdn := console.dgRdn - 1 }) =
      stored
  have same : stored.dgNst = console.dgNst ∧ stored.dgSeq = console.dgSeq ∧
      stored.dgRdn = console.dgRdn - 1 ∧ stored.dgRwat = console.dgRwat ∧
      stored.dgRing = (storeWindow tick newest middle oldest console).dgRing := by
    rw [← desync]
    unfold detectDesync
    repeat' split
    all_goals exact ⟨rfl, rfl, rfl, rfl, rfl⟩
  obtain ⟨nst, seq, rdn, rwat, ring⟩ := same
  unfold raiseWatermark
  rw [rwat]
  split
  · rename_i stale
    exact ⟨nst, seq, rdn, ring, by rw [if_pos stale, rwat]⟩
  · rename_i newer
    exact ⟨nst, seq, rdn, ring, by rw [if_neg newer]⟩

/-- The three slots of a window hold its bytes. -/
theorem Consumed.slots {stamp : Int} {newest middle oldest : Byte}
    {before after : Console}
    (consumed : Consumed (tickCell stamp) newest middle oldest before after) :
    after.dgRing (ringSlot (tickCell stamp)) = newest ∧
      after.dgRing (ringSlot (tickCell (stamp - 1))) = middle ∧
      after.dgRing (ringSlot (tickCell (stamp - 2))) = oldest := by
  rw [consumed.ring, tickCell_pred, tickCell_pred_pred]
  have first : ringSlot (tickCell stamp) ≠ ringSlot (tickCell (stamp - 1)) := by
    rw [Ne, ringSlot_tickCell]
    omega
  have second : ringSlot (tickCell stamp) ≠ ringSlot (tickCell (stamp - 2)) := by
    rw [Ne, ringSlot_tickCell]
    omega
  have third : ringSlot (tickCell (stamp - 1)) ≠ ringSlot (tickCell (stamp - 2)) := by
    rw [Ne, ringSlot_tickCell]
    omega
  refine ⟨?_, ?_, Function.update_self _ _ _⟩
  · rw [Function.update_of_ne second, Function.update_of_ne first, Function.update_self]
  · rw [Function.update_of_ne third, Function.update_self]

/-- A slot that belongs to no tick of the window keeps its byte. -/
theorem Consumed.other {stamp tick : Int} {newest middle oldest : Byte}
    {before after : Console}
    (consumed : Consumed (tickCell stamp) newest middle oldest before after)
    (outside : ∀ inside, WindowRing.InWindow dgWin stamp inside →
      inside % 8 ≠ tick % 8) :
    after.dgRing (ringSlot (tickCell tick)) =
      before.dgRing (ringSlot (tickCell tick)) := by
  have apart : ∀ inside, WindowRing.InWindow dgWin stamp inside →
      ringSlot (tickCell tick) ≠ ringSlot (tickCell inside) := by
    intro inside isInside
    rw [Ne, ringSlot_tickCell]
    exact fun same => outside inside isInside same.symm
  have small : (dgWin : Int) = 3 := rfl
  rw [consumed.ring, tickCell_pred, tickCell_pred_pred,
    Function.update_of_ne (apart (stamp - 2) ⟨by omega, by omega⟩),
    Function.update_of_ne (apart (stamp - 1) ⟨by omega, by omega⟩),
    Function.update_of_ne (apart stamp ⟨by omega, by omega⟩)]

/-- Every other step leaves the ring and the watermark. -/
theorem dgNstep_leaves (idle : ¬ (console.dgNst = .cons ∧ console.dgRdn ≠ 0)) :
    (dgNstep painted console).1.dgRing = console.dgRing ∧
      (dgNstep painted console).1.dgRwat = console.dgRwat := by
  unfold dgNstep
  split
  · exact ⟨rfl, rfl⟩
  · exact ⟨rfl, rfl⟩
  · unfold dgsWack
    repeat' split
    all_goals exact ⟨rfl, rfl⟩
  · exact ⟨rfl, rfl⟩
  · unfold dgsSack
    repeat' split
    all_goals exact ⟨rfl, rfl⟩
  · exact ⟨rfl, rfl⟩
  · unfold dgsRack
    repeat' split
    all_goals exact ⟨rfl, rfl⟩
  · rename_i state
    have done : console.dgRdn = 0 := by
      by_contra more
      exact idle ⟨state, more⟩
    rw [dgsCons, if_pos done]
    exact ⟨rfl, rfl⟩
  · exact ⟨rfl, rfl⟩

end Console

namespace Seat

open Console

variable {peer : Int → Byte} {seat after : Seat} {ports : Ports} {ram : Ram}

/-- The stamps of everything the peer has sent from the start of the batch on,
in the order it was sent. -/
def stamps (seat : Seat) : List Int :=
  seat.ring.base :: seat.unread.map Posted.stamp ++ seat.ring.eaten ++
    seat.rest.map Posted.stamp

theorem unread_stamp {posted : Posted} (isUnread : posted ∈ seat.unread) :
    posted.stamp ∈ seat.stamps := by
  simp only [stamps, List.mem_append, List.mem_cons, List.mem_map]
  exact Or.inl (Or.inl (Or.inr ⟨posted, isUnread, rfl⟩))

/-- The receiving half, in unwrapped ticks. -/
structure Receives (peer : Int → Byte) (seat : Seat) : Prop where
  truthful : seat.desk.Truthful
  turn : seat.ring.next + (if seat.desk.console.has dgeRan then 0 else 1) =
    seat.desk.caps.length
  next : seat.ring.next = seat.desk.runs.length
  lead : seat.ring.next ≤ max 0 (seat.ring.mark + 1)
  begun : 1 ≤ seat.ring.base
  near : seat.ring.base ≤ seat.ring.mark + 3
  rwat : seat.desk.console.dgRwat = tickCell seat.ring.mark
  marked : seat.ring.Marked
  ascending : seat.stamps.IsChain (· ≤ ·)
  batch : seat.unread.length + seat.ring.eaten.length ≤ 31
  genuine : ∀ posted ∈ seat.unread ++ seat.rest, Genuine peer posted
  stream : seat.sock ++ seat.wire = (seat.rest.map Posted.frame).flatten
  errand : seat.Errand
  stored : ∀ entry ∈ seat.stored, entry.2 = peer entry.1 ∧
    (entry.1 ≤ seat.ring.mark ∨ entry.1 ≤ seat.ring.base)

theorem receives_start {role seq : Byte} {painted : Painted}
    (isRole : role = 0 ∨ role = dgeRole) (seeded : ∀ tick < 2, peer tick = iwIdle) :
    Receives peer (start role seq ram painted) where
  truthful := Desk.truthful_start isRole
  turn := by
    have truthful : (Desk.start role seq ram).Truthful := Desk.truthful_start isRole
    have ran := (truthful.first rfl).1
    simp only [start, ran]
    rfl
  next := rfl
  lead := by simp [start]
  begun := by simp [start]
  near := by simp [start]
  rwat := rfl
  marked := ⟨fun _ => by simp [start], by simp [start]⟩
  ascending := by simp [stamps, start]
  batch := by simp [start]
  genuine := by simp [start]
  stream := by simp [start]
  errand := ⟨rfl, rfl⟩
  stored := by
    intro entry isEntry
    have either : entry = (0, iwIdle) ∨ entry = (1, iwIdle) := by
      simpa [start] using isEntry
    rcases either with rfl | rfl
    · exact ⟨(seeded 0 (by decide)).symm, by simp [start]⟩
    · exact ⟨(seeded 1 (by decide)).symm, by simp [start]⟩

/-! ### A frame -/

/-- The tick a boundary would run is the oldest one that has not. -/
theorem gate_tick (receives : Receives peer seat) :
    ((seat.desk.atHook ram).dgNt1 ports).dgTick = tickCell seat.ring.next := by
  have turn := receives.turn
  have tick : (seat.desk.atHook ram).dgTick = tickCell (seat.desk.caps.length - 1) :=
    receives.truthful.tick
  cases ran : (seat.desk.atHook ram).has dgeRan with
  | true =>
      have ran' : seat.desk.console.has dgeRan = true := ran
      rw [if_pos ran'] at turn
      rw [(dgNt1_committed ports ran).tick, tick, tickCell_succ]
      congr 1
      omega
  | false =>
      have ran' : seat.desk.console.has dgeRan = false := ran
      rw [ran'] at turn
      rw [dgNt1_retry ports ran, tick]
      congr 1
      simp only [Bool.false_eq_true, if_false] at turn
      omega

/-- The gate compares the unwrapped ticks. -/
theorem gate_passes (receives : Receives peer seat)
    (passes : ((seat.desk.atHook ram).dgNt1 ports).gateOpen = true) :
    seat.ring.next ≤ seat.ring.mark := by
  by_contra ahead
  have lead := receives.lead
  have begun := receives.begun
  have near := receives.near
  have rwat : (seat.desk.atHook ram).dgRwat = tickCell seat.ring.mark := receives.rwat
  have stalls : (tickCell seat.ring.mark - tickCell seat.ring.next).msb =
      decide (seat.ring.mark < seat.ring.next) :=
    tickCell_sub_msb (by omega) (by omega)
  rw [gateOpen, gate_tick receives, (dgNt1_leaves ports _).2.2.2.1, rwat, stalls,
    decide_eq_true (by omega : seat.ring.mark < seat.ring.next)] at passes
  cases passes

/-- A frame touches the desk and, when its tick runs, the reader's place in the
ring. -/
theorem receives_frame (receives : Receives peer seat) {desk : Desk} {ring : WindowRing}
    (truthful : desk.Truthful) (nst : desk.console.dgNst = seat.desk.console.dgNst)
    (seq : desk.console.dgSeq = seat.desk.console.dgSeq)
    (rdn : desk.console.dgRdn = seat.desk.console.dgRdn)
    (rwat : desk.console.dgRwat = seat.desk.console.dgRwat)
    (writes : desk.writes = seat.desk.writes)
    (turn : ring.next + (if desk.console.has dgeRan then 0 else 1) = desk.caps.length)
    (next : ring.next = desk.runs.length)
    (reader : ring = seat.ring ∨
      seat.ring.next ≤ seat.ring.mark ∧ ring = seat.ring.use) :
    Receives peer { seat with desk := desk, ring := ring } := by
  obtain ⟨lead, mark, base, eaten⟩ : ring.next ≤ max 0 (ring.mark + 1) ∧
      ring.mark = seat.ring.mark ∧ ring.base = seat.ring.base ∧
      ring.eaten = seat.ring.eaten := by
    rcases reader with rfl | ⟨passes, rfl⟩
    · exact ⟨receives.lead, rfl, rfl, rfl⟩
    · refine ⟨?_, rfl, rfl, rfl⟩
      simp only [WindowRing.use]
      omega
  refine ⟨truthful, turn, next, lead, ?_, ?_, ?_, ?_, ?_, ?_, receives.genuine,
    receives.stream, ?_, ?_⟩
  · exact base ▸ receives.begun
  · exact base ▸ mark ▸ receives.near
  · exact rwat.trans (mark ▸ receives.rwat)
  · rcases reader with rfl | ⟨_, rfl⟩
    · exact receives.marked
    · exact WindowRing.marked_use receives.marked
  · have same : stamps { seat with desk := desk, ring := ring } = seat.stamps := by
      simp only [stamps, base, eaten]
    rw [same]
    exact receives.ascending
  · exact eaten ▸ receives.batch
  · have errand := receives.errand
    unfold Errand at errand ⊢
    simpa only [nst, seq, rdn, writes] using errand
  · exact base ▸ mark ▸ receives.stored

/-- After a boundary the console is on the tick to be run. -/
theorem boundary_length {caps : List Byte} {byte : Byte} (receives : Receives peer seat)
    (isCaps : caps = if (seat.desk.atHook ram).has dgeRan then seat.desk.caps ++ [byte]
      else seat.desk.caps) :
    seat.ring.next + 1 = (caps.length : Int) := by
  have turn := receives.turn
  rw [isCaps]
  cases before : (seat.desk.atHook ram).has dgeRan with
  | true =>
      have before' : seat.desk.console.has dgeRan = true := before
      rw [before'] at turn
      simp only [if_true] at turn ⊢
      rw [List.length_append, List.length_singleton]
      omega
  | false =>
      have before' : seat.desk.console.has dgeRan = false := before
      rw [before'] at turn
      simpa using turn

theorem receives_hook (receives : Receives peer seat)
    (taken : seat.hook ports ram = some after) : Receives peer after := by
  obtain ⟨desk, hooked, rfl⟩ := Option.map_eq_some_iff.mp taken
  have truthful := Desk.truthful_hook receives.truthful hooked
  have net := receives.truthful.net (Desk.hook_bank hooked)
  have turn := receives.turn
  obtain ⟨-, -, writes, -, cases⟩ := Desk.hook_cases net hooked
  cases cases with
  | between phase quiet held bank net' ran role caps crcs runs =>
      have notRun : seat.runsTick ports ram = false := quiet
      rw [notRun]
      refine receives_frame receives truthful held.nst held.seq held.rdn held.rwat writes
        ?_ ?_ (Or.inl rfl)
      · rw [ran, caps]
        exact turn
      · rw [runs]
        exact receives.next
  | boundary phase decides held net' ran role mixed caps crcs runs =>
      obtain ⟨nst, seq, rdn, rwat, -⟩ := dgNt1_leaves ports (seat.desk.atHook ram)
      have advanced := boundary_length receives caps
      have runsIs : seat.runsTick ports ram =
          ((seat.desk.atHook ram).dgNt1 ports).gateOpen := decides
      rw [runsIs]
      refine receives_frame receives truthful (held.nst.trans nst) (held.seq.trans seq)
        (held.rdn.trans rdn) (held.rwat.trans rwat) writes ?_ ?_ ?_
      · rw [ran]
        split
        · simpa only [if_true, add_zero, WindowRing.use] using advanced
        · simpa only [Bool.false_eq_true, if_false] using advanced
      · rw [runs]
        split
        · rw [List.length_append, List.length_singleton]
          simp only [WindowRing.use, receives.next, Nat.cast_add, Nat.cast_one]
        · exact receives.next
      · split
        · rename_i passes
          exact Or.inr ⟨gate_passes receives passes, rfl⟩
        · exact Or.inl rfl

/-! ### A micro-step -/

/-- The machine is about to consume a record exactly when one is unread. -/
theorem consuming_iff :
    seat.consuming = true ↔
      seat.desk.console.dgNst = .cons ∧ seat.desk.console.dgRdn ≠ 0 := by
  simp [consuming]

/-- What a step that consumes a record does: `posted` is the newest unread one,
and its window is stored. -/
structure Eaten (peer : Int → Byte) (seat after : Seat) (older : List Posted)
    (posted : Posted) : Prop where
  unread : seat.unread = older ++ [posted]
  console : Consumed (tickCell posted.stamp) (peer posted.stamp)
    (peer (posted.stamp - 1)) (peer (posted.stamp - 2)) seat.desk.console
    after.desk.console
  whole : after =
    { seat with
      desk := after.desk
      ring := seat.ring.consume posted.stamp
      unread := older
      stored := seat.stored ++ windowSlots posted.stamp after.desk.console }
  desk : ∃ request, seat.desk.step seat.cart.painted = some (after.desk, request)

/-- The offset of the newest unread record. -/
theorem cursor_eq {console : Console} {records : Nat}
    (count : console.dgRdn.toNat = records + 1) (small : records + 1 ≤ 31) :
    console.cursor = 8 * records := by
  have less : (console.dgRdn - 1).toNat = records := by bv_omega
  unfold cursor
  rw [BitVec.toNat_shiftLeft, less, Nat.shiftLeft_eq]
  omega

/-- The record a step consumes is the newest unread one, whole in the reply
window. -/
theorem consumes_frame (receives : Receives peer seat) (consuming : seat.consuming = true) :
    ∃ older posted, seat.unread = older ++ [posted] ∧
      ∀ offset < 8, posted.frame[offset]? =
        some (seat.cart.painted.fnRply (seat.desk.console.cursor + offset)) := by
  obtain ⟨state, more⟩ := consuming_iff.mp consuming
  have errand := receives.errand
  unfold Errand at errand
  rw [state] at errand
  obtain ⟨-, length, holding⟩ := errand
  obtain ⟨older, posted, unread⟩ : ∃ older posted, seat.unread = older ++ [posted] := by
    have some : seat.unread ≠ [] := by
      intro none
      rw [none] at length
      exact more (BitVec.eq_of_toNat_eq length)
    exact ⟨_, _, (List.dropLast_append_getLast some).symm⟩
  have batch := receives.batch
  rw [unread, List.length_append, List.length_singleton] at batch length
  refine ⟨older, posted, unread, ?_⟩
  intro offset inside
  rw [cursor_eq length (by omega)]
  refine holding older.length posted ?_ offset inside
  rw [unread, List.getElem?_concat_length]

theorem step_eats (receives : Receives peer seat) (taken : seat.step = some after)
    (consuming : seat.consuming = true) :
    ∃ older posted, Eaten peer seat after older posted := by
  obtain ⟨⟨desk, request⟩, stepped, rfl⟩ := Option.map_eq_some_iff.mp taken
  obtain ⟨state, more⟩ := consuming_iff.mp consuming
  obtain ⟨older, posted, unread, inReply⟩ := consumes_frame receives consuming
  have last : seat.unread.getLast? = some posted := by
    rw [unread, List.getLast?_concat]
  obtain ⟨crc, frame⟩ := receives.genuine posted (by simp [unread])
  rw [frame] at inReply
  obtain ⟨type, checked, consumed⟩ := dgsCons_stores more inReply
  have isStep := Desk.step_cases stepped
  have console : desk.console = dgsCons seat.cart.painted seat.desk.console := by
    rw [isStep.console, dgNstep, state]
  have noRequest : request = none := by
    rw [isStep.request, dgNstep, state]
  have storing : seat.storing = true := by
    simp [Seat.storing, type, checked]
  refine ⟨older, posted, unread, ?_, ?_, ?_⟩
  · simp only [consuming, if_true, Seat.consumed, last]
    rw [console]
    exact consumed
  · simp only [consuming, if_true, Seat.consumed, last, storing, noRequest, Cart.commit]
    simp only [unread, List.dropLast_concat]
  · simp only [consuming, if_true, Seat.consumed, last]
    exact ⟨request, stepped⟩

/-- The bytes a step stores are the peer's. -/
theorem windowSlots_genuine {older : List Posted} {posted : Posted}
    (eaten : Eaten peer seat after older posted) :
    ∀ entry ∈ windowSlots posted.stamp after.desk.console,
      entry.2 = peer entry.1 ∧ entry.1 ≤ posted.stamp := by
  obtain ⟨newest, middle, oldest⟩ := eaten.console.slots
  intro entry isEntry
  have either : entry = (posted.stamp, peer posted.stamp) ∨
      entry = (posted.stamp - 1, peer (posted.stamp - 1)) ∨
      entry = (posted.stamp - 2, peer (posted.stamp - 2)) := by
    simpa [windowSlots, newest, middle, oldest] using isEntry
  rcases either with rfl | rfl | rfl
  · exact ⟨rfl, le_rfl⟩
  · exact ⟨rfl, by simp⟩
  · exact ⟨rfl, by simp⟩

/-- Every tick of the window is among the slots a step stores. -/
theorem windowSlots_covers {console : Console} {stamp tick : Int}
    (inside : WindowRing.InWindow dgWin stamp tick) :
    (tick, console.dgRing (ringSlot (tickCell tick))) ∈ windowSlots stamp console := by
  have small : (dgWin : Int) = 3 := rfl
  obtain ⟨above, below⟩ := inside
  have either : tick = stamp ∨ tick = stamp - 1 ∨ tick = stamp - 2 := by omega
  rcases either with rfl | rfl | rfl
  all_goals simp [windowSlots]

/-- The newest unread record is close enough to the watermark for the signed
comparison of their low bytes to be exact. -/
def Close (seat : Seat) : Prop :=
  ∀ posted ∈ seat.unread.getLast?,
    seat.ring.mark ≤ posted.stamp + 128 ∧ posted.stamp < seat.ring.mark + 128

/-- Consuming moves a stamp inside the stream, which stays as it is. -/
theorem stamps_eat {older : List Posted} {posted : Posted}
    (eaten : Eaten peer seat after older posted) : after.stamps = seat.stamps := by
  rw [eaten.whole]
  simp [stamps, eaten.unread, WindowRing.consume]

theorem receives_eat (receives : Receives peer seat) {older : List Posted}
    {posted : Posted} (state : seat.desk.console.dgNst = .cons)
    (more : seat.desk.console.dgRdn ≠ 0) (close : seat.Close)
    (eaten : Eaten peer seat after older posted) : Receives peer after := by
  obtain ⟨request, stepped⟩ := eaten.desk
  have isStep := Desk.step_cases stepped
  have same : SameBoundary seat.desk.console after.desk.console := by
    rw [isStep.console]
    exact dgNstep_sameBoundary
  have truthful := Desk.truthful_step receives.truthful stepped
  have writes : after.desk.writes = seat.desk.writes := by
    rw [isStep.writes, if_neg (by simp [state])]
  have unread := eaten.unread
  have ascending : (seat.ring.base :: (older.map Posted.stamp ++ [posted.stamp]) ++
      seat.ring.eaten).IsChain (· ≤ ·) := by
    have ascending := receives.ascending
    rw [stamps, unread] at ascending
    exact (List.isChain_append.mp (by simpa using ascending)).1
  have batch := receives.batch
  rw [unread, List.length_append, List.length_singleton] at batch
  have near := close posted (by rw [unread, List.getLast?_concat]; rfl)
  have rwat : after.desk.console.dgRwat =
      tickCell (max seat.ring.mark posted.stamp) := by
    have order : (tickCell posted.stamp - tickCell seat.ring.mark).msb =
        decide (posted.stamp < seat.ring.mark) :=
      tickCell_sub_msb (by omega) (by omega)
    rw [eaten.console.rwat, receives.rwat, order]
    by_cases stale : posted.stamp < seat.ring.mark
    · rw [if_pos (by simpa using stale), max_eq_left (by omega)]
    · rw [if_neg (by simpa using stale), max_eq_right (by omega)]
  have stream : after.stamps.IsChain (· ≤ ·) := by
    rw [stamps_eat eaten]
    exact receives.ascending
  rw [eaten.whole] at stream ⊢
  refine ⟨truthful, ?_, ?_, ?_, receives.begun, ?_, rwat, ?_, stream, ?_, ?_,
    receives.stream, ?_, ?_⟩
  · rw [same.ran, isStep.caps]
    exact receives.turn
  · rw [isStep.runs]
    exact receives.next
  · have lead := receives.lead
    simp only [WindowRing.consume]
    omega
  · have near := receives.near
    simp only [WindowRing.consume]
    omega
  · exact WindowRing.marked_consume ascending receives.marked
  · simp only [WindowRing.consume, List.length_cons]
    omega
  · intro other isOther
    refine receives.genuine other ?_
    rw [unread]
    simp only [List.mem_append, List.mem_singleton] at isOther ⊢
    tauto
  · have errand := receives.errand
    unfold Errand at errand ⊢
    simp only [state, eaten.console.nst, eaten.console.seq, eaten.console.rdn, writes]
      at errand ⊢
    have agreed := agreed_consume errand more
    rwa [unread, List.dropLast_concat] at agreed
  · intro entry isEntry
    simp only [WindowRing.consume]
    rcases List.mem_append.mp isEntry with old | new
    · obtain ⟨byte, bound⟩ := receives.stored entry old
      exact ⟨byte, by omega⟩
    · obtain ⟨byte, bound⟩ := windowSlots_genuine eaten entry new
      exact ⟨byte, by omega⟩

/-- A step that consumes no record leaves the ring and the streams. -/
theorem step_quiet (taken : seat.step = some after) (quiet : seat.consuming = false) :
    ∃ desk request, seat.desk.step seat.cart.painted = some (desk, request) ∧
      after = { seat with desk := desk, cart := seat.cart.commit request } := by
  obtain ⟨⟨desk, request⟩, stepped, rfl⟩ := Option.map_eq_some_iff.mp taken
  exact ⟨desk, request, stepped, by simp [quiet]⟩

theorem receives_step (receives : Receives peer seat) (close : seat.Close)
    (taken : seat.step = some after) : Receives peer after := by
  cases consuming : seat.consuming with
  | true =>
      obtain ⟨state, more⟩ := consuming_iff.mp consuming
      obtain ⟨older, posted, eaten⟩ := step_eats receives taken consuming
      exact receives_eat receives state more close eaten
  | false =>
      obtain ⟨desk, request, stepped, rfl⟩ := step_quiet taken consuming
      have isStep := Desk.step_cases stepped
      have same : SameBoundary seat.desk.console desk.console := by
        rw [isStep.console]
        exact dgNstep_sameBoundary
      have idle : ¬ (seat.desk.console.dgNst = .cons ∧ seat.desk.console.dgRdn ≠ 0) := by
        rw [← consuming_iff, consuming]
        exact Bool.false_ne_true
      have agreed := agreed_dgNstep receives.errand idle
        (show Sent.frame ⟨seat.desk.caps.length - 1, seat.desk.console.record⟩ = _ from rfl)
      refine ⟨Desk.truthful_step receives.truthful stepped, ?_, ?_, receives.lead,
        receives.begun, receives.near, ?_, receives.marked, receives.ascending,
        receives.batch, receives.genuine, receives.stream, ?_, receives.stored⟩
      · rw [same.ran, isStep.caps]
        exact receives.turn
      · rw [isStep.runs]
        exact receives.next
      · rw [isStep.console, (dgNstep_leaves idle).2]
        exact receives.rwat
      · unfold Errand
        have last : desk.writes.getLast? =
            if seat.desk.console.dgNst = .wiss then
              some ⟨seat.desk.caps.length - 1, seat.desk.console.record⟩
            else seat.desk.writes.getLast? := by
          rw [isStep.writes]
          split
          · exact List.getLast?_concat
          · rfl
        simp only [last, isStep.console, isStep.request]
        exact agreed

/-! ### The cartridge and the relay -/

theorem receives_spin (receives : Receives peer seat) (taken : seat.spin = some after) :
    Receives peer after := by
  obtain ⟨desk, spun, rfl⟩ := Option.map_eq_some_iff.mp taken
  have truthful := Desk.truthful_next receives.truthful (show seat.desk.next .spin = _ from spun)
  obtain rfl := Desk.spin_cases spun
  exact { receives with truthful := truthful }

theorem receives_deliver (receives : Receives peer seat) (count : Nat) :
    Receives peer (seat.deliver count) := by
  refine { receives with stream := ?_, errand := agreed_deliver receives.errand }
  simp only [deliver, List.append_assoc, List.take_append_drop]
  exact receives.stream

theorem ack_cases (taken : seat.ack = some after) :
    ∃ reply, seat.cart.stage = .served reply ∧
      after = { seat with cart := { painted := reply, stage := .idle } } := by
  unfold ack at taken
  split at taken
  · rename_i reply served
    exact ⟨reply, served, (Option.some.inj taken).symm⟩
  · cases taken

theorem receives_ack (receives : Receives peer seat) (taken : seat.ack = some after) :
    Receives peer after := by
  obtain ⟨reply, served, rfl⟩ := ack_cases taken
  exact { receives with errand := agreed_ack receives.errand served }

@[simp] theorem stamps_feed (posted : Posted) :
    (seat.feed posted).stamps = seat.stamps ++ [posted.stamp] := by
  simp [stamps, feed]

theorem chain_feed {Next : Int → Int → Prop} {posted : Posted}
    (chain : seat.stamps.IsChain Next)
    (next : ∀ newest ∈ seat.stamps.getLast?, Next newest posted.stamp) :
    (seat.feed posted).stamps.IsChain Next := by
  rw [stamps_feed, List.isChain_append]
  refine ⟨chain, List.isChain_singleton _, ?_⟩
  intro newest isNewest first isFirst
  obtain rfl : posted.stamp = first := by simpa using isFirst
  exact next newest isNewest

/-- The relay takes the peer's next record. -/
theorem receives_feed (receives : Receives peer seat) {posted : Posted}
    (genuine : Genuine peer posted)
    (next : ∀ newest ∈ seat.stamps.getLast?, newest ≤ posted.stamp) :
    Receives peer (seat.feed posted) := by
  refine { receives with ascending := chain_feed receives.ascending next, genuine := ?_, stream := ?_ }
  · intro other isOther
    simp only [feed, ← List.append_assoc] at isOther
    rcases List.mem_append.mp isOther with old | new
    · exact receives.genuine other old
    · obtain rfl := List.mem_singleton.mp new
      exact genuine
  · simp only [feed, ← List.append_assoc, receives.stream, List.map_append,
      List.flatten_append]
    simp

theorem rest_sized (receives : Receives peer seat) :
    Frames.Sized 8 (seat.rest.map Posted.frame) := by
  intro frame isFrame
  obtain ⟨posted, isPosted, rfl⟩ := List.mem_map.mp isFrame
  exact genuine_length (receives.genuine posted (List.mem_append_right _ isPosted))

/-- What the machine's state says of a transaction the cartridge executes. -/
theorem awaiting_state {request : Request} (receives : Receives peer seat)
    (launched : seat.cart.stage = .launched request) :
    seat.cart.painted.fnAcks ≠ seat.desk.console.dgSeq ∧
      request.seq = seat.desk.console.dgSeq ∧ seat.unread = [] ∧
      (seat.desk.console.dgNst = .wack ∧
          WriteAsked seat.desk.writes.getLast? request ∨
        seat.desk.console.dgNst = .sack ∧ request.command = ncStat ∨
        seat.desk.console.dgNst = .rack ∧
          ReadAsked seat.desk.console.dgRdn seat.sock seat.unread request) := by
  have errand := receives.errand
  have notIdle : seat.cart.stage ≠ .idle := by
    rw [launched]
    exact Stage.noConfusion
  unfold Errand at errand
  cases state : seat.desk.console.dgNst with
  | idle =>
      rw [state] at errand
      exact errand.elim
  | fail =>
      rw [state] at errand
      exact errand.elim
  | wiss =>
      rw [state] at errand
      exact absurd errand.1 notIdle
  | siss =>
      rw [state] at errand
      exact absurd errand.1 notIdle
  | riss =>
      rw [state] at errand
      exact absurd errand.1 notIdle
  | cons =>
      rw [state] at errand
      exact absurd errand.1 notIdle
  | wack =>
      rw [state] at errand
      obtain ⟨nothing, awaiting⟩ := errand
      unfold Awaiting at awaiting
      rw [launched] at awaiting
      exact ⟨awaiting.1, awaiting.2.1, nothing, Or.inl ⟨rfl, awaiting.2.2⟩⟩
  | sack =>
      rw [state] at errand
      obtain ⟨nothing, awaiting⟩ := errand
      unfold Awaiting at awaiting
      rw [launched] at awaiting
      exact ⟨awaiting.1, awaiting.2.1, nothing, Or.inr (Or.inl ⟨rfl, awaiting.2.2⟩)⟩
  | rack =>
      rw [state] at errand
      unfold Agreed Awaiting at errand
      rw [launched] at errand
      exact ⟨errand.1, errand.2.1, errand.2.2.2.2.2, Or.inr (Or.inr ⟨rfl, errand.2.2⟩)⟩

/-- The three ways the cartridge executes a transaction. -/
theorem serve_cases {out : Option (List Byte)} (receives : Receives peer seat)
    (taken : seat.serve = some (after, out)) :
    ∃ request, seat.cart.stage = .launched request ∧
      (seat.desk.console.dgNst = .wack ∧ WriteAsked seat.desk.writes.getLast? request ∧
          after = { seat with cart := { seat.cart with
            stage := .served (reply request 0 seat.cart.painted.fnRply) } } ∧
          out = some (request.tx.drop 3) ∨
        seat.desk.console.dgNst = .sack ∧
          after = { seat with cart := { seat.cart with
            stage := .served
              (reply request 4 (Cart.statusReply seat.sock.length)) } } ∧ out = none ∨
        seat.desk.console.dgNst = .rack ∧
          ReadAsked seat.desk.console.dgRdn seat.sock seat.unread request ∧
          after = seat.serveRead request ∧ out = none) := by
  unfold serve at taken
  split at taken
  · rename_i request launched
    refine ⟨request, launched, ?_⟩
    obtain ⟨-, -, -, write | stat | read⟩ := awaiting_state receives launched
    · rw [if_pos write.2.1] at taken
      obtain ⟨rfl, rfl⟩ := Prod.mk.inj (Option.some.inj taken)
      exact Or.inl ⟨write.1, write.2, rfl, rfl⟩
    · rw [if_neg (by rw [stat.2]; decide), if_pos stat.2] at taken
      obtain ⟨rfl, rfl⟩ := Prod.mk.inj (Option.some.inj taken)
      exact Or.inr (Or.inl ⟨stat.1, rfl, rfl⟩)
    · rw [if_neg (by rw [read.2.1]; decide), if_neg (by rw [read.2.1]; decide),
        if_pos read.2.1] at taken
      obtain ⟨rfl, rfl⟩ := Prod.mk.inj (Option.some.inj taken)
      exact Or.inr (Or.inr ⟨read.1, read.2, rfl, rfl⟩)
  · cases taken

/-- A READ cuts the stream elsewhere; its stamps from the new batch on follow
the last one consumed. -/
theorem stamps_serveRead (request : Request) (seat : Seat) :
    (seat.serveRead request).stamps =
      seat.ring.take.base :: seat.rest.map Posted.stamp := by
  simp only [stamps, serveRead, WindowRing.take_eaten, List.append_nil]
  rw [List.cons_append, ← List.map_append, List.take_append_drop]

theorem last_consumed (receives : Receives peer seat) (nothing : seat.unread = []) :
    (seat.ring.base :: seat.ring.eaten).getLast? = some seat.ring.take.base := by
  have ascending := receives.ascending
  rw [stamps, nothing] at ascending
  exact WindowRing.take_base (List.isChain_append.mp ascending).1 receives.marked

theorem chain_serveRead {Next : Int → Int → Prop} {request : Request}
    (receives : Receives peer seat) (nothing : seat.unread = [])
    (chain : seat.stamps.IsChain Next) :
    (seat.serveRead request).stamps.IsChain Next := by
  rw [stamps, nothing] at chain
  rw [stamps_serveRead]
  exact WindowRing.chain_take (last_consumed receives nothing) chain

/-- A READ turns the front of what is to come into the next batch. -/
theorem receives_serveRead {request : Request} (receives : Receives peer seat)
    (launched : seat.cart.stage = .launched request)
    (state : seat.desk.console.dgNst = .rack)
    (asked : ReadAsked seat.desk.console.dgRdn seat.sock seat.unread request) :
    Receives peer (seat.serveRead request) := by
  obtain ⟨new, seq, -, -⟩ := awaiting_state receives launched
  obtain ⟨command, tx, ⟨whole, arrived⟩, nothing⟩ := asked
  have sized := rest_sized receives
  obtain ⟨records, isCount⟩ : ∃ records, seat.desk.console.dgRdn.toNat = 8 * records :=
    ⟨seat.desk.console.dgRdn.toNat / 8, by omega⟩
  have count : Cart.count request = 8 * records := by
    unfold Cart.count
    rw [tx]
    simpa using isCount
  have few : records ≤ 31 := by
    have := seat.desk.console.dgRdn.isLt
    omega
  have enough : records ≤ seat.rest.length := by
    have length := congrArg List.length receives.stream
    rw [Frames.flatten_length sized, List.length_append, List.length_map] at length
    omega
  have taken : (seat.sock.take (8 * records)).length = 8 * records := by
    rw [List.length_take]
    omega
  refine ⟨receives.truthful, receives.turn, receives.next, receives.lead, ?_, ?_,
    receives.rwat, WindowRing.marked_take,
    chain_serveRead receives nothing receives.ascending, ?_, ?_, ?_, ?_, ?_⟩
  · have begun := receives.begun
    simp only [serveRead, WindowRing.take]
    omega
  · have near := receives.near
    simp only [serveRead, WindowRing.take]
    omega
  · simp only [serveRead, count, WindowRing.take_eaten, List.length_nil, List.length_take]
    omega
  · intro posted isPosted
    simp only [serveRead, List.take_append_drop] at isPosted
    exact receives.genuine posted (List.mem_append_right _ isPosted)
  · simp only [serveRead, count]
    have rest : (seat.sock ++ seat.wire).drop (8 * records) =
        ((seat.rest.drop records).map Posted.frame).flatten := by
      rw [receives.stream, Frames.flatten_drop sized, List.map_drop]
    rw [Nat.mul_div_cancel_left records (by decide), ← rest,
      List.drop_append_of_le_length (by omega)]
  · unfold Errand
    simp only [serveRead, count, state, taken]
    refine ⟨new, seq, rfl, ?_, ?_⟩
    · simp only [reply, BitVec.toNat_ofNat, List.length_take]
      omega
    · rw [Nat.mul_div_cancel_left records (by decide)]
      exact holding_read receives.stream sized (by omega)
  · intro entry isEntry
    obtain ⟨byte, bound⟩ := receives.stored entry isEntry
    refine ⟨byte, ?_⟩
    simp only [serveRead, WindowRing.take]
    omega

theorem receives_serve {out : Option (List Byte)} (receives : Receives peer seat)
    (taken : seat.serve = some (after, out)) : Receives peer after := by
  obtain ⟨request, launched, write | stat | read⟩ := serve_cases receives taken
  · obtain ⟨state, asked, rfl, -⟩ := write
    obtain ⟨new, seq, nothing, -⟩ := awaiting_state receives launched
    refine { receives with errand := ?_ }
    unfold Errand
    rw [state]
    exact ⟨nothing, new, seq, rfl⟩
  · obtain ⟨state, rfl, -⟩ := stat
    obtain ⟨new, seq, nothing, -⟩ := awaiting_state receives launched
    refine { receives with errand := ?_ }
    unfold Errand
    rw [state]
    exact ⟨nothing, new, seq, rfl, seat.sock.length, le_rfl, rfl⟩
  · obtain ⟨state, asked, rfl, -⟩ := read
    exact receives_serveRead receives launched state asked

/-- Every action of a console and its surroundings keeps the receiving half,
given that what the relay takes is genuine and in order. -/
theorem receives_next {act : Act} (receives : Receives peer seat) (close : seat.Close)
    (fed : ∀ posted, act = .feed posted → Genuine peer posted ∧
      ∀ newest ∈ seat.stamps.getLast?, newest ≤ posted.stamp)
    (taken : seat.next act = some after) : Receives peer after := by
  cases act with
  | hook ports ram => exact receives_hook receives taken
  | step => exact receives_step receives close taken
  | spin => exact receives_spin receives taken
  | deliver count =>
      obtain rfl := Option.some.inj taken
      exact receives_deliver receives count
  | serve =>
      obtain ⟨⟨served, out⟩, taken', rfl⟩ := Option.map_eq_some_iff.mp taken
      exact receives_serve receives taken'
  | ack => exact receives_ack receives taken
  | feed posted =>
      obtain rfl := Option.some.inj taken
      exact receives_feed receives (fed posted rfl).1 (fed posted rfl).2

end Seat

end DragsterNet
