/-
Module: DragsterNet.Match.Watermark
Purpose: When the watermark is behind the ring: on a gap-free stream, every
  tick the gate lets through has been written, provided no boundary in the
  middle of a batch outruns the records consumed so far; and a written slot
  keeps its byte, provided no record is too old for the ring.
Trusted boundary: none
Main exports: Seat.Motion, Seat.motion_next, Seat.Gapless, Seat.gapless_next,
  Seat.Kept, Seat.kept_next, Seat.Settled, Seat.Roomy
-/
import DragsterNet.Match.Receive
import DragsterNet.Lib.Steps

namespace DragsterNet

open Lib

namespace Seat

open Console

variable {peer : Int → Byte} {seat after : Seat} {ports : Ports} {ram : Ram}

/-- The byte of the tick has been written to its slot. -/
def Stored (seat : Seat) (tick : Int) : Prop :=
  ∃ byte, (tick, byte) ∈ seat.stored

/-! ### What an action does to the ring -/

/-- The ring's slots and the stream's stamps stay as they are. -/
structure Ground (seat after : Seat) : Prop where
  unread : after.unread = seat.unread
  stamps : after.stamps = seat.stamps
  stored : after.stored = seat.stored
  slots : after.desk.console.dgRing = seat.desk.console.dgRing

inductive Motion (peer : Int → Byte) (seat after : Seat) : Act → Prop where
  /-- A frame moves the reader on when its tick runs. -/
  | frame {ports : Ports} {ram : Ram} (ground : Ground seat after)
      (ring : after.ring =
        if seat.runsTick ports ram then seat.ring.use else seat.ring) :
      Motion peer seat after (.hook ports ram)
  | still {act : Act} (ground : Ground seat after) (ring : after.ring = seat.ring) :
      Motion peer seat after act
  | eat {older : List Posted} {posted : Posted} (consuming : seat.consuming = true)
      (eaten : Eaten peer seat after older posted) : Motion peer seat after .step
  /-- A READ takes the next batch. -/
  | read (nothing : seat.unread = []) (ring : after.ring = seat.ring.take)
      (stamps : after.stamps = seat.ring.take.base :: seat.rest.map Posted.stamp)
      (stored : after.stored = seat.stored)
      (slots : after.desk.console.dgRing = seat.desk.console.dgRing) :
      Motion peer seat after .serve
  | feed {posted : Posted} (fed : after = seat.feed posted) :
      Motion peer seat after (.feed posted)

theorem motion_hook (receives : Receives peer seat)
    (taken : seat.hook ports ram = some after) :
    Motion peer seat after (.hook ports ram) := by
  obtain ⟨desk, hooked, rfl⟩ := Option.map_eq_some_iff.mp taken
  refine .frame ⟨rfl, ?_, rfl, ?_⟩ rfl
  · simp only [stamps]
    split <;> rfl
  · have net := receives.truthful.net (Desk.hook_bank hooked)
    obtain ⟨-, -, -, -, cases⟩ := Desk.hook_cases net hooked
    cases cases with
    | between _ _ held => exact held.ring
    | boundary _ _ held =>
        exact held.ring.trans (dgNt1_leaves ports (seat.desk.atHook ram)).2.2.2.2

theorem motion_step (receives : Receives peer seat) (taken : seat.step = some after) :
    Motion peer seat after .step := by
  cases consuming : seat.consuming with
  | true =>
      obtain ⟨older, posted, eaten⟩ := step_eats receives taken consuming
      exact .eat consuming eaten
  | false =>
      obtain ⟨desk, request, stepped, rfl⟩ := step_quiet taken consuming
      have idle : ¬ (seat.desk.console.dgNst = .cons ∧ seat.desk.console.dgRdn ≠ 0) := by
        rw [← consuming_iff, consuming]
        exact Bool.false_ne_true
      have slots : desk.console.dgRing = seat.desk.console.dgRing := by
        rw [(Desk.step_cases stepped).console, (dgNstep_leaves idle).1]
      exact .still ⟨rfl, rfl, rfl, slots⟩ rfl

theorem motion_next {act : Act} (receives : Receives peer seat)
    (taken : seat.next act = some after) : Motion peer seat after act := by
  cases act with
  | hook ports ram => exact motion_hook receives taken
  | step => exact motion_step receives taken
  | spin =>
      obtain ⟨desk, spun, rfl⟩ := Option.map_eq_some_iff.mp taken
      obtain rfl := Desk.spin_cases spun
      exact .still ⟨rfl, rfl, rfl, rfl⟩ rfl
  | deliver count =>
      obtain rfl := Option.some.inj taken
      exact .still ⟨rfl, rfl, rfl, rfl⟩ rfl
  | serve =>
      obtain ⟨⟨served, out⟩, taken', rfl⟩ := Option.map_eq_some_iff.mp taken
      obtain ⟨request, launched, write | stat | read⟩ := serve_cases receives taken'
      · obtain ⟨-, -, rfl, -⟩ := write
        exact .still ⟨rfl, rfl, rfl, rfl⟩ rfl
      · obtain ⟨-, rfl, -⟩ := stat
        exact .still ⟨rfl, rfl, rfl, rfl⟩ rfl
      · obtain ⟨-, asked, rfl, -⟩ := read
        exact .read asked.2.2.2 rfl (stamps_serveRead request seat) rfl rfl
  | ack =>
      obtain ⟨reply, -, rfl⟩ := ack_cases taken
      exact .still ⟨rfl, rfl, rfl, rfl⟩ rfl
  | feed posted => exact .feed (Option.some.inj taken).symm

/-! ### Coverage -/

/-- The stream leaves no tick out, and the ticks the ring promises are
stored. -/
structure Gapless (seat : Seat) : Prop where
  chain : seat.stamps.IsChain (GapFree dgWin)
  covered : seat.ring.Covered dgWin seat.Stored

theorem gapless_start {role seq : Byte} {painted : Painted} :
    Gapless (start role seq ram painted) where
  chain := by simp [stamps, start]
  covered := by
    intro tick unused reaches
    simp only [start] at unused reaches
    rcases reaches with old | ⟨_, low, isLow, _⟩
    · have either : tick = 0 ∨ tick = 1 := by omega
      rcases either with rfl | rfl
      · exact ⟨iwIdle, by simp [start]⟩
      · exact ⟨iwIdle, by simp [start]⟩
    · simp at isLow

/-- The batch as a chain of its own. -/
theorem batch_chain (gapless : Gapless seat) :
    (seat.ring.base :: seat.unread.map Posted.stamp ++ seat.ring.eaten).IsChain
      (GapFree dgWin) :=
  (List.isChain_append.mp gapless.chain).1

/-- The stamps of one batch lie close together, whatever came before it. -/
theorem gapless_close (receives : Receives peer seat) (gapless : Gapless seat) :
    seat.Close := by
  have chain : (seat.ring.base :: (seat.unread.map Posted.stamp ++
      seat.ring.eaten)).IsChain (GapFree dgWin) := batch_chain gapless
  have bounds := WindowRing.chain_bounds chain
  have batch := receives.batch
  have near := receives.near
  have inBatch : ∀ stamp ∈ seat.unread.map Posted.stamp ++ seat.ring.eaten,
      seat.ring.base ≤ stamp ∧ stamp ≤ seat.ring.base + 93 := by
    intro stamp isStamp
    have bound := bounds stamp isStamp
    have small : (dgWin : Int) = 3 := rfl
    rw [small, List.length_append, List.length_map] at bound
    push_cast at bound
    omega
  intro posted isLast
  have isUnread := List.mem_of_getLast? isLast
  have stampBounds := inBatch posted.stamp
    (List.mem_append_left _ (List.mem_map_of_mem isUnread))
  cases last : seat.ring.eaten.getLast? with
  | none =>
      have := receives.marked.fresh (List.getLast?_eq_none_iff.mp last)
      omega
  | some newest =>
      have isEaten := List.mem_of_getLast? last
      have newestBounds := inBatch newest (List.mem_append_right _ isEaten)
      rw [← receives.marked.newest newest last] at newestBounds
      omega

theorem gapless_next {act : Act} (receives : Receives peer seat) (gapless : Gapless seat)
    (fed : ∀ posted, act = .feed posted →
      ∀ newest ∈ seat.stamps.getLast?, GapFree dgWin newest posted.stamp)
    (taken : seat.next act = some after) : Gapless after := by
  cases motion_next receives taken with
  | frame ground ring =>
      refine ⟨ground.stamps ▸ gapless.chain, ?_⟩
      unfold Stored
      rw [ground.stored, ring]
      split
      · exact WindowRing.covered_use gapless.covered
      · exact gapless.covered
  | still ground ring =>
      refine ⟨ground.stamps ▸ gapless.chain, ?_⟩
      unfold Stored
      rw [ground.stored, ring]
      exact gapless.covered
  | eat consuming eaten =>
      refine ⟨(stamps_eat eaten) ▸ gapless.chain, ?_⟩
      have chain := batch_chain gapless
      rw [eaten.unread, List.map_append] at chain
      rw [eaten.whole]
      refine WindowRing.covered_consume chain gapless.covered receives.marked ?_ ?_
      · rintro tick ⟨byte, isStored⟩
        exact ⟨byte, List.mem_append_left _ isStored⟩
      · intro tick inside
        exact ⟨_, List.mem_append_right _ (windowSlots_covers inside)⟩
  | read nothing ring stamps stored slots =>
      have chain := gapless.chain
      rw [Seat.stamps, nothing] at chain
      refine ⟨?_, ?_⟩
      · rw [stamps]
        exact WindowRing.chain_take (last_consumed receives nothing) chain
      · unfold Stored
        rw [stored, ring]
        exact WindowRing.covered_take (List.isChain_append.mp chain).1 gapless.covered
          receives.marked
  | feed same =>
      rw [same]
      exact ⟨chain_feed gapless.chain (fed _ rfl), gapless.covered⟩

/-! ### The gate -/

/-- A boundary whose tick the watermark has reached does not outrun the batch:
the tick was stored before the batch was read, or every unread record is older
than the tick, or the records consumed so far reach back to it. -/
def Settled (seat : Seat) : Act → Prop
  | .hook _ ram => (seat.desk.atHook ram).atBoundary = true →
      seat.ring.next ≤ seat.ring.mark →
        seat.ring.Clear dgWin (seat.unread.map Posted.stamp)
  | _ => True

/-- The gate is sound under `Settled`. -/
theorem stored_next (receives : Receives peer seat) (gapless : Gapless seat)
    (settled : Settled seat (.hook ports ram))
    (runs : seat.runsTick ports ram = true) :
    (seat.ring.next, peer seat.ring.next) ∈ seat.stored := by
  obtain ⟨boundary, opened⟩ : (seat.desk.atHook ram).atBoundary = true ∧
      ((seat.desk.atHook ram).dgNt1 ports).gateOpen = true := by
    simpa [runsTick, Console.runsTick] using runs
  have passes := gate_passes receives opened
  obtain ⟨byte, isStored⟩ := WindowRing.written_next (batch_chain gapless) gapless.covered
    receives.marked (settled boundary passes) passes
  have genuine := (receives.stored _ isStored).1
  simp only at genuine
  rw [← genuine]
  exact isStored

/-- What is assumed of the peer's stream: every record is genuine, and each
follows the one before it without a gap. -/
def Streams (peer : Int → Byte) (seat : Seat) : Act → Prop
  | .feed posted => Genuine peer posted ∧
      ∀ newest ∈ seat.stamps.getLast?, GapFree dgWin newest posted.stamp
  | _ => True

/-- Every tick that ran had the peer's byte written to its slot. -/
def RanStored (peer : Int → Byte) (seat : Seat) : Prop :=
  ∀ tick : Nat, tick < seat.desk.runs.length → ((tick : Int), peer tick) ∈ seat.stored

theorem ranStored_next {act : Act} (receives : Receives peer seat)
    (receives' : Receives peer after) (gapless : Gapless seat)
    (settled : Settled seat act) (ranStored : RanStored peer seat)
    (taken : seat.next act = some after) : RanStored peer after := by
  have next := receives.next
  have next' := receives'.next
  intro tick isRan
  cases motion_next receives taken with
  | frame ground ring =>
      rw [ground.stored]
      rw [ring] at next'
      split at next'
      · rename_i runs
        by_cases old : tick < seat.desk.runs.length
        · exact ranStored tick old
        · have newest : (tick : Int) = seat.ring.next := by
            simp only [WindowRing.use] at next'
            omega
          rw [newest]
          exact stored_next receives gapless settled runs
      · exact ranStored tick (by omega)
  | still ground ring =>
      rw [ground.stored]
      exact ranStored tick (by rw [ring] at next'; omega)
  | eat consuming eaten =>
      rw [eaten.whole] at next' ⊢
      exact List.mem_append_left _ (ranStored tick (by simp at next'; omega))
  | read nothing ring stamps stored slots =>
      rw [stored]
      exact ranStored tick (by rw [ring] at next'; simp at next'; omega)
  | feed same =>
      rw [same] at isRan ⊢
      exact ranStored tick isRan

/-- The watermark never runs ahead of the ring, as long as no boundary outruns a
batch: in every run on a gap-free stream whose boundaries are all settled,
whatever the batches and however many records a frame consumes, each tick that
ran had the peer's byte for it written to its slot. -/
theorem ran_stored {role seq : Byte} {painted : Painted}
    (isRole : role = 0 ∨ role = dgeRole) (seeded : ∀ tick < 2, peer tick = iwIdle)
    (run : Run Step (fun seat act => Streams peer seat act ∧ Settled seat act)
      (start role seq ram painted) seat) :
    ∀ tick : Nat, tick < seat.desk.runs.length →
      ((tick : Int), peer tick) ∈ seat.stored := by
  have invariant := run.invariant
    (fun seat => Receives peer seat ∧ Gapless seat ∧ RanStored peer seat)
    ⟨receives_start isRole seeded, gapless_start,
      fun tick isRan => absurd isRan (Nat.not_lt_zero tick)⟩ <| by
      rintro before act after ⟨receives, gapless, ranStored⟩ ⟨streams, settled⟩ taken
      have gapFree : ∀ posted, act = .feed posted →
          ∀ newest ∈ before.stamps.getLast?, GapFree dgWin newest posted.stamp := by
        rintro posted rfl
        exact streams.2
      have inOrder : ∀ posted, act = .feed posted → Genuine peer posted ∧
          ∀ newest ∈ before.stamps.getLast?, newest ≤ posted.stamp := by
        rintro posted rfl
        exact ⟨streams.1, fun newest isNewest => (streams.2 newest isNewest).1⟩
      have receives' : Receives peer after :=
        receives_next receives (gapless_close receives gapless) inOrder taken
      exact ⟨receives', gapless_next receives gapless gapFree taken,
        ranStored_next receives receives' gapless settled ranStored taken⟩
  exact invariant.2.2

instance (peer : Int → Byte) (seat : Seat) (act : Act) :
    Decidable (Streams peer seat act) :=
  match act with
  | .feed _ => inferInstanceAs (Decidable (_ ∧ _))
  | .hook _ _ | .step | .spin | .deliver _ | .serve | .ack => isTrue trivial

instance (seat : Seat) (act : Act) : Decidable (Settled seat act) :=
  match act with
  | .hook _ _ => inferInstanceAs (Decidable (_ → _ → _))
  | .feed _ | .step | .spin | .deliver _ | .serve | .ack => isTrue trivial

/-! ### A burst split across frames -/

def idlePorts : Ports := ⟨0xFF, 0xFF, 0xFF, 0xFF⟩

def idleFrame : Act := .hook idlePorts fun _ => 0

/-- One transaction from its launch to the state after its acknowledgement. -/
def transaction : List Act := [.step, .serve, .ack, .step]

/-- `count` frames in which the step loop gets no step. -/
def frames (count : Nat) : List Act :=
  (List.replicate count [.spin, idleFrame]).flatten

/-- A peer that holds its trigger from its first boundary on. -/
def holdsTrigger (tick : Int) : Byte :=
  if tick < 2 then iwIdle else 0x7F

def recordAt (peer : Int → Byte) (stamp : Int) : Posted where
  stamp := stamp
  frame := inputFrame (tickCell stamp) (peer stamp) (peer (stamp - 1)) (peer (stamp - 2)) 0

/-- The records stamped 2 and 5 arrive in one READ, `steps` of which are
consumed before three ticks of frames go by. -/
def burst (steps : Nat) : List Act :=
  [idleFrame, .feed (recordAt holdsTrigger 2), .feed (recordAt holdsTrigger 5),
      .deliver 16] ++
    transaction ++ transaction ++ transaction ++ List.replicate steps .step ++ frames 9

/-- The mailbox at the hand-over. -/
def handOverMailbox : Painted where
  fnAcks := 0
  fnErr := 0
  fnRxLo := 0
  fnRply := fun _ => 0

def quietStart : Seat := start 0 0 (fun _ => 0) handOverMailbox

theorem ran_stored_burst : ∃ seat : Seat, seat.desk.runs.length = 3 ∧
    ∀ tick : Nat, tick < seat.desk.runs.length →
      ((tick : Int), holdsTrigger tick) ∈ seat.stored := by
  have length : ((burst 2).foldlM
      (guarded next fun seat act => Streams holdsTrigger seat act ∧ Settled seat act)
      quietStart).map (fun seat => seat.desk.runs.length) = some 3 := by decide +kernel
  obtain ⟨seat, executed, isThree⟩ := Option.map_eq_some_iff.mp length
  exact ⟨seat, isThree,
    ran_stored (Or.inl rfl) (fun tick small => if_pos small) (Run.of_guarded executed)⟩

/-- With the newest record alone consumed, the gate lets tick 2 through on the
idle byte of the hand-over, though the peer's trigger was down. -/
theorem watermark_outruns_ring : ∃ seat : Seat,
    Run Step (Streams holdsTrigger) quietStart seat ∧
      seat.desk.runs.map Ran.peer = [iwIdle, iwIdle, iwIdle] ∧
      ((2 : Int), holdsTrigger 2) ∉ seat.stored := by
  have outcome : ((burst 1).foldlM (guarded next (Streams holdsTrigger)) quietStart).map
      (fun seat => (seat.desk.runs.map Ran.peer,
        decide (((2 : Int), holdsTrigger 2) ∈ seat.stored))) =
        some ([iwIdle, iwIdle, iwIdle], false) := by decide +kernel
  obtain ⟨seat, executed, isOutcome⟩ := Option.map_eq_some_iff.mp outcome
  obtain ⟨peers, notStored⟩ := Prod.mk.inj isOutcome
  exact ⟨seat, Run.of_guarded executed, peers, of_decide_eq_false notStored⟩

/-! ### Retention -/

/-- Every unused tick that has been written is still in its slot. -/
def Kept (peer : Int → Byte) (seat : Seat) : Prop :=
  ∀ tick, seat.ring.next ≤ tick → seat.Stored tick →
    seat.desk.console.dgRing (ringSlot (tickCell tick)) = peer tick

/-- A record that is consumed is not too old for the ring and not a lap
ahead. -/
def Roomy (seat : Seat) : Act → Prop
  | .step => seat.consuming = true → ∀ posted ∈ seat.unread.getLast?,
      seat.ring.Fits 8 dgWin posted.stamp
  | _ => True

theorem eaten_ordered {older : List Posted} {posted : Posted}
    (receives : Receives peer seat) (unread : seat.unread = older ++ [posted]) :
    seat.ring.base ≤ posted.stamp := by
  have ascending := receives.ascending
  rw [stamps, unread, List.cons_append, List.cons_append] at ascending
  exact (List.pairwise_cons.mp (List.isChain_iff_pairwise.mp ascending)).1 _ (by simp)

/-- A record that fits leaves the slot of every unused tick that is below the
watermark, or was seeded, with the peer's byte if it had it. -/
theorem eaten_keeps {older : List Posted} {posted : Posted}
    (receives : Receives peer seat) (eaten : Eaten peer seat after older posted)
    (fits : seat.ring.Fits 8 dgWin posted.stamp) {tick : Int}
    (unused : seat.ring.next ≤ tick)
    (near : tick ≤ seat.ring.mark ∨ tick ≤ seat.ring.base)
    (held : seat.desk.console.dgRing (ringSlot (tickCell tick)) = peer tick) :
    after.desk.console.dgRing (ringSlot (tickCell tick)) = peer tick := by
  by_cases inside : WindowRing.InWindow dgWin posted.stamp tick
  · exact (windowSlots_genuine eaten _ (windowSlots_covers inside)).1
  · rw [eaten.console.other, held]
    intro other isOther same
    have ordered := eaten_ordered receives eaten.unread
    exact inside (WindowRing.window_slot (by decide) fits ordered unused near isOther same ▸
      isOther)

theorem kept_start {role seq : Byte} {painted : Painted}
    (seeded : ∀ tick < 2, peer tick = iwIdle) :
    Kept peer (start role seq ram painted) := by
  rintro tick unused ⟨byte, isStored⟩
  have either : tick = 0 ∨ tick = 1 := by
    have : (tick = 0 ∧ byte = iwIdle) ∨ (tick = 1 ∧ byte = iwIdle) := by
      simpa [start] using isStored
    tauto
  rw [seeded tick (by omega)]
  rfl

theorem kept_next {act : Act} (receives : Receives peer seat) (kept : Kept peer seat)
    (roomy : Roomy seat act) (taken : seat.next act = some after) : Kept peer after := by
  cases motion_next receives taken with
  | frame ground ring =>
      rintro tick unused ⟨byte, isStored⟩
      rw [ground.slots]
      refine kept tick ?_ ⟨byte, ground.stored ▸ isStored⟩
      rw [ring] at unused
      split at unused
      · simp only [WindowRing.use] at unused
        omega
      · exact unused
  | still ground ring =>
      rintro tick unused ⟨byte, isStored⟩
      rw [ground.slots]
      exact kept tick (ring ▸ unused) ⟨byte, ground.stored ▸ isStored⟩
  | @eat older posted consuming eaten =>
      have fits := roomy consuming posted (by
        rw [eaten.unread, List.getLast?_concat]
        rfl)
      rintro tick unused ⟨byte, isStored⟩
      rw [eaten.whole] at isStored unused
      rcases List.mem_append.mp isStored with old | new
      · exact eaten_keeps receives eaten fits unused (receives.stored _ old).2
          (kept tick unused ⟨byte, old⟩)
      · obtain ⟨genuine, -⟩ := windowSlots_genuine eaten _ new
        have byteIs : byte = after.desk.console.dgRing (ringSlot (tickCell tick)) := by
          simp only [windowSlots, List.map_cons, List.map_nil, List.mem_cons,
            Prod.mk.injEq, List.not_mem_nil, or_false] at new
          rcases new with ⟨rfl, same⟩ | ⟨rfl, same⟩ | ⟨rfl, same⟩ <;> exact same
        rw [← byteIs]
        exact genuine
  | read nothing ring stamps stored slots =>
      rintro tick unused ⟨byte, isStored⟩
      rw [slots]
      refine kept tick ?_ ⟨byte, stored ▸ isStored⟩
      rw [ring] at unused
      exact unused
  | feed same =>
      rw [same]
      exact kept

end Seat

end DragsterNet
