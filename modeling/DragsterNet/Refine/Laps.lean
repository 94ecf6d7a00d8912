/-
Module: DragsterNet.Refine.Laps
Purpose: The keys `log_crc` reconstructs from the low bytes of a walk of ticks,
  in either relay: each step back across a multiple of 256 is counted as a lap.
Trusted boundary: none
Main exports: Walk, Rising, falls, Server.Fed, Slots.Fed, keys_true, keys_false
-/
import DragsterNet.Refine.Verdict

namespace DragsterNet.Refine

open Lib Relay
open CRelay (Slot State)

/-! ### Walks -/

/-- Less than half the range apart. -/
abbrev Near (tick later : Nat) : Prop := later < tick + 128 ∧ tick < later + 128

/-- A walk of ticks, the latest first: it begins in the first lap, and each step
is less than half the range. -/
def Walk : List Nat → Prop
  | [] => True
  | [first] => first < 256
  | later :: tick :: rest => Near tick later ∧ Walk (tick :: rest)

instance decidableWalk : (ticks : List Nat) → Decidable (Walk ticks)
  | [] => isTrue trivial
  | [first] => inferInstanceAs (Decidable (first < 256))
  | later :: tick :: rest =>
      haveI := decidableWalk (tick :: rest)
      inferInstanceAs (Decidable (Near tick later ∧ Walk (tick :: rest)))

/-- No step goes back across a multiple of 256. -/
def Rising : List Nat → Prop
  | later :: tick :: rest => tick / 256 ≤ later / 256 ∧ Rising (tick :: rest)
  | _ => True

/-- The steps that do. -/
def falls : List Nat → Nat
  | later :: tick :: rest =>
      falls (tick :: rest) + if later / 256 < tick / 256 then 1 else 0
  | _ => 0

theorem falls_eq_zero_iff {ticks : List Nat} : falls ticks = 0 ↔ Rising ticks := by
  induction ticks with
  | nil => exact iff_of_true rfl trivial
  | cons later rest inductionHypothesis =>
      cases rest with
      | nil => exact iff_of_true rfl trivial
      | cons tick rest =>
          unfold falls Rising
          rw [Nat.add_eq_zero_iff, inductionHypothesis, and_comm]
          apply and_congr_left
          intro _
          split
          · rename_i back
            exact iff_of_false Nat.one_ne_zero (Nat.not_le.mpr back)
          · rename_i on
            exact iff_of_true rfl (Nat.not_lt.mp on)

theorem Walk.tail {tick : Nat} {ticks : List Nat} (walk : Walk (tick :: ticks)) : Walk ticks := by
  cases ticks with
  | nil => trivial
  | cons last rest => exact walk.2

theorem falls_cons (tick : Nat) (ticks : List Nat) :
    falls ticks ≤ falls (tick :: ticks) ∧ falls (tick :: ticks) ≤ falls ticks + 1 := by
  cases ticks with
  | nil => exact ⟨Nat.le_refl _, Nat.zero_le _⟩
  | cons last rest =>
      refine ⟨Nat.le_add_right _ _, Nat.add_le_add_left ?_ _⟩
      split
      · exact Nat.le_refl 1
      · exact Nat.zero_le 1

/-! ### The relay in Python -/

namespace Server

variable {start server : Server} {c d : Conn} {payload : Bytes} {log : List (Nat × Nat)}

/-- The key a record goes under. -/
def keyOf (server : Server) (c : Conn) (tick : Byte) : Nat :=
  Server.nextLap (server.object c).lap (server.object c).lastTick tick * 256 + tick.toNat

/-- `log_crc` is fed the low bytes of ticks; the log holds, the latest first, the
ticks and the keys they went under.  In between anything may happen that leaves
the client's lap and last tick alone. -/
inductive Fed (c : Conn) (start : Server) : List (Nat × Nat) → Server → Prop where
  | start : Fed c start [] start
  | report {log : List (Nat × Nat)} {server : Server} (tick : Nat) (payload : Bytes)
      (before : Fed c start log server)
      (isTick : payload.getD 0 0 = BitVec.ofNat 8 tick) :
      Fed c start ((tick, keyOf server c (BitVec.ofNat 8 tick)) :: log)
        (server.logCrc c payload)
  | aside {log : List (Nat × Nat)} {server after : Server} (before : Fed c start log server)
      (lap : (after.object c).lap = (server.object c).lap)
      (lastTick : (after.object c).lastTick = (server.object c).lastTick) :
      Fed c start log after

theorem edit_laps {change : Client → Client}
    (lap : (change (server.object d)).lap = (server.object d).lap)
    (lastTick : (change (server.object d)).lastTick = (server.object d).lastTick) :
    ((server.edit d change).object c).lap = (server.object c).lap ∧
      ((server.edit d change).object c).lastTick = (server.object c).lastTick := by
  by_cases here : c = d
  · subst here
    rw [Server.edit_self]
    exact ⟨lap, lastTick⟩
  · rw [Server.edit_of_ne here]
    exact ⟨rfl, rfl⟩

/-- What comes behind the first assignment of `log_crc` touches checksums only. -/
theorem logCrc_object : ∃ (d : Conn) (crc crc' : Client → Dict Nat Byte),
    (server.logCrc c payload).object =
      ((server.edit c fun client =>
        { client with
          lap := Server.nextLap (server.object c).lap (server.object c).lastTick (payload.getD 0 0)
          lastTick := some (payload.getD 0 0)
          crc := crc client }).edit d fun client => { client with crc := crc' client }).object := by
  unfold Server.logCrc
  simp only
  split
  · exact ⟨c, _, _, rfl⟩
  · rename_i partner other _
    refine ⟨partner,
      fun client => client.crc.set (keyOf server c (payload.getD 0 0)) (payload.getD 4 0),
      fun client => client.crc.erase (keyOf server c (payload.getD 0 0)), ?_⟩
    split
    · rfl
    · rfl

/-- What `log_crc` leaves the client with. -/
theorem logCrc_laps :
    ((server.logCrc c payload).object c).lap =
        Server.nextLap (server.object c).lap (server.object c).lastTick (payload.getD 0 0) ∧
      ((server.logCrc c payload).object c).lastTick = some (payload.getD 0 0) := by
  obtain ⟨d, crc, crc', same⟩ := @logCrc_object server c payload
  rw [same]
  refine ⟨(edit_laps rfl rfl).1.trans ?_, (edit_laps rfl rfl).2.trans ?_⟩
  · rw [Server.edit_self]
  · rw [Server.edit_self]

/-- A step within the range is counted by the lap it ends in, or, if it goes
back across a multiple of 256, by the one it began in. -/
theorem nextLap_near {tick later more : Nat} (near : Near tick later) :
    Server.nextLap (tick / 256 + more) (some (BitVec.ofNat 8 tick)) (BitVec.ofNat 8 later) =
      later / 256 + (more + if later / 256 < tick / 256 then 1 else 0) := by
  obtain ⟨ahead, behind⟩ := near
  unfold Server.nextLap
  simp only [BitVec.lt_def, BitVec.toNat_sub, BitVec.toNat_ofNat]
  split
  · split
    · omega
    · omega
  · split
    · omega
    · omega

theorem key_of_lap {tick more : Nat} :
    (tick / 256 + more) * 256 + (BitVec.ofNat 8 tick).toNat = tick + 256 * more := by
  rw [BitVec.toNat_ofNat]
  omega

/-- The client has counted the laps of the walk and one for each fall. -/
def Counted (server : Server) (c : Conn) : List Nat → Prop
  | [] => (server.object c).lap = 0 ∧ (server.object c).lastTick = none
  | tick :: rest =>
      (server.object c).lap = tick / 256 + falls (tick :: rest) ∧
        (server.object c).lastTick = some (BitVec.ofNat 8 tick)

theorem Counted.key {tick : Nat} {ticks : List Nat} (counted : Counted server c ticks)
    (walk : Walk (tick :: ticks)) :
    Server.nextLap (server.object c).lap (server.object c).lastTick (BitVec.ofNat 8 tick) =
      tick / 256 + falls (tick :: ticks) := by
  cases ticks with
  | nil =>
      obtain ⟨lap, lastTick⟩ := counted
      have first : tick < 256 := walk
      rw [lap, lastTick]
      exact (Nat.div_eq_of_lt first).symm
  | cons last rest =>
      obtain ⟨lap, lastTick⟩ := counted
      rw [lap, lastTick]
      exact nextLap_near walk.1

/-- What the client has counted, after any records. -/
theorem Fed.counted (fresh : Counted start c []) (fed : Fed c start log server)
    (walk : Walk (log.map Prod.fst)) : Counted server c (log.map Prod.fst) := by
  induction fed with
  | start => exact fresh
  | @report log server tick payload before isTick inductionHypothesis =>
      have counted := (inductionHypothesis walk.tail).key walk
      obtain ⟨lap, lastTick⟩ := @logCrc_laps server c payload
      rw [isTick] at lap lastTick
      exact ⟨lap.trans counted, lastTick⟩
  | @aside log server after before lap lastTick inductionHypothesis =>
      have counted := inductionHypothesis walk
      cases log with
      | nil => exact ⟨lap.trans counted.1, lastTick.trans counted.2⟩
      | cons entry rest => exact ⟨lap.trans counted.1, lastTick.trans counted.2⟩

/-- Every key is its tick if and only if no step goes back across a multiple of
256. -/
theorem Fed.true_iff (fresh : Counted start c []) (fed : Fed c start log server)
    (walk : Walk (log.map Prod.fst)) :
    (∀ entry ∈ log, entry.2 = entry.1) ↔ Rising (log.map Prod.fst) := by
  rw [← falls_eq_zero_iff]
  induction fed with
  | start => exact iff_of_true (fun _ member => absurd member List.not_mem_nil) rfl
  | @report log server tick payload before isTick inductionHypothesis =>
      have isKey : keyOf server c (BitVec.ofNat 8 tick) =
          tick + 256 * falls (tick :: log.map Prod.fst) := by
        unfold keyOf
        rw [(before.counted fresh walk.tail).key walk]
        exact key_of_lap
      obtain ⟨fewer, -⟩ := falls_cons tick (log.map Prod.fst)
      rw [List.forall_mem_cons, inductionHypothesis walk.tail, isKey]
      change _ ↔ falls (tick :: log.map Prod.fst) = 0
      omega
  | aside before lap lastTick inductionHypothesis => exact inductionHypothesis walk

end Server

/-! ### The relay in C -/

namespace Slots

variable {start state : State} {ci other : Slot} {payload : Bytes} {log : List (Nat × Nat)}

/-- The same of a slot of the relay in C, whose laps and keys have 64 bits. -/
inductive Fed (ci : Slot) (start : State) : List (Nat × Nat) → State → Prop where
  | start : Fed ci start [] start
  | report {log : List (Nat × Nat)} {state : State} (tick : Nat) (payload : Bytes)
      (before : Fed ci start log state)
      (isTick : payload.getD 0 0 = BitVec.ofNat 8 tick) :
      Fed ci start ((tick, (keyOf state ci (BitVec.ofNat 8 tick)).toNat) :: log)
        (state.logCrc ci payload)
  | aside {log : List (Nat × Nat)} {state after : State} (before : Fed ci start log state)
      (lap : (after.clients ci).lap = (state.clients ci).lap)
      (haveLastTick : (after.clients ci).haveLastTick = (state.clients ci).haveLastTick)
      (lastTick : (after.clients ci).lastTick = (state.clients ci).lastTick) :
      Fed ci start log after

theorem edit_laps {change : CRelay.Client → CRelay.Client}
    (lap : (change (state.clients other)).lap = (state.clients other).lap)
    (haveLastTick : (change (state.clients other)).haveLastTick =
      (state.clients other).haveLastTick)
    (lastTick : (change (state.clients other)).lastTick = (state.clients other).lastTick) :
    ((state.edit other change).clients ci).lap = (state.clients ci).lap ∧
      ((state.edit other change).clients ci).haveLastTick = (state.clients ci).haveLastTick ∧
      ((state.edit other change).clients ci).lastTick = (state.clients ci).lastTick := by
  by_cases here : ci = other
  · subst here
    rw [State.edit_self]
    exact ⟨lap, haveLastTick, lastTick⟩
  · rw [State.edit_of_ne here]
    exact ⟨rfl, rfl, rfl⟩

/-- What comes behind the first assignments of `log_crc` touches checksums
only. -/
theorem logCrc_clients :
    ∃ (other : Slot) (crc crc' : CRelay.Client → List (BitVec 64 × Byte)),
      (state.logCrc ci payload).clients =
        ((state.edit ci fun client =>
          { client with
            lap := State.nextLap (state.clients ci) (payload.getD 0 0)
            haveLastTick := true
            lastTick := payload.getD 0 0
            crc := crc client }).edit other fun client =>
              { client with crc := crc' client }).clients := by
  unfold State.logCrc
  simp only
  split
  · exact ⟨ci, _, _, rfl⟩
  · rename_i partner index value _
    refine ⟨partner,
      fun client => CRelay.crcSet client.crc (keyOf state ci (payload.getD 0 0)) (payload.getD 4 0),
      fun client => client.crc.eraseIdx index, ?_⟩
    split
    · rfl
    · rfl

theorem logCrc_laps :
    ((state.logCrc ci payload).clients ci).lap =
        State.nextLap (state.clients ci) (payload.getD 0 0) ∧
      ((state.logCrc ci payload).clients ci).haveLastTick = true ∧
      ((state.logCrc ci payload).clients ci).lastTick = payload.getD 0 0 := by
  obtain ⟨other, crc, crc', same⟩ := @logCrc_clients state ci payload
  rw [same]
  refine ⟨(edit_laps rfl rfl rfl).1.trans ?_, (edit_laps rfl rfl rfl).2.1.trans ?_,
    (edit_laps rfl rfl rfl).2.2.trans ?_⟩
  · rw [State.edit_self]
  · rw [State.edit_self]
  · rw [State.edit_self]

theorem nextLap_near {client : CRelay.Client} {tick later more : Nat} (near : Near tick later)
    (has : client.haveLastTick = true) (last : client.lastTick = BitVec.ofNat 8 tick)
    (lap : client.lap.toNat = (tick / 256 + more) % 2 ^ 64) :
    (State.nextLap client (BitVec.ofNat 8 later)).toNat =
      (later / 256 + (more + if later / 256 < tick / 256 then 1 else 0)) % 2 ^ 64 := by
  obtain ⟨ahead, behind⟩ := near
  have one : (1 : BitVec 64).toNat = 1 := rfl
  have none_ : (0 : Byte).toNat = 0 := rfl
  have half : (128 : Byte).toNat = 128 := rfl
  unfold State.nextLap
  simp only [has, last, if_true, BitVec.lt_def, BitVec.toNat_sub, BitVec.toNat_ofNat, none_, half]
  split
  · rw [BitVec.toNat_add, lap, one]
    split
    · omega
    · omega
  · rw [lap]
    split
    · omega
    · omega

theorem key_of_lap {lap : BitVec 64} {tick more : Nat}
    (isLap : lap.toNat = (tick / 256 + more) % 2 ^ 64) :
    (State.crcKey lap (BitVec.ofNat 8 tick)).toNat = (tick + 256 * more) % 2 ^ 64 := by
  have range : (256 : BitVec 64).toNat = 256 := rfl
  unfold State.crcKey
  rw [BitVec.toNat_add, BitVec.toNat_mul, isLap, range, BitVec.toNat_setWidth, BitVec.toNat_ofNat]
  omega

def Counted (state : State) (ci : Slot) : List Nat → Prop
  | [] => (state.clients ci).lap = 0 ∧ (state.clients ci).haveLastTick = false
  | tick :: rest =>
      (state.clients ci).lap.toNat = (tick / 256 + falls (tick :: rest)) % 2 ^ 64 ∧
        (state.clients ci).haveLastTick = true ∧
        (state.clients ci).lastTick = BitVec.ofNat 8 tick

theorem Counted.key {tick : Nat} {ticks : List Nat} (counted : Counted state ci ticks)
    (walk : Walk (tick :: ticks)) :
    (State.nextLap (state.clients ci) (BitVec.ofNat 8 tick)).toNat =
      (tick / 256 + falls (tick :: ticks)) % 2 ^ 64 := by
  cases ticks with
  | nil =>
      obtain ⟨lap, never⟩ := counted
      have first : tick < 256 := walk
      have none_ : falls [tick] = 0 := rfl
      unfold State.nextLap
      rw [never, if_neg Bool.false_ne_true, lap, none_, Nat.div_eq_of_lt first]
      rfl
  | cons last rest =>
      obtain ⟨lap, has, lastTick⟩ := counted
      exact nextLap_near walk.1 has lastTick lap

theorem Fed.counted (fresh : Counted start ci []) (fed : Fed ci start log state)
    (walk : Walk (log.map Prod.fst)) : Counted state ci (log.map Prod.fst) := by
  induction fed with
  | start => exact fresh
  | @report log state tick payload before isTick inductionHypothesis =>
      have counted := (inductionHypothesis walk.tail).key walk
      obtain ⟨lap, has, lastTick⟩ := @logCrc_laps state ci payload
      rw [isTick] at lap lastTick
      exact ⟨(congrArg BitVec.toNat lap).trans counted, has, lastTick⟩
  | @aside log state after before lap has lastTick inductionHypothesis =>
      have counted := inductionHypothesis walk
      cases log with
      | nil => exact ⟨lap.trans counted.1, has.trans counted.2⟩
      | cons entry rest =>
          exact ⟨(congrArg BitVec.toNat lap).trans counted.1, has.trans counted.2.1,
            lastTick.trans counted.2.2⟩

/-- Every key is its tick if and only if no step goes back across a multiple of
256 and no tick needs more than 64 bits. -/
theorem Fed.true_iff (fresh : Counted start ci []) (fed : Fed ci start log state)
    (walk : Walk (log.map Prod.fst)) :
    (∀ entry ∈ log, entry.2 = entry.1) ↔
      Rising (log.map Prod.fst) ∧ ∀ tick ∈ log.map Prod.fst, tick < 2 ^ 64 := by
  rw [← falls_eq_zero_iff]
  induction fed with
  | start =>
      exact iff_of_true (fun _ member => absurd member List.not_mem_nil)
        ⟨rfl, fun _ member => absurd member List.not_mem_nil⟩
  | @report log state tick payload before isTick inductionHypothesis =>
      have isKey : (keyOf state ci (BitVec.ofNat 8 tick)).toNat =
          (tick + 256 * falls (tick :: log.map Prod.fst)) % 2 ^ 64 :=
        key_of_lap ((before.counted fresh walk.tail).key walk)
      obtain ⟨fewer, one⟩ := falls_cons tick (log.map Prod.fst)
      rw [List.forall_mem_cons, inductionHypothesis walk.tail, isKey]
      simp only [List.map_cons, List.forall_mem_cons]
      -- The first fall is seen at once: one lap is too few to come round.
      constructor
      · rintro ⟨same, none_, small⟩
        exact ⟨by omega, by omega, small⟩
      · rintro ⟨none_, fits, small⟩
        exact ⟨by rw [none_]; exact Nat.mod_eq_of_lt fits, by omega, small⟩
  | aside before lap has lastTick inductionHypothesis => exact inductionHypothesis walk

end Slots

/-! ### Both relays -/

/-- The keys are the true ticks if and only if no step of the walk goes back
across a multiple of 256; in C, as long as a tick has 64 bits. -/
theorem keys_true {start server : Server} {c : Conn} {log : List (Nat × Nat)}
    {start' state : State} {ci : Slot} {log' : List (Nat × Nat)}
    (fresh : (start.object c).lap = 0 ∧ (start.object c).lastTick = none)
    (fed : Server.Fed c start log server) (walk : Walk (log.map Prod.fst))
    (fresh' : (start'.clients ci).lap = 0 ∧ (start'.clients ci).haveLastTick = false)
    (fed' : Slots.Fed ci start' log' state) (walk' : Walk (log'.map Prod.fst)) :
    ((∀ entry ∈ log, entry.2 = entry.1) ↔ Rising (log.map Prod.fst)) ∧
      ((∀ entry ∈ log', entry.2 = entry.1) ↔
        Rising (log'.map Prod.fst) ∧ ∀ tick ∈ log'.map Prod.fst, tick < 2 ^ 64) :=
  ⟨fed.true_iff fresh walk, fed'.true_iff fresh' walk'⟩

/-- The payload of an INPUT record of a tick. -/
def record (tick : Nat) : Bytes := [BitVec.ofNat 8 tick, 0, 0, 0, 0, 0]

/-- The ticks are fed one after the other, and the keys noted, the latest
first. -/
def fedAll (c : Conn) : List Nat → Server × List (Nat × Nat) → Server × List (Nat × Nat)
  | [], fed => fed
  | tick :: rest, (server, log) =>
      fedAll c rest (server.logCrc c (record tick),
        (tick, Server.keyOf server c (BitVec.ofNat 8 tick)) :: log)

theorem fedAll_fed {c : Conn} {start : Server} {ticks : List Nat}
    {fed : Server × List (Nat × Nat)} (before : Server.Fed c start fed.2 fed.1) :
    Server.Fed c start (fedAll c ticks fed).2 (fedAll c ticks fed).1 := by
  induction ticks generalizing fed with
  | nil => exact before
  | cons tick rest inductionHypothesis =>
      obtain ⟨server, log⟩ := fed
      exact inductionHypothesis (.report tick (record tick) before rfl)

def fedAll' (ci : Slot) : List Nat → State × List (Nat × Nat) → State × List (Nat × Nat)
  | [], fed => fed
  | tick :: rest, (state, log) =>
      fedAll' ci rest (state.logCrc ci (record tick),
        (tick, (Slots.keyOf state ci (BitVec.ofNat 8 tick)).toNat) :: log)

theorem fedAll_fed' {ci : Slot} {start : State} {ticks : List Nat}
    {fed : State × List (Nat × Nat)} (before : Slots.Fed ci start fed.2 fed.1) :
    Slots.Fed ci start (fedAll' ci ticks fed).2 (fedAll' ci ticks fed).1 := by
  induction ticks generalizing fed with
  | nil => exact before
  | cons tick rest inductionHypothesis =>
      obtain ⟨state, log⟩ := fed
      exact inductionHypothesis (.report tick (record tick) before rfl)

/-- A console plays past tick 255, with one record late. -/
theorem keys_true_late :
    let fed := fedAll 0 [200, 255, 254, 255, 256, 257] (Server.start 0, [])
    let fed' := fedAll' 0 [200, 255, 254, 255, 256, 257] (State.start 0, [])
    ((∀ entry ∈ fed.2, entry.2 = entry.1) ↔ Rising (fed.2.map Prod.fst)) ∧
      ((∀ entry ∈ fed'.2, entry.2 = entry.1) ↔
        Rising (fed'.2.map Prod.fst) ∧ ∀ tick ∈ fed'.2.map Prod.fst, tick < 2 ^ 64) :=
  keys_true ⟨rfl, rfl⟩ (fedAll_fed .start) (by decide) ⟨rfl, rfl⟩ (fedAll_fed' .start) (by decide)

/-- Tick 256 comes before tick 255, and both relays take the later ticks for
ticks of the next lap. -/
theorem keys_false : ∃ log server state,
    Server.Fed 0 (Server.start 0) log server ∧ Slots.Fed 0 (State.start 0) log state ∧
    Walk (log.map Prod.fst) ∧
    log = [(257, 513), (256, 512), (255, 511), (256, 256), (200, 200)] := by
  have keys : (fedAll 0 [200, 256, 255, 256, 257] (Server.start 0, [])).2 =
      [(257, 513), (256, 512), (255, 511), (256, 256), (200, 200)] := by
    decide +kernel
  have keys' : (fedAll' 0 [200, 256, 255, 256, 257] (State.start 0, [])).2 =
      [(257, 513), (256, 512), (255, 511), (256, 256), (200, 200)] := by
    decide +kernel
  have fed := @fedAll_fed 0 _ [200, 256, 255, 256, 257] (Server.start 0, []) .start
  have fed' := @fedAll_fed' 0 _ [200, 256, 255, 256, 257] (State.start 0, []) .start
  rw [keys] at fed
  rw [keys'] at fed'
  exact ⟨_, _, _, fed, fed', by decide, rfl⟩

end DragsterNet.Refine
