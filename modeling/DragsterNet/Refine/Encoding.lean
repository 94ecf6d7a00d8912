/-
Module: DragsterNet.Refine.Encoding
Purpose: A record as it is encoded, relayed and decoded: the console that sends it,
  either relay and the console that consumes it agree on where its bytes stand.
Trusted boundary: none
Main exports: Console.payload, Shows, Altered, Decodes, Refine.Server.Relayed,
  Refine.Slots.Relayed, Refine.record_agrees
-/
import DragsterNet.Lib.Rounds
import DragsterNet.Match.Receive
import DragsterNet.Refine.Laps

namespace DragsterNet

open Lib Relay

/-! ### The two consoles -/

namespace Console

variable {sender receiver : Console} {painted : Painted}

/-- The six bytes of the record behind its length and its type. -/
def payload (console : Console) : Bytes := console.record.drop 2

theorem payload_length : sender.payload.length = 6 := rfl

theorem record_wire : sender.record = wire tInput sender.payload := by
  have length : irLen - 1 = BitVec.ofNat 8 (6 + 1) := by decide
  unfold record inputFrame
  rw [length]
  rfl

end Console

/-- The reply window holds the frame at that offset. -/
def Shows (reply : Nat → Byte) (y : Nat) (frame : Bytes) : Prop :=
  ∀ offset < 8, frame[offset]? = some (reply (y + offset))

/-- It holds the frame but for one byte of the payload. -/
def Altered (reply : Nat → Byte) (y : Nat) (frame : Bytes) : Prop :=
  ∃ index, 2 ≤ index ∧ index < 8 ∧ frame[index]? ≠ some (reply (y + index)) ∧
    ∀ offset < 8, offset ≠ index → frame[offset]? = some (reply (y + offset))

/-- The window is in the slots of its three ticks, no other slot has changed, and the
watermark is the tick if that is newer. -/
structure Decodes (tick newest middle oldest : Byte) (before after : Console) : Prop where
  newest : after.dgRing (ringSlot tick) = newest
  middle : after.dgRing (ringSlot (tick - 1)) = middle
  oldest : after.dgRing (ringSlot (tick - 2)) = oldest
  others : ∀ slot, slot ≠ ringSlot tick → slot ≠ ringSlot (tick - 1) →
    slot ≠ ringSlot (tick - 2) → after.dgRing slot = before.dgRing slot
  rwat : after.dgRwat = if (tick - before.dgRwat).msb then before.dgRwat else tick

namespace Console

variable {sender receiver : Console} {painted : Painted} {y : Nat}
  {tick newest middle oldest : Byte}

theorem ringSlot_window (tick : Byte) : ringSlot tick ≠ ringSlot (tick - 1) ∧
    ringSlot tick ≠ ringSlot (tick - 2) ∧ ringSlot (tick - 1) ≠ ringSlot (tick - 2) := by
  revert tick
  decide +kernel

theorem Consumed.decodes {before after : Console}
    (consumed : Consumed tick newest middle oldest before after) :
    Decodes tick newest middle oldest before after := by
  obtain ⟨first, second, third⟩ := ringSlot_window tick
  refine ⟨?_, ?_, ?_, ?_, consumed.rwat⟩
  · rw [consumed.ring, Function.update_of_ne second, Function.update_of_ne first,
      Function.update_self]
  · rw [consumed.ring, Function.update_of_ne third, Function.update_self]
  · rw [consumed.ring, Function.update_self]
  · intro slot notNewest notMiddle notOldest
    rw [consumed.ring, Function.update_of_ne notOldest, Function.update_of_ne notMiddle,
      Function.update_of_ne notNewest]

/-! ### The check byte -/

theorem xor_rounds : Rounds fun sum byte : Byte => sum ^^^ byte where
  sum := fun byte _ _ same => (BitVec.xor_left_inj byte).mp same
  cell := fun sum _ _ same => (BitVec.xor_right_inj sum).mp same

/-- Where the payload of the frame at offset `y` stands. -/
def payloadAt (y : Nat) : List Nat := [y + 2, y + 3, y + 4, y + 5, y + 6, y + 7]

/-- With its salt and its check byte, a payload that checks adds up to nothing. -/
theorem checks_iff {reply : Nat → Byte} : checks reply y = true ↔
    Rounds.fold (fun sum byte : Byte => sum ^^^ byte) reply irSeed (payloadAt y) = 0 := by
  have sum : Rounds.fold (fun sum byte : Byte => sum ^^^ byte) reply irSeed (payloadAt y) =
      (reply (y + 2) ^^^ reply (y + 3) ^^^ reply (y + 4) ^^^ reply (y + 5) ^^^ reply (y + 6) ^^^
        irSeed) ^^^ reply (y + 7) := by
    unfold Rounds.fold payloadAt
    simp only [List.foldl_cons, List.foldl_nil]
    ac_rfl
  rw [sum, checks, beq_iff_eq]
  exact BitVec.xor_eq_zero_iff.symm

/-- One byte of the payload that is not the record's is noticed. -/
theorem not_checks_of_altered (more : receiver.dgRdn ≠ 0)
    (altered : Altered painted.fnRply receiver.cursor sender.record) :
    checks painted.fnRply receiver.cursor = false := by
  obtain ⟨index, above, below, differ, agree⟩ := altered
  have bound : index < sender.record.length := below
  -- The reply window as it would be with the byte that was sent.
  obtain ⟨genuine, isGenuine⟩ : ∃ genuine, genuine = Function.update painted.fnRply
    (receiver.cursor + index) sender.record[index] := ⟨_, rfl⟩
  have isSent : genuine (receiver.cursor + index) = sender.record[index] := by
    rw [isGenuine, Function.update_self]
  have others : ∀ other, other ≠ receiver.cursor + index →
      painted.fnRply other = genuine other := by
    intro other apart
    rw [isGenuine, Function.update_of_ne apart]
  have shown : Shows genuine receiver.cursor sender.record := by
    intro offset inside
    by_cases here : offset = index
    · subst here
      rw [isSent, List.getElem?_eq_getElem bound]
    · rw [agree offset inside here, others _ (by omega)]
  have checked := (@dgsCons_stores { painted with fnRply := genuine } _ more _ _ _ _ _ shown).2.1
  have changed : painted.fnRply (receiver.cursor + index) ≠ genuine (receiver.cursor + index) := by
    intro same
    rw [same, isSent, List.getElem?_eq_getElem bound] at differ
    exact differ rfl
  have member : receiver.cursor + index ∈ payloadAt receiver.cursor := by
    unfold payloadAt
    simp only [List.mem_cons, List.not_mem_nil, or_false]
    omega
  have distinct : (payloadAt receiver.cursor).Nodup := by
    unfold payloadAt
    simp
  apply Bool.eq_false_iff.mpr
  rw [Ne, checks_iff, ← checks_iff.mp checked]
  apply xor_rounds.fold_ne_of_single distinct member changed
  intro other _ apart
  exact others other apart

theorem dgsCons_altered (more : receiver.dgRdn ≠ 0)
    (altered : Altered painted.fnRply receiver.cursor sender.record) :
    dgsCons painted receiver = { receiver with dgRdn := receiver.dgRdn - 1 } := by
  have unchecked := not_checks_of_altered more altered
  obtain ⟨index, above, below, differ, agree⟩ := altered
  have isInput : painted.fnRply (receiver.cursor + 1) = wtInput :=
    (Option.some.inj (agree 1 (by decide) (by omega))).symm
  rw [dgsCons, if_neg more, consumeAt, if_pos isInput, if_neg (Bool.eq_false_iff.mp unchecked)]

end Console

/-! ### The relays -/

namespace Refine

open CRelay (Slot State)

variable {sender : Console}

theorem pad_payload : sender.payload.rightpad gamePayload 0 = sender.payload := rfl

namespace Server

/-- `log_crc`, once it has read the tick and the checksum. -/
def logRead (server : Server) (c : Conn) (tick crc : Byte) : Server :=
  let lap := Server.nextLap (server.object c).lap (server.object c).lastTick tick
  let key := lap * 256 + tick.toNat
  let server := server.edit c fun client =>
    { client with lap := lap, lastTick := some tick, crc := client.crc.set key crc }
  match server.partnerCrc c key with
  | none => server.edit c fun client => { client with crc := client.crc.trim 8 }
  | some (partner, other) =>
      let server := server.edit partner fun client =>
        { client with crc := client.crc.erase key }
      if other ≠ crc then
        (server.count fun stats => { stats with crcBad := stats.crcBad + 1 }).log
          (.mismatch tick ((server.object c).nameOr "None") crc other)
      else server.count fun stats => { stats with crcOk := stats.crcOk + 1 }

/-- The partner is sent the record as it is, and the tick and the checksum are logged. -/
structure Relayed (server : Server) (c partner : Conn) (record : Bytes) (tick crc : Byte)
    (after : Server) : Prop where
  logged : after = logRead (server.send (some c) partner record) c tick crc
  tx : (after.object partner).tx = (server.object partner).tx ++ record
  lastTick : (after.object c).lastTick = some tick

theorem logCrc_read {server : Server} {c : Conn} {payload : Bytes} :
    server.logCrc c payload = logRead server c (payload.getD 0 0) (payload.getD 4 0) := rfl

theorem edit_tx {server : Server} {c d : Conn} {change : Client → Client}
    (same : (change (server.object d)).tx = (server.object d).tx) :
    ((server.edit d change).object c).tx = (server.object c).tx := by
  by_cases here : c = d
  · subst here
    rw [Server.edit_self]
    exact same
  · rw [Server.edit_of_ne here]

theorem logCrc_tx {server : Server} {c d : Conn} {payload : Bytes} :
    ((server.logCrc c payload).object d).tx = (server.object d).tx := by
  obtain ⟨other, crc, crc', same⟩ := @logCrc_object server c payload
  rw [same]
  exact (edit_tx rfl).trans (edit_tx rfl)

theorem handle_record {oracle : Oracle} {patience : Nat} {server : Server} {c partner : Conn}
    (isPartner : (server.object c).partner = some partner) :
    ∃ after, server.handle oracle patience c tInput sender.payload = .ok after ∧
      Relayed server c partner sender.record (sender.dgTick + dgD) sender.dgCrcv after := by
  have relays : tInput ∈ relayTypes := by decide
  have long : tInput = tInput ∧ 6 ≤ sender.payload.length := ⟨rfl, Console.payload_length.ge⟩
  have fits : sender.payload.length + 1 ≤ 255 := by
    rw [Console.payload_length]
    decide
  have forwarded : server.forward c tInput sender.payload =
      .ok (server.send (some c) partner sender.record) := by
    unfold Server.forward frame
    rw [isPartner, pad_payload, if_pos fits, Console.record_wire]
    rfl
  have handled : server.handle oracle patience c tInput sender.payload =
      .ok ((server.send (some c) partner sender.record).logCrc c sender.payload) := by
    have logged : (if tInput = tInput ∧ 6 ≤ sender.payload.length then
        Except.ok ((server.send (some c) partner sender.record).logCrc c sender.payload)
      else Except.ok (server.send (some c) partner sender.record)) =
        (Except.ok ((server.send (some c) partner sender.record).logCrc c sender.payload) :
          Except PyErr Server) := if_pos long
    unfold Server.handle
    rw [if_pos relays, forwarded]
    exact logged
  refine ⟨_, handled, logCrc_read, ?_, logCrc_laps.2⟩
  have sent : (server.send (some c) partner sender.record).object partner =
      { server.object partner with tx := (server.object partner).tx ++ sender.record } :=
    Function.update_self ..
  rw [logCrc_tx, sent]

end Server

namespace Slots

/-- `log_crc`, once it has read the tick and the checksum. -/
def logRead (state : State) (ci : Slot) (tick crc : Byte) : State :=
  let lap := State.nextLap (state.clients ci) tick
  let key := State.crcKey lap tick
  let state := state.edit ci fun client =>
    { client with
      lap := lap, haveLastTick := true, lastTick := tick
      crc := CRelay.crcSet client.crc key crc }
  match state.partnerCrc ci key with
  | none =>
      state.edit ci fun client => { client with crc := client.crc.drop (client.crc.length - 8) }
  | some (partner, index, other) =>
      let state := state.edit partner fun client =>
        { client with crc := client.crc.eraseIdx index }
      if other ≠ crc then
        (state.count fun stats => { stats with crcBad := stats.crcBad + 1 }).log
          (.mismatch tick (state.clients ci).name crc other)
      else state.count fun stats => { stats with crcOk := stats.crcOk + 1 }

/-- The record is handed to `client_send` for the partner as it is, and goes into its
buffer if it fits; the tick and the checksum are logged. -/
structure Relayed (state : State) (ci partner : Slot) (record : Bytes) (tick crc : Byte)
    (after : State) : Prop where
  logged : after = logRead (state.clientSend (some ci) partner record) ci tick crc
  tx : (state.clients partner).txLen + record.length ≤ CRelay.txCap →
    (after.clients partner).queued = (state.clients partner).queued ++ record
  lastTick : (after.clients ci).haveLastTick = true ∧ (after.clients ci).lastTick = tick

theorem logCrc_read {state : State} {ci : Slot} {payload : Bytes} :
    state.logCrc ci payload = logRead state ci (payload.getD 0 0) (payload.getD 4 0) := rfl

theorem edit_queued {state : State} {ci other : Slot} {change : CRelay.Client → CRelay.Client}
    (tx : (change (state.clients other)).tx = (state.clients other).tx)
    (txLen : (change (state.clients other)).txLen = (state.clients other).txLen) :
    ((state.edit other change).clients ci).queued = (state.clients ci).queued := by
  by_cases here : ci = other
  · subst here
    rw [State.edit_self, CRelay.Client.queued, tx, txLen]
    rfl
  · rw [State.edit_of_ne here]

theorem logCrc_queued {state : State} {ci other : Slot} {payload : Bytes} :
    ((state.logCrc ci payload).clients other).queued = (state.clients other).queued := by
  obtain ⟨third, crc, crc', same⟩ := @logCrc_clients state ci payload
  rw [same]
  exact (edit_queued rfl rfl).trans (edit_queued rfl rfl)

theorem handle_record {oracle : Oracle} {state : State} {ci partner : Slot}
    (isPartner : (state.clients ci).partner = some partner) :
    Relayed state ci partner sender.record (sender.dgTick + dgD) sender.dgCrcv
      (state.handle oracle ci tInput sender.payload) := by
  have relays : tInput ∈ relayTypes := by decide
  have long : tInput = tInput ∧ 6 ≤ sender.payload.length := ⟨rfl, Console.payload_length.ge⟩
  have forwarded : state.forward ci tInput sender.payload =
      state.clientSend (some ci) partner sender.record := by
    unfold State.forward State.sendFrame
    rw [isPartner, Console.record_wire]
    simp only [pad_payload]
  have handled : state.handle oracle ci tInput sender.payload =
      (state.clientSend (some ci) partner sender.record).logCrc ci sender.payload := by
    unfold State.handle
    rw [if_pos relays, forwarded]
    exact if_pos long
  rw [handled]
  refine ⟨logCrc_read, ?_, logCrc_laps.2⟩
  intro room
  rw [logCrc_queued, State.clientSend, if_neg (Nat.not_lt.mpr room), clients_note,
    State.edit_self]
  apply CRelay.Client.queued_front rfl
  rw [List.length_append, CRelay.Client.queued_length]

end Slots

/-- Encoding, relaying and decoding agree: the eight bytes a console sends go through
either relay as they are, the relay logs the sender's tick and checksum, and a console
that finds the bytes in its reply window puts the three inputs where their ticks belong;
with one byte of the payload altered, it does nothing but count the record. -/
theorem record_agrees (sender : Console) :
    (∀ painted, (sender.dgsWiss painted).2.map (fun request => request.tx.drop 3) =
      some (wire tInput sender.payload)) ∧
    (∀ oracle patience (server : Relay.Server) c partner,
      (server.object c).partner = some partner →
        ∃ after, server.handle oracle patience c tInput sender.payload = .ok after ∧
          Server.Relayed server c partner sender.record (sender.dgTick + dgD) sender.dgCrcv
            after) ∧
    (∀ oracle (state : State) ci partner, (state.clients ci).partner = some partner →
      Slots.Relayed state ci partner sender.record (sender.dgTick + dgD) sender.dgCrcv
        (state.handle oracle ci tInput sender.payload)) ∧
    (∀ (receiver : Console) painted, receiver.dgRdn ≠ 0 →
      Shows painted.fnRply receiver.cursor sender.record →
        Decodes (sender.dgTick + dgD) (sender.dgLoc (localSlot (sender.dgTick + dgD)))
          (sender.dgLoc (localSlot (sender.dgTick + dgD - 1)))
          (sender.dgLoc (localSlot (sender.dgTick + dgD - 2))) receiver
          (receiver.dgsCons painted)) ∧
    ∀ (receiver : Console) painted, receiver.dgRdn ≠ 0 →
      Altered painted.fnRply receiver.cursor sender.record →
        (receiver.dgsCons painted).dgRing = receiver.dgRing ∧
        (receiver.dgsCons painted).dgRwat = receiver.dgRwat ∧
        (receiver.dgsCons painted).dgEnt = receiver.dgEnt ∧
        (receiver.dgsCons painted).dgErr = receiver.dgErr := by
  refine ⟨?_, ?_, ?_, ?_, ?_⟩
  · intro painted
    rw [← Console.record_wire]
    rfl
  · intro oracle patience server c partner isPartner
    exact Server.handle_record isPartner
  · intro oracle state ci partner isPartner
    exact Slots.handle_record isPartner
  · intro receiver painted more shown
    exact (Console.dgsCons_stores more shown).2.2.decodes
  · intro receiver painted more altered
    rw [Console.dgsCons_altered more altered]
    exact ⟨rfl, rfl, rfl, rfl⟩

/-- A console whose record is for the first tick after the wrap. -/
def wrapping : Console :=
  { Console.handOver 0 1 fun _ => 0 with
    dgTick := 0xFE, dgLoc := fun slot => BitVec.ofNat 8 slot.val }

/-- A console that is about to consume one record. -/
def consuming : Console := { Console.handOver dgeRole 1 fun _ => 0 with dgRdn := 1 }

/-- The window ends in tick 0 and begins in tick 254. -/
theorem record_agrees_wrap : wrapping.record = wire tInput [0, 0, 3, 2, 0, 0xA4] ∧
    ∀ painted, painted.fnRply = (fun index => wrapping.record.getD index 0) →
      Decodes 0 0 3 2 consuming (consuming.dgsCons painted) := by
  refine ⟨by decide, ?_⟩
  intro painted isReply
  apply (record_agrees wrapping).2.2.2.1 consuming painted (by decide)
  rw [isReply]
  intro offset bound
  have inside : offset < wrapping.record.length := bound
  have start : consuming.cursor + offset = offset := Nat.zero_add offset
  simp only [start, List.getD_eq_getElem?_getD, List.getElem?_eq_getElem inside, Option.getD_some]

end Refine

end DragsterNet
