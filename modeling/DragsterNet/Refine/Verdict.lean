/-
Module: DragsterNet.Refine.Verdict
Purpose: The records of a match in the C relay, whose books are a ledger in
  sixteen slots, and what both relays say about a match.
Trusted boundary: none
Main exports: Slots.Exchange, Slots.exchange_exact, verdict_exact
-/
import DragsterNet.Refine.Mirror
import DragsterNet.Relay.Books
import DragsterNet.Relay.Play

namespace DragsterNet.Refine

open Lib Relay
open CRelay (Slot State)

/-! ### The slots as a ledger -/

/-- The limit is below the number of slots. -/
theorem limit_crcSlots : 8 < CRelay.crcSlots := by decide

section Entries

variable {crc : List (BitVec 64 × Byte)} {key : BitVec 64} {value : Byte} {index : Nat}

theorem crcFind_isSome :
    (CRelay.crcFind crc key).isSome ↔ key.toNat ∈ (crcEntries crc).map Prod.fst := by
  cases found : CRelay.crcFind crc key with
  | some index =>
      obtain ⟨value, -, looked⟩ := crcFind_found found
      refine iff_of_true rfl ((lookup_isSome_iff _ _).mp ?_)
      rw [looked]
      rfl
  | none =>
      refine iff_of_false Bool.false_ne_true ?_
      rw [← lookup_isSome_iff, lookup_missed (crcFind_entries.trans found)]
      exact Bool.false_ne_true

/-- With all slots taken the last entry is overwritten. -/
theorem crcSet_slots :
    crcEntries (CRelay.crcSet crc key value) =
      assignSlots CRelay.crcSlots key.toNat value (crcEntries crc) := by
  unfold assignSlots
  by_cases known : (CRelay.crcFind crc key).isSome
  · rw [if_pos (crcFind_isSome.mp known)]
    exact crcSet_entries (Or.inl known)
  · rw [if_neg fun member => known (crcFind_isSome.mpr member)]
    unfold CRelay.crcSet
    rw [Option.not_isSome_iff_eq_none.mp known]
    unfold crcEntries
    rw [List.map_append, List.length_map]
    congr 1
    split
    · exact List.map_take
    · rfl

end Entries

section Distinct

variable {key : Nat} {value : Byte} {book : List (Nat × Byte)} {cap : Nat}

theorem assignSlots_distinct (distinct : (book.map Prod.fst).Nodup) :
    ((assignSlots cap key value book).map Prod.fst).Nodup := by
  unfold assignSlots
  split
  · rw [keys_assign, if_pos (by assumption)]
    exact distinct
  · rename_i fresh
    rw [List.map_append, List.map_singleton, ← List.concat_eq_append]
    split
    · rw [List.map_take]
      exact (distinct.sublist (List.take_sublist _ _)).concat fun member =>
        fresh (List.mem_of_mem_take member)
    · exact distinct.concat fresh

end Distinct

/-! ### The match in C -/

namespace Slots

variable (oracle : Oracle) (who : Lib.Side → Slot)

/-- The two are linked and their checksums are gone, as `try_pair` leaves it. -/
structure Fresh (state : State) : Prop where
  apart : who .one ≠ who .two
  linked : ∀ side, (state.clients (who side)).partner = some (who side.other)
  cleared : ∀ side, (state.clients (who side)).crc = []

/-- The key a record goes under. -/
def keyOf (state : State) (ci : Slot) (tick : Byte) : BitVec 64 :=
  State.crcKey (State.nextLap (state.clients ci) tick) tick

/-- What came of handling a record. -/
def filed (before after : State) (report : Report) : Filing :=
  let ci := who report.side
  let key := keyOf before ci (report.payload.getD 0 0)
  { side := report.side
    tick := report.tick
    crc := report.crc
    key := key.toNat
    found := (before.partnerCrc ci key).map fun entry => entry.2.2
    mismatch := (after.seen.drop before.seen.length).any tellsMismatch }

/-- Whatever else the relay does while the match lasts. -/
def Aside (before after : State) : Prop :=
  ∀ side, (after.clients (who side)).crc = (before.clients (who side)).crc ∧
    (after.clients (who side)).lap = (before.clients (who side)).lap ∧
    (after.clients (who side)).haveLastTick = (before.clients (who side)).haveLastTick ∧
    (after.clients (who side)).lastTick = (before.clients (who side)).lastTick ∧
    (after.clients (who side)).partner = (before.clients (who side)).partner

/-- The records of a match, in the order in which they are handled. -/
inductive Exchange (start : State) : List Filing → State → Prop where
  | start : Exchange start [] start
  | report {log : List Filing} {state after : State} (report : Report)
      (before : Exchange start log state)
      (handled : state.handle oracle (who report.side) tInput report.payload = after) :
      Exchange start (log ++ [filed who state after report]) after
  | aside {log : List Filing} {state after : State} (before : Exchange start log state)
      (aside : Aside who state after) : Exchange start log after

variable {oracle who} {start state after middle : State} {ci host guest : Slot}
  {log : List Filing}

/-- Host and guest, by side. -/
def players (host guest : Slot) : Lib.Side → Slot
  | .one => host
  | .two => guest

theorem clients_note {seen : Seen} : (state.note seen).clients = state.clients := rfl

theorem clients_log {line : Line} : (state.log line).clients = state.clients := rfl

theorem clients_count {change : CRelay.Counters → CRelay.Counters} :
    (state.count change).clients = state.clients := rfl

theorem clients_lobbyUpdate : (state.lobbyUpdateCount oracle).clients = state.clients := by
  unfold State.lobbyUpdateCount
  split
  · exact clients_note
  · rfl

/-- What a client holds besides its transmit buffer is not touched by a send. -/
theorem clientSend_same {β : Type} {cj : Slot} {src : Option Slot} {data : Bytes}
    (view : CRelay.Client → β)
    (blind : ∀ client tx txLen, view { client with tx := tx, txLen := txLen } = view client) :
    view ((state.clientSend src ci data).clients cj) = view (state.clients cj) := by
  unfold State.clientSend
  simp only
  by_cases here : cj = ci
  · subst here
    split
    · rw [State.edit_self]
      exact blind _ _ _
    · rw [clients_note, State.edit_self]
      exact blind _ _ _
  · split
    · rw [State.edit_of_ne here]
    · rw [clients_note, State.edit_of_ne here]

theorem startFrame_crc {seed : BitVec 16} {role : Nat} {me them : Slot} :
    ((State.startFrame oracle state seed role me them).clients ci).crc =
      if ci = me then [] else (state.clients ci).crc := by
  unfold State.startFrame State.sendFrame
  simp only
  rw [clientSend_same CRelay.Client.crc fun _ _ _ => rfl]
  split
  · rename_i here
    subst here
    rw [State.edit_self]
  · rename_i apart
    rw [State.edit_of_ne apart]

theorem startFrame_partner {seed : BitVec 16} {role : Nat} {me them : Slot} :
    ((State.startFrame oracle state seed role me them).clients ci).partner =
      (state.clients ci).partner := by
  unfold State.startFrame State.sendFrame
  simp only
  rw [clientSend_same CRelay.Client.partner fun _ _ _ => rfl]
  by_cases here : ci = me
  · subst here
    rw [State.edit_self]
  · rw [State.edit_of_ne here]

/-- A match begins fresh. -/
theorem tryPair_fresh (waits : state.waiting guest = some host) :
    Fresh (players host guest) (state.tryPair oracle guest) := by
  have apart : host ≠ guest := (State.waiting_cases waits).2.1
  have clients : (state.tryPair oracle guest).clients =
      (State.startFrame oracle (State.startFrame oracle
        ({ state with seeds := state.seeds + 1 }.link host guest)
        (oracle.seed state.seeds) 0 host guest) (oracle.seed state.seeds) 1 guest host).clients := by
    unfold State.tryPair
    rw [waits]
    simp only
    rw [clients_lobbyUpdate, clients_log, clients_count]
  refine ⟨apart, fun side => ?_, fun side => ?_⟩
  · rw [clients, startFrame_partner, startFrame_partner]
    unfold State.link State.note
    simp only
    cases side with
    | one => exact (congrArg _ (State.edit_of_ne apart)).trans (congrArg _ State.edit_self)
    | two => exact congrArg _ State.edit_self
  · rw [clients, startFrame_crc, startFrame_crc]
    cases side with
    | one => simp only [players, apart, if_true, if_false]
    | two => simp only [players, if_true]

/-- Forwarding touches no checksum, and logs nothing. -/
theorem forward_aside {ftype : Byte} {payload : Bytes} :
    Aside who state (state.forward ci ftype payload) ∧
      ∃ more, (state.forward ci ftype payload).seen = state.seen ++ more ∧
        more.any tellsMismatch = false := by
  unfold State.forward
  split
  · exact ⟨fun _ => ⟨rfl, rfl, rfl, rfl, rfl⟩, [], (List.append_nil _).symm, rfl⟩
  · refine ⟨fun side => ⟨?_, ?_, ?_, ?_, ?_⟩, ?_⟩
    · exact clientSend_same CRelay.Client.crc fun _ _ _ => rfl
    · exact clientSend_same CRelay.Client.lap fun _ _ _ => rfl
    · exact clientSend_same CRelay.Client.haveLastTick fun _ _ _ => rfl
    · exact clientSend_same CRelay.Client.lastTick fun _ _ _ => rfl
    · exact clientSend_same CRelay.Client.partner fun _ _ _ => rfl
    · unfold State.sendFrame State.clientSend
      simp only
      split
      · exact ⟨[], (List.append_nil _).symm, rfl⟩
      · exact ⟨[_], rfl, rfl⟩

/-- The books of the two, by side. -/
def books (who : Lib.Side → Slot) (state : State) : Books Nat Byte := fun side =>
  crcEntries (state.clients (who side)).crc

/-- What stays the same in a match. -/
structure Playing (who : Lib.Side → Slot) (state : State) : Prop where
  apart : who .one ≠ who .two
  linked : ∀ side, (state.clients (who side)).partner = some (who side.other)
  distinct : ∀ side, ((books who state side).map Prod.fst).Nodup

theorem who_ne (playing : Playing who state) (side : Lib.Side) : who side.other ≠ who side := by
  cases side
  · exact playing.apart.symm
  · exact playing.apart

theorem Playing.aside (playing : Playing who state) (aside : Aside who state after) :
    Playing who after where
  apart := playing.apart
  linked side := (aside side).2.2.2.2.trans (playing.linked side)
  distinct side := by
    unfold books
    rw [(aside side).1]
    exact playing.distinct side

/-- The partner's checksum is the other book's. -/
theorem partnerCrc_found (side : Lib.Side) (key : BitVec 64)
    (linked : (state.clients (who side)).partner = some (who side.other)) :
    (state.partnerCrc (who side) key).map (fun entry => entry.2.2) =
      (books who state side.other).lookup key.toNat := by
  unfold State.partnerCrc
  rw [linked, Option.bind_some]
  cases found : CRelay.crcFind (state.clients (who side.other)).crc key with
  | none => exact (lookup_missed (crcFind_entries.trans found)).symm
  | some index =>
      obtain ⟨value, at_, looked⟩ := crcFind_found found
      rw [Option.bind_some, at_]
      exact looked.symm

/-- The checksum the partner's book has for a record. -/
def foundCrc (who : Lib.Side → Slot) (state : State) (side : Lib.Side) (payload : Bytes) : Option Byte :=
  (books who state side.other).lookup (keyOf state (who side) (payload.getD 0 0)).toNat

section LogCrc

variable {side : Lib.Side} {payload : Bytes}

/-- The checksum is noted before the partner's is looked up, which it does not
change. -/
theorem logCrc_eq (playing : Playing who state) :
    state.logCrc (who side) payload =
      let tick := payload.getD 0 0
      let crc := payload.getD 4 0
      let key := keyOf state (who side) tick
      let noted := state.edit (who side) fun client =>
        { client with
          lap := State.nextLap (state.clients (who side)) tick
          haveLastTick := true
          lastTick := tick
          crc := CRelay.crcSet client.crc key crc }
      match CRelay.crcFind (state.clients (who side.other)).crc key,
          foundCrc who state side payload with
      | some index, some other =>
          let used := noted.edit (who side.other) fun client =>
            { client with crc := client.crc.eraseIdx index }
          if other ≠ crc then
            (used.count fun stats => { stats with crcBad := stats.crcBad + 1 }).log
              (.mismatch tick (noted.clients (who side)).name crc other)
          else used.count fun stats => { stats with crcOk := stats.crcOk + 1 }
      | _, _ =>
          noted.edit (who side) fun client =>
            { client with crc := client.crc.drop (client.crc.length - 8) } := by
  have apart := who_ne playing side
  unfold State.logCrc
  simp only
  unfold State.partnerCrc
  rw [State.edit_self]
  simp only
  rw [playing.linked side, Option.bind_some, State.edit_of_ne apart]
  unfold foundCrc books keyOf
  cases found : CRelay.crcFind (state.clients (who side.other)).crc
      (State.crcKey (State.nextLap (state.clients (who side)) (payload.getD 0 0))
        (payload.getD 0 0)) with
  | none => rfl
  | some index =>
      obtain ⟨value, at_, looked⟩ := crcFind_found found
      simp only [Option.bind_some, at_, Option.map_some, looked]
      rw [State.edit_of_ne apart.symm]

/-- An index is found just if a checksum is. -/
theorem foundCrc_cases (who : Lib.Side → Slot) (state : State) (side : Lib.Side) (payload : Bytes) :
    (CRelay.crcFind (state.clients (who side.other)).crc
        (keyOf state (who side) (payload.getD 0 0)) = none ∧
      foundCrc who state side payload = none) ∨
    ∃ index other, CRelay.crcFind (state.clients (who side.other)).crc
        (keyOf state (who side) (payload.getD 0 0)) = some index ∧
      foundCrc who state side payload = some other := by
  unfold foundCrc
  cases found : CRelay.crcFind (state.clients (who side.other)).crc
      (keyOf state (who side) (payload.getD 0 0)) with
  | none => exact Or.inl ⟨rfl, lookup_missed (crcFind_entries.trans found)⟩
  | some index =>
      obtain ⟨value, -, looked⟩ := crcFind_found found
      exact Or.inr ⟨index, value, rfl, looked⟩

/-- The sender's record after its checksum was logged. -/
theorem logCrc_self (playing : Playing who state) :
    ((state.logCrc (who side) payload).clients (who side)) =
      let tick := payload.getD 0 0
      let noted := CRelay.crcSet (state.clients (who side)).crc (keyOf state (who side) tick)
        (payload.getD 4 0)
      { state.clients (who side) with
        lap := State.nextLap (state.clients (who side)) tick
        haveLastTick := true
        lastTick := tick
        crc := if (foundCrc who state side payload).isSome then noted
          else noted.drop (noted.length - 8) } := by
  have apart := who_ne playing side
  rw [logCrc_eq playing]
  rcases foundCrc_cases who state side payload with ⟨isNone, isNone'⟩ | ⟨index, other, at_, is⟩
  · simp only [isNone, isNone', State.edit_self, Option.isSome_none, Bool.false_eq_true, if_false]
  · simp only [at_, is, Option.isSome_some, if_true]
    split
    · rw [clients_log, clients_count, State.edit_of_ne apart.symm, State.edit_self]
    · rw [clients_count, State.edit_of_ne apart.symm, State.edit_self]

/-- The partner's. -/
theorem logCrc_other (playing : Playing who state) :
    ∃ crc, (state.logCrc (who side) payload).clients (who side.other) =
        { state.clients (who side.other) with crc := crc } ∧
      crcEntries crc =
        if (foundCrc who state side payload).isSome then
          discard (keyOf state (who side) (payload.getD 0 0)).toNat (books who state side.other)
        else books who state side.other := by
  have apart := who_ne playing side
  rw [logCrc_eq playing]
  rcases foundCrc_cases who state side payload with ⟨isNone, isNone'⟩ | ⟨index, other, at_, is⟩
  · simp only [isNone, isNone', Option.isSome_none, Bool.false_eq_true, if_false]
    exact ⟨_, (State.edit_of_ne apart).trans (State.edit_of_ne apart), rfl⟩
  · simp only [at_, is, Option.isSome_some, if_true]
    refine ⟨(state.clients (who side.other)).crc.eraseIdx index, ?_,
      crcErase_entries (playing.distinct side.other) at_⟩
    split
    · rw [clients_log, clients_count, State.edit_self, State.edit_of_ne apart]
    · rw [clients_count, State.edit_self, State.edit_of_ne apart]

/-- A mismatch is logged if the partner's checksum is another one. -/
theorem logCrc_seen (playing : Playing who state) :
    ∃ more, (state.logCrc (who side) payload).seen = state.seen ++ more ∧
      (more.any tellsMismatch = true ↔
        ∃ other, foundCrc who state side payload = some other ∧ other ≠ payload.getD 4 0) := by
  rw [logCrc_eq playing]
  rcases foundCrc_cases who state side payload with ⟨isNone, isNone'⟩ | ⟨index, other, at_, is⟩
  · simp only [isNone, isNone']
    refine ⟨[], (List.append_nil _).symm, ?_⟩
    simp
  · simp only [at_, is]
    by_cases differs : other ≠ payload.getD 4 0
    · simp only [if_pos differs]
      refine ⟨[_], rfl, iff_of_true ?_ ⟨other, rfl, differs⟩⟩
      rw [List.any_cons, Bool.or_eq_true]
      left
      unfold tellsMismatch Line.text
      simp only [List.append_assoc, List.isPrefixOf_iff_prefix, List.prefix_append]
    · simp only [if_neg differs]
      refine ⟨[], (List.append_nil _).symm, iff_of_false Bool.false_ne_true ?_⟩
      rintro ⟨other', same, differs'⟩
      exact differs (Option.some.inj same ▸ differs')

/-- The books are a ledger. -/
theorem books_logCrc (playing : Playing who state) :
    books who (state.logCrc (who side) payload) =
      (slotStore Nat Byte limit_crcSlots).post (books who state)
        ⟨side, (keyOf state (who side) (payload.getD 0 0)).toNat, payload.getD 4 0⟩ := by
  have found : Store.found (books who state)
      ⟨side, (keyOf state (who side) (payload.getD 0 0)).toNat, payload.getD 4 0⟩ =
        foundCrc who state side payload := rfl
  funext side'
  by_cases own : side' = side
  · subst own
    refine Eq.trans ?_ Store.post_self.symm
    rw [found, books, logCrc_self playing]
    by_cases isFound : (foundCrc who state side' payload).isSome
    · simp only [if_pos isFound]
      exact crcSet_slots
    · simp only [if_neg isFound]
      refine (List.map_drop).trans ?_
      rw [← List.length_map (f := fun entry : BitVec 64 × Byte => (entry.1.toNat, entry.2))]
      exact congrArg (fun book => List.drop (List.length book - 8) book) crcSet_slots
  · obtain rfl := Lib.Side.eq_other own
    refine Eq.trans ?_ Store.post_other.symm
    obtain ⟨crc, isClient, isBook⟩ := @logCrc_other who state side payload playing
    rw [found, books, isClient]
    exact isBook

theorem logCrc_playing (playing : Playing who state) :
    Playing who (state.logCrc (who side) payload) := by
  refine ⟨playing.apart, fun side' => ?_, fun side' => ?_⟩
  · by_cases own : side' = side
    · subst own
      rw [logCrc_self playing]
      exact playing.linked side'
    · obtain rfl := Lib.Side.eq_other own
      obtain ⟨crc, isClient, -⟩ := @logCrc_other who state side payload playing
      rw [isClient]
      exact playing.linked side.other
  · rw [books_logCrc playing]
    by_cases own : side' = side
    · subst own
      refine (congrArg (fun book => (List.map Prod.fst book).Nodup) Store.post_self).mpr ?_
      have put := @assignSlots_distinct (keyOf state (who side') (payload.getD 0 0)).toNat
        (payload.getD 4 0) _ CRelay.crcSlots (playing.distinct side')
      split
      · exact put
      · exact put.sublist ((List.drop_sublist _ _).map _)
    · obtain rfl := Lib.Side.eq_other own
      refine (congrArg (fun book => (List.map Prod.fst book).Nodup) Store.post_other).mpr ?_
      split
      · exact (playing.distinct _).sublist (List.filter_sublist.map _)
      · exact playing.distinct _

end LogCrc

/-! ### The exchange -/

/-- Keys have 64 bits. -/
def count64 (key more : Nat) : Nat := (key + more) % 2 ^ 64

/-- A tick that is less than half the range ahead is counted on. -/
theorem nextLap_counts {client : CRelay.Client} {tick later : Nat}
    (has : client.haveLastTick = true) (last : client.lastTick = BitVec.ofNat 8 tick)
    (rose : tick ≤ later) (near : later < tick + 128) :
    (State.crcKey (State.nextLap client (BitVec.ofNat 8 later)) (BitVec.ofNat 8 later)).toNat =
      count64 (State.crcKey client.lap (BitVec.ofNat 8 tick)).toNat (later - tick) := by
  have range : (256 : BitVec 64).toNat = 256 := rfl
  have one : (1 : BitVec 64).toNat = 1 := rfl
  have none_ : (0 : Byte).toNat = 0 := rfl
  have half : (128 : Byte).toNat = 128 := rfl
  unfold State.nextLap State.crcKey count64
  simp only [has, last, if_true, BitVec.lt_def, BitVec.toNat_sub, BitVec.toNat_ofNat, none_, half]
  split
  · rename_i wraps
    simp only [BitVec.toNat_add, BitVec.toNat_mul, BitVec.toNat_setWidth, BitVec.toNat_ofNat,
      range, one]
    omega
  · rename_i stays
    simp only [BitVec.toNat_add, BitVec.toNat_mul, BitVec.toNat_setWidth, BitVec.toNat_ofNat,
      range]
    omega

/-- The key a side's first record goes under, if it is that of the given tick. -/
def firstKey (who : Lib.Side → Slot) (start : State) (first : Nat) (side : Lib.Side) : Nat :=
  (keyOf start (who side) (BitVec.ofNat 8 first)).toNat

/-- What a match has come to after some records. -/
structure Filed (who : Lib.Side → Slot) (start : State) (first : Nat) (log : List Filing)
    (state : State) : Prop where
  told : Told (Next (slotStore Nat Byte limit_crcSlots) count64 (firstKey who start first) first) log
  playing : Playing who state
  books : books who state = (slotStore Nat Byte limit_crcSlots).after (log.map Filing.entry)
  fresh : ∀ side, lastOf side log = none →
    (state.clients (who side)).lap = (start.clients (who side)).lap ∧
      (state.clients (who side)).haveLastTick = (start.clients (who side)).haveLastTick ∧
      (state.clients (who side)).lastTick = (start.clients (who side)).lastTick
  last : ∀ side, ∀ last ∈ lastOf side log,
    (state.clients (who side)).haveLastTick = true ∧
      (state.clients (who side)).lastTick = BitVec.ofNat 8 last.tick ∧
      last.key = (State.crcKey (state.clients (who side)).lap (BitVec.ofNat 8 last.tick)).toNat

variable {first : Nat}

theorem Fresh.filed (fresh : Fresh who start) : Filed who start first [] start where
  told := .nil
  playing := by
    refine ⟨fresh.apart, fresh.linked, fun side => ?_⟩
    unfold Slots.books
    rw [fresh.cleared]
    exact List.nodup_nil
  books := by
    funext side
    unfold Slots.books
    rw [fresh.cleared]
    rfl
  fresh _ _ := ⟨rfl, rfl, rfl⟩
  last _ _ absurd' := by cases absurd'

theorem Filed.aside (filed : Filed who start first log state)
    (aside : Aside who state after) : Filed who start first log after where
  told := filed.told
  playing := filed.playing.aside aside
  books := by
    rw [← filed.books]
    funext side
    unfold Slots.books
    rw [(aside side).1]
  fresh side none_ := by
    rw [(aside side).2.1, (aside side).2.2.1, (aside side).2.2.2.1]
    exact filed.fresh side none_
  last side last isLast := by
    rw [(aside side).2.1, (aside side).2.2.1, (aside side).2.2.2.1]
    exact filed.last side last isLast

theorem aside_keyOf {side : Lib.Side} (aside : Aside who state middle) (tick : Byte) :
    keyOf state (who side) tick = keyOf middle (who side) tick := by
  unfold keyOf State.nextLap
  rw [(aside side).2.1, (aside side).2.2.1, (aside side).2.2.2.1]

/-- What is found is what stands in the partner's book after forwarding. -/
theorem filed_found {report : Report} (playing : Playing who state)
    (aside : Aside who state middle) :
    (filed who state after report).found = foundCrc who middle report.side report.payload := by
  unfold filed foundCrc
  simp only
  rw [partnerCrc_found report.side _ (playing.linked report.side), aside_keyOf aside]
  unfold Slots.books
  rw [(aside report.side.other).1]

theorem filed_entry {report : Report} (aside : Aside who state middle) :
    (filed who state after report).entry =
      ⟨report.side, (keyOf middle (who report.side) (report.payload.getD 0 0)).toNat,
        report.payload.getD 4 0⟩ := by
  unfold filed Filing.entry
  simp only
  rw [aside_keyOf aside]
  rfl

/-- A record that is handled is filed. -/
theorem Filed.report (filed_ : Filed who start first log state) (report : Report) :
    Filed who start first
      (log ++ [filed who state (state.handle oracle (who report.side) tInput report.payload)
        report]) (state.handle oracle (who report.side) tInput report.payload) := by
  have isRelay : tInput ∈ relayTypes := by decide
  have handled : state.handle oracle (who report.side) tInput report.payload =
      (state.forward (who report.side) tInput report.payload).logCrc (who report.side)
        report.payload := by
    unfold State.handle
    rw [if_pos isRelay]
    exact if_pos ⟨rfl, report.whole⟩
  rw [handled]
  obtain ⟨aside, more, isMore, quiet⟩ :=
    @forward_aside who state (who report.side) tInput report.payload
  generalize state.forward (who report.side) tInput report.payload = middle at aside isMore ⊢
  have filed' := filed_.aside aside
  have playing := filed'.playing
  obtain ⟨lines, isLines, tells⟩ := @logCrc_seen who middle report.side report.payload playing
  have found := @filed_found who state (middle.logCrc (who report.side) report.payload) middle
    report filed_.playing aside
  have entry := @filed_entry who state (middle.logCrc (who report.side) report.payload) middle
    report aside
  refine ⟨.add filed'.told ⟨?_, ?_, ?_, ?_⟩, logCrc_playing playing, ?_, ?_, ?_⟩
  · rw [found, entry, ← filed'.books]
    rfl
  · rw [found]
    unfold Slots.filed
    simp only
    rw [isLines, isMore, List.append_assoc, List.drop_left, List.any_append, quiet,
      Bool.false_or]
    exact tells
  · intro none_ isFirst
    obtain ⟨sameLap, sameHas, sameTick⟩ := filed_.fresh report.side none_
    have isTick : report.tick = first := isFirst
    unfold Slots.filed firstKey keyOf State.nextLap
    simp only
    rw [report.stamp, sameLap, sameHas, sameTick, isTick]
  · intro last isLast rose near
    obtain ⟨has, sameTick, isKey⟩ := filed_.last report.side last isLast
    rw [isKey]
    unfold Slots.filed keyOf
    simp only
    rw [report.stamp]
    exact nextLap_counts has sameTick rose near
  · rw [books_logCrc playing, List.map_append, List.map_singleton, Store.after_append,
      ← filed'.books, entry]
  · intro side none_
    rw [lastOf_append] at none_
    split at none_
    · cases none_
    · rename_i apart
      obtain rfl : side = report.side.other := Lib.Side.eq_other fun same => apart same.symm
      obtain ⟨crc, isClient, -⟩ := @logCrc_other who middle report.side report.payload playing
      rw [isClient]
      exact filed'.fresh _ none_
  · intro side last isLast
    rw [lastOf_append] at isLast
    split at isLast
    · rename_i own
      obtain rfl : report.side = side := own
      obtain rfl := Option.some.inj isLast
      rw [logCrc_self playing]
      simp only
      rw [report.stamp]
      refine ⟨trivial, rfl, ?_⟩
      unfold Slots.filed
      simp only
      rw [report.stamp, aside_keyOf aside]
      rfl
    · rename_i apart
      obtain rfl : side = report.side.other := Lib.Side.eq_other fun same => apart same.symm
      obtain ⟨crc, isClient, -⟩ := @logCrc_other who middle report.side report.payload playing
      rw [isClient]
      exact filed'.last _ last isLast

theorem exchange_filed (fresh : Fresh who start)
    (exchange : Exchange oracle who start log state) : Filed who start first log state := by
  induction exchange with
  | start => exact fresh.filed
  | report report before handled inductionHypothesis =>
      subst handled
      exact inductionHypothesis.report report
  | aside before aside inductionHypothesis => exact inductionHypothesis.aside aside

theorem count64_assoc (start one two : Nat) :
    count64 (count64 start one) two = count64 start (one + two) := by
  unfold count64
  rw [Nat.mod_add_mod, Nat.add_assoc]

theorem count64_zero (side : Lib.Side) :
    count64 (firstKey who start first side) 0 = firstKey who start first side :=
  Nat.mod_eq_of_lt (BitVec.isLt _)

/-- The verdict on a match whose keys fit is exact just if both connections file
the first tick under one key, or one of them reports nothing. -/
theorem exchange_exact (fresh : Fresh who start)
    (exchange : Exchange oracle who start log state) (proper : Proper first log)
    (fits : ∀ side, ∀ filing ∈ log,
      firstKey who start first side + (filing.tick - first) < 2 ^ 64) :
    Exact log ↔ Silent log ∨ firstKey who start first .one = firstKey who start first .two := by
  have told := (@exchange_filed oracle who start state log first fresh exchange).told
  constructor
  · intro exact_
    by_cases silent : Silent log
    · exact Or.inl silent
    · exact Or.inr (named_of_exact told proper exact_ silent count64_assoc count64_zero)
  · rintro (silent | same)
    · exact exact_of_silent told silent
    · have keyed := keyed told proper count64_assoc count64_zero
      have isBase : ∀ side, firstKey who start first side = firstKey who start first .one := by
        intro side
        cases side with
        | one => rfl
        | two => exact same.symm
      apply exact_of_named told proper.fair fun tick =>
        firstKey who start first .one + (tick - first)
      · intro filing member
        rw [(keyed filing member).2, isBase]
        exact Nat.mod_eq_of_lt (fits .one filing member)
      · intro one isOne two _ less
        have low := (keyed one isOne).1
        omega

end Slots

/-! ### Both relays -/

/-- The verdict on a match is exact just if both connections count the first tick
to one lap, or one of them reports nothing; for the C relay as long as the keys
fit. -/
theorem verdict_exact {oracle : Oracle} {who : Lib.Side → Conn} {start server : Server}
    {slots : Lib.Side → Slot} {start' state : State} {first : Nat} {log log' : List Filing}
    (fresh : Server.Fresh who start) (exchange : Server.Exchange oracle who start log server)
    (proper : Proper first log) (fresh' : Slots.Fresh slots start')
    (exchange' : Slots.Exchange oracle slots start' log' state) (proper' : Proper first log')
    (fits : ∀ side, ∀ filing ∈ log',
      Slots.firstKey slots start' first side + (filing.tick - first) < 2 ^ 64) :
    (Exact log ↔ Silent log ∨
      start.lapOf (who .one) (BitVec.ofNat 8 first) =
        start.lapOf (who .two) (BitVec.ofNat 8 first)) ∧
    (Exact log' ↔ Silent log' ∨
      Slots.firstKey slots start' first .one = Slots.firstKey slots start' first .two) :=
  ⟨Server.exchange_exact fresh exchange proper, Slots.exchange_exact fresh' exchange' proper' fits⟩

/-- A record of tick 5. -/
def reportOf (side : Lib.Side) (crc : Byte) : Report where
  side := side
  tick := 5
  payload := [5, 0, 0, 0, crc, 0]
  whole := Nat.le_refl 6
  stamp := rfl

theorem eq_empty {κ ν : Type} [DecidableEq κ] {dict : Dict κ ν} (none : dict.entries = []) :
    dict = Dict.empty := by
  cases dict
  subst none
  rfl

theorem proper_two {log : List Filing}
    (two : log.map Filing.posting = [⟨.one, 5, 1⟩, ⟨.two, 5, 2⟩]) : Proper 5 log := by
  refine ⟨by decide, ?_, ?_, ?_⟩
  all_goals
    rw [two]
    decide

/-- Two records are exchanged in the Python relay. -/
theorem exchange_two {who : Lib.Side → Conn} {start middle after : Server}
    (first : start.handle plain 0 (who .one) tInput (reportOf .one 1).payload = .ok middle)
    (second : middle.handle plain 0 (who .two) tInput (reportOf .two 2).payload = .ok after) :
    Server.Exchange plain who start
      [start.filed who middle (reportOf .one 1), middle.filed who after (reportOf .two 2)]
      after :=
  (Server.Exchange.start.report (reportOf .one 1) first).report (reportOf .two 2) second

theorem exchange_two' {slots : Lib.Side → Slot} {start : State} :
    ∃ log state, log.map Filing.posting = [⟨.one, 5, 1⟩, ⟨.two, 5, 2⟩] ∧
      Slots.Exchange plain slots start log state :=
  ⟨_, _, rfl, (Slots.Exchange.start.report (reportOf .one 1) rfl).report (reportOf .two 2) rfl⟩

theorem toOption_ok {ε α : Type} {result : Except ε α} {value : α}
    (isValue : result.toOption = some value) : result = .ok value := by
  cases result with
  | error err => cases isValue
  | ok value' => exact congrArg Except.ok (Option.some.inj isValue)

/-- The states after the first record and after both. -/
def handleTwo (who : Lib.Side → Conn) (server : Server) : Option (Server × Server) := do
  let middle ← (server.handle plain 0 (who .one) tInput (reportOf .one 1).payload).toOption
  let after ← (middle.handle plain 0 (who .two) tInput (reportOf .two 2).payload).toOption
  return (middle, after)

theorem handleTwo_exchange {who : Lib.Side → Conn} {server middle after : Server}
    (handled : handleTwo who server = some (middle, after)) :
    Server.Exchange plain who server
      [server.filed who middle (reportOf .one 1), middle.filed who after (reportOf .two 2)]
      after := by
  obtain ⟨middle', first, rest⟩ := Option.bind_eq_some_iff.mp handled
  obtain ⟨after', second, same⟩ := Option.bind_eq_some_iff.mp rest
  obtain ⟨rfl, rfl⟩ := Prod.mk.inj (Option.some.inj same)
  exact exchange_two (toOption_ok first) (toOption_ok second)

/-- A match that begins, as far as it can be computed. -/
def begun (who : Lib.Side → Conn) (server : Server) : Bool :=
  decide (who .one ≠ who .two ∧
    (∀ side, (server.object (who side)).partner = some (who side.other)) ∧
    ∀ side, (server.object (who side)).crc.entries = [])

theorem begun_fresh {who : Lib.Side → Conn} {server : Server} (isBegun : begun who server = true) :
    Server.Fresh who server := by
  obtain ⟨apart, linked, cleared⟩ := of_decide_eq_true isBegun
  exact ⟨apart, linked, fun side => eq_empty (cleared side)⟩

/-- Two consoles in their first match report different checksums. -/
theorem verdict_exact_first : ∃ loop : Loop, ∃ loop' : CRelay.Loop,
    Run (Loop.Step plain) always (Loop.start 0) loop ∧
    Run (CRelay.Loop.Step plain) always (CRelay.Loop.start 0) loop' ∧
    ∃ log server log' state,
      log.map Filing.posting = [⟨.one, 5, 1⟩, ⟨.two, 5, 2⟩] ∧
      log'.map Filing.posting = [⟨.one, 5, 1⟩, ⟨.two, 5, 2⟩] ∧
      Server.Exchange plain (Server.players 0 1) loop.state log server ∧
      Slots.Exchange plain (Slots.players 0 1) loop'.state log' state ∧
      (Exact log ↔ Silent log ∨
        loop.state.lapOf 0 (BitVec.ofNat 8 5) = loop.state.lapOf 1 (BitVec.ofNat 8 5)) ∧
      (Exact log' ↔ Silent log' ∨
        Slots.firstKey (Slots.players 0 1) loop'.state 5 .one =
          Slots.firstKey (Slots.players 0 1) loop'.state 5 .two) := by
  have outcome : ((Loop.inMatch.foldlM (Loop.next plain) (Loop.start 0)).map fun loop =>
      (begun (Server.players 0 1) loop.state,
        (handleTwo (Server.players 0 1) loop.state).isSome)) = some (true, true) := by
    decide +kernel
  have outcome' : ((CRelay.Loop.accepting 2 0 ++ CRelay.Loop.chunk 0 [helloFrame 0x41 0x41] 2 ++
      CRelay.Loop.chunk 1 [helloFrame 0x42 0x42] 2).foldlM (CRelay.Loop.next plain)
        (CRelay.Loop.start 0)).map (fun loop => decide (
      (∀ side, (loop.state.clients (Slots.players 0 1 side)).partner =
        some (Slots.players 0 1 side.other)) ∧
      (∀ side, (loop.state.clients (Slots.players 0 1 side)).crc = []) ∧
      ∀ side, Slots.firstKey (Slots.players 0 1) loop.state 5 side = 5)) = some true := by
    decide +kernel
  obtain ⟨loop, executed, isOutcome⟩ := Option.map_eq_some_iff.mp outcome
  obtain ⟨loop', executed', isBegun⟩ := Option.map_eq_some_iff.mp outcome'
  obtain ⟨isFresh, handles⟩ := Prod.mk.inj isOutcome
  obtain ⟨⟨middle, after⟩, handled⟩ := Option.isSome_iff_exists.mp handles
  have fresh := begun_fresh isFresh
  have exchange := handleTwo_exchange handled
  obtain ⟨linked, cleared, keys⟩ := of_decide_eq_true isBegun
  have fresh' : Slots.Fresh (Slots.players 0 1) loop'.state := ⟨by decide, linked, cleared⟩
  obtain ⟨log', state, two, exchange'⟩ := @exchange_two' (Slots.players 0 1) loop'.state
  have fits : ∀ side, ∀ filing ∈ log',
      Slots.firstKey (Slots.players 0 1) loop'.state 5 side + (filing.tick - 5) < 2 ^ 64 := by
    intro side filing member
    have small : filing.posting ∈ log'.map Filing.posting := List.mem_map_of_mem member
    rw [two] at small
    have isFive : filing.tick = 5 := by
      rcases List.mem_cons.mp small with same | later
      · exact congrArg Posting.key same
      · exact congrArg Posting.key (List.mem_singleton.mp later)
    rw [keys, isFive]
    decide
  have exact_ := verdict_exact fresh exchange (proper_two rfl) fresh' exchange' (proper_two two) fits
  exact ⟨loop, loop', Run.of_foldlM executed, Run.of_foldlM executed', _, after, log', state, rfl,
    two, exchange, exchange', exact_⟩

/-- A console that has seen tick 255 pass in its first match is paired anew, and
both report different checksums for tick 5: nothing is logged. -/
theorem verdict_misses : ∃ loop : Loop, Run (Loop.Step plain) always (Loop.start 0) loop ∧
    Server.Fresh (Server.players 0 2) loop.state ∧
    ∃ log server, Server.Exchange plain (Server.players 0 2) loop.state log server ∧
      Proper 5 log ∧ log.map Filing.posting = [⟨.one, 5, 1⟩, ⟨.two, 5, 2⟩] ∧
      (∀ filing ∈ log, filing.mismatch = false) ∧ ¬ Exact log := by
  have outcome : ((Loop.inMatch ++
      Loop.chunk 0 [Loop.inputFrame [255, 0, 0, 0, 9, 0], Loop.inputFrame [0, 0, 0, 0, 9, 0]] 2 ++
      Loop.chunk 1 [wire tBye []] 1 ++ Loop.accepting 1 1 ++
      Loop.chunk 2 [helloFrame 0x43 0x43] 2).foldlM (Loop.next plain) (Loop.start 0)).map
        (fun loop => (begun (Server.players 0 2) loop.state,
          (handleTwo (Server.players 0 2) loop.state).map fun states =>
            ((loop.state.filed (Server.players 0 2) states.1 (reportOf .one 1)).mismatch,
              (states.1.filed (Server.players 0 2) states.2 (reportOf .two 2)).mismatch),
          loop.state.lapOf 0 (BitVec.ofNat 8 5), loop.state.lapOf 2 (BitVec.ofNat 8 5))) =
      some (true, some (false, false), 1, 0) := by decide +kernel
  obtain ⟨loop, executed, isOutcome⟩ := Option.map_eq_some_iff.mp outcome
  obtain ⟨isFresh, rest⟩ := Prod.mk.inj isOutcome
  obtain ⟨handles, laps⟩ := Prod.mk.inj rest
  obtain ⟨lap, lap'⟩ := Prod.mk.inj laps
  obtain ⟨⟨middle, after⟩, handled, quiet⟩ := Option.map_eq_some_iff.mp handles
  obtain ⟨quietOne, quietTwo⟩ := Prod.mk.inj quiet
  have fresh := begun_fresh isFresh
  have exchange := handleTwo_exchange handled
  refine ⟨loop, Run.of_foldlM executed, fresh, _, after, exchange, proper_two rfl, rfl, ?_, ?_⟩
  · intro filing member
    rcases List.mem_cons.mp member with rfl | later
    · exact quietOne
    · obtain rfl := List.mem_singleton.mp later
      exact quietTwo
  · intro exact_
    rcases (Server.exchange_exact fresh exchange (proper_two rfl)).mp exact_ with silent | same
    · exact absurd (silent _ List.mem_cons_self _ (List.mem_cons_of_mem _ List.mem_cons_self))
        Lib.Side.noConfusion
    · have apart : (1 : Nat) = 0 := lap.symm.trans (same.trans lap')
      exact absurd apart Nat.one_ne_zero

end DragsterNet.Refine
