/-
Module: DragsterNet.Refine.Mirror
Purpose: What a slot of the C relay and a client object of the Python relay hold
  and have said, and the updates that keep the two alike.
Trusted boundary: none
Main exports: Mirror, Content, Content.edit, Content.send, Mirror.logged
-/
import DragsterNet.CRelay.Partner
import DragsterNet.Refine.Text

namespace DragsterNet.Refine

open Lib Relay
open Relay.Server (ShortName)
open CRelay (Slot Counters)

/-! ### The checksum map -/

/-- The entries as the Python relay keeps them. -/
def crcEntries (crc : List (BitVec 64 × Byte)) : List (Nat × Byte) :=
  crc.map fun entry => (entry.1.toNat, entry.2)

variable {crc : List (BitVec 64 × Byte)} {key : BitVec 64} {value : Byte} {index : Nat}

theorem crcFind_entries :
    ((crcEntries crc).findIdx? fun entry => entry.1 = key.toNat) = CRelay.crcFind crc key := by
  unfold crcEntries CRelay.crcFind
  rw [List.findIdx?_map]
  congr 1
  funext entry
  rw [Bool.eq_iff_iff, Function.comp_apply, decide_eq_true_iff, decide_eq_true_iff,
    BitVec.toNat_inj]

/-- With room for a new entry, setting one sets it in the Python's map. -/
theorem crcSet_entries
    (room : (CRelay.crcFind crc key).isSome ∨ crc.length < CRelay.crcSlots) :
    crcEntries (CRelay.crcSet crc key value) = assign key.toNat value (crcEntries crc) := by
  unfold CRelay.crcSet
  cases found : CRelay.crcFind crc key with
  | some index =>
      have found' := crcFind_entries.trans found
      rw [assign_found found']
      exact List.map_set
  | none =>
      rw [found] at room
      have room' : ¬ CRelay.crcSlots ≤ crc.length := by
        rcases room with absurd | room
        · cases absurd
        · exact Nat.not_le.mpr room
      have missed := lookup_missed (crcFind_entries.trans found)
      have fresh : key.toNat ∉ (crcEntries crc).map Prod.fst := by
        rw [← lookup_isSome_iff, missed]
        exact Bool.false_ne_true
      rw [assign_fresh fresh]
      simp only [if_neg room']
      exact List.map_append

/-- The entry that is found is the one the Python's map has. -/
theorem crcFind_found (found : CRelay.crcFind crc key = some index) :
    ∃ value, crc[index]? = some (key, value) ∧
      (crcEntries crc).lookup key.toNat = some value := by
  obtain ⟨value, at_, looked⟩ := lookup_found (crcFind_entries.trans found)
  obtain ⟨entry, isEntry, same⟩ : ∃ entry, crc[index]? = some entry ∧
      (entry.1.toNat, entry.2) = (key.toNat, value) := by
    rw [crcEntries, List.getElem?_map] at at_
    exact Option.map_eq_some_iff.mp at_
  obtain ⟨isKey, isValue⟩ := Prod.mk.inj same
  refine ⟨value, ?_, looked⟩
  rw [isEntry]
  exact congrArg some (Prod.ext (BitVec.toNat_inj.mp isKey) isValue)

theorem crcErase_entries (distinct : ((crcEntries crc).map Prod.fst).Nodup)
    (found : CRelay.crcFind crc key = some index) :
    crcEntries (crc.eraseIdx index) = discard key.toNat (crcEntries crc) := by
  rw [discard_found distinct (crcFind_entries.trans found)]
  exact (List.eraseIdx_map _ _ _).symm

/-! ### One client -/

/-- A slot and the object it stands for. -/
structure Mirror (client : CRelay.Client) (object : Client) : Prop where
  rx : client.rx = object.rx
  tx : client.queued = object.tx
  name : object.name.map encode = if client.hasName then some client.name else none
  short : ∀ name, object.name = some name → ShortName name
  ip : client.ip = object.ip
  born : client.born = object.born
  crc : crcEntries client.crc = object.crc.entries
  lap : client.lap.toNat = object.lap
  lastTick : object.lastTick = if client.haveLastTick then some client.lastTick else none
  named : client.partner.isSome = true → client.hasName = true

variable {client : CRelay.Client} {object : Client}

namespace Mirror

theorem hasName (mirror : Mirror client object) : client.hasName = object.name.isSome := by
  have same := congrArg Option.isSome mirror.name
  rw [Option.isSome_map] at same
  rw [same]
  cases client.hasName <;> rfl

theorem name_some (mirror : Mirror client object) {name : Text}
    (isName : object.name = some name) : client.hasName = true ∧ client.name = encode name := by
  have has : client.hasName = true := by
    rw [mirror.hasName, isName]
    rfl
  have same := mirror.name
  rw [isName, has] at same
  exact ⟨has, (Option.some.inj same).symm⟩

theorem name_none (mirror : Mirror client object) (isName : object.name = none) :
    client.hasName = false := by
  rw [mirror.hasName, isName]
  rfl

theorem nameOr (mirror : Mirror client object) : client.nameOr = object.nameOr "?" := by
  unfold CRelay.Client.nameOr Client.nameOr
  rw [mirror.name]
  cases client.hasName <;> rfl

theorem txLen (mirror : Mirror client object) : client.txLen = object.tx.length := by
  rw [← mirror.tx]
  exact CRelay.Client.queued_length.symm

end Mirror

/-! ### A checksum is logged -/

/-- The same laps are counted, as long as they fit. -/
theorem nextLap_same (lap : client.lap.toNat = object.lap)
    (lastTick : object.lastTick = if client.haveLastTick then some client.lastTick else none)
    {tick : Byte} (fits : Server.nextLap object.lap object.lastTick tick < 2 ^ 64) :
    (CRelay.State.nextLap client tick).toNat =
      Server.nextLap object.lap object.lastTick tick := by
  unfold CRelay.State.nextLap
  unfold Server.nextLap at fits ⊢
  rw [lastTick] at fits ⊢
  cases isSet : client.haveLastTick with
  | false => exact lap
  | true =>
      rw [isSet] at fits
      simp only [↓reduceIte] at fits ⊢
      by_cases wraps : 0 < (tick - client.lastTick).toNat ∧
          (tick - client.lastTick).toNat < 128 ∧ tick < client.lastTick
      · have wraps' : 0 < tick - client.lastTick ∧ tick - client.lastTick < 128 ∧
            tick < client.lastTick := wraps
        rw [if_pos wraps] at fits ⊢
        rw [if_pos wraps', BitVec.toNat_add, lap]
        exact Nat.mod_eq_of_lt fits
      · have wraps' : ¬ (0 < tick - client.lastTick ∧ tick - client.lastTick < 128 ∧
            tick < client.lastTick) := wraps
        rw [if_neg wraps, if_neg wraps']
        exact lap

theorem nextLap_mirror (mirror : Mirror client object) {tick : Byte}
    (fits : Server.nextLap object.lap object.lastTick tick < 2 ^ 64) :
    (CRelay.State.nextLap client tick).toNat =
      Server.nextLap object.lap object.lastTick tick :=
  nextLap_same mirror.lap mirror.lastTick fits

theorem crcKey_toNat {lap : BitVec 64} {tick : Byte} (fits : lap.toNat < 2 ^ 56) :
    (CRelay.State.crcKey lap tick).toNat = lap.toNat * 256 + tick.toNat := by
  have small := tick.isLt
  unfold CRelay.State.crcKey
  rw [BitVec.toNat_add, BitVec.toNat_mul, BitVec.toNat_setWidth]
  have number : (256 : BitVec 64).toNat = 256 := rfl
  rw [number]
  omega

/-- A record's checksum is noted in both maps. -/
theorem Mirror.logged (mirror : Mirror client object) {tick crc : Byte} {lap : BitVec 64}
    {lap' : Nat} (sameLap : lap.toNat = lap') (fits : lap' < 2 ^ 56)
    (room : (CRelay.crcFind client.crc (CRelay.State.crcKey lap tick)).isSome ∨
      client.crc.length < CRelay.crcSlots) :
    Mirror
      { client with
        lap := lap, haveLastTick := true, lastTick := tick
        crc := CRelay.crcSet client.crc (CRelay.State.crcKey lap tick) crc }
      { object with
        lap := lap', lastTick := some tick
        crc := object.crc.set (lap' * 256 + tick.toNat) crc } := by
  have isKey : (CRelay.State.crcKey lap tick).toNat = lap' * 256 + tick.toNat := by
    rw [crcKey_toNat (by rw [sameLap]; exact fits), sameLap]
  refine { mirror with lap := sameLap, lastTick := rfl, crc := ?_ }
  rw [crcSet_entries room, mirror.crc, isKey]
  rfl

/-! ### Both relays -/

/-- The counters, taken modulo 2 to the 32. -/
def wrapped (stats : Stats) : Counters where
  matches_ := BitVec.ofNat 32 stats.matches_
  crcOk := BitVec.ofNat 32 stats.crcOk
  crcBad := BitVec.ofNat 32 stats.crcBad
  badFrames := BitVec.ofNat 32 stats.badFrames
  txDrops := BitVec.ofNat 32 stats.txDrops
  helloTimeouts := BitVec.ofNat 32 stats.helloTimeouts
  ipRejects := BitVec.ofNat 32 stats.ipRejects

/-- No counter has reached 2 to the 32. -/
def Countable (stats : Stats) : Prop :=
  stats.matches_ < 2 ^ 32 ∧ stats.crcOk < 2 ^ 32 ∧ stats.crcBad < 2 ^ 32 ∧
    stats.badFrames < 2 ^ 32 ∧ stats.txDrops < 2 ^ 32 ∧ stats.helloTimeouts < 2 ^ 32 ∧
    stats.ipRejects < 2 ^ 32

instance (stats : Stats) : Decidable (Countable stats) :=
  inferInstanceAs (Decidable (_ ∧ _))

theorem wrapped_stats {stats : Stats} (countable : Countable stats) :
    (wrapped stats).stats = stats := by
  obtain ⟨one, two, three, four, five, six, seven⟩ := countable
  unfold wrapped Counters.stats
  simp only [BitVec.toNat_ofNat, Nat.mod_eq_of_lt one, Nat.mod_eq_of_lt two,
    Nat.mod_eq_of_lt three, Nat.mod_eq_of_lt four, Nat.mod_eq_of_lt five, Nat.mod_eq_of_lt six,
    Nat.mod_eq_of_lt seven]

/-- Every slot mirrors the object it stands for, the globals are the same, and
so is all that has been seen. -/
structure Content (state : CRelay.State) (server : Server) : Prop where
  mirror : ∀ ci c, (state.board ci).holds = some c →
    Mirror (state.clients ci) (server.object c)
  apart : ∀ ci cj c, (state.board ci).holds = some c → (state.board cj).holds = some c →
    ci = cj
  stats : state.stats = wrapped server.stats
  lastSweep : state.lastSweep = server.lastSweep
  lastStats : state.lastStats = server.lastStats
  conns : state.conns = server.conns
  seeds : state.seeds = server.seeds
  digits : state.digits = server.digits
  seen : state.seen = server.seen

variable {oracle : Oracle} {state : CRelay.State} {server : Server} {ci cj : Slot} {c d : Conn}
  {change : CRelay.Client → CRelay.Client} {change' : Client → Client}

theorem conn_of_holds (holds : (state.board ci).holds = some c) : state.conn ci = c :=
  congrArg (fun held => held.getD 0) holds

theorem holds_edit (kept : (change (state.clients ci)).holds = (state.clients ci).holds) :
    ((state.edit ci change).board cj).holds = (state.board cj).holds := by
  rw [CRelay.State.board_edit rfl]
  by_cases here : cj = ci
  · subst here
    rw [Function.update_self]
    exact kept
  · rw [Function.update_of_ne here]

namespace Content

/-- An edit of a slot and of its object. -/
theorem edit (content : Content state server) (holds : (state.board ci).holds = some c)
    (kept : (change (state.clients ci)).holds = (state.clients ci).holds)
    (mirror : Mirror (change (state.clients ci)) (change' (server.object c))) :
    Content (state.edit ci change) (server.edit c change') where
  mirror cj d held := by
    rw [holds_edit kept] at held
    by_cases here : cj = ci
    · subst here
      obtain rfl := Option.some.inj (holds.symm.trans held)
      rw [CRelay.State.edit_self, Server.edit_self]
      exact mirror
    · have apart : d ≠ c := by
        rintro rfl
        exact here (content.apart cj ci d held holds)
      rw [CRelay.State.edit_of_ne here, Server.edit_of_ne apart]
      exact content.mirror cj d held
  apart one two held first second := by
    rw [holds_edit kept] at first second
    exact content.apart one two held first second
  stats := content.stats
  lastSweep := content.lastSweep
  lastStats := content.lastStats
  conns := content.conns
  seeds := content.seeds
  digits := content.digits
  seen := content.seen

/-- An edit of a slot in what the Python relay has no word for. -/
theorem solo (content : Content state server)
    (kept : (change (state.clients ci)).holds = (state.clients ci).holds)
    (mirror : ∀ object, Mirror (state.clients ci) object →
      Mirror (change (state.clients ci)) object) :
    Content (state.edit ci change) server where
  mirror cj d held := by
    rw [holds_edit kept] at held
    by_cases here : cj = ci
    · subst here
      rw [CRelay.State.edit_self]
      exact mirror _ (content.mirror cj d held)
    · rw [CRelay.State.edit_of_ne here]
      exact content.mirror cj d held
  apart one two held first second := by
    rw [holds_edit kept] at first second
    exact content.apart one two held first second
  stats := content.stats
  lastSweep := content.lastSweep
  lastStats := content.lastStats
  conns := content.conns
  seeds := content.seeds
  digits := content.digits
  seen := content.seen

theorem note (content : Content state server) (seen : Seen) :
    Content (state.note seen) (server.note seen) :=
  { content with
    mirror := content.mirror
    apart := content.apart
    seen := congrArg (· ++ [seen]) content.seen }

theorem log (content : Content state server) (line : Line) :
    Content (state.log line) (server.log line) :=
  content.note (.line line.text)

theorem count (content : Content state server) {counts : Counters → Counters}
    {counts' : Stats → Stats} (same : counts (wrapped server.stats) = wrapped (counts' server.stats)) :
    Content (state.count counts) (server.count counts') :=
  { content with
    mirror := content.mirror
    apart := content.apart
    stats := (congrArg counts content.stats).trans same }

theorem lobbyUpdate (content : Content state server)
    (size : state.byName.length = server.byName.size) :
    Content (state.lobbyUpdateCount oracle) (server.lobbyUpdate oracle) := by
  unfold CRelay.State.lobbyUpdateCount Server.lobbyUpdate
  split
  · rw [size]
    exact content.note (.players server.byName.size)
  · exact content

/-- The data fits: both relays append it. -/
theorem send (content : Content state server) {src : Option Slot} {src' : Option Conn}
    {data : Bytes} (holds : (state.board ci).holds = some c)
    (sender : src.map state.conn = src')
    (room : (state.clients ci).txLen + data.length ≤ CRelay.txCap) :
    Content (state.clientSend src ci data) (server.send src' c data) := by
  have mirror := content.mirror ci c holds
  have sent : Content (state.edit ci fun client =>
      { client with
        tx := (state.clients ci).queued ++ data ++
          (state.clients ci).tx.drop ((state.clients ci).txLen + data.length)
        txLen := (state.clients ci).txLen + data.length })
      (server.edit c fun client => { client with tx := client.tx ++ data }) := by
    apply content.edit holds rfl
    refine { mirror with tx := ?_ }
    rw [← mirror.tx]
    apply CRelay.Client.queued_front rfl
    rw [List.length_append, CRelay.Client.queued_length]
  unfold CRelay.State.clientSend Server.send
  simp only
  rw [if_neg (Nat.not_lt.mpr room), sender, conn_of_holds holds]
  exact sent.note (.append src' c data)

end Content

end DragsterNet.Refine
