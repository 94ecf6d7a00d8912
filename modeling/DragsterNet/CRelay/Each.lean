/-
Module: DragsterNet.CRelay.Each
Purpose: What the functions of the C relay do to every client, for any relation
  that the elementary updates keep.
Trusted boundary: none
Main exports: Gentle, State.Each, State.each_handle, State.each_flush,
  State.each_sweepAt
-/
import DragsterNet.CRelay.Partner

namespace DragsterNet.CRelay

open Lib Relay

/-- A relation that holds from before to after whatever the relay does to a
client, but for accepting it, freeing it and receiving. -/
structure Gentle (R : Client → Client → Prop) : Prop where
  refl : ∀ client, R client client
  trans : ∀ {one two three : Client}, R one two → R two three → R one three
  tx : ∀ client tx txLen, R client { client with tx := tx, txLen := txLen }
  tv : ∀ client tv, R client { client with tv := tv }
  name : ∀ client name, R client { client with name := name, hasName := true }
  alone : ∀ client, R client { client with partner := none }
  linked : ∀ client partner role linked,
    R client { client with partner := partner, role := role, linked := linked }
  fresh : ∀ client crc, R client { client with crc := crc }
  logged : ∀ client lap tick crc,
    R client { client with lap := lap, haveLastTick := true, lastTick := tick, crc := crc }
  dead : ∀ client, R client { client with dead := true }
  closed : ∀ client, R client { client with fd := none }

namespace State

/-- The relation, from before to after, for every slot; no bad frame has been
counted, and no connection has come. -/
structure Each (R : Client → Client → Prop) (state after : State) : Prop where
  clients : ∀ ci, R (state.clients ci) (after.clients ci)
  bad : after.stats.badFrames = state.stats.badFrames
  conns : after.conns = state.conns

variable {oracle : Oracle} {state after : State} {ci host guest : Slot}
  {change : Client → Client} {R : Client → Client → Prop} {payload : Bytes}

theorem Each.congr {later : State} (each : Each R state after)
    (clients : later.clients = after.clients) (stats : later.stats = after.stats)
    (conns : later.conns = after.conns) : Each R state later := by
  refine ⟨?_, ?_, conns.trans each.conns⟩
  · rw [clients]
    exact each.clients
  · rw [stats]
    exact each.bad

theorem Each.log {line : Line} (each : Each R state after) : Each R state (after.log line) :=
  each.congr rfl rfl rfl

theorem Each.count {change : Counters → Counters} (each : Each R state after)
    (bad : (change after.stats).badFrames = after.stats.badFrames) :
    Each R state (after.count change) :=
  ⟨each.clients, bad.trans each.bad, each.conns⟩

theorem Each.lobbyUpdateCount (each : Each R state after) :
    Each R state (lobbyUpdateCount oracle after) := by
  unfold State.lobbyUpdateCount
  split
  · exact each.congr rfl rfl rfl
  · exact each

variable (gentle : Gentle R)
include gentle

theorem each_rfl : Each R state state := ⟨fun _ => gentle.refl _, rfl, rfl⟩

theorem each_trans {middle : State} (one : Each R state middle) (two : Each R middle after) :
    Each R state after :=
  ⟨fun ci => gentle.trans (one.clients ci) (two.clients ci), two.bad.trans one.bad,
    two.conns.trans one.conns⟩

theorem each_edit (kept : R (state.clients ci) (change (state.clients ci))) :
    Each R state (state.edit ci change) := by
  refine ⟨?_, rfl, rfl⟩
  intro other
  by_cases here : other = ci
  · rw [here, edit_self]
    exact kept
  · rw [edit_of_ne here]
    exact gentle.refl _

theorem each_clientSend {src : Option Slot} {data : Bytes} :
    Each R state (state.clientSend src ci data) := by
  unfold clientSend
  simp only
  split
  · exact each_edit gentle (gentle.tx _ (state.clients ci).tx _)
  · have grown : Each R state (state.edit ci fun client =>
        { client with
          tx := client.queued ++ data ++ client.tx.drop (client.txLen + data.length)
          txLen := client.txLen + data.length }) := each_edit gentle (gentle.tx _ _ _)
    exact grown.congr rfl rfl rfl

theorem each_sendFrame {src : Option Slot} {ftype : Byte} :
    Each R state (state.sendFrame src ci ftype payload) := each_clientSend gentle

theorem each_leavePartner : Each R state (state.leavePartner ci) := by
  unfold leavePartner
  split
  · apply Each.log
    exact each_trans gentle (each_edit gentle (gentle.alone _)) (each_sendFrame gentle)
  · exact each_rfl gentle

theorem each_unregister : Each R state (state.unregister ci) := by
  unfold unregister
  split
  · unfold nameDelIfIs
    split
    · exact each_rfl gentle
    · split
      · exact each_rfl gentle
      · exact (each_rfl gentle).congr rfl rfl rfl
  · exact each_rfl gentle

theorem each_closeSlot : Each R state (state.closeSlot ci) := by
  unfold closeSlot
  cases (state.clients ci).fd with
  | none => exact (each_rfl gentle).congr rfl rfl rfl
  | some fd =>
      have closed : Each R state (state.edit ci fun client => { client with fd := none }) :=
        each_edit gentle (gentle.closed _)
      exact closed.congr rfl rfl rfl

theorem each_farewell : Each R state (state.farewell ci) := by
  unfold farewell
  split
  · exact (each_rfl gentle).log
  · exact each_rfl gentle

/-- What `drop` does to a client once it is marked as dead. -/
theorem each_depart : Each R state (State.lobbyUpdateCount oracle
    ((((state.unregister ci).leavePartner ci).closeSlot ci).farewell ci)) := by
  have unregistered := @each_unregister state ci _ gentle
  have left := each_trans gentle unregistered (@each_leavePartner _ ci _ gentle)
  have closed := each_trans gentle left (@each_closeSlot _ ci _ gentle)
  apply Each.lobbyUpdateCount
  exact each_trans gentle closed (each_farewell gentle)

theorem each_drop : Each R state (state.drop oracle ci) := by
  unfold drop
  split
  · exact each_rfl gentle
  · have marked : Each R state (state.edit ci fun client => { client with dead := true }) :=
      each_edit gentle (gentle.dead _)
    exact each_trans gentle marked (each_depart gentle)

theorem each_link : Each R state (state.link host guest) := by
  have hosted : Each R state (state.edit host fun client =>
      { client with
        partner := some guest, role := some 0,
        linked := some ((state.clients guest).holds, (state.clients guest).gen) }) :=
    each_edit gentle (gentle.linked _ _ _ _)
  have both := each_trans gentle hosted
    (@each_edit _ guest (fun client =>
      { client with
        partner := some host, role := some 1,
        linked := some ((state.clients host).holds, (state.clients host).gen) }) _ gentle
      (gentle.linked _ _ _ _))
  exact both.congr rfl rfl rfl

theorem each_startFrame {seed : BitVec 16} {role : Nat} :
    Each R state (startFrame oracle state seed role host guest) :=
  each_trans gentle (each_edit gentle (gentle.fresh _ [])) (each_sendFrame gentle)

theorem each_tryPair : Each R state (state.tryPair oracle ci) := by
  unfold tryPair
  split
  · exact each_rfl gentle
  · rename_i host _
    apply Each.lobbyUpdateCount
    apply Each.log
    refine Each.count ?_ rfl
    have linked : Each R state ({ state with seeds := state.seeds + 1 }.link host ci) := by
      have same : Each R state { state with seeds := state.seeds + 1 } :=
        (each_rfl gentle).congr rfl rfl rfl
      exact each_trans gentle same (each_link gentle)
    exact each_trans gentle linked
      (each_trans gentle (each_startFrame gentle) (each_startFrame gentle))

theorem each_noteTv : Each R state (state.noteTv ci payload) := by
  unfold noteTv
  split
  · exact each_rfl gentle
  · exact each_edit gentle (gentle.tv _ _)

theorem each_register {name : Bytes} {tv : Byte} {drawn : Nat} :
    Each R state (state.register oracle ci name tv drawn) := by
  have named : Each R state (state.edit ci fun client =>
      { client with name := name, hasName := true }) := each_edit gentle (gentle.name _ _)
  have entered : ∀ state : State, (state.nameSet name ci).clients = state.clients ∧
      (state.nameSet name ci).stats = state.stats ∧
      (state.nameSet name ci).conns = state.conns := by
    intro state
    unfold nameSet
    simp only
    split <;> exact ⟨rfl, rfl, rfl⟩
  unfold register
  simp only
  apply Each.lobbyUpdateCount
  exact named.congr (entered _).1 (entered _).2.1 (entered _).2.2

theorem each_onHello : Each R state (state.onHello oracle ci payload) := by
  unfold onHello
  simp only
  split
  · exact each_trans gentle (each_noteTv gentle).log (each_drop gentle)
  · split
    · have drawn : Each R state
          { state.noteTv ci payload with
            digits := (state.noteTv ci payload).digits + nameGuard } :=
        (each_noteTv gentle).congr rfl rfl rfl
      exact each_trans gentle drawn.log (each_drop gentle)
    · exact each_trans gentle (each_noteTv gentle)
        (each_trans gentle (each_register gentle) (each_tryPair gentle))

theorem each_logCrc : Each R state (state.logCrc ci payload) := by
  unfold logCrc
  simp only
  split
  · exact each_trans gentle (each_edit gentle (gentle.logged _ _ _ _))
      (each_edit gentle (gentle.fresh _ _))
  · have compared : ∀ {state : State} {partner : Slot} {index : Nat},
        Each R state (state.edit partner fun client =>
          { client with crc := client.crc.eraseIdx index }) :=
      each_edit gentle (gentle.fresh _ _)
    split
    · refine Each.log (Each.count ?_ rfl)
      exact each_trans gentle (each_edit gentle (gentle.logged _ _ _ _)) compared
    · refine Each.count ?_ rfl
      exact each_trans gentle (each_edit gentle (gentle.logged _ _ _ _)) compared

theorem each_forward {ftype : Byte} : Each R state (state.forward ci ftype payload) := by
  unfold forward
  split
  · exact each_rfl gentle
  · exact each_sendFrame gentle

theorem each_handle {ftype : Byte} :
    Each R state (state.handle oracle ci ftype payload) := by
  unfold handle
  split
  · simp only
    split
    · exact each_trans gentle (each_forward gentle) (each_logCrc gentle)
    · exact each_forward gentle
  split
  · exact each_onHello gentle
  split
  · exact each_sendFrame gentle
  split
  · exact each_tryPair gentle
  split
  · exact each_sendFrame gentle
  split
  · exact each_drop gentle
  · exact (each_rfl gentle).log

theorem each_checkBacklog : Each R state (state.checkBacklog oracle ci) := by
  unfold checkBacklog
  simp only
  split
  · exact each_trans gentle (Each.log (Each.count (each_rfl gentle) rfl)) (each_drop gentle)
  · exact each_rfl gentle

theorem each_flush {sent : Relay.Sent} : Each R state (state.flush oracle ci sent) := by
  unfold flush
  split
  · exact each_rfl gentle
  split
  · exact each_drop gentle
  split
  · exact each_drop gentle
  · exact each_checkBacklog gentle
  · rename_i count
    have taken : Each R state (state.edit ci fun client => consumeTx client count) :=
      each_edit gentle (gentle.tx _ _ _)
    have noted : ∀ seen, Each R state ((state.edit ci fun client =>
        consumeTx client count).note seen) := fun seen => taken.congr rfl rfl rfl
    exact each_trans gentle (noted _) (each_checkBacklog gentle)

theorem each_writable {write : Option Relay.Sent} :
    Each R state (state.writable oracle ci write) := by
  unfold writable
  split
  · split
    · exact each_rfl gentle
    · exact each_flush gentle
  · exact each_rfl gentle

theorem each_expire {now : Time} : Each R state (expire oracle now state ci) := by
  unfold expire
  simp only
  split
  · exact each_trans gentle (Each.count (each_rfl gentle) rfl) (each_drop gentle)
  · exact each_rfl gentle

theorem each_sweepAt {now : Time} : Each R state (state.sweepAt oracle now) := by
  have swept : ∀ (order : List Slot) (state : State),
      Each R state (order.foldl (expire oracle now) state) := by
    intro order
    induction order with
    | nil => exact fun state => each_rfl gentle
    | cons slot rest inductionHypothesis =>
        exact fun state => each_trans gentle (each_expire gentle) (inductionHypothesis _)
  unfold sweepAt
  split
  · exact (swept _ _).congr rfl rfl rfl
  · exact each_rfl gentle

end State

end DragsterNet.CRelay
