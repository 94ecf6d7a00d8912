/-
Module: DragsterNet.CRelay.Partner
Purpose: What every function of the C relay does to the slots, and when a slot
  index names the connection it was made for.
Trusted boundary: none
Main exports: State.Stays, State.Moved, State.Sound, Loop.Orderly,
  Loop.partner_names_connection
-/
import DragsterNet.CRelay.Board
import DragsterNet.CRelay.Main

namespace DragsterNet.CRelay

open Lib Relay

def Client.face (client : Client) : Face :=
  ⟨client.inUse, client.dead, client.gen, client.holds, client.linked, client.partner,
    client.role⟩

namespace State

variable {oracle : Oracle} {state after : State} {ci other host guest : Slot}
  {change : Client → Client}

def board (state : State) : Board := fun ci => (state.clients ci).face

theorem edit_self : (state.edit ci change).clients ci = change (state.clients ci) :=
  Function.update_self ..

theorem edit_of_ne (apart : other ≠ ci) :
    (state.edit ci change).clients other = state.clients other :=
  Function.update_of_ne apart ..

/-- An edit is an update of the board. -/
theorem board_edit {face : Face} (changed : (change (state.clients ci)).face = face) :
    (state.edit ci change).board = Function.update state.board ci face := by
  funext other
  unfold board
  by_cases here : other = ci
  · subst here
    rw [edit_self, Function.update_self, changed]
  · rw [edit_of_ne here, Function.update_of_ne here]

theorem board_edit_same (keeps : (change (state.clients ci)).face = (state.clients ci).face) :
    (state.edit ci change).board = state.board := by
  rw [board_edit keeps]
  exact Function.update_eq_self ci state.board

theorem board_note {seen : Seen} : (state.note seen).board = state.board := rfl

theorem board_log {line : Line} : (state.log line).board = state.board := rfl

theorem board_clientSend {src : Option Slot} {dst : Slot} {data : Bytes} :
    (state.clientSend src dst data).board = state.board := by
  unfold clientSend
  simp only
  split
  · exact board_edit_same rfl
  · rw [board_note]
    exact board_edit_same rfl

theorem conn_board (same : after.board = state.board) : after.conn = state.conn :=
  congrArg Board.conn same

/-! ### What is said -/

/-- What has been appended in the name of a client, between `before` and
`after`, went from `ci` to its partner. -/
def Relays (state : State) (ci : Slot) (before after : State) : Prop :=
  ∃ more, after.seen = before.seen ++ more ∧
    ∀ src dst data, Seen.append (some src) dst data ∈ more →
      ∃ partner, (state.board ci).partner = some partner ∧ src = state.conn ci ∧
        dst = state.conn partner

variable {before : State}

theorem relays_same (seen : after.seen = before.seen) : Relays state ci before after :=
  ⟨[], by rw [seen, List.append_nil], fun _ _ _ member => absurd member List.not_mem_nil⟩

theorem relays_note {seen : Seen}
    (silent : ∀ src dst data, Seen.append (some src) dst data ≠ seen) :
    Relays state ci before (before.note seen) :=
  ⟨[seen], rfl, fun src dst data member =>
    absurd (List.mem_singleton.mp member) (silent src dst data)⟩

theorem relays_log {line : Line} : Relays state ci before (before.log line) :=
  relays_note fun _ _ _ => Seen.noConfusion

theorem relays_lobbyUpdateCount :
    Relays state ci before (lobbyUpdateCount oracle before) := by
  unfold lobbyUpdateCount
  split
  · exact relays_note fun _ _ _ => Seen.noConfusion
  · exact relays_same rfl

theorem Relays.trans {middle : State} (one : Relays state ci before middle)
    (two : Relays state ci middle after) : Relays state ci before after := by
  obtain ⟨more, isMore, relayed⟩ := one
  obtain ⟨more', isMore', relayed'⟩ := two
  refine ⟨more ++ more', ?_, ?_⟩
  · rw [isMore', isMore, List.append_assoc]
  · intro src dst data member
    rcases List.mem_append.mp member with early | late
    · exact relayed src dst data early
    · exact relayed' src dst data late

theorem Relays.congr {later : State} (relays : Relays later ci before after)
    (partner : (later.board ci).partner = (state.board ci).partner)
    (conn : later.conn = state.conn) : Relays state ci before after := by
  unfold Relays at relays ⊢
  rw [partner, conn] at relays
  exact relays

theorem clientSend_seen {src : Option Slot} {dst : Slot} {data : Bytes} :
    ∃ more, (state.clientSend src dst data).seen = state.seen ++ more ∧
      ∀ src' dst' data', Seen.append (some src') dst' data' ∈ more →
        some src' = src.map state.conn ∧ dst' = state.conn dst := by
  unfold clientSend
  simp only
  split
  · exact ⟨[], (List.append_nil _).symm, fun _ _ _ member => absurd member List.not_mem_nil⟩
  · refine ⟨[_], rfl, ?_⟩
    intro src' dst' data' member
    obtain ⟨isSrc, isDst, -⟩ := Seen.append.inj (List.mem_singleton.mp member)
    exact ⟨isSrc, isDst⟩

/-- The relay's own frames. -/
theorem relays_send {dst : Slot} {data : Bytes} :
    Relays state ci before (before.clientSend none dst data) := by
  obtain ⟨more, isMore, appended⟩ := @clientSend_seen before none dst data
  refine ⟨more, isMore, ?_⟩
  intro src' dst' data' member
  cases (appended src' dst' data' member).1

/-- A frame of `ci` for its partner. -/
theorem relays_relay {dst : Slot} {data : Bytes}
    (isPartner : (state.board ci).partner = some dst) (conn : before.conn = state.conn) :
    Relays state ci before (before.clientSend (some ci) dst data) := by
  obtain ⟨more, isMore, appended⟩ := @clientSend_seen before (some ci) dst data
  rw [conn] at appended
  refine ⟨more, isMore, ?_⟩
  intro src' dst' data' member
  obtain ⟨isSrc, isDst⟩ := appended src' dst' data' member
  exact ⟨dst, isPartner, Option.some.inj isSrc, isDst⟩

/-! ### Work that leaves the slots alone -/

/-- The slots and their order are as before. -/
structure Stays (ci : Slot) (state after : State) : Prop where
  order : after.order = state.order
  board : after.board = state.board
  relays : Relays state ci state after

theorem stays_self : Stays ci state state := ⟨rfl, rfl, relays_same rfl⟩

theorem Stays.trans {middle : State} (one : Stays ci state middle)
    (two : Stays ci middle after) : Stays ci state after where
  order := two.order.trans one.order
  board := two.board.trans one.board
  relays := one.relays.trans (two.relays.congr (by rw [one.board]) (conn_board one.board))

theorem Stays.congr {later : State} (stays : Stays ci state after)
    (order : later.order = after.order) (clients : later.clients = after.clients)
    (seen : later.seen = after.seen) : Stays ci state later where
  order := order.trans stays.order
  board := by
    rw [← stays.board]
    funext slot
    exact congrArg Client.face (congrFun clients slot)
  relays := stays.relays.trans (relays_same seen)

theorem Stays.edit {slot : Slot} (stays : Stays ci state after)
    (keeps : (change (after.clients slot)).face = (after.clients slot).face) :
    Stays ci state (after.edit slot change) :=
  ⟨stays.order, (board_edit_same keeps).trans stays.board, stays.relays⟩

theorem Stays.log {line : Line} (stays : Stays ci state after) :
    Stays ci state (after.log line) :=
  ⟨stays.order, stays.board, stays.relays.trans relays_log⟩

theorem Stays.count {change : Counters → Counters} (stays : Stays ci state after) :
    Stays ci state (after.count change) :=
  stays.congr rfl rfl rfl

theorem order_lobbyUpdateCount : (lobbyUpdateCount oracle state).order = state.order := by
  unfold lobbyUpdateCount
  split <;> rfl

theorem board_lobbyUpdateCount : (lobbyUpdateCount oracle state).board = state.board := by
  unfold lobbyUpdateCount
  split <;> rfl

theorem Stays.lobbyUpdateCount (stays : Stays ci state after) :
    Stays ci state (lobbyUpdateCount oracle after) :=
  ⟨order_lobbyUpdateCount.trans stays.order, board_lobbyUpdateCount.trans stays.board,
    stays.relays.trans relays_lobbyUpdateCount⟩

theorem order_clientSend {src : Option Slot} {dst : Slot} {data : Bytes} :
    (state.clientSend src dst data).order = state.order := by
  unfold clientSend
  simp only
  split <;> rfl

theorem Stays.send {dst : Slot} {data : Bytes} (stays : Stays ci state after) :
    Stays ci state (after.clientSend none dst data) :=
  ⟨order_clientSend.trans stays.order, board_clientSend.trans stays.board,
    stays.relays.trans relays_send⟩

/-! ### Leaving -/

theorem unregister_cases :
    (state.unregister ci).order = state.order ∧ (state.unregister ci).board = state.board ∧
      (state.unregister ci).seen = state.seen := by
  unfold unregister
  split
  · unfold nameDelIfIs
    split
    · exact ⟨rfl, rfl, rfl⟩
    · split <;> exact ⟨rfl, rfl, rfl⟩
  · exact ⟨rfl, rfl, rfl⟩

theorem farewell_cases :
    (before.farewell ci).order = before.order ∧ (before.farewell ci).board = before.board ∧
      Relays state ci before (before.farewell ci) := by
  unfold farewell
  split
  · exact ⟨rfl, rfl, relays_log⟩
  · exact ⟨rfl, rfl, relays_same rfl⟩

/-- The link back is cleared, and the partner is told in the name of `ci`. -/
theorem leavePartner_cases :
    (state.leavePartner ci).order = state.order ∧
      (state.leavePartner ci).board =
        (match (state.board ci).partner with
        | some partner =>
            Function.update state.board partner { state.board partner with partner := none }
        | none => state.board) ∧
      Relays state ci state (state.leavePartner ci) := by
  unfold leavePartner
  cases isPartner : (state.clients ci).partner with
  | none =>
      have isPartner' : (state.board ci).partner = none := isPartner
      rw [isPartner']
      exact ⟨rfl, rfl, relays_same rfl⟩
  | some partner =>
      have isPartner' : (state.board ci).partner = some partner := isPartner
      rw [isPartner']
      simp only
      have board : (state.edit partner fun client => { client with partner := none }).board =
          Function.update state.board partner
            { state.board partner with partner := none } := board_edit rfl
      have conn : (state.edit partner fun client => { client with partner := none }).conn =
          state.conn := by
        have tenants : Board.SameTenants state.board (Function.update state.board partner
            { state.board partner with partner := none }) :=
          Board.sameTenants_update rfl rfl rfl
        rw [← board] at tenants
        exact funext fun _ => tenants.conn
      refine ⟨order_clientSend, ?_, ?_⟩
      · rw [board_log, sendFrame, board_clientSend]
        exact board
      · have edited : Relays state ci state
            (state.edit partner fun client => { client with partner := none }) :=
          relays_same rfl
        exact edited.trans ((relays_relay isPartner' conn).trans relays_log)

theorem closeSlot_cases :
    (before.closeSlot ci).order = before.order.erase ci ∧
      (before.closeSlot ci).board = before.board ∧
      Relays state ci before (before.closeSlot ci) := by
  unfold closeSlot
  cases (before.clients ci).fd with
  | none => exact ⟨rfl, rfl, relays_same rfl⟩
  | some fd =>
      refine ⟨rfl, ?_, ?_⟩
      · exact @board_edit_same
          ({ before with watched := Function.update before.watched fd none }.note (.close fd))
          ci (fun client => { client with fd := none }) rfl
      · exact ⟨[.close fd], rfl, fun src dst data member =>
          Seen.noConfusion (List.mem_singleton.mp member)⟩

/-- What dropping a client does that has not been dropped. -/
theorem drop_alive (alive : (state.clients ci).dead = false) :
    (state.drop oracle ci).order = state.order.erase ci ∧
      (state.drop oracle ci).board = state.board.leave ci ∧
      Relays state ci state (state.drop oracle ci) := by
  have marked : (state.edit ci fun client => { client with dead := true }).board =
      state.board.mark ci := board_edit rfl
  obtain ⟨gone, isGone⟩ : ∃ gone : State,
      (state.edit ci fun client => { client with dead := true }).unregister ci = gone :=
    ⟨_, rfl⟩
  obtain ⟨order, unregistered, unheard⟩ :=
    @unregister_cases (state.edit ci fun client => { client with dead := true }) ci
  rw [isGone] at order unregistered unheard
  have board : gone.board = state.board.mark ci := unregistered.trans marked
  have partner : (gone.board ci).partner = (state.board ci).partner := by
    rw [board, Board.mark, Function.update_self]
  have conn : gone.conn = state.conn := by
    have tenants : Board.SameTenants state.board (state.board.mark ci) :=
      Board.sameTenants_update rfl rfl rfl
    rw [← board] at tenants
    exact funext fun _ => tenants.conn
  obtain ⟨order', left, told⟩ := @leavePartner_cases gone ci
  obtain ⟨closedOrder, closed, quiet⟩ := @closeSlot_cases state ci (gone.leavePartner ci)
  obtain ⟨lastOrder, leaves, goodbye⟩ :=
    @farewell_cases state ci ((gone.leavePartner ci).closeSlot ci)
  have drop : state.drop oracle ci = lobbyUpdateCount oracle
      (((gone.leavePartner ci).closeSlot ci).farewell ci) := by
    unfold State.drop
    rw [alive]
    simp only [Bool.false_eq_true, ↓reduceIte, isGone]
  rw [drop]
  refine ⟨?_, ?_, ?_⟩
  · rw [order_lobbyUpdateCount, lastOrder, closedOrder, order', order]
    rfl
  · rw [board_lobbyUpdateCount, leaves, closed, left, partner, board]
    rfl
  · have early : Relays state ci state gone := relays_same unheard
    exact early.trans ((told.congr partner conn).trans
      (quiet.trans (goodbye.trans relays_lobbyUpdateCount)))

/-! ### Waiting consoles -/

/-- A client that may be chosen. -/
def Eligible (state : State) (ci other : Slot) : Prop :=
  other ≠ ci ∧ (state.clients other).hasName = true ∧ (state.clients other).partner = none

theorem older_cases {best : Option Slot} {chosen : Slot}
    (turn : state.older ci best other = some chosen) :
    best = some chosen ∨ chosen = other ∧ Eligible state ci other := by
  unfold older at turn
  split at turn
  · exact Or.inl turn
  · rename_i eligible
    rw [not_or, not_or, Bool.not_eq_false, Bool.not_eq_true, Option.isSome_eq_false_iff,
      Option.isNone_iff_eq_none] at eligible
    cases best with
    | none => exact Or.inr ⟨(Option.some.inj turn).symm, eligible⟩
    | some first =>
        simp only at turn
        split at turn
        · exact Or.inr ⟨(Option.some.inj turn).symm, eligible⟩
        · exact Or.inl turn

theorem waiting_cases (found : state.waiting ci = some host) :
    host ∈ state.order ∧ Eligible state ci host := by
  have searched : ∀ (slots : List Slot) (best : Option Slot),
      slots.foldl (state.older ci) best = some host →
      best = some host ∨ host ∈ slots ∧ Eligible state ci host := by
    intro slots
    induction slots with
    | nil => exact fun best done => Or.inl done
    | cons slot rest inductionHypothesis =>
        intro best done
        rcases inductionHypothesis _ done with turn | ⟨member, eligible⟩
        · rcases older_cases turn with already | ⟨rfl, eligible⟩
          · exact Or.inl already
          · exact Or.inr ⟨List.mem_cons_self, eligible⟩
        · exact Or.inr ⟨List.mem_cons_of_mem _ member, eligible⟩
  rcases searched state.order none found with absurd | chosen
  · cases absurd
  · exact chosen

/-- Who waits depends on the clients other than the caller, and on the times of
acceptance. -/
theorem waiting_congr (order : after.order = state.order)
    (born : ∀ other, (after.clients other).born = (state.clients other).born)
    (others : ∀ other, other ≠ ci → after.clients other = state.clients other) :
    after.waiting ci = state.waiting ci := by
  have same : after.older ci = state.older ci := by
    funext best other
    unfold older
    by_cases here : other = ci
    · simp [here]
    · simp only [others other here, born]
  unfold waiting
  rw [order, same]

theorem waiting_edit (born : (change (state.clients ci)).born = (state.clients ci).born) :
    (state.edit ci change).waiting ci = state.waiting ci := by
  apply waiting_congr
  · rfl
  · intro other
    by_cases here : other = ci
    · rw [here, edit_self, born]
    · rw [edit_of_ne here]
  · intro other apart
    exact edit_of_ne apart

/-! ### What a dispatch does to the slots -/

/-- The frame at the head of a client's receive buffer. -/
def pending (state : State) (ci : Slot) : Option Bytes :=
  match readFrame (state.clients ci).rx with
  | .whole body _ => some body
  | .short => none
  | .bad _ => none

/-- What `on_hello` registers: the payload is valid, and a free name is found in
time. -/
def admits (oracle : Oracle) (state : State) (payload : Bytes) : Bool :=
  match readHello payload with
  | .error _ => false
  | .ok (_, name) =>
      (freeName state.nameTaken (nextDigit oracle) nameGuard state.digits name).toOption.isSome

/-- The frames that get as far as `try_pair`. -/
def callsPairing (oracle : Oracle) (state : State) (body : Bytes) : Bool :=
  body.headD 0 = tJoin ∨ body.headD 0 = tHello ∧ state.admits oracle body.tail

/-- The ways a piece of work for `ci` changes the slots; `calls` holds of the
work that gets as far as `try_pair`. -/
inductive Moved (calls : Prop) (ci : Slot) (state after : State) : Prop where
  | stays (stays : Stays ci state after)
  | drops (alive : (state.board ci).dead = false) (order : after.order = state.order.erase ci)
      (board : after.board = state.board.leave ci) (relays : Relays state ci state after)
  | pairs (called : calls) (host : Slot) (found : state.waiting ci = some host)
      (order : after.order = state.order) (board : after.board = state.board.link host ci)
      (middle : State) (early : Relays state ci state middle) (late : Relays after ci middle after)
      (met : Seen.paired (state.conn host) (state.conn ci) ∈ after.seen)

variable {calls : Prop}

/-- Work that leaves the slots alone may come first. -/
theorem Moved.after_stays {middle : State} (stays : Stays ci state middle)
    (waits : middle.waiting ci = state.waiting ci) (moved : Moved calls ci middle after) :
    Moved calls ci state after := by
  cases moved with
  | stays more => exact .stays (stays.trans more)
  | drops alive order board relays =>
      rw [stays.board] at alive board
      rw [stays.order] at order
      exact .drops alive order board
        (stays.relays.trans (relays.congr (by rw [stays.board]) (conn_board stays.board)))
  | pairs called host found order board between early late met =>
      rw [waits] at found
      rw [stays.order] at order
      rw [stays.board] at board
      rw [conn_board stays.board] at met
      exact .pairs called host found order board between
        (stays.relays.trans (early.congr (by rw [stays.board]) (conn_board stays.board)))
        late met

theorem drop_moved : Moved calls ci state (state.drop oracle ci) := by
  cases alive : (state.clients ci).dead with
  | false =>
      obtain ⟨order, board, relays⟩ := @drop_alive oracle state ci alive
      exact .drops alive order board relays
  | true =>
      unfold drop
      rw [alive]
      exact .stays stays_self

theorem board_link :
    (state.link host guest).board = state.board.link host guest := by
  unfold link
  simp only
  rw [board_note]
  have hosted : (state.edit host fun client =>
      { client with
        partner := some guest, role := some 0
        linked := some ((state.clients guest).holds, (state.clients guest).gen) }).board =
      state.board.host host guest := board_edit rfl
  have face : ((state.edit host fun client =>
      { client with
        partner := some guest, role := some 0
        linked := some ((state.clients guest).holds, (state.clients guest).gen) }).clients
          guest).face = state.board.host host guest guest := congrFun hosted guest
  rw [Board.link, ← hosted]
  apply board_edit
  rw [hosted, ← face]
  rfl

theorem startFrame_stays {seed : BitVec 16} {role : Nat} {me them : Slot} :
    Stays ci state (startFrame oracle state seed role me them) := by
  unfold startFrame
  exact Stays.send (stays_self.edit rfl)

theorem tryPair_moved (called : calls) : Moved calls ci state (state.tryPair oracle ci) := by
  unfold tryPair
  cases found : state.waiting ci with
  | none => exact .stays stays_self
  | some host =>
      have board : ({ state with seeds := state.seeds + 1 }.link host ci).board =
          state.board.link host ci := board_link
      have seen : ({ state with seeds := state.seeds + 1 }.link host ci).seen =
          state.seen ++ [.paired (state.conn host) (state.conn ci)] := rfl
      have order : ({ state with seeds := state.seeds + 1 }.link host ci).order = state.order :=
        rfl
      simp only
      generalize { state with seeds := state.seeds + 1 }.link host ci = linked at board seen order ⊢
      have started : Stays ci linked (startFrame oracle (startFrame oracle linked
          (oracle.seed state.seeds) 0 host ci) (oracle.seed state.seeds) 1 ci host) :=
        startFrame_stays.trans startFrame_stays
      suffices finish : ∀ last, Stays ci linked last → Moved calls ci state last from
        finish _ started.count.log.lobbyUpdateCount
      intro last stays
      refine .pairs called host found (stays.order.trans order) (stays.board.trans board)
        linked ?_ ?_ ?_
      · exact ⟨_, seen, fun src dst data member =>
          Seen.noConfusion (List.mem_singleton.mp member)⟩
      · exact stays.relays.congr (by rw [stays.board]) (conn_board stays.board).symm
      · obtain ⟨more, isMore, -⟩ := stays.relays
        rw [isMore, seen]
        exact List.mem_append_left _ (List.mem_append_right _ (List.mem_singleton.mpr rfl))

theorem noteTv_stays {payload : Bytes} : Stays ci state (state.noteTv ci payload) := by
  unfold noteTv
  split
  · exact stays_self
  · exact stays_self.edit rfl

theorem waiting_noteTv {payload : Bytes} :
    (state.noteTv ci payload).waiting ci = state.waiting ci := by
  unfold noteTv
  split
  · rfl
  · exact waiting_edit rfl

theorem nameSet_cases {name : Bytes} :
    (state.nameSet name ci).order = state.order ∧
      (state.nameSet name ci).clients = state.clients ∧
      (state.nameSet name ci).seen = state.seen := by
  unfold nameSet
  simp only
  split <;> exact ⟨rfl, rfl, rfl⟩

theorem register_stays {name : Bytes} {tv : Byte} {drawn : Nat} :
    Stays ci state (state.register oracle ci name tv drawn) := by
  have named : Stays ci state
      (state.edit ci fun client => { client with name := name, hasName := true }) :=
    stays_self.edit rfl
  obtain ⟨order, clients, seen⟩ := @nameSet_cases
    (state.edit ci fun client => { client with name := name, hasName := true }) ci name
  unfold register
  apply Stays.lobbyUpdateCount
  apply Stays.log
  exact named.congr order clients seen

theorem clients_register {name : Bytes} {tv : Byte} {drawn : Nat} :
    (state.register oracle ci name tv drawn).clients =
      (state.edit ci fun client => { client with name := name, hasName := true }).clients := by
  obtain ⟨-, clients, -⟩ := @nameSet_cases
    (state.edit ci fun client => { client with name := name, hasName := true }) ci name
  rw [← clients]
  unfold register State.lobbyUpdateCount
  split <;> rfl

theorem waiting_register {name : Bytes} {tv : Byte} {drawn : Nat} :
    (state.register oracle ci name tv drawn).waiting ci = state.waiting ci := by
  apply waiting_congr register_stays.order
  · intro other
    rw [clients_register]
    by_cases here : other = ci
    · rw [here, edit_self]
    · rw [edit_of_ne here]
  · intro other apart
    rw [clients_register, edit_of_ne apart]

theorem names_noteTv {payload : Bytes} :
    (state.noteTv ci payload).byName = state.byName ∧
      (state.noteTv ci payload).digits = state.digits := by
  unfold noteTv
  split <;> exact ⟨rfl, rfl⟩

theorem onHello_moved {payload : Bytes} (called : state.admits oracle payload = true → calls) :
    Moved calls ci state (state.onHello oracle ci payload) := by
  unfold onHello
  simp only
  cases read : readHello payload with
  | error refusal => exact .after_stays noteTv_stays.log waiting_noteTv drop_moved
  | ok hello =>
      obtain ⟨tv, asked⟩ := hello
      simp only
      have taken : (state.noteTv ci payload).nameTaken = state.nameTaken := by
        unfold nameTaken
        rw [names_noteTv.1]
      rw [taken, names_noteTv.2]
      cases found : freeName state.nameTaken (nextDigit oracle) nameGuard state.digits asked with
      | error last =>
          have refused : Stays ci state (({ state.noteTv ci payload with
              digits := state.digits + nameGuard }.log
                (.noName ((state.noteTv ci payload).clients ci).ip last))) :=
            Stays.log (noteTv_stays.congr rfl rfl rfl)
          simp only
          refine .after_stays refused ?_ drop_moved
          rw [← @waiting_noteTv state ci payload]
          exact waiting_congr rfl (fun _ => rfl) fun _ _ => rfl
      | ok free =>
          obtain ⟨name, drawn⟩ := free
          refine .after_stays (noteTv_stays.trans register_stays)
            (waiting_register.trans waiting_noteTv) (tryPair_moved (called ?_))
          unfold admits
          rw [read]
          simp only
          rw [found]
          rfl

theorem logCrc_stays {payload : Bytes} : Stays ci state (state.logCrc ci payload) := by
  unfold logCrc
  simp only
  split
  · exact (stays_self.edit rfl).edit rfl
  · split
    · exact ((stays_self.edit rfl).edit rfl).count.log
    · exact ((stays_self.edit rfl).edit rfl).count

theorem forward_stays {ftype : Byte} {payload : Bytes} :
    Stays ci state (state.forward ci ftype payload) := by
  unfold forward
  split
  · exact stays_self
  · rename_i partner isPartner
    exact ⟨order_clientSend, board_clientSend, relays_relay isPartner rfl⟩

theorem handle_moved {body : Bytes} (called : state.callsPairing oracle body = true → calls) :
    Moved calls ci state (state.handle oracle ci (body.headD 0) body.tail) := by
  unfold handle
  split
  · simp only
    split
    · exact .stays (forward_stays.trans logCrc_stays)
    · exact .stays forward_stays
  · split
    · rename_i isHello
      apply onHello_moved
      intro admitted
      exact called (decide_eq_true (Or.inr ⟨isHello, admitted⟩))
    · split
      · exact .stays stays_self.send
      · split
        · rename_i isJoin
          exact tryPair_moved (called (decide_eq_true (Or.inl isJoin)))
        · split
          · exact .stays stays_self.send
          · split
            · exact drop_moved
            · exact .stays stays_self.log

theorem serviceOnce_moved :
    Moved (∃ body, state.pending ci = some body ∧ state.callsPairing oracle body = true)
      ci state (state.serviceOnce oracle ci).1 := by
  unfold serviceOnce
  cases read : readFrame (state.clients ci).rx with
  | short => exact .stays stays_self
  | bad length => exact .after_stays stays_self.count.log rfl drop_moved
  | whole body rest =>
      have isPending : state.pending ci = some body := by
        rw [pending, read]
      refine .after_stays (stays_self.edit rfl) (waiting_edit rfl) (handle_moved ?_)
      intro pairs
      exact ⟨body, isPending, pairs⟩

/-! ### The invariant -/

/-- The order lists the slots that are in use and not dead, each once. -/
structure Tidy (state : State) : Prop where
  nodup : state.order.Nodup
  mem_iff : ∀ ci, ci ∈ state.order ↔ state.board.floor.present ci

/-- The two connections have been made a match, in one order or the other. -/
def Met (state : State) (one two : Conn) : Prop :=
  Seen.paired one two ∈ state.seen ∨ Seen.paired two one ∈ state.seen

/-- What is appended in a client's name goes to somebody it has met. -/
def Told (state : State) : Prop :=
  ∀ src dst data, Seen.append (some src) dst data ∈ state.seen → state.Met src dst

structure Sound (state : State) : Prop where
  tidy : state.Tidy
  paired : Floor.Paired 0 1 state.board.floor
  bound : state.board.Bound state.Met
  told : state.Told

theorem Met.mono {one two : Conn} {more : List Seen} (seen : after.seen = state.seen ++ more)
    (met : state.Met one two) : after.Met one two := by
  unfold Met at met ⊢
  rw [seen]
  exact met.imp (List.mem_append_left more) (List.mem_append_left more)

/-- New words are between connections that have met, if the speaker is bound. -/
theorem Relays.told {speaker : State} (relays : Relays speaker ci state after)
    (told : state.Told) (bound : speaker.board.Bound after.Met)
    (used : (speaker.board ci).inUse = true) : after.Told := by
  obtain ⟨more, isMore, relayed⟩ := relays
  intro src dst data member
  rw [isMore] at member
  rcases List.mem_append.mp member with early | late
  · exact (told src dst data early).mono isMore
  · obtain ⟨partner, isPartner, rfl, rfl⟩ := relayed src dst data late
    exact (bound ci partner used isPartner).2.2

theorem Relays.bound {speaker : State} (relays : Relays speaker ci state after)
    {board : Board} (bound : board.Bound state.Met) : board.Bound after.Met := by
  obtain ⟨more, isMore, -⟩ := relays
  exact bound.mono fun _ _ met => met.mono isMore

theorem Tidy.congr (tidy : state.Tidy) (order : after.order = state.order)
    (present : after.board.floor.present = state.board.floor.present) : after.Tidy where
  nodup := order ▸ tidy.nodup
  mem_iff := by
    rw [order, present]
    exact tidy.mem_iff

theorem Moved.tidy (moved : Moved calls ci state after) (tidy : state.Tidy) : after.Tidy := by
  cases moved with
  | stays stays =>
      apply tidy.congr stays.order
      rw [stays.board]
  | drops alive order board relays =>
      refine ⟨order ▸ tidy.nodup.erase ci, ?_⟩
      intro slot
      rw [order, board, Board.floor_leave, tidy.nodup.mem_erase_iff, tidy.mem_iff]
      exact and_comm
  | pairs called host found order board =>
      obtain ⟨-, apart, -, -⟩ := waiting_cases found
      apply tidy.congr order
      rw [board, Board.floor_link apart]
      rfl

theorem Moved.tenants (moved : Moved calls ci state after) :
    Board.SameTenants state.board after.board := by
  cases moved with
  | stays stays =>
      rw [stays.board]
      exact fun _ => ⟨rfl, rfl, rfl⟩
  | drops alive order board relays =>
      rw [board]
      exact Board.sameTenants_leave
  | pairs called host found order board =>
      rw [board]
      exact Board.sameTenants_link

/-- A console that may be paired: it has not been dropped and plays nobody. -/
def Free (state : State) (ci : Slot) : Prop :=
  (state.clients ci).dead = false ∧ (state.clients ci).partner = none

instance (state : State) (ci : Slot) : Decidable (state.Free ci) :=
  inferInstanceAs (Decidable (_ ∧ _))

theorem Moved.sound (moved : Moved calls ci state after)
    (free : calls → (state.waiting ci).isSome → state.Free ci)
    (used : (state.board ci).inUse = true) (sound : Sound state) : Sound after := by
  have tidy := moved.tidy sound.tidy
  cases moved with
  | stays stays =>
      have bound : state.board.Bound after.Met := stays.relays.bound sound.bound
      refine ⟨tidy, ?_, ?_, stays.relays.told sound.told bound used⟩
      · rw [stays.board]
        exact sound.paired
      · rw [stays.board]
        exact bound
  | drops alive order board relays =>
      have bound : state.board.Bound after.Met := relays.bound sound.bound
      refine ⟨tidy, ?_, ?_, relays.told sound.told bound used⟩
      · rw [board, Board.floor_leave]
        exact sound.paired.leave ⟨used, alive⟩
      · rw [board]
        exact bound.leave
  | pairs called host found order board middle early late met =>
      obtain ⟨member, apart, -, alone⟩ := waiting_cases found
      have present := (sound.tidy.mem_iff host).mp member
      obtain ⟨alive, unpaired⟩ := free called (by rw [found]; rfl)
      have conn : after.conn = state.conn := by
        have tenants : Board.SameTenants state.board (state.board.link host ci) :=
          Board.sameTenants_link
        rw [← board] at tenants
        exact funext fun _ => tenants.conn
      have bound : after.board.Bound after.Met := by
        rw [board]
        exact (late.bound (early.bound sound.bound)).link apart ⟨present.1, used⟩
          (Or.inl met) (Or.inr met)
      have used' : (after.board ci).inUse = true := by
        rw [board]
        exact (Board.sameTenants_link ci).1.trans used
      refine ⟨tidy, ?_, bound, ?_⟩
      · rw [board, Board.floor_link apart]
        exact sound.paired.pair apart ⟨present, used, alive⟩ ⟨rfl, rfl⟩ ⟨alone, unpaired⟩
      · exact late.told (early.told sound.told (early.bound sound.bound) used) bound used'

/-! ### The other pieces of the loop -/

/-- The invariant holds, and no slot has been freed. -/
structure Kept (state after : State) : Prop where
  sound : Sound after
  grows : ∀ ci, (state.board ci).inUse = true → (after.board ci).inUse = true

theorem Sound.kept (sound : Sound state) : Kept state state := ⟨sound, fun _ used => used⟩

theorem Kept.trans {middle : State} (one : Kept state middle) (two : Kept middle after) :
    Kept state after :=
  ⟨two.sound, fun ci used => two.grows ci (one.grows ci used)⟩

theorem Moved.kept (moved : Moved calls ci state after)
    (free : calls → (state.waiting ci).isSome → state.Free ci)
    (used : (state.board ci).inUse = true) (sound : Sound state) : Kept state after :=
  ⟨moved.sound free used sound, fun slot used => (moved.tenants slot).1.trans used⟩

theorem Stays.kept (stays : Stays ci state after) (used : (state.board ci).inUse = true)
    (sound : Sound state) : Kept state after := by
  have moved : Moved False ci state after := .stays stays
  exact moved.kept False.elim used sound

theorem drop_kept (used : (state.board ci).inUse = true) (sound : Sound state) :
    Kept state (state.drop oracle ci) := by
  have moved : Moved False ci state (state.drop oracle ci) := drop_moved
  exact moved.kept False.elim used sound

theorem Stays.drop_kept (stays : Stays ci state after) (used : (state.board ci).inUse = true)
    (sound : Sound state) : Kept state (after.drop oracle ci) := by
  have kept := stays.kept used sound
  exact kept.trans (State.drop_kept (kept.grows ci used) kept.sound)

/-- The slots are as before, and nothing has been said in a client's name. -/
theorem Sound.quiet (sound : Sound state) (order : after.order = state.order)
    (board : after.board = state.board) {more : List Seen}
    (seen : after.seen = state.seen ++ more)
    (silent : ∀ src dst data, Seen.append (some src) dst data ∉ more) : Kept state after := by
  have bound : state.board.Bound after.Met := sound.bound.mono fun _ _ met => met.mono seen
  refine ⟨⟨sound.tidy.congr order (by rw [board]), ?_, ?_, ?_⟩, ?_⟩
  · rw [board]
    exact sound.paired
  · rw [board]
    exact bound
  · intro src dst data member
    rw [seen] at member
    rcases List.mem_append.mp member with early | late
    · exact (sound.told src dst data early).mono seen
    · exact absurd late (silent src dst data)
  · rw [board]
    exact fun _ used => used

theorem checkBacklog_kept (used : (state.board ci).inUse = true) (sound : Sound state) :
    Kept state (state.checkBacklog oracle ci) := by
  unfold checkBacklog
  simp only
  split
  · exact Stays.drop_kept stays_self.count.log used sound
  · exact sound.kept

theorem flush_kept {sent : Relay.Sent} (used : (state.board ci).inUse = true) (sound : Sound state) :
    Kept state (state.flush oracle ci sent) := by
  unfold flush
  split
  · exact sound.kept
  · split
    · exact drop_kept used sound
    · rename_i fd isOpen
      cases sent with
      | failed => exact drop_kept used sound
      | blocked => exact checkBacklog_kept used sound
      | took count =>
          have board : (state.edit ci fun client => consumeTx client count).board =
              state.board := board_edit_same rfl
          have taken : Kept state ((state.edit ci fun client => consumeTx client count).note
              (.sent fd ((state.clients ci).queued.take count))) :=
            sound.quiet rfl board rfl fun _ _ _ member =>
              Seen.noConfusion (List.mem_singleton.mp member)
          exact taken.trans (checkBacklog_kept (taken.grows ci used) taken.sound)

theorem writable_kept {write : Option Relay.Sent} (used : (state.board ci).inUse = true)
    (sound : Sound state) : Kept state (state.writable oracle ci write) := by
  unfold writable
  split
  · split
    · exact sound.kept
    · exact flush_kept used sound
  · exact sound.kept

theorem expire_kept {now : Time} (sound : Sound state) :
    Kept state (expire oracle now state ci) := by
  unfold expire
  simp only
  split
  · rename_i late
    exact Stays.drop_kept stays_self.count late.1 sound
  · exact sound.kept

theorem sweep_kept {now : Time} (sound : Sound state) : Kept state (state.sweep oracle now) := by
  have swept : ∀ (slots : List Slot) (state : State), Sound state →
      Kept state (slots.foldl (expire oracle now) state) := by
    intro slots
    induction slots with
    | nil => exact fun state sound => sound.kept
    | cons ci rest inductionHypothesis =>
        intro state sound
        have kept : Kept state (expire oracle now state ci) := expire_kept sound
        exact kept.trans (inductionHypothesis _ kept.sound)
  exact swept state.order state sound

theorem sweepAt_kept {now : Time} (sound : Sound state) :
    Kept state (state.sweepAt oracle now) := by
  unfold sweepAt
  split
  · have swept : Kept state (state.sweep oracle now) := sweep_kept sound
    exact swept.trans (swept.sound.quiet rfl rfl (List.append_nil _).symm fun _ _ _ =>
      List.not_mem_nil)
  · exact sound.kept

/-- The free slot that is taken is not in use. -/
theorem freeSlot_vacant (found : state.freeSlot = some ci) : (state.board ci).inUse = false := by
  have vacant := List.find?_some found
  exact (Bool.not_eq_true' _).mp vacant

theorem board_clientAlloc {fd : Conn} {ip : Ip} {port : Nat} {born : Time} :
    (state.clientAlloc ci fd ip port born).board = state.board.seat ci fd := by
  have seated : (state.edit ci fun client =>
      { gen := client.gen, tx := client.tx, inUse := true, fd := some fd, ip := ip,
        port := port, born := born, holds := some fd }).board = state.board.seat ci fd :=
    board_edit rfl
  exact seated

theorem clientAlloc_kept {fd : Conn} {ip : Ip} {port : Nat} {born : Time}
    (room : ¬ maxClients ≤ state.order.length) (vacant : (state.board ci).inUse = false)
    (sound : Sound state) : Kept state (state.clientAlloc ci fd ip port born) := by
  have board := @board_clientAlloc state ci fd ip port born
  have order : (state.clientAlloc ci fd ip port born).order = state.order ++ [ci] :=
    if_pos (Nat.lt_of_not_le room)
  have absent : ¬ state.board.floor.present ci := by
    rintro ⟨used, -⟩
    rw [vacant] at used
    cases used
  have absent' : ci ∉ state.order := fun member =>
    absent ((sound.tidy.mem_iff ci).mp member)
  refine ⟨⟨⟨?_, ?_⟩, ?_, ?_, sound.told⟩, ?_⟩
  · rw [order, ← List.concat_eq_append]
    exact sound.tidy.nodup.concat absent'
  · intro slot
    rw [order, board, Board.floor_seat, List.mem_append, List.mem_singleton, or_comm,
      sound.tidy.mem_iff]
    exact Iff.rfl
  · rw [board, Board.floor_seat]
    exact (sound.paired.enter absent).call ci ()
  · rw [board]
    exact sound.bound.seat vacant
  · intro slot used
    rw [board]
    by_cases here : slot = ci
    · subst here
      rw [Board.seat, Function.update_self]
    · rw [Board.seat, Function.update_of_ne here]
      exact used

theorem acceptClient_kept {ip : Ip} {port : Nat} {born : Time} (sound : Sound state) :
    Kept state (state.acceptClient ip port born) := by
  have turnedAway : ∀ (after : State), after.order = state.order → after.board = state.board →
      after.seen = state.seen ++ [.close state.conns] → Kept state after :=
    fun after order board seen => sound.quiet order board seen fun _ _ _ member =>
      Seen.noConfusion (List.mem_singleton.mp member)
  unfold acceptClient
  simp only
  split
  · exact turnedAway _ rfl rfl rfl
  · rename_i room
    split
    · exact turnedAway _ rfl rfl rfl
    · split
      · exact turnedAway _ rfl rfl rfl
      · rename_i ci found
        have counted : Kept state { state with conns := state.conns + 1 } :=
          sound.quiet rfl rfl (List.append_nil _).symm fun _ _ _ => List.not_mem_nil
        have vacant : (({ state with conns := state.conns + 1 } : State).board ci).inUse =
            false := freeSlot_vacant found
        have seated := @clientAlloc_kept { state with conns := state.conns + 1 } ci state.conns
          ip port born room vacant counted.sound
        exact (counted.trans seated).trans (seated.sound.quiet rfl rfl rfl fun _ _ _ member =>
          Seen.noConfusion (List.mem_singleton.mp member))

theorem reportAt_kept {now : Time} (sound : Sound state) : Kept state (state.reportAt now) := by
  unfold reportAt
  split
  · exact sound.quiet rfl rfl rfl fun _ _ _ member =>
      Seen.noConfusion (List.mem_singleton.mp member)
  · exact sound.kept

theorem board_reap : state.reap.board = state.board.free := by
  funext ci
  show (state.reap.clients ci).face = state.board.free ci
  unfold reap Board.free board Client.face
  simp only
  split <;> rfl

/-- Only the dead are freed, and nobody alive is linked to one. -/
theorem reap_sound (sound : Sound state) : Sound state.reap := by
  refine ⟨?_, ?_, ?_, sound.told⟩
  · exact sound.tidy.congr rfl (by rw [board_reap, Board.floor_free])
  · rw [board_reap, Board.floor_free]
    exact sound.paired
  · rw [board_reap]
    exact sound.bound.free sound.paired

end State

/-- A piece of work, before the report at the end, that is about a slot in use. -/
def Job.Fine (state : State) : Job → Prop
  | .service ci => (state.board ci).inUse = true
  | .writable ci _ => (state.board ci).inUse = true
  | .report _ => False
  | .accept _ _ _ => True
  | .ready _ _ _ _ => True
  | .flushAll _ => True
  | .flush _ _ => True
  | .sweep _ => True

namespace State

variable {oracle : Oracle} {state after : State} {ci : Slot}

theorem Kept.fine {job : Job} (kept : Kept state after) (fine : job.Fine state) :
    job.Fine after := by
  cases job with
  | service ci => exact kept.grows ci fine
  | writable ci write => exact kept.grows ci fine
  | report now => exact fine
  | accept ip port born => exact trivial
  | ready ci gen read write => exact trivial
  | flushAll sends => exact trivial
  | flush ci sent => exact trivial
  | sweep now => exact trivial

theorem receive_kept {data : Bytes} (received : state.receive ci data = some after)
    (sound : Sound state) : Kept state after := by
  unfold receive at received
  simp only at received
  split at received
  · cases received
  · split at received
    · cases received
    · obtain rfl := Option.some.inj received
      exact sound.quiet rfl (board_edit_same rfl) (List.append_nil _).symm fun _ _ _ =>
        List.not_mem_nil

theorem noteOverflow_stays {data : Bytes} : Stays ci state (state.noteOverflow ci data) := by
  unfold noteOverflow
  simp only
  split
  · exact stays_self.log
  · exact stays_self

/-- Every piece before the report keeps the invariant, if a frame that finds
somebody waiting comes from a console that may be paired. -/
theorem perform_kept {job : Job} (fine : job.Fine state)
    (free : ∀ ci body, job = .service ci → state.pending ci = some body →
      state.callsPairing oracle body = true → (state.waiting ci).isSome → state.Free ci)
    (sound : Sound state) :
    Kept state (state.perform oracle job).1 ∧
      ∀ more ∈ (state.perform oracle job).2, more.Fine (state.perform oracle job).1 := by
  have nothing : ∀ (after : State), ∀ more ∈ ([] : List Job), more.Fine after :=
    fun _ _ member => absurd member List.not_mem_nil
  cases job with
  | accept ip port born => exact ⟨acceptClient_kept sound, nothing _⟩
  | ready ci gen read write =>
      unfold perform
      simp only
      split
      · exact ⟨sound.kept, nothing _⟩
      · rename_i matching
        rw [not_or, Bool.not_eq_false] at matching
        have used : (state.board ci).inUse = true := matching.1
        split
        · exact ⟨sound.kept, nothing _⟩
        · cases read with
          | none => exact ⟨writable_kept used sound, nothing _⟩
          | some data =>
              simp only
              split
              · rename_i received arrived
                have kept := receive_kept arrived sound
                refine ⟨kept, ?_⟩
                intro more member
                rcases List.mem_cons.mp member with rfl | member
                · exact kept.grows ci used
                · rw [List.mem_singleton.mp member]
                  exact kept.grows ci used
              · exact ⟨noteOverflow_stays.drop_kept used sound, nothing _⟩
  | service ci =>
      have kept : Kept state (state.serviceOnce oracle ci).1 := by
        refine Moved.kept serviceOnce_moved ?_ fine sound
        rintro ⟨body, isPending, calls⟩ waits
        exact free ci body rfl isPending calls waits
      refine ⟨kept, ?_⟩
      intro more member
      unfold perform at member
      simp only at member
      split at member
      · rw [List.mem_singleton.mp member]
        exact kept.grows ci fine
      · exact absurd member List.not_mem_nil
  | writable ci write => exact ⟨writable_kept fine sound, nothing _⟩
  | flushAll sends =>
      refine ⟨sound.kept, ?_⟩
      intro more member
      obtain ⟨ci, -, rfl⟩ := List.mem_map.mp member
      exact trivial
  | flush ci sent =>
      unfold perform
      simp only
      split
      · exact ⟨sound.kept, nothing _⟩
      · rename_i open_
        rw [not_or, Bool.not_eq_false] at open_
        exact ⟨flush_kept open_.1 sound, nothing _⟩
  | sweep now => exact ⟨sweepAt_kept sound, nothing _⟩
  | report now => exact absurd fine id

theorem start_sound {now : Time} : Sound (State.start now) where
  tidy := by
    refine ⟨List.nodup_nil, ?_⟩
    intro ci
    exact ⟨fun member => absurd member List.not_mem_nil, fun present => by cases present.1⟩
  paired := fun _ _ present => by cases present.1
  bound := fun _ _ used => by cases used
  told := fun _ _ _ member => absurd member List.not_mem_nil

end State

namespace Loop

variable {oracle : Oracle} {loop after : Loop} {act : Act} {now : Time}

/-- The slot whose frame an action dispatches, and the frame. -/
def dispatching (loop : Loop) : Act → Option (Slot × Bytes)
  | .turn _ => none
  | .work =>
      match loop.jobs with
      | .service ci :: _ => (loop.state.pending ci).map fun body => (ci, body)
      | _ => none

/-- A HELLO that is admitted, or a JOIN, that finds somebody waiting comes from a
console that has not been dropped and plays nobody. -/
def Orderly (oracle : Oracle) (loop : Loop) (act : Act) : Prop :=
  ∀ dispatched ∈ loop.dispatching act,
    loop.state.callsPairing oracle dispatched.2 = true →
      (loop.state.waiting dispatched.1).isSome → loop.state.Free dispatched.1

instance (loop : Loop) (act : Act) : Decidable (Orderly oracle loop act) :=
  inferInstanceAs (Decidable (∀ dispatched ∈ loop.dispatching act, _))

theorem dispatching_service {ci : Slot} {body : Bytes} {rest : List Job}
    (isNext : loop.jobs = .service ci :: rest) (isPending : loop.state.pending ci = some body) :
    loop.dispatching .work = some (ci, body) := by
  simp only [dispatching, isNext, isPending, Option.map_some]

/-- The report, which frees slots, comes last, after work that is about slots in
use. -/
structure Sound (loop : Loop) : Prop where
  state : loop.state.Sound
  jobs : loop.jobs = [] ∨
    ∃ early now, loop.jobs = early ++ [.report now] ∧ ∀ job ∈ early, job.Fine loop.state

theorem sound_turn {turn : Turn} (sound : Sound loop) :
    Sound ⟨loop.state, turn.events.filterMap loop.state.reported ++
      [.flushAll turn.sends, .sweep turn.now, .report turn.now]⟩ := by
  refine ⟨sound.state, Or.inr ⟨turn.events.filterMap loop.state.reported ++
    [.flushAll turn.sends, .sweep turn.now], turn.now, by simp, ?_⟩⟩
  intro job member
  rcases List.mem_append.mp member with reported | last
  · obtain ⟨event, -, isJob⟩ := List.mem_filterMap.mp reported
    cases event with
    | connect ip port born =>
        obtain rfl := Option.some.inj isJob
        exact trivial
    | ready conn read write =>
        obtain ⟨tag, -, rfl⟩ := Option.map_eq_some_iff.mp isJob
        exact trivial
  · rcases List.mem_pair.mp last with rfl | rfl <;> exact trivial

theorem sound_next (orderly : Orderly oracle loop act) (step : Step oracle loop act after)
    (sound : Sound loop) : Sound after := by
  rcases step_cases oracle step with ⟨turn, -, -, rfl⟩ | ⟨job, rest, rfl, isNext, rfl⟩
  · exact sound_turn sound
  · rcases sound.jobs with none | ⟨early, now, isJobs, fine⟩
    · rw [isNext] at none
      cases none
    · rw [isNext] at isJobs
      cases early with
      | nil =>
          obtain ⟨rfl, rfl⟩ := List.cons.inj isJobs
          exact ⟨State.reap_sound (State.reportAt_kept sound.state).sound, Or.inl rfl⟩
      | cons first more =>
          obtain ⟨rfl, rfl⟩ := List.cons.inj isJobs
          obtain ⟨kept, fine'⟩ := @State.perform_kept oracle loop.state job
            (fine job List.mem_cons_self)
            (by
              rintro ci body rfl isPending calls waits
              exact orderly (ci, body) (dispatching_service isNext isPending) calls waits)
            sound.state
          refine ⟨kept.sound, Or.inr ⟨(loop.state.perform oracle job).2 ++ more, now,
            (List.append_assoc ..).symm, ?_⟩⟩
          intro next member
          rcases List.mem_append.mp member with new | old
          · exact fine' next new
          · exact kept.fine (fine next (List.mem_cons_of_mem _ old))

theorem sound_start : Sound (start now) := ⟨State.start_sound, Or.inl rfl⟩

/-- In every run whose pairings are orderly, the partner index of a live client
names a slot in use, with the connection and generation it was made for; and
nothing is appended in the name of a client to a connection it was not paired
with. -/
theorem partner_names_connection (run : Run (Step oracle) (Orderly oracle) (start now) loop) :
    (∀ x y, (loop.state.clients x).inUse = true → (loop.state.clients x).dead = false →
      (loop.state.clients x).partner = some y →
        (loop.state.clients y).inUse = true ∧
          (loop.state.clients x).linked =
            some ((loop.state.clients y).holds, (loop.state.clients y).gen)) ∧
      ∀ src dst data, Seen.append (some src) dst data ∈ loop.state.seen →
        Seen.paired src dst ∈ loop.state.seen ∨ Seen.paired dst src ∈ loop.state.seen := by
  have sound := run.invariant Sound sound_start fun sound orderly step =>
    sound_next orderly step sound
  refine ⟨?_, sound.state.told⟩
  intro x y used _ isPartner
  obtain ⟨used', tagged, -⟩ := sound.state.bound x y used isPartner
  exact ⟨used', tagged⟩

/-! ### Schedules -/

/-- An iteration in which no socket takes a byte at the end. -/
def turnOf (events : List Event) : Act :=
  .turn { events := events, sends := fun _ => .blocked, now := 0 }

def works (count : Nat) : List Act := List.replicate count .work

/-- `count` connections are accepted in one iteration, with `clients` there
already. -/
def accepting (count clients : Nat) : List Act :=
  turnOf (List.replicate count (.connect ⟨127, 0, 0, 1⟩ 9000 0)) ::
    works (2 * count + clients + 3)

/-- A console's chunk is received, and the frames in it handled; `clients` are
there afterwards. -/
def chunk (conn : Conn) (frames : List Bytes) (clients : Nat) : List Act :=
  turnOf [.ready conn (some frames.flatten) none] ::
    works (frames.length + clients + 6)

theorem partner_names_connection_two : ∃ loop : Loop,
    (loop.state.clients 0).partner = some 1 ∧
    ((∀ x y, (loop.state.clients x).inUse = true → (loop.state.clients x).dead = false →
      (loop.state.clients x).partner = some y →
        (loop.state.clients y).inUse = true ∧
          (loop.state.clients x).linked =
            some ((loop.state.clients y).holds, (loop.state.clients y).gen)) ∧
      ∀ src dst data, Seen.append (some src) dst data ∈ loop.state.seen →
        Seen.paired src dst ∈ loop.state.seen ∨ Seen.paired dst src ∈ loop.state.seen) := by
  have outcome : ((accepting 2 0 ++ chunk 0 [helloFrame 0x41 0x41] 2 ++
      chunk 1 [helloFrame 0x42 0x42] 2 ++
      chunk 1 [wire tInput [1, 2, 3, 4, 5, 6]] 2).foldlM
        (guarded (next plain) (Orderly plain)) (start 0)).map
      (fun loop => (loop.state.clients 0).partner) = some (some 1) := by decide +kernel
  obtain ⟨loop, executed, isPartner⟩ := Option.map_eq_some_iff.mp outcome
  exact ⟨loop, isPartner, partner_names_connection (Run.of_guarded executed)⟩

/-- The second console says BYE and HELLO in one chunk: dropped, it is paired
with the first, which waited.  Its slot is freed at the end of the iteration and
goes to a third, to which the first console's next INPUT is appended. -/
theorem partner_names_stranger : ∃ loop : Loop,
    Run (Step plain) always (start 0) loop ∧ loop.jobs = [] ∧
      (loop.state.clients 0).inUse = true ∧ (loop.state.clients 0).dead = false ∧
      (loop.state.clients 0).partner = some 1 ∧
      (loop.state.clients 0).linked = some (some 1, 0) ∧
      ((loop.state.clients 1).holds, (loop.state.clients 1).gen) = (some 2, 1) ∧
      Seen.append (some 0) 2 (wire tInput [1, 2, 3, 4, 5, 6]) ∈ loop.state.seen ∧
      Seen.paired 0 2 ∉ loop.state.seen ∧ Seen.paired 2 0 ∉ loop.state.seen := by
  have outcome : ((accepting 2 0 ++ chunk 0 [helloFrame 0x41 0x41] 2 ++
      chunk 1 [wire tBye [], helloFrame 0x42 0x42] 1 ++ accepting 1 1 ++
      chunk 0 [wire tInput [1, 2, 3, 4, 5, 6]] 2).foldlM (next plain) (start 0)).map
      (fun loop => decide (loop.jobs.length = 0 ∧
        (loop.state.clients 0).inUse = true ∧ (loop.state.clients 0).dead = false ∧
        (loop.state.clients 0).partner = some 1 ∧
        (loop.state.clients 0).linked = some (some 1, 0) ∧
        ((loop.state.clients 1).holds, (loop.state.clients 1).gen) = (some 2, 1) ∧
        Seen.append (some 0) 2 (wire tInput [1, 2, 3, 4, 5, 6]) ∈ loop.state.seen ∧
        Seen.paired 0 2 ∉ loop.state.seen ∧ Seen.paired 2 0 ∉ loop.state.seen)) =
          some true := by decide +kernel
  obtain ⟨loop, executed, isOutcome⟩ := Option.map_eq_some_iff.mp outcome
  obtain ⟨noJobs, rest⟩ := of_decide_eq_true isOutcome
  exact ⟨loop, Run.of_foldlM executed, List.eq_nil_of_length_eq_zero noJobs, rest⟩

end Loop

end DragsterNet.CRelay
