/-
Module: DragsterNet.CRelay.Backlog
Purpose: How much of the transmit buffers of the C relay its clients can fill
  between two calls of `send`.
Trusted boundary: none
Main exports: Deed, Deed.spends, State.deed_serviceOnce, State.deed_flush
-/
import Mathlib.Algebra.BigOperators.Group.Finset.Basic
import Mathlib.Algebra.Group.Action.Defs
import Mathlib.Algebra.Order.BigOperators.Group.Finset
import DragsterNet.CRelay.Posts
import DragsterNet.CRelay.Reassembly

namespace DragsterNet.CRelay

open Lib Relay

/-! ### What one piece of work posts -/

/-- What a piece of work for `ci` does to the links, and what it posts; `size`
bytes are taken out of the receive buffer for it. -/
inductive Deed (ci : Slot) (size : Nat) (board : Board) (posts : List Post) (after : Board) :
    Prop where
  | idle (stays : after = board) (calls : posts = [])
  | reply (n : Nat) (stays : after = board) (calls : posts = [(ci, n)])
      (short : 2 * n ≤ 75 * size)
  | forward (partner : Slot) (n : Nat) (stays : after = board) (calls : posts = [(partner, n)])
      (short : n ≤ 4 * size)
  | drops (alive : (board ci).dead = false) (leaves : after = board.leave ci)
      (calls : posts = ((board ci).partner.map fun partner =>
        (partner, gamePayload + 2)).toList)
  | pairs (host : Slot) (apart : host ≠ ci) (alone : (board host).partner = none)
      (links : after = board.link host ci)
      (calls : posts = [(host, State.startSize + 2), (ci, State.startSize + 2)])
      (long : 2 ≤ size)

namespace State

variable {oracle : Oracle} {state after : State} {ci host : Slot} {size : Nat}
  {payload : Bytes}

theorem leavePartnerPosts_eq : state.leavePartnerPosts ci =
    ((state.board ci).partner.map fun partner => (partner, gamePayload + 2)).toList := by
  have same : (state.board ci).partner = (state.clients ci).partner := rfl
  unfold leavePartnerPosts
  rw [same]
  cases (state.clients ci).partner <;> rfl

theorem deed_drop :
    Deed ci size state.board (state.dropPosts ci) (state.drop oracle ci).board := by
  unfold dropPosts
  cases alive : (state.clients ci).dead with
  | true =>
      have same : state.drop oracle ci = state := if_pos alive
      rw [same]
      exact .idle rfl rfl
  | false => exact .drops alive (drop_alive alive).2.1 leavePartnerPosts_eq

/-- A drop after what leaves the slots alone. -/
theorem deed_drop_after (stays : Stays ci state after) :
    Deed ci size state.board (after.dropPosts ci) (after.drop oracle ci).board := by
  rw [← stays.board]
  exact deed_drop

theorem board_tryPair (found : state.waiting ci = some host) :
    (state.tryPair oracle ci).board = state.board.link host ci := by
  have linked : ({ state with seeds := state.seeds + 1 }.link host ci).board =
      state.board.link host ci := board_link
  have started : ∀ {state : State} {seed : BitVec 16} {role : Nat} {me them : Slot},
      (startFrame oracle state seed role me them).board = state.board :=
    fun {_ _ _ me _} => (@startFrame_stays oracle _ me _ _ _ _).board
  unfold tryPair
  rw [found]
  simp only
  rw [board_lobbyUpdateCount, board_log]
  exact started.trans (started.trans linked)

theorem deed_tryPair (long : 2 ≤ size) :
    Deed ci size state.board (state.tryPairPosts ci) (state.tryPair oracle ci).board := by
  cases found : state.waiting ci with
  | none =>
      have same : state.tryPair oracle ci = state := by
        unfold tryPair
        rw [found]
      unfold tryPairPosts
      rw [same, found]
      exact .idle rfl rfl
  | some host =>
      obtain ⟨-, apart, -, alone⟩ := waiting_cases found
      unfold tryPairPosts
      rw [found]
      exact .pairs host apart alone (board_tryPair found) rfl long

theorem deed_onHello (long : 2 ≤ size) : Deed ci size state.board
    (state.onHelloPosts oracle ci payload) (state.onHello oracle ci payload).board := by
  have noted := @noteTv_stays state ci payload
  unfold onHello onHelloPosts
  simp only
  cases readHello payload with
  | error refusal => exact deed_drop_after noted.log
  | ok hello =>
      obtain ⟨tv, name⟩ := hello
      simp only
      cases freeName (state.noteTv ci payload).nameTaken (nextDigit oracle) nameGuard
          (state.noteTv ci payload).digits name with
      | error name =>
          have counted : Stays ci state { state.noteTv ci payload with
              digits := (state.noteTv ci payload).digits + nameGuard } :=
            noted.congr rfl rfl rfl
          exact deed_drop_after counted.log
      | ok found =>
          have named := noted.trans
            (@register_stays oracle (state.noteTv ci payload) ci found.1 tv found.2)
          rw [← named.board]
          exact deed_tryPair long

/-- A frame's payload is two bytes shorter than the frame. -/
theorem deed_handle {ftype : Byte} : Deed ci (payload.length + 2) state.board
    (state.handlePosts oracle ci ftype payload) (state.handle oracle ci ftype payload).board := by
  have long : 2 ≤ payload.length + 2 := Nat.le_add_left _ _
  unfold handle handlePosts
  split
  · have forwarded : Deed ci (payload.length + 2) state.board (state.forwardPosts ci payload)
        (state.forward ci ftype payload).board := by
      unfold forwardPosts
      cases (state.clients ci).partner with
      | none => exact .idle forward_stays.board rfl
      | some partner =>
          have most : max payload.length gamePayload ≤ payload.length + 6 :=
            Nat.max_le.mpr ⟨Nat.le_add_right _ _, Nat.le_add_left _ _⟩
          refine .forward partner _ forward_stays.board rfl ?_
          omega
    simp only
    split
    · rw [logCrc_stays.board]
      exact forwarded
    · exact forwarded
  split
  · exact deed_onHello long
  split
  · have few := @lobbyEntries_few state
    refine .reply _ board_clientSend rfl ?_
    omega
  split
  · exact deed_tryPair long
  split
  · refine .reply _ board_clientSend rfl ?_
    omega
  split
  · exact deed_drop
  · exact .idle rfl rfl

/-- A frame that is served is gone from the receive buffer. -/
theorem deed_serviceOnce : ∃ size,
    Deed ci size state.board (state.serviceOncePosts oracle ci)
      (state.serviceOnce oracle ci).1.board ∧
    ((state.serviceOnce oracle ci).1.clients ci).rx.length + size =
      (state.clients ci).rx.length := by
  unfold serviceOnce serviceOncePosts
  cases read : readFrame (state.clients ci).rx with
  | short => exact ⟨0, .idle rfl rfl, rfl⟩
  | bad n =>
      have noted : Stays ci state ((state.count fun stats =>
          { stats with badFrames := stats.badFrames + 1 }).log
            (.badLength (state.clients ci).nameOr n.toNat)) := stays_self.count.log
      have kept := ((@each_drop oracle ((state.count fun stats =>
          { stats with badFrames := stats.badFrames + 1 }).log
            (.badLength (state.clients ci).nameOr n.toNat)) ci _ sameIntake_gentle).clients ci).rx
      exact ⟨0, deed_drop_after noted, congrArg List.length kept⟩
  | whole body rest =>
      obtain ⟨n, fair, length, isData⟩ := Server.readFrame_whole_iff.mp read
      have taken : (state.edit ci fun client => { client with rx := rest }).board = state.board :=
        board_edit_same rfl
      have handled := @deed_handle oracle (state.edit ci fun client => { client with rx := rest })
        ci body.tail (body.headD 0)
      rw [taken] at handled
      refine ⟨body.tail.length + 2, handled, ?_⟩
      have kept := ((@each_handle oracle (state.edit ci fun client => { client with rx := rest })
        ci _ body.tail sameIntake_gentle (body.headD 0)).clients ci).rx
      rw [edit_self] at kept
      have left : ((((state.edit ci fun client => { client with rx := rest }).handle oracle ci
          (body.headD 0) body.tail).clients ci).rx).length = rest.length := congrArg _ kept
      simp only
      rw [left, isData, List.length_tail, List.length_cons, List.length_append, length]
      omega

theorem deed_checkBacklog : Deed ci size state.board (state.checkBacklogPosts ci)
    (state.checkBacklog oracle ci).board := by
  unfold checkBacklog checkBacklogPosts
  simp only
  split
  · exact deed_drop_after stays_self.count.log
  · exact .idle rfl rfl

theorem deed_flush {sent : Relay.Sent} : Deed ci size state.board (state.flushPosts ci sent)
    (state.flush oracle ci sent).board := by
  unfold flush flushPosts
  by_cases empty : (state.clients ci).txLen = 0
  · rw [if_pos empty, if_pos empty]
    exact .idle rfl rfl
  rw [if_neg empty, if_neg empty]
  cases (state.clients ci).fd with
  | none => exact deed_drop
  | some fd =>
      cases sent with
      | failed => exact deed_drop
      | blocked => exact deed_checkBacklog
      | took count =>
          have same : (state.edit ci fun client => consumeTx client count).board = state.board :=
            board_edit_same rfl
          have taken : ((state.edit ci fun client => consumeTx client count).note
              (.sent fd ((state.clients ci).queued.take count))).board = state.board := same
          have checked := @deed_checkBacklog oracle ((state.edit ci fun client =>
            consumeTx client count).note (.sent fd ((state.clients ci).queued.take count))) ci size
          rw [taken] at checked
          exact checked

theorem deed_writable {write : Option Relay.Sent} : Deed ci size state.board
    (state.writablePosts ci write) (state.writable oracle ci write).board := by
  unfold writable writablePosts
  split
  · split
    · exact .idle rfl rfl
    · exact deed_flush
  · exact .idle rfl rfl

theorem deed_expire {now : Time} : Deed ci size state.board (state.expirePosts now ci)
    (expire oracle now state ci).board := by
  unfold expire expirePosts
  simp only
  split
  · exact deed_drop_after stays_self.count
  · exact .idle rfl rfl

end State

/-! ### What the other clients may fill -/

/-- What a client has done in an iteration, weighed by how much of another's
buffer it may have filled: four bytes for each that was read from it, eight more
for its leaving, and fifteen for whoever is paired with the one it leaves. -/
def cost (board : Board) (used : Slot → Nat) (e : Slot) : Nat :=
  8 * used e + if (board e).dead then 46 else 0

/-- A client that may be chosen will have a START appended. -/
def lonely (board : Board) (d : Slot) : Nat := if (board d).partner = none then 30 else 0

/-- What twice the backlog of `d` may be: what the last iteration left, its own
replies, and what the `givers` have it sent. -/
def allowance (board : Board) (used : Slot → Nat) (givers : Finset Slot) (d : Slot) : Nat :=
  132126 + 67 * used d + cost board used d + ∑ e ∈ givers, cost board used e

/-- Those in whose work something was posted to each slot. -/
def posting (givers : Slot → Finset Slot) (ci : Slot) (posts : List Post) (d : Slot) :
    Finset Slot :=
  if d ≠ ci ∧ d ∈ posts.map Prod.fst then insert ci (givers d) else givers d

section Spends

variable {ci d : Slot} {size gain : Nat} {board after : Board} {posts : List Post}
  {used more : Slot → Nat} {givers : Slot → Finset Slot}

theorem sum_insert_gain {f g : Slot → Nat} {s : Finset Slot} (le : ∀ e, f e ≤ g e)
    (more : f ci + gain ≤ g ci) : ∑ e ∈ s, f e + gain ≤ ∑ e ∈ insert ci s, g e := by
  by_cases member : ci ∈ s
  · rw [Finset.insert_eq_of_mem member, ← Finset.add_sum_erase s f member,
      ← Finset.add_sum_erase s g member]
    have rest : ∑ e ∈ s.erase ci, f e ≤ ∑ e ∈ s.erase ci, g e :=
      Finset.sum_le_sum fun e _ => le e
    omega
  · rw [Finset.sum_insert member]
    have all : ∑ e ∈ s, f e ≤ ∑ e ∈ s, g e := Finset.sum_le_sum fun e _ => le e
    omega

theorem cost_mono (most : ∀ e, used e ≤ more e)
    (dead : ∀ e, (board e).dead = true → (after e).dead = true) (e : Slot) :
    cost board used e ≤ cost after more e := by
  have read := most e
  unfold cost
  by_cases gone : (board e).dead
  · rw [if_pos gone, if_pos (dead e gone)]
    omega
  · rw [if_neg gone]
    omega

/-- What the worker itself may have grows by what was read from it, too. -/
theorem allowance_self (most : ∀ e, used e ≤ more e)
    (dead : ∀ e, (board e).dead = true → (after e).dead = true)
    (read : used ci + size ≤ more ci)
    (gains : cost board used ci + gain ≤ cost after more ci) :
    allowance board used (givers ci) ci + 67 * size + gain ≤
      allowance after more (posting givers ci posts ci) ci := by
  have others : ∑ e ∈ givers ci, cost board used e ≤ ∑ e ∈ givers ci, cost after more e :=
    Finset.sum_le_sum fun e _ => cost_mono most dead e
  have unposted : ¬ (ci ≠ ci ∧ ci ∈ posts.map Prod.fst) := fun both => both.1 rfl
  unfold allowance posting
  rw [if_neg unposted]
  omega

/-- What another may have grows by the worker's cost, if something is posted to
it. -/
theorem allowance_other (most : ∀ e, used e ≤ more e)
    (dead : ∀ e, (board e).dead = true → (after e).dead = true)
    (gains : cost board used ci + gain ≤ cost after more ci) (apart : d ≠ ci) :
    allowance board used (givers d) d + (if d ∈ posts.map Prod.fst then gain else 0) ≤
      allowance after more (posting givers ci posts d) d := by
  have own := most d
  have costs := cost_mono most dead
  have own' := costs d
  unfold allowance posting
  by_cases posted : d ∈ posts.map Prod.fst
  · have others := @sum_insert_gain ci gain (cost board used) (cost after more) (givers d)
      costs gains
    rw [if_pos posted, if_pos ⟨apart, posted⟩]
    omega
  · have others : ∑ e ∈ givers d, cost board used e ≤ ∑ e ∈ givers d, cost after more e :=
      Finset.sum_le_sum fun e _ => costs e
    rw [if_neg posted, if_neg fun both => posted both.2]
    omega

theorem leave_dead (e : Slot) :
    (board.leave ci e).dead = if e = ci then true else (board e).dead := by
  have marked : (board.mark ci e).dead = if e = ci then true else (board e).dead := by
    unfold Board.mark
    by_cases here : e = ci
    · rw [here, Function.update_self, if_pos rfl]
    · rw [Function.update_of_ne here, if_neg here]
  unfold Board.leave
  cases (board ci).partner with
  | none => exact marked
  | some partner =>
      simp only
      by_cases there : e = partner
      · rw [there, Function.update_self, ← there]
        exact marked
      · rw [Function.update_of_ne there]
        exact marked

theorem leave_partner (e : Slot) : (board.leave ci e).partner =
    if (board ci).partner = some e then none else (board e).partner := by
  have marked : (board.mark ci e).partner = (board e).partner := by
    unfold Board.mark
    by_cases here : e = ci
    · rw [here, Function.update_self]
    · rw [Function.update_of_ne here]
  unfold Board.leave
  cases (board ci).partner with
  | none =>
      rw [if_neg (by simp)]
      exact marked
  | some partner =>
      simp only [Option.some.injEq]
      by_cases there : e = partner
      · rw [there, Function.update_self, if_pos rfl]
      · rw [Function.update_of_ne there, if_neg fun same => there same.symm]
        exact marked

theorem link_dead (host e : Slot) : (board.link host ci e).dead = (board e).dead := by
  unfold Board.link Board.host
  by_cases here : e = ci
  · rw [here, Function.update_self]
    by_cases same : ci = host
    · rw [same, Function.update_self]
    · rw [Function.update_of_ne same]
  · rw [Function.update_of_ne here]
    by_cases same : e = host
    · rw [same, Function.update_self]
    · rw [Function.update_of_ne same]

theorem link_partner (host e : Slot) : (board.link host ci e).partner =
    if e = ci then some host else if e = host then some ci else (board e).partner := by
  unfold Board.link Board.host
  by_cases here : e = ci
  · rw [here, Function.update_self, if_pos rfl]
  · rw [Function.update_of_ne here, if_neg here]
    by_cases same : e = host
    · rw [same, Function.update_self, if_pos rfl]
    · rw [Function.update_of_ne same, if_neg same]

/-- What is posted to a slot is allowed for: by what the worker itself had read,
by its leaving, or by the slot's having been alone. -/
theorem Deed.spends (deed : Deed ci size board posts after) (d : Slot) :
    2 * State.load d posts + lonely after d + allowance board used (givers d) d ≤
      lonely board d +
        allowance after (Function.update used ci (used ci + size)) (posting givers ci posts d) d := by
  have own : Function.update used ci (used ci + size) ci = used ci + size := Function.update_self ..
  have most : ∀ e, used e ≤ Function.update used ci (used ci + size) e := by
    intro e
    by_cases here : e = ci
    · rw [here, own]
      exact Nat.le_add_right _ _
    · rw [Function.update_of_ne here]
  have read : used ci + size ≤ Function.update used ci (used ci + size) ci := own.ge
  -- A worker that is not dropped costs eight for each byte that is read from it.
  have staying : after = board → cost board used ci + 8 * size ≤
      cost after (Function.update used ci (used ci + size)) ci := by
    rintro rfl
    unfold cost
    rw [own]
    omega
  generalize Function.update used ci (used ci + size) = more at own most read staying ⊢
  cases deed with
  | idle stays calls =>
      subst stays calls
      have gains := staying rfl
      have nothing : State.load d [] = 0 := rfl
      rw [nothing]
      by_cases here : d = ci
      · subst here
        have grows := @allowance_self d size _ after after [] used more givers most
          (fun _ => id) read gains
        omega
      · have grows := @allowance_other ci d _ after after [] used more givers most
          (fun _ => id) gains here
        omega
  | reply n stays calls short =>
      subst stays calls
      have gains := staying rfl
      rw [State.load_one]
      by_cases here : d = ci
      · subst here
        have grows := @allowance_self d size _ after after [(d, n)] used more givers most
          (fun _ => id) read gains
        rw [if_pos rfl]
        omega
      · have grows := @allowance_other ci d _ after after [(ci, n)] used more givers most
          (fun _ => id) gains here
        rw [if_neg here]
        omega
  | forward partner n stays calls short =>
      subst stays calls
      have gains := staying rfl
      rw [State.load_one]
      by_cases here : d = ci
      · subst here
        have grows := @allowance_self d size _ after after [(partner, n)] used more givers most
          (fun _ => id) read gains
        split <;> omega
      · have grows := @allowance_other ci d _ after after [(partner, n)] used more givers most
          (fun _ => id) gains here
        by_cases there : d = partner
        · subst there
          rw [if_pos (by simp)] at grows
          rw [if_pos rfl]
          omega
        · rw [if_neg there]
          omega
  | drops alive leaves calls =>
      subst leaves calls
      have dead : ∀ e, (board e).dead = true → (board.leave ci e).dead = true := by
        intro e gone
        rw [leave_dead, gone, ite_self]
      have gains : cost board used ci + (8 * size + 46) ≤ cost (board.leave ci) more ci := by
        unfold cost
        rw [own, alive, leave_dead, if_pos rfl, if_pos rfl]
        simp only [Bool.false_eq_true, ↓reduceIte]
        omega
      have left : lonely (board.leave ci) d ≤
          lonely board d + if (board ci).partner = some d then 30 else 0 := by
        unfold lonely
        rw [leave_partner]
        split <;> split <;> omega
      have told : State.load d (((board ci).partner.map fun partner =>
          (partner, gamePayload + 2)).toList) =
            if (board ci).partner = some d then 8 else 0 := by
        cases (board ci).partner with
        | none => rfl
        | some partner =>
            rw [Option.map_some, Option.toList_some, State.load_one]
            simp only [Option.some.injEq, eq_comm]
            rfl
      rw [told]
      by_cases here : d = ci
      · subst here
        have grows := @allowance_self d size _ board _ (((board d).partner.map fun partner =>
          (partner, gamePayload + 2)).toList) used more givers most dead read gains
        split at left <;> split <;> omega
      · have grows := @allowance_other ci d _ board _ (((board ci).partner.map fun partner =>
          (partner, gamePayload + 2)).toList) used more givers most dead gains here
        by_cases there : (board ci).partner = some d
        · rw [there] at grows left ⊢
          rw [if_pos (by simp)] at grows
          rw [if_pos rfl] at left ⊢
          omega
        · rw [if_neg there] at left ⊢
          omega
  | pairs host apart alone links calls long =>
      subst links calls
      have dead : ∀ e, (board e).dead = true → (board.link host ci e).dead = true := by
        intro e gone
        rw [link_dead, gone]
      have gains : cost board used ci + 8 * size ≤ cost (board.link host ci) more ci := by
        unfold cost
        rw [own, link_dead]
        omega
      have started : State.load d [(host, State.startSize + 2), (ci, State.startSize + 2)] =
          (if d = host then 15 else 0) + if d = ci then 15 else 0 := by
        have both := @State.load_append d [(host, State.startSize + 2)]
          [(ci, State.startSize + 2)]
        rw [State.load_one, State.load_one] at both
        exact both
      have linked : lonely (board.link host ci) d =
          if d = ci then 0 else if d = host then 0 else lonely board d := by
        unfold lonely
        rw [link_partner]
        split
        · rfl
        split <;> rfl
      rw [started, linked]
      by_cases here : d = ci
      · subst here
        have grows := @allowance_self d size _ board _
          [(host, State.startSize + 2), (d, State.startSize + 2)] used more givers most dead read
          gains
        rw [if_neg apart.symm, if_pos rfl, if_pos rfl]
        omega
      · have grows := @allowance_other ci d _ board _
          [(host, State.startSize + 2), (ci, State.startSize + 2)] used more givers most dead gains
          here
        rw [if_neg here, if_neg here]
        by_cases there : d = host
        · subst there
          have waits : lonely board d = 30 := if_pos alone
          rw [if_pos rfl, if_pos rfl, waits]
          omega
        · rw [if_neg there, if_neg there]
          omega

end Spends

end DragsterNet.CRelay
