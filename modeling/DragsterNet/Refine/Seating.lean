/-
Module: DragsterNet.Refine.Seating
Purpose: How the slots of the C relay stand for the client objects of the Python
  relay: seats, links, names and the descriptors that are watched.
Trusted boundary: none
Main exports: Seats, Links, Names, Watch
-/
import DragsterNet.CRelay.Board
import DragsterNet.Refine.Text

namespace DragsterNet.Refine

open Lib Relay
open Relay.Server (ShortName)
open CRelay (Slot Board NameEnt)

variable {board after : Board} {ci cj host guest : Slot} {c d fd : Conn}

/-- A slot that is in use and not dead. -/
abbrev Live (board : Board) (ci : Slot) : Prop := board.floor.present ci

/-! ### Seats -/

/-- No connection is held by two slots; the live slots, in their order, hold the
connections of the clients, in theirs. -/
structure Seats (board : Board) (order : List Slot) (clients : List Conn) (conns : Nat) :
    Prop where
  apart : ∀ ci cj c, (board ci).holds = some c → (board cj).holds = some c → ci = cj
  known : ∀ ci c, (board ci).holds = some c → c < conns
  seated : ∀ ci, (board ci).inUse = true → ∃ c, (board ci).holds = some c
  nodup : order.Nodup
  mem_iff : ∀ ci, ci ∈ order ↔ Live board ci
  clients : order.map (fun ci => (board ci).holds) = clients.map some

variable {order : List Slot} {clients : List Conn} {conns : Nat}

namespace Seats

/-- The slot that holds a client of the table is live, and the other way
round. -/
theorem client_iff (seats : Seats board order clients conns)
    (holds : (board ci).holds = some c) : c ∈ clients ↔ Live board ci := by
  rw [← seats.mem_iff]
  have same : c ∈ clients ↔ some c ∈ order.map fun ci => (board ci).holds := by
    rw [seats.clients, List.mem_map]
    simp
  rw [same, List.mem_map]
  constructor
  · rintro ⟨cj, member, holds'⟩
    exact seats.apart cj ci c holds' holds ▸ member
  · intro member
    exact ⟨ci, member, holds⟩

theorem length (seats : Seats board order clients conns) : order.length = clients.length := by
  have same := congrArg List.length seats.clients
  rwa [List.length_map, List.length_map] at same

/-- Who is live and who holds what is as before. -/
theorem congr (seats : Seats board order clients conns)
    (live : after.floor.present = board.floor.present)
    (tenants : Board.SameTenants board after) : Seats after order clients conns where
  apart ci cj c one two := by
    rw [(tenants ci).2.2] at one
    rw [(tenants cj).2.2] at two
    exact seats.apart ci cj c one two
  known ci c holds := by
    rw [(tenants ci).2.2] at holds
    exact seats.known ci c holds
  seated ci used := by
    rw [(tenants ci).1] at used
    rw [(tenants ci).2.2]
    exact seats.seated ci used
  nodup := seats.nodup
  mem_iff ci := by
    rw [Live, live]
    exact seats.mem_iff ci
  clients := by
    have holds : (fun ci => (after ci).holds) = fun ci => (board ci).holds :=
      funext fun ci => (tenants ci).2.2
    rw [holds]
    exact seats.clients

/-- A client leaves both tables. -/
theorem leave (seats : Seats board order clients conns) (holds : (board ci).holds = some c) :
    Seats (board.leave ci) (order.erase ci) (clients.erase c) conns := by
  have tenants : Board.SameTenants board (board.leave ci) := Board.sameTenants_leave
  refine ⟨?_, ?_, ?_, seats.nodup.erase ci, ?_, ?_⟩
  · intro one two held first second
    rw [(tenants one).2.2] at first
    rw [(tenants two).2.2] at second
    exact seats.apart one two held first second
  · intro one held first
    rw [(tenants one).2.2] at first
    exact seats.known one held first
  · intro one used
    rw [(tenants one).1] at used
    rw [(tenants one).2.2]
    exact seats.seated one used
  · intro one
    have live : Live (board.leave ci) one ↔ Live board one ∧ one ≠ ci := by
      unfold Live
      rw [Board.floor_leave]
      exact Iff.rfl
    rw [seats.nodup.mem_erase_iff, seats.mem_iff, live, and_comm]
  · have same : (fun one => (board.leave ci one).holds) = fun one => (board one).holds :=
      funext fun one => (tenants one).2.2
    have only : ∀ one ∈ order, (board one).holds = (board ci).holds → one = ci := by
      intro one _ held
      exact seats.apart one ci c (held.trans holds) holds
    have only' : ∀ d ∈ clients, some d = some c → d = c := fun _ _ held => Option.some.inj held
    rw [same, map_erase_of only, seats.clients, holds, map_erase_of only']

/-- A connection is seated in a slot that is free. -/
theorem seat (seats : Seats board order clients conns) (vacant : (board ci).inUse = false)
    (known : conns ≤ fd) :
    Seats (board.seat ci fd) (order ++ [ci]) (clients ++ [fd]) (fd + 1) := by
  have fresh : ∀ one, (board one).holds ≠ some fd := by
    intro one holds
    exact absurd (seats.known one fd holds) (Nat.not_lt.mpr known)
  have absent : ci ∉ order := by
    intro member
    have live := (seats.mem_iff ci).mp member
    rw [live.1] at vacant
    cases vacant
  have others : ∀ one, one ≠ ci → board.seat ci fd one = board one := fun one apart =>
    Function.update_of_ne apart ..
  have here : (board.seat ci fd ci).holds = some fd := by
    rw [Board.seat, Function.update_self]
  refine ⟨?_, ?_, ?_, ?_, ?_, ?_⟩
  · intro one two held first second
    by_cases isOne : one = ci
    · subst isOne
      rw [here] at first
      obtain rfl := Option.some.inj first
      by_contra apart
      rw [others two fun same => apart same.symm] at second
      exact fresh two second
    · rw [others one isOne] at first
      by_cases isTwo : two = ci
      · subst isTwo
        rw [here] at second
        obtain rfl := Option.some.inj second
        exact absurd first (fresh one)
      · rw [others two isTwo] at second
        exact seats.apart one two held first second
  · intro one held first
    by_cases isOne : one = ci
    · subst isOne
      rw [here] at first
      obtain rfl := Option.some.inj first
      exact Nat.lt_succ_self fd
    · rw [others one isOne] at first
      exact Nat.lt_succ_of_lt (Nat.lt_of_lt_of_le (seats.known one held first) known)
  · intro one used
    by_cases isOne : one = ci
    · subst isOne
      exact ⟨fd, here⟩
    · rw [others one isOne] at used ⊢
      exact seats.seated one used
  · rw [← List.concat_eq_append]
    exact seats.nodup.concat absent
  · intro one
    have live : Live (board.seat ci fd) one ↔ one = ci ∨ Live board one := by
      unfold Live
      rw [Board.floor_seat]
      exact Iff.rfl
    rw [List.mem_append, List.mem_singleton, seats.mem_iff, live, or_comm]
  · rw [List.map_append, List.map_append]
    congr 1
    · rw [← seats.clients]
      apply List.map_congr_left
      intro one member
      rw [others one fun same => absent (same ▸ member)]
    · rw [List.map_singleton, List.map_singleton, here]

/-- Freeing the dead touches no live slot and no connection. -/
theorem free (seats : Seats board order clients conns) :
    Seats board.free order clients conns := by
  have holds : ∀ ci, (board.free ci).holds = (board ci).holds := by
    intro ci
    unfold Board.free
    split <;> rfl
  refine ⟨?_, ?_, ?_, seats.nodup, ?_, ?_⟩
  · intro one two held first second
    rw [holds] at first second
    exact seats.apart one two held first second
  · intro one held first
    rw [holds] at first
    exact seats.known one held first
  · intro one used
    rw [holds]
    apply seats.seated one
    unfold Board.free at used
    split at used
    · cases used
    · exact used
  · intro one
    rw [Live, Board.floor_free]
    exact seats.mem_iff one
  · rw [funext holds]
    exact seats.clients

end Seats

/-! ### Who is live after a move -/

theorem live_leave : Live (board.leave ci) cj ↔ Live board cj ∧ cj ≠ ci := by
  unfold Live
  rw [Board.floor_leave]
  exact Iff.rfl

theorem live_link : Live (board.link host guest) cj ↔ Live board cj := by
  have tenants : Board.SameTenants board (board.link host guest) := Board.sameTenants_link
  have dead : (board.link host guest cj).dead = (board cj).dead := by
    unfold Board.link Board.host
    by_cases isGuest : cj = guest
    · subst isGuest
      rw [Function.update_self]
      by_cases isHost : cj = host
      · subst isHost
        rw [Function.update_self]
      · rw [Function.update_of_ne isHost]
    · rw [Function.update_of_ne isGuest]
      by_cases isHost : cj = host
      · subst isHost
        rw [Function.update_self]
      · rw [Function.update_of_ne isHost]
  unfold Live Board.floor
  simp only
  rw [(tenants cj).1, dead]

theorem live_seat : Live (board.seat ci fd) cj ↔ cj = ci ∨ Live board cj := by
  unfold Live
  rw [Board.floor_seat]
  exact Iff.rfl

theorem live_free : Live board.free cj ↔ Live board cj := by
  unfold Live
  rw [Board.floor_free]

theorem free_of_live (live : Live board ci) : board.free ci = board ci := by
  unfold Board.free
  rw [live.2, Bool.and_false]
  rfl

theorem holds_free : (board.free ci).holds = (board ci).holds := by
  unfold Board.free
  split <;> rfl

/-! ### Links -/

/-- A slot index, or none, and the object it stands for. -/
def Linked (board : Board) : Option Slot → Option Conn → Prop
  | none, partner => partner = none
  | some other, partner => ∃ d, (board other).holds = some d ∧ partner = some d

theorem Linked.congr {slot : Option Slot} {partner : Option Conn}
    (linked : Linked board slot partner)
    (holds : ∀ other, slot = some other → (after other).holds = (board other).holds) :
    Linked after slot partner := by
  cases slot with
  | none => exact linked
  | some other =>
      obtain ⟨d, held, isPartner⟩ := linked
      exact ⟨d, (holds other rfl).trans held, isPartner⟩

theorem Linked.isSome {slot : Option Slot} {partner : Option Conn}
    (linked : Linked board slot partner) : slot.isSome = partner.isSome := by
  cases slot with
  | none =>
      have none' : partner = none := linked
      rw [none']
      rfl
  | some other =>
      obtain ⟨d, -, rfl⟩ := linked
      rfl

/-- The links of those that can still act: the live ones, and the one whose
frames are being handled. -/
def Links (serving : Option Slot) (board : Board) (partner : Conn → Option Conn) : Prop :=
  ∀ ci c, Live board ci ∨ serving = some ci → (board ci).holds = some c →
    Linked board (board ci).partner (partner c)

variable {serving : Option Slot} {partner : Conn → Option Conn}

namespace Links

theorem rest (links : Links serving board partner) : Links none board partner := by
  intro ci c acting holds
  rcases acting with live | served
  · exact links ci c (Or.inl live) holds
  · cases served

theorem serve (links : Links none board partner) (live : Live board ci) :
    Links (some ci) board partner := by
  intro cj c acting holds
  rcases acting with here | served
  · exact links cj c (Or.inl here) holds
  · obtain rfl := Option.some.inj served
    exact links ci c (Or.inl live) holds

/-- The partner's link back is cleared, in both. -/
theorem leave {objects : Floor Conn Text Nat} (links : Links serving board objects.partner)
    (seats : Seats board order clients conns) (live : Live board ci)
    (holds : (board ci).holds = some c) :
    Links serving (board.leave ci) (objects.leave c).partner := by
  have tenants : Board.SameTenants board (board.leave ci) := Board.sameTenants_leave
  have same : ∀ other, (board.leave ci other).holds = (board other).holds := fun other =>
    (tenants other).2.2
  have own := links ci c (Or.inl live) holds
  have floor := @Board.floor_leave board ci
  intro one e acting held
  rw [same] at held
  have acting' : Live board one ∨ serving = some one :=
    acting.imp_left fun here => (live_leave.mp here).1
  have before := links one e acting' held
  have isPartner : (board.leave ci one).partner = (board.floor.leave ci).partner one :=
    congrFun (congrArg Floor.partner floor) one
  rw [isPartner]
  unfold Floor.leave
  cases slot : (board ci).partner with
  | none =>
      rw [slot] at own
      have slot' : board.floor.partner ci = none := slot
      have own' : objects.partner c = none := own
      rw [slot', own']
      exact before.congr fun other _ => same other
  | some other =>
      rw [slot] at own
      obtain ⟨d, held', own'⟩ := own
      have slot' : board.floor.partner ci = some other := slot
      rw [slot', own']
      simp only
      by_cases isLeft : one = other
      · subst isLeft
        obtain rfl := Option.some.inj (held.symm.trans held')
        rw [Function.update_self, Function.update_self]
        rfl
      · have apart : e ≠ d := by
          rintro rfl
          exact isLeft (seats.apart one other e held held')
        rw [Function.update_of_ne isLeft, Function.update_of_ne apart]
        exact before.congr fun other _ => same other

/-- Two slots, and the two objects, are linked. -/
theorem link {objects : Floor Conn Text Nat} (links : Links serving board objects.partner)
    (seats : Seats board order clients conns) (apart : host ≠ guest)
    (isHost : (board host).holds = some c) (isGuest : (board guest).holds = some d) :
    Links serving (board.link host guest) (objects.pair 0 1 c d).partner := by
  have tenants : Board.SameTenants board (board.link host guest) := Board.sameTenants_link
  have same : ∀ other, (board.link host guest other).holds = (board other).holds := fun other =>
    (tenants other).2.2
  have apart' : c ≠ d := by
    rintro rfl
    exact apart (seats.apart host guest c isHost isGuest)
  have floor := @Board.floor_link board host guest apart
  intro one e acting held
  rw [same] at held
  have slot : (board.link host guest one).partner =
      (board.floor.pair 0 1 host guest).partner one :=
    congrFun (congrArg Floor.partner floor) one
  rw [slot]
  unfold Floor.pair
  simp only
  by_cases second : one = guest
  · subst second
    obtain rfl := Option.some.inj (held.symm.trans isGuest)
    rw [Function.update_self, Function.update_self]
    exact ⟨c, (same host).trans isHost, rfl⟩
  · have notSecond : e ≠ d := by
      rintro rfl
      exact second (seats.apart one guest e held isGuest)
    rw [Function.update_of_ne second, Function.update_of_ne notSecond]
    by_cases first : one = host
    · subst first
      obtain rfl := Option.some.inj (held.symm.trans isHost)
      rw [Function.update_self, Function.update_self]
      exact ⟨d, (same guest).trans isGuest, rfl⟩
    · have notFirst : e ≠ c := by
        rintro rfl
        exact first (seats.apart one host e held isHost)
      rw [Function.update_of_ne first, Function.update_of_ne notFirst]
      have acting' : Live board one ∨ serving = some one := acting.imp_left live_link.mp
      exact (links one e acting' held).congr fun other _ => same other

/-- A slot may be taken anew if no live client has it as its partner. -/
theorem seat (links : Links none board partner) (seats : Seats board order clients conns)
    (known : conns ≤ fd) (strangers : ∀ one, Live board one → (board one).partner ≠ some ci) :
    Links none (board.seat ci fd) (Function.update partner fd none) := by
  intro one e acting held
  rcases acting with live | served
  · by_cases here : one = ci
    · subst here
      rw [Board.seat, Function.update_self] at held ⊢
      obtain rfl := Option.some.inj held
      rw [Function.update_self]
      rfl
    · have face : board.seat ci fd one = board one := Function.update_of_ne here ..
      rw [face] at held ⊢
      have live' : Live board one := (live_seat.mp live).resolve_left here
      have old : e ≠ fd := Nat.ne_of_lt (Nat.lt_of_lt_of_le (seats.known one e held) known)
      rw [Function.update_of_ne old]
      refine (links one e (Or.inl live') held).congr ?_
      rintro other isPartner
      have elsewhere : other ≠ ci := by
        rintro rfl
        exact strangers one live' isPartner
      rw [Board.seat, Function.update_of_ne elsewhere]
  · cases served

theorem free (links : Links none board partner) : Links none board.free partner := by
  intro one e acting held
  rcases acting with live | served
  · have live' := live_free.mp live
    rw [free_of_live live'] at held ⊢
    exact (links one e (Or.inl live') held).congr fun _ _ => holds_free
  · cases served

end Links

/-! ### Names -/

/-- The two name tables list the same names in the same order, and a live client
owns the entry of its name in both. -/
structure Names (board : Board) (byName : List NameEnt) (dict : Dict Text Conn)
    (name : Conn → Option Text) : Prop where
  names : byName.map NameEnt.name = dict.keys.map encode
  shorts : ∀ key ∈ dict.keys, ShortName key
  owns : ∀ ci c key, Live board ci → (board ci).holds = some c → name c = some key →
    dict.get? key = some c ∧
      (byName.find? fun entry => entry.name = encode key) =
        some ⟨encode key, ci, (board ci).gen⟩

variable {byName : List NameEnt} {dict : Dict Text Conn} {name : Conn → Option Text}
  {key : Text}

namespace Names

theorem size (names : Names board byName dict name) : byName.length = dict.size := by
  have same := congrArg List.length names.names
  rw [List.length_map, List.length_map] at same
  exact same.trans (List.length_map Prod.fst)

/-- A name is taken in the one table if it is in the other. -/
theorem taken (names : Names board byName dict name) (short : ShortName key) :
    (byName.any fun entry => entry.name = encode key) = (dict.get? key).isSome := by
  rw [Bool.eq_iff_iff, List.any_eq_true, Dict.get?_isSome_iff]
  constructor
  · rintro ⟨entry, member, isName⟩
    have listed : encode key ∈ dict.keys.map encode := by
      rw [← names.names, ← of_decide_eq_true isName]
      exact List.mem_map_of_mem member
    obtain ⟨other, member', same⟩ := List.mem_map.mp listed
    exact encode_inj (names.shorts other member') short same ▸ member'
  · intro member
    have listed : encode key ∈ byName.map NameEnt.name := by
      rw [names.names]
      exact List.mem_map_of_mem member
    obtain ⟨entry, member', same⟩ := List.mem_map.mp listed
    exact ⟨entry, member', decide_eq_true same⟩

/-- The same clients are live, or fewer, in the same slots. -/
theorem fewer (names : Names board byName dict name)
    (live : ∀ ci, Live after ci → Live board ci)
    (tenants : ∀ ci, Live after ci →
      (after ci).holds = (board ci).holds ∧ (after ci).gen = (board ci).gen) :
    Names after byName dict name where
  names := names.names
  shorts := names.shorts
  owns ci c key here holds isName := by
    obtain ⟨same, same'⟩ := tenants ci here
    rw [same'] at *
    exact names.owns ci c key (live ci here) (same ▸ holds) isName

theorem unnamed_leave (names : Names board byName dict name) :
    Names (board.leave ci) byName dict name :=
  names.fewer (fun _ live => (live_leave.mp live).1) fun cj _ =>
    ⟨((@Board.sameTenants_leave board ci) cj).2.2, ((@Board.sameTenants_leave board ci) cj).2.1⟩

/-- The entry of a client that leaves goes from both tables. -/
theorem named_leave (names : Names board byName dict name)
    (seats : Seats board order clients conns) (live : Live board ci)
    (holds : (board ci).holds = some c) (isName : name c = some key) :
    Names (board.leave ci) (byName.eraseP fun entry => entry.name = encode key)
      (dict.erase key) name := by
  have tenants : Board.SameTenants board (board.leave ci) := Board.sameTenants_leave
  have own := names.owns ci c key live holds isName
  have listed : ∀ d other, dict.get? other = some d → ShortName other := fun d other got =>
    names.shorts other (Dict.get?_isSome_iff.mp (by rw [got]; rfl))
  have short := listed c key own.1
  refine ⟨?_, ?_, ?_⟩
  · have erased : (byName.eraseP fun entry => entry.name = encode key).map NameEnt.name =
        (byName.map NameEnt.name).erase (encode key) := by
      rw [List.erase_eq_eraseP', List.eraseP_map]
      congr 2
      funext entry
      rw [Bool.eq_iff_iff, decide_eq_true_iff, Function.comp_apply, beq_iff_eq]
    rw [erased, names.names, Dict.keys_erase]
    have only : ∀ other ∈ dict.keys, encode other = encode key → other = key :=
      fun other member same => encode_inj (names.shorts other member) short same
    have distinct : dict.keys.Nodup := dict.distinct
    rw [← map_erase_of only, distinct.erase_eq_filter]
    congr 2
    funext other
    rw [Bool.eq_iff_iff, decide_eq_true_iff, bne_iff_ne]
  · intro other member
    rw [Dict.keys_erase] at member
    exact names.shorts other (List.mem_of_mem_filter member)
  · intro cj d other live' held isName'
    obtain ⟨live', apart⟩ := live_leave.mp live'
    rw [(tenants cj).2.2] at held
    rw [(tenants cj).2.1]
    obtain ⟨got, found⟩ := names.owns cj d other live' held isName'
    have differs : other ≠ key := by
      rintro rfl
      have same := Option.some.inj (got.symm.trans own.1)
      subst same
      exact apart (seats.apart cj ci d held holds)
    refine ⟨?_, ?_⟩
    · rw [Dict.get?_erase, if_neg differs]
      exact got
    · rw [find?_eraseP_of]
      · exact found
      · intro entry erased
        apply decide_eq_false
        intro kept
        have same : encode other = encode key := kept.symm.trans (of_decide_eq_true erased)
        exact differs (encode_inj (listed d other got) short same)

/-- A name that was free is entered at the end of both tables. -/
theorem register (names : Names board byName dict name)
    (seats : Seats board order clients conns) (holds : (board ci).holds = some c)
    (short : ShortName key) (isFree : dict.get? key = none) :
    Names board (byName ++ [⟨encode key, ci, (board ci).gen⟩]) (dict.set key c)
      (Function.update name c (some key)) := by
  have fresh : key ∉ dict.keys := Dict.get?_eq_none_iff.mp isFree
  have missed : (byName.find? fun entry => entry.name = encode key) = none := by
    rw [List.find?_eq_none]
    intro entry member isName
    have taken := names.taken short
    rw [isFree] at taken
    exact List.any_eq_false.mp taken entry member isName
  refine ⟨?_, ?_, ?_⟩
  · rw [List.map_append, names.names, Dict.keys_set, if_neg fresh, List.map_append]
    rfl
  · intro other member
    rcases Dict.mem_keys_set.mp member with rfl | old
    · exact short
    · exact names.shorts other old
  · intro cj d other live held isName
    by_cases here : d = c
    · subst here
      rw [Function.update_self] at isName
      obtain rfl := Option.some.inj isName
      obtain rfl := seats.apart cj ci d held holds
      refine ⟨by rw [Dict.get?_set, if_pos rfl], ?_⟩
      rw [List.find?_append, missed]
      simp
    · rw [Function.update_of_ne here] at isName
      obtain ⟨got, found⟩ := names.owns cj d other live held isName
      have differs : other ≠ key := by
        rintro rfl
        rw [isFree] at got
        cases got
      refine ⟨by rw [Dict.get?_set, if_neg differs, got], ?_⟩
      rw [List.find?_append, found]
      rfl

/-- A new client has no name. -/
theorem seat (names : Names board byName dict name) :
    Names (board.seat ci fd) byName dict (Function.update name fd none) where
  names := names.names
  shorts := names.shorts
  owns cj d other live held isName := by
    by_cases new : d = fd
    · subst new
      rw [Function.update_self] at isName
      cases isName
    · rw [Function.update_of_ne new] at isName
      have elsewhere : cj ≠ ci := by
        rintro rfl
        rw [Board.seat, Function.update_self] at held
        exact new (Option.some.inj held).symm
      have face : board.seat ci fd cj = board cj := Function.update_of_ne elsewhere ..
      rw [face] at held ⊢
      exact names.owns cj d other ((live_seat.mp live).resolve_left elsewhere) held isName

theorem free (names : Names board byName dict name) : Names board.free byName dict name :=
  names.fewer (fun _ live => live_free.mp live) fun _ live => by
    rw [free_of_live (live_free.mp live)]
    exact ⟨rfl, rfl⟩

theorem link (names : Names board byName dict name) :
    Names (board.link host guest) byName dict name :=
  names.fewer (fun _ live => live_link.mp live) fun cj _ =>
    ⟨((@Board.sameTenants_link board host guest) cj).2.2,
      ((@Board.sameTenants_link board host guest) cj).2.1⟩

end Names

/-! ### Descriptors -/

/-- A live slot has its connection's descriptor, which is watched under its tag;
no other is watched. -/
structure Watch (board : Board) (watched : Conn → Option (Slot × BitVec 32))
    (fds : Slot → Option Conn) : Prop where
  opened : ∀ ci, Live board ci → fds ci = (board ci).holds
  watched : ∀ c ci gen, watched c = some (ci, gen) ↔
    Live board ci ∧ (board ci).holds = some c ∧ (board ci).gen = gen

variable {watched : Conn → Option (Slot × BitVec 32)} {fds : Slot → Option Conn}

namespace Watch

theorem congr (watch : Watch board watched fds)
    (live : ∀ ci, Live after ci ↔ Live board ci)
    (tenants : ∀ ci, Live after ci →
      (after ci).holds = (board ci).holds ∧ (after ci).gen = (board ci).gen) :
    Watch after watched fds where
  opened ci here := by
    rw [(tenants ci here).1]
    exact watch.opened ci ((live ci).mp here)
  watched c ci gen := by
    rw [watch.watched, live]
    constructor
    · rintro ⟨here, holds, isGen⟩
      obtain ⟨same, same'⟩ := tenants ci ((live ci).mpr here)
      exact ⟨here, same.trans holds, same'.trans isGen⟩
    · rintro ⟨here, holds, isGen⟩
      obtain ⟨same, same'⟩ := tenants ci ((live ci).mpr here)
      exact ⟨here, same.symm.trans holds, same'.symm.trans isGen⟩

theorem leave (watch : Watch board watched fds) (seats : Seats board order clients conns)
    (holds : (board ci).holds = some c) :
    Watch (board.leave ci) (Function.update watched c none) (Function.update fds ci none) := by
  have tenants : Board.SameTenants board (board.leave ci) := Board.sameTenants_leave
  refine ⟨?_, ?_⟩
  · intro cj live
    obtain ⟨live, apart⟩ := live_leave.mp live
    rw [Function.update_of_ne apart, (tenants cj).2.2]
    exact watch.opened cj live
  · intro d cj gen
    rw [(tenants cj).2.2, (tenants cj).2.1, live_leave]
    by_cases here : d = c
    · subst here
      rw [Function.update_self]
      constructor
      · intro absurd
        cases absurd
      · rintro ⟨⟨-, apart⟩, held, -⟩
        exact absurd (seats.apart cj ci d held holds) apart
    · rw [Function.update_of_ne here, watch.watched]
      constructor
      · rintro ⟨live, held, isGen⟩
        refine ⟨⟨live, ?_⟩, held, isGen⟩
        rintro rfl
        exact here (Option.some.inj (held.symm.trans holds))
      · rintro ⟨⟨live, -⟩, held, isGen⟩
        exact ⟨live, held, isGen⟩

theorem seat (watch : Watch board watched fds) (seats : Seats board order clients conns)
    (vacant : (board ci).inUse = false) (known : conns ≤ fd) :
    Watch (board.seat ci fd) (Function.update watched fd (some (ci, (board ci).gen)))
      (Function.update fds ci (some fd)) := by
  have others : ∀ cj, cj ≠ ci → board.seat ci fd cj = board cj := fun cj apart =>
    Function.update_of_ne apart ..
  refine ⟨?_, ?_⟩
  · intro cj live
    by_cases here : cj = ci
    · subst here
      rw [Board.seat, Function.update_self, Function.update_self]
    · rw [others cj here, Function.update_of_ne here]
      exact watch.opened cj ((live_seat.mp live).resolve_left here)
  · intro d cj gen
    by_cases new : d = fd
    · subst new
      rw [Function.update_self]
      by_cases here : cj = ci
      · subst here
        rw [live_seat, Board.seat, Function.update_self]
        simp
      · rw [others cj here]
        constructor
        · intro same
          exact absurd (Prod.mk.inj (Option.some.inj same)).1.symm here
        · rintro ⟨-, held, -⟩
          exact absurd (seats.known cj d held) (Nat.not_lt.mpr known)
    · rw [Function.update_of_ne new, watch.watched]
      by_cases here : cj = ci
      · subst here
        rw [Board.seat, Function.update_self]
        constructor
        · rintro ⟨live, -, -⟩
          rw [live.1] at vacant
          cases vacant
        · rintro ⟨-, held, -⟩
          exact absurd (Option.some.inj held).symm new
      · rw [others cj here, live_seat]
        simp [here]

theorem free (watch : Watch board watched fds) : Watch board.free watched fds :=
  watch.congr (fun _ => live_free) fun _ live => by
    rw [free_of_live (live_free.mp live)]
    exact ⟨rfl, rfl⟩

theorem link (watch : Watch board watched fds) :
    Watch (board.link host guest) watched fds :=
  watch.congr (fun _ => live_link) fun cj _ =>
    ⟨((@Board.sameTenants_link board host guest) cj).2.2,
      ((@Board.sameTenants_link board host guest) cj).2.1⟩

end Watch

end DragsterNet.Refine
