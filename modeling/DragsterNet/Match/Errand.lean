/-
Module: DragsterNet.Match.Errand
Purpose: What the network machine and the cartridge know of each other: the
  request a state waits for, and what its answer promises.
Trusted boundary: none
Main exports: Seat.Errand, Seat.errand_step, Seat.errand_serve,
  Seat.errand_ack, Seat.Holding
-/
import DragsterNet.Match.Seat
import DragsterNet.Lib.Frames

namespace DragsterNet

open Lib

/-- What the machine launches is launched. -/
theorem Cart.launch_next {cart : Cart} {request : Request}
    (isNext : request.seq = nextSeq cart.painted.fnAcks) :
    cart.launch request = { cart with stage := .launched request } := by
  obtain ⟨fresh, new⟩ := nextSeq_new cart.painted.fnAcks
  rw [← isNext] at fresh new
  exact if_pos ⟨fresh, new.symm⟩

namespace Seat

open Console

/-- The whole frames of `unread` stand at the front of the reply window. -/
def Holding (reply : Nat → Byte) (unread : List Posted) : Prop :=
  ∀ (index : Nat) (posted : Posted), unread[index]? = some posted →
    ∀ offset < 8, posted.frame[offset]? = some (reply (8 * index + offset))

/-- A count the machine may read: whole frames, all of which have arrived. -/
structure Readable (sock : List Byte) (rdn : Byte) : Prop where
  whole : rdn.toNat % 8 = 0
  arrived : rdn.toNat ≤ sock.length

/-- The transaction is with the cartridge, or its answer is there. -/
def Awaiting (seq : Byte) (cart : Cart) (Asked : Request → Prop)
    (Answer : Painted → Prop) : Prop :=
  match cart.stage with
  | .idle => cart.painted.fnAcks = seq ∧ Answer cart.painted
  | .launched request =>
      cart.painted.fnAcks ≠ seq ∧ request.seq = seq ∧ Asked request
  | .served reply => cart.painted.fnAcks ≠ seq ∧ reply.fnAcks = seq ∧ Answer reply

def WriteAsked (last : Option Sent) (request : Request) : Prop :=
  request.command = ncWrite ∧ ∃ sent ∈ last, request.tx = [2, irLen, 0] ++ sent.frame

def StatAnswer (sock : List Byte) (reply : Painted) : Prop :=
  reply.fnErr = 0 ∧ ∃ waiting ≤ sock.length, reply.fnRply = Cart.statusReply waiting

def ReadAsked (rdn : Byte) (sock : List Byte) (unread : List Posted)
    (request : Request) : Prop :=
  request.command = ncRead ∧ request.tx = [2, rdn, 0] ∧ Readable sock rdn ∧ unread = []

def ReadAnswer (unread : List Posted) (reply : Painted) : Prop :=
  reply.fnErr = 0 ∧ reply.fnRxLo.toNat = 8 * unread.length ∧ Holding reply.fnRply unread

/-- The agreement, by the machine's state.  `last` is the record written last.
A state that launches finds the cartridge idle and nothing unread. -/
def Agreed (nst : NetState) (seq rdn : Byte) (last : Option Sent) (cart : Cart)
    (sock : List Byte) (unread : List Posted) : Prop :=
  match nst with
  | .idle | .fail => False
  | .wiss | .siss => cart.stage = .idle ∧ unread = []
  | .wack => unread = [] ∧
      Awaiting seq cart (WriteAsked last) fun reply => reply.fnErr = 0
  | .sack => unread = [] ∧
      Awaiting seq cart (fun request => request.command = ncStat) (StatAnswer sock)
  | .riss => cart.stage = .idle ∧ unread = [] ∧ Readable sock rdn
  | .rack => Awaiting seq cart (ReadAsked rdn sock unread) (ReadAnswer unread)
  | .cons => cart.stage = .idle ∧ rdn.toNat = unread.length ∧
      Holding cart.painted.fnRply unread

def Errand (seat : Seat) : Prop :=
  Agreed seat.desk.console.dgNst seat.desk.console.dgSeq seat.desk.console.dgRdn
    seat.desk.writes.getLast? seat.cart seat.sock seat.unread

variable {seq rdn : Byte} {cart : Cart} {sock : List Byte} {unread : List Posted}

theorem awaiting_launched {Asked : Request → Prop} {Answer : Painted → Prop}
    {request : Request} (isNext : request.seq = nextSeq cart.painted.fnAcks)
    (asked : Asked request) :
    Awaiting request.seq (cart.launch request) Asked Answer := by
  rw [Cart.launch_next isNext]
  exact ⟨isNext ▸ (nextSeq_new cart.painted.fnAcks).2, rfl, asked⟩

/-- An acknowledgement the machine has seen is that of the answer. -/
theorem awaiting_acked {Asked : Request → Prop} {Answer : Painted → Prop}
    (awaiting : Awaiting seq cart Asked Answer) (acked : cart.painted.fnAcks = seq) :
    cart.stage = .idle ∧ Answer cart.painted := by
  unfold Awaiting at awaiting
  split at awaiting
  · rename_i idle
    exact ⟨idle, awaiting.2⟩
  · exact absurd acked awaiting.1
  · exact absurd acked awaiting.1

theorem awaiting_mono {Asked Asked' : Request → Prop} {Answer Answer' : Painted → Prop}
    (awaiting : Awaiting seq cart Asked Answer)
    (asked : ∀ request, Asked request → Asked' request)
    (answer : ∀ reply, Answer reply → Answer' reply) :
    Awaiting seq cart Asked' Answer' := by
  unfold Awaiting at awaiting ⊢
  split
  · rename_i idle
    rw [idle] at awaiting
    exact ⟨awaiting.1, answer _ awaiting.2⟩
  · rename_i launched
    rw [launched] at awaiting
    exact ⟨awaiting.1, awaiting.2.1, asked _ awaiting.2.2⟩
  · rename_i served
    rw [served] at awaiting
    exact ⟨awaiting.1, awaiting.2.1, answer _ awaiting.2.2⟩

theorem readable_mono {more : List Byte} (readable : Readable sock rdn) :
    Readable (sock ++ more) rdn :=
  ⟨readable.whole, by rw [List.length_append]; have := readable.arrived; omega⟩

/-- Bytes that arrive later break no promise. -/
theorem agreed_deliver {nst : NetState} {last : Option Sent} {more : List Byte}
    (agreed : Agreed nst seq rdn last cart sock unread) :
    Agreed nst seq rdn last cart (sock ++ more) unread := by
  cases nst with
  | idle => exact agreed
  | fail => exact agreed
  | wiss => exact agreed
  | siss => exact agreed
  | wack => exact agreed
  | sack =>
      refine ⟨agreed.1, awaiting_mono agreed.2 (fun _ asked => asked) ?_⟩
      rintro reply ⟨noError, waiting, arrived, status⟩
      refine ⟨noError, waiting, ?_, status⟩
      rw [List.length_append]
      omega
  | riss => exact ⟨agreed.1, agreed.2.1, readable_mono agreed.2.2⟩
  | rack =>
      refine awaiting_mono agreed ?_ (fun _ answer => answer)
      rintro request ⟨command, tx, readable, nothing⟩
      exact ⟨command, tx, readable_mono readable, nothing⟩
  | cons => exact agreed

/-- An answer that is published is there. -/
theorem awaiting_ack {Asked : Request → Prop} {Answer : Painted → Prop} {reply : Painted}
    (awaiting : Awaiting seq cart Asked Answer) (served : cart.stage = .served reply) :
    Awaiting seq { painted := reply, stage := .idle } Asked Answer := by
  unfold Awaiting at awaiting
  rw [served] at awaiting
  exact ⟨awaiting.2.1, awaiting.2.2⟩

/-- The acknowledgement is published. -/
theorem agreed_ack {nst : NetState} {last : Option Sent} {reply : Painted}
    (agreed : Agreed nst seq rdn last cart sock unread)
    (served : cart.stage = .served reply) :
    Agreed nst seq rdn last { painted := reply, stage := .idle } sock unread := by
  have notIdle : cart.stage ≠ .idle := by
    rw [served]
    exact Stage.noConfusion
  cases nst with
  | idle => exact agreed
  | fail => exact agreed
  | wiss => exact absurd agreed.1 notIdle
  | siss => exact absurd agreed.1 notIdle
  | wack => exact ⟨agreed.1, awaiting_ack agreed.2 served⟩
  | sack => exact ⟨agreed.1, awaiting_ack agreed.2 served⟩
  | riss => exact absurd agreed.1 notIdle
  | rack => exact awaiting_ack agreed served
  | cons => exact absurd agreed.1 notIdle

/-! ### The machine's steps -/

variable {console : Console} {last : Option Sent}

/-- The agreement, read off a console. -/
abbrev AgreedAt (console : Console) (last : Option Sent) (cart : Cart)
    (sock : List Byte) (unread : List Posted) : Prop :=
  Agreed console.dgNst console.dgSeq console.dgRdn last cart sock unread

/-- A failed transaction is out of the question, so the machine goes on to the
STATUS once its WRITE is acknowledged. -/
theorem agreed_wack (agreed : Agreed .wack console.dgSeq console.dgRdn last cart sock unread)
    (state : console.dgNst = .wack) :
    AgreedAt (dgsWack cart.painted console) last cart sock unread := by
  unfold dgsWack
  split
  · rename_i acked
    obtain ⟨idle, noError⟩ := awaiting_acked agreed.2 (by simpa [dgAck] using acked)
    rw [if_neg (by simpa using noError)]
    exact ⟨idle, agreed.1⟩
  · unfold AgreedAt
    rw [state]
    exact agreed

/-- The mask of the settle rule counts whole frames. -/
theorem whole_frames : ∀ byte : Byte, (byte &&& irMask).toNat = byte.toNat / 8 * 8 := by
  decide

/-- The whole frames among `waiting` bytes, as the settle rule counts them. -/
theorem settle_low (waiting : Nat) (small : min waiting 65535 / 256 % 256 = 0) :
    (Cart.statusReply waiting nsAvLo &&& irMask).toNat = min waiting 65535 / 8 * 8 := by
  have low : (Cart.statusReply waiting nsAvLo).toNat = min waiting 65535 := by
    show (BitVec.ofNat 8 (min waiting 65535)).toNat = _
    rw [BitVec.toNat_ofNat]
    omega
  rw [whole_frames, low]

theorem agreed_sack (agreed : Agreed .sack console.dgSeq console.dgRdn last cart sock unread)
    (state : console.dgNst = .sack) :
    AgreedAt (dgsSack cart.painted console) last cart sock unread := by
  unfold dgsSack
  split
  · rename_i acked
    obtain ⟨idle, noError, waiting, arrived, status⟩ :=
      awaiting_acked agreed.2 (by simpa [dgAck] using acked)
    have healthy : cart.painted.fnRply nsDevSt = 1 := by
      rw [status]
      rfl
    rw [if_neg (by simpa using noError), if_neg (by simpa using healthy)]
    have high : (Cart.statusReply waiting nsAvHi).toNat = min waiting 65535 / 256 % 256 := by
      show (BitVec.ofNat 8 (min waiting 65535 / 256)).toNat = _
      rw [BitVec.toNat_ofNat]
    rw [status]
    split
    · rename_i many
      have notZero : (Cart.statusReply waiting nsAvHi).toNat ≠ 0 := by
        intro zero
        exact many (BitVec.eq_of_toNat_eq zero)
      rw [high] at notZero
      have arrived' : 248 ≤ sock.length := by omega
      exact ⟨idle, agreed.1, (rfl : (0xF8 : Byte).toNat % 8 = 0), arrived'⟩
    · rename_i few
      have zero : min waiting 65535 / 256 % 256 = 0 := by
        rw [← high, Decidable.not_not.mp few]
        rfl
      split
      · exact ⟨idle, agreed.1⟩
      · refine ⟨idle, agreed.1, ?_, ?_⟩
        · show (Cart.statusReply waiting nsAvLo &&& irMask).toNat % 8 = 0
          rw [settle_low waiting zero]
          omega
        · show (Cart.statusReply waiting nsAvLo &&& irMask).toNat ≤ _
          rw [settle_low waiting zero]
          omega
  · unfold AgreedAt
    rw [state]
    exact agreed

theorem agreed_rack (agreed : Agreed .rack console.dgSeq console.dgRdn last cart sock unread)
    (state : console.dgNst = .rack) :
    AgreedAt (dgsRack cart.painted console) last cart sock unread := by
  unfold dgsRack
  split
  · rename_i acked
    obtain ⟨idle, noError, length, holding⟩ :=
      awaiting_acked agreed (by simpa [dgAck] using acked)
    rw [if_neg (by simpa using noError)]
    refine ⟨idle, ?_, holding⟩
    show (cart.painted.fnRxLo >>> 3).toNat = _
    rw [BitVec.toNat_ushiftRight, length, Nat.shiftRight_eq_div_pow]
    omega
  · unfold AgreedAt
    rw [state]
    exact agreed

/-- Every step that consumes no record keeps the agreement.  `sent` stands for
the record a WRITE adds to the history. -/
theorem agreed_dgNstep (agreed : AgreedAt console last cart sock unread)
    (idle : ¬ (console.dgNst = .cons ∧ console.dgRdn ≠ 0)) {sent : Sent}
    (isRecord : sent.frame = console.record) :
    AgreedAt (console.dgNstep cart.painted).1
      (if console.dgNst = .wiss then some sent else last)
      (cart.commit (console.dgNstep cart.painted).2) sock unread := by
  unfold AgreedAt at agreed
  unfold dgNstep
  cases state : console.dgNst with
  | idle =>
      rw [state] at agreed
      exact agreed.elim
  | fail =>
      rw [state] at agreed
      exact agreed.elim
  | wiss =>
      rw [state] at agreed
      have asked : WriteAsked (some sent)
          { device := netDev, command := ncWrite, params := 1,
            tx := [2, irLen, 0] ++ console.record, seq := nextSeq cart.painted.fnAcks } :=
        ⟨rfl, sent, rfl, by rw [isRecord]⟩
      exact ⟨agreed.2, awaiting_launched rfl asked⟩
  | wack =>
      rw [state] at agreed
      exact agreed_wack agreed state
  | siss =>
      rw [state] at agreed
      exact ⟨agreed.2, awaiting_launched rfl rfl⟩
  | sack =>
      rw [state] at agreed
      exact agreed_sack agreed state
  | riss =>
      rw [state] at agreed
      have asked : ReadAsked console.dgRdn sock unread
          { device := netDev, command := ncRead, params := 1, tx := [2, console.dgRdn, 0],
            seq := nextSeq cart.painted.fnAcks } :=
        ⟨rfl, rfl, agreed.2.2, agreed.2.1⟩
      exact awaiting_launched rfl asked
  | rack =>
      rw [state] at agreed
      exact agreed_rack agreed state
  | cons =>
      rw [state] at agreed
      have done : console.dgRdn = 0 := by
        by_contra more
        exact idle ⟨state, more⟩
      have nothing : unread = [] := by
        rw [← List.length_eq_zero_iff, ← agreed.2.1, done]
        rfl
      show AgreedAt (dgsCons cart.painted console) _ _ _ _
      rw [dgsCons, if_pos done]
      exact ⟨agreed.1, nothing⟩

/-- Consuming the newest record leaves the others where they are. -/
theorem agreed_consume (agreed : Agreed .cons seq rdn last cart sock unread)
    (more : rdn ≠ 0) : Agreed .cons seq (rdn - 1) last cart sock unread.dropLast := by
  obtain ⟨idle, length, holding⟩ := agreed
  have counted : (rdn - 1).toNat = rdn.toNat - 1 := by
    have positive : rdn.toNat ≠ 0 := fun zero => more (BitVec.eq_of_toNat_eq zero)
    bv_omega
  refine ⟨idle, ?_, ?_⟩
  · rw [counted, List.length_dropLast, length]
  · intro index posted isPosted
    refine holding index posted ?_
    rw [List.getElem?_dropLast] at isPosted
    split at isPosted
    · exact isPosted
    · cases isPosted

/-! ### The cartridge's part -/

/-- The frames at the front of the socket are what a READ returns. -/
theorem holding_read {rest : List Posted} {wire : List Byte} {old : Nat → Byte}
    (stream : sock ++ wire = (rest.map Posted.frame).flatten)
    (sized : Frames.Sized 8 (rest.map Posted.frame)) {records : Nat}
    (arrived : 8 * records ≤ sock.length) :
    Holding (Cart.readReply (sock.take (8 * records)) old) (rest.take records) := by
  intro index posted isPosted offset inside
  obtain ⟨small, isRest⟩ : index < records ∧ rest[index]? = some posted := by
    rw [List.getElem?_take] at isPosted
    split at isPosted
    · rename_i small
      exact ⟨small, isPosted⟩
    · cases isPosted
  have bound : 8 * index + offset < 8 * records := by omega
  have byte : sock[8 * index + offset]? = posted.frame[offset]? := by
    have inStream := Frames.flatten_getElem? sized index inside
    rw [← stream, List.getElem?_append_left (by omega)] at inStream
    rw [inStream, List.getElem?_map, isRest]
    rfl
  have length : offset < posted.frame.length := by
    have := sized posted.frame (List.mem_map_of_mem (List.mem_of_getElem? isRest))
    omega
  unfold Cart.readReply
  rw [List.getD_eq_getElem?_getD, List.getElem?_take, if_pos bound, byte,
    List.getElem?_eq_getElem length]
  rfl

end Seat

end DragsterNet
