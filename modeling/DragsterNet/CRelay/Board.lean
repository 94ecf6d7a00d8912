/-
Module: DragsterNet.CRelay.Board
Purpose: The slots of the C relay as the others see them, the moves on them, and
  the tags that say which connection a link was made for.
Trusted boundary: none
Main exports: Face, Board, Board.floor, Board.Bound, Board.Bound.leave,
  Board.Bound.link, Board.Bound.seat, Board.Bound.free
-/
import DragsterNet.Lib.Matching
import DragsterNet.CRelay.Program

namespace DragsterNet.CRelay

open Lib Relay

/-- What a slot is to the others. -/
structure Face where
  inUse : Bool
  dead : Bool
  gen : BitVec 32
  holds : Option Conn
  linked : Option (Option Conn × BitVec 32)
  partner : Option Slot
  role : Option Nat

abbrev Board := Slot → Face

namespace Board

variable {board : Board} {ci one two : Slot} {fd : Conn}

/-- The connection and generation of a slot. -/
def tag (board : Board) (ci : Slot) : Option (Option Conn × BitVec 32) :=
  some ((board ci).holds, (board ci).gen)

def conn (board : Board) (ci : Slot) : Conn := (board ci).holds.getD 0

/-- The slots as a matchmaker's floor, on which everybody has the same name. -/
def floor (board : Board) : Floor Slot Unit Nat where
  present ci := (board ci).inUse = true ∧ (board ci).dead = false
  name _ := some ()
  partner ci := (board ci).partner
  role ci := (board ci).role

def mark (board : Board) (ci : Slot) : Board :=
  Function.update board ci { board ci with dead := true }

/-- `ci` is marked dead, and its partner's link is cleared. -/
def leave (board : Board) (ci : Slot) : Board :=
  match (board ci).partner with
  | some partner =>
      Function.update (board.mark ci) partner { board.mark ci partner with partner := none }
  | none => board.mark ci

def host (board : Board) (ci guest : Slot) : Board :=
  Function.update board ci
    { board ci with partner := some guest, role := some 0, linked := board.tag guest }

/-- `one` becomes `two`'s host. -/
def link (board : Board) (one two : Slot) : Board :=
  Function.update (board.host one two) two
    { board.host one two two with
      partner := some one, role := some 1, linked := board.tag one }

/-- A connection is seated in a slot. -/
def seat (board : Board) (ci : Slot) (fd : Conn) : Board :=
  Function.update board ci
    { inUse := true, dead := false, gen := (board ci).gen, holds := some fd, linked := none,
      partner := none, role := none }

/-- The dead slots are freed. -/
def free (board : Board) : Board := fun ci =>
  if (board ci).inUse && (board ci).dead then
    { board ci with inUse := false, gen := (board ci).gen + 1 }
  else board ci

/-- Use, generation and connection of every slot are as before. -/
def SameTenants (board after : Board) : Prop :=
  ∀ ci, (after ci).inUse = (board ci).inUse ∧ (after ci).gen = (board ci).gen ∧
    (after ci).holds = (board ci).holds

theorem SameTenants.tag {after : Board} (same : SameTenants board after) :
    after.tag ci = board.tag ci := by
  unfold Board.tag
  rw [(same ci).2.1, (same ci).2.2]

theorem SameTenants.conn {after : Board} (same : SameTenants board after) :
    after.conn ci = board.conn ci := by
  unfold Board.conn
  rw [(same ci).2.2]

/-- An update that keeps use, generation and connection of its slot keeps those
of all slots. -/
theorem sameTenants_update {face : Face} (inUse : face.inUse = (board ci).inUse)
    (gen : face.gen = (board ci).gen) (holds : face.holds = (board ci).holds) :
    SameTenants board (Function.update board ci face) := by
  intro other
  by_cases here : other = ci
  · subst here
    rw [Function.update_self]
    exact ⟨inUse, gen, holds⟩
  · rw [Function.update_of_ne here]
    exact ⟨rfl, rfl, rfl⟩

theorem SameTenants.trans {middle after : Board} (one : SameTenants board middle)
    (two : SameTenants middle after) : SameTenants board after := fun ci =>
  ⟨(two ci).1.trans (one ci).1, (two ci).2.1.trans (one ci).2.1,
    (two ci).2.2.trans (one ci).2.2⟩

theorem sameTenants_leave : SameTenants board (board.leave ci) := by
  have marked : SameTenants board (board.mark ci) := sameTenants_update rfl rfl rfl
  unfold leave
  split
  · exact marked.trans (sameTenants_update rfl rfl rfl)
  · exact marked

theorem sameTenants_link : SameTenants board (board.link one two) := by
  have hosted : SameTenants board (board.host one two) := sameTenants_update rfl rfl rfl
  exact hosted.trans (sameTenants_update rfl rfl rfl)

/-! ### The moves on the floor -/

theorem floor_leave : (board.leave ci).floor = board.floor.leave ci := by
  cases isPartner : (board ci).partner with
  | none =>
      refine Floor.ext ?_ rfl ?_ ?_
      all_goals
        funext other
        by_cases here : other = ci
        · subst here
          simp [leave, mark, floor, Floor.leave, isPartner]
        · simp [leave, mark, floor, Floor.leave, isPartner, here]
  | some partner =>
      refine Floor.ext ?_ rfl ?_ ?_
      all_goals
        funext other
        by_cases isLeft : other = partner
        · subst isLeft
          by_cases here : other = ci
          · subst here
            simp [leave, mark, floor, Floor.leave, isPartner]
          · simp [leave, mark, floor, Floor.leave, isPartner, here]
        · by_cases here : other = ci
          · subst here
            simp [leave, mark, floor, Floor.leave, isPartner, isLeft]
          · simp [leave, mark, floor, Floor.leave, isPartner, isLeft, here]

theorem floor_link (apart : one ≠ two) :
    (board.link one two).floor = board.floor.pair 0 1 one two := by
  refine Floor.ext ?_ rfl ?_ ?_
  all_goals
    funext other
    by_cases isGuest : other = two
    · subst isGuest
      simp [link, host, floor, Floor.pair, apart.symm]
    · by_cases isHost : other = one
      · subst isHost
        simp [link, host, floor, Floor.pair, apart]
      · simp [link, host, floor, Floor.pair, isHost, isGuest]

theorem floor_seat : (board.seat ci fd).floor = (board.floor.enter ci).call ci () := by
  refine Floor.ext ?_ ?_ ?_ ?_
  all_goals
    funext other
    by_cases here : other = ci
    · subst here
      simp [seat, floor, Floor.enter, Floor.call]
    · simp [seat, floor, Floor.enter, Floor.call, here]

/-- Those that are present are not dead, so they stay. -/
theorem floor_free : board.free.floor = board.floor := by
  refine Floor.ext ?_ rfl ?_ ?_
  all_goals
    funext ci
    cases isUsed : (board ci).inUse <;> cases isDead : (board ci).dead <;>
      simp [free, floor, isUsed, isDead]

/-! ### Links and tags -/

/-- Every link from a slot in use leads to a slot in use, to the connection and
generation it was made for, and to somebody its own connection has met. -/
def Bound (met : Conn → Conn → Prop) (board : Board) : Prop :=
  ∀ x y, (board x).inUse = true → (board x).partner = some y →
    (board y).inUse = true ∧ (board x).linked = board.tag y ∧ met (board.conn x) (board.conn y)

variable {met met' : Conn → Conn → Prop}

theorem Bound.mono (bound : Bound met board) (more : ∀ a b, met a b → met' a b) :
    Bound met' board := by
  intro x y used linked
  obtain ⟨used', tagged, acquainted⟩ := bound x y used linked
  exact ⟨used', tagged, more _ _ acquainted⟩

/-- Clearing links and keeping the tenants keeps the others bound. -/
theorem Bound.narrow {after : Board} (bound : Bound met board) (same : SameTenants board after)
    (linked : ∀ x y, (after x).partner = some y →
      (board x).partner = some y ∧ (after x).linked = (board x).linked) :
    Bound met after := by
  intro x y used isPartner
  obtain ⟨before, kept⟩ := linked x y isPartner
  obtain ⟨used', tagged, acquainted⟩ := bound x y ((same x).1 ▸ used) before
  refine ⟨(same y).1.trans used', ?_, ?_⟩
  · rw [kept, same.tag]
    exact tagged
  · rw [same.conn, same.conn]
    exact acquainted

theorem Bound.leave (bound : Bound met board) : Bound met (board.leave ci) := by
  have marked : ∀ x, (board.mark ci x).partner = (board x).partner ∧
      (board.mark ci x).linked = (board x).linked := by
    intro x
    by_cases here : x = ci
    · subst here
      simp [mark]
    · simp [mark, here]
  apply bound.narrow sameTenants_leave
  intro x y linked
  unfold Board.leave at linked ⊢
  cases isPartner : (board ci).partner with
  | none =>
      simp only [isPartner] at linked ⊢
      exact ⟨(marked x).1 ▸ linked, (marked x).2⟩
  | some partner =>
      simp only [isPartner] at linked ⊢
      by_cases isLeft : x = partner
      · subst isLeft
        rw [Function.update_self] at linked
        cases linked
      · rw [Function.update_of_ne isLeft] at linked ⊢
        exact ⟨(marked x).1 ▸ linked, (marked x).2⟩

theorem Bound.link (bound : Bound met board) (apart : one ≠ two)
    (used : (board one).inUse = true ∧ (board two).inUse = true)
    (acquainted : met (board.conn one) (board.conn two))
    (acquainted' : met (board.conn two) (board.conn one)) :
    Bound met (board.link one two) := by
  have same : SameTenants board (board.link one two) := sameTenants_link
  intro x y usedX isPartner
  rw [same.tag, same.conn, same.conn, (same y).1]
  by_cases isGuest : x = two
  · subst isGuest
    have isHost : one = y := by simpa [Board.link] using isPartner
    subst isHost
    exact ⟨used.1, by simp [Board.link], acquainted'⟩
  · by_cases isHost : x = one
    · subst isHost
      have isGuest' : two = y := by simpa [Board.link, host, apart] using isPartner
      subst isGuest'
      exact ⟨used.2, by simp [Board.link, host, apart], acquainted⟩
    · have face : board.link one two x = board x := by
        simp [Board.link, host, isGuest, isHost]
      rw [face] at usedX isPartner
      rw [face]
      exact bound x y usedX isPartner

/-- A slot that was not in use is nobody's partner. -/
theorem Bound.seat (bound : Bound met board) (vacant : (board ci).inUse = false) :
    Bound met (board.seat ci fd) := by
  intro x y used isPartner
  by_cases isNew : x = ci
  · subst isNew
    simp [Board.seat] at isPartner
  · have face : board.seat ci fd x = board x := Function.update_of_ne isNew ..
    rw [face] at used isPartner
    obtain ⟨used', tagged, acquainted⟩ := bound x y used isPartner
    have old : y ≠ ci := by
      rintro rfl
      rw [vacant] at used'
      cases used'
    have face' : board.seat ci fd y = board y := Function.update_of_ne old ..
    unfold Board.tag Board.conn
    rw [face, face']
    exact ⟨used', tagged, acquainted⟩

/-- In a symmetric matching the partner of somebody present is present too, so
its slot is not freed. -/
theorem Bound.free (bound : Bound met board) (paired : Floor.Paired 0 1 board.floor) :
    Bound met board.free := by
  intro x y used isPartner
  have alive : (board x).inUse = true ∧ (board x).dead = false := by
    unfold Board.free at used
    split at used
    · cases used
    · rename_i stays
      rw [Bool.and_eq_true, not_and] at stays
      exact ⟨used, Bool.eq_false_iff.mpr (stays used)⟩
  have face : board.free x = board x := by
    simp [Board.free, alive.2]
  rw [face] at isPartner
  have present := (paired x y alive isPartner).present
  have face' : board.free y = board y := by
    simp [Board.free, present.2]
  unfold Board.tag Board.conn
  rw [face, face']
  exact bound x y alive.1 isPartner

end Board

end DragsterNet.CRelay
