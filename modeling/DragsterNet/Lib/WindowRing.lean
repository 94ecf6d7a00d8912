/-
Module: DragsterNet.Lib.WindowRing
Purpose: A ring of slots fed by stamped records, each of which carries the
  values of the `width` ticks ending at its stamp.  Records are taken from an
  ordered stream in batches and each batch is consumed newest first, while a
  reader uses the ticks up to a watermark in order.
Trusted boundary: none
Main exports: WindowRing, GapFree, WindowRing.Covered, WindowRing.Clear,
  WindowRing.Fits, WindowRing.written_next, WindowRing.covered_consume,
  WindowRing.covered_take, WindowRing.chain_take, WindowRing.window_slot
-/
import Mathlib.Data.List.Chain
import DragsterNet.Lib.Serial

namespace DragsterNet.Lib

/-- The receiving side, in unbounded ticks.  `next` is the oldest tick not yet
used and `mark` the newest stamp consumed.  `base` is the newest stamp taken
before the current batch, `eaten` the stamps already consumed from that batch,
oldest first. -/
structure WindowRing where
  next : Int
  mark : Int
  base : Int
  eaten : List Int
deriving Repr, DecidableEq

/-- Neighbouring stamps of a stream whose windows leave no tick out. -/
def GapFree (width : Nat) (older newer : Int) : Prop :=
  older ≤ newer ∧ newer ≤ older + width

instance (width : Nat) (older newer : Int) : Decidable (GapFree width older newer) :=
  inferInstanceAs (Decidable (_ ∧ _))

namespace WindowRing

variable {size width : Nat} {ring : WindowRing} {unread : List Int} {stamp : Int}

/-- Consume one record. -/
def consume (ring : WindowRing) (stamp : Int) : WindowRing :=
  { ring with mark := max ring.mark stamp, eaten := stamp :: ring.eaten }

/-- Take the next batch from the stream. -/
def take (ring : WindowRing) : WindowRing :=
  { ring with base := max ring.base ring.mark, eaten := [] }

/-- Use the next tick. -/
def use (ring : WindowRing) : WindowRing :=
  { ring with next := ring.next + 1 }

@[simp] theorem consume_next : (ring.consume stamp).next = ring.next := rfl
@[simp] theorem consume_base : (ring.consume stamp).base = ring.base := rfl
@[simp] theorem take_next : ring.take.next = ring.next := rfl
@[simp] theorem take_mark : ring.take.mark = ring.mark := rfl
@[simp] theorem take_eaten : ring.take.eaten = [] := rfl
@[simp] theorem use_mark : ring.use.mark = ring.mark := rfl
@[simp] theorem use_base : ring.use.base = ring.base := rfl
@[simp] theorem use_eaten : ring.use.eaten = ring.eaten := rfl

/-- The tick is inside the window of a record with this stamp. -/
def InWindow (width : Nat) (stamp tick : Int) : Prop :=
  stamp - width < tick ∧ tick ≤ stamp

/-- What the consumed records guarantee: every unused tick up to `base`, and
every unused tick up to `mark` that the oldest consumed record of the batch
still reaches, has been written. -/
def Covered (width : Nat) (ring : WindowRing) (Written : Int → Prop) : Prop :=
  ∀ tick, ring.next ≤ tick →
    (tick ≤ ring.base ∨
      (tick ≤ ring.mark ∧ ∃ low ∈ ring.eaten.head?, low < tick + width)) →
    Written tick

/-- The watermark is the newest stamp consumed. -/
structure Marked (ring : WindowRing) : Prop where
  fresh : ring.eaten = [] → ring.mark ≤ ring.base
  newest : ∀ stamp ∈ ring.eaten.getLast?, ring.mark = stamp

/-- The reader may use the next tick although records of the batch are still
unread: the tick was covered before the batch, or every unread record is older
than it, or the records consumed so far reach it. -/
def Clear (width : Nat) (ring : WindowRing) (unread : List Int) : Prop :=
  ring.next ≤ ring.base ∨ (∀ newest ∈ unread.getLast?, newest < ring.next) ∨
    ∃ low ∈ ring.eaten.head?, low < ring.next + width

instance : Decidable (ring.Clear width unread) :=
  inferInstanceAs (Decidable (_ ∨ _ ∨ _))

/-- Consuming the record replaces no unused tick: it is at most a lap ahead of
the reader, and at most a lap less the window behind the watermark unless every
tick up to the watermark has been used. -/
def Fits (size width : Nat) (ring : WindowRing) (stamp : Int) : Prop :=
  stamp < ring.next + size ∧
    (ring.mark + width ≤ stamp + size ∨ ring.mark < ring.next)

instance : Decidable (ring.Fits size width stamp) :=
  inferInstanceAs (Decidable (_ ∧ _))

/-- The oldest consumed stamp of the batch is next to the newest unread one,
or to `base` when nothing is unread. -/
theorem low_le (chain : (ring.base :: unread ++ ring.eaten).IsChain (GapFree width))
    {low : Int} (isLow : low ∈ ring.eaten.head?) :
    low ≤ (unread.getLast?.getD ring.base) + width := by
  have neighbours := (List.isChain_append.mp chain).2.2
    (unread.getLast?.getD ring.base) (by simp [List.getLast?_cons]) low isLow
  exact neighbours.2

/-- The gate is sound: under `Clear`, a tick at or below the watermark has
been written. -/
theorem written_next {Written : Int → Prop}
    (chain : (ring.base :: unread ++ ring.eaten).IsChain (GapFree width))
    (covered : ring.Covered width Written) (marked : ring.Marked)
    (clear : ring.Clear width unread) (passes : ring.next ≤ ring.mark) :
    Written ring.next := by
  refine covered ring.next le_rfl ?_
  rcases clear with old | stale | reached
  · exact Or.inl old
  · by_cases old : ring.next ≤ ring.base
    · exact Or.inl old
    refine Or.inr ⟨passes, ?_⟩
    cases eaten : ring.eaten with
    | nil => exact absurd (passes.trans (marked.fresh eaten)) old
    | cons low rest =>
        refine ⟨low, by simp, ?_⟩
        have bound := low_le chain (show low ∈ ring.eaten.head? by simp [eaten])
        cases unreadCase : unread.getLast? with
        | none =>
            simp only [unreadCase, Option.getD_none] at bound
            omega
        | some newest =>
            have := stale newest (by simp [unreadCase])
            simp only [unreadCase, Option.getD_some] at bound
            omega
  · exact Or.inr ⟨passes, reached⟩

/-- Consuming the newest unread record keeps the coverage. -/
theorem covered_consume {older : List Int} {Written Written' : Int → Prop}
    (chain : (ring.base :: (older ++ [stamp]) ++ ring.eaten).IsChain (GapFree width))
    (covered : ring.Covered width Written) (marked : ring.Marked)
    (kept : ∀ tick, Written tick → Written' tick)
    (stored : ∀ tick, InWindow width stamp tick → Written' tick) :
    (ring.consume stamp).Covered width Written' := by
  intro tick unused reaches
  by_cases inside : InWindow width stamp tick
  · exact stored tick inside
  refine kept tick (covered tick unused ?_)
  rcases reaches with old | ⟨marked', low, isLow, reached⟩
  · exact Or.inl old
  have lowIs : low = stamp := by simpa [consume, eq_comm] using isLow
  subst lowIs
  have above : low < tick := by
    unfold InWindow at inside
    omega
  have belowMark : tick ≤ ring.mark := by
    have : tick ≤ max ring.mark low := marked'
    omega
  by_cases old : tick ≤ ring.base
  · exact Or.inl old
  refine Or.inr ⟨belowMark, ?_⟩
  cases eaten : ring.eaten with
  | nil => exact absurd (belowMark.trans (marked.fresh eaten)) old
  | cons head rest =>
      have bound := low_le chain (show head ∈ ring.eaten.head? by simp [eaten])
      simp only [List.getLast?_concat, Option.getD_some] at bound
      exact ⟨head, by simp, by omega⟩

theorem marked_consume {older : List Int}
    (chain : (ring.base :: (older ++ [stamp]) ++ ring.eaten).IsChain (· ≤ ·))
    (marked : ring.Marked) : (ring.consume stamp).Marked where
  fresh := by simp [consume]
  newest := by
    intro newest isNewest
    have pairwise := List.isChain_iff_pairwise.mp chain
    cases eaten : ring.eaten with
    | nil =>
        have ordered : ring.base ≤ stamp :=
          (List.pairwise_cons.mp (List.pairwise_append.mp pairwise).1).1 stamp
            (by simp)
        have := marked.fresh eaten
        obtain rfl : stamp = newest := by simpa [consume, eaten] using isNewest
        simp only [consume]
        omega
    | cons head rest =>
        have last : newest ∈ ring.eaten.getLast? := by
          simpa [consume, eaten, List.getLast?_cons] using isNewest
        have ordered : stamp ≤ newest :=
          (List.pairwise_append.mp pairwise).2.2 stamp (by simp) newest
            (List.mem_of_getLast? last)
        have := marked.newest newest last
        simp only [consume]
        omega

/-- The next batch starts from everything consumed so far. -/
theorem covered_take {Written : Int → Prop}
    (chain : (ring.base :: ring.eaten).IsChain (GapFree width))
    (covered : ring.Covered width Written) (marked : ring.Marked) :
    ring.take.Covered width Written := by
  intro tick unused reaches
  refine covered tick unused ?_
  have old : tick ≤ max ring.base ring.mark := by
    rcases reaches with old | ⟨_, low, isLow, _⟩
    · exact old
    · simp [take] at isLow
  by_cases base : tick ≤ ring.base
  · exact Or.inl base
  refine Or.inr ⟨by omega, ?_⟩
  cases eaten : ring.eaten with
  | nil => exact absurd (marked.fresh eaten) (by omega)
  | cons low rest =>
      have bound : low ≤ [].getLast?.getD ring.base + width :=
        low_le (by simpa using chain) (by simp [eaten])
      simp only [List.getLast?_nil, Option.getD_none] at bound
      exact ⟨low, by simp, by omega⟩

theorem marked_take : ring.take.Marked where
  fresh := fun _ => le_max_right _ _
  newest := by simp [take]

theorem covered_use {Written : Int → Prop} (covered : ring.Covered width Written) :
    ring.use.Covered width Written :=
  fun tick unused => covered tick (by simp only [use] at unused; omega)

theorem marked_use (marked : ring.Marked) : ring.use.Marked :=
  ⟨marked.fresh, marked.newest⟩

/-- A take starts the next batch behind the last stamp of this one. -/
theorem take_base (ascending : (ring.base :: ring.eaten).IsChain (· ≤ ·))
    (marked : ring.Marked) :
    (ring.base :: ring.eaten).getLast? = some ring.take.base := by
  rw [List.getLast?_cons, take]
  cases newest : ring.eaten.getLast? with
  | none =>
      have fresh := marked.fresh (List.getLast?_eq_none_iff.mp newest)
      rw [Option.getD_none, max_eq_left fresh]
  | some stamp =>
      have ordered : ring.base ≤ stamp :=
        (List.pairwise_cons.mp (List.isChain_iff_pairwise.mp ascending)).1 stamp
          (List.mem_of_getLast? newest)
      rw [Option.getD_some, marked.newest stamp newest, max_eq_right ordered]

/-- After a take, what is still to come follows the new `base`. -/
theorem chain_take {Next : Int → Int → Prop} {rest : List Int}
    (last : (ring.base :: ring.eaten).getLast? = some ring.take.base)
    (chain : (ring.base :: ring.eaten ++ rest).IsChain Next) :
    (ring.take.base :: rest).IsChain Next := by
  obtain ⟨-, rests, joint⟩ := List.isChain_append.mp chain
  rw [List.isChain_cons]
  exact ⟨fun first isFirst => joint _ last first isFirst, rests⟩

/-- A take leaves the newest stamp of the stream what it was. -/
theorem last_take {rest : List Int}
    (last : (ring.base :: ring.eaten).getLast? = some ring.take.base) :
    (ring.take.base :: rest).getLast? = (ring.base :: ring.eaten ++ rest).getLast? := by
  rw [List.getLast?_append, last, List.getLast?_cons]
  cases rest.getLast? <;> rfl

/-- Along a gap-free stream a stamp is at most `width` further for each record. -/
theorem chain_bounds {first : Int} {stamps : List Int}
    (chain : (first :: stamps).IsChain (GapFree width)) :
    ∀ stamp ∈ stamps, first ≤ stamp ∧ stamp ≤ first + width * stamps.length := by
  induction stamps generalizing first with
  | nil => simp
  | cons second rest inductionHypothesis =>
      obtain ⟨⟨above, below⟩, tail⟩ := List.isChain_cons_cons.mp chain
      intro stamp member
      rw [List.length_cons]
      push_cast
      have spread : (width : Int) * (rest.length + 1) = width * rest.length + width := by ring
      rw [spread]
      have nonneg : (0 : Int) ≤ width * rest.length := by positivity
      rcases List.mem_cons.mp member with same | later
      · omega
      · have := inductionHypothesis tail stamp later
        omega

/-- On a gap-free stream the first stamp that reaches a tick has the tick in its
window. -/
theorem chain_covers {first tick : Int} {stamps : List Int}
    (chain : (first :: stamps).IsChain (GapFree width)) (later : first < tick)
    {index : Nat} {stamp : Int} (found : stamps[index]? = some stamp)
    (past : tick ≤ stamp) :
    ∃ earlier ≤ index, ∃ reaching, stamps[earlier]? = some reaching ∧
      InWindow width reaching tick := by
  induction stamps generalizing first index with
  | nil => simp at found
  | cons second rest inductionHypothesis =>
      obtain ⟨⟨above, below⟩, tail⟩ := List.isChain_cons_cons.mp chain
      by_cases reaches : tick ≤ second
      · exact ⟨0, Nat.zero_le index, second, rfl, by omega, reaches⟩
      cases index with
      | zero =>
          obtain rfl : second = stamp := by simpa using found
          exact absurd past reaches
      | succ index =>
          obtain ⟨earlier, before, reaching, isReaching, inside⟩ :=
            inductionHypothesis tail (by omega) (by simpa using found)
          exact ⟨earlier + 1, by omega, reaching, by simpa using isReaching, inside⟩

/-- A record that fits writes the slot of an unused tick that has been written
only with that tick's own value. -/
theorem window_slot (small : width ≤ size) (fits : ring.Fits size width stamp)
    (ordered : ring.base ≤ stamp) {tick other : Int} (unused : ring.next ≤ tick)
    (near : tick ≤ ring.mark ∨ tick ≤ ring.base)
    (inside : InWindow width stamp other) (same : other % size = tick % size) :
    other = tick := by
  obtain ⟨lap, behind⟩ := fits
  obtain ⟨above, below⟩ := inside
  exact Serial.slot_unique same
    (by rcases behind with close | used <;> rcases near with mark | base <;> omega)
    (by omega)

end WindowRing

end DragsterNet.Lib
