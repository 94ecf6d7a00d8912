/-
Module: DragsterNet.Lib.Ledger
Purpose: Two sides report values by key, each into a book of its own that is
  trimmed to its newest entries; a report is compared with the other side's
  entry for the key.
Trusted boundary: none
Main exports: Side, Posting, Store, Store.after, Store.found, Fair,
  Store.found_reported, Store.found_of_late, Store.compared
-/
import Mathlib.Data.Finset.Card
import Mathlib.Data.List.Induction
import Mathlib.Data.List.Infix
import Mathlib.Data.Fintype.Defs
import Mathlib.Logic.Function.Basic
import DragsterNet.Lib.Dict

namespace DragsterNet.Lib

inductive Side where
  | one
  | two
  deriving DecidableEq

instance : Fintype Side := ⟨{.one, .two}, fun side => by cases side <;> decide⟩

namespace Side

def other : Side → Side
  | one => two
  | two => one

variable {side side' : Side}

@[simp] theorem other_other : side.other.other = side := by
  cases side <;> rfl

theorem other_ne : side.other ≠ side := by
  cases side <;> exact Side.noConfusion

theorem eq_other (apart : side' ≠ side) : side' = side.other := by
  cases side
  · cases side'
    · exact absurd rfl apart
    · rfl
  · cases side'
    · rfl
    · exact absurd rfl apart

end Side

/-- A side's report of the value of a key. -/
structure Posting (κ ν : Type) where
  side : Side
  key : κ
  value : ν
  deriving DecidableEq

variable {κ ν : Type} {limit : Nat} {side : Side} {key : κ} {log : List (Posting κ ν)}
  {entry : Posting κ ν} {book : List (κ × ν)}

/-- The keys a side has reported, in order. -/
def keys (side : Side) (log : List (Posting κ ν)) : List κ :=
  (log.filter fun entry => entry.side = side).map Posting.key

theorem mem_keys : key ∈ keys side log ↔ ∃ entry ∈ log, entry.side = side ∧ entry.key = key := by
  unfold keys
  constructor
  · intro member
    obtain ⟨entry, filtered, isKey⟩ := List.mem_map.mp member
    obtain ⟨member', same⟩ := List.mem_filter.mp filtered
    exact ⟨entry, member', of_decide_eq_true same, isKey⟩
  · rintro ⟨entry, member, same, isKey⟩
    exact List.mem_map.mpr ⟨entry, List.mem_filter.mpr ⟨member, decide_eq_true same⟩, isKey⟩

theorem keys_append : keys side (log ++ [entry]) =
    if entry.side = side then keys side log ++ [entry.key] else keys side log := by
  unfold keys
  by_cases own : entry.side = side <;> simp [List.filter_append, own]

theorem mem_keys_append : key ∈ keys side (log ++ [entry]) ↔
    key ∈ keys side log ∨ (entry.side = side ∧ key = entry.key) := by
  rw [keys_append]
  by_cases own : entry.side = side
  · rw [if_pos own, List.mem_append, List.mem_singleton]
    exact or_congr_right (iff_and_self.mpr fun _ => own)
  · rw [if_neg own]
    exact ⟨Or.inl, fun either => either.resolve_right fun absurd' => own absurd'.1⟩

variable [LinearOrder κ]

/-! ### Books -/

/-- Oldest first: the keys rise. -/
def Ordered (book : List (κ × ν)) : Prop := (book.map Prod.fst).Pairwise (· < ·)

theorem Ordered.sublist {part : List (κ × ν)} (ordered : Ordered book)
    (sub : part.Sublist book) : Ordered part :=
  List.Pairwise.sublist (sub.map Prod.fst) ordered

/-- How a side's book takes up an entry.  What is in the way may go, but not
while the book is within the limit. -/
structure Store (κ ν : Type) [LinearOrder κ] (limit : Nat) where
  put : κ → ν → List (κ × ν) → List (κ × ν)
  ordered : ∀ {key : κ} {value : ν} {book : List (κ × ν)}, Ordered book →
    (∀ item ∈ book, item.1 ≤ key) → Ordered (put key value book)
  has : ∀ {key : κ} {value : ν} {book : List (κ × ν)}, (key, value) ∈ put key value book
  only : ∀ {key : κ} {value : ν} {book : List (κ × ν)} {item : κ × ν},
    item ∈ put key value book → item = (key, value) ∨ item ∈ book
  keeps : ∀ {key : κ} {value : ν} {book : List (κ × ν)} {item : κ × ν},
    book.length ≤ limit → item ∈ book → item.1 ≠ key → item ∈ put key value book

/-! ### Fairness -/

/-- What a side has reported beyond all that the other has. -/
def beyond (side : Side) (log : List (Posting κ ν)) : Finset κ :=
  (keys side log).toFinset.filter fun key => ∀ reported ∈ keys side.other log, reported < key

theorem mem_beyond : key ∈ beyond side log ↔
    key ∈ keys side log ∧ ∀ reported ∈ keys side.other log, reported < key := by
  unfold beyond
  rw [Finset.mem_filter, List.mem_toFinset]

/-- Each side reports rising keys, with one value for a key, and never gets
more than the limit ahead. -/
structure Fair (limit : Nat) (log : List (Posting κ ν)) : Prop where
  rising : ∀ side, (keys side log).Pairwise (· ≤ ·)
  single : ∀ entry ∈ log, ∀ again ∈ log, again.side = entry.side → again.key = entry.key →
    again.value = entry.value
  close : ∀ early, early <+: log → ∀ side, (beyond side early).card ≤ limit

instance [DecidableEq ν] : Decidable (Fair limit log) :=
  decidable_of_iff
    ((∀ side, (keys side log).Pairwise (· ≤ ·)) ∧
      (∀ entry ∈ log, ∀ again ∈ log, again.side = entry.side → again.key = entry.key →
        again.value = entry.value) ∧
      ∀ early ∈ log.inits, ∀ side, (beyond side early).card ≤ limit)
    ⟨fun fair => ⟨fair.1, fair.2.1, fun early isPrefix =>
        fair.2.2 early ((List.mem_inits early log).mpr isPrefix)⟩,
      fun fair => ⟨fair.rising, fair.single, fun early isPrefix =>
        fair.close early ((List.mem_inits early log).mp isPrefix)⟩⟩

namespace Fair

theorem init (fair : Fair limit (log ++ [entry])) : Fair limit log where
  rising side := by
    refine List.Pairwise.sublist ?_ (fair.rising side)
    exact ((List.sublist_append_left log [entry]).filter _).map _
  single one member two member' :=
    fair.single one (List.mem_append_left _ member) two (List.mem_append_left _ member')
  close early isPrefix := fair.close early (isPrefix.trans (List.prefix_append _ _))

theorem mono {limit' : Nat} (fair : Fair limit log) (le : limit ≤ limit') : Fair limit' log :=
  { fair with close := fun early isPrefix side => (fair.close early isPrefix side).trans le }

/-- The last report of a side is its highest. -/
theorem highest (fair : Fair limit (log ++ [entry])) (member : key ∈ keys entry.side log) :
    key ≤ entry.key := by
  have rising := fair.rising entry.side
  rw [keys_append, if_pos rfl] at rising
  exact (List.pairwise_append.mp rising).2.2 key member entry.key List.mem_cons_self

end Fair

/-- Rising keys may be renamed, if the names rise too. -/
theorem Fair.map {τ : Type} [LinearOrder τ] {log : List (Posting τ ν)} {name : τ → κ}
    (fair : Fair limit log)
    (rises : ∀ side side', ∀ one ∈ keys side log, ∀ two ∈ keys side' log,
      one < two → name one < name two) :
    Fair limit (log.map fun entry => ⟨entry.side, name entry.key, entry.value⟩) := by
  have renamed : ∀ (side : Side) (log : List (Posting τ ν)),
      keys side (log.map fun entry => (⟨entry.side, name entry.key, entry.value⟩ : Posting κ ν)) =
        (keys side log).map name := by
    intro side log
    unfold keys
    rw [List.filter_map, List.map_map, List.map_map]
    rfl
  have rises' : ∀ side side', ∀ one ∈ keys side log, ∀ two ∈ keys side' log,
      one ≤ two → name one ≤ name two := by
    intro side side' one first two second le
    rcases le.lt_or_eq with less | rfl
    · exact (rises side side' one first two second less).le
    · exact le_rfl
  refine ⟨fun side => ?_, ?_, ?_⟩
  · rw [renamed, List.pairwise_map]
    exact (fair.rising side).imp_of_mem fun {one two} first second le =>
      rises' side side one first two second le
  · intro entry member again member' side key
    obtain ⟨before, isBefore, rfl⟩ := List.mem_map.mp member
    obtain ⟨before', isBefore', rfl⟩ := List.mem_map.mp member'
    refine fair.single before isBefore before' isBefore' side ?_
    have first : before.key ∈ keys before.side log := mem_keys.mpr ⟨before, isBefore, rfl, rfl⟩
    have second : before'.key ∈ keys before'.side log :=
      mem_keys.mpr ⟨before', isBefore', rfl, rfl⟩
    rcases lt_trichotomy before'.key before.key with less | same | less
    · exact absurd key (rises _ _ _ second _ first less).ne
    · exact same
    · exact absurd key (rises _ _ _ first _ second less).ne'
  · intro early isPrefix side
    obtain ⟨count, rfl⟩ : ∃ count, early = (log.take count).map
        fun entry => (⟨entry.side, name entry.key, entry.value⟩ : Posting κ ν) :=
      ⟨early.length, by rw [List.map_take]; exact List.prefix_iff_eq_take.mp isPrefix⟩
    have inside : beyond side ((log.take count).map
        fun entry => (⟨entry.side, name entry.key, entry.value⟩ : Posting κ ν)) ⊆
          (beyond side (log.take count)).image name := by
      intro key member
      obtain ⟨own, ahead⟩ := mem_beyond.mp member
      rw [renamed] at own ahead
      obtain ⟨before, isBefore, rfl⟩ := List.mem_map.mp own
      refine Finset.mem_image.mpr ⟨before, mem_beyond.mpr ⟨isBefore, ?_⟩, rfl⟩
      intro reported isReported
      have less := ahead (name reported) (List.mem_map_of_mem isReported)
      by_contra behind
      have sub : ∀ side, ∀ one ∈ keys side (log.take count), one ∈ keys side log := by
        intro side one isOne
        obtain ⟨entry, isEntry, isSide, isKey⟩ := mem_keys.mp isOne
        exact mem_keys.mpr ⟨entry, List.mem_of_mem_take isEntry, isSide, isKey⟩
      exact absurd (rises' side side.other before (sub _ _ isBefore) reported
        (sub _ _ isReported) (not_lt.mp behind)) (not_le_of_gt less)
    exact (Finset.card_le_card inside).trans
      (Finset.card_image_le.trans (fair.close _ (List.take_prefix _ _) side))

/-! ### Posting -/

abbrev Books (κ ν : Type) := Side → List (κ × ν)

namespace Store

variable (store : Store κ ν limit)

/-- The other side's value for the key. -/
def found (books : Books κ ν) (entry : Posting κ ν) : Option ν :=
  (books entry.side.other).lookup entry.key

/-- The entry goes into its side's book.  If the other side has one for the key,
that is used up; if not, the side's own book is trimmed. -/
def post (books : Books κ ν) (entry : Posting κ ν) : Books κ ν :=
  let mine := store.put entry.key entry.value (books entry.side)
  match found books entry with
  | none => Function.update books entry.side (mine.drop (mine.length - limit))
  | some _ =>
      Function.update (Function.update books entry.side mine) entry.side.other
        (discard entry.key (books entry.side.other))

def after (log : List (Posting κ ν)) : Books κ ν := log.foldl store.post fun _ => []

theorem after_append : store.after (log ++ [entry]) = store.post (store.after log) entry := by
  unfold after
  rw [List.foldl_append]
  rfl

variable {store} {books : Books κ ν} {item : κ × ν}

theorem post_self : store.post books entry entry.side =
    if (found books entry).isSome then store.put entry.key entry.value (books entry.side)
    else (store.put entry.key entry.value (books entry.side)).drop
      ((store.put entry.key entry.value (books entry.side)).length - limit) := by
  unfold post
  cases found books entry with
  | none => exact Function.update_self ..
  | some value =>
      simp only
      rw [Function.update_of_ne Side.other_ne.symm]
      exact Function.update_self ..

theorem post_other : store.post books entry entry.side.other =
    if (found books entry).isSome then discard entry.key (books entry.side.other)
    else books entry.side.other := by
  unfold post
  cases found books entry with
  | none => exact Function.update_of_ne Side.other_ne ..
  | some value => exact Function.update_self ..

/-- What stands in a book after an entry was posted is that entry, or stood
there before. -/
theorem mem_post (member : item ∈ store.post books entry side) :
    (side = entry.side ∧ item = (entry.key, entry.value)) ∨ item ∈ books side := by
  by_cases own : side = entry.side
  · subst own
    have put : item ∈ store.put entry.key entry.value (books entry.side) := by
      rw [post_self] at member
      split at member
      · exact member
      · exact List.mem_of_mem_drop member
    exact (store.only put).imp_left fun same => ⟨rfl, same⟩
  · obtain rfl := Side.eq_other own
    rw [post_other] at member
    split at member
    · exact Or.inr (List.mem_filter.mp member).1
    · exact Or.inr member

/-- Whatever stands in a book was reported by its side. -/
theorem mem_after (member : item ∈ store.after log side) : ⟨side, item.1, item.2⟩ ∈ log := by
  induction log using List.reverseRecOn with
  | nil => exact absurd member List.not_mem_nil
  | append_singleton log entry inductionHypothesis =>
      rw [after_append] at member
      rcases mem_post member with ⟨rfl, rfl⟩ | before
      · exact List.mem_append_right _ List.mem_cons_self
      · exact List.mem_append_left _ (inductionHypothesis before)

/-- A report is only compared with what the other side has reported for the
key. -/
theorem found_reported {value : ν} (isFound : found (store.after log) entry = some value) :
    ⟨entry.side.other, entry.key, value⟩ ∈ log :=
  mem_after (mem_of_lookup isFound)

/-! ### Fair reports -/

/-- What the books of fair sides keep. -/
structure Kept (limit : Nat) (log : List (Posting κ ν)) (books : Books κ ν) : Prop where
  ordered : ∀ side, Ordered (books side)
  ahead : ∀ side, ∀ key ∈ beyond side log, key ∈ (books side).map Prod.fst
  short : ∀ side, (beyond side log).Nonempty → (books side).length ≤ limit

/-- The newest entries of an ordered book outlast a trim, when they are no more
than the limit. -/
theorem mem_trim {top : Finset κ} (ordered : Ordered book) (few : top.card ≤ limit)
    (up : ∀ item ∈ book, ∀ key ∈ top, key ≤ item.1 → item.1 ∈ top) (isTop : key ∈ top)
    (member : key ∈ book.map Prod.fst) :
    key ∈ (book.drop (book.length - limit)).map Prod.fst := by
  rw [← List.take_append_drop (book.length - limit) book, List.map_append,
    List.mem_append] at member
  rcases member with old | young
  · -- All that is kept is newer, so together with the key it is too much.
    exfalso
    have apart := List.pairwise_append.mp (by
      rw [← List.map_append, List.take_append_drop]
      exact ordered : ((book.take (book.length - limit)).map Prod.fst ++
        (book.drop (book.length - limit)).map Prod.fst).Pairwise (· < ·))
    have distinct : (key :: (book.drop (book.length - limit)).map Prod.fst).Nodup := by
      rw [List.nodup_cons]
      constructor
      · intro again
        exact lt_irrefl key (apart.2.2 key old key again)
      · exact apart.2.1.imp fun less => ne_of_lt less
    have inside : (key :: (book.drop (book.length - limit)).map Prod.fst).toFinset ⊆ top := by
      intro other member
      rcases List.mem_cons.mp (List.mem_toFinset.mp member) with rfl | kept
      · exact isTop
      · obtain ⟨item, isKept, rfl⟩ := List.mem_map.mp kept
        exact up item (List.mem_of_mem_drop isKept) key isTop
          (le_of_lt (apart.2.2 key old item.1 kept))
    have count := Finset.card_le_card inside
    rw [List.toFinset_card_of_nodup distinct, List.length_cons, List.length_map,
      List.length_drop] at count
    have full : 0 < book.length - limit := by
      apply Nat.pos_of_ne_zero
      intro none
      rw [none, List.take_zero] at old
      exact List.not_mem_nil old
    omega
  · exact young

theorem Kept.nil : Kept limit ([] : List (Posting κ ν)) fun _ => [] where
  ordered _ := List.Pairwise.nil
  ahead _ _ member := absurd (mem_beyond.mp member).1 List.not_mem_nil
  short _ _ := Nat.zero_le _

/-- A side's report leaves the other no further ahead. -/
theorem beyond_other (member : key ∈ beyond entry.side.other (log ++ [entry])) :
    key ∈ beyond entry.side.other log ∧ entry.key < key := by
  obtain ⟨own, ahead⟩ := mem_beyond.mp member
  rw [Side.other_other] at ahead
  refine ⟨mem_beyond.mpr ⟨?_, fun reported early => ?_⟩, ?_⟩
  · exact (mem_keys_append.mp own).resolve_right fun absurd' => Side.other_ne absurd'.1.symm
  · rw [Side.other_other] at early
    exact ahead reported (mem_keys_append.mpr (Or.inl early))
  · exact ahead entry.key (mem_keys_append.mpr (Or.inr ⟨rfl, rfl⟩))

theorem beyond_self (member : key ∈ beyond entry.side (log ++ [entry])) :
    (key ∈ beyond entry.side log ∨ key = entry.key) ∧
      ∀ reported ∈ keys entry.side.other log, reported < key := by
  obtain ⟨own, ahead⟩ := mem_beyond.mp member
  have early : ∀ reported ∈ keys entry.side.other log, reported < key := fun reported member =>
    ahead reported (mem_keys_append.mpr (Or.inl member))
  refine ⟨?_, early⟩
  rcases mem_keys_append.mp own with before | ⟨-, same⟩
  · exact Or.inl (mem_beyond.mpr ⟨before, early⟩)
  · exact Or.inr same

/-- Every key of a book was reported by its side. -/
theorem key_reported (member : key ∈ (store.after log side).map Prod.fst) :
    key ∈ keys side log := by
  obtain ⟨item, isItem, rfl⟩ := List.mem_map.mp member
  exact mem_keys.mpr ⟨_, mem_after isItem, rfl, rfl⟩

/-- The other side has reported the key, so its own book is not ahead; the other
book loses an entry that is not ahead any more. -/
theorem kept_hit (fair : Fair limit (log ++ [entry])) (kept : Kept limit log (store.after log))
    (isFound : (found (store.after log) entry).isSome) :
    Kept limit (log ++ [entry]) (store.post (store.after log) entry) := by
  have reported : entry.key ∈ keys entry.side.other log := by
    obtain ⟨value, isValue⟩ := Option.isSome_iff_exists.mp isFound
    exact mem_keys.mpr ⟨_, found_reported isValue, rfl, rfl⟩
  have behind : ∀ key, key ∉ beyond entry.side (log ++ [entry]) := by
    intro key member
    obtain ⟨own, ahead⟩ := mem_beyond.mp member
    have higher := ahead entry.key (mem_keys_append.mpr (Or.inl reported))
    rcases mem_keys_append.mp own with before | ⟨-, rfl⟩
    · exact absurd (fair.highest before) (not_le_of_gt higher)
    · exact lt_irrefl _ higher
  refine ⟨fun side => ?_, fun side key member => ?_, fun side ⟨key, member⟩ => ?_⟩
  all_goals by_cases own : side = entry.side
  · subst own
    rw [post_self, if_pos isFound]
    apply store.ordered (kept.ordered entry.side)
    intro item isItem
    exact fair.highest (key_reported (List.mem_map_of_mem isItem))
  · obtain rfl := Side.eq_other own
    rw [post_other, if_pos isFound]
    exact (kept.ordered _).sublist List.filter_sublist
  · subst own
    exact absurd member (behind key)
  · obtain rfl := Side.eq_other own
    obtain ⟨before, higher⟩ := beyond_other member
    obtain ⟨item, isItem, rfl⟩ := List.mem_map.mp (kept.ahead _ key before)
    rw [post_other, if_pos isFound]
    refine List.mem_map_of_mem (List.mem_filter.mpr ⟨isItem, decide_eq_true ?_⟩)
    exact (ne_of_lt higher).symm
  · subst own
    exact absurd member (behind key)
  · obtain rfl := Side.eq_other own
    rw [post_other, if_pos isFound]
    exact (List.length_filter_le _ _).trans (kept.short _ ⟨key, (beyond_other member).1⟩)

/-- Nothing is found: the other book stays, and the trim of its own spares what
is ahead. -/
theorem kept_miss (fair : Fair limit (log ++ [entry])) (kept : Kept limit log (store.after log))
    (missed : ¬ (found (store.after log) entry).isSome) :
    Kept limit (log ++ [entry]) (store.post (store.after log) entry) := by
  have lower : ∀ item ∈ store.after log entry.side, item.1 ≤ entry.key := fun item isItem =>
    fair.highest (key_reported (List.mem_map_of_mem isItem))
  have ordered : Ordered (store.put entry.key entry.value (store.after log entry.side)) :=
    store.ordered (kept.ordered entry.side) lower
  refine ⟨fun side => ?_, fun side key member => ?_, fun side ⟨key, member⟩ => ?_⟩
  all_goals by_cases own : side = entry.side
  · subst own
    rw [post_self, if_neg missed]
    exact ordered.sublist (List.drop_sublist _ _)
  · obtain rfl := Side.eq_other own
    rw [post_other, if_neg missed]
    exact kept.ordered _
  · subst own
    rw [post_self, if_neg missed]
    refine mem_trim ordered (fair.close _ (List.prefix_refl _) entry.side) ?_ member ?_
    · intro item isItem low isLow above
      have ahead := (mem_beyond.mp isLow).2
      refine mem_beyond.mpr ⟨?_, fun reported before => (ahead reported before).trans_le above⟩
      rcases store.only isItem with rfl | old
      · exact mem_keys_append.mpr (Or.inr ⟨rfl, rfl⟩)
      · exact mem_keys_append.mpr (Or.inl (key_reported (List.mem_map_of_mem old)))
    · by_cases isNew : key = entry.key
      · subst isNew
        exact List.mem_map.mpr ⟨_, store.has, rfl⟩
      · have before := (beyond_self member).1.resolve_right isNew
        obtain ⟨item, isItem, rfl⟩ := List.mem_map.mp (kept.ahead _ key before)
        exact List.mem_map_of_mem (store.keeps (kept.short _ ⟨_, before⟩) isItem isNew)
  · obtain rfl := Side.eq_other own
    rw [post_other, if_neg missed]
    exact kept.ahead _ key (beyond_other member).1
  · subst own
    rw [post_self, if_neg missed, List.length_drop]
    omega
  · obtain rfl := Side.eq_other own
    rw [post_other, if_neg missed]
    exact kept.short _ ⟨key, (beyond_other member).1⟩

theorem kept_after (fair : Fair limit log) : Kept limit log (store.after log) := by
  induction log using List.reverseRecOn with
  | nil => exact Kept.nil
  | append_singleton log entry inductionHypothesis =>
      rw [after_append]
      by_cases isFound : (found (store.after log) entry).isSome
      · exact kept_hit fair (inductionHypothesis fair.init) isFound
      · exact kept_miss fair (inductionHypothesis fair.init) isFound

/-- The first report of a key by the side that is later with it finds the other
side's. -/
theorem found_of_late (fair : Fair limit (log ++ [entry]))
    (first : entry.key ∉ keys entry.side log)
    (reported : entry.key ∈ keys entry.side.other log) :
    ∃ value, found (store.after log) entry = some value := by
  have ahead : entry.key ∈ beyond entry.side.other log := by
    refine mem_beyond.mpr ⟨reported, fun key own => ?_⟩
    rw [Side.other_other] at own
    refine lt_of_le_of_ne (fair.highest own) ?_
    rintro rfl
    exact first own
  have stands : entry.key ∈ (store.after log entry.side.other).map Prod.fst :=
    (kept_after fair.init).ahead _ _ ahead
  exact Option.isSome_iff_exists.mp ((lookup_isSome_iff _ _).mpr stands)

/-- Every key that both sides report is compared. -/
theorem compared (fair : Fair limit log) (one : key ∈ keys .one log) (two : key ∈ keys .two log) :
    ∃ early entry late value, log = early ++ entry :: late ∧ entry.key = key ∧
      found (store.after early) entry = some value := by
  induction log using List.reverseRecOn with
  | nil => exact absurd one List.not_mem_nil
  | append_singleton log entry inductionHypothesis =>
      have side : ∀ side : Side, key ∈ keys side (log ++ [entry]) := fun side => by
        cases side
        · exact one
        · exact two
      by_cases own : key ∈ keys entry.side log
      · by_cases others : key ∈ keys entry.side.other log
        · have both : key ∈ keys .one log ∧ key ∈ keys .two log := by
            cases isSide : entry.side with
            | one =>
                rw [isSide] at own others
                exact ⟨own, others⟩
            | two =>
                rw [isSide] at own others
                exact ⟨others, own⟩
          obtain ⟨early, entry', late, value, rfl, isKey, isFound⟩ :=
            inductionHypothesis fair.init both.1 both.2
          exact ⟨early, entry', late ++ [entry], value, by simp, isKey, isFound⟩
        · exact absurd ((mem_keys_append.mp (side entry.side.other)).resolve_left others).1.symm
            Side.other_ne
      · obtain ⟨-, rfl⟩ := (mem_keys_append.mp (side entry.side)).resolve_left own
        have reported : entry.key ∈ keys entry.side.other log :=
          (mem_keys_append.mp (side entry.side.other)).resolve_right fun absurd' =>
            Side.other_ne absurd'.1.symm
        obtain ⟨value, isFound⟩ : ∃ value, found (store.after log) entry = some value :=
          found_of_late fair own reported
        exact ⟨log, entry, [], value, rfl, rfl, isFound⟩

end Store

/-! ### Two kinds of book -/

section Kinds

variable {value : ν} {item : κ × ν} {cap : Nat}

/-- The entries in an array of `cap` slots: with all of them taken, the last one
is overwritten. -/
def assignSlots (cap : Nat) (key : κ) (value : ν) (book : List (κ × ν)) : List (κ × ν) :=
  if key ∈ book.map Prod.fst then assign key value book
  else (if cap ≤ book.length then book.take (cap - 1) else book) ++ [(key, value)]

theorem mem_assign (member : item ∈ assign key value book) :
    item = (key, value) ∨ item ∈ book := by
  induction book with
  | nil => exact Or.inl (List.mem_singleton.mp member)
  | cons first rest inductionHypothesis =>
      unfold assign at member
      split at member
      · rcases List.mem_cons.mp member with rfl | later
        · exact Or.inl rfl
        · exact Or.inr (List.mem_cons_of_mem _ later)
      · rcases List.mem_cons.mp member with rfl | later
        · exact Or.inr List.mem_cons_self
        · exact (inductionHypothesis later).imp_right (List.mem_cons_of_mem _)

theorem assign_has : (key, value) ∈ assign key value book :=
  mem_of_lookup (by rw [lookup_assign, if_pos rfl])

theorem assign_keeps (member : item ∈ book) (apart : item.1 ≠ key) :
    item ∈ assign key value book := by
  induction book with
  | nil => exact absurd member List.not_mem_nil
  | cons first rest inductionHypothesis =>
      unfold assign
      split
      · rename_i same
        rcases List.mem_cons.mp member with rfl | later
        · exact absurd same apart
        · exact List.mem_cons_of_mem _ later
      · rcases List.mem_cons.mp member with rfl | later
        · exact List.mem_cons_self
        · exact List.mem_cons_of_mem _ (inductionHypothesis later)

theorem ordered_concat (ordered : Ordered book) (lower : ∀ item ∈ book, item.1 ≤ key)
    (fresh : key ∉ book.map Prod.fst) : Ordered (book ++ [(key, value)]) := by
  unfold Ordered
  rw [List.map_append, List.pairwise_append]
  refine ⟨ordered, List.pairwise_singleton _ _, ?_⟩
  intro other member last isLast
  obtain rfl := List.mem_singleton.mp isLast
  obtain ⟨item, isItem, rfl⟩ := List.mem_map.mp member
  refine lt_of_le_of_ne (lower item isItem) ?_
  rintro rfl
  exact fresh member

theorem ordered_assign (ordered : Ordered book) (lower : ∀ item ∈ book, item.1 ≤ key) :
    Ordered (assign key value book) := by
  by_cases known : key ∈ book.map Prod.fst
  · unfold Ordered
    rw [keys_assign, if_pos known]
    exact ordered
  · rw [assign_fresh known]
    exact ordered_concat ordered lower known

/-- A book that grows without end. -/
def dictStore (κ ν : Type) [LinearOrder κ] (limit : Nat) : Store κ ν limit where
  put := assign
  ordered := ordered_assign
  has := assign_has
  only := mem_assign
  keeps _ := assign_keeps

/-- A book in an array that is larger than the limit. -/
def slotStore (κ ν : Type) [LinearOrder κ] {limit cap : Nat} (larger : limit < cap) :
    Store κ ν limit where
  put := assignSlots cap
  ordered {key value book} ordered lower := by
    unfold assignSlots
    split
    · exact ordered_assign ordered lower
    · rename_i fresh
      split
      · apply ordered_concat (ordered.sublist (List.take_sublist _ _))
        · exact fun item member => lower item (List.mem_of_mem_take member)
        · rw [List.map_take]
          exact fun member => fresh (List.mem_of_mem_take member)
      · exact ordered_concat ordered lower fresh
  has := by
    intro key value book
    unfold assignSlots
    split
    · exact assign_has
    · exact List.mem_append_right _ List.mem_cons_self
  only := by
    intro key value book item member
    unfold assignSlots at member
    split at member
    · exact mem_assign member
    · rcases List.mem_append.mp member with old | new
      · split at old
        · exact Or.inr (List.mem_of_mem_take old)
        · exact Or.inr old
      · exact Or.inl (List.mem_singleton.mp new)
  keeps := by
    intro key value book item short member apart
    unfold assignSlots
    split
    · exact assign_keeps member apart
    · rw [if_neg (Nat.not_le.mpr (short.trans_lt larger))]
      exact List.mem_append_left _ member

end Kinds

end DragsterNet.Lib
