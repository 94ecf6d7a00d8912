/-
Module: DragsterNet.Lib.Roll
Purpose: A roll of the members of a club by their names, and the announcements of
  how many there are.
Trusted boundary: none
Main exports: Roll, Roll.Exact, Roll.Exact.size, Roll.Exact.enter,
  Roll.Exact.call, Roll.Exact.leave, Roll.Told
-/
import Mathlib.Data.List.Count
import Mathlib.Data.List.Perm.Basic
import Mathlib.Logic.Function.Basic
import DragsterNet.Lib.Dict

set_option linter.unusedSectionVars false

namespace DragsterNet.Lib

/-- The members, what each is called, the entries of names in use, and the
numbers announced so far. -/
@[ext] structure Roll (ι ν : Type) where
  members : List ι
  name : ι → Option ν
  entries : List (ν × ι)
  told : List Nat

namespace Roll

variable {ι ν : Type} [DecidableEq ι] [DecidableEq ν] {roll : Roll ι ν} {who : ι} {name : ν}

/-- A new member has no name. -/
def enter (roll : Roll ι ν) (who : ι) : Roll ι ν :=
  { roll with members := roll.members ++ [who], name := Function.update roll.name who none }

def call (roll : Roll ι ν) (who : ι) (name : ν) : Roll ι ν :=
  { roll with
    name := Function.update roll.name who (some name)
    entries := roll.entries ++ [(name, who)] }

/-- A member leaves, with its entry. -/
def leave (roll : Roll ι ν) (who : ι) : Roll ι ν :=
  { roll with
    members := roll.members.erase who
    entries :=
      match roll.name who with
      | some name => discard name roll.entries
      | none => roll.entries }

/-- The number of entries is announced. -/
def tell (roll : Roll ι ν) : Roll ι ν := { roll with told := roll.told ++ [roll.entries.length] }

/-- How many members have a name. -/
def population (roll : Roll ι ν) : Nat := roll.members.countP fun who => (roll.name who).isSome

/-- The entries are those of the members with names, each once. -/
structure Exact (roll : Roll ι ν) : Prop where
  nodup : roll.members.Nodup
  distinct : (roll.entries.map Prod.fst).Nodup
  listed : ∀ name who, (name, who) ∈ roll.entries ↔
    who ∈ roll.members ∧ roll.name who = some name

theorem eq_of_key {entries : List (ν × ι)} (distinct : (entries.map Prod.fst).Nodup)
    {one two : ν × ι} (isOne : one ∈ entries) (isTwo : two ∈ entries) (same : one.1 = two.1) :
    one = two :=
  List.inj_on_of_nodup_map distinct isOne isTwo same

namespace Exact

/-- No two members go by one name. -/
theorem unique (exact_ : roll.Exact) {one two : ι} (isOne : one ∈ roll.members)
    (isTwo : two ∈ roll.members) (named : roll.name one = some name)
    (named' : roll.name two = some name) : one = two :=
  congrArg Prod.snd (eq_of_key exact_.distinct ((exact_.listed name one).mpr ⟨isOne, named⟩)
    ((exact_.listed name two).mpr ⟨isTwo, named'⟩) rfl)

/-- There are as many entries as members with names. -/
theorem size (exact_ : roll.Exact) : roll.entries.length = roll.population := by
  have entries : (roll.entries.map Prod.snd).Nodup := by
    apply List.Nodup.map_on
    · rintro ⟨name, who⟩ isOne ⟨name', who'⟩ isTwo same
      obtain rfl : who = who' := same
      have named := ((exact_.listed name who).mp isOne).2
      have named' := ((exact_.listed name' who).mp isTwo).2
      obtain rfl := Option.some.inj (named.symm.trans named')
      rfl
    · exact List.Nodup.of_map Prod.fst exact_.distinct
  have perm : (roll.entries.map Prod.snd).Perm
      (roll.members.filter fun who => (roll.name who).isSome) := by
    refine (List.perm_ext_iff_of_nodup entries (exact_.nodup.filter _)).mpr fun who => ?_
    rw [List.mem_map, List.mem_filter]
    constructor
    · rintro ⟨⟨name, who'⟩, isEntry, rfl⟩
      obtain ⟨here, named⟩ := (exact_.listed name who').mp isEntry
      exact ⟨here, by rw [named]; rfl⟩
    · rintro ⟨here, named⟩
      obtain ⟨name, isName⟩ := Option.isSome_iff_exists.mp named
      exact ⟨(name, who), (exact_.listed name who).mpr ⟨here, isName⟩, rfl⟩
  have lengths := perm.length_eq
  rw [List.length_map] at lengths
  rw [lengths, population, List.countP_eq_length_filter]

theorem enter (exact_ : roll.Exact) (absent : who ∉ roll.members) : (roll.enter who).Exact where
  nodup := by
    unfold Roll.enter
    rw [← List.concat_eq_append]
    exact exact_.nodup.concat absent
  distinct := exact_.distinct
  listed name other := by
    unfold Roll.enter
    simp only [List.mem_append, List.mem_singleton]
    rw [exact_.listed]
    by_cases here : other = who
    · subst here
      rw [Function.update_self]
      exact iff_of_false (fun member => absent member.1) fun named => by cases named.2
    · rw [Function.update_of_ne here]
      exact and_congr_left fun _ => (or_iff_left here).symm

theorem call (exact_ : roll.Exact) (here : who ∈ roll.members) (unnamed : roll.name who = none)
    (fresh : name ∉ roll.entries.map Prod.fst) : (roll.call who name).Exact where
  nodup := exact_.nodup
  distinct := by
    unfold Roll.call
    rw [List.map_append, List.map_singleton, ← List.concat_eq_append]
    exact exact_.distinct.concat fresh
  listed name' other := by
    unfold Roll.call
    simp only [List.mem_append, List.mem_singleton]
    rw [exact_.listed]
    by_cases same : other = who
    · subst same
      rw [Function.update_self, unnamed]
      simp [here, eq_comm]
    · rw [Function.update_of_ne same]
      simp [same]

theorem leave (exact_ : roll.Exact) (here : who ∈ roll.members) : (roll.leave who).Exact where
  nodup := exact_.nodup.erase who
  distinct := by
    unfold Roll.leave
    simp only
    split
    · exact exact_.distinct.sublist (List.filter_sublist.map Prod.fst)
    · exact exact_.distinct
  listed name' other := by
    unfold Roll.leave
    simp only
    rw [exact_.nodup.mem_erase_iff]
    split
    · rename_i name named
      unfold discard
      rw [List.mem_filter, exact_.listed, decide_eq_true_iff]
      constructor
      · rintro ⟨⟨member, named'⟩, apart⟩
        refine ⟨⟨?_, member⟩, named'⟩
        rintro rfl
        exact apart (Option.some.inj (named'.symm.trans named))
      · rintro ⟨⟨apart, member⟩, named'⟩
        refine ⟨⟨member, named'⟩, ?_⟩
        rintro rfl
        exact apart (exact_.unique member here named' named)
    · rename_i unnamed
      rw [exact_.listed]
      constructor
      · rintro ⟨member, named'⟩
        refine ⟨⟨?_, member⟩, named'⟩
        rintro rfl
        rw [unnamed] at named'
        cases named'
      · rintro ⟨⟨-, member⟩, named'⟩
        exact ⟨member, named'⟩

theorem tell (exact_ : roll.Exact) : roll.tell.Exact :=
  ⟨exact_.nodup, exact_.distinct, exact_.listed⟩

end Exact

/-! ### Announcements -/

/-- Whatever has been announced since is the number of members with names. -/
def Told (before : List Nat) (roll : Roll ι ν) : Prop :=
  ∃ counts, roll.told = before ++ counts ∧ ∀ count ∈ counts, count = roll.population

variable {before : List Nat}

theorem told_same (same : roll.told = before) : roll.Told before :=
  ⟨[], same.trans (List.append_nil _).symm, fun _ member => absurd member List.not_mem_nil⟩

theorem Told.tell (told : roll.Told before) (exact_ : roll.Exact) : roll.tell.Told before := by
  obtain ⟨counts, isTold, counted⟩ := told
  refine ⟨counts ++ [roll.entries.length], ?_, ?_⟩
  · unfold Roll.tell
    rw [isTold, List.append_assoc]
  · intro count member
    rcases List.mem_append.mp member with early | last
    · exact counted count early
    · rw [List.mem_singleton.mp last]
      exact exact_.size

/-- Announcements stay true while nobody with a name comes or goes. -/
theorem Told.congr {after : Roll ι ν} (told : roll.Told before) (same : after.told = roll.told)
    (population : after.population = roll.population) : after.Told before := by
  obtain ⟨counts, isTold, counted⟩ := told
  refine ⟨counts, same.trans isTold, fun count member => ?_⟩
  rw [population]
  exact counted count member

theorem population_leave (unnamed : roll.name who = none) :
    (roll.leave who).population = roll.population := by
  unfold population Roll.leave
  simp only
  rw [List.countP_erase, unnamed]
  simp

end Roll

end DragsterNet.Lib
