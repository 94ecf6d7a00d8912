/-
Module: DragsterNet.Lib.Matching
Purpose: Pairing as a symmetric matching of the parties that are present, the
  moves of a matchmaker that keep it one, and who is left waiting by them.
Trusted boundary: none
Main exports: Floor, Floor.Paired, Floor.Paired.pair, Floor.Paired.leave,
  Floor.Paired.enter, Floor.Paired.call, Floor.Settled, Floor.Seated
-/
import Mathlib.Logic.Function.Basic

namespace DragsterNet.Lib

variable {ι ν ρ : Type}

/-- Who is present, under what name, and who is linked to whom in which role. -/
@[ext] structure Floor (ι ν ρ : Type) where
  present : ι → Prop
  name : ι → Option ν
  partner : ι → Option ι
  role : ι → Option ρ

namespace Floor

/-- What a link from `one` to `two` has to be: `two` is present, another party,
linked back, both are named and they take the two roles. -/
structure Linked (first second : ρ) (floor : Floor ι ν ρ) (one two : ι) : Prop where
  present : floor.present two
  apart : two ≠ one
  names : (floor.name one).isSome ∧ (floor.name two).isSome
  back : floor.partner two = some one
  roles : (floor.role one = some first ∧ floor.role two = some second) ∨
    (floor.role one = some second ∧ floor.role two = some first)

/-- The links of the parties that are present are a symmetric matching. -/
def Paired (first second : ρ) (floor : Floor ι ν ρ) : Prop :=
  ∀ one two, floor.present one → floor.partner one = some two →
    Linked first second floor one two

variable [DecidableEq ι]

/-! ### The moves -/

/-- A party comes in, without a name and without a partner. -/
def enter (floor : Floor ι ν ρ) (new : ι) : Floor ι ν ρ where
  present one := one = new ∨ floor.present one
  name := Function.update floor.name new none
  partner := Function.update floor.partner new none
  role := Function.update floor.role new none

/-- A party gives its name, perhaps not for the first time. -/
def call (floor : Floor ι ν ρ) (one : ι) (name : ν) : Floor ι ν ρ where
  present := floor.present
  name := Function.update floor.name one (some name)
  partner := floor.partner
  role := floor.role

/-- `host` and `guest` are linked to each other. -/
def pair (first second : ρ) (floor : Floor ι ν ρ) (host guest : ι) : Floor ι ν ρ where
  present := floor.present
  name := floor.name
  partner := Function.update (Function.update floor.partner host (some guest))
    guest (some host)
  role := Function.update (Function.update floor.role host (some first))
    guest (some second)

/-- A party goes, and its partner's link is cleared. -/
def leave (floor : Floor ι ν ρ) (gone : ι) : Floor ι ν ρ where
  present one := floor.present one ∧ one ≠ gone
  name := floor.name
  partner :=
    match floor.partner gone with
    | some left => Function.update floor.partner left none
    | none => floor.partner
  role := floor.role

/-! ### They keep the matching -/

namespace Paired

variable {first second : ρ} {floor : Floor ι ν ρ}

theorem enter (paired : Paired first second floor) {new : ι} (isNew : ¬ floor.present new) :
    Paired first second (floor.enter new) := by
  intro one two present linked
  rcases present with rfl | present
  · simp [Floor.enter] at linked
  · have old : one ≠ new := by
      rintro rfl
      exact isNew present
    have linked' : floor.partner one = some two := by
      simpa [Floor.enter, Function.update_of_ne old] using linked
    have link := paired one two present linked'
    have old' : two ≠ new := by
      rintro rfl
      exact isNew link.present
    refine ⟨Or.inr link.present, link.apart, ?_, ?_, ?_⟩
    · simpa [Floor.enter, Function.update_of_ne old, Function.update_of_ne old'] using link.names
    · simpa [Floor.enter, Function.update_of_ne old'] using link.back
    · simpa [Floor.enter, Function.update_of_ne old, Function.update_of_ne old'] using link.roles

theorem call (paired : Paired first second floor) (who : ι) (name : ν) :
    Paired first second (floor.call who name) := by
  intro one two present linked
  have link := paired one two present linked
  have still : ∀ other, (floor.name other).isSome →
      ((floor.call who name).name other).isSome := by
    intro other already
    by_cases same : other = who
    · simp [Floor.call, same]
    · simpa [Floor.call, Function.update_of_ne same] using already
  exact ⟨link.present, link.apart, ⟨still one link.names.1, still two link.names.2⟩,
    link.back, link.roles⟩

/-- Two parties that are present, named and free become a pair. -/
theorem pair (paired : Paired first second floor) {host guest : ι} (apart : host ≠ guest)
    (present : floor.present host ∧ floor.present guest)
    (names : (floor.name host).isSome ∧ (floor.name guest).isSome)
    (free : floor.partner host = none ∧ floor.partner guest = none) :
    Paired first second (floor.pair first second host guest) := by
  intro one two here linked
  by_cases isGuest : one = guest
  · subst isGuest
    obtain rfl : host = two := by simpa [Floor.pair] using linked
    exact ⟨present.1, apart, names.symm, by simp [Floor.pair, Function.update_of_ne apart],
      Or.inr (by simp [Floor.pair, Function.update_of_ne apart])⟩
  by_cases isHost : one = host
  · subst isHost
    obtain rfl : guest = two := by
      simpa [Floor.pair, Function.update_of_ne isGuest] using linked
    exact ⟨present.2, apart.symm, names, by simp [Floor.pair],
      Or.inl (by simp [Floor.pair, Function.update_of_ne apart])⟩
  · have linked' : floor.partner one = some two := by
      simpa [Floor.pair, Function.update_of_ne isGuest, Function.update_of_ne isHost]
        using linked
    have link := paired one two here linked'
    have notGuest : two ≠ guest := by
      rintro rfl
      cases free.2.symm.trans link.back
    have notHost : two ≠ host := by
      rintro rfl
      cases free.1.symm.trans link.back
    refine ⟨link.present, link.apart, link.names, ?_, ?_⟩
    · simpa [Floor.pair, Function.update_of_ne notGuest, Function.update_of_ne notHost]
        using link.back
    · simpa [Floor.pair, Function.update_of_ne notGuest, Function.update_of_ne notHost,
        Function.update_of_ne isGuest, Function.update_of_ne isHost] using link.roles

theorem leave (paired : Paired first second floor) {gone : ι} (present : floor.present gone) :
    Paired first second (floor.leave gone) := by
  rintro one two ⟨here, notGone⟩ linked
  have free : ∀ {other : ι}, floor.partner gone = some other → one ≠ other := by
    intro other isPartner same
    subst same
    simp [Floor.leave, isPartner] at linked
  have linked' : floor.partner one = some two := by
    cases isPartner : floor.partner gone with
    | none => simpa [Floor.leave, isPartner] using linked
    | some other =>
        simpa [Floor.leave, isPartner, Function.update_of_ne (free isPartner)] using linked
  have link := paired one two here linked'
  have stays : two ≠ gone := by
    rintro rfl
    exact free link.back rfl
  refine ⟨⟨link.present, stays⟩, link.apart, link.names, ?_, link.roles⟩
  cases isPartner : floor.partner gone with
  | none => simpa [Floor.leave, isPartner] using link.back
  | some other =>
      have notOther : two ≠ other := by
        rintro rfl
        have other' := (paired gone two present isPartner).back
        rw [link.back] at other'
        exact notGone (Option.some.inj other')
      simpa [Floor.leave, isPartner, Function.update_of_ne notOther] using link.back

end Paired

/-! ### Who is left waiting -/

variable {first second : ρ} {floor : Floor ι ν ρ} {one host guest gone new : ι}

/-- A party that is present, has a name and has no partner. -/
def Idle (floor : Floor ι ν ρ) (one : ι) : Prop :=
  floor.present one ∧ (floor.name one).isSome ∧ floor.partner one = none

/-- A party that is idle and has not been in a pair yet. -/
def Unplayed (floor : Floor ι ν ρ) (one : ι) : Prop := floor.Idle one ∧ floor.role one = none

/-- A party that has a partner, or whom nobody idle could be paired with. -/
def Seated (floor : Floor ι ν ρ) (one : ι) : Prop :=
  (floor.partner one).isSome ∨ ∀ other, other ≠ one → ¬ floor.Idle other

/-- At most one party waits for its first partner; a partner comes with a role. -/
structure Settled (floor : Floor ι ν ρ) : Prop where
  alone : ∀ one two, floor.Unplayed one → floor.Unplayed two → one = two
  played : ∀ one, (floor.partner one).isSome → (floor.role one).isSome

omit [DecidableEq ι] in
/-- A move after which nobody new waits for a first partner. -/
theorem Settled.fewer {after : Floor ι ν ρ} (settled : Settled floor)
    (unplayed : ∀ one, after.Unplayed one → floor.Unplayed one)
    (played : ∀ one, (after.partner one).isSome → (after.role one).isSome) : Settled after where
  alone one two one_ two_ := settled.alone one two (unplayed one one_) (unplayed two two_)
  played := played

theorem Settled.enter (settled : Settled floor) : Settled (floor.enter new) := by
  apply settled.fewer
  · rintro one ⟨⟨present, named, free⟩, role⟩
    by_cases isNew : one = new
    · simp [Floor.enter, isNew] at named
    · simp only [Floor.enter, Function.update_of_ne isNew] at named free role
      exact ⟨⟨present.resolve_left isNew, named, free⟩, role⟩
  · intro one linked
    by_cases isNew : one = new
    · simp [Floor.enter, isNew] at linked
    · simp only [Floor.enter, Function.update_of_ne isNew] at linked ⊢
      exact settled.played one linked

/-- Who gives its name is seated, so that nobody else waits if it does. -/
theorem Settled.call {name : ν} (settled : Settled floor) (seated : (floor.call one name).Seated one) :
    Settled (floor.call one name) := by
  have others : ∀ other, (floor.call one name).Unplayed other → other = one ∨
      floor.Unplayed other := by
    rintro other ⟨⟨present, named, free⟩, role⟩
    by_cases here : other = one
    · exact Or.inl here
    · simp only [Floor.call, Function.update_of_ne here] at named
      exact Or.inr ⟨⟨present, named, free⟩, role⟩
  have caller : (floor.call one name).Unplayed one → ∀ other, floor.Unplayed other →
      other = one := by
    rintro ⟨⟨-, -, free⟩, -⟩ other ⟨⟨present, named, free'⟩, -⟩
    rcases seated with linked | nobody
    · rw [free] at linked
      cases linked
    · by_contra apart
      refine nobody other apart ⟨present, ?_, free'⟩
      simp only [Floor.call, Function.update_of_ne apart]
      exact named
  refine ⟨?_, settled.played⟩
  intro two three two_ three_
  rcases others two two_ with rfl | old
  · rcases others three three_ with rfl | old'
    · rfl
    · exact (caller two_ three old').symm
  · rcases others three three_ with rfl | old'
    · exact caller three_ two old
    · exact settled.alone two three old old'

theorem Settled.pair (settled : Settled floor) :
    Settled (floor.pair first second host guest) := by
  apply settled.fewer
  · rintro one ⟨⟨present, named, free⟩, role⟩
    by_cases isGuest : one = guest
    · simp [Floor.pair, isGuest] at role
    by_cases isHost : one = host
    · subst isHost
      simp [Floor.pair, Function.update_of_ne isGuest] at role
    · simp only [Floor.pair, Function.update_of_ne isGuest, Function.update_of_ne isHost]
        at free role
      exact ⟨⟨present, named, free⟩, role⟩
  · intro one linked
    by_cases isGuest : one = guest
    · simp [Floor.pair, isGuest]
    by_cases isHost : one = host
    · subst isHost
      simp [Floor.pair, Function.update_of_ne isGuest]
    · simp only [Floor.pair, Function.update_of_ne isGuest, Function.update_of_ne isHost]
        at linked ⊢
      exact settled.played one linked

theorem leave_partner (linked : ((floor.leave gone).partner one).isSome) :
    (floor.partner one).isSome := by
  cases isPartner : floor.partner gone with
  | none => simpa [Floor.leave, isPartner] using linked
  | some left =>
      by_cases isLeft : one = left
      · simp [Floor.leave, isPartner, isLeft] at linked
      · simpa [Floor.leave, isPartner, Function.update_of_ne isLeft] using linked

/-- Who is left has been in a pair. -/
theorem Settled.leave (settled : Settled floor) : Settled (floor.leave gone) := by
  have played : ∀ one, ((floor.leave gone).partner one).isSome →
      ((floor.leave gone).role one).isSome :=
    fun one linked => settled.played one (leave_partner linked)
  apply settled.fewer _ played
  rintro one ⟨⟨present, named, -⟩, role⟩
  refine ⟨⟨present.1, named, ?_⟩, role⟩
  cases isPartner : floor.partner one with
  | none => rfl
  | some partner =>
      have played := settled.played one (by rw [isPartner]; rfl)
      have none_ : floor.role one = none := role
      rw [none_] at played
      cases played

theorem seated_pair : (floor.pair first second host guest).Seated guest := by
  refine Or.inl ?_
  simp [Floor.pair]

/-- Who gives its name and is paired at once. -/
theorem Settled.call_pair {name : ν} (settled : Settled floor) :
    Settled ((floor.call guest name).pair first second host guest) := by
  have seated : ((floor.pair first second host guest).call guest name).Seated guest :=
    seated_pair.imp id fun nobody other apart idle => nobody other apart (by
      simpa [Idle, Floor.call, Function.update_of_ne apart] using idle)
  exact settled.pair.call seated

end Floor

end DragsterNet.Lib
