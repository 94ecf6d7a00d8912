/-
Module: DragsterNet.CRelay.Registry
Purpose: The names of the C relay as a roll of its slots, and when it is exact.
Trusted boundary: none
Main exports: Roster, Roster.roll, Roster.Sound, State.roster,
  Loop.Introduced, Loop.roster_next
-/
import DragsterNet.Lib.Roll
import DragsterNet.CRelay.Partner
import DragsterNet.Relay.Service

namespace DragsterNet.CRelay

open Lib Relay

/-- What a slot is to the name table. -/
@[ext] structure Badge where
  inUse : Bool
  dead : Bool
  gen : BitVec 32
  name : Option Bytes

def Client.badge (client : Client) : Badge :=
  ⟨client.inUse, client.dead, client.gen, if client.hasName then some client.name else none⟩

/-- The slots in the order of acceptance, the name table, and the numbers of
players that the Lobby was told. -/
@[ext] structure Roster where
  order : List Slot
  byName : List NameEnt
  badge : Slot → Badge
  told : List Nat

namespace Roster

variable {roster : Roster} {ci : Slot} {name : Bytes} {before : List Nat}

def roll (roster : Roster) : Roll Slot Bytes where
  members := roster.order
  name ci := (roster.badge ci).name
  entries := roster.byName.map fun entry => (entry.name, entry.ci)
  told := roster.told

/-! ### The moves -/

/-- The entry of that name goes if it is the client's own. -/
def strike (roster : Roster) (name : Bytes) (ci : Slot) : Roster :=
  match roster.byName.find? fun entry => entry.name = name with
  | none => roster
  | some entry =>
      if entry.ci ≠ ci ∨ entry.gen ≠ (roster.badge ci).gen then roster
      else { roster with byName := roster.byName.eraseP fun entry => entry.name = name }

def mark (roster : Roster) (ci : Slot) : Roster :=
  { roster with badge := Function.update roster.badge ci { roster.badge ci with dead := true } }

theorem mark_self : (roster.mark ci).badge ci = { roster.badge ci with dead := true } :=
  Function.update_self ..

theorem mark_of_ne {other : Slot} (apart : other ≠ ci) :
    (roster.mark ci).badge other = roster.badge other :=
  Function.update_of_ne apart ..

def leave (roster : Roster) (ci : Slot) : Roster :=
  let struck :=
    match (roster.badge ci).name with
    | some name => (roster.mark ci).strike name ci
    | none => roster.mark ci
  { struck with order := struck.order.erase ci }

def call (roster : Roster) (ci : Slot) (name : Bytes) : Roster :=
  { roster with
    byName := roster.byName ++ [⟨name, ci, (roster.badge ci).gen⟩]
    badge := Function.update roster.badge ci { roster.badge ci with name := some name } }

def enter (roster : Roster) (ci : Slot) : Roster :=
  { roster with
    order := roster.order ++ [ci]
    badge := Function.update roster.badge ci ⟨true, false, (roster.badge ci).gen, none⟩ }

def tell (roster : Roster) : Roster :=
  { roster with told := roster.told ++ [roster.byName.length] }

/-- The dead slots are freed. -/
def free (roster : Roster) : Roster :=
  { roster with
    badge := fun ci =>
      if (roster.badge ci).inUse && (roster.badge ci).dead then
        { roster.badge ci with inUse := false, gen := (roster.badge ci).gen + 1 }
      else roster.badge ci }

/-! ### When it is exact -/

/-- The roll is exact, its entries are for the present tenants of their slots,
and who has left is dead or never had a name. -/
structure Sound (roster : Roster) : Prop where
  exact_ : roster.roll.Exact
  live : ∀ ci ∈ roster.order,
    (roster.badge ci).inUse = true ∧ (roster.badge ci).dead = false
  gone : ∀ ci, ci ∉ roster.order → (roster.badge ci).name.isSome →
    (roster.badge ci).dead = true
  tenant : ∀ entry ∈ roster.byName, entry.gen = (roster.badge entry.ci).gen

theorem Sound.listed (sound : roster.Sound) {entry : NameEnt} (member : entry ∈ roster.byName) :
    entry.ci ∈ roster.order ∧ (roster.badge entry.ci).name = some entry.name :=
  (sound.exact_.listed entry.name entry.ci).mp
    (List.mem_map_of_mem (f := fun entry : NameEnt => (entry.name, entry.ci)) member)

theorem eraseP_names {byName : List NameEnt}
    (distinct : ((byName.map fun entry => (entry.name, entry.ci)).map Prod.fst).Nodup) :
    (byName.eraseP fun entry => entry.name = name).map (fun entry => (entry.name, entry.ci)) =
      discard name (byName.map fun entry => (entry.name, entry.ci)) := by
  induction byName with
  | nil => rfl
  | cons entry rest inductionHypothesis =>
      rw [List.map_cons, List.map_cons, List.nodup_cons] at distinct
      by_cases here : entry.name = name
      · subst here
        have first : (entry :: rest).eraseP (fun other => other.name = entry.name) = rest :=
          List.eraseP_cons_of_pos (decide_eq_true (Eq.refl entry.name))
        rw [first]
        refine (discard_fresh distinct.1).symm.trans ?_
        simp [Lib.discard]
      · have later : (entry :: rest).eraseP (fun other => other.name = name) =
            entry :: rest.eraseP fun other => other.name = name :=
          List.eraseP_cons_of_neg (by simpa using here)
        rw [later, List.map_cons, inductionHypothesis distinct.2, List.map_cons]
        simp [Lib.discard, here]

/-- What a client's own name leads to, its entry is. -/
theorem Sound.find_own (sound : roster.Sound) (here : ci ∈ roster.order)
    (named : (roster.badge ci).name = some name) :
    ∃ entry ∈ roster.byName, roster.byName.find? (fun entry => entry.name = name) = some entry ∧
      entry.ci = ci ∧ entry.gen = (roster.badge ci).gen := by
  have isEntry : (name, ci) ∈ roster.roll.entries :=
    (sound.exact_.listed name ci).mpr ⟨here, named⟩
  obtain ⟨entry, member, same⟩ := List.mem_map.mp isEntry
  obtain ⟨isName, isSlot⟩ := Prod.mk.inj same
  cases found : roster.byName.find? fun entry => entry.name = name with
  | none => exact absurd (decide_eq_true isName) (List.find?_eq_none.mp found entry member)
  | some first =>
      have isFirst : first.name = name := by simpa using List.find?_some found
      have member' := List.mem_of_find?_eq_some found
      have own : first.ci = ci := sound.exact_.unique (sound.listed member').1 here
        (isFirst ▸ (sound.listed member').2) named
      refine ⟨first, member', rfl, own, ?_⟩
      rw [← own]
      exact sound.tenant first member'

theorem Sound.leave_byName (sound : roster.Sound) (here : ci ∈ roster.order) :
    (roster.leave ci).byName.Sublist roster.byName ∧
      (roster.leave ci).roll.entries = (roster.roll.leave ci).entries ∧
      (roster.leave ci).order = roster.order.erase ci ∧
      (roster.leave ci).badge = (roster.mark ci).badge ∧
      (roster.leave ci).told = roster.told := by
  unfold leave Roll.leave
  cases isName : (roster.badge ci).name with
  | none =>
      have unnamed : roster.roll.name ci = none := isName
      rw [unnamed]
      exact ⟨List.Sublist.refl _, rfl, rfl, rfl, rfl⟩
  | some name =>
      have named : roster.roll.name ci = some name := isName
      obtain ⟨entry, -, found, own, tenant⟩ := sound.find_own here isName
      have gen : ((roster.mark ci).badge ci).gen = (roster.badge ci).gen :=
        (congrArg Badge.gen mark_self).trans rfl
      have struck : (roster.mark ci).strike name ci =
          { roster.mark ci with
            byName := roster.byName.eraseP fun entry => entry.name = name } := by
        have found' : ((roster.mark ci).byName.find? fun entry => entry.name = name) =
            some entry := found
        unfold strike
        rw [found']
        simp only
        rw [gen, if_neg (not_or.mpr ⟨not_not.mpr own, not_not.mpr tenant⟩)]
        rfl
      rw [named]
      simp only
      rw [struck]
      exact ⟨List.eraseP_sublist .., eraseP_names sound.exact_.distinct, rfl, rfl, rfl⟩

theorem roll_mark : (roster.mark ci).roll.name = roster.roll.name := by
  funext other
  unfold roll mark
  simp only
  by_cases here : other = ci
  · subst here
    exact (congrArg Badge.name mark_self).trans rfl
  · exact congrArg Badge.name (mark_of_ne here)

theorem Sound.roll_leave (sound : roster.Sound) (here : ci ∈ roster.order) :
    (roster.leave ci).roll = roster.roll.leave ci := by
  obtain ⟨-, entries, order, badge, told⟩ := sound.leave_byName here
  refine Roll.ext order ?_ entries told
  refine Eq.trans ?_ (@roll_mark roster ci)
  unfold roll
  rw [badge]

theorem Sound.leave (sound : roster.Sound) (here : ci ∈ roster.order) :
    (roster.leave ci).Sound := by
  obtain ⟨sublist, -, order, badge, -⟩ := sound.leave_byName here
  have nodup : roster.order.Nodup := sound.exact_.nodup
  have apart : ∀ other, other ≠ ci → (roster.leave ci).badge other = roster.badge other := by
    intro other apart
    rw [badge]
    exact mark_of_ne apart
  have own : (roster.leave ci).badge ci = { roster.badge ci with dead := true } := by
    rw [badge]
    exact mark_self
  refine ⟨?_, ?_, ?_, ?_⟩
  · rw [sound.roll_leave here]
    exact sound.exact_.leave here
  · intro other member
    rw [order, nodup.mem_erase_iff] at member
    rw [apart other member.1]
    exact sound.live other member.2
  · intro other absent named
    by_cases isOwn : other = ci
    · rw [isOwn, own]
    · rw [apart other isOwn] at named ⊢
      apply sound.gone other _ named
      intro member
      apply absent
      rw [order]
      exact nodup.mem_erase_iff.mpr ⟨isOwn, member⟩
  · intro entry member
    rw [sound.tenant entry (sublist.subset member)]
    by_cases isOwn : entry.ci = ci
    · rw [isOwn, own]
    · rw [apart entry.ci isOwn]

/-- Who is not in the order and has no name leaves nothing behind. -/
theorem leave_stranger (absent : ci ∉ roster.order) (unnamed : (roster.badge ci).name = none) :
    roster.leave ci = roster.mark ci := by
  unfold leave
  rw [unnamed]
  simp only
  have order : (roster.mark ci).order.erase ci = (roster.mark ci).order :=
    List.erase_of_not_mem absent
  rw [order]

theorem Sound.mark (sound : roster.Sound) (absent : ci ∉ roster.order) :
    (roster.mark ci).Sound := by
  have roll : (roster.mark ci).roll = roster.roll := Roll.ext rfl roll_mark rfl rfl
  refine ⟨?_, ?_, ?_, ?_⟩
  · rw [roll]
    exact sound.exact_
  · intro other member
    have isOther : other ≠ ci := fun same => absent (same ▸ member)
    rw [mark_of_ne isOther]
    exact sound.live other member
  · intro other absent' named
    by_cases isOwn : other = ci
    · rw [isOwn, mark_self]
    · rw [mark_of_ne isOwn] at named ⊢
      exact sound.gone other absent' named
  · intro entry member
    have isOther : entry.ci ≠ ci := fun same => absent (same ▸ (sound.listed member).1)
    rw [mark_of_ne isOther]
    exact sound.tenant entry member

theorem roll_call : (roster.call ci name).roll = roster.roll.call ci name := by
  refine Roll.ext rfl ?_ ?_ rfl
  · funext other
    unfold roll call Roll.call
    simp only
    by_cases here : other = ci
    · rw [here, Function.update_self, Function.update_self]
    · rw [Function.update_of_ne here, Function.update_of_ne here]
  · unfold roll call Roll.call
    simp only [List.map_append, List.map_cons, List.map_nil]

theorem Sound.call (sound : roster.Sound) (here : ci ∈ roster.order)
    (unnamed : (roster.badge ci).name = none)
    (fresh : name ∉ roster.roll.entries.map Prod.fst) : (roster.call ci name).Sound := by
  have apart : ∀ other, other ≠ ci → (roster.call ci name).badge other = roster.badge other :=
    fun other apart => Function.update_of_ne apart ..
  have own : (roster.call ci name).badge ci = { roster.badge ci with name := some name } :=
    Function.update_self ..
  refine ⟨?_, ?_, ?_, ?_⟩
  · rw [roll_call]
    exact sound.exact_.call here unnamed fresh
  · intro other member
    by_cases isOwn : other = ci
    · rw [isOwn, own]
      exact sound.live ci here
    · rw [apart other isOwn]
      exact sound.live other member
  · intro other absent named
    have isOther : other ≠ ci := fun same => absent (same ▸ here)
    rw [apart other isOther] at named ⊢
    exact sound.gone other absent named
  · intro entry member
    rcases List.mem_append.mp member with old | new
    · rw [sound.tenant entry old]
      by_cases isOwn : entry.ci = ci
      · rw [isOwn, own]
      · rw [apart entry.ci isOwn]
    · rw [List.mem_singleton.mp new, own]

theorem roll_enter : (roster.enter ci).roll = roster.roll.enter ci := by
  refine Roll.ext rfl ?_ rfl rfl
  funext other
  unfold roll enter Roll.enter
  simp only
  by_cases here : other = ci
  · rw [here, Function.update_self, Function.update_self]
  · rw [Function.update_of_ne here, Function.update_of_ne here]

theorem Sound.enter (sound : roster.Sound) (absent : ci ∉ roster.order) :
    (roster.enter ci).Sound := by
  have apart : ∀ other, other ≠ ci → (roster.enter ci).badge other = roster.badge other :=
    fun other apart => Function.update_of_ne apart ..
  have own : (roster.enter ci).badge ci = ⟨true, false, (roster.badge ci).gen, none⟩ :=
    Function.update_self ..
  refine ⟨?_, ?_, ?_, ?_⟩
  · rw [roll_enter]
    exact sound.exact_.enter absent
  · intro other member
    by_cases isOwn : other = ci
    · rw [isOwn, own]
      exact ⟨rfl, rfl⟩
    · rw [apart other isOwn]
      rcases List.mem_append.mp member with old | new
      · exact sound.live other old
      · exact absurd (List.mem_singleton.mp new) isOwn
  · intro other absent' named
    have isOther : other ≠ ci := by
      rintro rfl
      exact absent' (List.mem_append_right _ (List.mem_singleton_self _))
    rw [apart other isOther] at named ⊢
    exact sound.gone other (fun old => absent' (List.mem_append_left _ old)) named
  · intro entry member
    have isOther : entry.ci ≠ ci := fun same => absent (same ▸ (sound.listed member).1)
    rw [apart entry.ci isOther]
    exact sound.tenant entry member

theorem roll_tell : roster.tell.roll = roster.roll.tell := by
  refine Roll.ext rfl rfl rfl ?_
  unfold roll tell Roll.tell
  simp only [List.length_map]

theorem Sound.tell (sound : roster.Sound) : roster.tell.Sound := by
  refine ⟨?_, sound.live, sound.gone, sound.tenant⟩
  rw [roll_tell]
  exact sound.exact_.tell

theorem roll_free : roster.free.roll = roster.roll := by
  refine Roll.ext rfl ?_ rfl rfl
  funext ci
  unfold roll free
  simp only
  split <;> rfl

/-- No dead slot has an entry, so those that are freed leave none behind. -/
theorem Sound.free (sound : roster.Sound) : roster.free.Sound := by
  have live : ∀ ci ∈ roster.order, roster.free.badge ci = roster.badge ci := by
    intro ci member
    unfold Roster.free
    simp only [(sound.live ci member).2, Bool.and_false, Bool.false_eq_true, if_false]
  refine ⟨?_, ?_, ?_, ?_⟩
  · rw [roll_free]
    exact sound.exact_
  · intro ci member
    rw [live ci member]
    exact sound.live ci member
  · intro ci absent named
    have kept : (roster.free.badge ci).name = (roster.badge ci).name ∧
        (roster.free.badge ci).dead = (roster.badge ci).dead := by
      unfold Roster.free
      simp only
      split <;> exact ⟨rfl, rfl⟩
    rw [kept.1] at named
    rw [kept.2]
    exact sound.gone ci absent named
  · intro entry member
    rw [live entry.ci (sound.listed member).1]
    exact sound.tenant entry member

/-- There are fewer entries than places for names. -/
theorem Sound.room (sound : roster.Sound) : roster.byName.length < nameSlots := by
  have size : roster.byName.length ≤ roster.order.length := by
    have entries := sound.exact_.size
    unfold Roll.population roll at entries
    rw [List.length_map] at entries
    rw [entries]
    exact List.countP_le_length
  have slots : roster.order.length ≤ 64 := by
    have nodup : roster.order.Nodup := sound.exact_.nodup
    have card := nodup.length_le_card
    rwa [Fintype.card_fin] at card
  exact Nat.lt_of_le_of_lt (size.trans slots) (by decide)

end Roster

namespace State

variable {oracle : Oracle} {state after : State} {ci host guest : Slot}
  {change : Client → Client} {payload : Bytes} {before : List Nat}

def roster (state : State) : Roster where
  order := state.order
  byName := state.byName
  badge ci := (state.clients ci).badge
  told := Server.published state.seen

/-- The Lobby is told, if there is one. -/
def announced (oracle : Oracle) (roster : Roster) : Roster :=
  if oracle.lobby then roster.tell else roster

/-! ### What each function does to the roster -/

theorem roster_edit {badge : Badge} (changed : (change (state.clients ci)).badge = badge) :
    (state.edit ci change).roster =
      { state.roster with badge := Function.update state.roster.badge ci badge } := by
  refine Roster.ext rfl rfl ?_ rfl
  funext other
  by_cases here : other = ci
  · subst here
    refine (congrArg Client.badge edit_self).trans (changed.trans ?_)
    exact (Function.update_self other badge state.roster.badge).symm
  · refine (congrArg Client.badge (edit_of_ne here)).trans ?_
    exact (Function.update_of_ne here badge state.roster.badge).symm

theorem roster_edit_same
    (keeps : (change (state.clients ci)).badge = (state.clients ci).badge) :
    (state.edit ci change).roster = state.roster := by
  rw [roster_edit keeps]
  refine Roster.ext rfl rfl ?_ rfl
  exact Function.update_eq_self ci state.roster.badge

theorem roster_note {seen : Seen} (untold : Server.published [seen] = []) :
    (state.note seen).roster = state.roster := by
  refine Roster.ext rfl rfl rfl ?_
  unfold roster note Server.published
  rw [List.filterMap_append]
  exact (congrArg _ untold).trans (List.append_nil _)

theorem roster_log {line : Line} : (state.log line).roster = state.roster :=
  roster_note rfl

theorem roster_count {counts : Counters → Counters} :
    (state.count counts).roster = state.roster := rfl

theorem roster_clientSend {src : Option Slot} {data : Bytes} :
    (state.clientSend src ci data).roster = state.roster := by
  unfold clientSend
  simp only
  split
  · exact roster_edit_same rfl
  · rw [roster_note rfl]
    exact roster_edit_same rfl

theorem roster_lobbyUpdateCount :
    (lobbyUpdateCount oracle state).roster = announced oracle state.roster := by
  unfold lobbyUpdateCount announced
  split
  · refine Roster.ext rfl rfl rfl ?_
    unfold roster note Server.published Roster.tell
    rw [List.filterMap_append]
    rfl
  · rfl

theorem roster_nameDelIfIs {name : Bytes} :
    (state.nameDelIfIs name ci).roster = state.roster.strike name ci := by
  have looked : state.roster.byName.find? (fun entry => entry.name = name) =
      state.byName.find? fun entry => entry.name = name := rfl
  unfold nameDelIfIs Roster.strike
  rw [looked]
  cases state.byName.find? fun entry => entry.name = name with
  | none => rfl
  | some entry => exact apply_ite State.roster _ _ _

theorem roster_unregister :
    (state.unregister ci).roster =
      match (state.roster.badge ci).name with
      | some name => state.roster.strike name ci
      | none => state.roster := by
  have isName : (state.roster.badge ci).name =
      if (state.clients ci).hasName then some (state.clients ci).name else none := rfl
  unfold unregister
  rw [isName]
  by_cases named : (state.clients ci).hasName = true
  · rw [if_pos named, if_pos named]
    exact roster_nameDelIfIs
  · rw [if_neg named, if_neg named]

theorem roster_leavePartner : (state.leavePartner ci).roster = state.roster := by
  unfold leavePartner
  split
  · rw [roster_log]
    unfold sendFrame
    rw [roster_clientSend, roster_edit_same rfl]
  · rfl

theorem roster_closeSlot :
    (state.closeSlot ci).roster =
      { state.roster with order := state.roster.order.erase ci } := by
  unfold closeSlot
  simp only
  split
  · rename_i fd _
    have closed : ((({ state with watched := Function.update state.watched fd none } : State).note
        (.close fd)).edit ci fun client => { client with fd := none }).roster =
          state.roster := by
      rw [roster_edit_same rfl, roster_note rfl]
      rfl
    exact congrArg (fun roster : Roster => { roster with order := roster.order.erase ci }) closed
  · rfl

theorem roster_farewell : (state.farewell ci).roster = state.roster := by
  unfold farewell
  split
  · exact roster_log
  · rfl

/-- A client that has not been dropped leaves the roster, and the Lobby is
told. -/
theorem roster_drop (alive : (state.clients ci).dead = false) :
    (state.drop oracle ci).roster = announced oracle (state.roster.leave ci) := by
  have marked : (state.edit ci fun client => { client with dead := true }).roster =
      state.roster.mark ci := roster_edit rfl
  have name : ((state.edit ci fun client => { client with dead := true }).roster.badge ci).name =
      (state.roster.badge ci).name := by
    rw [marked, Roster.mark_self]
  unfold drop
  rw [alive]
  simp only [Bool.false_eq_true, ↓reduceIte]
  rw [roster_lobbyUpdateCount, roster_farewell, roster_closeSlot, roster_leavePartner,
    roster_unregister, name, marked]
  rfl

theorem drop_dead (dead : (state.clients ci).dead = true) : state.drop oracle ci = state := by
  unfold drop
  exact if_pos dead

theorem roster_link : (state.link host guest).roster = state.roster := by
  unfold link
  simp only
  rw [roster_note rfl, roster_edit_same rfl, roster_edit_same rfl]

theorem roster_startFrame {seed : BitVec 16} {role : Nat} :
    (startFrame oracle state seed role host guest).roster = state.roster := by
  unfold startFrame sendFrame
  simp only
  rw [roster_clientSend, roster_edit_same rfl]

theorem roster_tryPair :
    (state.tryPair oracle ci).roster = state.roster ∨
      (state.tryPair oracle ci).roster = announced oracle state.roster := by
  unfold tryPair
  split
  · exact Or.inl rfl
  · right
    simp only
    rw [roster_lobbyUpdateCount, roster_log, roster_count, roster_startFrame,
      roster_startFrame, roster_link]
    rfl

theorem roster_noteTv : (state.noteTv ci payload).roster = state.roster := by
  unfold noteTv
  split
  · rfl
  · exact roster_edit_same rfl

theorem roster_nameSet {name : Bytes} (free : state.nameTaken name = false)
    (room : state.byName.length < nameSlots) :
    (state.nameSet name ci).roster =
      { state.roster with
        byName := state.roster.byName ++ [⟨name, ci, (state.roster.badge ci).gen⟩] } := by
  have fresh : (state.byName.findIdx? fun entry => entry.name = name) = none := by
    rw [List.findIdx?_eq_none_iff]
    intro entry member
    exact Bool.eq_false_iff.mpr (List.any_eq_false.mp free entry member)
  unfold nameSet
  simp only
  rw [fresh]
  simp only
  rw [if_neg (Nat.not_le.mpr room)]
  rfl

/-- A client that is given a free name is called by it, and the Lobby is told. -/
theorem roster_register {name : Bytes} {tv : Byte} {drawn : Nat}
    (free : state.nameTaken name = false) (room : state.byName.length < nameSlots) :
    (state.register oracle ci name tv drawn).roster =
      announced oracle (state.roster.call ci name) := by
  have named : (state.edit ci fun client => { client with name := name, hasName := true }).roster =
      { state.roster with
        badge := Function.update state.roster.badge ci
          { state.roster.badge ci with name := some name } } := roster_edit rfl
  have set : ((state.edit ci fun client =>
      { client with name := name, hasName := true }).nameSet name ci).roster =
        state.roster.call ci name := by
    have free' : (state.edit ci fun client =>
        { client with name := name, hasName := true }).nameTaken name = false := free
    rw [roster_nameSet free' room, named]
    simp only [Function.update_self]
    rfl
  unfold register
  simp only
  rw [roster_lobbyUpdateCount, roster_log]
  exact congrArg (announced oracle) set

theorem roster_forward {ftype : Byte} :
    (state.forward ci ftype payload).roster = state.roster := by
  unfold forward
  split
  · rfl
  · exact roster_clientSend

theorem roster_logCrc : (state.logCrc ci payload).roster = state.roster := by
  unfold logCrc
  simp only
  split
  · rw [roster_edit_same rfl, roster_edit_same rfl]
  · split
    · rw [roster_log, roster_count, roster_edit_same rfl, roster_edit_same rfl]
    · rw [roster_count, roster_edit_same rfl, roster_edit_same rfl]

theorem roster_reap : state.reap.roster = state.roster.free := by
  refine Roster.ext rfl rfl ?_ rfl
  funext ci
  cases isUsed : (state.clients ci).inUse <;> cases isDead : (state.clients ci).dead <;>
    simp [roster, reap, Roster.free, Client.badge, isUsed, isDead]

theorem roster_acceptClient {ip : Ip} {port : Nat} {born : Time} :
    (state.acceptClient ip port born).roster = state.roster ∨
      ∃ ci, (state.clients ci).inUse = false ∧
        (state.acceptClient ip port born).roster = state.roster.enter ci := by
  unfold acceptClient
  simp only
  split
  · exact Or.inl (roster_note rfl)
  · rename_i few
    split
    · exact Or.inl (roster_note rfl)
    · split
      · exact Or.inl (roster_note rfl)
      · rename_i ci found
        refine Or.inr ⟨ci, freeSlot_vacant found, ?_⟩
        rw [roster_log]
        have seated : (state.edit ci fun client =>
            { gen := client.gen, tx := client.tx, inUse := true, fd := some state.conns, ip := ip,
              port := port, born := born, holds := some state.conns }).roster =
            { state.roster with
              badge := Function.update state.roster.badge ci
                ⟨true, false, (state.roster.badge ci).gen, none⟩ } := roster_edit rfl
        have badge := congrArg Roster.badge seated
        refine Roster.ext ?_ rfl ?_ rfl
        · exact if_pos (Nat.not_le.mp few)
        · exact badge

/-! ### When it stays exact -/

theorem unnamed_badge (unnamed : (state.clients ci).hasName = false) :
    (state.roster.badge ci).name = none := by
  have isName : (state.roster.badge ci).name =
      if (state.clients ci).hasName then some (state.clients ci).name else none := rfl
  rw [isName, unnamed]
  rfl

/-- The roster is sound, and the Lobby has been told nothing since `before`. -/
structure Before (before : List Nat) (state : State) : Prop where
  sound : state.roster.Sound
  untold : state.roster.told = before

/-- The roster is sound, and whatever the Lobby has been told since `before` is
the number of clients with names. -/
structure Current (before : List Nat) (state : State) : Prop where
  sound : state.roster.Sound
  told : state.roster.roll.Told before

theorem Before.congr (ready : Before before state) (same : after.roster = state.roster) :
    Before before after := by
  refine ⟨?_, ?_⟩
  · rw [same]
    exact ready.sound
  · rw [same]
    exact ready.untold

theorem Before.current (ready : Before before state) : Current before state :=
  ⟨ready.sound, Roll.told_same ready.untold⟩

theorem Current.congr (current : Current before state) (same : after.roster = state.roster) :
    Current before after := by
  refine ⟨?_, ?_⟩
  · rw [same]
    exact current.sound
  · rw [same]
    exact current.told

theorem current_announced {roster : Roster} (sound : roster.Sound)
    (told : roster.roll.Told before) (same : after.roster = announced oracle roster) :
    Current before after := by
  unfold announced at same
  split at same
  · refine ⟨?_, ?_⟩
    · rw [same]
      exact sound.tell
    · rw [same, Roster.roll_tell]
      exact told.tell sound.exact_
  · refine ⟨?_, ?_⟩
    · rw [same]
      exact sound
    · rw [same]
      exact told

/-- A client leaves that has no name, or before anything has been told. -/
theorem current_drop (current : Current before state)
    (quiet : state.roster.told = before ∨ (state.roster.badge ci).name = none) :
    Current before (state.drop oracle ci) := by
  cases alive : (state.clients ci).dead with
  | true =>
      rw [drop_dead alive]
      exact current
  | false =>
      have gone := @roster_drop oracle state ci alive
      by_cases here : ci ∈ state.roster.order
      · refine current_announced (current.sound.leave here) ?_ gone
        rw [current.sound.roll_leave here]
        rcases quiet with untold | unnamed
        · exact Roll.told_same untold
        · exact current.told.congr rfl (Roll.population_leave unnamed)
      · have unnamed : (state.roster.badge ci).name = none := by
          apply Option.not_isSome_iff_eq_none.mp
          intro named
          have dead : (state.clients ci).dead = true := current.sound.gone ci here named
          rw [alive] at dead
          cases dead
        rw [Roster.leave_stranger here unnamed] at gone
        refine current_announced (current.sound.mark here) (current.told.congr rfl ?_) gone
        unfold Roll.population
        rw [Roster.roll_mark]
        rfl

theorem Before.drop (ready : Before before state) : Current before (state.drop oracle ci) :=
  current_drop ready.current (Or.inl ready.untold)

theorem Before.accept {ip : Ip} {port : Nat} {born : Time} (ready : Before before state) :
    Before before (state.acceptClient ip port born) := by
  rcases @roster_acceptClient state ip port born with same | ⟨ci, vacant, entered⟩
  · exact ready.congr same
  · refine ⟨?_, ?_⟩
    · rw [entered]
      apply ready.sound.enter
      intro member
      have used : (state.clients ci).inUse = true := (ready.sound.live ci member).1
      rw [vacant] at used
      cases used
    · rw [entered]
      exact ready.untold

theorem Current.tryPair (current : Current before state) :
    Current before (state.tryPair oracle ci) := by
  rcases @roster_tryPair oracle state ci with same | same
  · exact current.congr same
  · exact current_announced current.sound current.told same

theorem Before.onHello (ready : Before before state)
    (introduced : state.admits oracle payload = true →
      ci ∈ state.order ∧ (state.clients ci).hasName = false) :
    Current before (state.onHello oracle ci payload) := by
  have noted : Before before (state.noteTv ci payload) := ready.congr roster_noteTv
  have same := @roster_noteTv state ci payload
  unfold admits at introduced
  unfold State.onHello
  simp only
  cases read : readHello payload with
  | error refusal => exact Before.drop (noted.congr roster_log)
  | ok hello =>
      obtain ⟨tv, asked⟩ := hello
      rw [read] at introduced
      simp only at introduced ⊢
      have taken : (state.noteTv ci payload).nameTaken = state.nameTaken := by
        unfold nameTaken
        rw [names_noteTv.1]
      rw [taken, names_noteTv.2]
      cases found : freeName state.nameTaken (nextDigit oracle) nameGuard state.digits asked with
      | error last =>
          have refused : Before before ({ state.noteTv ci payload with
              digits := state.digits + nameGuard }.log
                (.noName ((state.noteTv ci payload).clients ci).ip last)) :=
            Before.congr ⟨noted.sound, noted.untold⟩ roster_log
          exact refused.drop
      | ok given =>
          obtain ⟨name, drawn⟩ := given
          rw [found] at introduced
          obtain ⟨here, unnamed⟩ := introduced rfl
          have free : (state.noteTv ci payload).nameTaken name = false := by
            rw [taken]
            exact freeName_free found
          have fresh : name ∉ (state.noteTv ci payload).roster.roll.entries.map Prod.fst := by
            intro member
            obtain ⟨pair, isPair, rfl⟩ := List.mem_map.mp member
            obtain ⟨entry, isEntry, rfl⟩ := List.mem_map.mp isPair
            exact List.any_eq_false.mp free entry isEntry (decide_eq_true rfl)
          have badge : ((state.noteTv ci payload).roster.badge ci).name = none := by
            rw [same]
            exact unnamed_badge unnamed
          have order : ci ∈ (state.noteTv ci payload).roster.order := by
            rw [same]
            exact here
          have registered : Current before
              ((state.noteTv ci payload).register oracle ci name tv drawn) := by
            refine current_announced (noted.sound.call order badge fresh) ?_
              (roster_register free noted.sound.room)
            rw [Roster.roll_call]
            exact Roll.told_same noted.untold
          exact registered.tryPair

theorem Before.handle {ftype : Byte} (ready : Before before state)
    (introduced : ftype = tHello → state.admits oracle payload = true →
      ci ∈ state.order ∧ (state.clients ci).hasName = false) :
    Current before (state.handle oracle ci ftype payload) := by
  unfold State.handle
  split
  · simp only
    split
    · exact (ready.congr (roster_logCrc.trans roster_forward)).current
    · exact (ready.congr roster_forward).current
  · split
    · rename_i isHello
      exact ready.onHello (introduced isHello)
    · split
      · exact (ready.congr roster_clientSend).current
      · split
        · exact ready.current.tryPair
        · split
          · exact (ready.congr roster_clientSend).current
          · split
            · exact ready.drop
            · exact (ready.congr roster_log).current

theorem Before.serviceOnce (ready : Before before state)
    (introduced : ∀ body, state.pending ci = some body → body.headD 0 = tHello →
      state.admits oracle body.tail = true →
        ci ∈ state.order ∧ (state.clients ci).hasName = false) :
    Current before (state.serviceOnce oracle ci).1 := by
  unfold State.serviceOnce
  cases read : readFrame (state.clients ci).rx with
  | short => exact ready.current
  | bad length => exact Before.drop (ready.congr (roster_log.trans roster_count))
  | whole body rest =>
      have isPending : state.pending ci = some body := by rw [pending, read]
      have taken : Before before (state.edit ci fun client => { client with rx := rest }) :=
        ready.congr (roster_edit_same rfl)
      apply taken.handle
      intro isHello admitted
      rw [edit_self]
      exact introduced body isPending isHello admitted

/-! ### The rule for one piece of the loop -/

/-- The roster and the board are as before. -/
structure Quiet (state after : State) : Prop where
  roster : after.roster = state.roster
  board : after.board = state.board

section Leads

variable {Inv Post : State → Prop}
  (quiet : ∀ {state after : State}, Inv state → Quiet state after → Inv after)
  (quiet' : ∀ {state after : State}, Post state → Quiet state after → Post after)
  (weaken : ∀ {state : State}, Inv state → Post state)
  (drop : ∀ {state : State} {ci : Slot}, Inv state → Post (state.drop oracle ci))
  (expel : ∀ {state : State} {ci : Slot}, Post state → (state.clients ci).hasName = false →
    Post (state.drop oracle ci))

include quiet weaken drop in
theorem checkBacklog_leads (holds : Inv state) : Post (state.checkBacklog oracle ci) := by
  unfold checkBacklog
  simp only
  split
  · exact drop (quiet holds ⟨roster_log.trans roster_count, rfl⟩)
  · exact weaken holds

include quiet weaken drop in
theorem flush_leads {sent : Relay.Sent} (holds : Inv state) : Post (state.flush oracle ci sent) := by
  unfold flush
  split
  · exact weaken holds
  · split
    · exact drop holds
    · cases sent with
      | failed => exact drop holds
      | blocked => exact checkBacklog_leads quiet weaken drop holds
      | took count =>
          apply checkBacklog_leads quiet weaken drop
          exact quiet holds ⟨(roster_note rfl).trans (roster_edit_same rfl),
            board_note.trans (board_edit_same rfl)⟩

include quiet weaken drop in
theorem writable_leads {write : Option Relay.Sent} (holds : Inv state) :
    Post (state.writable oracle ci write) := by
  unfold writable
  split
  · split
    · exact weaken holds
    · exact flush_leads quiet weaken drop holds
  · exact weaken holds

include quiet' expel in
theorem sweep_leads {now : Time} (holds : Post state) : Post (state.sweep oracle now) := by
  have swept : ∀ (slots : List Slot) (state : State), Post state →
      Post (slots.foldl (expire oracle now) state) := by
    intro slots
    induction slots with
    | nil => exact fun state holds => holds
    | cons ci rest inductionHypothesis =>
        intro state holds
        apply inductionHypothesis
        unfold expire
        simp only
        split
        · rename_i late
          exact expel (quiet' holds ⟨roster_count, rfl⟩) late.2.2.1
        · exact holds
  exact swept state.order state holds

include quiet in
theorem receive_leads {data : Bytes} {received : State}
    (isReceived : state.receive ci data = some received) (holds : Inv state) : Inv received := by
  unfold receive at isReceived
  simp only at isReceived
  split at isReceived
  · cases isReceived
  · split at isReceived
    · cases isReceived
    · obtain rfl := Option.some.inj isReceived
      exact quiet holds ⟨roster_edit_same rfl, board_edit_same rfl⟩

include quiet quiet' weaken drop expel in
/-- What accepting, dropping, servicing and freeing lead to, every piece of the
loop leads to, if a quiet change keeps it and a sweep, which drops the nameless,
does. -/
theorem perform_leads {job : Job}
    (accept : ∀ {ip : Ip} {port : Nat} {born : Time}, Post (state.acceptClient ip port born))
    (service : ∀ {ci : Slot}, job = .service ci → Post (state.serviceOnce oracle ci).1)
    (reap : ∀ {state : State}, Post state → Post state.reap) (holds : Inv state) :
    Post (state.perform oracle job).1 := by
  cases job with
  | accept ip port born => exact accept
  | ready ci gen read write =>
      unfold perform
      simp only
      split
      · exact weaken holds
      · split
        · exact weaken holds
        · cases read with
          | none => exact writable_leads quiet weaken drop holds
          | some data =>
              simp only
              split
              · rename_i received isReceived
                exact weaken (receive_leads quiet isReceived holds)
              · apply drop
                unfold noteOverflow
                simp only
                split
                · exact quiet holds ⟨roster_log, rfl⟩
                · exact holds
  | service ci => exact service rfl
  | writable ci write => exact writable_leads quiet weaken drop holds
  | flushAll sends => exact weaken holds
  | flush ci sent =>
      unfold perform
      simp only
      split
      · exact weaken holds
      · exact flush_leads quiet weaken drop holds
  | sweep now =>
      unfold perform sweepAt
      simp only
      split
      · exact quiet' (sweep_leads quiet' expel (weaken holds)) ⟨rfl, rfl⟩
      · exact weaken holds
  | report now =>
      unfold perform reportAt
      simp only
      split
      · have logged : Inv (state.log (.stats state.stats.stats)) := quiet holds ⟨roster_log, rfl⟩
        exact reap (weaken (quiet logged ⟨rfl, rfl⟩))
      · exact reap (weaken holds)

end Leads

theorem Current.reap (current : Current before state) : Current before state.reap := by
  refine ⟨?_, ?_⟩
  · rw [roster_reap]
    exact current.sound.free
  · rw [roster_reap, Roster.roll_free]
    exact current.told

theorem perform_current {job : Job} (ready : Before before state)
    (introduced : ∀ ci body, job = .service ci → state.pending ci = some body →
      body.headD 0 = tHello → state.admits oracle body.tail = true →
        ci ∈ state.order ∧ (state.clients ci).hasName = false) :
    Current before (state.perform oracle job).1 := by
  apply perform_leads (fun ready quiet => Before.congr ready quiet.roster)
    (fun current quiet => Current.congr current quiet.roster) Before.current Before.drop
    (fun current unnamed => current_drop current (Or.inr (unnamed_badge unnamed)))
    ready.accept.current
  · rintro ci rfl
    exact ready.serviceOnce fun body => introduced ci body rfl
  · exact Current.reap
  · exact ready

/-! ### The order, in any run -/

theorem present_roster : state.board.floor.present ci ↔
    (state.roster.badge ci).inUse = true ∧ (state.roster.badge ci).dead = false := Iff.rfl

theorem Tidy.roster (tidy : state.Tidy) (same : after.roster = state.roster) : after.Tidy := by
  apply tidy.congr (congrArg Roster.order same)
  funext ci
  apply propext
  rw [present_roster, present_roster, same]

theorem Tidy.accept {ip : Ip} {port : Nat} {born : Time} (tidy : state.Tidy) :
    (state.acceptClient ip port born).Tidy := by
  rcases @roster_acceptClient state ip port born with same | ⟨ci, vacant, entered⟩
  · exact tidy.roster same
  · have order : (state.acceptClient ip port born).order = state.order ++ [ci] :=
      congrArg Roster.order entered
    have absent : ci ∉ state.order := by
      intro member
      have used : (state.clients ci).inUse = true := ((tidy.mem_iff ci).mp member).1
      rw [vacant] at used
      cases used
    refine ⟨?_, ?_⟩
    · rw [order, ← List.concat_eq_append]
      exact tidy.nodup.concat absent
    · intro other
      rw [order, List.mem_append, List.mem_singleton, tidy.mem_iff, present_roster,
        present_roster, entered]
      by_cases here : other = ci
      · subst here
        have own : (state.roster.enter other).badge other =
            ⟨true, false, (state.roster.badge other).gen, none⟩ := Function.update_self ..
        rw [own]
        exact iff_of_true (Or.inr rfl) ⟨rfl, rfl⟩
      · have apart : (state.roster.enter ci).badge other = state.roster.badge other :=
          Function.update_of_ne here ..
        rw [apart]
        exact or_iff_left here

theorem Tidy.reap (tidy : state.Tidy) : state.reap.Tidy := by
  have order : state.reap.order = state.order := rfl
  apply tidy.congr order
  funext ci
  apply propext
  rw [present_roster, present_roster, roster_reap]
  unfold Roster.free
  simp only
  split
  · rename_i freed
    have dead : (state.roster.badge ci).dead = true := ((Bool.and_eq_true ..).mp freed).2
    refine iff_of_false (fun present => by cases present.1) fun present => ?_
    rw [dead] at present
    cases present.2
  · exact Iff.rfl

theorem perform_tidy {job : Job} (tidy : state.Tidy) : (state.perform oracle job).1.Tidy := by
  have dropped : ∀ {state : State} {ci : Slot}, state.Tidy → (state.drop oracle ci).Tidy := by
    intro state ci tidy
    have moved : Moved False ci state (state.drop oracle ci) := drop_moved
    exact moved.tidy tidy
  apply perform_leads (fun tidy quiet => Tidy.roster tidy quiet.roster)
    (fun tidy quiet => Tidy.roster tidy quiet.roster) (fun tidy => tidy) dropped
    (fun tidy _ => dropped tidy) tidy.accept
  · rintro ci rfl
    exact serviceOnce_moved.tidy tidy
  · exact Tidy.reap
  · exact tidy

theorem start_roster {now : Time} : (State.start now).roster.Sound where
  exact_ := ⟨List.nodup_nil, List.nodup_nil,
    fun _ _ => iff_of_false List.not_mem_nil fun named => List.not_mem_nil named.1⟩
  live _ member := absurd member List.not_mem_nil
  gone _ _ named := Bool.noConfusion named
  tenant _ member := absurd member List.not_mem_nil

end State

namespace Loop

variable {oracle : Oracle} {loop after : Loop} {act : Act} {now : Time}

/-- A HELLO that is admitted comes from a client that is connected and has no
name yet. -/
def Introduced (oracle : Oracle) (loop : Loop) (act : Act) : Prop :=
  ∀ dispatched ∈ loop.dispatching act, dispatched.2.headD 0 = tHello →
    loop.state.admits oracle dispatched.2.tail = true →
      dispatched.1 ∈ loop.state.order ∧ (loop.state.clients dispatched.1).hasName = false

instance (loop : Loop) (act : Act) : Decidable (Introduced oracle loop act) :=
  inferInstanceAs (Decidable (∀ dispatched ∈ loop.dispatching act, _))

theorem roster_next (introduced : Introduced oracle loop act) (step : Step oracle loop act after)
    (sound : loop.state.roster.Sound) :
    after.state.Current (Server.published loop.state.seen) := by
  have ready : loop.state.Before (Server.published loop.state.seen) := ⟨sound, rfl⟩
  rcases step_cases oracle step with ⟨turn, -, -, rfl⟩ | ⟨job, rest, rfl, isNext, rfl⟩
  · exact ready.current
  · apply State.perform_current ready
    rintro ci body rfl isPending
    exact introduced (ci, body) (dispatching_service isNext isPending)

theorem roster_run (run : Run (Step oracle) (Introduced oracle) (start now) loop) :
    loop.state.roster.Sound :=
  run.invariant (fun loop => loop.state.roster.Sound) State.start_roster
    fun sound introduced step => (roster_next introduced step sound).sound

theorem tidy_run {meets : Loop → Act → Prop} (run : Run (Step oracle) meets (start now) loop) :
    loop.state.Tidy := by
  refine run.invariant (fun loop => loop.state.Tidy) State.start_sound.tidy ?_
  rintro before act after tidy - step
  rcases step_cases oracle step with ⟨turn, -, -, rfl⟩ | ⟨job, rest, -, -, rfl⟩
  · exact tidy
  · exact State.perform_tidy tidy

end Loop

end DragsterNet.CRelay
