/-
Module: DragsterNet.Refine.Registry
Purpose: The names of both relays: one entry for every client with a name, and
  their number as the Lobby is told it.
Trusted boundary: none
Main exports: Announces, registry_exact, registry_leaks
-/
import DragsterNet.Relay.Registry
import DragsterNet.CRelay.Registry

namespace DragsterNet.Refine

open Lib Relay

variable {oracle : Oracle}

/-- The Lobby is told `players`, or nothing, from `before` to `after`. -/
def Announces (before after : List Seen) (players : Nat) : Prop :=
  ∃ counts, Server.published after = Server.published before ++ counts ∧
    ∀ count ∈ counts, count = players

theorem Server.entry_iff {server : Server} (exact_ : server.roll.Exact) {name : Text} {c : Conn} :
    server.byName.get? name = some c ↔
      c ∈ server.clients ∧ (server.object c).name = some name :=
  Dict.mem_entries.symm.trans (exact_.listed name c)

/-- A slot's name, as the roster has it. -/
theorem roster_name {state : CRelay.State} {ci : CRelay.Slot} {name : Bytes} :
    (state.roster.badge ci).name = some name ↔
      (state.clients ci).hasName = true ∧ (state.clients ci).name = name := by
  have isName : (state.roster.badge ci).name =
      if (state.clients ci).hasName then some (state.clients ci).name else none := rfl
  rw [isName]
  by_cases named : (state.clients ci).hasName = true
  · rw [if_pos named, Option.some.injEq]
    exact (and_iff_right named).symm
  · rw [if_neg named]
    exact iff_of_false (fun absurd => by cases absurd) fun both => named both.1

theorem State.entry_iff {state : CRelay.State} (sound : state.roster.Sound) {name : Bytes}
    {ci : CRelay.Slot} {gen : BitVec 32} :
    ⟨name, ci, gen⟩ ∈ state.byName ↔
      ci ∈ state.order ∧ ((state.clients ci).hasName = true ∧ (state.clients ci).name = name) ∧
        (state.clients ci).gen = gen := by
  constructor
  · intro member
    obtain ⟨here, named⟩ := sound.listed member
    exact ⟨here, roster_name.mp named, (sound.tenant _ member).symm⟩
  · rintro ⟨here, named, rfl⟩
    have isEntry : (name, ci) ∈ state.roster.roll.entries :=
      (sound.exact_.listed name ci).mpr ⟨here, roster_name.mpr named⟩
    obtain ⟨entry, member, same⟩ := List.mem_map.mp isEntry
    obtain ⟨rfl, rfl⟩ := Prod.mk.inj same
    have tenant := sound.tenant entry member
    obtain ⟨name, ci, gen⟩ := entry
    obtain rfl : gen = (state.clients ci).gen := tenant
    exact member

theorem population_eq {state : CRelay.State} :
    state.roster.roll.population = state.order.countP fun ci => (state.clients ci).hasName := by
  unfold Roll.population
  refine List.countP_congr fun ci _ => ?_
  have isName : state.roster.roll.name ci =
      if (state.clients ci).hasName then some (state.clients ci).name else none := rfl
  rw [isName]
  cases (state.clients ci).hasName with
  | false => rfl
  | true => rfl

/-- As long as a HELLO that is accepted comes from a client that is connected and
has no name yet, both relays hold one entry for each client with a name, and no
other; names differ; and what the Lobby is told is how many there are. -/
theorem registry_exact {now : Time} {loop : Loop} {loop' : CRelay.Loop}
    (run : Run (Loop.Step oracle) Loop.Introduced (Loop.start now) loop)
    (run' : Run (CRelay.Loop.Step oracle) (CRelay.Loop.Introduced oracle)
      (CRelay.Loop.start now) loop') :
    ((∀ name c, loop.state.byName.get? name = some c ↔
        c ∈ loop.state.clients ∧ (loop.state.object c).name = some name) ∧
      (∀ c ∈ loop.state.clients, ∀ d ∈ loop.state.clients, ∀ name,
        (loop.state.object c).name = some name → (loop.state.object d).name = some name →
          c = d) ∧
      loop.state.byName.size =
        loop.state.clients.countP (fun c => (loop.state.object c).name.isSome) ∧
      ∀ act after, Loop.Introduced loop act → Loop.Step oracle loop act after →
        Announces loop.state.seen after.state.seen
          (after.state.clients.countP fun c => (after.state.object c).name.isSome)) ∧
    (∀ name ci gen, ⟨name, ci, gen⟩ ∈ loop'.state.byName ↔
        ci ∈ loop'.state.order ∧
          ((loop'.state.clients ci).hasName = true ∧ (loop'.state.clients ci).name = name) ∧
          (loop'.state.clients ci).gen = gen) ∧
      (loop'.state.byName.map fun entry => entry.name).Nodup ∧
      (∀ ci ∈ loop'.state.order, ∀ cj ∈ loop'.state.order,
        (loop'.state.clients ci).hasName = true → (loop'.state.clients cj).hasName = true →
          (loop'.state.clients ci).name = (loop'.state.clients cj).name → ci = cj) ∧
      loop'.state.byName.length =
        loop'.state.order.countP (fun ci => (loop'.state.clients ci).hasName) ∧
      ∀ act after, CRelay.Loop.Introduced oracle loop' act →
        CRelay.Loop.Step oracle loop' act after →
          Announces loop'.state.seen after.state.seen
            (after.state.order.countP fun ci => (after.state.clients ci).hasName) := by
  have exact_ := Loop.roll_run run
  have sound := CRelay.Loop.roster_run run'
  refine ⟨⟨fun name c => Server.entry_iff exact_, ?_, exact_.size, ?_⟩,
    fun name ci gen => State.entry_iff sound, ?_, ?_, ?_, ?_⟩
  · intro c here d here' name named named'
    exact exact_.unique here here' named named'
  · intro act after introduced step
    exact (Loop.roll_next (Loop.regular_run run) introduced step exact_).told
  · have distinct : (loop'.state.roster.roll.entries.map Prod.fst).Nodup := sound.exact_.distinct
    unfold CRelay.Roster.roll at distinct
    rw [List.map_map] at distinct
    exact distinct
  · intro ci here cj here' named named' same
    exact sound.exact_.unique here here' (roster_name.mpr ⟨named, rfl⟩)
      (roster_name.mpr ⟨named', same.symm⟩)
  · rw [← population_eq, ← sound.exact_.size]
    exact (List.length_map _).symm
  · intro act after introduced step
    have told := (CRelay.Loop.roster_next introduced step sound).told
    unfold Roll.Told at told
    rw [population_eq] at told
    exact told

/-- An oracle with a Lobby. -/
def listed : Oracle := { plain with lobby := true }

/-- Two consoles, each under its name. -/
theorem registry_exact_two : ∃ (loop : Loop) (loop' : CRelay.Loop),
    ((∀ name c, loop.state.byName.get? name = some c ↔
        c ∈ loop.state.clients ∧ (loop.state.object c).name = some name) ∧
      (∀ c ∈ loop.state.clients, ∀ d ∈ loop.state.clients, ∀ name,
        (loop.state.object c).name = some name → (loop.state.object d).name = some name →
          c = d) ∧
      loop.state.byName.size =
        loop.state.clients.countP (fun c => (loop.state.object c).name.isSome)) ∧
    (∀ name ci gen, ⟨name, ci, gen⟩ ∈ loop'.state.byName ↔
        ci ∈ loop'.state.order ∧
          ((loop'.state.clients ci).hasName = true ∧ (loop'.state.clients ci).name = name) ∧
          (loop'.state.clients ci).gen = gen) ∧
      loop'.state.byName.length =
        loop'.state.order.countP (fun ci => (loop'.state.clients ci).hasName) ∧
    loop.state.byName.size = 2 ∧ loop'.state.byName.length = 2 ∧
    Server.published loop.state.seen = [1, 2, 2] := by
  have outcome : ((Loop.twoConsoles ++ Loop.chunk 1 [helloFrame 0x42 0x42] 2).foldlM
      (guarded (Loop.next listed) Loop.Introduced) (Loop.start 0)).map (fun loop =>
        (loop.state.byName.size, Server.published loop.state.seen)) = some (2, [1, 2, 2]) := by
    decide +kernel
  have outcome' : ((CRelay.Loop.accepting 2 0 ++ CRelay.Loop.chunk 0 [helloFrame 0x41 0x41] 2 ++
      CRelay.Loop.chunk 1 [helloFrame 0x42 0x42] 2).foldlM
        (guarded (CRelay.Loop.next listed) (CRelay.Loop.Introduced listed))
          (CRelay.Loop.start 0)).map (fun loop => loop.state.byName.length) = some 2 := by
    decide +kernel
  obtain ⟨loop, executed, isOutcome⟩ := Option.map_eq_some_iff.mp outcome
  obtain ⟨loop', executed', isLength⟩ := Option.map_eq_some_iff.mp outcome'
  obtain ⟨isSize, isTold⟩ := Prod.mk.inj isOutcome
  obtain ⟨⟨entries, unique, size, -⟩, entries', -, -, size', -⟩ :=
    registry_exact (Run.of_guarded executed) (Run.of_guarded executed')
  exact ⟨loop, loop', ⟨entries, unique, size⟩, entries', size', isSize, isLength, isTold⟩

/-- A console says HELLO under one name and then under another: in both relays
the first entry stays, and the Lobby is told of two players. -/
theorem registry_leaks : ∃ (loop : Loop) (loop' : CRelay.Loop),
    Run (Loop.Step listed) always (Loop.start 0) loop ∧
      Run (CRelay.Loop.Step listed) always (CRelay.Loop.start 0) loop' ∧
      loop.state.clients = [0] ∧ (loop.state.object 0).name = some [0x42, 0x42] ∧
      loop.state.byName.get? [0x41, 0x41] = some 0 ∧
      Server.published loop.state.seen = [1, 2] ∧
      loop'.state.order = [0] ∧ (loop'.state.clients 0).name = [0x42, 0x42] ∧
      (loop'.state.byName.map fun entry => (entry.name, entry.ci)) =
        [([0x41, 0x41], 0), ([0x42, 0x42], 0)] ∧
      Server.published loop'.state.seen = [1, 2] := by
  have outcome : ((Loop.accepting 1 0 ++
      Loop.chunk 0 [helloFrame 0x41 0x41, helloFrame 0x42 0x42] 1).foldlM (Loop.next listed)
        (Loop.start 0)).map (fun loop => decide (loop.state.clients = [0] ∧
          (loop.state.object 0).name = some [0x42, 0x42] ∧
          loop.state.byName.get? [0x41, 0x41] = some 0 ∧
          Server.published loop.state.seen = [1, 2])) = some true := by
    decide +kernel
  have outcome' : ((CRelay.Loop.accepting 1 0 ++
      CRelay.Loop.chunk 0 [helloFrame 0x41 0x41, helloFrame 0x42 0x42] 1).foldlM
        (CRelay.Loop.next listed) (CRelay.Loop.start 0)).map (fun loop =>
          decide (loop.state.order = [0] ∧ (loop.state.clients 0).name = [0x42, 0x42] ∧
            (loop.state.byName.map fun entry => (entry.name, entry.ci)) =
              [([0x41, 0x41], 0), ([0x42, 0x42], 0)] ∧
            Server.published loop.state.seen = [1, 2])) = some true := by
    decide +kernel
  obtain ⟨loop, executed, isOutcome⟩ := Option.map_eq_some_iff.mp outcome
  obtain ⟨loop', executed', isOutcome'⟩ := Option.map_eq_some_iff.mp outcome'
  obtain ⟨clients, name, entry, told⟩ := of_decide_eq_true isOutcome
  exact ⟨loop, loop', Run.of_foldlM executed, Run.of_foldlM executed', clients, name, entry, told,
    of_decide_eq_true isOutcome'⟩

end DragsterNet.Refine
