/-
Module: DragsterNet.Match.Pace
Purpose: How far a console's tick runs ahead of its own records: the ticks of
  the records it writes, in order, and the condition under which no captured
  tick is left out of every window.
Trusted boundary: none
Main exports: Desk.writeTicks, Desk.Paced, Desk.Prompt, Desk.Steady,
  Desk.steady_next, Desk.steady_covers
-/
import DragsterNet.Console.Record
import DragsterNet.Lib.WindowRing

namespace DragsterNet

open Lib

namespace Desk

open Console

variable {desk after : Desk} {act : Act}

/-- The ticks the records were written in, behind the tick before the first. -/
def writeTicks (desk : Desk) : List Int :=
  -1 :: desk.writes.map fun sent => (sent.tick : Int)

/-- The records are written in the order of their ticks, none ahead of the
console. -/
structure Paced (desk : Desk) : Prop where
  ascending : desk.writeTicks.IsChain (· ≤ ·)
  behind : ∀ tick ∈ desk.writeTicks.getLast?, tick ≤ desk.caps.length - 1

/-- How a step of a console changes what it captured and wrote. -/
inductive Progress (desk after : Desk) : Act → Prop where
  | captured {ports : Ports} {ram : Ram} {byte : Byte}
      (advances : (desk.atHook ram).advances = true)
      (caps : after.caps = desk.caps ++ [byte]) (writes : after.writes = desk.writes) :
      Progress desk after (.hook ports ram)
  | wrote {painted : Painted} (state : desk.console.dgNst = .wiss)
      (caps : after.caps = desk.caps)
      (writes : after.writes =
        desk.writes ++ [⟨desk.caps.length - 1, desk.console.record⟩]) :
      Progress desk after (.step painted)
  | neither {act : Act} (caps : after.caps = desk.caps)
      (writes : after.writes = desk.writes) : Progress desk after act

theorem progress_next (truthful : Truthful desk) (taken : desk.next act = some after) :
    Progress desk after act := by
  cases act with
  | hook ports ram =>
      have net := truthful.net (hook_bank taken)
      obtain ⟨-, -, writes, -, hooked⟩ := hook_cases net taken
      cases hooked with
      | between _ _ _ _ _ _ _ caps => exact .neither caps writes
      | boundary phase _ _ _ _ _ _ caps =>
          cases ran : (desk.atHook ram).has dgeRan with
          | true =>
              rw [if_pos ran] at caps
              have boundary : (desk.atHook ram).atBoundary = true := by
                have net' : (desk.atHook ram).has dgeNet = true := net
                simp [atBoundary, net', phase]
              exact .captured (by simp [advances, boundary, ran]) caps writes
          | false =>
              rw [if_neg (by simp [ran])] at caps
              exact .neither caps writes
  | step painted =>
      obtain ⟨⟨stepped, request⟩, taken', rfl⟩ := Option.map_eq_some_iff.mp taken
      have isStep := step_cases taken'
      by_cases state : desk.console.dgNst = .wiss
      · exact .wrote state isStep.caps (by rw [isStep.writes, if_pos state])
      · exact .neither isStep.caps (by rw [isStep.writes, if_neg state])
  | spin =>
      obtain rfl := spin_cases taken
      exact .neither rfl rfl

theorem writeTicks_append {sent : Sent} (writes : after.writes = desk.writes ++ [sent]) :
    after.writeTicks = desk.writeTicks ++ [(sent.tick : Int)] := by
  simp [writeTicks, writes]

theorem writeTicks_same (writes : after.writes = desk.writes) :
    after.writeTicks = desk.writeTicks := by
  simp [writeTicks, writes]

/-- The tick a console writes in is its own. -/
theorem wrote_tick {painted : Painted} {request : Option Request}
    (truthful : Truthful desk)
    (taken : desk.step painted = some (after, request)) :
    ((desk.caps.length - 1 : Nat) : Int) = desk.caps.length - 1 := by
  have captured := truthful.begun (step_cases taken).waiting
  have positive : 0 < desk.caps.length := List.length_pos_iff.mpr captured
  omega

theorem chain_write {Next : Int → Int → Prop} {tick : Int}
    (chain : desk.writeTicks.IsChain Next)
    (next : ∀ last ∈ desk.writeTicks.getLast?, Next last tick) :
    (desk.writeTicks ++ [tick]).IsChain Next := by
  rw [List.isChain_append]
  refine ⟨chain, List.isChain_singleton _, ?_⟩
  intro last isLast first isFirst
  obtain rfl : tick = first := by simpa using isFirst
  exact next last isLast

theorem paced_start {role seq : Byte} {ram : Ram} : Paced (start role seq ram) where
  ascending := by simp [writeTicks, start]
  behind := by simp [writeTicks, start]

theorem paced_next (truthful : Truthful desk) (paced : Paced desk)
    (taken : desk.next act = some after) : Paced after := by
  cases progress_next truthful taken with
  | captured advances caps writes =>
      refine ⟨writeTicks_same writes ▸ paced.ascending, ?_⟩
      rw [writeTicks_same writes, caps, List.length_append, List.length_singleton]
      intro tick isLast
      have := paced.behind tick isLast
      push_cast
      omega
  | wrote state caps writes =>
      obtain ⟨⟨stepped, request⟩, taken', rfl⟩ := Option.map_eq_some_iff.mp taken
      have own := wrote_tick truthful taken'
      refine ⟨?_, ?_⟩
      · rw [writeTicks_append writes]
        refine chain_write paced.ascending ?_
        rw [own]
        exact paced.behind
      · rw [writeTicks_append writes, List.getLast?_concat, caps, own]
        rintro tick ⟨⟩
        exact le_rfl
  | neither caps writes =>
      refine ⟨writeTicks_same writes ▸ paced.ascending, ?_⟩
      rw [writeTicks_same writes, caps]
      exact paced.behind

/-! ### No tick skipped -/

/-- A boundary advances only while at most two captures are newer than the last
record. -/
def Prompt (desk : Desk) : Act → Prop
  | .hook _ ram => (desk.atHook ram).advances = true →
      ∀ last ∈ desk.writeTicks.getLast?, (desk.caps.length : Int) ≤ last + 3
  | _ => True

instance (desk : Desk) (act : Act) : Decidable (Prompt desk act) :=
  match act with
  | .hook _ _ => inferInstanceAs (Decidable (_ → _))
  | .step _ | .spin => isTrue trivial

/-- Consecutive records leave no tick out, and the next one will not either. -/
structure Steady (desk : Desk) : Prop where
  chain : desk.writeTicks.IsChain (GapFree dgWin)
  fresh : ∀ last ∈ desk.writeTicks.getLast?, (desk.caps.length : Int) - 1 ≤ last + 3

theorem steady_start {role seq : Byte} {ram : Ram} : Steady (start role seq ram) where
  chain := by simp [writeTicks, start]
  fresh := by simp [writeTicks, start]

theorem steady_next (truthful : Truthful desk) (paced : Paced desk) (steady : Steady desk)
    (prompt : Prompt desk act) (taken : desk.next act = some after) : Steady after := by
  have small : (dgWin : Int) = 3 := rfl
  cases progress_next truthful taken with
  | captured advances caps writes =>
      refine ⟨writeTicks_same writes ▸ steady.chain, ?_⟩
      rw [writeTicks_same writes, caps, List.length_append, List.length_singleton]
      intro last isLast
      have := prompt advances last isLast
      push_cast
      omega
  | wrote state caps writes =>
      obtain ⟨⟨stepped, request⟩, taken', rfl⟩ := Option.map_eq_some_iff.mp taken
      have own := wrote_tick truthful taken'
      refine ⟨?_, ?_⟩
      · rw [writeTicks_append writes]
        refine chain_write steady.chain ?_
        rw [own]
        intro last isLast
        exact ⟨paced.behind last isLast, steady.fresh last isLast⟩
      · rw [writeTicks_append writes, List.getLast?_concat, caps, own]
        rintro last ⟨⟩
        omega
  | neither caps writes =>
      refine ⟨writeTicks_same writes ▸ steady.chain, ?_⟩
      rw [writeTicks_same writes, caps]
      exact steady.fresh

/-- Every captured tick is in the window of a record that is written no later
than the first one whose window ends at the tick or past it. -/
theorem steady_covers (steady : Steady desk) {tick : Int} (sendable : 2 ≤ tick)
    {index : Nat} {sent : Sent} (written : desk.writes[index]? = some sent)
    (past : tick ≤ sent.tick + 2) :
    ∃ earlier ≤ index, ∃ covering, desk.writes[earlier]? = some covering ∧
      WindowRing.InWindow dgWin (covering.tick + 2) tick := by
  have found : (desk.writes.map fun sent => (sent.tick : Int))[index]? =
      some (sent.tick : Int) := by
    rw [List.getElem?_map, written]
    rfl
  obtain ⟨earlier, before, reaching, isReaching, above, below⟩ :=
    WindowRing.chain_covers steady.chain (show -1 < tick - 2 by omega) found
      (show tick - 2 ≤ sent.tick by omega)
  rw [List.getElem?_map] at isReaching
  obtain ⟨covering, isCovering, rfl⟩ := Option.map_eq_some_iff.mp isReaching
  exact ⟨earlier, before, covering, isCovering, by omega, by omega⟩

end Desk

end DragsterNet
