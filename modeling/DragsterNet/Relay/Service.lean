/-
Module: DragsterNet.Relay.Service
Purpose: When the loop in `service` comes to its end, for any bytes a client
  sends, and the frames on which it raises or never returns.
Trusted boundary: none
Main exports: Server.Answerable, Server.handle_returns_iff,
  Loop.service_returns_iff
-/
import DragsterNet.Lib.Frames
import DragsterNet.Relay.Pairing

namespace DragsterNet.Relay

open Lib

/-! ### Free names -/

section Names

variable {char : Type} {taken : List char → Bool} {digit : Nat → char}

/-- The name after `draws` digits have been tried. -/
def candidate (digit : Nat → char) (drawn : Nat) (name : List char) : Nat → List char
  | 0 => name
  | draws + 1 => (candidate digit drawn name draws).take 7 ++ [digit (drawn + draws)]

theorem candidate_succ (drawn draws : Nat) (name : List char) :
    candidate digit drawn name (draws + 1) =
      candidate digit (drawn + 1) (name.take 7 ++ [digit drawn]) draws := by
  induction draws with
  | zero => rfl
  | succ draws inductionHypothesis =>
      rw [candidate, inductionHypothesis, candidate, Nat.add_right_comm, Nat.add_assoc]

theorem freeName_eq (patience drawn : Nat) (name : List char) :
    freeName taken digit patience drawn name =
      if taken name then
        match patience with
        | 0 => .error name
        | patience + 1 =>
            freeName taken digit patience (drawn + 1) (name.take 7 ++ [digit drawn])
      else .ok (name, drawn) := by
  cases patience with
  | zero => rfl
  | succ patience => rfl

/-- The loop ends if and only if one of the names it tries is free. -/
theorem freeName_finds_iff {drawn : Nat} {name : List char} :
    (∃ patience found, freeName taken digit patience drawn name = .ok found) ↔
      ∃ draws, taken (candidate digit drawn name draws) = false := by
  constructor
  · rintro ⟨patience, found, isFound⟩
    induction patience generalizing drawn name with
    | zero =>
        rw [freeName_eq] at isFound
        split at isFound
        · cases isFound
        · rename_i free
          exact ⟨0, Bool.eq_false_iff.mpr free⟩
    | succ patience inductionHypothesis =>
        rw [freeName_eq] at isFound
        split at isFound
        · obtain ⟨draws, free⟩ := inductionHypothesis isFound
          exact ⟨draws + 1, by rw [candidate_succ]; exact free⟩
        · rename_i free
          exact ⟨0, Bool.eq_false_iff.mpr free⟩
  · rintro ⟨draws, free⟩
    induction draws generalizing drawn name with
    | zero =>
        have isFree : taken name = false := free
        refine ⟨0, (name, drawn), ?_⟩
        rw [freeName_eq, isFree]
        rfl
    | succ draws inductionHypothesis =>
        rw [candidate_succ] at free
        obtain ⟨patience, found, isFound⟩ := inductionHypothesis free
        by_cases isTaken : taken name = true
        · refine ⟨patience + 1, found, ?_⟩
          rw [freeName_eq, if_pos isTaken]
          exact isFound
        · refine ⟨0, (name, drawn), ?_⟩
          rw [freeName_eq, if_neg isTaken]

/-- More patience finds no other name. -/
theorem freeName_agree {patience patience' drawn : Nat} {name : List char}
    {one two : List char × Nat}
    (first : freeName taken digit patience drawn name = .ok one)
    (again : freeName taken digit patience' drawn name = .ok two) : one = two := by
  induction patience generalizing patience' drawn name with
  | zero =>
      rw [freeName_eq] at first again
      split at first
      · cases first
      · rename_i free
        rw [if_neg free] at again
        exact Except.ok.inj (first.symm.trans again)
  | succ patience inductionHypothesis =>
      rw [freeName_eq] at first again
      split at first
      · rename_i isTaken
        rw [if_pos isTaken] at again
        cases patience' with
        | zero => cases again
        | succ patience' => exact inductionHypothesis first again
      · rename_i free
        rw [if_neg free] at again
        exact Except.ok.inj (first.symm.trans again)

/-- What the search finds is free. -/
theorem freeName_free {patience drawn last : Nat} {name free : List char}
    (found : freeName taken digit patience drawn name = .ok (free, last)) :
    taken free = false := by
  induction patience generalizing drawn name with
  | zero =>
      rw [freeName_eq] at found
      split at found
      · cases found
      · rename_i isFree
        obtain ⟨rfl, -⟩ := Prod.mk.inj (Except.ok.inj found)
        exact Bool.eq_false_iff.mpr isFree
  | succ patience inductionHypothesis =>
      rw [freeName_eq] at found
      split at found
      · exact inductionHypothesis found
      · rename_i isFree
        obtain ⟨rfl, -⟩ := Prod.mk.inj (Except.ok.inj found)
        exact Bool.eq_false_iff.mpr isFree

/-! ### The names within reach -/

/-- `digits` can be written behind the first seven characters of a name. -/
structure Fits (name : List char) (digits : List (Fin 10)) : Prop where
  some_ : digits ≠ []
  short : (name.take 7).length + digits.length ≤ 8

/-- The loop can come to `found`, with the right digits. -/
def Reaches (glyph : Fin 10 → char) (name found : List char) : Prop :=
  found = name ∨ ∃ digits, Fits name digits ∧ found = name.take 7 ++ digits.map glyph

/-- One of the names the loop can come to is free. -/
def Room (taken : List char → Bool) (glyph : Fin 10 → char) (name : List char) : Prop :=
  ∃ found, Reaches glyph name found ∧ taken found = false

/-- Behind any seven characters of the alphabet one of the ten digits is free. -/
def Spare (taken : List char → Bool) (glyph : Fin 10 → char) (legal : char → Bool) : Prop :=
  ∀ stem : List char, stem.length = 7 → stem.all legal = true →
    ∃ digit, taken (stem ++ [glyph digit]) = false

/-- No free name the loop can come to is the last free one of the ten behind its
first seven characters. -/
def Lasting (taken : List char → Bool) (glyph : Fin 10 → char) (name : List char) : Prop :=
  ∀ found, Reaches glyph name found → taken found = false →
    ∀ stem digit, stem.length = 7 → stem ++ [glyph digit] = found →
      ∃ other, stem ++ [glyph other] ≠ found ∧ taken (stem ++ [glyph other]) = false

variable {glyph : Fin 10 → char} {name : List char} {drawn : Nat}

theorem take_seven {stem tail : List char} (long : stem.length = 7) :
    (stem ++ tail).take 7 = stem := by
  rw [← long]
  exact List.take_left

/-- Digits are kept behind the first seven characters: one more is written
behind the others, or over the last of them. -/
theorem candidate_digits (draws : Nat) (digit : Nat → Fin 10) :
    ∃ digits, Fits name digits ∧
      candidate (glyph ∘ digit) drawn name (draws + 1) = name.take 7 ++ digits.map glyph := by
  induction draws with
  | zero =>
      refine ⟨[digit drawn], ⟨List.cons_ne_nil _ _, ?_⟩, rfl⟩
      rw [List.length_take, List.length_singleton]
      omega
  | succ draws inductionHypothesis =>
      obtain ⟨digits, fits, isName⟩ := inductionHypothesis
      have kept : (name.take 7 ++ digits.map glyph).take 7 =
          name.take 7 ++ (digits.take (7 - (name.take 7).length)).map glyph := by
        rw [List.take_append, List.take_take, List.map_take, Nat.min_self]
      refine ⟨digits.take (7 - (name.take 7).length) ++ [digit (drawn + (draws + 1))],
        ⟨List.append_ne_nil_of_right_ne_nil _ (List.cons_ne_nil _ _), ?_⟩, ?_⟩
      · rw [List.length_append, List.length_take, List.length_take, List.length_singleton]
        omega
      · rw [candidate, isName, kept, List.map_append, List.append_assoc]
        rfl

/-- The digits that fit are reached by drawing them in their order. -/
theorem candidate_reaches {digits : List (Fin 10)} (fits : Fits name digits) :
    candidate (glyph ∘ fun n => digits.getD (n - drawn) 0) drawn name digits.length =
      name.take 7 ++ digits.map glyph := by
  have reached : ∀ draws, draws < digits.length →
      candidate (glyph ∘ fun n => digits.getD (n - drawn) 0) drawn name (draws + 1) =
        name.take 7 ++ (digits.take (draws + 1)).map glyph := by
    intro draws
    induction draws with
    | zero =>
        intro inside
        obtain ⟨first, rest, rfl⟩ := List.exists_cons_of_length_pos inside
        rw [candidate, candidate]
        simp
    | succ draws inductionHypothesis =>
        intro inside
        have whole : (name.take 7 ++ (digits.take (draws + 1)).map glyph).take 7 =
            name.take 7 ++ (digits.take (draws + 1)).map glyph := by
          apply List.take_of_length_le
          have taken_ : (digits.take (draws + 1)).length ≤ draws + 1 := List.length_take_le _ _
          have short := fits.short
          rw [List.length_append, List.length_map]
          omega
        have next : digits.take (draws + 1 + 1) =
            digits.take (draws + 1) ++ [digits.getD (draws + 1) 0] := by
          rw [List.take_add_one, List.getD_eq_getElem?_getD, List.getElem?_eq_getElem inside]
          rfl
        rw [candidate, inductionHypothesis (by omega), whole, next, List.map_append,
          List.append_assoc]
        simp
  cases digits with
  | nil => exact absurd rfl fits.some_
  | cons first rest =>
      have all := reached rest.length (Nat.lt_succ_self _)
      have whole : (first :: rest).take (rest.length + 1) = first :: rest :=
        List.take_of_length_le (Nat.le_refl _)
      rwa [whole] at all

/-- The loop finds a free name within as many draws as lead to one. -/
theorem freeName_within {patience draws : Nat} {digit : Nat → char} (enough : draws ≤ patience)
    (free : taken (candidate digit drawn name draws) = false) :
    ∃ found, freeName taken digit patience drawn name = .ok found := by
  induction draws generalizing patience drawn name with
  | zero =>
      have isFree : taken name = false := free
      refine ⟨(name, drawn), ?_⟩
      rw [freeName_eq, isFree]
      rfl
  | succ draws inductionHypothesis =>
      rw [freeName_eq]
      split
      · obtain ⟨more, rfl⟩ := Nat.exists_eq_add_of_le' enough
        rw [candidate_succ] at free
        exact inductionHypothesis (Nat.le_add_left draws more) free
      · exact ⟨_, rfl⟩

/-- What the loop finds is a name it can come to. -/
theorem freeName_reaches {patience last : Nat} {digit : Nat → Fin 10} {free : List char}
    (found : freeName taken (glyph ∘ digit) patience drawn name = .ok (free, last)) :
    Reaches glyph name free := by
  have tried : ∃ draws, free = candidate (glyph ∘ digit) drawn name draws := by
    induction patience generalizing drawn name with
    | zero =>
        rw [freeName_eq] at found
        split at found
        · cases found
        · obtain ⟨rfl, -⟩ := Prod.mk.inj (Except.ok.inj found)
          exact ⟨0, rfl⟩
    | succ patience inductionHypothesis =>
        rw [freeName_eq] at found
        split at found
        · obtain ⟨draws, isName⟩ := inductionHypothesis found
          exact ⟨draws + 1, isName.trans (candidate_succ drawn draws name).symm⟩
        · obtain ⟨rfl, -⟩ := Prod.mk.inj (Except.ok.inj found)
          exact ⟨0, rfl⟩
  obtain ⟨draws, rfl⟩ := tried
  cases draws with
  | zero => exact Or.inl rfl
  | succ draws => exact Or.inr (candidate_digits draws digit)

theorem room_of_found {patience : Nat} {digit : Nat → Fin 10} {found : List char × Nat}
    (isFound : freeName taken (glyph ∘ digit) patience drawn name = .ok found) :
    Room taken glyph name :=
  ⟨found.1, freeName_reaches isFound, freeName_free isFound⟩

/-- If one of them is free, some digits lead to it; eight draws are enough. -/
theorem Room.found {patience : Nat} (room : Room taken glyph name) (enough : 8 ≤ patience) :
    ∃ digit : Nat → Fin 10, ∃ found,
      freeName taken (glyph ∘ digit) patience drawn name = .ok found := by
  obtain ⟨found, rfl | ⟨digits, fits, rfl⟩, free⟩ := room
  · exact ⟨fun _ => 0, freeName_within (Nat.zero_le _) free⟩
  · have few : digits.length ≤ patience :=
      ((Nat.le_add_left _ _).trans fits.short).trans enough
    exact ⟨_, freeName_within few ((candidate_reaches fits).symm ▸ free)⟩

/-- Every short name has a free one within reach exactly if no seven characters
have all their ten names taken. -/
theorem room_iff_spare {legal : char → Bool} (digits : ∀ digit, legal (glyph digit) = true) :
    (∀ name : List char, 2 ≤ name.length → name.length ≤ 8 → name.all legal = true →
      Room taken glyph name) ↔ Spare taken glyph legal := by
  constructor
  · intro rooms stem long isLegal
    have room := rooms (stem ++ [glyph 0]) (by simp [long]) (by simp [long])
      (by simp [isLegal, digits])
    obtain ⟨found, rfl | ⟨digits, fits, rfl⟩, free⟩ := room
    · exact ⟨0, free⟩
    · have short := fits.short
      rw [take_seven long] at short free
      obtain ⟨digit, rfl⟩ : ∃ digit, digits = [digit] := by
        apply List.length_eq_one_iff.mp
        have some_ := List.length_pos_of_ne_nil fits.some_
        omega
      exact ⟨digit, free⟩
  · intro spare name _ short isLegal
    have cut := List.length_take_le 7 name
    -- The name is filled up with zeros to seven characters.
    obtain ⟨digit, free⟩ := spare
      (name.take 7 ++ List.replicate (7 - (name.take 7).length) (glyph 0))
      (by rw [List.length_append, List.length_replicate]; omega)
      (by
        rw [List.all_append, Bool.and_eq_true, List.all_replicate]
        refine ⟨?_, by simp [digits]⟩
        apply List.all_eq_true.mpr
        intro char member
        exact List.all_eq_true.mp isLegal char (List.mem_of_mem_take member))
    refine ⟨_, Or.inr ⟨List.replicate (7 - (name.take 7).length) 0 ++ [digit], ⟨?_, ?_⟩, rfl⟩, ?_⟩
    · exact List.append_ne_nil_of_right_ne_nil _ (List.cons_ne_nil _ _)
    · rw [List.length_append, List.length_replicate, List.length_singleton]
      omega
    · rw [List.map_append, List.map_replicate, ← List.append_assoc]
      exact free

/-- With all ten names behind seven characters taken, none of them has a way
out. -/
theorem not_room {stem : List char} (long : stem.length = 7)
    (full : ∀ digit, taken (stem ++ [glyph digit]) = true) (digit : Fin 10) :
    ¬ Room taken glyph (stem ++ [glyph digit]) := by
  rintro ⟨found, rfl | ⟨digits, fits, rfl⟩, free⟩
  · rw [full] at free
    cases free
  · have short := fits.short
    rw [take_seven long] at short free
    obtain ⟨last, rfl⟩ : ∃ last, digits = [last] := by
      apply List.length_eq_one_iff.mp
      have some_ := List.length_pos_of_ne_nil fits.some_
      omega
    have isTaken := full last
    rw [List.map_singleton, isTaken] at free
    cases free

/-- Fewer names taken leave more to spare. -/
theorem Spare.mono {taken' : List char → Bool} {legal : char → Bool}
    (spare : Spare taken glyph legal)
    (fewer : ∀ name, taken' name = true → taken name = true) : Spare taken' glyph legal := by
  intro stem long isLegal
  obtain ⟨digit, free⟩ := spare stem long isLegal
  refine ⟨digit, Bool.eq_false_iff.mpr fun isTaken => ?_⟩
  rw [fewer _ isTaken] at free
  cases free

/-- One more name, if it is not the last of its ten, leaves enough to spare. -/
theorem Spare.taking {taken' : List char → Bool} {legal : char → Bool} {found : List char}
    (spare : Spare taken glyph legal) (lasting : Lasting taken glyph name)
    (reaches : Reaches glyph name found) (isFree : taken found = false)
    (one : ∀ name, taken' name = true → taken name = true ∨ name = found) :
    Spare taken' glyph legal := by
  have still : ∀ {other}, other ≠ found → taken other = false → taken' other = false := by
    intro other apart free
    refine Bool.eq_false_iff.mpr fun isTaken => ?_
    rcases one other isTaken with before | same
    · rw [before] at free
      cases free
    · exact apart same
  intro stem long isLegal
  obtain ⟨digit, free⟩ := spare stem long isLegal
  by_cases same : stem ++ [glyph digit] = found
  · obtain ⟨other, apart, free'⟩ := lasting found reaches isFree stem digit long same
    exact ⟨other, still apart free'⟩
  · exact ⟨digit, still same free⟩

/-- With nothing taken nothing is the last of its ten. -/
theorem lasting_fresh (fresh : ∀ name, taken name = false) (apart : glyph 0 ≠ glyph 1) :
    Lasting taken glyph name := by
  intro found _ _ stem digit _ _
  by_cases same : stem ++ [glyph 0] = found
  · refine ⟨1, ?_, fresh _⟩
    rintro rfl
    exact apart (List.singleton_inj.mp (List.append_cancel_left same))
  · exact ⟨0, same, fresh _⟩

end Names

namespace Server

variable {oracle : Oracle} {server after : Server} {c host guest : Conn}
  {change : Client → Client} {patience patience' : Nat}

/-! ### What a frame leaves alone -/

/-- Neither the socket nor the receive buffer of a client has changed. -/
structure SameSocket (one two : Client) : Prop where
  rx : two.rx = one.rx
  ip : two.ip = one.ip
  port : two.port = one.port
  born : two.born = one.born

def Still (server after : Server) : Prop :=
  ∀ c, SameSocket (server.object c) (after.object c)

theorem Still.rfl : Still server server := fun _ => ⟨Eq.refl _, Eq.refl _, Eq.refl _, Eq.refl _⟩

theorem Still.trans {middle : Server} (one : Still server middle) (two : Still middle after) :
    Still server after := fun c =>
  ⟨(two c).rx.trans (one c).rx, (two c).ip.trans (one c).ip,
    (two c).port.trans (one c).port, (two c).born.trans (one c).born⟩

theorem Still.edit (still : Still server after)
    (same : SameSocket (after.object c) (change (after.object c))) :
    Still server (after.edit c change) := by
  refine still.trans ?_
  intro other
  by_cases here : other = c
  · rw [here, edit_self]
    exact same
  · rw [edit_of_ne here]
    exact ⟨Eq.refl _, Eq.refl _, Eq.refl _, Eq.refl _⟩

theorem Still.log {line : Line} (still : Still server after) : Still server (after.log line) :=
  still

theorem Still.count {change : Stats → Stats} (still : Still server after) :
    Still server (after.count change) :=
  still

theorem object_lobbyUpdate : (lobbyUpdate oracle server).object = server.object := by
  unfold lobbyUpdate
  split <;> rfl

/-! ### What is done to a client -/

/-- A relation that holds from before to after whatever the relay does to a
client, but for receiving and for the checksum of a record. -/
structure Gentle (R : Client → Client → Prop) : Prop where
  refl : ∀ client, R client client
  trans : ∀ {one two three : Client}, R one two → R two three → R one three
  tx : ∀ client tx, R client { client with tx := tx }
  tv : ∀ client tv, R client { client with tv := tv }
  name : ∀ client name, R client { client with name := name }
  partner : ∀ client partner role, R client { client with partner := partner, role := role }
  fresh : ∀ client, R client { client with crc := Dict.empty }

/-- The relation, from before to after, for every client. -/
def Each (R : Client → Client → Prop) (server after : Server) : Prop :=
  ∀ c, R (server.object c) (after.object c)

section Gentle

variable {R : Client → Client → Prop}

theorem Each.congr {later : Server} (each : Each R server after)
    (same : later.object = after.object) : Each R server later := by
  intro c
  rw [same]
  exact each c

theorem Each.log {line : Line} (each : Each R server after) : Each R server (after.log line) :=
  each

variable (gentle : Gentle R)
include gentle

theorem each_rfl : Each R server server := fun c => gentle.refl (server.object c)

theorem each_trans {middle : Server} (one : Each R server middle) (two : Each R middle after) :
    Each R server after := fun c => gentle.trans (one c) (two c)

theorem each_edit (kept : R (server.object c) (change (server.object c))) :
    Each R server (server.edit c change) := by
  intro other
  by_cases here : other = c
  · rw [here, edit_self]
    exact kept
  · rw [edit_of_ne here]
    exact gentle.refl _

theorem each_send {src : Option Conn} {data : Bytes} : Each R server (server.send src c data) := by
  have grown : Each R server (server.edit c fun client =>
      { client with tx := client.tx ++ data }) := each_edit gentle (gentle.tx _ _)
  exact grown

theorem each_noteTv {payload : Bytes} : Each R server (server.noteTv c payload) := by
  unfold noteTv
  split
  · exact each_rfl gentle
  · exact each_edit gentle (gentle.tv _ _)

theorem each_drop : Each R server (server.drop oracle c) := by
  unfold drop
  split
  · have unregistered : Each R server (server.unregister c) :=
      (each_rfl gentle).congr object_unregister
    have left : Each R server ((server.unregister c).leavePartner c) := by
      refine each_trans gentle unregistered ?_
      unfold leavePartner
      split
      · rename_i partner _
        have alone : Each R (server.unregister c) ((server.unregister c).edit partner
            fun client => { client with partner := none }) :=
          each_edit gentle (gentle.partner _ none _)
        apply Each.log
        exact each_trans gentle alone (each_send gentle)
      · exact each_rfl gentle
    apply left.congr
    rw [object_lobbyUpdate]
    unfold farewell
    split <;> rfl
  · exact each_rfl gentle

theorem each_register {name : Text} {tv : Byte} {drawn : Nat} :
    Each R server (server.register oracle c name tv drawn) := by
  have named : Each R server (server.edit c fun client => { client with name := some name }) :=
    each_edit gentle (gentle.name _ _)
  exact named.congr object_lobbyUpdate

theorem each_link : Each R server (server.link host guest) := by
  have hosted : Each R server (server.edit host fun client =>
      { client with partner := some guest, role := some 0 }) :=
    each_edit gentle (gentle.partner _ _ _)
  have both : Each R (server.edit host fun client =>
      { client with partner := some guest, role := some 0 })
      ((server.edit host fun client =>
        { client with partner := some guest, role := some 0 }).edit guest fun client =>
          { client with partner := some host, role := some 1 }) :=
    each_edit gentle (gentle.partner _ _ _)
  exact each_trans gentle hosted both

theorem startFrame_each {seed : BitVec 16} {role : Nat}
    (started : startFrame oracle server seed role host guest = .ok after) :
    Each R server after := by
  obtain ⟨header, -, rest⟩ := bind_ok.mp started
  split at rest
  · cases rest
  · obtain ⟨data, -, sent⟩ := bind_ok.mp rest
    obtain rfl := Except.ok.inj sent
    exact each_trans gentle (each_edit gentle (gentle.fresh _)) (each_send gentle)

theorem tryPair_each (tried : server.tryPair oracle c = .ok after) : Each R server after := by
  unfold tryPair at tried
  split at tried
  · obtain rfl := Except.ok.inj tried
    exact each_rfl gentle
  · rename_i other _
    obtain ⟨one, first, rest⟩ := bind_ok.mp tried
    obtain ⟨two, second, done⟩ := bind_ok.mp rest
    obtain rfl := Except.ok.inj done
    have linked : Each R server ({ server with seeds := server.seeds + 1 }.link other c) :=
      each_link gentle
    have both := each_trans gentle linked
      (each_trans gentle (startFrame_each gentle first) (startFrame_each gentle second))
    exact both.congr object_lobbyUpdate

theorem onHello_each {payload : Bytes}
    (greeted : server.onHello oracle patience c payload = .ok after) : Each R server after := by
  unfold onHello at greeted
  simp only at greeted
  split at greeted
  · obtain rfl := Except.ok.inj greeted
    exact each_trans gentle (Each.log (each_noteTv gentle)) (each_drop gentle)
  · split at greeted
    · cases greeted
    · exact each_trans gentle (each_noteTv gentle)
        (each_trans gentle (each_register gentle) (tryPair_each gentle greeted))

theorem forward_each {ftype : Byte} {payload : Bytes}
    (forwarded : server.forward c ftype payload = .ok after) : Each R server after := by
  unfold forward at forwarded
  split at forwarded
  · obtain rfl := Except.ok.inj forwarded
    exact each_rfl gentle
  · obtain ⟨data, -, sent⟩ := bind_ok.mp forwarded
    obtain rfl := Except.ok.inj sent
    exact each_send gentle

/-- A frame changes the clients so, or logs the checksum of an INPUT record after
such a change. -/
theorem handle_each {ftype : Byte} {payload : Bytes}
    (handled : server.handle oracle patience c ftype payload = .ok after) :
    Each R server after ∨ ftype = tInput ∧ 6 ≤ payload.length ∧
      ∃ middle, server.forward c ftype payload = .ok middle ∧ Each R server middle ∧
        after = middle.logCrc c payload := by
  unfold handle at handled
  split at handled
  · obtain ⟨middle, relayed, rest⟩ := bind_ok.mp handled
    have forwarded := forward_each gentle relayed
    split at rest
    · rename_i logged
      obtain rfl := Except.ok.inj rest
      exact Or.inr ⟨logged.1, logged.2, middle, relayed, forwarded, rfl⟩
    · obtain rfl := Except.ok.inj rest
      exact Or.inl forwarded
  · left
    split at handled
    · exact onHello_each gentle handled
    · split at handled
      · obtain ⟨data, -, sent⟩ := bind_ok.mp handled
        obtain rfl := Except.ok.inj sent
        exact each_send gentle
      · split at handled
        · exact tryPair_each gentle handled
        · split at handled
          · obtain rfl := Except.ok.inj handled
            exact each_send gentle
          · split at handled
            · obtain rfl := Except.ok.inj handled
              exact each_drop gentle
            · obtain rfl := Except.ok.inj handled
              exact each_rfl gentle

end Gentle

theorem sameSocket_gentle : Gentle SameSocket where
  refl _ := ⟨rfl, rfl, rfl, rfl⟩
  trans one two :=
    ⟨two.rx.trans one.rx, two.ip.trans one.ip, two.port.trans one.port, two.born.trans one.born⟩
  tx _ _ := ⟨rfl, rfl, rfl, rfl⟩
  tv _ _ := ⟨rfl, rfl, rfl, rfl⟩
  name _ _ := ⟨rfl, rfl, rfl, rfl⟩
  partner _ _ _ := ⟨rfl, rfl, rfl, rfl⟩
  fresh _ := ⟨rfl, rfl, rfl, rfl⟩

theorem still_drop : Still server (server.drop oracle c) := each_drop sameSocket_gentle

theorem still_logCrc {payload : Bytes} : Still server (server.logCrc c payload) := by
  unfold logCrc
  simp only
  split
  · exact (Still.rfl.edit ⟨rfl, rfl, rfl, rfl⟩).edit ⟨rfl, rfl, rfl, rfl⟩
  · split
    · exact ((Still.rfl.edit ⟨rfl, rfl, rfl, rfl⟩).edit ⟨rfl, rfl, rfl, rfl⟩).count.log
    · exact ((Still.rfl.edit ⟨rfl, rfl, rfl, rfl⟩).edit ⟨rfl, rfl, rfl, rfl⟩).count

theorem handle_still {ftype : Byte} {payload : Bytes}
    (handled : server.handle oracle patience c ftype payload = .ok after) :
    Still server after := by
  rcases handle_each sameSocket_gentle handled with each | ⟨-, -, middle, -, each, rfl⟩
  · exact each
  · exact Still.trans each still_logCrc

/-! ### What holds in every reachable state -/

/-- The table of clients is tidy, and every name fits its eight bytes. -/
structure Regular (server : Server) : Prop where
  tidy : Tidy server
  short : ∀ c name, server.floor.name c = some name → ShortName name

theorem Regular.congr (regular : Regular server) (table : SameTable server after)
    (floor : after.floor = server.floor) : Regular after where
  tidy := table.tidy regular.tidy
  short := by
    rw [floor]
    exact regular.short

theorem Regular.call {name : Text} (regular : Regular server) (short : ShortName name)
    (other : Conn) (given : Text)
    (isName : (server.floor.call c name).name other = some given) : ShortName given := by
  by_cases here : other = c
  · subst here
    obtain rfl : name = given := by simpa [Floor.call] using isName
    exact short
  · refine regular.short other given ?_
    simpa [Floor.call, Function.update_of_ne here] using isName

theorem Moved.regular {calls : Prop} (moved : Moved calls server c after)
    (regular : Regular server) : Regular after := by
  cases moved with
  | stays table floor => exact regular.congr table floor
  | drops here clients conns floor =>
      refine ⟨?_, ?_⟩
      · unfold Tidy
        rw [clients, conns]
        refine ⟨regular.tidy.1.erase c, ?_⟩
        intro other member
        exact regular.tidy.2 other (List.mem_of_mem_erase member)
      · rw [floor]
        exact regular.short
  | names table name short floor =>
      refine ⟨table.tidy regular.tidy, ?_⟩
      rw [floor]
      exact regular.call short
  | pairs called other found table middle named floor =>
      refine ⟨table.tidy regular.tidy, ?_⟩
      rw [floor]
      rcases named with ⟨rfl, -⟩ | ⟨name, short, rfl⟩
      · exact regular.short
      · exact regular.call short

theorem drop_regular (regular : Regular server) : Regular (server.drop oracle c) := by
  have moved : Moved False server c (server.drop oracle c) := drop_moved regular.tidy
  exact moved.regular regular

theorem accept_regular {ip : Ip} {port : Nat} {born : Time} (regular : Regular server) :
    Regular (server.accept ip port born) := by
  refine ⟨accept_tidy regular.tidy, ?_⟩
  obtain ⟨-, ⟨-, floor⟩ | ⟨-, floor⟩⟩ := @accept_cases server ip port born
  · rw [floor]
    exact regular.short
  · rw [floor]
    intro c name isName
    by_cases new : c = server.conns
    · simp [Floor.enter, new] at isName
    · refine regular.short c name ?_
      simpa [Floor.enter, Function.update_of_ne new] using isName

theorem perform_regular {job : Job} {more : List Job}
    (performed : server.perform oracle patience job = .ok (after, more))
    (regular : Regular server) : Regular after := by
  refine perform_keeps (fun regular quiet => regular.congr quiet.table quiet.floor)
    drop_regular (accept_regular regular) ?_ performed regular
  intro c again _ once
  exact (serviceOnce_moved regular.tidy once).regular regular

theorem start_regular {now : Time} : Regular (Server.start now) where
  tidy := start_sound.tidy
  short := by
    intro c name isName
    cases isName

/-! ### What a frame needs to be answered -/

theorem frame_ok {ftype : Byte} {payload : Bytes} (fits : payload.length ≤ 254) :
    frame ftype payload = .ok (wire ftype payload) :=
  if_pos (Nat.succ_le_succ fits)

theorem encode_length {name : Text} (ascii : ∀ char ∈ name, char < 0x80) :
    (encode name).length = name.length := by
  induction name with
  | nil => rfl
  | cons char rest inductionHypothesis =>
      have one : utf8Char char = [BitVec.ofNat 8 char] := if_pos (ascii char List.mem_cons_self)
      have tail := inductionHypothesis fun other member =>
        ascii other (List.mem_cons_of_mem char member)
      rw [encode] at tail ⊢
      rw [List.flatMap_cons, one, List.length_append, tail, List.length_singleton,
        List.length_cons, Nat.add_comm]

theorem namePayload_length {name : Text} (short : ShortName name) :
    (namePayload name).length = 8 := by
  rw [namePayload, List.length_rightpad, encode_length short.2]
  exact Nat.max_eq_left short.1

/-- What the computation raises. -/
def raised {α : Type} : Except PyErr α → Option PyErr
  | .ok _ => none
  | .error err => some err

/-- The computation raises nothing. -/
def Returns {α : Type} (computation : Except PyErr α) : Prop :=
  ∃ value, computation = .ok value

theorem returns_bind {α β : Type} {first : Except PyErr α} {rest : α → Except PyErr β} :
    Returns (first >>= rest) ↔ ∃ value, first = .ok value ∧ Returns (rest value) := by
  constructor
  · rintro ⟨result, done⟩
    obtain ⟨value, isValue, rest⟩ := bind_ok.mp done
    exact ⟨value, isValue, result, rest⟩
  · rintro ⟨value, isValue, result, done⟩
    exact ⟨result, bind_ok.mpr ⟨value, isValue, done⟩⟩

theorem startHeader_ok {seed : BitVec 16} {role : Nat}
    (delay : 0 ≤ oracle.delay ∧ oracle.delay ≤ 255) :
    ∃ header, startHeader oracle role seed = .ok header ∧ header.length = 5 :=
  ⟨_, if_pos delay, rfl⟩

theorem startFrame_returns_iff {seed : BitVec 16} {role : Nat}
    (short : ∀ name, (server.object guest).name = some name → ShortName name) :
    Returns (startFrame oracle server seed role host guest) ↔
      (0 ≤ oracle.delay ∧ oracle.delay ≤ 255) ∧ (server.object guest).name.isSome := by
  constructor
  · rintro ⟨after, started⟩
    refine ⟨?_, (startFrame_cases started).2.2⟩
    obtain ⟨header, isHeader, -⟩ := bind_ok.mp started
    unfold startHeader at isHeader
    split at isHeader
    · assumption
    · cases isHeader
  · rintro ⟨delay, named⟩
    obtain ⟨name, isName⟩ := Option.isSome_iff_exists.mp named
    obtain ⟨header, isHeader, length⟩ := startHeader_ok delay
    refine returns_bind.mpr ⟨header, isHeader, ?_⟩
    rw [isName]
    have fits : (header ++ namePayload name).length ≤ 254 := by
      rw [List.length_append, namePayload_length (short name isName), length]
      decide
    exact returns_bind.mpr ⟨_, frame_ok fits, _, rfl⟩

theorem tryPair_returns_iff (regular : Regular server) :
    Returns (server.tryPair oracle c) ↔
      ((server.waiting c).isSome →
        (0 ≤ oracle.delay ∧ oracle.delay ≤ 255) ∧ (server.object c).name.isSome) := by
  unfold tryPair
  cases found : server.waiting c with
  | none =>
      constructor
      · intro _ absurd
        cases absurd
      · intro _
        exact ⟨server, rfl⟩
  | some other =>
      obtain ⟨-, apart, named, -⟩ := waiting_cases found
      have floor : ({ server with seeds := server.seeds + 1 }.link other c).floor =
          server.floor.pair 0 1 other c := floor_link apart
      have name : ∀ who, (({ server with seeds := server.seeds + 1 }.link other c).object
          who).name = (server.object who).name := fun who =>
        congrFun (congrArg Floor.name floor) who
      have firstIff := @startFrame_returns_iff oracle
        ({ server with seeds := server.seeds + 1 }.link other c) other c
        (oracle.seed server.seeds) 0
        fun given isName => regular.short c given (by rw [← isName, name]; rfl)
      rw [name] at firstIff
      constructor
      · rintro returns -
        obtain ⟨one, first, -⟩ := returns_bind.mp returns
        exact firstIff.mp ⟨one, first⟩
      · intro needs
        obtain ⟨delay, caller⟩ := needs rfl
        obtain ⟨one, first⟩ := firstIff.mpr ⟨delay, caller⟩
        have name' : ∀ who, (one.object who).name = (server.object who).name := fun who =>
          (congrFun (congrArg Floor.name (startFrame_cases first).2.1) who).trans (name who)
        have secondIff := @startFrame_returns_iff oracle one c other
          (oracle.seed server.seeds) 1
          fun given isName => regular.short other given (by rw [← isName, name']; rfl)
        rw [name'] at secondIff
        obtain ⟨two, second⟩ := secondIff.mpr ⟨delay, named⟩
        exact returns_bind.mpr ⟨one, first, returns_bind.mpr ⟨two, second, _, rfl⟩⟩

/-- A frame that is answered: a HELLO whose name loop ends, and, if it comes to
pairing, a delay that fits a byte and a caller with a name. -/
structure Answerable (oracle : Oracle) (server : Server) (c : Conn) (body : Bytes) :
    Prop where
  frees : body.headD 0 = tHello → ∀ tv name, readHello body.tail = .ok (tv, name) →
    ∃ draws, server.byName.get?
      (candidate (digitText oracle) server.digits name draws) = none
  delay : callsPairing body = true → (server.waiting c).isSome →
    0 ≤ oracle.delay ∧ oracle.delay ≤ 255
  named : body.headD 0 = tJoin → (server.waiting c).isSome → (server.object c).name.isSome

theorem forward_returns {ftype : Byte} {payload : Bytes} (fits : payload.length ≤ 254) :
    Returns (server.forward c ftype payload) := by
  unfold forward
  split
  · exact ⟨server, rfl⟩
  · have fits' : (payload.rightpad gamePayload 0).length ≤ 254 := by
      rw [List.length_rightpad]
      exact Nat.max_le.mpr ⟨by decide, fits⟩
    exact returns_bind.mpr ⟨_, frame_ok fits', _, rfl⟩

theorem lobbyEntries_length (regular : Regular server) :
    ∀ entry ∈ server.lobbyEntries, entry.length = 9 := by
  intro entry member
  obtain ⟨c, -, isEntry⟩ := List.mem_filterMap.mp (List.mem_of_mem_take member)
  obtain ⟨name, isName, rfl⟩ := Option.map_eq_some_iff.mp isEntry
  rw [List.length_append, namePayload_length (regular.short c name isName)]
  rfl

theorem sendLobby_returns (regular : Regular server) : Returns (server.sendLobby c) := by
  have count : server.lobbyEntries.length ≤ 8 := List.length_take_le ..
  have total : server.lobbyEntries.flatten.length = 9 * server.lobbyEntries.length :=
    Frames.flatten_length (lobbyEntries_length regular)
  have fits : (BitVec.ofNat 8 server.lobbyEntries.length ::
      server.lobbyEntries.flatten).length ≤ 254 := by
    rw [List.length_cons, total]
    omega
  exact returns_bind.mpr ⟨_, frame_ok fits, _, rfl⟩

theorem noteTv_names {payload : Bytes} :
    (server.noteTv c payload).byName = server.byName ∧
      (server.noteTv c payload).digits = server.digits := by
  unfold noteTv
  split <;> exact ⟨rfl, rfl⟩

theorem onHello_returns_iff {payload : Bytes} (regular : Regular server) :
    (∃ patience, Returns (server.onHello oracle patience c payload)) ↔
      ∀ tv name, readHello payload = .ok (tv, name) →
        (∃ draws, server.byName.get?
          (candidate (digitText oracle) server.digits name draws) = none) ∧
        ((server.waiting c).isSome → 0 ≤ oracle.delay ∧ oracle.delay ≤ 255) := by
  unfold onHello
  simp only
  cases read : readHello payload with
  | error refusal =>
      constructor
      · intro _ tv name absurd
        cases absurd
      · intro _
        exact ⟨0, _, rfl⟩
  | ok hello =>
      obtain ⟨tv, asked⟩ := hello
      have short := readHello_short read
      have noted : Regular (server.noteTv c payload) :=
        regular.congr table_noteTv floor_noteTv
      have registered : ∀ {name : Text} {drawn : Nat}, ShortName name →
          Regular ((server.noteTv c payload).register oracle c name tv drawn) := by
        intro name drawn short
        refine ⟨table_register.tidy noted.tidy, ?_⟩
        rw [floor_register]
        exact noted.call short
      have waits : ∀ {name : Text} {drawn : Nat},
          ((server.noteTv c payload).register oracle c name tv drawn).waiting c =
            server.waiting c := waiting_register.trans waiting_noteTv
      have free : ∀ {name : Text}, ((server.byName.get? name).isSome = false) ↔
          server.byName.get? name = none := by
        intro name
        cases server.byName.get? name <;> simp
      simp only [noteTv_names.1, noteTv_names.2]
      constructor
      · rintro ⟨patience, after, greeted⟩ tv' name' same
        obtain ⟨rfl, rfl⟩ := Prod.mk.inj (Except.ok.inj same)
        split at greeted
        · cases greeted
        · rename_i name drawn found
          obtain ⟨draws, isFree⟩ := freeName_finds_iff.mp ⟨patience, _, found⟩
          have pairing := (tryPair_returns_iff (registered (freeName_short short found))).mp
            ⟨after, greeted⟩
          rw [waits] at pairing
          exact ⟨⟨draws, free.mp isFree⟩, fun somebody => (pairing somebody).1⟩
      · intro needs
        obtain ⟨⟨draws, isFree⟩, delay⟩ := needs tv asked rfl
        obtain ⟨patience, ⟨name, drawn⟩, found⟩ : ∃ patience found,
            freeName (fun name => (server.byName.get? name).isSome) (digitText oracle)
              patience server.digits asked = .ok found :=
          freeName_finds_iff.mpr ⟨draws, free.mpr isFree⟩
        refine ⟨patience, ?_⟩
        rw [found]
        refine (tryPair_returns_iff (registered (freeName_short short found))).mpr ?_
        rw [waits]
        intro somebody
        refine ⟨delay somebody, ?_⟩
        have named : (((server.noteTv c payload).register oracle c name tv drawn).floor.name
            c) = some name := by
          rw [floor_register]
          exact Function.update_self ..
        exact Option.isSome_iff_exists.mpr ⟨name, named⟩

/-- A dispatch completes, for some number of draws, if and only if its frame is
answerable. -/
theorem handle_returns_iff {body : Bytes} (regular : Regular server)
    (size : body.length ≤ 200) :
    (∃ patience, Returns (server.handle oracle patience c (body.headD 0) body.tail)) ↔
      Answerable oracle server c body := by
  have fits : body.tail.length ≤ 254 := by
    rw [List.length_tail]
    omega
  have total : body.headD 0 ≠ tHello → body.headD 0 ≠ tJoin →
      Answerable oracle server c body := by
    intro notHello notJoin
    refine ⟨fun isHello => absurd isHello notHello, ?_, fun isJoin => absurd isJoin notJoin⟩
    intro calls
    rcases of_decide_eq_true calls with isJoin | ⟨isHello, -⟩
    · exact absurd isJoin notJoin
    · exact absurd isHello notHello
  unfold handle
  split
  · rename_i isRelay
    have others : body.headD 0 ≠ tHello ∧ body.headD 0 ≠ tJoin := by
      constructor
      · intro same
        rw [same] at isRelay
        exact absurd isRelay (by decide)
      · intro same
        rw [same] at isRelay
        exact absurd isRelay (by decide)
    refine iff_of_true ⟨0, ?_⟩ (total others.1 others.2)
    obtain ⟨middle, relayed⟩ : Returns (server.forward c (body.headD 0) body.tail) :=
      forward_returns fits
    refine returns_bind.mpr ⟨middle, relayed, ?_⟩
    split <;> exact ⟨_, rfl⟩
  split
  · rename_i isHello
    rw [onHello_returns_iff regular]
    have notJoin : body.headD 0 ≠ tJoin := by
      rw [isHello]
      decide
    constructor
    · intro needs
      refine ⟨fun _ tv name read => (needs tv name read).1, ?_, fun isJoin =>
        absurd isJoin notJoin⟩
      intro calls
      rcases of_decide_eq_true calls with isJoin | ⟨-, read⟩
      · exact absurd isJoin notJoin
      · cases outcome : readHello body.tail with
        | error refusal =>
            rw [outcome] at read
            cases read
        | ok hello => exact (needs hello.1 hello.2 outcome).2
    · intro answerable tv name read
      refine ⟨answerable.frees isHello tv name read, answerable.delay ?_⟩
      exact decide_eq_true (Or.inr ⟨isHello, by rw [read]; rfl⟩)
  rename_i notHello
  split
  · rename_i isList
    refine iff_of_true ⟨0, sendLobby_returns regular⟩ (total notHello ?_)
    rw [isList]
    decide
  split
  · rename_i isJoin
    have pairing := @tryPair_returns_iff oracle server c regular
    constructor
    · rintro ⟨-, returns⟩
      have needs := pairing.mp returns
      exact ⟨fun isHello => absurd isHello notHello, fun _ somebody => (needs somebody).1,
        fun _ somebody => (needs somebody).2⟩
    · intro answerable
      refine ⟨0, pairing.mpr ?_⟩
      intro somebody
      exact ⟨answerable.delay (decide_eq_true (Or.inl isJoin)) somebody,
        answerable.named isJoin somebody⟩
  rename_i notJoin
  refine iff_of_true ⟨0, ?_⟩ (total notHello notJoin)
  split
  · exact ⟨_, rfl⟩
  · split <;> exact ⟨_, rfl⟩

/-! ### The loop in `service` -/

/-- A turn of the loop after which it goes on. -/
def ServiceTurn (oracle : Oracle) (c : Conn) (before : Server) (patience : Nat)
    (after : Server) : Prop :=
  before.serviceOnce oracle patience c = .ok (after, true)

/-- `service(c)` returns, and leaves `last`. -/
def ServiceReturns (oracle : Oracle) (c : Conn) (server last : Server) : Prop :=
  ∃ middle patience, Run (ServiceTurn oracle c) always server middle ∧
    middle.serviceOnce oracle patience c = .ok (last, false)

theorem readFrame_whole {rx body rest : Bytes} (read : readFrame rx = .whole body rest) :
    body.length ≤ 200 ∧ rest.length < rx.length := by
  unfold readFrame at read
  split at read
  · cases read
  · rename_i n data
    split at read
    · cases read
    · rename_i fair
      split at read
      · cases read
      · obtain ⟨rfl, rfl⟩ := Head.whole.inj read
        rw [List.length_take, List.length_drop, List.length_cons]
        omega

theorem readFrame_pending {body : Bytes} (isPending : server.pending c = some body) :
    ∃ rest, readFrame (server.object c).rx = .whole body rest := by
  unfold pending at isPending
  split at isPending
  · rename_i body' rest read
    obtain rfl := Option.some.inj isPending
    exact ⟨rest, read⟩
  · cases isPending
  · cases isPending

/-- The draws allowed decide whether a turn completes, not what it does. -/
theorem onHello_agree {payload : Bytes} {one two : Server}
    (first : server.onHello oracle patience c payload = .ok one)
    (again : server.onHello oracle patience' c payload = .ok two) : one = two := by
  unfold onHello at first again
  simp only at first again
  cases read : readHello payload with
  | error refusal =>
      rw [read] at first again
      exact Except.ok.inj (first.symm.trans again)
  | ok hello =>
      rw [read] at first again
      simp only at first again
      split at first
      · cases first
      · rename_i name drawn found
        split at again
        · cases again
        · rename_i name' drawn' found'
          obtain ⟨rfl, rfl⟩ := Prod.mk.inj (freeName_agree found found')
          exact Except.ok.inj (first.symm.trans again)

theorem handle_agree {ftype : Byte} {payload : Bytes} {one two : Server}
    (first : server.handle oracle patience c ftype payload = .ok one)
    (again : server.handle oracle patience' c ftype payload = .ok two) : one = two := by
  by_cases isHello : ftype = tHello
  · have notRelay : ftype ∉ relayTypes := by
      rw [isHello]
      decide
    unfold handle at first again
    rw [if_neg notRelay, if_pos isHello] at first again
    exact onHello_agree first again
  · unfold handle at first again
    rw [if_neg isHello] at first again
    exact Except.ok.inj (first.symm.trans again)

theorem serviceOnce_agree {one two : Server × Bool}
    (first : server.serviceOnce oracle patience c = .ok one)
    (again : server.serviceOnce oracle patience' c = .ok two) : one = two := by
  unfold serviceOnce at first again
  cases read : readFrame (server.object c).rx with
  | short =>
      rw [read] at first again
      exact Except.ok.inj (first.symm.trans again)
  | bad n =>
      rw [read] at first again
      exact Except.ok.inj (first.symm.trans again)
  | whole body rest =>
      rw [read] at first again
      obtain ⟨middle, handled, done⟩ := bind_ok.mp first
      obtain ⟨middle', handled', done'⟩ := bind_ok.mp again
      obtain rfl := handle_agree handled handled'
      exact Except.ok.inj (done.symm.trans done')

theorem Answerable.congr {body : Bytes} (answerable : Answerable oracle server c body)
    (names : after.byName = server.byName ∧ after.digits = server.digits)
    (waits : after.waiting c = server.waiting c)
    (name : (after.object c).name = (server.object c).name) :
    Answerable oracle after c body where
  frees := by
    rw [names.1, names.2]
    exact answerable.frees
  delay := by
    rw [waits]
    exact answerable.delay
  named := by
    rw [waits, name]
    exact answerable.named

/-- A turn that finds a frame completes if and only if the frame is
answerable, and then the loop goes on with fewer bytes. -/
theorem serviceOnce_returns_iff {body : Bytes} (regular : Regular server)
    (isPending : server.pending c = some body) :
    (∃ patience after, ServiceTurn oracle c server patience after) ↔
      Answerable oracle server c body := by
  obtain ⟨rest, read⟩ := readFrame_pending isPending
  have taken : Regular (server.edit c fun client => { client with rx := rest }) :=
    regular.congr ⟨rfl, rfl⟩ (floor_edit rfl rfl rfl)
  have waits : (server.edit c fun client => { client with rx := rest }).waiting c =
      server.waiting c := waiting_edit rfl
  have name : ((server.edit c fun client => { client with rx := rest }).object c).name =
      (server.object c).name := by rw [edit_self]
  have dispatched := @handle_returns_iff oracle _ c body taken (readFrame_whole read).1
  unfold ServiceTurn serviceOnce
  simp only [read]
  constructor
  · rintro ⟨patience, after, served⟩
    obtain ⟨middle, handled, -⟩ := bind_ok.mp served
    exact (dispatched.mp ⟨patience, middle, handled⟩).congr ⟨rfl, rfl⟩ waits.symm name.symm
  · intro answerable
    obtain ⟨patience, middle, handled⟩ :=
      dispatched.mpr (answerable.congr ⟨rfl, rfl⟩ waits name)
    exact ⟨patience, middle, bind_ok.mpr ⟨middle, handled, rfl⟩⟩

theorem serviceTurn_cases (turn : ServiceTurn oracle c server patience after) :
    ((after.object c).rx.length < (server.object c).rx.length) ∧
      ∃ body, server.pending c = some body := by
  unfold ServiceTurn serviceOnce at turn
  split at turn
  · cases turn
  · cases turn
  · rename_i body rest read
    obtain ⟨middle, handled, done⟩ := bind_ok.mp turn
    obtain ⟨rfl, -⟩ := Prod.mk.inj (Except.ok.inj done)
    have kept := (handle_still handled c).rx
    rw [edit_self] at kept
    refine ⟨?_, body, ?_⟩
    · rw [kept]
      exact (readFrame_whole read).2
    · rw [pending, read]

theorem serviceTurn_regular (regular : Regular server)
    (turn : ServiceTurn oracle c server patience after) : Regular after :=
  (serviceOnce_moved regular.tidy turn).regular regular

/-- What the loop has reached lies on its way to the end. -/
theorem serviceReturns_rest {last middle : Server}
    (returns : ServiceReturns oracle c server last)
    (run : Run (ServiceTurn oracle c) always server middle) :
    ServiceReturns oracle c middle last := by
  induction run with
  | refl => exact returns
  | tail patience before met taken inductionHypothesis =>
      obtain ⟨ending, patience', rest, done⟩ := inductionHypothesis
      rcases rest.cases_head with rfl | ⟨patience'', next, -, turn, rest'⟩
      · obtain ⟨-, absurd⟩ := Prod.mk.inj (serviceOnce_agree taken done)
        cases absurd
      · obtain ⟨rfl, -⟩ := Prod.mk.inj (serviceOnce_agree taken turn)
        exact ⟨ending, patience', rest', done⟩

/-- `service(c)` returns if and only if every frame it comes to is
answerable. -/
theorem service_returns (regular : Regular server) :
    (∃ last, ServiceReturns oracle c server last) ↔
      ∀ middle body, Run (ServiceTurn oracle c) always server middle →
        middle.pending c = some body → Answerable oracle middle c body := by
  constructor
  · rintro ⟨last, returns⟩ middle body run isPending
    have here : Regular middle :=
      run.invariant Regular regular fun regular _ turn => serviceTurn_regular regular turn
    obtain ⟨ending, patience, rest, done⟩ := serviceReturns_rest returns run
    refine (serviceOnce_returns_iff here isPending).mp ?_
    rcases rest.cases_head with rfl | ⟨patience', next, -, turn, -⟩
    · obtain ⟨rest', read⟩ := readFrame_pending isPending
      unfold serviceOnce at done
      simp only [read] at done
      obtain ⟨_, -, absurd⟩ := bind_ok.mp done
      cases absurd
    · exact ⟨patience', next, turn⟩
  · intro answerable
    -- The receive buffer gets shorter with every frame.
    induction size : (server.object c).rx.length using Nat.strong_induction_on
      generalizing server with
    | h size inductionHypothesis =>
        subst size
        cases read : readFrame (server.object c).rx with
        | short => exact ⟨server, server, 0, .refl server, by rw [serviceOnce, read]⟩
        | bad n => exact ⟨_, server, 0, .refl server, by rw [serviceOnce, read]⟩
        | whole body rest =>
            have isPending : server.pending c = some body := by rw [pending, read]
            obtain ⟨patience, next, turn⟩ := (serviceOnce_returns_iff regular isPending).mpr
              (answerable server body (.refl server) isPending)
            have first : Run (ServiceTurn oracle c) always server next :=
              .tail patience (.refl server) trivial turn
            obtain ⟨last, ending, patience', rest', done⟩ := inductionHypothesis _
              (serviceTurn_cases turn).1 (serviceTurn_regular regular turn)
              (fun middle body run => answerable middle body (first.trans run)) rfl
            exact ⟨last, ending, patience', first.trans rest', done⟩

end Server

namespace Loop

variable {oracle : Oracle} {loop after : Loop} {act : Act} {now : Time}

theorem regular_next (step : Step oracle loop act after) (regular : loop.state.Regular) :
    after.state.Regular := by
  rcases step_cases oracle step with ⟨turn, -, same⟩ |
    ⟨patience, job, rest, more, -, -, performed, -⟩
  · rw [same]
    exact regular
  · exact Server.perform_regular performed regular

theorem regular_run {meets : Loop → Act → Prop} (run : Run (Step oracle) meets (start now) loop) :
    loop.state.Regular :=
  run.invariant (fun loop => loop.state.Regular) Server.start_regular
    fun regular _ step => regular_next step regular

theorem step_service {c : Conn} {server after : Server} {rest : List Job} {patience : Nat}
    {again : Bool} (served : server.serviceOnce oracle patience c = .ok (after, again)) :
    Step oracle ⟨server, .service c :: rest⟩ (.work patience)
      ⟨after, (if again then [.service c] else []) ++ rest⟩ := by
  have performed : server.perform oracle patience (.service c) =
      .ok (after, if again then [.service c] else []) :=
    bind_ok.mpr ⟨(after, again), served, rfl⟩
  have isSome : (server.perform oracle patience (.service c)).toOption =
      some (after, if again then [.service c] else []) := by
    rw [performed]
    rfl
  exact @Agenda.work_cons _ _ (fun server job => (server.perform oracle patience job).toOption)
    server after (.service c) rest _ isSome

/-- A loop in `service` that returns is carried out by the event loop, one job a
turn. -/
theorem service_run {c : Conn} {server last : Server} {rest : List Job}
    (returns : Server.ServiceReturns oracle c server last) :
    Run (Step oracle) always ⟨server, .service c :: rest⟩ ⟨last, rest⟩ := by
  obtain ⟨middle, patience, turns, done⟩ := returns
  have reached : Run (Step oracle) always (⟨server, .service c :: rest⟩ : Loop)
      ⟨middle, .service c :: rest⟩ := by
    clear done
    induction turns with
    | refl => exact .refl _
    | tail patience' before met turn inductionHypothesis =>
        exact .tail (.work patience') inductionHypothesis trivial (step_service turn)
  exact .tail (.work patience) reached trivial (step_service done)

/-- In every reachable state, `service` returns for the bytes a client sends if
and only if every frame it dispatches on the way is answerable. -/
theorem service_returns_iff (run : Run (Step oracle) always (start now) loop) (c : Conn)
    (data : Bytes) :
    (∃ last, Server.ServiceReturns oracle c (loop.state.receive c data) last) ↔
      ∀ middle body, Run (Server.ServiceTurn oracle c) always (loop.state.receive c data)
          middle → middle.pending c = some body →
        Server.Answerable oracle middle c body := by
  apply Server.service_returns
  exact (regular_run run).congr ⟨rfl, rfl⟩ (Server.floor_edit rfl rfl rfl)

/-- Two consoles connect, and the first says HELLO. -/
def twoConsoles : List Act := accepting 2 0 ++ chunk 0 [helloFrame 0x41 0x41] 2

theorem service_returns_two : ∃ loop : Loop, loop.state.clients = [0, 1] ∧
    ((∃ last, Server.ServiceReturns plain 1
        (loop.state.receive 1 (helloFrame 0x42 0x42)) last) ↔
      ∀ middle body, Run (Server.ServiceTurn plain 1) always
          (loop.state.receive 1 (helloFrame 0x42 0x42)) middle →
        middle.pending 1 = some body → Server.Answerable plain middle 1 body) := by
  have outcome : (twoConsoles.foldlM (next plain) (start 0)).map
      (fun loop => loop.state.clients) = some [0, 1] := by decide +kernel
  obtain ⟨loop, executed, clients⟩ := Option.map_eq_some_iff.mp outcome
  exact ⟨loop, clients, service_returns_iff (Run.of_foldlM executed) 1 _⟩

/-- The second console sends JOIN before HELLO: pairing it with the first asks
for its name, and `service` raises. -/
theorem service_raises : ∃ loop : Loop,
    Run (Step plain) always (start 0) loop ∧ 1 ∈ loop.state.clients ∧
      Server.raised ((loop.state.receive 1 joinFrame).serviceOnce plain 0 1) =
        some .attributeError ∧
      ¬ ∃ last, Server.ServiceReturns plain 1 (loop.state.receive 1 joinFrame) last := by
  have outcome : (twoConsoles.foldlM (next plain) (start 0)).map
      (fun loop => decide (1 ∈ loop.state.clients ∧
        Server.raised ((loop.state.receive 1 joinFrame).serviceOnce plain 0 1) =
          some .attributeError ∧
        (loop.state.receive 1 joinFrame).pending 1 = some [tJoin] ∧
        ((loop.state.receive 1 joinFrame).waiting 1).isSome = true ∧
        ((loop.state.receive 1 joinFrame).object 1).name = none)) = some true := by
    decide +kernel
  obtain ⟨loop, executed, isOutcome⟩ := Option.map_eq_some_iff.mp outcome
  obtain ⟨live, raised, isPending, waits, unnamed⟩ := of_decide_eq_true isOutcome
  refine ⟨loop, Run.of_foldlM executed, live, raised, ?_⟩
  intro returns
  have regular : (loop.state.receive 1 joinFrame).Regular :=
    (regular_run (Run.of_foldlM executed)).congr ⟨rfl, rfl⟩ (Server.floor_edit rfl rfl rfl)
  have answerable := (Server.service_returns regular).mp returns _ [tJoin] (.refl _) isPending
  have named := answerable.named rfl waits
  rw [unnamed] at named
  cases named

end Loop

end DragsterNet.Relay
