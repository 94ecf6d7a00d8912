/-
Module: DragsterNet.Relay.Books
Purpose: The INPUT records of one match as a relay files and compares them, and
  what a relay whose books are a ledger says about them; the Python relay's are.
Trusted boundary: none
Main exports: Report, Filing, Proper, Exact, Next, exact_iff, Server.Exchange,
  Server.exchange_told
-/
import Mathlib.Data.List.Chain
import DragsterNet.Lib.Ledger
import DragsterNet.Relay.Service

namespace DragsterNet.Relay

open Lib

/-! ### Records -/

/-- An INPUT record of a match, with the number of its tick, of which the payload
carries the low byte. -/
structure Report where
  side : Lib.Side
  tick : Nat
  payload : Bytes
  whole : 6 ≤ payload.length
  stamp : payload.getD 0 0 = BitVec.ofNat 8 tick

def Report.crc (report : Report) : Byte := report.payload.getD 4 0

/-- What a relay made of a record: the key it went under, the partner's checksum
that stood there, and whether a mismatch was logged. -/
structure Filing where
  side : Lib.Side
  tick : Nat
  crc : Byte
  key : Nat
  found : Option Byte
  mismatch : Bool

namespace Filing

/-- The record by its tick. -/
def posting (filing : Filing) : Posting Nat Byte := ⟨filing.side, filing.tick, filing.crc⟩

/-- The record as it is filed. -/
def entry (filing : Filing) : Posting Nat Byte := ⟨filing.side, filing.key, filing.crc⟩

end Filing

/-- The log line that tells of a mismatch. -/
def tellsMismatch : Seen → Bool
  | .line text => (ascii "CRC MISMATCH tick ").isPrefixOf text
  | _ => false

/-- The records of two consoles in step: both begin with the same tick, below
256; ticks never fall and advance by less than 128; a tick has one checksum; and
nobody is more than seven ticks ahead. -/
structure Proper (first : Nat) (log : List Filing) : Prop where
  small : first < 256
  begins : ∀ side, ∀ tick ∈ (keys side (log.map Filing.posting)).head?, tick = first
  advances : ∀ side, (keys side (log.map Filing.posting)).IsChain
    fun tick next => next < tick + 128
  fair : Fair 7 (log.map Filing.posting)

/-- The two checksums of the tick have been compared: the later record was filed
under the key of the earlier, and found its checksum there. -/
def Compared (tick : Nat) (log : List Filing) : Prop :=
  ∃ early later late earlier, log = early ++ later :: late ∧ earlier ∈ early ∧
    earlier.side ≠ later.side ∧ earlier.tick = tick ∧ later.tick = tick ∧
      earlier.key = later.key ∧ later.found = some earlier.crc

/-- A mismatch is logged just if there is one, and every tick that both sides
report is compared. -/
structure Exact (log : List Filing) : Prop where
  verdict : (∃ filing ∈ log, filing.mismatch = true) ↔
    ∃ one ∈ log, ∃ two ∈ log, one.side ≠ two.side ∧ one.tick = two.tick ∧ one.crc ≠ two.crc
  compared : ∀ one ∈ log, ∀ two ∈ log, one.side ≠ two.side → one.tick = two.tick →
    Compared one.tick log

/-- One of the sides reports nothing. -/
def Silent (log : List Filing) : Prop := ∀ one ∈ log, ∀ two ∈ log, one.side = two.side

/-! ### Filing -/

/-- The side's last record. -/
def lastOf (side : Lib.Side) (log : List Filing) : Option Filing :=
  (log.filter fun filing => filing.side = side).getLast?

/-- How a record is handled after others, by a relay that files in `store` and
counts keys by `advance`: from `base` for the side's first record, and from the
key of the side's last one for the others. -/
structure Next (store : Store Nat Byte 8) (advance : Nat → Nat → Nat) (base : Lib.Side → Nat)
    (first : Nat) (log : List Filing) (filing : Filing) : Prop where
  found : filing.found = Store.found (store.after (log.map Filing.entry)) filing.entry
  verdict : filing.mismatch = true ↔ ∃ other, filing.found = some other ∧ other ≠ filing.crc
  begins : lastOf filing.side log = none → filing.tick = first → filing.key = base filing.side
  follows : ∀ last, lastOf filing.side log = some last → last.tick ≤ filing.tick →
    filing.tick < last.tick + 128 → filing.key = advance last.key (filing.tick - last.tick)

/-- The records of a match, each handled after the ones before it. -/
inductive Told (next : List Filing → Filing → Prop) : List Filing → Prop where
  | nil : Told next []
  | add {log : List Filing} {filing : Filing} (before : Told next log)
      (handled : next log filing) : Told next (log ++ [filing])

variable {next : List Filing → Filing → Prop} {log early late : List Filing} {filing : Filing}
  {store : Store Nat Byte 8} {advance : Nat → Nat → Nat} {base : Lib.Side → Nat} {first : Nat}

theorem Told.at (told : Told next log) (isAt : log = early ++ filing :: late) :
    next early filing := by
  induction told generalizing late with
  | nil => exact absurd isAt.symm (List.append_ne_nil_of_right_ne_nil _ (List.cons_ne_nil _ _))
  | @add log last before handled inductionHypothesis =>
      rcases List.eq_nil_or_concat late with rfl | ⟨late', last', rfl⟩
      · obtain ⟨rfl, same⟩ := List.append_inj' isAt rfl
        obtain rfl := List.head_eq_of_cons_eq same
        exact handled
      · have isAt' : log ++ [last] = (early ++ filing :: late') ++ [last'] := by
          rw [isAt, List.concat_eq_append, List.append_assoc, List.cons_append]
        exact inductionHypothesis (List.append_inj' isAt' rfl).1

theorem lastOf_append {side : Lib.Side} : lastOf side (log ++ [filing]) =
    if filing.side = side then some filing else lastOf side log := by
  unfold lastOf
  by_cases own : filing.side = side <;> simp [List.filter_append, own]

theorem keys_getLast {side : Lib.Side} :
    (keys side (log.map Filing.posting)).getLast? = (lastOf side log).map Filing.tick := by
  unfold keys lastOf
  rw [List.filter_map, List.map_map, List.getLast?_map]
  rfl

theorem lastOf_mem {side : Lib.Side} {last : Filing} (isLast : lastOf side log = some last) :
    last ∈ log ∧ last.side = side := by
  obtain ⟨member, own⟩ := List.mem_filter.mp (List.mem_of_getLast? isLast)
  exact ⟨member, of_decide_eq_true own⟩

theorem Proper.init (proper : Proper first (log ++ [filing])) : Proper first log := by
  obtain ⟨small, begins, advances, fair⟩ := proper
  rw [List.map_append, List.map_singleton] at begins advances fair
  refine ⟨small, fun side tick isHead => ?_, fun side => ?_, fair.init⟩
  · apply begins side tick
    rw [keys_append]
    split
    · rw [List.head?_append, Option.mem_def.mp isHead]
      rfl
    · exact isHead
  · have advances := advances side
    rw [keys_append] at advances
    split at advances
    · exact advances.left_of_append
    · exact advances

/-- Keys count the ticks from those of the first records. -/
theorem keyed (told : Told (Next store advance base first) log) (proper : Proper first log)
    (counts : ∀ start one two, advance (advance start one) two = advance start (one + two))
    (starts : ∀ side, advance (base side) 0 = base side) :
    ∀ filing ∈ log, first ≤ filing.tick ∧
      filing.key = advance (base filing.side) (filing.tick - first) := by
  induction told with
  | nil => exact fun _ absurd' => absurd absurd' List.not_mem_nil
  | @add log filing before handled inductionHypothesis =>
      have early := inductionHypothesis proper.init
      intro other member
      rcases List.mem_append.mp member with old | new
      · exact early other old
      obtain rfl := List.mem_singleton.mp new
      obtain ⟨-, begins, advances, fair⟩ := proper
      rw [List.map_append, List.map_singleton] at begins advances fair
      have begins := begins other.side
      have advances := advances other.side
      have isOwn : other.posting.side = other.side := rfl
      rw [keys_append, if_pos isOwn] at begins advances
      cases isLast : lastOf other.side log with
      | none =>
          have none_ : (keys other.side (log.map Filing.posting)) = [] := by
            rw [← List.getLast?_eq_none_iff, keys_getLast, isLast]
            rfl
          rw [none_] at begins
          have isFirst : other.tick = first := begins other.tick rfl
          refine ⟨isFirst.ge, ?_⟩
          rw [isFirst, Nat.sub_self, starts]
          exact handled.begins isLast isFirst
      | some last =>
          obtain ⟨member', own⟩ := lastOf_mem isLast
          obtain ⟨from_, isKey⟩ := early last member'
          have stepped : other.tick < last.tick + 128 := by
            refine (List.isChain_append.mp advances).2.2 last.tick ?_ other.tick rfl
            rw [keys_getLast, isLast]
            rfl
          have rose : last.tick ≤ other.tick :=
            fair.highest (mem_keys.mpr ⟨_, List.mem_map_of_mem member', own, rfl⟩)
          refine ⟨from_.trans rose, ?_⟩
          rw [handled.follows last isLast rose stepped, isKey, counts, own]
          congr 1
          omega

/-! ### The verdict -/

theorem mem_entries {side : Lib.Side} {key : Nat} {crc : Byte}
    (member : (⟨side, key, crc⟩ : Posting Nat Byte) ∈ log.map Filing.entry) :
    ∃ filing ∈ log, filing.side = side ∧ filing.key = key ∧ filing.crc = crc := by
  obtain ⟨filing, isFiling, same⟩ := List.mem_map.mp member
  obtain ⟨side', key', crc'⟩ := Posting.mk.inj same
  exact ⟨filing, isFiling, side', key', crc'⟩

/-- A checksum that is found was reported, by the other side and under the same
key. -/
theorem found_filed (told : Told (Next store advance base first) log) {other : Byte}
    (isAt : log = early ++ filing :: late) (isFound : filing.found = some other) :
    ∃ earlier ∈ early, earlier.side = filing.side.other ∧ earlier.key = filing.key ∧
      earlier.crc = other := by
  rw [(told.at isAt).found] at isFound
  exact mem_entries (Store.found_reported isFound)

/-- With one side silent there is nothing to say, and nothing is said. -/
theorem exact_of_silent (told : Told (Next store advance base first) log)
    (silent : Silent log) : Exact log where
  verdict := by
    constructor
    · rintro ⟨filing, member, isBad⟩
      obtain ⟨early, late, isAt⟩ := List.append_of_mem member
      obtain ⟨other, isFound, -⟩ := (told.at isAt).verdict.mp isBad
      obtain ⟨earlier, member', side, -⟩ := found_filed told isAt isFound
      have same := silent earlier (by rw [isAt]; exact List.mem_append_left _ member') filing member
      exact absurd (side.symm.trans same) Lib.Side.other_ne
    · rintro ⟨one, isOne, two, isTwo, apart, -⟩
      exact absurd (silent one isOne two isTwo) apart
  compared one isOne two isTwo apart := absurd (silent one isOne two isTwo) apart

/-- If both sides' keys name the ticks in one way, the verdict is exact. -/
theorem exact_of_named (told : Told (Next store advance base first) log)
    (fair : Fair 7 (log.map Filing.posting)) (name : Nat → Nat)
    (named : ∀ filing ∈ log, filing.key = name filing.tick)
    (rises : ∀ one ∈ log, ∀ two ∈ log, one.tick < two.tick → name one.tick < name two.tick) :
    Exact log := by
  have renamed : log.map Filing.entry = (log.map Filing.posting).map fun entry =>
      ⟨entry.side, name entry.key, entry.value⟩ := by
    rw [List.map_map]
    refine List.map_congr_left fun filing member => ?_
    unfold Filing.entry
    rw [named filing member]
    rfl
  have ticks : ∀ {side tick}, tick ∈ keys side (log.map Filing.posting) →
      ∃ filing ∈ log, filing.side = side ∧ filing.tick = tick := by
    intro side tick member
    obtain ⟨entry, isEntry, isSide, isTick⟩ := mem_keys.mp member
    obtain ⟨filing, isFiling, rfl⟩ := List.mem_map.mp isEntry
    exact ⟨filing, isFiling, isSide, isTick⟩
  have fair' : Fair 8 (log.map Filing.entry) := by
    rw [renamed]
    apply Fair.map (fair.mono (Nat.le_succ 7))
    intro side side' one isOne two isTwo less
    obtain ⟨filing, isFiling, -, rfl⟩ := ticks isOne
    obtain ⟨filing', isFiling', -, rfl⟩ := ticks isTwo
    exact rises filing isFiling filing' isFiling' less
  have same : ∀ one ∈ log, ∀ two ∈ log, one.key = two.key → one.tick = two.tick := by
    intro one isOne two isTwo key
    rw [named one isOne, named two isTwo] at key
    rcases Nat.lt_trichotomy one.tick two.tick with less | same | less
    · exact absurd key (rises one isOne two isTwo less).ne
    · exact same
    · exact absurd key (rises two isTwo one isOne less).ne'
  have compared : ∀ one ∈ log, ∀ two ∈ log, one.side ≠ two.side → one.tick = two.tick →
      Compared one.tick log := by
    intro one isOne two isTwo apart isTick
    have both : ∀ side, one.key ∈ keys side (log.map Filing.entry) := by
      intro side
      by_cases own : one.side = side
      · exact mem_keys.mpr ⟨_, List.mem_map_of_mem isOne, own, rfl⟩
      · refine mem_keys.mpr ⟨_, List.mem_map_of_mem isTwo, ?_, ?_⟩
        · exact (Lib.Side.eq_other apart.symm).trans (Lib.Side.eq_other (Ne.symm own)).symm
        · exact (named two isTwo).trans ((congrArg name isTick.symm).trans (named one isOne).symm)
    obtain ⟨early, entry, late, value, isAt, isKey, isFound⟩ :
        ∃ early entry late value, log.map Filing.entry = early ++ entry :: late ∧
          entry.key = one.key ∧ Store.found (store.after early) entry = some value :=
      Store.compared fair' (both .one) (both .two)
    obtain ⟨early', rest, isLog, rfl, isRest⟩ := List.map_eq_append_iff.mp isAt
    obtain ⟨later, late', rfl, rfl, rfl⟩ := List.map_eq_cons_iff.mp isRest
    have isFound' := (told.at isLog).found.trans isFound
    obtain ⟨earlier, isEarlier, isSide, isKey', rfl⟩ := found_filed told isLog isFound'
    have member : earlier ∈ log := isLog ▸ List.mem_append_left _ isEarlier
    have member' : later ∈ log := isLog ▸ List.mem_append_right _ List.mem_cons_self
    have isTick' := same later member' one isOne isKey
    refine ⟨early', later, late', earlier, isLog, isEarlier, ?_, ?_, isTick', isKey', isFound'⟩
    · rw [isSide]
      exact Lib.Side.other_ne
    · exact (same earlier member later member' isKey').trans isTick'
  refine ⟨⟨?_, ?_⟩, compared⟩
  · rintro ⟨filing, member, isBad⟩
    obtain ⟨early, late, isAt⟩ := List.append_of_mem member
    obtain ⟨other, isFound, differs⟩ := (told.at isAt).verdict.mp isBad
    obtain ⟨earlier, isEarlier, isSide, isKey, rfl⟩ := found_filed told isAt isFound
    have member' : earlier ∈ log := isAt ▸ List.mem_append_left _ isEarlier
    refine ⟨earlier, member', filing, member, ?_, same earlier member' filing member isKey,
      differs⟩
    rw [isSide]
    exact Lib.Side.other_ne
  · rintro ⟨one, isOne, two, isTwo, apart, isTick, differs⟩
    obtain ⟨early, later, late, earlier, isAt, isEarlier, apart', isTick', isTick'', -, isFound⟩ :=
      compared one isOne two isTwo apart isTick
    have member : later ∈ log := isAt ▸ List.mem_append_right _ List.mem_cons_self
    have member' : earlier ∈ log := isAt ▸ List.mem_append_left _ isEarlier
    refine ⟨later, member, (told.at isAt).verdict.mpr ⟨earlier.crc, isFound, ?_⟩⟩
    have single : ∀ again ∈ log, ∀ filing ∈ log, again.side = filing.side →
        again.tick = filing.tick → again.crc = filing.crc := by
      intro again isAgain filing isFiling side tick
      exact fair.single filing.posting (List.mem_map_of_mem isFiling) again.posting
        (List.mem_map_of_mem isAgain) side tick
    by_cases own : earlier.side = one.side
    · have others : later.side = two.side :=
        (Lib.Side.eq_other apart'.symm).trans ((congrArg Lib.Side.other own).trans
          (Lib.Side.eq_other apart.symm).symm)
      rw [single earlier member' one isOne own isTick',
        single later member two isTwo others (isTick''.trans isTick)]
      exact differs
    · have own' : earlier.side = two.side :=
        (Lib.Side.eq_other own).trans (Lib.Side.eq_other apart.symm).symm
      have others : later.side = one.side := by
        rw [Lib.Side.eq_other apart'.symm, own', Lib.Side.eq_other apart.symm, Lib.Side.other_other]
      rw [single earlier member' two isTwo own' (isTick'.trans isTick),
        single later member one isOne others isTick'']
      exact differs.symm

/-- An exact verdict on two sides that both report takes equal first keys. -/
theorem named_of_exact (told : Told (Next store advance base first) log)
    (proper : Proper first log) (exact_ : Exact log) (heard : ¬ Silent log)
    (counts : ∀ start one two, advance (advance start one) two = advance start (one + two))
    (starts : ∀ side, advance (base side) 0 = base side) : base .one = base .two := by
  have keyed := keyed told proper counts starts
  have opens : ∀ filing ∈ log, ∃ opening ∈ log, opening.side = filing.side ∧
      opening.tick = first := by
    intro filing member
    have own : filing.tick ∈ keys filing.side (log.map Filing.posting) :=
      mem_keys.mpr ⟨_, List.mem_map_of_mem member, rfl, rfl⟩
    obtain ⟨tick, isHead⟩ := Option.isSome_iff_exists.mp
      (List.isSome_head?.mpr (List.ne_nil_of_mem own))
    obtain rfl := proper.begins filing.side tick isHead
    obtain ⟨entry, isEntry, isSide, isTick⟩ := mem_keys.mp (List.mem_of_mem_head? isHead)
    obtain ⟨opening, isOpening, rfl⟩ := List.mem_map.mp isEntry
    exact ⟨opening, isOpening, isSide, isTick⟩
  unfold Silent at heard
  simp only [not_forall] at heard
  obtain ⟨one, isOne, two, isTwo, apart⟩ := heard
  obtain ⟨one', isOne', side, tick⟩ := opens one isOne
  obtain ⟨two', isTwo', side', tick'⟩ := opens two isTwo
  obtain ⟨early, later, late, earlier, isAt, isEarlier, apart', isTick, isTick', isKey, -⟩ :=
    exact_.compared one' isOne' two' isTwo' (by rw [side, side']; exact apart)
      (tick.trans tick'.symm)
  have isBase : ∀ filing ∈ log, filing.tick = one'.tick → filing.key = base filing.side := by
    intro filing member same
    rw [(keyed filing member).2, same, tick, Nat.sub_self, starts]
  rw [isBase earlier (isAt ▸ List.mem_append_left _ isEarlier) isTick,
    isBase later (isAt ▸ List.mem_append_right _ List.mem_cons_self) isTick',
    Lib.Side.eq_other apart'] at isKey
  cases isSide : later.side with
  | one =>
      rw [isSide] at isKey
      exact isKey.symm
  | two =>
      rw [isSide] at isKey
      exact isKey

/-! ### The match in Python -/

namespace Server

variable (oracle : Oracle) (who : Lib.Side → Conn)

/-- The two are linked and their checksums are gone, as `try_pair` leaves it. -/
structure Fresh (server : Server) : Prop where
  apart : who .one ≠ who .two
  linked : ∀ side, (server.object (who side)).partner = some (who side.other)
  cleared : ∀ side, (server.object (who side)).crc = Dict.empty

/-- The lap a record is counted to. -/
def lapOf (server : Server) (c : Conn) (tick : Byte) : Nat :=
  nextLap (server.object c).lap (server.object c).lastTick tick

/-- What came of handling a record. -/
def filed (before after : Server) (report : Report) : Filing :=
  let c := who report.side
  let tick := report.payload.getD 0 0
  let key := before.lapOf c tick * 256 + tick.toNat
  { side := report.side
    tick := report.tick
    crc := report.crc
    key := key
    found := (before.partnerCrc c key).map Prod.snd
    mismatch := (after.seen.drop before.seen.length).any tellsMismatch }

/-- Whatever else the relay does while the match lasts. -/
def Aside (before after : Server) : Prop :=
  ∀ side, (after.object (who side)).crc = (before.object (who side)).crc ∧
    (after.object (who side)).lap = (before.object (who side)).lap ∧
    (after.object (who side)).lastTick = (before.object (who side)).lastTick ∧
    (after.object (who side)).partner = (before.object (who side)).partner

/-- The records of a match, in the order in which they are handled. -/
inductive Exchange (start : Server) : List Filing → Server → Prop where
  | start : Exchange start [] start
  | report {log : List Filing} {server after : Server} {patience : Nat} (report : Report)
      (before : Exchange start log server)
      (handled : server.handle oracle patience (who report.side) tInput report.payload =
        .ok after) :
      Exchange start (log ++ [server.filed who after report]) after
  | aside {log : List Filing} {server after : Server} (before : Exchange start log server)
      (aside : Aside who server after) : Exchange start log after

variable {oracle who} {start server after middle : Server} {c : Conn} {log : List Filing}
  {patience : Nat}

/-- Host and guest, by side. -/
def players (host guest : Conn) : Lib.Side → Conn
  | .one => host
  | .two => guest

theorem startFrame_clears {seed : BitVec 16} {role : Nat} {me them : Conn}
    (started : startFrame oracle server seed role me them = .ok after) :
    (after.object me).crc = Dict.empty ∧
      ∀ other, other ≠ me → after.object other = server.object other := by
  obtain ⟨header, -, rest⟩ := bind_ok.mp started
  split at rest
  · cases rest
  · obtain ⟨data, -, sent⟩ := bind_ok.mp rest
    obtain rfl := Except.ok.inj sent
    unfold send note
    simp only
    refine ⟨by rw [edit_self, edit_self], fun other apart => ?_⟩
    rw [edit_of_ne apart, edit_of_ne apart]

/-- A match begins fresh. -/
theorem tryPair_fresh {host : Conn} (waits : server.waiting c = some host)
    (tried : server.tryPair oracle c = .ok after) : Fresh (players host c) after := by
  have apart := (waiting_cases waits).2.1
  unfold tryPair at tried
  rw [waits] at tried
  have floor := (pair_cases apart tried).2.1
  obtain ⟨one, first, rest⟩ := bind_ok.mp tried
  obtain ⟨two, second, done⟩ := bind_ok.mp rest
  obtain rfl := Except.ok.inj done
  obtain ⟨gone, -⟩ := startFrame_clears first
  obtain ⟨gone', others⟩ := startFrame_clears second
  refine ⟨apart, fun side => ?_, fun side => ?_⟩
  · have linked := congrArg (fun floor => Floor.partner floor (players host c side)) floor
    refine linked.trans ?_
    cases side with
    | one => simp [players, Lib.Side.other, Floor.pair, apart]
    | two => simp [players, Lib.Side.other, Floor.pair]
  · rw [object_lobbyUpdate]
    cases side with
    | one => exact (congrArg Client.crc (others host apart)).trans gone
    | two => exact gone'

/-- Forwarding touches no checksum, and logs nothing. -/
theorem forward_aside {ftype : Byte} {payload : Bytes}
    (forwarded : server.forward c ftype payload = .ok after) :
    Aside who server after ∧ ∃ more, after.seen = server.seen ++ more ∧
      more.any tellsMismatch = false := by
  unfold forward at forwarded
  split at forwarded
  · obtain rfl := Except.ok.inj forwarded
    exact ⟨fun _ => ⟨rfl, rfl, rfl, rfl⟩, [], (List.append_nil _).symm, rfl⟩
  · rename_i partner isPartner
    obtain ⟨data, -, sent⟩ := bind_ok.mp forwarded
    obtain rfl := Except.ok.inj sent
    refine ⟨fun side => ?_, [.append (some c) partner data], rfl, rfl⟩
    unfold send note
    by_cases here : who side = partner
    · rw [here]
      simp only [edit_self, and_self]
    · simp only [edit_of_ne here, and_self]

/-- The books of the two, by side. -/
def books (who : Lib.Side → Conn) (server : Server) : Books Nat Byte := fun side =>
  (server.object (who side)).crc.entries

/-- What stays the same in a match. -/
structure Playing (who : Lib.Side → Conn) (server : Server) : Prop where
  apart : who .one ≠ who .two
  linked : ∀ side, (server.object (who side)).partner = some (who side.other)

theorem who_ne (playing : Playing who server) (side : Lib.Side) : who side.other ≠ who side := by
  cases side
  · exact playing.apart.symm
  · exact playing.apart

theorem Playing.aside (playing : Playing who server) (aside : Aside who server after) :
    Playing who after :=
  ⟨playing.apart, fun side => (aside side).2.2.2.trans (playing.linked side)⟩

/-- The partner's checksum is the other book's. -/
theorem partnerCrc_found (playing : Playing who server) (side : Lib.Side) (key : Nat) :
    server.partnerCrc (who side) key =
      ((books who server side.other).lookup key).map fun crc => (who side.other, crc) := by
  unfold partnerCrc
  rw [playing.linked side]
  rfl

/-- The checksum the partner's book has for a record. -/
def foundCrc (who : Lib.Side → Conn) (server : Server) (side : Lib.Side) (payload : Bytes) : Option Byte :=
  (books who server side.other).lookup
    (server.lapOf (who side) (payload.getD 0 0) * 256 + (payload.getD 0 0).toNat)

section LogCrc

variable {side : Lib.Side} {payload : Bytes}

/-- The checksum is noted before the partner's is looked up, which it does not
change. -/
theorem logCrc_eq (playing : Playing who server) :
    server.logCrc (who side) payload =
      let tick := payload.getD 0 0
      let crc := payload.getD 4 0
      let lap := server.lapOf (who side) tick
      let key := lap * 256 + tick.toNat
      let noted := server.edit (who side) fun client =>
        { client with lap := lap, lastTick := some tick, crc := client.crc.set key crc }
      match foundCrc who server side payload with
      | none => noted.edit (who side) fun client => { client with crc := client.crc.trim 8 }
      | some other =>
          let used := noted.edit (who side.other) fun client =>
            { client with crc := client.crc.erase key }
          if other ≠ crc then
            (used.count fun stats => { stats with crcBad := stats.crcBad + 1 }).log
              (.mismatch tick ((noted.object (who side)).nameOr "None") crc other)
          else used.count fun stats => { stats with crcOk := stats.crcOk + 1 } := by
  have apart := who_ne playing side
  unfold logCrc
  simp only
  have noted : Playing who (server.edit (who side) fun client =>
      { client with
        lap := server.lapOf (who side) (payload.getD 0 0)
        lastTick := some (payload.getD 0 0)
        crc := client.crc.set (server.lapOf (who side) (payload.getD 0 0) * 256 +
          (payload.getD 0 0).toNat) (payload.getD 4 0) }) := by
    refine ⟨playing.apart, fun side' => ?_⟩
    by_cases here : who side' = who side
    · rw [here, edit_self, ← here]
      exact playing.linked side'
    · rw [edit_of_ne here]
      exact playing.linked side'
  unfold lapOf at noted
  rw [partnerCrc_found noted]
  unfold foundCrc books lapOf
  rw [edit_of_ne apart]
  cases ((server.object (who side.other)).crc.entries.lookup _) with
  | none => rfl
  | some other =>
      simp only [Option.map_some]
      rw [edit_of_ne apart.symm]

theorem object_log {line : Line} : (server.log line).object = server.object := rfl

theorem object_count {change : Stats → Stats} : (server.count change).object = server.object :=
  rfl

/-- The sender's record after its checksum was logged. -/
theorem logCrc_self (playing : Playing who server) :
    ((server.logCrc (who side) payload).object (who side)) =
      let tick := payload.getD 0 0
      let lap := server.lapOf (who side) tick
      let noted := (server.object (who side)).crc.set (lap * 256 + tick.toNat) (payload.getD 4 0)
      { server.object (who side) with
        lap := lap
        lastTick := some tick
        crc := if (foundCrc who server side payload).isSome then noted else noted.trim 8 } := by
  have apart := who_ne playing side
  rw [logCrc_eq playing]
  simp only
  cases foundCrc who server side payload with
  | none =>
      simp only [edit_self, Option.isSome_none, Bool.false_eq_true, if_false]
  | some other =>
      simp only [Option.isSome_some, if_true]
      split
      · rw [object_log, object_count, edit_of_ne apart.symm, edit_self]
      · rw [object_count, edit_of_ne apart.symm, edit_self]

/-- The partner's. -/
theorem logCrc_other (playing : Playing who server) :
    ((server.logCrc (who side) payload).object (who side.other)) =
      let tick := payload.getD 0 0
      let key := server.lapOf (who side) tick * 256 + tick.toNat
      { server.object (who side.other) with
        crc :=
          if (foundCrc who server side payload).isSome then
            (server.object (who side.other)).crc.erase key
          else (server.object (who side.other)).crc } := by
  have apart := who_ne playing side
  rw [logCrc_eq playing]
  simp only
  cases foundCrc who server side payload with
  | none =>
      simp only [Option.isSome_none, Bool.false_eq_true, if_false]
      exact (edit_of_ne apart).trans (edit_of_ne apart)
  | some other =>
      simp only [Option.isSome_some, if_true]
      split
      · rw [object_log, object_count, edit_self, edit_of_ne apart]
      · rw [object_count, edit_self, edit_of_ne apart]

/-- A mismatch is logged if the partner's checksum is another one. -/
theorem logCrc_seen (playing : Playing who server) :
    ∃ more, (server.logCrc (who side) payload).seen = server.seen ++ more ∧
      (more.any tellsMismatch = true ↔
        ∃ other, foundCrc who server side payload = some other ∧ other ≠ payload.getD 4 0) := by
  rw [logCrc_eq playing]
  simp only
  cases foundCrc who server side payload with
  | none =>
      refine ⟨[], (List.append_nil _).symm, ?_⟩
      simp
  | some other =>
      by_cases differs : other ≠ payload.getD 4 0
      · simp only [if_pos differs]
        refine ⟨[_], rfl, ?_⟩
        refine iff_of_true ?_ ⟨other, rfl, differs⟩
        rw [List.any_cons, Bool.or_eq_true]
        left
        unfold tellsMismatch Line.text
        simp only [List.append_assoc, List.isPrefixOf_iff_prefix, List.prefix_append]
      · simp only [if_neg differs]
        refine ⟨[], (List.append_nil _).symm, iff_of_false Bool.false_ne_true ?_⟩
        rintro ⟨other', same, differs'⟩
        exact differs (Option.some.inj same ▸ differs')

theorem logCrc_playing (playing : Playing who server) :
    Playing who (server.logCrc (who side) payload) := by
  refine ⟨playing.apart, fun side' => ?_⟩
  by_cases own : side' = side
  · subst own
    rw [logCrc_self playing]
    exact playing.linked side'
  · obtain rfl := Lib.Side.eq_other own
    rw [logCrc_other playing]
    exact playing.linked side.other

/-- The books are a ledger. -/
theorem books_logCrc (playing : Playing who server) :
    books who (server.logCrc (who side) payload) =
      (dictStore Nat Byte 8).post (books who server)
        ⟨side, server.lapOf (who side) (payload.getD 0 0) * 256 + (payload.getD 0 0).toNat,
          payload.getD 4 0⟩ := by
  have found : Store.found (books who server)
      ⟨side, server.lapOf (who side) (payload.getD 0 0) * 256 + (payload.getD 0 0).toNat,
        payload.getD 4 0⟩ = foundCrc who server side payload := rfl
  funext side'
  by_cases own : side' = side
  · subst own
    refine Eq.trans ?_ Store.post_self.symm
    rw [found, books, logCrc_self playing]
    by_cases isFound : (foundCrc who server side' payload).isSome
    · simp only [if_pos isFound]
      rfl
    · simp only [if_neg isFound]
      rfl
  · obtain rfl := Lib.Side.eq_other own
    refine Eq.trans ?_ Store.post_other.symm
    rw [found, books, logCrc_other playing]
    by_cases isFound : (foundCrc who server side payload).isSome
    · simp only [if_pos isFound]
      rfl
    · simp only [if_neg isFound]
      rfl

end LogCrc

/-! ### The exchange -/

/-- A tick that is less than half the range ahead is counted on. -/
theorem nextLap_counts {lap tick later : Nat} (rose : tick ≤ later) (near : later < tick + 128) :
    nextLap lap (some (BitVec.ofNat 8 tick)) (BitVec.ofNat 8 later) * 256 +
        (BitVec.ofNat 8 later).toNat =
      lap * 256 + (BitVec.ofNat 8 tick).toNat + (later - tick) := by
  unfold nextLap
  simp only [BitVec.toNat_sub, BitVec.toNat_ofNat, BitVec.lt_def]
  split
  · rename_i wraps
    omega
  · rename_i stays
    omega

/-- The key a side's first record goes under, if it is that of the given tick. -/
def firstKey (who : Lib.Side → Conn) (start : Server) (first : Nat) (side : Lib.Side) : Nat :=
  start.lapOf (who side) (BitVec.ofNat 8 first) * 256 + (BitVec.ofNat 8 first).toNat

/-- What a match has come to after some records. -/
structure Filed (who : Lib.Side → Conn) (start : Server) (first : Nat) (log : List Filing)
    (server : Server) : Prop where
  told : Told (Next (dictStore Nat Byte 8) (· + ·) (firstKey who start first) first) log
  playing : Playing who server
  books : books who server = (dictStore Nat Byte 8).after (log.map Filing.entry)
  fresh : ∀ side, lastOf side log = none →
    (server.object (who side)).lap = (start.object (who side)).lap ∧
      (server.object (who side)).lastTick = (start.object (who side)).lastTick
  last : ∀ side, ∀ last ∈ lastOf side log,
    (server.object (who side)).lastTick = some (BitVec.ofNat 8 last.tick) ∧
      last.key = (server.object (who side)).lap * 256 + (BitVec.ofNat 8 last.tick).toNat

variable {first : Nat}

theorem Fresh.filed (fresh : Fresh who start) : Filed who start first [] start where
  told := .nil
  playing := ⟨fresh.apart, fresh.linked⟩
  books := by
    funext side
    unfold Server.books
    rw [fresh.cleared]
    rfl
  fresh _ _ := ⟨rfl, rfl⟩
  last _ _ absurd' := by cases absurd'

theorem Filed.aside (filed : Filed who start first log server)
    (aside : Aside who server after) : Filed who start first log after where
  told := filed.told
  playing := filed.playing.aside aside
  books := by
    rw [← filed.books]
    funext side
    unfold Server.books
    rw [(aside side).1]
  fresh side none_ := by
    rw [(aside side).2.1, (aside side).2.2.1]
    exact filed.fresh side none_
  last side last isLast := by
    rw [(aside side).2.1, (aside side).2.2.1]
    exact filed.last side last isLast

theorem aside_lapOf {side : Lib.Side} (aside : Aside who server middle) (tick : Byte) :
    server.lapOf (who side) tick = middle.lapOf (who side) tick := by
  unfold lapOf
  rw [(aside side).2.1, (aside side).2.2.1]

/-- What is found is what stands in the partner's book after forwarding. -/
theorem filed_found {report : Report} (playing : Playing who server)
    (aside : Aside who server middle) :
    (server.filed who after report).found =
      foundCrc who middle report.side report.payload := by
  unfold Server.filed foundCrc
  simp only
  rw [partnerCrc_found playing, Option.map_map, aside_lapOf aside]
  unfold Server.books
  rw [(aside report.side.other).1]
  exact congrFun Option.map_id _

theorem filed_entry {report : Report} (aside : Aside who server middle) :
    (server.filed who after report).entry =
      ⟨report.side, middle.lapOf (who report.side) (report.payload.getD 0 0) * 256 +
        (report.payload.getD 0 0).toNat, report.payload.getD 4 0⟩ := by
  unfold Server.filed Filing.entry
  simp only
  rw [aside_lapOf aside]
  rfl

/-- A record that is handled is filed. -/
theorem Filed.report (filed : Filed who start first log server) (report : Report)
    (handled : server.handle oracle patience (who report.side) tInput report.payload =
      .ok after) :
    Filed who start first (log ++ [server.filed who after report]) after := by
  have isRelay : tInput ∈ relayTypes := by decide
  unfold handle at handled
  rw [if_pos isRelay] at handled
  obtain ⟨middle, forwarded, rest⟩ := bind_ok.mp handled
  rw [if_pos ⟨rfl, report.whole⟩] at rest
  obtain rfl := Except.ok.inj rest
  obtain ⟨aside, more, isMore, quiet⟩ := @forward_aside who _ _ _ _ _ forwarded
  have filed' := filed.aside aside
  have playing := filed'.playing
  obtain ⟨lines, isLines, tells⟩ :=
    @logCrc_seen who middle report.side report.payload playing
  have lap := @aside_lapOf who server middle report.side aside
  have found := @filed_found who server (middle.logCrc (who report.side) report.payload) middle
    report filed.playing aside
  have entry := @filed_entry who server (middle.logCrc (who report.side) report.payload) middle
    report aside
  refine ⟨.add filed'.told ⟨?_, ?_, ?_, ?_⟩, logCrc_playing playing, ?_, ?_, ?_⟩
  · rw [found, entry, ← filed'.books]
    rfl
  · rw [found]
    unfold Server.filed
    simp only
    rw [isLines, isMore, List.append_assoc, List.drop_left, List.any_append, quiet,
      Bool.false_or]
    exact tells
  · intro none_ isFirst
    obtain ⟨sameLap, sameTick⟩ := filed.fresh report.side none_
    have isTick : report.tick = first := isFirst
    unfold Server.filed firstKey lapOf
    simp only
    rw [report.stamp, sameLap, sameTick, isTick]
  · intro last isLast rose near
    obtain ⟨sameTick, isKey⟩ := filed.last report.side last isLast
    rw [isKey]
    unfold Server.filed lapOf
    simp only
    rw [report.stamp, sameTick]
    exact nextLap_counts rose near
  · rw [books_logCrc playing, List.map_append, List.map_singleton, Store.after_append,
      ← filed'.books, entry]
  · intro side none_
    rw [lastOf_append] at none_
    split at none_
    · cases none_
    · rename_i apart
      obtain rfl : side = report.side.other := Lib.Side.eq_other fun same => apart same.symm
      rw [logCrc_other playing]
      exact filed'.fresh _ none_
  · intro side last isLast
    rw [lastOf_append] at isLast
    split at isLast
    · rename_i own
      obtain rfl : report.side = side := own
      obtain rfl := Option.some.inj isLast
      rw [logCrc_self playing]
      simp only
      rw [report.stamp]
      refine ⟨rfl, ?_⟩
      unfold Server.filed
      simp only
      rw [report.stamp, lap]
    · rename_i apart
      obtain rfl : side = report.side.other := Lib.Side.eq_other fun same => apart same.symm
      rw [logCrc_other playing]
      exact filed'.last _ last isLast

theorem exchange_filed (fresh : Fresh who start)
    (exchange : Exchange oracle who start log server) : Filed who start first log server := by
  induction exchange with
  | start => exact fresh.filed
  | report report before handled inductionHypothesis =>
      exact inductionHypothesis.report report handled
  | aside before aside inductionHypothesis => exact inductionHypothesis.aside aside

/-- The verdict on a match is exact just if both connections count the first tick
to the same lap, or one of them reports nothing. -/
theorem exchange_exact (fresh : Fresh who start)
    (exchange : Exchange oracle who start log server) (proper : Proper first log) :
    Exact log ↔ Silent log ∨
      start.lapOf (who .one) (BitVec.ofNat 8 first) =
        start.lapOf (who .two) (BitVec.ofNat 8 first) := by
  have told := (@exchange_filed oracle who start server log first fresh exchange).told
  constructor
  · intro exact_
    by_cases silent : Silent log
    · exact Or.inl silent
    · right
      have same := named_of_exact told proper exact_ silent Nat.add_assoc fun _ => Nat.add_zero _
      unfold firstKey at same
      omega
  · rintro (silent | same)
    · exact exact_of_silent told silent
    · have keyed := keyed told proper Nat.add_assoc fun _ => Nat.add_zero _
      have isBase : ∀ side, firstKey who start first side = firstKey who start first .one := by
        intro side
        cases side with
        | one => rfl
        | two =>
            unfold firstKey
            rw [same]
      apply exact_of_named told proper.fair fun tick =>
        firstKey who start first .one + (tick - first)
      · intro filing member
        rw [(keyed filing member).2, isBase]
      · intro one isOne two _ less
        have low := (keyed one isOne).1
        omega

end Server

end DragsterNet.Relay
