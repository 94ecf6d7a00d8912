/-
Module: DragsterNet.Refine.Bound
Purpose: How many checksums the maps of the two relays come to hold, and that
  the maps are the same.
Trusted boundary: none
Main exports: Server.crc_bounded, State.crc_bounded, Joint, crc_maps_bounded
-/
import DragsterNet.Refine.Verdict

namespace DragsterNet.Relay

open Lib

/-! ### The Python relay -/

namespace Server

variable {oracle : Oracle} {server after middle : Server} {c x : Conn} {payload : Bytes}
  {patience : Nat}

/-- The checksums stay, or go all at once. -/
def Thinner (one two : Client) : Prop := two.crc = one.crc ∨ two.crc = Dict.empty

theorem thinner_gentle : Gentle Thinner where
  refl _ := Or.inl rfl
  trans one two := by
    rcases two with same | gone
    · rcases one with same' | gone'
      · exact Or.inl (same.trans same')
      · exact Or.inr (same.trans gone')
    · exact Or.inr gone
  tx _ _ := Or.inl rfl
  tv _ _ := Or.inl rfl
  name _ _ := Or.inl rfl
  partner _ _ _ := Or.inl rfl
  fresh _ := Or.inr rfl

/-- No map holds more than eight checksums between records. -/
def Small (server : Server) : Prop := ∀ c, (server.object c).crc.size ≤ 8

theorem Small.each (small : Small server) (each : Each Thinner server after) : Small after := by
  intro c
  rcases each c with same | gone
  · rw [same]
    exact small c
  · rw [gone]
    exact Nat.zero_le 8

/-- A record that finds the partner's checksum leaves no more than eight in its
own map: it has seven at most, or one under that key. -/
def Roomy (server : Server) (c : Conn) (payload : Bytes) : Prop :=
  let tick := payload.getD 0 0
  let key := server.lapOf c tick * 256 + tick.toNat
  (server.partnerCrc c key).isSome →
    key ∈ (server.object c).crc.keys ∨ (server.object c).crc.size < 8

instance (server : Server) (c : Conn) (payload : Bytes) : Decidable (server.Roomy c payload) :=
  inferInstanceAs (Decidable (_ → _))

/-- A checksum that is noted makes a map of nine at most. -/
theorem Small.noted (small : Small server) (key : Nat) (crc : Byte) :
    ((server.object c).crc.set key crc).size ≤ 9 := by
  have size := small c
  rw [Dict.size_set]
  split <;> omega

theorem logCrc_small (small : Small server) (roomy : server.Roomy c payload) :
    Small (server.logCrc c payload) := by
  unfold Roomy at roomy
  simp only at roomy
  unfold logCrc
  simp only
  have kept : ∀ {x : Conn} {change : Client → Client}, x ≠ c →
      ((server.edit c change).object x).crc.size ≤ 8 := by
    intro x change apart
    rw [edit_of_ne apart]
    exact small x
  split
  · intro x
    by_cases here : x = c
    · rw [here, edit_self]
      exact Dict.size_trim_le
    · rw [edit_of_ne here]
      exact kept here
  · rename_i partner other isFound
    obtain ⟨partner', isPartner, found⟩ := Option.bind_eq_some_iff.mp isFound
    obtain ⟨crc, isCrc, same⟩ := Option.map_eq_some_iff.mp found
    obtain ⟨rfl, rfl⟩ := Prod.mk.inj same
    rw [edit_self] at isPartner
    have isPartner' : (server.object c).partner = some partner' := isPartner
    have used : ∀ (noted erased : Client → Client) (key : Nat),
        (∀ client, (erased client).crc = client.crc.erase key) →
        (noted (server.object c)).crc = (server.object c).crc.set key (payload.getD 4 0) →
        (c ≠ partner' → key ∈ (server.object c).crc.keys ∨ (server.object c).crc.size < 8) →
        ∀ x, (((server.edit c noted).edit partner' erased).object x).crc.size ≤ 8 := by
      intro noted erased key isErased isNoted hits x
      by_cases isX : x = partner'
      · subst isX
        rw [edit_self, isErased]
        by_cases own : x = c
        · rw [own, edit_self, isNoted]
          exact Dict.size_set_erase_le.trans (small c)
        · exact Dict.size_erase_le.trans (kept own)
      · rw [edit_of_ne isX]
        by_cases here : x = c
        · subst here
          rw [edit_self, isNoted]
          have size := small x
          refine (le_of_eq Dict.size_set).trans ?_
          split
          · exact size
          · rename_i fresh
            exact (hits isX).resolve_left fresh
        · exact kept here
    have hits : c ≠ partner' → nextLap (server.object c).lap (server.object c).lastTick
          (payload.getD 0 0) * 256 + (payload.getD 0 0).toNat ∈ (server.object c).crc.keys ∨
        (server.object c).crc.size < 8 := by
      intro apart
      apply roomy
      unfold partnerCrc
      rw [edit_of_ne apart.symm] at isCrc
      rw [isPartner', Option.bind_some]
      unfold lapOf
      rw [isCrc]
      rfl
    split
    · intro x
      rw [object_log, object_count]
      refine used _ _ _ ?_ ?_ hits x
      · exact fun _ => rfl
      · rfl
    · intro x
      rw [object_count]
      refine used _ _ _ ?_ ?_ hits x
      · exact fun _ => rfl
      · rfl

/-- Forwarding leaves a record as roomy as it was. -/
theorem Roomy.forward {ftype : Byte} (roomy : server.Roomy c payload)
    (forwarded : server.forward c ftype payload = .ok middle) : middle.Roomy c payload := by
  have aside : ∀ x, (middle.object x).crc = (server.object x).crc ∧
      (middle.object x).lap = (server.object x).lap ∧
      (middle.object x).lastTick = (server.object x).lastTick ∧
      (middle.object x).partner = (server.object x).partner := fun x =>
    (@forward_aside (fun _ => x) _ _ _ _ _ forwarded).1 .one
  unfold Roomy lapOf partnerCrc at roomy ⊢
  simp only [(aside _).1, (aside _).2.1, (aside _).2.2.1, (aside _).2.2.2] at roomy ⊢
  exact roomy

theorem handle_small {ftype : Byte} (small : Small server)
    (roomy : ftype = tInput → 6 ≤ payload.length → server.Roomy c payload)
    (handled : server.handle oracle patience c ftype payload = .ok after) : Small after := by
  rcases handle_each thinner_gentle handled with each | ⟨isInput, long, middle, relayed, each, rfl⟩
  · exact small.each each
  · exact logCrc_small (small.each each) ((roomy isInput long).forward relayed)

theorem serviceOnce_small {again : Bool} (small : Small server)
    (roomy : ∀ body, server.pending c = some body → body.headD 0 = tInput →
      6 ≤ body.tail.length → server.Roomy c body.tail)
    (served : server.serviceOnce oracle patience c = .ok (after, again)) : Small after := by
  unfold serviceOnce at served
  cases read : readFrame (server.object c).rx with
  | short =>
      rw [read] at served
      obtain ⟨rfl, -⟩ := Prod.mk.inj (Except.ok.inj served)
      exact small
  | bad length =>
      rw [read] at served
      obtain ⟨rfl, -⟩ := Prod.mk.inj (Except.ok.inj served)
      have counted : Small ((server.count fun stats =>
          { stats with badFrames := stats.badFrames + 1 }).log
            (.badLength ((server.object c).nameOr "?") length.toNat)) := small
      exact counted.each (each_drop thinner_gentle)
  | whole body rest =>
      rw [read] at served
      obtain ⟨middle, handled, done⟩ := bind_ok.mp served
      obtain ⟨rfl, -⟩ := Prod.mk.inj (Except.ok.inj done)
      have isPending : server.pending c = some body := by rw [pending, read]
      have taken : Small (server.edit c fun client => { client with rx := rest }) :=
        small.each (each_edit thinner_gentle (Or.inl rfl))
      refine handle_small taken ?_ handled
      intro isInput long
      have roomy' := roomy body isPending isInput long
      unfold Roomy lapOf partnerCrc at roomy' ⊢
      have same : ∀ x, ((server.edit c fun client => { client with rx := rest }).object x).crc =
            (server.object x).crc ∧
          ((server.edit c fun client => { client with rx := rest }).object x).lap =
            (server.object x).lap ∧
          ((server.edit c fun client => { client with rx := rest }).object x).lastTick =
            (server.object x).lastTick ∧
          ((server.edit c fun client => { client with rx := rest }).object x).partner =
            (server.object x).partner := by
        intro x
        by_cases here : x = c
        · rw [here, edit_self]
          exact ⟨rfl, rfl, rfl, rfl⟩
        · rw [edit_of_ne here]
          exact ⟨rfl, rfl, rfl, rfl⟩
      simp only [(same _).1, (same _).2.1, (same _).2.2.1, (same _).2.2.2]
      exact roomy'

theorem accept_small {ip : Ip} {port : Nat} {born : Time} (small : Small server) :
    Small (server.accept ip port born) := by
  unfold accept
  simp only
  split
  · exact small
  · split
    · exact small
    · intro x
      by_cases here : x = server.conns
      · subst here
        refine (congrArg (fun client : Client => client.crc.size) (Function.update_self ..)).le.trans ?_
        exact Nat.zero_le 8
      · refine (congrArg (fun client : Client => client.crc.size) (Function.update_of_ne here ..)).le.trans ?_
        exact small x

end Server

namespace Loop

variable {oracle : Oracle} {loop after : Loop} {act : Act} {now : Time}

/-- INPUT records that find their partner's checksum leave no more than eight in
their sender's map. -/
def Roomy (loop : Loop) (act : Act) : Prop :=
  ∀ dispatched ∈ loop.dispatching act, dispatched.2.headD 0 = tInput →
    6 ≤ dispatched.2.tail.length → loop.state.Roomy dispatched.1 dispatched.2.tail

instance (loop : Loop) (act : Act) : Decidable (Roomy loop act) :=
  inferInstanceAs (Decidable (∀ dispatched ∈ loop.dispatching act, _))

theorem small_next (roomy : Roomy loop act) (step : Step oracle loop act after)
    (small : loop.state.Small) : after.state.Small := by
  rcases step_cases oracle step with ⟨turn, -, same⟩ |
    ⟨patience, job, rest, more, isWork, isNext, performed, -⟩
  · rw [same]
    exact small
  · subst isWork
    refine Server.perform_keeps (fun small hushed => ?_)
      (fun small => small.each (Server.each_drop Server.thinner_gentle))
      (Server.accept_small small) ?_ performed small
    · intro x
      rw [hushed.crc]
      exact small x
    · rintro c again rfl once
      refine Server.serviceOnce_small small ?_ once
      intro body isPending
      exact roomy (c, body) (dispatching_service isNext isPending)

theorem small_run (run : Run (Step oracle) Roomy (start now) loop) : loop.state.Small :=
  run.invariant (fun loop => loop.state.Small) (fun _ => Nat.zero_le 8)
    fun small roomy step => small_next roomy step small

end Loop

end DragsterNet.Relay


namespace DragsterNet.CRelay

open Lib Relay

/-! ### The C relay -/

namespace State

variable {oracle : Oracle} {state after middle : State} {ci : Slot} {payload : Bytes}
  {change : Client → Client}

/-- Every slot's checksums stay, or go all at once. -/
def Thin (state after : State) : Prop :=
  ∀ ci, (after.clients ci).crc = (state.clients ci).crc ∨ (after.clients ci).crc = []

theorem Thin.rfl : Thin state state := fun _ => Or.inl (Eq.refl _)

theorem Thin.trans (one : Thin state middle) (two : Thin middle after) : Thin state after := by
  intro ci
  rcases two ci with same | gone
  · rcases one ci with same' | gone'
    · exact Or.inl (same.trans same')
    · exact Or.inr (same.trans gone')
  · exact Or.inr gone

/-- Only the slots matter. -/
theorem Thin.congr {later : State} (thin : Thin state after)
    (same : later.clients = after.clients) : Thin state later := by
  intro ci
  rw [same]
  exact thin ci

theorem thin_edit (kept : (change (state.clients ci)).crc = (state.clients ci).crc ∨
    (change (state.clients ci)).crc = []) : Thin state (state.edit ci change) := by
  intro other
  by_cases here : other = ci
  · rw [here, edit_self]
    exact kept
  · rw [edit_of_ne here]
    exact Or.inl (Eq.refl _)

theorem Thin.edit (thin : Thin state after)
    (kept : (change (after.clients ci)).crc = (after.clients ci).crc) :
    Thin state (after.edit ci change) :=
  thin.trans (thin_edit (Or.inl kept))

theorem Thin.log {line : Line} (thin : Thin state after) : Thin state (after.log line) := thin

theorem Thin.note {seen : Seen} (thin : Thin state after) : Thin state (after.note seen) := thin

theorem Thin.count {counts : Counters → Counters} (thin : Thin state after) :
    Thin state (after.count counts) := thin

theorem Thin.lobbyUpdate (thin : Thin state after) :
    Thin state (after.lobbyUpdateCount oracle) := by
  unfold lobbyUpdateCount
  split
  · exact thin.note
  · exact thin

theorem Thin.send {src : Option Slot} {data : Bytes} (thin : Thin state after) :
    Thin state (after.clientSend src ci data) := by
  unfold clientSend
  simp only
  split
  · exact thin.edit (Eq.refl _)
  · exact (thin.edit (Eq.refl _)).note

theorem thin_drop : Thin state (state.drop oracle ci) := by
  unfold drop
  split
  · exact Thin.rfl
  · simp only
    apply Thin.lobbyUpdate
    have marked : Thin state (state.edit ci fun client => { client with dead := true }) :=
      Thin.rfl.edit (Eq.refl _)
    generalize (state.edit ci fun client => { client with dead := true }) = marked_ at marked
    have unregistered : Thin state (marked_.unregister ci) := by
      unfold unregister nameDelIfIs
      split
      · split
        · exact marked
        · split
          · exact marked
          · exact marked.congr (Eq.refl _)
      · exact marked
    generalize marked_.unregister ci = unregistered_ at unregistered
    have left : Thin state (unregistered_.leavePartner ci) := by
      unfold leavePartner
      split
      · exact (unregistered.edit (Eq.refl _)).send.log
      · exact unregistered
    generalize unregistered_.leavePartner ci = left_ at left
    have closed : Thin state (left_.closeSlot ci) := by
      unfold closeSlot
      simp only
      split
      · rename_i fd _
        have noted : Thin state (({ left_ with
            watched := Function.update left_.watched fd none } : State).note (.close fd)) :=
          left.congr (Eq.refl _)
        have edited : Thin state ((({ left_ with
            watched := Function.update left_.watched fd none } : State).note (.close fd)).edit ci
              fun client => { client with fd := none }) := noted.edit (Eq.refl _)
        exact edited.congr (Eq.refl _)
      · exact left.congr (Eq.refl _)
    unfold farewell
    split
    · exact closed.log
    · exact closed

theorem thin_tryPair : Thin state (state.tryPair oracle ci) := by
  unfold tryPair
  split
  · exact Thin.rfl
  · rename_i host _
    simp only
    have linked : Thin state ({ state with seeds := state.seeds + 1 }.link host ci) := by
      have same : Thin state { state with seeds := state.seeds + 1 } := Thin.rfl
      unfold link
      exact ((same.edit (Eq.refl _)).edit (Eq.refl _)).note
    generalize { state with seeds := state.seeds + 1 }.link host ci = linked_ at linked
    have started : ∀ {before : State} {seed : BitVec 16} {role : Nat} {me them : Slot},
        Thin state before → Thin state (startFrame oracle before seed role me them) := by
      intro before seed role me them thin
      unfold startFrame sendFrame
      exact (thin.trans (thin_edit (Or.inr (Eq.refl _)))).send
    exact (started (started linked)).count.log.lobbyUpdate

theorem thin_noteTv : Thin state (state.noteTv ci payload) := by
  unfold noteTv
  split
  · exact Thin.rfl
  · exact Thin.rfl.edit (Eq.refl _)

theorem thin_register {name : Bytes} {tv : Byte} {drawn : Nat} :
    Thin state (state.register oracle ci name tv drawn) := by
  have named : Thin state (state.edit ci fun client =>
      { client with name := name, hasName := true }) := Thin.rfl.edit (Eq.refl _)
  apply named.congr
  exact clients_register

theorem thin_onHello : Thin state (state.onHello oracle ci payload) := by
  unfold onHello
  simp only
  split
  · exact thin_noteTv.log.trans thin_drop
  · split
    · have drawn : ∀ count, Thin state
          { state.noteTv ci payload with digits := count } := fun _ => thin_noteTv
      exact (drawn _).log.trans thin_drop
    · exact thin_noteTv.trans (thin_register.trans thin_tryPair)

theorem thin_forward {ftype : Byte} : Thin state (state.forward ci ftype payload) := by
  unfold forward
  split
  · exact Thin.rfl
  · exact Thin.rfl.send

/-- A frame leaves the checksums or clears them, or logs that of an INPUT
record. -/
theorem handle_thin {ftype : Byte} :
    Thin state (state.handle oracle ci ftype payload) ∨ ftype = tInput ∧ 6 ≤ payload.length ∧
      state.handle oracle ci ftype payload = (state.forward ci ftype payload).logCrc ci payload := by
  unfold handle
  split
  · simp only
    split
    · rename_i logged
      exact Or.inr ⟨logged.1, logged.2, rfl⟩
    · exact Or.inl thin_forward
  · left
    split
    · exact thin_onHello
    · split
      · exact Thin.rfl.send
      · split
        · exact thin_tryPair
        · split
          · exact Thin.rfl.send
          · split
            · exact thin_drop
            · exact Thin.rfl.log

/-- No slot holds more than eight checksums between records. -/
def Small (state : State) : Prop := ∀ ci, (state.clients ci).crc.length ≤ 8

theorem Small.thin (small : Small state) (thin : Thin state after) : Small after := by
  intro ci
  rcases thin ci with same | gone
  · rw [same]
    exact small ci
  · rw [gone]
    exact Nat.zero_le 8

/-- A record that finds the partner's checksum leaves no more than eight in its
own slots: it has seven at most, or one under that key. -/
def Roomy (state : State) (ci : Slot) (payload : Bytes) : Prop :=
  let tick := payload.getD 0 0
  let key := crcKey (nextLap (state.clients ci) tick) tick
  (state.partnerCrc ci key).isSome →
    (crcFind (state.clients ci).crc key).isSome ∨ (state.clients ci).crc.length < 8

instance (state : State) (ci : Slot) (payload : Bytes) : Decidable (state.Roomy ci payload) :=
  inferInstanceAs (Decidable (_ → _))

theorem crcSet_length {crc : List (BitVec 64 × Byte)} {key : BitVec 64} {value : Byte}
    (room : crc.length < crcSlots) : (crcSet crc key value).length =
      if (crcFind crc key).isSome then crc.length else crc.length + 1 := by
  unfold crcSet
  cases crcFind crc key with
  | none =>
      simp only [if_neg (Nat.not_le.mpr room), List.length_append, List.length_singleton,
        Option.isSome_none, Bool.false_eq_true, if_false]
  | some index => simp only [List.length_set, Option.isSome_some, if_true]

/-- A checksum that is noted makes nine at most. -/
theorem Small.noted (small : Small state) (key : BitVec 64) (crc : Byte) :
    (crcSet (state.clients ci).crc key crc).length ≤ 9 := by
  have size := small ci
  have room : (state.clients ci).crc.length < crcSlots := Nat.lt_of_le_of_lt size (by decide)
  rw [crcSet_length room]
  split <;> omega

theorem logCrc_small (small : Small state) (roomy : state.Roomy ci payload) :
    Small (state.logCrc ci payload) := by
  unfold Roomy at roomy
  simp only at roomy
  unfold logCrc
  simp only
  have kept : ∀ {cj : Slot} {change : Client → Client}, cj ≠ ci →
      ((state.edit ci change).clients cj).crc.length ≤ 8 := by
    intro cj change apart
    rw [edit_of_ne apart]
    exact small cj
  split
  · intro cj
    by_cases here : cj = ci
    · rw [here, edit_self, edit_self]
      have noted := @Small.noted state ci small (crcKey (nextLap (state.clients ci)
        (payload.getD 0 0)) (payload.getD 0 0)) (payload.getD 4 0)
      simp only [List.length_drop]
      omega
    · rw [edit_of_ne here]
      exact kept here
  · rename_i partner index other isFound
    obtain ⟨partner', isPartner, found⟩ := Option.bind_eq_some_iff.mp isFound
    obtain ⟨index', isIndex, found'⟩ := Option.bind_eq_some_iff.mp found
    obtain ⟨entry, isEntry, same⟩ := Option.map_eq_some_iff.mp found'
    obtain ⟨rfl, rest⟩ := Prod.mk.inj same
    obtain ⟨rfl, rfl⟩ := Prod.mk.inj rest
    rw [edit_self] at isPartner
    have isPartner' : (state.clients ci).partner = some partner' := isPartner
    have used : ∀ (noted erased : Client → Client) (key : BitVec 64),
        (∀ client, (erased client).crc = client.crc.eraseIdx index') →
        (noted (state.clients ci)).crc =
          crcSet (state.clients ci).crc key (payload.getD 4 0) →
        index' < ((state.edit ci noted).clients partner').crc.length →
        (ci ≠ partner' →
          (crcFind (state.clients ci).crc key).isSome ∨ (state.clients ci).crc.length < 8) →
        ∀ cj, (((state.edit ci noted).edit partner' erased).clients cj).crc.length ≤ 8 := by
      intro noted erased key isErased isNoted within hits cj
      by_cases isX : cj = partner'
      · subst isX
        rw [edit_self, isErased, List.length_eraseIdx_of_lt within]
        by_cases own : cj = ci
        · rw [own, edit_self, isNoted]
          have noted := @Small.noted state ci small key (payload.getD 4 0)
          omega
        · exact (Nat.sub_le _ _).trans (kept own)
      · rw [edit_of_ne isX]
        by_cases here : cj = ci
        · subst here
          have size := small cj
          rw [edit_self, isNoted, crcSet_length (Nat.lt_of_le_of_lt size (by decide))]
          split
          · exact size
          · rename_i fresh
            exact (hits isX).resolve_left fresh
        · exact kept here
    have hits : ci ≠ partner' → (crcFind (state.clients ci).crc (crcKey (nextLap
          (state.clients ci) (payload.getD 0 0)) (payload.getD 0 0))).isSome ∨
        (state.clients ci).crc.length < 8 := by
      intro apart
      apply roomy
      unfold partnerCrc
      rw [edit_of_ne apart.symm] at isIndex isEntry
      rw [isPartner', Option.bind_some, isIndex, Option.bind_some, isEntry]
      rfl
    have within := (List.getElem?_eq_some_iff.mp isEntry).1
    split
    · intro cj
      rw [Refine.Slots.clients_log, Refine.Slots.clients_count]
      refine used _ _ _ ?_ ?_ ?_ hits cj
      · exact fun _ => rfl
      · rfl
      · exact within
    · intro cj
      rw [Refine.Slots.clients_count]
      refine used _ _ _ ?_ ?_ ?_ hits cj
      · exact fun _ => rfl
      · rfl
      · exact within

/-- Forwarding leaves a record as roomy as it was. -/
theorem Roomy.forward {ftype : Byte} (roomy : state.Roomy ci payload) :
    (state.forward ci ftype payload).Roomy ci payload := by
  have aside : ∀ cj, ((state.forward ci ftype payload).clients cj).crc = (state.clients cj).crc ∧
      ((state.forward ci ftype payload).clients cj).lap = (state.clients cj).lap ∧
      ((state.forward ci ftype payload).clients cj).haveLastTick =
        (state.clients cj).haveLastTick ∧
      ((state.forward ci ftype payload).clients cj).lastTick = (state.clients cj).lastTick ∧
      ((state.forward ci ftype payload).clients cj).partner = (state.clients cj).partner :=
    fun cj => (@Refine.Slots.forward_aside (fun _ => cj) state ci ftype payload).1 .one
  unfold Roomy nextLap partnerCrc at roomy ⊢
  simp only [(aside _).1, (aside _).2.1, (aside _).2.2.1, (aside _).2.2.2.1,
    (aside _).2.2.2.2] at roomy ⊢
  exact roomy

theorem handle_small {ftype : Byte} (small : Small state)
    (roomy : ftype = tInput → 6 ≤ payload.length → state.Roomy ci payload) :
    Small (state.handle oracle ci ftype payload) := by
  rcases @handle_thin oracle state ci payload ftype with thin | ⟨isInput, long, same⟩
  · exact small.thin thin
  · rw [same]
    exact logCrc_small (small.thin thin_forward) (roomy isInput long).forward

theorem serviceOnce_small (small : Small state)
    (roomy : ∀ body, state.pending ci = some body → body.headD 0 = tInput →
      6 ≤ body.tail.length → state.Roomy ci body.tail) :
    Small (state.serviceOnce oracle ci).1 := by
  unfold serviceOnce
  cases read : readFrame (state.clients ci).rx with
  | short => exact small
  | bad length =>
      have counted : Small ((state.count fun stats =>
          { stats with badFrames := stats.badFrames + 1 }).log
            (.badLength (state.clients ci).nameOr length.toNat)) := small
      exact counted.thin thin_drop
  | whole body rest =>
      have isPending : state.pending ci = some body := by rw [pending, read]
      have taken : Small (state.edit ci fun client => { client with rx := rest }) :=
        small.thin (thin_edit (Or.inl rfl))
      apply handle_small taken
      intro isInput long
      have roomy' := roomy body isPending isInput long
      unfold Roomy nextLap partnerCrc at roomy' ⊢
      have same : ∀ cj, ((state.edit ci fun client => { client with rx := rest }).clients cj).crc =
            (state.clients cj).crc ∧
          ((state.edit ci fun client => { client with rx := rest }).clients cj).lap =
            (state.clients cj).lap ∧
          ((state.edit ci fun client => { client with rx := rest }).clients cj).haveLastTick =
            (state.clients cj).haveLastTick ∧
          ((state.edit ci fun client => { client with rx := rest }).clients cj).lastTick =
            (state.clients cj).lastTick ∧
          ((state.edit ci fun client => { client with rx := rest }).clients cj).partner =
            (state.clients cj).partner := by
        intro cj
        by_cases here : cj = ci
        · rw [here, edit_self]
          exact ⟨rfl, rfl, rfl, rfl, rfl⟩
        · rw [edit_of_ne here]
          exact ⟨rfl, rfl, rfl, rfl, rfl⟩
      simp only [(same _).1, (same _).2.1, (same _).2.2.1, (same _).2.2.2.1, (same _).2.2.2.2]
      exact roomy'

/-! ### The other pieces of the loop -/

theorem thin_checkBacklog : Thin state (state.checkBacklog oracle ci) := by
  unfold checkBacklog
  simp only
  split
  · exact Thin.trans Thin.rfl.count.log thin_drop
  · exact Thin.rfl

theorem thin_flush {sent : Relay.Sent} : Thin state (state.flush oracle ci sent) := by
  unfold flush
  split
  · exact Thin.rfl
  · split
    · exact thin_drop
    · cases sent with
      | failed => exact thin_drop
      | blocked => exact thin_checkBacklog
      | took count =>
          have taken : Thin state (state.edit ci fun client => consumeTx client count) :=
            Thin.rfl.edit (Eq.refl _)
          exact Thin.trans taken.note thin_checkBacklog

theorem thin_writable {write : Option Relay.Sent} : Thin state (state.writable oracle ci write) := by
  unfold writable
  split
  · split
    · exact Thin.rfl
    · exact thin_flush
  · exact Thin.rfl

theorem thin_sweep {now : Time} : Thin state (state.sweep oracle now) := by
  have swept : ∀ (slots : List Slot) (state : State),
      Thin state (slots.foldl (expire oracle now) state) := by
    intro slots
    induction slots with
    | nil => exact fun _ => Thin.rfl
    | cons ci rest inductionHypothesis =>
        intro state
        refine Thin.trans ?_ (inductionHypothesis _)
        unfold expire
        simp only
        split
        · exact Thin.trans Thin.rfl.count thin_drop
        · exact Thin.rfl
  exact swept state.order state

theorem thin_acceptClient {ip : Ip} {port : Nat} {born : Time} :
    Thin state (state.acceptClient ip port born) := by
  unfold acceptClient
  simp only
  split
  · exact Thin.rfl
  · split
    · exact Thin.rfl
    · split
      · exact Thin.rfl
      · rename_i ci _
        have seated : Thin state (state.edit ci fun client =>
            { gen := client.gen, tx := client.tx, inUse := true, fd := some state.conns, ip := ip,
              port := port, born := born, holds := some state.conns }) :=
          thin_edit (Or.inr (Eq.refl _))
        exact seated.congr (Eq.refl _)

theorem thin_reap : Thin state state.reap := by
  intro ci
  unfold reap
  simp only
  split <;> exact Or.inl rfl

theorem perform_small {job : Job} (small : Small state)
    (roomy : ∀ ci body, job = .service ci → state.pending ci = some body →
      body.headD 0 = tInput → 6 ≤ body.tail.length → state.Roomy ci body.tail) :
    Small (state.perform oracle job).1 := by
  cases job with
  | accept ip port born => exact small.thin thin_acceptClient
  | ready ci gen read write =>
      unfold perform
      simp only
      split
      · exact small
      · split
        · exact small
        · cases read with
          | none => exact small.thin thin_writable
          | some data =>
              simp only
              split
              · rename_i received isReceived
                unfold receive at isReceived
                simp only at isReceived
                split at isReceived
                · cases isReceived
                · split at isReceived
                  · cases isReceived
                  · obtain rfl := Option.some.inj isReceived
                    have received : Thin state (state.edit ci fun client =>
                        { client with rx := client.rx ++ data }) := Thin.rfl.edit (Eq.refl _)
                    exact small.thin received
              · refine small.thin (Thin.trans ?_ thin_drop)
                unfold noteOverflow
                simp only
                split
                · exact Thin.rfl.log
                · exact Thin.rfl
  | service ci =>
      exact serviceOnce_small small fun body => roomy ci body rfl
  | writable ci write => exact small.thin thin_writable
  | flushAll sends => exact small
  | flush ci sent =>
      unfold perform
      simp only
      split
      · exact small
      · exact small.thin thin_flush
  | sweep now =>
      unfold perform sweepAt
      simp only
      split
      · exact small.thin (thin_sweep.congr rfl)
      · exact small
  | report now =>
      unfold perform reportAt
      simp only
      split
      · have reported : Small { state.log (.stats state.stats.stats) with lastStats := now } :=
          small
        exact reported.thin thin_reap
      · exact small.thin thin_reap

end State

namespace Loop

variable {oracle : Oracle} {loop after : Loop} {act : Act} {now : Time}

/-- INPUT records that find their partner's checksum leave no more than eight in
their sender's slots. -/
def Roomy (loop : Loop) (act : Act) : Prop :=
  ∀ dispatched ∈ loop.dispatching act, dispatched.2.headD 0 = tInput →
    6 ≤ dispatched.2.tail.length → loop.state.Roomy dispatched.1 dispatched.2.tail

instance (loop : Loop) (act : Act) : Decidable (Roomy loop act) :=
  inferInstanceAs (Decidable (∀ dispatched ∈ loop.dispatching act, _))

theorem small_next (roomy : Roomy loop act) (step : Step oracle loop act after)
    (small : loop.state.Small) : after.state.Small := by
  rcases step_cases oracle step with ⟨turn, -, -, rfl⟩ | ⟨job, rest, rfl, isNext, rfl⟩
  · exact small
  · apply State.perform_small small
    rintro ci body rfl isPending
    exact roomy (ci, body) (dispatching_service isNext isPending)

theorem small_run (run : Run (Step oracle) Roomy (start now) loop) : loop.state.Small :=
  run.invariant (fun loop => loop.state.Small) (fun _ => Nat.zero_le 8)
    fun small roomy step => small_next roomy step small

end Loop

end DragsterNet.CRelay

namespace DragsterNet.Refine

open Lib Relay
open CRelay (Slot State)

/-! ### Both relays -/

variable {oracle : Oracle} {who : Lib.Side → Conn} {slots : Lib.Side → Slot} {start server after : Server}
  {start' state after' : State}

/-- The records of a match are handled by both relays, in one order; each leaves
room in its sender's map, and its lap fits. -/
inductive Joint (oracle : Oracle) (who : Lib.Side → Conn) (slots : Lib.Side → Slot) (start : Server)
    (start' : State) : Server → State → Prop where
  | start : Joint oracle who slots start start' start start'
  | report {server after : Server} {state : State} {patience : Nat} (report : Report)
      (before : Joint oracle who slots start start' server state)
      (roomy : server.Roomy (who report.side) report.payload)
      (fits : server.lapOf (who report.side) (report.payload.getD 0 0) < 2 ^ 56)
      (handled : server.handle oracle patience (who report.side) tInput report.payload =
        .ok after) :
      Joint oracle who slots start start' after
        (state.handle oracle (slots report.side) tInput report.payload)
  | aside {server after : Server} {state after' : State}
      (before : Joint oracle who slots start start' server state)
      (aside : Server.Aside who server after) (aside' : Slots.Aside slots state after') :
      Joint oracle who slots start start' after after'

/-- Both relays have counted and filed the same for the two. -/
structure Alike (who : Lib.Side → Conn) (slots : Lib.Side → Slot) (server : Server) (state : State) :
    Prop where
  maps : ∀ side, crcEntries (state.clients (slots side)).crc =
    (server.object (who side)).crc.entries
  lap : ∀ side, (state.clients (slots side)).lap.toNat = (server.object (who side)).lap
  lastTick : ∀ side, (server.object (who side)).lastTick =
    if (state.clients (slots side)).haveLastTick then some (state.clients (slots side)).lastTick
    else none

theorem Alike.aside (alike : Alike who slots server state) (aside : Server.Aside who server after)
    (aside' : Slots.Aside slots state after') : Alike who slots after after' := by
  refine ⟨fun side => ?_, fun side => ?_, fun side => ?_⟩
  · rw [(aside side).1, (aside' side).1]
    exact alike.maps side
  · rw [(aside side).2.1, (aside' side).2.1]
    exact alike.lap side
  · rw [(aside side).2.2.1, (aside' side).2.2.1, (aside' side).2.2.2.1]
    exact alike.lastTick side

theorem assignSlots_room {cap key : Nat} {value : Byte} {book : List (Nat × Byte)}
    (room : book.length < cap) : assignSlots cap key value book = assign key value book := by
  unfold assignSlots
  split
  · rfl
  · rename_i fresh
    rw [if_neg (Nat.not_le.mpr room), assign_fresh fresh]

/-- With room in the slots, both file alike. -/
theorem post_room {books : Books Nat Byte} {entry : Posting Nat Byte}
    (room : (books entry.side).length < CRelay.crcSlots) :
    (slotStore Nat Byte limit_crcSlots).post books entry =
      (dictStore Nat Byte 8).post books entry := by
  have put : (slotStore Nat Byte limit_crcSlots).put entry.key entry.value (books entry.side) =
      (dictStore Nat Byte 8).put entry.key entry.value (books entry.side) := assignSlots_room room
  unfold Store.post
  rw [put]

/-- What a match has come to in both relays. -/
structure Level (who : Lib.Side → Conn) (slots : Lib.Side → Slot) (server : Server) (state : State) :
    Prop where
  alike : Alike who slots server state
  playing : Server.Playing who server
  playing' : Slots.Playing slots state
  small : ∀ side, (server.object (who side)).crc.size ≤ 8

theorem Level.aside (level : Level who slots server state)
    (aside : Server.Aside who server after) (aside' : Slots.Aside slots state after') :
    Level who slots after after' where
  alike := level.alike.aside aside aside'
  playing := level.playing.aside aside
  playing' := level.playing'.aside aside'
  small side := by
    rw [(aside side).1]
    exact level.small side

theorem Level.logCrc (level : Level who slots server state) (report : Report)
    (roomy : server.Roomy (who report.side) report.payload)
    (fits : server.lapOf (who report.side) (report.payload.getD 0 0) < 2 ^ 56) :
    Level who slots (server.logCrc (who report.side) report.payload)
      (state.logCrc (slots report.side) report.payload) := by
  obtain ⟨alike, playing, playing', small⟩ := level
  have lap := nextLap_same (alike.lap report.side) (alike.lastTick report.side)
    (Nat.lt_of_lt_of_le fits (by decide))
  have key : (Slots.keyOf state (slots report.side) (report.payload.getD 0 0)).toNat =
      server.lapOf (who report.side) (report.payload.getD 0 0) * 256 +
        (report.payload.getD 0 0).toNat := by
    unfold Slots.keyOf
    rw [crcKey_toNat (by rw [lap]; exact fits), lap]
    rfl
  have same : Slots.books slots state = Server.books who server := funext alike.maps
  have room : (Server.books who server report.side).length < CRelay.crcSlots :=
    Nat.lt_of_le_of_lt (small report.side) (by decide)
  have books : Slots.books slots (state.logCrc (slots report.side) report.payload) =
      Server.books who (server.logCrc (who report.side) report.payload) := by
    rw [Slots.books_logCrc playing', Server.books_logCrc playing, key, same]
    exact post_room room
  have hits : (Server.foundCrc who server report.side report.payload).isSome →
      server.lapOf (who report.side) (report.payload.getD 0 0) * 256 +
          (report.payload.getD 0 0).toNat ∈ (server.object (who report.side)).crc.keys ∨
        (server.object (who report.side)).crc.size < 8 := by
    intro isFound
    apply roomy
    rw [Server.partnerCrc_found playing, Option.isSome_map]
    exact isFound
  have self := @Server.logCrc_self who server report.side report.payload playing
  have other := @Server.logCrc_other who server report.side report.payload playing
  have self' := @Slots.logCrc_self slots state report.side report.payload playing'
  obtain ⟨crc, other', -⟩ := @Slots.logCrc_other slots state report.side report.payload playing'
  refine ⟨⟨fun side => congrFun books side, fun side => ?_, fun side => ?_⟩,
    Server.logCrc_playing playing, Slots.logCrc_playing playing', fun side => ?_⟩
  all_goals by_cases own : side = report.side
  · rw [own, self, self']
    exact lap
  · obtain rfl := Lib.Side.eq_other own
    rw [other, other']
    exact alike.lap report.side.other
  · rw [own, self, self']
    rfl
  · obtain rfl := Lib.Side.eq_other own
    rw [other, other']
    exact alike.lastTick report.side.other
  · rw [own, self]
    simp only
    split
    · rename_i isFound
      rw [Dict.size_set]
      split
      · exact small report.side
      · rename_i fresh
        exact (hits isFound).resolve_left fresh
    · exact Dict.size_trim_le
  · obtain rfl := Lib.Side.eq_other own
    rw [other]
    simp only
    split
    · exact Dict.size_erase_le.trans (small _)
    · exact small _

theorem Level.report {patience : Nat} (level : Level who slots server state) (report : Report)
    (roomy : server.Roomy (who report.side) report.payload)
    (fits : server.lapOf (who report.side) (report.payload.getD 0 0) < 2 ^ 56)
    (handled : server.handle oracle patience (who report.side) tInput report.payload =
      .ok after) :
    Level who slots after (state.handle oracle (slots report.side) tInput report.payload) := by
  have isRelay : tInput ∈ relayTypes := by decide
  unfold Server.handle at handled
  rw [if_pos isRelay] at handled
  obtain ⟨middle, forwarded, rest⟩ := bind_ok.mp handled
  rw [if_pos ⟨rfl, report.whole⟩] at rest
  obtain rfl := Except.ok.inj rest
  have handled' : state.handle oracle (slots report.side) tInput report.payload =
      (state.forward (slots report.side) tInput report.payload).logCrc (slots report.side)
        report.payload := by
    unfold State.handle
    rw [if_pos isRelay]
    exact if_pos ⟨rfl, report.whole⟩
  rw [handled']
  have aside := (@Server.forward_aside who _ _ _ _ _ forwarded).1
  apply (level.aside aside Slots.forward_aside.1).logCrc report (roomy.forward forwarded)
  rw [← Server.aside_lapOf aside]
  exact fits

theorem Level.joint (fresh : Server.Fresh who start) (fresh' : Slots.Fresh slots start')
    (alike : Alike who slots start start')
    (joint : Joint oracle who slots start start' server state) :
    Level who slots server state := by
  induction joint with
  | start =>
      refine ⟨alike, ⟨fresh.apart, fresh.linked⟩, ⟨fresh'.apart, fresh'.linked, ?_⟩, ?_⟩
      · intro side
        unfold Slots.books
        rw [fresh'.cleared]
        exact List.nodup_nil
      · intro side
        rw [fresh.cleared]
        exact Nat.zero_le 8
  | report report before roomy fits handled inductionHypothesis =>
      exact inductionHypothesis.report report roomy fits handled
  | aside before aside aside' inductionHypothesis => exact inductionHypothesis.aside aside aside'

/-- As long as a record that is compared leaves at most eight checksums in its
sender's map, no map of either relay ever holds more than nine, also before the
oldest are dropped; no slot of the C relay is overwritten; and both relays hold
the same maps for a match. -/
theorem crc_maps_bounded {now : Time} {loop : Loop} {loop' : CRelay.Loop}
    (run : Run (Loop.Step oracle) Loop.Roomy (Loop.start now) loop)
    (run' : Run (CRelay.Loop.Step oracle) CRelay.Loop.Roomy (CRelay.Loop.start now) loop')
    (fresh : Server.Fresh who start) (fresh' : Slots.Fresh slots start')
    (alike : Alike who slots start start')
    (joint : Joint oracle who slots start start' server state) :
    (∀ c key crc, (loop.state.object c).crc.size ≤ 9 ∧
      ((loop.state.object c).crc.set key crc).size ≤ 9) ∧
    (∀ ci key crc, (loop'.state.clients ci).crc.length ≤ 9 ∧
      (CRelay.crcSet (loop'.state.clients ci).crc key crc).length ≤ 9 ∧
      ¬ CRelay.crcSlots ≤ (loop'.state.clients ci).crc.length) ∧
    ∀ side, crcEntries (state.clients (slots side)).crc =
        (server.object (who side)).crc.entries ∧
      (server.object (who side)).crc.size ≤ 9 := by
  have small := Loop.small_run run
  have small' := CRelay.Loop.small_run run'
  have level := Level.joint fresh fresh' alike joint
  refine ⟨fun c key crc => ⟨(small c).trans (by decide), small.noted key crc⟩,
    fun ci key crc => ⟨(small' ci).trans (by decide), small'.noted key crc, ?_⟩,
    fun side => ⟨level.alike.maps side, (level.small side).trans (by decide)⟩⟩
  exact Nat.not_le.mpr (Nat.lt_of_le_of_lt (small' ci) (by decide))

/-- The records of `count` ticks from `first` on, with one checksum. -/
def recordsFrom (first count : Nat) : List Bytes :=
  (List.range count).map fun tick => Loop.inputFrame [BitVec.ofNat 8 (first + tick), 0, 0, 0, 7, 0]

/-- The guest's map begins to fill, and another match is under way. -/
theorem crc_maps_bounded_two : ∃ (loop start : Loop) (loop' start' : CRelay.Loop)
    (server : Server) (state : State),
    (∀ c key crc, (loop.state.object c).crc.size ≤ 9 ∧
      ((loop.state.object c).crc.set key crc).size ≤ 9) ∧
    (∀ ci key crc, (loop'.state.clients ci).crc.length ≤ 9 ∧
      (CRelay.crcSet (loop'.state.clients ci).crc key crc).length ≤ 9 ∧
      ¬ CRelay.crcSlots ≤ (loop'.state.clients ci).crc.length) ∧
    (∀ side, crcEntries (state.clients (Slots.players 0 1 side)).crc =
        (server.object (Server.players 0 1 side)).crc.entries ∧
      (server.object (Server.players 0 1 side)).crc.size ≤ 9) ∧
    (loop.state.object 1).crc.size = 8 ∧ (loop'.state.clients 1).crc.length = 8 ∧
    Joint plain (Server.players 0 1) (Slots.players 0 1) start.state start'.state server state := by
  have outcome : ((Loop.inMatch ++ Loop.chunk 0 (recordsFrom 0 8) 2 ++
      Loop.chunk 1 (recordsFrom 0 8) 2).foldlM (guarded (Loop.next plain) Loop.Roomy)
        (Loop.start 0)).map (fun loop => (loop.state.object 1).crc.size) = some 8 := by
    decide +kernel
  have outcome' : ((CRelay.Loop.accepting 2 0 ++ CRelay.Loop.chunk 0 [helloFrame 0x41 0x41] 2 ++
      CRelay.Loop.chunk 1 [helloFrame 0x42 0x42] 2 ++ CRelay.Loop.chunk 0 (recordsFrom 0 8) 2 ++
      CRelay.Loop.chunk 1 (recordsFrom 0 8) 2).foldlM
        (guarded (CRelay.Loop.next plain) CRelay.Loop.Roomy) (CRelay.Loop.start 0)).map
          (fun loop => (loop.state.clients 1).crc.length) = some 8 := by
    decide +kernel
  have begins : ((Loop.inMatch.foldlM (Loop.next plain) (Loop.start 0)).bind fun start =>
      ((start.state.handle plain 0 0 tInput (reportOf .one 1).payload).toOption.map fun _ =>
        (begun (Server.players 0 1) start.state,
          decide (start.state.Roomy 0 (reportOf .one 1).payload ∧ start.state.lapOf 0 5 < 2 ^ 56 ∧
            ∀ side, (start.state.object (Server.players 0 1 side)).lap = 0 ∧
              (start.state.object (Server.players 0 1 side)).lastTick = none)))) =
      some (true, true) := by decide +kernel
  have begins' : ((CRelay.Loop.accepting 2 0 ++ CRelay.Loop.chunk 0 [helloFrame 0x41 0x41] 2 ++
      CRelay.Loop.chunk 1 [helloFrame 0x42 0x42] 2).foldlM (CRelay.Loop.next plain)
        (CRelay.Loop.start 0)).map (fun loop => decide (
      (∀ side, (loop.state.clients (Slots.players 0 1 side)).partner =
        some (Slots.players 0 1 side.other)) ∧
      (∀ side, (loop.state.clients (Slots.players 0 1 side)).crc = []) ∧
      ∀ side, (loop.state.clients (Slots.players 0 1 side)).lap = 0 ∧
        (loop.state.clients (Slots.players 0 1 side)).haveLastTick = false)) = some true := by
    decide +kernel
  obtain ⟨loop, executed, size⟩ := Option.map_eq_some_iff.mp outcome
  obtain ⟨loop', executed', length⟩ := Option.map_eq_some_iff.mp outcome'
  obtain ⟨start, -, isBegun⟩ := Option.bind_eq_some_iff.mp begins
  obtain ⟨server, handled, isFresh⟩ := Option.map_eq_some_iff.mp isBegun
  obtain ⟨start', -, isBegun'⟩ := Option.map_eq_some_iff.mp begins'
  obtain ⟨isFresh, conditions⟩ := Prod.mk.inj isFresh
  obtain ⟨roomy, fits, counted⟩ := of_decide_eq_true conditions
  obtain ⟨linked, cleared, counted'⟩ := of_decide_eq_true isBegun'
  have fresh := begun_fresh isFresh
  have fresh' : Slots.Fresh (Slots.players 0 1) start'.state := ⟨by decide, linked, cleared⟩
  have alike : Alike (Server.players 0 1) (Slots.players 0 1) start.state start'.state := by
    refine ⟨fun side => ?_, fun side => ?_, fun side => ?_⟩
    · rw [cleared, fresh.cleared]
      rfl
    · rw [(counted side).1, (counted' side).1]
      rfl
    · rw [(counted side).2, (counted' side).2]
      rfl
  have joint := @Joint.report plain (Server.players 0 1) (Slots.players 0 1) start.state
    start'.state start.state server start'.state 0 (reportOf .one 1) .start roomy fits
    (toOption_ok handled)
  obtain ⟨python, c, maps⟩ := crc_maps_bounded (Run.of_guarded executed)
    (Run.of_guarded executed') fresh fresh' alike joint
  exact ⟨loop, start, loop', start', server, _, python, c, maps, size, length, joint⟩

/-- The guest reports seventeen ticks after the host: its map grows to seventeen
checksums in Python, and in C the sixteenth slot is overwritten. -/
theorem crc_maps_overflow : ∃ (loop : Loop) (loop' : CRelay.Loop),
    Run (Loop.Step plain) always (Loop.start 0) loop ∧
      Run (CRelay.Loop.Step plain) always (CRelay.Loop.start 0) loop' ∧
      (loop.state.object 1).crc.keys = List.range 17 ∧
      (crcEntries (loop'.state.clients 1).crc).map Prod.fst = List.range 15 ++ [16] := by
  have outcome : ((Loop.inMatch ++ Loop.chunk 0 (recordsFrom 0 8) 2 ++
      Loop.chunk 1 (recordsFrom 0 8) 2 ++ Loop.chunk 0 (recordsFrom 8 8) 2 ++
      Loop.chunk 1 (recordsFrom 8 8) 2 ++ Loop.chunk 0 (recordsFrom 16 1) 2 ++
      Loop.chunk 1 (recordsFrom 16 1) 2).foldlM (Loop.next plain) (Loop.start 0)).map
        (fun loop => (loop.state.object 1).crc.keys) = some (List.range 17) := by
    decide +kernel
  have outcome' : ((CRelay.Loop.accepting 2 0 ++ CRelay.Loop.chunk 0 [helloFrame 0x41 0x41] 2 ++
      CRelay.Loop.chunk 1 [helloFrame 0x42 0x42] 2 ++ CRelay.Loop.chunk 0 (recordsFrom 0 8) 2 ++
      CRelay.Loop.chunk 1 (recordsFrom 0 8) 2 ++ CRelay.Loop.chunk 0 (recordsFrom 8 8) 2 ++
      CRelay.Loop.chunk 1 (recordsFrom 8 8) 2 ++ CRelay.Loop.chunk 0 (recordsFrom 16 1) 2 ++
      CRelay.Loop.chunk 1 (recordsFrom 16 1) 2).foldlM (CRelay.Loop.next plain)
        (CRelay.Loop.start 0)).map
          (fun loop => (crcEntries (loop.state.clients 1).crc).map Prod.fst) =
      some (List.range 15 ++ [16]) := by
    decide +kernel
  obtain ⟨loop, executed, keys⟩ := Option.map_eq_some_iff.mp outcome
  obtain ⟨loop', executed', keys'⟩ := Option.map_eq_some_iff.mp outcome'
  exact ⟨loop, loop', Run.of_foldlM executed, Run.of_foldlM executed', keys, keys'⟩

end DragsterNet.Refine
