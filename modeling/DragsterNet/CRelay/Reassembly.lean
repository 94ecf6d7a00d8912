/-
Module: DragsterNet.CRelay.Reassembly
Purpose: The frames that the C relay takes off a connection's stream, and the
  fixed buffers it takes them through.
Trusted boundary: none
Main exports: State.marks, State.Write, Loop.Framed, Loop.framed_run
-/
import DragsterNet.CRelay.Posts
import DragsterNet.Relay.Reassembly

namespace DragsterNet.CRelay

open Lib Relay

/-- Who holds a slot and what its receive buffer holds is as before; nobody comes
back to life. -/
structure SameIntake (one two : Client) : Prop where
  rx : two.rx = one.rx
  holds : two.holds = one.holds
  inUse : two.inUse = one.inUse
  dead : one.dead = true → two.dead = true

theorem sameIntake_gentle : Gentle SameIntake where
  refl _ := ⟨rfl, rfl, rfl, id⟩
  trans one two :=
    ⟨two.rx.trans one.rx, two.holds.trans one.holds, two.inUse.trans one.inUse,
      two.dead ∘ one.dead⟩
  tx _ _ _ := ⟨rfl, rfl, rfl, id⟩
  tv _ _ := ⟨rfl, rfl, rfl, id⟩
  name _ _ := ⟨rfl, rfl, rfl, id⟩
  alone _ := ⟨rfl, rfl, rfl, id⟩
  linked _ _ _ _ := ⟨rfl, rfl, rfl, id⟩
  fresh _ _ := ⟨rfl, rfl, rfl, id⟩
  logged _ _ _ _ := ⟨rfl, rfl, rfl, id⟩
  dead _ := ⟨rfl, rfl, rfl, fun _ => rfl⟩
  closed _ := ⟨rfl, rfl, rfl, id⟩

namespace State

variable {oracle : Oracle} {state after : State} {ci other : Slot} {c : Conn}
  {tape : List Mark}

/-- The slot is in use, and its client has not been dropped. -/
def Live (state : State) (ci : Slot) : Prop :=
  (state.clients ci).inUse = true ∧ (state.clients ci).dead = false

/-- What a piece of the loop leaves on the record. -/
def marks (state : State) : Job → List Mark
  | .ready ci gen (some data) _ =>
      if (state.clients ci).inUse = false ∨ (state.clients ci).gen ≠ gen then []
      else if (state.clients ci).dead then []
      else if data = [] then []
      else [.chunk (state.conn ci) data]
  | .service ci => turnMarks (state.conn ci) (state.clients ci).rx
  | _ => []

/-! ### The writes to the fixed buffers -/

/-- The arrays that a frame goes through: the receive buffer of a slot, the body
in `service`, what `handle` relays and what `send_frame` builds. -/
inductive Buffer where
  | rxbuf (ci : Slot)
  | body
  | out
  | buf
deriving DecidableEq

def Buffer.size : Buffer → Nat
  | .rxbuf _ => rxCap
  | .body => 201
  | .out => frameMax
  | .buf => frameMax

/-- A write of `count` bytes from `start` on. -/
structure Write where
  buffer : Buffer
  start : Nat
  count : Nat
deriving DecidableEq

def Write.InRange (write : Write) : Prop := write.start + write.count ≤ write.buffer.size

/-- `memcpy` and `memset` in `handle`, for a frame that is relayed. -/
def outWrites (state : State) (ci : Slot) (ftype : Byte) (payload : Bytes) : List Write :=
  if ftype ∈ relayTypes ∧ (state.clients ci).partner.isSome then
    [⟨.out, 0, payload.length⟩, ⟨.out, payload.length, gamePayload - payload.length⟩]
  else []

/-- A piece of the loop: `recv` fills the receive buffer, `service` takes the
body out of it and moves up what is left, `handle` pads what it relays, and
`send_frame` builds what is posted. -/
def writes (oracle : Oracle) (state : State) (job : Job) : List Write :=
  (match job with
  | .ready ci gen (some data) _ =>
      if (state.clients ci).inUse = false ∨ (state.clients ci).gen ≠ gen then []
      else if (state.clients ci).dead then []
      else if (state.receive ci data).isSome then
        [⟨.rxbuf ci, (state.clients ci).rx.length, data.length⟩]
      else []
  | .service ci =>
      match readFrame (state.clients ci).rx with
      | .whole body rest =>
          [⟨.body, 0, body.length⟩, ⟨.rxbuf ci, 0, rest.length⟩] ++
            state.outWrites ci (body.headD 0) body.tail
      | _ => []
  | _ => []) ++ (state.posts oracle job).map fun post => ⟨.buf, 0, post.2⟩

/-- What a frame of at most 200 bytes writes to the scratch buffers is in
range. -/
theorem outWrites_inRange {ftype : Byte} {payload : Bytes} {write : Write}
    (short : payload.length + 1 ≤ 200) (member : write ∈ state.outWrites ci ftype payload) :
    write.InRange := by
  unfold outWrites at member
  split at member
  · unfold Write.InRange
    rcases List.mem_cons.mp member with rfl | later
    · change 0 + payload.length ≤ 256
      omega
    · rw [List.mem_singleton.mp later]
      change payload.length + (6 - payload.length) ≤ 256
      omega
  · cases member

/-- The buffers are long enough for a receive buffer within its capacity. -/
theorem writes_inRange {job : Job} {write : Write}
    (within : ∀ ci, (state.clients ci).rx.length ≤ rxCap)
    (member : write ∈ state.writes oracle job) : write.InRange := by
  unfold writes at member
  rcases List.mem_append.mp member with own | built
  · cases job with
    | ready slot gen read _ =>
        cases read with
        | none => cases own
        | some data =>
            simp only at own
            split at own
            · cases own
            split at own
            · cases own
            split at own
            · rename_i fits
              rw [List.mem_singleton.mp own]
              unfold receive at fits
              simp only at fits
              split at fits
              · cases fits
              split at fits
              · cases fits
              · rename_i room
                exact Nat.not_lt.mp room
            · cases own
    | service slot =>
        simp only at own
        split at own
        · rename_i body rest read
          obtain ⟨n, fair, length, isRx⟩ := Relay.Server.readFrame_whole_iff.mp read
          have size := congrArg List.length isRx
          rw [List.length_cons, List.length_append] at size
          rcases List.mem_append.mp own with moved | relayed
          · rcases List.mem_cons.mp moved with rfl | later
            · change 0 + body.length ≤ 201
              omega
            · rw [List.mem_singleton.mp later]
              have capacity := within slot
              change 0 + rest.length ≤ rxCap
              omega
          · apply outWrites_inRange _ relayed
            rw [List.length_tail]
            omega
        · cases own
    | accept | writable | flushAll | flush | sweep | report => cases own
  · obtain ⟨post, isPost, rfl⟩ := List.mem_map.mp built
    change 0 + post.2 ≤ frameMax
    rw [Nat.zero_add]
    exact posts_small isPost

/-! ### Who holds what -/

/-- A client that is dropped is dead, until its slot is freed. -/
theorem dead_drop : ((state.drop oracle ci).clients ci).dead = true := by
  unfold drop
  split
  · assumption
  · have departs := @each_depart oracle
      (state.edit ci fun client => { client with dead := true }) ci _ sameIntake_gentle
    apply (departs.clients ci).dead
    rw [edit_self]

/-- The receive buffers and their holders are as before, and nobody has come to
life. -/
structure Calm (state after : State) : Prop where
  rx : ∀ ci, (after.clients ci).rx = (state.clients ci).rx
  holds : ∀ ci, (after.clients ci).holds = (state.clients ci).holds
  inUse : ∀ ci, (after.clients ci).inUse = true → (state.clients ci).inUse = true
  fewer : ∀ ci, after.Live ci → state.Live ci
  bad : after.stats.badFrames = state.stats.badFrames
  conns : after.conns = state.conns

theorem Each.calm (each : Each SameIntake state after) : Calm state after where
  rx ci := (each.clients ci).rx
  holds ci := (each.clients ci).holds
  inUse ci used := (each.clients ci).inUse ▸ used
  fewer ci live := by
    refine ⟨(each.clients ci).inUse ▸ live.1, ?_⟩
    by_contra dead
    have dead' := (each.clients ci).dead (Bool.eq_true_of_not_eq_false dead)
    rw [live.2] at dead'
    cases dead'
  bad := each.bad
  conns := each.conns

theorem calm_rfl : Calm state state := (each_rfl sameIntake_gentle).calm

theorem Calm.trans {middle : State} (one : Calm state middle) (two : Calm middle after) :
    Calm state after where
  rx ci := (two.rx ci).trans (one.rx ci)
  holds ci := (two.holds ci).trans (one.holds ci)
  inUse ci used := one.inUse ci (two.inUse ci used)
  fewer ci live := one.fewer ci (two.fewer ci live)
  bad := two.bad.trans one.bad
  conns := two.conns.trans one.conns

theorem calm_reap : Calm state state.reap := by
  have cases : ∀ ci, state.reap.clients ci = state.clients ci ∨
      (state.clients ci).dead = true ∧ state.reap.clients ci =
        { state.clients ci with inUse := false, gen := (state.clients ci).gen + 1 } := by
    intro ci
    unfold reap
    simp only
    split
    · rename_i freed
      exact Or.inr ⟨(Bool.and_eq_true_iff.mp freed).2, rfl⟩
    · exact Or.inl rfl
  refine ⟨?_, ?_, ?_, ?_, rfl, rfl⟩
  · intro ci
    rcases cases ci with same | ⟨-, freed⟩
    · rw [same]
    · rw [freed]
  · intro ci
    rcases cases ci with same | ⟨-, freed⟩
    · rw [same]
    · rw [freed]
  · intro ci used
    rcases cases ci with same | ⟨-, freed⟩
    · rwa [same] at used
    · rw [freed] at used
      cases used
  · intro ci live
    unfold Live at live ⊢
    rcases cases ci with same | ⟨-, freed⟩
    · rwa [same] at live
    · rw [freed] at live
      cases live.1

theorem calm_reportAt {now : Time} : Calm state (state.reportAt now) := by
  unfold reportAt
  split
  · exact ⟨fun _ => rfl, fun _ => rfl, fun _ used => used, fun _ live => live, rfl, rfl⟩
  · exact calm_rfl

/-- What accepting does: nothing but counting, or it seats the connection in a
slot that is not in use. -/
theorem accept_cases {ip : Ip} {port : Nat} {born : Time} :
    (state.acceptClient ip port born).conns = state.conns + 1 ∧
      (state.acceptClient ip port born).stats.badFrames = state.stats.badFrames ∧
      ((state.acceptClient ip port born).clients = state.clients ∨
        ∃ ci client, (state.clients ci).inUse = false ∧
          (state.acceptClient ip port born).clients =
            Function.update state.clients ci client ∧
          client.rx = [] ∧ client.holds = some state.conns) := by
  unfold acceptClient
  simp only
  split
  · exact ⟨rfl, rfl, Or.inl rfl⟩
  split
  · exact ⟨rfl, rfl, Or.inl rfl⟩
  split
  · exact ⟨rfl, rfl, Or.inl rfl⟩
  · rename_i ci found
    have vacant : (state.clients ci).inUse = false :=
      @freeSlot_vacant { state with conns := state.conns + 1 } ci found
    exact ⟨rfl, rfl, Or.inr ⟨ci, _, vacant, rfl, rfl, rfl⟩⟩

end State

namespace Loop

variable {oracle : Oracle} {loop after : Loop} {act : Act} {now : Time} {c : Conn}
  {tape : List Mark} {state last : State} {job : Job} {rest more : List Job}

def marks (loop : Loop) : Act → List Mark
  | .turn _ => []
  | .work =>
      match loop.jobs with
      | [] => []
      | job :: _ => loop.state.marks job

/-- The invariant of a recorded run.  At most one client is being served, and its
service comes first. -/
structure Reading (loop : Loop) (tape : List Mark) : Prop where
  below : ∀ ci c, (loop.state.clients ci).holds = some c → c < loop.state.conns
  apart : ∀ one two c, (loop.state.clients one).holds = some c →
    (loop.state.clients two).holds = some c → one = two
  held : ∀ ci, (loop.state.clients ci).inUse = true →
    ∃ c, (loop.state.clients ci).holds = some c
  unheard : ∀ mark ∈ tape, mark.conn < loop.state.conns
  settled : ∀ ci c, (loop.state.clients ci).holds = some c → Job.service ci ∉ loop.jobs →
    Settled tape c (loop.state.clients ci).rx (loop.state.Live ci)
  serving : ∀ ci c, (loop.state.clients ci).holds = some c → Job.service ci ∈ loop.jobs →
    Serving tape c (loop.state.clients ci).rx
  past : ∀ c, (∀ ci, (loop.state.clients ci).holds ≠ some c) →
    ∃ rx, Settled tape c rx False
  tenant : ∀ ci, Job.service ci ∈ loop.jobs → ∃ c, (loop.state.clients ci).holds = some c
  first : ∀ ci, Job.service ci ∉ loop.jobs.tail
  small : ∀ ci gen data write, Job.ready ci gen (some data) write ∈ loop.jobs →
    data.length ≤ Server.recvSize
  within : ∀ ci, (loop.state.clients ci).rx.length ≤ rxCap
  counted : loop.state.stats.badFrames = BitVec.ofNat 32 (allBad tape)

/-- A connection nothing has been recorded of. -/
theorem settled_unheard {live : Prop} (unheard : ∀ mark ∈ tape, mark.conn ≠ c) :
    Settled tape c [] live := by
  have settled := (@Relay.Loop.settled_nil c live).others unheard
  rwa [List.nil_append] at settled

theorem reading_start : Reading (start now) [] where
  below _ _ absurd := by cases absurd
  apart _ _ _ absurd := by cases absurd
  held _ absurd := by cases absurd
  unheard _ member := absurd member List.not_mem_nil
  settled _ _ absurd := by cases absurd
  serving _ _ absurd := by cases absurd
  past _ _ := ⟨[], Relay.Loop.settled_nil⟩
  tenant _ member := absurd member List.not_mem_nil
  first _ := List.not_mem_nil
  small _ _ _ _ member := absurd member List.not_mem_nil
  within _ := Nat.zero_le _
  counted := rfl

/-- No job is a chunk or a frame. -/
def Idle (jobs : List Job) : Prop :=
  (∀ ci, Job.service ci ∉ jobs) ∧ ∀ ci gen data write, Job.ready ci gen (some data) write ∉ jobs

theorem reading_calm (reading : Reading ⟨state, job :: rest⟩ tape)
    (notService : ∀ ci, job ≠ .service ci) (calm : State.Calm state last)
    (idle : Idle more) : Reading ⟨last, more ++ rest⟩ tape := by
  have quiet : ∀ ci, Job.service ci ∉ rest := reading.first
  have before : ∀ ci, Job.service ci ∉ job :: rest := by
    intro ci member
    rcases List.mem_cons.mp member with isJob | old
    · exact notService ci isJob.symm
    · exact quiet ci old
  have none_ : ∀ ci, Job.service ci ∉ more ++ rest := by
    intro ci member
    rcases List.mem_append.mp member with new | old
    · exact idle.1 ci new
    · exact quiet ci old
  refine ⟨?_, ?_, ?_, ?_, ?_, ?_, ?_, ?_, ?_, ?_, ?_, calm.bad.trans reading.counted⟩
  · intro ci c holds
    rw [calm.holds] at holds
    rw [calm.conns]
    exact reading.below ci c holds
  · intro one two c first second
    rw [calm.holds] at first second
    exact reading.apart one two c first second
  · intro ci used
    rw [calm.holds]
    exact reading.held ci (calm.inUse ci used)
  · rw [calm.conns]
    exact reading.unheard
  · intro ci c holds _
    rw [calm.holds] at holds
    rw [calm.rx]
    exact (reading.settled ci c holds (before ci)).fewer (calm.fewer ci)
  · exact fun ci c _ member => absurd member (none_ ci)
  · intro c unheld
    apply reading.past c
    intro ci holds
    exact unheld ci ((calm.holds ci).trans holds)
  · exact fun ci member => absurd member (none_ ci)
  · exact fun ci member => none_ ci (List.mem_of_mem_tail member)
  · intro ci gen data write member
    rcases List.mem_append.mp member with new | old
    · exact absurd new (idle.2 ci gen data write)
    · exact reading.small ci gen data write (List.mem_cons_of_mem _ old)
  · intro ci
    rw [calm.rx]
    exact reading.within ci

/-- A connection comes.  Whoever held its slot before holds it no longer. -/
theorem reading_accept {ip : Ip} {port : Nat} {born : Time}
    (reading : Reading ⟨state, .accept ip port born :: rest⟩ tape) :
    Reading ⟨state.acceptClient ip port born, rest⟩ tape := by
  have quiet : ∀ ci, Job.service ci ∉ rest := reading.first
  have before : ∀ ci, Job.service ci ∉ Job.accept ip port born :: rest := by
    intro ci member
    rcases List.mem_cons.mp member with absurd | old
    · cases absurd
    · exact quiet ci old
  obtain ⟨conns, bad, ways⟩ := @State.accept_cases state ip port born
  have small : ∀ ci gen data write, Job.ready ci gen (some data) write ∈ rest →
      data.length ≤ Server.recvSize := fun ci gen data write member =>
    reading.small ci gen data write (List.mem_cons_of_mem _ member)
  have unheard : ∀ mark ∈ tape, mark.conn < (state.acceptClient ip port born).conns := by
    intro mark member
    rw [conns]
    exact Nat.lt_succ_of_lt (reading.unheard mark member)
  have counted : (state.acceptClient ip port born).stats.badFrames =
      BitVec.ofNat 32 (allBad tape) := bad.trans reading.counted
  generalize state.acceptClient ip port born = after at conns bad ways unheard counted ⊢
  have first : ∀ ci, Job.service ci ∉ rest.tail := fun ci member =>
    quiet ci (List.mem_of_mem_tail member)
  rcases ways with clients | ⟨slot, client, vacant, clients, empty, isNew⟩
  · refine ⟨?_, ?_, ?_, unheard, ?_, ?_, ?_, ?_, first, small, ?_, counted⟩
    · intro ci c holds
      rw [clients] at holds
      rw [conns]
      exact Nat.lt_succ_of_lt (reading.below ci c holds)
    · rw [clients]
      exact reading.apart
    · rw [clients]
      exact reading.held
    · intro ci c holds _
      rw [clients] at holds
      unfold State.Live
      rw [clients]
      exact reading.settled ci c holds (before ci)
    · exact fun ci c _ member => absurd member (quiet ci)
    · rw [clients]
      exact reading.past
    · exact fun ci member => absurd member (quiet ci)
    · rw [clients]
      exact reading.within
  have self : after.clients slot = client := by rw [clients, Function.update_self]
  have others : ∀ ci, ci ≠ slot → after.clients ci = state.clients ci := by
    intro ci other
    rw [clients, Function.update_of_ne other]
  have fresh : ∀ ci, (state.clients ci).holds ≠ some state.conns := by
    intro ci holds
    exact absurd (reading.below ci _ holds) (Nat.lt_irrefl _)
  refine ⟨?_, ?_, ?_, unheard, ?_, ?_, ?_, ?_, first, small, ?_, counted⟩
  · intro ci c holds
    rw [conns]
    by_cases here : ci = slot
    · rw [here, self, isNew] at holds
      obtain rfl := Option.some.inj holds
      exact Nat.lt_succ_self _
    · rw [others ci here] at holds
      exact Nat.lt_succ_of_lt (reading.below ci c holds)
  · intro one two c first second
    by_cases here : one = slot
    · rw [here, self, isNew] at first
      obtain rfl := Option.some.inj first
      by_contra apart
      have there : two ≠ slot := fun same => apart (here.trans same.symm)
      rw [others two there] at second
      exact fresh two second
    · rw [others one here] at first
      by_cases there : two = slot
      · rw [there, self, isNew] at second
        obtain rfl := Option.some.inj second
        exact absurd first (fresh one)
      · rw [others two there] at second
        exact reading.apart one two c first second
  · intro ci used
    by_cases here : ci = slot
    · rw [here, self]
      exact ⟨_, isNew⟩
    · rw [others ci here] at used ⊢
      exact reading.held ci used
  · intro ci c holds _
    by_cases here : ci = slot
    · subst here
      rw [self] at holds ⊢
      rw [isNew] at holds
      obtain rfl := Option.some.inj holds
      rw [empty]
      apply settled_unheard
      intro mark member same
      exact absurd (reading.unheard mark member) (same ▸ Nat.lt_irrefl _)
    · rw [others ci here] at holds
      unfold State.Live
      rw [others ci here]
      exact reading.settled ci c holds (before ci)
  · exact fun ci c _ member => absurd member (quiet ci)
  · intro c unheld
    by_cases wasHeld : ∃ ci, (state.clients ci).holds = some c
    · obtain ⟨ci, holds⟩ := wasHeld
      exact ⟨_, (reading.settled ci c holds (before ci)).fewer False.elim⟩
    · exact reading.past c fun ci holds => wasHeld ⟨ci, holds⟩
  · exact fun ci member => absurd member (quiet ci)
  · intro ci
    by_cases here : ci = slot
    · rw [here, self, empty]
      exact Nat.zero_le _
    · rw [others ci here]
      exact reading.within ci

/-- A chunk comes in, and is served next; it always fits the receive buffer. -/
theorem reading_chunk {ci : Slot} {gen : BitVec 32} {data : Bytes}
    {write : Option Relay.Sent}
    (reading : Reading ⟨state, .ready ci gen (some data) write :: rest⟩ tape)
    (live : state.Live ci) :
    (state.clients ci).rx.length + data.length ≤ rxCap ∧
      Reading ⟨state.edit ci fun client => { client with rx := client.rx ++ data },
        [.service ci, .writable ci write] ++ rest⟩
        (tape ++ [.chunk (state.conn ci) data]) := by
  have quiet : ∀ slot, Job.service slot ∉ rest := reading.first
  have before : ∀ slot, Job.service slot ∉ Job.ready ci gen (some data) write :: rest := by
    intro slot member
    rcases List.mem_cons.mp member with absurd | old
    · cases absurd
    · exact quiet slot old
  obtain ⟨c, holds⟩ := reading.held ci live.1
  have isConn : state.conn ci = c := by
    have holds' : (state.clients ci).holds = some c := holds
    unfold State.conn
    rw [holds']
    rfl
  have settled := reading.settled ci c holds (before ci)
  have sound : ¬ Server.Broken (state.clients ci).rx := fun broken =>
    (settled.broken broken).2 live
  have short := short_of_stuck settled.stuck sound
  have chunk := reading.small ci gen data write List.mem_cons_self
  have fits : (state.clients ci).rx.length + data.length ≤ rxCap :=
    (Nat.add_le_add short chunk).trans (by decide)
  refine ⟨fits, ?_⟩
  rw [isConn]
  have self : ((state.edit ci fun client =>
      { client with rx := client.rx ++ data }).clients ci) =
        { state.clients ci with rx := (state.clients ci).rx ++ data } := State.edit_self
  have others : ∀ slot, slot ≠ ci → ((state.edit ci fun client =>
      { client with rx := client.rx ++ data }).clients slot) = state.clients slot :=
    fun slot other => State.edit_of_ne other
  have held : ∀ slot, ((state.edit ci fun client =>
      { client with rx := client.rx ++ data }).clients slot).holds =
        (state.clients slot).holds := by
    intro slot
    by_cases here : slot = ci
    · rw [here, self]
    · rw [others slot here]
  refine ⟨?_, ?_, ?_, ?_, ?_, ?_, ?_, ?_, ?_, ?_, ?_, ?_⟩
  · intro slot d holds'
    rw [held] at holds'
    exact reading.below slot d holds'
  · intro one two d first second
    rw [held] at first second
    exact reading.apart one two d first second
  · intro slot used
    rw [held]
    by_cases here : slot = ci
    · exact here ▸ ⟨c, holds⟩
    · rw [others slot here] at used
      exact reading.held slot used
  · intro mark member
    rcases List.mem_append.mp member with old | new
    · exact reading.unheard mark old
    · rw [List.mem_singleton.mp new]
      exact reading.below ci c holds
  · intro slot d holds' unserved
    have apart : slot ≠ ci := by
      rintro rfl
      exact unserved List.mem_cons_self
    rw [held] at holds'
    unfold State.Live
    rw [others slot apart]
    apply (reading.settled slot d holds' (before slot)).other
    rintro rfl
    exact apart (reading.apart slot ci _ holds' holds)
  · intro slot d holds' served
    have here : slot = ci := by
      rcases List.mem_cons.mp served with same | old
      · exact Job.service.inj same
      · rcases List.mem_cons.mp old with absurd | old
        · cases absurd
        · exact absurd old (quiet slot)
    subst here
    rw [held, holds] at holds'
    obtain rfl := Option.some.inj holds'
    rw [self]
    exact settled.chunk live data
  · intro d unheld
    have unheld' : ∀ slot, (state.clients slot).holds ≠ some d := by
      intro slot holds'
      exact unheld slot ((held slot).trans holds')
    obtain ⟨rx, past⟩ := reading.past d unheld'
    refine ⟨rx, past.other ?_⟩
    rintro rfl
    exact unheld' ci holds
  · intro slot served
    rw [held]
    rcases List.mem_cons.mp served with same | old
    · exact (Job.service.inj same) ▸ ⟨c, holds⟩
    · rcases List.mem_cons.mp old with absurd | old
      · cases absurd
      · exact absurd old (quiet slot)
  · intro slot member
    rcases List.mem_cons.mp member with absurd | old
    · cases absurd
    · exact quiet slot old
  · intro slot gen' data' write' member
    rcases List.mem_cons.mp member with absurd | old
    · cases absurd
    · rcases List.mem_cons.mp old with absurd | old
      · cases absurd
      · exact reading.small slot gen' data' write' (List.mem_cons_of_mem _ old)
  · intro slot
    by_cases here : slot = ci
    · rw [here, self, List.length_append]
      exact fits
    · rw [others slot here]
      exact reading.within slot
  · have count : allBad (tape ++ [.chunk c data]) = allBad tape := by
      simp [allBad, List.countP_append]
    rw [count]
    exact reading.counted

/-- A turn of the loop in `service` for the holder of `ci`, by what it comes to
for it. -/
theorem reading_served {ci : Slot} {again : Bool} {marks : List Mark}
    (reading : Reading ⟨state, .service ci :: rest⟩ tape)
    (holds : (state.clients ci).holds = some c)
    (others : ∀ slot, slot ≠ ci → (last.clients slot).rx = (state.clients slot).rx)
    (held : ∀ slot, (last.clients slot).holds = (state.clients slot).holds)
    (inUse : ∀ slot, (last.clients slot).inUse = true → (state.clients slot).inUse = true)
    (fewer : ∀ slot, last.Live slot → state.Live slot) (conns : last.conns = state.conns)
    (about : ∀ mark ∈ marks, mark.conn = c)
    (own : if again then Serving (tape ++ marks) c (last.clients ci).rx
      else Settled (tape ++ marks) c (last.clients ci).rx (last.Live ci))
    (less : (last.clients ci).rx.length ≤ (state.clients ci).rx.length)
    (counted : last.stats.badFrames = BitVec.ofNat 32 (allBad (tape ++ marks))) :
    Reading ⟨last, (if again then [.service ci] else []) ++ rest⟩ (tape ++ marks) := by
  have quiet : ∀ slot, Job.service slot ∉ rest := reading.first
  have elsewhere : ∀ d, d ≠ c → ∀ mark ∈ marks, mark.conn ≠ d := by
    intro d apart mark member
    rw [about mark member]
    exact apart.symm
  refine ⟨?_, ?_, ?_, ?_, ?_, ?_, ?_, ?_, ?_, ?_, ?_, counted⟩
  · intro slot d holds'
    rw [held] at holds'
    rw [conns]
    exact reading.below slot d holds'
  · intro one two d first second
    rw [held] at first second
    exact reading.apart one two d first second
  · intro slot used
    rw [held]
    exact reading.held slot (inUse slot used)
  · intro mark member
    rw [conns]
    rcases List.mem_append.mp member with old | new
    · exact reading.unheard mark old
    · rw [about mark new]
      exact reading.below ci c holds
  · intro slot d holds' unserved
    rw [held] at holds'
    by_cases here : slot = ci
    · subst here
      rw [holds] at holds'
      obtain rfl := Option.some.inj holds'
      cases again with
      | true => exact absurd List.mem_cons_self unserved
      | false => exact own
    · have before := reading.settled slot d holds' (by
        intro member
        rcases List.mem_cons.mp member with same | old
        · exact here (Job.service.inj same)
        · exact quiet slot old)
      rw [others slot here]
      apply (before.fewer (fewer slot)).others
      apply elsewhere
      rintro rfl
      exact here (reading.apart slot ci _ holds' holds)
  · intro slot d holds' served
    rw [held] at holds'
    cases again with
    | true =>
        rcases List.mem_cons.mp served with same | old
        · obtain rfl := Job.service.inj same
          rw [holds] at holds'
          obtain rfl := Option.some.inj holds'
          exact own
        · exact absurd old (quiet slot)
    | false => exact absurd served (quiet slot)
  · intro d unheld
    have unheld' : ∀ slot, (state.clients slot).holds ≠ some d := fun slot holds' =>
      unheld slot ((held slot).trans holds')
    obtain ⟨rx, past⟩ := reading.past d unheld'
    refine ⟨rx, past.others ?_⟩
    apply elsewhere
    rintro rfl
    exact unheld' ci holds
  · intro slot served
    rw [held]
    cases again with
    | true =>
        rcases List.mem_cons.mp served with same | old
        · exact (Job.service.inj same) ▸ ⟨c, holds⟩
        · exact absurd old (quiet slot)
    | false => exact absurd served (quiet slot)
  · intro slot member
    cases again with
    | true => exact quiet slot member
    | false => exact quiet slot (List.mem_of_mem_tail member)
  · intro slot gen data write member
    cases again with
    | true =>
        rcases List.mem_cons.mp member with absurd | old
        · cases absurd
        · exact reading.small slot gen data write (List.mem_cons_of_mem _ old)
    | false => exact reading.small slot gen data write (List.mem_cons_of_mem _ member)
  · intro slot
    by_cases here : slot = ci
    · rw [here]
      exact less.trans (reading.within ci)
    · rw [others slot here]
      exact reading.within slot

theorem reading_service {ci : Slot}
    (reading : Reading ⟨state, .service ci :: rest⟩ tape) :
    Reading ⟨(state.serviceOnce oracle ci).1,
        (if (state.serviceOnce oracle ci).2 then [.service ci] else []) ++ rest⟩
      (tape ++ state.marks (.service ci)) := by
  obtain ⟨c, holds⟩ := reading.tenant ci List.mem_cons_self
  have holds' : (state.clients ci).holds = some c := holds
  have isConn : state.conn ci = c := by
    unfold State.conn
    rw [holds']
    rfl
  have serving := reading.serving ci c holds List.mem_cons_self
  have isMarks : state.marks (.service ci) = turnMarks c (state.clients ci).rx := by
    rw [← isConn]
    rfl
  rw [isMarks]
  unfold turnMarks State.serviceOnce
  cases read : readFrame (state.clients ci).rx with
  | short =>
      have calm := @State.calm_rfl state
      apply @reading_served c tape state state rest ci false [] reading holds
      · exact fun slot _ => rfl
      · exact calm.holds
      · exact calm.inUse
      · exact calm.fewer
      · rfl
      · exact fun mark member => absurd member List.not_mem_nil
      · rw [List.append_nil]
        exact serving.settle read
      · exact Nat.le_refl _
      · rw [List.append_nil]
        exact reading.counted
  | bad n =>
      simp only
      have counting : ((state.count fun stats =>
          { stats with badFrames := stats.badFrames + 1 }).log
            (.badLength (state.clients ci).nameOr n.toNat)).clients = state.clients := rfl
      have bad : ((state.count fun stats =>
          { stats with badFrames := stats.badFrames + 1 }).log
            (.badLength (state.clients ci).nameOr n.toNat)).stats.badFrames =
              state.stats.badFrames + 1 := rfl
      have conns : ((state.count fun stats =>
          { stats with badFrames := stats.badFrames + 1 }).log
            (.badLength (state.clients ci).nameOr n.toNat)).conns = state.conns := rfl
      generalize ((state.count fun stats =>
          { stats with badFrames := stats.badFrames + 1 }).log
            (.badLength (state.clients ci).nameOr n.toNat)) = counted at counting bad conns ⊢
      have calm := (@State.each_drop oracle counted ci _ sameIntake_gentle).calm
      have live : ∀ slot, counted.Live slot ↔ state.Live slot := by
        intro slot
        unfold State.Live
        rw [counting]
      apply @reading_served c tape state (counted.drop oracle ci) rest ci false [.bad c]
        reading holds
      · intro slot _
        rw [calm.rx, counting]
      · intro slot
        rw [calm.holds, counting]
      · intro slot used
        have before := calm.inUse slot used
        rwa [counting] at before
      · exact fun slot alive => (live slot).mp (calm.fewer slot alive)
      · exact calm.conns.trans conns
      · intro mark member
        rw [List.mem_singleton.mp member]
        rfl
      · simp only [Bool.false_eq_true, ↓reduceIte]
        rw [calm.rx, counting]
        apply serving.breakOff read
        rintro ⟨-, alive⟩
        have dead := @State.dead_drop oracle counted ci
        rw [alive] at dead
        cases dead
      · rw [calm.rx, counting]
      · have count : allBad (tape ++ [.bad c]) = allBad tape + 1 := by
          simp [allBad, List.countP_append]
        rw [calm.bad, bad, count, reading.counted]
        simp [BitVec.ofNat_add]
  | whole body left =>
      simp only [↓reduceIte]
      have self : ((state.edit ci fun client => { client with rx := left }).clients ci) =
          { state.clients ci with rx := left } := State.edit_self
      have others : ∀ slot, slot ≠ ci → ((state.edit ci fun client =>
          { client with rx := left }).clients slot) = state.clients slot :=
        fun slot other => State.edit_of_ne other
      have counts : (state.edit ci fun client => { client with rx := left }).stats =
          state.stats := rfl
      have conns : (state.edit ci fun client => { client with rx := left }).conns =
          state.conns := rfl
      generalize (state.edit ci fun client => { client with rx := left }) = taken
        at self others counts conns ⊢
      have calm := (@State.each_handle oracle taken ci _ body.tail sameIntake_gentle
        (body.headD 0)).calm
      have held : ∀ slot, (taken.clients slot).holds = (state.clients slot).holds := by
        intro slot
        by_cases here : slot = ci
        · rw [here, self]
        · rw [others slot here]
      have inUse : ∀ slot, (taken.clients slot).inUse = (state.clients slot).inUse := by
        intro slot
        by_cases here : slot = ci
        · rw [here, self]
        · rw [others slot here]
      have dead : ∀ slot, (taken.clients slot).dead = (state.clients slot).dead := by
        intro slot
        by_cases here : slot = ci
        · rw [here, self]
        · rw [others slot here]
      apply @reading_served c tape state _ rest ci true _ reading holds
      · intro slot other
        rw [calm.rx, others slot other]
      · intro slot
        rw [calm.holds, held]
      · intro slot used
        rw [← inUse]
        exact calm.inUse slot used
      · intro slot alive
        have before := calm.fewer slot alive
        unfold State.Live at before ⊢
        rwa [inUse, dead] at before
      · exact calm.conns.trans conns
      · intro mark member
        rw [List.mem_singleton.mp member]
        rfl
      · simp only [↓reduceIte]
        rw [calm.rx, self]
        exact serving.take (Server.takeFrame_some.mpr read)
      · rw [calm.rx, self]
        exact Nat.le_of_lt (Server.framing.shrinks (Server.takeFrame_some.mpr read))
      · have count : allBad (tape ++ [.frame c (parts body).1 (parts body).2]) =
            allBad tape := by
          simp [allBad, List.countP_append]
        rw [calm.bad, counts, count]
        exact reading.counted

def chunkOf : Event → Bytes
  | .ready _ (some data) _ => data
  | _ => []

/-- `recv` takes 4096 bytes at most. -/
def Chunked : Act → Prop
  | .turn turn => ∀ event ∈ turn.events, (chunkOf event).length ≤ Server.recvSize
  | .work => True

instance : DecidablePred Chunked
  | .turn _ => inferInstanceAs (Decidable (∀ _ ∈ _, _))
  | .work => inferInstanceAs (Decidable True)

theorem reading_turn {turn : Turn} (reading : Reading ⟨state, []⟩ tape)
    (chunked : Chunked (.turn turn)) :
    Reading ⟨state, turn.events.filterMap state.reported ++
      [.flushAll turn.sends, .sweep turn.now, .report turn.now]⟩ tape := by
  have ready : ∀ job ∈ turn.events.filterMap state.reported ++
      [.flushAll turn.sends, .sweep turn.now, .report turn.now],
      (∀ ci, job ≠ .service ci) ∧ ∀ ci gen data write, job = .ready ci gen (some data) write →
        data.length ≤ Server.recvSize := by
    intro job member
    rcases List.mem_append.mp member with reported | last
    · obtain ⟨event, isEvent, isJob⟩ := List.mem_filterMap.mp reported
      cases event with
      | connect ip port born =>
          obtain rfl := Option.some.inj isJob
          exact ⟨fun _ => Job.noConfusion, fun _ _ _ _ => Job.noConfusion⟩
      | ready conn read write =>
          obtain ⟨tag, -, rfl⟩ := Option.map_eq_some_iff.mp isJob
          refine ⟨fun _ => Job.noConfusion, ?_⟩
          intro ci gen data write' same
          obtain ⟨-, -, rfl, rfl⟩ := Job.ready.inj same
          exact chunked _ isEvent
    · rcases List.mem_cons.mp last with rfl | last
      · exact ⟨fun _ => Job.noConfusion, fun _ _ _ _ => Job.noConfusion⟩
      rcases List.mem_cons.mp last with rfl | last
      · exact ⟨fun _ => Job.noConfusion, fun _ _ _ _ => Job.noConfusion⟩
      · rw [List.mem_singleton.mp last]
        exact ⟨fun _ => Job.noConfusion, fun _ _ _ _ => Job.noConfusion⟩
  have unserved : ∀ ci, Job.service ci ∉ turn.events.filterMap state.reported ++
      [.flushAll turn.sends, .sweep turn.now, .report turn.now] := fun ci member =>
    (ready _ member).1 ci rfl
  exact {
    below := reading.below
    apart := reading.apart
    held := reading.held
    unheard := reading.unheard
    settled := fun ci c holds _ => reading.settled ci c holds List.not_mem_nil
    serving := fun ci c _ member => absurd member (unserved ci)
    past := reading.past
    tenant := fun ci member => absurd member (unserved ci)
    first := fun ci member => unserved ci (List.mem_of_mem_tail member)
    small := fun ci gen data write member => (ready _ member).2 ci gen data write rfl
    within := reading.within
    counted := reading.counted }

theorem idle_nil : Idle [] :=
  ⟨fun _ => List.not_mem_nil, fun _ _ _ _ => List.not_mem_nil⟩

theorem reading_ready {ci : Slot} {gen : BitVec 32} {read : Option Bytes}
    {write : Option Relay.Sent}
    (reading : Reading ⟨state, .ready ci gen read write :: rest⟩ tape) :
    Reading ⟨(state.perform oracle (.ready ci gen read write)).1,
        (state.perform oracle (.ready ci gen read write)).2 ++ rest⟩
      (tape ++ state.marks (.ready ci gen read write)) := by
  have notService : ∀ slot, Job.ready ci gen read write ≠ .service slot :=
    fun _ => Job.noConfusion
  cases read with
  | none =>
      have unmarked : state.marks (.ready ci gen none write) = [] := rfl
      rw [unmarked, List.append_nil]
      unfold State.perform
      simp only
      split
      · exact reading_calm reading notService State.calm_rfl idle_nil
      split
      · exact reading_calm reading notService State.calm_rfl idle_nil
      · exact reading_calm reading notService
          (State.each_writable sameIntake_gentle).calm idle_nil
  | some data =>
      unfold State.perform State.marks
      simp only
      split
      · rw [List.append_nil]
        exact reading_calm reading notService State.calm_rfl idle_nil
      rename_i present
      split
      · rw [List.append_nil]
        exact reading_calm reading notService State.calm_rfl idle_nil
      rename_i alive
      by_cases nothing : data = []
      · have received : state.receive ci data = none := if_pos nothing
        rw [received, if_pos nothing, List.append_nil]
        have noted : state.noteOverflow ci data = state := if_neg fun both => both.1 nothing
        rw [noted]
        exact reading_calm reading notService (State.each_drop sameIntake_gentle).calm idle_nil
      · have used : (state.clients ci).inUse = true :=
          Bool.eq_true_of_not_eq_false fun unused => present (Or.inl unused)
        have live : state.Live ci := ⟨used, Bool.eq_false_of_not_eq_true alive⟩
        obtain ⟨fits, reading'⟩ := reading_chunk reading live
        have received : state.receive ci data = some
            (state.edit ci fun client => { client with rx := client.rx ++ data }) := by
          unfold State.receive
          simp only
          rw [if_neg nothing, if_neg (Nat.not_lt.mpr fits)]
        rw [received, if_neg nothing]
        exact reading'

theorem reading_step (reading : Reading loop tape) (chunked : Chunked act)
    (step : Step oracle loop act after) : Reading after (tape ++ loop.marks act) := by
  obtain ⟨state, jobs⟩ := loop
  rcases step_cases oracle step with ⟨turn, rfl, isNil, rfl⟩ | ⟨job, rest, rfl, isNext, rfl⟩
  · obtain rfl : jobs = [] := isNil
    rw [marks, List.append_nil]
    exact reading_turn reading chunked
  obtain rfl : jobs = job :: rest := isNext
  have isMarks : marks ⟨state, job :: rest⟩ .work = state.marks job := rfl
  rw [isMarks]
  cases job with
  | accept ip port born =>
      have unmarked : state.marks (.accept ip port born) = [] := rfl
      rw [unmarked, List.append_nil]
      exact reading_accept reading
  | ready ci gen read write => exact reading_ready reading
  | service ci => exact reading_service reading
  | writable ci write =>
      have unmarked : state.marks (.writable ci write) = [] := rfl
      rw [unmarked, List.append_nil]
      exact reading_calm reading (fun _ => Job.noConfusion)
        (State.each_writable sameIntake_gentle).calm idle_nil
  | flushAll sends =>
      have unmarked : state.marks (.flushAll sends) = [] := rfl
      rw [unmarked, List.append_nil]
      apply reading_calm reading (fun _ => Job.noConfusion) State.calm_rfl
      constructor
      · intro ci member
        obtain ⟨slot, -, absurd⟩ := List.mem_map.mp member
        cases absurd
      · intro ci gen data write member
        obtain ⟨slot, -, absurd⟩ := List.mem_map.mp member
        cases absurd
  | flush ci sent =>
      have unmarked : state.marks (.flush ci sent) = [] := rfl
      rw [unmarked, List.append_nil]
      unfold State.perform
      simp only
      split
      · exact reading_calm reading (fun _ => Job.noConfusion) State.calm_rfl idle_nil
      · exact reading_calm reading (fun _ => Job.noConfusion)
          (State.each_flush sameIntake_gentle).calm idle_nil
  | sweep now =>
      have unmarked : state.marks (.sweep now) = [] := rfl
      rw [unmarked, List.append_nil]
      exact reading_calm reading (fun _ => Job.noConfusion)
        (State.each_sweepAt sameIntake_gentle).calm idle_nil
  | report now =>
      have unmarked : state.marks (.report now) = [] := rfl
      rw [unmarked, List.append_nil]
      exact reading_calm reading (fun _ => Job.noConfusion)
        (State.calm_reportAt.trans State.calm_reap) idle_nil

theorem reading_run
    (run : Run (recorded (Step oracle) marks) (fun _ act => Chunked act) (start now, [])
      (loop, tape)) : Reading loop tape := by
  have reading := run.invariant (fun state => Reading state.1 state.2) reading_start
    (by
      intro before act after reading chunked step
      obtain ⟨taken, isTape⟩ := step
      rw [isTape]
      exact reading_step reading chunked taken)
  exact reading

/-- The loop in `service` comes to its end. -/
theorem service_ends (state : State) (ci : Slot) (rest : List Job) :
    ∃ later : Loop, Run (Step oracle) always ⟨state, .service ci :: rest⟩ later ∧
      later.jobs = rest := by
  induction length : (state.clients ci).rx.length using Nat.strongRecOn generalizing state with
  | ind size inductionHypothesis =>
      have one : Run (Step oracle) always ⟨state, .service ci :: rest⟩
          ⟨(state.serviceOnce oracle ci).1,
            (if (state.serviceOnce oracle ci).2 then [.service ci] else []) ++ rest⟩ :=
        .tail .work (.refl _) trivial rfl
      unfold State.serviceOnce at one
      cases read : readFrame (state.clients ci).rx with
      | short =>
          rw [read] at one
          exact ⟨_, one, rfl⟩
      | bad n =>
          rw [read] at one
          exact ⟨_, one, rfl⟩
      | whole body left =>
          rw [read] at one
          have rx := ((@State.each_handle oracle
            (state.edit ci fun client => { client with rx := left }) ci _ body.tail
            sameIntake_gentle (body.headD 0)).clients ci).rx
          rw [State.edit_self] at rx
          have shorter : (((state.edit ci fun client => { client with rx := left }).handle
              oracle ci (body.headD 0) body.tail).clients ci).rx.length < size := by
            rw [rx, ← length]
            exact Server.framing.shrinks (Server.takeFrame_some.mpr read)
          obtain ⟨later, run, ends⟩ := inductionHypothesis _ shorter _ rfl
          exact ⟨later, one.trans run, ends⟩

/-- What is made of the streams in a state of a recorded run, and what the next
piece of the loop writes. -/
structure Framed (oracle : Oracle) (loop : Loop) (tape : List Mark) : Prop where
  reassembled : ∀ ci c, (loop.state.clients ci).holds = some c →
    Job.service ci ∉ loop.jobs →
      Reassembled tape c (loop.state.clients ci).rx (loop.state.Live ci)
  past : ∀ c, (∀ ci, (loop.state.clients ci).holds ≠ some c) →
    ∃ rx, Reassembled tape c rx False
  counted : loop.state.stats.badFrames = BitVec.ofNat 32 (allBad tape)
  ends : ∀ ci, Job.service ci ∈ loop.jobs → ∃ later : Loop,
    Run (Step oracle) always loop later ∧ Job.service ci ∉ later.jobs
  noOverflow : ∀ ci gen data write rest,
    loop.jobs = .ready ci gen (some data) write :: rest → loop.state.Live ci →
      (loop.state.clients ci).rx.length + data.length ≤ rxCap
  inRange : ∀ job rest, loop.jobs = job :: rest →
    ∀ write ∈ loop.state.writes oracle job, write.InRange

theorem framed_run
    (run : Run (recorded (Step oracle) marks) (fun _ act => Chunked act) (start now, [])
      (loop, tape)) : Framed oracle loop tape := by
  have reading := reading_run run
  refine ⟨?_, ?_, reading.counted, ?_, ?_, ?_⟩
  · exact fun ci c holds unserved => (reading.settled ci c holds unserved).reassembled
  · intro c unheld
    obtain ⟨rx, settled⟩ := reading.past c unheld
    exact ⟨rx, settled.reassembled⟩
  · intro ci served
    obtain ⟨state, jobs⟩ := loop
    cases jobs with
    | nil => exact absurd served List.not_mem_nil
    | cons job rest =>
        have idle : Job.service ci ∉ rest := reading.first ci
        rcases List.mem_cons.mp served with rfl | later
        · obtain ⟨later, run', isRest⟩ := @service_ends oracle state ci rest
          refine ⟨later, run', ?_⟩
          rw [isRest]
          exact idle
        · exact absurd later idle
  · intro ci gen data write rest isNext live
    obtain ⟨state, jobs⟩ := loop
    obtain rfl : jobs = .ready ci gen (some data) write :: rest := isNext
    exact (reading_chunk reading live).1
  · intro job rest isNext write member
    exact State.writes_inRange reading.within member

/-- A HELLO and the length byte of a PING come in one chunk; the rest of the PING
and a length byte that no frame has come in the next. -/
def cutPing : List (List Bytes × Nat) := [([helloFrame 0x41 0x41 ++ [1]], 1), ([[tPing, 0]], 0)]

def cutFrames : List (Byte × Bytes) := [(tHello, [proto, tvNtsc, 0x41, 0x41]), (tPing, [])]

end Loop

end DragsterNet.CRelay
