/-
Module: DragsterNet.CRelay.Saturation
Purpose: The runs of the C relay in which no byte handed to `client_send` is
  lost, and one in which bytes are.
Trusted boundary: none
Main exports: Loop.Spacious, Loop.tx_never_saturates, Loop.tx_saturates
-/
import DragsterNet.CRelay.Delivery
import DragsterNet.CRelay.Registry

namespace DragsterNet.CRelay

open Lib Relay

namespace Loop

variable {oracle : Oracle} {loop after : Loop} {act : Act} {now : Time} {tape : List Call}

/-- The invariant of a recorded run. -/
structure Spacious (loop : Loop) (tape : List Call) : Prop where
  reading : ∃ marks, Reading loop marks
  tidy : loop.state.Tidy
  stage : Stage (givers tape) loop.state loop.jobs
  delivered : Delivered loop.state

theorem Spacious.leased (spacious : Spacious loop tape) : Leased loop.state := by
  obtain ⟨marks, reading⟩ := spacious.reading
  exact ⟨reading.below, reading.apart, reading.held⟩

theorem spacious_start : Spacious (start now) [] where
  reading := ⟨[], reading_start⟩
  tidy := State.start_sound.tidy
  stage := .idle ⟨fun d inUse => (by cases inUse), fun d inUse => by cases inUse⟩
  delivered := {
    fd := fun ci c isFd => by cases isFd
    coming := fun c _ => ⟨rfl, rfl⟩
    queued := fun ci c inUse => by cases inUse
    front := fun c => List.prefix_rfl }

/-- What is posted next is what the next piece hands to `client_send`, and there
is room for all of it. -/
structure Unsaturated (oracle : Oracle) (state : State) (job : Job) : Prop where
  calls : State.Posted (state.sending job) (state.posts oracle job) (state.perform oracle job).1
  roomy : CRelay.Roomy (state.sending job) (state.posts oracle job)

theorem Spacious.roomy {job : Job} {rest : List Job} (spacious : Spacious loop tape)
    (spared : Spared oracle (loop, tape) .work) (isNext : loop.jobs = job :: rest) :
    CRelay.Roomy (loop.state.sending job) (loop.state.posts oracle job) ∧
      Stage (givers (tape ++ loop.calls oracle .work)) (loop.state.perform oracle job).1
        ((loop.state.perform oracle job).2 ++ rest) := by
  obtain ⟨state, jobs⟩ := loop
  obtain rfl : jobs = job :: rest := isNext
  have few : ∀ d, (givers (tape ++ state.calls oracle job) d).card ≤ 2 := spared.few
  have tallied : givers (tape ++ state.calls oracle job) =
      (state.calls oracle job).foldl tally (givers tape) := List.foldl_append
  rw [tallied] at few
  obtain ⟨roomy, stage⟩ := spacious.stage.work spacious.tidy spared.addressed few
  rw [← tallied] at stage
  exact ⟨roomy, stage⟩

theorem spacious_next (spared : Spared oracle (loop, tape) act)
    (step : Step oracle loop act after) (spacious : Spacious loop tape) :
    Spacious after (tape ++ loop.calls oracle act) := by
  obtain ⟨marks, reading⟩ := spacious.reading
  have reading' := reading_step reading spared.chunked step
  obtain ⟨state, jobs⟩ := loop
  rcases step_cases oracle step with ⟨turn, rfl, isNil, rfl⟩ | ⟨job, rest, rfl, isNext, rfl⟩
  · obtain rfl : jobs = [] := isNil
    refine ⟨⟨_, reading'⟩, spacious.tidy, ?_, spacious.delivered⟩
    have none_ : givers (tape ++ [Call.turn]) = fun _ => ∅ := by
      unfold givers
      rw [List.foldl_append]
      rfl
    have rested : Rested state := by
      generalize isJobs : ([] : List Job) = jobs at spacious
      cases spacious.stage with
      | idle rested => exact rested
      | serving used early sends one two serving => cases early <;> cases isJobs
      | flushing flushes one two draining => cases flushes <;> cases isJobs
      | reporting now draining => cases isJobs
    have short : ∀ e, state.Live e → (state.clients e).rx.length ≤ 200 := by
      intro e live
      obtain ⟨c, holds⟩ := reading.held e live.1
      have settled := reading.settled e c holds List.not_mem_nil
      apply short_of_stuck settled.stuck
      exact fun broken => (settled.broken broken).2 live
    have serving := serving_turn rested short spared.chunked spared.once
    have stage : Stage (givers (tape ++ [Call.turn])) state
        (turn.events.filterMap state.reported ++
          [.flushAll turn.sends, .sweep turn.now, .report turn.now]) := by
      rw [none_]
      exact .serving _ _ turn.sends turn.now turn.now serving
    exact stage
  · obtain ⟨roomy, stage⟩ := spacious.roomy spared isNext
    have leased' : Leased (state.perform oracle job).1 :=
      ⟨reading'.below, reading'.apart, reading'.held⟩
    refine ⟨⟨_, reading'⟩, State.perform_tidy spacious.tidy, stage, ?_⟩
    obtain rfl : jobs = job :: rest := isNext
    have sending : Delivered (state.sending job) := by
      apply spacious.delivered.sending spacious.leased
      exact fun ci write isWritable => spacious.stage.fine isWritable
    have posted := @State.perform_posted oracle state job
    have addressed : ∀ post ∈ state.posts oracle job,
        ((state.sending job).clients post.1).inUse = true := by
      intro post member
      cases job with
      | accept ip port born => exact absurd member List.not_mem_nil
      | report now => exact absurd member List.not_mem_nil
      | ready ci gen read write =>
          have same := @State.sending_client state post.1 (.ready ci gen read write) trivial
          exact same.2.trans (spared.addressed post member)
      | service ci => exact spared.addressed post member
      | writable ci write =>
          have same := @State.sending_client state post.1 (.writable ci write) trivial
          exact same.2.trans (spared.addressed post member)
      | flushAll sends => exact absurd member List.not_mem_nil
      | flush ci sent =>
          have same := @State.sending_client state post.1 (.flush ci sent) trivial
          exact same.2.trans (spared.addressed post member)
      | sweep now => exact spared.addressed post member
    exact sending.posted (leased'.of_posted posted) posted roomy addressed

theorem spacious_run
    (run : Run (recorded (Step oracle) (calls oracle)) (Spared oracle) (start now, [])
      (loop, tape)) : Spacious loop tape := by
  have spacious := run.invariant (fun state => Spacious state.1 state.2) spacious_start
    (by
      rintro ⟨before, tape⟩ act ⟨after, tape'⟩ spacious spared ⟨taken, isTape⟩
      obtain rfl : tape' = tape ++ before.calls oracle act := isTape
      exact spacious_next spared taken spacious)
  exact spacious

/-- In every run whose steps are spared, `client_send` always finds room; what the
sockets have taken is the front of what was appended, and the rest is in the
buffers. -/
theorem tx_never_saturates (oracle : Oracle) (now : Time) (loop : Loop) (tape : List Call)
    (run : Run (recorded (Step oracle) (calls oracle)) (Spared oracle) (start now, [])
      (loop, tape)) :
    (∀ job rest, loop.jobs = job :: rest → Spared oracle (loop, tape) .work →
      Unsaturated oracle loop.state job) ∧
    (∀ c, sentTo c loop.state.seen <+: appendedTo c loop.state.seen) ∧
    ∀ ci c, (loop.state.clients ci).inUse = true → (loop.state.clients ci).holds = some c →
      appendedTo c loop.state.seen =
        sentTo c loop.state.seen ++ (loop.state.clients ci).queued := by
  have spacious := spacious_run run
  refine ⟨?_, spacious.delivered.front, spacious.delivered.queued⟩
  intro job rest isNext spared
  exact ⟨State.perform_posted, (spacious.roomy spared isNext).1⟩

instance (loop : Loop) (act : Act) : Decidable (Once loop act) :=
  match act with
  | .turn turn => inferInstanceAs (Decidable
      ((turn.events.filterMap loop.state.reported).filterMap Job.client).Nodup)
  | .work => inferInstanceAs (Decidable True)

instance (loop : Loop) (act : Act) : Decidable (Addressed oracle loop act) :=
  match act, loop with
  | .turn _, _ => inferInstanceAs (Decidable True)
  | .work, ⟨_, []⟩ => inferInstanceAs (Decidable True)
  | .work, ⟨state, job :: _⟩ => inferInstanceAs (Decidable
      (∀ post ∈ state.posts oracle job, (state.clients post.1).inUse = true))

instance (before : Loop × List Call) (act : Act) : Decidable (Spared oracle before act) :=
  decidable_of_iff (Chunked act ∧ Once before.1 act ∧ Addressed oracle before.1 act ∧
      ∀ d, (givers (before.2 ++ calls oracle before.1 act) d).card ≤ 2)
    ⟨fun all => ⟨all.1, all.2.1, all.2.2.1, all.2.2.2⟩,
      fun spared => ⟨spared.chunked, spared.once, spared.addressed, spared.few⟩⟩

theorem spared_run {acts : List Act} {last : Loop × List Call}
    (executed : acts.foldlM (guarded (recording (next oracle) (calls oracle)) (Spared oracle))
      (start now, []) = some last) :
    Run (recorded (Step oracle) (calls oracle)) (Spared oracle) (start now, []) last := by
  have run := Run.of_guarded executed
  obtain ⟨last', run', rfl⟩ := @Run.simulate _ _ _ _ _ _
    (recorded (Step oracle) (calls oracle)) (Spared oracle) Eq _ _ _ run rfl (by
      rintro before act after _ rfl met taken
      obtain ⟨later, isNext, rfl⟩ := Option.map_eq_some_iff.mp taken
      have taken : recorded (Step oracle) (calls oracle) before act
          (later, before.2 ++ calls oracle before.1 act) := ⟨isNext, rfl⟩
      exact ⟨_, .tail act (.refl _) met taken, rfl⟩)
  exact run'

/-- A match, of whose START frames the sockets have taken some, and an INPUT that is
about to be relayed. -/
theorem tx_never_saturates_match : ∃ loop tape, ∃ job rest, loop.jobs = job :: rest ∧
    loop.state.posts plain job = [(0, 8)] ∧ (sentTo 0 loop.state.seen).length = 10 ∧
    Unsaturated plain loop.state job ∧
    sentTo 0 loop.state.seen <+: appendedTo 0 loop.state.seen ∧
    Run (recorded (Step plain) (calls plain)) (Spared plain) (start 0, []) (loop, tape) := by
  have outcome : ((accepting 2 0 ++ chunk 0 [helloFrame 0x41 0x41] 2 ++
      chunk 1 [helloFrame 0x42 0x42] 2 ++
      [Act.turn { events := [], sends := fun _ => .took 10, now := 0 }] ++ works 5 ++
      [turnOf [.ready 1 (some (wire tInput [1, 2, 3, 4, 5, 6])) none]] ++ works 1).foldlM
        (guarded (recording (next plain) (calls plain)) (Spared plain)) (start 0, [])).map
      (fun last => decide ((last.1.jobs.head?.map (last.1.state.posts plain)) = some [(0, 8)] ∧
        (sentTo 0 last.1.state.seen).length = 10 ∧ Spared plain last .work)) = some true := by
    decide +kernel
  obtain ⟨⟨loop, tape⟩, executed, isOutcome⟩ := Option.map_eq_some_iff.mp outcome
  obtain ⟨isPosts, took, spared⟩ := of_decide_eq_true isOutcome
  obtain ⟨job, isHead, posts⟩ := Option.map_eq_some_iff.mp isPosts
  obtain ⟨rest, isNext⟩ := List.head?_eq_some_iff.mp isHead
  have run := spared_run executed
  obtain ⟨unsaturated, front, -⟩ := tx_never_saturates plain 0 loop tape run
  exact ⟨loop, tape, job, rest, isNext, posts, took, unsaturated job rest isNext spared, front 0,
    run⟩

/-! ### A slot that is not flushed -/

/-- Between two iterations the first console's partner index names a slot that is
not in use, with `n` bytes in its buffer. -/
structure Stale (state : State) (n : Nat) : Prop where
  used : (state.clients 0).inUse = true
  alive : (state.clients 0).dead = false
  gen : (state.clients 0).gen = 0
  partner : (state.clients 0).partner = some 1
  rx : (state.clients 0).rx = []
  fd : (state.clients 0).fd = some 0
  small : (state.clients 0).txLen ≤ maxTxBacklog
  freed : (state.clients 1).inUse = false
  backlog : (state.clients 1).txLen = n
  order : state.order = [0]
  watched : state.watched 0 = some (0, 0)
  swept : state.lastSweep = 0
  told : state.lastStats = 0

theorem run_work {state : State} {job : Job} {rest : List Job} :
    Run (Step oracle) always ⟨state, job :: rest⟩
      ⟨(state.perform oracle job).1, (state.perform oracle job).2 ++ rest⟩ :=
  .tail .work (.refl _) trivial rfl

variable {state : State} {n : Nat}

/-- The last pieces of an iteration. -/
def closing : List Job := [.flushAll fun _ => .blocked, .sweep 0, .report 0]

/-- The first console has sent an INPUT without a payload. -/
def heard (state : State) : State :=
  state.edit 0 fun client => { client with rx := client.rx ++ wire tInput [] }

theorem stale_heard (stale : Stale state n) : Run (Step plain) always ⟨state, []⟩
    ⟨heard state, .service 0 :: .writable 0 none :: closing⟩ := by
  have reported : [Event.ready 0 (some (wire tInput [])) none].filterMap state.reported =
      [.ready 0 0 (some (wire tInput [])) none] := by
    simp [State.reported, stale.watched]
  have turned : Run (Step plain) always ⟨state, []⟩
      ⟨state, [.ready 0 0 (some (wire tInput [])) none] ++ closing⟩ := by
    rw [← reported]
    exact .tail (turnOf [.ready 0 (some (wire tInput [])) none]) (.refl _) trivial rfl
  have received : state.receive 0 (wire tInput []) = some (heard state) := by
    unfold State.receive
    simp only [stale.rx]
    rfl
  have performed : state.perform plain (.ready 0 0 (some (wire tInput [])) none) =
      (heard state, [.service 0, .writable 0 none]) := by
    unfold State.perform
    simp [stale.used, stale.gen, stale.alive, received]
  have work := @run_work plain state (.ready 0 0 (some (wire tInput [])) none) closing
  rw [performed] at work
  exact turned.trans work

/-- It is relayed to the slot that is not in use. -/
def relayed (state : State) : State :=
  ((heard state).edit 0 fun client => { client with rx := [] }).clientSend (some 0) 1
    (wire tInput (List.replicate 6 0))

theorem heard_rx (stale : Stale state n) : ((heard state).clients 0).rx = wire tInput [] := by
  unfold heard
  rw [State.edit_self, stale.rx, List.nil_append]

theorem stale_posts (stale : Stale state n) :
    (heard state).posts plain (.service 0) = [(1, 8)] := by
  have partner : (((heard state).edit 0 fun client => { client with rx := [] }).clients 0).partner =
      some 1 := by
    rw [State.edit_self, heard, State.edit_self]
    exact stale.partner
  have read : readFrame (wire tInput []) = .whole [tInput] [] := rfl
  have forwards : tInput ∈ relayTypes := by decide
  have served : (heard state).posts plain (.service 0) =
      (heard state).serviceOncePosts plain 0 := rfl
  rw [served, State.serviceOncePosts, heard_rx stale, read]
  unfold State.handlePosts State.forwardPosts
  simp only [List.headD_cons, if_pos forwards, partner]
  rfl

theorem stale_served (stale : Stale state n) : (heard state).perform plain (.service 0) =
    (relayed state, [.service 0]) := by
  have partner : (((heard state).edit 0 fun client => { client with rx := [] }).clients 0).partner =
      some 1 := by
    rw [State.edit_self, heard, State.edit_self]
    exact stale.partner
  have read : readFrame (wire tInput []) = .whole [tInput] [] := rfl
  have forwards : tInput ∈ relayTypes := by decide
  unfold State.perform State.serviceOnce
  simp only [heard_rx stale, read]
  unfold State.handle State.forward
  simp only [List.headD_cons, if_pos forwards, partner]
  rfl

theorem clients_relayed (room : (state.clients 1).txLen + 8 ≤ txCap) :
    (relayed state).clients 0 =
      { state.clients 0 with rx := [] } ∧
    ((relayed state).clients 1).inUse = (state.clients 1).inUse ∧
    ((relayed state).clients 1).txLen = (state.clients 1).txLen + 8 := by
  have length : (wire tInput (List.replicate 6 0)).length = 8 := rfl
  have apart : (1 : Slot) ≠ 0 := by decide
  have other : ((heard state).edit 0 fun client => { client with rx := [] }).clients 1 =
      state.clients 1 := by
    rw [State.edit_of_ne apart, heard, State.edit_of_ne apart]
  unfold relayed State.clientSend
  rw [other, length, if_neg (Nat.not_lt.mpr room)]
  refine ⟨?_, ?_, ?_⟩
  · rw [State.clients_note, State.edit_of_ne apart.symm, State.edit_self, heard, State.edit_self]
  · rw [State.clients_note, State.edit_self, other]
  · rw [State.clients_note, State.edit_self, other]

theorem Stale.relayed (stale : Stale state n) (room : n + 8 ≤ txCap) :
    Stale (relayed state) (n + 8) := by
  obtain ⟨own, freed, grown⟩ := clients_relayed (stale.backlog.symm ▸ room)
  have rest : (Loop.relayed state).order = state.order ∧
      (Loop.relayed state).watched = state.watched ∧
      (Loop.relayed state).lastSweep = state.lastSweep ∧
      (Loop.relayed state).lastStats = state.lastStats := by
    unfold Loop.relayed State.clientSend
    simp only
    split <;> exact ⟨rfl, rfl, rfl, rfl⟩
  exact {
    used := own ▸ stale.used
    alive := own ▸ stale.alive
    gen := own ▸ stale.gen
    partner := own ▸ stale.partner
    rx := own ▸ rfl
    fd := own ▸ stale.fd
    small := own ▸ stale.small
    freed := freed.trans stale.freed
    backlog := grown.trans (congrArg (· + 8) stale.backlog)
    order := rest.1.trans stale.order
    watched := rest.2.1 ▸ stale.watched
    swept := rest.2.2.1.trans stale.swept
    told := rest.2.2.2.trans stale.told }

theorem Stale.reap (stale : Stale state n) : Stale state.reap n := by
  have own : state.reap.clients 0 = state.clients 0 := by
    unfold State.reap
    simp [stale.alive]
  have other : state.reap.clients 1 = state.clients 1 := by
    unfold State.reap
    simp [stale.freed]
  exact {
    used := own ▸ stale.used
    alive := own ▸ stale.alive
    gen := own ▸ stale.gen
    partner := own ▸ stale.partner
    rx := own ▸ stale.rx
    fd := own ▸ stale.fd
    small := own ▸ stale.small
    freed := other ▸ stale.freed
    backlog := other ▸ stale.backlog
    order := stale.order
    watched := stale.watched
    swept := stale.swept
    told := stale.told }

/-- The first console has sent no more, and its own buffer need not be flushed. -/
theorem stale_closes (stale : Stale state n) :
    Run (Step plain) always ⟨state, .service 0 :: .writable 0 none :: closing⟩
      ⟨state.reap, []⟩ := by
  have serviced : state.perform plain (.service 0) = (state, []) := by
    have once : state.serviceOnce plain 0 = (state, false) := by
      unfold State.serviceOnce
      rw [stale.rx]
      rfl
    unfold State.perform
    simp only [once]
    rfl
  have listed : state.perform plain (.flushAll fun _ => .blocked) =
      (state, [.flush 0 .blocked]) := by
    unfold State.perform
    simp only [stale.order]
    rfl
  have flushed : state.perform plain (.flush 0 .blocked) = (state, []) := by
    have same : state.flush plain 0 .blocked = state := by
      unfold State.flush
      split
      · rfl
      · rw [stale.fd]
        exact if_neg (Nat.not_lt.mpr stale.small)
    unfold State.perform
    simp [stale.used, stale.alive, same]
  have swept : state.perform plain (.sweep 0) = (state, []) := by
    have same : state.sweepAt plain 0 = state := by
      unfold State.sweepAt
      rw [stale.swept]
      exact if_neg (by decide)
    unfold State.perform
    simp only [same]
  have reported : state.perform plain (.report 0) = (state.reap, []) := by
    have same : state.reportAt 0 = state := by
      unfold State.reportAt
      rw [stale.told]
      exact if_neg (by decide)
    unfold State.perform
    simp only [same]
  have one := @run_work plain state (.service 0) (.writable 0 none :: closing)
  have two := @run_work plain state (.writable 0 none) closing
  have three := @run_work plain state (.flushAll fun _ => .blocked) [.sweep 0, .report 0]
  have four := @run_work plain state (.flush 0 .blocked) [.sweep 0, .report 0]
  have five := @run_work plain state (.sweep 0) [.report 0]
  have six := @run_work plain state (.report 0) []
  rw [serviced] at one
  rw [listed] at three
  rw [flushed] at four
  rw [swept] at five
  rw [reported] at six
  exact one.trans (two.trans (three.trans (four.trans (five.trans six))))

/-- Every iteration adds eight bytes, until there is no room for eight. -/
theorem stale_fills (stale : Stale state n) : ∃ (last : Loop) (job : Job) (rest : List Job),
    Run (Step plain) always ⟨state, []⟩ last ∧ last.jobs = job :: rest ∧
      ¬ CRelay.Roomy (last.state.sending job) (last.state.posts plain job) := by
  induction left : txCap - n using Nat.strongRecOn generalizing state n with
  | ind size inductionHypothesis =>
      have heard := stale_heard stale
      have posts := stale_posts stale
      by_cases room : n + 8 ≤ txCap
      · have work := @run_work plain (Loop.heard state) (.service 0) (.writable 0 none :: closing)
        rw [stale_served stale] at work
        have later := stale.relayed room
        have closes := stale_closes later
        obtain ⟨last, job, rest, run, isNext, full⟩ :=
          inductionHypothesis (txCap - (n + 8)) (by omega) later.reap rfl
        exact ⟨last, job, rest, heard.trans (work.trans (closes.trans run)), isNext, full⟩
      · refine ⟨_, _, _, heard, rfl, ?_⟩
        intro roomy
        have fits := roomy [] 1 8 [] posts
        have backlog : ((Loop.heard state).clients 1).txLen = n := by
          unfold Loop.heard
          rw [State.edit_of_ne (by decide)]
          exact stale.backlog
        have same : (Loop.heard state).sending (.service 0) = Loop.heard state := rfl
        have nothing : State.load 1 [] = 0 := rfl
        rw [same] at fits
        omega

/-- The second console says BYE and HELLO in one chunk, and is paired with the
first.  Its slot is freed at the end of the iteration, and nobody flushes what the
first console then sends it. -/
theorem tx_saturates : ∃ (loop : Loop) (job : Job) (rest : List Job),
    Run (Step plain) always (start 0) loop ∧ loop.jobs = job :: rest ∧
      ¬ CRelay.Roomy (loop.state.sending job) (loop.state.posts plain job) := by
  have outcome : ((accepting 2 0 ++ chunk 0 [helloFrame 0x41 0x41] 2 ++
      chunk 1 [wire tBye [], helloFrame 0x42 0x42] 1).foldlM (next plain) (start 0)).map
      (fun loop => decide (loop.jobs.length = 0 ∧ (loop.state.clients 0).inUse = true ∧
        (loop.state.clients 0).dead = false ∧ (loop.state.clients 0).gen = 0 ∧
        (loop.state.clients 0).partner = some 1 ∧ (loop.state.clients 0).rx = [] ∧
        (loop.state.clients 0).fd = some 0 ∧ (loop.state.clients 0).txLen ≤ maxTxBacklog ∧
        (loop.state.clients 1).inUse = false ∧ loop.state.order = [0] ∧
        loop.state.watched 0 = some (0, 0) ∧ loop.state.lastSweep = 0 ∧
        loop.state.lastStats = 0)) = some true := by decide +kernel
  obtain ⟨⟨state, jobs⟩, executed, isOutcome⟩ := Option.map_eq_some_iff.mp outcome
  obtain ⟨noJobs, used, alive, gen, partner, rx, fd, small, freed, order, watched, swept, told⟩ :=
    of_decide_eq_true isOutcome
  obtain rfl : jobs = [] := List.eq_nil_of_length_eq_zero noJobs
  have stale : Stale state (state.clients 1).txLen :=
    ⟨used, alive, gen, partner, rx, fd, small, freed, rfl, order, watched, swept, told⟩
  obtain ⟨last, job, rest, run, isNext, full⟩ := stale_fills stale
  exact ⟨last, job, rest, (Run.of_foldlM executed).trans run, isNext, full⟩

end Loop

end DragsterNet.CRelay
