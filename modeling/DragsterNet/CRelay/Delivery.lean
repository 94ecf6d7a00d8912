/-
Module: DragsterNet.CRelay.Delivery
Purpose: The stages of an iteration of the C relay, in each of which
  `client_send` finds room, and that what `send` takes is then the front of what
  was appended.
Trusted boundary: none
Main exports: Stage, Stage.work, appendedTo, sentTo, Leased, Delivered,
  Delivered.posted, Delivered.sending
-/
import DragsterNet.CRelay.Headroom

namespace DragsterNet.CRelay

open Lib Relay

/-! ### An iteration -/

section Stages

variable {oracle : Oracle} {state : State} {gave : Slot → Finset Slot} {turn : Turn}
  {job : Job} {rest : List Job} {d : Slot}

theorem dues_le {jobs : List Job} {e : Slot} {most : Nat}
    (once : (jobs.filterMap Job.client).Nodup) (small : ∀ job ∈ jobs, job.due e ≤ most)
    (others : ∀ job ∈ jobs, job.client ≠ some e → job.due e = 0) : dues e jobs ≤ most := by
  induction jobs with
  | nil => exact Nat.zero_le _
  | cons job rest inductionHypothesis =>
      rw [dues_cons]
      have rest' : (rest.filterMap Job.client).Nodup := by
        cases isClient : job.client with
        | none => rwa [List.filterMap_cons_none isClient] at once
        | some ci =>
            rw [List.filterMap_cons_some isClient] at once
            exact once.of_cons
      by_cases mine : job.client = some e
      · rw [List.filterMap_cons_some mine] at once
        have nothing : dues e rest = 0 := by
          apply List.sum_eq_zero
          intro n member
          obtain ⟨other, isOther, rfl⟩ := List.mem_map.mp member
          apply others other (List.mem_cons_of_mem _ isOther)
          intro same
          exact (List.nodup_cons.mp once).1 (List.mem_filterMap.mpr ⟨other, isOther, same⟩)
        rw [nothing]
        exact small job List.mem_cons_self
      · rw [others job List.mem_cons_self mine, Nat.zero_add]
        exact inductionHypothesis rest'
          (fun other member => small other (List.mem_cons_of_mem _ member))
          fun other member => others other (List.mem_cons_of_mem _ member)

/-- What has come for a client when `epoll_wait` returns is one read. -/
theorem dues_turn (chunked : Loop.Chunked (.turn turn))
    (once : ((turn.events.filterMap state.reported).filterMap Job.client).Nodup) (e : Slot) :
    dues e (turn.events.filterMap state.reported) ≤ Server.recvSize := by
  apply dues_le once
  · intro job member
    obtain ⟨event, isEvent, isJob⟩ := List.mem_filterMap.mp member
    have short := chunked event isEvent
    cases event with
    | connect ip port born =>
        obtain rfl := Option.some.inj isJob
        exact Nat.zero_le _
    | ready conn read write =>
        obtain ⟨tag, -, rfl⟩ := Option.map_eq_some_iff.mp isJob
        cases read with
        | none => exact Nat.zero_le _
        | some data =>
            have isDue : Job.due e (.ready tag.1 tag.2 (some data) write) =
                if e = tag.1 then data.length else 0 := rfl
            rw [isDue]
            split
            · exact short
            · exact Nat.zero_le _
  · intro job _ other
    cases job with
    | ready ci gen read write =>
        cases read with
        | none => rfl
        | some data => exact if_neg fun same => other (congrArg some same.symm)
    | service ci => rfl
    | writable ci write => rfl
    | accept ip port born => rfl
    | flushAll sends => rfl
    | flush ci sent => rfl
    | sweep now => rfl
    | report now => rfl

/-- The events are served with what the last iteration left. -/
theorem serving_turn (rested : Rested state)
    (short : ∀ e, state.Live e → (state.clients e).rx.length ≤ 200)
    (chunked : Loop.Chunked (.turn turn))
    (once : ((turn.events.filterMap state.reported).filterMap Job.client).Nodup) :
    Serving state (fun _ => ∅) (fun _ => 0) (turn.events.filterMap state.reported) := by
  have kinds : ∀ job ∈ turn.events.filterMap state.reported,
      job.Early ∧ job.Fine state ∧ ∀ e, job ≠ .service e := by
    intro job member
    obtain ⟨event, -, isJob⟩ := List.mem_filterMap.mp member
    cases event with
    | connect ip port born =>
        obtain rfl := Option.some.inj isJob
        exact ⟨trivial, trivial, fun _ => Job.noConfusion⟩
    | ready conn read write =>
        obtain ⟨tag, -, rfl⟩ := Option.map_eq_some_iff.mp isJob
        exact ⟨trivial, trivial, fun _ => Job.noConfusion⟩
  have dues := dues_turn chunked once
  unfold Server.recvSize at dues
  refine ⟨fun job member => (kinds job member).1, fun job member => (kinds job member).2.1,
    fun _ _ given => absurd given (Finset.notMem_empty _), ?_, ?_, ?_⟩
  · intro e
    have one := dues e
    unfold readMax
    omega
  · intro e open_
    rcases open_ with live | absurd
    · have one := dues e
      have left := short e live
      unfold readMax
      omega
    · exact ((kinds _ absurd).2.2 e rfl).elim
  · intro d inUse
    have small := rested.small d inUse
    have alone : lonely state.board d ≤ 30 := lonely_le
    unfold allowance
    omega

/-- Where an iteration is; `gave` are those who have given to each slot in it. -/
inductive Stage (gave : Slot → Finset Slot) (state : State) : List Job → Prop where
  | idle (rested : Rested state) : Stage gave state []
  | serving (used : Slot → Nat) (early : List Job) (sends : Conn → Relay.Sent) (one two : Time)
      (serving : Serving state gave used early) :
      Stage gave state (early ++ [.flushAll sends, .sweep one, .report two])
  | flushing (flushes : List (Slot × Relay.Sent)) (one two : Time)
      (draining : Draining state fun d => d ∈ flushes.map Prod.fst) :
      Stage gave state (flushes.map (fun flush => .flush flush.1 flush.2) ++
        [.sweep one, .report two])
  | reporting (now : Time) (draining : Draining state fun _ => False) :
      Stage gave state [.report now]

/-- What a piece of the loop leaves on the record. -/
def State.calls (oracle : Oracle) (state : State) (job : Job) : List Call :=
  (job.client.map fun ci => Call.work ci (state.posts oracle job)).toList

theorem Serving.flushAll {used : Slot → Nat} (serving : Serving state gave used [])
    (tidy : state.Tidy) (few : ∀ d, (gave d).card ≤ 2) :
    Draining state fun d => d ∈ state.order := by
  refine ⟨?_, ?_⟩
  · intro d inUse
    have room := serving.room d inUse
    have most : allowance state.board used (gave d) d ≤ 523200 :=
      allowance_le (fun e => (Nat.le_add_right _ _).trans (serving.read e)) (few d)
    omega
  · intro d live unlisted
    exact absurd ((tidy.mem_iff d).mpr live) unlisted

/-- A piece of the loop finds room for what it posts, and leads to the next stage. -/
theorem Stage.work (stage : Stage gave state (job :: rest)) (tidy : state.Tidy)
    (addressed : ∀ post ∈ state.posts oracle job, (state.clients post.1).inUse = true)
    (few : ∀ d, ((state.calls oracle job).foldl tally gave d).card ≤ 2) :
    Roomy (state.sending job) (state.posts oracle job) ∧
      Stage ((state.calls oracle job).foldl tally gave) (state.perform oracle job).1
        ((state.perform oracle job).2 ++ rest) := by
  have unposted : ∀ {state : State}, Roomy state [] := by
    rintro state early ci n late absurd
    cases early <;> cases absurd
  generalize isJobs : job :: rest = jobs at stage
  cases stage with
  | idle rested => cases isJobs
  | serving used early sends one two serving =>
      cases early with
      | nil =>
          obtain ⟨rfl, rfl⟩ := List.cons.inj isJobs
          refine ⟨unposted, ?_⟩
          have drains := serving.flushAll tidy few
          have drains' : Draining state fun d =>
              d ∈ (state.order.map fun ci => (ci, sends (state.conn ci))).map Prod.fst := by
            rw [List.map_map]
            exact (List.map_id state.order).symm ▸ drains
          have flushes : Stage gave state _ := .flushing _ one two drains'
          rw [List.map_map] at flushes
          exact flushes
      | cons first early =>
          rw [List.cons_append] at isJobs
          obtain ⟨rfl, rfl⟩ := List.cons.inj isJobs
          cases isClient : job.client with
          | some ci =>
              have isCalls : state.calls oracle job =
                  [.work ci (state.posts oracle job)] := by
                unfold State.calls
                rw [isClient]
                rfl
              rw [isCalls] at few ⊢
              obtain ⟨roomy, used', served⟩ := serving.work isClient addressed few
              refine ⟨roomy, ?_⟩
              rw [← List.append_assoc]
              exact .serving used' _ sends one two served
          | none =>
              have isCalls : state.calls oracle job = [] := by
                unfold State.calls
                rw [isClient]
                rfl
              rw [isCalls]
              have isEarly := serving.early job List.mem_cons_self
              cases job with
              | accept ip port born => exact ⟨unposted, .serving used _ sends one two serving.accept⟩
              | ready ci gen read write => cases isClient
              | service ci => cases isClient
              | writable ci write => cases isClient
              | flushAll sends => exact isEarly.elim
              | flush ci sent => exact isEarly.elim
              | sweep now => exact isEarly.elim
              | report now => exact isEarly.elim
  | flushing flushes one two draining =>
      cases flushes with
      | nil =>
          obtain ⟨rfl, rfl⟩ := List.cons.inj isJobs
          obtain ⟨roomy, after⟩ := draining.sweep addressed
          refine ⟨roomy, .reporting two ⟨after.full, ?_⟩⟩
          exact fun d live _ => after.drained d live List.not_mem_nil
      | cons first flushes =>
          rw [List.map_cons, List.cons_append] at isJobs
          obtain ⟨rfl, rfl⟩ := List.cons.inj isJobs
          obtain ⟨roomy, after⟩ := Draining.flush draining addressed
          have nothing : (state.perform oracle (.flush first.1 first.2)).2 = [] := by
            unfold State.perform
            simp only
            split <;> rfl
          rw [nothing]
          exact ⟨roomy, .flushing flushes one two after⟩
  | reporting now draining =>
      obtain ⟨rfl, rfl⟩ := List.cons.inj isJobs
      exact ⟨unposted, .idle draining.report⟩

end Stages

/-! ### What is appended and what is sent -/

/-- The bytes appended to a connection's transmit buffer. -/
def appendedTo (c : Conn) (seen : List Seen) : Bytes :=
  seen.flatMap fun
    | .append _ dst data => if dst = c then data else []
    | .sent _ _ => []
    | .close _ => []
    | .line _ => []
    | .players _ => []
    | .paired _ _ => []

/-- The bytes that a connection's socket has taken. -/
def sentTo (c : Conn) (seen : List Seen) : Bytes :=
  seen.flatMap fun
    | .sent dst data => if dst = c then data else []
    | .append _ _ _ => []
    | .close _ => []
    | .line _ => []
    | .players _ => []
    | .paired _ _ => []

/-- Who holds the slots. -/
structure Leased (state : State) : Prop where
  below : ∀ ci c, (state.clients ci).holds = some c → c < state.conns
  apart : ∀ one two c, (state.clients one).holds = some c → (state.clients two).holds = some c →
    one = two
  held : ∀ ci, (state.clients ci).inUse = true → ∃ c, (state.clients ci).holds = some c

/-- What a socket has taken is the front of what was appended for it; the rest is
in the buffer, while the connection is there. -/
structure Delivered (state : State) : Prop where
  fd : ∀ ci c, (state.clients ci).fd = some c → (state.clients ci).holds = some c
  coming : ∀ c, state.conns ≤ c →
    appendedTo c state.seen = [] ∧ sentTo c state.seen = []
  queued : ∀ ci c, (state.clients ci).inUse = true → (state.clients ci).holds = some c →
    appendedTo c state.seen = sentTo c state.seen ++ (state.clients ci).queued
  front : ∀ c, sentTo c state.seen <+: appendedTo c state.seen

section Delivery

variable {oracle : Oracle} {state after : State} {ci : Slot} {c : Conn} {posts : List Post}
  {seen more : List Seen} {data : Bytes} {src : Option Slot} {job : Job}

theorem appendedTo_append : appendedTo c (seen ++ more) = appendedTo c seen ++ appendedTo c more :=
  List.flatMap_append

theorem sentTo_append : sentTo c (seen ++ more) = sentTo c seen ++ sentTo c more :=
  List.flatMap_append

theorem traffic_none (quiet : ∀ seen ∈ more, State.traffic seen = false) :
    appendedTo c more = [] ∧ sentTo c more = [] := by
  have none_ : ∀ seen ∈ more, appendedTo c [seen] = [] ∧ sentTo c [seen] = [] := by
    intro seen member
    have silent := quiet seen member
    cases seen with
    | append src dst data => cases silent
    | sent dst data => cases silent
    | close conn => exact ⟨rfl, rfl⟩
    | line text => exact ⟨rfl, rfl⟩
    | players count => exact ⟨rfl, rfl⟩
    | paired host guest => exact ⟨rfl, rfl⟩
  refine ⟨List.flatMap_eq_nil_iff.mpr ?_, List.flatMap_eq_nil_iff.mpr ?_⟩
  · intro seen member
    have own := (none_ seen member).1
    rwa [appendedTo, List.flatMap_singleton] at own
  · intro seen member
    have own := (none_ seen member).2
    rwa [sentTo, List.flatMap_singleton] at own

/-- Nothing goes in or out. -/
theorem Delivered.quiet (delivered : Delivered state)
    (fd : ∀ ci c, (after.clients ci).fd = some c → (after.clients ci).holds = some c)
    (seen : after.seen = state.seen ++ more)
    (silent : ∀ seen ∈ more, State.traffic seen = false) (conns : state.conns ≤ after.conns)
    (queued : ∀ ci c, (after.clients ci).inUse = true → (after.clients ci).holds = some c →
      (state.conns ≤ c ∧ (after.clients ci).queued = []) ∨
        (state.clients ci).inUse = true ∧ (state.clients ci).holds = some c ∧
          (after.clients ci).queued = (state.clients ci).queued) : Delivered after := by
  have appended : ∀ c, appendedTo c after.seen = appendedTo c state.seen := by
    intro c
    rw [seen, appendedTo_append, (traffic_none silent).1, List.append_nil]
  have sent : ∀ c, sentTo c after.seen = sentTo c state.seen := by
    intro c
    rw [seen, sentTo_append, (traffic_none silent).2, List.append_nil]
  refine ⟨fd, ?_, ?_, ?_⟩
  · intro c late
    rw [appended, sent]
    exact delivered.coming c (conns.trans late)
  · intro ci c inUse holds
    rw [appended, sent]
    rcases queued ci c inUse holds with ⟨late, empty⟩ | ⟨inUse', holds', same⟩
    · rw [(delivered.coming c late).1, (delivered.coming c late).2, empty]
      rfl
    · rw [same]
      exact delivered.queued ci c inUse' holds'
  · intro c
    rw [appended, sent]
    exact delivered.front c

theorem Delivered.untouched (delivered : Delivered state)
    (untouched : State.Untouched state after) : Delivered after := by
  obtain ⟨more, seen, silent⟩ := untouched.seen
  apply delivered.quiet _ seen silent untouched.conns.ge
  · intro ci c inUse holds
    have same := untouched.clients ci
    refine Or.inr ⟨same.inUse ▸ inUse, same.holds ▸ holds, ?_⟩
    unfold Client.queued
    rw [same.tx, same.txLen]
  · intro ci c isFd
    have same := untouched.clients ci
    rw [same.holds]
    exact delivered.fd ci c (same.fd c isFd)

theorem conn_of_holds (holds : (state.clients ci).holds = some c) : state.conn ci = c := by
  unfold State.conn
  rw [holds]
  rfl

/-- Data that fits is appended after what is in the buffer. -/
theorem Delivered.clientSend (delivered : Delivered state) (leased : Leased state)
    (inUse : (state.clients ci).inUse = true)
    (room : (state.clients ci).txLen + data.length ≤ txCap) :
    Delivered (state.clientSend src ci data) := by
  obtain ⟨c, holds⟩ := leased.held ci inUse
  have sends : state.clientSend src ci data = (state.edit ci fun client =>
      { client with
        tx := client.queued ++ data ++ client.tx.drop (client.txLen + data.length)
        txLen := client.txLen + data.length }).note
      (.append (src.map state.conn) c data) := by
    unfold State.clientSend
    rw [if_neg (Nat.not_lt.mpr room), conn_of_holds holds]
  have appended : ∀ d, appendedTo d (state.clientSend src ci data).seen =
      appendedTo d state.seen ++ if c = d then data else [] := by
    intro d
    rw [sends]
    exact appendedTo_append.trans (congrArg _ (List.flatMap_singleton ..))
  have sent : ∀ d, sentTo d (state.clientSend src ci data).seen = sentTo d state.seen := by
    intro d
    rw [sends]
    exact sentTo_append.trans (List.append_nil _)
  have tenants := fun d => @State.tenants_clientSend state ci d src data
  have own : ((state.clientSend src ci data).clients ci).queued =
      (state.clients ci).queued ++ data := by
    rw [sends, State.clients_note, State.edit_self]
    apply Client.queued_front rfl
    rw [List.length_append, Client.queued_length]
  have others : ∀ d, d ≠ ci → (state.clientSend src ci data).clients d = state.clients d := by
    intro d other
    rw [sends, State.clients_note, State.edit_of_ne other]
  have conns : (state.clientSend src ci data).conns = state.conns := by
    rw [sends]
    rfl
  refine ⟨?_, ?_, ?_, ?_⟩
  · intro d fd isFd
    rw [(tenants d).2.2] at isFd
    rw [(tenants d).2.1]
    exact delivered.fd d fd isFd
  · intro d late
    rw [conns] at late
    have apart : c ≠ d := by
      rintro rfl
      exact absurd (leased.below ci c holds) (Nat.not_lt.mpr late)
    rw [appended, sent, if_neg apart, List.append_nil]
    exact delivered.coming d late
  · intro slot d inUse' holds'
    rw [(tenants slot).1] at inUse'
    rw [(tenants slot).2.1] at holds'
    have before := delivered.queued slot d inUse' holds'
    rw [appended, sent, before]
    by_cases here : slot = ci
    · subst here
      have same : c = d := Option.some.inj (holds.symm.trans holds')
      rw [if_pos same, own, List.append_assoc]
    · have apart : c ≠ d := by
        rintro rfl
        exact here (leased.apart slot ci c holds' holds)
      rw [if_neg apart, List.append_nil, others slot here]
  · intro d
    rw [appended, sent]
    exact (delivered.front d).trans (List.prefix_append _ _)

/-- What the socket takes is the front of the buffer. -/
theorem Delivered.takeTx {sent : Relay.Sent} (delivered : Delivered state)
    (leased : Leased state) (inUse : (state.clients ci).inUse = true) :
    Delivered (state.takeTx ci sent) := by
  unfold State.takeTx
  split
  · rename_i fd count isFd
    split
    · exact delivered
    have holds := delivered.fd ci fd isFd
    have queued := delivered.queued ci fd inUse holds
    obtain ⟨after, isAfter⟩ : ∃ after : State,
        (state.edit ci fun client => State.consumeTx client count).note
          (.sent fd ((state.clients ci).queued.take count)) = after := ⟨_, rfl⟩
    have taken : after.clients ci = State.consumeTx (state.clients ci) count := by
      rw [← isAfter, State.clients_note, State.edit_self]
    have others : ∀ d, d ≠ ci → after.clients d = state.clients d := by
      intro d other
      rw [← isAfter, State.clients_note, State.edit_of_ne other]
    have own : (after.clients ci).queued = (state.clients ci).queued.drop count := by
      rw [taken]
      apply Client.queued_front rfl
      rw [List.length_drop, Client.queued_length]
      rfl
    have tenants : ∀ d, (after.clients d).inUse = (state.clients d).inUse ∧
        (after.clients d).holds = (state.clients d).holds ∧
        (after.clients d).fd = (state.clients d).fd := by
      intro d
      by_cases here : d = ci
      · rw [here, taken]
        exact ⟨rfl, rfl, rfl⟩
      · rw [others d here]
        exact ⟨rfl, rfl, rfl⟩
    have conns : after.conns = state.conns := isAfter ▸ rfl
    have appended : ∀ d, appendedTo d after.seen = appendedTo d state.seen := by
      intro d
      rw [← isAfter]
      exact appendedTo_append.trans (List.append_nil _)
    have sent : ∀ d, sentTo d after.seen = sentTo d state.seen ++
        if fd = d then (state.clients ci).queued.take count else [] := by
      intro d
      rw [← isAfter]
      exact sentTo_append.trans (congrArg _ (List.flatMap_singleton ..))
    rw [isAfter]
    refine ⟨?_, ?_, ?_, ?_⟩
    · intro d c isFd'
      rw [(tenants d).2.2] at isFd'
      exact (tenants d).2.1.trans (delivered.fd d c isFd')
    · intro d late
      rw [conns] at late
      have apart : fd ≠ d := by
        rintro rfl
        exact absurd (leased.below ci fd holds) (Nat.not_lt.mpr late)
      rw [appended, sent, if_neg apart, List.append_nil]
      exact delivered.coming d late
    · intro slot d inUse' holds'
      rw [(tenants slot).1] at inUse'
      rw [(tenants slot).2.1] at holds'
      have before := delivered.queued slot d inUse' holds'
      rw [appended, sent, before]
      by_cases here : slot = ci
      · subst here
        have same : fd = d := Option.some.inj (holds.symm.trans holds')
        rw [if_pos same, own, List.append_assoc, List.take_append_drop]
      · have apart : fd ≠ d := by
          rintro rfl
          exact here (leased.apart slot ci fd holds' holds)
        rw [if_neg apart, List.append_nil, others slot here]
    · intro d
      rw [appended, sent]
      by_cases same : fd = d
      · subst same
        rw [if_pos rfl, queued]
        apply (List.prefix_append_right_inj _).mpr
        exact List.take_prefix _ _
      · rw [if_neg same, List.append_nil]
        exact delivered.front d
  · exact delivered

theorem conns_posted (posted : State.Posted state posts after) : after.conns = state.conns := by
  induction posted with
  | refl => rfl
  | aside before untouched inductionHypothesis => exact untouched.conns.trans inductionHypothesis
  | send src ci data before inductionHypothesis =>
      have same : ∀ {state : State}, (state.clientSend src ci data).conns = state.conns := by
        intro state
        unfold State.clientSend
        simp only
        split <;> rfl
      exact same.trans inductionHypothesis

theorem Leased.posted (leased : Leased state) (posted : State.Posted state posts after) :
    Leased after := by
  refine ⟨?_, ?_, ?_⟩
  · intro ci c holds
    rw [conns_posted posted]
    exact leased.below ci c ((posted.tenants ci).2.symm.trans holds)
  · intro one two c first second
    exact leased.apart one two c ((posted.tenants one).2.symm.trans first)
      ((posted.tenants two).2.symm.trans second)
  · intro ci inUse
    obtain ⟨c, holds⟩ := leased.held ci ((posted.tenants ci).1.symm.trans inUse)
    exact ⟨c, (posted.tenants ci).2.trans holds⟩

theorem Roomy.init {last : List Post} (roomy : Roomy state (posts ++ last)) :
    Roomy state posts := by
  rintro early ci n late rfl
  apply roomy early ci n (late ++ last)
  rw [List.append_assoc, List.cons_append]

/-- With room for each, what is posted is appended. -/
theorem Delivered.posted (delivered : Delivered state) (leased : Leased state)
    (posted : State.Posted state posts after) (roomy : Roomy state posts)
    (addressed : ∀ post ∈ posts, (state.clients post.1).inUse = true) : Delivered after := by
  induction posted with
  | refl => exact delivered
  | aside before untouched inductionHypothesis =>
      exact (inductionHypothesis roomy addressed).untouched untouched
  | send src ci data before inductionHypothesis =>
      have room := roomy _ ci data.length [] rfl
      have grown := before.grows ci
      have inUse := addressed (ci, data.length) (List.mem_append_right _ List.mem_cons_self)
      apply (inductionHypothesis roomy.init fun post member =>
        addressed post (List.mem_append_left _ member)).clientSend (leased.posted before)
      · rw [(before.tenants ci).1]
        exact inUse
      · omega

theorem Leased.of_posted (leased : Leased after) (posted : State.Posted state posts after) :
    Leased state := by
  refine ⟨?_, ?_, ?_⟩
  · intro ci c holds
    rw [← conns_posted posted]
    exact leased.below ci c ((posted.tenants ci).2.trans holds)
  · intro one two c first second
    exact leased.apart one two c ((posted.tenants one).2.trans first)
      ((posted.tenants two).2.trans second)
  · intro ci inUse
    obtain ⟨c, holds⟩ := leased.held ci ((posted.tenants ci).1.trans inUse)
    exact ⟨c, (posted.tenants ci).2.symm.trans holds⟩

theorem Delivered.accept {ip : Ip} {port : Nat} {born : Time} (delivered : Delivered state) :
    Delivered (state.acceptClient ip port born) := by
  have refused : ∀ {after : State}, after.clients = state.clients →
      after.conns = state.conns + 1 → after.seen = state.seen ++ [.close state.conns] →
      Delivered after := by
    intro after clients conns seen
    apply delivered.quiet _ seen
    · intro seen member
      rw [List.mem_singleton.mp member]
      rfl
    · rw [conns]
      exact Nat.le_succ _
    · rw [clients]
      exact fun ci c inUse holds => Or.inr ⟨inUse, holds, rfl⟩
    · rw [clients]
      exact delivered.fd
  unfold State.acceptClient
  simp only
  split
  · exact refused rfl rfl rfl
  split
  · exact refused rfl rfl rfl
  split
  · exact refused rfl rfl rfl
  · rename_i ci found
    have others : ∀ slot, slot ≠ ci →
        ((({ state with conns := state.conns + 1 }.clientAlloc ci state.conns ip port born).log
          (.connected ip port)).clients slot) = state.clients slot :=
      fun slot other => Function.update_of_ne other ..
    have own : ((({ state with conns := state.conns + 1 }.clientAlloc ci state.conns ip port
        born).log (.connected ip port)).clients ci) =
          { gen := (state.clients ci).gen, tx := (state.clients ci).tx, inUse := true,
            fd := some state.conns, ip := ip, port := port, born := born,
            holds := some state.conns } := Function.update_self ..
    have seen : (({ state with conns := state.conns + 1 }.clientAlloc ci state.conns ip port
        born).log (.connected ip port)).seen =
          state.seen ++ [.line (Line.connected ip port).text] := rfl
    refine delivered.quiet ?_ seen ?_ (Nat.le_succ _) ?_
    · intro slot c isFd
      by_cases here : slot = ci
      · subst here
        rw [own] at isFd ⊢
        exact isFd
      · rw [others slot here] at isFd ⊢
        exact delivered.fd slot c isFd
    · intro seen member
      rw [List.mem_singleton.mp member]
      rfl
    · intro slot c inUse holds
      by_cases here : slot = ci
      · subst here
        rw [own] at holds ⊢
        obtain rfl := Option.some.inj holds
        exact Or.inl ⟨Nat.le_refl _, rfl⟩
      · rw [others slot here] at inUse holds ⊢
        exact Or.inr ⟨inUse, holds, rfl⟩

theorem Delivered.report {now : Time} (delivered : Delivered state) :
    Delivered (state.reportAt now).reap := by
  have reported : (state.reportAt now).clients = state.clients ∧
      (state.reportAt now).conns = state.conns ∧
      ∃ more, (state.reportAt now).seen = state.seen ++ more ∧
        ∀ seen ∈ more, State.traffic seen = false := by
    unfold State.reportAt
    split
    · refine ⟨rfl, rfl, _, rfl, ?_⟩
      intro seen member
      rw [List.mem_singleton.mp member]
      rfl
    · exact ⟨rfl, rfl, [], (List.append_nil _).symm,
        fun _ member => absurd member List.not_mem_nil⟩
  obtain ⟨clients, conns, more, seen, silent⟩ := reported
  have reaped : ∀ slot, (state.reportAt now).reap.clients slot = state.clients slot ∨
      (state.reportAt now).reap.clients slot =
        { state.clients slot with inUse := false, gen := (state.clients slot).gen + 1 } := by
    intro slot
    unfold State.reap
    simp only [clients]
    split
    · exact Or.inr rfl
    · exact Or.inl rfl
  have seen' : (state.reportAt now).reap.seen = state.seen ++ more := seen
  refine delivered.quiet ?_ seen' silent conns.ge ?_
  · intro slot c isFd
    rcases reaped slot with same | freed
    · rw [same] at isFd ⊢
      exact delivered.fd slot c isFd
    · rw [freed] at isFd ⊢
      exact delivered.fd slot c isFd
  · intro slot c inUse holds
    rcases reaped slot with same | freed
    · rw [same] at inUse holds ⊢
      exact Or.inr ⟨inUse, holds, rfl⟩
    · rw [freed] at inUse
      cases inUse

/-- What `send` takes, who comes and who is freed. -/
theorem Delivered.sending (delivered : Delivered state) (leased : Leased state)
    (inUse : ∀ ci write, job = .writable ci write → (state.clients ci).inUse = true) :
    Delivered (state.sending job) := by
  cases job with
  | accept ip port born => exact delivered.accept
  | ready ci gen read write =>
      cases read with
      | some data => exact delivered
      | none =>
          cases write with
          | none => exact delivered
          | some sent =>
              unfold State.sending
              simp only
              split
              · exact delivered
              rename_i present
              split
              · exact delivered
              · apply delivered.takeTx leased
                exact Bool.eq_true_of_not_eq_false fun unused => present (Or.inl unused)
  | service ci => exact delivered
  | writable ci write =>
      cases write with
      | none => exact delivered
      | some sent =>
          unfold State.sending
          simp only
          split
          · exact delivered
          · exact delivered.takeTx leased (inUse ci _ rfl)
  | flushAll sends => exact delivered
  | flush ci sent =>
      unfold State.sending
      simp only
      split
      · exact delivered
      · rename_i shut
        apply delivered.takeTx leased
        exact Bool.eq_true_of_not_eq_false fun unused => shut (Or.inl unused)
  | sweep now => exact delivered
  | report now => exact delivered.report

end Delivery

/-- A write to a client is about a slot in use. -/
theorem Stage.fine {gave : Slot → Finset Slot} {state : State} {job : Job} {rest : List Job}
    {ci : Slot} {write : Option Relay.Sent} (stage : Stage gave state (job :: rest))
    (isWritable : job = .writable ci write) : (state.clients ci).inUse = true := by
  generalize isJobs : job :: rest = jobs at stage
  cases stage with
  | idle rested => cases isJobs
  | serving used early sends one two serving =>
      cases early with
      | nil =>
          obtain ⟨rfl, rfl⟩ := List.cons.inj isJobs
          cases isWritable
      | cons first early =>
          rw [List.cons_append] at isJobs
          obtain ⟨rfl, rfl⟩ := List.cons.inj isJobs
          have fine := serving.fine job List.mem_cons_self
          rw [isWritable] at fine
          exact fine
  | flushing flushes one two draining =>
      cases flushes with
      | nil =>
          obtain ⟨rfl, rfl⟩ := List.cons.inj isJobs
          cases isWritable
      | cons first flushes =>
          rw [List.map_cons, List.cons_append] at isJobs
          obtain ⟨rfl, rfl⟩ := List.cons.inj isJobs
          cases isWritable
  | reporting now draining =>
      obtain ⟨rfl, rfl⟩ := List.cons.inj isJobs
      cases isWritable

end DragsterNet.CRelay
