/-
Module: DragsterNet.CRelay.Headroom
Purpose: That every `client_send` of the C relay finds room, in the runs in which
  few clients give to one and nothing is posted to a slot that is not in use.
Trusted boundary: none
Main exports: Call, givers, Loop.Spared, State.Serves, Serving, Serving.work
-/
import DragsterNet.CRelay.Backlog

namespace DragsterNet.CRelay

open Lib Relay

/-! ### The record -/

/-- What is recorded of a run: that `epoll_wait` returns, and what is posted in
the work for a client that it reports. -/
inductive Call where
  | turn
  | work (ci : Slot) (posts : List Post)

namespace Job

/-- The client that epoll reports, or that is served because it was reported. -/
def client : Job → Option Slot
  | .ready ci _ _ _ => some ci
  | .service ci => some ci
  | .writable ci _ => some ci
  | .accept _ _ _ => none
  | .flushAll _ => none
  | .flush _ _ => none
  | .sweep _ => none
  | .report _ => none

/-- A piece of the loop over the events. -/
def Early : Job → Prop
  | .ready _ _ _ _ => True
  | .service _ => True
  | .writable _ _ => True
  | .accept _ _ _ => True
  | .flushAll _ => False
  | .flush _ _ => False
  | .sweep _ => False
  | .report _ => False

/-- The bytes that have come for a client and that it has not been given. -/
def due (e : Slot) : Job → Nat
  | .ready ci _ (some data) _ => if e = ci then data.length else 0
  | .ready _ _ none _ => 0
  | .service _ => 0
  | .writable _ _ => 0
  | .accept _ _ _ => 0
  | .flushAll _ => 0
  | .flush _ _ => 0
  | .sweep _ => 0
  | .report _ => 0

end Job

def dues (e : Slot) (jobs : List Job) : Nat := (jobs.map (Job.due e)).sum

theorem dues_append {e : Slot} {one two : List Job} :
    dues e (one ++ two) = dues e one + dues e two := by
  unfold dues
  rw [List.map_append, List.sum_append]

theorem dues_cons {e : Slot} {job : Job} {rest : List Job} :
    dues e (job :: rest) = job.due e + dues e rest := by
  unfold dues
  rw [List.map_cons, List.sum_cons]

def tally (givers : Slot → Finset Slot) : Call → Slot → Finset Slot
  | .turn => fun _ => ∅
  | .work ci posts => posting givers ci posts

/-- For each slot the others in whose work something has been posted to it since
`epoll_wait` last returned. -/
def givers (tape : List Call) : Slot → Finset Slot := tape.foldl tally fun _ => ∅

namespace Loop

variable (oracle : Oracle)

def calls (loop : Loop) : Act → List Call
  | .turn _ => [.turn]
  | .work =>
      match loop.jobs with
      | [] => []
      | job :: _ => (job.client.map fun ci => Call.work ci (loop.state.posts oracle job)).toList

/-- epoll reports a client once. -/
def Once (loop : Loop) : Act → Prop
  | .turn turn => ((turn.events.filterMap loop.state.reported).filterMap Job.client).Nodup
  | .work => True

/-- Nothing is posted to a slot that is not in use. -/
def Addressed (loop : Loop) : Act → Prop
  | .turn _ => True
  | .work =>
      match loop.jobs with
      | [] => True
      | job :: _ =>
          ∀ post ∈ loop.state.posts oracle job, (loop.state.clients post.1).inUse = true

/-- The condition under which nothing is lost: at most two others give to a client
in one iteration. -/
structure Spared (before : Loop × List Call) (act : Act) : Prop where
  chunked : Chunked act
  once : Once before.1 act
  addressed : Addressed oracle before.1 act
  few : ∀ d, (givers (before.2 ++ calls oracle before.1 act) d).card ≤ 2

end Loop

/-! ### The work for a client -/

namespace State

variable {oracle : Oracle} {state : State} {ci : Slot} {job : Job}

/-- What the work for a client does: a deed, for which no more is taken out of its
receive buffer than was there or has come. -/
structure Serves (oracle : Oracle) (state : State) (ci : Slot) (size : Nat) (job : Job) :
    Prop where
  deed : Deed ci size state.board (state.posts oracle job) (state.perform oracle job).1.board
  next : ∀ more ∈ (state.perform oracle job).2,
    more = .service ci ∨ ∃ write, more = .writable ci write
  again : (state.perform oracle job).2 ≠ [] → state.Live ci ∨ job = .service ci
  busy : job.Fine state → state.posts oracle job ≠ [] ∨ (state.perform oracle job).2 ≠ [] →
    (state.clients ci).inUse = true
  fewer : ∀ e, (state.perform oracle job).1.Live e → state.Live e
  apart : ∀ e, e ≠ ci → ((state.perform oracle job).1.clients e).rx = (state.clients e).rx
  taken : ((state.perform oracle job).1.clients ci).rx.length + size ≤
    (state.clients ci).rx.length + job.due ci
  frame : size = 0 ∨ job = .service ci

/-- Work that reads nothing and leads to nothing. -/
theorem serves_calm {size : Nat} (frame : size = 0)
    (deed : Deed ci size state.board (state.posts oracle job) (state.perform oracle job).1.board)
    (nothing : (state.perform oracle job).2 = [])
    (busy : job.Fine state → state.posts oracle job ≠ [] → (state.clients ci).inUse = true)
    (calm : Calm state (state.perform oracle job).1) : Serves oracle state ci size job where
  deed := deed
  next := by
    rw [nothing]
    exact fun more member => absurd member List.not_mem_nil
  again more := absurd nothing more
  busy fine work := busy fine (work.resolve_right fun more => more nothing)
  fewer := calm.fewer
  apart e _ := calm.rx e
  taken := by
    rw [calm.rx, frame]
    exact Nat.le_add_right _ _
  frame := Or.inl frame

theorem serves_writable {write : Option Relay.Sent} :
    Serves oracle state ci 0 (.writable ci write) :=
  serves_calm rfl deed_writable rfl (fun used _ => used) (each_writable sameIntake_gentle).calm

/-- Serving one client brings nobody to life and reads nothing of the others. -/
theorem serviceOnce_aside : (∀ e, (state.serviceOnce oracle ci).1.Live e → state.Live e) ∧
    ∀ e, e ≠ ci → ((state.serviceOnce oracle ci).1.clients e).rx = (state.clients e).rx := by
  unfold serviceOnce
  cases readFrame (state.clients ci).rx with
  | short => exact ⟨fun _ => id, fun _ _ => rfl⟩
  | bad n =>
      have calm := (@each_drop oracle ((state.count fun stats =>
        { stats with badFrames := stats.badFrames + 1 }).log
          (.badLength (state.clients ci).nameOr n.toNat)) ci _ sameIntake_gentle).calm
      exact ⟨calm.fewer, fun e _ => calm.rx e⟩
  | whole body rest =>
      have calm := (@each_handle oracle (state.edit ci fun client => { client with rx := rest })
        ci _ body.tail sameIntake_gentle (body.headD 0)).calm
      refine ⟨?_, ?_⟩
      · intro e live
        have lived := calm.fewer e live
        unfold Live at lived ⊢
        by_cases here : e = ci
        · rw [here, edit_self] at lived
          rw [here]
          exact lived
        · rwa [edit_of_ne here] at lived
      · intro e other
        rw [calm.rx e, edit_of_ne other]

theorem serves_service : ∃ size, Serves oracle state ci size (.service ci) := by
  obtain ⟨size, deed, taken⟩ := @deed_serviceOnce oracle state ci
  obtain ⟨fewer, apart⟩ := @serviceOnce_aside oracle state ci
  have only : ∀ more ∈ (state.perform oracle (.service ci)).2, more = .service ci := by
    intro more member
    unfold perform at member
    simp only at member
    split at member
    · exact List.mem_singleton.mp member
    · exact absurd member List.not_mem_nil
  exact ⟨size, deed, fun more member => Or.inl (only more member), fun _ => Or.inr rfl,
    fun used _ => used, fewer, apart, taken.le, Or.inr rfl⟩

theorem serves_ready {gen : BitVec 32} {read : Option Bytes} {write : Option Relay.Sent} :
    Serves oracle state ci 0 (.ready ci gen read write) := by
  by_cases present : (state.clients ci).inUse = false ∨ (state.clients ci).gen ≠ gen
  · have same : state.perform oracle (.ready ci gen read write) = (state, []) := if_pos present
    have none_ : state.posts oracle (.ready ci gen read write) = [] := if_pos present
    apply serves_calm rfl
    · rw [same, none_]
      exact .idle rfl rfl
    · rw [same]
    · exact fun _ posts => absurd none_ posts
    · rw [same]
      exact calm_rfl
  by_cases dead : (state.clients ci).dead
  · have same : state.perform oracle (.ready ci gen read write) = (state, []) :=
      (if_neg present).trans (if_pos dead)
    have none_ : state.posts oracle (.ready ci gen read write) = [] :=
      (if_neg present).trans (if_pos dead)
    apply serves_calm rfl
    · rw [same, none_]
      exact .idle rfl rfl
    · rw [same]
    · exact fun _ posts => absurd none_ posts
    · rw [same]
      exact calm_rfl
  have live : state.Live ci :=
    ⟨Bool.eq_true_of_not_eq_false fun unused => present (Or.inl unused),
      Bool.eq_false_of_not_eq_true dead⟩
  cases read with
  | none =>
      have writes : state.perform oracle (.ready ci gen none write) =
          (state.writable oracle ci write, []) := (if_neg present).trans (if_neg dead)
      have told : state.posts oracle (.ready ci gen none write) = state.writablePosts ci write :=
        (if_neg present).trans (if_neg dead)
      apply serves_calm rfl
      · rw [writes, told]
        exact deed_writable
      · rw [writes]
      · exact fun _ _ => live.1
      · rw [writes]
        exact (each_writable sameIntake_gentle).calm
  | some data =>
      cases received : state.receive ci data with
      | none =>
          have drops : state.perform oracle (.ready ci gen (some data) write) =
              ((state.noteOverflow ci data).drop oracle ci, []) := by
            unfold perform
            simp only [if_neg present, if_neg dead, received]
          have told : state.posts oracle (.ready ci gen (some data) write) =
              (state.noteOverflow ci data).dropPosts ci := by
            unfold posts
            simp only [if_neg present, if_neg dead, received]
          have noted : Calm state (state.noteOverflow ci data) := by
            unfold noteOverflow
            simp only
            split
            · exact (each_rfl sameIntake_gentle).log.calm
            · exact calm_rfl
          apply serves_calm rfl
          · rw [drops, told]
            exact deed_drop_after noteOverflow_stays
          · rw [drops]
          · exact fun _ _ => live.1
          · rw [drops]
            exact noted.trans (each_drop sameIntake_gentle).calm
      | some later =>
          have takes : state.perform oracle (.ready ci gen (some data) write) =
              (later, [.service ci, .writable ci write]) := by
            unfold perform
            simp only [if_neg present, if_neg dead, received]
          have none_ : state.posts oracle (.ready ci gen (some data) write) = [] := by
            unfold posts
            simp only [if_neg present, if_neg dead, received]
          obtain rfl : later = state.edit ci fun client => { client with rx := client.rx ++ data } := by
            unfold receive at received
            simp only at received
            split at received
            · cases received
            split at received
            · cases received
            · exact (Option.some.inj received).symm
          refine ⟨?_, ?_, fun _ => Or.inl live, fun _ _ => live.1, ?_, ?_, ?_, Or.inl rfl⟩
          · have kept : (state.edit ci fun client =>
                { client with rx := client.rx ++ data }).board = state.board :=
              board_edit_same rfl
            rw [takes, none_]
            exact .idle kept rfl
          · rw [takes]
            intro more member
            rcases List.mem_cons.mp member with rfl | last
            · exact Or.inl rfl
            · exact Or.inr ⟨write, List.mem_singleton.mp last⟩
          · rw [takes]
            intro e lives
            by_cases here : e = ci
            · exact here ▸ live
            · unfold Live at lives ⊢
              rwa [edit_of_ne here] at lives
          · rw [takes]
            intro e other
            rw [edit_of_ne other]
          · have isDue : Job.due ci (.ready ci gen (some data) write) = data.length := if_pos rfl
            rw [takes, edit_self, List.length_append, isDue]
            exact Nat.le_refl _

theorem Serves.early {size : Nat} (serves : Serves oracle state ci size job) {more : Job}
    (member : more ∈ (state.perform oracle job).2) : more.Early := by
  rcases serves.next more member with rfl | ⟨write, rfl⟩
  · exact trivial
  · exact trivial

theorem Serves.fed {size : Nat} (serves : Serves oracle state ci size job) (e : Slot) :
    dues e (state.perform oracle job).2 = 0 := by
  apply List.sum_eq_zero
  intro n member
  obtain ⟨more, isMore, rfl⟩ := List.mem_map.mp member
  rcases serves.next more isMore with rfl | ⟨write, rfl⟩
  · rfl
  · rfl

/-- Work for a client serves it. -/
theorem serves (isClient : job.client = some ci) : ∃ size, Serves oracle state ci size job := by
  cases job with
  | ready slot gen read write =>
      obtain rfl := Option.some.inj isClient
      exact ⟨0, serves_ready⟩
  | service slot =>
      obtain rfl := Option.some.inj isClient
      exact serves_service
  | writable slot write =>
      obtain rfl := Option.some.inj isClient
      exact ⟨0, serves_writable⟩
  | accept ip port born => cases isClient
  | flushAll sends => cases isClient
  | flush slot sent => cases isClient
  | sweep now => cases isClient
  | report now => cases isClient

end State

/-! ### While the events are served -/

/-- A read takes 4096 bytes at most, and 200 may have been left. -/
def readMax : Nat := 4296

section Serving

variable {oracle : Oracle} {state : State} {ci : Slot} {job : Job} {rest : List Job}
  {gave : Slot → Finset Slot} {used : Slot → Nat}

/-- What has been read from each client since `epoll_wait` returned, with what it
still has, is bounded; and with it what its buffer holds. -/
structure Serving (state : State) (gave : Slot → Finset Slot) (used : Slot → Nat)
    (jobs : List Job) : Prop where
  early : ∀ job ∈ jobs, job.Early
  fine : ∀ job ∈ jobs, job.Fine state
  given : ∀ d, ∀ e ∈ gave d, (state.clients e).inUse = true
  read : ∀ e, used e + dues e jobs ≤ readMax
  unread : ∀ e, state.Live e ∨ Job.service e ∈ jobs →
    used e + dues e jobs + (state.clients e).rx.length ≤ readMax
  room : ∀ d, (state.clients d).inUse = true →
    2 * (state.clients d).txLen + lonely state.board d ≤
      allowance state.board used (gave d) d

theorem Job.Fine.tenants {after : State} (fine : job.Fine state)
    (same : ∀ d, (after.clients d).inUse = (state.clients d).inUse) : job.Fine after := by
  cases job with
  | service slot => exact (same slot).trans fine
  | writable slot write => exact (same slot).trans fine
  | ready slot gen read write => exact trivial
  | accept ip port born => exact trivial
  | flushAll sends => exact trivial
  | flush slot sent => exact trivial
  | sweep now => exact trivial
  | report now => exact fine

/-- What a client's buffer may hold with two others giving to it. -/
theorem allowance_le {board : Board} {others : Finset Slot} {d : Slot}
    (read : ∀ e, used e ≤ readMax) (few : others.card ≤ 2) :
    allowance board used others d ≤ 523200 := by
  have most : ∀ e, cost board used e ≤ 34414 := by
    intro e
    have bound := read e
    unfold readMax at bound
    unfold cost
    split <;> omega
  have sum : ∑ e ∈ others, cost board used e ≤ others.card • 34414 :=
    Finset.sum_le_card_nsmul others _ 34414 fun e _ => most e
  have own := most d
  have bound := read d
  unfold readMax at bound
  unfold allowance
  rw [smul_eq_mul] at sum
  have two := Nat.mul_le_mul_right 34414 few
  omega

/-- Every call of `client_send` finds room: what was posted before it has been
appended. -/
def Roomy (state : State) (posts : List Post) : Prop :=
  ∀ early ci n late, posts = early ++ (ci, n) :: late →
    (state.clients ci).txLen + State.load ci early + n ≤ txCap

theorem roomy_of_load {posts : List Post}
    (fits : ∀ post ∈ posts, (state.clients post.1).txLen + State.load post.1 posts ≤ txCap) :
    Roomy state posts := by
  rintro early ci n late rfl
  have all := fits (ci, n) (List.mem_append_right _ List.mem_cons_self)
  have split : State.load ci (early ++ (ci, n) :: late) =
      State.load ci early + (n + State.load ci late) := by
    have cons : (ci, n) :: late = [(ci, n)] ++ late := rfl
    rw [cons, State.load_append, State.load_append, State.load_one, if_pos rfl]
  simp only at all
  omega

/-- The work for a client keeps the bounds, and finds room. -/
theorem Serving.work (serving : Serving state gave used (job :: rest))
    (isClient : job.client = some ci)
    (addressed : ∀ post ∈ state.posts oracle job, (state.clients post.1).inUse = true)
    (few : ∀ d, (posting gave ci (state.posts oracle job) d).card ≤ 2) :
    Roomy (state.sending job) (state.posts oracle job) ∧
      ∃ used', Serving (state.perform oracle job).1
        (posting gave ci (state.posts oracle job)) used'
        ((state.perform oracle job).2 ++ rest) := by
  obtain ⟨size, serves⟩ := @State.serves oracle state ci job isClient
  have settles : State.Settles job := by
    cases job <;> first | exact trivial | cases isClient
  have posted := @State.perform_posted oracle state job
  have own : Function.update used ci (used ci + size) ci = used ci + size := Function.update_self ..
  have others : ∀ e, e ≠ ci → Function.update used ci (used ci + size) e = used e :=
    fun e other => Function.update_of_ne other ..
  have spends := @Deed.spends ci size _ _ _ used gave serves.deed
  generalize Function.update used ci (used ci + size) = used' at own others spends
  have read' : ∀ e, used' e + dues e ((state.perform oracle job).2 ++ rest) ≤ readMax := by
    intro e
    have before := serving.read e
    rw [dues_cons] at before
    rw [dues_append, serves.fed]
    by_cases here : e = ci
    · subst here
      rw [own]
      rcases serves.frame with nothing | rfl
      · omega
      · have held := serving.unread e (Or.inr List.mem_cons_self)
        have taken := serves.taken
        rw [dues_cons] at held
        omega
    · rw [others e here]
      omega
  have held : ∀ d, (state.clients d).inUse = true →
      2 * ((state.sending job).clients d).txLen +
        2 * State.load d (state.posts oracle job) +
          lonely (state.perform oracle job).1.board d ≤
        allowance (state.perform oracle job).1.board used'
          (posting gave ci (state.posts oracle job) d) d := by
    intro d inUse
    have room := serving.room d inUse
    have spent := spends d
    have sent := (@State.sending_client state d job settles).1
    omega
  have tenants : ∀ d, ((state.perform oracle job).1.clients d).inUse = (state.clients d).inUse :=
    fun d => (posted.tenants d).1.trans (@State.sending_client state d job settles).2
  have fine : job.Fine state := serving.fine job List.mem_cons_self
  refine ⟨?_, used', ?_, ?_, ?_, read', ?_, ?_⟩
  · apply roomy_of_load
    intro post member
    have bound := held post.1 (addressed post member)
    have most : allowance (state.perform oracle job).1.board used'
        (posting gave ci (state.posts oracle job) post.1) post.1 ≤ 523200 :=
      allowance_le (fun e => (Nat.le_add_right _ _).trans (read' e)) (few post.1)
    unfold txCap
    omega
  · intro more member
    rcases List.mem_append.mp member with new | old
    · exact serves.early new
    · exact serving.early more (List.mem_cons_of_mem _ old)
  · intro more member
    rcases List.mem_append.mp member with new | old
    · have inUse : ((state.perform oracle job).1.clients ci).inUse = true := by
        rw [tenants]
        exact serves.busy fine (Or.inr (List.ne_nil_of_mem new))
      rcases serves.next more new with rfl | ⟨write, rfl⟩
      · exact inUse
      · exact inUse
    · exact (serving.fine more (List.mem_cons_of_mem _ old)).tenants tenants
  · intro d e member
    rw [tenants]
    unfold posting at member
    split at member
    · rename_i posts
      rcases Finset.mem_insert.mp member with rfl | old
      · apply serves.busy fine
        apply Or.inl
        intro nothing
        rw [nothing] at posts
        exact absurd posts.2 List.not_mem_nil
      · exact serving.given d e old
    · exact serving.given d e member
  · intro e open_
    have before : state.Live e ∨ Job.service e ∈ job :: rest := by
      rcases open_ with live | member
      · exact Or.inl (serves.fewer e live)
      rcases List.mem_append.mp member with new | old
      · obtain rfl : e = ci := by
          rcases serves.next _ new with isService | ⟨write, absurd⟩
          · exact Job.service.inj isService
          · cases absurd
        rcases serves.again (List.ne_nil_of_mem new) with live | isJob
        · exact Or.inl live
        · exact Or.inr (isJob ▸ List.mem_cons_self)
      · exact Or.inr (List.mem_cons_of_mem _ old)
    have unread := serving.unread e before
    rw [dues_cons] at unread
    rw [dues_append, serves.fed]
    by_cases here : e = ci
    · subst here
      have taken := serves.taken
      rw [own]
      omega
    · rw [others e here, serves.apart e here]
      omega
  · intro d inUse
    have grows := posted.grows d
    have bound := held d (by rw [← tenants d]; exact inUse)
    omega

/-- A connection that comes is seated, if it is, in a slot that nothing is known
of. -/
theorem acceptClient_seats {ip : Ip} {port : Nat} {born : Time} :
    (state.acceptClient ip port born).clients = state.clients ∨
      ∃ ci client, (state.clients ci).inUse = false ∧
        (state.acceptClient ip port born).clients = Function.update state.clients ci client ∧
        client.txLen = 0 ∧ client.rx = [] := by
  unfold State.acceptClient
  simp only
  split
  · exact Or.inl rfl
  split
  · exact Or.inl rfl
  split
  · exact Or.inl rfl
  · rename_i ci found
    have vacant : (state.clients ci).inUse = false :=
      @State.freeSlot_vacant { state with conns := state.conns + 1 } ci found
    exact Or.inr ⟨ci, _, vacant, rfl, rfl, rfl⟩

theorem lonely_le {board : Board} {d : Slot} : lonely board d ≤ 30 := by
  unfold lonely
  split <;> omega

theorem Serving.accept {ip : Ip} {port : Nat} {born : Time}
    (serving : Serving state gave used (.accept ip port born :: rest)) :
    Serving (state.acceptClient ip port born) gave used rest := by
  have read : ∀ e, used e + dues e rest ≤ readMax := by
    intro e
    have before := serving.read e
    rw [dues_cons] at before
    omega
  have unread : ∀ e, state.Live e ∨ Job.service e ∈ rest →
      used e + dues e rest + (state.clients e).rx.length ≤ readMax := by
    intro e open_
    have before := serving.unread e (open_.imp id (List.mem_cons_of_mem _))
    rw [dues_cons] at before
    omega
  have early : ∀ job ∈ rest, job.Early := fun job member =>
    serving.early job (List.mem_cons_of_mem _ member)
  have fine : ∀ job ∈ rest, job.Fine state := fun job member =>
    serving.fine job (List.mem_cons_of_mem _ member)
  have seats := @acceptClient_seats state ip port born
  have faces : ∀ e, (state.acceptClient ip port born).board e =
      ((state.acceptClient ip port born).clients e).face := fun _ => rfl
  generalize state.acceptClient ip port born = after at seats faces ⊢
  rcases seats with same | ⟨ci, client, vacant, seated, empty, unheard⟩
  · have board : after.board = state.board := by
      funext e
      rw [faces, same]
      rfl
    refine ⟨early, ?_, ?_, read, ?_, ?_⟩
    · exact fun job member => (fine job member).tenants fun d => by rw [same]
    · rw [same]
      exact serving.given
    · unfold State.Live at unread ⊢
      rw [same]
      exact unread
    · rw [same, board]
      exact serving.room
  · have own : after.clients ci = client := by rw [seated, Function.update_self]
    have others : ∀ e, e ≠ ci → after.clients e = state.clients e := fun e other => by
      rw [seated, Function.update_of_ne other]
    have taken : ∀ e, (state.clients e).inUse = true → e ≠ ci := by
      rintro e inUse rfl
      rw [vacant] at inUse
      cases inUse
    have costs : ∀ e, e ≠ ci → cost after.board used e = cost state.board used e := by
      intro e other
      unfold cost
      rw [faces, others e other]
      rfl
    refine ⟨early, ?_, ?_, read, ?_, ?_⟩
    · intro job member
      have before := fine job member
      cases job with
      | service slot => exact (congrArg Client.inUse (others slot (taken slot before))).trans before
      | writable slot write =>
          exact (congrArg Client.inUse (others slot (taken slot before))).trans before
      | ready slot gen read write => exact trivial
      | accept ip port born => exact trivial
      | flushAll sends => exact trivial
      | flush slot sent => exact trivial
      | sweep now => exact trivial
      | report now => exact before
    · intro d e member
      have inUse := serving.given d e member
      rw [others e (taken e inUse)]
      exact inUse
    · intro e open_
      by_cases here : e = ci
      · have nothing : (after.clients e).rx = [] := by rw [here, own, unheard]
        rw [nothing]
        exact read e
      · unfold State.Live at open_
        rw [others e here] at open_ ⊢
        exact unread e open_
    · intro d inUse
      by_cases here : d = ci
      · have alone : lonely after.board d ≤ 30 := lonely_le
        have nothing : (after.clients d).txLen = 0 := by rw [here, own, empty]
        rw [nothing]
        unfold allowance
        omega
      · rw [others d here] at inUse ⊢
        have room := serving.room d inUse
        have same : lonely after.board d = lonely state.board d := by
          unfold lonely
          rw [faces, others d here]
          rfl
        have sums : ∑ e ∈ gave d, cost after.board used e =
            ∑ e ∈ gave d, cost state.board used e :=
          Finset.sum_congr rfl fun e member => costs e (taken e (serving.given d e member))
        unfold allowance at room ⊢
        rw [same, costs d here, sums]
        exact room

end Serving

/-! ### While the buffers are flushed -/

/-- The slots that will be freed. -/
def dying (board : Board) : Nat :=
  (Finset.univ.filter fun e => (board e).inUse = true ∧ (board e).dead = true).card

section Draining

variable {oracle : Oracle} {state after : State} {ci d : Slot} {board later : Board}
  {posts : List Post} {waits : Slot → Prop}

theorem dying_le : dying board ≤ 64 := (Finset.card_le_univ _).trans (Fintype.card_fin 64).le

theorem dying_leave (inUse : (board ci).inUse = true) (alive : (board ci).dead = false) :
    dying (board.leave ci) = dying board + 1 := by
  have absent : ci ∉ Finset.univ.filter
      fun e => (board e).inUse = true ∧ (board e).dead = true := by
    intro member
    have dead := (Finset.mem_filter.mp member).2.2
    rw [alive] at dead
    cases dead
  unfold dying
  rw [← Finset.card_insert_of_notMem absent]
  congr 1
  ext e
  simp only [Finset.mem_filter, Finset.mem_univ, true_and, Finset.mem_insert, leave_dead,
    (Board.sameTenants_leave e).1]
  by_cases here : e = ci
  · rw [here]
    simp [inUse]
  · simp [here]

/-- Without a read, what is posted is that somebody has left. -/
theorem Deed.drains (deed : Deed ci 0 board posts later) (inUse : (board ci).inUse = true)
    (d : Slot) : 2 * State.load d posts + 16 * dying board ≤ 16 * dying later := by
  cases deed with
  | idle stays calls =>
      subst stays calls
      have nothing : State.load d [] = 0 := rfl
      omega
  | reply n stays calls short =>
      subst stays calls
      rw [State.load_one]
      split <;> omega
  | forward partner n stays calls short =>
      subst stays calls
      rw [State.load_one]
      split <;> omega
  | drops alive leaves calls =>
      subst leaves calls
      have told : State.load d (((board ci).partner.map fun partner =>
          (partner, gamePayload + 2)).toList) ≤ 8 := by
        cases (board ci).partner with
        | none => exact Nat.zero_le _
        | some partner =>
            rw [Option.map_some, Option.toList_some, State.load_one]
            split
            · exact Nat.le_refl _
            · exact Nat.zero_le _
      rw [dying_leave inUse alive]
      omega
  | pairs host apart alone links calls long => omega

/-- What the buffers hold when the events have been served; `waits` are the slots
that have yet to be flushed. -/
structure Draining (state : State) (waits : Slot → Prop) : Prop where
  full : ∀ d, (state.clients d).inUse = true →
    2 * (state.clients d).txLen ≤ 523200 + 16 * dying state.board
  drained : ∀ d, state.Live d → ¬ waits d →
    2 * (state.clients d).txLen ≤ 131072 + 16 * dying state.board

/-- Work that posts farewells, each for somebody who leaves, finds room. -/
theorem Draining.room (draining : Draining state waits) {job : Job}
    (settles : State.Settles job)
    (addressed : ∀ post ∈ posts, (state.clients post.1).inUse = true)
    (leaves : ∀ d, 2 * State.load d posts + 16 * dying state.board ≤ 16 * dying later) :
    Roomy (state.sending job) posts := by
  apply roomy_of_load
  intro post member
  have full := draining.full post.1 (addressed post member)
  have sent := (@State.sending_client state post.1 job settles).1
  have told := leaves post.1
  have most := @dying_le later
  unfold txCap
  omega

/-- And keeps the bounds. -/
theorem Draining.work (draining : Draining state waits) {job : Job}
    (settles : State.Settles job) (posted : State.Posted (state.sending job) posts after)
    (leaves : ∀ d, 2 * State.load d posts + 16 * dying state.board ≤ 16 * dying after.board)
    (fewer : ∀ d, after.Live d → state.Live d) : Draining after waits := by
  have grows : ∀ d, 2 * (after.clients d).txLen ≤
      2 * (state.clients d).txLen + 2 * State.load d posts := by
    intro d
    have sent := (@State.sending_client state d job settles).1
    have most := posted.grows d
    omega
  refine ⟨?_, ?_⟩
  · intro d inUse
    have before : (state.clients d).inUse = true := by
      rw [← (@State.sending_client state d job settles).2, ← (posted.tenants d).1]
      exact inUse
    have full := draining.full d before
    have more := grows d
    have told := leaves d
    omega
  · intro d live done
    have drained := draining.drained d (fewer d live) done
    have more := grows d
    have told := leaves d
    omega

/-- A client that is still there when it has been flushed is not backed up. -/
theorem flush_backlog {sent : Relay.Sent}
    (alive : ((state.flush oracle ci sent).clients ci).dead = false) :
    ((state.flush oracle ci sent).clients ci).txLen ≤ maxTxBacklog := by
  have checked : ∀ {state : State}, ((state.checkBacklog oracle ci).clients ci).dead = false →
      ((state.checkBacklog oracle ci).clients ci).txLen ≤ maxTxBacklog := by
    intro state alive
    unfold State.checkBacklog at alive ⊢
    simp only at alive ⊢
    split
    · rename_i backed
      rw [if_pos backed, State.dead_drop] at alive
      cases alive
    · rename_i small
      exact Nat.not_lt.mp small
  unfold State.flush at alive ⊢
  by_cases empty : (state.clients ci).txLen = 0
  · rw [if_pos empty, empty]
    exact Nat.zero_le _
  rw [if_neg empty] at alive ⊢
  cases isFd : (state.clients ci).fd with
  | none =>
      rw [isFd] at alive
      rw [State.dead_drop] at alive
      cases alive
  | some fd =>
      rw [isFd] at alive
      cases sent with
      | failed =>
          rw [State.dead_drop] at alive
          cases alive
      | blocked => exact checked alive
      | took count => exact checked alive

theorem Draining.flush {sent : Relay.Sent} {rest : List Slot}
    (draining : Draining state fun d => d ∈ ci :: rest)
    (addressed : ∀ post ∈ state.posts oracle (.flush ci sent),
      (state.clients post.1).inUse = true) :
    Roomy (state.sending (.flush ci sent)) (state.posts oracle (.flush ci sent)) ∧
      Draining (state.perform oracle (.flush ci sent)).1 fun d => d ∈ rest := by
  have posted := @State.perform_posted oracle state (.flush ci sent)
  by_cases shut : (state.clients ci).inUse = false ∨ (state.clients ci).dead
  · have same : state.perform oracle (.flush ci sent) = (state, []) := if_pos shut
    have none_ : state.posts oracle (.flush ci sent) = [] := if_pos shut
    rw [same, none_]
    refine ⟨?_, draining.full, ?_⟩
    · rintro early slot n late absurd
      cases early <;> cases absurd
    · intro d live done
      apply draining.drained d live
      intro member
      rcases List.mem_cons.mp member with rfl | later
      · rcases shut with unused | dead
        · rw [live.1] at unused
          cases unused
        · rw [live.2] at dead
          cases dead
      · exact done later
  have flushes : state.perform oracle (.flush ci sent) = (state.flush oracle ci sent, []) :=
    if_neg shut
  have told : state.posts oracle (.flush ci sent) = state.flushPosts ci sent := if_neg shut
  have inUse : (state.clients ci).inUse = true :=
    Bool.eq_true_of_not_eq_false fun unused => shut (Or.inl unused)
  have leaves : ∀ d, 2 * State.load d (state.flushPosts ci sent) + 16 * dying state.board ≤
      16 * dying (state.flush oracle ci sent).board :=
    Deed.drains State.deed_flush inUse
  rw [flushes, told] at posted
  rw [told] at addressed
  rw [flushes, told]
  simp only at posted ⊢
  have settles : State.Settles (.flush ci sent) := trivial
  have after := draining.work settles posted leaves
    (State.each_flush sameIntake_gentle).calm.fewer
  refine ⟨draining.room settles addressed leaves, after.full, ?_⟩
  intro d live done
  by_cases here : d = ci
  · subst here
    have small := flush_backlog live.2
    unfold maxTxBacklog at small
    omega
  · exact after.drained d live fun member => done ((List.mem_cons.mp member).resolve_left here)

theorem expire_drains {now : Time} (d : Slot) :
    2 * State.load d (state.expirePosts now ci) + 16 * dying state.board ≤
      16 * dying (State.expire oracle now state ci).board := by
  by_cases inUse : (state.clients ci).inUse = true
  · exact Deed.drains State.deed_expire inUse d
  · have same : State.expire oracle now state ci = state := if_neg fun all => inUse all.1
    have none_ : state.expirePosts now ci = [] := if_neg fun all => inUse all.1
    have nothing : State.load d [] = 0 := rfl
    rw [same, none_, nothing]
    omega

theorem sweep_drains {now : Time} {order : List Slot} (d : Slot) :
    2 * State.load d (State.sweepPosts oracle now order state) + 16 * dying state.board ≤
      16 * dying (order.foldl (State.expire oracle now) state).board := by
  induction order generalizing state with
  | nil =>
      have nothing : State.load d (State.sweepPosts oracle now [] state) = 0 := rfl
      rw [nothing, List.foldl_nil]
      omega
  | cons slot rest inductionHypothesis =>
      have first := @expire_drains oracle state slot now d
      have others := @inductionHypothesis (State.expire oracle now state slot)
      rw [State.sweepPosts, State.load_append, List.foldl_cons]
      omega

theorem Draining.sweep {now : Time} (draining : Draining state waits)
    (addressed : ∀ post ∈ state.posts oracle (.sweep now), (state.clients post.1).inUse = true) :
    Roomy (state.sending (.sweep now)) (state.posts oracle (.sweep now)) ∧
      Draining (state.perform oracle (.sweep now)).1 waits := by
  have posted := @State.perform_posted oracle state (.sweep now)
  have leaves : ∀ d, 2 * State.load d (state.posts oracle (.sweep now)) +
      16 * dying state.board ≤ 16 * dying (state.perform oracle (.sweep now)).1.board := by
    intro d
    unfold State.posts State.perform State.sweepAtPosts State.sweepAt
    simp only
    split
    · exact sweep_drains d
    · have nothing : State.load d [] = 0 := rfl
      omega
  have calm : State.Calm state (state.perform oracle (.sweep now)).1 :=
    (State.each_sweepAt sameIntake_gentle).calm
  have settles : State.Settles (.sweep now) := trivial
  exact ⟨draining.room settles addressed leaves,
    draining.work settles posted leaves calm.fewer⟩

/-- The slots that are in use when an iteration is over. -/
structure Rested (state : State) : Prop where
  alive : ∀ d, (state.clients d).inUse = true → (state.clients d).dead = false
  small : ∀ d, (state.clients d).inUse = true → 2 * (state.clients d).txLen ≤ 132096

theorem Draining.report {now : Time} (draining : Draining state fun _ => False) :
    Rested (state.reportAt now).reap := by
  have clients : (state.reportAt now).clients = state.clients := by
    unfold State.reportAt
    split <;> rfl
  have kept : ∀ d, ((state.reportAt now).reap.clients d).inUse = true →
      (state.clients d).dead = false ∧
        (state.reportAt now).reap.clients d = state.clients d := by
    intro d inUse
    unfold State.reap at inUse ⊢
    simp only [clients] at inUse ⊢
    split at inUse
    · cases inUse
    · rename_i spared
      rw [if_neg spared]
      refine ⟨?_, rfl⟩
      by_contra dead
      exact spared (Bool.and_eq_true_iff.mpr ⟨inUse, Bool.eq_true_of_not_eq_false dead⟩)
  refine ⟨?_, ?_⟩
  · intro d inUse
    obtain ⟨alive, same⟩ := kept d inUse
    rw [same]
    exact alive
  · intro d inUse
    obtain ⟨alive, same⟩ := kept d inUse
    rw [same] at inUse ⊢
    have small := draining.drained d ⟨inUse, alive⟩ id
    have most := @dying_le state.board
    omega

end Draining

end DragsterNet.CRelay
