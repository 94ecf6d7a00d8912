/-
Module: DragsterNet.CRelay.Posts
Purpose: What each function of the C relay hands to `client_send`, and that the
  transmit buffers change by that and by what `send` takes.
Trusted boundary: none
Main exports: Post, State.posts, State.posts_small, State.Posted,
  State.sending, State.perform_posted, State.load, State.Posted.grows
-/
import DragsterNet.CRelay.Each
import DragsterNet.Relay.Segments

namespace DragsterNet.CRelay

open Lib Relay

/-- A call of `client_send`: for whom, and how many bytes. -/
abbrev Post := Slot × Nat

/-- The scratch buffers of the frames on their way out. -/
def frameMax : Nat := 256

namespace State

/-- `send_frame` -/
def framePost (ci : Slot) (payload : Nat) : Post := (ci, payload + 2)

def leavePartnerPosts (state : State) (ci : Slot) : List Post :=
  match (state.clients ci).partner with
  | some partner => [framePost partner gamePayload]
  | none => []

def dropPosts (state : State) (ci : Slot) : List Post :=
  if (state.clients ci).dead then [] else state.leavePartnerPosts ci

/-- `sizeof pl` -/
def startSize : Nat := 13

def tryPairPosts (state : State) (ci : Slot) : List Post :=
  match state.waiting ci with
  | none => []
  | some host => [framePost host startSize, framePost ci startSize]

variable (oracle : Oracle)

def onHelloPosts (state : State) (ci : Slot) (payload : Bytes) : List Post :=
  let state := state.noteTv ci payload
  match readHello payload with
  | .error _ => state.dropPosts ci
  | .ok (tv, name) =>
      match freeName state.nameTaken (nextDigit oracle) nameGuard state.digits name with
      | .error _ => state.dropPosts ci
      | .ok (name, drawn) => (state.register oracle ci name tv drawn).tryPairPosts ci

def sendLobbyPosts (state : State) (ci : Slot) : List Post :=
  [framePost ci (1 + state.lobbyEntries.length * 9)]

def forwardPosts (state : State) (ci : Slot) (payload : Bytes) : List Post :=
  match (state.clients ci).partner with
  | none => []
  | some partner => [framePost partner (max payload.length gamePayload)]

def handlePosts (state : State) (ci : Slot) (ftype : Byte) (payload : Bytes) : List Post :=
  if ftype ∈ relayTypes then state.forwardPosts ci payload
  else if ftype = tHello then state.onHelloPosts oracle ci payload
  else if ftype = tList then state.sendLobbyPosts ci
  else if ftype = tJoin then state.tryPairPosts ci
  else if ftype = tPing then [framePost ci 0]
  else if ftype = tBye then state.dropPosts ci
  else []

def serviceOncePosts (state : State) (ci : Slot) : List Post :=
  match readFrame (state.clients ci).rx with
  | .short => []
  | .bad _ => state.dropPosts ci
  | .whole body rest =>
      (state.edit ci fun client => { client with rx := rest }).handlePosts oracle ci
        (body.headD 0) body.tail

def checkBacklogPosts (state : State) (ci : Slot) : List Post :=
  if maxTxBacklog < (state.clients ci).txLen then state.dropPosts ci else []

def flushPosts (state : State) (ci : Slot) (sent : Relay.Sent) : List Post :=
  if (state.clients ci).txLen = 0 then []
  else
    match (state.clients ci).fd with
    | none => state.dropPosts ci
    | some _ =>
        match sent with
        | .failed => state.dropPosts ci
        | .blocked => state.checkBacklogPosts ci
        | .took count =>
            (state.edit ci fun client => consumeTx client count).checkBacklogPosts ci

def writablePosts (state : State) (ci : Slot) (write : Option Relay.Sent) : List Post :=
  match write with
  | some sent => if (state.clients ci).dead then [] else state.flushPosts ci sent
  | none => []

def expirePosts (now : Time) (state : State) (ci : Slot) : List Post :=
  let client := state.clients ci
  if client.inUse ∧ client.dead = false ∧ client.hasName = false ∧
      helloTimeout < now - client.born then state.dropPosts ci
  else []

/-- The clients are looked at in their order, each in the state the others have
left. -/
def sweepPosts (now : Time) : List Slot → State → List Post
  | [], _ => []
  | ci :: rest, state =>
      state.expirePosts now ci ++ sweepPosts now rest (expire oracle now state ci)

def sweepAtPosts (state : State) (now : Time) : List Post :=
  if sweepInterval < now - state.lastSweep then sweepPosts oracle now state.order state else []

/-- What a piece of the loop hands to `client_send`, in its order. -/
def posts (state : State) : Job → List Post
  | .accept _ _ _ => []
  | .ready ci gen read write =>
      if (state.clients ci).inUse = false ∨ (state.clients ci).gen ≠ gen then []
      else if (state.clients ci).dead then []
      else
        match read with
        | none => state.writablePosts ci write
        | some data =>
            match state.receive ci data with
            | some _ => []
            | none => (state.noteOverflow ci data).dropPosts ci
  | .service ci => state.serviceOncePosts oracle ci
  | .writable ci write => state.writablePosts ci write
  | .flushAll _ => []
  | .flush ci sent =>
      if (state.clients ci).inUse = false ∨ (state.clients ci).dead then []
      else state.flushPosts ci sent
  | .sweep now => state.sweepAtPosts oracle now
  | .report _ => []

/-! ### They fit the scratch buffers -/

variable {oracle} {state after : State} {ci d host guest : Slot} {post : Post}

theorem framePost_small {payload : Nat} (short : payload + 2 ≤ frameMax) :
    (framePost ci payload).2 ≤ frameMax := short

theorem dropPosts_small (member : post ∈ state.dropPosts ci) : post.2 ≤ frameMax := by
  unfold dropPosts at member
  split at member
  · cases member
  · unfold leavePartnerPosts at member
    split at member
    · rw [List.mem_singleton.mp member]
      exact framePost_small (by decide)
    · cases member

theorem tryPairPosts_small (member : post ∈ state.tryPairPosts ci) : post.2 ≤ frameMax := by
  unfold tryPairPosts at member
  split at member
  · cases member
  · rcases List.mem_cons.mp member with rfl | later
    · exact framePost_small (by decide)
    · rw [List.mem_singleton.mp later]
      exact framePost_small (by decide)

theorem onHelloPosts_small {payload : Bytes}
    (member : post ∈ state.onHelloPosts oracle ci payload) : post.2 ≤ frameMax := by
  unfold onHelloPosts at member
  simp only at member
  split at member
  · exact dropPosts_small member
  · split at member
    · exact dropPosts_small member
    · exact tryPairPosts_small member

theorem lobbyEntries_few : state.lobbyEntries.length ≤ 8 := by
  unfold lobbyEntries
  rw [List.length_take]
  exact Nat.min_le_left _ _

/-- A frame of at most 200 bytes makes no longer ones. -/
theorem handlePosts_small {ftype : Byte} {payload : Bytes} (short : payload.length + 1 ≤ 200)
    (member : post ∈ state.handlePosts oracle ci ftype payload) : post.2 ≤ frameMax := by
  unfold handlePosts at member
  split at member
  · unfold forwardPosts at member
    split at member
    · cases member
    · rw [List.mem_singleton.mp member]
      have bound : max payload.length gamePayload ≤ 199 := by
        apply Nat.max_le.mpr
        exact ⟨by omega, by decide⟩
      exact framePost_small ((Nat.add_le_add_right bound 2).trans (by decide))
  split at member
  · exact onHelloPosts_small member
  split at member
  · rw [List.mem_singleton.mp member]
    have few := @lobbyEntries_few state
    apply framePost_small
    unfold frameMax
    omega
  split at member
  · exact tryPairPosts_small member
  split at member
  · rw [List.mem_singleton.mp member]
    exact framePost_small (by decide)
  split at member
  · exact dropPosts_small member
  · cases member

theorem serviceOncePosts_small (member : post ∈ state.serviceOncePosts oracle ci) :
    post.2 ≤ frameMax := by
  unfold serviceOncePosts at member
  split at member
  · cases member
  · exact dropPosts_small member
  · rename_i body rest read
    obtain ⟨n, fair, length, -⟩ := Relay.Server.readFrame_whole_iff.mp read
    apply handlePosts_small _ member
    rw [List.length_tail]
    omega

theorem checkBacklogPosts_small (member : post ∈ state.checkBacklogPosts ci) :
    post.2 ≤ frameMax := by
  unfold checkBacklogPosts at member
  split at member
  · exact dropPosts_small member
  · cases member

theorem flushPosts_small {sent : Relay.Sent} (member : post ∈ state.flushPosts ci sent) :
    post.2 ≤ frameMax := by
  unfold flushPosts at member
  split at member
  · cases member
  split at member
  · exact dropPosts_small member
  split at member
  · exact dropPosts_small member
  · exact checkBacklogPosts_small member
  · exact checkBacklogPosts_small member

theorem writablePosts_small {write : Option Relay.Sent}
    (member : post ∈ state.writablePosts ci write) : post.2 ≤ frameMax := by
  unfold writablePosts at member
  split at member
  · split at member
    · cases member
    · exact flushPosts_small member
  · cases member

theorem sweepPosts_small {now : Time} {order : List Slot}
    (member : post ∈ sweepPosts oracle now order state) : post.2 ≤ frameMax := by
  induction order generalizing state with
  | nil => cases member
  | cons slot rest inductionHypothesis =>
      rcases List.mem_append.mp member with first | later
      · unfold expirePosts at first
        simp only at first
        split at first
        · exact dropPosts_small first
        · cases first
      · exact inductionHypothesis later

/-- No frame of the relay is longer than its scratch buffer. -/
theorem posts_small {job : Job} (member : post ∈ state.posts oracle job) :
    post.2 ≤ frameMax := by
  cases job with
  | accept ip port born => cases member
  | ready slot gen read write =>
      unfold posts at member
      simp only at member
      split at member
      · cases member
      split at member
      · cases member
      split at member
      · exact writablePosts_small member
      · split at member
        · cases member
        · exact dropPosts_small member
  | service slot => exact serviceOncePosts_small member
  | writable slot write => exact writablePosts_small member
  | flushAll sends => cases member
  | flush slot sent =>
      unfold posts at member
      simp only at member
      split at member
      · cases member
      · exact flushPosts_small member
  | sweep now =>
      unfold posts sweepAtPosts at member
      simp only at member
      split at member
      · exact sweepPosts_small member
      · cases member
  | report now => cases member

/-! ### They are what is posted -/

/-- A client whose transmit buffer and connection are as before. -/
structure SameTx (one two : Client) : Prop where
  tx : two.tx = one.tx
  txLen : two.txLen = one.txLen
  holds : two.holds = one.holds
  inUse : two.inUse = one.inUse
  fd : ∀ fd, two.fd = some fd → one.fd = some fd

theorem sameTx_rfl {client : Client} : SameTx client client :=
  ⟨rfl, rfl, rfl, rfl, fun _ => id⟩

/-- Bytes that go into a transmit buffer or out of it. -/
def traffic : Seen → Bool
  | .append _ _ _ => true
  | .sent _ _ => true
  | .close _ => false
  | .line _ => false
  | .players _ => false
  | .paired _ _ => false

/-- Nothing has gone into a transmit buffer or out of it. -/
structure Untouched (state after : State) : Prop where
  clients : ∀ ci, SameTx (state.clients ci) (after.clients ci)
  seen : ∃ more, after.seen = state.seen ++ more ∧ ∀ seen ∈ more, traffic seen = false
  conns : after.conns = state.conns

/-- The calls of `client_send` between two states, in their order. -/
inductive Posted (state : State) : List Post → State → Prop where
  | refl : Posted state [] state
  | aside {posts : List Post} {middle after : State} (before : Posted state posts middle)
      (untouched : Untouched middle after) : Posted state posts after
  | send {posts : List Post} {middle : State} (src : Option Slot) (ci : Slot) (data : Bytes)
      (before : Posted state posts middle) :
      Posted state (posts ++ [(ci, data.length)]) (middle.clientSend src ci data)

variable {posts more : List Post} {middle : State} {change : Client → Client}

theorem Posted.trans (one : Posted state posts middle) (two : Posted middle more after) :
    Posted state (posts ++ more) after := by
  induction two with
  | refl =>
      rw [List.append_nil]
      exact one
  | aside before untouched inductionHypothesis => exact inductionHypothesis.aside untouched
  | send src ci data before inductionHypothesis =>
      rw [← List.append_assoc]
      exact inductionHypothesis.send src ci data

/-- What changes no client and says nothing of the buffers. -/
theorem Posted.congr {later : State} (posted : Posted state posts after)
    (clients : later.clients = after.clients) (conns : later.conns = after.conns)
    {said : List Seen} (seen : later.seen = after.seen ++ said)
    (quiet : ∀ seen ∈ said, traffic seen = false) : Posted state posts later := by
  apply posted.aside
  refine ⟨?_, ⟨said, seen, quiet⟩, conns⟩
  rw [clients]
  exact fun _ => sameTx_rfl

/-- What changes no client and says nothing at all. -/
theorem Posted.silent {later : State} (posted : Posted state posts after)
    (clients : later.clients = after.clients) (conns : later.conns = after.conns)
    (seen : later.seen = after.seen) : Posted state posts later :=
  posted.congr clients conns (seen.trans (List.append_nil _).symm)
    fun _ member => absurd member List.not_mem_nil

theorem Posted.note {seen : Seen} (posted : Posted state posts after)
    (quiet : traffic seen = false) : Posted state posts (after.note seen) :=
  posted.congr rfl rfl rfl fun other member => by
    rw [List.mem_singleton.mp member]
    exact quiet

theorem Posted.log {line : Line} (posted : Posted state posts after) :
    Posted state posts (after.log line) := posted.note rfl

theorem Posted.count {counts : Counters → Counters} (posted : Posted state posts after) :
    Posted state posts (after.count counts) := posted.silent rfl rfl rfl

theorem Posted.edit (posted : Posted state posts after)
    (kept : SameTx (after.clients ci) (change (after.clients ci))) :
    Posted state posts (after.edit ci change) := by
  apply posted.aside
  refine ⟨?_, ⟨[], (List.append_nil _).symm, fun _ member => absurd member List.not_mem_nil⟩, rfl⟩
  intro d
  by_cases here : d = ci
  · rw [here, edit_self]
    exact kept
  · rw [edit_of_ne here]
    exact sameTx_rfl

theorem clients_note {seen : Seen} : (state.note seen).clients = state.clients := rfl

theorem Posted.sendFrame {src : Option Slot} {ftype : Byte} {payload : Bytes}
    (posted : Posted state posts after) :
    Posted state (posts ++ [framePost ci payload.length]) (after.sendFrame src ci ftype payload) :=
  posted.send src ci (wire ftype payload)

theorem Posted.lobbyUpdateCount (posted : Posted state posts after) :
    Posted state posts (lobbyUpdateCount oracle after) := by
  unfold State.lobbyUpdateCount
  split
  · exact posted.note rfl
  · exact posted

theorem Posted.unregister (posted : Posted state posts after) :
    Posted state posts (after.unregister ci) := by
  unfold State.unregister nameDelIfIs
  split
  · split
    · exact posted
    · split
      · exact posted
      · exact posted.silent rfl rfl rfl
  · exact posted

theorem unregister_clients : (state.unregister ci).clients = state.clients := by
  unfold unregister
  split
  · unfold nameDelIfIs
    split
    · rfl
    · split <;> rfl
  · rfl

theorem Posted.leavePartner (posted : Posted state posts after) :
    Posted state (posts ++ after.leavePartnerPosts ci) (after.leavePartner ci) := by
  unfold State.leavePartner leavePartnerPosts
  cases (after.clients ci).partner with
  | none =>
      rw [List.append_nil]
      exact posted
  | some partner =>
      have alone : Posted state posts
          (after.edit partner fun client => { client with partner := none }) :=
        posted.edit ⟨rfl, rfl, rfl, rfl, fun _ => id⟩
      have told := @Posted.sendFrame _ _ partner _ (some ci) tPeerLeft
        (List.replicate gamePayload 0) alone
      rw [List.length_replicate] at told
      exact told.log

theorem Posted.closeSlot (posted : Posted state posts after) :
    Posted state posts (after.closeSlot ci) := by
  unfold State.closeSlot
  cases (after.clients ci).fd with
  | none => exact posted.silent rfl rfl rfl
  | some fd =>
      have unwatched : Posted state posts
          ({ after with watched := Function.update after.watched fd none } : State) :=
        posted.silent rfl rfl rfl
      have shut : Posted state posts (({ after with
          watched := Function.update after.watched fd none } : State).note (.close fd)) :=
        unwatched.note rfl
      have closed : Posted state posts ((({ after with
          watched := Function.update after.watched fd none } : State).note (.close fd)).edit ci
            fun client => { client with fd := none }) :=
        shut.edit ⟨rfl, rfl, rfl, rfl, fun _ isSome => by cases isSome⟩
      exact closed.silent rfl rfl rfl

theorem Posted.farewell (posted : Posted state posts after) :
    Posted state posts (after.farewell ci) := by
  unfold State.farewell
  split
  · exact posted.log
  · exact posted

theorem Posted.drop (posted : Posted state posts after) :
    Posted state (posts ++ after.dropPosts ci) (after.drop oracle ci) := by
  unfold State.drop dropPosts
  split
  · rw [List.append_nil]
    exact posted
  · have marked : Posted state posts (after.edit ci fun client => { client with dead := true }) :=
      posted.edit ⟨rfl, rfl, rfl, rfl, fun _ => id⟩
    have partner : ((((after.edit ci fun client => { client with dead := true }).unregister
        ci).clients ci).partner) = (after.clients ci).partner := by
      rw [unregister_clients, edit_self]
    have left := @Posted.leavePartner _ _ ci _ (@Posted.unregister _ _ ci _ marked)
    have same : ((after.edit ci fun client => { client with dead := true }).unregister
        ci).leavePartnerPosts ci = after.leavePartnerPosts ci := by
      unfold leavePartnerPosts
      rw [partner]
    rw [same] at left
    exact left.closeSlot.farewell.lobbyUpdateCount

theorem Posted.link (posted : Posted state posts after) :
    Posted state posts (after.link host guest) := by
  unfold State.link
  apply Posted.note _ rfl
  apply Posted.edit _ ⟨rfl, rfl, rfl, rfl, fun _ => id⟩
  exact posted.edit ⟨rfl, rfl, rfl, rfl, fun _ => id⟩

theorem startPayload_size {header name : Bytes} (five : header.length = 5) :
    (header ++ padName name).length = startSize := by
  unfold padName
  rw [List.length_append, List.length_rightpad, List.length_take, five]
  unfold startSize
  omega

theorem Posted.startFrame {seed : BitVec 16} {role : Nat} (posted : Posted state posts after) :
    Posted state (posts ++ [framePost host startSize])
      (startFrame oracle after seed role host guest) := by
  have cleared : Posted state posts (after.edit host fun client => { client with crc := [] }) :=
    posted.edit ⟨rfl, rfl, rfl, rfl, fun _ => id⟩
  have sent := @Posted.sendFrame _ _ host _ none tStart
    ([BitVec.ofNat 8 role, seed.extractLsb' 0 8, seed.extractLsb' 8 8,
      BitVec.ofInt 8 oracle.delay, BitVec.ofNat 8 oracle.variation.val] ++
        padName ((after.edit host fun client => { client with crc := [] }).clients guest).name)
    cleared
  rw [startPayload_size rfl] at sent
  exact sent

theorem Posted.tryPair (posted : Posted state posts after) :
    Posted state (posts ++ after.tryPairPosts ci) (after.tryPair oracle ci) := by
  unfold State.tryPair tryPairPosts
  cases after.waiting ci with
  | none =>
      rw [List.append_nil]
      exact posted
  | some host =>
      have drawn : Posted state posts { after with seeds := after.seeds + 1 } :=
        posted.silent rfl rfl rfl
      have linked : Posted state posts ({ after with seeds := after.seeds + 1 }.link host ci) :=
        drawn.link
      have hosted : Posted state (posts ++ [framePost host startSize])
          (State.startFrame oracle ({ after with seeds := after.seeds + 1 }.link host ci)
            (oracle.seed after.seeds) 0 host ci) := linked.startFrame
      have started : Posted state (posts ++ [framePost host startSize] ++ [framePost ci startSize])
          (State.startFrame oracle (State.startFrame oracle
            ({ after with seeds := after.seeds + 1 }.link host ci)
              (oracle.seed after.seeds) 0 host ci) (oracle.seed after.seeds) 1 ci host) :=
        hosted.startFrame
      rw [List.append_assoc] at started
      exact started.count.log.lobbyUpdateCount

theorem Posted.noteTv {payload : Bytes} (posted : Posted state posts after) :
    Posted state posts (after.noteTv ci payload) := by
  unfold State.noteTv
  split
  · exact posted
  · exact posted.edit ⟨rfl, rfl, rfl, rfl, fun _ => id⟩

theorem Posted.nameSet {name : Bytes} (posted : Posted state posts after) :
    Posted state posts (after.nameSet name ci) := by
  unfold State.nameSet
  simp only
  split
  · exact posted.silent rfl rfl rfl
  · exact posted.silent rfl rfl rfl

theorem Posted.register {name : Bytes} {tv : Byte} {drawn : Nat}
    (posted : Posted state posts after) :
    Posted state posts (after.register oracle ci name tv drawn) := by
  have named : Posted state posts
      (after.edit ci fun client => { client with name := name, hasName := true }) :=
    posted.edit ⟨rfl, rfl, rfl, rfl, fun _ => id⟩
  unfold State.register
  simp only
  apply Posted.lobbyUpdateCount
  apply Posted.log
  have entered : Posted state posts
      ((after.edit ci fun client => { client with name := name, hasName := true }).nameSet
        name ci) := named.nameSet
  exact entered.silent rfl rfl rfl

theorem Posted.onHello {payload : Bytes} (posted : Posted state posts after) :
    Posted state (posts ++ after.onHelloPosts oracle ci payload)
      (after.onHello oracle ci payload) := by
  unfold State.onHello onHelloPosts
  simp only
  have noted : Posted state posts (after.noteTv ci payload) := posted.noteTv
  cases readHello payload with
  | error refusal => exact noted.log.drop
  | ok hello =>
      obtain ⟨tv, name⟩ := hello
      simp only
      cases freeName (after.noteTv ci payload).nameTaken (nextDigit oracle) nameGuard
          (after.noteTv ci payload).digits name with
      | error name =>
          have counted : Posted state posts ({ after.noteTv ci payload with
              digits := (after.noteTv ci payload).digits + nameGuard } : State) :=
            noted.silent rfl rfl rfl
          exact counted.log.drop
      | ok found => exact noted.register.tryPair

theorem lobbyPayload_size :
    (BitVec.ofNat 8 state.lobbyEntries.length :: state.lobbyEntries.flatten).length =
      1 + state.lobbyEntries.length * 9 := by
  have nine : ∀ entry ∈ state.lobbyEntries, entry.length = 9 := by
    intro entry member
    obtain ⟨slot, -, isEntry⟩ := List.mem_filterMap.mp (List.mem_of_mem_take member)
    split at isEntry
    · obtain rfl := Option.some.inj isEntry
      unfold padName
      rw [List.length_append, List.length_rightpad, List.length_take, List.length_singleton]
      omega
    · cases isEntry
  have all : ∀ entries : List Bytes, (∀ entry ∈ entries, entry.length = 9) →
      entries.flatten.length = entries.length * 9 := by
    intro entries each
    induction entries with
    | nil => rfl
    | cons entry rest inductionHypothesis =>
        rw [List.flatten_cons, List.length_append, each entry List.mem_cons_self,
          inductionHypothesis fun other member => each other (List.mem_cons_of_mem _ member),
          List.length_cons]
        omega
  rw [List.length_cons, all _ nine]
  omega

theorem Posted.sendLobby (posted : Posted state posts after) :
    Posted state (posts ++ after.sendLobbyPosts ci) (after.sendLobby ci) := by
  have sent := @Posted.sendFrame _ _ ci _ none tLobby
    (BitVec.ofNat 8 after.lobbyEntries.length :: after.lobbyEntries.flatten) posted
  rw [lobbyPayload_size] at sent
  exact sent

theorem Posted.logCrc {payload : Bytes} (posted : Posted state posts after) :
    Posted state posts (after.logCrc ci payload) := by
  unfold State.logCrc
  simp only
  split
  · apply Posted.edit _ ⟨rfl, rfl, rfl, rfl, fun _ => id⟩
    exact posted.edit ⟨rfl, rfl, rfl, rfl, fun _ => id⟩
  · split
    · apply Posted.log
      apply Posted.count
      apply Posted.edit _ ⟨rfl, rfl, rfl, rfl, fun _ => id⟩
      exact posted.edit ⟨rfl, rfl, rfl, rfl, fun _ => id⟩
    · apply Posted.count
      apply Posted.edit _ ⟨rfl, rfl, rfl, rfl, fun _ => id⟩
      exact posted.edit ⟨rfl, rfl, rfl, rfl, fun _ => id⟩

theorem Posted.forward {ftype : Byte} {payload : Bytes} (posted : Posted state posts after) :
    Posted state (posts ++ after.forwardPosts ci payload) (after.forward ci ftype payload) := by
  unfold State.forward forwardPosts
  cases (after.clients ci).partner with
  | none =>
      rw [List.append_nil]
      exact posted
  | some partner =>
      have sent := @Posted.sendFrame _ _ partner _ (some ci) ftype
        (payload.rightpad gamePayload 0) posted
      rwa [List.length_rightpad, Nat.max_comm] at sent

theorem Posted.handle {ftype : Byte} {payload : Bytes} (posted : Posted state posts after) :
    Posted state (posts ++ after.handlePosts oracle ci ftype payload)
      (after.handle oracle ci ftype payload) := by
  unfold State.handle handlePosts
  split
  · simp only
    split
    · exact posted.forward.logCrc
    · exact posted.forward
  split
  · exact posted.onHello
  split
  · exact posted.sendLobby
  split
  · exact posted.tryPair
  split
  · exact @Posted.sendFrame _ _ ci _ none tPong [] posted
  split
  · exact posted.drop
  · rw [List.append_nil]
    exact posted.log

theorem posted_serviceOnce :
    Posted state (state.serviceOncePosts oracle ci) (state.serviceOnce oracle ci).1 := by
  unfold serviceOnce serviceOncePosts
  cases readFrame (state.clients ci).rx with
  | short => exact .refl
  | bad n => exact Posted.refl.count.log.drop
  | whole body rest =>
      have taken : Posted state [] (state.edit ci fun client => { client with rx := rest }) :=
        Posted.refl.edit ⟨rfl, rfl, rfl, rfl, fun _ => id⟩
      exact taken.handle

/-! ### What `send` takes -/

/-- The bytes that `send` takes are gone from the buffer. -/
def takeTx (state : State) (ci : Slot) (sent : Relay.Sent) : State :=
  match (state.clients ci).fd, sent with
  | some fd, .took count =>
      if (state.clients ci).txLen = 0 then state
      else
        (state.edit ci fun client => consumeTx client count).note
          (.sent fd ((state.clients ci).queued.take count))
  | _, _ => state

/-- The state in which a piece of the loop first calls `client_send`, if it does:
`send` has been called, connections are accepted and slots freed. -/
def sending (state : State) : Job → State
  | .ready ci gen none (some sent) =>
      if (state.clients ci).inUse = false ∨ (state.clients ci).gen ≠ gen then state
      else if (state.clients ci).dead then state else state.takeTx ci sent
  | .writable ci (some sent) => if (state.clients ci).dead then state else state.takeTx ci sent
  | .flush ci sent =>
      if (state.clients ci).inUse = false ∨ (state.clients ci).dead then state
      else state.takeTx ci sent
  | .accept ip port born => state.acceptClient ip port born
  | .report now => (state.reportAt now).reap
  | .ready _ _ _ _ => state
  | .service _ => state
  | .writable _ none => state
  | .flushAll _ => state
  | .sweep _ => state

theorem Posted.checkBacklog (posted : Posted state posts after) :
    Posted state (posts ++ after.checkBacklogPosts ci) (after.checkBacklog oracle ci) := by
  unfold State.checkBacklog checkBacklogPosts
  simp only
  split
  · exact posted.count.log.drop
  · rw [List.append_nil]
    exact posted

theorem posted_flush {sent : Relay.Sent} :
    Posted (state.takeTx ci sent) (state.flushPosts ci sent) (state.flush oracle ci sent) := by
  unfold flush flushPosts
  by_cases empty : (state.clients ci).txLen = 0
  · have untaken : state.takeTx ci sent = state := by
      unfold takeTx
      split
      · exact if_pos empty
      · rfl
    rw [if_pos empty, if_pos empty, untaken]
    exact .refl
  rw [if_neg empty, if_neg empty]
  unfold takeTx
  cases (state.clients ci).fd with
  | none =>
      have dropped : Posted state ([] ++ state.dropPosts ci) (state.drop oracle ci) :=
        Posted.refl.drop
      cases sent <;> exact dropped
  | some fd =>
      cases sent with
      | failed => exact Posted.refl.drop
      | blocked => exact Posted.refl.checkBacklog
      | took count =>
          simp only [if_neg empty]
          exact Posted.refl.checkBacklog

theorem posted_expire {now : Time} :
    Posted state (state.expirePosts now ci) (expire oracle now state ci) := by
  unfold expire expirePosts
  simp only
  split
  · exact Posted.refl.count.drop
  · exact .refl

theorem posted_sweep {now : Time} {order : List Slot} :
    Posted state (sweepPosts oracle now order state) (order.foldl (expire oracle now) state) := by
  induction order generalizing state with
  | nil => exact .refl
  | cons slot rest inductionHypothesis => exact posted_expire.trans inductionHypothesis

theorem posted_receive {data : Bytes} (received : state.receive ci data = some after) :
    Posted state [] after := by
  unfold receive at received
  simp only at received
  split at received
  · cases received
  split at received
  · cases received
  · obtain rfl := Option.some.inj received
    exact Posted.refl.edit ⟨rfl, rfl, rfl, rfl, fun _ => id⟩

/-- `posts` are the calls of `client_send`, after what `send` takes. -/
theorem perform_posted {job : Job} :
    Posted (state.sending job) (state.posts oracle job) (state.perform oracle job).1 := by
  cases job with
  | accept ip port born => exact .refl
  | ready slot gen read write =>
      unfold posts perform
      simp only
      split
      · rename_i gone
        have unsent : state.sending (.ready slot gen read write) = state := by
          cases read <;> cases write <;> first | rfl | exact if_pos gone
        rw [unsent]
        exact .refl
      rename_i present
      split
      · rename_i dead
        have unsent : state.sending (.ready slot gen read write) = state := by
          cases read <;> cases write <;> first | rfl | exact (if_neg present).trans (if_pos dead)
        rw [unsent]
        exact .refl
      rename_i alive
      cases read with
      | none =>
          cases write with
          | none => exact .refl
          | some sent =>
              have isSent : state.sending (.ready slot gen none (some sent)) =
                  state.takeTx slot sent := (if_neg present).trans (if_neg alive)
              rw [isSent, writable, writablePosts]
              simp only [if_neg alive]
              exact posted_flush
      | some data =>
          have unsent : state.sending (.ready slot gen (some data) write) = state := by
            cases write <;> rfl
          rw [unsent]
          cases received : state.receive slot data with
          | some later =>
              simp only [received]
              exact posted_receive received
          | none =>
              have noted : Posted state [] (state.noteOverflow slot data) := by
                unfold noteOverflow
                simp only
                split
                · exact Posted.refl.log
                · exact .refl
              simp only [received]
              exact noted.drop
  | service slot => exact posted_serviceOnce
  | writable slot write =>
      cases write with
      | none => exact .refl
      | some sent =>
          unfold posts perform sending writable writablePosts
          simp only
          split
          · exact .refl
          · exact posted_flush
  | flushAll sends => exact .refl
  | flush slot sent =>
      unfold posts perform sending
      simp only
      split
      · exact .refl
      · exact posted_flush
  | sweep now =>
      unfold posts perform sending sweepAtPosts sweepAt
      simp only
      split
      · exact posted_sweep.silent rfl rfl rfl
      · exact .refl
  | report now => exact .refl

/-! ### By how much the buffers grow -/

/-- The bytes for one slot. -/
def load (d : Slot) (posts : List Post) : Nat :=
  ((posts.filter fun post => post.1 = d).map Prod.snd).sum

theorem load_append {one two : List Post} : load d (one ++ two) = load d one + load d two := by
  unfold load
  rw [List.filter_append, List.map_append, List.sum_append]

theorem load_one {n : Nat} : load d [(ci, n)] = if d = ci then n else 0 := by
  unfold load
  by_cases here : d = ci
  · simp [here]
  · simp [here, Ne.symm here]

theorem txLen_clientSend {src : Option Slot} {data : Bytes} :
    ((state.clientSend src ci data).clients d).txLen ≤
      (state.clients d).txLen + load d [(ci, data.length)] := by
  rw [load_one]
  unfold clientSend
  simp only
  by_cases here : d = ci
  · subst here
    rw [if_pos rfl]
    split
    · rename_i full
      rw [edit_self]
      exact full.le
    · rw [clients_note, edit_self]
  · split
    · rw [edit_of_ne here]
      exact Nat.le_add_right _ _
    · rw [clients_note, edit_of_ne here]
      exact Nat.le_add_right _ _

/-- Full or not, a buffer grows by what is posted to it at most. -/
theorem Posted.grows (posted : Posted state posts after) (d : Slot) :
    (after.clients d).txLen ≤ (state.clients d).txLen + load d posts := by
  induction posted with
  | refl => exact Nat.le_add_right _ _
  | aside before untouched inductionHypothesis =>
      rw [(untouched.clients d).txLen]
      exact inductionHypothesis
  | send src ci data before inductionHypothesis =>
      have one := (@txLen_clientSend _ ci d src data).trans
        (Nat.add_le_add_right inductionHypothesis _)
      rw [load_append, ← Nat.add_assoc]
      exact one

theorem tenants_clientSend {src : Option Slot} {data : Bytes} :
    ((state.clientSend src ci data).clients d).inUse = (state.clients d).inUse ∧
      ((state.clientSend src ci data).clients d).holds = (state.clients d).holds ∧
      ((state.clientSend src ci data).clients d).fd = (state.clients d).fd := by
  unfold clientSend
  simp only
  by_cases here : d = ci
  · subst here
    split
    · rw [edit_self]
      exact ⟨rfl, rfl, rfl⟩
    · rw [clients_note, edit_self]
      exact ⟨rfl, rfl, rfl⟩
  · split
    · rw [edit_of_ne here]
      exact ⟨rfl, rfl, rfl⟩
    · rw [clients_note, edit_of_ne here]
      exact ⟨rfl, rfl, rfl⟩

/-- Slots stay in use, and with whom they are. -/
theorem Posted.tenants (posted : Posted state posts after) (d : Slot) :
    (after.clients d).inUse = (state.clients d).inUse ∧
      (after.clients d).holds = (state.clients d).holds := by
  induction posted with
  | refl => exact ⟨rfl, rfl⟩
  | aside before untouched inductionHypothesis =>
      have same := untouched.clients d
      exact ⟨same.inUse.trans inductionHypothesis.1, same.holds.trans inductionHypothesis.2⟩
  | send src ci data before inductionHypothesis =>
      obtain ⟨inUse, holds, -⟩ := @tenants_clientSend _ ci d src data
      exact ⟨inUse.trans inductionHypothesis.1, holds.trans inductionHypothesis.2⟩

theorem takeTx_client {sent : Relay.Sent} :
    ((state.takeTx ci sent).clients d).txLen ≤ (state.clients d).txLen ∧
      ((state.takeTx ci sent).clients d).inUse = (state.clients d).inUse := by
  unfold takeTx
  split
  · split
    · exact ⟨Nat.le_refl _, rfl⟩
    · by_cases here : d = ci
      · subst here
        rw [clients_note, edit_self]
        exact ⟨Nat.sub_le _ _, rfl⟩
      · rw [clients_note, edit_of_ne here]
        exact ⟨Nat.le_refl _, rfl⟩
  · exact ⟨Nat.le_refl _, rfl⟩

/-- A piece of the loop that neither accepts a client nor frees a slot. -/
def Settles : Job → Prop
  | .accept _ _ _ => False
  | .report _ => False
  | .ready _ _ _ _ => True
  | .service _ => True
  | .writable _ _ => True
  | .flushAll _ => True
  | .flush _ _ => True
  | .sweep _ => True

theorem sending_client {job : Job} (settles : Settles job) :
    ((state.sending job).clients d).txLen ≤ (state.clients d).txLen ∧
      ((state.sending job).clients d).inUse = (state.clients d).inUse := by
  cases job with
  | accept ip port born => exact settles.elim
  | ready ci gen read write =>
      cases read with
      | some data => exact ⟨Nat.le_refl _, rfl⟩
      | none =>
          cases write with
          | none => exact ⟨Nat.le_refl _, rfl⟩
          | some sent =>
              unfold sending
              simp only
              split
              · exact ⟨Nat.le_refl _, rfl⟩
              split
              · exact ⟨Nat.le_refl _, rfl⟩
              · exact takeTx_client
  | service ci => exact ⟨Nat.le_refl _, rfl⟩
  | writable ci write =>
      cases write with
      | none => exact ⟨Nat.le_refl _, rfl⟩
      | some sent =>
          unfold sending
          simp only
          split
          · exact ⟨Nat.le_refl _, rfl⟩
          · exact takeTx_client
  | flushAll sends => exact ⟨Nat.le_refl _, rfl⟩
  | flush ci sent =>
      unfold sending
      simp only
      split
      · exact ⟨Nat.le_refl _, rfl⟩
      · exact takeTx_client
  | sweep now => exact ⟨Nat.le_refl _, rfl⟩
  | report now => exact settles.elim

end State

end DragsterNet.CRelay
