/-
Module: DragsterNet.Relay.Reassembly
Purpose: The frames that the relays take off a connection's stream: the grammar
  of the wire, the record of what is received and handled, and the relay in
  Python.
Trusted boundary: none
Main exports: Longest, Mark, Reassembled, Loop.Framed, Loop.framed_run
-/
import DragsterNet.Relay.Segments

namespace DragsterNet.Relay

open Lib

/-! ### The grammar -/

/-- A frame that may be on the wire. -/
def Legal (frame : Byte × Bytes) : Prop := frame.2.length + 1 ≤ 200

/-- The bytes of the frames, one after the other. -/
def spell (frames : List (Byte × Bytes)) : Bytes :=
  frames.flatMap fun frame => wire frame.1 frame.2

/-- The frames whose bytes are the longest prefix of the stream made of whole
frames.  A length byte that no frame has ends it. -/
structure Longest (stream : Bytes) (frames : List (Byte × Bytes)) : Prop where
  legal : ∀ frame ∈ frames, Legal frame
  spelt : spell frames <+: stream
  longest : ∀ others, (∀ frame ∈ others, Legal frame) → spell others <+: stream →
    others <+: frames

/-- The type and the payload of a frame. -/
def parts (body : Bytes) : Byte × Bytes := (body.headD 0, body.tail)

variable {stream left data rest body : Bytes} {bodies : List Bytes}
  {frame : Byte × Bytes} {frames : List (Byte × Bytes)}

/-- What is read off a stream is a frame's bytes. -/
theorem read_wire (read : Server.framing.read data = some (body, rest)) :
    Legal (parts body) ∧ data = wire (parts body).1 (parts body).2 ++ rest := by
  obtain ⟨n, fair, length, rfl⟩ :=
    Server.readFrame_whole_iff.mp (Server.takeFrame_some.mp read)
  cases body with
  | nil =>
      rw [List.length_nil] at length
      omega
  | cons ftype payload =>
      rw [List.length_cons] at length
      have isLength : n = BitVec.ofNat 8 (payload.length + 1) := by
        apply BitVec.eq_of_toNat_eq
        rw [BitVec.toNat_ofNat, length]
        exact (Nat.mod_eq_of_lt n.isLt).symm
      refine ⟨?_, ?_⟩
      · have small : payload.length + 1 ≤ 200 := by omega
        exact small
      · rw [isLength]
        rfl

/-- A legal frame's bytes are read as that frame. -/
theorem wire_read (legal : Legal frame) :
    Server.framing.read (wire frame.1 frame.2 ++ rest) =
      some (frame.1 :: frame.2, rest) := by
  unfold Legal at legal
  apply Server.takeFrame_some.mpr
  apply Server.readFrame_whole_iff.mpr
  have isLength : (BitVec.ofNat 8 (frame.2.length + 1)).toNat = frame.2.length + 1 := by
    rw [BitVec.toNat_ofNat]
    exact Nat.mod_eq_of_lt (by omega)
  exact ⟨_, by rw [isLength]; omega, isLength.symm, rfl⟩

theorem parts_cons : parts (frame.1 :: frame.2) = frame := rfl

/-- The frames split off a stream spell it, up to what is left. -/
theorem split_spell (stream : Bytes) :
    (∀ frame ∈ (Server.framing.split stream).1.map parts, Legal frame) ∧
      stream = spell ((Server.framing.split stream).1.map parts) ++
        (Server.framing.split stream).2 := by
  induction stream using Server.framing.induct_on with
  | stuck data stuck =>
      rw [Server.framing.split_none stuck]
      exact ⟨fun frame member => absurd member List.not_mem_nil, rfl⟩
  | frame data body rest read inductionHypothesis =>
      obtain ⟨legal, spelt⟩ := read_wire read
      obtain ⟨others, rest'⟩ := inductionHypothesis
      rw [Server.framing.split_some read, List.map_cons]
      refine ⟨?_, ?_⟩
      · intro frame member
        rcases List.mem_cons.mp member with rfl | later
        · exact legal
        · exact others frame later
      · rw [spell, List.flatMap_cons, List.append_assoc]
        conv_lhs => rw [spelt, rest']
        rfl

/-- And no other frames spell more of it. -/
theorem split_longest {others : List (Byte × Bytes)}
    (legal : ∀ frame ∈ others, Legal frame) (spelt : spell others <+: stream) :
    others <+: (Server.framing.split stream).1.map parts := by
  induction others generalizing stream with
  | nil => exact List.nil_prefix
  | cons frame others inductionHypothesis =>
      obtain ⟨rest, rfl⟩ := spelt
      rw [spell, List.flatMap_cons, List.append_assoc,
        Server.framing.split_some (wire_read (legal frame List.mem_cons_self)),
        List.map_cons, parts_cons]
      apply List.cons_prefix_cons.mpr
      refine ⟨rfl, inductionHypothesis ?_ (List.prefix_append _ _)⟩
      exact fun other member => legal other (List.mem_cons_of_mem _ member)

theorem longest_split (stream : Bytes) :
    Longest stream ((Server.framing.split stream).1.map parts) where
  legal := (split_spell stream).1
  spelt := ⟨_, (split_spell stream).2.symm⟩
  longest := fun _ => split_longest

/-- A rest that has no whole frame and is not broken is short. -/
theorem short_of_stuck (stuck : Server.framing.read data = none)
    (whole : ¬ Server.Broken data) : data.length ≤ 200 := by
  cases data with
  | nil => exact Nat.zero_le _
  | cons n more =>
      have fair : ¬ (n.toNat < 1 ∨ 200 < n.toNat) := by
        intro bad
        exact whole (Server.broken_iff.mpr ⟨n, rfl, bad⟩)
      have read : readFrame (n :: more) =
          if more.length < n.toNat then .short
          else .whole (more.take n.toNat) (more.drop n.toNat) := by
        rw [Server.readFrame_cons, if_neg fair]
      by_cases few : more.length < n.toNat
      · rw [List.length_cons]
        omega
      · rw [if_neg few] at read
        have taken : Server.framing.read (n :: more) = some _ := Server.takeFrame_some.mpr read
        rw [stuck] at taken
        cases taken

/-! ### The record -/

/-- What is recorded of a run: the chunks received, the frames handled and the
length bytes that no frame has. -/
inductive Mark where
  | chunk (c : Conn) (data : Bytes)
  | frame (c : Conn) (ftype : Byte) (payload : Bytes)
  | bad (c : Conn)

/-- The stream of a connection, as far as it has been received. -/
def streamOf (c : Conn) (tape : List Mark) : Bytes :=
  tape.flatMap fun
    | .chunk d data => if d = c then data else []
    | _ => []

/-- The types and payloads `handle` has been called with for a connection. -/
def framesOf (c : Conn) (tape : List Mark) : List (Byte × Bytes) :=
  tape.flatMap fun
    | .frame d ftype payload => if d = c then [(ftype, payload)] else []
    | _ => []

def Mark.isBad (c : Conn) : Mark → Bool
  | .bad d => d == c
  | _ => false

/-- How often a bad length byte has been met on a connection. -/
def badBytes (c : Conn) (tape : List Mark) : Nat := tape.countP (Mark.isBad c)

/-- And on any. -/
def allBad (tape : List Mark) : Nat :=
  tape.countP fun
    | .bad _ => true
    | _ => false

/-- What a turn of the loop in `service` leaves on the record. -/
def turnMarks (c : Conn) (rx : Bytes) : List Mark :=
  match readFrame rx with
  | .short => []
  | .bad _ => [.bad c]
  | .whole body _ => [.frame c (parts body).1 (parts body).2]

/-- What has become of a connection's stream between its chunks; `rx` is what is
in the receive buffer.  The frames handled are the whole frames, up to the first
length byte that no frame has.  At such a byte the connection is dropped. -/
structure Reassembled (tape : List Mark) (c : Conn) (rx : Bytes) (live : Prop) : Prop where
  longest : Longest (streamOf c tape) (framesOf c tape)
  rest : streamOf c tape = spell (framesOf c tape) ++ rx
  sound : ¬ Server.Broken rx → badBytes c tape = 0 ∧ rx.length ≤ 200
  broken : Server.Broken rx → badBytes c tape = 1 ∧ ¬ live

/-- The books of a connection's reassembly. -/
structure Booked (tape : List Mark) (c : Conn) (rx : Bytes) : Prop where
  books : ∃ bodies, framesOf c tape = bodies.map parts ∧
    Server.framing.Reassembles (streamOf c tape) bodies rx

/-- Between chunks. -/
structure Settled (tape : List Mark) (c : Conn) (rx : Bytes) (live : Prop) : Prop where
  booked : Booked tape c rx
  stuck : Server.framing.read rx = none
  sound : ¬ Server.Broken rx → badBytes c tape = 0
  broken : Server.Broken rx → badBytes c tape = 1 ∧ ¬ live

/-- While its frames are served. -/
structure Serving (tape : List Mark) (c : Conn) (rx : Bytes) : Prop where
  booked : Booked tape c rx
  sound : badBytes c tape = 0

variable {tape : List Mark} {c d : Conn} {rx : Bytes} {live : Prop} {mark : Mark}

theorem Settled.reassembled (settled : Settled tape c rx live) :
    Reassembled tape c rx live := by
  obtain ⟨bodies, isFrames, reassembles⟩ := settled.booked.books
  have whole := reassembles.stuck settled.stuck
  have isFrames' : framesOf c tape =
      (Server.framing.split (streamOf c tape)).1.map parts := by
    rw [whole, isFrames]
  refine ⟨?_, ?_, ?_, settled.broken⟩
  · rw [isFrames']
    exact longest_split _
  · have spelt := (split_spell (streamOf c tape)).2
    rw [← isFrames', whole] at spelt
    exact spelt
  · intro sound
    exact ⟨settled.sound sound, short_of_stuck settled.stuck sound⟩

/-! ### What a mark does to the record -/

def Mark.conn : Mark → Conn
  | .chunk c _ => c
  | .frame c _ _ => c
  | .bad c => c

theorem streamOf_append {more : List Mark} :
    streamOf c (tape ++ more) = streamOf c tape ++ streamOf c more :=
  List.flatMap_append

theorem framesOf_append {more : List Mark} :
    framesOf c (tape ++ more) = framesOf c tape ++ framesOf c more :=
  List.flatMap_append

theorem badBytes_append {more : List Mark} :
    badBytes c (tape ++ more) = badBytes c tape + badBytes c more :=
  List.countP_append

/-- A connection's record is not about the others. -/
theorem record_other (other : mark.conn ≠ c) :
    streamOf c (tape ++ [mark]) = streamOf c tape ∧
      framesOf c (tape ++ [mark]) = framesOf c tape ∧
      badBytes c (tape ++ [mark]) = badBytes c tape := by
  rw [streamOf_append, framesOf_append, badBytes_append]
  cases mark with
  | chunk d data => simp_all [streamOf, framesOf, badBytes, Mark.conn, Mark.isBad]
  | frame d ftype payload => simp_all [streamOf, framesOf, badBytes, Mark.conn, Mark.isBad]
  | bad d => simp_all [streamOf, framesOf, badBytes, Mark.conn, Mark.isBad]

theorem record_chunk :
    streamOf c (tape ++ [.chunk c data]) = streamOf c tape ++ data ∧
      framesOf c (tape ++ [.chunk c data]) = framesOf c tape ∧
      badBytes c (tape ++ [.chunk c data]) = badBytes c tape := by
  rw [streamOf_append, framesOf_append, badBytes_append]
  simp [streamOf, framesOf, badBytes, Mark.isBad]

theorem record_frame :
    streamOf c (tape ++ [.frame c frame.1 frame.2]) = streamOf c tape ∧
      framesOf c (tape ++ [.frame c frame.1 frame.2]) = framesOf c tape ++ [frame] ∧
      badBytes c (tape ++ [.frame c frame.1 frame.2]) = badBytes c tape := by
  rw [streamOf_append, framesOf_append, badBytes_append]
  simp [streamOf, framesOf, badBytes, Mark.isBad]

theorem record_bad :
    streamOf c (tape ++ [.bad c]) = streamOf c tape ∧
      framesOf c (tape ++ [.bad c]) = framesOf c tape ∧
      badBytes c (tape ++ [.bad c]) = badBytes c tape + 1 := by
  rw [streamOf_append, framesOf_append, badBytes_append]
  simp [streamOf, framesOf, badBytes, Mark.isBad]

theorem Booked.congr {tape' : List Mark} (booked : Booked tape c rx)
    (stream : streamOf c tape' = streamOf c tape)
    (frames : framesOf c tape' = framesOf c tape) : Booked tape' c rx := by
  obtain ⟨bodies, isFrames, reassembles⟩ := booked.books
  exact ⟨bodies, by rw [frames, isFrames], by rw [stream]; exact reassembles⟩

theorem Settled.other (settled : Settled tape c rx live) (other : mark.conn ≠ c) :
    Settled (tape ++ [mark]) c rx live := by
  obtain ⟨stream, frames, bad⟩ := @record_other tape c mark other
  refine ⟨settled.booked.congr stream frames, settled.stuck, ?_, ?_⟩
  · rw [bad]
    exact settled.sound
  · rw [bad]
    exact settled.broken

theorem Settled.others {more : List Mark} (settled : Settled tape c rx live)
    (other : ∀ mark ∈ more, mark.conn ≠ c) : Settled (tape ++ more) c rx live := by
  induction more generalizing tape with
  | nil =>
      rw [List.append_nil]
      exact settled
  | cons mark rest inductionHypothesis =>
      have first := settled.other (other mark List.mem_cons_self)
      have later := inductionHypothesis first fun mark member =>
        other mark (List.mem_cons_of_mem _ member)
      rwa [List.append_assoc] at later

theorem Settled.fewer {less : Prop} (settled : Settled tape c rx live) (fewer : less → live) :
    Settled tape c rx less :=
  ⟨settled.booked, settled.stuck, settled.sound, fun broken =>
    ⟨(settled.broken broken).1, fun here => (settled.broken broken).2 (fewer here)⟩⟩

/-- A chunk is received from a connection that is there. -/
theorem Settled.chunk (settled : Settled tape c rx live) (here : live) (data : Bytes) :
    Serving (tape ++ [.chunk c data]) c (rx ++ data) := by
  obtain ⟨stream, frames, bad⟩ := @record_chunk data tape c
  obtain ⟨bodies, isFrames, reassembles⟩ := settled.booked.books
  refine ⟨⟨bodies, by rw [frames, isFrames], ?_⟩, ?_⟩
  · rw [stream]
    exact reassembles.receive data
  · rw [bad]
    apply settled.sound
    intro broken
    exact (settled.broken broken).2 here

/-- A frame is taken off the buffer and handled. -/
theorem Serving.take (serving : Serving tape c rx)
    (read : Server.framing.read rx = some (body, rest)) :
    Serving (tape ++ [.frame c (parts body).1 (parts body).2]) c rest := by
  obtain ⟨stream, frames, bad⟩ := @record_frame (parts body) tape c
  obtain ⟨bodies, isFrames, reassembles⟩ := serving.booked.books
  refine ⟨⟨bodies ++ [body], ?_, ?_⟩, ?_⟩
  · rw [frames, isFrames, List.map_append]
    rfl
  · rw [stream]
    exact reassembles.take read
  · rw [bad]
    exact serving.sound

/-- The loop ends with a part of a frame. -/
theorem Serving.settle (serving : Serving tape c rx) (short : readFrame rx = .short) :
    Settled tape c rx live := by
  refine ⟨serving.booked, ?_, fun _ => serving.sound, ?_⟩
  · have taken : Server.framing.read rx = Server.takeFrame rx := rfl
    rw [taken, Server.takeFrame, short]
  · rintro ⟨n, bad⟩
    rw [short] at bad
    cases bad

/-- The loop ends with a bad length byte and a drop. -/
theorem Serving.breakOff {n : Byte} (serving : Serving tape c rx) (bad : readFrame rx = .bad n)
    (gone : ¬ live) : Settled (tape ++ [.bad c]) c rx live := by
  obtain ⟨stream, frames, count⟩ := @record_bad tape c
  refine ⟨serving.booked.congr stream frames, ?_, ?_, ?_⟩
  · have taken : Server.framing.read rx = Server.takeFrame rx := rfl
    rw [taken, Server.takeFrame, bad]
  · intro sound
    exact absurd ⟨n, bad⟩ sound
  · intro _
    rw [count, serving.sound]
    exact ⟨rfl, gone⟩

/-! ### The relay in Python -/

namespace Server

variable {oracle : Oracle} {server after : Server} {patience : Nat}

/-- What a piece of the loop leaves on the record. -/
def marks (server : Server) : Job → List Mark
  | .ready c (some data) _ =>
      if server.received c data = [] then [] else [.chunk c (server.received c data)]
  | .service c => turnMarks c (server.object c).rx
  | _ => []

/-- The count of bad lengths is as before. -/
def SameBad (server after : Server) : Prop :=
  after.stats.badFrames = server.stats.badFrames

theorem stats_lobbyUpdate : (lobbyUpdate oracle server).stats = server.stats := by
  unfold lobbyUpdate
  split <;> rfl

theorem stats_drop : (server.drop oracle c).stats = server.stats := by
  unfold drop
  split
  · rw [stats_lobbyUpdate]
    have farewell : ∀ server : Server, (server.farewell c).stats = server.stats := by
      intro server
      unfold farewell
      split <;> rfl
    have left : ∀ server : Server, (server.leavePartner c).stats = server.stats := by
      intro server
      unfold leavePartner
      split <;> rfl
    have unregistered : (server.unregister c).stats = server.stats := by
      unfold unregister
      split
      · split <;> rfl
      · rfl
    rw [farewell]
    exact (left _).trans unregistered
  · rfl

theorem sameBad_checkBacklog : SameBad server (server.checkBacklog oracle c) := by
  unfold checkBacklog
  simp only
  split
  · unfold SameBad
    rw [stats_drop]
    rfl
  · rfl

theorem sameBad_flush {sent : Sent} : SameBad server (server.flush oracle c sent) := by
  unfold flush
  simp only
  split
  · rfl
  split
  · exact congrArg Stats.badFrames stats_drop
  cases sent with
  | failed => exact congrArg Stats.badFrames stats_drop
  | blocked => exact sameBad_checkBacklog
  | took count => exact sameBad_checkBacklog

theorem sameBad_writable {write : Option Sent} :
    SameBad server (server.writable oracle c write) := by
  unfold writable
  split
  · split
    · exact sameBad_flush
    · rfl
  · rfl

theorem sameBad_sweepAt {now : Time} : SameBad server (server.sweepAt oracle now) := by
  have expired : ∀ (server : Server) (c : Conn),
      SameBad server (expire oracle now server c) := by
    intro server c
    unfold expire
    split
    · unfold SameBad
      rw [stats_drop]
      rfl
    · rfl
  have swept : ∀ (clients : List Conn) (server : Server),
      SameBad server (clients.foldl (expire oracle now) server) := by
    intro clients
    induction clients with
    | nil => exact fun server => rfl
    | cons c rest inductionHypothesis =>
        exact fun server => (inductionHypothesis _).trans (expired server c)
  unfold sweepAt
  split
  · exact swept _ _
  · rfl

theorem sameBad_accept {ip : Ip} {port : Nat} {born : Time} :
    SameBad server (server.accept ip port born) := by
  unfold accept
  simp only
  split
  · rfl
  · split <;> rfl

theorem sameBad_startFrame {seed : BitVec 16} {role : Nat} {me them : Conn}
    (started : startFrame oracle server seed role me them = .ok after) :
    SameBad server after := by
  obtain ⟨header, -, rest⟩ := bind_ok.mp started
  split at rest
  · cases rest
  · obtain ⟨data, -, sent⟩ := bind_ok.mp rest
    obtain rfl := Except.ok.inj sent
    rfl

theorem sameBad_tryPair (tried : server.tryPair oracle c = .ok after) :
    SameBad server after := by
  unfold tryPair at tried
  split at tried
  · obtain rfl := Except.ok.inj tried
    rfl
  · obtain ⟨one, first, rest⟩ := bind_ok.mp tried
    obtain ⟨two, second, done⟩ := bind_ok.mp rest
    obtain rfl := Except.ok.inj done
    have paired := (sameBad_startFrame second).trans (sameBad_startFrame first)
    unfold SameBad
    rw [stats_lobbyUpdate]
    exact paired

theorem sameBad_onHello {payload : Bytes}
    (greeted : server.onHello oracle patience c payload = .ok after) :
    SameBad server after := by
  have noted : SameBad server (server.noteTv c payload) := by
    unfold noteTv
    split <;> rfl
  unfold onHello at greeted
  simp only at greeted
  split at greeted
  · obtain rfl := Except.ok.inj greeted
    unfold SameBad
    rw [stats_drop]
    exact noted
  · split at greeted
    · cases greeted
    · have registered : ∀ {server : Server} {name tv drawn},
          SameBad server (server.register oracle c name tv drawn) := by
        intro server name tv drawn
        unfold SameBad register
        rw [stats_lobbyUpdate]
        rfl
      exact (sameBad_tryPair greeted).trans (registered.trans noted)

theorem sameBad_forward {ftype : Byte} {payload : Bytes}
    (forwarded : server.forward c ftype payload = .ok after) : SameBad server after := by
  unfold forward at forwarded
  split at forwarded
  · obtain rfl := Except.ok.inj forwarded
    rfl
  · obtain ⟨data, -, sent⟩ := bind_ok.mp forwarded
    obtain rfl := Except.ok.inj sent
    rfl

theorem sameBad_logCrc {payload : Bytes} : SameBad server (server.logCrc c payload) := by
  unfold logCrc
  simp only
  split
  · rfl
  · split <;> rfl

/-- No frame that is handled counts as a bad one. -/
theorem handle_sameBad {ftype : Byte} {payload : Bytes}
    (done : server.handle oracle patience c ftype payload = .ok after) :
    SameBad server after := by
  unfold handle at done
  split at done
  · obtain ⟨middle, forwarded, rest⟩ := bind_ok.mp done
    split at rest
    · obtain rfl := Except.ok.inj rest
      exact sameBad_logCrc.trans (sameBad_forward forwarded)
    · obtain rfl := Except.ok.inj rest
      exact sameBad_forward forwarded
  split at done
  · exact sameBad_onHello done
  split at done
  · obtain ⟨data, -, sent⟩ := bind_ok.mp done
    obtain rfl := Except.ok.inj sent
    rfl
  split at done
  · exact sameBad_tryPair done
  split at done
  · obtain rfl := Except.ok.inj done
    rfl
  split at done
  · obtain rfl := Except.ok.inj done
    exact congrArg Stats.badFrames stats_drop
  · obtain rfl := Except.ok.inj done
    rfl

theorem shrinks_breakOff {n : Byte} : Shrinks server (breakOff oracle c n server) :=
  (shrinks_count.trans shrinks_log).trans shrinks_drop

theorem breakOff_counts {n : Byte} :
    (breakOff oracle c n server).stats.badFrames = server.stats.badFrames + 1 := by
  unfold breakOff
  rw [stats_drop]
  rfl

theorem Moved.conns {calls : Prop} (moved : Moved calls server c after) :
    after.conns = server.conns := by
  cases moved with
  | stays table floor => exact table.2
  | drops here clients conns floor => exact conns
  | names table name short floor => exact table.2
  | pairs called other found table middle named floor => exact table.2

/-- No piece of the loop lowers the number of connections. -/
theorem perform_conns {job : Job} {more : List Job} (regular : Regular server)
    (performed : server.perform oracle patience job = .ok (after, more)) :
    server.conns ≤ after.conns := by
  have keeps := @perform_keeps oracle server after patience fun later =>
    Regular later ∧ server.conns ≤ later.conns
  have both : Regular after ∧ server.conns ≤ after.conns := by
    refine keeps ?_ ?_ ?_ ?_ performed ⟨regular, Nat.le_refl _⟩
    · intro one two holds quiet
      exact ⟨holds.1.congr quiet.table quiet.floor, quiet.table.2 ▸ holds.2⟩
    · intro one d holds
      have moved : Moved False one d (one.drop oracle d) := drop_moved holds.1.tidy
      exact ⟨moved.regular holds.1, moved.conns ▸ holds.2⟩
    · intro ip port born
      refine ⟨accept_regular regular, ?_⟩
      rw [accept_cases.1]
      exact Nat.le_succ _
    · intro d again _ once
      have moved := serviceOnce_moved regular.tidy once
      exact ⟨moved.regular regular, (Nat.le_of_eq moved.conns.symm)⟩
  exact both.2

/-- A piece of the loop that is not on the record: no receive buffer changes,
and whoever comes has an empty one. -/
structure Calm (server after : Server) (more : List Job) : Prop where
  rx : ∀ d, (after.object d).rx = (server.object d).rx
  came : ∀ d ∈ after.clients, d ∈ server.clients ∨ (server.object d).rx = []
  bad : SameBad server after
  idle : ∀ d, Job.service d ∉ more

theorem Shrinks.calm {more : List Job} (shrinks : Shrinks server after)
    (bad : SameBad server after) (idle : ∀ d, Job.service d ∉ more) :
    Calm server after more :=
  ⟨fun d => (shrinks.still d).rx, fun d here => Or.inl (shrinks.fewer d here), bad, idle⟩

theorem accept_calm {ip : Ip} {port : Nat} {born : Time}
    (fresh : (server.object server.conns).rx = []) :
    Calm server (server.accept ip port born) [] := by
  have idle : ∀ d, Job.service d ∉ ([] : List Job) := fun d => List.not_mem_nil
  refine ⟨?_, ?_, sameBad_accept, idle⟩
  · intro d
    unfold accept
    simp only
    split
    · rfl
    · split
      · rfl
      · change (Function.update server.object server.conns _ d).rx = _
        by_cases new : d = server.conns
        · rw [new, Function.update_self, fresh]
        · rw [Function.update_of_ne new]
  · intro d here
    obtain ⟨-, ⟨clients, -⟩ | ⟨clients, -⟩⟩ := @accept_cases server ip port born
    · rw [clients] at here
      exact Or.inl here
    · rw [clients] at here
      rcases List.mem_append.mp here with old | new
      · exact Or.inl old
      · rw [List.mem_singleton.mp new]
        exact Or.inr fresh

/-- Whatever is not a chunk or a frame is calm. -/
theorem perform_calm {job : Job} {more : List Job}
    (fresh : (server.object server.conns).rx = [])
    (unmarked : server.marks job = []) (notService : ∀ d, job ≠ .service d)
    (performed : server.perform oracle patience job = .ok (after, more)) :
    Calm server after more := by
  have idle : ∀ d, Job.service d ∉ ([] : List Job) := fun d => List.not_mem_nil
  cases job with
  | accept ip port born =>
      obtain ⟨rfl, rfl⟩ := Prod.mk.inj (Except.ok.inj performed)
      exact accept_calm fresh
  | ready c read write =>
      unfold perform at performed
      cases read with
      | none =>
          obtain ⟨rfl, rfl⟩ := Prod.mk.inj (Except.ok.inj performed)
          exact shrinks_writable.calm sameBad_writable idle
      | some data =>
          simp only at performed
          split at performed
          · obtain ⟨rfl, rfl⟩ := Prod.mk.inj (Except.ok.inj performed)
            exact shrinks_drop.calm (congrArg Stats.badFrames stats_drop) idle
          · rename_i some
            simp only [marks, if_neg some] at unmarked
            cases unmarked
  | service c => exact absurd rfl (notService c)
  | writable c write =>
      obtain ⟨rfl, rfl⟩ := Prod.mk.inj (Except.ok.inj performed)
      exact shrinks_writable.calm sameBad_writable idle
  | flushAll sends =>
      obtain ⟨rfl, rfl⟩ := Prod.mk.inj (Except.ok.inj performed)
      apply Shrinks.rfl.calm rfl
      intro d member
      obtain ⟨c, -, absurd⟩ := List.mem_map.mp member
      cases absurd
  | flush c sent =>
      obtain ⟨rfl, rfl⟩ := Prod.mk.inj (Except.ok.inj performed)
      exact shrinks_flush.calm sameBad_flush idle
  | sweep now =>
      obtain ⟨rfl, rfl⟩ := Prod.mk.inj (Except.ok.inj performed)
      exact shrinks_sweepAt.calm sameBad_sweepAt idle
  | report now =>
      obtain ⟨rfl, rfl⟩ := Prod.mk.inj (Except.ok.inj performed)
      apply shrinks_reportAt.calm _ idle
      unfold reportAt
      split <;> rfl

end Server

namespace Loop

variable {oracle : Oracle} {loop after : Loop} {act : Act} {now : Time}

def marks (loop : Loop) : Act → List Mark
  | .turn _ => []
  | .work _ =>
      match loop.jobs with
      | [] => []
      | job :: _ => loop.state.marks job

/-- The invariant of a recorded run.  At most one connection is being served,
and its service comes first. -/
structure Reading (loop : Loop) (tape : List Mark) : Prop where
  regular : loop.state.Regular
  beyond : ∀ c, loop.state.conns ≤ c → (loop.state.object c).rx = []
  settled : ∀ c, Job.service c ∉ loop.jobs →
    Settled tape c (loop.state.object c).rx (c ∈ loop.state.clients)
  serving : ∀ c, Job.service c ∈ loop.jobs →
    Serving tape c (loop.state.object c).rx
  first : ∀ c, Job.service c ∉ loop.jobs.tail
  counted : loop.state.stats.badFrames = allBad tape

theorem settled_nil : Settled [] c [] live := by
  refine ⟨⟨[], rfl, Framing.reassembles_nil⟩, rfl, fun _ => rfl, ?_⟩
  rintro ⟨n, absurd⟩
  cases absurd

theorem reading_start : Reading (start now) [] where
  regular := Server.start_regular
  beyond _ _ := rfl
  settled _ _ := settled_nil
  serving _ member := absurd member List.not_mem_nil
  first _ := List.not_mem_nil
  counted := rfl

theorem reading_calm {server : Server} {job : Job} {rest more : List Job}
    (reading : Reading ⟨server, job :: rest⟩ tape) (notService : ∀ d, job ≠ .service d)
    {last : Server} (regular : last.Regular) (conns : server.conns ≤ last.conns)
    (calm : Server.Calm server last more) : Reading ⟨last, more ++ rest⟩ tape := by
  have idle : ∀ c, Job.service c ∉ rest := reading.first
  have none_ : ∀ c, Job.service c ∉ more ++ rest := by
    intro c member
    rcases List.mem_append.mp member with new | old
    · exact calm.idle c new
    · exact idle c old
  refine ⟨regular, ?_, ?_, ?_, ?_, calm.bad.trans reading.counted⟩
  · intro c beyond
    rw [calm.rx]
    exact reading.beyond c (conns.trans beyond)
  · intro c _
    rw [calm.rx]
    have settled := reading.settled c (by
      intro member
      rcases List.mem_cons.mp member with isJob | old
      · exact notService c isJob.symm
      · exact idle c old)
    refine ⟨settled.booked, settled.stuck, settled.sound, ?_⟩
    intro broken
    refine ⟨(settled.broken broken).1, ?_⟩
    intro here
    rcases calm.came c here with old | empty
    · exact (settled.broken broken).2 old
    · rw [empty] at broken
      obtain ⟨n, absurd⟩ := broken
      cases absurd
  · exact fun c member => absurd member (none_ c)
  · intro c member
    exact none_ c (List.mem_of_mem_tail member)

/-- A chunk comes in, and is served next. -/
theorem reading_chunk {server : Server} {c : Conn} {data : Bytes} {write : Option Sent}
    {rest : List Job} (here : c ∈ server.clients)
    (reading : Reading ⟨server, .ready c (some data) write :: rest⟩ tape) :
    Reading ⟨server.receive c data, [.service c, .writable c write] ++ rest⟩
      (tape ++ [.chunk c data]) := by
  have idle : ∀ d, Job.service d ∉ rest := reading.first
  have before : ∀ d, Job.service d ∉ Job.ready c (some data) write :: rest := by
    intro d member
    rcases List.mem_cons.mp member with absurd | old
    · cases absurd
    · exact idle d old
  have others : ∀ d, d ≠ c →
      ((server.receive c data).object d).rx = (server.object d).rx := by
    intro d apart
    rw [Server.receive, Server.edit_of_ne apart]
  refine ⟨?_, ?_, ?_, ?_, ?_, ?_⟩
  · exact reading.regular.congr ⟨rfl, rfl⟩ (Server.floor_edit rfl rfl rfl)
  · intro d beyond
    have isBelow := reading.regular.tidy.2 c here
    have apart : d ≠ c := by
      rintro rfl
      exact absurd beyond (Nat.not_le_of_lt isBelow)
    rw [others d apart]
    exact reading.beyond d beyond
  · intro d unserved
    have apart : d ≠ c := by
      rintro rfl
      exact unserved List.mem_cons_self
    rw [others d apart]
    exact (reading.settled d (before d)).other fun same => apart same.symm
  · intro d served
    have isC : d = c := by
      rcases List.mem_cons.mp served with same | old
      · exact (Job.service.inj same)
      · rcases List.mem_cons.mp old with absurd | old
        · cases absurd
        · exact absurd old (idle d)
    subst isC
    rw [Server.rx_receive]
    exact (reading.settled d (before d)).chunk here data
  · intro d member
    rcases List.mem_cons.mp member with absurd | old
    · cases absurd
    · exact idle d old
  · have count : allBad (tape ++ [.chunk c data]) = allBad tape := by
      simp [allBad, List.countP_append]
    rw [count]
    exact reading.counted

/-- A turn of the loop in `service` for `c`, by what it comes to for `c`. -/
theorem reading_served {server last : Server} {rest : List Job} {patience : Nat}
    {again : Bool} {more : List Mark} (reading : Reading ⟨server, .service c :: rest⟩ tape)
    (once : server.serviceOnce oracle patience c = .ok (last, again))
    (about : ∀ mark ∈ more, mark.conn = c)
    (own : if again then Serving (tape ++ more) c (last.object c).rx
      else Settled (tape ++ more) c (last.object c).rx (c ∈ last.clients))
    (counted : last.stats.badFrames = allBad (tape ++ more)) :
    Reading ⟨last, (if again then [.service c] else []) ++ rest⟩ (tape ++ more) := by
  have idle : ∀ d, Job.service d ∉ rest := reading.first
  obtain ⟨fewer, others, -⟩ := Server.serviceOnce_others reading.regular once
  have moved := Server.serviceOnce_moved reading.regular.tidy once
  have settled : ∀ d, d ≠ c →
      Settled (tape ++ more) d (last.object d).rx (d ∈ last.clients) := by
    intro d apart
    have before := reading.settled d (by
      intro member
      rcases List.mem_cons.mp member with same | old
      · exact apart (Job.service.inj same)
      · exact idle d old)
    rw [others d apart]
    apply (before.fewer (fewer d)).others
    intro mark member
    rw [about mark member]
    exact apart.symm
  refine ⟨moved.regular reading.regular, ?_, ?_, ?_, ?_, counted⟩
  · intro d beyond
    have empty := reading.beyond d (moved.conns ▸ beyond)
    by_cases isC : d = c
    · subst isC
      have read : readFrame (server.object d).rx = .short := by
        have empty' : (server.object d).rx = [] := empty
        rw [empty']
        rfl
      unfold Server.serviceOnce at once
      rw [read] at once
      obtain ⟨rfl, -⟩ := Prod.mk.inj (Except.ok.inj once)
      exact empty
    · rw [others d isC]
      exact empty
  · intro d unserved
    by_cases isC : d = c
    · subst isC
      cases again with
      | true => exact absurd List.mem_cons_self unserved
      | false => exact own
    · exact settled d isC
  · intro d served
    cases again with
    | true =>
        rcases List.mem_cons.mp served with same | old
        · obtain rfl := Job.service.inj same
          exact own
        · exact absurd old (idle d)
    | false => exact absurd served (idle d)
  · intro d member
    cases again with
    | true => exact idle d member
    | false => exact idle d (List.mem_of_mem_tail member)

theorem reading_service {server last : Server} {c : Conn} {rest : List Job} {patience : Nat}
    {again : Bool} (reading : Reading ⟨server, .service c :: rest⟩ tape)
    (once : server.serviceOnce oracle patience c = .ok (last, again)) :
    Reading ⟨last, (if again then [.service c] else []) ++ rest⟩
      (tape ++ server.marks (.service c)) := by
  have serving := reading.serving c List.mem_cons_self
  have served := @reading_served _ _ oracle server last rest patience again
    (server.marks (.service c)) reading once
  have isMarks : server.marks (.service c) = turnMarks c (server.object c).rx := rfl
  rw [isMarks] at served ⊢
  unfold Server.serviceOnce at once
  unfold turnMarks at served ⊢
  cases read : readFrame (server.object c).rx with
  | short =>
      rw [read] at once served
      obtain ⟨rfl, rfl⟩ := Prod.mk.inj (Except.ok.inj once)
      apply served
      · exact fun mark member => absurd member List.not_mem_nil
      · rw [List.append_nil]
        exact serving.settle read
      · rw [List.append_nil]
        exact reading.counted
  | bad n =>
      rw [read] at once served
      obtain ⟨rfl, rfl⟩ := Prod.mk.inj (Except.ok.inj once)
      apply served
      · intro mark member
        rw [List.mem_singleton.mp member]
        rfl
      · have rx := (@Server.shrinks_breakOff c oracle server n).still c |>.rx
        unfold Server.breakOff at rx
        rw [rx]
        exact serving.breakOff read (Server.drop_gone reading.regular.tidy)
      · have count : allBad (tape ++ [.bad c]) = allBad tape + 1 := by
          simp [allBad, List.countP_append]
        rw [count, ← reading.counted]
        exact Server.breakOff_counts
  | whole body left =>
      rw [read] at once served
      obtain ⟨middle, handled, done⟩ := bind_ok.mp once
      obtain ⟨rfl, rfl⟩ := Prod.mk.inj (Except.ok.inj done)
      apply served
      · intro mark member
        rw [List.mem_singleton.mp member]
        rfl
      · have rx := (Server.handle_still handled c).rx
        rw [Server.edit_self] at rx
        rw [rx]
        exact serving.take (Server.takeFrame_some.mpr read)
      · have count : allBad (tape ++ [.frame c (parts body).1 (parts body).2]) =
            allBad tape := by
          simp [allBad, List.countP_append]
        have same := Server.handle_sameBad handled
        rw [count, ← reading.counted]
        exact same

theorem reading_step (reading : Reading loop tape) (step : Step oracle loop act after) :
    Reading after (tape ++ loop.marks act) := by
  obtain ⟨server, jobs⟩ := loop
  cases act with
  | turn turn =>
      cases jobs with
      | cons job rest => cases step
      | nil =>
          obtain rfl := Option.some.inj step
          have unserved : ∀ c, Job.service c ∉ turn.events.filterMap server.report ++
              [.flushAll turn.sends, .sweep turn.now, .report turn.now] := by
            intro c member
            rcases List.mem_append.mp member with reported | last
            · obtain ⟨event, -, isJob⟩ := List.mem_filterMap.mp reported
              unfold Server.report at isJob
              split at isJob
              · cases isJob
              · split at isJob <;> cases isJob
            · simp at last
          rw [marks, List.append_nil]
          refine ⟨reading.regular, reading.beyond, ?_, ?_, ?_, reading.counted⟩
          · exact fun c _ => reading.settled c List.not_mem_nil
          · exact fun c member => absurd member (unserved c)
          · exact fun c member => unserved c (List.mem_of_mem_tail member)
  | work patience =>
      rcases step_cases oracle step with ⟨turn, absurd, -⟩ |
        ⟨patience', job, rest, more, isAct, isNext, performed, isRest⟩
      · cases absurd
      obtain rfl := Act.work.inj isAct
      obtain rfl : jobs = job :: rest := isNext
      obtain ⟨last, left⟩ := after
      obtain rfl : left = more ++ rest := isRest
      have regular := Server.perform_regular performed reading.regular
      have conns := Server.perform_conns reading.regular performed
      have fresh := reading.beyond _ (Nat.le_refl _)
      have isMarks : marks ⟨server, job :: rest⟩ (.work patience) = server.marks job := rfl
      rw [isMarks]
      by_cases service : ∃ c, job = .service c
      · obtain ⟨c, rfl⟩ := service
        obtain ⟨⟨served, again⟩, once, done⟩ := bind_ok.mp performed
        obtain ⟨rfl, rfl⟩ := Prod.mk.inj (Except.ok.inj done)
        exact reading_service reading once
      have notService : ∀ d, job ≠ .service d := fun d isJob => service ⟨d, isJob⟩
      by_cases unmarked : server.marks job = []
      · rw [unmarked, List.append_nil]
        exact reading_calm reading notService regular conns
          (Server.perform_calm fresh unmarked notService performed)
      · cases job with
        | ready c read write =>
            cases read with
            | none => exact absurd rfl unmarked
            | some data =>
                simp only [Server.marks] at unmarked ⊢
                unfold Server.perform at performed
                simp only at performed
                split at performed
                · rename_i nothing
                  exact absurd (if_pos nothing) unmarked
                · rename_i some
                  obtain ⟨rfl, rfl⟩ := Prod.mk.inj (Except.ok.inj performed)
                  rw [if_neg some]
                  have here : c ∈ server.clients := by
                    by_contra gone
                    exact some (if_neg gone)
                  have same : server.received c data = data := if_pos here
                  rw [same]
                  exact reading_chunk here reading
        | service c => exact absurd rfl (notService c)
        | accept | writable | flushAll | flush | sweep | report => exact absurd rfl unmarked

theorem reading_run {meets : Loop × List Mark → Act → Prop}
    (run : Run (recorded (Step oracle) marks) meets (start now, []) (loop, tape)) :
    Reading loop tape := by
  have reading := run.invariant (fun state => Reading state.1 state.2) reading_start
    (by
      intro before act after reading _ step
      obtain ⟨taken, isTape⟩ := step
      rw [isTape]
      exact reading_step reading taken)
  exact reading

/-- The loop in `service` comes to its end, unless a call of `handle` does not
return. -/
theorem service_ends (server : Server) (c : Conn) (rest : List Job) :
    ∃ later : Loop, Run (Step oracle) always ⟨server, .service c :: rest⟩ later ∧
      (later.jobs = rest ∨
        later.jobs = .service c :: rest ∧ ∀ patience, later.next oracle (.work patience) = none) := by
  induction length : (server.object c).rx.length using Nat.strongRecOn generalizing server with
  | ind size inductionHypothesis =>
      by_cases stuck : ∀ patience,
          next oracle ⟨server, .service c :: rest⟩ (.work patience) = none
      · exact ⟨_, .refl _, Or.inr ⟨rfl, stuck⟩⟩
      obtain ⟨patience, some⟩ := not_forall.mp stuck
      obtain ⟨after, taken⟩ := Option.ne_none_iff_exists'.mp some
      have step : Step oracle ⟨server, .service c :: rest⟩ (.work patience) after := taken
      have one : Run (Step oracle) always ⟨server, .service c :: rest⟩ after :=
        .tail _ (.refl _) trivial step
      rcases step_cases oracle step with ⟨turn, absurd, -⟩ |
        ⟨patience', job, rest', more, isAct, isNext, performed, isRest⟩
      · cases absurd
      obtain ⟨rfl, rfl⟩ := List.cons.inj isNext
      obtain ⟨⟨served, again⟩, once, done⟩ := bind_ok.mp performed
      obtain ⟨isServer, isMore⟩ := Prod.mk.inj (Except.ok.inj done)
      obtain ⟨last, left⟩ := after
      obtain rfl : served = last := isServer
      obtain rfl : left = more ++ rest := isRest
      subst isMore
      cases again with
      | false => exact ⟨_, one, Or.inl rfl⟩
      | true =>
          obtain ⟨body, behind, read, handled⟩ :=
            Server.serviceTurn_iff.mp (once : Server.ServiceTurn oracle c server patience' served)
          have rx := (Server.handle_still handled c).rx
          rw [Server.rx_holding] at rx
          have shorter : (served.object c).rx.length < size := by
            rw [rx, ← length]
            exact Server.framing.shrinks read
          obtain ⟨later, run, ends⟩ := inductionHypothesis _ shorter served rfl
          exact ⟨later, one.trans run, ends⟩

/-- What is made of the streams, in a state of a recorded run. -/
structure Framed (oracle : Oracle) (loop : Loop) (tape : List Mark) : Prop where
  reassembled : ∀ c, Job.service c ∉ loop.jobs →
    Reassembled tape c (loop.state.object c).rx (c ∈ loop.state.clients)
  counted : loop.state.stats.badFrames = allBad tape
  ends : ∀ c, Job.service c ∈ loop.jobs → ∃ later : Loop,
    Run (Step oracle) always loop later ∧ (Job.service c ∉ later.jobs ∨
      ∀ patience, later.next oracle (.work patience) = none)

theorem framed_run {meets : Loop × List Mark → Act → Prop}
    (run : Run (recorded (Step oracle) marks) meets (start now, []) (loop, tape)) :
    Framed oracle loop tape := by
  have reading := reading_run run
  refine ⟨fun c unserved => (reading.settled c unserved).reassembled, reading.counted, ?_⟩
  intro c served
  obtain ⟨server, jobs⟩ := loop
  cases jobs with
  | nil => exact absurd served List.not_mem_nil
  | cons job rest =>
      have idle : Job.service c ∉ rest := reading.first c
      rcases List.mem_cons.mp served with rfl | later
      · obtain ⟨later, run', ends⟩ := @service_ends oracle server c rest
        refine ⟨later, run', ends.imp ?_ And.right⟩
        intro isRest
        rw [isRest]
        exact idle
      · exact absurd later idle

end Loop

end DragsterNet.Relay
