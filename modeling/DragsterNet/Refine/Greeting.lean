/-
Module: DragsterNet.Refine.Greeting
Purpose: When the HELLO that a console sends is one that both relays accept.
Trusted boundary: the path buffers and the reply window are the cartridge's
Main exports: Frames, Server.Registers, State.Registers, Playable,
  hello_registers_iff, hello_refused
-/
import DragsterNet.Console.Session
import DragsterNet.Refine.Registry
import DragsterNet.Refine.Text

namespace DragsterNet.Relay

open Lib

namespace Server

variable {oracle : Oracle} {server after : Server} {c : Conn} {payload : Bytes} {patience : Nat}
  {name : Text} {tv : Byte}

/-- The client is connected, under that name, and the name leads to it. -/
structure Listed (server : Server) (c : Conn) (name : Text) : Prop where
  here : c ∈ server.clients
  named : (server.object c).name = some name
  entry : server.byName.get? name = some c

/-- `on_hello` lists the client, and goes on to `try_pair`. -/
def Registers (oracle : Oracle) (server : Server) (c : Conn) (payload : Bytes) : Prop :=
  ∃ name, (∃ listed, Listed listed c name ∧
      ∀ patience, server.onHello oracle patience c payload = listed.tryPair oracle c) ∧
    ∀ patience after, server.onHello oracle patience c payload = .ok after →
      Listed after c name

theorem Listed.congr (listed : Listed server c name)
    (same : after.roll = server.roll ∨ after.roll = announced oracle server.roll) :
    Listed after c name := by
  have kept : after.roll.members = server.roll.members ∧ after.roll.name = server.roll.name ∧
      after.roll.entries = server.roll.entries := by
    rcases same with same | same
    · rw [same]
      exact ⟨rfl, rfl, rfl⟩
    · rw [same]
      unfold announced
      split <;> exact ⟨rfl, rfl, rfl⟩
  refine ⟨?_, (congrFun kept.2.1 c).trans listed.named, ?_⟩
  · have members : after.clients = server.clients := kept.1
    rw [members]
    exact listed.here
  · apply Dict.mem_entries.mp
    have entries : after.byName.entries = server.byName.entries := kept.2.2
    rw [entries]
    exact Dict.mem_entries.mpr listed.entry

theorem registers_of_ok (here : c ∈ server.clients)
    (read : readHello payload = .ok (tv, name)) (free : server.byName.get? name = none) :
    Registers oracle server c payload := by
  have byName : (server.noteTv c payload).byName = server.byName := by
    unfold noteTv
    split <;> rfl
  have greeted : ∀ patience, server.onHello oracle patience c payload =
      ((server.noteTv c payload).register oracle c name tv
        (server.noteTv c payload).digits).tryPair oracle c := by
    intro patience
    unfold onHello
    simp only [read]
    rw [freeName_eq, byName, free]
    rfl
  have listed : Listed ((server.noteTv c payload).register oracle c name tv
      (server.noteTv c payload).digits) c name := by
    have table : SameTable server ((server.noteTv c payload).register oracle c name tv
        (server.noteTv c payload).digits) := table_noteTv.trans table_register
    refine ⟨?_, ?_, ?_⟩
    · rw [table.1]
      exact here
    · have floor := @floor_register oracle (server.noteTv c payload) c name tv
        (server.noteTv c payload).digits
      exact (congrFun (congrArg Floor.name floor) c).trans (Function.update_self ..)
    · have set : ((server.noteTv c payload).register oracle c name tv
          (server.noteTv c payload).digits).byName =
            (server.noteTv c payload).byName.set name c := by
        unfold register lobbyUpdate
        split <;> rfl
      rw [set, Dict.get?_set, if_pos rfl]
  refine ⟨name, ⟨_, listed, greeted⟩, ?_⟩
  intro patience after done
  rw [greeted] at done
  exact listed.congr (tryPair_roll done)

theorem not_registers {refusal : Refusal Text} (tidy : Tidy server) (here : c ∈ server.clients)
    (read : readHello payload = .error refusal) : ¬ Registers oracle server c payload := by
  rintro ⟨name, -, outcome⟩
  have noted : SameTable server ((server.noteTv c payload).log
      (refusalLine ((server.noteTv c payload).object c).ip refusal)) := table_noteTv
  have dropped : server.onHello oracle 0 c payload =
      .ok (((server.noteTv c payload).log
        (refusalLine ((server.noteTv c payload).object c).ip refusal)).drop oracle c) := by
    unfold onHello
    simp only [read]
  have listed := outcome 0 _ dropped
  have here' : c ∈ ((server.noteTv c payload).log
      (refusalLine ((server.noteTv c payload).object c).ip refusal)).clients := by
    rw [noted.1]
    exact here
  have clients := (@drop_cases oracle _ c (noted.tidy tidy) here').1
  have present := listed.here
  rw [clients] at present
  exact ((noted.tidy tidy).1.mem_erase_iff.mp present).1 rfl

end Server

end DragsterNet.Relay

namespace DragsterNet.CRelay

open Lib Relay

namespace State

variable {oracle : Oracle} {state after : State} {ci : Slot} {payload name : Bytes} {tv : Byte}

/-- The client is connected, under that name, and the name leads to it. -/
structure Listed (state : State) (ci : Slot) (name : Bytes) : Prop where
  here : ci ∈ state.order
  named : (state.clients ci).hasName = true ∧ (state.clients ci).name = name
  entry : ⟨name, ci, (state.clients ci).gen⟩ ∈ state.byName

/-- `on_hello` lists the client. -/
def Registers (oracle : Oracle) (state : State) (ci : Slot) (payload : Bytes) : Prop :=
  ∃ name, Listed (state.onHello oracle ci payload) ci name

theorem mem_nameSet (free : state.nameTaken name = false) :
    ⟨name, ci, (state.clients ci).gen⟩ ∈ (state.nameSet name ci).byName := by
  have fresh : (state.byName.findIdx? fun entry => entry.name = name) = none := by
    rw [List.findIdx?_eq_none_iff]
    intro entry member
    exact Bool.eq_false_iff.mpr (List.any_eq_false.mp free entry member)
  unfold nameSet
  simp only
  rw [fresh]
  exact List.mem_append_right _ (List.mem_singleton_self _)

theorem register_listed {drawn : Nat} (here : ci ∈ state.order)
    (free : state.nameTaken name = false) :
    Listed (state.register oracle ci name tv drawn) ci name := by
  have order : (state.register oracle ci name tv drawn).order = state.order :=
    register_stays.order
  have clients : (state.register oracle ci name tv drawn).clients ci =
      { state.clients ci with name := name, hasName := true } := by
    rw [clients_register, edit_self]
  refine ⟨?_, ?_, ?_⟩
  · rw [order]
    exact here
  · rw [clients]
    exact ⟨rfl, rfl⟩
  · rw [clients]
    have free' : (state.edit ci fun client =>
        { client with name := name, hasName := true }).nameTaken name = false := free
    have member := @mem_nameSet _ ci name free'
    rw [edit_self] at member
    unfold register lobbyUpdateCount
    split <;> exact member

theorem Listed.tryPair (listed : Listed state ci name) :
    Listed (state.tryPair oracle ci) ci name := by
  have kept : (state.tryPair oracle ci).roster.order = state.roster.order ∧
      (state.tryPair oracle ci).roster.byName = state.roster.byName ∧
      (state.tryPair oracle ci).roster.badge = state.roster.badge := by
    rcases @roster_tryPair oracle state ci with same | same
    · rw [same]
      exact ⟨rfl, rfl, rfl⟩
    · rw [same]
      unfold announced
      split <;> exact ⟨rfl, rfl, rfl⟩
  obtain ⟨order, byName, badge⟩ := kept
  have name_ : ((state.tryPair oracle ci).roster.badge ci).name = some name := by
    rw [badge]
    exact Refine.roster_name.mpr listed.named
  have gen : ((state.tryPair oracle ci).clients ci).gen = (state.clients ci).gen :=
    congrArg Badge.gen (congrFun badge ci)
  refine ⟨?_, Refine.roster_name.mp name_, ?_⟩
  · have same : (state.tryPair oracle ci).order = state.order := order
    rw [same]
    exact listed.here
  · have same : (state.tryPair oracle ci).byName = state.byName := byName
    rw [gen, same]
    exact listed.entry

theorem registers_of_ok (here : ci ∈ state.order) (read : readHello payload = .ok (tv, name))
    (free : state.nameTaken name = false) : Registers oracle state ci payload := by
  have noted : (state.noteTv ci payload).roster = state.roster := roster_noteTv
  have taken : (state.noteTv ci payload).nameTaken = state.nameTaken := by
    unfold nameTaken
    rw [names_noteTv.1]
  have here' : ci ∈ (state.noteTv ci payload).order := by
    have order : (state.noteTv ci payload).order = state.order := congrArg Roster.order noted
    rw [order]
    exact here
  have free' : (state.noteTv ci payload).nameTaken name = false := by
    rw [taken]
    exact free
  have greeted : state.onHello oracle ci payload =
      ((state.noteTv ci payload).register oracle ci name tv
        (state.noteTv ci payload).digits).tryPair oracle ci := by
    unfold onHello
    simp only [read]
    rw [freeName_eq, free']
    rfl
  refine ⟨name, ?_⟩
  rw [greeted]
  exact (register_listed here' free').tryPair

theorem not_registers {refusal : Refusal Bytes} (tidy : state.Tidy) (here : ci ∈ state.order)
    (read : readHello payload = .error refusal) : ¬ Registers oracle state ci payload := by
  rintro ⟨name, listed⟩
  have dropped : state.onHello oracle ci payload =
      ((state.noteTv ci payload).log
        (refusalLine ((state.noteTv ci payload).clients ci).ip refusal)).drop oracle ci := by
    unfold onHello
    simp only [read]
  have noted : ((state.noteTv ci payload).log
      (refusalLine ((state.noteTv ci payload).clients ci).ip refusal)).roster = state.roster :=
    roster_log.trans roster_noteTv
  have tidy' := tidy.roster noted
  have here' : ci ∈ ((state.noteTv ci payload).log
      (refusalLine ((state.noteTv ci payload).clients ci).ip refusal)).order := by
    have order : ((state.noteTv ci payload).log
        (refusalLine ((state.noteTv ci payload).clients ci).ip refusal)).order = state.order :=
      congrArg Roster.order noted
    rw [order]
    exact here
  have alive := ((tidy'.mem_iff ci).mp here').2
  have order := (@drop_alive oracle _ ci alive).1
  have present := listed.here
  rw [dropped, order] at present
  exact (tidy'.nodup.mem_erase_iff.mp present).1 rfl

end State

end DragsterNet.CRelay

namespace DragsterNet.Refine

open Lib Relay

variable {σ : Type} {port : PathPort σ} {name url : AppKey} {paths : σ} {baked : Baked}
  {standard : Standard} {oracle : Oracle}

/-- A WRITE of as many bytes as it says, which are one frame, a HELLO. -/
def Frames (stream payload : Bytes) : Prop :=
  ∃ low high frame, txRequest 1 stream = ([[low, high]], frame) ∧
    frame.length = low.toNat + 256 * high.toNat ∧
    readFrame frame = .whole (tHello :: payload) []

/-- The name is one that the relays accept. -/
def Playable (name : Bytes) : Prop := validName (upper (strip (decode name))) = true

instance (name : Bytes) : Decidable (Playable name) := inferInstanceAs (Decidable (_ = _))

/-- The name in the HELLO: the one in the appkey, if its length is a name's. -/
def greetingName (baked : Baked) (name : AppKey) : Bytes :=
  if 2 ≤ name.name.length ∧ name.name.length ≤ 8 then name.name else baked.name

def greetingPayload (baked : Baked) (standard : Standard) (name : AppKey) : Bytes :=
  [wProto, standard.byte] ++ greetingName baked name

theorem greetingName_length : 2 ≤ (greetingName baked name).length ∧
    (greetingName baked name).length ≤ 8 := by
  unfold greetingName
  split
  · assumption
  · exact ⟨baked.long, baked.short⟩

/-! ### The bytes that are sent -/

theorem csHelo_eq {ready : σ} (held : port.held ready pbName = name.name) :
    csHelo port baked standard ready =
      fnPw (csHn3 baked (BitVec.ofNat 8 name.name.length) + 4) 0 ++
        [csHn3 baked (BitVec.ofNat 8 name.name.length) + 3, wtHelo, wProto, standard.byte] ++
          greetingName baked name := by
  have length : ∀ before : σ, port.held before = port.held ready →
      csPlen (port.length (port.act before (fpSel pbName))) = BitVec.ofNat 8 name.name.length := by
    intro before same
    rw [port.published, port.selected_sel, port.held_sel, same, held, csPlen_small name.name_length]
  have emitted : port.emitted (port.act (port.act ready (fpSel pbName)) (fpSel pbName)) =
      name.name := by
    rw [port.emits, port.selected_sel, port.held_sel, port.held_sel, held]
  have bound := name.name_length
  unfold csHelo
  simp only
  rw [length ready rfl, length (port.act ready (fpSel pbName)) (port.held_sel ..), emitted]
  apply congrArg
  unfold greetingName nameMin nameMax
  by_cases short : name.name.length < 2
  · have low : BitVec.ofNat 8 name.name.length < (2 : Byte) := by bv_omega
    rw [if_pos low, if_neg fun fair => absurd fair.1 (Nat.not_le.mpr short)]
  · have high : ¬ BitVec.ofNat 8 name.name.length < (2 : Byte) := by bv_omega
    rw [if_neg high]
    by_cases long : 8 < name.name.length
    · have exceeds : (8 + 1 : Byte) ≤ BitVec.ofNat 8 name.name.length := by bv_omega
      rw [if_pos exceeds, if_neg fun fair => absurd fair.2 (Nat.not_le.mpr long)]
    · have under : ¬ (8 + 1 : Byte) ≤ BitVec.ofNat 8 name.name.length := by bv_omega
      rw [if_neg under, if_pos ⟨Nat.not_lt.mp short, Nat.not_lt.mp long⟩]

theorem csSession_eq : csSession port name url baked standard paths =
    fnPw (csHn3 baked (BitVec.ofNat 8 name.name.length) + 4) 0 ++
      [csHn3 baked (BitVec.ofNat 8 name.name.length) + 3, wtHelo, wProto, standard.byte] ++
        greetingName baked name := by
  apply csHelo_eq
  rw [csUrl_held, csAkGet_held, Function.update_of_ne (by decide), csAkGet_held,
    Function.update_self]

theorem txRequest_word (low high : Byte) (frame : Bytes) :
    txRequest 1 (fnPw low high ++ frame) = ([[low, high]], frame) := rfl

/-- A name that is long enough is framed, itself or the baked one. -/
theorem frames_of_long (long : 2 ≤ name.name.length) :
    Frames (csSession port name url baked standard paths)
      (greetingPayload baked standard name) := by
  have bound := name.name_length
  obtain ⟨least, most⟩ := @greetingName_length name baked
  have counted : csHn3 baked (BitVec.ofNat 8 name.name.length) =
      BitVec.ofNat 8 (greetingName baked name).length := by
    unfold greetingName
    split
    · rename_i fair
      exact csHn3_fair (by unfold nameMin; bv_omega) (by unfold nameMax; bv_omega)
    · rename_i unfair
      exact csHn3_long (by unfold nameMax; bv_omega)
  rw [csSession_eq, counted, List.append_assoc]
  refine ⟨_, _, _, txRequest_word .., ?_, ?_⟩
  · rw [List.length_append]
    simp only [List.length_cons, List.length_nil]
    bv_omega
  · have n : (BitVec.ofNat 8 (greetingName baked name).length + 3).toNat =
        (greetingName baked name).length + 3 := by bv_omega
    have body : (wtHelo :: wProto :: standard.byte :: greetingName baked name).length =
        (greetingName baked name).length + 3 := rfl
    unfold readFrame
    simp only [List.cons_append, List.nil_append]
    rw [if_neg (by omega), if_neg (by rw [body]; omega), n, ← body, List.take_length,
      List.drop_length]
    rfl

/-- A name that is too short is not framed: the WRITE is of four bytes, and the
baked name comes after them. -/
theorem not_frames (short : name.name.length < 2) {payload : Bytes} :
    ¬ Frames (csSession port name url baked standard paths) payload := by
  rintro ⟨low, high, frame, request, length, -⟩
  have none : csHn3 baked (BitVec.ofNat 8 name.name.length) = 0 :=
    csHn3_short (by unfold nameMin; bv_omega)
  rw [csSession_eq, none, List.append_assoc, txRequest_word] at request
  obtain ⟨words, rfl⟩ := Prod.mk.inj request
  obtain ⟨rfl, rfl⟩ : 0 + 4 = low ∧ 0 = high := by simpa using words
  have least := (@greetingName_length name baked).1
  rw [List.length_append] at length
  simp only [List.length_cons, List.length_nil] at length
  have low : (0 + 4 : Byte).toNat = 4 := by decide
  have high : (0 : Byte).toNat = 0 := by decide
  omega

/-! ### What the relays make of it -/

theorem letter_kept : ∀ char : Byte, 0x41 ≤ char ∧ char ≤ 0x5A ∨ 0x30 ≤ char ∧ char ≤ 0x39 →
    CRelay.State.nameOk char = true ∧ CRelay.State.isPad char = false ∧
      CRelay.State.upper char = char := by
  decide +kernel

theorem baked_playable : Playable baked.name := by
  have letter : ∀ char ∈ baked.name, CRelay.State.nameOk char = true ∧
      CRelay.State.isPad char = false ∧ CRelay.State.upper char = char :=
    fun char member => letter_kept char (baked.letters char member)
  have left : baked.name.dropWhile CRelay.State.isPad = baked.name := by
    apply List.dropWhile_eq_self_iff.mpr
    intro inside
    rw [(letter _ (List.getElem_mem inside)).2.1]
    exact Bool.false_ne_true
  have right : baked.name.rdropWhile CRelay.State.isPad = baked.name := by
    apply List.rdropWhile_eq_self_iff.mpr
    intro inside
    rw [(letter _ (List.getLast_mem inside)).2.1]
    exact Bool.false_ne_true
  have upper_ : baked.name.map CRelay.State.upper = baked.name := by
    refine (List.map_congr_left fun char member => (letter char member).2.2).trans ?_
    exact List.map_id' _
  unfold Playable
  rw [decode_eq, strip_glyph, left, right, upper_map, upper_]
  exact validName_glyph.mpr ⟨baked.long, baked.short,
    List.all_eq_true.mpr fun char member => (letter char member).1⟩

theorem readHello_greeting : Server.readHello (greetingPayload baked standard name) =
    if Playable (greetingName baked name) then
      .ok (standard.byte, upper (strip (decode (greetingName baked name))))
    else .error (.name (upper (strip (decode (greetingName baked name))))) := by
  have least := (@greetingName_length name baked).1
  have versioned : ¬ ((greetingPayload baked standard name).length < 3 ∨
      (greetingPayload baked standard name).head? ≠ some proto) := by
    rintro (short | other)
    · unfold greetingPayload at short
      rw [List.length_append] at short
      simp only [List.length_cons, List.length_nil] at short
      omega
    · exact other rfl
  have tv : (greetingPayload baked standard name).getD 1 0 = standard.byte := rfl
  have rest : (greetingPayload baked standard name).drop 2 = greetingName baked name := rfl
  have apart : standard.byte ≠ tvSecam := by cases standard <;> decide
  have known : ¬ (standard.byte ≠ tvNtsc ∧ standard.byte ≠ tvPal) := by cases standard <;> decide
  unfold Server.readHello
  simp only
  rw [if_neg versioned, tv, rest, if_neg apart, if_neg known]
  exact if_congr Iff.rfl rfl rfl

/-- Each relay registers the console if and only if its name is playable. -/
theorem registers_iff {server : Server} {state : CRelay.State} {c : Conn} {ci : CRelay.Slot}
    (tidy : server.Tidy) (tidy' : state.Tidy) (here : c ∈ server.clients) (here' : ci ∈ state.order)
    (free : ∀ tv asked, Server.readHello (greetingPayload baked standard name) = .ok (tv, asked) →
      server.byName.get? asked = none)
    (free' : ∀ tv asked, CRelay.State.readHello (greetingPayload baked standard name) =
      .ok (tv, asked) → state.nameTaken asked = false) :
    (Server.Registers oracle server c (greetingPayload baked standard name) ↔
        Playable (greetingName baked name)) ∧
      (CRelay.State.Registers oracle state ci (greetingPayload baked standard name) ↔
        Playable (greetingName baked name)) := by
  have most := (@greetingName_length name baked).2
  have fits : (greetingPayload baked standard name).length ≤ 256 := by
    unfold greetingPayload
    rw [List.length_append]
    simp only [List.length_cons, List.length_nil]
    omega
  have read := @readHello_greeting name baked standard
  have same := sameHello fits
  generalize read' : CRelay.State.readHello (greetingPayload baked standard name) = hello at same
  by_cases playable : Playable (greetingName baked name)
  · rw [if_pos playable] at read
    rw [read] at same
    cases same with
    | admitted tv asked short =>
        exact ⟨iff_of_true (Server.registers_of_ok here read (free _ _ read)) playable,
          iff_of_true (CRelay.State.registers_of_ok here' read' (free' _ _ read')) playable⟩
  · rw [if_neg playable] at read
    rw [read] at same
    cases same with
    | refused line =>
        exact ⟨iff_of_false (Server.not_registers tidy here read) playable,
          iff_of_false (CRelay.State.not_registers tidy' here' read') playable⟩

theorem framed_playable_iff :
    (Frames (csSession port name url baked standard paths) (greetingPayload baked standard name) ∧
      Playable (greetingName baked name)) ↔
    2 ≤ name.name.length ∧ (name.name.length ≤ 8 → Playable name.name) := by
  constructor
  · rintro ⟨frames, playable⟩
    have long : 2 ≤ name.name.length := by
      apply Nat.not_lt.mp
      exact fun short => not_frames short frames
    refine ⟨long, fun fits => ?_⟩
    unfold greetingName at playable
    rw [if_pos ⟨long, fits⟩] at playable
    exact playable
  · rintro ⟨long, playable⟩
    refine ⟨frames_of_long long, ?_⟩
    unfold greetingName
    split
    · rename_i fair
      exact playable fair.2
    · exact baked_playable

/-- The bytes that a console streams are one HELLO that the relay in Python, or
the one in C, accepts if and only if the name in the appkey has two characters at
least, and is playable if it has eight at most. -/
theorem hello_registers_iff (port : PathPort σ) (name url : AppKey) (paths : σ) (baked : Baked)
    (standard : Standard) {now : Time} {loop : Loop} {loop' : CRelay.Loop}
    (run : Run (Loop.Step oracle) always (Loop.start now) loop)
    (run' : Run (CRelay.Loop.Step oracle) always (CRelay.Loop.start now) loop')
    {c : Conn} {ci : CRelay.Slot} (here : c ∈ loop.state.clients) (here' : ci ∈ loop'.state.order)
    (free : ∀ tv asked, Server.readHello (greetingPayload baked standard name) = .ok (tv, asked) →
      loop.state.byName.get? asked = none)
    (free' : ∀ tv asked, CRelay.State.readHello (greetingPayload baked standard name) =
      .ok (tv, asked) → loop'.state.nameTaken asked = false) :
    ((Frames (csSession port name url baked standard paths)
          (greetingPayload baked standard name) ∧
        Server.Registers oracle loop.state c (greetingPayload baked standard name)) ↔
      2 ≤ name.name.length ∧ (name.name.length ≤ 8 → Playable name.name)) ∧
    ((Frames (csSession port name url baked standard paths)
          (greetingPayload baked standard name) ∧
        CRelay.State.Registers oracle loop'.state ci (greetingPayload baked standard name)) ↔
      2 ≤ name.name.length ∧ (name.name.length ≤ 8 → Playable name.name)) := by
  obtain ⟨registers, registers'⟩ := @registers_iff name baked standard oracle _ _ c ci
    (Loop.regular_run run).tidy (CRelay.Loop.tidy_run run') here here' free free'
  rw [registers, registers']
  exact ⟨framed_playable_iff, framed_playable_iff⟩

/-- The device's answer about an appkey that holds `stored`. -/
def stored (text : Bytes) : AppKey where
  opened := ⟨fneOk, 0x06⟩
  read := ⟨fneOk, 0x06⟩
  reply index := ([BitVec.ofNat 8 text.length, BitVec.ofNat 8 (text.length / 256)] ++ text).getD index 0

/-- An appkey that cannot be opened. -/
def missing : AppKey where
  opened := ⟨0x02, 0x15⟩
  read := ⟨0x02, 0x15⟩
  reply _ := 0

def player1 : Baked where
  name := [0x50, 0x4C, 0x41, 0x59, 0x45, 0x52, 0x31]
  long := by decide
  short := by decide
  letters := by decide

/-- A name in lower case, with spaces around it. -/
def joe : AppKey := stored [0x20, 0x6A, 0x6F, 0x65, 0x20]

theorem hello_registers_joe : ∃ (loop : Loop) (loop' : CRelay.Loop),
    ((Frames (csSession PathPort.lists joe missing player1 .pal (0, fun _ => []))
          (greetingPayload player1 .pal joe) ∧
        Server.Registers plain loop.state 0 (greetingPayload player1 .pal joe)) ↔
      2 ≤ joe.name.length ∧ (joe.name.length ≤ 8 → Playable joe.name)) ∧
    ((Frames (csSession PathPort.lists joe missing player1 .pal (0, fun _ => []))
          (greetingPayload player1 .pal joe) ∧
        CRelay.State.Registers plain loop'.state 0 (greetingPayload player1 .pal joe)) ↔
      2 ≤ joe.name.length ∧ (joe.name.length ≤ 8 → Playable joe.name)) ∧
    2 ≤ joe.name.length ∧ Playable joe.name := by
  have outcome : ((Loop.accepting 1 0).foldlM (Loop.next plain) (Loop.start 0)).map (fun loop =>
      decide (0 ∈ loop.state.clients ∧ loop.state.byName.entries = [])) = some true := by
    decide +kernel
  have outcome' : ((CRelay.Loop.accepting 1 0).foldlM (CRelay.Loop.next plain)
      (CRelay.Loop.start 0)).map (fun loop =>
        decide (0 ∈ loop.state.order) && loop.state.byName.isEmpty) = some true := by
    decide +kernel
  obtain ⟨loop, executed, isOutcome⟩ := Option.map_eq_some_iff.mp outcome
  obtain ⟨loop', executed', isOutcome'⟩ := Option.map_eq_some_iff.mp outcome'
  obtain ⟨here, empty⟩ := of_decide_eq_true isOutcome
  obtain ⟨here', empty'⟩ := (Bool.and_eq_true ..).mp isOutcome'
  have free : ∀ tv asked, Server.readHello (greetingPayload player1 .pal joe) = .ok (tv, asked) →
      loop.state.byName.get? asked = none := by
    intro tv asked _
    apply Option.eq_none_iff_forall_ne_some.mpr
    intro c isEntry
    have member := Dict.mem_entries.mpr isEntry
    rw [empty] at member
    cases member
  have free' : ∀ tv asked, CRelay.State.readHello (greetingPayload player1 .pal joe) =
      .ok (tv, asked) → loop'.state.nameTaken asked = false := by
    intro tv asked _
    unfold CRelay.State.nameTaken
    rw [List.isEmpty_iff.mp empty']
    rfl
  obtain ⟨python, c⟩ := hello_registers_iff PathPort.lists joe missing (0, fun _ => []) player1
    .pal (Run.of_foldlM executed) (Run.of_foldlM executed') here (of_decide_eq_true here') free
      free'
  exact ⟨loop, loop', python, c, by decide +kernel, by decide +kernel⟩

/-- Without an appkey, the WRITE is of four bytes while the baked name follows
them, which is no frame; and a name with an underscore is framed and refused by
both relays. -/
theorem hello_refused :
    (∀ payload, ¬ Frames (csSession PathPort.lists missing missing player1 .ntsc
      (0, fun _ => [])) payload) ∧
    csSession PathPort.lists missing missing player1 .ntsc (0, fun _ => []) =
      [2, 4, 0] ++ [3, 1, 2, 0] ++ player1.name ∧
    ∃ (loop : Loop) (loop' : CRelay.Loop),
      Run (Loop.Step plain) always (Loop.start 0) loop ∧
      Run (CRelay.Loop.Step plain) always (CRelay.Loop.start 0) loop' ∧
      loop.state.clients = [0] ∧ loop.state.byName.entries = [] ∧ loop'.state.order = [0] ∧
      csSession PathPort.lists (stored [0x41, 0x5F, 0x42]) missing player1 .ntsc (0, fun _ => []) =
        fnPw 7 0 ++ wire tHello [2, 0, 0x41, 0x5F, 0x42] ∧
      (loop.state.onHello plain 0 0 [2, 0, 0x41, 0x5F, 0x42]).toOption.map
        (fun after => after.clients) = some [] ∧
      (loop'.state.onHello plain 0 [2, 0, 0x41, 0x5F, 0x42]).order = [] := by
  refine ⟨fun payload => not_frames (by decide +kernel), by decide +kernel, ?_⟩
  have outcome : ((Loop.accepting 1 0).foldlM (Loop.next plain) (Loop.start 0)).map (fun loop =>
      decide (loop.state.clients = [0] ∧ loop.state.byName.entries = [] ∧
        (loop.state.onHello plain 0 0 [2, 0, 0x41, 0x5F, 0x42]).toOption.map
          (fun after => after.clients) = some [])) = some true := by
    decide +kernel
  have outcome' : ((CRelay.Loop.accepting 1 0).foldlM (CRelay.Loop.next plain)
      (CRelay.Loop.start 0)).map (fun loop => decide (loop.state.order = [0] ∧
        (loop.state.onHello plain 0 [2, 0, 0x41, 0x5F, 0x42]).order = [])) = some true := by
    decide +kernel
  obtain ⟨loop, executed, isOutcome⟩ := Option.map_eq_some_iff.mp outcome
  obtain ⟨loop', executed', isOutcome'⟩ := Option.map_eq_some_iff.mp outcome'
  obtain ⟨clients, names, refused⟩ := of_decide_eq_true isOutcome
  obtain ⟨order, refused'⟩ := of_decide_eq_true isOutcome'
  exact ⟨loop, loop', Run.of_foldlM executed, Run.of_foldlM executed', clients, names, order,
    by decide +kernel, refused, refused'⟩

end DragsterNet.Refine
