/-
Module: DragsterNet.Console.Session
Purpose: The console before a match: the two appkeys, read into the cartridge's
  path buffers, and the HELLO that carries the name.
Trusted boundary: the path buffers and the reply window are the cartridge's
Main exports: PathPort, AppKey, csAkGet, csPlen, csHelo, AppKey.name,
  csAkGet_held, csHelo_eq
-/
import Mathlib.Data.List.TakeWhile
import DragsterNet.Console.Cells

namespace DragsterNet

/-! ### The path buffers -/

def fpRst : Byte := 0
def fpTxRaw : Byte := 3
def fpSel (buffer : Fin 4) : Byte := 5 + BitVec.ofNat 8 buffer

/-- Where the username goes. -/
def pbName : Fin 4 := 0

/-- Where the room's URL goes. -/
def pbUrl : Fin 4 := 1

/-- The cartridge's path buffers: four of them, of 256 bytes, one selected. -/
structure PathPort (σ : Type) where
  /-- A store of `FP_*` to `FH_PATHO`. -/
  act : σ → Byte → σ
  /-- A store to `FH_PATHC`. -/
  append : σ → Byte → σ
  /-- `FNPLNL` and `FNPLNH` -/
  length : σ → BitVec 16
  /-- What `FP_TXRAW` appends to the TX stream. -/
  emitted : σ → List Byte
  selected : σ → Fin 4
  held : σ → Fin 4 → List Byte
  selected_sel : ∀ paths buffer, selected (act paths (fpSel buffer)) = buffer
  held_sel : ∀ paths buffer, held (act paths (fpSel buffer)) = held paths
  selected_rst : ∀ paths, selected (act paths fpRst) = selected paths
  held_rst : ∀ paths, held (act paths fpRst) =
    Function.update (held paths) (selected paths) []
  held_txRaw : ∀ paths, held (act paths fpTxRaw) = held paths
  selected_append : ∀ paths char, selected (append paths char) = selected paths
  held_append : ∀ paths char, (held paths (selected paths)).length < 256 →
    held (append paths char) =
      Function.update (held paths) (selected paths) (held paths (selected paths) ++ [char])
  published : ∀ paths, length paths = BitVec.ofNat 16 (held paths (selected paths)).length
  emits : ∀ paths, emitted paths = held paths (selected paths)

theorem fpSel_find : ∀ buffer : Fin 4, fpSel buffer ≠ fpRst ∧
    ((List.finRange 4).find? fun other => fpSel other = fpSel buffer) = some buffer := by
  decide

/-- The buffers as lists, and the number of the one that is selected. -/
def PathPort.lists : PathPort (Fin 4 × (Fin 4 → List Byte)) where
  act paths op :=
    if op = fpRst then (paths.1, Function.update paths.2 paths.1 [])
    else
      match (List.finRange 4).find? fun buffer => fpSel buffer = op with
      | some buffer => (buffer, paths.2)
      | none => paths
  append paths char :=
    if (paths.2 paths.1).length < 256 then
      (paths.1, Function.update paths.2 paths.1 (paths.2 paths.1 ++ [char]))
    else paths
  length paths := BitVec.ofNat 16 (paths.2 paths.1).length
  emitted paths := paths.2 paths.1
  selected paths := paths.1
  held paths := paths.2
  selected_sel _ buffer := by simp only [(fpSel_find buffer).1, if_false, (fpSel_find buffer).2]
  held_sel _ buffer := by simp only [(fpSel_find buffer).1, if_false, (fpSel_find buffer).2]
  selected_rst _ := rfl
  held_rst _ := rfl
  held_txRaw _ := rfl
  selected_append _ _ := by split <;> rfl
  held_append _ _ room := by rw [if_pos room]
  published _ := rfl
  emits _ := rfl

/-- `CSPLEN` -/
def csPlen (length : BitVec 16) : Byte :=
  if length.extractLsb' 8 8 ≠ 0 then 0 else length.extractLsb' 0 8

/-! ### The appkeys -/

def fneOk : Byte := 0
def fneNak : Byte := 0xEE

/-- How a transaction ends: what `FNGO` returns, and `FNRCMD`. -/
structure Answer where
  error : Byte
  rcmd : Byte

def fnAck (rcmd : Byte) : Byte := if rcmd = 0x06 then fneOk else fneNak

def csAkGo (answer : Answer) : Byte := if answer.error ≠ fneOk then answer.error else fnAck answer.rcmd

/-- What the device answers about one appkey: to the open, to the read, and the
reply window after the read. -/
structure AppKey where
  opened : Answer
  read : Answer
  reply : Nat → Byte

section Session

variable {σ : Type} (port : PathPort σ)

/-- The loop at `CSAKG1`, with `left` of the reply's bytes to come. -/
def csAkG1 (reply : Nat → Byte) : Nat → Nat → σ → σ
  | 0, _, paths => paths
  | left + 1, x, paths =>
      if reply (2 + x) = 0 then paths
      else csAkG1 reply left (x + 1) (port.append paths (reply (2 + x)))

/-- `CSAKGET`: an appkey is read into a path buffer; the result is 0 on success. -/
def csAkGet (key : AppKey) (buffer : Fin 4) (paths : σ) : σ × Byte :=
  let paths := port.act (port.act paths (fpSel buffer)) fpRst
  if csAkGo key.opened ≠ 0 then (paths, 0xFF)
  else if csAkGo key.read ≠ 0 then (paths, 0xFF)
  else if key.reply 1 ≠ 0 then (paths, 0xFF)
  else if key.reply 0 = 0 then (paths, 0xFF)
  else (csAkG1 port key.reply (key.reply 0).toNat 0 paths, 0)

/-- What `CSURL` does to the path buffers. -/
def csUrl (paths : σ) : σ :=
  let paths := port.act paths (fpSel pbUrl)
  if csPlen (port.length paths) = 0 then paths else port.act paths fpTxRaw

/-! ### HELLO -/

def nameMin : Byte := 2
def nameMax : Byte := 8
def wtHelo : Byte := 0x01
def wProto : Byte := 2

/-- `DGTVSTD`; a SECAM image is not built. -/
inductive Standard where
  | ntsc
  | pal

def Standard.byte : Standard → Byte
  | .ntsc => 0
  | .pal => 1

/-- `CSHNAME`, the name that was baked in. -/
structure Baked where
  name : List Byte
  long : 2 ≤ name.length
  short : name.length ≤ 8
  letters : ∀ char ∈ name, 0x41 ≤ char ∧ char ≤ 0x5A ∨ 0x30 ≤ char ∧ char ≤ 0x39

def Baked.csHnLen (baked : Baked) : Byte := BitVec.ofNat 8 baked.name.length

/-- The accumulator, with the flags the branches look at. -/
structure Acc where
  a : Byte
  zero : Bool
  carry : Bool

def Acc.lda (acc : Acc) (value : Byte) : Acc := { acc with a := value, zero := value = 0 }

def Acc.cmp (acc : Acc) (value : Byte) : Acc :=
  { acc with zero := acc.a = value, carry := value ≤ acc.a }

/-- What is in `CSDLY` at `CSHN3`, for a path buffer of that length. -/
def csHn3 (baked : Baked) (length : Byte) : Byte :=
  let acc := Acc.cmp ⟨length, length = 0, false⟩ nameMin
  let acc := if acc.carry then acc else acc.lda 0
  let acc := acc.cmp (nameMax + 1)
  let acc := if acc.carry then acc.lda 0 else acc
  -- The store at `CSHN2` sets no flag: the branch after it goes by what came before.
  if acc.zero then baked.csHnLen else acc.a

/-- `FNPW` -/
def fnPw (low high : Byte) : List Byte := [2, low, high]

/-- `CSHELO`: what goes into the TX stream, for a WRITE with one parameter. -/
def csHelo (baked : Baked) (standard : Standard) (paths : σ) : List Byte :=
  let paths := port.act paths (fpSel pbName)
  let csDly := csHn3 baked (csPlen (port.length paths))
  let header := [csDly + 3, wtHelo, wProto, standard.byte]
  let paths := port.act paths (fpSel pbName)
  let length := csPlen (port.length paths)
  let name :=
    if length < nameMin then baked.name
    else if nameMax + 1 ≤ length then baked.name
    else port.emitted paths
  fnPw (csDly + 4) 0 ++ header ++ name

/-- The session from the appkeys to HELLO. -/
def csSession (name url : AppKey) (baked : Baked) (standard : Standard) (paths : σ) : List Byte :=
  let paths := (csAkGet port name pbName paths).1
  let paths := (csAkGet port url pbUrl paths).1
  csHelo port baked standard (csUrl port paths)

end Session

/-- What the device makes of a TX stream: so many parameters, each with its size,
and the payload. -/
def txRequest : Nat → List Byte → List (List Byte) × List Byte
  | 0, stream => ([], stream)
  | _ + 1, [] => ([], [])
  | left + 1, size :: rest =>
      let (params, payload) := txRequest left (rest.drop size.toNat)
      (rest.take size.toNat :: params, payload)

/-! ### What the buffer holds -/

/-- The name in an appkey: the bytes up to the first NUL, if it could be read and
is not too long to be one. -/
def AppKey.name (key : AppKey) : List Byte :=
  if csAkGo key.opened = 0 ∧ csAkGo key.read = 0 ∧ key.reply 1 = 0 then
    ((List.range (key.reply 0).toNat).map fun index => key.reply (2 + index)).takeWhile (· ≠ 0)
  else []

theorem AppKey.name_length (key : AppKey) : key.name.length ≤ 255 := by
  unfold AppKey.name
  split
  · refine (List.takeWhile_prefix _).length_le.trans ?_
    rw [List.length_map, List.length_range]
    exact Nat.le_of_lt_succ (key.reply 0).isLt
  · exact Nat.zero_le 255

section Held

variable {σ : Type} {port : PathPort σ} {key name url : AppKey} {buffer other : Fin 4} {paths : σ}
  {reply : Nat → Byte} {left x : Nat} {baked : Baked} {standard : Standard}

theorem csAkG1_held (room : (port.held paths (port.selected paths)).length + left ≤ 256) :
    port.held (csAkG1 port reply left x paths) =
      Function.update (port.held paths) (port.selected paths)
        (port.held paths (port.selected paths) ++
          ((List.range left).map fun index => reply (2 + (x + index))).takeWhile (· ≠ 0)) := by
  induction left generalizing x paths with
  | zero =>
      rw [csAkG1, List.range_zero, List.map_nil, List.takeWhile_nil, List.append_nil]
      exact (Function.update_eq_self _ _).symm
  | succ left inductionHypothesis =>
      rw [csAkG1, List.range_succ_eq_map, List.map_cons, List.map_map]
      split
      · rename_i ends
        rw [List.takeWhile_cons_of_neg (by simpa using ends), List.append_nil]
        exact (Function.update_eq_self _ _).symm
      · rename_i goes
        have within : (port.held paths (port.selected paths)).length < 256 := by omega
        have held := port.held_append paths (reply (2 + x)) within
        have selected := port.selected_append paths (reply (2 + x))
        have room' : (port.held (port.append paths (reply (2 + x)))
            (port.selected (port.append paths (reply (2 + x))))).length + left ≤ 256 := by
          rw [held, selected, Function.update_self, List.length_append, List.length_singleton]
          omega
        have later : (fun index => reply (2 + (x + index))) ∘ Nat.succ =
            fun index => reply (2 + (x + 1 + index)) := by
          funext index
          exact congrArg (fun sum => reply (2 + sum)) (by omega)
        rw [inductionHypothesis room', held, selected, Function.update_self, later,
          Function.update_idem, List.takeWhile_cons_of_pos (by simpa using goes),
          List.append_assoc, List.singleton_append, Nat.add_zero x]

/-- `CSAKGET` leaves the name in its buffer, and the others as they were. -/
theorem csAkGet_held :
    port.held (csAkGet port key buffer paths).1 =
      Function.update (port.held paths) buffer key.name := by
  have selected : port.selected (port.act (port.act paths (fpSel buffer)) fpRst) = buffer := by
    rw [port.selected_rst, port.selected_sel]
  have emptied : port.held (port.act (port.act paths (fpSel buffer)) fpRst) =
      Function.update (port.held paths) buffer [] := by
    rw [port.held_rst, port.selected_sel, port.held_sel]
  have bound := (key.reply 0).isLt
  unfold csAkGet AppKey.name
  by_cases readable : csAkGo key.opened = 0 ∧ csAkGo key.read = 0 ∧ key.reply 1 = 0
  · obtain ⟨opened, read, short⟩ := readable
    simp only [opened, read, short, ne_eq, not_true_eq_false, if_false, and_self, if_true]
    by_cases empty : key.reply 0 = 0
    · simp only [empty, if_true]
      exact emptied
    · simp only [empty, if_false]
      have blank : port.held (port.act (port.act paths (fpSel buffer)) fpRst) buffer = [] := by
        rw [emptied, Function.update_self]
      have room : (port.held (port.act (port.act paths (fpSel buffer)) fpRst)
          (port.selected (port.act (port.act paths (fpSel buffer)) fpRst))).length +
            (key.reply 0).toNat ≤ 256 := by
        rw [selected, blank, List.length_nil]
        omega
      rw [csAkG1_held room, selected, blank, emptied, Function.update_idem, List.nil_append]
      simp only [Nat.zero_add, ne_eq]
  · rw [if_neg readable]
    simp only
    split
    · exact emptied
    · split
      · exact emptied
      · split
        · exact emptied
        · rename_i opened read short
          exact absurd ⟨not_not.mp opened, not_not.mp read, not_not.mp short⟩ readable

theorem csUrl_held : port.held (csUrl port paths) = port.held paths := by
  unfold csUrl
  simp only
  split
  · exact port.held_sel ..
  · rw [port.held_txRaw, port.held_sel]

/-! ### What HELLO comes to -/

theorem csPlen_small {length : Nat} (small : length ≤ 255) :
    csPlen (BitVec.ofNat 16 length) = BitVec.ofNat 8 length := by
  have high : (BitVec.ofNat 16 length).extractLsb' 8 8 = 0 := by
    apply BitVec.eq_of_toNat_eq
    simp [BitVec.extractLsb'_toNat]
    omega
  have low : (BitVec.ofNat 16 length).extractLsb' 0 8 = BitVec.ofNat 8 length := by
    apply BitVec.eq_of_toNat_eq
    simp [BitVec.extractLsb'_toNat]
  unfold csPlen
  rw [if_neg (not_not.mpr high), low]

/-- A name that is too long falls back to the baked one. -/
theorem csHn3_long {length : Byte} (long : nameMax < length) :
    csHn3 baked length = baked.csHnLen := by
  have enough : nameMin ≤ length := by
    unfold nameMin
    unfold nameMax at long
    bv_omega
  have exceeds : nameMax + 1 ≤ length := by
    unfold nameMax at long ⊢
    bv_omega
  unfold csHn3 Acc.cmp Acc.lda
  simp only [enough, exceeds, decide_true, if_true]

theorem csHn3_fair {length : Byte} (enough : nameMin ≤ length) (fits : length ≤ nameMax) :
    csHn3 baked length = length := by
  have under : ¬ nameMax + 1 ≤ length := by
    unfold nameMax at fits ⊢
    bv_omega
  have apart : length ≠ nameMax + 1 := by
    unfold nameMax at fits ⊢
    bv_omega
  unfold csHn3 Acc.cmp Acc.lda
  simp only [enough, under, apart, decide_true, decide_false, if_true, if_false,
    Bool.false_eq_true]

/-- A name that is too short leaves a length of zero: the comparison with the
upper bound has cleared the flag that the fallback goes by. -/
theorem csHn3_short {length : Byte} (short : length < nameMin) : csHn3 baked length = 0 := by
  have few : ¬ nameMin ≤ length := by
    unfold nameMin at short ⊢
    bv_omega
  have under : ¬ nameMax + 1 ≤ (0 : Byte) := by decide
  have apart : (0 : Byte) ≠ nameMax + 1 := by decide
  unfold csHn3 Acc.cmp Acc.lda
  simp only [few, under, apart, decide_false, if_false, Bool.false_eq_true]

end Held

end DragsterNet
