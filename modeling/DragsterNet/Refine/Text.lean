/-
Module: DragsterNet.Refine.Text
Purpose: The strings of the Python relay and the bytes of the C relay: HELLO's
  checks, the search for a free name and repr give the same.
Trusted boundary: none
Main exports: glyph, Untruncated, pyRepr_decode, SameHello, sameHello, freeName_encode
-/
import DragsterNet.CRelay.Program
import DragsterNet.Relay.Service

namespace DragsterNet.Refine

open Lib Relay
open Relay.Server (ShortName namePayload)

/-! ### Characters -/

/-- The character a byte decodes to. -/
def glyph (byte : Byte) : Nat := if byte.toNat < 0x80 then byte.toNat else replacement

theorem decode_eq (data : Bytes) : decode data = data.map glyph := rfl

theorem isPad_glyph : ∀ byte : Byte, Relay.isPad (glyph byte) = CRelay.State.isPad byte := by
  decide +kernel

theorem upper_glyph : ∀ byte : Byte,
    (if 0x61 ≤ glyph byte ∧ glyph byte ≤ 0x7A then glyph byte - 0x20 else glyph byte) =
      glyph (CRelay.State.upper byte) := by
  decide +kernel

theorem nameOk_glyph : ∀ byte : Byte,
    Relay.nameOk (glyph byte) = CRelay.State.nameOk byte := by
  decide +kernel

theorem utf8_glyph : ∀ byte : Byte, CRelay.State.nameOk byte = true →
    utf8Char (glyph byte) = [byte] := by
  decide +kernel

theorem quote_glyph : ∀ byte : Byte,
    (glyph byte = 0x27 ↔ byte = 0x27) ∧ (glyph byte = 0x22 ↔ byte = 0x22) := by
  decide +kernel

theorem repr_glyph : ∀ byte : Byte,
    reprChar 0x27 (glyph byte) = CRelay.reprByte 0x27 byte ∧
      reprChar 0x22 (glyph byte) = CRelay.reprByte 0x22 byte := by
  decide +kernel

/-! ### Names -/

theorem encode_ascii {name : Text} (ascii : ∀ char ∈ name, char < 0x80) :
    encode name = name.map fun char => BitVec.ofNat 8 char := by
  induction name with
  | nil => rfl
  | cons char rest inductionHypothesis =>
      have one : utf8Char char = [BitVec.ofNat 8 char] :=
        if_pos (ascii char List.mem_cons_self)
      rw [encode, List.flatMap_cons, one, List.map_cons]
      exact congrArg _ (inductionHypothesis fun other member =>
        ascii other (List.mem_cons_of_mem _ member))

/-- The bytes of an ASCII name say which name it is. -/
theorem encode_toNat {name : Text} (ascii : ∀ char ∈ name, char < 0x80) :
    (encode name).map BitVec.toNat = name := by
  rw [encode_ascii ascii, List.map_map]
  have same : ∀ char ∈ name, (BitVec.toNat ∘ fun char => BitVec.ofNat 8 char) char = id char := by
    intro char member
    have small := ascii char member
    simp only [Function.comp_apply, BitVec.toNat_ofNat, id_eq]
    omega
  rw [List.map_congr_left same, List.map_id]

theorem encode_inj {one two : Text} (short : ShortName one) (short' : ShortName two)
    (same : encode one = encode two) : one = two := by
  rw [← encode_toNat short.2, same, encode_toNat short'.2]

theorem encode_short {name : Text} (short : ShortName name) : (encode name).length ≤ 8 := by
  rw [encode_ascii short.2, List.length_map]
  exact short.1

theorem padName_encode {name : Text} (short : ShortName name) :
    CRelay.State.padName (encode name) = namePayload name := by
  unfold CRelay.State.padName namePayload
  rw [List.take_of_length_le (encode_short short)]

/-- A name that passes the check is its own encoding. -/
theorem encode_glyph {name : Bytes} (ok : name.all CRelay.State.nameOk = true) :
    encode (name.map glyph) = name := by
  rw [List.all_eq_true] at ok
  induction name with
  | nil => rfl
  | cons byte rest inductionHypothesis =>
      rw [List.map_cons, encode, List.flatMap_cons, utf8_glyph byte (ok byte List.mem_cons_self)]
      exact congrArg _ (inductionHypothesis fun other member =>
        ok other (List.mem_cons_of_mem _ member))

theorem strip_glyph {data : Bytes} :
    strip (data.map glyph) =
      ((data.dropWhile CRelay.State.isPad).rdropWhile CRelay.State.isPad).map glyph := by
  have pads : Relay.isPad ∘ glyph = CRelay.State.isPad := funext isPad_glyph
  unfold strip List.rdropWhile
  rw [List.dropWhile_map, pads, ← List.map_reverse, List.dropWhile_map, pads,
    ← List.map_reverse]

theorem upper_map {data : Bytes} :
    upper (data.map glyph) = (data.map CRelay.State.upper).map glyph := by
  unfold upper
  rw [List.map_map, List.map_map]
  exact List.map_congr_left fun byte _ => upper_glyph byte

theorem validName_glyph {name : Bytes} :
    validName (name.map glyph) = true ↔
      2 ≤ name.length ∧ name.length ≤ 8 ∧ name.all CRelay.State.nameOk = true := by
  have ok : Relay.nameOk ∘ glyph = CRelay.State.nameOk := funext nameOk_glyph
  unfold validName
  rw [List.length_map, List.all_map, ok, Bool.and_eq_true, Bool.and_eq_true,
    decide_eq_true_eq, decide_eq_true_eq, and_assoc]

/-! ### repr -/

/-- All of a name's bytes are written: fewer than 632 are there before the
last. -/
def Untruncated (name : Bytes) : Prop :=
  1 + (name.dropLast.flatMap (CRelay.reprByte (CRelay.reprQuote name))).length < 640 - 8

instance (name : Bytes) : Decidable (Untruncated name) :=
  inferInstanceAs (Decidable (_ < _))

theorem reprLoop_whole {quote : Byte} {written text : Bytes}
    (fits : written.length + (text.dropLast.flatMap (CRelay.reprByte quote)).length < 640 - 8) :
    CRelay.reprLoop quote written text = written ++ text.flatMap (CRelay.reprByte quote) := by
  induction text generalizing written with
  | nil => exact (List.append_nil written).symm
  | cons byte rest inductionHypothesis =>
      have room : written.length < 640 - 8 := Nat.lt_of_le_of_lt (Nat.le_add_right _ _) fits
      rw [CRelay.reprLoop, if_pos room, List.flatMap_cons, ← List.append_assoc]
      cases rest with
      | nil => exact (List.append_nil _).symm
      | cons next more =>
          apply inductionHypothesis
          rw [List.dropLast_cons_cons, List.flatMap_cons, List.length_append] at fits
          rw [List.length_append]
          omega

theorem reprQuote_glyph {name : Bytes} :
    Relay.reprQuote (name.map glyph) = (CRelay.reprQuote name).toNat := by
  have mem : ∀ char byte, (∀ other : Byte, glyph other = char ↔ other = byte) →
      (char ∈ name.map glyph ↔ byte ∈ name) := by
    intro char byte same
    rw [List.mem_map]
    constructor
    · rintro ⟨other, member, isChar⟩
      exact (same other).mp isChar ▸ member
    · intro member
      exact ⟨byte, member, (same byte).mpr rfl⟩
  unfold Relay.reprQuote CRelay.reprQuote
  simp only [mem 0x27 0x27 fun other => (quote_glyph other).1,
    mem 0x22 0x22 fun other => (quote_glyph other).2]
  split <;> rfl

/-- Python's repr of a decoded name, byte by byte. -/
theorem reprText_glyph {name : Bytes} : reprText (name.map glyph) =
    [CRelay.reprQuote name] ++ name.flatMap (CRelay.reprByte (CRelay.reprQuote name)) ++
      [CRelay.reprQuote name] := by
  have each : ∀ byte, reprChar (CRelay.reprQuote name).toNat (glyph byte) =
      CRelay.reprByte (CRelay.reprQuote name) byte := by
    intro byte
    unfold CRelay.reprQuote
    split
    · exact (repr_glyph byte).2
    · exact (repr_glyph byte).1
  unfold reprText
  rw [reprQuote_glyph, List.flatMap_map, BitVec.ofNat_toNat]
  simp only [each]
  rfl

/-- The hand-written repr gives what Python's does. -/
theorem pyRepr_glyph {name : Bytes} (whole : Untruncated name) :
    CRelay.pyRepr name = reprText (name.map glyph) := by
  have looped : CRelay.reprLoop (CRelay.reprQuote name) [CRelay.reprQuote name] name =
      [CRelay.reprQuote name] ++ name.flatMap (CRelay.reprByte (CRelay.reprQuote name)) :=
    reprLoop_whole whole
  unfold CRelay.pyRepr
  rw [looped, reprText_glyph]

/-! ### HELLO -/

/-- The C relay's line about a refusal is not cut short. -/
def readable : Refusal Bytes → Bool
  | .name name => decide (Untruncated name)
  | .version _ => true
  | .secam => true
  | .standard _ => true

/-- The same outcome of the checks of HELLO. -/
inductive SameHello :
    Except (Refusal Text) (Byte × Text) → Except (Refusal Bytes) (Byte × Bytes) → Prop where
  | admitted (tv : Byte) (name : Text) (short : ShortName name) :
      SameHello (.ok (tv, name)) (.ok (tv, encode name))
  | refused {refusal : Refusal Text} {refusal' : Refusal Bytes}
      (line : readable refusal' = true → ∀ ip,
        Server.refusalLine ip refusal = CRelay.State.refusalLine ip refusal') :
      SameHello (.error refusal) (.error refusal')

/-- A payload that fits a frame is judged alike. -/
theorem sameHello {payload : Bytes} (fits : payload.length ≤ 256) :
    SameHello (Server.readHello payload) (CRelay.State.readHello payload) := by
  have bounded : (((payload.drop 2).dropWhile CRelay.State.isPad).rdropWhile
      CRelay.State.isPad).length ≤ 256 := by
    calc (((payload.drop 2).dropWhile CRelay.State.isPad).rdropWhile CRelay.State.isPad).length
        ≤ ((payload.drop 2).dropWhile CRelay.State.isPad).length :=
          (List.rdropWhile_prefix CRelay.State.isPad _).length_le
      _ ≤ (payload.drop 2).length := (List.dropWhile_suffix CRelay.State.isPad).length_le
      _ ≤ payload.length := (List.drop_suffix 2 payload).length_le
      _ ≤ 256 := fits
  unfold Server.readHello CRelay.State.readHello
  simp only
  split
  · exact .refused fun _ _ => rfl
  · split
    · exact .refused fun _ _ => rfl
    · split
      · exact .refused fun _ _ => rfl
      · rw [decode_eq, strip_glyph, upper_map, List.take_of_length_le bounded]
        generalize (((payload.drop 2).dropWhile CRelay.State.isPad).rdropWhile
          CRelay.State.isPad).map CRelay.State.upper = name
        by_cases valid : 2 ≤ name.length ∧ name.length ≤ 8 ∧
            name.all CRelay.State.nameOk = true
        · rw [if_pos (validName_glyph.mpr valid), if_pos valid]
          have short : ShortName (name.map glyph) := by
            refine ⟨(List.length_map glyph).trans_le valid.2.1, ?_⟩
            intro char member
            obtain ⟨byte, member', rfl⟩ := List.mem_map.mp member
            apply Server.nameOk_ascii
            rw [nameOk_glyph]
            exact List.all_eq_true.mp valid.2.2 byte member'
          have admitted := SameHello.admitted (payload.getD 1 0) _ short
          rw [encode_glyph valid.2.2] at admitted
          exact admitted
        · rw [if_neg fun passed => valid (validName_glyph.mp passed), if_neg valid]
          refine .refused fun whole ip => ?_
          exact congrArg (Line.badName ip) (pyRepr_glyph (of_decide_eq_true whole)).symm

/-! ### The search for a free name -/

variable {oracle : Oracle}

/-- The bytes of what a search for a free name gives. -/
def encodeFound : Except Text (Text × Nat) → Except Bytes (Bytes × Nat)
  | .ok (name, drawn) => .ok (encode name, drawn)
  | .error name => .error (encode name)

/-- A digit in the place of the eighth character. -/
theorem encode_digit {name : Text} (short : ShortName name) (drawn : Nat) :
    encode (name.take 7 ++ [Server.digitText oracle drawn]) =
        (encode name).take 7 ++ [CRelay.State.nextDigit oracle drawn] ∧
      ShortName (name.take 7 ++ [Server.digitText oracle drawn]) := by
  have digit : Server.digitText oracle drawn < 0x80 := by
    have bound := (oracle.digit drawn).isLt
    unfold Server.digitText
    omega
  have ascii : ∀ char ∈ name.take 7 ++ [Server.digitText oracle drawn], char < 0x80 := by
    intro char member
    rcases List.mem_append.mp member with kept | new
    · exact short.2 char (List.mem_of_mem_take kept)
    · rw [List.mem_singleton.mp new]
      exact digit
  refine ⟨?_, ?_, ascii⟩
  · rw [encode_ascii ascii, encode_ascii short.2, List.map_append, List.map_take]
    rfl
  · rw [List.length_append, List.length_take, List.length_singleton]
    omega

/-- The search in bytes runs as the search in characters does. -/
theorem freeName_encode {taken : Text → Bool} {taken' : Bytes → Bool} {patience drawn : Nat}
    {name : Text} (short : ShortName name)
    (same : ∀ name, ShortName name → taken' (encode name) = taken name) :
    freeName taken' (CRelay.State.nextDigit oracle) patience drawn (encode name) =
      encodeFound (freeName taken (Server.digitText oracle) patience drawn name) := by
  induction patience generalizing drawn name with
  | zero =>
      unfold freeName
      rw [same name short]
      split <;> rfl
  | succ patience inductionHypothesis =>
      obtain ⟨digit, short'⟩ := @encode_digit oracle name short drawn
      unfold freeName
      rw [same name short]
      split
      · simp only
        rw [← digit]
        exact inductionHypothesis short'
      · rfl

end DragsterNet.Refine
