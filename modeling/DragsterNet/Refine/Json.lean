/-
Module: DragsterNet.Refine.Json
Purpose: The JSON of the room: what `render_json` puts together is what
  `json.dumps` does, but for DEL and for a text that the buffer does not hold.
Trusted boundary: none
Main exports: Config.renderJson, Listing.dumps, unescape, Printable,
  json_agrees_iff, json_differs
-/
import DragsterNet.Relay.Publisher
import DragsterNet.CRelay.Publisher

namespace DragsterNet

open Lib

/-! ### The two encoders -/

namespace Relay

/-- `json.dumps` of the payload's dict. -/
def Listing.dumps (listing : Listing) (status : Status) (maxplayers curplayers : Int) : Bytes :=
  ascii "\x7b\"game\": " ++ quoted listing.game ++
    ascii ", \"appkey\": " ++ integer listing.appkey ++
    ascii ", \"server\": " ++ quoted listing.server ++
    ascii ", \"region\": " ++ quoted listing.region ++
    ascii ", \"serverurl\": " ++ quoted listing.serverurl ++
    ascii ", \"status\": \"" ++ status.text ++
    ascii "\", \"maxplayers\": " ++ integer maxplayers ++
    ascii ", \"curplayers\": " ++ integer curplayers ++
    ascii ", \"clients\": [\x7b\"platform\": \"a2600\", \"url\": " ++
    quoted listing.clientUrl ++ ascii "\x7d]\x7d"

theorem Payload.dumps_eq (payload : Payload) : payload.dumps =
    payload.listing.dumps payload.status maxplayers payload.curplayers := rfl

end Relay

namespace CRelay

open Relay

/-- The format of `render_json`, for any counts. -/
def Config.format (config : Config) (offline : Bool) (maxplayers curplayers : Int)
    (game server region serverurl clientUrl : Bytes) : Bytes :=
  ascii "\x7b\"game\": \"" ++ game ++
    ascii "\", \"appkey\": " ++ integer config.appkey ++
    ascii ", \"server\": \"" ++ server ++
    ascii "\", \"region\": \"" ++ region ++
    ascii "\", \"serverurl\": \"" ++ serverurl ++
    ascii "\", \"status\": \"" ++ (if offline then ascii "offline" else ascii "online") ++
    ascii "\", \"maxplayers\": " ++ integer maxplayers ++
    ascii ", \"curplayers\": " ++ integer curplayers ++
    ascii ", \"clients\": [\x7b\"platform\": \"a2600\", \"url\": \"" ++ clientUrl ++
    ascii "\"\x7d]\x7d"

def Config.renderJson (config : Config) (offline : Bool) (maxplayers curplayers : Int) :
    Option Bytes := do
  let game ← jsonEsc (strMax * 6) [] config.game
  let server ← jsonEsc (strMax * 6) [] config.server
  let region ← jsonEsc (regionMax * 6) [] config.region
  let serverurl ← jsonEsc (strMax * 6) [] config.serverurl
  let clientUrl ← jsonEsc (strMax * 6) [] config.clientUrl
  let text := config.format offline maxplayers curplayers game server region serverurl clientUrl
  if jsonMax ≤ text.length then none else some text

/-- The publisher renders its room with its own counts. -/
theorem Snapshot.renderJson_config (snapshot : Snapshot) : snapshot.renderJson =
    snapshot.config.renderJson snapshot.offline maxplayers snapshot.curplayers := rfl

end CRelay

namespace Refine

open Relay CRelay

/-! ### Strings -/

/-- The value of a hexadecimal digit. -/
def hexDigit (byte : Byte) : Option Nat :=
  if 0x30 ≤ byte ∧ byte ≤ 0x39 then some (byte.toNat - 0x30)
  else if 0x61 ≤ byte ∧ byte ≤ 0x66 then some (byte.toNat - 0x57)
  else if 0x41 ≤ byte ∧ byte ≤ 0x46 then some (byte.toNat - 0x37)
  else none

def hexUnit (a b c d : Byte) : Option Nat := do
  let a ← hexDigit a
  let b ← hexDigit b
  let c ← hexDigit c
  let d ← hexDigit d
  return ((a * 16 + b) * 16 + c) * 16 + d

/-- What a backslash and one letter stand for. -/
def shortEscape (byte : Byte) : Option Nat :=
  if byte = 0x22 ∨ byte = 0x5C ∨ byte = 0x2F then some byte.toNat
  else if byte = 0x62 then some 0x08
  else if byte = 0x66 then some 0x0C
  else if byte = 0x6E then some 0x0A
  else if byte = 0x72 then some 0x0D
  else if byte = 0x74 then some 0x09
  else none

/-- The string that stands between two quotes, of ASCII and one unit for each
`\uXXXX`. -/
def unescape : Bytes → Option Text
  | [] => some []
  | byte :: rest =>
      if byte = 0x5C then
        match rest with
        | [] => none
        | kind :: rest =>
            if kind = 0x75 then
              match rest with
              | a :: b :: c :: d :: rest => do
                  let unit ← hexUnit a b c d
                  let more ← unescape rest
                  return unit :: more
              | _ => none
            else do
              let char ← shortEscape kind
              let more ← unescape rest
              return char :: more
      else if byte < 0x20 ∨ byte = 0x22 then none
      else do
        let more ← unescape rest
        return byte.toNat :: more

variable {byte : Byte} {text rest : Bytes}

theorem unescape_short {kind : Byte} {char : Nat} (notUnit : kind ≠ 0x75)
    (stands : shortEscape kind = some char) : unescape (0x5C :: kind :: rest) = do
      let more ← unescape rest
      return char :: more := by
  conv_lhs => unfold unescape
  rw [if_pos rfl]
  simp only [if_neg notUnit, stands]
  rfl

theorem unescape_unit {a b c d : Byte} {unit : Nat} (stands : hexUnit a b c d = some unit) :
    unescape (0x5C :: 0x75 :: a :: b :: c :: d :: rest) = do
      let more ← unescape rest
      return unit :: more := by
  conv_lhs => unfold unescape
  rw [if_pos rfl]
  simp only [if_true, stands]
  rfl

theorem unescape_plain (notSlash : byte ≠ 0x5C) (plain : ¬ (byte < 0x20 ∨ byte = 0x22)) :
    unescape (byte :: rest) = do
      let more ← unescape rest
      return byte.toNat :: more := by
  conv_lhs => unfold unescape
  rw [if_neg notSlash, if_neg plain]

/-- Each ASCII byte is written as a backslash and a letter, as four hexadecimal
digits, or as it is. -/
theorem escapeByte_shapes : ∀ byte : Byte, byte ≤ 0x7F →
    (∃ kind, escapeByte byte = [0x5C, kind] ∧ kind ≠ 0x75 ∧ shortEscape kind = some byte.toNat) ∨
    (∃ c d, escapeByte byte = [0x5C, 0x75, 0x30, 0x30, c, d] ∧
      hexUnit 0x30 0x30 c d = some byte.toNat) ∨
    (escapeByte byte = [byte] ∧ byte ≠ 0x5C ∧ ¬ (byte < 0x20 ∨ byte = 0x22)) := by
  intro byte ascii
  by_cases short : byte ∈ ([0x22, 0x5C, 0x08, 0x0C, 0x0A, 0x0D, 0x09] : Bytes)
  · have shapes : ∀ byte ∈ ([0x22, 0x5C, 0x08, 0x0C, 0x0A, 0x0D, 0x09] : Bytes),
        escapeByte byte = [0x5C, (escapeByte byte).getD 1 0] ∧
          (escapeByte byte).getD 1 0 ≠ 0x75 ∧
            shortEscape ((escapeByte byte).getD 1 0) = some byte.toNat := by
      decide +kernel
    exact .inl ⟨_, shapes byte short⟩
  · by_cases control : byte < 0x20
    · have shapes : ∀ byte : Byte, byte < 0x20 →
          byte ∉ ([0x22, 0x5C, 0x08, 0x0C, 0x0A, 0x0D, 0x09] : Bytes) →
            escapeByte byte = [0x5C, 0x75, 0x30, 0x30, (escapeByte byte).getD 4 0,
              (escapeByte byte).getD 5 0] ∧
            hexUnit 0x30 0x30 ((escapeByte byte).getD 4 0) ((escapeByte byte).getD 5 0) =
              some byte.toNat := by
        decide +kernel
      exact .inr (.inl ⟨_, _, shapes byte control short⟩)
    · have shapes : ∀ byte : Byte, byte ≤ 0x7F → ¬ byte < 0x20 →
          byte ∉ ([0x22, 0x5C, 0x08, 0x0C, 0x0A, 0x0D, 0x09] : Bytes) →
            escapeByte byte = [byte] ∧ byte ≠ 0x5C ∧ ¬ (byte < 0x20 ∨ byte = 0x22) := by
        decide +kernel
      exact .inr (.inr (shapes byte ascii control short))

theorem unescape_escapeByte (ascii : byte ≤ 0x7F) : unescape (escapeByte byte ++ rest) = do
    let more ← unescape rest
    return byte.toNat :: more := by
  rcases escapeByte_shapes byte ascii with ⟨kind, isShort, notUnit, stands⟩ |
    ⟨c, d, isUnit, stands⟩ | ⟨isPlain, notSlash, plain⟩
  · rw [isShort]
    exact unescape_short notUnit stands
  · rw [isUnit]
    exact unescape_unit stands
  · rw [isPlain]
    exact unescape_plain notSlash plain

theorem unescape_flatMap (ascii : ∀ byte ∈ text, byte ≤ 0x7F) :
    unescape (text.flatMap escapeByte) = some (text.map BitVec.toNat) := by
  induction text with
  | nil => rfl
  | cons byte rest inductionHypothesis =>
      rw [List.flatMap_cons, unescape_escapeByte (ascii byte List.mem_cons_self),
        inductionHypothesis fun other member => ascii other (List.mem_cons_of_mem _ member)]
      rfl

/-- Each DEL is written as it is, where Python takes six bytes. -/
theorem escape_length (ascii : ∀ byte ∈ text, byte ≤ 0x7F) :
    ((text.map BitVec.toNat).flatMap escapeChar).length =
      (text.flatMap escapeByte).length + 5 * text.count 0x7F := by
  have each : ∀ byte : Byte, byte ≤ 0x7F → (escapeChar byte.toNat).length =
      (escapeByte byte).length + 5 * (if byte = 0x7F then 1 else 0) := by
    decide +kernel
  induction text with
  | nil => rfl
  | cons byte rest inductionHypothesis =>
      have one := each byte (ascii byte List.mem_cons_self)
      have more := inductionHypothesis fun other member =>
        ascii other (List.mem_cons_of_mem _ member)
      rw [List.map_cons, List.flatMap_cons, List.flatMap_cons, List.length_append,
        List.length_append, List.count_cons, more, one]
      simp only [beq_iff_eq]
      omega

theorem escape_eq (ascii : ∀ byte ∈ text, byte ≤ 0x7F) (printable : 0x7F ∉ text) :
    text.flatMap escapeByte = (text.map BitVec.toNat).flatMap escapeChar := by
  have each : ∀ byte : Byte, byte ≤ 0x7F → byte ≠ 0x7F →
      escapeByte byte = escapeChar byte.toNat := by
    decide +kernel
  rw [List.flatMap_map]
  apply List.flatMap_congr
  intro byte member
  apply each byte (ascii byte member)
  rintro rfl
  exact printable member

theorem escape_eq_iff (ascii : ∀ byte ∈ text, byte ≤ 0x7F) :
    text.flatMap escapeByte = (text.map BitVec.toNat).flatMap escapeChar ↔ 0x7F ∉ text := by
  constructor
  · intro same
    have lengths := escape_length ascii
    rw [same] at lengths
    apply List.count_eq_zero.mp
    omega
  · exact escape_eq ascii

/-- With a buffer for six bytes each, every string is escaped. -/
theorem jsonEsc_whole {size : Nat} (fits : 6 * text.length < size) :
    jsonEsc size [] text = some (text.flatMap escapeByte) := by
  have six := flatMap_escapeByte_length text
  apply jsonEsc_eq
  rw [List.length_nil]
  omega

/-! ### The room -/

/-- The options as the Python relay holds them. -/
def listing (config : Config) : Listing where
  game := config.game.map BitVec.toNat
  appkey := config.appkey
  server := config.server.map BitVec.toNat
  region := config.region.map BitVec.toNat
  serverurl := config.serverurl.map BitVec.toNat
  clientUrl := config.clientUrl.map BitVec.toNat

def status (offline : Bool) : Status := if offline then .offline else .online

/-- The strings of the room. -/
def strings (config : Config) : List Bytes :=
  [config.game, config.server, config.region, config.serverurl, config.clientUrl]

variable {config : Config} {offline : Bool} {maxplayers curplayers : Int}

/-- The text that `render_json` puts together, whatever its length. -/
def roomText (config : Config) (offline : Bool) (maxplayers curplayers : Int) : Bytes :=
  config.format offline maxplayers curplayers (config.game.flatMap escapeByte)
    (config.server.flatMap escapeByte) (config.region.flatMap escapeByte)
    (config.serverurl.flatMap escapeByte) (config.clientUrl.flatMap escapeByte)

theorem copies_ascii {size : Nat} (accepted : copies size text = true) :
    ∀ byte ∈ text, byte ≤ 0x7F := by
  intro byte member
  have one := List.all_eq_true.mp (Bool.and_eq_true_iff.mp accepted).2 byte member
  exact of_decide_eq_true (Bool.and_eq_true_iff.mp one).2

theorem strings_ascii (isString : text ∈ strings config) : ∀ byte ∈ text, byte ≤ 0x7F := by
  have accepted := config.accepted
  simp only [Bool.and_eq_true] at accepted
  obtain ⟨⟨⟨⟨game, server⟩, region⟩, serverurl⟩, clientUrl⟩ := accepted
  simp only [strings, List.mem_cons, List.not_mem_nil, or_false] at isString
  rcases isString with rfl | rfl | rfl | rfl | rfl
  · exact copies_ascii game
  · exact copies_ascii server
  · exact copies_ascii region
  · exact copies_ascii serverurl
  · exact copies_ascii clientUrl

theorem renderJson_eq : config.renderJson offline maxplayers curplayers =
    if jsonMax ≤ (roomText config offline maxplayers curplayers).length then none
    else some (roomText config offline maxplayers curplayers) := by
  obtain ⟨game, server, region, serverurl, clientUrl⟩ := config.escapes
  unfold Config.renderJson roomText
  simp only [game, server, region, serverurl, clientUrl, Option.bind_eq_bind, Option.bind_some]

/-- The two formats put the same text around the strings. -/
theorem dumps_format : (listing config).dumps (status offline) maxplayers curplayers =
    config.format offline maxplayers curplayers ((listing config).game.flatMap escapeChar)
      ((listing config).server.flatMap escapeChar) ((listing config).region.flatMap escapeChar)
      ((listing config).serverurl.flatMap escapeChar)
      ((listing config).clientUrl.flatMap escapeChar) := by
  have game : ascii "\x7b\"game\": \"" = ascii "\x7b\"game\": " ++ ascii "\"" := by decide
  have appkey : ascii "\", \"appkey\": " = ascii "\"" ++ ascii ", \"appkey\": " := by decide
  have server : ascii ", \"server\": \"" = ascii ", \"server\": " ++ ascii "\"" := by decide
  have region : ascii "\", \"region\": \"" =
      ascii "\"" ++ ascii ", \"region\": " ++ ascii "\"" := by decide
  have serverurl : ascii "\", \"serverurl\": \"" =
      ascii "\"" ++ ascii ", \"serverurl\": " ++ ascii "\"" := by decide
  have state : ascii "\", \"status\": \"" = ascii "\"" ++ ascii ", \"status\": \"" := by decide
  have url : ascii ", \"clients\": [\x7b\"platform\": \"a2600\", \"url\": \"" =
      ascii ", \"clients\": [\x7b\"platform\": \"a2600\", \"url\": " ++ ascii "\"" := by decide
  have close : ascii "\"\x7d]\x7d" = ascii "\"" ++ ascii "\x7d]\x7d" := by decide
  have stated : (status offline).text =
      if offline = true then ascii "offline" else ascii "online" := by
    cases offline <;> rfl
  unfold Listing.dumps Config.format quoted
  rw [game, appkey, server, region, serverurl, state, url, close, stated]
  simp only [List.append_assoc, listing]

theorem dumps_length : ((listing config).dumps (status offline) maxplayers curplayers).length =
    (roomText config offline maxplayers curplayers).length +
      5 * (config.game.count 0x7F + config.server.count 0x7F + config.region.count 0x7F +
        config.serverurl.count 0x7F + config.clientUrl.count 0x7F) := by
  have each : ∀ text ∈ strings config, ((text.map BitVec.toNat).flatMap escapeChar).length =
      (text.flatMap escapeByte).length + 5 * text.count 0x7F := fun text isString =>
    escape_length (strings_ascii isString)
  simp only [strings, List.mem_cons, List.not_mem_nil, or_false, forall_eq_or_imp,
    forall_eq] at each
  obtain ⟨game, server, region, serverurl, clientUrl⟩ := each
  rw [dumps_format]
  unfold roomText Config.format
  simp only [List.length_append, listing, game, server, region, serverurl, clientUrl]
  omega

theorem dumps_eq (printable : ∀ text ∈ strings config, 0x7F ∉ text) :
    (listing config).dumps (status offline) maxplayers curplayers =
      roomText config offline maxplayers curplayers := by
  have each : ∀ text ∈ strings config,
      text.flatMap escapeByte = (text.map BitVec.toNat).flatMap escapeChar :=
    fun text isString => escape_eq (strings_ascii isString) (printable text isString)
  simp only [strings, List.mem_cons, List.not_mem_nil, or_false, forall_eq_or_imp,
    forall_eq] at each
  obtain ⟨game, server, region, serverurl, clientUrl⟩ := each
  rw [dumps_format, roomText, game, server, region, serverurl, clientUrl]
  rfl

/-- The room is rendered as `json.dumps` renders its payload exactly if no string
has a DEL in it and Python's text is shorter than the buffer.  Every ASCII string
is escaped so that it is read back as it was, and as Python escapes it but for
DEL. -/
theorem json_agrees_iff (config : Config) (offline : Bool) (maxplayers curplayers : Int) :
    (config.renderJson offline maxplayers curplayers =
        some ((listing config).dumps (status offline) maxplayers curplayers) ↔
      (∀ text ∈ strings config, 0x7F ∉ text) ∧
        ((listing config).dumps (status offline) maxplayers curplayers).length < jsonMax) ∧
    ∀ text : Bytes, (∀ byte ∈ text, byte ≤ 0x7F) → ∀ size, 6 * text.length < size →
      ∃ escaped, jsonEsc size [] text = some escaped ∧
        unescape escaped = some (text.map BitVec.toNat) ∧
          (escaped = (text.map BitVec.toNat).flatMap escapeChar ↔ 0x7F ∉ text) := by
  constructor
  · rw [renderJson_eq]
    constructor
    · intro rendered
      split at rendered
      · cases rendered
      · rename_i short
        have same := Option.some.inj rendered
        have lengths := @dumps_length config offline maxplayers curplayers
        rw [← same] at lengths ⊢
        refine ⟨?_, Nat.not_le.mp short⟩
        intro text isString
        apply List.count_eq_zero.mp
        simp only [strings, List.mem_cons, List.not_mem_nil, or_false] at isString
        rcases isString with rfl | rfl | rfl | rfl | rfl
        all_goals omega
    · rintro ⟨printable, short⟩
      rw [dumps_eq printable] at short ⊢
      exact if_neg (Nat.not_le.mpr short)
  · intro text ascii size fits
    exact ⟨text.flatMap escapeByte, jsonEsc_whole fits, unescape_flatMap ascii,
      escape_eq_iff ascii⟩

/-- The game's name is a DEL. -/
def delConfig : Config where
  game := [0x7F]
  appkey := 1
  server := []
  region := []
  serverurl := []
  clientUrl := []
  accepted := by decide

/-- Three strings are as long as they may be, and all control bytes. -/
def longConfig : Config where
  game := List.replicate 255 0x01
  appkey := 1
  server := List.replicate 255 0x01
  region := []
  serverurl := List.replicate 255 0x01
  clientUrl := []
  accepted := by decide +kernel

/-- The one room is rendered otherwise than in Python, the other not at all. -/
theorem json_differs :
    (∃ text, delConfig.renderJson false 2 0 = some text ∧
      text ≠ (listing delConfig).dumps (status false) 2 0) ∧
    longConfig.renderJson false 2 0 = none := by
  constructor
  · have differs : delConfig.renderJson false 2 0 = some (roomText delConfig false 2 0) ∧
        roomText delConfig false 2 0 ≠ (listing delConfig).dumps (status false) 2 0 := by
      decide +kernel
    exact ⟨_, differs⟩
  · decide +kernel

end Refine

end DragsterNet
