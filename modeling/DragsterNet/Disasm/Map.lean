/-
Module: DragsterNet.Disasm.Map
Purpose: The map of the cartridge that the disassembler is given: the regions, and
  the names of the code, of the tables and of the zero page.
Trusted boundary: none
Main exports: Region, Map, Map.isCode, symbols, dataLbl, bias, zp
-/
import DragsterNet.Console.Cells
import DragsterNet.Lib.Dict

namespace DragsterNet.Disasm

def romBase : Nat := 0xF000
def romEnd : Nat := 0xF800

inductive Kind where
  | code
  | data
deriving DecidableEq

/-- A row of `REGIONS`, from its first address to behind its last. -/
structure Region where
  lo : Nat
  hi : Nat
  kind : Kind

/-- `check_totals`: each region begins where the one before it ends. -/
def Tiles : Nat → List Region → Prop
  | want, [] => want = romEnd
  | want, region :: rest => region.lo = want ∧ region.lo ≤ region.hi ∧ Tiles region.hi rest

instance decidableTiles : (want : Nat) → (regions : List Region) → Decidable (Tiles want regions)
  | _, [] => inferInstanceAs (Decidable (_ = _))
  | _, region :: rest =>
      have := decidableTiles region.hi rest
      inferInstanceAs (Decidable (_ ∧ _ ∧ _))

structure Map where
  regions : List Region
  tiles : Tiles romBase regions

/-- `region_of(addr)[3] == "code"`. -/
def Map.isCode (map : Map) (addr : Nat) : Bool :=
  match map.regions.find? fun region => region.lo ≤ addr ∧ addr < region.hi with
  | some region => region.kind = .code
  | none => false

/-! ### Names -/

/-- `SYMBOLS`. -/
def symbols : List (Nat × String) :=
  [(0xF000, "Reset"), (0xF004, "ClearEntry"), (0xF006, "ClearLoop"),
   (0xF013, "ColdStage"), (0xF016, "FrameTop"), (0xF046, "WaitVBlank"),
   (0xF04B, "DisplayStart"), (0xF051, "LaneKernel"), (0xF0A7, "CarKernel"),
   (0xF12C, "TachBar"), (0xF209, "LaneNext"), (0xF217, "LogoBand"),
   (0xF221, "ArmOverscan"), (0xF226, "Audio"), (0xF242, "BeepTest"),
   (0xF285, "WaitOverscan"), (0xF28A, "SyncBlock"), (0xF29A, "FrameCount"),
   (0xF2A7, "ReadBW"), (0xF2C1, "ArmVBlank"), (0xF2C8, "ReadJoy"),
   (0xF2D7, "RestartDetect"), (0xF2E3, "ReadSwitches"), (0xF2E9, "Restage"),
   (0xF2EE, "ChkSelect"), (0xF2FD, "NewGame"), (0xF31E, "Logic"),
   (0xF322, "TickCountdown"), (0xF338, "RaceOver"), (0xF344, "TimeChain"),
   (0xF398, "FinishTest"), (0xF3B1, "ReadTrigger"), (0xF3E9, "RevLimit"),
   (0xF450, "FoulTest"), (0xF466, "LaneDrift"), (0xF4A4, "StepLfsr"),
   (0xF4B4, "BuildTach"), (0xF4E5, "PositionSprites"), (0xF4E9, "PositionBall"),
   (0xF52D, "CalcPtrsA"), (0xF53B, "DrawMessage"), (0xF6D3, "StageRace"),
   (0xF7D0, "CalcPtrsB")]

/-- `DATALBL`. -/
def dataLbl : List (Nat × String) :=
  [(0xF56A, "BallTbl"), (0xF56E, "CarL0"), (0xF5B3, "CarL1"),
   (0xF600, "CarL2"), (0xF62E, "CarL3"), (0xF65C, "CarL4"),
   (0xF68A, "CarL5"), (0xF6C0, "RoadDashA"), (0xF6C4, "RoadDashB"),
   (0xF6C8, "ScrollMask"), (0xF6CA, "ColourTbl"), (0xF6D0, "LaneTopPF"),
   (0xF6F6, "GearRate"), (0xF6FB, "GearAccel"), (0xF700, "Font"),
   (0xF76E, "MsgA"), (0xF775, "MsgB"), (0xF77C, "MsgC"),
   (0xF783, "MsgD"), (0xF7C4, "SprBase")]

/-- `BIAS`: the address of an instruction, and its operand as a label and an offset. -/
def bias : List (Nat × String × Int) := [(0xF7E9, "GearRate", -4)]

/-- `ZP`. -/
def zp : List (Nat × String) :=
  [(0x80, "GameVar"), (0x81, "FrameCnt"), (0x82, "Lfsr"),
   (0x84, "AttrEor"), (0x85, "AttrAnd"), (0x86, "ColDigit"),
   (0x88, "ColPF"), (0x89, "ColBK"), (0x8A, "ColP0"),
   (0x8B, "ColP1"), (0x8C, "ColRoad"), (0x8D, "Countdown"),
   (0x8E, "KernLine"), (0x8F, "CurPlayer"), (0x90, "SprPtr0"),
   (0x92, "SprPtr1"), (0x94, "SprPtr2"), (0x96, "SprPtr3"),
   (0x98, "SprPtr4"), (0x9A, "SprPtr5"), (0x9C, "TachPF0"),
   (0x9E, "TachPF1"), (0xA0, "TachPF2"), (0xA2, "TachPF3"),
   (0xA4, "TachPF4"), (0xA6, "TachPF5"), (0xA8, "Rpm"),
   (0xAA, "LaneIdx"), (0xAB, "LanePos"), (0xAD, "Joy0"),
   (0xAE, "Joy1"), (0xB0, "SelDelay"), (0xB1, "EngVol"),
   (0xB3, "TimeSec"), (0xB5, "TimeHun"), (0xB7, "TimeSub"),
   (0xB9, "Attract"), (0xBA, "TrackPos"), (0xBC, "KernCoarse"),
   (0xBE, "KernFine"), (0xC0, "Speed"), (0xC2, "SubPos"),
   (0xC4, "ScrollPh"), (0xC6, "WheelPh"), (0xC8, "BodyOff"),
   (0xCA, "Scrape"), (0xCC, "Gear"), (0xCE, "Blown"),
   (0xD0, "BoomTimer"), (0xD2, "RaceDone"), (0xD4, "MsgIdx"),
   (0xD6, "PrevGear"), (0xD8, "Tmp0"), (0xD9, "Tmp1")]

end DragsterNet.Disasm
