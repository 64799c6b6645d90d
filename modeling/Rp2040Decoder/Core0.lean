/-
The C firmware's packet evaluation (`Software/core0.c`, `Software/shared.c`).

`Core0` holds the statics a packet can change and the hardware it drives;
`evaluatePacket` and the functions it calls are procedures on it.  A packet is
an array whose bytes lie in the order opposite to their transmission, so the
address is at index `length - 1` and the error detection byte at index 0.  The
functions compute the index of every byte they read; `byteAt` keeps a log of
these indices, and a read outside the array yields whatever memory holds there.

Waiting times, the log and the error LED are left out.  A power loss ends the
run as a panic.
-/
import Rp2040Decoder.Flash
import Rp2040Decoder.Packet
import Rp2040Decoder.Recipient

namespace Rp2040

/-- `dcc_packet_t`: the first `length` bytes of its array, and what memory
around them reads as. -/
structure Message where
  data : List UInt8
  outside : ℤ → UInt8

namespace Message

def length (self : Message) : ℕ := self.data.length

/-- `byte_array[i]` -/
def get (self : Message) (i : ℤ) : UInt8 :=
  if 0 ≤ i then self.data[i.toNat]?.getD (self.outside i) else self.outside i

end Message

/-- What the board and the startup code fix. -/
structure Board where
  gpioAllowedOutputs : UInt32
  decoderId : UInt8
  /-- `level_table`, as `init_outputs` leaves it -/
  levelTable : ℕ → UInt16

/-- The statics of `core0.c` and `shared.c`, the flash, the levels of the
function outputs, the acknowledgement pulses given and the indices read. -/
structure Core0 where
  flash : RpFlash
  speedStepTarget : UInt8
  speedStepTargetPrev : UInt8
  activeFunctions : UInt32
  prevActiveFunc : UInt32
  resetMessageFlag : Bool
  gpio : UInt32
  pwmLevel : ℕ → UInt16
  acknowledged : ℕ
  reads : List ℤ

/-- A function of the firmware; it returns no error codes. -/
abbrev Firmware := Proc Core0 Empty

namespace Core0

/-- At startup. -/
def boot (flash : RpFlash) : Core0 :=
  ⟨flash, 0, 0, 0, 0, false, 0, fun _ => 0, 0, []⟩

/-! ### Reading packets and CVs -/

/-- The indices `l` are read. -/
def log (l : List ℤ) (self : Core0) : Core0 := { self with reads := self.reads ++ l }

/-- `byte_array[i]` -/
def byteAt (packet : Message) (i : ℤ) : Firmware UInt8 := do
  Proc.modify (log [i])
  return packet.get i

/-- `CV_ARRAY_FLASH[i]` -/
def cvArrayFlash (self : Core0) (i : ℕ) : UInt8 :=
  if h : i < CV_SIZE then self.flash.stored ⟨i, h⟩ else 0xFF

/-- `get_32bit_CV` -/
def get32bitCV (self : Core0) (cvStartIndex : ℕ) : UInt32 :=
  let byte₃ := self.cvArrayFlash cvStartIndex
  let byte₂ := self.cvArrayFlash (cvStartIndex + 1)
  let byte₁ := self.cvArrayFlash (cvStartIndex + 2)
  let byte₀ := self.cvArrayFlash (cvStartIndex + 3)
  byte₀.toUInt32 + byte₁.toUInt32 <<< 8 + byte₂.toUInt32 <<< 16 + byte₃.toUInt32 <<< 24

/-- `get_direction_of_speed_step`: 1 is forward. -/
def getDirectionOfSpeedStep (speedStep : UInt8) : UInt8 := speedStep >>> 7

/-! ### Function outputs -/

/-- Whether bit `i` of a word is set, as the loops over the functions test it. -/
def maskBit (w : UInt32) (i : ℕ) : Bool := 1 <<< UInt32.ofNat i &&& w ≠ 0

/-- `set_outputs` -/
def setOutputs (board : Board) (functionsToSetBitmask : UInt32) (self : Core0) : Core0 :=
  let pwmEnabledOutputs := self.get32bitCV 111
  let dir := getDirectionOfSpeedStep self.speedStepTarget
  let outputsToSet := (List.range 32).foldl (fun outputs i =>
    if maskBit functionsToSetBitmask i then
      outputs ||| self.get32bitCV (i * 8 + 260 - 4 * dir.toNat)
    else outputs) 0
  let outputsToSetPWM := pwmEnabledOutputs &&& outputsToSet
  let outputsToSet := outputsToSet &&& ~~~outputsToSetPWM
  { self with
    gpio := (self.gpio &&& ~~~board.gpioAllowedOutputs) |||
      (outputsToSet &&& board.gpioAllowedOutputs)
    pwmLevel := fun i =>
      if maskBit outputsToSetPWM i then board.levelTable i
      else if maskBit pwmEnabledOutputs i then 0 else self.pwmLevel i }

/-- The literals of `Fin 6` are the group indices. -/
instance neZero_six : @NeZero ℕ Zero.ofOfNat0 6 := ⟨Nat.succ_ne_zero 5⟩

/-- `clr_bit_arr` -/
def clrBitArr : Fin 6 → UInt32
  | 0 => 0b11111111111111111111111111100000
  | 1 => 0b11111111111111111111111000011111
  | 2 => 0b11111111111111111110000111111111
  | 3 => 0b11111111111000000001111111111111
  | 4 => 0b11100000000111111111111111111111
  | 5 => 0b00011111111111111111111111111111

/-- `update_active_functions` -/
def updateActiveFunctions (board : Board) (newFunctionBitmask : UInt32) (clrBitInd : Fin 6)
    (directionChange : Bool) (self : Core0) : Core0 :=
  if directionChange then self.setOutputs board self.activeFunctions
  else
    let newFunctionBitmask := newFunctionBitmask &&& ~~~clrBitArr clrBitInd
    let activeFunctions := (self.activeFunctions &&& clrBitArr clrBitInd) ||| newFunctionBitmask
    let changes := activeFunctions ^^^ self.prevActiveFunc
    let self := { self with activeFunctions }
    let self := if changes ≠ 0 then self.setOutputs board activeFunctions else self
    { self with prevActiveFunc := activeFunctions }

/-! ### Checks -/

/-- `error_detection` -/
def errorDetection (packet : Message) : Bool := packet.data.foldl (· ^^^ ·) 0 == 0

/-- `is_long_address` -/
def isLongAddress (packet : Message) : Firmware Bool := do
  return (← byteAt packet (packet.length - 1)) >>> 6 == 0b00000011

/-- `address_evaluation` -/
def addressEvaluation (packet : Message) : Firmware Bool := do
  -- check for idle message
  if (← byteAt packet (packet.length - 1)) = 255 then return false
  else
    let self ← Proc.gets id
    if self.cvArrayFlash 28 &&& 0b00100000 ≠ 0 then
      if ← isLongAddress packet then
        let addressByte₁ := (← byteAt packet (packet.length - 1)).toUInt16 - 192
        let addressByte₀ := (← byteAt packet (packet.length - 2)).toUInt16
        let longAddress := get16bitCV self.cvArrayFlash 16 &&& 0x3FFF
        return longAddress == addressByte₁ <<< 8 + addressByte₀
      else return false
    else return self.cvArrayFlash 0 == (← byteAt packet (packet.length - 1))

/-! ### Operations -/

/-- The function group arm of `instruction_evaluation`. -/
def functionGroupInstruction (board : Board) (commandByteN : UInt8) (self : Core0) : Core0 :=
  match commandByteN >>> 4 with
  | 0b00001011 => self.updateActiveFunctions board (commandByteN.toUInt32 <<< 5) 1 false
  | 0b00001010 => self.updateActiveFunctions board (commandByteN.toUInt32 <<< 9) 2 false
  | _ => self.updateActiveFunctions board
      ((commandByteN &&& 0b00001111).toUInt32 <<< 1 +
        (commandByteN &&& 0b00010000).toUInt32 >>> 4) 0 false

/-- `instruction_evaluation` -/
def instructionEvaluation (board : Board) (packet : Message) : Firmware Unit := do
  let commandByteStartIndex : ℤ :=
    if ← isLongAddress packet then packet.length - 3 else packet.length - 2
  let commandByteN ← byteAt packet commandByteStartIndex
  if commandByteN = 0b00111111 then
    -- 128 speed step control
    let target ← byteAt packet (commandByteStartIndex - 1)
    Proc.modify fun self =>
      let self := { self with
        speedStepTargetPrev := self.speedStepTarget, speedStepTarget := target }
      if getDirectionOfSpeedStep self.speedStepTarget ≠
          getDirectionOfSpeedStep self.speedStepTargetPrev then
        self.updateActiveFunctions board 0 0 true
      else self
  else if commandByteN >>> 6 = 0b00000010 then
    Proc.modify (functionGroupInstruction board commandByteN)
  else if commandByteN >>> 5 = 0b00000110 then
    -- feature expansion instruction
    match commandByteN with
    | 0b11011110 =>
      let byte ← byteAt packet (commandByteStartIndex - 1)
      Proc.modify (updateActiveFunctions board (byte.toUInt32 <<< 13) 3 false)
    | 0b11011111 =>
      let byte ← byteAt packet (commandByteStartIndex - 1)
      Proc.modify (updateActiveFunctions board (byte.toUInt32 <<< 21) 4 false)
    | 0b11011000 =>
      let byte ← byteAt packet (commandByteStartIndex - 1)
      Proc.modify (updateActiveFunctions board (byte.toUInt32 <<< 29) 5 false)
    | _ => return

def SPEED_STEP_REVERSE_EMERGENCY_STOP : UInt8 := 0x01

def SPEED_STEP_FORWARD_EMERGENCY_STOP : UInt8 := 0x81

/-- `reset_message_check` -/
def resetMessageCheck (board : Board) (packet : Message) : Firmware Bool := do
  if (← byteAt packet (packet.length - 1)) = 0 then
    if (← byteAt packet (packet.length - 2)) = 0 then
      Proc.modify fun self =>
        { self with
          speedStepTargetPrev := self.speedStepTarget
          speedStepTarget :=
            if getDirectionOfSpeedStep self.speedStepTarget = 1 then
              SPEED_STEP_FORWARD_EMERGENCY_STOP
            else SPEED_STEP_REVERSE_EMERGENCY_STOP }
      Proc.modify (updateActiveFunctions board 0 0 false)
      return true
    else return false
  else return false

/-! ### Programming -/

/-- `flash_safe_execute`: whether it returned `PICO_OK`. -/
def flashSafeExecute (func : Proc RpFlash Unit Unit) : Firmware Bool :=
  ExceptT.mk fun self =>
    match func.run self.flash with
    | (.ok (), flash) => (.ok true, { self with flash })
    | (.error (.error ()), flash) => (.ok false, { self with flash })
    | (.error .panic, flash) => (.error .panic, { self with flash })

/-- Erases the sector and programs the CVs. -/
def eraseAndProgram (cvArray : CvArray) : Firmware Bool := do
  if ← flashSafeExecute RpFlash.blockingErase then
    flashSafeExecute (RpFlash.blockingWrite cvArray)
  else return false

/-- `acknowledge` -/
def acknowledge : Firmware Unit :=
  Proc.modify fun self => { self with acknowledged := self.acknowledged + 1 }

/-- The CVs in flash with the one at this index changed. -/
def withCv (self : Core0) (cvAddress : ℕ) (cvData : UInt8) : CvArray := fun i =>
  if i.val = cvAddress then cvData else self.flash.stored i

/-- `write_cv_byte` -/
def writeCvByte (cvAddress : ℕ) (cvData : UInt8) : Firmware Unit := do
  let cvArrayTemp ← Proc.gets fun self => self.withCv cvAddress cvData
  if ← eraseAndProgram cvArrayTemp then acknowledge

/-- `adc_offset_adjustment`, given the low byte of the average it measures. -/
def adcOffsetAdjustment (overallAvgOffset : UInt8) : Firmware Unit := do
  let cvArrayTemp ← Proc.gets fun self => self.withCv 171 overallAvgOffset
  let _ ← eraseAndProgram cvArrayTemp

/-- `CV_ARRAY_DEFAULT` by CV number. -/
def cvDefault (decoderId : UInt8) : ℕ → UInt8
  | 1 => 3
  | 2 => 8
  | 5 => 100
  | 6 => 63
  | 7 => 2
  | 8 => 13
  | 9 => 150
  | 10 => 1
  | 11 => 255
  | 12 => 4
  | 17 => 195
  | 18 => 232
  | 31 => 16
  | 47 => 230
  | 48 => 10
  | 49 => 5
  | 50 => 25
  | 51 => 50
  | 52 => 100
  | 53 => 100
  | 54 => 7
  | 55 => 208
  | 57 => 250
  | 59 => 150
  | 60 => 13
  | 61 => 100
  | 62 => 100
  | 63 => 15
  | 64 => 15
  | 107 => 1
  | 108 => 11
  | 109 => decoderId
  | 172 => 255
  | 173 => 127
  | 174 => 1
  | 175 => 7
  | _ => 0

def CV_ARRAY_DEFAULT (board : Board) : CvArray := fun i => cvDefault board.decoderId (i.val + 1)

/-- `reset_cv_array_to_default` -/
def resetCvArrayToDefault (board : Board) : Firmware Unit := do
  let _ ← eraseAndProgram (CV_ARRAY_DEFAULT board)

/-- `write_cv_handler`; `overallAvgOffset` is what an ADC calibration measures. -/
def writeCvHandler (board : Board) (overallAvgOffset : UInt8) (cvIndex : ℕ) (cvData : UInt8) :
    Firmware Unit := do
  let self ← Proc.gets id
  match cvIndex with
  | 0 => if cvData = 0 ∨ 127 < cvData then return else writeCvByte cvIndex cvData
  | 6 => if cvData = 7 then adcOffsetAdjustment overallAvgOffset
  | 7 => if cvData = 8 then resetCvArrayToDefault board
  | 16 =>
    if (cvData < 192 ∨ 231 < cvData) ∨ (self.cvArrayFlash 17 = 0 ∧ cvData = 192) then return
    else writeCvByte cvIndex cvData
  | 17 => if self.cvArrayFlash 16 = 192 ∧ cvData = 0 then return else writeCvByte cvIndex cvData
  | 30 => return
  | 31 => return
  | _ => writeCvByte cvIndex cvData

/-- `verify_cv_bit` -/
def verifyCvBit (cvAddress : ℕ) (bitVal bitPos : UInt8) : Firmware Unit := do
  let self ← Proc.gets id
  if (self.cvArrayFlash cvAddress >>> bitPos) &&& 0b00000001 = bitVal then acknowledge

/-- `verify_cv_byte` -/
def verifyCvByte (cvAddress : ℕ) (cvData : UInt8) : Firmware Unit := do
  let self ← Proc.gets id
  if self.cvArrayFlash cvAddress = cvData then acknowledge

/-- `program_mode` -/
def programMode (board : Board) (overallAvgOffset : UInt8) (packet : Message) : Firmware Unit := do
  -- first check for a valid programming command ("address" 112-127)
  let address ← byteAt packet (packet.length - 1)
  if address < 128 ∧ 111 < address then
    let instructionType := 0b00001100 &&& address
    let cvAddressMsBits := 0b00000011 &&& address
    let cvAddress := (← byteAt packet (packet.length - 2)).toNat + cvAddressMsBits.toNat * 256
    if instructionType = 0b00001000 then
      let byte ← byteAt packet (packet.length - 3)
      verifyCvBit cvAddress ((byte >>> 3) &&& 0b00000001) (0b00000111 &&& byte)
    else if instructionType = 0b00000100 then
      verifyCvByte cvAddress (← byteAt packet (packet.length - 3))
    else if instructionType = 0b00001100 then
      writeCvHandler board overallAvgOffset cvAddress (← byteAt packet (packet.length - 3))

/-- `evaluate_packet` -/
def evaluatePacket (board : Board) (overallAvgOffset : UInt8) (packet : Message) :
    Firmware Unit := do
  if errorDetection packet then
    if ← addressEvaluation packet then
      Proc.modify fun self => { self with resetMessageFlag := false }
      instructionEvaluation board packet
    else
      let self ← Proc.gets id
      if self.resetMessageFlag then
        -- when the previous packet was a reset message, enter program mode
        programMode board overallAvgOffset packet
      else
        let flag ← resetMessageCheck board packet
        Proc.modify fun self => { self with resetMessageFlag := flag }

/-! ### A decoder -/

def board₀ : Board := ⟨0, 0, fun _ => 0⟩

/-- A decoder with the address 3 and no other CV set. -/
def addressThree : Core0 :=
  boot ⟨fun i => if i.val = 0 then 3 else 0, fun _ => none, 0⟩

end Core0

end Rp2040
