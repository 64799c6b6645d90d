/-
The interrupt side of the C firmware (`Software/core0.c`).

On every falling edge `track_signal_fall` shifts a bit into a 64-bit buffer,
looks for a packet in it and puts what it finds into a ring buffer of packets.
-/
import Rp2040Decoder.RingBuffer

namespace Rp2040

def MESSAGE_3_BYTES : UInt64 := 0b11111111110000000000000000000000000001

def MESSAGE_MASK_3_BYTES : UInt64 := 0b11111111111000000001000000001000000001

def MESSAGE_4_BYTES : UInt64 := 0b11111111110000000000000000000000000000000000001

def MESSAGE_MASK_4_BYTES : UInt64 := 0b11111111111000000001000000001000000001000000001

def MESSAGE_5_BYTES : UInt64 := 0b11111111110000000000000000000000000000000000000000000001

def MESSAGE_MASK_5_BYTES : UInt64 := 0b11111111111000000001000000001000000001000000001000000001

def RING_BUFFER_PACKETS : ℕ := 8

def RING_BUFFER_BYTES : ℕ := 5

/-- `dcc_packet_t`; the length `INVALID_PACKAGE` is `none`. -/
structure DccPacket where
  data : Fin RING_BUFFER_BYTES → UInt8
  length : Option ℕ

/-- The bytes of the packet, if there is one. -/
def DccPacket.contents (self : DccPacket) : Option (List UInt8) :=
  self.length.map fun n => (List.ofFn self.data).take n

/-- `dcc_ring_buffer_t`; its `items` are the `packets`. -/
abbrev DccRingBuffer := RingBuffer RING_BUFFER_PACKETS DccPacket

/-- The statics of the interrupt handler. -/
structure Receiver where
  inputBitBuffer : UInt64
  dccRBuf : DccRingBuffer

namespace Receiver

/-- At startup everything is zero. -/
def boot : Receiver :=
  ⟨0, ⟨fun _ => ⟨fun _ => 0, some 0⟩, ⟨0, by decide⟩, ⟨0, by decide⟩⟩⟩

/-- `detect_dcc_packet` -/
def detectDccPacket (inputBitBuffer : UInt64) : Option ℕ :=
  let numberOfBytes := none
  let numberOfBytes := if inputBitBuffer &&& MESSAGE_MASK_3_BYTES = MESSAGE_3_BYTES then some 3
    else numberOfBytes
  let numberOfBytes := if inputBitBuffer &&& MESSAGE_MASK_4_BYTES = MESSAGE_4_BYTES then some 4
    else numberOfBytes
  if inputBitBuffer &&& MESSAGE_MASK_5_BYTES = MESSAGE_5_BYTES then some 5 else numberOfBytes

/-- `input_bit_buffer >> (i * 9 + 1)`, as a byte. -/
def packetByte (inputBitBuffer : UInt64) (i : ℕ) : UInt8 :=
  (inputBitBuffer >>> UInt64.ofNat (i * 9 + 1)).toUInt8

/-- `bits_to_dcc_packet_data`, for a packet of this length. -/
def bitsToDccPacketData (inputBitBuffer : UInt64) (length : ℕ) (packet : DccPacket) : DccPacket :=
  { packet with data := fun i =>
      if i.val < length then packetByte inputBitBuffer i else packet.data i }

/-- The bit a pulse of this many microseconds stands for. -/
def pulseBit (timeLogicalHigh : ℤ) : Bool := if 87 < timeLogicalHigh then false else true

/-- `input_bit_buffer <<= 1; input_bit_buffer |= bit` -/
def shiftIn (inputBitBuffer : UInt64) (bit : Bool) : UInt64 :=
  inputBitBuffer <<< 1 ||| if bit then 1 else 0

/-- `track_signal_fall` -/
def trackSignalFall (timeLogicalHigh : ℤ) (self : Receiver) : Receiver :=
  let inputBitBuffer := shiftIn self.inputBitBuffer (pulseBit timeLogicalHigh)
  let packet := { self.dccRBuf.items self.dccRBuf.wrIdx with
    length := detectDccPacket inputBitBuffer }
  match detectDccPacket inputBitBuffer with
  | none => ⟨inputBitBuffer, self.dccRBuf.put packet⟩
  | some n =>
    ⟨inputBitBuffer, self.dccRBuf.push (bitsToDccPacketData inputBitBuffer n packet)⟩

/-- What `track_signal_fall` leaves at the write index it found. -/
def report (timeLogicalHigh : ℤ) (self : Receiver) : Option (List UInt8) :=
  ((self.trackSignalFall timeLogicalHigh).dccRBuf.items self.dccRBuf.wrIdx).contents

/-- The reports of a sequence of pulses. -/
def reports : List ℤ → Receiver → List (Option (List UInt8))
  | [], _ => []
  | t :: ts, self => self.report t :: reports ts (self.trackSignalFall t)

end Receiver

end Rp2040
