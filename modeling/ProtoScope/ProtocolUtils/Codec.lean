/-
The checksums of the protocol utilities, bit by bit as the source computes them.

Each one folds its byte into the register and then shifts eight times; the three differ
in the width of the register, the direction of the shift and the polynomial.
-/
import Mathlib.Data.UInt

namespace ProtoScope.ProtocolUtils

/-- One shift of the reflected 16-bit register. -/
def shiftModbus (crc : UInt16) : UInt16 :=
  if crc &&& 0x0001 != 0 then (crc >>> 1) ^^^ 0xA001 else crc >>> 1

def crc16Modbus (bytes : List UInt8) : UInt16 :=
  bytes.foldl (fun crc value => Nat.iterate shiftModbus 8 (crc ^^^ value.toUInt16)) 0xFFFF

/-- One shift of the 16-bit register, most significant bit first. -/
def shiftCcittFalse (crc : UInt16) : UInt16 :=
  if crc &&& 0x8000 != 0 then (crc <<< 1) ^^^ 0x1021 else crc <<< 1

def crc16CcittFalse (bytes : List UInt8) : UInt16 :=
  bytes.foldl
    (fun crc value => Nat.iterate shiftCcittFalse 8 (crc ^^^ (value.toUInt16 <<< (8 : UInt16))))
    0xFFFF

/-- One shift of the reflected 32-bit register. -/
def shiftIeee (crc : UInt32) : UInt32 :=
  if crc &&& 1 != 0 then (crc >>> 1) ^^^ 0xEDB88320 else crc >>> 1

def crc32Ieee (bytes : List UInt8) : UInt32 :=
  bytes.foldl (fun crc value => Nat.iterate shiftIeee 8 (crc ^^^ value.toUInt32)) 0xFFFFFFFF
    ^^^ 0xFFFFFFFF

end ProtoScope.ProtocolUtils
