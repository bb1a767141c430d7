/-
The two checksums of 32 bits are one.

Record files take the register a byte at a time from a table, the protocol utilities a bit at a
time.  Both are the reflected register of the same polynomial, so they agree in every state and on
every byte, and a file that is summed in pieces is summed as a whole.
-/
import ProtoScope.Data.Psrec
import ProtoScope.Library.ReflectedCrc
import ProtoScope.ProtocolUtils.Codec

namespace ProtoScope.Data

open ProtoScope.Library
open ProtoScope.ProtocolUtils (shiftIeee crc32Ieee)

/-- `0xEDB88320` -/
def ieeePolynomial : BitVec 32 := 0xEDB88320

/-- The lowest bit of a word, asked for in the way of the source. -/
theorem and_one_ne_zero (x : UInt32) : x &&& 1 ≠ 0 ↔ x.toBitVec.getLsbD 0 = true := by
  rw [Ne, ← UInt32.toBitVec_inj, UInt32.toBitVec_and]
  change ¬ x.toBitVec &&& 1#32 = 0#32 ↔ _
  rw [BitVec.and_one_eq_setWidth_ofBool_getLsbD]
  cases x.toBitVec.getLsbD 0 <;> simp

/-- One shift of the protocol utilities. -/
theorem toBitVec_shiftIeee (x : UInt32) :
    (shiftIeee x).toBitVec = ReflectedCrc.shift ieeePolynomial x.toBitVec := by
  unfold shiftIeee ReflectedCrc.shift
  by_cases h : x.toBitVec.getLsbD 0 = true
  · rw [if_pos h, if_pos (bne_iff_ne.mpr ((and_one_ne_zero x).mpr h))]
    rfl
  · rw [if_neg h, if_neg (mt bne_iff_ne.mp (mt (and_one_ne_zero x).mp h))]
    rfl

/-- One shift of the loop that fills the table. -/
theorem tableShift_eq (x : UInt32) :
    (x >>> 1) ^^^ (if x &&& 1 ≠ 0 then 0xEDB88320 else 0) = shiftIeee x := by
  unfold shiftIeee
  by_cases h : x &&& 1 ≠ 0
  · rw [if_pos h, if_pos (bne_iff_ne.mpr h)]
  · rw [if_neg h, if_neg (mt bne_iff_ne.mp h), UInt32.xor_zero]

theorem crcTable_eq (index : UInt32) : Psrec.crcTable index = Nat.iterate shiftIeee 8 index := by
  unfold Psrec.crcTable
  simp only [tableShift_eq]
  rfl

theorem toBitVec_shifts (count : ℕ) (x : UInt32) :
    (Nat.iterate shiftIeee count x).toBitVec =
      (ReflectedCrc.shift ieeePolynomial)^[count] x.toBitVec := by
  induction count generalizing x with
  | zero => rfl
  | succ count ih => rw [Function.iterate_succ_apply, ih, toBitVec_shiftIeee]; rfl

/-- **The table step is eight shifts**, for every state of the register and every byte. -/
theorem tableStep_eq (value : UInt32) (byte : UInt8) :
    Psrec.crcTable ((value ^^^ byte.toUInt32) &&& 255) ^^^ (value >>> 8) =
      Nat.iterate shiftIeee 8 (value ^^^ byte.toUInt32) := by
  have hbyte : byte.toUInt32.toBitVec >>> 8 = 0 := by
    apply BitVec.eq_of_toNat_eq
    have hlt := byte.toNat_lt
    rw [BitVec.toNat_ushiftRight, UInt32.toNat_toBitVec, UInt8.toNat_toUInt32,
      Nat.shiftRight_eq_div_pow]
    exact Nat.div_eq_of_lt hlt
  have hadd := @ReflectedCrc.shifts_add _ ieeePolynomial 8 value.toBitVec _ hbyte
  rw [crcTable_eq, ← UInt32.toBitVec_inj, UInt32.toBitVec_xor, toBitVec_shifts, toBitVec_shifts,
    UInt32.toBitVec_xor, hadd]
  rfl

theorem crc_eq (value : UInt32) (bytes : List UInt8) :
    Psrec.crc value bytes =
      bytes.foldl (fun crc byte => Nat.iterate shiftIeee 8 (crc ^^^ byte.toUInt32)) value := by
  unfold Psrec.crc
  simp only [tableStep_eq]

/-- A file summed in pieces is summed as a whole. -/
theorem crc_append (value : UInt32) (bytes others : List UInt8) :
    Psrec.crc value (bytes ++ others) = Psrec.crc (Psrec.crc value bytes) others :=
  List.foldl_append

/-- **The checksums agree**, however the bytes are split into consecutive updates. -/
theorem crc_agrees (pieces : List (List UInt8)) :
    pieces.foldl Psrec.crc 0xFFFFFFFF ^^^ 0xFFFFFFFF = crc32Ieee pieces.flatten := by
  have hflat : ∀ value, pieces.foldl Psrec.crc value = Psrec.crc value pieces.flatten := by
    induction pieces with
    | nil => exact fun value => rfl
    | cons piece rest ih =>
      intro value
      rw [List.foldl_cons, ih, List.flatten_cons, crc_append]
  unfold crc32Ieee
  rw [hflat, crc_eq]

end ProtoScope.Data
