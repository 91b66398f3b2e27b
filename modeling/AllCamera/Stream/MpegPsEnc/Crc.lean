import AllCamera.Lib.BitLayout
import AllCamera.Lib.Crc
import AllCamera.Lib.Loop
import AllCamera.Stream.MpegPsEnc
import Mathlib.Data.List.GetD

/-!
# The check sum of the stream map (`CRCGet`, `writePsmPacket`)

* `mpegCrc`: CRC-32/MPEG-2, with the register of `Lib.Crc`. `crcInputBit_eq`, `crcGet_eq`: what `CRCInputBit` does to a
  register, and `CRCGet` to bytes.
* `CrcLoop`: `CRCGet` with the counter of its loop, an `uint8_t`. `crcReturns_iff`: it returns for less than 256 bytes
  only.
* `mpegCrc_psmPacket`: the check sum of a map with its own one is never 0.
-/

namespace AllCamera.MpegPsEnc

open BitLayout

/-! ## The check sum of bytes -/

/-- The polynomial of the check sum. -/
def crcPoly : BitVec 32 := 0x04c11db7#32

/-- CRC-32/MPEG-2. -/
def mpegCrc (bytes : List UInt8) : BitVec 32 := Crc.feed crcPoly 0xffffffff#32 (bitsOf bytes)

/-- A bit as a byte. -/
def bitByte (b : Bool) : UInt8 := if b then 1 else 0

/-- A register whose lowest bit is clear. -/
theorem or_one {w : Nat} {x : BitVec w} (h : x.getLsbD 0 = false) : x ||| 1#w = x ^^^ 1#w := by
  apply BitVec.eq_of_getLsbD_eq
  intro i hi
  rw [BitVec.getLsbD_or, BitVec.getLsbD_xor]
  by_cases hzero : i = 0
  · subst hzero
    rw [h, Bool.false_or, Bool.false_xor]
  · simp [BitVec.getLsbD_one, hzero]

/-- A bit that is masked, and moved to the lowest place. -/
theorem and_shiftRight (x k : Nat) : (x &&& 2 ^ k) >>> k = (x.testBit k).toNat := by
  rw [Nat.shiftRight_and_distrib, Nat.shiftRight_eq_div_pow, Nat.shiftRight_eq_div_pow,
    Nat.div_self (Nat.two_pow_pos k), Nat.and_one_is_mod, Nat.toNat_testBit]

/-- The bit that leaves the register, as `CRCInputBit` takes it. -/
theorem top_eq (uVal : UInt32) : (uVal &&& 0x80000000) >>> 31 = (bitByte uVal.toBitVec.msb).toUInt32 := by
  have hmsb : uVal.toBitVec.msb = uVal.toNat.testBit 31 := by
    rw [BitVec.msb_eq_getLsbD_last, ← BitVec.testBit_toNat]
    rfl
  have hmask : (0x80000000 : UInt32).toNat = 2 ^ 31 := rfl
  have hplaces : (31 : UInt32).toNat % 32 = 31 := rfl
  apply UInt32.toNat_inj.mp
  rw [UInt32.toNat_shiftRight, UInt32.toNat_and, hmask, hplaces, and_shiftRight, hmsb]
  cases uVal.toNat.testBit 31 <;> rfl

/-- The polynomial is shifted by one bit in `CRCInputBit`, and the lowest bit is set apart. -/
theorem crcInputBit_eq (uVal : UInt32) (b : Bool) :
    (crcInputBit uVal (bitByte b)).toBitVec = Crc.step crcPoly uVal.toBitVec b := by
  have heven : ∀ x : BitVec 32, (x <<< 1).getLsbD 0 = false := fun x => by simp
  have hzero : ∀ x : UInt32, (x <<< 1 ||| 0).toBitVec = x.toBitVec <<< 1 := fun x => by simp
  have hone : ∀ x : UInt32, (x <<< 1 ||| 1).toBitVec = x.toBitVec <<< 1 ^^^ 1#32 := fun x => by
    rw [UInt32.toBitVec_or, UInt32.toBitVec_shiftLeft]
    exact or_one (heven _)
  have hpoly : (0x02608edb#32 <<< 1) ^^^ 1#32 = crcPoly := by decide
  have hadd : ((uVal ^^^ 0x02608edb) <<< 1 ||| 1).toBitVec = uVal.toBitVec <<< 1 ^^^ crcPoly := by
    rw [hone, UInt32.toBitVec_xor, BitVec.shiftLeft_xor_distrib, BitVec.xor_assoc]
    exact congrArg _ hpoly
  unfold crcInputBit Crc.step
  rw [top_eq]
  cases uVal.toBitVec.msb <;> cases b
  · exact (hzero uVal).trans (by simp)
  · exact hadd
  · exact hadd
  · exact (hzero uVal).trans (by simp)

/-- The bits of a byte, in the order in which `CRCGet` takes them. -/
theorem shifts_eq (b : UInt8) :
    (crcGet.shifts.map fun j => (b <<< j &&& (0x80 : UInt8)) >>> 7) = (msb 8 b.toNat).map bitByte := by
  have hmask : (0x80 : UInt8).toNat = 2 ^ 7 := rfl
  have hplaces : (7 : UInt8).toNat % 8 = 7 := rfl
  have hbit : ∀ j : UInt8, j.toNat < 8 →
      (b <<< j &&& (0x80 : UInt8)) >>> 7 = bitByte (b.toNat.testBit (7 - j.toNat)) := by
    intro j hj
    apply UInt8.toNat_inj.mp
    rw [UInt8.toNat_shiftRight, UInt8.toNat_and, hmask, hplaces, and_shiftRight, UInt8.toNat_shiftLeft,
      Nat.mod_eq_of_lt hj, Nat.testBit_mod_two_pow, Nat.testBit_shiftLeft, decide_eq_true (show 7 < 8 by decide),
      decide_eq_true (show 7 ≥ j.toNat by omega), Bool.true_and, Bool.true_and]
    cases b.toNat.testBit (7 - j.toNat) <;> rfl
  simp only [crcGet.shifts, List.map_cons, List.map_nil]
  rw [hbit 0 (by decide), hbit 1 (by decide), hbit 2 (by decide), hbit 3 (by decide), hbit 4 (by decide),
    hbit 5 (by decide), hbit 6 (by decide), hbit 7 (by decide)]
  rfl

/-- The inner loop of `CRCGet`. -/
def crcByte (uVal : UInt32) (b : UInt8) : UInt32 :=
  crcGet.shifts.foldl (fun uVal j => crcInputBit uVal ((b <<< j &&& (0x80 : UInt8)) >>> 7)) uVal

theorem crcByte_eq (uVal : UInt32) (b : UInt8) :
    (crcByte uVal b).toBitVec = Crc.feed crcPoly uVal.toBitVec (msb 8 b.toNat) := by
  have hbits : ∀ (bits : List Bool) (uVal : UInt32),
      (bits.foldl (fun uVal b => crcInputBit uVal (bitByte b)) uVal).toBitVec =
        Crc.feed crcPoly uVal.toBitVec bits := by
    intro bits
    induction bits with
    | nil => exact fun _ => rfl
    | cons b bits ih =>
      intro uVal
      rw [List.foldl_cons, ih, crcInputBit_eq]
      rfl
  rw [← hbits, ← List.foldl_map, ← shifts_eq, List.foldl_map]
  rfl

/-- `CRCGet` of bytes, from any register. -/
theorem foldl_crcByte (bytes : List UInt8) (uVal : UInt32) :
    (bytes.foldl crcByte uVal).toBitVec = Crc.feed crcPoly uVal.toBitVec (bitsOf bytes) := by
  induction bytes generalizing uVal with
  | nil => rfl
  | cons b bytes ih => rw [List.foldl_cons, ih, crcByte_eq, bitsOf_cons, Crc.feed_append]

theorem crcGet_eq (bytes : List UInt8) : (crcGet bytes).toBitVec = mpegCrc bytes := foldl_crcByte bytes _

/-! ## The loop -/

/-- The variables of the loop of `CRCGet`. -/
structure CrcLoop where
  i : UInt8
  uVal : UInt32

namespace CrcLoop

/-- At the start, behind `CRCInit`. -/
def start : CrcLoop := ⟨0, 0xffffffff⟩

/-- A pass. -/
def step (byValue : List UInt8) (s : CrcLoop) : CrcLoop := ⟨s.i + 1, crcByte s.uVal (byValue.getD s.i.toNat 0)⟩

/-- `i < iLength` fails. -/
def Done (iLength : Int32) (s : CrcLoop) : Prop := iLength.toInt ≤ s.i.toNat

end CrcLoop

open CrcLoop in
/-- `CRCGet` returns, and with this value. -/
def CrcReturns (byValue : List UInt8) (iLength : Int32) (v : UInt32) : Prop :=
  ∃ k, (∀ j < k, ¬ Done iLength ((step byValue)^[j] start)) ∧ Done iLength ((step byValue)^[k] start) ∧
    ((step byValue)^[k] start).uVal = v

/-- The counter has not been everywhere yet. -/
theorem iterate_step {byValue : List UInt8} (hlen : byValue.length < 256) {k : Nat} (hk : k ≤ byValue.length) :
    (CrcLoop.step byValue)^[k] .start = ⟨.ofNat k, (byValue.take k).foldl crcByte 0xffffffff⟩ := by
  induction k with
  | zero => rfl
  | succ k ih =>
    have hlt : k < byValue.length := hk
    have hi : (UInt8.ofNat k).toNat = k := by rw [UInt8.toNat_ofNat']; omega
    have hsucc : UInt8.ofNat (k + 1) = UInt8.ofNat k + 1 := UInt8.ofNat_add k 1
    rw [Function.iterate_succ_apply', ih (Nat.le_of_lt hlt), CrcLoop.step, hi, List.getD_eq_getElem _ _ hlt,
      List.take_succ_eq_append_getElem hlt, List.foldl_append, List.foldl_cons, List.foldl_nil, hsucc]

/-- For less than 256 bytes the loop ends, and for more it does not. -/
theorem crcReturns_iff {byValue : List UInt8} (hlen : byValue.length < 2 ^ 31) :
    CrcReturns byValue (.ofNat byValue.length) (.ofBitVec (mpegCrc byValue)) ↔ byValue.length < 256 := by
  have hlength : (Int32.ofNat byValue.length).toInt = byValue.length := Int32.toInt_ofNat_of_lt hlen
  constructor
  · rintro ⟨k, -, hdone, -⟩
    have hi := ((CrcLoop.step byValue)^[k] .start).i.toNat_lt
    unfold CrcLoop.Done at hdone
    omega
  · intro hshort
    refine ⟨byValue.length, fun j hj => ?_, ?_, ?_⟩
    · rw [iterate_step hshort (Nat.le_of_lt hj)]
      have hi : (UInt8.ofNat j).toNat = j := by rw [UInt8.toNat_ofNat']; omega
      unfold CrcLoop.Done
      rw [hlength, hi]
      omega
    · rw [iterate_step hshort (Nat.le_refl _)]
      have hi : (UInt8.ofNat byValue.length).toNat = byValue.length := by rw [UInt8.toNat_ofNat']; omega
      unfold CrcLoop.Done
      rw [hlength, hi]
    · rw [iterate_step hshort (Nat.le_refl _), List.take_length]
      exact UInt32.toBitVec_inj.mp (crcGet_eq byValue)

/-! ## The stream map -/

/-- The bits of the register, from the highest on. -/
theorem highBits_eq_msb {w n : Nat} (r : BitVec w) (hn : n ≤ w) : Crc.highBits r n = msb n (r.toNat / 2 ^ (w - n)) := by
  induction n with
  | zero => rfl
  | succ n ih =>
    have hdiv : r.toNat / 2 ^ (w - n) = r.toNat / 2 ^ (w - (n + 1)) / 2 ^ 1 := by
      rw [Nat.div_div_eq_div_mul, ← Nat.pow_add]
      congr 2
      omega
    have hbit : r.getMsbD n = (r.toNat / 2 ^ (w - (n + 1))).testBit 0 := by
      rw [BitVec.getMsbD, decide_eq_true (show n < w from hn), Bool.true_and, Nat.testBit_div_two_pow,
        ← BitVec.testBit_toNat]
      congr 1
      omega
    rw [Crc.highBits_succ, ih (Nat.le_of_succ_le hn), hdiv, hbit, msb_add n 1]
    rfl

/-- The first and the last byte of a check sum that stands behind its message, if both have the check sum 0. -/
theorem bytes_of_mpegCrc_eq_zero {bytes : List UInt8}
    (h : mpegCrc (bytes ++ (be32Bytes (crcGet bytes)).reverse) = 0) :
    (mpegCrc bytes).toNat / 2 ^ 24 = (mpegCrc bytes).toNat % 256 := by
  rw [mpegCrc, bitsOf_append, Crc.feed_append] at h
  have hodd : crcPoly.getLsbD 0 = true := by decide
  have hbits := (Crc.feed_eq_zero_iff hodd rfl).mp h
  have hvalue : (crcGet bytes).toNat = (mpegCrc bytes).toNat := congrArg BitVec.toNat (crcGet_eq bytes)
  have hlast : (UInt8.ofNat ((crcGet bytes).toNat % 256)).toNat = (crcGet bytes).toNat % 256 := by
    rw [UInt8.toNat_ofNat']
    omega
  have hreverse : (be32Bytes (crcGet bytes)).reverse =
      .ofNat ((crcGet bytes).toNat % 256) :: (be32Bytes (crcGet bytes)).reverse.tail := rfl
  rw [hreverse, bitsOf_cons, hlast, highBits_eq_msb _ (Nat.le_refl _), Nat.sub_self, Nat.pow_zero, Nat.div_one,
    msb_add 8 24, hvalue] at hbits
  -- the bytes that are first in both
  have hfirst := congrArg ofMsb (List.append_inj hbits (by rw [length_msb, length_msb])).1
  rw [ofMsb_msb, ofMsb_msb] at hfirst
  have hlt := (mpegCrc bytes).isLt
  change (mpegCrc bytes).toNat % 256 % 2 ^ 8 = (mpegCrc bytes).toNat / 2 ^ 24 % 2 ^ 8 at hfirst
  omega

set_option maxRecDepth 20000 in
/-- The check sums of the maps: the first byte is never the last one. -/
theorem psmBytes_ends : ((List.range 32).all fun v =>
    let crc := (bitsOf (psmBytes (.ofNat v))).foldl (Crc.stepNat 32 0x04c11db7) 0xffffffff
    crc / 2 ^ 24 != crc % 256) = true := by
  decide

/-- No map has the check sum 0. -/
theorem mpegCrc_psmPacket {cVersion : UInt8} (h : cVersion < 32) : mpegCrc (psmPacket cVersion) ≠ 0 := by
  intro hzero
  have hends := bytes_of_mpegCrc_eq_zero hzero
  have hall := List.all_eq_true.mp psmBytes_ends cVersion.toNat (List.mem_range.mpr (UInt8.lt_iff_toNat_lt.mp h))
  rw [UInt8.ofNat_toNat] at hall
  rw [mpegCrc, Crc.toNat_feed] at hends
  exact absurd hends (bne_iff_ne.mp hall)

/-- **The check sum.** For every string of bytes: `CRCGet` behind `CRCInit` returns, with its CRC-32/MPEG-2, if and only
if it has less than 256 bytes. And of a map that `writePsmPacket` writes, with any of the versions, the check sum is
not 0. -/
theorem crc_iff {byValue : List UInt8} (hlen : byValue.length < 2 ^ 31) {cVersion : UInt8} (h : cVersion < 32) :
    (CrcReturns byValue (.ofNat byValue.length) (.ofBitVec (mpegCrc byValue)) ↔ byValue.length < 256) ∧
      (mpegCrc (psmPacket cVersion) = 0 ↔ False) :=
  ⟨crcReturns_iff hlen, iff_false_intro (mpegCrc_psmPacket h)⟩

set_option maxRecDepth 20000 in
/-- The check value of the algorithm, and a map. -/
theorem crc_iff_digits :
    CrcReturns [49, 50, 51, 52, 53, 54, 55, 56, 57] 9 0x0376e6e7 ∧ ¬ mpegCrc (psmPacket 5) = 0 := by
  have hvalue : mpegCrc [49, 50, 51, 52, 53, 54, 55, 56, 57] = 0x0376e6e7#32 := by
    apply BitVec.eq_of_toNat_eq
    rw [mpegCrc, Crc.toNat_feed]
    decide
  have hlen : [49, 50, 51, 52, 53, 54, 55, 56, (57 : UInt8)].length < 2 ^ 31 := by decide
  have hboth := crc_iff hlen (show (5 : UInt8) < 32 by decide)
  have hreturns := hboth.1.mpr (by decide)
  rw [hvalue] at hreturns
  exact ⟨hreturns, hboth.2.mp⟩

/-- With 256 bytes the loop does not end, and the first map has another check sum than 0. -/
theorem not_crc :
    ¬ CrcReturns (List.replicate 256 0) (.ofNat 256) (.ofBitVec (mpegCrc (List.replicate 256 0))) ∧
      ¬ mpegCrc (psmPacket 0) = 0 := by
  refine ⟨fun h => ?_, mpegCrc_psmPacket (by decide)⟩
  have hlen : (List.replicate 256 (0 : UInt8)).length = 256 := List.length_replicate
  have hiff := crcReturns_iff (show (List.replicate 256 (0 : UInt8)).length < 2 ^ 31 by rw [hlen]; decide)
  rw [hlen] at hiff
  exact absurd (hiff.mp h) (by decide)

end AllCamera.MpegPsEnc
