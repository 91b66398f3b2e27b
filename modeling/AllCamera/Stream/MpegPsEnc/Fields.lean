import AllCamera.Lib.BitLayout
import AllCamera.Stream.MpegPsEnc

/-!
# The fields of the headers of a program stream

* `PackHeader.read`, `SystemHeader.read`, `PesHeader.read`: the headers as a reader finds them, by the widths of
  their fields.
* `headers_read`: what a reader finds in the headers that `CMpegPsEnc` writes.
-/

namespace AllCamera

open BitLayout

/-! ## Reading -/

/-- A pack header as it is read. -/
structure PackHeader where
  startCode : Nat
  fixedBits : Nat
  scrBase : Nat
  scrExt : Nat
  muxRate : Nat
  markers : List Nat
  deriving DecidableEq, Repr

/-- `pack_start_code`, '01', three pieces of `scr_base`, `scr_ext` and `program_mux_rate` with a marker behind each,
one more, reserved bits and `pack_stuffing_length`. -/
def PackHeader.widths : List Nat := [32, 2, 3, 1, 15, 1, 15, 1, 9, 1, 22, 1, 1, 5, 3]

def PackHeader.read (bytes : List UInt8) : Option PackHeader :=
  match (readFields widths (bitsOf bytes)).1 with
  | [startCode, fixedBits, scr₂, m₁, scr₁, m₂, scr₀, m₃, scrExt, m₄, muxRate, m₅, m₆, _, _] => some
    { startCode, fixedBits, scrExt, muxRate
      scrBase := scr₂ * 2 ^ 30 + scr₁ * 2 ^ 15 + scr₀
      markers := [m₁, m₂, m₃, m₄, m₅, m₆] }
  | _ => none

/-- A system header as it is read. -/
structure SystemHeader where
  startCode : Nat
  headerLength : Nat
  rateBound : Nat
  markers : List Nat
  deriving DecidableEq, Repr

/-- `system_header_start_code`, `header_length`, `rate_bound` between two markers, `audio_bound`, four flags, a marker,
`video_bound`, a flag and reserved bits. -/
def SystemHeader.widths : List Nat := [32, 16, 1, 22, 1, 6, 1, 1, 1, 1, 1, 5, 1, 7]

def SystemHeader.read (bytes : List UInt8) : Option SystemHeader :=
  match (readFields widths (bitsOf bytes)).1 with
  | [startCode, headerLength, m₁, rateBound, m₂, _, _, _, _, _, m₃, _, _, _] =>
    some { startCode, headerLength, rateBound, markers := [m₁, m₂, m₃] }
  | _ => none

/-- A time stamp as it is read. -/
structure Stamp where
  fixedBits : Nat
  value : Nat
  markers : List Nat
  deriving DecidableEq, Repr

/-- Four fixed bits, and three pieces of the time stamp with a marker behind each. -/
def Stamp.widths : List Nat := [4, 3, 1, 15, 1, 15, 1]

def Stamp.read (bits : List Bool) : Option (Stamp × List Bool) :=
  match readFields widths bits with
  | ([fixedBits, ts₂, m₁, ts₁, m₂, ts₀, m₃], rest) =>
    some (⟨fixedBits, ts₂ * 2 ^ 30 + ts₁ * 2 ^ 15 + ts₀, [m₁, m₂, m₃]⟩, rest)
  | _ => none

/-- A PES header as it is read. -/
structure PesHeader where
  startCode : Nat
  streamId : Nat
  packetLength : Nat
  fixedBits : Nat
  headerLength : Nat
  pts : Option Stamp
  dts : Option Stamp
  deriving DecidableEq, Repr

/-- `packet_start_code_prefix`, `stream_id`, `PES_packet_length`, '10', `PES_scrambling_control`, four flags,
`PTS_DTS_flags`, six flags and `PES_header_data_length`. -/
def PesHeader.widths : List Nat := [24, 8, 16, 2, 2, 1, 1, 1, 1, 2, 1, 1, 1, 1, 1, 1, 8]

/-- `PTS_DTS_flags` tell which time stamps follow. -/
def PesHeader.read (bytes : List UInt8) : Option PesHeader :=
  match readFields widths (bitsOf bytes) with
  | ([startCode, streamId, packetLength, fixedBits, _, _, _, _, _, flags, _, _, _, _, _, _, headerLength], rest) =>
    if flags = 3 then do
      let (pts, rest) ← Stamp.read rest
      let (dts, _) ← Stamp.read rest
      return { startCode, streamId, packetLength, fixedBits, headerLength, pts := some pts, dts := some dts }
    else if flags = 2 then do
      let (pts, _) ← Stamp.read rest
      return { startCode, streamId, packetLength, fixedBits, headerLength, pts := some pts, dts := none }
    else some { startCode, streamId, packetLength, fixedBits, headerLength, pts := none, dts := none }
  | _ => none

namespace MpegPsEnc

/-! ## Bytes -/

theorem getBits_lt (x s e : Nat) : x / 2 ^ s % 2 ^ (e - s + 1) < 2 ^ (e - s + 1) :=
  Nat.mod_lt _ (Nat.two_pow_pos _)

/-- A byte that is put together of fields. -/
theorem byte_fields {b : UInt8} {fields : List (Nat × Nat)} (h : b.toNat = packed fields)
    (hwidth : (fields.map Prod.fst).sum = 8) : msb 8 b.toNat = fieldBits fields := by
  rw [h, ← hwidth, msb_packed]

/-- `GET_BITS` of eight bits. -/
theorem byte_getBits (x s : Nat) : msb 8 (getBits x s (s + 7)).toNat = msb 8 (x / 2 ^ s) := by
  refine msb_congr ?_
  rw [getBits, UInt8.toNat_ofNat', show s + 7 - s + 1 = 8 by omega, Nat.mod_mod, Nat.mod_mod]

/-- '01', the highest three bits of `scr_base`, a marker and two bits more. -/
theorem byte_scr (x : Nat) :
    msb 8 ((0x40 : UInt8) ||| (getBits x 30 32 <<< 3) ||| 0x04 ||| getBits x 28 29).toNat =
      fieldBits [(2, 1), (3, x / 2 ^ 30), (1, 1), (2, x / 2 ^ 28)] := by
  have hor : ∀ a < 8, ∀ b < 4,
      ((0x40 : UInt8) ||| (UInt8.ofNat a <<< 3) ||| 0x04 ||| UInt8.ofNat b).toNat =
        ((1 * 8 + a) * 2 + 1) * 4 + b := by decide
  exact byte_fields (hor _ (getBits_lt x 30 32) _ (getBits_lt x 28 29)) rfl

/-- Five bits, a marker and two bits. -/
theorem byte_fiveTwo (x : Nat) :
    msb 8 ((getBits x 15 19 <<< 3) ||| 0x04 ||| getBits x 13 14).toNat =
      fieldBits [(5, x / 2 ^ 15), (1, 1), (2, x / 2 ^ 13)] := by
  have hor : ∀ a < 32, ∀ b < 4, ((UInt8.ofNat a <<< 3) ||| 0x04 ||| UInt8.ofNat b).toNat =
      ((0 + a) * 2 + 1) * 4 + b := by decide
  exact byte_fields (hor _ (getBits_lt x 15 19) _ (getBits_lt x 13 14)) rfl

/-- Seven bits, of which the shift leaves five, a marker and the highest two bits of `scr_ext`. -/
theorem byte_scrLast (x : Nat) :
    msb 8 ((getBits x 0 6 <<< 3) ||| 0x04).toNat = fieldBits [(5, x), (1, 1), (2, 0)] := by
  have hor : ∀ a < 128, ((UInt8.ofNat a <<< 3) ||| 0x04).toNat = ((0 + a % 32) * 2 + 1) * 4 + 0 := by decide
  refine byte_fields ((hor _ (getBits_lt x 0 6)).trans ?_) rfl
  rw [Nat.pow_zero, Nat.div_one, Nat.mod_mod_of_dvd x (show 32 ∣ 2 ^ (6 - 0 + 1) by decide)]
  rfl

/-- Seven bits, of which the shift leaves six, and two markers. -/
theorem byte_rateLast (x : Nat) :
    msb 8 ((getBits x 0 6 <<< 2) ||| 0x03).toNat = fieldBits [(6, x), (1, 1), (1, 1)] := by
  have hor : ∀ a < 128, ((UInt8.ofNat a <<< 2) ||| 0x03).toNat = ((0 + a % 64) * 2 + 1) * 2 + 1 := by decide
  refine byte_fields ((hor _ (getBits_lt x 0 6)).trans ?_) rfl
  rw [Nat.pow_zero, Nat.div_one, Nat.mod_mod_of_dvd x (show 64 ∣ 2 ^ (6 - 0 + 1) by decide)]
  rfl

/-- A marker and seven bits. -/
theorem byte_markerFirst (x : Nat) :
    msb 8 (0x80 ||| getBits x 15 21).toNat = fieldBits [(1, 1), (7, x / 2 ^ 15)] := by
  have hor : ∀ a < 128, ((0x80 : UInt8) ||| UInt8.ofNat a).toNat = (0 + 1) * 128 + a := by decide
  exact byte_fields (hor _ (getBits_lt x 15 21)) rfl

/-- Seven bits and a marker. -/
theorem byte_markerLast (x s : Nat) :
    msb 8 ((getBits x s (s + 6) <<< 1) ||| 0x1).toNat = fieldBits [(7, x / 2 ^ s), (1, 1)] := by
  have hor : ∀ a < 128, ((UInt8.ofNat a <<< 1) ||| 0x1).toNat = (0 + a) * 2 + 1 := by decide
  have hlt : x / 2 ^ s % 2 ^ (s + 6 - s + 1) < 128 := by
    rw [show s + 6 - s + 1 = 7 by omega]
    exact Nat.mod_lt _ (by decide)
  refine byte_fields ((hor _ hlt).trans ?_) rfl
  rw [show s + 6 - s + 1 = 7 by omega]
  rfl

/-- Four fixed bits, the highest three bits of a time stamp and a marker. -/
theorem byte_stamp {flag : Nat} (h : flag < 4) (x : Nat) :
    msb 8 ((UInt8.ofNat flag <<< 4) ||| (getBits x 30 32 <<< 1) ||| 0x1).toNat =
      fieldBits [(4, flag), (3, x / 2 ^ 30), (1, 1)] := by
  have hor : ∀ flag < 4, ∀ a < 8, ((UInt8.ofNat flag <<< 4) ||| (UInt8.ofNat a <<< 1) ||| 0x1).toNat =
      ((0 + flag % 16) * 8 + a) * 2 + 1 := by decide
  exact byte_fields (hor _ h _ (getBits_lt x 30 32)) rfl

/-! ## Headers -/

/-- The fields that `writePSHeader` writes. -/
def packFields (scr muxRate : Nat) : List (Nat × Nat) :=
  [(32, 0x1ba), (2, 1), (3, scr / 2 ^ 30), (1, 1), (15, scr / 2 ^ 15), (1, 1), (15, scr), (1, 1), (9, 0), (1, 1),
    (22, muxRate), (1, 1), (1, 1), (5, 31), (3, 0)]

theorem bitsOf_psHeader (scr : UInt64) (muxRate : UInt32) :
    bitsOf (psHeader scr muxRate) = fieldBits (packFields scr.toNat muxRate.toNat) := by
  have hcode : msb 32 0x1ba = bitsOf [0x00, 0x00, 0x01, 0xba] := rfl
  have hscr₁ (x : Nat) : msb 15 (x / 2 ^ 15) = msb 2 (x / 2 ^ 28) ++ (msb 8 (x / 2 ^ 20) ++ msb 5 (x / 2 ^ 15)) :=
    msb_three 2 8 5 15 x
  have hscr₀ (x : Nat) : msb 15 x = msb 2 (x / 2 ^ 13) ++ (msb 8 (x / 2 ^ 5) ++ msb 5 x) := by
    simpa using msb_three 2 8 5 0 x
  have hext : msb 9 0 = msb 2 0 ++ msb 7 0 := rfl
  have hrate (x : Nat) : msb 22 x = msb 8 (x / 2 ^ 14) ++ (msb 8 (x / 2 ^ 6) ++ msb 6 x) := by
    simpa using msb_three 8 8 6 0 x
  have hone : msb 8 (0x01 : UInt8).toNat = msb 7 0 ++ msb 1 1 := rfl
  have hlast : msb 8 (0xf8 : UInt8).toNat = msb 5 31 ++ msb 3 0 := rfl
  simp only [psHeader, packFields, fieldBits_cons, fieldBits_nil, bitsOf_cons, bitsOf_nil, hcode, hscr₁, hscr₀, hext,
    hrate, byte_scr, byte_getBits, byte_fiveTwo, byte_scrLast, byte_rateLast, hone, hlast, List.append_assoc,
    List.nil_append]

/-- The fields that `writeSysHeader` writes. -/
def systemFields (muxRate : Nat) : List (Nat × Nat) :=
  [(32, 0x1bb), (16, 6), (1, 1), (22, muxRate), (1, 1), (6, 1), (1, 0), (1, 0), (1, 1), (1, 1), (1, 1), (5, 1),
    (1, 0), (7, 127)]

theorem bitsOf_sysHeader (muxRate : UInt32) :
    bitsOf (sysHeader muxRate) = fieldBits (systemFields muxRate.toNat) := by
  have hcode : msb 32 0x1bb = bitsOf [0x00, 0x00, 0x01, 0xbb] := rfl
  have hlen : msb 16 6 = bitsOf [0x00, 0x06] := rfl
  have hrate (x : Nat) : msb 22 x = msb 7 (x / 2 ^ 15) ++ (msb 8 (x / 2 ^ 7) ++ msb 7 x) := by
    simpa using msb_three 7 8 7 0 x
  have hbounds : bitsOf [(0x1 : UInt8) <<< 2, 0xe1, 0x7f] =
      fieldBits [(6, 1), (1, 0), (1, 0), (1, 1), (1, 1), (1, 1), (5, 1), (1, 0), (7, 127)] := rfl
  simp only [fieldBits_cons, bitsOf_cons, fieldBits_nil, bitsOf_nil] at hbounds
  simp only [sysHeader, systemFields, fieldBits_cons, fieldBits_nil, bitsOf_cons, bitsOf_nil, hcode, hlen, hrate,
    byte_markerFirst, byte_getBits, byte_markerLast, hbounds, Nat.pow_zero, Nat.div_one, List.append_assoc,
    List.nil_append]

/-- The fields of a time stamp. -/
def stampFields (flag ts : Nat) : List (Nat × Nat) :=
  [(4, flag), (3, ts / 2 ^ 30), (1, 1), (15, ts / 2 ^ 15), (1, 1), (15, ts), (1, 1)]

theorem bitsOf_timestampBytes {flag : Nat} (h : flag < 4) (ts : UInt64) :
    bitsOf (timestampBytes (.ofNat flag) ts) = fieldBits (stampFields flag ts.toNat) := by
  have hfirst (x : Nat) := byte_stamp h x
  have hmiddle (x : Nat) : msb 15 (x / 2 ^ 15) = msb 8 (x / 2 ^ 22) ++ msb 7 (x / 2 ^ 15) := by
    rw [show (15 : Nat) = 8 + 7 from rfl, msb_add, Nat.div_div_eq_div_mul, ← Nat.pow_add]
  have hlow (x : Nat) : msb 15 x = msb 8 (x / 2 ^ 7) ++ msb 7 x := msb_add 8 7 x
  simp only [timestampBytes, stampFields, fieldBits_cons, fieldBits_nil, bitsOf_cons, bitsOf_nil, hfirst, hmiddle, hlow,
    byte_getBits, byte_markerLast, Nat.pow_zero, Nat.div_one, List.append_assoc, List.nil_append]

/-- The fields in front of the time stamps that `writePESHeader` writes. -/
def pesFields (id len flags ext : Nat) : List (Nat × Nat) :=
  [(24, 1), (8, id), (16, len), (2, 2), (2, 0), (1, 0), (1, 0), (1, 0), (1, 0), (2, flags), (1, 0), (1, 0), (1, 0),
    (1, 0), (1, 0), (1, 0), (8, ext)]

theorem bitsOf_pesFields (id : UInt8) (len : UInt16) {flags : Nat} (h : flags < 4) (ext : UInt8) :
    bitsOf ([0x00, 0x00, 0x01, id] ++ be16Bytes len ++ [(0x80 : UInt8), UInt8.ofNat flags <<< 6, ext]) =
      fieldBits (pesFields id.toNat len.toNat flags ext.toNat) := by
  have hcode : msb 24 1 = bitsOf [0x00, 0x00, 0x01] := rfl
  have hlen : bitsOf (be16Bytes len) = msb 16 len.toNat := by
    have hhigh : len.toNat / 256 % 2 ^ 8 = len.toNat / 256 := Nat.mod_eq_of_lt (by have := len.toNat_lt; omega)
    rw [be16Bytes, bitsOf_cons, bitsOf_cons, bitsOf_nil, List.append_nil, UInt8.toNat_ofNat', UInt8.toNat_ofNat', hhigh]
    exact (congrArg (msb 8 (len.toNat / 256) ++ ·) (msb_congr (by omega))).trans (msb_add 8 8 len.toNat).symm
  have hfixed : bitsOf [0x80] = fieldBits [(2, 2), (2, 0), (1, 0), (1, 0), (1, 0), (1, 0)] := rfl
  have hflags : ∀ flags < 4, bitsOf [UInt8.ofNat flags <<< 6] =
      fieldBits [(2, flags), (1, 0), (1, 0), (1, 0), (1, 0), (1, 0), (1, 0)] := by decide
  have hflags := hflags flags h
  simp only [bitsOf_cons, bitsOf_nil, fieldBits_cons, fieldBits_nil, List.append_nil] at hfixed hflags
  simp only [pesFields, bitsOf_append, hlen, fieldBits_cons, fieldBits_nil, hcode, bitsOf_cons, bitsOf_nil, hfixed,
    hflags, List.append_assoc, List.nil_append]

/-- The bytes with a PTS alone. -/
theorem pesHeader_pts {pts : UInt64} (h : pts ≠ invalidTimestamp) (unDataSize : Nat) (id : UInt8) :
    pesHeader unDataSize id pts invalidTimestamp =
      [0x00, 0x00, 0x01, id] ++ be16Bytes (3 + 5 + .ofNat unDataSize) ++ [(0x80 : UInt8), UInt8.ofNat 2 <<< 6, 5] ++
        timestampBytes (.ofNat 2) pts := by
  unfold pesHeader
  simp only [ne_eq, h.symm, not_false_eq_true, decide_true, if_true, not_true_eq_false, decide_false,
    Bool.false_eq_true, if_false, List.append_nil]
  rfl

/-- The bytes with both time stamps. -/
theorem pesHeader_dts {pts dts : UInt64} (h : pts ≠ invalidTimestamp) (hdts : dts ≠ invalidTimestamp)
    (unDataSize : Nat) (id : UInt8) :
    pesHeader unDataSize id pts dts =
      [0x00, 0x00, 0x01, id] ++ be16Bytes (3 + 10 + .ofNat unDataSize) ++ [(0x80 : UInt8), UInt8.ofNat 3 <<< 6, 10] ++
        (timestampBytes (.ofNat 3) pts ++ timestampBytes (.ofNat 1) dts) := by
  unfold pesHeader
  simp only [ne_eq, h.symm, hdts.symm, not_false_eq_true, decide_true, if_true]
  rfl

/-! ## What a reader finds -/

theorem read_psHeader (scr : UInt64) (muxRate : UInt32) :
    PackHeader.read (psHeader scr muxRate) = some
      { startCode := 0x1ba
        fixedBits := 1
        scrBase := scr.toNat % 2 ^ 33
        scrExt := 0
        muxRate := muxRate.toNat % 2 ^ 22
        markers := [1, 1, 1, 1, 1, 1] } := by
  have hread := readFields_fieldBits (packFields scr.toNat muxRate.toNat) []
  have hscr : scr.toNat / 2 ^ 30 % 2 ^ 3 * 2 ^ 30 + scr.toNat / 2 ^ 15 % 2 ^ 15 * 2 ^ 15 + scr.toNat % 2 ^ 15 =
      scr.toNat % 2 ^ 33 := by omega
  rw [List.append_nil, ← bitsOf_psHeader] at hread
  rw [PackHeader.read, show PackHeader.widths = (packFields scr.toNat muxRate.toNat).map Prod.fst from rfl, hread,
    ← hscr]
  rfl

theorem read_sysHeader (muxRate : UInt32) :
    SystemHeader.read (sysHeader muxRate) = some
      { startCode := 0x1bb, headerLength := 6, rateBound := muxRate.toNat % 2 ^ 22, markers := [1, 1, 1] } := by
  have hread := readFields_fieldBits (systemFields muxRate.toNat) []
  rw [List.append_nil, ← bitsOf_sysHeader] at hread
  rw [SystemHeader.read, show SystemHeader.widths = (systemFields muxRate.toNat).map Prod.fst from rfl, hread]
  rfl

/-- A time stamp with `flag` in front of it. -/
def stampOf (flag : Nat) (ts : UInt64) : Stamp where
  fixedBits := flag
  value := ts.toNat % 2 ^ 33
  markers := [1, 1, 1]

theorem read_timestampBytes {flag : Nat} (h : flag < 4) (ts : UInt64) (rest : List Bool) :
    Stamp.read (bitsOf (timestampBytes (.ofNat flag) ts) ++ rest) = some (stampOf flag ts, rest) := by
  have hread := readFields_fieldBits (stampFields flag ts.toNat) rest
  have hflag : flag % 2 ^ 4 = flag := Nat.mod_eq_of_lt (by omega)
  have hts : ts.toNat / 2 ^ 30 % 2 ^ 3 * 2 ^ 30 + ts.toNat / 2 ^ 15 % 2 ^ 15 * 2 ^ 15 + ts.toNat % 2 ^ 15 =
      ts.toNat % 2 ^ 33 := by omega
  rw [Stamp.read, show Stamp.widths = (stampFields flag ts.toNat).map Prod.fst from rfl, bitsOf_timestampBytes h, hread,
    stampOf, ← hts]
  simp only [stampFields, List.map_cons, List.map_nil, hflag]
  rfl

/-- The PES header with a PTS, and with a DTS or without one. -/
def pesHeaderOf (unDataSize : Nat) (id : UInt8) (pts dts : UInt64) : PesHeader where
  startCode := 1
  streamId := id.toNat
  packetLength := (3 + (if dts = invalidTimestamp then 5 else 10) + UInt16.ofNat unDataSize).toNat
  fixedBits := 2
  headerLength := if dts = invalidTimestamp then 5 else 10
  pts := some (stampOf (if dts = invalidTimestamp then 2 else 3) pts)
  dts := if dts = invalidTimestamp then none else some (stampOf 1 dts)

theorem read_pesHeader {pts : UInt64} (h : pts ≠ invalidTimestamp) (unDataSize : Nat) (id : UInt8) (dts : UInt64) :
    PesHeader.read (pesHeader unDataSize id pts dts) = some (pesHeaderOf unDataSize id pts dts) := by
  have hread (len : UInt16) {flags : Nat} (hflags : flags < 4) (ext : UInt8) (stamps : List UInt8) :
      readFields PesHeader.widths
          (bitsOf
            ([0x00, 0x00, 0x01, id] ++ be16Bytes len ++ [(0x80 : UInt8), UInt8.ofNat flags <<< 6, ext] ++ stamps)) =
        ((pesFields id.toNat len.toNat flags ext.toNat).map fun f => f.2 % 2 ^ f.1, bitsOf stamps) := by
    rw [bitsOf_append, bitsOf_pesFields id len hflags]
    exact readFields_fieldBits (pesFields id.toNat len.toNat flags ext.toNat) (bitsOf stamps)
  have hid := Nat.mod_eq_of_lt id.toNat_lt
  by_cases hdts : dts = invalidTimestamp
  · have hstamp := read_timestampBytes (show 2 < 4 by decide) pts []
    have hlen := Nat.mod_eq_of_lt (3 + 5 + UInt16.ofNat unDataSize).toNat_lt
    rw [List.append_nil] at hstamp
    rw [hdts, pesHeader_pts h, PesHeader.read, hread _ (by decide)]
    simp only [pesFields, List.map_cons, List.map_nil, hid, hlen, hstamp]
    rfl
  · have hstamp := read_timestampBytes (show 3 < 4 by decide) pts (bitsOf (timestampBytes (.ofNat 1) dts))
    have hstamp' := read_timestampBytes (show 1 < 4 by decide) dts []
    have hlen := Nat.mod_eq_of_lt (3 + 10 + UInt16.ofNat unDataSize).toNat_lt
    rw [List.append_nil] at hstamp'
    rw [pesHeader_dts h hdts, PesHeader.read, hread _ (by decide), bitsOf_append]
    simp only [pesFields, List.map_cons, List.map_nil, hid, hlen, hstamp]
    rw [if_pos (by decide), Option.bind_eq_bind, Option.bind_some, hstamp']
    simp only [pesHeaderOf, if_neg hdts]
    rfl

theorem put_of_room {e : MpegPsEnc} (h : e.psBuffer.length < psCache) (bytes : List UInt8) :
    e.put bytes = (0, { e with psBuffer := e.psBuffer ++ bytes }) :=
  if_neg (Nat.not_le.mpr h)

/-- **Headers.** What a reader finds in the headers: 33 bits of SCR, PTS and DTS, 22 bits of the rate, and all the bits
that are fixed. -/
theorem headers_read {e : MpegPsEnc} (hroom : e.psBuffer.length < psCache) {pts : UInt64}
    (hpts : pts ≠ invalidTimestamp) (dts : UInt64) (unDataSize : Nat) (id : UInt8) :
    (∃ bytes, e.writePSHeader = (0, { e with psBuffer := e.psBuffer ++ bytes }) ∧
      PackHeader.read bytes = some
        { startCode := 0x1ba
          fixedBits := 1
          scrBase := e.ullScr.toNat % 2 ^ 33
          scrExt := 0
          muxRate := e.unMuxRate.toNat % 2 ^ 22
          markers := [1, 1, 1, 1, 1, 1] }) ∧
    (∃ bytes, e.writeSysHeader = (0, { e with psBuffer := e.psBuffer ++ bytes }) ∧
      SystemHeader.read bytes = some
        { startCode := 0x1bb, headerLength := 6, rateBound := e.unMuxRate.toNat % 2 ^ 22, markers := [1, 1, 1] }) ∧
    ∃ bytes, e.writePESHeader unDataSize id pts dts = (0, { e with psBuffer := e.psBuffer ++ bytes }) ∧
      PesHeader.read bytes = some
        { startCode := 1
          streamId := id.toNat
          packetLength := (3 + (if dts = invalidTimestamp then 5 else 10) + UInt16.ofNat unDataSize).toNat
          fixedBits := 2
          headerLength := if dts = invalidTimestamp then 5 else 10
          pts := some ⟨if dts = invalidTimestamp then 2 else 3, pts.toNat % 2 ^ 33, [1, 1, 1]⟩
          dts := if dts = invalidTimestamp then none else some ⟨1, dts.toNat % 2 ^ 33, [1, 1, 1]⟩ } := by
  refine ⟨⟨_, put_of_room hroom _, read_psHeader _ _⟩, ⟨_, put_of_room hroom _, read_sysHeader _⟩, ?_⟩
  have hguard : ¬ (invalidTimestamp = pts ∧ invalidTimestamp ≠ dts) := fun h => hpts h.1.symm
  refine ⟨_, (if_neg hguard).trans (put_of_room hroom _), ?_⟩
  exact read_pesHeader hpts unDataSize id dts

theorem headers_read_init :
    ∃ bytes, init.writePESHeader 5 videoStreamId 0x1ffffffff 7 = (0, { init with psBuffer := init.psBuffer ++ bytes }) ∧
      PesHeader.read bytes = some
        { startCode := 1
          streamId := 0xe0
          packetLength := 18
          fixedBits := 2
          headerLength := 10
          pts := some ⟨3, 2 ^ 33 - 1, [1, 1, 1]⟩
          dts := some ⟨1, 7, [1, 1, 1]⟩ } :=
  (headers_read (show init.psBuffer.length < psCache by decide)
    (show (0x1ffffffff : UInt64) ≠ invalidTimestamp by decide) 7 5 videoStreamId).2.2

end MpegPsEnc

end AllCamera
