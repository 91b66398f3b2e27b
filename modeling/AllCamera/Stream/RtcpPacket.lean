import AllCamera.Lib.Field
import AllCamera.Stream.RtpPacket

/-!
# RTCP reports (`CRtcpPacket`)

A report is followed by a packet with the CNAME of the sender. Both are written into the buffer of the caller, member
by member, as a 64-bit machine lays the structures out.

* `createReceiverReport`, `createSenderReport` and `createSdesPacket`.
* `packetOffsets`: the packets that a receiver finds by their lengths; `heldBlocks`: how many blocks one holds.
* `Sound`: what a report should be; `report_sound_iff`: it is so only where the function fails.
-/

namespace AllCamera

/-- `CRtcpPacket`; `strCname` has the bytes of `m_strCname`. -/
structure RtcpPacket where
  unReporterSSRC : UInt32
  unReporteeSSRC : UInt32
  strCname : List UInt8
  ullNtpTime : UInt64

namespace RtcpPacket

/-- `RET_OK`. -/
def retOk : Nat := 0

/-- `RET_FAIL`. -/
def retFail : Nat := 0x10000000

/-- `RTCP_PACKET_VERSION`. -/
def rtcpPacketVersion : Nat := 2

/-- `RTCP_LEN_BASE`. -/
def rtcpLenBase : UInt32 := 4

/-- `RTCP_PACKET_SR`. -/
def rtcpPacketSr : UInt8 := 200

/-- `RTCP_PACKET_RR`. -/
def rtcpPacketRr : UInt8 := 201

/-- `RTCP_PACKET_SDES`. -/
def rtcpPacketSdes : UInt8 := 202

/-- `SDES_TYPE_END`. -/
def sdesTypeEnd : UInt8 := 0

/-- `SDES_TYPE_CNAME`. -/
def sdesTypeCname : UInt8 := 1

/-- `sizeof(RTCP_RR_PACKET)`. -/
def sizeofRr : UInt32 := 32

/-- `sizeof(RTCP_SR_PACKET)`: 28 bytes, and four more because of the 64-bit member. -/
def sizeofSr : UInt32 := 32

/-- `sizeof(RTCP_SDES_PACKET)`. -/
def sizeofSdes : UInt32 := 8

/-- What a function returns and leaves: the buffer, and `reportLength`. -/
structure Report where
  ret : Nat
  buffer : Memory
  reportLength : UInt32

/-- The assignment of `Count`. -/
def setCount (m : Memory) (p : Int) (v : Nat) : Memory :=
  m.write p [.ofNat ((m p).toNat / 32 * 32 + v % 32)]

/-- The assignments to `stHeader`. -/
def setHeader (m : Memory) (p : Int) (packetType : UInt8) (length : UInt32) : Memory :=
  let m := RtpPacket.setVersion m p rtcpPacketVersion
  let m := RtpPacket.setPadding m p 0
  let m := setCount m p 1
  let m := m.write (p + 1) [packetType]
  m.write (p + 2) (be16Bytes length.toUInt16)

variable (p : RtcpPacket)

/-- The length of the SDES packet, before and after it is rounded up. -/
def sdesLen : UInt32 :=
  let unSdesLen := sizeofSdes + .ofNat (1 + 1 + p.strCname.length) + 2
  if unSdesLen % rtcpLenBase ≠ 0 then unSdesLen + (rtcpLenBase - unSdesLen % rtcpLenBase) else unSdesLen

/-- `createSdesPacket`: the buffer begins at `pos`. -/
def createSdesPacket (m : Memory) (pos : Int) (unMaxLength reportLength : UInt32) : Report :=
  if unMaxLength = 0 then ⟨retFail, m, reportLength⟩
  else if unMaxLength < p.sdesLen then ⟨retFail, m, reportLength⟩
  else
    let m := setHeader m pos rtcpPacketSdes (p.sdesLen / rtcpLenBase)
    let m := m.write (pos + 4) (be32Bytes p.unReporterSSRC)
    let m := m.write (pos + 8) [sdesTypeCname]
    let m := m.write (pos + 9) [.ofNat p.strCname.length]
    let m := m.write (pos + 10) p.strCname
    let m := m.write (pos + 10 + p.strCname.length) [sdesTypeEnd]
    let m := m.write (pos + 11 + p.strCname.length) [0]
    ⟨retOk, m, p.sdesLen⟩

/-- The SDES packet behind a report of `size` bytes. -/
def appendSdes (m : Memory) (size unMaxLength : UInt32) : Report :=
  let r := p.createSdesPacket m size.toNat (unMaxLength - size) 0
  if r.ret ≠ retOk then ⟨retFail, r.buffer, 0⟩ else ⟨retOk, r.buffer, size + r.reportLength⟩

/-- `createReceiverReport`. -/
def createReceiverReport (m : Memory) (unMaxLength reportLength : UInt32) : Report :=
  if unMaxLength ≤ sizeofRr then ⟨retFail, m, reportLength⟩
  else
    let m := setHeader m 0 rtcpPacketRr (sizeofRr / rtcpLenBase - 1)
    let m := m.write 4 (be32Bytes p.unReporterSSRC)
    let m := m.write 8 (be32Bytes p.unReporteeSSRC)
    let m := m.write 16 (be32Bytes 0)
    let m := m.write 28 (be32Bytes 0)
    let m := m.write 20 (be32Bytes 0)
    let m := m.write 24 (be32Bytes 0)
    -- `unLossPercent` and `unLostCount` are parts of one word
    let m := m.write 12 [0]
    let m := m.write 13 [0, 0, 0]
    let m := m.write 16 (be32Bytes 0)
    p.appendSdes m sizeofRr unMaxLength

/-- `getNtpTimeforRtcp`: the arguments of `htonl` are cut to 32 bits. -/
def getNtpTimeforRtcp : UInt64 :=
  let timestamp : UInt64 := 100
  (htonl ((timestamp &&& 0xffffffff) <<< 32).toUInt32).toUInt64 |||
    (htonl ((timestamp >>> 32) &&& 0xffffffff).toUInt32).toUInt64

/-- `createSenderReport`. -/
def createSenderReport (m : Memory) (unMaxLength reportLength : UInt32) : RtcpPacket × Report :=
  if unMaxLength ≤ sizeofSr then (p, ⟨retFail, m, reportLength⟩)
  else
    let m := setHeader m 0 rtcpPacketSr (sizeofSr / rtcpLenBase - 1)
    let p := if p.ullNtpTime = 0 then { p with ullNtpTime := getNtpTimeforRtcp } else p
    let m := m.write 4 (be32Bytes p.unReporterSSRC)
    let m := m.write 8 (leBytes 8 p.ullNtpTime.toNat)
    let m := m.write 16 (be32Bytes 0)
    let m := m.write 20 (be32Bytes 0)
    let m := m.write 24 (be32Bytes 0)
    (p, p.appendSdes m sizeofSr unMaxLength)

/-! ## What a receiver finds -/

/-- The bytes of a packet, by its length field. -/
def packetSize (m : Memory) (pos : Nat) : Nat := 4 * ((be16 (m (pos + 2)) (m (pos + 3))).toNat + 1)

/-- The packets from `pos` on, where the last one ends at `stop`. -/
def packetOffsets (m : Memory) (stop pos : Nat) : Option (List Nat) :=
  if pos = stop then some []
  else if pos < stop then (packetOffsets m stop (pos + packetSize m pos)).map (pos :: ·)
  else none
termination_by stop - pos
decreasing_by
  unfold packetSize
  omega

/-- The bytes of the items of a chunk, with the zero behind them. -/
def itemsLength : List UInt8 → Option Nat
  | [] => none
  | [t] => if t = sdesTypeEnd then some 1 else none
  | t :: len :: l =>
    if t = sdesTypeEnd then some 1 else (itemsLength (l.drop len.toNat)).map (2 + len.toNat + ·)
termination_by l => l.length
decreasing_by
  simp only [List.length_drop, List.length_cons]
  omega

/-- The chunks of an SDES packet: an SSRC and items, up to the next word. -/
def chunkCount (l : List UInt8) : Option Nat :=
  if l = [] then some 0
  else (itemsLength (l.drop 4)).bind fun n => (chunkCount (l.drop ((4 + n + 3) / 4 * 4))).map (· + 1)
termination_by l.length
decreasing_by
  have := List.length_pos_of_ne_nil ‹_›
  rw [List.length_drop]
  omega

/-- The blocks or chunks for which a packet has room. -/
def heldBlocks (m : Memory) (pos : Nat) : Option Nat :=
  if m (pos + 1) = rtcpPacketRr then some ((packetSize m pos - 8) / 24)
  else if m (pos + 1) = rtcpPacketSr then some ((packetSize m pos - 28) / 24)
  else if m (pos + 1) = rtcpPacketSdes then chunkCount (m.read (pos + 4) (packetSize m pos - 4))
  else none

/-- `Count`. -/
def countOf (m : Memory) (pos : Nat) : Nat := (m pos).toNat % 32

/-- The two reports. -/
inductive ReportKind where
  | receiver
  | sender
  deriving DecidableEq, Repr

/-- `PacketType` of the report. -/
def ReportKind.packetType : ReportKind → UInt8
  | .receiver => rtcpPacketRr
  | .sender => rtcpPacketSr

/-- The report of a kind. -/
def create (kind : ReportKind) (m : Memory) (unMaxLength reportLength : UInt32) : Report :=
  match kind with
  | .receiver => p.createReceiverReport m unMaxLength reportLength
  | .sender => (p.createSenderReport m unMaxLength reportLength).2

/-- What a report in a buffer with the bytes `m` should be: where `RET_OK` is returned, the report and the SDES packet
and nothing else are found by their lengths, each counts the blocks that it holds, and no byte is left from before;
and nothing is written behind `unMaxLength`. -/
structure Sound (kind : ReportKind) (m : Memory) (unMaxLength reportLength : UInt32) : Prop where
  walk : let r := p.create kind m unMaxLength reportLength
    r.ret = retOk → packetOffsets r.buffer r.reportLength.toNat 0 = some [0, 32] ∧
      r.buffer 1 = kind.packetType ∧ r.buffer 33 = rtcpPacketSdes
  count : let r := p.create kind m unMaxLength reportLength
    r.ret = retOk → ∀ pos ∈ [0, 32], heldBlocks r.buffer pos = some (countOf r.buffer pos)
  fixed : let r := p.create kind m unMaxLength reportLength
    r.ret = retOk → ∀ m', (p.create kind m' unMaxLength reportLength).buffer.read 0 r.reportLength.toNat =
      r.buffer.read 0 r.reportLength.toNat
  inside : ∀ i : Int, unMaxLength.toNat ≤ i → (p.create kind m unMaxLength reportLength).buffer i = m i

/-! ## What is written -/

/-- Writes one after another. -/
def stored (m : Memory) (writes : List (Int × List UInt8)) : Memory := writes.foldl (fun m w => m.write w.1 w.2) m

theorem stored_outside {writes : List (Int × List UInt8)} {lo hi i : Int} (hi' : i < lo ∨ hi ≤ i) (m : Memory)
    (h : ∀ w ∈ writes, lo ≤ w.1 ∧ w.1 + w.2.length ≤ hi) : stored m writes i = m i := by
  induction writes generalizing m with
  | nil => rfl
  | cons w writes ih =>
    obtain ⟨hlo, hhi⟩ := h w List.mem_cons_self
    rw [stored, List.foldl_cons]
    refine (ih (m.write w.1 w.2) fun w' hw' => h w' (List.mem_cons_of_mem _ hw')).trans ?_
    rcases hi' with hlt | hge
    · exact Memory.write_of_lt (by omega)
    · exact Memory.write_of_ge (by omega)

theorem setHeader_outside {i pos : Int} (h : i < pos ∨ pos + 4 ≤ i) (m : Memory) (packetType : UInt8)
    (length : UInt32) : setHeader m pos packetType length i = m i := by
  unfold setHeader RtpPacket.setVersion RtpPacket.setPadding setCount
  refine @stored_outside [(pos, _), (pos, _), (pos, _), (pos + 1, [packetType]),
    (pos + 2, be16Bytes length.toUInt16)] _ _ _ h m ?_
  simp [be16Bytes]
  omega

theorem be16_write (m : Memory) (pos : Int) (v : UInt16) :
    be16 (m.write pos (be16Bytes v) pos) (m.write pos (be16Bytes v) (pos + 1)) = v := by
  have hhigh : m.write pos (be16Bytes v) (pos + (0 : Nat)) = (be16Bytes v).getD 0 0 :=
    Memory.write_at (show 0 < 2 by decide)
  have hlow : m.write pos (be16Bytes v) (pos + (1 : Nat)) = (be16Bytes v).getD 1 0 :=
    Memory.write_at (show 1 < 2 by decide)
  rw [Int.natCast_zero, Int.add_zero] at hhigh
  rw [hhigh]
  exact (congrArg (be16 _) hlow).trans (be16_be16Bytes v)

theorem length_setHeader (m : Memory) (pos : Int) (packetType : UInt8) (length : UInt32) :
    be16 (setHeader m pos packetType length (pos + 2)) (setHeader m pos packetType length (pos + 3)) =
      length.toUInt16 := by
  have h3 : pos + 3 = pos + 2 + 1 := by omega
  rw [h3]
  exact be16_write _ (pos + 2) _

theorem toNat_sdesLen (h : p.strCname.length ≤ 255) : p.sdesLen.toNat = (p.strCname.length + 15) / 4 * 4 := by
  have hlen : (sizeofSdes + .ofNat (1 + 1 + p.strCname.length) + 2 : UInt32).toNat = p.strCname.length + 12 := by
    simp only [sizeofSdes, UInt32.toNat_add, UInt32.toNat_ofNat', UInt32.reduceToNat]
    omega
  unfold sdesLen
  dsimp only
  generalize (sizeofSdes + .ofNat (1 + 1 + p.strCname.length) + 2 : UInt32) = n at hlen
  have hmod : (n % rtcpLenBase).toNat = n.toNat % 4 := UInt32.toNat_mod _ _
  have hzero : n % rtcpLenBase = 0 ↔ n.toNat % 4 = 0 := by
    rw [← UInt32.toNat_inj, hmod]
    rfl
  split_ifs with h4
  · rw [ne_eq, hzero] at h4
    have hle : n % rtcpLenBase ≤ rtcpLenBase := by
      rw [UInt32.le_iff_toNat_le, hmod]
      exact (Nat.mod_lt n.toNat (show 0 < 4 by decide)).le
    have hbase : rtcpLenBase.toNat = 4 := rfl
    rw [UInt32.toNat_add, UInt32.toNat_sub_of_le _ _ hle, hmod, hbase]
    omega
  · rw [not_not, hzero] at h4
    omega

/-! ## The two outcomes -/

variable {p} {kind : ReportKind} {m : Memory} {unMaxLength reportLength : UInt32}

/-- Without room for the SDES packet the report alone is left in the buffer. -/
theorem appendSdes_fail {size : UInt32} (hsize : size < unMaxLength)
    (h : unMaxLength.toNat < size.toNat + p.sdesLen.toNat) : p.appendSdes m size unMaxLength = ⟨retFail, m, 0⟩ := by
  have hlt := UInt32.lt_iff_toNat_lt.mp hsize
  have hsub : (unMaxLength - size).toNat = unMaxLength.toNat - size.toNat :=
    UInt32.toNat_sub_of_le _ _ (UInt32.le_iff_toNat_le.mpr hlt.le)
  have hpos : unMaxLength - size ≠ 0 := fun hzero => by
    rw [hzero] at hsub
    exact absurd hsub (by simp; omega)
  have hroom : unMaxLength - size < p.sdesLen := UInt32.lt_iff_toNat_lt.mpr (by omega)
  unfold appendSdes createSdesPacket
  rw [if_neg hpos, if_pos hroom]
  rfl

/-- With room for it the SDES packet is written, but for the bytes behind the second zero. -/
theorem appendSdes_ok {size : UInt32} (hcname : p.strCname.length ≤ 255)
    (h : size.toNat + p.sdesLen.toNat ≤ unMaxLength.toNat) (m : Memory) :
    ∃ m', p.appendSdes m size unMaxLength = ⟨retOk, m', size + p.sdesLen⟩ ∧
      be16 (m' (size.toNat + 2)) (m' (size.toNat + 3)) = (p.sdesLen / rtcpLenBase).toUInt16 ∧
      (∀ i : Int, i < size.toNat → m' i = m i) ∧
      ∀ i : Int, size.toNat + p.strCname.length + 12 ≤ i → m' i = m i := by
  have hlen := toNat_sdesLen p hcname
  have hsub : (unMaxLength - size).toNat = unMaxLength.toNat - size.toNat :=
    UInt32.toNat_sub_of_le _ _ (UInt32.le_iff_toNat_le.mpr (by omega))
  have hpos : unMaxLength - size ≠ 0 := fun hzero => by
    rw [hzero] at hsub
    exact absurd hsub (by simp; omega)
  have hroom : ¬ unMaxLength - size < p.sdesLen := fun hlt => by
    have := UInt32.lt_iff_toNat_lt.mp hlt
    omega
  let pos : Int := size.toNat
  let writes : List (Int × List UInt8) :=
    [(pos + 4, be32Bytes p.unReporterSSRC), (pos + 8, [sdesTypeCname]), (pos + 9, [.ofNat p.strCname.length]),
      (pos + 10, p.strCname), (pos + 10 + p.strCname.length, [sdesTypeEnd]), (pos + 11 + p.strCname.length, [0])]
  have hwrites : ∀ w ∈ writes, pos + 4 ≤ w.1 ∧ w.1 + w.2.length ≤ pos + p.strCname.length + 12 := by
    simp only [writes, List.forall_mem_cons, List.not_mem_nil, false_imp_iff, implies_true, and_true, be32Bytes,
      List.length_cons, List.length_nil]
    omega
  let m₁ := setHeader m pos rtcpPacketSdes (p.sdesLen / rtcpLenBase)
  refine ⟨stored m₁ writes, ?_, ?_, fun i hi => ?_, fun i hi => ?_⟩
  · unfold appendSdes createSdesPacket
    rw [if_neg hpos, if_neg hroom]
    rfl
  · rw [stored_outside (.inl (show pos + 2 < pos + 4 by omega)) _ hwrites,
      stored_outside (.inl (show pos + 3 < pos + 4 by omega)) _ hwrites]
    exact length_setHeader m pos _ _
  · rw [stored_outside (.inl (show i < pos + 4 by omega)) _ hwrites]
    exact setHeader_outside (.inl hi) _ _ _
  · rw [stored_outside (.inr hi) _ hwrites]
    exact setHeader_outside (.inr (show pos + 4 ≤ i by omega)) _ _ _

/-- The report itself is written into the first 32 bytes, and its length field is right. -/
theorem create_eq (p : RtcpPacket) (kind : ReportKind) (m : Memory) (unMaxLength reportLength : UInt32) :
    (unMaxLength ≤ 32 → p.create kind m unMaxLength reportLength = ⟨retFail, m, reportLength⟩) ∧
    ∃ m₁, (¬ unMaxLength ≤ 32 → p.create kind m unMaxLength reportLength = p.appendSdes m₁ 32 unMaxLength) ∧
      be16 (m₁ 2) (m₁ 3) = 7 ∧ ∀ i : Int, i < 0 ∨ 32 ≤ i → m₁ i = m i := by
  cases kind with
  | receiver =>
    let writes : List (Int × List UInt8) :=
      [(4, be32Bytes p.unReporterSSRC), (8, be32Bytes p.unReporteeSSRC), (16, be32Bytes 0), (28, be32Bytes 0),
        (20, be32Bytes 0), (24, be32Bytes 0), (12, [0]), (13, [0, 0, 0]), (16, be32Bytes 0)]
    have hwrites : ∀ w ∈ writes, 4 ≤ w.1 ∧ w.1 + w.2.length ≤ 32 := by
      simp [writes, be32Bytes]
    let m₀ := setHeader m 0 rtcpPacketRr (sizeofRr / rtcpLenBase - 1)
    refine ⟨fun h => if_pos h, stored m₀ writes, fun h => if_neg h, ?_, fun i hi => ?_⟩
    · rw [stored_outside (.inl (by decide)) _ hwrites, stored_outside (.inl (by decide)) _ hwrites]
      exact length_setHeader m 0 _ _
    · rw [stored_outside (hi.imp (fun h => show i < 4 by omega) id) _ hwrites]
      exact setHeader_outside (by omega) _ _ _
  | sender =>
    let p' : RtcpPacket := if p.ullNtpTime = 0 then { p with ullNtpTime := getNtpTimeforRtcp } else p
    have hp' : p'.appendSdes = p.appendSdes := by
      unfold p'
      split_ifs <;> rfl
    let writes : List (Int × List UInt8) :=
      [(4, be32Bytes p'.unReporterSSRC), (8, leBytes 8 p'.ullNtpTime.toNat), (16, be32Bytes 0), (20, be32Bytes 0),
        (24, be32Bytes 0)]
    have hwrites : ∀ w ∈ writes, 4 ≤ w.1 ∧ w.1 + w.2.length ≤ 32 := by
      simp [writes, be32Bytes]
    let m₀ := setHeader m 0 rtcpPacketSr (sizeofSr / rtcpLenBase - 1)
    refine ⟨fun h => congrArg Prod.snd (if_pos h), stored m₀ writes,
      fun h => (congrArg Prod.snd (if_neg h)).trans (congrFun (congrFun (congrFun hp' _) _) _), ?_, fun i hi => ?_⟩
    · rw [stored_outside (.inl (by decide)) _ hwrites, stored_outside (.inl (by decide)) _ hwrites]
      exact length_setHeader m 0 _ _
    · rw [stored_outside (hi.imp (fun h => show i < 4 by omega) id) _ hwrites]
      exact setHeader_outside (by omega) _ _ _

/-- Where the SDES packet has no room, the function fails and stays inside of the buffer. -/
theorem sound_of_lt (hcname : p.strCname.length ≤ 255)
    (h : unMaxLength.toNat < 32 + (p.strCname.length + 15) / 4 * 4) :
    p.Sound kind m unMaxLength reportLength := by
  obtain ⟨hshort, m₁, hlong, -, hkeep⟩ := create_eq p kind m unMaxLength reportLength
  obtain ⟨m', len, hcreate, hinside⟩ : ∃ m' len, p.create kind m unMaxLength reportLength = ⟨retFail, m', len⟩ ∧
      ∀ i : Int, unMaxLength.toNat ≤ i → m' i = m i := by
    by_cases hle : unMaxLength ≤ 32
    · exact ⟨m, reportLength, hshort hle, fun _ _ => rfl⟩
    · have hlt : (32 : UInt32) < unMaxLength := UInt32.not_le.mp hle
      have hlt' : 32 < unMaxLength.toNat := UInt32.lt_iff_toNat_lt.mp hlt
      refine ⟨m₁, 0, (hlong hle).trans (appendSdes_fail hlt ?_), fun i hi => hkeep i (.inr (by omega))⟩
      rw [toNat_sdesLen p hcname]
      exact h
  have hret : ¬ retFail = retOk := by decide
  constructor <;> rw [hcreate]
  · exact fun hok => absurd hok hret
  · exact fun hok => absurd hok hret
  · exact fun hok => absurd hok hret
  · exact hinside

/-- Where it has room, the report is made. The length of the SDES packet is its words, without the `- 1`, and behind its
second zero nothing is written. -/
theorem create_ok (hcname : p.strCname.length ≤ 255)
    (h : 32 + (p.strCname.length + 15) / 4 * 4 ≤ unMaxLength.toNat) (kind : ReportKind) (m : Memory)
    (reportLength : UInt32) :
    ∃ m', p.create kind m unMaxLength reportLength = ⟨retOk, m', 32 + p.sdesLen⟩ ∧
      be16 (m' 2) (m' 3) = 7 ∧ be16 (m' 34) (m' 35) = (p.sdesLen / rtcpLenBase).toUInt16 ∧
      ∀ i : Int, 32 + p.strCname.length + 12 ≤ i → m' i = m i := by
  obtain ⟨-, m₁, hlong, hsize, hkeep⟩ := create_eq p kind m unMaxLength reportLength
  have hle : ¬ unMaxLength ≤ 32 := fun hle => by
    have := UInt32.le_iff_toNat_le.mp hle
    have : (32 : UInt32).toNat = 32 := rfl
    omega
  obtain ⟨m', happend, hsdes, hfront, hbehind⟩ := appendSdes_ok hcname
    (show (32 : UInt32).toNat + p.sdesLen.toNat ≤ unMaxLength.toNat by rw [toNat_sdesLen p hcname]; exact h) m₁
  refine ⟨m', (hlong hle).trans happend, ?_, hsdes, fun i hi => ?_⟩
  · rw [hfront 2 (by decide), hfront 3 (by decide), hsize]
  · rw [hbehind i hi]
    exact hkeep i (.inr (by omega))

/-- Where it has room, the length of the SDES packet leads behind the end of the report. -/
theorem not_sound_of_le (hcname : p.strCname.length ≤ 255)
    (h : 32 + (p.strCname.length + 15) / 4 * 4 ≤ unMaxLength.toNat) :
    ¬ p.Sound kind m unMaxLength reportLength := by
  obtain ⟨m', hcreate, hreport, hsdes, -⟩ := create_ok hcname h kind m reportLength
  have hlen := toNat_sdesLen p hcname
  have hstop : (32 + p.sdesLen).toNat = 32 + p.sdesLen.toNat := by
    have h32 : (32 : UInt32).toNat = 32 := rfl
    rw [UInt32.toNat_add, h32]
    omega
  have hfirst : packetSize m' 0 = 32 := by
    show 4 * ((be16 (m' 2) (m' 3)).toNat + 1) = 32
    rw [hreport]
    rfl
  have hsecond : packetSize m' 32 = p.sdesLen.toNat + 4 := by
    have hword : (p.sdesLen / rtcpLenBase).toUInt16.toNat = p.sdesLen.toNat / 4 := by
      rw [UInt32.toNat_toUInt16, UInt32.toNat_div, show rtcpLenBase.toNat = 4 from rfl]
      omega
    show 4 * ((be16 (m' 34) (m' 35)).toNat + 1) = p.sdesLen.toNat + 4
    rw [hsdes, hword]
    omega
  intro hsound
  have hwalk := hsound.walk
  rw [hcreate] at hwalk
  obtain ⟨hwalk, -, -⟩ := hwalk rfl
  -- the packets at 0 and at 32, and none behind them that ends where the report ends
  rw [hstop, packetOffsets, if_neg (by omega), if_pos (by omega), hfirst, packetOffsets, if_neg (by omega),
    if_pos (by omega), hsecond, packetOffsets, if_neg (by omega), if_neg (by omega)] at hwalk
  exact absurd hwalk nofun

/-- **Reports.** A report is as it should be exactly if the buffer has no room for it and none is made. -/
theorem report_sound_iff (p : RtcpPacket) (hcname : p.strCname.length ≤ 255) (kind : ReportKind) (m : Memory)
    (unMaxLength reportLength : UInt32) :
    p.Sound kind m unMaxLength reportLength ↔ unMaxLength.toNat < 32 + (p.strCname.length + 15) / 4 * 4 :=
  ⟨fun hsound => Nat.lt_of_not_le fun hle => not_sound_of_le hcname hle hsound, sound_of_lt hcname⟩

/-- "stream@1.2.3.4". -/
def sampleCname : List UInt8 := [115, 116, 114, 101, 97, 109, 64, 49, 46, 50, 46, 51, 46, 52]

theorem report_sound_short :
    (59 : UInt32).toNat < 32 + 28 ∧ (⟨1, 2, sampleCname, 0⟩ : RtcpPacket).Sound .receiver (fun _ => 0) 59 0 :=
  ⟨by decide, (report_sound_iff ⟨1, 2, sampleCname, 0⟩ (by decide) .receiver (fun _ => 0) 59 0).mpr (by decide)⟩

/-- A receiver report for that name, in a buffer with room for it. -/
theorem not_sound_report : ¬ ∀ (p : RtcpPacket) (kind : ReportKind) (m : Memory) (unMaxLength reportLength : UInt32),
    p.strCname.length ≤ 255 → p.Sound kind m unMaxLength reportLength := by
  intro h
  have hsound := h ⟨1, 2, sampleCname, 0⟩ .receiver (fun _ => 0) 1020 0 (by decide)
  exact not_sound_of_le (by decide) (by decide) hsound

end RtcpPacket

end AllCamera
