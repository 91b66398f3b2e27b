import AllCamera.Stream.RtpPacket
import Mathlib.Tactic.SplitIfs

/-!
# The header that `CRtpPacket` reads and writes

* `announcedHead`: the fixed header, the CSRC list and the extension header with its words, as the packet declares them.
  `parsePacket_iff`: `ParsePacket` accepts a packet of version 2 that holds this header, and no other;
  `parsePacket_headLen_eq`: its length is the one that `GetHeadLen` returns.
* `Setter`: the setters of the five fields. On the bytes of a header, a setter is an update of the record
  (`Setter.run_holds`), so that what was set last is read (`parsePacket_set`).
-/

namespace AllCamera.RtpPacket

/-! ## What is accepted -/

variable {m : Memory} {p : Int} {len tail reach : Nat}

/-- The header that the first byte announces, with the extension. -/
def announcedHead (m : Memory) (p : Int) : Nat :=
  let headLen := fixedHeader + csrcLen m p * 4
  if extension m p = 1 then
    headLen + 4 + (be16 (m (p + headLen + 2)) (m (p + headLen + 3))).toNat * 4
  else headLen

/-- The packet is accepted if it has version 2 and its header. -/
theorem parseHead_iff : (parseHead m p len tail reach).ret = .ok ↔
    version m p = packetVersion ∧ announcedHead m p ≤ len := by
  unfold parseHead announcedHead
  simp only
  split_ifs <;> simp_all <;> omega

theorem parseHead_headLen_eq (h : (parseHead m p len tail reach).ret = .ok) :
    (parseHead m p len tail reach).headLen = announcedHead m p := by
  revert h
  unfold parseHead announcedHead
  simp only
  split_ifs <;> simp_all

@[simp] theorem parseHead_tailLen (m : Memory) (p : Int) (len tail reach : Nat) :
    (parseHead m p len tail reach).tailLen = tail := by
  unfold parseHead
  simp only
  split_ifs <;> rfl

/-- The byte that keeps the padding bit keeps the other fields when it is cleared. -/
theorem toNat_setPadding (m : Memory) (p : Int) :
    (setPadding m p 0 p).toNat = (m p).toNat / 64 * 64 + (m p).toNat % 32 := by
  have hat : setPadding m p 0 p = .ofNat ((m p).toNat / 64 * 64 + 0 % 2 * 32 + (m p).toNat % 32) := by
    have := Memory.write_at (m := m) (p := p)
      (l := [.ofNat ((m p).toNat / 64 * 64 + 0 % 2 * 32 + (m p).toNat % 32)]) (k := 0) (by simp)
    rwa [Int.natCast_zero, Int.add_zero] at this
  have hlt := (m p).toNat_lt
  rw [hat, UInt8.toNat_ofNat']
  omega

theorem clearPadding_of_ne {i : Int} (h : i ≠ p) : clearPadding m p i = m i := by
  unfold clearPadding
  split
  · have hw : i < p ∨ p + 1 ≤ i := by omega
    rcases hw with hw | hw
    · exact Memory.write_of_lt hw
    · exact Memory.write_of_ge (by simpa using hw)
  · rfl

/-- Without the padding bit the packet announces the same header. -/
theorem clearPadding_same (m : Memory) (p : Int) :
    version (clearPadding m p) p = version m p ∧
      announcedHead (clearPadding m p) p = announcedHead m p := by
  have hcsrc : csrcLen (clearPadding m p) p = csrcLen m p := by
    unfold clearPadding csrcLen
    split
    · rw [toNat_setPadding]
      omega
    · rfl
  have hext : extension (clearPadding m p) p = extension m p := by
    unfold clearPadding extension
    split
    · rw [toNat_setPadding]
      omega
    · rfl
  refine ⟨?_, ?_⟩
  · unfold clearPadding version
    split
    · rw [toNat_setPadding]
      omega
    · rfl
  · unfold announcedHead
    simp only [hcsrc, hext]
    rw [clearPadding_of_ne (by unfold fixedHeader; omega),
      clearPadding_of_ne (by unfold fixedHeader; omega)]

/-- `ParsePacket` accepts a packet of version 2 that is as long as its header. -/
theorem parsePacket_iff : (parsePacket m p len).ret = .ok ↔
    version m p = packetVersion ∧ announcedHead m p ≤ len := by
  obtain ⟨hversion, hhead⟩ := clearPadding_same m p
  have hfixed : fixedHeader ≤ announcedHead m p := by
    unfold announcedHead
    simp only
    split <;> omega
  unfold parsePacket
  split_ifs
  · exact iff_of_false nofun fun h => by omega
  · rw [parseHead_iff, hversion, hhead]
  · rw [parseHead_iff, hversion, hhead]

theorem parsePacket_headLen_eq (h : (parsePacket m p len).ret = .ok) :
    (parsePacket m p len).headLen = announcedHead m p := by
  obtain ⟨-, hhead⟩ := clearPadding_same m p
  revert h
  unfold parsePacket
  split_ifs
  · exact nofun
  · exact fun h => (parseHead_headLen_eq h).trans hhead
  · exact fun h => (parseHead_headLen_eq h).trans hhead

/-- The padding that is found, also by a call that fails. -/
theorem parsePacket_tailLen (m : Memory) (p : Int) (len : Nat) : (parsePacket m p len).tailLen =
    if fixedHeader ≤ len ∧ padding m p = 1 then (m (p + len - 1)).toNat else 0 := by
  unfold parsePacket
  split_ifs <;> simp_all
  all_goals omega

theorem parsePacket_tailLen_lt (m : Memory) (p : Int) (len : Nat) :
    (parsePacket m p len).tailLen < 2 ^ 8 := by
  rw [parsePacket_tailLen]
  split
  · exact UInt8.toNat_lt _
  · decide

/-- Where the CSRC list ends. -/
def csrcEnd (m : Memory) (p : Int) : Nat := fixedHeader + csrcLen m p * 4

/-- The words behind the extension header (`usLength`). -/
def extensionWords (m : Memory) (p : Int) : Nat :=
  (be16 (m (p + csrcEnd m p + 2)) (m (p + csrcEnd m p + 3))).toNat

/-- The packet holds all of its header. The number of words is in the extension header. -/
structure HoldsHeader (m : Memory) (p : Int) (len : Nat) : Prop where
  fixed : fixedHeader ≤ len
  csrc : csrcEnd m p ≤ len
  extend : extension m p = 1 → csrcEnd m p + 4 ≤ len
  words : extension m p = 1 → csrcEnd m p + 4 + extensionWords m p * 4 ≤ len

theorem announcedHead_eq (m : Memory) (p : Int) : announcedHead m p =
    if extension m p = 1 then csrcEnd m p + 4 + extensionWords m p * 4 else csrcEnd m p := rfl

theorem holdsHeader_iff : HoldsHeader m p len ↔ announcedHead m p ≤ len := by
  have hfixed : fixedHeader ≤ csrcEnd m p := Nat.le_add_right _ _
  rw [announcedHead_eq]
  by_cases hext : extension m p = 1
  · rw [if_pos hext]
    exact ⟨fun h => h.words hext, fun h => ⟨by omega, by omega, fun _ => by omega, fun _ => h⟩⟩
  · rw [if_neg hext]
    exact ⟨fun h => h.csrc, fun h => ⟨by omega, h, fun h1 => absurd h1 hext, fun h1 => absurd h1 hext⟩⟩

/-! ## What is set -/

/-- A call of one of the setters. -/
inductive Setter where
  | payloadType (ucPayloadType : UInt8)
  | marker (bMarker : Bool)
  | seqNum (usSeqNum : UInt16)
  | timeStamp (ulTimeStamp : UInt32)
  | ssrc (unSsrc : UInt32)

namespace Setter

/-- The call, on the memory. -/
def call (p : Int) (m : Memory) : Setter → Memory
  | payloadType v => setPayloadType m p v
  | marker v => setMarker m p v
  | seqNum v => setSeqNum m p v
  | timeStamp v => setTimeStamp m p v
  | ssrc v => setSSRC m p v

/-- The call, on the record. -/
def update (h : Head) : Setter → Head
  | payloadType v => { h with payloadType := v }
  | marker v => { h with marker := v }
  | seqNum v => { h with seqNum := v }
  | timeStamp v => { h with timeStamp := v }
  | ssrc v => { h with ssrc := v }

end Setter

/-- The calls, one after the other. -/
def Setter.run (p : Int) (m : Memory) (setters : List Setter) : Memory := setters.foldl (call p) m

/-- What they set. -/
def Setter.updates (h : Head) (setters : List Setter) : Head := setters.foldl update h

/-- What `GeneratePacket` sets. -/
def defaultHead : Head := ⟨96, false, 0, 0, 0⟩

/-- The second byte, of which two setters keep a part. -/
theorem toNat_second (h : Head) : (UInt8.ofNat ((if h.marker then 128 else 0) + h.payloadType.toNat % 128)).toNat =
    (if h.marker then 128 else 0) + h.payloadType.toNat % 128 := by
  rw [UInt8.toNat_ofNat']
  split <;> omega

/-- Where a header is in the memory, a setter is an update of it. -/
theorem Setter.call_write (m : Memory) (p : Int) (h : Head) (s : Setter) :
    s.call p (m.write p h.bytes) = m.write p (s.update h).bytes := by
  cases s with
  | seqNum v => exact write_set m p 2 (by simp [be16Bytes, fixedHeader])
  | timeStamp v => exact write_set m p 4 (by simp [be32Bytes, fixedHeader])
  | ssrc v => exact write_set m p 8 (by simp [be32Bytes, fixedHeader])
  | marker v =>
    simp only [call, setMarker, Head.bytes, update, List.cons_append, List.nil_append, write_second, set_second,
      toNat_second]
    congr 4
    obtain ⟨pt, marker, -, -, -⟩ := h
    cases v <;> cases marker <;> simp
  | payloadType v =>
    simp only [call, setPayloadType, Head.bytes, update, List.cons_append, List.nil_append, write_second, set_second,
      toNat_second]
    congr 4
    obtain ⟨pt, marker, -, -, -⟩ := h
    cases marker <;> simp

theorem Setter.updates_payloadType {h : Head} {setters : List Setter} (hdefault : h.payloadType < 128)
    (hset : ∀ v, .payloadType v ∈ setters → v < 128) : (updates h setters).payloadType < 128 := by
  induction setters generalizing h with
  | nil => exact hdefault
  | cons s setters ih =>
    refine ih ?_ fun v hv => hset v (List.mem_cons_of_mem s hv)
    cases s with
    | payloadType v => exact hset v List.mem_cons_self
    | _ => exact hdefault

theorem Setter.run_write (m : Memory) (p : Int) (h : Head) (setters : List Setter) :
    run p (m.write p h.bytes) setters = m.write p (updates h setters).bytes := by
  induction setters generalizing h with
  | nil => rfl
  | cons s setters ih =>
    rw [run, List.foldl_cons, call_write]
    exact ih (s.update h)

/-- `GeneratePacket` writes a header into a buffer that has room for it. -/
theorem generatePacket_write (m : Memory) (p : Int) {len : Nat} (hlen : fixedHeader ≤ len) :
    generatePacket m p len = (m.write p (List.replicate len 0)).write p defaultHead.bytes := by
  obtain ⟨k, rfl⟩ : ∃ k, len = k + 2 := ⟨len - 2, by rw [fixedHeader] at hlen; omega⟩
  have hwrite := write_set m p (l := List.replicate (k + 2) 0) (c := defaultHead.bytes) 0 (by simpa using hlen)
  have hbytes : defaultHead.bytes = [128, 96] ++ List.replicate 10 0 := rfl
  have hdrop : k + 2 - (0 + fixedHeader) = k - 10 := by rw [fixedHeader]; omega
  have hsum : 10 + (k - 10) = k := by rw [fixedHeader] at hlen; omega
  rw [Int.natCast_zero, Int.add_zero, List.take_zero, List.drop_replicate, Head.length_bytes, hdrop, hbytes,
    List.nil_append, List.append_assoc, List.replicate_append_replicate, hsum] at hwrite
  rw [generatePacket_eq, hbytes]
  exact hwrite.symm

/-- What is read of a header in the memory. -/
theorem get_write (m : Memory) (p : Int) (h : Head) (hpayload : h.payloadType < 128) :
    getPayloadType (m.write p h.bytes) p = h.payloadType ∧ getMarker (m.write p h.bytes) p = h.marker ∧
      getSeqNum (m.write p h.bytes) p = h.seqNum ∧ getTimeStamp (m.write p h.bytes) p = h.timeStamp ∧
        getSSRC (m.write p h.bytes) p = h.ssrc := by
  have hbyte : ∀ k < 12, m.write p h.bytes (p + (k : Nat)) = h.bytes.getD k 0 := fun k hk =>
    Memory.write_at (by rwa [Head.length_bytes])
  have hpt : h.payloadType.toNat < 128 := UInt8.lt_iff_toNat_lt.mp hpayload
  have hsecond : (m.write p h.bytes (p + 1)).toNat = (if h.marker then 128 else 0) + h.payloadType.toNat := by
    rw [show m.write p h.bytes (p + 1) = _ from hbyte 1 (by decide)]
    refine (toNat_second h).trans ?_
    rw [Nat.mod_eq_of_lt hpt]
  refine ⟨?_, ?_, ?_, ?_, ?_⟩
  · unfold getPayloadType
    rw [hsecond]
    apply UInt8.toNat_inj.mp
    rw [UInt8.toNat_ofNat']
    split <;> omega
  · unfold getMarker
    rw [hsecond]
    cases hmarker : h.marker
    · rw [if_neg Bool.false_ne_true, beq_eq_false_iff_ne]
      omega
    · rw [if_pos rfl, beq_iff_eq]
      omega
  · unfold getSeqNum
    rw [show m.write p h.bytes (p + 2) = _ from hbyte 2 (by decide),
      show m.write p h.bytes (p + 3) = _ from hbyte 3 (by decide)]
    exact be16_be16Bytes h.seqNum
  · unfold getTimeStamp
    rw [show m.write p h.bytes (p + 4) = _ from hbyte 4 (by decide),
      show m.write p h.bytes (p + 5) = _ from hbyte 5 (by decide),
      show m.write p h.bytes (p + 6) = _ from hbyte 6 (by decide),
      show m.write p h.bytes (p + 7) = _ from hbyte 7 (by decide)]
    exact be32_be32Bytes h.timeStamp
  · unfold getSSRC
    rw [show m.write p h.bytes (p + 8) = _ from hbyte 8 (by decide),
      show m.write p h.bytes (p + 9) = _ from hbyte 9 (by decide),
      show m.write p h.bytes (p + 10) = _ from hbyte 10 (by decide),
      show m.write p h.bytes (p + 11) = _ from hbyte 11 (by decide)]
    exact be32_be32Bytes h.ssrc

/-- What is set in a generated packet is read when it is parsed: it is accepted, with the fixed header as its head. -/
theorem parsePacket_set (m : Memory) (p : Int) {len : Nat} (hlen : fixedHeader ≤ len) (setters : List Setter)
    (hpayload : (Setter.updates defaultHead setters).payloadType < 128) :
    let r := parsePacket (Setter.run p (generatePacket m p len) setters) p len
    let h := Setter.updates defaultHead setters
    r.ret = .ok ∧ r.headLen = 12 ∧ getPayloadType r.data p = h.payloadType ∧ getMarker r.data p = h.marker ∧
      getSeqNum r.data p = h.seqNum ∧ getTimeStamp r.data p = h.timeStamp ∧ getSSRC r.data p = h.ssrc := by
  rw [generatePacket_write m p hlen, Setter.run_write]
  generalize Setter.updates defaultHead setters = h at hpayload ⊢
  generalize m.write p (List.replicate len 0) = m
  have hfirst : m.write p h.bytes p = 128 := write_first m p 128 _
  rw [parsePacket_plain hfirst hlen]
  exact ⟨rfl, rfl, get_write m p h hpayload⟩

/-- **The header.** For every packet: `ParsePacket` returns `RET_OK` exactly if the version is 2 and the packet holds
the header that it declares, and `GetHeadLen` is then the length of it. And for every buffer of twelve bytes or more
and all calls of the setters after `GeneratePacket`, in any order: it is accepted, the head is twelve bytes long, and
what was set last is read. -/
theorem parsePacket_spec :
    (∀ (m : Memory) (p : Int) (len : Nat),
      ((parsePacket m p len).ret = .ok ↔ version m p = 2 ∧ HoldsHeader m p len) ∧
        ((parsePacket m p len).ret = .ok →
          (parsePacket m p len).headLen = announcedHead m p ∧ announcedHead m p ≤ len)) ∧
      ∀ (m : Memory) (p : Int) (len : Nat) (setters : List Setter), 12 ≤ len →
        (∀ v, .payloadType v ∈ setters → v < 128) →
        let r := parsePacket (Setter.run p (generatePacket m p len) setters) p len
        let h := Setter.updates defaultHead setters
        r.ret = .ok ∧ r.headLen = 12 ∧ getPayloadType r.data p = h.payloadType ∧ getMarker r.data p = h.marker ∧
          getSeqNum r.data p = h.seqNum ∧ getTimeStamp r.data p = h.timeStamp ∧ getSSRC r.data p = h.ssrc := by
  refine ⟨fun m p len => ?_, fun m p len setters hlen hpayload => ?_⟩
  · rw [holdsHeader_iff]
    exact ⟨parsePacket_iff, fun h => ⟨parsePacket_headLen_eq h, (parsePacket_iff.mp h).2⟩⟩
  · exact parsePacket_set m p hlen setters (Setter.updates_payloadType (by decide) hpayload)

/-- A header of which a number and the marker are set, in a buffer of 40 bytes. -/
theorem parsePacket_spec_marker :
    let m := Setter.run 0 (generatePacket (fun _ => 255) 0 40) [.seqNum 65535, .marker true, .seqNum 7]
    (parsePacket m 0 40).ret = .ok ∧ getMarker (parsePacket m 0 40).data 0 = true ∧
      getSeqNum (parsePacket m 0 40).data 0 = 7 := by
  obtain ⟨hret, -, -, hmarker, hseq, -, -⟩ := parsePacket_spec.2 (fun _ => 255) 0 40
    [.seqNum 65535, .marker true, .seqNum 7] (by decide) (by simp)
  exact ⟨hret, hmarker, hseq⟩

end AllCamera.RtpPacket
