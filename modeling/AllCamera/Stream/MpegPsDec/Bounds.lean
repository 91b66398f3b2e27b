import AllCamera.Stream.MpegPsDec.Termination

/-!
# What unpacking reads and writes

The checks compare with `m_ulCurMediaLen`, which is what is left of the input only until the first
byte that is skipped or the first PES packet; and nothing compares the lengths of a PES packet with
each other, with the input or with the buffer.

* `Touch`: a read, a copy or a subtraction. `Scan.touches`: those of a turn.
* `TurnFits`: the lengths fit in the state before a turn. `turnFits_of_fresh`: before anything is stale
  only those of a PES packet have to.
* `inBounds_iff`: everything that a call touches is in bounds exactly if that is so in every turn.
-/

namespace AllCamera.MpegPsDec

/-! ## Touches -/

/-- The bytes of the input that are read, from an offset on; the bytes of `pBuffer` that are written;
or the two sides of a subtraction of lengths. -/
inductive Touch where
  | read (pos len : Nat)
  | copy (pos len : Nat)
  | sub (a b : Nat)
  deriving DecidableEq, Repr

/-- Inside of `n` bytes of input, inside of the buffer, or not below zero. -/
def Touch.Safe (n : Nat) : Touch → Prop
  | .read pos len => len = 0 ∨ pos + len ≤ n
  | .copy pos len => pos + len ≤ maxBufferLen
  | .sub a b => b ≤ a

namespace Scan

variable (m : Memory) (s : Scan)

/-- The three bytes of `PS_STARTCODE` are in front. -/
def atStartcode : Prop := s.byte m 0 = 0 ∧ s.byte m 1 = 0 ∧ s.byte m 2 = 1

instance : Decidable (s.atStartcode m) := inferInstanceAs (Decidable (_ ∧ _))

/-- `usPackLen`. -/
def usPackLen : Nat := (be16 (s.byte m 4) (s.byte m 5)).toNat

/-- `usHeadLen`. -/
def usHeadLen : Nat := (s.byte m 8).toNat

/-- In `getStartCode`. -/
def touchesStartCode : List Touch :=
  if s.ulCurMediaLen.toNat < psStartcodeLen then []
  else .read s.curMediaData 3 :: if s.atStartcode m then [.read (s.curMediaData + 3) 1] else []

/-- In `StripPSHeader`. -/
def touchesPSHeader : List Touch :=
  if s.ulCurMediaLen.toNat < psHeadLen then [] else [.read (s.curMediaData + 13) 1]

/-- In `StripSysHeader` and `StripPsmPacket`. -/
def touchesSysHeader : List Touch :=
  if s.ulCurMediaLen.toNat < headLenMin then [] else [.read (s.curMediaData + 4) 2]

/-- In `StripPESHeader`. -/
def touchesPESHeader : List Touch :=
  if s.ulCurMediaLen.toNat < headLenMin then []
  else
    [.read (s.curMediaData + 4) 2, .read (s.curMediaData + 8) 1,
      .sub (s.usPackLen m) (3 + s.usHeadLen m)]

/-- In the case of a PES packet. -/
def touchesCollect : List Touch :=
  s.touchesPESHeader m ++
    match s.stripPESHeader m with
    | none => []
    | some s =>
      if s.pBuffer.length < maxBufferLen then
        [.read s.curMediaData s.ulCurMediaLen.toNat, .copy s.pBuffer.length s.ulCurMediaLen.toNat]
      else []

/-- In the `switch`. -/
def touchesDispatch : List Touch :=
  if s.unStartCode = packStartCode then s.touchesPSHeader
  else if s.unStartCode = systemHeaderStartCode then s.touchesSysHeader
  else if s.unStartCode = paddingStream then []
  else if s.unStartCode = privateStream2 then []
  else if s.unStartCode = programStreamMap then s.touchesSysHeader
  else if s.unStartCode = h264PesStreamCode ∨ s.unStartCode = g711PesStreamCode then
    s.touchesCollect m
  else []

/-- In the body of the loop. -/
def touches : List Touch :=
  if s.ulCurMediaLen = 0 then []
  else s.touchesStartCode m ++ { s with unStartCode := s.getStartCode m }.touchesDispatch m

end Scan

/-! ## The condition -/

/-- With `left` bytes of the input left: the fields of a PES header are there, the packet is at least
as long as its header, and its payload is there and fits into the buffer, unless that is full. -/
structure PesFits (m : Memory) (left : Nat) (s : Scan) : Prop where
  header : 9 ≤ left
  payload : 3 + s.usHeadLen m ≤ s.usPackLen m
  input : s.pBuffer.length < maxBufferLen → 3 + s.usHeadLen m < s.usPackLen m →
    6 + s.usPackLen m ≤ left
  buffer : s.pBuffer.length < maxBufferLen →
    s.pBuffer.length + s.usPackLen m ≤ maxBufferLen + 3 + s.usHeadLen m

/-- Where the code finds enough bytes by `m_ulCurMediaLen`, they are there. -/
structure TurnFits (m : Memory) (n : Nat) (s : Scan) : Prop where
  startCode : psStartcodeLen ≤ s.ulCurMediaLen.toNat →
    s.curMediaData + 3 ≤ n ∧ (s.atStartcode m → s.curMediaData + psStartcodeLen ≤ n)
  pack : s.getStartCode m = packStartCode → psHeadLen ≤ s.ulCurMediaLen.toNat →
    s.curMediaData + psHeadLen ≤ n
  header : s.getStartCode m = systemHeaderStartCode ∨ s.getStartCode m = programStreamMap →
    headLenMin ≤ s.ulCurMediaLen.toNat → s.curMediaData + headLenMin ≤ n
  pes : s.getStartCode m = h264PesStreamCode ∨ s.getStartCode m = g711PesStreamCode →
    headLenMin ≤ s.ulCurMediaLen.toNat → PesFits m (n - s.curMediaData) s

variable {m : Memory} {n : Nat} {ts : UInt32} {s : Scan}

/-- As long as `m_ulCurMediaLen` is not more than what is left, only PES packets have to fit. -/
theorem turnFits_of_fresh (h : s.curMediaData + s.ulCurMediaLen.toNat ≤ n) : TurnFits m n s ↔
    (s.getStartCode m = h264PesStreamCode ∨ s.getStartCode m = g711PesStreamCode →
      headLenMin ≤ s.ulCurMediaLen.toNat → PesFits m (n - s.curMediaData) s) :=
  ⟨TurnFits.pes, fun hpes => ⟨fun hlen => ⟨by unfold psStartcodeLen at hlen; omega, fun _ => by omega⟩,
    fun _ _ => by omega, fun _ _ => by omega, hpes⟩⟩

theorem safe_startCode : (∀ t ∈ s.touchesStartCode m, t.Safe n) ↔
    (psStartcodeLen ≤ s.ulCurMediaLen.toNat →
      s.curMediaData + 3 ≤ n ∧ (s.atStartcode m → s.curMediaData + psStartcodeLen ≤ n)) := by
  unfold Scan.touchesStartCode psStartcodeLen
  split_ifs with hlen hcode
  · exact iff_of_true (by simp) fun h => by omega
  · simp only [List.forall_mem_cons, List.not_mem_nil, false_imp_iff, implies_true, Touch.Safe, hcode,
      true_imp_iff, and_true]
    omega
  · simp only [List.forall_mem_cons, List.not_mem_nil, false_imp_iff, implies_true, Touch.Safe, hcode,
      and_true]
    omega

theorem safe_psHeader : (∀ t ∈ s.touchesPSHeader, t.Safe n) ↔
    (psHeadLen ≤ s.ulCurMediaLen.toNat → s.curMediaData + psHeadLen ≤ n) := by
  unfold Scan.touchesPSHeader psHeadLen
  split_ifs with hlen
  · exact iff_of_true (by simp) fun h => by omega
  · simp only [List.forall_mem_cons, List.not_mem_nil, false_imp_iff, implies_true, Touch.Safe, and_true]
    omega

theorem safe_sysHeader : (∀ t ∈ s.touchesSysHeader, t.Safe n) ↔
    (headLenMin ≤ s.ulCurMediaLen.toNat → s.curMediaData + headLenMin ≤ n) := by
  unfold Scan.touchesSysHeader headLenMin
  split_ifs with hlen
  · exact iff_of_true (by simp) fun h => by omega
  · simp only [List.forall_mem_cons, List.not_mem_nil, false_imp_iff, implies_true, Touch.Safe, and_true]
    omega

/-- The length behind a PES header, when it is not below zero. -/
theorem payloadLength (h : 3 + s.usHeadLen m ≤ s.usPackLen m) :
    ((be16 (s.byte m 4) (s.byte m 5)).toUInt32 - (3 + (s.byte m 8).toUInt32)).toNat =
      s.usPackLen m - (3 + s.usHeadLen m) := by
  unfold Scan.usHeadLen Scan.usPackLen at *
  have hpack := (be16 (s.byte m 4) (s.byte m 5)).toNat_lt
  have hhead := (s.byte m 8).toNat_lt
  rw [UInt32.toNat_sub, UInt32.toNat_add, UInt16.toNat_toUInt32, UInt8.toNat_toUInt32]
  simp only [UInt32.reduceToNat]
  omega

theorem safe_collect (hcur : s.curMediaData < n) : (∀ t ∈ s.touchesCollect m, t.Safe n) ↔
    (headLenMin ≤ s.ulCurMediaLen.toNat → PesFits m (n - s.curMediaData) s) := by
  unfold Scan.touchesCollect Scan.touchesPESHeader Scan.stripPESHeader
  by_cases hlen : s.ulCurMediaLen.toNat < headLenMin
  · rw [if_pos hlen, if_pos hlen]
    exact iff_of_true (by simp) fun h => absurd hlen (by omega)
  · rw [if_neg hlen, if_neg hlen]
    have hmin : headLenMin ≤ s.ulCurMediaLen.toNat := by omega
    simp only [hmin, true_imp_iff, List.forall_mem_append, List.forall_mem_cons, List.not_mem_nil,
      false_imp_iff, implies_true, Touch.Safe, and_true]
    by_cases hpay : 3 + s.usHeadLen m ≤ s.usPackLen m
    · rw [payloadLength hpay]
      by_cases hroom : s.pBuffer.length < maxBufferLen
      · simp only [hroom, if_true, List.forall_mem_cons, List.not_mem_nil, false_imp_iff, implies_true,
          and_true]
        constructor
        · intro h
          exact ⟨by omega, hpay, fun _ hlt => by unfold Scan.usHeadLen at *; omega,
            fun _ => by omega⟩
        · rintro ⟨hheader, -, hinput, hbuffer⟩
          have := hinput hroom
          have := hbuffer hroom
          unfold Scan.usHeadLen at *
          omega
      · simp only [hroom, if_false, List.not_mem_nil, false_imp_iff, implies_true, and_true]
        constructor
        · intro h
          exact ⟨by omega, hpay, fun h' => absurd h' hroom, fun h' => absurd h' hroom⟩
        · rintro ⟨hheader, -, -, -⟩
          omega
    · exact iff_of_false (fun h => hpay h.1.2.2) fun h => hpay h.payload

/-- **A turn** stays in bounds exactly if the lengths fit. -/
theorem safe_turn (hcur : s.curMediaData < n) (hlen : s.ulCurMediaLen ≠ 0) :
    (∀ t ∈ s.touches m, t.Safe n) ↔ TurnFits m n s := by
  have hcollect := safe_collect (m := m) (s := { s with unStartCode := s.getStartCode m }) hcur
  unfold Scan.touches
  rw [if_neg hlen, List.forall_mem_append, safe_startCode]
  have hcodes : TurnFits m n s ↔ (psStartcodeLen ≤ s.ulCurMediaLen.toNat →
        s.curMediaData + 3 ≤ n ∧ (s.atStartcode m → s.curMediaData + psStartcodeLen ≤ n)) ∧
      (s.getStartCode m = packStartCode → psHeadLen ≤ s.ulCurMediaLen.toNat →
        s.curMediaData + psHeadLen ≤ n) ∧
      (s.getStartCode m = systemHeaderStartCode ∨ s.getStartCode m = programStreamMap →
        headLenMin ≤ s.ulCurMediaLen.toNat → s.curMediaData + headLenMin ≤ n) ∧
      (s.getStartCode m = h264PesStreamCode ∨ s.getStartCode m = g711PesStreamCode →
        headLenMin ≤ s.ulCurMediaLen.toNat → PesFits m (n - s.curMediaData) s) :=
    ⟨fun h => ⟨h.startCode, h.pack, h.header, h.pes⟩, fun h => ⟨h.1, h.2.1, h.2.2.1, h.2.2.2⟩⟩
  rw [hcodes]
  refine and_congr_right fun _ => ?_
  unfold Scan.touchesDispatch
  by_cases hpack : s.getStartCode m = packStartCode
  · rw [if_pos hpack, safe_psHeader, hpack]
    simp [packStartCode, systemHeaderStartCode, programStreamMap, h264PesStreamCode, g711PesStreamCode]
  rw [if_neg hpack]
  by_cases hsys : s.getStartCode m = systemHeaderStartCode
  · rw [if_pos hsys, safe_sysHeader, hsys]
    simp [packStartCode, systemHeaderStartCode, programStreamMap, h264PesStreamCode, g711PesStreamCode]
  rw [if_neg hsys]
  by_cases hskip : s.getStartCode m = paddingStream ∨ s.getStartCode m = privateStream2
  · refine iff_of_true ?_ ?_
    · rcases hskip with h | h <;> simp [h]
    · rcases hskip with h | h <;>
        simp [h, packStartCode, systemHeaderStartCode, programStreamMap, h264PesStreamCode,
          g711PesStreamCode, paddingStream, privateStream2]
  obtain ⟨hpadding, hprivate⟩ := not_or.mp hskip
  rw [if_neg hpadding, if_neg hprivate]
  by_cases hmap : s.getStartCode m = programStreamMap
  · rw [if_pos hmap, safe_sysHeader, hmap]
    simp [packStartCode, systemHeaderStartCode, programStreamMap, h264PesStreamCode, g711PesStreamCode]
  rw [if_neg hmap]
  by_cases hpes : s.getStartCode m = h264PesStreamCode ∨ s.getStartCode m = g711PesStreamCode
  · rw [if_pos hpes, hcollect]
    simp only [hpack, hsys, hmap, hpes, or_self, false_imp_iff, true_imp_iff, true_and]
    exact forall_congr' fun _ => ⟨fun h => ⟨h.header, h.payload, h.input, h.buffer⟩,
      fun h => ⟨h.header, h.payload, h.input, h.buffer⟩⟩
  · rw [if_neg hpes]
    simp [hpack, hsys, hmap, hpes]

/-- **Bounds.** For every input and every length: every byte that the call reads lies in the input,
every copy in the buffer, and no length is below zero, if and only if every turn begins in a state in
which the lengths fit. -/
theorem inBounds_iff (m : Memory) (n : Nat) (ts : UInt32) :
    let s (k : Nat) := (scanStep m n ts)^[k] (Scan.start n)
    (∀ k, Running n (s k) → ∀ t ∈ (s k).touches m, t.Safe n) ↔
      ∀ k, Running n (s k) → (s k).ulCurMediaLen ≠ 0 → TurnFits m n (s k) := by
  intro s
  refine forall_congr' fun k => forall_congr' fun hr => ?_
  by_cases hlen : (s k).ulCurMediaLen = 0
  · unfold Scan.touches
    rw [if_pos hlen]
    exact iff_of_true (by simp) fun h => absurd hlen h
  · rw [safe_turn hr.2 hlen]
    exact ⟨fun h _ => h, fun h => h hlen⟩

/-- Four bytes that are no start code: the third turn looks at the fifth byte. -/
theorem not_inBounds_fourBytes : ¬∀ k, Running 4 ((scanStep (fun _ => 0) 4 0)^[k] (Scan.start 4)) →
    ∀ t ∈ ((scanStep (fun _ => 0) 4 0)^[k] (Scan.start 4)).touches (fun _ => 0), t.Safe 4 := by
  intro h
  have := h 2 (by decide) (.read 2 3) (by decide)
  exact absurd this (by unfold Touch.Safe; decide)

end AllCamera.MpegPsDec
