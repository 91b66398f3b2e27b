import AllCamera.Record.RecvStream

/-!
# What the functions of the receiver do

* `RecvConfig.Valid`: the configuration, and what follows for the room in a block.
* `enqueueTmpfs_cases`, `combinPacket_cases`, `checkRecordTimeSlice_cases`: the cases of a call, each with
  the state after it.
* `handleInput_eq`: `handle_input` as the size of what is to be received, and a receive.
-/

namespace AllCamera

/-! ## The configuration -/

/-- The configuration as the server reads it: the receive buffer is the stripe with the alignment reserve,
and at most a header of a block; a datagram is a segment with a packet header. -/
structure RecvConfig.Valid (c : RecvConfig) : Prop where
  stripe_min : 128 * 1024 ≤ c.writeMediaDataStripeWidth.toNat
  stripe_max : c.writeMediaDataStripeWidth.toNat ≤ 10 * 1024 * 1024
  reserve : c.writeMediaDataStripeWidth.toNat + svsRecordFileAlignLen.toNat ≤
    c.recvMediaBufferSize.toNat
  buffer : c.recvMediaBufferSize.toNat ≤ c.writeMediaDataStripeWidth.toNat +
    svsRecordFileAlignLen.toNat + recvMediaHeaderSize.toNat
  header : svsStreamDatagramMax = segmentMaxSize + c.headerSize

theorem RecvConfig.Valid.headerSize {c : RecvConfig} (hc : c.Valid) : c.headerSize = 18 := by
  have h := hc.header
  simp only [svsStreamDatagramMax, segmentMaxSize] at h
  grind

@[simp] theorem toNat_align : svsRecordFileAlignLen.toNat = 4096 := rfl

@[simp] theorem toNat_extHeadSize : extHeadSize.toNat = 16 := rfl

@[simp] theorem toNat_recvMediaHeaderSize : recvMediaHeaderSize.toNat = 85 := rfl

theorem nat_and_align {n : Nat} (hn : n < 2 ^ 32) : n &&& 0xfffff000 = n / 4096 * 4096 := by
  apply Nat.eq_of_testBit_eq
  intro i
  have hmask : 0xfffff000 = (2 ^ 20 - 1) * 2 ^ 12 := by decide
  have hdiv : n / 4096 * 4096 = n / 2 ^ 12 * 2 ^ 12 := rfl
  rw [Nat.testBit_and, hmask, hdiv, Nat.testBit_mul_two_pow, Nat.testBit_mul_two_pow,
    Nat.testBit_two_pow_sub_one, Nat.testBit_div_two_pow]
  by_cases hi : 12 ≤ i
  · by_cases hi' : i < 32
    · simp [hi, show i - 12 < 20 by omega]
    · have hz : n.testBit i = false :=
        Nat.testBit_lt_two_pow (Nat.lt_of_lt_of_le hn (Nat.pow_le_pow_right (by decide) (by omega)))
      simp [hz, hi]
  · simp [hi]

/-- The data starts behind the header of the block, at most one alignment further. -/
theorem dataStartPos_bounds (base : UInt32) :
    85 ≤ (MediaBuffer.dataStartPos base).toNat ∧ (MediaBuffer.dataStartPos base).toNat ≤ 4180 := by
  have hbase := base.toNat_lt
  simp only [MediaBuffer.dataStartPos, ne_eq, ← UInt32.toNat_inj, UInt32.toNat_mod]
  split_ifs with h
  · rw [UInt32.toNat_sub, UInt32.toNat_add, toNat_recvMediaHeaderSize]
    omega
  · rw [UInt32.toNat_sub, UInt32.toNat_and, UInt32.toNat_add, UInt32.toNat_add,
      show (0xfffff000 : UInt32).toNat = 0xfffff000 from rfl,
      nat_and_align (Nat.mod_lt _ (by decide))]
    simp only [UInt32.toNat_add, toNat_align, toNat_recvMediaHeaderSize, UInt32.toNat_zero] at h ⊢
    omega

/-- The room behind the first extended header of a block. -/
def RecvConfig.room (c : RecvConfig) (base : UInt32) : UInt32 :=
  c.recvMediaBufferSize - MediaBuffer.dataStartPos base - extHeadSize

theorem RecvConfig.Valid.room_eq {c : RecvConfig} (hc : c.Valid) (base : UInt32) :
    (MediaBuffer.dataStartPos base).toNat + 16 + (c.room base).toNat =
      c.recvMediaBufferSize.toNat := by
  have hpos := dataStartPos_bounds base
  have hmin := hc.stripe_min
  have hreserve := hc.reserve
  have hlt := c.recvMediaBufferSize.toNat_lt
  rw [toNat_align] at hreserve
  rw [RecvConfig.room, UInt32.toNat_sub, UInt32.toNat_sub, toNat_extHeadSize]
  omega

/-- A frame is longer than an extended header. -/
theorem frameSize_gt {c : RecvConfig} (hc : c.Valid) {h : PackHead} (hh : checkPackHead h = true) :
    16 < (frameSize c.headerSize h).toNat := by
  have hcount : 0 < h.btPackCount.toNat := by
    simp only [checkPackHead] at hh
    split_ifs at hh with _ _ _ hid _ hle
    simp only [ne_eq, not_not] at hid
    rw [UInt8.le_iff_toNat_le, hid, UInt8.toNat_zero] at hle
    omega
  have hlt := h.btPackCount.toNat_lt
  rw [frameSize, hc.headerSize]
  simp only [UInt32.toNat_add, UInt32.toNat_mul, UInt32.toNat_sub, UInt8.toNat_toUInt32,
    UInt32.toNat_one, show svsStreamDatagramMax.toNat = 1418 from rfl,
    show (18 : UInt32).toNat = 18 from rfl]
  have hmod : (if h.dwFrameLen % segmentMaxSize = 0 then segmentMaxSize
      else h.dwFrameLen % segmentMaxSize).toNat ≤ 1400 := by
    split_ifs
    · decide
    · rw [UInt32.toNat_mod]
      exact Nat.le_of_lt (Nat.mod_lt _ (by decide))
  have hpred : (2 ^ 32 - 1 + h.btPackCount.toNat) % 2 ^ 32 = h.btPackCount.toNat - 1 := by omega
  have hpackets : (h.btPackCount.toNat - 1) * 1418 ≤ 360172 := by omega
  rw [hpred]
  generalize (h.btPackCount.toNat - 1) * 1418 = packets at hpackets ⊢
  omega

/-! ## The media block -/

namespace MediaBuffer

variable {c : RecvConfig} {b : MediaBuffer} {w : UInt32}

/-- The check of the stripe width against the used bytes of a block, if it is made. -/
def stripeChecks (c : RecvConfig) (b : MediaBuffer) : List SpaceCheck :=
  if c.writeMediaDataStripeWidth ≠ b.posValue then [.stripe b.posValue] else []

@[simp] theorem adjustLastFrame_base : (b.adjustLastFrame w).base = b.base := by
  unfold adjustLastFrame
  split_ifs <;> rfl

@[simp] theorem adjustLastFrame_rdPtr : (b.adjustLastFrame w).rdPtr = b.rdPtr := by
  unfold adjustLastFrame
  split_ifs <;> rfl

@[simp] theorem adjustLastFrame_wrPtr : (b.adjustLastFrame w).wrPtr = b.wrPtr := by
  unfold adjustLastFrame
  split_ifs <;> rfl

@[simp] theorem adjustLastFrame_header : (b.adjustLastFrame w).header = b.header := by
  unfold adjustLastFrame
  split_ifs <;> rfl

@[simp] theorem adjustLastFrame_frames : (b.adjustLastFrame w).frames = b.frames := by
  unfold adjustLastFrame
  split_ifs <;> rfl

@[simp] theorem adjustLastFrame_recved : (b.adjustLastFrame w).recved = b.recved := by
  unfold adjustLastFrame
  split_ifs <;> rfl

/-- A frame that is complete gets its extended header, with the time tick `tick`. -/
def complete (c : RecvConfig) (b : MediaBuffer) (size tick : UInt32) (time : Int) : MediaBuffer :=
  (b.setTimeTick c tick time).addFrame c size tick

variable {size tick : UInt32} {time : Int}

@[simp] theorem complete_base : (b.complete c size tick time).base = b.base := by
  unfold complete addFrame setTimeTick
  dsimp only
  split_ifs <;> rfl

@[simp] theorem complete_rdPtr : (b.complete c size tick time).rdPtr = b.rdPtr := by
  unfold complete addFrame setTimeTick
  dsimp only
  split_ifs <;> rfl

@[simp] theorem complete_wrPtr : (b.complete c size tick time).wrPtr = b.wrPtr := by
  unfold complete addFrame setTimeTick
  dsimp only
  split_ifs <;> rfl

@[simp] theorem complete_recved : (b.complete c size tick time).recved = [] := rfl

@[simp] theorem complete_mediaDataStartPos :
    (b.complete c size tick time).header.mediaDataStartPos = b.header.mediaDataStartPos := by
  unfold complete addFrame setTimeTick
  dsimp only
  split_ifs <;> rfl

@[simp] theorem complete_curRecvedDataLen :
    (b.complete c size tick time).header.curRecvedDataLen = 0 := rfl

theorem complete_curFrameStartPos :
    (b.complete c size tick time).header.curFrameStartPos =
      b.header.curRecvedDataLen + extHeadSize + b.header.curFrameStartPos := by
  unfold complete addFrame setTimeTick
  dsimp only
  split_ifs <;> rfl

end MediaBuffer

namespace RecvStream

variable {c : RecvConfig} {s : RecvStream} {b : MediaBuffer} {r : PoolResult} {env : InputEnv}

/-! ## The change of blocks -/

theorem checkStripe_eq (c : RecvConfig) (s : RecvStream) (b : MediaBuffer) :
    s.checkStripe c b = { s with checks := s.checks ++ b.stripeChecks c } := by
  unfold checkStripe MediaBuffer.stripeChecks
  split_ifs
  · rfl
  · simp

theorem enqueueDio_checks : (s.enqueueDio c).checks = s.checks ++
    (match s.recvRtMediaBuff with
      | none => []
      | some b => if b.header.recvedFrameCount = 0 then [] else b.stripeChecks c) := by
  unfold enqueueDio
  cases s.recvRtMediaBuff with
  | none => simp
  | some b =>
    by_cases h0 : b.header.recvedFrameCount = 0
    · simp [h0]
    · simp [h0, checkStripe_eq]

theorem enqueueDio_buff : (s.enqueueDio c).recvRtMediaBuff = none := by
  unfold enqueueDio
  cases h : s.recvRtMediaBuff with
  | none => exact h
  | some b => dsimp only; split_ifs <;> rfl

theorem enqueueDio_cur : (s.enqueueDio c).curFrameRemainSize = s.curFrameRemainSize := by
  unfold enqueueDio
  cases h : s.recvRtMediaBuff with
  | none => rfl
  | some b =>
    dsimp only
    split_ifs
    · rfl
    · simp [checkStripe_eq]

/-- Block `b` as `enqueue_dio` hands it over. -/
def dioBlock (c : RecvConfig) (b : MediaBuffer) : MediaBuffer :=
  { b.adjustLastFrame c.writeMediaDataStripeWidth with
    wrPtr := b.header.lastFrameStartPos.toNat +
      ((b.adjustLastFrame c.writeMediaDataStripeWidth).nAdjustFrameSize
        b.header.lastFrameStartPos).toNat }

theorem enqueueDio_written : (s.enqueueDio c).written = s.written ++
    (match s.recvRtMediaBuff with
      | none => []
      | some b => if b.header.recvedFrameCount = 0 then [] else [dioBlock c b]) := by
  unfold enqueueDio
  cases s.recvRtMediaBuff with
  | none => simp
  | some b =>
    by_cases h0 : b.header.recvedFrameCount = 0
    · simp [h0]
    · simp [h0, checkStripe_eq, dioBlock]

/-- The base address of the block that is there after `enqueue_tmpfs`, if it succeeds. -/
def nextBase (c : RecvConfig) (s : RecvStream) (r : PoolResult) : Option UInt32 :=
  match r.allocBuffer with
  | some (base, _) => some base
  | none =>
    if r.allocTmpfsBuffer ∧ r.writeResult = c.writeMediaDataStripeWidth ∧ r.writeMediaOk then
      s.recvRtMediaBuff.map MediaBuffer.base
    else none

/-- What a tmpfs block gets of block `b`. -/
def tmpfsBlock (c : RecvConfig) (b : MediaBuffer) : MediaBuffer :=
  { b.adjustLastFrame c.writeMediaDataStripeWidth with
    wrPtr := (b.adjustLastFrame c.writeMediaDataStripeWidth).rdPtr +
      c.writeMediaDataStripeWidth.toNat }

/-- After the last frame of block `b` is made to end with the stripe, for a tmpfs block. -/
def adjusted (c : RecvConfig) (s : RecvStream) (b : MediaBuffer) : RecvStream :=
  { s with
    checks := s.checks ++ b.stripeChecks c
    recvRtMediaBuff := some (b.adjustLastFrame c.writeMediaDataStripeWidth) }

/-- `enqueue_tmpfs` takes another block, has none, fails, or uses the block again. -/
theorem enqueueTmpfs_cases (c : RecvConfig) (s : RecvStream) (r : PoolResult) :
    (∃ base mem, r.allocBuffer = some (base, mem) ∧
      s.enqueueTmpfs c r = ({ s.enqueueDio c with
        recvRtMediaBuff := some (MediaBuffer.fresh base mem).init
        remainRecvBuffSize := c.room base }, svsResultOk)) ∨
    (r.allocBuffer = none ∧ (s.recvRtMediaBuff = none ∨ r.allocTmpfsBuffer = false) ∧
      s.enqueueTmpfs c r = (s, svsErrNomem)) ∨
    (∃ b, r.allocBuffer = none ∧ s.recvRtMediaBuff = some b ∧ r.allocTmpfsBuffer = true ∧
      ((r.writeResult ≠ c.writeMediaDataStripeWidth ∧
          s.enqueueTmpfs c r = (s.adjusted c b, svsResultFailure)) ∨
        (r.writeResult = c.writeMediaDataStripeWidth ∧ r.writeMediaOk = false ∧
          s.enqueueTmpfs c r =
            ({ s.adjusted c b with written := s.written ++ [tmpfsBlock c b] },
              svsResultFailure)) ∨
        (r.writeResult = c.writeMediaDataStripeWidth ∧ r.writeMediaOk = true ∧
          s.enqueueTmpfs c r =
            ({ s.adjusted c b with
              written := s.written ++ [tmpfsBlock c b]
              recvRtMediaBuff := some (b.adjustLastFrame c.writeMediaDataStripeWidth).init
              remainRecvBuffSize :=
                c.room (b.adjustLastFrame c.writeMediaDataStripeWidth).base },
              svsResultOk)))) := by
  unfold enqueueTmpfs
  cases ha : r.allocBuffer with
  | some p =>
    obtain ⟨base, mem⟩ := p
    exact .inl ⟨base, mem, rfl, rfl⟩
  | none =>
    cases hb : s.recvRtMediaBuff with
    | none => exact .inr (.inl ⟨rfl, .inl rfl, rfl⟩)
    | some b =>
      cases ht : r.allocTmpfsBuffer with
      | false => exact .inr (.inl ⟨rfl, .inr rfl, rfl⟩)
      | true =>
        refine .inr (.inr ⟨b, rfl, rfl, rfl, ?_⟩)
        by_cases hw : r.writeResult = c.writeMediaDataStripeWidth
        · cases hm : r.writeMediaOk with
          | false =>
            refine .inr (.inl ⟨hw, rfl, ?_⟩)
            simp [hw, checkStripe_eq, adjusted, tmpfsBlock]
          | true =>
            refine .inr (.inr ⟨hw, rfl, ?_⟩)
            simp [hw, checkStripe_eq, adjusted, tmpfsBlock, initMediaBuffer, RecvConfig.room]
        · refine .inl ⟨hw, ?_⟩
          simp [hw, checkStripe_eq, adjusted]

/-- Where `enqueue_tmpfs` succeeds, there is a block without data. -/
theorem enqueueTmpfs_ok (hok : (s.enqueueTmpfs c r).2 = svsResultOk) :
    ∃ b : MediaBuffer, b.base ∈ s.nextBase c r ∧
      (s.enqueueTmpfs c r).1.recvRtMediaBuff = some b.init ∧
      (s.enqueueTmpfs c r).1.remainRecvBuffSize = c.room b.base ∧
      (s.enqueueTmpfs c r).1.curFrameRemainSize = s.curFrameRemainSize := by
  rcases enqueueTmpfs_cases c s r with ⟨base, mem, ha, he⟩ | ⟨ha, hno, he⟩ | ⟨b, ha, hb, ht, he⟩
  · rw [he]
    exact ⟨.fresh base mem, by simp [nextBase, ha, MediaBuffer.fresh], rfl, rfl, enqueueDio_cur⟩
  · rw [he] at hok
    exact absurd hok (show svsErrNomem ≠ svsResultOk by decide)
  · rcases he with ⟨-, he⟩ | ⟨-, -, he⟩ | ⟨hw, hm, he⟩
    · rw [he] at hok
      exact absurd hok (show svsResultFailure ≠ svsResultOk by decide)
    · rw [he] at hok
      exact absurd hok (show svsResultFailure ≠ svsResultOk by decide)
    · rw [he]
      exact ⟨b.adjustLastFrame c.writeMediaDataStripeWidth, by simp [nextBase, ha, ht, hw, hm, hb],
        rfl, rfl, rfl⟩

/-- Where it fails, there is no next block. -/
theorem enqueueTmpfs_ne_ok (hne : (s.enqueueTmpfs c r).2 ≠ svsResultOk) :
    s.nextBase c r = none := by
  rcases enqueueTmpfs_cases c s r with ⟨base, mem, ha, he⟩ | ⟨ha, hno, he⟩ | ⟨b, ha, hb, ht, he⟩
  · rw [he] at hne
    exact absurd rfl hne
  · rcases hno with hb | ht
    · simp [nextBase, ha, hb]
    · simp [nextBase, ha, ht]
  · rcases he with ⟨hw, he⟩ | ⟨-, hm, he⟩ | ⟨-, -, he⟩
    · simp [nextBase, ha, hw]
    · simp [nextBase, ha, hm]
    · rw [he] at hne
      exact absurd rfl hne

/-- The check of the remaining space, if it is made. -/
def reserveChecks (s : RecvStream) : List SpaceCheck :=
  if s.remainRecvBuffSize = 0 then [] else [.reserve s.remainRecvBuffSize]

theorem takeBuffer_eq (c : RecvConfig) (s : RecvStream) (r : PoolResult) :
    s.takeBuffer c r =
      if s.NeedsBuffer then
        ({ s with checks := s.checks ++ s.reserveChecks } : RecvStream).enqueueTmpfs c r
      else ({ s with checks := s.checks ++ s.reserveChecks }, svsResultOk) := by
  have hs : (if s.remainRecvBuffSize = 0 then s
      else { s with checks := s.checks ++ [.reserve s.remainRecvBuffSize] }) =
      { s with checks := s.checks ++ s.reserveChecks } := by
    unfold reserveChecks
    split_ifs
    · rw [List.append_nil]
    · rfl
  rw [← hs]
  rfl

/-! ## A receive -/

/-- `combin_packet` drops the frame, or completes it. -/
theorem combinPacket_cases (hb : s.recvRtMediaBuff = some b) (now : Int) :
    (∃ rate lost, s.combinPacket c now = ({ s with
      recordKeyFrameRate := rate
      recvFrameNumThenLost := lost
      recvRtMediaBuff := some b.dropFrame
      remainRecvBuffSize := s.remainRecvBuffSize + b.header.curRecvedDataLen }, svsResultOk)) ∨
    (∃ rate lost clock tick time, s.combinPacket c now = ({ s with
      recordKeyFrameRate := rate
      recvFrameNumThenLost := lost
      clock }.reserveHeader (b.complete c s.curFrameSize tick time), svsResultOk)) := by
  unfold combinPacket
  rw [hb]
  have hlost : ∃ rate lost, s.countLost c b = { s with
      recordKeyFrameRate := rate
      recvFrameNumThenLost := lost } := by
    unfold countLost
    by_cases hl : s.LosesFrames c b
    · rw [if_pos hl]
      exact ⟨_, _, rfl⟩
    · rw [if_neg hl]
      exact ⟨s.recordKeyFrameRate, s.recvFrameNumThenLost, rfl⟩
  obtain ⟨rate, lost, hlost⟩ := hlost
  dsimp only
  rw [hlost]
  split_ifs
  · exact .inl ⟨rate, lost, rfl⟩
  · exact .inr ⟨rate, lost, _, _, _, rfl⟩

theorem reserveHeader_checks : (s.reserveHeader b).checks = s.checks := by
  unfold reserveHeader
  split_ifs <;> rfl

theorem combinPacket_checks (hb : s.recvRtMediaBuff = some b) (now : Int) :
    (s.combinPacket c now).1.checks = s.checks := by
  rcases combinPacket_cases hb now with ⟨rate, lost, he⟩ | ⟨rate, lost, clock, tick, time, he⟩
  · rw [he]
  · rw [he, reserveHeader_checks]

theorem combinPacket_cur (hb : s.recvRtMediaBuff = some b) (now : Int) :
    (s.combinPacket c now).1.curFrameRemainSize = s.curFrameRemainSize := by
  rcases combinPacket_cases hb now with ⟨rate, lost, he⟩ | ⟨rate, lost, clock, tick, time, he⟩
  · rw [he]
  · rw [he]
    unfold reserveHeader
    split_ifs <;> rfl

theorem recvMediaData_checks (hb : s.recvRtMediaBuff = some b) (env : InputEnv) :
    (s.recvMediaData c env).1.checks = s.checks ++ [.recv b.wrPtr s.curFrameRemainSize] := by
  unfold recvMediaData
  rw [hb]
  dsimp only
  split_ifs
  · rfl
  · rfl
  · exact combinPacket_checks rfl env.now
  · exact combinPacket_checks rfl env.now
  · rfl

/-- The number of bytes that a call of `handle_input` is to receive: the rest of a frame, or the size of the
next one. -/
def sizeToReceive (c : RecvConfig) (s : RecvStream) (peek : Peek) : UInt32 :=
  if s.curFrameRemainSize ≠ 0 then s.curFrameRemainSize
  else
    match peek with
    | .head h _ => if h.btIsKeyFrame ≠ 0xFF ∧ checkPackHead h then frameSize c.headerSize h else 0
    | _ => 0

/-- `handle_input` has the size. -/
def sized (c : RecvConfig) (s : RecvStream) (peek : Peek) : RecvStream :=
  if s.curFrameRemainSize = 0 then (s.getCurFrameSize c peek).1 else s

/-- `handle_input` from there on. -/
def receive (c : RecvConfig) (s : RecvStream) (env : InputEnv) : RecvStream :=
  let r := s.takeBuffer c env.pool
  if r.2 = svsResultOk then (r.1.recvMediaData c env).1 else r.1

/-- Where there is a size, only it and the number of the frame are new; else nothing is. -/
theorem sized_cases (hc : c.Valid) (s : RecvStream) (peek : Peek) :
    (s.sizeToReceive c peek = 0 ∧ s.curFrameRemainSize = 0 ∧ s.sized c peek = s) ∨
    (16 < (s.sizeToReceive c peek).toNat ∧ s.curFrameRemainSize = 0 ∧
      (s.getCurFrameSize c peek).2 = svsResultOk ∧
      ∃ clock, s.sized c peek =
        { s with
          curFrameRemainSize := s.sizeToReceive c peek
          clock
          curFrameSize := s.sizeToReceive c peek }) ∨
    (s.curFrameRemainSize ≠ 0 ∧ s.sizeToReceive c peek = s.curFrameRemainSize ∧
      s.sized c peek = s) := by
  unfold sizeToReceive sized getCurFrameSize
  by_cases h0 : s.curFrameRemainSize = 0
  · cases peek with
    | again => simp [h0]
    | fails => simp [h0]
    | head h eosResult =>
      by_cases heos : h.btIsKeyFrame = 0xFF
      · simp [h0, heos]
      · by_cases hcheck : checkPackHead h = true
        · exact .inr (.inl ⟨by simpa [h0, heos, hcheck] using frameSize_gt hc hcheck, h0,
            by simp [heos, hcheck], { s.clock with curRecvFrameId := h.dwFrameID },
            by simp [h0, heos, hcheck]⟩)
        · simp [h0, heos, hcheck]
  · simp [h0]

theorem handleInput_eq (hc : c.Valid) (s : RecvStream) (env : InputEnv) :
    (s.handleInput c env).1 =
      if s.stopRecvFlag = true ∨ s.sizeToReceive c env.peek = 0 then s
      else (s.sized c env.peek).receive c env := by
  have hreceive : ∀ s' : RecvStream,
      (if (s'.takeBuffer c env.pool).2 = svsErrNomem then
          ((s'.takeBuffer c env.pool).1, svsResultOk)
        else if (s'.takeBuffer c env.pool).2 ≠ svsResultOk then
          ((s'.takeBuffer c env.pool).1, svsResultFailure)
        else (s'.takeBuffer c env.pool).1.recvMediaData c env).1 = s'.receive c env := by
    intro s'
    unfold receive
    by_cases hok : (s'.takeBuffer c env.pool).2 = svsResultOk
    · simp [hok, show svsResultOk ≠ svsErrNomem by decide]
    · by_cases hmem : (s'.takeBuffer c env.pool).2 = svsErrNomem
      · simp [hmem, show svsErrNomem ≠ svsResultOk by decide]
      · simp [hok, hmem]
  unfold handleInput
  cases hstop : s.stopRecvFlag with
  | true => simp
  | false =>
    simp only [Bool.false_eq_true, if_false, false_or]
    rcases sized_cases hc s env.peek with ⟨hz, h0, hs⟩ | ⟨hsize, h0, hok, clock, hs⟩ | ⟨h0, hz, hs⟩
    · rw [sized, if_pos h0] at hs
      simp only [h0, hz, if_true, hs]
      split_ifs <;> rfl
    · have hne : s.sizeToReceive c env.peek ≠ 0 := fun h => by simp [h] at hsize
      have hcur : (s.sized c env.peek).curFrameRemainSize = s.sizeToReceive c env.peek := by rw [hs]
      rw [sized, if_pos h0] at hcur ⊢
      simp only [h0, hok, hne, hcur, ne_eq, not_true_eq_false, if_true, if_false]
      exact hreceive _
    · rw [hz, hs]
      simp only [h0, ne_eq, not_true_eq_false, if_false]
      exact hreceive s

/-! ## The time slice -/

/-- The time slice ends with the frame: `check_record_time_slice` hands the block over. -/
def SliceEnds (c : RecvConfig) (s : RecvStream) (now : Int) (newOk : Bool) : Prop :=
  let nowTime := s.currFrameTime c now
  (∃ b ∈ s.recvRtMediaBuff, svsRecordfileSliceTime ≤ nowTime - s.lastCheckIndexTime →
    s.lastCheckIndexTime ≠ 0 ∧ s.lastCheckIndexTime ≠ nowTime ∧
      (b.header.indexList.isSome ∨ newOk = true)) ∧
    bigRecordfileTimeSlice ≤ nowTime - s.lastCheckRecordTime ∧
    s.lastCheckRecordTime ≠ 0 ∧ s.lastCheckRecordTime ≠ nowTime

/-- `updateCluster` adds to the index list, and then `check_record_time_slice` goes on. -/
theorem updateCluster_cases (hb : s.recvRtMediaBuff = some b) (nowTime : Int) (newOk : Bool) :
    let added := s.lastCheckIndexTime ≠ 0 ∧ s.lastCheckIndexTime ≠ nowTime ∧
      (b.header.indexList.isSome ∨ newOk = true)
    (¬ added ∧ ∃ time,
      s.updateCluster nowTime newOk = ({ s with lastCheckIndexTime := time }, svsResultOk)) ∨
    (added ∧ ∃ indexList,
      s.updateCluster nowTime newOk = ({ s with
        recvRtMediaBuff := some { b with header := { b.header with indexList } }
        lastCheckIndexTime := nowTime }, 1)) := by
  unfold updateCluster
  by_cases h0 : s.lastCheckIndexTime = 0
  · exact .inl ⟨by simp [h0], _, by rw [if_pos h0]⟩
  by_cases hn : s.lastCheckIndexTime = nowTime
  · exact .inl ⟨by simp [hn], s.lastCheckIndexTime, by rw [if_neg h0, if_pos hn]⟩
  rw [if_neg h0, if_neg hn, hb]
  by_cases hlist : b.header.indexList.isNone ∧ !newOk
  · refine .inl ⟨?_, s.lastCheckIndexTime, (if_pos hlist).trans (by rw [← hb])⟩
    rintro ⟨-, -, hsome | hnew⟩
    · simp [Option.isNone_iff_eq_none.mp hlist.1] at hsome
    · simp [hnew] at hlist
  · refine .inr ⟨⟨h0, hn, ?_⟩, _, if_neg hlist⟩
    cases hl : b.header.indexList with
    | none => simpa [hl] using hlist
    | some _ => exact .inl rfl

/-- `updateRecordFile` sets its time, or hands the block over. -/
theorem updateRecordFile_cases (c : RecvConfig) (s : RecvStream) (nowTime : Int) (r : PoolResult) :
    ∃ time,
      (¬ (s.lastCheckRecordTime ≠ 0 ∧ s.lastCheckRecordTime ≠ nowTime) ∧
        s.updateRecordFile c nowTime r = { s with lastCheckRecordTime := time }) ∨
      ((s.lastCheckRecordTime ≠ 0 ∧ s.lastCheckRecordTime ≠ nowTime) ∧
        s.updateRecordFile c nowTime r =
          { (s.enqueueTmpfs c r).1 with lastCheckRecordTime := time }) := by
  unfold updateRecordFile
  by_cases h0 : s.lastCheckRecordTime = 0
  · exact ⟨_, .inl ⟨by simp [h0], by rw [if_pos h0]⟩⟩
  by_cases hn : s.lastCheckRecordTime = nowTime
  · exact ⟨s.lastCheckRecordTime, .inl ⟨by simp [hn], by rw [if_neg h0, if_pos hn]⟩⟩
  by_cases hok : (s.enqueueTmpfs c r).2 = svsResultOk
  · exact ⟨nowTime, .inr ⟨⟨h0, hn⟩, by rw [if_neg h0, if_neg hn]; exact if_pos hok⟩⟩
  · exact ⟨(s.enqueueTmpfs c r).1.lastCheckRecordTime,
      .inr ⟨⟨h0, hn⟩, by rw [if_neg h0, if_neg hn]; exact if_neg hok⟩⟩

/-- `check_record_time_slice` leaves all but the times and the index list, or hands the block over. -/
theorem checkRecordTimeSlice_cases (c : RecvConfig) (s : RecvStream) (now : Int) (newOk : Bool)
    (pool : PoolResult) :
    ∃ t t' s', (s' = { s with lastCheckIndexTime := t } ∨
        ∃ b indexList, s.recvRtMediaBuff = some b ∧ s' = { s with
          recvRtMediaBuff := some { b with header := { b.header with indexList } }
          lastCheckIndexTime := t }) ∧
      ((¬ s.SliceEnds c now newOk ∧
          s.checkRecordTimeSlice c now newOk pool = { s' with lastCheckRecordTime := t' }) ∨
        (s.SliceEnds c now newOk ∧ s.checkRecordTimeSlice c now newOk pool =
          { (s'.enqueueTmpfs c pool).1 with lastCheckRecordTime := t' })) := by
  rcases Option.eq_none_or_eq_some s.recvRtMediaBuff with hb | ⟨b, hb⟩
  · refine ⟨s.lastCheckIndexTime, s.lastCheckRecordTime, s, .inl rfl, .inl ⟨?_, ?_⟩⟩
    · simp [SliceEnds, hb]
    · exact if_pos (by simp [hb])
  generalize htime : s.currFrameTime c now = nowTime
  have hslice : s.checkRecordTimeSlice c now newOk pool =
      (let r := if svsRecordfileSliceTime ≤ nowTime - s.lastCheckIndexTime then
          s.updateCluster nowTime newOk else (s, 1)
      if r.2 ≠ 1 then r.1
      else if bigRecordfileTimeSlice ≤ nowTime - s.lastCheckRecordTime then
        r.1.updateRecordFile c nowTime pool
      else r.1) := by
    simp only [checkRecordTimeSlice, hb, htime, Option.isNone_some, Bool.false_eq_true, if_false]
  have hends : s.SliceEnds c now newOk ↔
      (svsRecordfileSliceTime ≤ nowTime - s.lastCheckIndexTime →
        s.lastCheckIndexTime ≠ 0 ∧ s.lastCheckIndexTime ≠ nowTime ∧
          (b.header.indexList.isSome ∨ newOk = true)) ∧
        bigRecordfileTimeSlice ≤ nowTime - s.lastCheckRecordTime ∧
        s.lastCheckRecordTime ≠ 0 ∧ s.lastCheckRecordTime ≠ nowTime := by
    simp [SliceEnds, hb, htime]
  -- the record file, after the index
  have hrecord : ∀ s' : RecvStream, s'.lastCheckRecordTime = s.lastCheckRecordTime →
      ∃ t', (¬ (bigRecordfileTimeSlice ≤ nowTime - s.lastCheckRecordTime ∧
            s.lastCheckRecordTime ≠ 0 ∧ s.lastCheckRecordTime ≠ nowTime) ∧
          (if bigRecordfileTimeSlice ≤ nowTime - s.lastCheckRecordTime then
            s'.updateRecordFile c nowTime pool else s') = { s' with lastCheckRecordTime := t' }) ∨
        ((bigRecordfileTimeSlice ≤ nowTime - s.lastCheckRecordTime ∧
            s.lastCheckRecordTime ≠ 0 ∧ s.lastCheckRecordTime ≠ nowTime) ∧
          (if bigRecordfileTimeSlice ≤ nowTime - s.lastCheckRecordTime then
            s'.updateRecordFile c nowTime pool else s') =
            { (s'.enqueueTmpfs c pool).1 with lastCheckRecordTime := t' }) := by
    intro s' hlast
    by_cases hbig : bigRecordfileTimeSlice ≤ nowTime - s.lastCheckRecordTime
    · obtain ⟨t', ⟨hno, he⟩ | ⟨hyes, he⟩⟩ := updateRecordFile_cases c s' nowTime pool
      · rw [hlast] at hno
        exact ⟨t', .inl ⟨fun h => hno h.2, by rw [if_pos hbig, he]⟩⟩
      · rw [hlast] at hyes
        exact ⟨t', .inr ⟨⟨hbig, hyes⟩, by rw [if_pos hbig, he]⟩⟩
    · exact ⟨s'.lastCheckRecordTime, .inl ⟨fun h => hbig h.1, by rw [if_neg hbig]⟩⟩
  rw [hslice, hends]
  by_cases hindex : svsRecordfileSliceTime ≤ nowTime - s.lastCheckIndexTime
  · rcases updateCluster_cases hb nowTime newOk with ⟨hno, time, he⟩ | ⟨hadd, indexList, he⟩
    · refine ⟨time, s.lastCheckRecordTime, _, .inl rfl, .inl ⟨fun h => hno (h.1 hindex), ?_⟩⟩
      simp [hindex, he, show svsResultOk ≠ 1 by decide]
    · obtain ⟨t', h⟩ := hrecord { s with
        recvRtMediaBuff := some { b with header := { b.header with indexList } }
        lastCheckIndexTime := nowTime } rfl
      refine ⟨nowTime, t', _, .inr ⟨b, indexList, hb, rfl⟩, ?_⟩
      simp only [hindex, he, if_true, ne_eq, not_true_eq_false, if_false, true_implies]
      simpa [hadd] using h
  · obtain ⟨t', h⟩ := hrecord s rfl
    refine ⟨s.lastCheckIndexTime, t', s, .inl rfl, ?_⟩
    simpa [hindex] using h

end RecvStream

end AllCamera
