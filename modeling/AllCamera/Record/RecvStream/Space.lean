import AllCamera.Record.RecvStream.Spec

/-!
# The room in the receive buffer

The size of a frame is computed from the number of its packets, and is compared with the room that is left
behind the write pointer, less the alignment reserve, as an unsigned difference. After the block is changed
the size is not compared again.

* `SpaceCheck.Ok`: the difference does not wrap, and what is received fits.
* `Space`: where the write pointer stands, and that `remain_recv_buff_size_` is the room behind it.
* `fits_iff`: the runs in which all checks are right.
-/

namespace AllCamera

open AllCamera.Run

/-! ## The checks -/

namespace SpaceCheck

/-- The difference does not wrap; what is received fits. -/
def Ok (c : RecvConfig) : SpaceCheck → Prop
  | reserve remain => svsRecordFileAlignLen ≤ remain
  | stripe posValue => posValue ≤ c.writeMediaDataStripeWidth
  | recv wrPtr size => wrPtr + size.toNat ≤ c.recvMediaBufferSize.toNat

instance (c : RecvConfig) : ∀ chk : SpaceCheck, Decidable (chk.Ok c)
  | reserve _ => inferInstanceAs (Decidable (_ ≤ _))
  | stripe _ => inferInstanceAs (Decidable (_ ≤ _))
  | recv _ _ => inferInstanceAs (Decidable (_ ≤ _))

end SpaceCheck

/-- All of some checks are right. -/
def AllOk (c : RecvConfig) (checks : List SpaceCheck) : Prop := ∀ chk ∈ checks, chk.Ok c

section AllOk

variable {c : RecvConfig} {chk : SpaceCheck} {checks : List SpaceCheck}

@[simp] theorem allOk_nil : AllOk c [] := by simp [AllOk]

@[simp] theorem allOk_append (as bs : List SpaceCheck) :
    AllOk c (as ++ bs) ↔ AllOk c as ∧ AllOk c bs := by
  simp only [AllOk, List.mem_append, or_imp, forall_and]

@[simp] theorem allOk_singleton : AllOk c [chk] ↔ chk.Ok c := by simp [AllOk]

end AllOk

theorem MediaBuffer.stripeChecks_ok {c : RecvConfig} {b : MediaBuffer} :
    AllOk c (b.stripeChecks c) ↔ b.posValue ≤ c.writeMediaDataStripeWidth := by
  unfold stripeChecks
  split_ifs with h
  · rw [allOk_singleton, SpaceCheck.Ok]
  · simp only [ne_eq, not_not] at h
    simp [h]

namespace MediaBuffer

variable {c : RecvConfig} {b : MediaBuffer} {w : UInt32}

/-- Where the pointers of a block stand: behind the extended header of the next frame and what was received
of it, or, with no room for the header, at its start. -/
structure Placed (c : RecvConfig) (b : MediaBuffer) (remain cur : UInt32) : Prop where
  start : b.header.mediaDataStartPos = dataStartPos b.base
  rd : b.rdPtr = b.header.mediaDataStartPos.toNat
  le : b.header.mediaDataStartPos.toNat ≤ b.header.curFrameStartPos.toNat
  len : b.header.curRecvedDataLen.toNat = b.recved.length
  room : b.wrPtr + remain.toNat = c.recvMediaBufferSize.toNat
  wr : b.wrPtr = b.header.curFrameStartPos.toNat + 16 + b.recved.length ∨
    b.wrPtr = b.header.curFrameStartPos.toNat ∧ b.recved = [] ∧ remain.toNat ≤ 4112 ∧
      (cur = 0 ∨ 16 < cur.toNat)

/-- The write pointer is behind what was received of a frame. -/
abbrev BehindRecved (b : MediaBuffer) : Prop := b.wrPtr = b.header.curFrameStartPos.toNat + 16 + b.recved.length

variable {remain cur cur' : UInt32}

theorem Placed.init (hc : c.Valid) (b : MediaBuffer) (cur : UInt32) :
    b.init.Placed c (c.room b.base) cur where
  start := rfl
  rd := rfl
  le := Nat.le_refl _
  len := rfl
  room := hc.room_eq b.base
  wr := .inl rfl

theorem Placed.adjust (h : b.Placed c remain cur) (w : UInt32) :
    (b.adjustLastFrame w).Placed c remain cur where
  start := by simpa using h.start
  rd := by simpa using h.rd
  le := by simpa using h.le
  len := by simpa using h.len
  room := by simpa using h.room
  wr := by simpa using h.wr

/-- The next frame is to be received. -/
theorem Placed.next (h : b.Placed c remain cur) (hcur : 16 < cur'.toNat) :
    b.Placed c remain cur' where
  start := h.start
  rd := h.rd
  le := h.le
  len := h.len
  room := h.room
  wr := h.wr.imp_right fun ⟨hp, hr, hle, _⟩ => ⟨hp, hr, hle, .inr hcur⟩

/-- The used bytes of a block. -/
theorem Placed.toNat_posValue (h : b.Placed c remain cur) :
    b.posValue.toNat =
      b.header.curFrameStartPos.toNat - b.header.mediaDataStartPos.toNat :=
  UInt32.toNat_sub_of_le _ _ (UInt32.le_iff_toNat_le.mpr h.le)

/-- Bytes for which there is room are received. -/
theorem Placed.recv {data : List UInt8} (h : b.Placed c remain cur)
    (hwr : b.BehindRecved) (hdata : data.length ≤ remain.toNat) (cur' : UInt32) :
    (b.recv data).Placed c (remain - UInt32.ofNat data.length) cur' where
  start := h.start
  rd := h.rd
  le := h.le
  len := by
    have hroom := h.room
    have hlt := c.recvMediaBufferSize.toNat_lt
    simp only [MediaBuffer.recv, UInt32.toNat_add, UInt32.toNat_ofNat', h.len,
      List.length_append]
    omega
  room := by
    have hroom := h.room
    have hlt := remain.toNat_lt
    simp only [MediaBuffer.recv, UInt32.toNat_sub, UInt32.toNat_ofNat']
    omega
  wr := by
    refine .inl ?_
    simp only [MediaBuffer.recv, List.length_append]
    omega

/-- What was received of a frame is dropped. -/
theorem Placed.dropFrame (h : b.Placed c remain cur)
    (hwr : b.BehindRecved) (cur' : UInt32) :
    b.dropFrame.Placed c (remain + b.header.curRecvedDataLen) cur' where
  start := h.start
  rd := h.rd
  le := h.le
  len := rfl
  room := by
    have hroom := h.room
    have hlt := c.recvMediaBufferSize.toNat_lt
    have hlen := h.len
    simp only [MediaBuffer.dropFrame, UInt32.toNat_add, toNat_extHeadSize]
    omega
  wr := .inl rfl

/-- The size of the frame with its extended header. -/
theorem Placed.complete_len (h : b.Placed c remain cur)
    (hwr : b.BehindRecved) :
    (b.header.curRecvedDataLen + extHeadSize).toNat = 16 + b.recved.length := by
  have hroom := h.room
  have hlt := c.recvMediaBufferSize.toNat_lt
  rw [UInt32.toNat_add, h.len, toNat_extHeadSize]
  omega

/-- The next frame starts at the write pointer. -/
theorem Placed.complete_start (h : b.Placed c remain cur)
    (hwr : b.BehindRecved) (size tick : UInt32)
    (time : Int) : (b.complete c size tick time).header.curFrameStartPos.toNat = b.wrPtr := by
  have hroom := h.room
  have hlt := c.recvMediaBufferSize.toNat_lt
  have hlen := h.len
  rw [complete_curFrameStartPos]
  simp only [UInt32.toNat_add, toNat_extHeadSize]
  omega

end MediaBuffer

namespace RecvStream

variable {c : RecvConfig} {s : RecvStream} {b : MediaBuffer} {r : PoolResult} {env : InputEnv}

/-- The stripe checks of `enqueue_tmpfs`. -/
def handChecks (c : RecvConfig) (s : RecvStream) (r : PoolResult) : List SpaceCheck :=
  match s.recvRtMediaBuff with
  | none => []
  | some b =>
    if r.allocBuffer.isSome then if b.header.recvedFrameCount = 0 then [] else b.stripeChecks c
    else if r.allocTmpfsBuffer then b.stripeChecks c else []

/-- The used bytes of a block that is handed over are at most the stripe. A block without a frame is not
handed over where there is another one. -/
def HandsOver (c : RecvConfig) (s : RecvStream) (r : PoolResult) : Prop :=
  ∀ b ∈ s.recvRtMediaBuff,
    (if r.allocBuffer.isSome then b.header.recvedFrameCount ≠ 0 else r.allocTmpfsBuffer = true) →
      b.posValue ≤ c.writeMediaDataStripeWidth

instance (c : RecvConfig) (s : RecvStream) (r : PoolResult) : Decidable (s.HandsOver c r) :=
  inferInstanceAs (Decidable (∀ b ∈ s.recvRtMediaBuff, _ → _))

theorem handChecks_ok : AllOk c (s.handChecks c r) ↔ s.HandsOver c r := by
  unfold handChecks HandsOver
  cases s.recvRtMediaBuff with
  | none => simp
  | some b =>
    by_cases ha : r.allocBuffer.isSome
    · by_cases h0 : b.header.recvedFrameCount = 0
      · simp [ha, h0]
      · simp [ha, h0, MediaBuffer.stripeChecks_ok]
    · by_cases ht : r.allocTmpfsBuffer
      · simp [ha, ht, MediaBuffer.stripeChecks_ok]
      · simp [ha, ht]

theorem enqueueTmpfs_checks : (s.enqueueTmpfs c r).1.checks = s.checks ++ s.handChecks c r := by
  unfold handChecks
  rcases enqueueTmpfs_cases c s r with ⟨base, mem, ha, h⟩ | ⟨ha, hno, h⟩ | ⟨b, ha, hb, ht, h⟩
  · rw [h]
    rw [enqueueDio_checks, ha]
    cases s.recvRtMediaBuff <;> rfl
  · rw [h]
    rcases hno with hb | ht
    · simp [hb]
    · cases s.recvRtMediaBuff <;> simp [ha, ht]
  · rcases h with ⟨-, h⟩ | ⟨-, -, h⟩ | ⟨-, -, h⟩
    all_goals
      rw [h]
      simp [hb, ha, ht, adjusted]

/-! ## The room -/

/-- The receiver's idea of the room is right. -/
structure Space (c : RecvConfig) (s : RecvStream) : Prop where
  noBuffer : s.recvRtMediaBuff = none → s.remainRecvBuffSize = 0
  placed : ∀ b ∈ s.recvRtMediaBuff, b.Placed c s.remainRecvBuffSize s.curFrameRemainSize

theorem Space.of_none (hb : s.recvRtMediaBuff = none) (h0 : s.remainRecvBuffSize = 0) :
    s.Space c where
  noBuffer _ := h0
  placed := by simp [hb]

theorem Space.of_some (hb : s.recvRtMediaBuff = some b)
    (h : b.Placed c s.remainRecvBuffSize s.curFrameRemainSize) : s.Space c where
  noBuffer hn := by simp [hb] at hn
  placed := by
    rintro b' hb'
    rw [hb] at hb'
    cases hb'
    exact h

/-- Only the block and the two sizes matter. -/
theorem Space.congr {s' : RecvStream} (h : s.Space c)
    (hb : s'.recvRtMediaBuff = s.recvRtMediaBuff)
    (hremain : s'.remainRecvBuffSize = s.remainRecvBuffSize)
    (hcur : s'.curFrameRemainSize = s.curFrameRemainSize) : s'.Space c where
  noBuffer hn := by
    rw [hremain]
    exact h.noBuffer (hb ▸ hn)
  placed := by
    rw [hb, hremain, hcur]
    exact h.placed

theorem Space.adjusted (h : s.Space c) (hb : s.recvRtMediaBuff = some b) :
    (s.adjusted c b).Space c :=
  .of_some rfl ((h.placed b hb).adjust _)

theorem Space.enqueueTmpfs (hc : c.Valid) (h : s.Space c) (r : PoolResult) :
    (s.enqueueTmpfs c r).1.Space c := by
  rcases enqueueTmpfs_cases c s r with ⟨base, mem, ha, he⟩ | ⟨ha, hno, he⟩ | ⟨b, ha, hb, ht, he⟩
  · rw [he]
    exact .of_some rfl (MediaBuffer.Placed.init hc (.fresh base mem) _)
  · rw [he]
    exact h
  · rcases he with ⟨-, he⟩ | ⟨-, -, he⟩ | ⟨-, -, he⟩
    · rw [he]
      exact h.adjusted hb
    · rw [he]
      exact .of_some rfl ((h.placed b hb).adjust _)
    · rw [he]
      exact .of_some rfl (MediaBuffer.Placed.init hc (b.adjustLastFrame c.writeMediaDataStripeWidth) _)

/-- A frame is complete: its bytes have been received. -/
theorem Space.combinPacket (h : s.Space c) (hb : s.recvRtMediaBuff = some b)
    (hcur : s.curFrameRemainSize = 0)
    (hwr : b.BehindRecved) (now : Int) :
    (s.combinPacket c now).1.Space c := by
  have hplaced := h.placed b hb
  rcases combinPacket_cases hb now with ⟨rate, lost, he⟩ | ⟨rate, lost, clock, tick, time, he⟩
  · rw [he]
    exact .of_some rfl (hplaced.dropFrame hwr _)
  · rw [he]
    have hstart := hplaced.complete_start hwr s.curFrameSize tick time
    have hroom := hplaced.room
    have hle := hplaced.le
    have hpos : b.header.mediaDataStartPos.toNat ≤ b.wrPtr := by omega
    unfold reserveHeader
    split_ifs with hreserve
    · obtain ⟨halign, -⟩ := hreserve
      dsimp only at halign
      rw [UInt32.lt_iff_toNat_lt, toNat_align] at halign
      have hsub : (s.remainRecvBuffSize - extHeadSize).toNat = s.remainRecvBuffSize.toNat - 16 :=
        UInt32.toNat_sub_of_le _ _ (UInt32.le_iff_toNat_le.mpr (by rw [toNat_extHeadSize]; omega))
      exact .of_some rfl
        { start := by simpa using hplaced.start
          rd := by simpa using hplaced.rd
          le := by simpa [hstart] using hpos
          len := rfl
          room := by
            simp only [MediaBuffer.complete_wrPtr, toNat_extHeadSize, hsub]
            omega
          wr := .inl (by simp [hstart]) }
    · refine .of_some rfl
        { start := by simpa using hplaced.start
          rd := by simpa using hplaced.rd
          le := by simpa [hstart] using hpos
          len := rfl
          room := by simpa using hroom
          wr := .inr ⟨by simp [hstart], rfl, ?_, .inl hcur⟩ }
      rw [UInt32.lt_iff_toNat_lt, UInt32.lt_iff_toNat_lt, UInt32.toNat_sub, toNat_align,
        toNat_extHeadSize] at hreserve
      have hlt := s.remainRecvBuffSize.toNat_lt
      dsimp only at hreserve ⊢
      omega

/-! ## A receive -/

theorem Space.recvMediaData (h : s.Space c) (hb : s.recvRtMediaBuff = some b)
    (hwr : b.BehindRecved) (hfits : s.curFrameRemainSize.toNat ≤ s.remainRecvBuffSize.toNat) (env : InputEnv) :
    (s.recvMediaData c env).1.Space c := by
  have hplaced := h.placed b hb
  have hdata : (env.data.take s.curFrameRemainSize.toNat).length ≤ s.remainRecvBuffSize.toNat :=
    Nat.le_trans (List.length_take_le _ _) hfits
  have hrecv := hplaced.recv hwr hdata
  have hwr' : (b.recv (env.data.take s.curFrameRemainSize.toNat)).wrPtr =
      (b.recv (env.data.take s.curFrameRemainSize.toNat)).header.curFrameStartPos.toNat + 16 +
        (b.recv (env.data.take s.curFrameRemainSize.toNat)).recved.length := by
    simp only [MediaBuffer.recv, List.length_append]
    omega
  have hcomplete : ∀ s' : RecvStream,
      s'.recvRtMediaBuff = some (b.recv (env.data.take s.curFrameRemainSize.toNat)) →
      s'.remainRecvBuffSize = s.remainRecvBuffSize -
        UInt32.ofNat (env.data.take s.curFrameRemainSize.toNat).length →
      s'.curFrameRemainSize = 0 → (s'.combinPacket c env.now).1.Space c := by
    intro s' hb' hremain hdone
    have hspace : s'.Space c := .of_some hb' (hremain ▸ hrecv _)
    exact hspace.combinPacket hb' hdone hwr' env.now
  unfold RecvStream.recvMediaData
  rw [hb]
  dsimp only
  split_ifs with hempty _ hdone
  · exact .of_some rfl hplaced
  · exact .of_some rfl hplaced
  · exact hcomplete _ rfl rfl hdone
  · exact (hcomplete _ rfl rfl hdone).congr rfl rfl rfl
  · exact .of_some rfl (hrecv _)

/-- There is room for `size` bytes: the remaining space is at least the reserve, or there is none; and if
they do not fit in the block, this may be handed over, and they fit in the next one. -/
def HasRoom (c : RecvConfig) (s : RecvStream) (size : UInt32) (r : PoolResult) : Prop :=
  (s.remainRecvBuffSize = 0 ∨ svsRecordFileAlignLen ≤ s.remainRecvBuffSize) ∧
    (s.remainRecvBuffSize = 0 ∨ s.remainRecvBuffSize - svsRecordFileAlignLen < size ∨
        s.recvRtMediaBuff.isNone →
      s.HandsOver c r ∧ ∀ base ∈ s.nextBase c r, size ≤ c.room base)

instance (c : RecvConfig) (s : RecvStream) (size : UInt32) (r : PoolResult) :
    Decidable (s.HasRoom c size r) :=
  have : Decidable (∀ base ∈ s.nextBase c r, size ≤ c.room base) := Option.decidableForallMem _
  inferInstanceAs (Decidable (_ ∧ _))

theorem reserveChecks_ok : AllOk c s.reserveChecks ↔
    s.remainRecvBuffSize = 0 ∨ svsRecordFileAlignLen ≤ s.remainRecvBuffSize := by
  unfold reserveChecks
  split_ifs with h0
  · simp [h0]
  · simp [h0, SpaceCheck.Ok]

/-- Where the block is kept there is room for the rest of the frame in it. -/
theorem Space.kept (h : s.Space c) (hneeds : ¬ s.NeedsBuffer) (hcur : s.curFrameRemainSize ≠ 0)
    (hremain : svsRecordFileAlignLen ≤ s.remainRecvBuffSize) :
    ∃ b, s.recvRtMediaBuff = some b ∧
      b.BehindRecved ∧
      s.curFrameRemainSize.toNat + 4096 ≤ s.remainRecvBuffSize.toNat := by
  simp only [NeedsBuffer, not_or, UInt32.lt_iff_toNat_lt, UInt32.toNat_sub_of_le _ _ hremain,
    toNat_align] at hneeds
  rw [UInt32.le_iff_toNat_le, toNat_align] at hremain
  obtain ⟨-, hle, hsome⟩ := hneeds
  obtain ⟨b, hb⟩ : ∃ b, s.recvRtMediaBuff = some b := by
    cases hb : s.recvRtMediaBuff with
    | none => simp [hb] at hsome
    | some b => exact ⟨b, rfl⟩
  have hpos : s.curFrameRemainSize.toNat ≠ 0 := fun h0 => hcur (UInt32.toNat_inj.mp h0)
  refine ⟨b, hb, ?_, by omega⟩
  rcases (h.placed b hb).wr with hwr | ⟨-, -, hreserve, h0 | hgt⟩
  · exact hwr
  · exact absurd h0 hcur
  · omega

/-- The checks of a receive are right exactly if there is room for the frame, and then the room is kept. -/
theorem Space.receive_iff (hc : c.Valid) (h : s.Space c) (hcur : s.curFrameRemainSize ≠ 0)
    (env : InputEnv) :
    (AllOk c (s.receive c env).checks ↔
        AllOk c s.checks ∧ s.HasRoom c s.curFrameRemainSize env.pool) ∧
      (s.HasRoom c s.curFrameRemainSize env.pool → (s.receive c env).Space c) := by
  let s' : RecvStream := { s with checks := s.checks ++ s.reserveChecks }
  have h' : s'.Space c := h.congr rfl rfl rfl
  have hchecks : AllOk c s'.checks ↔ AllOk c s.checks ∧
      (s.remainRecvBuffSize = 0 ∨ svsRecordFileAlignLen ≤ s.remainRecvBuffSize) := by
    rw [allOk_append, reserveChecks_ok]
  by_cases hneeds : s.NeedsBuffer
  · have htake : s.takeBuffer c env.pool = s'.enqueueTmpfs c env.pool := by
      rw [takeBuffer_eq, if_pos hneeds]
    have hroom : s.HasRoom c s.curFrameRemainSize env.pool ↔
        (s.remainRecvBuffSize = 0 ∨ svsRecordFileAlignLen ≤ s.remainRecvBuffSize) ∧
          s'.HandsOver c env.pool ∧
          ∀ base ∈ s'.nextBase c env.pool, s.curFrameRemainSize ≤ c.room base :=
      and_congr_right fun _ => ⟨fun hroom => hroom hneeds, fun hroom _ => hroom⟩
    have htaken := h'.enqueueTmpfs hc env.pool
    unfold receive
    rw [htake, hroom]
    by_cases hok : (s'.enqueueTmpfs c env.pool).2 = svsResultOk
    · obtain ⟨b, hbase, hb, hremain, hcur'⟩ := enqueueTmpfs_ok hok
      have hsize : (∀ base ∈ s'.nextBase c env.pool, s.curFrameRemainSize ≤ c.room base) ↔
          s.curFrameRemainSize ≤ c.room b.base := by
        rw [hbase]
        simp
      have hwr := hc.room_eq b.base
      have hrecv : (SpaceCheck.recv b.init.wrPtr s.curFrameRemainSize).Ok c ↔
          s.curFrameRemainSize ≤ c.room b.base := by
        rw [UInt32.le_iff_toNat_le]
        show (MediaBuffer.dataStartPos b.base).toNat + 16 + _ ≤ _ ↔ _
        omega
      rw [if_pos hok, recvMediaData_checks hb, enqueueTmpfs_checks, allOk_append, allOk_append,
        allOk_singleton, hchecks, handChecks_ok, hcur', hrecv, hsize]
      refine ⟨by simp only [and_assoc], fun hroom => ?_⟩
      refine htaken.recvMediaData hb rfl ?_ env
      rw [hcur', hremain]
      exact UInt32.le_iff_toNat_le.mp hroom.2.2
    · have hnone := enqueueTmpfs_ne_ok hok
      rw [if_neg hok, enqueueTmpfs_checks, allOk_append, hchecks, handChecks_ok, hnone]
      exact ⟨by simp [and_assoc], fun _ => htaken⟩
  · have htake : s.takeBuffer c env.pool = (s', svsResultOk) := by
      rw [takeBuffer_eq, if_neg hneeds]
    have hroom : s.HasRoom c s.curFrameRemainSize env.pool ↔
        (s.remainRecvBuffSize = 0 ∨ svsRecordFileAlignLen ≤ s.remainRecvBuffSize) :=
      and_iff_left fun hn => absurd hn hneeds
    have h0 : s.remainRecvBuffSize ≠ 0 := fun h0 => hneeds (.inl h0)
    unfold receive
    rw [htake, if_pos rfl, hroom]
    have hsome : s.recvRtMediaBuff.isSome := by
      cases hb : s.recvRtMediaBuff with
      | none => exact absurd (.inr (.inr (by simp [hb]))) hneeds
      | some b => rfl
    obtain ⟨b, hb⟩ := Option.isSome_iff_exists.mp hsome
    rw [recvMediaData_checks (s := s') hb, allOk_append, allOk_singleton, hchecks]
    refine ⟨⟨And.left, fun hroom => ⟨hroom, ?_⟩⟩, fun hroom => ?_⟩
    · obtain ⟨b', hb', hwr, hfits⟩ := h.kept hneeds hcur (hroom.2.resolve_left h0)
      obtain rfl : b = b' := Option.some.inj (hb.symm.trans hb')
      have hplaced := (h.placed b hb).room
      show b.wrPtr + s.curFrameRemainSize.toNat ≤ _
      omega
    · obtain ⟨b', hb', hwr, hfits⟩ := h.kept hneeds hcur (hroom.resolve_left h0)
      exact h'.recvMediaData hb' hwr (Nat.le_trans (Nat.le_add_right _ _) hfits) env

/-! ## The runs -/

/-- A step stays in the room that there is. -/
def Fits (c : RecvConfig) (s : RecvStream) : Act → Prop
  | .input env =>
    s.receiving = true → s.frameDone = false → s.stopRecvFlag = false →
      s.sizeToReceive c env.peek ≠ 0 → s.HasRoom c (s.sizeToReceive c env.peek) env.pool
  | .timeSlice now newOk pool =>
    s.frameDone = true → s.SliceEnds c now newOk → s.HandsOver c pool
  | .close =>
    s.receiving = true → s.frameDone = false →
      ∀ b ∈ s.recvRtMediaBuff, b.header.recvedFrameCount ≠ 0 →
        b.posValue ≤ c.writeMediaDataStripeWidth
  | .start | .stop | .recordKeyFrame _ | .setTimeRemove _ => True

/-- Of a block, all but the index list and the times matters. -/
theorem Space.indexList (h : s.Space c) (hb : s.recvRtMediaBuff = some b)
    (indexList : Option (List MediaIndex)) (time : Int) :
    ({ s with
      recvRtMediaBuff := some { b with header := { b.header with indexList } }
      lastCheckIndexTime := time } : RecvStream).Space c := by
  have hplaced := h.placed b hb
  exact .of_some rfl ⟨hplaced.start, hplaced.rd, hplaced.le, hplaced.len, hplaced.room, hplaced.wr⟩

theorem enqueueDio_checks_ok : AllOk c (s.enqueueDio c).checks ↔
    AllOk c s.checks ∧ ∀ b ∈ s.recvRtMediaBuff, b.header.recvedFrameCount ≠ 0 →
      b.posValue ≤ c.writeMediaDataStripeWidth := by
  rw [enqueueDio_checks, allOk_append]
  cases s.recvRtMediaBuff with
  | none => simp
  | some b =>
    by_cases h0 : b.header.recvedFrameCount = 0
    · simp [h0]
    · simp [h0, MediaBuffer.stripeChecks_ok]

theorem enqueueDio_remain (h : s.Space c) : (s.enqueueDio c).remainRecvBuffSize = 0 := by
  unfold enqueueDio
  cases hb : s.recvRtMediaBuff with
  | none => exact h.noBuffer hb
  | some b => dsimp only; split_ifs <;> rfl

/-- The checks of a step are right exactly if it stays in the room that there is, and then the receiver's
idea of the room is right again. -/
theorem Space.step_iff (hc : c.Valid) (h : s.Space c) (a : Act) :
    (AllOk c (s.step c a).checks ↔ AllOk c s.checks ∧ s.Fits c a) ∧
      (s.Fits c a → (s.step c a).Space c) := by
  cases a with
  | start =>
    rw [step]
    split_ifs
    · exact ⟨(and_iff_left trivial).symm, fun _ => h⟩
    · exact ⟨(and_iff_left trivial).symm, fun _ => .of_none rfl rfl⟩
  | input env =>
    rw [step]
    split_ifs with hopen
    · rw [handleInput_eq hc]
      simp only [Bool.not_eq_true'] at hopen
      split_ifs with hnone
      · have hfits : s.Fits c (.input env) := by
          intro _ _ hstop hsize
          rcases hnone with hs | hz
          · simp [hs] at hstop
          · exact absurd hz hsize
        exact ⟨(and_iff_left hfits).symm, fun _ => h⟩
      · simp only [not_or, Bool.not_eq_true] at hnone
        have hfits : s.Fits c (.input env) ↔
            s.HasRoom c (s.sizeToReceive c env.peek) env.pool :=
          ⟨fun hf => hf hopen.1 hopen.2 hnone.1 hnone.2, fun hr _ _ _ _ => hr⟩
        rw [hfits]
        rcases sized_cases hc s env.peek with
          ⟨hz, -, -⟩ | ⟨hsize, -, -, clock, hs⟩ | ⟨h0, hz, hs⟩
        · exact absurd hz hnone.2
        · have hsized : (s.sized c env.peek).Space c := by
            rw [hs]
            exact ⟨h.noBuffer, fun b hb => (h.placed b hb).next hsize⟩
          have hcur : (s.sized c env.peek).curFrameRemainSize = s.sizeToReceive c env.peek := by
            rw [hs]
          have hiff := hsized.receive_iff hc (hcur ▸ hnone.2) env
          rw [hcur, hs] at hiff
          rw [hs]
          exact hiff
        · rw [hs, hz]
          exact h.receive_iff hc h0 env
    · have hfits : s.Fits c (.input env) := fun hr hd => absurd (by simp [hr, hd]) hopen
      exact ⟨(and_iff_left hfits).symm, fun _ => h⟩
  | timeSlice now newOk pool =>
    rw [step]
    split_ifs with hdone
    · obtain ⟨t, t', s', hs', hslice⟩ := checkRecordTimeSlice_cases c s now newOk pool
      have hspace : s'.Space c ∧ s'.checks = s.checks ∧
          (s'.HandsOver c pool ↔ s.HandsOver c pool) := by
        rcases hs' with rfl | ⟨b, indexList, hb, rfl⟩
        · exact ⟨h.congr rfl rfl rfl, rfl, Iff.rfl⟩
        · refine ⟨h.indexList hb indexList t, rfl, ?_⟩
          simp only [HandsOver, hb, Option.mem_def, Option.some.injEq, forall_eq']
          exact Iff.rfl
      obtain ⟨hspace, hchecks, hover⟩ := hspace
      rcases hslice with ⟨hno, he⟩ | ⟨hends, he⟩
      · have hfits : s.Fits c (.timeSlice now newOk pool) := fun _ hends => absurd hends hno
        rw [he, and_iff_left hfits]
        exact ⟨by rw [← hchecks], fun _ => hspace.congr rfl rfl rfl⟩
      · have hfits : s.Fits c (.timeSlice now newOk pool) ↔ s.HandsOver c pool :=
          ⟨fun hf => hf hdone hends, fun ho _ _ => ho⟩
        rw [he, hfits]
        refine ⟨?_, fun _ => (hspace.enqueueTmpfs hc pool).congr rfl rfl rfl⟩
        show AllOk c (s'.enqueueTmpfs c pool).1.checks ↔ _
        rw [enqueueTmpfs_checks, allOk_append, handChecks_ok, hchecks, hover]
    · have hfits : s.Fits c (.timeSlice now newOk pool) := fun hd => absurd hd hdone
      exact ⟨(and_iff_left hfits).symm, fun _ => h⟩
  | close =>
    rw [step]
    split_ifs with hopen
    · simp only [Bool.not_eq_true'] at hopen
      have hfits : s.Fits c .close ↔ ∀ b ∈ s.recvRtMediaBuff, b.header.recvedFrameCount ≠ 0 →
          b.posValue ≤ c.writeMediaDataStripeWidth :=
        ⟨fun hf => hf hopen.1 hopen.2, fun hp _ _ => hp⟩
      rw [hfits]
      exact ⟨enqueueDio_checks_ok, fun _ => .of_none enqueueDio_buff (enqueueDio_remain h)⟩
    · have hfits : s.Fits c .close := fun hr hd => absurd (by simp [hr, hd]) hopen
      exact ⟨(and_iff_left hfits).symm, fun _ => h⟩
  | stop =>
    rw [step]
    split_ifs
    · exact ⟨(and_iff_left trivial).symm, fun _ => h.congr rfl rfl rfl⟩
    · exact ⟨(and_iff_left trivial).symm, fun _ => h⟩
  | recordKeyFrame bSwitch =>
    cases bSwitch with
    | true => exact ⟨(and_iff_left trivial).symm, fun _ => h.congr rfl rfl rfl⟩
    | false => exact ⟨(and_iff_left trivial).symm, fun _ => h.congr rfl rfl rfl⟩
  | setTimeRemove remove_time =>
    exact ⟨(and_iff_left trivial).symm, fun _ => h.congr rfl rfl rfl⟩

/-- In a run no subtraction wraps, and what is received fits, exactly if each step stays in the room that
there is. -/
theorem fits_iff (hc : c.Valid) (acts : List Act) :
    Allowed (step c) (Fits c) new acts ↔
      ∀ pre, pre <+: acts → AllOk c (run (step c) new pre).checks := by
  have hnew : new.Space c := .of_none rfl rfl
  refine allowed_iff_of_invariant (J := fun s => AllOk c s.checks) hnew allOk_nil
    fun s a h hok => ?_
  obtain ⟨hiff, hkeep⟩ := h.step_iff hc a
  exact ⟨hiff.trans (and_iff_right hok), hkeep⟩

/-- The least stripe, with the packet header that a datagram has room for. -/
def smallConfig : RecvConfig where
  recvMediaBufferSize := 131072 + 4096 + 85
  writeMediaDataStripeWidth := 131072
  recordTimetickLocal := true
  headerSize := 18
  isKeyFramePos := 0
  packCountPos := 0
  videoSizePos := 18
  timeTickPos := 22

theorem smallConfig_valid : smallConfig.Valid := by
  constructor <;> decide

/-- The first packet of a frame in `btPackCount` packets. -/
def firstPacket (btPackCount : UInt8) : Peek :=
  .head ⟨1, 1400, 1, 0, btPackCount, 1400⟩ svsResultOk

/-- A block can be had, at address 0. -/
def freeBlock : PoolResult := ⟨some (0, fun _ => 0), false, 0, true⟩

theorem fits_iff_small :
    Allowed (step smallConfig) (Fits smallConfig) new
        [.start, .input ⟨firstPacket 1, freeBlock, [], true, 1000⟩] ↔
      ∀ pre, pre <+: [Act.start, .input ⟨firstPacket 1, freeBlock, [], true, 1000⟩] →
        AllOk smallConfig (run (step smallConfig) new pre).checks :=
  fits_iff smallConfig_valid _

/-- A frame in 255 packets, of which the header passes, is received into a block of the least size. -/
theorem big_frame_exceeds :
    (∀ h eosResult, firstPacket 255 = .head h eosResult → checkPackHead h = true) ∧
      ¬ AllOk smallConfig (run (step smallConfig) new
        [.start, .input ⟨firstPacket 255, freeBlock, [], true, 1000⟩]).checks := by
  refine ⟨fun h eosResult he => ?_, ?_⟩
  · cases he
    decide
  · intro hok
    have h := hok (.recv 4112 361590) (by decide)
    exact absurd h (by decide)

end RecvStream

end AllCamera
