import AllCamera.Record.RecvStream.Tiling

/-!
# The two ways of a block to the media processor

`enqueue_dio` hands the block itself over. If there is no other block to go on with, `enqueue_tmpfs` copies the
stripe to a file, and the header, field by field, to a block that stands for the file.

* `MediaHeader`: the whole header of a block. `dioHanded`, `tmpfsHanded`: what is handed over.
* `TmpfsUse`, `tmpfsHeader`: the header of a tmpfs block, which is used again and again.
* `Same`: the two are the same for who writes them. `LastFrame`, `Laid`: where the last frame of a block is.
* `same_iff`: they are the same exactly if the block has a frame that starts in the stripe, and no index breaks.
* `Laying`, `run_laid`: how blocks are in the runs of the receiver that stay in their room.
-/

namespace AllCamera

open Run

/-- `SVS_Media_Index`. -/
structure MediaBreak where
  lastIndexFrameID : UInt32
  lastIndexRecvTime : Int
  newIndexFrameID : UInt32
  newIndexRecvTime : Int
  newIndexMediaPos : UInt32
  deriving DecidableEq, Repr

/-- The members of `SVS_Recv_Media_Header` that are not in `RecvMediaHeader`. The receiver leaves
`IndexBreakList` as it is. -/
structure OtherMembers where
  handlerIndex : UInt32
  indexBreakList : Option (List MediaBreak)
  curRecvFrameID : UInt32
  curRecvedPacketCount : UInt32
  isTmpfsMemory : Bool
  tmpfsFd : Int32
  tmpfsDatalen : UInt32
  tmpfsPos : UInt32
  deriving DecidableEq, Repr

/-- `SVS_Recv_Media_Header`. -/
structure MediaHeader extends RecvMediaHeader, OtherMembers
  deriving DecidableEq, Repr

/-- What `write_media` is called with: a block with the header `header`, of which `stripe` is written. -/
structure HandedBlock where
  header : MediaHeader
  stripe : List UInt8

namespace MediaBuffer

/-- The bytes from the read pointer to the write pointer. -/
def stripe (b : MediaBuffer) : List UInt8 := b.mem.read b.rdPtr (b.wrPtr - b.rdPtr)

/-- What `enqueue_dio` hands over of block `b`. -/
def dioHanded (c : RecvConfig) (b : MediaBuffer) (others : OtherMembers) : Option HandedBlock :=
  if b.header.recvedFrameCount = 0 then none
  else some ⟨⟨b.header, others⟩, (RecvStream.dioBlock c b).stripe⟩

/-- The header that `enqueue_tmpfs` writes over the header `tmpfs` of a tmpfs block. -/
def tmpfsHeaderOf (c : RecvConfig) (h : MediaHeader) (tmpfs : MediaHeader) : MediaHeader :=
  { tmpfs with
    handlerIndex := h.handlerIndex
    firstFrameRecvTime := h.firstFrameRecvTime
    lastFrameRecvTime := h.lastFrameRecvTime
    lastPacketRecvTime := h.lastPacketRecvTime
    mediaDataStartPos := h.mediaDataStartPos
    recvedFrameCount := h.recvedFrameCount
    lastFrameStartPos := h.lastFrameStartPos
    indexList := h.indexList
    curFrameStartPos := h.curFrameStartPos
    curRecvFrameID := h.curRecvFrameID
    curRecvedDataLen := h.curRecvedDataLen
    curRecvedPacketCount := h.curRecvedPacketCount
    tmpfsDatalen := c.writeMediaDataStripeWidth
    isTmpfsMemory := true }

/-- What `enqueue_tmpfs` hands over of block `b`, in a tmpfs block with the header `tmpfs`. -/
def tmpfsHanded (c : RecvConfig) (b : MediaBuffer) (others : OtherMembers) (tmpfs : MediaHeader) : HandedBlock :=
  ⟨tmpfsHeaderOf c ⟨b.header, others⟩ tmpfs, (RecvStream.tmpfsBlock c b).stripe⟩

end MediaBuffer

/-! ## The header of a tmpfs block -/

/-- A tmpfs block as it was made, with its file. -/
def MediaHeader.newTmpfs (tmpfsFd : Int32) (tmpfsBufferLen : UInt32) : MediaHeader where
  firstFrameRecvTime := 0
  lastFrameRecvTime := 0
  lastPacketRecvTime := 0
  mediaDataStartPos := 0
  recvedFrameCount := 0
  lastFrameStartPos := 0
  indexList := none
  curFrameStartPos := 0
  curRecvedDataLen := 0
  handlerIndex := 0
  indexBreakList := none
  curRecvFrameID := 0
  curRecvedPacketCount := 0
  isTmpfsMemory := true
  tmpfsFd
  tmpfsDatalen := tmpfsBufferLen
  tmpfsPos := 0

/-- `SVS_Media_Block::release`, as to the header. -/
def MediaHeader.release (h : MediaHeader) : MediaHeader := { h with indexList := none, indexBreakList := none }

/-- The header of a tmpfs block that was used for blocks with the headers `uses` and released each time. -/
def tmpfsHeader (c : RecvConfig) (tmpfsFd : Int32) (tmpfsBufferLen : UInt32) (uses : List MediaHeader) :
    MediaHeader :=
  uses.foldl (fun tmpfs h => (MediaBuffer.tmpfsHeaderOf c h tmpfs).release) (.newTmpfs tmpfsFd tmpfsBufferLen)

/-- It never has an index break. -/
theorem tmpfsHeader_indexBreakList (c : RecvConfig) (tmpfsFd : Int32) (tmpfsBufferLen : UInt32)
    (uses : List MediaHeader) : (tmpfsHeader c tmpfsFd tmpfsBufferLen uses).indexBreakList = none := by
  induction uses using List.reverseRecOn with
  | nil => rfl
  | append_singleton uses h _ =>
    rw [tmpfsHeader, List.foldl_append]
    rfl

/-! ## The same block -/

/-- The same stripe, and the same values of the members that `SVS_File_Egress` reads. -/
structure HandedBlock.Same (d t : HandedBlock) : Prop where
  stripe : t.stripe = d.stripe
  firstFrameRecvTime : t.header.firstFrameRecvTime = d.header.firstFrameRecvTime
  lastFrameRecvTime : t.header.lastFrameRecvTime = d.header.lastFrameRecvTime
  lastPacketRecvTime : t.header.lastPacketRecvTime = d.header.lastPacketRecvTime
  recvedFrameCount : t.header.recvedFrameCount = d.header.recvedFrameCount
  mediaDataStartPos : t.header.mediaDataStartPos = d.header.mediaDataStartPos
  indexList : t.header.indexList = d.header.indexList
  indexBreakList : t.header.indexBreakList = d.header.indexBreakList

namespace MediaBuffer

variable {c : RecvConfig} {b : MediaBuffer}

/-- The last frame of a block: with its extended header it ends where the next one starts, and it was not
stretched if it ends with the stripe. -/
structure LastFrame (c : RecvConfig) (b : MediaBuffer) : Prop where
  start : b.header.mediaDataStartPos.toNat ≤ b.header.lastFrameStartPos.toNat
  size : b.header.lastFrameStartPos.toNat + (b.nFrameSize b.header.lastFrameStartPos).toNat =
    b.header.curFrameStartPos.toNat
  long : 16 ≤ (b.nFrameSize b.header.lastFrameStartPos).toNat
  adjust : c.writeMediaDataStripeWidth = b.posValue →
    b.nAdjustFrameSize b.header.lastFrameStartPos = b.nFrameSize b.header.lastFrameStartPos

/-- A receive buffer: the data starts at the read pointer, and if there is a frame, the last one is where the
header says. -/
structure Laid (c : RecvConfig) (b : MediaBuffer) : Prop where
  rd : b.rdPtr = b.header.mediaDataStartPos.toNat
  last : b.header.recvedFrameCount ≠ 0 → b.LastFrame c

/-- The last frame starts in the stripe. -/
def InStripe (c : RecvConfig) (b : MediaBuffer) : Prop :=
  b.header.lastFrameStartPos.toNat ≤ b.header.mediaDataStartPos.toNat + c.writeMediaDataStripeWidth.toNat

instance (c : RecvConfig) (b : MediaBuffer) : Decidable (b.InStripe c) :=
  inferInstanceAs (Decidable (_ ≤ _))

/-- The write pointer is put to the end of the stripe exactly if the last frame starts in it. -/
theorem LastFrame.dioBlock_wrPtr_iff (h : b.LastFrame c) :
    (RecvStream.dioBlock c b).wrPtr =
        b.header.mediaDataStartPos.toNat + c.writeMediaDataStripeWidth.toNat ↔ b.InStripe c := by
  have hstart := h.start
  have hsize := h.size
  have hstripe := c.writeMediaDataStripeWidth.toNat_lt
  have hcur := b.header.curFrameStartPos.toNat_lt
  have hpos : b.posValue.toNat =
      b.header.curFrameStartPos.toNat - b.header.mediaDataStartPos.toNat :=
    UInt32.toNat_sub_of_le _ _ (UInt32.le_iff_toNat_le.mpr (by omega))
  unfold InStripe RecvStream.dioBlock MediaBuffer.adjustLastFrame
  dsimp only
  split_ifs with hne
  · have hadjust : (nAdjustFrameSize
        { b with
          mem := b.mem.setU32 (b.header.lastFrameStartPos.toNat + 4)
            (b.nFrameSize b.header.lastFrameStartPos + (c.writeMediaDataStripeWidth - b.posValue)) }
        b.header.lastFrameStartPos).toNat =
        ((b.nFrameSize b.header.lastFrameStartPos).toNat +
          (2 ^ 32 - b.posValue.toNat + c.writeMediaDataStripeWidth.toNat) % 2 ^ 32) % 2 ^ 32 := by
      rw [nAdjustFrameSize, Memory.u32_setU32, UInt32.toNat_add, UInt32.toNat_sub]
    rw [hadjust, hpos]
    omega
  · have heq := not_not.mp hne
    have hadjust : b.nAdjustFrameSize b.header.lastFrameStartPos = b.nFrameSize b.header.lastFrameStartPos :=
      h.adjust heq
    have heq' := congrArg UInt32.toNat heq
    rw [hadjust]
    omega

/-- The stripe that is copied to the file is the one that is handed over itself. -/
theorem LastFrame.stripe_iff (h : b.LastFrame c) (hrd : b.rdPtr = b.header.mediaDataStartPos.toNat) :
    (RecvStream.tmpfsBlock c b).stripe = (RecvStream.dioBlock c b).stripe ↔ b.InStripe c := by
  have hstart := h.start
  have hrd' : (RecvStream.dioBlock c b).rdPtr = b.rdPtr := adjustLastFrame_rdPtr
  have htmpfs : (RecvStream.tmpfsBlock c b).stripe =
      (RecvStream.dioBlock c b).mem.read b.rdPtr c.writeMediaDataStripeWidth.toNat := by
    simp only [stripe, RecvStream.tmpfsBlock, adjustLastFrame_rdPtr, Nat.add_sub_cancel_left]
    rfl
  have hge : b.header.lastFrameStartPos.toNat ≤ (RecvStream.dioBlock c b).wrPtr := Nat.le_add_right _ _
  rw [← h.dioBlock_wrPtr_iff, htmpfs, stripe, hrd']
  constructor
  · intro heq
    have hlen := congrArg List.length heq
    rw [Memory.length_read, Memory.length_read] at hlen
    omega
  · intro heq
    congr 1
    omega

/-- **The two ways are the same** exactly if the block has a frame, the last one starts in the stripe, and there
are no index breaks. -/
theorem Laid.same_iff (h : b.Laid c) (others : OtherMembers) (tmpfsFd : Int32) (tmpfsBufferLen : UInt32)
    (uses : List MediaHeader) :
    (∃ d ∈ b.dioHanded c others, d.Same (b.tmpfsHanded c others (tmpfsHeader c tmpfsFd tmpfsBufferLen uses))) ↔
      b.header.recvedFrameCount ≠ 0 ∧ b.InStripe c ∧ others.indexBreakList = none := by
  have hbreak := tmpfsHeader_indexBreakList c tmpfsFd tmpfsBufferLen uses
  generalize tmpfsHeader c tmpfsFd tmpfsBufferLen uses = tmpfs at hbreak
  unfold dioHanded
  split_ifs with h0
  · simp [h0]
  · have hstripe := (h.last h0).stripe_iff h.rd
    simp only [Option.mem_def, Option.some.injEq, exists_eq_left', h0, ne_eq, not_false_eq_true, true_and]
    constructor
    · intro hsame
      exact ⟨hstripe.mp hsame.stripe, hsame.indexBreakList.symm.trans hbreak⟩
    · rintro ⟨hin, hnone⟩
      exact
        { stripe := hstripe.mpr hin
          firstFrameRecvTime := rfl
          lastFrameRecvTime := rfl
          lastPacketRecvTime := rfl
          recvedFrameCount := rfl
          mediaDataStartPos := rfl
          indexList := rfl
          indexBreakList := hbreak.trans hnone.symm }

/-! ## What happens to a block -/

theorem Laid.init (c : RecvConfig) (b : MediaBuffer) : b.init.Laid c where
  rd := rfl
  last := fun h => absurd rfl h

theorem InStripe.init (c : RecvConfig) (b : MediaBuffer) : b.init.InStripe c := Nat.le_add_right _ _

/-- Only what is behind the last frame changes. -/
theorem LastFrame.congr {b' : MediaBuffer} (h : b.LastFrame c)
    (hstart : b'.header.mediaDataStartPos = b.header.mediaDataStartPos)
    (hlast : b'.header.lastFrameStartPos = b.header.lastFrameStartPos)
    (hcur : b'.header.curFrameStartPos = b.header.curFrameStartPos)
    (hmem : ∀ i : Int, i < b.header.curFrameStartPos.toNat → b'.mem i = b.mem i) : b'.LastFrame c := by
  have hsize := h.size
  have hlong := h.long
  have hframe : b'.nFrameSize b.header.lastFrameStartPos = b.nFrameSize b.header.lastFrameStartPos :=
    u32_congr fun i _ hi => hmem i (by omega)
  have hadjust : b'.nAdjustFrameSize b.header.lastFrameStartPos =
      b.nAdjustFrameSize b.header.lastFrameStartPos :=
    u32_congr fun i _ hi => hmem i (by omega)
  have hpos : b'.posValue = b.posValue := by rw [posValue, posValue, hstart, hcur]
  constructor
  case start => rw [hstart, hlast]; exact h.start
  case size => rw [hlast, hcur, hframe]; exact h.size
  case long => rw [hlast, hframe]; exact h.long
  case adjust =>
    rw [hlast, hframe, hadjust, hpos]
    exact h.adjust

/-- A receive buffer whose last frame starts in the stripe. -/
structure InPlace (c : RecvConfig) (b : MediaBuffer) : Prop where
  laid : b.Laid c
  inStripe : b.InStripe c

theorem InPlace.init (c : RecvConfig) (b : MediaBuffer) : b.init.InPlace c := ⟨.init c b, .init c b⟩

theorem InPlace.congr {b' : MediaBuffer} (h : b.InPlace c) (hrd : b'.rdPtr = b.rdPtr)
    (hcount : b'.header.recvedFrameCount = b.header.recvedFrameCount)
    (hstart : b'.header.mediaDataStartPos = b.header.mediaDataStartPos)
    (hlast : b'.header.lastFrameStartPos = b.header.lastFrameStartPos)
    (hcur : b'.header.curFrameStartPos = b.header.curFrameStartPos)
    (hmem : ∀ i : Int, i < b.header.curFrameStartPos.toNat → b'.mem i = b.mem i) : b'.InPlace c := by
  refine ⟨⟨?_, fun h0 => ?_⟩, ?_⟩
  · rw [hrd, hstart]
    exact h.laid.rd
  · exact (h.laid.last (hcount ▸ h0)).congr hstart hlast hcur hmem
  · rw [InStripe, hlast, hstart]
    exact h.inStripe

theorem InPlace.recv (h : b.InPlace c) (hwr : b.header.curFrameStartPos.toNat ≤ b.wrPtr) (data : List UInt8) :
    (b.recv data).InPlace c :=
  h.congr rfl rfl rfl rfl rfl fun _ hi => Memory.write_of_lt (by omega)

theorem InPlace.dropFrame (h : b.InPlace c) : b.dropFrame.InPlace c :=
  h.congr rfl rfl rfl rfl rfl fun _ _ => rfl

/-- A frame that is stretched does not end with the stripe. -/
theorem InPlace.adjust (h : b.InPlace c) :
    (b.adjustLastFrame c.writeMediaDataStripeWidth).InPlace c := by
  unfold adjustLastFrame
  split_ifs with hne
  · refine ⟨⟨h.laid.rd, fun h0 => ?_⟩, h.inStripe⟩
    have hlast := h.laid.last h0
    have hframe : nFrameSize
        { b with
          mem := b.mem.setU32 (b.header.lastFrameStartPos.toNat + 4)
            (b.nFrameSize b.header.lastFrameStartPos + (c.writeMediaDataStripeWidth - b.posValue)) }
        b.header.lastFrameStartPos = b.nFrameSize b.header.lastFrameStartPos :=
      Memory.u32_setU32_of_disjoint (.inl (by omega))
    exact
      { start := hlast.start
        size := by rw [hframe]; exact hlast.size
        long := by rw [hframe]; exact hlast.long
        adjust := fun heq => absurd heq hne }
  · exact h

variable {remain cur : UInt32}

/-- A complete frame is the last one. -/
theorem InPlace.complete (h : b.InPlace c) (hplaced : b.Placed c remain cur)
    (hwr : b.BehindRecved)
    (hin : b.header.curFrameStartPos.toNat ≤
      b.header.mediaDataStartPos.toNat + c.writeMediaDataStripeWidth.toNat) (size tick : UInt32) (time : Int) :
    (b.complete c size tick time).InPlace c := by
  obtain ⟨nPacketCount, hcount, hmem⟩ := complete_mem c b size tick time
  have hstart := hplaced.complete_start hwr size tick time
  have hlen := hplaced.complete_len hwr
  have hframe : (b.complete c size tick time).nFrameSize b.header.curFrameStartPos =
      b.header.curRecvedDataLen + extHeadSize := by
    rw [nFrameSize, hmem, Memory.u32_write_append]
  have hadjust : (b.complete c size tick time).nAdjustFrameSize b.header.curFrameStartPos =
      b.header.curRecvedDataLen + extHeadSize := by
    rw [nAdjustFrameSize, hmem, ← Memory.write_append]
    exact Memory.u32_write_append _ _ _ _
  refine ⟨⟨?_, fun _ => ?_⟩, ?_⟩
  · rw [complete_rdPtr, complete_mediaDataStartPos]
    exact h.laid.rd
  · constructor
    case start =>
      rw [complete_mediaDataStartPos, complete_lastFrameStartPos]
      exact hplaced.le
    case size =>
      rw [complete_lastFrameStartPos, hframe, hlen, hstart]
      omega
    case long =>
      rw [complete_lastFrameStartPos, hframe, hlen]
      omega
    case adjust =>
      intro _
      rw [complete_lastFrameStartPos, hframe, hadjust]
  · rw [InStripe, complete_lastFrameStartPos, complete_mediaDataStartPos]
    exact hin

end MediaBuffer

/-! ## The runs of the receiver -/

namespace RecvStream

variable {c : RecvConfig} {s : RecvStream} {b : MediaBuffer} {r : PoolResult} {env : InputEnv}

/-- The receiver's idea of the room is right, and its block is a receive buffer with the last frame in the
stripe. -/
structure Laying (c : RecvConfig) (s : RecvStream) : Prop where
  space : s.Space c
  inPlace : ∀ b ∈ s.recvRtMediaBuff, b.InPlace c

theorem inPlace_some {s' : RecvStream} (hb : s'.recvRtMediaBuff = some b) (h : b.InPlace c) :
    ∀ b ∈ s'.recvRtMediaBuff, b.InPlace c := by
  rw [hb]
  rintro _ ⟨⟩
  exact h

theorem inPlace_enqueueTmpfs (h : ∀ b ∈ s.recvRtMediaBuff, b.InPlace c) (r : PoolResult) :
    ∀ b ∈ (s.enqueueTmpfs c r).1.recvRtMediaBuff, b.InPlace c := by
  rcases enqueueTmpfs_cases c s r with ⟨base, mem, ha, he⟩ | ⟨ha, hno, he⟩ | ⟨b, ha, hb, ht, he⟩
  · rw [he]
    exact inPlace_some rfl (.init c _)
  · rw [he]
    exact h
  · rcases he with ⟨-, he⟩ | ⟨-, -, he⟩ | ⟨-, -, he⟩
    · rw [he]
      exact inPlace_some rfl (h b hb).adjust
    · rw [he]
      exact inPlace_some rfl (h b hb).adjust
    · rw [he]
      exact inPlace_some rfl (.init c _)

/-- Bytes are received for a frame that starts in the stripe. -/
theorem inPlace_recvMediaData (h : s.Space c) (hb : s.recvRtMediaBuff = some b) (hin : b.InPlace c)
    (hwr : b.BehindRecved) (hfits : s.curFrameRemainSize.toNat ≤ s.remainRecvBuffSize.toNat)
    (hcur : b.header.curFrameStartPos.toNat ≤
      b.header.mediaDataStartPos.toNat + c.writeMediaDataStripeWidth.toNat) (env : InputEnv) :
    ∀ b ∈ (s.recvMediaData c env).1.recvRtMediaBuff, b.InPlace c := by
  have hplaced := h.placed b hb
  generalize htake : env.data.take s.curFrameRemainSize.toNat = data
  have hdata : data.length ≤ s.remainRecvBuffSize.toNat := by
    rw [← htake]
    exact Nat.le_trans (List.length_take_le _ _) hfits
  have hrecv : (b.recv data).InPlace c := hin.recv (by omega) data
  have hcombine (s' : RecvStream) (hb' : s'.recvRtMediaBuff = some (b.recv data)) :
      ∀ b ∈ (s'.combinPacket c env.now).1.recvRtMediaBuff, b.InPlace c := by
    rcases combinPacket_cases hb' env.now with ⟨rate, lost, he⟩ | ⟨rate, lost, clock, tick, time, he⟩
    · rw [he]
      exact inPlace_some rfl hrecv.dropFrame
    · rw [he]
      have hwr' : (b.recv data).wrPtr =
          (b.recv data).header.curFrameStartPos.toNat + 16 + (b.recv data).recved.length := by
        simp only [MediaBuffer.recv, List.length_append]
        omega
      have hcomplete := hrecv.complete (hplaced.recv hwr hdata 0) hwr' hcur s'.curFrameSize tick time
      unfold reserveHeader
      split_ifs
      · exact inPlace_some rfl (hcomplete.congr rfl rfl rfl rfl rfl fun _ _ => rfl)
      · exact inPlace_some rfl hcomplete
  unfold RecvStream.recvMediaData
  rw [hb]
  dsimp only
  rw [htake]
  split_ifs with hempty _ hdone
  · exact inPlace_some rfl hin
  · exact inPlace_some rfl hin
  · exact hcombine _ rfl
  · exact hcombine _ rfl
  · exact inPlace_some rfl hrecv

theorem inPlace_receive (hc : c.Valid) (h : s.Laying c) (hcur : s.curFrameRemainSize ≠ 0) (env : InputEnv)
    (hroom : s.HasRoom c s.curFrameRemainSize env.pool) :
    ∀ b ∈ (s.receive c env).recvRtMediaBuff, b.InPlace c := by
  let s' : RecvStream := { s with checks := s.checks ++ s.reserveChecks }
  have h' : s'.Space c := h.space.congr rfl rfl rfl
  have hin : ∀ b ∈ s'.recvRtMediaBuff, b.InPlace c := h.inPlace
  unfold receive
  rw [takeBuffer_eq]
  by_cases hneeds : s.NeedsBuffer
  · have htaken := inPlace_enqueueTmpfs hin env.pool
    have hspace := h'.enqueueTmpfs hc env.pool
    rw [if_pos hneeds]
    show ∀ b ∈ (if (s'.enqueueTmpfs c env.pool).2 = svsResultOk then
      ((s'.enqueueTmpfs c env.pool).1.recvMediaData c env).1
      else (s'.enqueueTmpfs c env.pool).1).recvRtMediaBuff, b.InPlace c
    split_ifs with hok
    · obtain ⟨b, hbase, hb, hremain, hcur'⟩ := enqueueTmpfs_ok hok
      have hsize : s.curFrameRemainSize ≤ c.room b.base := (hroom.2 hneeds).2 b.base hbase
      apply inPlace_recvMediaData hspace hb (.init c b) rfl
      · rw [hcur', hremain]
        exact UInt32.le_iff_toNat_le.mp hsize
      · exact Nat.le_add_right _ _
    · exact htaken
  · have h0 : s.remainRecvBuffSize ≠ 0 := fun h0 => hneeds (.inl h0)
    obtain ⟨b, hb, hwr, hfits⟩ := h.space.kept hneeds hcur (hroom.1.resolve_left h0)
    have hplaced := h.space.placed b hb
    rw [if_neg hneeds, if_pos rfl]
    apply inPlace_recvMediaData h' hb (h.inPlace b hb) hwr
    · exact Nat.le_trans (Nat.le_add_right _ _) hfits
    · have hroom := hplaced.room
      have hbuffer := hc.buffer
      have hbounds := dataStartPos_bounds b.base
      rw [toNat_align, toNat_recvMediaHeaderSize] at hbuffer
      rw [← hplaced.start] at hbounds
      omega

theorem Laying.step (hc : c.Valid) (h : s.Laying c) {a : Act} (ha : s.Fits c a) : (s.step c a).Laying c := by
  refine ⟨(h.space.step_iff hc a).2 ha, ?_⟩
  cases a with
  | start =>
    rw [RecvStream.step]
    split_ifs
    · exact h.inPlace
    · intro b hb
      cases hb
  | input env =>
    rw [RecvStream.step]
    split_ifs with hopen
    · rw [handleInput_eq hc]
      simp only [Bool.not_eq_true'] at hopen
      split_ifs with hnone
      · exact h.inPlace
      · simp only [not_or, Bool.not_eq_true] at hnone
        have hroom := ha hopen.1 hopen.2 hnone.1 hnone.2
        rcases sized_cases hc s env.peek with ⟨hz, -, -⟩ | ⟨hsize, -, -, clock, hs⟩ | ⟨h0, hz, hs⟩
        · exact absurd hz hnone.2
        · have hsized : (s.sized c env.peek).Laying c := by
            rw [hs]
            exact ⟨⟨h.space.noBuffer, fun b hb => (h.space.placed b hb).next hsize⟩, h.inPlace⟩
          have hcur : (s.sized c env.peek).curFrameRemainSize = s.sizeToReceive c env.peek := by
            rw [hs]
          apply inPlace_receive hc hsized (hcur ▸ hnone.2) env
          rw [hcur, hs]
          exact hroom
        · rw [hs]
          rw [hz] at hroom
          exact inPlace_receive hc h h0 env hroom
    · exact h.inPlace
  | timeSlice now newOk pool =>
    rw [RecvStream.step]
    split_ifs with hdone
    · obtain ⟨t, t', s', hs', hslice⟩ := checkRecordTimeSlice_cases c s now newOk pool
      have hin : ∀ b ∈ s'.recvRtMediaBuff, b.InPlace c := by
        rcases hs' with rfl | ⟨b, indexList, hb, rfl⟩
        · exact h.inPlace
        · exact inPlace_some rfl ((h.inPlace b hb).congr rfl rfl rfl rfl rfl fun _ _ => rfl)
      rcases hslice with ⟨-, he⟩ | ⟨-, he⟩
      · rw [he]
        exact hin
      · rw [he]
        exact inPlace_enqueueTmpfs hin pool
    · exact h.inPlace
  | close =>
    rw [RecvStream.step]
    split_ifs with hopen
    · show ∀ b ∈ (s.enqueueDio c).recvRtMediaBuff, b.InPlace c
      rw [enqueueDio_buff]
      intro b hb
      cases hb
    · exact h.inPlace
  | stop =>
    rw [RecvStream.step]
    split_ifs <;> exact h.inPlace
  | recordKeyFrame bSwitch =>
    cases bSwitch <;> exact h.inPlace
  | setTimeRemove remove_time => exact h.inPlace

theorem Laying.new (c : RecvConfig) : RecvStream.new.Laying c := ⟨.of_none rfl rfl, nofun⟩

theorem run_laying (hc : c.Valid) {acts : List Act} (h : Allowed (step c) (Fits c) new acts) :
    (run (step c) new acts).Laying c :=
  h.invariant (.new c) fun _ _ hs ha => hs.step hc ha

/-- **The two ways are the same** for a receive buffer exactly if it has a frame, the last one starts in the
stripe, and there are no index breaks; in the runs that stay in their room the last frame does. -/
theorem tmpfs_same_iff (c : RecvConfig) (others : OtherMembers) (tmpfsFd : Int32) (tmpfsBufferLen : UInt32)
    (uses : List MediaHeader) :
    (∀ b : MediaBuffer, b.Laid c →
      ((∃ d ∈ b.dioHanded c others,
          d.Same (b.tmpfsHanded c others (tmpfsHeader c tmpfsFd tmpfsBufferLen uses))) ↔
        b.header.recvedFrameCount ≠ 0 ∧ b.InStripe c ∧ others.indexBreakList = none)) ∧
    (c.Valid → ∀ acts, Allowed (step c) (Fits c) new acts →
      ∀ b ∈ (run (step c) new acts).recvRtMediaBuff,
        ((∃ d ∈ b.dioHanded c others,
            d.Same (b.tmpfsHanded c others (tmpfsHeader c tmpfsFd tmpfsBufferLen uses))) ↔
          b.header.recvedFrameCount ≠ 0 ∧ others.indexBreakList = none)) := by
  constructor
  · intro b hb
    exact hb.same_iff others tmpfsFd tmpfsBufferLen uses
  · intro hc acts hacts b hb
    have hplace := (run_laying hc hacts).inPlace b hb
    rw [hplace.laid.same_iff, and_iff_right hplace.inStripe]

/-- The members of a header that the receiver has just made, with an index break in front of frame 1. -/
def brokenMembers : OtherMembers := ⟨0, some [⟨0, 0, 1, 1000, 0⟩], 0, 0, false, -1, 0, 0⟩

/-- The same without it. -/
def plainMembers : OtherMembers := { brokenMembers with indexBreakList := none }

/-- A frame comes in. -/
def frameActs : List Act := [.start, .input (audioInput 5)]

/-- The first byte of a frame of 127620 bytes, for which a block has room, but not for 4096 more. -/
def longFrameActs : List Act :=
  [.start, .input { audioInput 5 with peek := .head ⟨1, 126000, 1, 0, 90, 1400⟩ svsResultOk, data := [0] }]

theorem tmpfs_same_iff_frame :
    ∀ b ∈ (run (step smallConfig) new frameActs).recvRtMediaBuff,
      ∃ d ∈ b.dioHanded smallConfig plainMembers,
        d.Same (b.tmpfsHanded smallConfig plainMembers (tmpfsHeader smallConfig 3 131072 [])) := by
  intro b hb
  have hfits : Allowed (step smallConfig) (Fits smallConfig) new frameActs := by
    refine ⟨trivial, fun _ _ _ _ => ?_, trivial⟩
    decide
  have hframe : ∀ b ∈ (run (step smallConfig) new frameActs).recvRtMediaBuff,
      b.header.recvedFrameCount ≠ 0 := by
    decide
  exact ((tmpfs_same_iff smallConfig plainMembers 3 131072 []).2 smallConfig_valid _ hfits b hb).mpr
    ⟨hframe b hb, rfl⟩

/-- The index break is not handed over with the tmpfs block; and a block that has to be changed before it has a
whole frame is handed over with it only. -/
theorem not_same_tmpfs :
    (∃ b ∈ (run (step smallConfig) new frameActs).recvRtMediaBuff,
      ¬ ∃ d ∈ b.dioHanded smallConfig brokenMembers,
        d.Same (b.tmpfsHanded smallConfig brokenMembers (tmpfsHeader smallConfig 3 131072 []))) ∧
    (run (step smallConfig) new longFrameActs).NeedsBuffer ∧
      ∃ b ∈ (run (step smallConfig) new longFrameActs).recvRtMediaBuff,
        b.dioHanded smallConfig plainMembers = none := by
  refine ⟨?_, by decide, ?_⟩
  · obtain ⟨b, hb⟩ : ∃ b, (run (step smallConfig) new frameActs).recvRtMediaBuff = some b :=
      Option.isSome_iff_exists.mp (by decide)
    refine ⟨b, hb, ?_⟩
    rintro ⟨d, hd, hsame⟩
    unfold MediaBuffer.dioHanded at hd
    split_ifs at hd
    · cases hd
    · cases hd
      exact nomatch hsame.indexBreakList
  · obtain ⟨b, hb⟩ : ∃ b, (run (step smallConfig) new longFrameActs).recvRtMediaBuff = some b :=
      Option.isSome_iff_exists.mp (by decide)
    have hcount : ∀ b ∈ (run (step smallConfig) new longFrameActs).recvRtMediaBuff,
        b.header.recvedFrameCount = 0 := by
      decide
    exact ⟨b, hb, if_pos (hcount b hb)⟩

end RecvStream

end AllCamera
