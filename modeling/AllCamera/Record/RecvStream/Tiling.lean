import AllCamera.Record.RecvStream.Space

/-!
# The frames in a block

A block is given to the media processor as one stripe, and whoever reads the stripe later goes from frame
to frame by `nAdjustFrameSize`, which makes the last frame end with the stripe.

* `FrameAt`, `Tiles`: frames in memory, one behind the other.
* `Filled`: the frames in a block that is being filled; `Striped`: in one that was given away.
* `run_tiled`: in a run in which each frame fits in a block (`Whole`), all blocks that are given away are
  `Striped`, and the pointers are right while a frame is received.
-/

namespace AllCamera

open AllCamera.Run

/-- Frame `f` lies at `pos`, as it was received but for the time tick; the size by the packet header is that
of its data. -/
structure FrameAt (c : RecvConfig) (m : Memory) (pos : Nat) (f : RecvFrame) : Prop where
  whole : f.size.toNat = f.data.length
  size : (m.u32 pos).toNat = 16 + f.data.length
  adjust : 16 + f.data.length ≤ (m.u32 (pos + 4)).toNat
  bytes : ∀ k x, f.data[k]? = some x → k < c.timeTickPos ∨ c.timeTickPos + 4 ≤ k →
    m (pos + 16 + k) = x
  tick : c.timeTickPos + 4 ≤ f.data.length → m.u32 (pos + 16 + c.timeTickPos) = f.nTimeTick

/-- The frames `fs` lie from `pos` to `stop`, each at the step by `nAdjustFrameSize` from the last one. -/
def Tiles (c : RecvConfig) (m : Memory) : Nat → List RecvFrame → Nat → Prop
  | pos, [], stop => pos = stop
  | pos, f :: fs, stop => FrameAt c m pos f ∧ Tiles c m (pos + (m.u32 (pos + 4)).toNat) fs stop

section Tiles

variable {c : RecvConfig} {m m' : Memory} {pos stop : Nat} {f : RecvFrame} {fs : List RecvFrame}

theorem u32_congr {p : Int} (h : ∀ i, p ≤ i → i < p + 4 → m' i = m i) : m'.u32 p = m.u32 p := by
  rw [Memory.u32, Memory.u32, h _ (by omega) (by omega), h _ (by omega) (by omega),
    h _ (by omega) (by omega), h _ (by omega) (by omega)]

theorem FrameAt.congr (h : FrameAt c m pos f)
    (hm : ∀ i : Int, pos ≤ i → i < pos + 16 + f.data.length → m' i = m i) :
    FrameAt c m' pos f where
  whole := h.whole
  size := by
    rw [u32_congr fun i h1 h2 => hm i h1 (by omega)]
    exact h.size
  adjust := by
    rw [u32_congr fun i h1 h2 => hm i (by omega) (by omega)]
    exact h.adjust
  bytes k x hk hout := by
    have hlt : k < f.data.length := (List.getElem?_eq_some_iff.mp hk).1
    rw [hm _ (by omega) (by omega)]
    exact h.bytes k x hk hout
  tick ht := by
    rw [u32_congr fun i h1 h2 => hm i (by omega) (by omega)]
    exact h.tick ht

theorem Tiles.le (h : Tiles c m pos fs stop) : pos + 16 * fs.length ≤ stop := by
  induction fs generalizing pos with
  | nil =>
    have : pos = stop := h
    simp [this]
  | cons f fs ih =>
    have htail := ih h.2
    have hadjust := h.1.adjust
    rw [List.length_cons]
    omega

/-- What is written behind the frames does not matter. -/
theorem Tiles.congr (h : Tiles c m pos fs stop)
    (hm : ∀ i : Int, pos ≤ i → i < stop → m' i = m i) : Tiles c m' pos fs stop := by
  induction fs generalizing pos with
  | nil => exact h
  | cons f fs ih =>
    have hle := h.2.le
    have hadjust := h.1.adjust
    have hstep : m'.u32 (pos + 4) = m.u32 (pos + 4) :=
      u32_congr fun i h1 h2 => hm i (by omega) (by omega)
    refine ⟨h.1.congr fun i h1 h2 => hm i h1 (by omega), ?_⟩
    rw [hstep]
    exact ih h.2 fun i h1 h2 => hm i (by omega) h2

theorem Tiles.snoc (h : Tiles c m pos fs stop) (hf : FrameAt c m stop f) :
    Tiles c m pos (fs ++ [f]) (stop + (m.u32 (stop + 4)).toNat) := by
  induction fs generalizing pos with
  | nil =>
    have : pos = stop := h
    subst this
    exact ⟨hf, rfl⟩
  | cons g fs ih => exact ⟨h.1, ih h.2⟩

end Tiles

/-- Frames from `start` on, of which the last one starts at `last` and ends at `cur`. -/
def Chain (c : RecvConfig) (m : Memory) (frames : List RecvFrame) (start last cur : Nat) : Prop :=
  frames = [] ∧ start = cur ∨
    ∃ fs f, frames = fs ++ [f] ∧ Tiles c m start fs last ∧ FrameAt c m last f ∧
      (m.u32 (last + 4)).toNat = 16 + f.data.length ∧ last + 16 + f.data.length = cur

section Chain

variable {c : RecvConfig} {m m' : Memory} {frames : List RecvFrame} {start last cur : Nat}

theorem Chain.tiles (h : Chain c m frames start last cur) : Tiles c m start frames cur := by
  rcases h with ⟨rfl, hstart⟩ | ⟨fs, f, rfl, htiles, hf, hadjust, hend⟩
  · exact hstart
  · rw [← hend, Nat.add_assoc, ← hadjust]
    exact htiles.snoc hf

theorem Chain.congr (h : Chain c m frames start last cur)
    (hm : ∀ i : Int, start ≤ i → i < cur → m' i = m i) : Chain c m' frames start last cur := by
  rcases h with h | ⟨fs, f, rfl, htiles, hf, hadjust, hend⟩
  · exact .inl h
  · have hle := htiles.le
    refine .inr ⟨fs, f, rfl, htiles.congr fun i h1 h2 => hm i h1 (by omega),
      hf.congr fun i h1 h2 => hm i (by omega) (by omega), ?_, hend⟩
    rw [u32_congr fun i h1 h2 => hm i (by omega) (by omega)]
    exact hadjust

/-- The last frame is made to end at `stop`. -/
theorem Chain.stretch {stop : Nat} {w : UInt32} (h : Chain c m frames start last cur)
    (hne : frames ≠ []) (hw : w.toNat + last = stop) (hle : cur ≤ stop) :
    Tiles c (m.setU32 (last + 4) w) start frames stop := by
  rcases h with ⟨rfl, -⟩ | ⟨fs, f, rfl, htiles, hf, hadjust, hend⟩
  · exact absurd rfl hne
  have hnew : (m.setU32 (last + 4) w).u32 (last + 4) = w := Memory.u32_setU32 _ _ _
  have hbehind : FrameAt c (m.setU32 (last + 4) w) last f :=
    { whole := hf.whole
      size := by
        rw [Memory.u32_setU32_of_disjoint (.inl (by omega))]
        exact hf.size
      adjust := by
        rw [hnew]
        omega
      bytes := by
        intro k x hk hout
        rw [Memory.setU32_of_ge (by omega)]
        exact hf.bytes k x hk hout
      tick := by
        intro ht
        rw [Memory.u32_setU32_of_disjoint (.inr (by omega))]
        exact hf.tick ht }
  have hfront : Tiles c (m.setU32 (last + 4) w) start fs last :=
    htiles.congr fun i h1 h2 => Memory.setU32_of_lt (by omega)
  have hall := hfront.snoc hbehind
  rwa [hnew, Nat.add_comm, hw] at hall

end Chain

namespace MediaBuffer

variable {c : RecvConfig} {b : MediaBuffer} {remain cur : UInt32} {data : List UInt8}

/-- What is in a block that is being filled. -/
structure Filled (c : RecvConfig) (b : MediaBuffer) : Prop where
  count : b.header.recvedFrameCount.toNat = b.frames.length
  recved : ∀ (k : Nat) x, b.recved[k]? = some x →
    b.mem (b.header.curFrameStartPos.toNat + 16 + k) = x
  frames : Chain c b.mem b.frames b.header.mediaDataStartPos.toNat
    b.header.lastFrameStartPos.toNat b.header.curFrameStartPos.toNat

/-- A block that was given away: one stripe, with one frame behind the other to its end. -/
structure Striped (c : RecvConfig) (b : MediaBuffer) : Prop where
  start : b.rdPtr = b.header.mediaDataStartPos.toNat
  stripe : b.wrPtr = b.rdPtr + c.writeMediaDataStripeWidth.toNat
  count : b.header.recvedFrameCount.toNat = b.frames.length
  tiles : Tiles c b.mem b.header.mediaDataStartPos.toNat b.frames
    (b.header.mediaDataStartPos.toNat + c.writeMediaDataStripeWidth.toNat)

theorem Filled.init (c : RecvConfig) (b : MediaBuffer) : b.init.Filled c where
  count := rfl
  recved := by simp [MediaBuffer.init]
  frames := .inl ⟨rfl, rfl⟩

theorem Filled.recv (h : b.Filled c)
    (hwr : b.BehindRecved) :
    (b.recv data).Filled c where
  count := h.count
  recved := by
    intro k x hk
    show b.mem.write b.wrPtr data (b.header.curFrameStartPos.toNat + 16 + k) = x
    simp only [MediaBuffer.recv, List.getElem?_append] at hk
    split_ifs at hk with hlt
    · rw [Memory.write_of_lt (by omega)]
      exact h.recved k x hk
    · obtain ⟨hlen, hx⟩ := List.getElem?_eq_some_iff.mp hk
      rw [show ((b.header.curFrameStartPos.toNat : Int) + 16 + k) =
          (b.wrPtr : Int) + ((k - b.recved.length : Nat) : Int) by omega,
        Memory.write_at hlen, List.getD_eq_getElem?_getD, hk, Option.getD_some]
  frames := h.frames.congr fun i h1 h2 => Memory.write_of_lt (by omega)

theorem Filled.dropFrame (h : b.Filled c) : b.dropFrame.Filled c where
  count := h.count
  recved := by simp [MediaBuffer.dropFrame]
  frames := h.frames

/-- The memory of a block after a frame is complete. -/
theorem complete_mem (c : RecvConfig) (b : MediaBuffer) (size tick : UInt32) (time : Int) :
    ∃ nPacketCount : List UInt8, nPacketCount.length = 8 ∧
      (b.complete c size tick time).mem =
        (b.mem.setU32 (b.header.curFrameStartPos.toNat + 16 + c.timeTickPos) tick).write
          b.header.curFrameStartPos.toNat
          (le32Bytes (b.header.curRecvedDataLen + extHeadSize) ++
            (le32Bytes (b.header.curRecvedDataLen + extHeadSize) ++ nPacketCount)) := by
  unfold complete addFrame setTimeTick
  dsimp only
  split_ifs <;>
    exact ⟨le32Bytes _ ++ [0, 0, 0, 0], by simp [le32Bytes], by
      simp only [List.append_assoc]
      rfl⟩

@[simp] theorem complete_frames (c : RecvConfig) (b : MediaBuffer) (size tick : UInt32) (time : Int) :
    (b.complete c size tick time).frames = b.frames ++ [⟨size, b.recved, tick⟩] := by
  unfold complete addFrame setTimeTick
  dsimp only
  split_ifs <;> rfl

@[simp] theorem complete_recvedFrameCount (c : RecvConfig) (b : MediaBuffer) (size tick : UInt32)
    (time : Int) : (b.complete c size tick time).header.recvedFrameCount =
      b.header.recvedFrameCount + 1 := by
  unfold complete addFrame setTimeTick
  dsimp only
  split_ifs <;> rfl

@[simp] theorem complete_lastFrameStartPos (c : RecvConfig) (b : MediaBuffer) (size tick : UInt32)
    (time : Int) : (b.complete c size tick time).header.lastFrameStartPos =
      b.header.curFrameStartPos := by
  unfold complete addFrame setTimeTick
  dsimp only
  split_ifs <;> rfl

/-- A complete frame is the last one. -/
theorem Filled.complete (h : b.Filled c) (hplaced : b.Placed c remain cur)
    (hwr : b.BehindRecved) {size : UInt32}
    (hsize : size.toNat = b.recved.length) (tick : UInt32) (time : Int) :
    (b.complete c size tick time).Filled c where
  count := by
    have hle := h.frames.tiles.le
    have hcount := h.count
    have hlt := b.header.curFrameStartPos.toNat_lt
    rw [complete_recvedFrameCount, complete_frames, UInt32.toNat_add, UInt32.toNat_one,
      List.length_append, List.length_singleton]
    omega
  recved := by simp
  frames := by
    obtain ⟨nPacketCount, hcount, hmem⟩ := complete_mem c b size tick time
    have hstart := hplaced.complete_start hwr size tick time
    have hlen := hplaced.complete_len hwr
    rw [complete_frames, complete_mediaDataStartPos, complete_lastFrameStartPos, hstart, hmem]
    generalize b.header.curRecvedDataLen + extHeadSize = nFrameSize at *
    have hext : (le32Bytes nFrameSize ++ (le32Bytes nFrameSize ++ nPacketCount)).length = 16 := by
      simp [le32Bytes, hcount]
    -- the bytes of the frame, and before it
    have hdata : ∀ i : Int, b.header.curFrameStartPos.toNat + 16 ≤ i →
        (i < b.header.curFrameStartPos.toNat + 16 + c.timeTickPos ∨
          b.header.curFrameStartPos.toNat + 16 + c.timeTickPos + 4 ≤ i) →
        ((b.mem.setU32 (b.header.curFrameStartPos.toNat + 16 + c.timeTickPos) tick).write
          b.header.curFrameStartPos.toNat
          (le32Bytes nFrameSize ++ (le32Bytes nFrameSize ++ nPacketCount))) i = b.mem i := by
      intro i hi hout
      rw [Memory.write_of_ge (by omega)]
      rcases hout with hout | hout
      · exact Memory.setU32_of_lt hout
      · exact Memory.setU32_of_ge hout
    refine .inr ⟨b.frames, _, rfl, h.frames.tiles.congr fun i h1 h2 => ?_, ?_, ?_, ?_⟩
    · rw [Memory.write_of_lt h2, Memory.setU32_of_lt (by omega)]
    · exact
        { whole := hsize
          size := by
            rw [Memory.u32_write_append]
            exact hlen
          adjust := by
            rw [← Memory.write_append, show ((le32Bytes nFrameSize).length : Int) = 4 from rfl,
              Memory.u32_write_append]
            exact Nat.le_of_eq hlen.symm
          bytes := by
            intro k x hk hout
            rw [hdata _ (by omega) (by omega)]
            exact h.recved k x hk
          tick := by
            intro _
            rw [Memory.u32_write_of_disjoint (.inr (by omega)), Memory.u32_setU32] }
    · rw [← Memory.write_append, show ((le32Bytes nFrameSize).length : Int) = 4 from rfl,
        Memory.u32_write_append]
      exact hlen
    · exact hwr.symm

/-! ## A block that is given away -/

/-- The last frame is made to end with the stripe, if the frames do not go beyond it. -/
theorem Filled.adjustLastFrame (h : b.Filled c) (hplaced : b.Placed c remain cur)
    (hne : b.frames ≠ []) (hle : b.posValue ≤ c.writeMediaDataStripeWidth) :
    Tiles c (b.adjustLastFrame c.writeMediaDataStripeWidth).mem b.header.mediaDataStartPos.toNat
        b.frames (b.header.mediaDataStartPos.toNat + c.writeMediaDataStripeWidth.toNat) ∧
      b.header.lastFrameStartPos.toNat +
          ((b.adjustLastFrame c.writeMediaDataStripeWidth).nAdjustFrameSize
            b.header.lastFrameStartPos).toNat =
        b.header.mediaDataStartPos.toNat + c.writeMediaDataStripeWidth.toNat := by
  have hused := hplaced.toNat_posValue
  have hstart := hplaced.le
  rw [UInt32.le_iff_toNat_le] at hle
  obtain ⟨hnil, -⟩ | ⟨fs, f, hfs, htiles, hf, hadjust, hend⟩ := h.frames
  · exact absurd hnil hne
  have hlast := htiles.le
  unfold MediaBuffer.adjustLastFrame
  split_ifs with hstripe
  · have hw : (b.nFrameSize b.header.lastFrameStartPos +
        (c.writeMediaDataStripeWidth - b.posValue)).toNat + b.header.lastFrameStartPos.toNat =
          b.header.mediaDataStartPos.toNat + c.writeMediaDataStripeWidth.toNat := by
      have hsub := UInt32.toNat_sub_of_le _ _ (UInt32.le_iff_toNat_le.mpr hle)
      have hlt := c.writeMediaDataStripeWidth.toNat_lt
      have hsize := hf.size
      rw [UInt32.toNat_add, hsub, nFrameSize, hsize]
      omega
    refine ⟨h.frames.stretch hne hw (by omega), ?_⟩
    show _ + (Memory.u32 (Memory.setU32 _ _ _) _).toNat = _
    rw [Memory.u32_setU32, Nat.add_comm]
    exact hw
  · simp only [ne_eq, not_not] at hstripe
    rw [← hstripe] at hused
    have hcur : b.header.mediaDataStartPos.toNat + c.writeMediaDataStripeWidth.toNat =
        b.header.curFrameStartPos.toNat := by omega
    refine ⟨hcur ▸ h.frames.tiles, ?_⟩
    rw [nAdjustFrameSize, hadjust, hcur]
    omega

theorem Filled.dioBlock (h : b.Filled c) (hplaced : b.Placed c remain cur) (hne : b.frames ≠ [])
    (hle : b.posValue ≤ c.writeMediaDataStripeWidth) : (RecvStream.dioBlock c b).Striped c := by
  obtain ⟨htiles, hend⟩ := h.adjustLastFrame hplaced hne hle
  exact
    { start := by simpa [RecvStream.dioBlock] using hplaced.rd
      stripe := by
        show _ = (b.adjustLastFrame c.writeMediaDataStripeWidth).rdPtr + _
        rw [adjustLastFrame_rdPtr, hplaced.rd]
        exact hend
      count := by simpa [RecvStream.dioBlock] using h.count
      tiles := by simpa [RecvStream.dioBlock] using htiles }

theorem Filled.tmpfsBlock (h : b.Filled c) (hplaced : b.Placed c remain cur) (hne : b.frames ≠ [])
    (hle : b.posValue ≤ c.writeMediaDataStripeWidth) : (RecvStream.tmpfsBlock c b).Striped c where
  start := by simpa [RecvStream.tmpfsBlock] using hplaced.rd
  stripe := rfl
  count := by simpa [RecvStream.tmpfsBlock] using h.count
  tiles := by
    simpa [RecvStream.tmpfsBlock] using (h.adjustLastFrame hplaced hne hle).1

/-- Where the reserve is kept the frames do not go beyond the stripe. -/
theorem Placed.posValue_le (hc : c.Valid) (h : b.Placed c remain cur) (hremain : 4096 ≤ remain.toNat) :
    b.posValue ≤ c.writeMediaDataStripeWidth := by
  have hused := h.toNat_posValue
  have hroom := h.room
  have hbuf := hc.buffer
  have hpos := dataStartPos_bounds b.base
  rw [← h.start] at hpos
  rw [toNat_align, toNat_recvMediaHeaderSize] at hbuf
  have hwr := h.wr
  rw [UInt32.le_iff_toNat_le]
  omega

end MediaBuffer

namespace RecvStream

variable {c : RecvConfig} {s : RecvStream} {b : MediaBuffer} {r : PoolResult}

/-! ## The invariant -/

/-- The frame that is being received fits in the block, and the blocks that were given away are stripes. -/
structure Tiled (c : RecvConfig) (s : RecvStream) : Prop where
  space : s.Space c
  filled : ∀ b ∈ s.recvRtMediaBuff, b.Filled c
  reserve : ∀ b ∈ s.recvRtMediaBuff, 4096 ≤ s.remainRecvBuffSize.toNat
  rest : s.curFrameRemainSize ≠ 0 → ∀ b ∈ s.recvRtMediaBuff,
    b.recved.length + s.curFrameRemainSize.toNat = s.curFrameSize.toNat
  whole : s.receiving = true → s.curFrameRemainSize ≠ 0 → s.recvRtMediaBuff = none →
    s.curFrameRemainSize = s.curFrameSize
  fits : ∀ b ∈ s.recvRtMediaBuff, b.recved ≠ [] →
    s.curFrameRemainSize.toNat + 4096 ≤ s.remainRecvBuffSize.toNat
  idle : s.curFrameRemainSize = 0 → ∀ b ∈ s.recvRtMediaBuff, b.recved = []
  done : s.frameDone = true → s.curFrameRemainSize = 0
  written : ∀ b ∈ s.written, b.Striped c

theorem Tiled.congr {s' : RecvStream} (h : s.Tiled c)
    (hopen : s'.receiving = true → s.receiving = true)
    (hb : s'.recvRtMediaBuff = s.recvRtMediaBuff)
    (hremain : s'.remainRecvBuffSize = s.remainRecvBuffSize)
    (hcur : s'.curFrameRemainSize = s.curFrameRemainSize) (hsize : s'.curFrameSize = s.curFrameSize)
    (hdone : s'.frameDone = true → s.curFrameRemainSize = 0) (hwritten : s'.written = s.written) :
    s'.Tiled c where
  space := h.space.congr hb hremain hcur
  filled := hb ▸ h.filled
  reserve := hb ▸ hremain ▸ h.reserve
  rest := hb ▸ hcur ▸ hsize ▸ h.rest
  whole ho := hb ▸ hcur ▸ hsize ▸ h.whole (hopen ho)
  fits := hb ▸ hcur ▸ hremain ▸ h.fits
  idle := hb ▸ hcur ▸ h.idle
  done := hcur ▸ hdone
  written := hwritten ▸ h.written

/-- With a block without data of the next frame. -/
theorem Tiled.of_start (hspace : s.Space c) (hb : s.recvRtMediaBuff = some b) (hfilled : b.Filled c)
    (hreserve : 4096 ≤ s.remainRecvBuffSize.toNat) (hrecved : b.recved = [])
    (hsize : s.curFrameRemainSize ≠ 0 → s.curFrameRemainSize = s.curFrameSize)
    (hdone : s.frameDone = true → s.curFrameRemainSize = 0)
    (hwritten : ∀ b ∈ s.written, b.Striped c) : s.Tiled c where
  space := hspace
  filled := by simpa [hb] using hfilled
  reserve := by simpa [hb] using hreserve
  rest h0 := by simp [hb, hrecved, hsize h0]
  whole _ _ hn := by simp [hb] at hn
  fits := by simp [hb, hrecved]
  idle := by simp [hb, hrecved]
  done := hdone
  written := hwritten

theorem room_ge (hc : c.Valid) (base : UInt32) : 4096 ≤ (c.room base).toNat := by
  have hroom := hc.room_eq base
  have hpos := dataStartPos_bounds base
  have hmin := hc.stripe_min
  have hreserve := hc.reserve
  rw [toNat_align] at hreserve
  omega

theorem frames_ne_nil (h : b.Filled c) (h0 : b.header.recvedFrameCount ≠ 0) : b.frames ≠ [] := by
  intro hnil
  have hcount := h.count
  rw [hnil] at hcount
  exact h0 (UInt32.toNat_inj.mp hcount)

/-- What `enqueue_dio` hands over is a stripe. -/
theorem Tiled.enqueueDio_written (hc : c.Valid) (h : s.Tiled c) :
    ∀ b ∈ (s.enqueueDio c).written, b.Striped c := by
  intro w hw
  rw [RecvStream.enqueueDio_written, List.mem_append] at hw
  rcases hw with hw | hw
  · exact h.written w hw
  cases hb : s.recvRtMediaBuff with
  | none => simp [hb] at hw
  | some b =>
    rw [hb] at hw
    dsimp only at hw
    split_ifs at hw with h0
    · simp at hw
    · rw [List.mem_singleton.mp hw]
      have hplaced := h.space.placed b hb
      exact (h.filled b hb).dioBlock hplaced (frames_ne_nil (h.filled b hb) h0)
        (hplaced.posValue_le hc (h.reserve b hb))

/-- Data that is moved to tmpfs has a frame in it, and the move succeeds. -/
def Moves (c : RecvConfig) (s : RecvStream) (r : PoolResult) : Prop :=
  r.allocBuffer = none → r.allocTmpfsBuffer = true → ∀ b ∈ s.recvRtMediaBuff,
    b.header.recvedFrameCount ≠ 0 ∧ r.writeResult = c.writeMediaDataStripeWidth ∧
      r.writeMediaOk = true

instance (c : RecvConfig) (s : RecvStream) (r : PoolResult) : Decidable (s.Moves c r) :=
  inferInstanceAs (Decidable (_ → _ → ∀ b ∈ s.recvRtMediaBuff, _))

theorem enqueueDio_rest (c : RecvConfig) (s : RecvStream) :
    (s.enqueueDio c).curFrameSize = s.curFrameSize ∧ (s.enqueueDio c).frameDone = s.frameDone := by
  unfold enqueueDio
  cases s.recvRtMediaBuff with
  | none => exact ⟨rfl, rfl⟩
  | some b =>
    by_cases h0 : b.header.recvedFrameCount = 0
    · simp [h0]
    · simp [h0, checkStripe_eq]

/-- The block is changed at the start of a frame. -/
theorem Tiled.enqueueTmpfs (hc : c.Valid) (h : s.Tiled c) (hmoves : s.Moves c r)
    (hsize : s.curFrameRemainSize ≠ 0 → s.curFrameRemainSize = s.curFrameSize) :
    (s.enqueueTmpfs c r).1.Tiled c := by
  have hspace := h.space.enqueueTmpfs hc r
  rcases enqueueTmpfs_cases c s r with ⟨base, mem, ha, he⟩ | ⟨ha, hno, he⟩ | ⟨b, ha, hb, ht, he⟩
  · rw [he] at hspace ⊢
    obtain ⟨hframe, hdone⟩ := enqueueDio_rest c s
    refine .of_start hspace rfl (.init c _) (room_ge hc base) rfl ?_ ?_ (h.enqueueDio_written hc)
    · simpa only [enqueueDio_cur, hframe] using hsize
    · simpa only [enqueueDio_cur, hdone] using h.done
  · rw [he]
    exact h
  · obtain ⟨hcount, hwrite, hok⟩ := hmoves ha ht b hb
    rcases he with ⟨hne, -⟩ | ⟨-, hno, -⟩ | ⟨-, -, he⟩
    · exact absurd hwrite hne
    · exact absurd (hno.symm.trans hok) (by decide)
    · rw [he] at hspace ⊢
      have hplaced := h.space.placed b hb
      have hblock := (h.filled b hb).tmpfsBlock hplaced (frames_ne_nil (h.filled b hb) hcount)
        (hplaced.posValue_le hc (h.reserve b hb))
      refine .of_start hspace rfl (.init c _) (room_ge hc _) rfl hsize h.done fun w hw => ?_
      rcases List.mem_append.mp hw with hw | hw
      · exact h.written w hw
      · rw [List.mem_singleton.mp hw]
        exact hblock

/-- A frame of which all bytes have been received is dropped or completed. -/
theorem Tiled.combinPacket (h : s.Space c) (hb : s.recvRtMediaBuff = some b) (hfilled : b.Filled c)
    (hwr : b.BehindRecved) (hreserve : 4096 ≤ s.remainRecvBuffSize.toNat) (hcur : s.curFrameRemainSize = 0)
    (hsize : s.curFrameSize.toNat = b.recved.length) (hwritten : ∀ b ∈ s.written, b.Striped c)
    (now : Int) : (s.combinPacket c now).1.Tiled c := by
  have hspace := h.combinPacket hb hcur hwr now
  have hplaced := h.placed b hb
  rcases combinPacket_cases hb now with ⟨rate, lost, he⟩ | ⟨rate, lost, clock, tick, time, he⟩
  · rw [he] at hspace ⊢
    have hroom := hplaced.room
    have hbuf := c.recvMediaBufferSize.toNat_lt
    have hlen := hplaced.len
    refine .of_start hspace rfl hfilled.dropFrame ?_ rfl (fun h0 => absurd hcur h0) (fun _ => hcur)
      hwritten
    simp only [UInt32.toNat_add]
    omega
  · rw [he] at hspace ⊢
    have hcomplete := hfilled.complete hplaced hwr hsize tick time
    unfold reserveHeader at hspace ⊢
    split_ifs at hspace ⊢ with hroom
    · obtain ⟨-, hroom⟩ := hroom
      refine .of_start hspace rfl ⟨hcomplete.count, hcomplete.recved, hcomplete.frames⟩
        (Nat.le_of_lt ?_) rfl (fun h0 => absurd hcur h0) (fun _ => hcur) hwritten
      exact UInt32.lt_iff_toNat_lt.mp hroom
    · exact .of_start hspace rfl hcomplete hreserve rfl (fun h0 => absurd hcur h0) (fun _ => hcur)
        hwritten

/-- Bytes of a frame that fits are received. -/
theorem Tiled.recvMediaData (h : s.Tiled c) (hb : s.recvRtMediaBuff = some b)
    (hwr : b.BehindRecved) (hcur : s.curFrameRemainSize ≠ 0) (hdone : s.frameDone = false)
    (hfits : s.curFrameRemainSize.toNat + 4096 ≤ s.remainRecvBuffSize.toNat) (env : InputEnv) :
    (s.recvMediaData c env).1.Tiled c := by
  have hplaced := h.space.placed b hb
  have hfilled := h.filled b hb
  generalize htake : env.data.take s.curFrameRemainSize.toNat = data
  have hlen : data.length ≤ s.curFrameRemainSize.toNat := htake ▸ List.length_take_le _ _
  have hlt := s.remainRecvBuffSize.toNat_lt
  have hn : (UInt32.ofNat data.length).toNat = data.length := by
    rw [UInt32.toNat_ofNat']
    omega
  have hremain : (s.remainRecvBuffSize - UInt32.ofNat data.length).toNat =
      s.remainRecvBuffSize.toNat - data.length := by
    rw [UInt32.toNat_sub_of_le _ _ (UInt32.le_iff_toNat_le.mpr (by omega)), hn]
  have hrest : (s.curFrameRemainSize - UInt32.ofNat data.length).toNat =
      s.curFrameRemainSize.toNat - data.length := by
    rw [UInt32.toNat_sub_of_le _ _ (UInt32.le_iff_toNat_le.mpr (by omega)), hn]
  have hrecved : (b.recv data).recved.length = b.recved.length + data.length :=
    List.length_append
  have hsize := h.rest hcur b hb
  -- all bytes of the frame are there
  have hcomplete : ∀ s' : RecvStream, s'.recvRtMediaBuff = some (b.recv data) →
      s'.remainRecvBuffSize = s.remainRecvBuffSize - UInt32.ofNat data.length →
      s'.curFrameRemainSize = s.curFrameRemainSize - UInt32.ofNat data.length →
      s'.curFrameSize = s.curFrameSize → s'.written = s.written → s'.curFrameRemainSize = 0 →
      (s'.combinPacket c env.now).1.Tiled c := by
    intro s' hb' hremain' hcur' hsize' hwritten' h0
    have hz : s'.curFrameRemainSize.toNat = 0 := by rw [h0]; rfl
    rw [hcur', hrest] at hz
    refine Tiled.combinPacket (.of_some hb' (hremain' ▸ hplaced.recv hwr (by omega) _)) hb'
      (hfilled.recv hwr) ?_ (by rw [hremain', hremain]; omega) h0 ?_ (hwritten' ▸ h.written) env.now
    · show b.wrPtr + data.length = b.header.curFrameStartPos.toNat + 16 + (b.recv data).recved.length
      omega
    · rw [hsize', hrecved]
      omega
  unfold RecvStream.recvMediaData
  rw [hb]
  dsimp only
  rw [htake]
  split_ifs with hempty _ hfull
  · exact h.congr id hb.symm rfl rfl rfl (fun hd => absurd (hd.symm.trans hdone) (by decide)) rfl
  · exact h.congr id hb.symm rfl rfl rfl (fun hd => absurd (hd.symm.trans hdone) (by decide)) rfl
  · refine hcomplete _ ?_ ?_ ?_ ?_ ?_ hfull <;> rfl
  · refine .congr (hcomplete { s with
      recvRtMediaBuff := some (b.recv data)
      remainRecvBuffSize := s.remainRecvBuffSize - UInt32.ofNat data.length
      curFrameRemainSize := s.curFrameRemainSize - UInt32.ofNat data.length
      checks := s.checks ++ [.recv b.wrPtr s.curFrameRemainSize] } rfl rfl rfl rfl rfl hfull)
      id rfl rfl rfl rfl (fun _ => ?_) rfl
    rw [combinPacket_cur rfl]
    exact hfull
  · exact
      { space := .of_some rfl (hplaced.recv hwr (by omega) _)
        filled := by simpa using hfilled.recv hwr
        reserve := by
          simp only [Option.mem_def, Option.some.injEq, forall_eq', hremain]
          omega
        rest := by
          simp only [Option.mem_def, Option.some.injEq, forall_eq', hrest, hrecved]
          omega
        whole := by simp
        fits := by
          simp only [Option.mem_def, Option.some.injEq, forall_eq', hrest, hremain]
          omega
        idle := fun h0 => absurd h0 hfull
        done := fun hd => absurd (hd.symm.trans hdone) (by decide)
        written := h.written }

theorem enqueueTmpfs_frameDone : (s.enqueueTmpfs c r).1.frameDone = s.frameDone := by
  rcases enqueueTmpfs_cases c s r with ⟨base, mem, ha, he⟩ | ⟨ha, hno, he⟩ | ⟨b, ha, hb, ht, he⟩
  · rw [he]
    exact (enqueueDio_rest c s).2
  · rw [he]
  · rcases he with ⟨-, he⟩ | ⟨-, -, he⟩ | ⟨-, -, he⟩
    all_goals
      rw [he]
      rfl

/-- A frame that fits, or the rest of one, is received. -/
theorem Tiled.receive (hc : c.Valid) (h : s.Tiled c) (hopen : s.receiving = true)
    (hcur : s.curFrameRemainSize ≠ 0) (hdone : s.frameDone = false) (env : InputEnv)
    (hwhole : s.NeedsBuffer → s.Moves c env.pool ∧ ∀ base ∈ s.nextBase c env.pool,
      s.curFrameRemainSize.toNat + 4096 ≤ (c.room base).toNat) : (s.receive c env).Tiled c := by
  let s' : RecvStream := { s with checks := s.checks ++ s.reserveChecks }
  have h' : s'.Tiled c := h.congr id rfl rfl rfl rfl h.done rfl
  unfold RecvStream.receive
  rw [takeBuffer_eq]
  by_cases hneeds : s.NeedsBuffer
  · obtain ⟨hmoves, hfits⟩ := hwhole hneeds
    -- nothing of the frame is in the block
    have hsize : s'.curFrameRemainSize ≠ 0 → s'.curFrameRemainSize = s'.curFrameSize := by
      intro _
      rcases Option.eq_none_or_eq_some s.recvRtMediaBuff with hb | ⟨b, hb⟩
      · exact h.whole hopen hcur hb
      · have hrest := h.rest hcur b hb
        have hrecved : b.recved = [] := by
          by_contra hne
          have hpart := h.fits b hb hne
          have hle : svsRecordFileAlignLen ≤ s.remainRecvBuffSize :=
            UInt32.le_iff_toNat_le.mpr (by rw [toNat_align]; omega)
          rcases hneeds with h0 | hlt | hn
          · rw [h0, UInt32.toNat_zero] at hpart
            omega
          · rw [UInt32.lt_iff_toNat_lt, UInt32.toNat_sub_of_le _ _ hle, toNat_align] at hlt
            omega
          · simp [hb] at hn
        rw [hrecved, List.length_nil, Nat.zero_add] at hrest
        exact UInt32.toNat_inj.mp hrest
    have htaken : (s'.enqueueTmpfs c env.pool).1.Tiled c := h'.enqueueTmpfs hc hmoves hsize
    rw [if_pos hneeds]
    show (if (s'.enqueueTmpfs c env.pool).2 = svsResultOk then
      ((s'.enqueueTmpfs c env.pool).1.recvMediaData c env).1
      else (s'.enqueueTmpfs c env.pool).1).Tiled c
    split_ifs with hok
    · obtain ⟨b, hbase, hb, hremain, hcur'⟩ := enqueueTmpfs_ok hok
      refine htaken.recvMediaData hb rfl (hcur' ▸ hcur) (enqueueTmpfs_frameDone.trans hdone) ?_ env
      rw [hcur', hremain]
      exact hfits b.base hbase
    · exact htaken
  · rw [if_neg hneeds, if_pos rfl]
    have hsome : s.recvRtMediaBuff.isSome := by
      cases hb : s.recvRtMediaBuff with
      | none => exact absurd (.inr (.inr (by simp [hb]))) hneeds
      | some b => rfl
    obtain ⟨b, hb⟩ := Option.isSome_iff_exists.mp hsome
    obtain ⟨b', hb', hwr, hfits⟩ := h.space.kept hneeds hcur
      (UInt32.le_iff_toNat_le.mpr (h.reserve b hb))
    exact h'.recvMediaData hb' hwr hcur hdone hfits env

/-! ## The runs -/

/-- A frame that is not in the block yet fits in the next one, and data that is moved to tmpfs has a frame
in it. -/
def Whole (c : RecvConfig) (s : RecvStream) : Act → Prop
  | .input env =>
    s.receiving = true → s.frameDone = false → s.stopRecvFlag = false →
      s.sizeToReceive c env.peek ≠ 0 →
      s.remainRecvBuffSize = 0 ∨
          s.remainRecvBuffSize - svsRecordFileAlignLen < s.sizeToReceive c env.peek ∨
          s.recvRtMediaBuff.isNone →
        s.Moves c env.pool ∧ ∀ base ∈ s.nextBase c env.pool,
          (s.sizeToReceive c env.peek).toNat + 4096 ≤ (c.room base).toNat
  | .timeSlice now newOk pool => s.frameDone = true → s.SliceEnds c now newOk → s.Moves c pool
  | .start | .close | .stop | .recordKeyFrame _ | .setTimeRemove _ => True

theorem Tiled.new (c : RecvConfig) : RecvStream.new.Tiled c where
  space := .of_none rfl rfl
  filled := by simp [RecvStream.new]
  reserve := by simp [RecvStream.new]
  rest := by simp [RecvStream.new]
  whole := by simp [RecvStream.new]
  fits := by simp [RecvStream.new]
  idle := by simp [RecvStream.new]
  done := by simp [RecvStream.new]
  written := by simp [RecvStream.new]

/-- The next frame is to be received. -/
theorem Tiled.sized (hc : c.Valid) (h : s.Tiled c) (hdone : s.frameDone = false) (peek : Peek) :
    (s.sized c peek).Tiled c := by
  rcases sized_cases hc s peek with ⟨-, -, hs⟩ | ⟨hsize, h0, -, clock, hs⟩ | ⟨-, -, hs⟩
  · rw [hs]
    exact h
  · rw [hs]
    have hrecved := h.idle h0
    exact
      { space := ⟨h.space.noBuffer, fun b hb => (h.space.placed b hb).next hsize⟩
        filled := h.filled
        reserve := h.reserve
        rest := fun _ b hb => by simp [hrecved b hb]
        whole := fun _ _ _ => rfl
        fits := fun b hb hne => absurd (hrecved b hb) hne
        idle := fun _ => hrecved
        done := fun hd => absurd (hd.symm.trans hdone) (by decide)
        written := h.written }
  · rw [hs]
    exact h

theorem Tiled.step (hc : c.Valid) (h : s.Tiled c) {a : Act} (ha : s.Whole c a) :
    (s.step c a).Tiled c := by
  cases a with
  | start =>
    rw [RecvStream.step]
    split_ifs
    · exact h
    · have hnew := Tiled.new c
      exact
        { space := .of_none rfl rfl
          filled := hnew.filled
          reserve := hnew.reserve
          rest := hnew.rest
          whole := fun _ h0 => absurd rfl h0
          fits := hnew.fits
          idle := hnew.idle
          done := hnew.done
          written := h.written }
  | input env =>
    rw [RecvStream.step]
    split_ifs with hopen
    · simp only [Bool.not_eq_true'] at hopen
      rw [handleInput_eq hc]
      split_ifs with hnone
      · exact h
      · simp only [not_or, Bool.not_eq_true] at hnone
        have hsized := h.sized hc hopen.2 env.peek
        have hwhole := ha hopen.1 hopen.2 hnone.1 hnone.2
        rcases sized_cases hc s env.peek with
          ⟨hz, -, -⟩ | ⟨hsize, -, -, clock, hs⟩ | ⟨h0, hz, hs⟩
        · exact absurd hz hnone.2
        · rw [hs] at hsized ⊢
          exact hsized.receive hc hopen.1 hnone.2 hopen.2 env hwhole
        · rw [hs]
          rw [hz] at hwhole
          exact h.receive hc hopen.1 h0 hopen.2 env hwhole
    · exact h
  | timeSlice now newOk pool =>
    rw [RecvStream.step]
    split_ifs with hdone
    · have hcur := h.done hdone
      obtain ⟨t, t', s', hs', hslice⟩ := checkRecordTimeSlice_cases c s now newOk pool
      have htiled : s'.Tiled c ∧ s'.curFrameRemainSize = 0 ∧
          (s.Moves c pool → s'.Moves c pool) := by
        rcases hs' with rfl | ⟨b, indexList, hb, rfl⟩
        · exact ⟨h.congr id rfl rfl rfl rfl h.done rfl, hcur, id⟩
        · have hfilled := h.filled b hb
          refine ⟨.of_start (h.space.indexList hb indexList t) rfl
            ⟨hfilled.count, hfilled.recved, hfilled.frames⟩ (h.reserve b hb) (h.idle hcur b hb)
            (fun h0 => absurd hcur h0) h.done h.written, hcur, ?_⟩
          intro hmoves halloc htmpfs b' hb'
          cases hb'
          exact hmoves halloc htmpfs b hb
      obtain ⟨htiled, hcur', hmoves⟩ := htiled
      rcases hslice with ⟨-, he⟩ | ⟨hends, he⟩
      · rw [he]
        exact htiled.congr id rfl rfl rfl rfl (fun _ => hcur') rfl
      · rw [he]
        refine (htiled.enqueueTmpfs hc (hmoves (ha hdone hends)) fun h0 => absurd hcur' h0).congr
          id rfl rfl rfl rfl (fun hd => ?_) rfl
        exact absurd hd (by simp)
    · exact h
  | close =>
    rw [RecvStream.step]
    split_ifs with hopen
    · simp only [Bool.not_eq_true'] at hopen
      have hb : (s.enqueueDio c).recvRtMediaBuff = none := enqueueDio_buff
      exact
        { space := .of_none hb (enqueueDio_remain h.space)
          filled := by simp [hb]
          reserve := by simp [hb]
          rest := by simp [hb]
          whole := by simp
          fits := by simp [hb]
          idle := by simp [hb]
          done := fun hd =>
            absurd ((hd.symm.trans (enqueueDio_rest c s).2).trans hopen.2) (by decide)
          written := h.enqueueDio_written hc }
    · exact h
  | stop =>
    rw [RecvStream.step]
    split_ifs
    · exact h.congr id rfl rfl rfl rfl h.done rfl
    · exact h
  | recordKeyFrame bSwitch =>
    cases bSwitch with
    | true => exact h.congr id rfl rfl rfl rfl h.done rfl
    | false => exact h.congr id rfl rfl rfl rfl h.done rfl
  | setTimeRemove remove_time => exact h.congr id rfl rfl rfl rfl h.done rfl

/-- While a frame is received, the write pointer stands behind what was received of it, and the room behind
the write pointer is known. -/
def PointersRight (c : RecvConfig) (s : RecvStream) : Prop :=
  ∀ b ∈ s.recvRtMediaBuff,
    b.header.curRecvedDataLen ≠ 0 ∨ s.curFrameRemainSize ≠ 0 ∧ ¬ s.NeedsBuffer →
      b.wrPtr = b.header.curFrameStartPos.toNat + extHeadSize.toNat +
          b.header.curRecvedDataLen.toNat ∧
        b.wrPtr + s.remainRecvBuffSize.toNat = c.recvMediaBufferSize.toNat

theorem Tiled.pointersRight (h : s.Tiled c) : s.PointersRight c := by
  intro b hb hrecving
  have hplaced := h.space.placed b hb
  refine ⟨?_, hplaced.room⟩
  rw [hplaced.len, toNat_extHeadSize]
  rcases hrecving with hlen | ⟨hcur, hneeds⟩
  · rcases hplaced.wr with hwr | ⟨-, hnil, -⟩
    · exact hwr
    · refine absurd (UInt32.toNat_inj.mp ?_) hlen
      rw [hplaced.len, hnil]
      rfl
  · obtain ⟨b', hb', hwr, -⟩ := h.space.kept hneeds hcur
      (UInt32.le_iff_toNat_le.mpr (h.reserve b hb))
    obtain rfl : b = b' := Option.some.inj (hb.symm.trans hb')
    exact hwr

/-- In a run in which each frame fits in a block, the pointers are right while a frame is received, and the
blocks that are given away are stripes, tiled by their frames. -/
theorem run_tiled (hc : c.Valid) {acts : List Act} (h : Allowed (step c) (Whole c) new acts) :
    (run (step c) new acts).PointersRight c ∧
      ∀ b ∈ (run (step c) new acts).written, b.Striped c := by
  have htiled : (run (step c) new acts).Tiled c :=
    h.invariant (Tiled.new c) fun s a hs ha => hs.step hc ha
  exact ⟨htiled.pointersRight, htiled.written⟩

/-- An audio frame of 30 bytes with a packet header, with a time tick below 256. -/
def audioFrame (tick : UInt8) : List UInt8 := List.replicate 22 0 ++ tick :: List.replicate 25 0

/-- It comes in, with a block to be had. -/
def audioInput (tick : UInt8) : InputEnv where
  peek := .head ⟨1, 30, 1, 0, 1, 30⟩ svsResultOk
  pool := freeBlock
  data := audioFrame tick
  again := true
  now := 1000

/-- Two audio frames, and the end of the stream. -/
def twoFrames : List Act :=
  [.start, .input (audioInput 5), .timeSlice 1000 true freeBlock, .input (audioInput 7),
    .timeSlice 1000 true freeBlock, .close]

theorem moves_freeBlock (s : RecvStream) : s.Moves smallConfig freeBlock := by
  intro halloc
  simp [freeBlock] at halloc

theorem whole_audioInput {tick : UInt8}
    (h : (s.sizeToReceive smallConfig (audioInput tick).peek).toNat + 4096 ≤
      (smallConfig.room 0).toNat) : s.Whole smallConfig (.input (audioInput tick)) := by
  intro _ _ _ _ _
  refine ⟨moves_freeBlock s, fun base hbase => ?_⟩
  obtain rfl : 0 = base := Option.some.inj hbase
  exact h

theorem twoFrames_whole : Allowed (step smallConfig) (Whole smallConfig) new twoFrames :=
  ⟨trivial, whole_audioInput (by decide), fun _ _ => moves_freeBlock _,
    whole_audioInput (by decide), fun _ _ => moves_freeBlock _, trivial, trivial⟩

theorem run_tiled_twoFrames :
    ((run (step smallConfig) new twoFrames).PointersRight smallConfig ∧
      ∀ b ∈ (run (step smallConfig) new twoFrames).written, b.Striped smallConfig) ∧
    (run (step smallConfig) new twoFrames).written.map (·.frames.length) = [2] :=
  ⟨run_tiled smallConfig_valid twoFrames_whole, by decide⟩

/-- All bytes of the frames from `pos` on are as they were received. -/
def Untouched (m : Memory) : Nat → List RecvFrame → Prop
  | _, [] => True
  | pos, f :: fs => m.read (pos + 16) f.data.length = f.data ∧
      Untouched m (pos + (m.u32 (pos + 4)).toNat) fs

instance decidableUntouched (m : Memory) : ∀ pos fs, Decidable (Untouched m pos fs)
  | _, [] => inferInstanceAs (Decidable True)
  | pos, _ :: fs =>
    have := decidableUntouched m (pos + (m.u32 (pos + 4)).toNat) fs
    inferInstanceAs (Decidable (_ ∧ _))

/-- The time tick of the second frame is replaced by that of the clock. -/
theorem tick_replaced :
    ¬ ∀ b ∈ (run (step smallConfig) new twoFrames).written,
      Untouched b.mem b.header.mediaDataStartPos.toNat b.frames := by
  decide

end RecvStream

end AllCamera
