import AllCamera.Stream.MpegPsEnc
import AllCamera.Lib.Run

/-!
# Where `CMpegPsEnc` writes

Every byte goes to `m_pWritePos`, which then goes on by one. Here the functions have no result if a byte would
go behind the cache.

* `CachedPsEnc`: the encoder with `m_pWritePos` inside of the cache; `store`, and the functions that store.
* `Stores`: nothing goes behind the cache, and the result is that of the function on `MpegPsEnc`.
* `run_inside`: so it is in every run, and a call that returns 0 leaves the cache empty.
-/

namespace AllCamera

open MpegPsEnc (psCache maxPsHeaderLen EsType EsCall)

/-- The encoder with `m_pWritePos` inside of the cache, or at its end. -/
structure CachedPsEnc where
  enc : MpegPsEnc
  inside : enc.psBuffer.length ≤ psCache

namespace CachedPsEnc

/-- The encoder after the constructor and `init`. -/
def init : CachedPsEnc := ⟨MpegPsEnc.init, Nat.zero_le _⟩

theorem length_store_le {buffer : List UInt8} (b : UInt8) (h : buffer.length < psCache) :
    (buffer ++ [b]).length ≤ psCache := by
  rw [List.length_append]
  exact h

/-- `*m_pWritePos++ = b`: there is no byte behind the cache. -/
def store (c : CachedPsEnc) (b : UInt8) : Option CachedPsEnc :=
  if h : c.enc.psBuffer.length < psCache then
    some ⟨{ c.enc with psBuffer := c.enc.psBuffer ++ [b] }, length_store_le b h⟩
  else none

/-- One byte after another, as a header or `memcpy` stores them. -/
def storeAll (c : CachedPsEnc) (bytes : List UInt8) : Option CachedPsEnc := bytes.foldlM store c

variable (c : CachedPsEnc)

/-- `handlePsStream` is given the cache, and `m_pWritePos` goes back to the start. -/
def handlePsStream (unTimestamp : UInt32) (endFlag : Bool) : CachedPsEnc :=
  ⟨c.enc.handlePsStream unTimestamp endFlag, Nat.zero_le _⟩

/-- The functions that write a header fail with a full cache. -/
def put (bytes : List UInt8) : Option (Int × CachedPsEnc) :=
  if psCache ≤ c.enc.psBuffer.length then some (-1, c)
  else do
    let c ← c.storeAll bytes
    return (0, c)

/-- `writePSHeader`. -/
def writePSHeader : Option (Int × CachedPsEnc) := c.put (MpegPsEnc.psHeader c.enc.ullScr c.enc.unMuxRate)

/-- `writeSysHeader`. -/
def writeSysHeader : Option (Int × CachedPsEnc) := c.put (MpegPsEnc.sysHeader c.enc.unMuxRate)

/-- `writePsmPacket`. -/
def writePsmPacket : Option (Int × CachedPsEnc) := do
  let r ← c.put (MpegPsEnc.psmPacket c.enc.cVersion)
  if r.1 ≠ 0 then return r
  else return (0, ⟨{ r.2.enc with cVersion := (c.enc.cVersion + 1) % 0x1f }, r.2.inside⟩)

/-- `writePESHeader`. -/
def writePESHeader (unDataSize : Nat) (ucStreamId : UInt8) (ullPts ullDts : UInt64) :
    Option (Int × CachedPsEnc) :=
  if MpegPsEnc.invalidTimestamp = ullPts ∧ MpegPsEnc.invalidTimestamp ≠ ullDts then some (-1, c)
  else c.put (MpegPsEnc.pesHeader unDataSize ucStreamId ullPts ullDts)

/-- The headers in front of the first PES packet of a frame. -/
def writePackHeaders : Option (Int × CachedPsEnc) := do
  let r ← c.writePSHeader
  if r.1 ≠ 0 then return (-1, r.2)
  else
    let r ← r.2.writeSysHeader
    if r.1 ≠ 0 then return (-1, r.2)
    else
      let r ← r.2.writePsmPacket
      if r.1 ≠ 0 then return (-1, r.2)
      else return (0, ⟨{ r.2.enc with isFirstPES := false }, r.2.inside⟩)

/-- `writeESPacket`. -/
def writeESPacket (pInData : List UInt8) (enEsType : EsType) : Option (Int × CachedPsEnc) :=
  if pInData.length = 0 then some (-1, c)
  else if psCache - maxPsHeaderLen < pInData.length then some (-1, c)
  else do
    let c :=
      if psCache - c.enc.psBuffer.length < pInData.length + maxPsHeaderLen then
        c.handlePsStream c.enc.unAudioTimestamp true
      else c
    let r ← (if c.enc.psBuffer = [] ∧ c.enc.isFirstPES = true then c.writePackHeaders else some (0, c))
    if r.1 ≠ 0 then return (-1, r.2)
    else
      let c := r.2
      let r ←
        (match enEsType with
        | .video => c.writePESHeader pInData.length MpegPsEnc.videoStreamId c.enc.ullVideoPts c.enc.ullVideoPts
        | .audio =>
          c.writePESHeader pInData.length MpegPsEnc.audioStreamId c.enc.ullAudioPts MpegPsEnc.invalidTimestamp)
      if r.1 ≠ 0 then return (-1, r.2)
      else
        let c ← r.2.storeAll pInData
        return (0, c)

/-- The loop over the chunks, and the last packet. -/
def writeChunks (c : CachedPsEnc) (pData : List UInt8) : Option (Int × CachedPsEnc) :=
  if h : MpegPsEnc.maxPesData < pData.length then do
    let r ← c.writeESPacket (pData.take MpegPsEnc.chunkSize) .video
    if r.1 ≠ 0 then return (-1, r.2)
    else
      writeChunks (r.2.handlePsStream r.2.enc.unVideoTimestamp false) (pData.drop MpegPsEnc.chunkSize)
  else do
    let r ← c.writeESPacket pData .video
    if r.1 ≠ 0 then return (-1, r.2) else return (0, r.2.handlePsStream r.2.enc.unVideoTimestamp true)
termination_by pData.length
decreasing_by
  have : 0 < MpegPsEnc.chunkSize := by decide
  rw [List.length_drop]
  unfold MpegPsEnc.maxPesData at h
  omega

/-- Other members than the cache are changed. -/
def set (e : MpegPsEnc) (h : e.psBuffer = c.enc.psBuffer) : CachedPsEnc := ⟨e, h ▸ c.inside⟩

/-- `writeVideoEsStream`, when the clock says `second`. -/
def writeVideoEsStream (pInData : List UInt8) (unTimestamp second : UInt32) : Option (Int × CachedPsEnc) :=
  if pInData.length < MpegPsEnc.minNaluSize then some (-1, c)
  else
    writeChunks
      (c.set { (c.enc.setVideoTimestamp unTimestamp).calcEsBitrate pInData.length second with isFirstPES := true }
        ((MpegPsEnc.calcEsBitrate_keeps ..).1.trans (MpegPsEnc.setVideoTimestamp_keeps ..).1))
      pInData

/-- `writeAudioEsStream`, when the clock says `second`. -/
def writeAudioEsStream (pInData : List UInt8) (unTimestamp second : UInt32) : Option (Int × CachedPsEnc) := do
  let e := (c.enc.setAudioTimestamp unTimestamp).calcEsBitrate pInData.length second
  let c := c.set
    { e with
      ullScr := if e.ullAudioPts < e.ullVideoPts then e.ullVideoPts else e.ullAudioPts
      isFirstPES := true }
    ((MpegPsEnc.calcEsBitrate_keeps ..).1.trans (MpegPsEnc.setAudioTimestamp_keeps ..).1)
  let r ← c.writeESPacket pInData .audio
  if r.1 ≠ 0 then return (-1, r.2) else return (0, r.2.handlePsStream r.2.enc.unAudioTimestamp true)

/-- The call's return value and effect. -/
def writeEsStream : EsCall → Option (Int × CachedPsEnc)
  | .video pInData unTimestamp second => c.writeVideoEsStream pInData unTimestamp second
  | .audio pInData unTimestamp second => c.writeAudioEsStream pInData unTimestamp second

/-! ## Nothing goes behind the cache -/

/-- Nothing goes behind the cache, and the result is `p`. -/
def Stores (o : Option (Int × CachedPsEnc)) (p : Int × MpegPsEnc) : Prop :=
  ∃ c : CachedPsEnc, o = some (p.1, c) ∧ c.enc = p.2

variable {c}

theorem Stores.bind {o : Option (Int × CachedPsEnc)} {p q : Int × MpegPsEnc}
    {f : Int × CachedPsEnc → Option (Int × CachedPsEnc)} (h : Stores o p)
    (hf : ∀ c : CachedPsEnc, c.enc = p.2 → Stores (f (p.1, c)) q) : Stores (o >>= f) q := by
  obtain ⟨c, rfl, hc⟩ := h
  exact hf c hc

theorem storeAll_eq {bytes : List UInt8} (h : c.enc.psBuffer.length + bytes.length ≤ psCache) :
    ∃ c', c.storeAll bytes = some c' ∧ c'.enc = { c.enc with psBuffer := c.enc.psBuffer ++ bytes } := by
  induction bytes generalizing c with
  | nil => exact ⟨c, rfl, by rw [List.append_nil]⟩
  | cons b bytes ih =>
    rw [List.length_cons] at h
    have hlt : c.enc.psBuffer.length < psCache := by omega
    obtain ⟨c', hc', henc⟩ := ih (c := ⟨{ c.enc with psBuffer := c.enc.psBuffer ++ [b] }, length_store_le b hlt⟩)
      (by rw [List.length_append, List.length_singleton]; omega)
    refine ⟨c', ?_, ?_⟩
    · rw [storeAll, List.foldlM_cons, store, dif_pos hlt]
      exact hc'
    · rw [henc, List.append_assoc]
      rfl

theorem Stores.pure {e : MpegPsEnc} {r : Int} (h : c.enc = e) : Stores (some (r, c)) (r, e) := ⟨c, rfl, h⟩

theorem Stores.ite {P : Prop} [Decidable P] {o o' : Option (Int × CachedPsEnc)} {p p' : Int × MpegPsEnc}
    (h : P → Stores o p) (h' : ¬ P → Stores o' p') : Stores (if P then o else o') (if P then p else p') := by
  split_ifs with hP
  · exact h hP
  · exact h' hP

theorem put_stores {bytes : List UInt8} (h : c.enc.psBuffer.length + bytes.length ≤ psCache) :
    Stores (c.put bytes) (c.enc.put bytes) := by
  refine .ite (fun _ => .pure rfl) fun _ => ?_
  obtain ⟨c', hc', henc⟩ := storeAll_eq h
  exact ⟨c', by rw [hc']; rfl, henc⟩

theorem length_put_le (e : MpegPsEnc) (bytes : List UInt8) :
    (e.put bytes).2.psBuffer.length ≤ e.psBuffer.length + bytes.length := by
  unfold MpegPsEnc.put
  split_ifs
  · exact Nat.le_add_right _ _
  · exact Nat.le_of_eq List.length_append

theorem writePsmPacket_stores (h : c.enc.psBuffer.length + 24 ≤ psCache) :
    Stores c.writePsmPacket c.enc.writePsmPacket := by
  refine (put_stores h).bind fun c' hc' => .ite (fun _ => ?_) fun _ => ?_
  · exact .pure hc'
  · exact .pure (congrArg (fun e : MpegPsEnc => { e with cVersion := (c.enc.cVersion + 1) % 0x1f }) hc')

/-- The pack header, the system header and the stream map have 50 bytes. -/
theorem length_writePackHeaders_le (e : MpegPsEnc) :
    e.writePackHeaders.2.psBuffer.length ≤ e.psBuffer.length + 50 := by
  have hpack : e.writePSHeader.2.psBuffer.length ≤ e.psBuffer.length + 14 := length_put_le _ _
  have hsys : e.writePSHeader.2.writeSysHeader.2.psBuffer.length ≤ e.writePSHeader.2.psBuffer.length + 12 :=
    length_put_le _ _
  have hpsm (e : MpegPsEnc) : e.writePsmPacket.2.psBuffer.length ≤ e.psBuffer.length + 24 := by
    have hput := length_put_le e (MpegPsEnc.psmPacket e.cVersion)
    unfold MpegPsEnc.writePsmPacket
    dsimp only
    split_ifs <;> exact hput
  have hmap := hpsm e.writePSHeader.2.writeSysHeader.2
  unfold MpegPsEnc.writePackHeaders
  dsimp only
  split_ifs <;> dsimp only <;> omega

theorem writePackHeaders_stores (h : c.enc.psBuffer.length + 50 ≤ psCache) :
    Stores c.writePackHeaders c.enc.writePackHeaders := by
  have hpack : c.enc.writePSHeader.2.psBuffer.length ≤ c.enc.psBuffer.length + 14 := length_put_le _ _
  have hfirst : Stores c.writePSHeader c.enc.writePSHeader :=
    put_stores (show c.enc.psBuffer.length + 14 ≤ psCache by omega)
  refine hfirst.bind fun c₁ hc₁ => .ite (fun _ => .pure hc₁) fun _ => ?_
  have hlen₁ : c₁.enc.psBuffer.length ≤ c.enc.psBuffer.length + 14 := hc₁ ▸ hpack
  have hsecond : Stores c₁.writeSysHeader c.enc.writePSHeader.2.writeSysHeader :=
    hc₁ ▸ put_stores (show c₁.enc.psBuffer.length + 12 ≤ psCache by omega)
  refine hsecond.bind fun c₂ hc₂ => .ite (fun _ => .pure hc₂) fun _ => ?_
  have hlen₂ : c₂.enc.psBuffer.length ≤ c₁.enc.psBuffer.length + 12 := by
    rw [hc₂, ← hc₁]
    exact length_put_le _ _
  have hthird : Stores c₂.writePsmPacket c.enc.writePSHeader.2.writeSysHeader.2.writePsmPacket :=
    hc₂ ▸ writePsmPacket_stores (show c₂.enc.psBuffer.length + 24 ≤ psCache by omega)
  refine hthird.bind fun c₃ hc₃ => .ite (fun _ => .pure hc₃) fun _ => ?_
  exact .pure (congrArg (fun e : MpegPsEnc => { e with isFirstPES := false }) hc₃)

/-- The header of a PES packet has 19 bytes at most. -/
theorem length_pesHeader_le (unDataSize : Nat) (ucStreamId : UInt8) (ullPts ullDts : UInt64) :
    (MpegPsEnc.pesHeader unDataSize ucStreamId ullPts ullDts).length ≤ 19 := by
  unfold MpegPsEnc.pesHeader
  dsimp only
  split_ifs <;> exact Nat.le_of_ble_eq_true rfl

theorem writePESHeader_stores {unDataSize : Nat} (h : c.enc.psBuffer.length + 19 ≤ psCache) (ucStreamId : UInt8)
    (ullPts ullDts : UInt64) :
    Stores (c.writePESHeader unDataSize ucStreamId ullPts ullDts)
      (c.enc.writePESHeader unDataSize ucStreamId ullPts ullDts) :=
  .ite (fun _ => .pure rfl) fun _ =>
    put_stores ((Nat.add_le_add_left (length_pesHeader_le ..) _).trans h)

theorem length_writePESHeader_le (e : MpegPsEnc) (unDataSize : Nat) (ucStreamId : UInt8) (ullPts ullDts : UInt64) :
    (e.writePESHeader unDataSize ucStreamId ullPts ullDts).2.psBuffer.length ≤ e.psBuffer.length + 19 := by
  unfold MpegPsEnc.writePESHeader
  split_ifs
  · exact Nat.le_add_right _ _
  · exact (length_put_le _ _).trans (Nat.add_le_add_left (length_pesHeader_le ..) _)

/-- The header of a PES packet, and the data behind it. -/
theorem pesPacket_stores {pInData : List UInt8} (h : c.enc.psBuffer.length + 19 + pInData.length ≤ psCache)
    (ucStreamId : UInt8) (ullPts ullDts : UInt64) :
    let r := c.enc.writePESHeader pInData.length ucStreamId ullPts ullDts
    Stores
      (do
        let r ← c.writePESHeader pInData.length ucStreamId ullPts ullDts
        if r.1 ≠ 0 then return (-1, r.2)
        else
          let c ← r.2.storeAll pInData
          return (0, c))
      (if r.1 ≠ 0 then (-1, r.2) else (0, { r.2 with psBuffer := r.2.psBuffer ++ pInData })) := by
  have hlen := length_writePESHeader_le c.enc pInData.length ucStreamId ullPts ullDts
  refine (writePESHeader_stores (by omega) ..).bind fun c₁ hc₁ => .ite (fun _ => .pure hc₁) fun _ => ?_
  rw [← hc₁] at hlen ⊢
  have hroom : c₁.enc.psBuffer.length + pInData.length ≤ psCache := by omega
  obtain ⟨c₂, hc₂, henc⟩ := storeAll_eq hroom
  exact ⟨c₂, by dsimp only; rw [hc₂]; rfl, henc⟩

/-- `writeESPacket` makes room for the data and 128 bytes more; the headers have 69 at most. -/
theorem writeESPacket_stores (c : CachedPsEnc) (pInData : List UInt8) (enEsType : EsType) :
    Stores (c.writeESPacket pInData enEsType) (c.enc.writeESPacket pInData enEsType) := by
  refine .ite (fun _ => .pure rfl) fun _ => .ite (fun _ => .pure rfl) fun hlong => ?_
  rw [not_lt] at hlong
  -- the cache behind the check for room
  obtain ⟨c₁, hc₁, hroom, henc⟩ : ∃ c₁ : CachedPsEnc,
      (if psCache - c.enc.psBuffer.length < pInData.length + maxPsHeaderLen then
        c.handlePsStream c.enc.unAudioTimestamp true else c) = c₁ ∧
      c₁.enc.psBuffer.length + maxPsHeaderLen + pInData.length ≤ psCache ∧
      c₁.enc = if psCache - c.enc.psBuffer.length < pInData.length + maxPsHeaderLen then
        c.enc.handlePsStream c.enc.unAudioTimestamp true else c.enc := by
    have hinside := c.inside
    have hcache : maxPsHeaderLen ≤ psCache := by decide
    refine ⟨_, rfl, ?_⟩
    split_ifs with hfull
    · refine ⟨?_, rfl⟩
      show 0 + maxPsHeaderLen + pInData.length ≤ psCache
      omega
    · exact ⟨by omega, rfl⟩
  dsimp only
  rw [hc₁, ← henc]
  have hmax : maxPsHeaderLen = 128 := rfl
  have hfirst : Stores
      (if c₁.enc.psBuffer = [] ∧ c₁.enc.isFirstPES = true then c₁.writePackHeaders else some (0, c₁))
      (if c₁.enc.psBuffer = [] ∧ c₁.enc.isFirstPES = true then c₁.enc.writePackHeaders else (0, c₁.enc)) :=
    .ite (fun _ => writePackHeaders_stores (by omega)) fun _ => .pure rfl
  have hlen : (if c₁.enc.psBuffer = [] ∧ c₁.enc.isFirstPES = true then c₁.enc.writePackHeaders
      else (0, c₁.enc)).2.psBuffer.length ≤ c₁.enc.psBuffer.length + 50 := by
    split_ifs
    · exact length_writePackHeaders_le _
    · exact Nat.le_add_right _ _
  refine hfirst.bind fun c₂ hc₂ => .ite (fun _ => .pure hc₂) fun _ => ?_
  rw [← hc₂] at hlen ⊢
  have hroom₂ : c₂.enc.psBuffer.length + 19 + pInData.length ≤ psCache := by omega
  cases enEsType with
  | video => exact pesPacket_stores hroom₂ _ _ _
  | audio => exact pesPacket_stores hroom₂ _ _ _

theorem handlePsStream_stores {e : MpegPsEnc} (h : c.enc = e) (unTimestamp : MpegPsEnc → UInt32) (endFlag : Bool) :
    Stores (some (0, c.handlePsStream (unTimestamp c.enc) endFlag))
      (0, e.handlePsStream (unTimestamp e) endFlag) :=
  .pure (congrArg (fun e => e.handlePsStream (unTimestamp e) endFlag) h)

theorem writeChunks_stores (c : CachedPsEnc) (pData : List UInt8) :
    Stores (c.writeChunks pData) (c.enc.writeChunks pData) := by
  fun_induction writeChunks c pData with
  | case1 c pData h ih =>
    rw [MpegPsEnc.writeChunks, dif_pos h]
    refine (writeESPacket_stores c _ .video).bind fun c₁ hc₁ => .ite (fun _ => .pure hc₁) fun _ => ?_
    rw [← hc₁]
    exact ih (_, c₁)
  | case2 c pData h =>
    rw [MpegPsEnc.writeChunks, dif_neg h]
    refine (writeESPacket_stores c _ .video).bind fun c₁ hc₁ => .ite (fun _ => .pure hc₁) fun _ => ?_
    exact handlePsStream_stores hc₁ MpegPsEnc.unVideoTimestamp true

/-- No call stores anything behind the cache, whatever the calls before it left. -/
theorem writeEsStream_stores (c : CachedPsEnc) (call : EsCall) :
    Stores (c.writeEsStream call) (c.enc.writeEsStream call) := by
  cases call with
  | video pInData unTimestamp second =>
    exact .ite (fun _ => .pure rfl) fun _ => writeChunks_stores _ pInData
  | audio pInData unTimestamp second =>
    refine (writeESPacket_stores _ pInData .audio).bind fun c₁ hc₁ => .ite (fun _ => .pure hc₁) fun _ => ?_
    exact handlePsStream_stores hc₁ MpegPsEnc.unAudioTimestamp true

/-! ## Runs -/

theorem psBuffer_of_zero {P : Prop} [Decidable P] {e : MpegPsEnc} {r : Int × MpegPsEnc}
    (hr : r.1 = 0 → r.2.psBuffer = []) (h : (if P then ((-1 : Int), e) else r).1 = 0) :
    (if P then ((-1 : Int), e) else r).2.psBuffer = [] := by
  by_cases hP : P
  · rw [if_pos hP] at h
    exact absurd (show (-1 : Int) = 0 from h) (by decide)
  · rw [if_neg hP] at h ⊢
    exact hr h

theorem psBuffer_writeChunks (e : MpegPsEnc) (pData : List UInt8) (h : (e.writeChunks pData).1 = 0) :
    (e.writeChunks pData).2.psBuffer = [] := by
  fun_induction MpegPsEnc.writeChunks e pData with
  | case1 e pData hlong r hr => exact absurd (show (-1 : Int) = 0 from h) (by decide)
  | case2 e pData hlong r hr ih => exact ih h
  | case3 e pData hlong r hr => exact absurd (show (-1 : Int) = 0 from h) (by decide)
  | case4 e pData hlong r hr => rfl

/-- A call that returns 0 has handed the whole cache over. -/
theorem psBuffer_writeEsStream (e : MpegPsEnc) (call : EsCall) (h : (e.writeEsStream call).1 = 0) :
    (e.writeEsStream call).2.psBuffer = [] := by
  cases call with
  | video pInData unTimestamp second => exact psBuffer_of_zero (psBuffer_writeChunks _ pInData) h
  | audio pInData unTimestamp second => exact psBuffer_of_zero (fun _ => rfl) h

/-- The calls one after another. -/
def run (calls : List EsCall) : Option CachedPsEnc :=
  calls.foldlM (fun c call => (c.writeEsStream call).map Prod.snd) init

theorem run_append (calls : List EsCall) (call : EsCall) :
    run (calls ++ [call]) = (run calls).bind fun c => (c.writeEsStream call).map Prod.snd := by
  unfold run
  rw [List.foldlM_append]
  refine congrArg (Option.bind _) (funext fun c => ?_)
  rw [List.foldlM_cons]
  exact bind_pure _

theorem run_eq (calls : List EsCall) :
    ∃ c, run calls = some c ∧ c.enc = Run.run (fun e call => (e.writeEsStream call).2) MpegPsEnc.init calls := by
  induction calls using List.reverseRecOn with
  | nil => exact ⟨init, rfl, rfl⟩
  | append_singleton calls call ih =>
    obtain ⟨c, hc, henc⟩ := ih
    obtain ⟨c', hc', henc'⟩ := writeEsStream_stores c call
    refine ⟨c', ?_, ?_⟩
    · rw [run_append, hc, Option.bind_some, hc']
      rfl
    · rw [henc', henc, Run.run_append]
      rfl

/-- **The cache.** Whatever was called before, a call stores every byte inside of the cache and does what the
function on `MpegPsEnc` does; the cursor stays inside, and if 0 is returned it is back at the start. -/
theorem run_inside (calls : List EsCall) (call : EsCall) :
    ∃ c r c', run calls = some c ∧
      c.enc = Run.run (fun e call => (e.writeEsStream call).2) MpegPsEnc.init calls ∧
      c.writeEsStream call = some (r, c') ∧ (r, c'.enc) = c.enc.writeEsStream call ∧
      c'.enc.psBuffer.length ≤ psCache ∧ (r = 0 → c'.enc.psBuffer = []) := by
  obtain ⟨c, hc, henc⟩ := run_eq calls
  obtain ⟨c', hc', henc'⟩ := writeEsStream_stores c call
  refine ⟨c, _, c', hc, henc, hc', by rw [henc'], c'.inside, fun hzero => ?_⟩
  rw [henc']
  exact psBuffer_writeEsStream c.enc call hzero

end CachedPsEnc

end AllCamera
