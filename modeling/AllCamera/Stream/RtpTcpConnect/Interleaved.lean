import AllCamera.Stream.RtpTcpConnect

/-!
# Interleaved frames over TCP

The peer sends frames of a `$`, a channel, a length and a payload, one behind the other, and the
receives cut them anywhere. The handler takes a frame when all of it is in the buffer.

* `InterleavedFrame`: a frame that fits into the receive buffer.
* `answers`: what `handleRecvedData` does in front of a frame, or of a part of one.
* `run_delivers`: after every call the whole frames that were received have been passed on, and the
  buffer holds the part of the next one.
-/

namespace AllCamera

open Receiver

/-- An interleaved frame. -/
structure InterleavedFrame where
  channel : UInt8
  payload : List UInt8
  fits : RtpTcpConnect.interleaveLength + payload.length ≤ recvBufferSize

namespace InterleavedFrame

/-- The frame as it is sent. -/
def bytes (f : InterleavedFrame) : List UInt8 :=
  RtpTcpConnect.interleaveFlag :: f.channel :: be16Bytes (.ofNat f.payload.length) ++ f.payload

/-- What the frame should be passed on as, given the channels of the media. -/
def passed (video audio : UInt8) (f : InterleavedFrame) : Passed where
  usInnerMsgType := if video = f.channel ∨ audio = f.channel then .rtp else .rtcp
  unDataOffset := RtpTcpConnect.interleaveLength
  unSize := f.payload.length
  data := f.payload

variable (f : InterleavedFrame)

theorem length_bytes : f.bytes.length = RtpTcpConnect.interleaveLength + f.payload.length := by
  simp only [bytes, be16Bytes, List.length_append, List.length_cons, List.length_nil,
    RtpTcpConnect.interleaveLength]

theorem bytes_ne_nil : f.bytes ≠ [] := by simp [bytes]

/-- The length field holds the length. -/
theorem toNat_length : (UInt16.ofNat f.payload.length).toNat = f.payload.length := by
  have := f.fits
  simp only [recvBufferSize, RtpTcpConnect.interleaveLength, UInt16.toNat_ofNat'] at *
  omega

end InterleavedFrame

/-- `ParsePacket` writes inside the packet only. -/
theorem RtpPacket.parsePacket_read (m : Memory) (p : Int) (len : Nat) {q : Int} (hq : p + len ≤ q)
    (n : Nat) : (RtpPacket.parsePacket m p len).data.read q n = m.read q n := by
  have hclear : 0 < len → (RtpPacket.clearPadding m p).read q n = m.read q n := by
    intro hlen
    unfold RtpPacket.clearPadding
    split
    · unfold RtpPacket.setPadding
      exact Memory.read_write_of_disjoint (.inr (by simp; omega))
    · rfl
  unfold RtpPacket.parsePacket
  split
  · rfl
  · rename_i hlen
    have h := hclear (by unfold RtpPacket.fixedHeader at hlen; omega)
    split
    · rw [RtpPacket.parseHead_data, h]
    · rw [RtpPacket.parseHead_data, h]

namespace RtpTcpConnect

/-- Every block is allocated, and taken. -/
structure Succeeds (d : Downstream) : Prop where
  allocMediaBlock : ∀ k, d.allocMediaBlock k = true
  addData : ∀ k, d.addData k = true
  enqueueInnerMessage : ∀ k, d.enqueueInnerMessage k = true

/-- Of `frames`, all but `us` have been passed on. -/
structure PassedBefore (video audio : UInt8) (frames us : List InterleavedFrame) (c : RtpTcpConnect) :
    Prop where
  videoNum : c.cVideoInterleaveNum = video
  audioNum : c.cAudioInterleaveNum = audio
  passed : ∃ done, done ++ us = frames ∧ c.passed = done.map (InterleavedFrame.passed video audio)

variable {d : Downstream} {video audio : UInt8} {frames us : List InterleavedFrame}
  {c : Receiver RtpTcpConnect} {wire : List UInt8}

/-- A frame whose header is in front. -/
theorem parseDataInfo_flag (d : Downstream) (c : RtpTcpConnect) {m : Memory} {p n : Nat}
    (hm : m p = interleaveFlag) : c.parseDataInfo d m p n =
      ((parseRtpRtcpPacket { c with unSize := 0, unDataOffset := 0, usInnerMsgType := .rtp } m p n).1,
        (parseRtpRtcpPacket { c with unSize := 0, unDataOffset := 0, usInnerMsgType := .rtp } m p n).2,
        m) := by
  simp [parseDataInfo, hm]

/-- What the handler does in front of a part of a frame. -/
theorem handleRecvedData_part (d : Downstream) (c : RtpTcpConnect) {m : Memory} {p n : Nat}
    (f : InterleavedFrame) (hm : m p = interleaveFlag) (hn : n < f.bytes.length)
    (hlen : interleaveLength ≤ n →
      (be16 (m (p + 2 : Nat)) (m (p + 3 : Nat))).toNat = f.payload.length) :
    ∃ c' : RtpTcpConnect, c.handleRecvedData d m p n = ⟨0, m, c'⟩ ∧ c'.passed = c.passed ∧
      c'.cVideoInterleaveNum = c.cVideoInterleaveNum ∧
      c'.cAudioInterleaveNum = c.cAudioInterleaveNum := by
  rw [f.length_bytes] at hn
  unfold handleRecvedData
  rw [parseDataInfo_flag d c hm]
  unfold parseRtpRtcpPacket
  by_cases hhead : n < interleaveLength
  · simp only [hhead, if_true]
    exact ⟨_, rfl, rfl, rfl, rfl⟩
  · simp only [hhead, if_false, hlen (by omega)]
    rw [if_pos (by omega)]
    exact ⟨_, rfl, rfl, rfl, rfl⟩

theorem handleMediaData_ok (hd : Succeeds d) (c : RtpTcpConnect) (m : Memory) (p : Nat) :
    c.handleMediaData d m p =
      ⟨c.taken, (RtpPacket.parsePacket m (p + c.unDataOffset : Nat) c.unSize).data, c.pass m p⟩ := by
  simp [handleMediaData, hd.allocMediaBlock, hd.addData, taken, pass]

theorem handleControlMessage_ok (hd : Succeeds d) (c : RtpTcpConnect) (m : Memory) (p : Nat) :
    c.handleControlMessage d m p = ⟨c.taken, m, c.pass m p⟩ := by
  simp [handleControlMessage, hd.allocMediaBlock, hd.enqueueInnerMessage, taken, pass]

/-- The header and the payload of a frame in the buffer. -/
theorem read_frame {m : Memory} {p : Nat} {f : InterleavedFrame}
    (hm : m.read p f.bytes.length = f.bytes) :
    m p = interleaveFlag ∧ m (p + 1 : Nat) = f.channel ∧
      (be16 (m (p + 2 : Nat)) (m (p + 3 : Nat))).toNat = f.payload.length ∧
      m.read (p + interleaveLength : Nat) f.payload.length = f.payload := by
  have hlen : f.bytes.length = f.payload.length + 1 + 1 + 1 + 1 := by
    rw [f.length_bytes, interleaveLength]
    omega
  rw [hlen] at hm
  simp only [Memory.read_succ, InterleavedFrame.bytes, be16Bytes, List.cons_append, List.nil_append,
    List.cons.injEq, Int.add_assoc] at hm
  obtain ⟨h0, h1, h2, h3, h4⟩ := hm
  refine ⟨h0, h1, ?_, h4⟩
  have h2' : m (p + 2 : Nat) = .ofNat ((UInt16.ofNat f.payload.length).toNat / 256) := h2
  have h3' : m (p + 3 : Nat) = .ofNat ((UInt16.ofNat f.payload.length).toNat % 256) := h3
  rw [h2', h3', be16_be16Bytes, f.toNat_length]

/-- What the handler does in front of a frame. -/
theorem handleRecvedData_whole (hd : Succeeds d) (c : RtpTcpConnect) {m : Memory} {p n : Nat}
    (f : InterleavedFrame) (hn : f.bytes.length ≤ n) (hm : m.read p f.bytes.length = f.bytes) :
    ∃ c' m', c.handleRecvedData d m p n = ⟨f.bytes.length, m', c'⟩ ∧
      c'.passed = c.passed ++ [f.passed c.cVideoInterleaveNum c.cAudioInterleaveNum] ∧
      c'.cVideoInterleaveNum = c.cVideoInterleaveNum ∧
      c'.cAudioInterleaveNum = c.cAudioInterleaveNum ∧
      ∀ k, m'.read (p + f.bytes.length : Nat) k = m.read (p + f.bytes.length : Nat) k := by
  obtain ⟨hflag, hchannel, hsize, hpayload⟩ := read_frame hm
  have hlen := f.length_bytes
  have hhead : ¬ n < interleaveLength := by omega
  have hwhole : ¬ n - interleaveLength < f.payload.length := by omega
  unfold handleRecvedData
  rw [parseDataInfo_flag d c hflag]
  simp only [parseRtpRtcpPacket, hhead, if_false, hsize, hwhole, hchannel]
  by_cases hmedia : c.cVideoInterleaveNum = f.channel ∨ c.cAudioInterleaveNum = f.channel
  · simp only [hmedia, if_true, findServiceType, handleMediaData_ok hd]
    refine ⟨_, _, rfl, ?_, rfl, rfl, fun k => ?_⟩
    · simp only [pass, hpayload, InterleavedFrame.passed, hmedia, if_true]
    · exact RtpPacket.parsePacket_read _ _ _ (by simp only [hlen]; omega) _
  · simp only [hmedia, if_false, findServiceType, handleControlMessage_ok hd]
    refine ⟨_, _, rfl, ?_, rfl, rfl, fun k => rfl⟩
    simp only [pass, hpayload, InterleavedFrame.passed, hmedia, if_false]

/-- In front of the frames `us` the handler does right. -/
theorem answers (hd : Succeeds d)
    (h : Before InterleavedFrame.bytes (PassedBefore video audio frames) c wire us)
    (hl : c.inLoop = true) :
    Answers (handleRecvedData d) InterleavedFrame.bytes (PassedBefore video audio frames) us c := by
  have hmore := h.more hl
  have hview := c.length_view
  refine ⟨fun f us' hus hwhole => ?_, fun f us' hus hpart => ?_⟩
  · subst hus
    obtain ⟨c', m', hr, hpassed, hv, ha, hkeep⟩ := handleRecvedData_whole hd c.user f
      (hview ▸ hwhole) (h.front (hview ▸ hwhole))
    have huser := h.user
    unfold answer
    rw [hr]
    refine ⟨rfl, ⟨hv.trans huser.videoNum, ha.trans huser.audioNum, ?_⟩, hkeep⟩
    obtain ⟨done, hdone, hpast⟩ := huser.passed
    refine ⟨done ++ [f], by rw [List.append_assoc]; exact hdone, ?_⟩
    rw [hpassed, huser.videoNum, huser.audioNum, hpast, List.map_append]
    rfl
  · subst hus
    have hbyte := fun i hi => h.byte (i := i) hi (by omega)
    have hflag : c.data c.processedSize = interleaveFlag := by
      have := hbyte 0 (by omega)
      simpa [InterleavedFrame.bytes] using this.symm
    have hlen : interleaveLength ≤ c.length - c.processedSize →
        (be16 (c.data (c.processedSize + 2 : Nat)) (c.data (c.processedSize + 3 : Nat))).toNat =
          f.payload.length := by
      intro h4
      unfold interleaveLength at h4
      have h2 := hbyte 2 (by omega)
      have h3 := hbyte 3 (by omega)
      simp only [InterleavedFrame.bytes, be16Bytes, List.cons_append, List.getElem?_cons_succ,
        List.getElem?_cons_zero, Option.some.injEq] at h2 h3
      rw [show ((c.processedSize + 2 : Nat) : Int) = c.processedSize + (2 : Nat) from rfl, ← h2,
        show ((c.processedSize + 3 : Nat) : Int) = c.processedSize + (3 : Nat) from rfl, ← h3,
        be16_be16Bytes, f.toNat_length]
    obtain ⟨c', hr, hpassed, hv, ha⟩ := handleRecvedData_part d c.user f hflag (hview ▸ hpart) hlen
    have huser := h.user
    unfold answer
    rw [hr]
    exact ⟨rfl, f, ⟨hv.trans huser.videoNum, ha.trans huser.audioNum, hpassed ▸ huser.passed⟩,
      h.view_append_drop (Nat.le_of_lt hpart)⟩

/-- The bytes of the frames. -/
def wireOf (frames : List InterleavedFrame) : List UInt8 := (frames.map InterleavedFrame.bytes).flatten

/-- The frames that have been passed on are the first ones that were sent. -/
theorem run_inv (hd : Succeeds d) (id : UInt64) (video audio : UInt8) (frames : List InterleavedFrame)
    (ks : List Nat) : Inv InterleavedFrame.bytes (PassedBefore video audio frames) (Run.run
      (step (handleRecvedData d) true) (Receiver.init (init id video audio), wireOf frames) ks) :=
  Run.run_invariant (init_inv InterleavedFrame.bytes_ne_nil ⟨rfl, rfl, [], rfl, rfl⟩) fun _ k hs =>
    hs.step InterleavedFrame.bytes_ne_nil
      (fun _ _ _ h hl (_ : True) => answers hd h hl) k
      fun _ _ => turnsOk_of_forall (fun _ => trivial) _ _

/-- **Frames.** For every list of frames that fit into the buffer and every way the receives cut
their bytes, as long as blocks are allocated and taken: after every call of `handle_input` the
connection is open, some first frames have been passed on as they were sent, whole and in order,
and the buffer holds what was received behind them, a proper prefix of the next frame. When all was
received all were passed on. -/
theorem run_delivers (hd : Succeeds d) (id : UInt64) (video audio : UInt8)
    (frames : List InterleavedFrame) (ks : List Nat) :
    let s := Run.run (step (handleRecvedData d) true) (Receiver.init (init id video audio), wireOf frames) ks
    s.1.closed = false ∧ (∃ j, s.1.user.passed = (frames.take j).map (InterleavedFrame.passed video audio) ∧
      wireOf frames = wireOf (frames.take j) ++ s.1.view ++ s.2 ∧
      (frames.length ≤ j → s.1.view = []) ∧
      ∀ f, frames[j]? = some f → s.1.view <+: f.bytes ∧ s.1.view ≠ f.bytes) ∧
      (s.2 = [] → s.1.user.passed = frames.map (InterleavedFrame.passed video audio)) := by
  intro s
  have hinv : Inv InterleavedFrame.bytes (PassedBefore video audio frames) s := run_inv hd id video audio frames ks
  obtain ⟨hl, us, h⟩ := hinv
  obtain ⟨done, rfl, hpassed⟩ := h.user.passed
  have hview := h.view_cases hl
  have hstream : s.1.view ++ s.2 = wireOf us := h.stream
  refine ⟨h.isOpen, ⟨done.length, ?_, ?_, fun hall => ?_, fun f hf => ?_⟩, fun hwire => ?_⟩
  · rw [List.take_left, hpassed]
  · rw [List.take_left, List.append_assoc, hstream]
    simp [wireOf]
  · cases us with
    | nil => exact hview.1
    | cons u us =>
      simp only [List.length_append, List.length_cons] at hall
      omega
  · rw [List.getElem?_append_right (Nat.le_refl _), Nat.sub_self] at hf
    cases us with
    | nil => cases hf
    | cons u us =>
      obtain rfl : u = f := by simpa using hf
      exact ⟨hview.1, hview.2.1⟩
  · cases us with
    | nil => simpa using hpassed
    | cons u us => exact absurd hwire hview.2.2

/-- A video frame and an RTCP frame. -/
def twoFrames : List InterleavedFrame :=
  [⟨0, [1, 2, 3], by decide⟩, ⟨1, [], by decide⟩]

/-- The rest of the program, when it takes everything. -/
def takesAll : Downstream :=
  ⟨fun _ => true, fun _ => true, fun _ => true, fun _ _ _ => some 1, fun _ => true, fun _ => true⟩

theorem run_delivers_twoFrames :
    (Run.run (step (handleRecvedData takesAll) true)
      (Receiver.init (init 1 0 2), wireOf twoFrames) [2, 6, 100]).1.user.passed =
        [⟨.rtp, 4, 3, [1, 2, 3]⟩, ⟨.rtcp, 4, 0, []⟩] :=
  (run_delivers ⟨fun _ => rfl, fun _ => rfl, fun _ => rfl⟩ 1 0 2 twoFrames [2, 6, 100]).2.2 (by decide)

end RtpTcpConnect

end AllCamera
