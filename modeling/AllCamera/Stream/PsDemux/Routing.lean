import AllCamera.Stream.FrameOrganizer.Invariant
import AllCamera.Stream.PsDemux.HandleFrame

/-!
# Which frames go to the demultiplexer

`checkProgramStreamHead` compares the first three payload bytes with `00 00 01`, but joins the
comparisons with "or".

* `run_deliveries_isRtp`: what the frame organizer hands over are RTP packets as `RtpFrame` asks.
* `routed_iff`: the frames that are routed by their prefix.
-/

namespace AllCamera

/-! ## From the organizer -/

namespace RtpPacket

/-- The padding bit is clear behind `ParsePacket`. -/
theorem padding_clearPadding (m : Memory) (p : Int) : padding (clearPadding m p) p ≠ 1 := by
  unfold clearPadding
  split
  · have h := UInt8.toNat_lt (m p)
    have hw : setPadding m p 0 p = .ofNat ((m p).toNat / 64 * 64 + 0 % 2 * 32 + (m p).toNat % 32) := by
      unfold setPadding
      simpa using Memory.write_at (m := m) (p := p) (k := 0)
        (l := [.ofNat ((m p).toNat / 64 * 64 + 0 % 2 * 32 + (m p).toNat % 32)]) (by simp)
    rw [padding, hw, UInt8.toNat_ofNat']
    omega
  · assumption

/-- The code of `parseHead` does not depend on the padding. -/
theorem parseHead_ret (m : Memory) (p : Int) (len tail reach tail' reach' : Nat) :
    (parseHead m p len tail reach).ret = (parseHead m p len tail' reach').ret := by
  unfold parseHead
  simp only
  split_ifs <;> rfl

/-- A second `ParsePacket` accepts what the first one left. -/
theorem parsePacket_again {m : Memory} {p : Int} {len : Nat} (h : (parsePacket m p len).ret = .ok) :
    (parsePacket (parsePacket m p len).data p len).ret = .ok ∧
      padding (parsePacket m p len).data p ≠ 1 := by
  have hlen : ¬ len < fixedHeader := by
    intro hlt
    rw [parsePacket, if_pos hlt] at h
    cases h
  have hdata : (parsePacket m p len).data = clearPadding m p := by
    unfold parsePacket
    split_ifs <;> simp
  have hpad := padding_clearPadding m p
  have hret : (parsePacket m p len).ret = (parseHead (clearPadding m p) p len 0 0).ret := by
    unfold parsePacket
    split_ifs <;> exact parseHead_ret _ _ _ _ _ _ _
  have hclear : clearPadding (clearPadding m p) p = clearPadding m p := if_neg hpad
  rw [hdata]
  refine ⟨?_, hpad⟩
  rw [parsePacket, if_neg hlen, if_neg hpad, hclear, parseHead_ret _ _ _ _ _ 0 0, ← hret]
  exact h

end RtpPacket

namespace FrameOrganizer

/-- A packet that a call took in is the one of its block, which `ParsePacket` accepted. -/
theorem of_mem_accepted {o : FrameOrganizer} {b : MsgBlock} {i : PackInfo}
    (h : i ∈ (o.insertRtpPacket b).2.accepted) : b.parse.ret = .ok ∧ IsInfoOf b i := by
  unfold insertRtpPacket at h
  by_cases hret : b.parse.ret = .ok
  · refine ⟨hret, ?_⟩
    have hret' : (RtpPacket.parsePacket b.data b.rd b.length32).ret = .ok := hret
    simp only [hret', ne_eq, not_true_eq_false, Bool.true_eq_false, or_false, if_false] at h
    have hinfo := packInfo_isInfoOf o b
    unfold insertInfo evict at h
    split at h
    · split at h <;> simp at h
    · simp only at h
      split at h
      · simp at h
      · rw [List.mem_singleton] at h
        exact h ▸ hinfo
  · have hret' : (RtpPacket.parsePacket b.data b.rd b.length32).ret ≠ .ok := hret
    simp [hret'] at h

theorem of_mem_accepted_run {o : FrameOrganizer} {bs : List MsgBlock} {i : PackInfo}
    (h : i ∈ accepted (o.run bs).2) : ∃ b ∈ bs, b.parse.ret = .ok ∧ IsInfoOf b i := by
  induction bs generalizing o with
  | nil => simp [run, accepted] at h
  | cons b bs ih =>
    simp only [run, accepted, List.flatMap_cons, List.mem_append] at h
    rcases h with h | h
    · exact ⟨b, by simp, of_mem_accepted h⟩
    · obtain ⟨c, hc, hci⟩ := ih h
      exact ⟨c, List.mem_cons_of_mem _ hc, hci⟩

/-- What the organizer hands over, when it got its packets in blocks of the pool, are packets as
`RtpFrame` asks. -/
theorem run_deliveries_isRtp (n : Nat) (bs : List MsgBlock) (hbs : ∀ b ∈ bs, b.Within) :
    ∀ d ∈ deliveries ((init n).2.run bs).2, ∀ i ∈ d.packets, i.pRtpMsgBlock.block.IsRtp := by
  intro d hd i hi
  have hacc : i ∈ accepted ((init n).2.run bs).2 := by
    refine (run_ledger n bs).1.account.mem_iff.mpr ?_
    exact List.mem_append_left _ (List.mem_append_right _ (List.mem_flatMap.mpr ⟨d, hd, hi⟩))
  obtain ⟨b, hb, hret, hinfo⟩ := of_mem_accepted_run hacc
  have hw := hbs b hb
  obtain ⟨hagain, hpad⟩ := RtpPacket.parsePacket_again hret
  rw [hinfo.block]
  exact ⟨⟨hw.head, hw.order, hw.inside, hw.cap⟩, hagain, hpad⟩

end FrameOrganizer

/-! ## The check -/

namespace RtpFrame

/-- The first packet of the frame. -/
def first (f : RtpFrame) : MsgBlock := f.blocks.head f.ne_nil

/-- The payload of the first packet. -/
def payload (f : RtpFrame) : List UInt8 := f.first.payload.drop f.first.parse.headLen

/-- Byte `i` behind the RTP header of the first packet, whether the packet has it or not. -/
def bufferByte (f : RtpFrame) (i : Nat) : UInt8 := f.first.data (f.first.rd + f.first.parse.headLen + i)

/-- The payload of the first packet begins with the start code prefix of a program stream. -/
def HasPsPrefix (f : RtpFrame) : Prop := [0, 0, 1] <+: f.payload

/-- The frame goes to the demultiplexer exactly when it has the prefix, and else all of its packets
are sent on, as they are, each once and in order. -/
def Routed (d : Demux) (f : RtpFrame) : Prop :=
  ((Demux.checkProgramStreamHead f.blocks).1 = true ↔ f.HasPsPrefix) ∧
    (¬ f.HasPsPrefix → d.beginFrame f.blocks = { d with sent := d.sent ++ f.blocks })

theorem forward_eq (d : Demux) {bs : List MsgBlock} (h : ∀ b ∈ bs, b.IsRtp) :
    d.forward bs = { d with sent := d.sent ++ bs } := by
  induction bs generalizing d with
  | nil => simp [Demux.forward]
  | cons b bs ih =>
    have hb := h b (by simp)
    rw [Demux.forward, if_neg (by simp [hb.parses]), ih _ fun c hc => h c (List.mem_cons_of_mem _ hc),
      hb.data_eq, List.append_assoc, List.singleton_append]

/-- The check, on a frame of RTP packets: one of three bytes is as in the prefix. -/
theorem check_iff (f : RtpFrame) : (Demux.checkProgramStreamHead f.blocks).1 = true ↔
    f.bufferByte 0 = 0 ∨ f.bufferByte 1 = 0 ∨ f.bufferByte 2 = 1 := by
  obtain ⟨b, bs, hbs⟩ := List.exists_cons_of_ne_nil f.ne_nil
  have hfirst : f.first = b := by simp [first, hbs]
  have hb := f.isRtp b (by simp [hbs])
  unfold bufferByte
  rw [hbs, hfirst, Demux.checkProgramStreamHead, if_neg (by simp [hb.parses]), hb.data_eq]
  simp only
  split_ifs <;> simp_all

/-- The bytes of the payload are those of the buffer. -/
theorem hasPsPrefix_iff (f : RtpFrame) : f.HasPsPrefix ↔
    3 ≤ f.payload.length ∧ f.bufferByte 0 = 0 ∧ f.bufferByte 1 = 0 ∧ f.bufferByte 2 = 1 := by
  have hpay : f.payload = f.first.data.read (f.first.rd + f.first.parse.headLen)
      (f.first.length - f.first.parse.headLen) := by
    rw [payload, MsgBlock.payload, Memory.drop_read]
  have hlen : f.payload.length = f.first.length - f.first.parse.headLen := by
    rw [hpay, Memory.length_read]
  rw [hlen, HasPsPrefix, hpay]
  generalize f.first.length - f.first.parse.headLen = n
  unfold bufferByte
  rcases n with _ | _ | _ | n
  · simp
  · simp [Memory.read_succ]
  · simp [Memory.read_succ]
  · simp [Memory.read_succ, Int.add_assoc, eq_comm]

end RtpFrame

open RtpFrame in
/-- **Routing.** For every frame and every state, the frame is routed by its prefix exactly when it
has the prefix or none of its first three bytes is as in the prefix. -/
theorem routed_iff (d : Demux) (f : RtpFrame) : Routed d f ↔
    f.HasPsPrefix ∨ (f.bufferByte 0 ≠ 0 ∧ f.bufferByte 1 ≠ 0 ∧ f.bufferByte 2 ≠ 1) := by
  have hcheck := check_iff f
  constructor
  · rintro ⟨h, -⟩
    by_cases hp : f.HasPsPrefix
    · exact .inl hp
    · right
      rw [hcheck] at h
      have hno := mt h.mp hp
      simpa [not_or] using hno
  · intro h
    have hif : (Demux.checkProgramStreamHead f.blocks).1 = true ↔ f.HasPsPrefix := by
      rw [hcheck]
      constructor
      · rintro hor
        rcases h with h | ⟨h0, h1, h2⟩
        · exact h
        · rcases hor with hor | hor | hor
          · exact absurd hor h0
          · exact absurd hor h1
          · exact absurd hor h2
      · intro hp
        exact .inl ((hasPsPrefix_iff f).mp hp).2.1
    refine ⟨hif, fun hp => ?_⟩
    rw [Demux.beginFrame]
    simp only [Bool.eq_false_iff.mpr (mt hif.mp hp), Bool.false_eq_true, if_false]
    exact forward_eq d f.isRtp

/-- A G.711 packet that begins with `00 ff`: it goes to the demultiplexer. -/
theorem not_routed_audio :
    ¬ RtpFrame.Routed Demux.init (.single ⟨0, true, 0, 0, 0⟩ [0x00, 0xff, 0xff] (by decide)) := by
  rintro ⟨h, -⟩
  have hp := h.mp (by decide)
  have hno : ¬ [0, 0, 1] <+: [(0x00 : UInt8), 0xff, 0xff] := by decide
  exact hno hp

end AllCamera
