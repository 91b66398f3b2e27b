import AllCamera.Stream.RtpPacket.Fields
import AllCamera.Stream.RtpTcpConnect

/-!
# What is copied of a media frame

`handleMediaData` copies the payload of an interleaved frame without its padding. The number of padding
bytes is the last byte of the payload, and is there when `ParsePacket` has seen the padding bit, also
when it fails afterwards.

* `mediaLength`, `mediaBlock`: the length that is given to `copy`, and what lies in the block then.
* `mediaLength_iff`: when the length is in bounds.
* `mediaBlock_prefix`: the block never holds anything but the front of the payload.
-/

namespace AllCamera

namespace RtpTcpConnect

variable {m : Memory} {p : Int} {unSize : UInt32}

/-- `m_unSize - unTailLen`, for the `unSize` bytes at `p`. -/
def mediaLength (m : Memory) (p : Int) (unSize : UInt32) : UInt32 :=
  unSize - .ofNat (RtpPacket.parsePacket m p unSize.toNat).tailLen

/-- What `handleMediaData` copies behind the head of the block, if it fits. -/
def mediaBlock (m : Memory) (p : Int) (unSize : UInt32) : List UInt8 :=
  if MsgBlock.blockSize - MsgBlock.transmitHead < (mediaLength m p unSize).toNat then []
  else (RtpPacket.parsePacket m p unSize.toNat).data.read p (mediaLength m p unSize).toNat

/-- There is no padding, or a packet in front of it. -/
def PaddingOk (m : Memory) (p : Int) (unSize : UInt32) : Prop :=
  unSize.toNat < RtpPacket.fixedHeader ∨ RtpPacket.padding m p ≠ 1 ∨ m (p + unSize.toNat - 1) = 0 ∨
    (RtpPacket.version m p = RtpPacket.packetVersion ∧
      RtpPacket.announcedHead m p + (m (p + unSize.toNat - 1)).toNat ≤ unSize.toNat)

theorem toNat_mediaLength (m : Memory) (p : Int) (unSize : UInt32) :
    (mediaLength m p unSize).toNat =
      (unSize.toNat + (2 ^ 32 - (RtpPacket.parsePacket m p unSize.toNat).tailLen)) % 2 ^ 32 := by
  have htail := RtpPacket.parsePacket_tailLen_lt m p unSize.toNat
  unfold mediaLength
  rw [UInt32.toNat_sub, UInt32.toNat_ofNat']
  omega

/-- **The length** that is copied is at most that of the payload, and at least that of its RTP header
if there is one, and is that of the payload if not, exactly if the padding fits behind the header or is
not there. -/
theorem mediaLength_iff (m : Memory) (p : Int) (unSize : UInt32) :
    (mediaLength m p unSize ≤ unSize ∧
      ((RtpPacket.parsePacket m p unSize.toNat).ret = .ok →
        (RtpPacket.parsePacket m p unSize.toNat).headLen ≤ (mediaLength m p unSize).toNat) ∧
      ((RtpPacket.parsePacket m p unSize.toNat).ret ≠ .ok → mediaLength m p unSize = unSize)) ↔
    PaddingOk m p unSize := by
  have hsize := unSize.toNat_lt
  have hlength := toNat_mediaLength m p unSize
  rw [RtpPacket.parsePacket_tailLen] at hlength
  unfold PaddingOk
  rw [UInt32.le_iff_toNat_le, ← UInt32.toNat_inj, ← UInt8.toNat_inj, UInt8.toNat_zero]
  by_cases htail : RtpPacket.fixedHeader ≤ unSize.toNat ∧ RtpPacket.padding m p = 1
  · rw [if_pos htail] at hlength
    have hlast := (m (p + unSize.toNat - 1)).toNat_lt
    by_cases hok : (RtpPacket.parsePacket m p unSize.toNat).ret = .ok
    · rw [RtpPacket.parsePacket_headLen_eq hok]
      obtain ⟨hversion, hhead⟩ := RtpPacket.parsePacket_iff.mp hok
      simp only [hok, hversion, htail.2, true_imp_iff, not_true_eq_false, false_imp_iff, ne_eq,
        false_or, and_true, true_and]
      omega
    · have hno := fun h => hok (RtpPacket.parsePacket_iff.mpr h)
      simp only [hok, htail.2, false_imp_iff, not_false_eq_true, true_imp_iff, true_and, ne_eq,
        not_true_eq_false, false_or]
      constructor
      · intro h
        omega
      · rintro (h | h | ⟨hversion, hfits⟩)
        · omega
        · omega
        · exact absurd ⟨hversion, by omega⟩ hno
  · rw [if_neg htail] at hlength
    have hsame : (mediaLength m p unSize).toNat = unSize.toNat := by omega
    refine iff_of_true ⟨Nat.le_of_eq hsame, fun hok => ?_, fun _ => hsame⟩ ?_
    · rw [hsame, RtpPacket.parsePacket_headLen_eq hok]
      exact (RtpPacket.parsePacket_iff.mp hok).2
    · by_cases hshort : unSize.toNat < RtpPacket.fixedHeader
      · exact .inl hshort
      · exact .inr (.inl fun h => htail ⟨by omega, h⟩)

/-- An interleaved frame whose padding is longer than it. -/
theorem not_mediaLength_longPadding :
    let m : Memory := Memory.write (fun _ => 0) 0 [0xA0, 96, 0, 1, 0, 0, 0, 0, 0, 0, 0, 0, 255]
    ¬mediaLength m 0 13 ≤ 13 := by
  decide

/-- The block holds the front of the payload, whatever the padding: a length below zero is too long
to be copied. -/
theorem mediaBlock_prefix (m : Memory) (p : Int) (unSize : UInt32) :
    mediaBlock m p unSize <+: (RtpPacket.parsePacket m p unSize.toNat).data.read p unSize.toNat := by
  have hlength := toNat_mediaLength m p unSize
  have hsize := unSize.toNat_lt
  have htail := RtpPacket.parsePacket_tailLen_lt m p unSize.toNat
  unfold mediaBlock
  split
  · exact List.nil_prefix
  · rename_i hfits
    have hle : (mediaLength m p unSize).toNat ≤ unSize.toNat := by
      simp only [MsgBlock.blockSize, MsgBlock.transmitHead] at hfits
      omega
    rw [← Memory.take_read _ _ _ _ hle]
    exact List.take_prefix _ _

end RtpTcpConnect

end AllCamera
