import AllCamera.Stream.RtpPacker

/-!
# Where `SendRawVideoData` reads

* `Access.Ok`: an access inside of the frame or of the send buffer, and a difference that does not wrap.
* `Adds`: what a function adds to the accesses, and what holds of it. `naluLoop_adds`: what every pass of the
  loop adds, the loop adds.
* `RawSafe`: all accesses of `SendRawVideoData` are good, and a start code alone sends nothing.
-/

namespace AllCamera

/-- The access is inside of the `ulBufLen` bytes of the frame, or of the send buffer, and a difference does not
wrap. -/
def Access.Ok (ulBufLen : UInt32) : Access → Prop
  | .frame p n => 0 ≤ p ∧ p + n ≤ ulBufLen.toNat
  | .buf p n => p + n ≤ RtpPacker.rtpPackBufSize
  | .sub a b => b ≤ a

namespace RtpPacker

/-- From `p` to `p'` only accesses with `P` are added. -/
def Adds (P : Access → Prop) (p p' : RtpPacker) : Prop :=
  ∃ as, p'.accesses = p.accesses ++ as ∧ ∀ a ∈ as, P a

variable {P : Access → Prop} {p p' p'' : RtpPacker}

theorem Adds.refl : Adds P p p := ⟨[], (List.append_nil _).symm, fun _ ha => absurd ha List.not_mem_nil⟩

theorem Adds.trans (h : Adds P p p') (h' : Adds P p' p'') : Adds P p p'' := by
  obtain ⟨as, has, hP⟩ := h
  obtain ⟨bs, hbs, hP'⟩ := h'
  refine ⟨as ++ bs, by rw [hbs, has, List.append_assoc], fun a ha => ?_⟩
  exact (List.mem_append.mp ha).elim (hP a) (hP' a)

theorem Adds.touch {as : List Access} (h : ∀ a ∈ as, P a) : Adds P p (p.touch as) := ⟨as, rfl, h⟩

/-- What holds of all accesses that are added holds of one of them. -/
theorem Adds.of_trans (h : Adds P p p'') (as : List Access) (has : p'.accesses = p.accesses ++ as)
    (h' : Adds (fun _ => True) p' p'') : ∀ a ∈ as, P a := by
  obtain ⟨bs, hbs, hP⟩ := h
  obtain ⟨cs, hcs, -⟩ := h'
  have happ : bs = as ++ cs := by
    rw [hcs, has, List.append_assoc] at hbs
    exact (List.append_cancel_left hbs).symm
  intro a ha
  exact hP a (happ ▸ List.mem_append_left _ ha)

variable (m : Memory) (nal : Int)

/-- What a branch of the loop reads and writes. -/
def fragmentAccesses (src : Int) (len : Nat) : List Access :=
  [.buf 0 rtpHdrLen, .frame nal 1, .buf rtpHdrLen 2, .frame src len, .buf (rtpHdrLen + 2) len,
    .buf 0 (len + rtpHdrLen + 2)]

theorem sendFragment_adds {src : Int} {len : Nat} (h : ∀ a ∈ fragmentAccesses nal src len, P a)
    (marker s e : Bool) : Adds P p (p.sendFragment m nal marker s e src len) :=
  ⟨fragmentAccesses nal src len, List.append_assoc .., h⟩

/-- A pass of the loop copies the chunk `t`. -/
theorem naluPass_adds {k last t : Nat} (hk : 0 < k)
    (h : ∀ a ∈ fragmentAccesses nal (nal + (t * rtpPlayloadLen : Nat) + 1) (if t = k then last else rtpPlayloadLen),
      P a) : Adds P p (p.naluPass m nal k last t) := by
  unfold naluPass
  by_cases h0 : t = 0
  · subst h0
    rw [if_neg (show 0 ≠ k by omega), Nat.zero_mul, Int.natCast_zero, Int.add_zero] at h
    rw [if_pos rfl]
    exact sendFragment_adds m nal h ..
  by_cases ht : k = t
  · rw [if_pos ht.symm] at h
    rw [if_neg h0, if_pos ht]
    exact sendFragment_adds m nal h ..
  · rw [if_neg (Ne.symm ht)] at h
    rw [if_neg h0, if_neg ht]
    exact sendFragment_adds m nal h ..

/-- What every pass of the loop adds, the loop adds. -/
theorem naluLoop_adds {k last t : Nat} (hpass : ∀ q t, t ≤ k → Adds P q (q.naluPass m nal k last t)) :
    Adds P p (p.naluLoop m nal k last t) := by
  fun_induction naluLoop p m nal k last t with
  | case1 p t ht ih => exact (hpass p t ht).trans ih
  | case2 p t ht => exact .refl

/-- A branch of the loop that copies a chunk inside of the NAL unit. -/
theorem fragmentAccesses_ok {ulBufLen : UInt32} {src : Int} {len : Nat} (hnal : 0 ≤ nal) (hsrc : nal < src)
    (hend : src + len ≤ ulBufLen.toNat) (hlen : len ≤ rtpPlayloadLen) :
    ∀ a ∈ fragmentAccesses nal src len, a.Ok ulBufLen := by
  simp only [fragmentAccesses, List.forall_mem_cons, List.not_mem_nil, false_imp_iff, implies_true, and_true,
    Access.Ok, rtpHdrLen, rtpPackBufSize, rtpPlayloadLen] at *
  omega

/-- `SendNaluVideoData` of a NAL unit that is not empty and lies inside of the frame. -/
theorem sendNaluVideoData_adds {ulBufLen total : UInt32} (hlen : 1 ≤ ulBufLen) (hnal : 0 ≤ nal)
    (hend : nal + ulBufLen.toNat ≤ total.toNat) (ulTimeStamp : UInt32) :
    Adds (Access.Ok total) p (p.sendNaluVideoData m nal ulBufLen ulTimeStamp) := by
  have hsub : (ulBufLen - 1).toNat = ulBufLen.toNat - 1 := UInt32.toNat_sub_of_le _ _ hlen
  have hpos : 1 ≤ ulBufLen.toNat := UInt32.le_iff_toNat_le.mp hlen
  have hstart : Adds (Access.Ok total) p (p.startVideo ulBufLen ulTimeStamp) := by
    refine ⟨[.sub ulBufLen 1, .buf 0 rtpHdrLen], rfl, ?_⟩
    simp only [List.forall_mem_cons, List.not_mem_nil, false_imp_iff, implies_true, and_true]
    exact ⟨hlen, show 0 + 12 ≤ 1500 by decide⟩
  refine hstart.trans ?_
  unfold sendNaluVideoData
  dsimp only
  split_ifs with hfit
  · refine ⟨[.buf 0 rtpHdrLen, .frame nal ((ulBufLen - 1).toNat + 1), .buf rtpHdrLen ((ulBufLen - 1).toNat + 1),
      .buf 0 (rtpHdrLen + ((ulBufLen - 1).toNat + 1))], List.append_assoc .., ?_⟩
    simp only [List.forall_mem_cons, List.not_mem_nil, false_imp_iff, implies_true, and_true, Access.Ok, rtpHdrLen,
      rtpPackBufSize, rtpPlayloadLen] at *
    omega
  · obtain ⟨hk, htile, hlast⟩ := fragments_spec (not_le.mp hfit)
    have hstamp : Adds (Access.Ok total) (p.startVideo ulBufLen ulTimeStamp)
        (p.startVideo ulBufLen ulTimeStamp).stampVideo :=
      ⟨[], (List.append_nil _).symm, fun _ ha => absurd ha List.not_mem_nil⟩
    refine hstamp.trans (naluLoop_adds m nal fun q t ht => ?_)
    refine naluPass_adds m nal hk (fragmentAccesses_ok nal hnal (by omega) ?_ ?_)
    · -- a chunk before the last one ends where the next one begins
      split_ifs with heq
      · rw [heq]
        omega
      · have hnext : (t + 1) * rtpPlayloadLen ≤ (fragments (ulBufLen - 1).toNat).1 * rtpPlayloadLen :=
          Nat.mul_le_mul_right _ (by omega)
        rw [Nat.succ_mul] at hnext
        omega
    · split_ifs
      · exact hlast
      · exact Nat.le_refl _

/-- What `SendNaluVideoData` reads and writes behind the first half of it. -/
theorem sendNaluVideoData_adds_behind (p : RtpPacker) (ulBufLen ulTimeStamp : UInt32) :
    Adds (fun _ => True) (p.startVideo ulBufLen ulTimeStamp) (p.sendNaluVideoData m nal ulBufLen ulTimeStamp) := by
  unfold sendNaluVideoData
  dsimp only
  split_ifs with hfit
  · exact ⟨_, List.append_assoc .., fun _ _ => trivial⟩
  · have hstamp : Adds (fun _ => True) (p.startVideo ulBufLen ulTimeStamp)
        (p.startVideo ulBufLen ulTimeStamp).stampVideo :=
      ⟨[], (List.append_nil _).symm, fun _ _ => trivial⟩
    refine hstamp.trans (naluLoop_adds m nal fun q t _ => ?_)
    exact naluPass_adds m nal (fragments_spec (not_le.mp hfit)).1 fun _ _ => trivial

/-! ## `SendRawVideoData` -/

/-- All accesses of `SendRawVideoData` are good, and a start code alone sends nothing. -/
def RawSafe (p : RtpPacker) (m : Memory) (ulBufLen ulTimeStamp : UInt32) : Prop :=
  Adds (Access.Ok ulBufLen) p (p.sendRawVideoData m ulBufLen ulTimeStamp) ∧
    (IsStartCode (m.read 0 ulBufLen.toNat) → (p.sendRawVideoData m ulBufLen ulTimeStamp).handed = p.handed)

theorem findStartCode_eq_some {ulBufLen code : UInt32} (h : findStartCode m ulBufLen = some code) :
    4 ≤ ulBufLen.toNat ∧ (code = 4 ∧ m.read 0 4 = [0, 0, 0, 1] ∨ code = 3) := by
  unfold findStartCode at h
  split_ifs at h with hlen h4 h3
  · exact ⟨UInt32.le_iff_toNat_le.mp (UInt32.not_lt.mp hlen), .inl ⟨(Option.some.inj h).symm, h4⟩⟩
  · exact ⟨UInt32.le_iff_toNat_le.mp (UInt32.not_lt.mp hlen), .inr (Option.some.inj h).symm⟩

/-- Behind the start code at least a byte is left, unless the buffer is the long start code. -/
theorem sub_startCode {ulBufLen code : UInt32} (h : findStartCode m ulBufLen = some code)
    (hne : m.read 0 ulBufLen.toNat ≠ [0, 0, 0, 1]) :
    code ≤ ulBufLen ∧ 1 ≤ ulBufLen - code ∧ (code.toNat : Int) + (ulBufLen - code).toNat ≤ ulBufLen.toNat := by
  obtain ⟨hlen, hcode⟩ := findStartCode_eq_some m h
  have hlt : code.toNat < ulBufLen.toNat := by
    rcases hcode with ⟨rfl, hread⟩ | rfl
    · have h4 : ulBufLen.toNat ≠ 4 := fun h => hne (h ▸ hread)
      show 4 < _
      omega
    · show 3 < _
      omega
  have hle : code ≤ ulBufLen := UInt32.le_iff_toNat_le.mpr (by omega)
  have hsub : (ulBufLen - code).toNat = ulBufLen.toNat - code.toNat := UInt32.toNat_sub_of_le _ _ hle
  refine ⟨hle, UInt32.le_iff_toNat_le.mpr ?_, by omega⟩
  show 1 ≤ _
  omega

/-- A buffer of fewer than four bytes. -/
theorem sendRawVideoData_short (p : RtpPacker) {ulBufLen : UInt32} (h : ulBufLen < 4) (ulTimeStamp : UInt32) :
    p.sendRawVideoData m ulBufLen ulTimeStamp = p := by
  simp only [sendRawVideoData, findStartCode, if_pos h]

/-- The long start code alone: the length behind it is zero, and the length behind the NAL header wraps. -/
theorem not_rawSafe {ulBufLen : UInt32} (h : m.read 0 ulBufLen.toNat = [0, 0, 0, 1]) (ulTimeStamp : UInt32) :
    ¬ RawSafe p m ulBufLen ulTimeStamp := by
  have hlen : ulBufLen.toNat = 4 := by
    have hlen := congrArg List.length h
    rwa [Memory.length_read] at hlen
  have h4 : ulBufLen = 4 := UInt32.toNat_inj.mp hlen
  subst h4
  have hcode : findStartCode m 4 = some 4 := by
    rw [findStartCode, if_neg (UInt32.not_lt.mpr (UInt32.le_refl 4))]
    exact if_pos h
  intro hsafe
  have hsend : p.sendRawVideoData m 4 ulTimeStamp =
      ((p.touch [.frame 0 4]).touch [.sub 4 4]).sendNaluVideoData m 4 (4 - 4) ulTimeStamp := by
    rw [sendRawVideoData, hcode]
    rfl
  have hall := hsafe.1
  rw [hsend] at hall
  have hok := hall.of_trans ([.frame 0 4] ++ [.sub 4 4] ++ [.sub 0 1, .buf 0 rtpHdrLen]) ?_
    (sendNaluVideoData_adds_behind m 4 _ (4 - 4) ulTimeStamp)
  · have hwrap : (1 : UInt32) ≤ 0 := hok (.sub 0 1) (by simp)
    exact absurd hwrap (by decide)
  · simp only [startVideo, touch, List.append_assoc]
    rfl

theorem sendRawVideoData_safe_iff (p : RtpPacker) (ulBufLen ulTimeStamp : UInt32) :
    RawSafe p m ulBufLen ulTimeStamp ↔ m.read 0 ulBufLen.toNat ≠ [0, 0, 0, 1] := by
  refine ⟨fun hsafe h => not_rawSafe m h ulTimeStamp hsafe, fun hne => ?_⟩
  by_cases hshort : ulBufLen < 4
  · rw [RawSafe, sendRawVideoData_short m p hshort]
    exact ⟨.refl, fun _ => rfl⟩
  have hlen : 4 ≤ ulBufLen.toNat := UInt32.le_iff_toNat_le.mp (UInt32.not_lt.mp hshort)
  constructor
  · have hfirst : Adds (Access.Ok ulBufLen) p (p.touch [.frame 0 4]) := by
      refine .touch ?_
      simp only [List.forall_mem_singleton, Access.Ok]
      omega
    unfold sendRawVideoData
    rw [if_neg hshort]
    cases hcode : findStartCode m ulBufLen with
    | none => exact hfirst
    | some code =>
      obtain ⟨hle, hpos, hend⟩ := sub_startCode m hcode hne
      have hsub : Adds (Access.Ok ulBufLen) (p.touch [.frame 0 4])
          ((p.touch [.frame 0 4]).touch [.sub ulBufLen code]) :=
        .touch (List.forall_mem_singleton.mpr hle)
      exact (hfirst.trans hsub).trans (sendNaluVideoData_adds m code.toNat hpos (Int.natCast_nonneg _) hend _)
  · -- the short start code is too short to be found
    intro hcode
    have hread := Memory.length_read m 0 ulBufLen.toNat
    generalize m.read 0 ulBufLen.toNat = bytes at *
    cases hcode with
    | three =>
      change 3 = _ at hread
      omega
    | four => exact absurd rfl hne

/-- The start code of four bytes. -/
theorem not_rawSafe_startCode : ¬ ∀ (p : RtpPacker) (m : Memory) (ulBufLen ulTimeStamp : UInt32),
    RawSafe p m ulBufLen ulTimeStamp :=
  fun h => not_rawSafe (fun i => if i = 3 then 1 else 0) rfl 40 (h created _ 4 40)

end RtpPacker

end AllCamera
