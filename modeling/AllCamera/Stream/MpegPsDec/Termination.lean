import AllCamera.Stream.MpegPsDec
import AllCamera.Lib.Loop

/-!
# When unpacking ends

Two cases of the `switch` leave the pointer where it is, and a header whose length field is 0xfffa has
a length of 0 in 16 bits. The loop stays in front of such a packet.

* `Stalls`: the state in front of one.
* `body_moves`, `body_stalls`: what the body does in every other state, and in that one.
* `terminates_iff`: `writePsStream` ends exactly if its loop never comes to such a state.
-/

namespace AllCamera.MpegPsDec

variable {m : Memory} {n : Nat} {ts : UInt32} {s : Scan}

/-- In front of a padding stream or the private stream 2, or of a system header or a stream map with
the length field 0xfffa. -/
def Stalls (m : Memory) (s : Scan) : Prop :=
  s.ulCurMediaLen ≠ 0 ∧
    (s.getStartCode m = paddingStream ∨ s.getStartCode m = privateStream2 ∨
      ((s.getStartCode m = systemHeaderStartCode ∨ s.getStartCode m = programStreamMap) ∧
        headLenMin ≤ s.ulCurMediaLen.toNat ∧ be16 (s.byte m 4) (s.byte m 5) = 0xfffa))

instance : Decidable (Stalls m s) := inferInstanceAs (Decidable (_ ∧ _))

/-- The loop goes on in `s`. -/
def Running (n : Nat) (s : Scan) : Prop := s.exit = none ∧ s.curMediaData < n

instance : Decidable (Running n s) := inferInstanceAs (Decidable (_ ∧ _))

theorem scanStep_running (h : Running n s) : scanStep m n ts s = s.body m := by
  unfold scanStep
  rw [if_neg (not_not.mpr h.1), if_pos h.2]

/-! ## A turn -/

/-- The turn returned, or the pointer has moved on. -/
def Moved (s s' : Scan) : Prop := s'.exit ≠ none ∨ s.curMediaData < s'.curMediaData

theorem moved_fail (s : Scan) : Moved s s.fail := .inl nofun

/-- A header is skipped, or the function returns. -/
theorem moved_stripPSHeader (m : Memory) (s : Scan) : Moved s ((s.stripPSHeader m).getD s.fail) := by
  unfold Scan.stripPSHeader
  split
  · exact moved_fail s
  · simp only
    split
    · exact moved_fail s
    · refine .inr ?_
      simp only [Option.getD_some, Scan.skip, psHeadLen]
      omega

/-- The length in 16 bits is 0 for one value of the field. -/
theorem headSize_eq_zero (hi lo : UInt8) : be16 hi lo + 2 + 4 = 0 ↔ be16 hi lo = 0xfffa := by
  rw [← UInt16.toNat_inj, ← UInt16.toNat_inj, UInt16.toNat_add, UInt16.toNat_add]
  have := (be16 hi lo).toNat_lt
  simp only [UInt16.reduceToNat]
  omega

theorem moved_stripSysHeader
    (h : headLenMin ≤ s.ulCurMediaLen.toNat → be16 (s.byte m 4) (s.byte m 5) ≠ 0xfffa) :
    Moved s ((s.stripSysHeader m).getD s.fail) := by
  unfold Scan.stripSysHeader
  split
  · exact moved_fail s
  · rename_i hlen
    have hsize : (be16 (s.byte m 4) (s.byte m 5) + 2 + 4).toNat ≠ 0 := fun h0 =>
      h (by omega) ((headSize_eq_zero _ _).mp (UInt16.toNat_inj.mp h0))
    simp only
    split
    · exact moved_fail s
    · refine .inr ?_
      simp only [Option.getD_some, Scan.skip]
      omega

theorem moved_collect (m : Memory) (s : Scan) : Moved s (s.collect m) := by
  unfold Scan.collect Scan.stripPESHeader
  split
  · exact moved_fail s
  · rename_i s' hs'
    split at hs'
    · cases hs'
    · obtain rfl := Option.some.inj hs'
      simp only
      split_ifs
      · exact .inl nofun
      · refine .inr ?_
        simp only
        omega
      · refine .inr ?_
        simp only
        omega

/-- The `switch` moves the pointer, unless it is that of a packet that is not skipped. -/
theorem moved_dispatch (hpadding : s.unStartCode ≠ paddingStream)
    (hprivate : s.unStartCode ≠ privateStream2)
    (hsize : s.unStartCode = systemHeaderStartCode ∨ s.unStartCode = programStreamMap →
      headLenMin ≤ s.ulCurMediaLen.toNat → be16 (s.byte m 4) (s.byte m 5) ≠ 0xfffa) :
    Moved s (s.dispatch m) := by
  unfold Scan.dispatch
  split_ifs with hpack hsys hmap hpes
  · exact moved_stripPSHeader m s
  · exact moved_stripSysHeader (hsize (.inl hsys))
  · exact moved_stripSysHeader (hsize (.inr hmap))
  · exact moved_collect m s
  · exact .inr (Nat.lt_succ_self _)

/-- Every other state: the turn returns, or moves the pointer. -/
theorem body_moves (h : ¬Stalls m s) : Moved s (s.body m) := by
  unfold Scan.body
  split
  · exact moved_fail s
  · rename_i hlen
    exact moved_dispatch (s := { s with unStartCode := s.getStartCode m })
      (fun hc => h ⟨hlen, .inl hc⟩) (fun hc => h ⟨hlen, .inr (.inl hc)⟩)
      fun hc hmin hfield => h ⟨hlen, .inr (.inr ⟨hc, hmin, hfield⟩)⟩

/-- Nothing is skipped. -/
theorem stripSysHeader_stalls (hmin : headLenMin ≤ s.ulCurMediaLen.toNat)
    (hfield : be16 (s.byte m 4) (s.byte m 5) = 0xfffa) : (s.stripSysHeader m).getD s.fail = s := by
  unfold Scan.stripSysHeader
  rw [if_neg (by omega)]
  simp only [(headSize_eq_zero _ _).mpr hfield]
  rw [if_neg (by simp)]
  have hzero : s.ulCurMediaLen - .ofNat (0 : UInt16).toNat = s.ulCurMediaLen := by
    rw [← UInt32.toNat_inj, UInt32.toNat_sub]
    have := s.ulCurMediaLen.toNat_lt
    simp
  simp only [Option.getD_some, Scan.skip, hzero]
  rfl

/-- Where the loop stalls, a turn changes nothing but the start code. -/
theorem body_stalls (h : Stalls m s) : s.body m = { s with unStartCode := s.getStartCode m } := by
  obtain ⟨hlen, hcode⟩ := h
  unfold Scan.body
  rw [if_neg hlen]
  unfold Scan.dispatch
  simp only
  rcases hcode with hc | hc | ⟨hc | hc, hmin, hfield⟩
  · simp only [hc]
    rfl
  · simp only [hc]
    rfl
  · rw [if_neg (by rw [hc]; decide), if_pos hc]
    exact stripSysHeader_stalls (s := { s with unStartCode := s.getStartCode m }) hmin hfield
  · rw [if_neg (by rw [hc]; decide), if_neg (by rw [hc]; decide), if_neg (by rw [hc]; decide),
      if_neg (by rw [hc]; decide), if_pos hc]
    exact stripSysHeader_stalls (s := { s with unStartCode := s.getStartCode m }) hmin hfield

/-! ## The loop -/

/-- A state that stalls does so for ever. -/
theorem stalls_forever (hr : Running n s) (h : Stalls m s) :
    Running n (scanStep m n ts s) ∧ Stalls m (scanStep m n ts s) := by
  rw [scanStep_running hr, body_stalls h]
  exact ⟨hr, h⟩

/-- What is left to do. -/
def todo (n : Nat) (s : Scan) : Nat := if s.exit = none then n - s.curMediaData + 1 else 0

theorem todo_lt (hx : s.exit = none) (h : Running n s → ¬Stalls m s) :
    todo n (scanStep m n ts s) < todo n s := by
  by_cases hcur : s.curMediaData < n
  · have hmoved := body_moves (h ⟨hx, hcur⟩)
    rw [scanStep_running ⟨hx, hcur⟩]
    unfold todo
    rw [if_pos hx]
    split
    · rename_i hx'
      rcases hmoved with hno | hlt
      · exact absurd hx' hno
      · omega
    · omega
  · have hstep : scanStep m n ts s = { s with exit := some (s.finish ts) } := by
      unfold scanStep
      rw [if_neg (not_not.mpr hx), if_neg hcur]
    rw [hstep]
    simp [todo, hx]

/-- **The end.** `writePsStream` ends if and only if its loop never comes to a state that stalls; and
that is when every turn returns or moves the pointer forward. -/
theorem terminates_iff (m : Memory) (n : Nat) (ts : UInt32) :
    let s (k : Nat) := (scanStep m n ts)^[k] (Scan.start n)
    ((∃ r, WritePsStream m n ts r) ↔ ∀ k, Running n (s k) → ¬Stalls m (s k)) ∧
      ((∀ k, Running n (s k) → Moved (s k) (s (k + 1))) ↔ ∀ k, Running n (s k) → ¬Stalls m (s k)) := by
  intro s
  have hsucc : ∀ k, s (k + 1) = scanStep m n ts (s k) := fun k => Function.iterate_succ_apply' _ _ _
  refine ⟨⟨?_, fun h => ?_⟩, forall_congr' fun k => forall_congr' fun hr => ⟨fun hmoved h => ?_,
    fun h => ?_⟩⟩
  · rintro ⟨r, j, hj⟩ k hr hstalls
    have hstay : ∀ s : Scan, s.exit ≠ none → scanStep m n ts s = s := by
      intro s hs
      unfold scanStep
      rw [if_pos hs]
    have hnot : ¬Loop.Returns (scanStep m n ts) (fun s => s.exit ≠ none) (Scan.start n) :=
      Loop.not_returns_of_reaches_trap (T := fun s => Running n s ∧ Stalls m s) (k := k)
        (fun s hs => ⟨not_not.mpr hs.1.1, stalls_forever hs.1 hs.2⟩) hstay ⟨hr, hstalls⟩
    exact hnot ⟨j, Option.ne_none_iff_exists'.mpr ⟨r, hj⟩⟩
  · obtain ⟨k, hk⟩ : Loop.Returns (scanStep m n ts) (fun s => s.exit ≠ none) (Scan.start n) :=
      Loop.returns_of_wf (I := fun _ => True) (G := fun s => Running n s → ¬Stalls m s)
        (measure (todo n)).wf (fun s _ hg hx => ⟨trivial, todo_lt (not_not.mp hx) hg⟩) (Scan.start n)
        trivial fun k _ => h k
    obtain ⟨r, hr⟩ := Option.ne_none_iff_exists'.mp hk
    exact ⟨r, k, hr⟩
  · rw [hsucc, scanStep_running hr, body_stalls h] at hmoved
    rcases hmoved with hx | hlt
    · exact hx hr.1
    · exact Nat.lt_irrefl _ hlt
  · rw [hsucc, scanStep_running hr]
    exact body_moves h

/-- A padding stream in front: the loop stays there. -/
theorem not_terminates_padding : let m : Memory := Memory.write (fun _ => 0) 0 [0, 0, 1, 0xBE, 0, 0]
    ¬∃ r, WritePsStream m 6 0 r := by
  rintro m ⟨r, j, hj⟩
  have hnot : ¬Loop.Returns (scanStep m 6 0) (fun s => s.exit ≠ none) (Scan.start 6) :=
    Loop.not_returns_of_trap (T := fun s => Running 6 s ∧ Stalls m s)
      (fun s hs => ⟨not_not.mpr hs.1.1, stalls_forever hs.1 hs.2⟩) (by decide)
  exact hnot ⟨j, Option.ne_none_iff_exists'.mpr ⟨r, hj⟩⟩

end AllCamera.MpegPsDec
