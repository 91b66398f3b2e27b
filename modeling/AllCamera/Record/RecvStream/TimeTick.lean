import AllCamera.Record.RecvStream

/-!
# The time ticks of a camera's frames

`check_timetick` is to make one clock of the time ticks of the frames: the first video frame keeps its time
tick, the next ones are as far apart as they were, or `SVS_FRAME_DEFAULT_TIMETICK` where the time ticks
jump. As the clock is 0 before the first frame, its time tick is added to itself, and a jump from 0 is not
seen (`kept_iff`).

* `TickRun`: the clock and the frames that it was given.
* `OneClock`: what the time ticks are to be; `Kept`: the frames for which they are.
* `sum`: all that was added to the clock; below `2 ^ 32` the time ticks do not go back.
-/

namespace AllCamera

open AllCamera.Run

/-- A frame that is given to `check_timetick`, and the time; video frames have a `nVideoSize`. -/
structure TickFrame where
  dwFrameID : UInt32
  nVideoSize : UInt32
  nTimeTick : UInt32
  now : Int
  deriving DecidableEq, Repr

/-- A frame with the time tick that was put into it. -/
structure Ticked where
  frame : TickFrame
  adjusted : UInt32
  deriving DecidableEq, Repr

/-- By how much the time tick of the next video frame is to grow. -/
def growth (last curr : UInt32) : UInt32 :=
  if curr < last ∨ svsFrameTimetickIntervalMax < curr - last then svsFrameDefaultTimetick
  else curr - last

/-- The last video frame; the last frame is first in the list. -/
def lastVideo (out : List Ticked) : Option Ticked := out.find? fun t => t.frame.nVideoSize ≠ 0

/-- The time tick that a video frame after `out` is to get. -/
def clockTick (out : List Ticked) (f : TickFrame) : UInt32 :=
  match lastVideo out with
  | none => f.nTimeTick
  | some u => u.adjusted + growth u.frame.nTimeTick f.nTimeTick

/-- Each video frame has the time tick that it is to get. -/
def OneClock : List Ticked → Prop
  | [] => True
  | t :: out => OneClock out ∧ (t.frame.nVideoSize ≠ 0 → t.adjusted = clockTick out t.frame)

/-- The time ticks do not go back. -/
def NeverBack (out : List Ticked) : Prop := out.Pairwise fun t u => u.adjusted ≤ t.adjusted

namespace FrameClock

/-- What `check_timetick` adds to the clock. -/
def added (k : FrameClock) (f : TickFrame) : Nat :=
  if f.nVideoSize = 0 then if k.lastAdjustTimetick = 0 then f.nTimeTick.toNat else 0
  else if newIndexSegFlag k.lastFrameTimetick f.nTimeTick then svsFrameDefaultTimetick.toNat
  else
    (if k.lastAdjustTimetick = 0 then f.nTimeTick.toNat else 0) +
      (f.nTimeTick - k.lastFrameTimetick).toNat

variable {k : FrameClock} {f : TickFrame}

@[simp] theorem countFrameInfo_lastAdjustTimetick (k : FrameClock) (b : Bool) :
    (k.countFrameInfo b).lastAdjustTimetick = k.lastAdjustTimetick := by
  unfold countFrameInfo
  split_ifs <;> rfl

@[simp] theorem noteFrame_lastAdjustTimetick (k : FrameClock) (tick : UInt32) (now : Int) :
    (k.noteFrame tick now).lastAdjustTimetick = k.lastAdjustTimetick := by
  unfold noteFrame
  dsimp only
  split_ifs <;> rfl

@[simp] theorem noteFrame_lastFrameTimetick (k : FrameClock) (tick : UInt32) (now : Int) :
    (k.noteFrame tick now).lastFrameTimetick = tick := by
  unfold noteFrame
  dsimp only
  split_ifs <;> rfl

theorem adjust_lastAdjustTimetick (k : FrameClock) (flag : Bool) (tick : UInt32) :
    (k.adjust flag tick).lastAdjustTimetick =
      if flag then k.lastAdjustTimetick + svsFrameDefaultTimetick
      else
        (if k.lastAdjustTimetick = 0 then tick else k.lastAdjustTimetick) +
          (tick - k.lastFrameTimetick) := by
  unfold adjust
  cases flag with
  | true => rfl
  | false => by_cases hA : k.lastAdjustTimetick = 0 <;> simp [hA]

/-- The frame gets the time tick of the clock. -/
theorem checkTimetick_snd (k : FrameClock) (f : TickFrame) :
    (k.checkTimetick f.nVideoSize f.nTimeTick f.now).2 =
      (k.checkTimetick f.nVideoSize f.nTimeTick f.now).1.lastAdjustTimetick := by
  unfold checkTimetick
  split_ifs with h
  · rfl
  · simp

theorem checkTimetick_audio (h : f.nVideoSize = 0) :
    (k.checkTimetick f.nVideoSize f.nTimeTick f.now).1.lastFrameTimetick = k.lastFrameTimetick ∧
      (k.checkTimetick f.nVideoSize f.nTimeTick f.now).1.lastAdjustTimetick =
        if k.lastAdjustTimetick = 0 then f.nTimeTick else k.lastAdjustTimetick := by
  rw [checkTimetick, if_pos h]
  by_cases hA : k.lastAdjustTimetick = 0
  · simp [hA]
  · simp [hA]

theorem checkTimetick_video (h : f.nVideoSize ≠ 0) :
    (k.checkTimetick f.nVideoSize f.nTimeTick f.now).1.lastFrameTimetick = f.nTimeTick ∧
      (k.checkTimetick f.nVideoSize f.nTimeTick f.now).1.lastAdjustTimetick =
        if newIndexSegFlag k.lastFrameTimetick f.nTimeTick then
          k.lastAdjustTimetick + svsFrameDefaultTimetick
        else
          (if k.lastAdjustTimetick = 0 then f.nTimeTick else k.lastAdjustTimetick) +
            (f.nTimeTick - k.lastFrameTimetick) := by
  rw [checkTimetick, if_neg h]
  exact ⟨noteFrame_lastFrameTimetick _ _ _, by
    rw [noteFrame_lastAdjustTimetick, countFrameInfo_lastAdjustTimetick, adjust_lastAdjustTimetick]⟩

end FrameClock

/-- The clock, the frames that it was given, and all that was added to it. -/
structure TickRun where
  clock : FrameClock
  out : List Ticked
  sum : Nat

namespace TickRun

/-- Before the first frame. -/
def init (totalFrameNum : UInt32) : TickRun := ⟨.reset totalFrameNum, [], 0⟩

/-- A frame is received, and given to `check_timetick`. -/
def step (s : TickRun) (f : TickFrame) : TickRun :=
  let k := { s.clock with curRecvFrameId := f.dwFrameID }
  let r := k.checkTimetick f.nVideoSize f.nTimeTick f.now
  ⟨r.1, ⟨f, r.2⟩ :: s.out, s.sum + k.added f⟩

/-- The frame gets the time tick that it is to get. The clock does not know whether a time tick of 0 has
been there, and an audio frame may have set it while it was 0. -/
def Kept (s : TickRun) (f : TickFrame) : Prop :=
  f.nVideoSize ≠ 0 →
    match lastVideo s.out with
    | none => s.clock.lastAdjustTimetick = 0 ∧ f.nTimeTick = 0
    | some u =>
      if u.frame.nTimeTick = 0 ∧ svsFrameTimetickIntervalMax < f.nTimeTick then
        if s.clock.lastAdjustTimetick = 0 then
          f.nTimeTick + f.nTimeTick = svsFrameDefaultTimetick
        else s.clock.lastAdjustTimetick + f.nTimeTick = u.adjusted + svsFrameDefaultTimetick
      else
        s.clock.lastAdjustTimetick = u.adjusted ∧
          (u.adjusted = 0 →
            FrameClock.newIndexSegFlag u.frame.nTimeTick f.nTimeTick ∨ f.nTimeTick = 0)

/-- What the clock has to do with the frames. -/
structure Tracks (s : TickRun) : Prop where
  last : s.clock.lastFrameTimetick = ((lastVideo s.out).map (·.frame.nTimeTick)).getD 0
  clock : ∀ u ∈ lastVideo s.out, u.adjusted = 0 ∨ u.adjusted = s.clock.lastAdjustTimetick
  sum : s.sum % 2 ^ 32 = s.clock.lastAdjustTimetick.toNat
  top : s.sum < 2 ^ 32 → ∀ u ∈ s.out, u.adjusted ≤ s.clock.lastAdjustTimetick
  back : s.sum < 2 ^ 32 → NeverBack s.out

variable {s : TickRun} {f : TickFrame} {n : UInt32}

theorem Tracks.init (n : UInt32) : (TickRun.init n).Tracks where
  last := rfl
  clock := by simp [TickRun.init, lastVideo]
  sum := rfl
  top := by simp [TickRun.init]
  back := by simp [TickRun.init, NeverBack]

/-- The clock after a frame is the sum of what was added. -/
theorem Tracks.sum_step (h : s.Tracks) (f : TickFrame) :
    (s.step f).sum % 2 ^ 32 = (s.step f).clock.lastAdjustTimetick.toNat := by
  have hsum := h.sum
  generalize hk : ({ s.clock with curRecvFrameId := f.dwFrameID } : FrameClock) = k
  have hA : k.lastAdjustTimetick = s.clock.lastAdjustTimetick := hk ▸ rfl
  rw [← hA] at hsum
  show (s.sum + FrameClock.added _ f) % 2 ^ 32 = _
  simp only [step, hk]
  by_cases hv : f.nVideoSize = 0
  · rw [(FrameClock.checkTimetick_audio hv).2, FrameClock.added, if_pos hv]
    split_ifs with h0
    · rw [h0, UInt32.toNat_zero] at hsum
      have := f.nTimeTick.toNat_lt
      omega
    · exact hsum
  · rw [(FrameClock.checkTimetick_video hv).2, FrameClock.added, if_neg hv]
    split_ifs with hjump h0
    · rw [UInt32.toNat_add]
      omega
    · rw [h0, UInt32.toNat_zero] at hsum
      rw [UInt32.toNat_add]
      omega
    · rw [UInt32.toNat_add]
      omega

/-- Below `2 ^ 32` the clock does not go back. -/
theorem Tracks.clock_le (h : s.Tracks) (f : TickFrame) (hlt : (s.step f).sum < 2 ^ 32) :
    s.clock.lastAdjustTimetick ≤ (s.step f).clock.lastAdjustTimetick := by
  have hbefore := h.sum
  have hafter := h.sum_step f
  have hle : s.sum ≤ (s.step f).sum := Nat.le_add_right _ _
  rw [UInt32.le_iff_toNat_le]
  omega

theorem step_out (s : TickRun) (f : TickFrame) :
    (s.step f).out = ⟨f, (s.step f).clock.lastAdjustTimetick⟩ :: s.out := by
  simp only [step, FrameClock.checkTimetick_snd]

theorem Tracks.step (h : s.Tracks) (f : TickFrame) : (s.step f).Tracks where
  last := by
    rw [step_out]
    by_cases hv : f.nVideoSize = 0
    · rw [TickRun.step, (FrameClock.checkTimetick_audio hv).1, lastVideo,
        List.find?_cons_of_neg (by simpa using hv)]
      exact h.last
    · rw [TickRun.step, (FrameClock.checkTimetick_video hv).1, lastVideo,
        List.find?_cons_of_pos (by simpa using hv)]
      rfl
  clock := by
    rw [step_out]
    intro u hu
    by_cases hv : f.nVideoSize = 0
    · rw [lastVideo, List.find?_cons_of_neg (by simpa using hv)] at hu
      rw [TickRun.step, (FrameClock.checkTimetick_audio hv).2]
      rcases h.clock u hu with h0 | hA
      · exact .inl h0
      · split_ifs with h0
        · exact .inl (hA.trans h0)
        · exact .inr hA
    · rw [lastVideo, List.find?_cons_of_pos (by simpa using hv)] at hu
      cases hu
      exact .inr rfl
  sum := h.sum_step f
  top := by
    intro hlt u hu
    have hle := h.clock_le f hlt
    rw [step_out] at hu
    rcases List.mem_cons.mp hu with rfl | hu
    · exact UInt32.le_refl _
    · exact UInt32.le_trans (h.top (Nat.lt_of_le_of_lt (Nat.le_add_right _ _) hlt) u hu) hle
  back := by
    intro hlt
    have hlt' : s.sum < 2 ^ 32 := Nat.lt_of_le_of_lt (Nat.le_add_right _ _) hlt
    rw [step_out]
    refine List.pairwise_cons.mpr ⟨fun u hu => ?_, h.back hlt'⟩
    exact UInt32.le_trans (h.top hlt' u hu) (h.clock_le f hlt)

/-! ## When the time ticks are one clock -/

theorem step_video (hv : f.nVideoSize ≠ 0) :
    (s.step f).clock.lastAdjustTimetick =
      if FrameClock.newIndexSegFlag s.clock.lastFrameTimetick f.nTimeTick then
        s.clock.lastAdjustTimetick + svsFrameDefaultTimetick
      else
        (if s.clock.lastAdjustTimetick = 0 then f.nTimeTick else s.clock.lastAdjustTimetick) +
          (f.nTimeTick - s.clock.lastFrameTimetick) :=
  (FrameClock.checkTimetick_video hv).2

theorem newIndexSegFlag_zero (c : UInt32) : FrameClock.newIndexSegFlag 0 c = false := by
  simp [FrameClock.newIndexSegFlag, UInt32.not_lt_zero]

theorem newIndexSegFlag_of_ne {l : UInt32} (c : UInt32) (hl : l ≠ 0) :
    FrameClock.newIndexSegFlag l c = true ↔ c < l ∨ svsFrameTimetickIntervalMax < c - l := by
  simp [FrameClock.newIndexSegFlag, hl]

/-- Where the jump is seen, the time tick grows as it is to grow. -/
theorem growth_eq {l c : UInt32} (h : ¬ (l = 0 ∧ svsFrameTimetickIntervalMax < c)) :
    growth l c =
      if FrameClock.newIndexSegFlag l c then svsFrameDefaultTimetick else c - l := by
  by_cases hl : l = 0
  · subst hl
    have hc : ¬ svsFrameTimetickIntervalMax < c := fun hc => h ⟨rfl, hc⟩
    simp [growth, newIndexSegFlag_zero, UInt32.not_lt_zero, hc]
  · simp only [growth, ← newIndexSegFlag_of_ne c hl]

/-- A video frame gets the time tick that it is to get exactly if it is kept. -/
theorem Tracks.step_iff (h : s.Tracks) (f : TickFrame) (hv : f.nVideoSize ≠ 0) :
    (s.step f).clock.lastAdjustTimetick = clockTick s.out f ↔ s.Kept f := by
  have hlast := h.last
  have hclock := h.clock
  simp only [Kept, hv, ne_eq, not_false_eq_true, true_implies, step_video hv, clockTick]
  generalize s.clock.lastAdjustTimetick = A, f.nTimeTick = c at *
  cases hu : lastVideo s.out with
  | none =>
    rw [hu, Option.map_none, Option.getD_none] at hlast
    simp only [hlast, newIndexSegFlag_zero, Bool.false_eq_true, if_false]
    split_ifs with h0
    · grind
    · grind
  | some u =>
    replace hclock := hclock u hu
    rw [hu, Option.map_some, Option.getD_some] at hlast
    simp only [hlast]
    by_cases hfirst : u.frame.nTimeTick = 0 ∧ svsFrameTimetickIntervalMax < c
    · -- the jump from 0 is not seen
      have hgrowth : growth 0 c = svsFrameDefaultTimetick := by simp [growth, hfirst.2]
      rw [if_pos hfirst, hfirst.1, newIndexSegFlag_zero, hgrowth]
      by_cases h0 : A = 0
      · have hV : u.adjusted = 0 := by simpa [h0] using hclock
        simp [h0, hV]
      · simp [h0]
    · rw [if_neg hfirst, growth_eq hfirst]
      cases FrameClock.newIndexSegFlag u.frame.nTimeTick c with
      | true => simp
      | false =>
        by_cases h0 : A = 0
        · have hV : u.adjusted = 0 := by simpa [h0] using hclock
          simp [h0, hV]
        · have hV : A = u.adjusted → u.adjusted ≠ 0 := fun hA => hA ▸ h0
          simp only [Bool.false_eq_true, if_false, if_neg h0, UInt32.add_left_inj, false_or]
          exact ⟨fun hA => ⟨hA, fun hz => absurd hz (hV hA)⟩, And.left⟩

/-- In a run each video frame gets the time tick that it is to get, and below `2 ^ 32` the time ticks do not
go back, exactly if each frame is kept. -/
theorem kept_iff (totalFrameNum : UInt32) (frames : List TickFrame) :
    Allowed step Kept (init totalFrameNum) frames ↔
      ∀ pre, pre <+: frames →
        OneClock (run step (init totalFrameNum) pre).out ∧
          ((run step (init totalFrameNum) pre).sum < 2 ^ 32 →
            NeverBack (run step (init totalFrameNum) pre).out) := by
  have htracks : ∀ pre, (run step (init totalFrameNum) pre).Tracks :=
    fun pre => run_invariant (Tracks.init totalFrameNum) fun _ f h => h.step f
  have hrun := @allowed_iff TickRun TickFrame step Kept (fun s => s.Tracks ∧ OneClock s.out)
    (init totalFrameNum) frames ⟨Tracks.init totalFrameNum, trivial⟩
    fun s f h => by
      rw [step_out, OneClock]
      by_cases hv : f.nVideoSize = 0
      · simp [h.1.step f, h.2, hv, Kept]
      · simp [h.1.step f, h.2, hv, h.1.step_iff f hv]
  rw [hrun]
  exact forall₂_congr fun pre _ => ⟨fun h => ⟨h.2, h.1.back⟩, fun h => ⟨htracks pre, h.1⟩⟩

/-- The first video frame does not keep its time tick. -/
theorem first_tick_twice :
    ¬ OneClock (run step (init 0) [⟨1, 100, 5, 1000⟩]).out := by
  simp [run, step, OneClock, clockTick, lastVideo, FrameClock.checkTimetick, FrameClock.adjust,
    init, FrameClock.reset, FrameClock.newIndexSegFlag]

end TickRun

end AllCamera
