import Mathlib.Data.List.Induction
import AllCamera.Stream.MpegPsEnc
import AllCamera.Lib.Run

/-!
# The time stamps of a program stream

A frame comes with 32 bits of its time stamp. The encoder adds the increments up to 64 bits; it counts
one tick less when the 32 bits wrap around, and begins anew behind a time stamp of 0.

* `unwrapped`: the first time stamp and the increments; `unwrapped_mod`, `unwrapped_le`.
* `Tick`, `setVideoTimestamp_tick`, `setAudioTimestamp_tick`: both kinds do the same.
* `run_pts_iff`: the time stamps of a kind are right exactly as long as that sum fits into 32 bits.
-/

namespace AllCamera

/-! ## The sum -/

/-- The increments, each modulo 2^32. -/
def increments : List UInt32 → Nat
  | t :: u :: ts => (u - t).toNat + increments (u :: ts)
  | _ => 0

/-- The first time stamp and the increments behind it. -/
def unwrapped : List UInt32 → Nat
  | [] => 0
  | t :: ts => t.toNat + increments (t :: ts)

variable {ts : List UInt32} {t u : UInt32}

theorem increments_snoc (ts : List UInt32) (t u : UInt32) :
    increments (ts ++ [t] ++ [u]) = increments (ts ++ [t]) + (u - t).toNat := by
  induction ts with
  | nil => simp [increments]
  | cons x ts ih =>
    cases ts with
    | nil => simp [increments]
    | cons y ts =>
      have ih' : increments (y :: (ts ++ [t] ++ [u])) = increments (y :: (ts ++ [t])) + (u - t).toNat := ih
      show (y - x).toNat + increments (y :: (ts ++ [t] ++ [u])) =
        (y - x).toNat + increments (y :: (ts ++ [t])) + (u - t).toNat
      rw [ih', Nat.add_assoc]

/-- One time stamp more. -/
theorem unwrapped_snoc (ts : List UInt32) (t u : UInt32) :
    unwrapped (ts ++ [t] ++ [u]) = unwrapped (ts ++ [t]) + (u - t).toNat := by
  have h := increments_snoc ts t u
  cases ts with
  | nil => simpa [unwrapped, Nat.add_assoc] using h
  | cons x ts =>
    show x.toNat + increments (x :: (ts ++ [t] ++ [u])) = x.toNat + increments (x :: (ts ++ [t])) + _
    rw [Nat.add_assoc]
    exact congrArg (x.toNat + ·) h

/-- The sum goes on as the 32 bits do. -/
theorem unwrapped_mod (ts : List UInt32) (t : UInt32) : unwrapped (ts ++ [t]) % 2 ^ 32 = t.toNat := by
  induction ts using List.reverseRecOn generalizing t with
  | nil =>
    have hsum : unwrapped [t] = t.toNat := Nat.add_zero _
    rw [List.nil_append, hsum, Nat.mod_eq_of_lt t.toNat_lt]
  | append_singleton ts x ih =>
    have hx := ih x
    have := x.toNat_lt
    have := t.toNat_lt
    rw [unwrapped_snoc, UInt32.toNat_sub]
    omega

theorem unwrapped_le_snoc (ts : List UInt32) (t : UInt32) : unwrapped ts ≤ unwrapped (ts ++ [t]) := by
  cases ts using List.reverseRecOn with
  | nil => exact Nat.zero_le _
  | append_singleton ts x =>
    rw [unwrapped_snoc]
    exact Nat.le_add_right _ _

/-- The sum never decreases. -/
theorem unwrapped_le {ts' : List UInt32} (h : ts' <+: ts) : unwrapped ts' ≤ unwrapped ts := by
  obtain ⟨rest, rfl⟩ := h
  induction rest using List.reverseRecOn with
  | nil => exact Nat.le_of_eq (congrArg unwrapped (List.append_nil ts').symm)
  | append_singleton rest t ih =>
    rw [← List.append_assoc]
    exact Nat.le_trans ih (unwrapped_le_snoc _ t)

namespace MpegPsEnc

/-! ## One time stamp -/

/-- The last time stamp of a kind, and its 64 bits. -/
def clock (e : MpegPsEnc) : EsType → UInt32 × UInt64
  | .video => (e.unVideoTimestamp, e.ullVideoPts)
  | .audio => (e.unAudioTimestamp, e.ullAudioPts)

/-- What a frame with the time stamp `t` makes of them. -/
def tick (c : UInt32 × UInt64) (t : UInt32) : UInt32 × UInt64 :=
  if c.1 = 0 then (t, t.toUInt64)
  else
    (t, c.2 + if c.1 ≤ t then (t - c.1).toUInt64 else (0xffffffff - c.1.toUInt64) + t.toUInt64)

/-- As long as nothing has wrapped, the next one is right exactly if it does not wrap. -/
theorem tick_right_iff {c : UInt32 × UInt64} {sum : Nat} (hsum : sum < 2 ^ 32) (hlast : c.1.toNat = sum)
    (hpts : c.2.toNat = sum) (t : UInt32) :
    (tick c t).2.toNat = sum + (t - c.1).toNat ↔ sum + (t - c.1).toNat < 2 ^ 32 := by
  have ht := t.toNat_lt
  unfold tick
  split
  · rename_i hzero
    have h0 : sum = 0 := by rw [← hlast, hzero]; rfl
    rw [h0, hzero, Nat.zero_add, UInt32.sub_zero]
    exact iff_of_true (UInt32.toNat_toUInt64 t) ht
  · rename_i hne
    have hpos : sum ≠ 0 := by
      rw [← hlast]
      exact fun h => hne (UInt32.toNat_inj.mp h)
    split
    · rename_i hle
      rw [UInt32.le_iff_toNat_le] at hle
      have hsub : (t - c.1).toNat = t.toNat - c.1.toNat :=
        UInt32.toNat_sub_of_le _ _ (UInt32.le_iff_toNat_le.mpr hle)
      rw [UInt64.toNat_add, UInt32.toNat_toUInt64, hsub, hpts]
      omega
    · rename_i hgt
      rw [UInt32.le_iff_toNat_le] at hgt
      have hwrap : ((0xffffffff : UInt64) - c.1.toUInt64 + t.toUInt64).toNat =
          2 ^ 32 - 1 - c.1.toNat + t.toNat := by
        rw [UInt64.toNat_add, UInt64.toNat_sub, UInt32.toNat_toUInt64, UInt32.toNat_toUInt64]
        simp only [UInt64.reduceToNat]
        omega
      rw [UInt64.toNat_add, hwrap, UInt32.toNat_sub, hpts]
      omega

/-- The time stamps one behind the other. -/
theorem foldl_tick_fst (ts : List UInt32) (t : UInt32) : ((ts ++ [t]).foldl tick (0, 0)).1 = t := by
  rw [List.foldl_append, List.foldl_cons, List.foldl_nil]
  unfold tick
  split <;> rfl

theorem unwrapped_tick (ts : List UInt32) (t : UInt32) :
    unwrapped (ts ++ [t]) = unwrapped ts + (t - (ts.foldl tick (0, 0)).1).toNat := by
  cases ts using List.reverseRecOn with
  | nil => simp [unwrapped, increments]
  | append_singleton ts x => rw [unwrapped_snoc, foldl_tick_fst]

/-- Without a wrap both are the sum. -/
theorem foldl_tick_right (h : unwrapped ts < 2 ^ 32) :
    (ts.foldl tick (0, 0)).2.toNat = unwrapped ts ∧ (ts.foldl tick (0, 0)).1.toNat = unwrapped ts := by
  induction ts using List.reverseRecOn with
  | nil => exact ⟨rfl, rfl⟩
  | append_singleton ts t ih =>
    have hle := unwrapped_le_snoc ts t
    obtain ⟨hpts, hlast⟩ := ih (by omega)
    have hnext := unwrapped_tick ts t
    refine ⟨?_, ?_⟩
    · rw [List.foldl_append, hnext]
      exact (tick_right_iff (by omega) hlast hpts t).mpr (hnext ▸ h)
    · rw [foldl_tick_fst, ← unwrapped_mod ts t, Nat.mod_eq_of_lt h]

/-- At the first wrap the 64 bits are wrong. -/
theorem foldl_tick_right_iff (ts : List UInt32) :
    (∀ pre, pre <+: ts → (pre.foldl tick (0, 0)).2.toNat = unwrapped pre) ↔ unwrapped ts < 2 ^ 32 := by
  refine ⟨fun h => ?_, fun h pre hpre => (foldl_tick_right (Nat.lt_of_le_of_lt (unwrapped_le hpre) h)).1⟩
  induction ts using List.reverseRecOn with
  | nil => decide
  | append_singleton ts t ih =>
    have hsum := ih fun pre hpre => h pre (hpre.trans (List.prefix_append ts [t]))
    obtain ⟨hpts, hlast⟩ := foldl_tick_right hsum
    have hall := h _ List.prefix_rfl
    rw [List.foldl_append, unwrapped_tick] at hall
    rw [unwrapped_tick]
    exact (tick_right_iff hsum hlast hpts t).mp hall

/-! ## Calls -/

/-- The time stamps of a kind. A video frame that is too short does not get as far. -/
def stamps (w : EsType) (calls : List EsCall) : List UInt32 :=
  calls.filterMap fun c =>
    match w, c with
    | .video, .video pInData unTimestamp _ =>
      if pInData.length < minNaluSize then none else some unTimestamp
    | .audio, .audio _ unTimestamp _ => some unTimestamp
    | _, _ => none

variable {e : MpegPsEnc} {w : EsType}

@[simp] theorem clock_put (bytes : List UInt8) : (e.put bytes).2.clock w = e.clock w := by
  unfold put
  split <;> rfl

@[simp] theorem clock_first (b : Bool) : { e with isFirstPES := b }.clock w = e.clock w := by
  cases w <;> rfl

@[simp] theorem clock_handlePsStream (unTimestamp : UInt32) (endFlag : Bool) :
    (e.handlePsStream unTimestamp endFlag).clock w = e.clock w := by
  cases w <;> rfl

@[simp] theorem clock_writePsmPacket : e.writePsmPacket.2.clock w = e.clock w := by
  have hput := clock_put (e := e) (w := w) (psmPacket e.cVersion)
  unfold writePsmPacket
  simp only
  split
  · exact hput
  · rw [← hput]
    cases w <;> rfl

@[simp] theorem clock_writePackHeaders : e.writePackHeaders.2.clock w = e.clock w := by
  unfold writePackHeaders writePSHeader writeSysHeader
  simp only
  split_ifs <;> simp

@[simp] theorem clock_writePESHeader (n : Nat) (id : UInt8) (pts dts : UInt64) :
    (e.writePESHeader n id pts dts).2.clock w = e.clock w := by
  unfold writePESHeader
  split
  · rfl
  · exact clock_put _

/-- A packet is written without a change of the clocks. -/
@[simp] theorem clock_writeESPacket (data : List UInt8) (t : EsType) :
    (e.writeESPacket data t).2.clock w = e.clock w := by
  have hbuffer : ∀ (e : MpegPsEnc) (bytes : List UInt8),
      { e with psBuffer := bytes }.clock w = e.clock w := by
    intro e bytes
    cases w <;> rfl
  unfold writeESPacket
  split
  · rfl
  split
  · rfl
  -- a full cache is handed on, an empty one gets the headers of a pack, and then the PES header follows
  generalize hflush : (if psCache - e.psBuffer.length < data.length + maxPsHeaderLen then
    e.handlePsStream e.unAudioTimestamp true else e) = e₁
  have hclock₁ : e₁.clock w = e.clock w := by
    rw [← hflush]
    split
    · exact clock_handlePsStream _ _
    · rfl
  dsimp only
  generalize hpack : (if e₁.psBuffer = [] ∧ e₁.isFirstPES = true then e₁.writePackHeaders
    else (0, e₁)) = r
  have hclock₂ : r.2.clock w = e₁.clock w := by
    rw [← hpack]
    split
    · exact clock_writePackHeaders
    · rfl
  have happend : ∀ r' : Int × MpegPsEnc, r'.2.clock w = r.2.clock w →
      (if r'.1 ≠ 0 then (-1, r'.2)
        else ((0 : Int), { r'.2 with psBuffer := r'.2.psBuffer ++ data })).2.clock w =
          r.2.clock w := by
    intro r' h
    split
    · exact h
    · exact (hbuffer _ _).trans h
  rw [← hclock₁, ← hclock₂]
  split
  · rfl
  cases t with
  | video => exact happend _ (clock_writePESHeader _ _ _ _)
  | audio => exact happend _ (clock_writePESHeader _ _ _ _)

@[simp] theorem clock_writeChunks (data : List UInt8) :
    (writeChunks e data).2.clock w = e.clock w := by
  induction e, data using writeChunks.induct with
  | case1 e data hlong r hr =>
    rw [writeChunks, dif_pos hlong]
    simp only
    rw [if_pos hr]
    exact clock_writeESPacket _ _
  | case2 e data hlong r hr ih =>
    rw [writeChunks, dif_pos hlong]
    simp only
    rw [if_neg hr, ih]
    simp [r]
  | case3 e data hshort r hr =>
    rw [writeChunks, dif_neg hshort]
    simp only
    rw [if_pos hr]
    exact clock_writeESPacket _ _
  | case4 e data hshort r hr =>
    rw [writeChunks, dif_neg hshort]
    simp only
    rw [if_neg hr]
    simp

@[simp] theorem clock_calcEsBitrate (n : Nat) (second : UInt32) :
    (e.calcEsBitrate n second).clock w = e.clock w := by
  unfold calcEsBitrate
  cases w <;> simp only <;> split_ifs <;> rfl

theorem setVideoTimestamp_tick (unTimestamp : UInt32) :
    (e.setVideoTimestamp unTimestamp).clock .video = tick (e.clock .video) unTimestamp ∧
      (e.setVideoTimestamp unTimestamp).clock .audio = e.clock .audio := by
  unfold setVideoTimestamp tick clock
  simp only
  split <;> exact ⟨rfl, rfl⟩

theorem setAudioTimestamp_tick (unTimestamp : UInt32) :
    (e.setAudioTimestamp unTimestamp).clock .audio = tick (e.clock .audio) unTimestamp ∧
      (e.setAudioTimestamp unTimestamp).clock .video = e.clock .video := by
  unfold setAudioTimestamp tick clock
  simp only
  split <;> exact ⟨rfl, rfl⟩

theorem clock_writeVideoEsStream (data : List UInt8) (t second : UInt32) :
    (e.writeVideoEsStream data t second).2.clock w =
      if data.length < minNaluSize then e.clock w else (e.setVideoTimestamp t).clock w := by
  unfold writeVideoEsStream
  split <;> simp

theorem clock_writeAudioEsStream (data : List UInt8) (t second : UInt32) :
    (e.writeAudioEsStream data t second).2.clock w = (e.setAudioTimestamp t).clock w := by
  have hpacket : ∀ e : MpegPsEnc, (if (e.writeESPacket data .audio).1 ≠ 0 then
      ((-1 : Int), (e.writeESPacket data .audio).2)
      else (0, (e.writeESPacket data .audio).2.handlePsStream
        (e.writeESPacket data .audio).2.unAudioTimestamp true)).2.clock w = e.clock w := by
    intro e
    split <;> simp
  rw [← clock_calcEsBitrate (e := e.setAudioTimestamp t) data.length second]
  refine (hpacket _).trans ?_
  cases w <;> rfl

/-- A call. -/
theorem clock_writeEsStream (e : MpegPsEnc) (c : EsCall) (w : EsType) :
    (e.writeEsStream c).2.clock w = (stamps w [c]).foldl tick (e.clock w) := by
  cases c with
  | video data t second =>
    obtain ⟨hvideo, haudio⟩ := setVideoTimestamp_tick (e := e) t
    unfold writeEsStream
    rw [clock_writeVideoEsStream]
    by_cases hshort : data.length < minNaluSize
    · cases w <;> simp [stamps, hshort]
    · cases w <;> simp [stamps, hshort, hvideo, haudio]
  | audio data t second =>
    obtain ⟨haudio, hvideo⟩ := setAudioTimestamp_tick (e := e) t
    unfold writeEsStream
    rw [clock_writeAudioEsStream]
    cases w <;> simp [stamps, hvideo, haudio]

theorem stamps_snoc (w : EsType) (calls : List EsCall) (c : EsCall) :
    stamps w (calls ++ [c]) = stamps w calls ++ stamps w [c] := List.filterMap_append

/-- The state after some calls. -/
theorem clock_run (calls : List EsCall) (w : EsType) :
    (Run.run (fun e c => (e.writeEsStream c).2) init calls).clock w =
      (stamps w calls).foldl tick (0, 0) := by
  induction calls using List.reverseRecOn with
  | nil => cases w <;> rfl
  | append_singleton calls c ih =>
    rw [Run.run_append, stamps_snoc, List.foldl_append, ← ih]
    exact clock_writeEsStream _ c w

/-- The 64 bits of the time stamp of a kind, after some calls. -/
def pts (w : EsType) (calls : List EsCall) : UInt64 :=
  ((Run.run (fun e c => (e.writeEsStream c).2) init calls).clock w).2

theorem pts_eq (w : EsType) (calls : List EsCall) :
    pts w calls = ((stamps w calls).foldl tick (0, 0)).2 := congrArg Prod.snd (clock_run calls w)

/-- The first time stamps of a kind are those of some first calls. -/
theorem prefix_stamps {calls : List EsCall} {pre : List UInt32} (h : pre <+: stamps w calls) :
    ∃ cs, cs <+: calls ∧ stamps w cs = pre := by
  induction calls using List.reverseRecOn with
  | nil => exact ⟨[], List.prefix_rfl, (List.prefix_nil.mp h).symm⟩
  | append_singleton calls c ih =>
    have hearlier : pre <+: stamps w calls → ∃ cs, cs <+: calls ++ [c] ∧ stamps w cs = pre := by
      intro hpre
      obtain ⟨cs, hcs, hstamps⟩ := ih hpre
      exact ⟨cs, hcs.trans (List.prefix_append _ _), hstamps⟩
    have hone : stamps w [c] = [] ∨ ∃ t, stamps w [c] = [t] := by
      unfold stamps
      rw [List.filterMap_cons]
      split
      · exact .inl rfl
      · exact .inr ⟨_, rfl⟩
    rw [stamps_snoc] at h
    rcases hone with hnil | ⟨t, ht⟩
    · rw [hnil, List.append_nil] at h
      exact hearlier h
    · rw [ht, List.prefix_concat_iff] at h
      rcases h with rfl | h
      · exact ⟨calls ++ [c], List.prefix_rfl, by rw [stamps_snoc, ht]⟩
      · exact hearlier h

/-- **Runs.** In every sequence of calls, of both kinds and with any frames, the 64 bits of a kind's
time stamps are the first one and the increments in every state, and so go on as the 32 bits do and never
decrease, if and only if the sum stays below 2^32. -/
theorem run_pts_iff (w : EsType) (calls : List EsCall) :
    (∀ pre, pre <+: calls → (pts w pre).toNat = unwrapped (stamps w pre) ∧
      (∀ ts t, stamps w pre = ts ++ [t] → (pts w pre).toNat % 2 ^ 32 = t.toNat) ∧
      ∀ before, before <+: pre → pts w before ≤ pts w pre) ↔
    unwrapped (stamps w calls) < 2 ^ 32 := by
  refine ⟨fun h => (foldl_tick_right_iff _).mp fun pre hpre => ?_, fun h => ?_⟩
  · obtain ⟨cs, hcs, rfl⟩ := prefix_stamps hpre
    rw [← pts_eq]
    exact (h cs hcs).1
  · have hright : ∀ pre, pre <+: calls → (pts w pre).toNat = unwrapped (stamps w pre) := by
      intro pre hpre
      rw [pts_eq]
      exact (foldl_tick_right_iff _).mpr h _ (hpre.filterMap _)
    refine fun pre hpre => ⟨hright pre hpre, fun ts t hts => ?_, fun before hbefore => ?_⟩
    · rw [hright pre hpre, hts]
      exact unwrapped_mod ts t
    · rw [UInt64.le_iff_toNat_le, hright pre hpre, hright before (hbefore.trans hpre)]
      exact unwrapped_le (hbefore.filterMap _)

/-- Two video frames whose time stamps are two ticks apart, with the wrap between them. -/
theorem not_pts_wrap :
    let calls := [EsCall.video [0, 0, 0, 1, 0x65] 0xffffffff 1, .video [0, 0, 0, 1, 0x41] 1 1]
    unwrapped (stamps .video calls) = 2 ^ 32 + 1 ∧ pts .video calls = 2 ^ 32 := by
  intro calls
  refine ⟨by decide, ?_⟩
  rw [pts_eq]
  decide

end MpegPsEnc

end AllCamera
