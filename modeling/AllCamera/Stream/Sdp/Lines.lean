import AllCamera.Stream.Sdp

/-!
# A session description line by line

* `cLines`: the lines of a text that `getNextLine` gives one after the other. `runLines`: the
  decoder on lines. `decodeLines_eq`: the loop is the decoder on the lines of the text.
* `runLines_endLines`: the text of lines is read as those lines.
* `decodeLine_forall`: what a line can do to the entries.
-/

namespace AllCamera.MediaSdp

/-! ## Lines -/

/-- What ends a line. -/
def isBreak (c : UInt8) : Bool := c = 0 ∨ c = 10 ∨ c = 13

/-- The complete lines of a text. -/
def cLines : List UInt8 → List (List UInt8)
  | [] => []
  | c :: s =>
    if isBreak c then [] :: cLines s
    else match cLines s with
      | [] => []
      | l :: ls => (c :: l) :: ls

/-- The decoder on lines. -/
def runLines : List (List UInt8) → Decoding → Except MediaSdp Decoding
  | [], d => .ok d
  | l :: ls, d =>
    match decodeLine l d with
    | .error sdp => .error sdp
    | .ok d => if d.nRet = .ok then runLines ls d else .ok d

variable {l s t : List UInt8}

/-- A text without the end of a line. -/
def Clean (l : List UInt8) : Prop := ∀ c ∈ l, isBreak c = false

instance (l : List UInt8) : Decidable (Clean l) :=
  decidable_of_iff ((l.all fun c => !isBreak c) = true) (by simp [Clean])

theorem isBreak_false {c : UInt8} : isBreak c = false ↔ c ≠ 0 ∧ c ≠ 10 ∧ c ≠ 13 := by
  simp [isBreak]

/-- The first line, and the lines behind it. -/
theorem cLines_append (hl : Clean l) {b : UInt8} (hb : isBreak b = true)
    (t : List UInt8) : cLines (l ++ b :: t) = l :: cLines t := by
  induction l with
  | nil => simp [cLines, hb]
  | cons c l ih =>
    have hc := hl c List.mem_cons_self
    rw [List.cons_append, cLines, hc, ih fun x hx => hl x (List.mem_cons_of_mem c hx)]
    simp

theorem cLines_of_no_break (hl : Clean l) : cLines l = [] := by
  induction l with
  | nil => rfl
  | cons c l ih =>
    have hc := hl c List.mem_cons_self
    rw [cLines, hc, ih fun x hx => hl x (List.mem_cons_of_mem c hx)]
    simp

/-- A text is its first line and the text behind it, or has no complete line. -/
theorem line_cases (s : List UInt8) :
    (∃ l b t, Clean l ∧ isBreak b = true ∧ s = l ++ b :: t) ∨ Clean s := by
  induction s with
  | nil => exact .inr fun c hc => nomatch hc
  | cons c s ih =>
    cases hc : isBreak c with
    | true => exact .inl ⟨[], c, s, fun x hx => (nomatch hx), hc, rfl⟩
    | false =>
      rcases ih with ⟨l, b, t, hl, hb, rfl⟩ | hs
      · exact .inl ⟨c :: l, b, t, List.forall_mem_cons.mpr ⟨hc, hl⟩, hb, rfl⟩
      · exact .inr (List.forall_mem_cons.mpr ⟨hc, hs⟩)

/-- There is no line's end in a line. -/
theorem cLines_no_break : ∀ l ∈ cLines s, Clean l := by
  induction s with
  | nil => exact fun l hl => nomatch hl
  | cons c s ih =>
    intro l hl
    rw [cLines] at hl
    cases hc : isBreak c with
    | true =>
      rw [hc, if_pos rfl] at hl
      rcases List.mem_cons.mp hl with rfl | hl
      · exact fun x hx => nomatch hx
      · exact ih l hl
    | false =>
      rw [hc] at hl
      cases hs : cLines s with
      | nil =>
        rw [hs] at hl
        simp at hl
      | cons l' ls =>
        rw [hs] at hl ih
        simp only [Bool.false_eq_true, if_false, List.mem_cons] at hl
        rcases hl with rfl | hl
        · exact List.forall_mem_cons.mpr ⟨hc, ih l' List.mem_cons_self⟩
        · exact ih l (List.mem_cons_of_mem l' hl)

theorem getNextLine_line (p : List UInt8) (hl : Clean l) {b : UInt8}
    (hb : isBreak b = true) (t : List UInt8) :
    getNextLine (p ++ (l ++ b :: t)) p.length = some (l, (p ++ l ++ [b]).length) := by
  have htake : (l ++ b :: t).takeWhile (fun c => decide (c ≠ 0 ∧ c ≠ 10 ∧ c ≠ 13)) = l := by
    rw [List.takeWhile_append_of_pos fun c hc => by simpa using isBreak_false.mp (hl c hc)]
    have hb : ¬ (b ≠ 0 ∧ b ≠ 10 ∧ b ≠ 13) := by
      intro h
      rw [isBreak_false.mpr h] at hb
      cases hb
    rw [List.takeWhile_cons_of_neg (by simpa using hb), List.append_nil]
  unfold getNextLine
  rw [List.drop_left]
  simp only [htake]
  rw [if_neg (by simp), List.length_append, List.length_append, List.length_singleton]

theorem getNextLine_end (p : List UInt8) (hs : Clean s) :
    getNextLine (p ++ s) p.length = none := by
  have htake : s.takeWhile (fun c => decide (c ≠ 0 ∧ c ≠ 10 ∧ c ≠ 13)) = s := by
    rw [List.takeWhile_eq_self_iff]
    exact fun c hc => by simpa using isBreak_false.mp (hs c hc)
  unfold getNextLine
  rw [List.drop_left]
  simp only [htake]
  rw [if_pos List.length_append]

/-- The loop is the decoder on the lines of the text; its turns suffice. -/
theorem decodeLines_eq (p s : List UInt8) (d : Decoding) {fuel : Nat} (hf : s.length < fuel) :
    decodeLines fuel (p ++ s) p.length d = runLines (cLines s) d := by
  induction fuel generalizing p s d with
  | zero => exact absurd hf (Nat.not_lt_zero _)
  | succ fuel ih =>
    rcases line_cases s with ⟨l, b, t, hl, hb, rfl⟩ | hs
    · rw [decodeLines, getNextLine_line p hl hb, cLines_append hl hb, runLines]
      have hlt : t.length < fuel := by
        simp only [List.length_append, List.length_cons] at hf
        omega
      have htext : p ++ l ++ [b] ++ t = p ++ (l ++ b :: t) := by simp
      have hrest : ∀ d, decodeLines fuel (p ++ (l ++ b :: t)) (p ++ l ++ [b]).length d =
          runLines (cLines t) d := by
        intro d
        rw [← ih (p ++ l ++ [b]) t d hlt, htext]
      dsimp only
      cases decodeLine l d with
      | error sdp => rfl
      | ok d' =>
        dsimp only
        rw [hrest]
    · rw [decodeLines, getNextLine_end p hs, cLines_of_no_break hs, runLines]

/-- The text of lines, and more behind it. -/
theorem cLines_endLines {ls : List (List UInt8)} (hls : ∀ l ∈ ls, Clean l)
    (t : List UInt8) : cLines (endLines ls ++ t) = ls.flatMap (fun l => [l, []]) ++ cLines t := by
  induction ls with
  | nil => rfl
  | cons l ls ih =>
    have htext : endLines (l :: ls) ++ t = l ++ 13 :: ([] ++ 10 :: (endLines ls ++ t)) := by
      simp [endLines, rtspEndLine]
    rw [htext, cLines_append (hls l List.mem_cons_self) rfl,
      cLines_append (List.forall_mem_nil _) rfl,
      ih fun x hx => hls x (List.mem_cons_of_mem l hx)]
    rfl

/-- The empty lines between the lines do nothing. -/
theorem runLines_endLines {ls : List (List UInt8)} (hls : ∀ l ∈ ls, Clean l)
    (t : List UInt8) {d : Decoding} (hd : d.nRet = .ok) :
    runLines (cLines (endLines ls ++ t)) d = runLines (ls ++ cLines t) d := by
  rw [cLines_endLines hls]
  clear hls
  induction ls generalizing d with
  | nil => rfl
  | cons l ls ih =>
    have htext : (l :: ls).flatMap (fun l => [l, []]) ++ cLines t =
        l :: [] :: (ls.flatMap (fun l => [l, []]) ++ cLines t) := rfl
    rw [htext, List.cons_append, runLines, runLines]
    cases decodeLine l d with
    | error sdp => rfl
    | ok d =>
      by_cases hd : d.nRet = .ok
      · simp only [hd, if_true]
        rw [runLines]
        have hempty : decodeLine [] d = .ok d := rfl
        simp only [hempty, hd, if_true]
        exact ih hd
      · simp only [hd, if_false]

/-! ## What a line can do -/

/-- All entries of a description. -/
def entries (s : MediaSdp) : List SdpMediaInfo := s.videoInfoList ++ s.audioInfoList

/-- A line with a format attribute. -/
def FmtpLine (l : List UInt8) : Prop :=
  ∃ c t u, jumpSpace l = c :: t ∧ jumpSpace t = 61 :: u ∧ lower c = 97 ∧
    hasAttr strSdpFmtp (jumpSpace u) = true

theorem jumpSpace_suffix (l : List UInt8) : jumpSpace l <:+ l := List.dropWhile_suffix _

theorem nextField_suffix {l x : List UInt8} (h : nextField l = some x) :
    x <:+ l ∧ x.length < l.length := by
  unfold nextField strsep at h
  split at h
  · cases h
  · rename_i i hi
    obtain rfl := Option.some.inj h
    have hle := find_le hi (by decide)
    simp only [List.length_singleton] at hle
    refine ⟨List.drop_suffix _ _, ?_⟩
    rw [List.length_drop]
    omega

variable {P : SdpMediaInfo → Prop} {d d' : Decoding} {sdp sdp' : MediaSdp}

theorem mem_modify {α : Type} {f : α → α} {x : α} {xs : List α} {i : Nat}
    (h : x ∈ xs.modify i f) : x ∈ xs ∨ ∃ y ∈ xs, x = f y := by
  induction xs generalizing i with
  | nil => simp at h
  | cons y ys ih =>
    cases i with
    | zero =>
      rw [List.modify_zero_cons] at h
      rcases List.mem_cons.mp h with rfl | h
      · exact .inr ⟨y, List.mem_cons_self, rfl⟩
      · exact .inl (List.mem_cons_of_mem y h)
    | succ i =>
      rw [List.modify_succ_cons] at h
      rcases List.mem_cons.mp h with rfl | h
      · exact .inl List.mem_cons_self
      · rcases ih h with h | ⟨z, hz, rfl⟩
        · exact .inl (List.mem_cons_of_mem y h)
        · exact .inr ⟨z, List.mem_cons_of_mem y hz, rfl⟩

theorem modifyMedia_forall {f : SdpMediaInfo → SdpMediaInfo} (hf : ∀ e, P e → P (f e))
    (h : ∀ e ∈ sdp.entries, P e) (media : SdpMedia) : ∀ e ∈ (sdp.modifyMedia f media).entries, P e := by
  intro e he
  have hlist : ∀ {xs : List SdpMediaInfo} {i : Nat}, (∀ e ∈ xs, P e) → e ∈ xs.modify i f → P e := by
    intro xs i hxs he
    rcases mem_modify he with he | ⟨y, hy, rfl⟩
    · exact hxs e he
    · exact hf y (hxs y hy)
  cases media <;> rcases List.mem_append.mp he with he | he
  · exact hlist (fun e he => h e (List.mem_append_left _ he)) he
  · exact h e (List.mem_append_right _ he)
  · exact h e (List.mem_append_left _ he)
  · exact hlist (fun e he => h e (List.mem_append_right _ he)) he

/-- An attribute changes texts of an entry to ends of the line, and the format to less than it. -/
theorem parseAttributes_forall {pszBuff : List UInt8} {pMediaInfo : Option SdpMedia} {nRet : SdpRet}
    (hrtpmap : ∀ e x, P e → x <:+ pszBuff → P { e with strRtpmap := x })
    (hcontrol : ∀ e x, P e → x <:+ pszBuff → P { e with strControl := x })
    (hfmtp : ∀ e x, P e → hasAttr strSdpFmtp pszBuff = true → x <:+ pszBuff →
      x.length < pszBuff.length → P { e with strFmtp := x })
    (h : parseAttributes pszBuff sdp pMediaInfo = (nRet, sdp')) (hd : ∀ e ∈ sdp.entries, P e) :
    ∀ e ∈ sdp'.entries, P e := by
  unfold parseAttributes at h
  cases pMediaInfo with
  | none =>
    cases h
    exact hd
  | some media =>
    dsimp only at h
    split at h
    · split at h <;> cases h <;> exact hd
    split at h
    · split at h
      · cases h
        exact hd
      · rename_i x hx
        cases h
        exact modifyMedia_forall (fun e he => hrtpmap e x he (nextField_suffix hx).1) hd media
    split at h
    · rename_i hattr
      split at h
      · cases h
        exact hd
      · rename_i x hx
        cases h
        obtain ⟨hsuffix, hlt⟩ := nextField_suffix hx
        exact modifyMedia_forall (fun e he => hfmtp e x he hattr hsuffix hlt) hd media
    split at h
    · cases h
      exact modifyMedia_forall (fun e he => hcontrol e _ he (List.drop_suffix _ _)) hd media
    -- the other attributes are none of an entry
    repeat' split at h
    all_goals
      cases h
      exact hd

theorem parseMediaDesc_forall {pszBuff : List UInt8} {pMediaInfo pMediaInfo' : Option SdpMedia}
    {nRet : SdpRet} (hblank : ∀ pt, P ⟨pt, 0, [], [], []⟩)
    (h : parseMediaDesc pszBuff sdp pMediaInfo = (nRet, sdp', pMediaInfo'))
    (hd : ∀ e ∈ sdp.entries, P e) : ∀ e ∈ sdp'.entries, P e := by
  have hvideo : ∀ pt, ∀ e ∈ sdp.videoInfoList ++ [(⟨pt, 0, [], [], []⟩ : SdpMediaInfo)], P e := by
    intro pt e he
    rcases List.mem_append.mp he with he | he
    · exact hd e (List.mem_append_left _ he)
    · exact List.mem_singleton.mp he ▸ hblank pt
  have haudio : ∀ pt, ∀ e ∈ sdp.audioInfoList ++ [(⟨pt, 0, [], [], []⟩ : SdpMediaInfo)], P e := by
    intro pt e he
    rcases List.mem_append.mp he with he | he
    · exact hd e (List.mem_append_right _ he)
    · exact List.mem_singleton.mp he ▸ hblank pt
  unfold parseMediaDesc at h
  dsimp only at h
  repeat' split at h
  all_goals cases h
  all_goals intro e he
  all_goals first | exact hd e he | skip
  · rcases List.mem_append.mp he with he | he
    · exact hvideo _ e he
    · exact hd e (List.mem_append_right _ he)
  · rcases List.mem_append.mp he with he | he
    · exact hd e (List.mem_append_left _ he)
    · exact haudio _ e he

/-- What a line can do to the entries: it adds a blank one, or it sets a text of one to an end of the
line. -/
theorem decodeLine_forall (hblank : ∀ pt, P ⟨pt, 0, [], [], []⟩)
    (hrtpmap : ∀ e x, P e → x <:+ l → P { e with strRtpmap := x })
    (hcontrol : ∀ e x, P e → x <:+ l → P { e with strControl := x })
    (hfmtp : ∀ e x, P e → FmtpLine l → x <:+ l → x.length < l.length → P { e with strFmtp := x })
    (h : decodeLine l d = .ok d') (hd : ∀ e ∈ d.sdp.entries, P e) : ∀ e ∈ d'.sdp.entries, P e := by
  unfold decodeLine at h
  split at h
  · cases h
    exact hd
  · rename_i c t hc
    split at h
    · rename_i u hu
      split at h
      · cases h
      obtain rfl := Except.ok.inj h
      have hsuffix : jumpSpace u <:+ l := by
        have ht : t <:+ l := (List.suffix_cons c t).trans (hc ▸ jumpSpace_suffix l)
        have hu : u <:+ t := (List.suffix_cons 61 u).trans (hu ▸ jumpSpace_suffix t)
        exact ((jumpSpace_suffix u).trans hu).trans ht
      unfold decodeStatement
      dsimp only
      split
      · exact hd
      split
      · unfold parseConnDesc
        repeat' split
        all_goals exact hd
      split
      · exact parseMediaDesc_forall hblank rfl hd
      split
      · rename_i ha
        refine parseAttributes_forall (fun e x he hx => hrtpmap e x he (hx.trans hsuffix))
          (fun e x he hx => hcontrol e x he (hx.trans hsuffix)) (fun e x he hattr hx hlt => ?_) rfl hd
        exact hfmtp e x he ⟨c, t, u, hc, hu, ha, hattr⟩ (hx.trans hsuffix)
          (Nat.lt_of_lt_of_le hlt hsuffix.length_le)
      split
      · exact hd
      · exact hd
    · cases h

/-- The same for a run over lines. -/
theorem runLines_forall {ls : List (List UInt8)} (hblank : ∀ pt, P ⟨pt, 0, [], [], []⟩)
    (hrtpmap : ∀ l ∈ ls, ∀ e x, P e → x <:+ l → P { e with strRtpmap := x })
    (hcontrol : ∀ l ∈ ls, ∀ e x, P e → x <:+ l → P { e with strControl := x })
    (hfmtp : ∀ l ∈ ls, ∀ e x, P e → FmtpLine l → x <:+ l → x.length < l.length →
      P { e with strFmtp := x })
    (h : runLines ls d = .ok d') (hd : ∀ e ∈ d.sdp.entries, P e) : ∀ e ∈ d'.sdp.entries, P e := by
  induction ls generalizing d with
  | nil =>
    obtain rfl := Except.ok.inj h
    exact hd
  | cons l ls ih =>
    rw [runLines] at h
    cases hline : decodeLine l d with
    | error sdp =>
      rw [hline] at h
      cases h
    | ok d₁ =>
      have hmem : l ∈ l :: ls := List.mem_cons_self
      have hd₁ := decodeLine_forall hblank (hrtpmap l hmem) (hcontrol l hmem) (hfmtp l hmem) hline hd
      rw [hline] at h
      dsimp only at h
      split at h
      · exact ih (fun l hl => hrtpmap l (List.mem_cons_of_mem _ hl))
          (fun l hl => hcontrol l (List.mem_cons_of_mem _ hl))
          (fun l hl => hfmtp l (List.mem_cons_of_mem _ hl)) h hd₁
      · obtain rfl := Except.ok.inj h
        exact hd₁

end AllCamera.MediaSdp
