import AllCamera.Stream.RtspPacket.Request

/-!
# A request line by line

* `parseRtspHeaders_lines`: the loop of `parse` on the text of header lines. `parse_endLines`: the
  whole text by its lines.
* `parseRtspMethodLine_request`: the first line of a request is read as the method and the URL.
* `parseRtspHeader_line`: a line with a header's name is read as that header, for all of them.
-/

namespace AllCamera.RtspPacket

variable {lib : CLib} {p : RtspPacket} {s t l : List UInt8}

/-! ## Runs of steps that can fail -/

section Run

variable {ε σ α : Type} {f : σ → α → Except ε σ} {a b : σ} {x : α} {xs ys : List α}

theorem bind_ok {r : Except ε σ} (h : r = .ok a) (g : σ → Except ε σ) : (r >>= g) = g a := by
  rw [h]
  rfl

theorem foldlM_cons_ok (h : f a x = .ok b) : (x :: xs).foldlM f a = xs.foldlM f b := by
  rw [List.foldlM_cons, bind_ok h]

theorem foldlM_append_ok (h : xs.foldlM f a = .ok b) :
    (xs ++ ys).foldlM f a = ys.foldlM f b := by
  rw [List.foldlM_append, bind_ok h]

end Run

/-! ## Blanks -/

theorem dropWhile_blank (h : s.head? ≠ some 32) : s.dropWhile (· = 32) = s := by
  cases s with
  | nil => rfl
  | cons c s =>
    have hc : c ≠ 32 := fun hc => h (congrArg some hc)
    exact List.dropWhile_cons_of_neg (by simpa using hc)

/-- Nothing is taken off a text without blanks at its ends. -/
theorem trimString_eq_self (hfront : s.head? ≠ some 32) (hback : s.getLast? ≠ some 32) :
    trimString s = s := by
  have hreverse : s.reverse.head? ≠ some 32 := by rwa [List.head?_reverse]
  rw [trimString, dropWhile_blank hreverse, List.reverse_reverse, dropWhile_blank hfront]

theorem trimString_of_notMem (h : 32 ∉ s) : trimString s = s :=
  trimString_eq_self (fun hs => h (List.mem_of_head? hs)) (fun hs => h (List.mem_of_getLast? hs))

theorem trimString_append_blank (h : 32 ∉ s) : trimString (s ++ [32]) = s := by
  have hreverse : (s ++ [32]).reverse.dropWhile (· = 32) = s.reverse := by
    rw [List.reverse_append]
    refine (List.dropWhile_cons_of_pos (by decide)).trans (dropWhile_blank fun hs => h ?_)
    exact List.mem_reverse.mp (List.mem_of_head? hs)
  rw [trimString, hreverse, List.reverse_reverse]
  exact dropWhile_blank fun hs => h (List.mem_of_head? hs)

/-! ## Lines -/

/-- A text that the parser reads as one line. -/
structure OneLine (s : List UInt8) : Prop where
  zero : 0 ∉ s
  lineEnd : ¬ rtspEndLine <:+: s

theorem OneLine.append_cons {c : UInt8} (hs : OneLine s) (hc : c ≠ 0 ∧ c ∉ rtspEndLine)
    (ht : OneLine t) : OneLine (s ++ c :: t) := by
  refine ⟨fun h => ?_, not_infix_segment hc.2 (by decide) hs.lineEnd ht.lineEnd⟩
  rcases List.mem_append.mp h with h | h
  · exact hs.zero h
  · rcases List.mem_cons.mp h with h | h
    · exact hc.1 h.symm
    · exact ht.zero h

theorem readRtspLine_line (h : OneLine l) (t : List UInt8) :
    readRtspLine (l ++ (rtspEndLine ++ t)) = some (l, l.length + 2) := by
  have hbytes : ∀ c ∈ l ++ rtspEndLine, decide (c ≠ 0) = true := by
    intro c hc
    rcases List.mem_append.mp hc with hc | hc
    · exact decide_eq_true fun h0 => h.zero (h0 ▸ hc)
    · have hend : ∀ c ∈ rtspEndLine, c ≠ 0 := forall_mem_of_all (by decide)
      exact decide_eq_true (hend c hc)
  have htext : (l ++ (rtspEndLine ++ t)).takeWhile (· ≠ 0) =
      l ++ (rtspEndLine ++ t.takeWhile (· ≠ 0)) := by
    rw [← List.append_assoc, List.takeWhile_append_of_pos hbytes, List.append_assoc]
  have hline : ¬ rtspEndLine <:+: l ++ rtspEndLine.dropLast :=
    not_infix_append (w := [13]) (by decide) h.lineEnd
  rw [readRtspLine, htext, find_of_not_infix (by decide) hline, Option.map_some, List.take_left]
  rfl

theorem length_le_endLines (ls : List (List UInt8)) : ls.length ≤ (endLines ls).length := by
  induction ls with
  | nil => exact Nat.zero_le _
  | cons l ls ih =>
    have hcons : endLines (l :: ls) = l ++ rtspEndLine ++ endLines ls := rfl
    rw [hcons]
    simp only [List.length_append, List.length_cons, rtspEndLine, List.length_nil]
    omega

/-- The loop on the text of lines: each is read as a header, and the empty line ends it. -/
theorem parseRtspHeaders_lines {ls : List (List UInt8)} (hls : ∀ l ∈ ls, OneLine l ∧ l ≠ [])
    (front t : List UInt8) {unRtspSize fuel : Nat} (hfuel : ls.length < fuel)
    (hsize : (front ++ endLines ls).length < unRtspSize) (p : RtspPacket) :
    parseRtspHeaders lib (front ++ (endLines ls ++ (rtspEndLine ++ t))) unRtspSize fuel front.length p =
      ls.foldlM (parseRtspHeader lib) p := by
  induction ls generalizing front fuel p with
  | nil =>
    cases fuel with
    | zero => exact absurd hfuel (Nat.not_lt_zero _)
    | succ fuel =>
      have hread := readRtspLine_line (l := []) ⟨List.not_mem_nil, by decide⟩ t
      have hnil : endLines [] ++ (rtspEndLine ++ t) = [] ++ (rtspEndLine ++ t) := rfl
      rw [hnil, parseRtspHeaders, List.drop_left, hread, if_pos (by simpa [endLines] using hsize)]
      rfl
  | cons l ls ih =>
    cases fuel with
    | zero => exact absurd hfuel (Nat.not_lt_zero _)
    | succ fuel =>
      obtain ⟨hl, hne⟩ := hls l List.mem_cons_self
      have htext : endLines (l :: ls) ++ (rtspEndLine ++ t) =
          l ++ (rtspEndLine ++ (endLines ls ++ (rtspEndLine ++ t))) := by simp [endLines]
      have hfront : front ++ (l ++ (rtspEndLine ++ (endLines ls ++ (rtspEndLine ++ t)))) =
          front ++ l ++ rtspEndLine ++ (endLines ls ++ (rtspEndLine ++ t)) := by simp
      have hlength : front.length + (l.length + 2) = (front ++ l ++ rtspEndLine).length := by
        simp only [List.length_append, rtspEndLine, List.length_cons, List.length_nil]
        omega
      have hlt : front.length < unRtspSize := by
        rw [List.length_append] at hsize
        omega
      have hrest : (front ++ l ++ rtspEndLine ++ endLines ls).length < unRtspSize := by
        have hcons : endLines (l :: ls) = l ++ rtspEndLine ++ endLines ls := rfl
        rw [hcons] at hsize
        simpa only [List.append_assoc] using hsize
      rw [htext, parseRtspHeaders, if_pos hlt, List.drop_left, readRtspLine_line hl]
      dsimp only
      rw [if_neg hne, List.foldlM_cons, hfront, hlength]
      congr 1
      funext q
      exact ih (fun x hx => hls x (List.mem_cons_of_mem l hx)) _
        (Nat.lt_of_succ_lt_succ hfuel) hrest q

/-- A text is read by its first line and its header lines, if they declare no content. -/
theorem parse_endLines {line : List UInt8} (hline : OneLine line) {ls : List (List UInt8)}
    (hls : ∀ l ∈ ls, OneLine l ∧ l ≠ []) {q r : RtspPacket}
    (hmethod : p.parseRtspMethodLine line = .ok q)
    (hrun : ls.foldlM (parseRtspHeader lib) q = .ok r) (hcontent : r.ulContenLength = 0) :
    parse lib p (endLines (line :: ls) ++ rtspEndLine) (endLines (line :: ls) ++ rtspEndLine).length =
      .ok r := by
  have hlength : (endLines (line :: ls) ++ rtspEndLine).length =
      line.length + 2 + (endLines ls).length + 2 := by
    simp [endLines, rtspEndLine]
    omega
  have hread : readRtspLine (endLines (line :: ls) ++ rtspEndLine) = some (line, line.length + 2) := by
    have htext : endLines (line :: ls) ++ rtspEndLine =
        line ++ (rtspEndLine ++ (endLines ls ++ rtspEndLine)) := by simp [endLines]
    rw [htext, readRtspLine_line hline]
  -- the loop begins behind the first line
  have hloop : parseRtspHeaders lib (endLines (line :: ls) ++ rtspEndLine)
      (endLines (line :: ls) ++ rtspEndLine).length
      ((endLines (line :: ls) ++ rtspEndLine).length + 1) (line.length + 2) q = .ok r := by
    have htext : endLines (line :: ls) ++ rtspEndLine =
        line ++ rtspEndLine ++ (endLines ls ++ (rtspEndLine ++ [])) := by simp [endLines]
    have hfront : line.length + 2 = (line ++ rtspEndLine).length := by simp [rtspEndLine]
    have hlines := length_le_endLines ls
    rw [hlength, htext, hfront, parseRtspHeaders_lines hls, hrun]
    · omega
    · rw [List.length_append, ← hfront]
      omega
  unfold parse
  rw [if_neg (by omega), hread]
  dsimp only
  rw [bind_ok hmethod, bind_ok hloop]
  exact if_neg (not_not.mpr hcontent)

/-! ## The first line -/

theorem findMethod_method {i : Nat} (hi : i < rtspIllegalMethod) (t : List UInt8) :
    findMethod (rtspMethods.getD i [] ++ t) = i := by
  have hfree : ∀ j ∈ List.range rtspIllegalMethod, ∀ i ∈ List.range rtspIllegalMethod, j ≠ i →
      ¬ rtspMethods.getD j [] <+: rtspMethods.getD i [] ∧
        ¬ rtspMethods.getD i [] <+: rtspMethods.getD j [] := by decide
  have hmem : i ∈ List.range rtspIllegalMethod := List.mem_range.mpr hi
  rw [findMethod, find?_prefix (fun j => rtspMethods.getD j []) hmem
    (fun j hj hji => hfree j hj i hmem hji)]
  rfl

/-- A URL as it can stand in a request. -/
structure UrlText (url : List UInt8) : Prop where
  zero : 0 ∉ url
  blank : 32 ∉ url
  lineEnd : ¬ rtspEndLine <:+: url
  version : ¬ rtspVersion <:+: url
  length : url.length < rtspMaxUrlLength

/-- The first line of a request. -/
def requestLine (methodIndex : Nat) (url : List UInt8) : List UInt8 :=
  rtspMethods.getD methodIndex [] ++ 32 :: (url ++ 32 :: rtspVersion)

/-- What is read as the URL. -/
theorem UrlText.find_version {url : List UInt8} (h : UrlText url) :
    ∃ nPos, find rtspVersion (trimString (url ++ 32 :: rtspVersion)) = some nPos ∧
      trimString ((trimString (url ++ 32 :: rtspVersion)).take nPos) = url := by
  cases url with
  | nil => exact ⟨0, by decide, by decide⟩
  | cons c url =>
    have hc : c ≠ 32 := fun hc => h.blank (hc ▸ List.mem_cons_self)
    have htrim : trimString (c :: url ++ 32 :: rtspVersion) = c :: url ++ 32 :: rtspVersion := by
      apply trimString_eq_self
      · exact fun hs => hc (Option.some.inj hs)
      · rw [List.getLast?_append_of_ne_nil _ (by decide)]
        decide
    have hfind : find rtspVersion (c :: url ++ 32 :: rtspVersion) =
        some (0 + ((c :: url).length + 1)) := by
      have hfront : find rtspVersion rtspVersion = some 0 := by decide
      rw [find_segment (by decide) (by decide) h.version, hfront]
      rfl
    have htake : (c :: url ++ 32 :: rtspVersion).take (0 + ((c :: url).length + 1)) =
        c :: url ++ [32] := by
      rw [Nat.zero_add, List.append_cons, List.take_left']
      rw [List.length_append, List.length_singleton]
    rw [htrim]
    exact ⟨_, hfind, by rw [htake, trimString_append_blank h.blank]⟩

theorem parseRtspMethodLine_request {i : Nat} (hi : i < rtspResponseMethod) {url : List UInt8}
    (h : UrlText url) (p : RtspPacket) : p.parseRtspMethodLine (requestLine i url) =
      .ok { p with methodIndex := i, rtspUrl := url ++ p.rtspUrl.drop url.length } := by
  have hmethod : i < rtspIllegalMethod := Nat.lt_succ_of_lt hi
  obtain ⟨nPos, hfind, htrim⟩ := h.find_version
  have hdrop : (requestLine i url).drop ((rtspMethods.getD i []).length + 1) =
      url ++ 32 :: rtspVersion := by
    rw [requestLine, List.drop_length_add_append, List.drop_one, List.tail_cons]
  have hlength : ¬ (requestLine i url).length ≤ (rtspMethods.getD i []).length + 1 := by
    simp only [requestLine, List.length_append, List.length_cons]
    omega
  have hmax : ¬ url.length > rtspMaxUrlLength := Nat.not_lt.mpr (Nat.le_of_lt h.length)
  unfold parseRtspMethodLine
  dsimp only
  rw [show findMethod (requestLine i url) = i from findMethod_method hmethod _,
    if_neg (Nat.ne_of_lt hmethod), if_neg hlength, hdrop, if_neg (Nat.ne_of_lt hi), hfind]
  dsimp only
  rw [htrim, if_neg hmax]

/-! ## Header lines -/

/-- A header line without its end. -/
def headerText (h : RtspHeader × List UInt8) : List UInt8 := h.1.name ++ 58 :: h.2

theorem mem_all (header : RtspHeader) : header ∈ RtspHeader.all := by cases header <;> decide

theorem oneLine_headerText {h : RtspHeader × List UInt8} (hvalue : OneLine h.2) :
    OneLine (headerText h) := by
  have hname : OneLine h.1.name := by
    have hall : ∀ header ∈ RtspHeader.all, 0 ∉ header.name ∧ find rtspEndLine header.name = none := by
      decide
    obtain ⟨hzero, hend⟩ := hall h.1 (mem_all h.1)
    exact ⟨hzero, find_eq_none_iff.mp hend⟩
  exact hname.append_cons (by decide) hvalue

/-- No header is taken for another one. -/
theorem parseRtspHeaderIndex_name (header : RtspHeader) (t : List UInt8) :
    parseRtspHeaderIndex (header.name ++ t) = some header := by
  have hfree : ∀ a ∈ RtspHeader.all, ∀ b ∈ RtspHeader.all, a ≠ b →
      ¬ a.name.map lower <+: b.name.map lower ∧ ¬ b.name.map lower <+: a.name.map lower := by
    decide
  have hmem := mem_all header
  rw [parseRtspHeaderIndex, List.map_append]
  exact find?_prefix (fun a : RtspHeader => a.name.map lower) hmem
    (fun a ha hab => hfree a ha header hmem hab) _

theorem parseRtspHeader_line (h : RtspHeader × List UInt8) (p : RtspPacket) :
    parseRtspHeader lib p (headerText h) = setHeaderValue lib p h.1 (trimString h.2) := by
  have hcolon : find [58] (58 :: h.2) = some 0 :=
    find_prefix (List.cons_ne_nil 58 []) h.2
  unfold headerText parseRtspHeader
  rw [parseRtspHeaderIndex_name]
  dsimp only
  unfold parseRtspHeaderValue
  dsimp only
  rw [List.drop_left, hcolon]
  rfl

end AllCamera.RtspPacket
