import AllCamera.Stream.RtspPacket.RequestLines

/-!
# A request is read as the packet that it was generated from

* `Request`: the packets that the round trip is about. `Plain`: what their texts must not have besides.
* `parseNatInfo_natText`: the NAT information by itself.
* `generateRtspReq_eq`: a request is the text of its lines. `foldlM_headers`: what they set.
* `parse_generateRtspReq`: the text of a request is read as `received`; `Request.roundTrips`.
-/

namespace AllCamera

/-- What the C library documents: a number with a fraction is printed without control letters, and an
address in dotted notation is read as that address. -/
structure CLib.Documented (lib : CLib) : Prop where
  printDouble : ∀ d, ∀ c ∈ lib.printDouble d, 32 ≤ c
  inverse : ∀ ip, lib.inetAddr (inetNtoa ip) = ip

/-- NAT information that is there has addresses and ports; the source may be left out. -/
def RtspNatInfo.Complete (info : RtspNatInfo) : Prop :=
  info.localIp ≠ 0 ∧ info.localPort ≠ 0 ∧
    (info.srcIp = 0 ∧ info.srcPort = 0 ∨ info.srcIp ≠ 0 ∧ info.srcPort ≠ 0)

namespace RtspPacket

variable {lib : CLib} {p q q' : RtspPacket} {s t : List UInt8}

/-- A text without a line's end, and without blanks around it. -/
structure Value (s : List UInt8) : Prop where
  lineEnd : ¬ rtspEndLine <:+: s
  front : s.head? ≠ some 32
  back : s.getLast? ≠ some 32

/-- A request. -/
structure Request (p : RtspPacket) : Prop where
  method : p.methodIndex < rtspResponseMethod
  url : UrlText p.rtspUrl
  range : Value p.strRange
  xPlayInfo : Value p.strXPlayInfo
  natInfo : p.hasNetInfo = true → p.natInfo.Complete

/-- The texts that are sent are C texts, and the one that is not read has no line's end. -/
structure Plain (p : RtspPacket) : Prop where
  range : 0 ∉ p.strRange
  xPlay : p.methodIndex = rtspSetParameterMethod → 0 ∉ p.strXPlayInfo ∧ OneLine p.strXPlayCtrl

/-- What is restored in `q`. -/
structure Restored (p q : RtspPacket) : Prop where
  method : q.methodIndex = p.methodIndex
  url : q.rtspUrl = p.rtspUrl
  session : q.sessionID = p.sessionID
  cseq : q.cseq = p.cseq
  range : q.strRange = p.strRange
  hasNetInfo : q.hasNetInfo = p.hasNetInfo
  natInfo : p.hasNetInfo = true → q.natInfo = p.natInfo
  xPlayInfo : p.methodIndex = rtspSetParameterMethod → q.strXPlayInfo = p.strXPlayInfo

/-- The text of the request is read into a new packet, which has what the request had. -/
def RoundTrips (lib : CLib) (p : RtspPacket) : Prop :=
  ∃ text q, p.generateRtspReq lib = some text ∧ parse lib init text text.length = .ok q ∧ Restored p q

/-! ## Printed text -/

/-- Text without control letters is one line. -/
theorem oneLine_of_printed (h : ∀ c ∈ s, 32 ≤ c) : OneLine s := by
  refine ⟨fun h0 => absurd (h 0 h0) (by decide), fun hline => ?_⟩
  have h13 : 13 ∈ s := hline.subset (by decide)
  exact absurd (h 13 h13) (by decide)

/-- Text without control letters and blanks. -/
def Graphic (s : List UInt8) : Prop := ∀ c ∈ s, 32 < c

namespace Graphic

theorem append (hs : Graphic s) (ht : Graphic t) : Graphic (s ++ t) :=
  List.forall_mem_append.mpr ⟨hs, ht⟩

theorem of_all (h : (s.all fun c => decide (32 < c)) = true) : Graphic s := forall_mem_of_all h

theorem of_digits (h : ∀ c ∈ s, isDigit c = true ∨ c = 45 ∨ c = 46) : Graphic s := by
  intro c hc
  rcases h c hc with hdigit | rfl | rfl
  · simp only [isDigit, decide_eq_true_eq] at hdigit
    exact UInt8.lt_of_lt_of_le (by decide) hdigit.1
  · decide
  · decide

theorem oneLine (h : Graphic s) : OneLine s :=
  oneLine_of_printed fun c hc => UInt8.le_of_lt (h c hc)

theorem trimString_eq (h : Graphic s) : trimString s = s :=
  trimString_of_notMem fun h32 => absurd (h 32 h32) (by decide)

end Graphic

theorem inetNtoa_chars (ip : UInt32) : ∀ c ∈ inetNtoa ip, isDigit c = true ∨ c = 46 := by
  have hdot : ∀ c ∈ ascii ".", isDigit c = true ∨ c = 46 := forall_mem_of_all (by decide)
  have hdigits : ∀ n, ∀ c ∈ decimal n, isDigit c = true ∨ c = 46 := fun n c hc =>
    .inl (isDigit_decimal n c hc)
  simp only [inetNtoa, List.forall_mem_append]
  exact ⟨⟨⟨⟨⟨⟨hdigits _, hdot⟩, hdigits _⟩, hdot⟩, hdigits _⟩, hdot⟩, hdigits _⟩

/-! ## NAT information -/

/-- A part of the NAT information, by its key and its value. -/
def natPart (f : List UInt8 × List UInt8) : List UInt8 := f.1 ++ 61 :: f.2

/-- A key and a value that leave the letters of the form alone. -/
structure NatPart (f : List UInt8 × List UInt8) : Prop where
  key : 59 ∉ f.1 ∧ 61 ∉ f.1 ∧ 32 ∉ f.1
  value : 59 ∉ f.2 ∧ 32 ∉ f.2

/-- The text of parts, each with its semicolon. -/
def natSegments (fs : List (List UInt8 × List UInt8)) : List UInt8 :=
  segments (fs.map fun f => (natPart f, 59))

/-- The loop over the parts sets them one after the other. -/
theorem parseNatParts_segments {fs : List (List UInt8 × List UInt8)} (hfs : ∀ f ∈ fs, NatPart f)
    {fuel : Nat} (hfuel : fs.length < fuel) (info : RtspNatInfo) :
    parseNatParts lib fuel (natSegments fs) info =
      fs.foldlM (fun info f => setNatInfo lib f.1 f.2 info) info := by
  induction fs generalizing fuel info with
  | nil =>
    cases fuel with
    | zero => exact absurd hfuel (Nat.not_lt_zero _)
    | succ fuel => rfl
  | cons f fs ih =>
    cases fuel with
    | zero => exact absurd hfuel (Nat.not_lt_zero _)
    | succ fuel =>
      have hf := hfs f List.mem_cons_self
      have htext : natSegments (f :: fs) = natPart f ++ 59 :: natSegments fs := by
        simp [natSegments, segments]
      have hpart : 59 ∉ natPart f := by
        simp [natPart, hf.key.1, hf.value.1]
      rw [htext, parseNatParts, find_letter hpart]
      dsimp only
      rw [List.take_left, List.drop_length_add_append, List.drop_one, List.tail_cons, natPart,
        find_letter hf.key.2.1]
      dsimp only
      rw [List.take_left, List.drop_length_add_append, List.drop_one, List.tail_cons,
        trimString_of_notMem hf.key.2.2, trimString_of_notMem hf.value.2, List.foldlM_cons]
      congr 1
      funext info
      exact ih (fun x hx => hfs x (List.mem_cons_of_mem f hx)) (Nat.lt_of_succ_lt_succ hfuel) info

/-- The parts of the source, if they are sent. -/
def srcParts (info : RtspNatInfo) : List (List UInt8 × List UInt8) :=
  if info.srcIp ≠ 0 ∧ info.srcPort ≠ 0 then
    [(ascii "src_addr", inetNtoa info.srcIp), (ascii "src_port", decimal info.srcPort.toNat)]
  else []

/-- The parts of NAT information. -/
def natParts (info : RtspNatInfo) : List (List UInt8 × List UInt8) :=
  [(ascii "type", if info.natType = .rtp then ascii "RTP" else ascii "RTCP"),
    (ascii "local_addr", inetNtoa info.localIp),
    (ascii "local_port", decimal info.localPort.toNat)] ++ srcParts info

/-- The value of the NAT header. The last part has no semicolon behind it if it is of the source. -/
def natText (info : RtspNatInfo) : List UInt8 :=
  (if info.natType = .rtp then ascii "type=RTP;" else ascii "type=RTCP;") ++
    ascii "local_addr=" ++ inetNtoa info.localIp ++ ascii ";local_port=" ++
    decimal info.localPort.toNat ++ ascii ";" ++
    if info.srcIp ≠ 0 ∧ info.srcPort ≠ 0 then
      ascii "src_addr=" ++ inetNtoa info.srcIp ++ ascii ";src_port=" ++ decimal info.srcPort.toNat
    else []

theorem generateNatInfo_eq (p : RtspPacket) : p.generateNatInfo =
    if p.hasNetInfo = true then headerLine .xNatInfo (natText p.natInfo) else [] := by
  have hrtp : ascii "x-NAT-Info:type=RTP;" = RtspHeader.xNatInfo.name ++ ascii ":" ++
    ascii "type=RTP;" := rfl
  have hrtcp : ascii "x-NAT-Info:type=RTCP;" = RtspHeader.xNatInfo.name ++ ascii ":" ++
    ascii "type=RTCP;" := rfl
  have htype : (if p.natInfo.natType = .rtp then ascii "x-NAT-Info:type=RTP;"
      else ascii "x-NAT-Info:type=RTCP;") = RtspHeader.xNatInfo.name ++ ascii ":" ++
      if p.natInfo.natType = .rtp then ascii "type=RTP;" else ascii "type=RTCP;" := by
    split
    · exact hrtp
    · exact hrtcp
  simp only [generateNatInfo, hasNetInfo, headerLine, natText, htype, decide_eq_true_eq,
    List.append_assoc]

variable {info : RtspNatInfo}

theorem natPart_digits {key value : List UInt8} (hkey : 59 ∉ key ∧ 61 ∉ key ∧ 32 ∉ key)
    (hvalue : ∀ c ∈ value, isDigit c = true ∨ c = 46) : NatPart (key, value) := by
  have hother : ∀ c : UInt8, isDigit c = false → c ≠ 46 → c ∉ value := by
    intro c hdigit hdot hc
    rcases hvalue c hc with h | h
    · rw [hdigit] at h
      cases h
    · exact hdot h
  exact ⟨hkey, hother 59 (by decide) (by decide), hother 32 (by decide) (by decide)⟩

theorem natPart_natParts : ∀ f ∈ natParts info, NatPart f := by
  have hdecimal : ∀ n, ∀ c ∈ decimal n, isDigit c = true ∨ c = 46 := fun n c hc =>
    .inl (isDigit_decimal n c hc)
  have htype : NatPart (ascii "type", if info.natType = .rtp then ascii "RTP" else ascii "RTCP") := by
    split
    · exact ⟨by decide, by decide⟩
    · exact ⟨by decide, by decide⟩
  have hsrc : ∀ f ∈ srcParts info, NatPart f := by
    intro f hf
    unfold srcParts at hf
    split at hf
    · simp only [List.mem_cons, List.not_mem_nil, or_false] at hf
      rcases hf with rfl | rfl
      · exact natPart_digits (by decide) (inetNtoa_chars _)
      · exact natPart_digits (by decide) (hdecimal _)
    · cases hf
  intro f hf
  simp only [natParts, List.mem_append, List.mem_cons, List.not_mem_nil, or_false] at hf
  rcases hf with (rfl | rfl | rfl) | hf
  · exact htype
  · exact natPart_digits (by decide) (inetNtoa_chars _)
  · exact natPart_digits (by decide) (hdecimal _)
  · exact hsrc f hf

theorem natSegments_cons (f : List UInt8 × List UInt8) (fs : List (List UInt8 × List UInt8)) :
    natSegments (f :: fs) = f.1 ++ 61 :: (f.2 ++ 59 :: natSegments fs) := by
  simp [natSegments, segments, natPart]

theorem length_le_natSegments (fs : List (List UInt8 × List UInt8)) :
    fs.length ≤ (natSegments fs).length := by
  induction fs with
  | nil => exact Nat.zero_le _
  | cons f fs ih =>
    rw [natSegments_cons]
    simp only [List.length_append, List.length_cons]
    omega

/-- The text that `parseNatInfo` works on: with a semicolon at the end in any case. -/
theorem natText_end : (if (natText info).getLast? ≠ some 59 then natText info ++ [59]
    else natText info) = natSegments (natParts info) := by
  have htype : (if info.natType = .rtp then ascii "type=RTP;" else ascii "type=RTCP;") =
      ascii "type" ++ 61 :: ((if info.natType = .rtp then ascii "RTP" else ascii "RTCP") ++ [59]) := by
    split <;> rfl
  have hlocal : ascii "local_addr=" = ascii "local_addr" ++ [61] := rfl
  have hlocalPort : ascii ";local_port=" = 59 :: (ascii "local_port" ++ [61]) := rfl
  have hsrc : ascii "src_addr=" = ascii "src_addr" ++ [61] := rfl
  have hsrcPort : ascii ";src_port=" = 59 :: (ascii "src_port" ++ [61]) := rfl
  have hend : ascii ";" = [59] := rfl
  have hnil : natSegments [] = [] := rfl
  by_cases h : info.srcIp ≠ 0 ∧ info.srcPort ≠ 0
  · have hlast : (natText info).getLast? ≠ some 59 := by
      intro hlast
      rw [natText, if_pos h, ← List.append_assoc,
        List.getLast?_append_of_ne_nil _ (decimal_ne_nil _)] at hlast
      exact notMem_decimal (by decide) _ (List.mem_of_getLast? hlast)
    rw [if_pos hlast, natText, natParts, srcParts, if_pos h, if_pos h]
    simp [natSegments_cons, htype, hlocal, hlocalPort, hsrc, hsrcPort, hend, hnil]
  · have hlast : ¬ (natText info).getLast? ≠ some 59 := by
      rw [natText, if_neg h, List.append_nil, List.getLast?_append_of_ne_nil _ (by decide)]
      decide
    rw [if_neg hlast, natText, natParts, srcParts, if_neg h, if_neg h]
    simp [natSegments_cons, htype, hlocal, hlocalPort, hend, hnil]

theorem setNatInfo_type (h : info.natType ≠ .invalid) (i : RtspNatInfo) :
    setNatInfo lib (ascii "type") (if info.natType = .rtp then ascii "RTP" else ascii "RTCP") i =
      .ok { i with natType := info.natType } := by
  unfold setNatInfo
  rw [if_pos (by decide)]
  cases htype : info.natType with
  | rtp => rfl
  | rtcp => rfl
  | invalid => exact absurd htype h

theorem atoi_port (port : UInt16) : (atoi (decimal port.toNat)).toUInt16 = port := by
  have hread : atoi (decimal port.toNat) = UInt32.ofNat port.toNat := by
    simpa using atoi_decimal (t := []) port.toNat nofun
  rw [hread]
  apply UInt16.toNat.inj
  simp

theorem setNatInfo_local_addr (hlib : lib.Documented) {ip : UInt32} (h : ip ≠ 0) (i : RtspNatInfo) :
    setNatInfo lib (ascii "local_addr") (inetNtoa ip) i = .ok { i with localIp := ip } := by
  unfold setNatInfo
  rw [if_neg (by decide), if_pos (by decide), hlib.inverse]
  exact if_neg h

theorem setNatInfo_local_port {port : UInt16} (h : port ≠ 0) (i : RtspNatInfo) :
    setNatInfo lib (ascii "local_port") (decimal port.toNat) i = .ok { i with localPort := port } := by
  unfold setNatInfo
  rw [if_neg (by decide), if_neg (by decide), if_pos (by decide), atoi_port]
  exact if_neg h

theorem setNatInfo_src_addr (hlib : lib.Documented) {ip : UInt32} (h : ip ≠ 0) (i : RtspNatInfo) :
    setNatInfo lib (ascii "src_addr") (inetNtoa ip) i = .ok { i with srcIp := ip } := by
  unfold setNatInfo
  rw [if_neg (by decide), if_neg (by decide), if_neg (by decide), if_pos (by decide), hlib.inverse]
  exact if_neg h

theorem setNatInfo_src_port {port : UInt16} (h : port ≠ 0) (i : RtspNatInfo) :
    setNatInfo lib (ascii "src_port") (decimal port.toNat) i = .ok { i with srcPort := port } := by
  unfold setNatInfo
  rw [if_neg (by decide), if_neg (by decide), if_neg (by decide), if_neg (by decide),
    if_pos (by decide), atoi_port]
  exact if_neg h

/-- What the parts of complete NAT information set, in NAT information that was blank. -/
theorem foldlM_natParts (hlib : lib.Documented) (htype : info.natType ≠ .invalid)
    (h : info.Complete) : (natParts info).foldlM (fun i f => setNatInfo lib f.1 f.2 i)
      init.natInfo = .ok info := by
  obtain ⟨hlocalIp, hlocalPort, hsrc⟩ := h
  have hsrcParts : (srcParts info).foldlM (fun i f => setNatInfo lib f.1 f.2 i)
      { info with srcIp := 0, srcPort := 0 } = .ok info := by
    unfold srcParts
    rcases hsrc with ⟨hip, hport⟩ | ⟨hip, hport⟩
    · rw [if_neg fun h => h.1 hip, ← hip, ← hport]
      rfl
    · rw [if_pos ⟨hip, hport⟩, foldlM_cons_ok (setNatInfo_src_addr hlib hip _),
        foldlM_cons_ok (setNatInfo_src_port hport _)]
      rfl
  unfold natParts
  refine (foldlM_append_ok ?_).trans hsrcParts
  rw [foldlM_cons_ok (setNatInfo_type htype _),
    foldlM_cons_ok (setNatInfo_local_addr hlib hlocalIp _),
    foldlM_cons_ok (setNatInfo_local_port hlocalPort _)]
  rfl

/-- Complete NAT information is read back. -/
theorem parseNatInfo_natText (hlib : lib.Documented) (htype : info.natType ≠ .invalid)
    (h : info.Complete) : parseNatInfo lib (natText info) init.natInfo = .ok info := by
  unfold parseNatInfo
  dsimp only
  rw [natText_end, parseNatParts_segments natPart_natParts
    (Nat.lt_succ_of_le (length_le_natSegments _))]
  exact foldlM_natParts hlib htype h

theorem graphic_uint64ToStr (id : UInt64) : Graphic (uint64ToStr id) :=
  .of_digits fun c hc => (printD_chars _ c hc).imp_right .inl

theorem graphic_decimal (n : Nat) : Graphic (decimal n) :=
  .of_digits fun c hc => .inl (isDigit_decimal n c hc)

theorem graphic_natText (info : RtspNatInfo) : Graphic (natText info) := by
  have haddr : ∀ ip, Graphic (inetNtoa ip) := fun ip =>
    .of_digits fun c hc => (inetNtoa_chars ip c hc).imp_right .inr
  have htype : Graphic (if info.natType = .rtp then ascii "type=RTP;" else ascii "type=RTCP;") := by
    split
    · exact .of_all (by decide)
    · exact .of_all (by decide)
  have hsrc : Graphic (if info.srcIp ≠ 0 ∧ info.srcPort ≠ 0 then
      ascii "src_addr=" ++ inetNtoa info.srcIp ++ ascii ";src_port=" ++ decimal info.srcPort.toNat
    else []) := by
    split
    · exact (((Graphic.of_all (by decide)).append (haddr _)).append (.of_all (by decide))).append
        (graphic_decimal _)
    · exact List.forall_mem_nil _
  unfold natText
  exact (((((htype.append (.of_all (by decide))).append (haddr _)).append (.of_all (by decide))).append
    (graphic_decimal _)).append (.of_all (by decide))).append hsrc

/-! ## The lines of a request -/

/-- A header that is sent if the condition holds. -/
def optional (c : Prop) [Decidable c] (h : RtspHeader × List UInt8) : List (RtspHeader × List UInt8) :=
  if c then [h] else []

/-- The headers of a request with their values. -/
def headers (lib : CLib) (p : RtspPacket) : List (RtspHeader × List UInt8) :=
  [(.session, uint64ToStr p.sessionID), (.cseq, uint32ToStr p.cseq)] ++
    optional (p.strRange ≠ []) (.range, p.strRange) ++
    [(.userAgent, rtspUserAgent)] ++
    optional (¬ isZeroDouble p.dSpeed = true) (.speed, double2Str lib p.dSpeed) ++
    optional (¬ isZeroDouble p.dScale = true) (.scale, double2Str lib p.dScale) ++
    optional (p.hasNetInfo = true) (.xNatInfo, natText p.natInfo) ++
    optional (p.methodIndex = rtspSetParameterMethod ∧ p.strXPlayCtrl ≠ [])
      (.xPlayCtrl, p.strXPlayCtrl) ++
    optional (p.methodIndex = rtspSetParameterMethod ∧ p.strXPlayInfo ≠ [])
      (.xPlayInfo, p.strXPlayInfo)

/-- The text of headers. -/
def headersText (hs : List (RtspHeader × List UInt8)) : List UInt8 := endLines (hs.map headerText)

theorem headersText_append (xs ys : List (RtspHeader × List UInt8)) :
    headersText (xs ++ ys) = headersText xs ++ headersText ys := by
  simp [headersText, endLines]

theorem headersText_cons (h : RtspHeader × List UInt8) (hs : List (RtspHeader × List UInt8)) :
    headersText (h :: hs) = headerLine h.1 h.2 ++ headersText hs := by
  have hcolon : ascii ":" = [58] := rfl
  simp [headersText, endLines, headerText, headerLine, hcolon]

theorem headersText_optional {c : Prop} [Decidable c] {h : RtspHeader × List UInt8} :
    headersText (optional c h) = if c then headerLine h.1 h.2 else [] := by
  unfold optional
  split
  · rw [headersText_cons]
    exact List.append_nil _
  · rfl

/-- A request is the text of its lines, and an empty line. -/
theorem generateRtspReq_eq (h : p.methodIndex < rtspResponseMethod) : p.generateRtspReq lib =
    some (endLines (requestLine p.methodIndex p.rtspUrl :: (headers lib p).map headerText) ++
      rtspEndLine) := by
  have hlines : endLines (requestLine p.methodIndex p.rtspUrl :: (headers lib p).map headerText) =
    requestLine p.methodIndex p.rtspUrl ++ rtspEndLine ++ headersText (headers lib p) := rfl
  have hmethod : ¬ rtspIllegalMethod ≤ p.methodIndex := Nat.not_le.mpr (Nat.lt_succ_of_lt h)
  have hblank : ascii " " = [32] := rfl
  rw [generateRtspReq, if_neg hmethod, generateNatInfo_eq, hlines]
  simp only [headers, headersText_append, headersText_optional, headersText_cons,
    generateCommonHeader, generateAcceptedHeader, requestLine, hblank, ite_not, List.append_assoc,
    List.cons_append, List.nil_append]

theorem mem_optional {c : Prop} [Decidable c] {h x : RtspHeader × List UInt8} :
    x ∈ optional c h ↔ c ∧ x = h := by
  unfold optional
  split
  · rename_i hc
    simp [hc]
  · rename_i hc
    simp [hc]

theorem oneLine_headers (hlib : lib.Documented) (hp : Request p) (hplain : Plain p) :
    ∀ h ∈ headers lib p, OneLine h.2 := by
  have huserAgent : OneLine rtspUserAgent := oneLine_of_printed (forall_mem_of_all (by decide))
  have hdouble : ∀ d, OneLine (double2Str lib d) := fun d =>
    oneLine_of_printed fun c hc => hlib.printDouble d c (List.mem_of_mem_take hc)
  intro h hh
  simp only [headers, List.mem_append, List.mem_cons, List.not_mem_nil, or_false, mem_optional] at hh
  rcases hh with ((((((((rfl | rfl) | ⟨-, rfl⟩) | rfl) | ⟨-, rfl⟩) | ⟨-, rfl⟩) | ⟨-, rfl⟩) |
    ⟨⟨hset, -⟩, rfl⟩) | ⟨⟨hset, -⟩, rfl⟩)
  · exact (graphic_uint64ToStr _).oneLine
  · exact (graphic_decimal _).oneLine
  · exact ⟨hplain.range, hp.range.lineEnd⟩
  · exact huserAgent
  · exact hdouble _
  · exact hdouble _
  · exact (graphic_natText _).oneLine
  · exact (hplain.xPlay hset).2
  · exact ⟨(hplain.xPlay hset).1, hp.xPlayInfo.lineEnd⟩

/-! ## What the headers set -/

/-- The `double` that is read for one that was sent, or left out. -/
def receivedDouble (lib : CLib) (d : UInt64) : UInt64 :=
  if isZeroDouble d = true then 0 else lib.atof (trimString (double2Str lib d))

/-- The packet that a request is read as. -/
def received (lib : CLib) (p : RtspPacket) : RtspPacket :=
  { init with
    methodIndex := p.methodIndex
    rtspUrl := p.rtspUrl
    sessionID := p.sessionID
    cseq := p.cseq
    strRange := p.strRange
    dSpeed := receivedDouble lib p.dSpeed
    dScale := receivedDouble lib p.dScale
    natInfo := if p.hasNetInfo = true then p.natInfo else init.natInfo
    strXPlayInfo := if p.methodIndex = rtspSetParameterMethod then p.strXPlayInfo else [] }

/-- What a header line sets. -/
def setHeader (lib : CLib) (q : RtspPacket) (h : RtspHeader × List UInt8) :
    Except RtspPacket RtspPacket :=
  setHeaderValue lib q h.1 (trimString h.2)

theorem foldlM_optional {c : Prop} [Decidable c] {h : RtspHeader × List UInt8}
    (hset : c → setHeader lib q h = .ok q') (hnot : ¬ c → q = q') :
    (optional c h).foldlM (setHeader lib) q = .ok q' := by
  unfold optional
  split
  · rename_i hc
    rw [foldlM_cons_ok (hset hc)]
    rfl
  · rename_i hc
    rw [hnot hc]
    rfl

theorem setHeader_session (id : UInt64) (q : RtspPacket) :
    setHeader lib q (.session, uint64ToStr id) = .ok { q with sessionID := id } := by
  unfold setHeader setHeaderValue
  dsimp only
  rw [(graphic_uint64ToStr id).trimString_eq, uint64ToStr, strtoull_printD_toInt64]

theorem setHeader_cseq (n : UInt32) (q : RtspPacket) :
    setHeader lib q (.cseq, uint32ToStr n) = .ok { q with cseq := n } := by
  have htrim : trimString (uint32ToStr n) = uint32ToStr n := (graphic_decimal _).trimString_eq
  have hread : (strtoull (uint32ToStr n)).toUInt32 = n := by
    have := n.toNat_lt
    rw [uint32ToStr, strtoull_decimal (by omega)]
    apply UInt32.toNat.inj
    simp
  unfold setHeader setHeaderValue
  dsimp only
  rw [htrim, hread]

theorem setHeader_xNatInfo (hlib : lib.Documented) {info : RtspNatInfo}
    (htype : info.natType ≠ .invalid) (h : info.Complete) (hq : q.natInfo = init.natInfo) :
    setHeader lib q (.xNatInfo, natText info) = .ok { q with natInfo := info } := by
  have hne : natText info ≠ [] := by
    unfold natText
    split <;> simp [ascii]
  unfold setHeader setHeaderValue
  dsimp only
  rw [(graphic_natText info).trimString_eq, if_neg hne, hq, parseNatInfo_natText hlib htype h]

/-- A `double` is sent if it is not zero. -/
theorem foldlM_double {header : RtspHeader} (set : UInt64 → RtspPacket)
    (hset : ∀ v, setHeaderValue lib q header v = .ok (set (lib.atof v))) (hq : q = set 0)
    (d : UInt64) : (optional (¬ isZeroDouble d = true) (header, double2Str lib d)).foldlM
      (setHeader lib) q = .ok (set (receivedDouble lib d)) := by
  unfold receivedDouble
  refine foldlM_optional (fun h => ?_) fun h => ?_
  · rw [if_neg h]
    exact hset _
  · rw [if_pos (not_not.mp h)]
    exact hq

theorem foldlM_range (hp : Request p) (hq : q.strRange = []) :
    (optional (p.strRange ≠ []) (.range, p.strRange)).foldlM (setHeader lib) q =
      .ok { q with strRange := p.strRange } := by
  refine foldlM_optional (fun _ => ?_) fun h => ?_
  · unfold setHeader setHeaderValue
    dsimp only
    rw [trimString_eq_self hp.range.front hp.range.back]
  · rw [not_not.mp h, ← hq]

theorem foldlM_xNatInfo (hlib : lib.Documented) (hp : Request p) (hq : q.natInfo = init.natInfo) :
    (optional (p.hasNetInfo = true) (.xNatInfo, natText p.natInfo)).foldlM (setHeader lib) q =
      .ok { q with natInfo := if p.hasNetInfo = true then p.natInfo else init.natInfo } := by
  refine foldlM_optional (fun h => ?_) fun h => ?_
  · rw [if_pos h]
    exact setHeader_xNatInfo hlib (of_decide_eq_true h) (hp.natInfo h) hq
  · rw [if_neg h, ← hq]

theorem foldlM_xPlayInfo (hp : Request p) (hq : q.strXPlayInfo = []) :
    (optional (p.methodIndex = rtspSetParameterMethod ∧ p.strXPlayInfo ≠ [])
      (.xPlayInfo, p.strXPlayInfo)).foldlM (setHeader lib) q = .ok { q with
        strXPlayInfo := if p.methodIndex = rtspSetParameterMethod then p.strXPlayInfo else [] } := by
  refine foldlM_optional (fun h => ?_) fun h => ?_
  · unfold setHeader setHeaderValue
    dsimp only
    rw [if_pos h.1, trimString_eq_self hp.xPlayInfo.front hp.xPlayInfo.back]
  · -- the method is another one, or the text is empty
    split
    · rename_i hmethod
      rw [not_not.mp fun hne => h ⟨hmethod, hne⟩, ← hq]
    · rw [← hq]

/-- The headers of a request set everything that `received` has. -/
theorem foldlM_headers (hlib : lib.Documented) (hp : Request p) :
    (headers lib p).foldlM (setHeader lib)
      { init with methodIndex := p.methodIndex, rtspUrl := p.rtspUrl } = .ok (received lib p) := by
  have huserAgent : ∀ q, setHeader lib q (.userAgent, rtspUserAgent) = .ok q := fun q => rfl
  have hspeed : ∀ q : RtspPacket, q.dSpeed = 0 → (optional (¬ isZeroDouble p.dSpeed = true)
      (.speed, double2Str lib p.dSpeed)).foldlM (setHeader lib) q =
        .ok { q with dSpeed := receivedDouble lib p.dSpeed } := fun q hq =>
    foldlM_double (fun d => { q with dSpeed := d }) (fun _ => rfl) (by rw [← hq]) p.dSpeed
  have hscale : ∀ q : RtspPacket, q.dScale = 0 → (optional (¬ isZeroDouble p.dScale = true)
      (.scale, double2Str lib p.dScale)).foldlM (setHeader lib) q =
        .ok { q with dScale := receivedDouble lib p.dScale } := fun q hq =>
    foldlM_double (fun d => { q with dScale := d }) (fun _ => rfl) (by rw [← hq]) p.dScale
  have hxPlayCtrl : ∀ q, (optional (p.methodIndex = rtspSetParameterMethod ∧ p.strXPlayCtrl ≠ [])
      (.xPlayCtrl, p.strXPlayCtrl)).foldlM (setHeader lib) q = .ok q :=
    fun q => foldlM_optional (fun _ => rfl) fun _ => rfl
  unfold headers
  simp only [List.append_assoc, List.cons_append, List.nil_append]
  rw [foldlM_cons_ok (setHeader_session _ _), foldlM_cons_ok (setHeader_cseq _ _),
    foldlM_append_ok (foldlM_range hp (by rfl)), foldlM_cons_ok (huserAgent _),
    foldlM_append_ok (hspeed _ (by rfl)), foldlM_append_ok (hscale _ (by rfl)),
    foldlM_append_ok (foldlM_xNatInfo hlib hp (by rfl)), foldlM_append_ok (hxPlayCtrl _),
    foldlM_xPlayInfo hp (by rfl)]
  rfl

/-! ## The round trip -/

theorem oneLine_requestLine (hp : Request p) : OneLine (requestLine p.methodIndex p.rtspUrl) := by
  have hnames : ∀ i < rtspResponseMethod, Graphic (rtspMethods.getD i []) := fun i hi => by
    have hall : ∀ i < rtspResponseMethod,
        ((rtspMethods.getD i []).all fun c => decide (32 < c)) = true := by decide
    exact .of_all (hall i hi)
  have hname := (hnames _ hp.method).oneLine
  have hversion : OneLine rtspVersion := (Graphic.of_all (by decide)).oneLine
  exact hname.append_cons (by decide) (OneLine.append_cons ⟨hp.url.zero, hp.url.lineEnd⟩ (by decide)
    hversion)

/-- The text of a request is read as the packet that it was generated from. -/
theorem parse_generateRtspReq (hlib : lib.Documented) (hp : Request p) (hplain : Plain p) :
    ∃ text, p.generateRtspReq lib = some text ∧
      parse lib init text text.length = .ok (received lib p) := by
  refine ⟨_, generateRtspReq_eq hp.method, ?_⟩
  have hlines : ∀ l ∈ (headers lib p).map headerText, OneLine l ∧ l ≠ [] := by
    intro l hl
    obtain ⟨h, hh, rfl⟩ := List.mem_map.mp hl
    exact ⟨oneLine_headerText (oneLine_headers hlib hp hplain h hh), by simp [headerText]⟩
  have hrun : ((headers lib p).map headerText).foldlM (parseRtspHeader lib)
      { init with methodIndex := p.methodIndex, rtspUrl := p.rtspUrl } = .ok (received lib p) := by
    rw [List.foldlM_map, ← foldlM_headers hlib hp]
    congr 1
    funext q h
    exact parseRtspHeader_line h q
  have hmethod : init.parseRtspMethodLine (requestLine p.methodIndex p.rtspUrl) =
      .ok { init with methodIndex := p.methodIndex, rtspUrl := p.rtspUrl } := by
    rw [parseRtspMethodLine_request hp.method hp.url]
    have hnew : p.rtspUrl ++ init.rtspUrl.drop p.rtspUrl.length = p.rtspUrl := by simp [init]
    rw [hnew]
  exact parse_endLines (oneLine_requestLine hp) hlines hmethod hrun rfl

/-- A request is read back, whatever its numbers are. -/
theorem generateRtspReq_roundTrips (hlib : lib.Documented) (hp : Request p) (hplain : Plain p) :
    RoundTrips lib p := by
  obtain ⟨text, htext, hparse⟩ := parse_generateRtspReq hlib hp hplain
  have hinfo : p.hasNetInfo = true → (received lib p).natInfo = p.natInfo := fun h => if_pos h
  refine ⟨text, received lib p, htext, hparse, rfl, rfl, rfl, rfl, rfl, ?_, hinfo, fun h => if_pos h⟩
  cases h : p.hasNetInfo with
  | true =>
    rw [← h]
    exact congrArg (fun info : RtspNatInfo => decide (info.natType ≠ .invalid)) (hinfo h)
  | false =>
    have hnone : (received lib p).natInfo = init.natInfo := if_neg (by simp [h])
    exact congrArg (fun info : RtspNatInfo => decide (info.natType ≠ .invalid)) hnone

/-! ## Addresses in dotted notation -/

/-- One letter of an address: the number in front of the last dot, and the digits behind it. -/
def dottedLetter (r : Nat × Nat) (c : UInt8) : Nat × Nat :=
  if c = 46 then (256 * r.1 + r.2, 0) else (r.1, r.2 * 10 + (c.toNat - 48))

/-- An address of four decimal numbers. -/
def dotted (s : List UInt8) : UInt32 :=
  let r := s.foldl dottedLetter (0, 0)
  UInt32.ofNat (256 * r.1 + r.2)

theorem foldl_dottedLetter (n k : Nat) : (decimal n).foldl dottedLetter (k, 0) = (k, n) := by
  have hdigits : ∀ (s : List UInt8) (m : Nat), (∀ c ∈ s, isDigit c = true) →
      s.foldl dottedLetter (k, m) = (k, s.foldl (fun n c => n * 10 + (c.toNat - 48)) m) := by
    intro s
    induction s with
    | nil => exact fun m _ => rfl
    | cons c s ih =>
      intro m hs
      have hdot : c ≠ 46 := by
        rintro rfl
        exact absurd (hs 46 List.mem_cons_self) (by decide)
      rw [List.foldl_cons, List.foldl_cons, dottedLetter, if_neg hdot]
      exact ih _ fun x hx => hs x (List.mem_cons_of_mem c hx)
  have hvalue := digitsValue_decimal n
  unfold digitsValue at hvalue
  rw [hdigits _ 0 (isDigit_decimal n), hvalue]

theorem dotted_inetNtoa (ip : UInt32) : dotted (inetNtoa ip) = ip := by
  have hdot : ∀ k n, (ascii ".").foldl dottedLetter (k, n) = (256 * k + n, 0) := fun k n => rfl
  have hlt := ip.toNat_lt
  simp only [dotted, inetNtoa, List.foldl_append, foldl_dottedLetter, hdot]
  apply UInt32.toNat.inj
  rw [UInt32.toNat_ofNat']
  omega

/-- A library for addresses of four decimal numbers and for the numbers 0 and 2. -/
def dottedLib : CLib where
  printDouble d := if d = 0x4000000000000000 then ascii "2.000000" else ascii "0.000000"
  atof s := if s = ascii "2.000000" then 0x4000000000000000 else 0
  inetAddr := dotted

theorem dottedLib_documented : dottedLib.Documented := by
  refine ⟨fun d => ?_, dotted_inetNtoa⟩
  unfold dottedLib
  dsimp only
  split
  · exact forall_mem_of_all (by decide)
  · exact forall_mem_of_all (by decide)

/-- A request with everything in it, and with the greatest numbers. -/
def fullRequest : RtspPacket :=
  { init with
    methodIndex := rtspSetParameterMethod
    rtspUrl := ascii "rtsp://10.0.0.1/a"
    sessionID := 0xFFFFFFFFFFFFFFFF
    cseq := 0xFFFFFFFF
    strRange := ascii "npt=0-"
    dSpeed := 0x4000000000000000
    strXPlayCtrl := ascii "PAUSE"
    strXPlayInfo := ascii "EOS"
    natInfo := ⟨.rtcp, 0xFFFFFFFF, 0xFFFF, 0x0A000001, 554⟩ }

theorem generateRtspReq_roundTrips_full : RoundTrips dottedLib fullRequest := by
  have hurl : UrlText fullRequest.rtspUrl := ⟨by decide, by decide, find_eq_none_iff.mp (by decide),
    find_eq_none_iff.mp (by decide), by decide⟩
  have hrange : Value fullRequest.strRange := ⟨find_eq_none_iff.mp (by decide), by decide, by decide⟩
  have hxPlayInfo : Value fullRequest.strXPlayInfo :=
    ⟨find_eq_none_iff.mp (by decide), by decide, by decide⟩
  have hnatInfo : fullRequest.natInfo.Complete :=
    ⟨by decide, by decide, .inr ⟨by decide, by decide⟩⟩
  exact generateRtspReq_roundTrips dottedLib_documented
    ⟨by decide, hurl, hrange, hxPlayInfo, fun _ => hnatInfo⟩
    ⟨by decide, fun _ => ⟨by decide, ⟨by decide, find_eq_none_iff.mp (by decide)⟩⟩⟩

/-- A request with a second line in the text that is not read. -/
def twoLineRequest : RtspPacket :=
  { init with
    methodIndex := rtspSetParameterMethod
    rtspUrl := ascii "rtsp://10.0.0.1/a"
    cseq := 1
    strXPlayCtrl := ascii "PAUSE\r\nCSeq:2" }

/-- A request with a zero in a text. -/
def zeroRequest : RtspPacket :=
  { init with
    methodIndex := rtspSetParameterMethod
    rtspUrl := ascii "rtsp://10.0.0.1/a"
    cseq := 1
    strXPlayInfo := ascii "EOS" ++ [0] }

/-- What the round trip needs of the texts besides: the second line sets another `CSeq`, and the text
ends at the zero. -/
theorem not_roundTrips_twoLines_zero :
    (Request twoLineRequest ∧ ¬ RoundTrips dottedLib twoLineRequest) ∧
      (Request zeroRequest ∧ ¬ RoundTrips dottedLib zeroRequest) := by
  have hurl : UrlText (ascii "rtsp://10.0.0.1/a") := ⟨by decide, by decide,
    find_eq_none_iff.mp (by decide), find_eq_none_iff.mp (by decide), by decide⟩
  have hnil : Value [] := ⟨find_eq_none_iff.mp (by decide), by decide, by decide⟩
  refine ⟨⟨⟨by decide, hurl, hnil, hnil, nofun⟩, ?_⟩,
    ⟨by decide, hurl, hnil, ⟨find_eq_none_iff.mp (by decide), by decide, by decide⟩, nofun⟩, ?_⟩
  · rintro ⟨text, q, htext, hparse, hrestored⟩
    have hread : (twoLineRequest.generateRtspReq dottedLib).bind (fun text =>
        (parse dottedLib init text text.length).toOption.map cseq) = some 2 := by decide +kernel
    rw [htext, Option.bind_some, hparse] at hread
    have hcseq : q.cseq = 2 := Option.some.inj hread
    rw [hrestored.cseq] at hcseq
    exact absurd hcseq (by decide)
  · rintro ⟨text, q, htext, hparse, -⟩
    have hread : (zeroRequest.generateRtspReq dottedLib).bind (fun text =>
        (parse dottedLib init text text.length).toOption.map cseq) = none := by decide +kernel
    rw [htext, Option.bind_some, hparse] at hread
    cases hread

end RtspPacket
end AllCamera
