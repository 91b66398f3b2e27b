import AllCamera.Stream.Sdp.Lines

/-!
# A session description is read as it was built

* `Built`: the descriptions that callers build. `RoundTrips`: the decoder gives back the entries and
  the direction.
* `Simple`: the descriptions for which it does. `roundTrips_iff`: exactly those.
* `sdpLines`: the lines of a text. `runLines_media`: the lines of one kind of entries are read as one
  entry.
-/

namespace AllCamera.MediaSdp

/-! ## Built descriptions -/

/-- The texts of an entry have no line breaks. -/
def NoBreaks (info : SdpMediaInfo) : Prop :=
  IsText info.strRtpmap ∧ IsText info.strFmtp ∧ IsText info.strControl

/-- A description that is built with the three functions. -/
inductive Built : MediaSdp → Prop
  | init : Built init
  | addVideoInfo {s : MediaSdp} {info : SdpMediaInfo} :
    Built s → NoBreaks info → Built (s.addVideoInfo info)
  | addAudioInfo {s : MediaSdp} {info : SdpMediaInfo} :
    Built s → NoBreaks info → Built (s.addAudioInfo info)
  | setTransDirect {s : MediaSdp} (enTransDirect : TransDirection) :
    Built s → Built (s.setTransDirect enTransDirect)

/-- What of an entry a text has to give back. -/
def values (info : SdpMediaInfo) : UInt8 × List UInt8 × List UInt8 × List UInt8 :=
  (info.ucPayloadType, info.strRtpmap, info.strFmtp, info.strControl)

/-- A fresh description that decodes the text has the entries and the direction. -/
def RoundTrips (s : MediaSdp) (isplayback : Int) (timeRange : List UInt8) : Prop :=
  ∃ s', decodeSdp init (s.encodeSdp isplayback timeRange) = (.ok, s') ∧
    s'.videoInfoList.map values = s.videoInfoList.map values ∧
    s'.audioInfoList.map values = s.audioInfoList.map values ∧
    s'.enTransDirect = s.enTransDirect

/-- Live, with one entry of a kind at most, without formats and zeros, and without a direction. -/
structure Simple (s : MediaSdp) (isplayback : Int) : Prop where
  live : isplayback ≠ 1
  video : s.videoInfoList.length ≤ 1
  audio : s.audioInfoList.length ≤ 1
  entry : s.entries ≠ []
  fmtp : ∀ e ∈ s.entries, e.strFmtp = []
  zero : ∀ e ∈ s.entries, 0 ∉ e.strRtpmap ∧ 0 ∉ e.strControl
  direct : s.enTransDirect = .max

variable {s : MediaSdp} {info : SdpMediaInfo}

theorem NoBreaks.withRtpmap (h : NoBreaks info) {rtpmap : UInt8 → List UInt8}
    (hr : ∀ pt, IsText (rtpmap pt)) : NoBreaks (withRtpmap rtpmap info) := by
  unfold MediaSdp.withRtpmap
  split
  · exact ⟨hr _, h.2.1, h.2.2⟩
  · exact h

theorem isText_videoRtpmap (pt : UInt8) : IsText (videoRtpmap pt) := by
  unfold videoRtpmap
  repeat' split
  all_goals exact forall_mem_of_all (by decide)

theorem isText_audioRtpmap (pt : UInt8) : IsText (audioRtpmap pt) := by
  unfold audioRtpmap
  repeat' split
  all_goals exact forall_mem_of_all (by decide)

/-- Besides the lists and the direction, a built description is the new one. -/
theorem Built.eq (h : Built s) : s = { MediaSdp.init with
    videoInfoList := s.videoInfoList, audioInfoList := s.audioInfoList
    enTransDirect := s.enTransDirect } := by
  induction h with
  | init => rfl
  | addVideoInfo h hinfo ih =>
    rw [ih]
    rfl
  | addAudioInfo h hinfo ih =>
    rw [ih]
    rfl
  | setTransDirect enTransDirect h ih =>
    rw [ih]
    rfl

theorem Built.noBreaks (h : Built s) : ∀ e ∈ s.entries, NoBreaks e := by
  induction h with
  | init => exact fun e he => nomatch he
  | addVideoInfo h hinfo ih =>
    intro e he
    simp only [entries, MediaSdp.addVideoInfo, List.mem_append, List.mem_singleton] at he ih
    rcases he with (he | rfl) | he
    · exact ih e (.inl he)
    · exact hinfo.withRtpmap isText_videoRtpmap
    · exact ih e (.inr he)
  | addAudioInfo h hinfo ih =>
    intro e he
    simp only [entries, MediaSdp.addAudioInfo, List.mem_append, List.mem_singleton] at he ih
    rcases he with he | he | rfl
    · exact ih e (.inl he)
    · exact ih e (.inr he)
    · exact hinfo.withRtpmap isText_audioRtpmap
  | setTransDirect enTransDirect h ih => exact ih

/-! ## The lines of a text -/

/-- The lines in front of the entries. -/
def headLines : List (List UInt8) :=
  [ascii "v=0", ascii "o=vds 0 0 IN IP4 vds.allcam.com.cn", ascii "s=allcamera media server",
    ascii "c=IN IP4 vds.allcam.com.cn", ascii "t=0 0"]

/-- The name of a kind. -/
def mediaName : SdpMedia → List UInt8
  | .video => ascii "video"
  | .audio => ascii "audio"

/-- The line of the payload types. -/
def mediaLine (media : SdpMedia) (info : SdpMediaInfo) (infos : List SdpMediaInfo) : List UInt8 :=
  ascii "m=" ++ mediaName media ++ ascii " " ++ decimal info.usPort.toNat ++ ascii " RTP/AVP" ++
    infos.flatMap fun info => ascii " " ++ decimal info.ucPayloadType.toNat

def rtpmapLine (info : SdpMediaInfo) : List UInt8 :=
  ascii "a=rtpmap:" ++ decimal info.ucPayloadType.toNat ++ ascii " " ++ info.strRtpmap

def controlLine (info : SdpMediaInfo) : List UInt8 := ascii "a=control:" ++ info.strControl

/-- The lines of an entry. -/
def infoLines (info : SdpMediaInfo) : List (List UInt8) :=
  (if info.strFmtp = [] then rtpmapLine info else info.strFmtp) ::
    if info.strControl = [] then [] else [controlLine info]

/-- The lines of the entries of one kind. -/
def mediaLines (media : SdpMedia) : List SdpMediaInfo → List (List UInt8)
  | [] => []
  | info :: infos => mediaLine media info (info :: infos) :: (info :: infos).flatMap infoLines

def directLines : TransDirection → List (List UInt8)
  | .recvonly => [ascii "a=recvonly"]
  | .sendonly => [ascii "a=sendonly"]
  | .sendrecv => [ascii "a=sendrecv"]
  | .max => []

/-- The lines behind the head. -/
def bodyLines (s : MediaSdp) : List (List UInt8) :=
  mediaLines .video s.videoInfoList ++ mediaLines .audio s.audioInfoList ++
    directLines s.enTransDirect

theorem endLines_append (ls ls' : List (List UInt8)) :
    endLines (ls ++ ls') = endLines ls ++ endLines ls' := List.flatMap_append

theorem encodeMediaInfo_eq (hurl : s.strUrl = []) (info : SdpMediaInfo) :
    s.encodeMediaInfo info = endLines (infoLines info) := by
  unfold encodeMediaInfo infoLines endLines
  by_cases hfmtp : info.strFmtp = [] <;> by_cases hcontrol : info.strControl = [] <;>
    simp [hfmtp, hcontrol, hurl, rtpmapLine, controlLine]

theorem encodeMediaDesc_eq (hurl : s.strUrl = []) : s.encodeMediaDesc .video ++
    s.encodeMediaDesc .audio = endLines (mediaLines .video s.videoInfoList ++
      mediaLines .audio s.audioInfoList) := by
  have hinfos : ∀ infos : List SdpMediaInfo, infos.flatMap s.encodeMediaInfo =
      endLines (infos.flatMap infoLines) := by
    intro infos
    induction infos with
    | nil => rfl
    | cons info infos ih =>
      rw [List.flatMap_cons, List.flatMap_cons, endLines_append, ih, encodeMediaInfo_eq hurl]
  have hrtp : ascii " RTP/AVP" = ascii " " ++ ascii "RTP" ++ ascii "/" ++ ascii "AVP" := by decide
  have hvideo : ascii "m=video " = ascii "m=" ++ ascii "video" ++ ascii " " := by decide
  have haudio : ascii "m=audio " = ascii "m=" ++ ascii "audio" ++ ascii " " := by decide
  have hcons : ∀ l ls, endLines (l :: ls) = l ++ rtspEndLine ++ endLines ls := fun l ls => rfl
  rw [endLines_append]
  congr 1
  · unfold encodeMediaDesc
    cases s.videoInfoList with
    | nil => rfl
    | cons info infos =>
      simp only [mediaLines, hcons, mediaLine, mediaName, hinfos, hvideo, hrtp, List.append_assoc]
  · unfold encodeMediaDesc
    cases s.audioInfoList with
    | nil => rfl
    | cons info infos =>
      simp only [mediaLines, hcons, mediaLine, mediaName, hinfos, haudio, hrtp, List.append_assoc]

/-- The text in front of the entries. -/
theorem endLines_headLines : ascii "v=0" ++ rtspEndLine ++ ascii "o=" ++ ascii "vds" ++ ascii " " ++
    decimal 0 ++ ascii " 0 IN IP4 " ++ ascii "vds.allcam.com.cn" ++ rtspEndLine ++ ascii "s=" ++
    ascii "allcamera media server" ++ rtspEndLine ++ (ascii "c=" ++ ascii "IN IP4 " ++
      ascii "vds.allcam.com.cn" ++ rtspEndLine) ++ ascii "t=0 0" ++ rtspEndLine =
    endLines headLines := by
  have hzero : decimal 0 = ascii "0" := by
    unfold decimal
    rfl
  rw [hzero]
  decide

/-- The text of a built description. -/
theorem Built.encodeSdp (h : Built s) (isplayback : Int) (timeRange : List UInt8) :
    s.encodeSdp isplayback timeRange = endLines headLines ++ ((if isplayback = 1 then
      ascii "a=" ++ rtspEndLine ++ (ascii "a=length:" ++ timeRange ++ rtspEndLine) else []) ++
        endLines (bodyLines s)) := by
  have hbody := encodeMediaDesc_eq (s := s) (by rw [h.eq]; rfl)
  have hdirect : encodeTransDirect s.enTransDirect = endLines (directLines s.enTransDirect) := by
    cases s.enTransDirect <;> decide
  have hfields : s.strOwner = ascii "vds" ∧ s.unSession.toNat = 0 ∧
      s.strConnAddr = ascii "vds.allcam.com.cn" ∧ s.strSessionName = ascii "allcamera media server" ∧
      s.range = [] ∧ s.strSsrc = [] ∧ s.bSetFormat = false := by
    rw [h.eq]
    exact ⟨rfl, rfl, rfl, rfl, rfl, rfl, rfl⟩
  obtain ⟨howner, hsession, haddr, hname, hrange, hssrc, hformat⟩ := hfields
  rw [bodyLines, endLines_append, ← hbody, ← hdirect, ← endLines_headLines]
  unfold MediaSdp.encodeSdp
  rw [howner, hsession, haddr, hname, hrange, hssrc, hformat, if_pos (by decide), if_pos (by decide)]
  simp

/-! ## Reading lines -/

theorem jumpSpace_cons {c : UInt8} (h : isSpace c = false) (t : List UInt8) :
    jumpSpace (c :: t) = c :: t := by
  unfold jumpSpace
  rw [List.dropWhile_cons_of_neg (by simp [h])]

theorem jumpSpace_decimal (n : Nat) (t : List UInt8) :
    jumpSpace (decimal n ++ t) = decimal n ++ t := by
  obtain ⟨c, u, hc⟩ := List.exists_cons_of_ne_nil (decimal_ne_nil n)
  have hdigit := isDigit_decimal n c (by simp [hc])
  rw [hc, List.cons_append, jumpSpace_cons (isSpace_digit hdigit)]

theorem nextField_blank {u : List UInt8} (hu : 32 ∉ u) (v : List UInt8) :
    nextField (u ++ 32 :: v) = some v := by
  unfold nextField strsep
  rw [find_letter hu]
  simp

/-- A statement behind the version. -/
theorem decodeLine_statement {c : UInt8} (hc : isSpace c = false) (u : List UInt8) {d : Decoding}
    (hd : d.bFirst = false) :
    decodeLine (c :: 61 :: u) d = .ok (decodeStatement (lower c) (jumpSpace u) d) := by
  have hequal : jumpSpace (61 :: u) = 61 :: u := jumpSpace_cons (by decide) u
  unfold decodeLine
  simp [jumpSpace_cons hc, hequal, hd]

/-- The head is read, and changes nothing of a new description. -/
theorem runLines_headLines (ls : List (List UInt8)) :
    runLines (headLines ++ ls) ⟨init, none, .ok, true⟩ = runLines ls ⟨init, none, .ok, false⟩ := by
  rfl

/-- The entries of one kind. -/
def getList (s : MediaSdp) : SdpMedia → List SdpMediaInfo
  | .video => s.videoInfoList
  | .audio => s.audioInfoList

/-- While the entries of a kind are read. -/
def setList (s : MediaSdp) : SdpMedia → List SdpMediaInfo → MediaSdp
  | .video, infos => { s with enParseStatus := .videoInfo, videoInfoList := infos }
  | .audio, infos => { s with enParseStatus := .audioInfo, audioInfoList := infos }

/-- An `m=` line with something behind the protocol adds an entry with the first number there. -/
theorem parseMediaDesc_text (s : MediaSdp) (media : SdpMedia) (pMediaInfo : Option SdpMedia)
    (port : Nat) {tail : List UInt8} (hjump : jumpSpace tail = tail) (hne : tail ≠ []) :
    parseMediaDesc (mediaName media ++ 32 :: (decimal port ++ 32 :: (ascii "RTP/AVP" ++ 32 :: tail)))
      s pMediaInfo = (.ok, setList s media
        (s.getList media ++ [⟨(atoi tail).toUInt8, 0, [], [], []⟩]), some media) := by
  have hname : 32 ∉ mediaName media := by cases media <;> decide
  have hprotocol : 32 ∉ ascii "RTP/AVP" := by decide
  have hport : jumpSpace (ascii "RTP/AVP" ++ 32 :: tail) = ascii "RTP/AVP" ++ 32 :: tail :=
    jumpSpace_cons (by decide) _
  unfold parseMediaDesc
  simp only [nextField_blank hname, jumpSpace_decimal, nextField_blank (notMem_decimal (by decide) _),
    hport, nextField_blank hprotocol, hjump, if_neg hne]
  cases media <;> rfl

/-- The first of the payload types. -/
theorem atoi_payloadTypes (info : SdpMediaInfo) (infos : List SdpMediaInfo) :
    (atoi (decimal info.ucPayloadType.toNat ++ infos.flatMap fun info =>
      ascii " " ++ decimal info.ucPayloadType.toNat)).toUInt8 = info.ucPayloadType := by
  rw [atoi_decimal]
  · simp
  · intro c hc
    cases infos with
    | nil => cases hc
    | cons info infos =>
      obtain rfl := Option.some.inj hc
      decide

/-- The line of the payload types adds an entry with the first one. -/
theorem decodeLine_media (s : MediaSdp) (media : SdpMedia) (pMediaInfo : Option SdpMedia)
    (info₀ info : SdpMediaInfo) (infos : List SdpMediaInfo) :
    decodeLine (mediaLine media info₀ (info :: infos)) ⟨s, pMediaInfo, .ok, false⟩ =
      .ok ⟨setList s media (s.getList media ++ [⟨info.ucPayloadType, 0, [], [], []⟩]), some media,
        .ok, false⟩ := by
  have hline : mediaLine media info₀ (info :: infos) = 109 :: 61 :: (mediaName media ++ 32 ::
      (decimal info₀.usPort.toNat ++ 32 :: (ascii "RTP/AVP" ++ 32 ::
        (decimal info.ucPayloadType.toNat ++
          infos.flatMap fun info => ascii " " ++ decimal info.ucPayloadType.toNat)))) := by
    have hrtp : ascii " RTP/AVP" = 32 :: ascii "RTP/AVP" := by decide
    have hm : ascii "m=" = [109, 61] := by decide
    have hblank : ascii " " = [32] := by decide
    simp only [mediaLine, hrtp, hm, hblank, List.flatMap_cons, List.append_assoc, List.cons_append,
      List.nil_append]
  have hmedia : ∀ t, jumpSpace (mediaName media ++ t) = mediaName media ++ t := by
    cases media <;> exact fun t => jumpSpace_cons (by decide) _
  have hparse := parseMediaDesc_text s media pMediaInfo info₀.usPort.toNat
    (jumpSpace_decimal info.ucPayloadType.toNat (infos.flatMap fun info =>
      ascii " " ++ decimal info.ucPayloadType.toNat)) (by simp [decimal_ne_nil])
  rw [atoi_payloadTypes] at hparse
  rw [hline, decodeLine_statement (by decide) _ rfl, hmedia]
  unfold decodeStatement
  simp only [hparse]
  rfl

/-! ## The entries of one kind -/

/-- What the lines of an entry make of the one that is read into. -/
def settle (info info' : SdpMediaInfo) : SdpMediaInfo :=
  { info with
    strRtpmap := info'.strRtpmap
    strControl := if info'.strControl = [] then info.strControl else info'.strControl }

/-- While the last entry of a kind is read. -/
def reading (s : MediaSdp) (media : SdpMedia) (infos : List SdpMediaInfo) (info : SdpMediaInfo) :
    Decoding :=
  ⟨setList s media (infos ++ [info]), some media, .ok, false⟩

theorem modifyMedia_setList (s : MediaSdp) (media : SdpMedia) (infos : List SdpMediaInfo)
    (info : SdpMediaInfo) (f : SdpMediaInfo → SdpMediaInfo) :
    (setList s media (infos ++ [info])).modifyMedia f media = setList s media (infos ++ [f info]) := by
  have hmodify : (infos ++ [info]).modify ((infos ++ [info]).length - 1) f = infos ++ [f info] := by
    induction infos with
    | nil => rfl
    | cons x infos ih => simpa using ih
  cases media <;> simp only [modifyMedia, setList, hmodify]

/-- An attribute that names a field. -/
theorem hasAttr_append (name : List UInt8) {t : List UInt8} (ht : t ≠ []) : hasAttr name (name ++ t) = true := by
  have hpos := List.length_pos_iff.mpr ht
  simp [hasAttr, hpos]

theorem hasAttr_false {name psz : List UInt8} (h : name.isPrefixOf psz = false) :
    hasAttr name psz = false := by
  simp [hasAttr, h]

theorem setList_status (s : MediaSdp) (media : SdpMedia) (infos : List SdpMediaInfo) :
    (setList s media infos).enParseStatus ≠ .globalInfo := by
  cases media <;> nofun

theorem parseAttributes_rtpmap {s : MediaSdp} (hs : s.enParseStatus ≠ .globalInfo)
    (media : SdpMedia) (pt : UInt8) (rtpmap : List UInt8) :
    parseAttributes (strSdpRtpmap ++ (decimal pt.toNat ++ 32 :: rtpmap)) s (some media) =
      (.ok, s.modifyMedia (fun info => { info with strRtpmap := rtpmap }) media) := by
  have hattr := hasAttr_append strSdpRtpmap (t := decimal pt.toNat ++ 32 :: rtpmap)
    (by simp)
  have hblank : 32 ∉ strSdpRtpmap ++ decimal pt.toNat := by
    rw [List.mem_append, not_or]
    exact ⟨by decide, notMem_decimal (by decide) _⟩
  have hfield := nextField_blank hblank rtpmap
  rw [List.append_assoc] at hfield
  unfold parseAttributes
  cases hstatus : s.enParseStatus with
  | globalInfo => exact absurd hstatus hs
  | videoInfo => simp only [hattr, if_true, hfield]
  | audioInfo => simp only [hattr, if_true, hfield]

theorem parseAttributes_control {s : MediaSdp} (hs : s.enParseStatus ≠ .globalInfo)
    (media : SdpMedia) {control : List UInt8} (hcontrol : control ≠ []) :
    parseAttributes (strSdpControlAttr ++ control) s (some media) =
      (.ok, s.modifyMedia (fun info => { info with strControl := control }) media) := by
  have hattr := hasAttr_append strSdpControlAttr hcontrol
  have hrtpmap : ¬ hasAttr strSdpRtpmap (strSdpControlAttr ++ control) = true := by
    rw [hasAttr_false rfl]
    nofun
  have hfmtp : ¬ hasAttr strSdpFmtp (strSdpControlAttr ++ control) = true := by
    rw [hasAttr_false rfl]
    nofun
  unfold parseAttributes
  cases hstatus : s.enParseStatus with
  | globalInfo => exact absurd hstatus hs
  | videoInfo => simp only [if_neg hrtpmap, if_neg hfmtp, hattr, if_true, List.drop_left]
  | audioInfo => simp only [if_neg hrtpmap, if_neg hfmtp, hattr, if_true, List.drop_left]

/-- The attribute of a line is read. -/
theorem decodeLine_attribute {c : UInt8} (hc : isSpace c = false) (u : List UInt8) {d : Decoding}
    (hd : d.bFirst = false) {nRet : SdpRet} {sdp : MediaSdp}
    (h : parseAttributes (c :: u) d.sdp d.pMediaInfo = (nRet, sdp)) :
    decodeLine (97 :: 61 :: c :: u) d = .ok { d with nRet := nRet, sdp := sdp } := by
  rw [decodeLine_statement (by decide) _ hd, jumpSpace_cons hc]
  unfold decodeStatement
  obtain ⟨s, pMediaInfo, r, first⟩ := d
  obtain rfl : first = false := hd
  simp only [h]
  rfl

/-- The lines of an entry without a format settle the entry that is read into. -/
theorem runLines_info (s : MediaSdp) (media : SdpMedia) (infos : List SdpMediaInfo)
    (info info' : SdpMediaInfo) (hfmtp : info'.strFmtp = []) (ls : List (List UInt8)) :
    runLines (infoLines info' ++ ls) (reading s media infos info) =
      runLines ls (reading s media infos (settle info info')) := by
  have hrtpmap : ∀ info, decodeLine (rtpmapLine info') (reading s media infos info) =
      .ok (reading s media infos { info with strRtpmap := info'.strRtpmap }) := by
    intro info
    have hparse := parseAttributes_rtpmap (setList_status s media (infos ++ [info])) media
      info'.ucPayloadType info'.strRtpmap
    rw [modifyMedia_setList] at hparse
    have hline : rtpmapLine info' = 97 :: 61 :: (strSdpRtpmap ++
        (decimal info'.ucPayloadType.toNat ++ 32 :: info'.strRtpmap)) := by
      simp only [rtpmapLine, List.append_assoc]
      rfl
    rw [hline]
    exact decodeLine_attribute (by decide) _ rfl hparse
  have hcontrol : ∀ info, info'.strControl ≠ [] →
      decodeLine (controlLine info') (reading s media infos info) =
        .ok (reading s media infos { info with strControl := info'.strControl }) := by
    intro info hne
    have hparse := parseAttributes_control (setList_status s media (infos ++ [info])) media hne
    rw [modifyMedia_setList] at hparse
    exact decodeLine_attribute (by decide) _ rfl hparse
  have hok : ∀ info, (reading s media infos info).nRet = .ok := fun _ => rfl
  unfold infoLines
  rw [if_pos hfmtp, List.cons_append, runLines, hrtpmap]
  simp only [hok, if_true]
  by_cases hempty : info'.strControl = []
  · rw [if_pos hempty, List.nil_append]
    unfold settle
    rw [if_pos hempty]
  · rw [if_neg hempty, List.cons_append, runLines, hcontrol _ hempty]
    simp only [hok, if_true, List.nil_append]
    unfold settle
    rw [if_neg hempty]

/-- What is read of the entries of one kind: one entry. -/
def settled : List SdpMediaInfo → List SdpMediaInfo
  | [] => []
  | info :: infos => [(info :: infos).foldl settle ⟨info.ucPayloadType, 0, [], [], []⟩]

theorem runLines_infos (s : MediaSdp) (media : SdpMedia) (infos : List SdpMediaInfo)
    (info : SdpMediaInfo) (infos' : List SdpMediaInfo) (hfmtp : ∀ e ∈ infos', e.strFmtp = [])
    (ls : List (List UInt8)) :
    runLines (infos'.flatMap infoLines ++ ls) (reading s media infos info) =
      runLines ls (reading s media infos (infos'.foldl settle info)) := by
  induction infos' generalizing info with
  | nil => rfl
  | cons info' infos' ih =>
    rw [List.flatMap_cons, List.append_assoc, runLines_info s media infos info info'
      (hfmtp info' List.mem_cons_self), ih _ fun e he => hfmtp e (List.mem_cons_of_mem _ he)]
    rfl

/-- The lines of the entries of one kind, for a list that was empty. -/
theorem runLines_media (s : MediaSdp) (media : SdpMedia) (pMediaInfo : Option SdpMedia)
    (infos : List SdpMediaInfo) (hempty : s.getList media = [])
    (hfmtp : ∀ e ∈ infos, e.strFmtp = []) (ls : List (List UInt8)) :
    runLines (mediaLines media infos ++ ls) ⟨s, pMediaInfo, .ok, false⟩ =
      if infos = [] then runLines ls ⟨s, pMediaInfo, .ok, false⟩
      else runLines ls ⟨setList s media (settled infos), some media, .ok, false⟩ := by
  cases infos with
  | nil => rfl
  | cons info infos =>
    rw [if_neg (List.cons_ne_nil info infos), mediaLines, List.cons_append, runLines,
      decodeLine_media, hempty]
    simp only [if_true]
    exact runLines_infos s media [] _ (info :: infos) hfmtp ls

/-- The line of a direction does nothing: the attribute would have to go on behind its name. -/
theorem runLines_direct {s : MediaSdp} (hs : s.enParseStatus ≠ .globalInfo) (media : SdpMedia)
    (enTransDirect : TransDirection) :
    runLines (directLines enTransDirect) ⟨s, some media, .ok, false⟩ =
      .ok ⟨s, some media, .ok, false⟩ := by
  have hparse : ∀ name ∈ [ascii "recvonly", ascii "sendonly", ascii "sendrecv"],
      parseAttributes name s (some media) = (.ok, s) := by
    intro name hname
    have hattr : ∀ name ∈ [ascii "recvonly", ascii "sendonly", ascii "sendrecv"],
        hasAttr strSdpRtpmap name = false ∧ hasAttr strSdpFmtp name = false ∧
          hasAttr strSdpControlAttr name = false ∧ (ascii "range").isPrefixOf name = false ∧
            ¬ strSdpRecvonlyAttr.length < name.length := by
      decide
    obtain ⟨hrtpmap, hfmtp, hcontrol, hrange, hlength⟩ := hattr name hname
    unfold parseAttributes
    cases hstatus : s.enParseStatus with
    | globalInfo => exact absurd hstatus hs
    | videoInfo => simp [hrtpmap, hfmtp, hcontrol, hrange, hlength]
    | audioInfo => simp [hrtpmap, hfmtp, hcontrol, hrange, hlength]
  have hline : ∀ {c : UInt8} {u : List UInt8}, isSpace c = false →
      c :: u ∈ [ascii "recvonly", ascii "sendonly", ascii "sendrecv"] →
      runLines [97 :: 61 :: c :: u] ⟨s, some media, .ok, false⟩ =
        .ok ⟨s, some media, .ok, false⟩ := by
    intro c u hc hmem
    rw [runLines, decodeLine_attribute hc u rfl (hparse _ hmem)]
    rfl
  cases enTransDirect with
  | recvonly => exact hline (by decide) (by decide)
  | sendonly => exact hline (by decide) (by decide)
  | sendrecv => exact hline (by decide) (by decide)
  | max => rfl

/-- A body without formats is read as one entry of each kind at most, and no direction. -/
theorem runLines_body (s : MediaSdp) (hentry : s.entries ≠ [])
    (hfmtp : ∀ e ∈ s.entries, e.strFmtp = []) :
    ∃ d, runLines (bodyLines s) ⟨init, none, .ok, false⟩ = .ok d ∧ d.nRet = .ok ∧
      d.sdp.videoInfoList = settled s.videoInfoList ∧
      d.sdp.audioInfoList = settled s.audioInfoList ∧ d.sdp.enTransDirect = .max := by
  have hvideo : ∀ e ∈ s.videoInfoList, e.strFmtp = [] :=
    fun e he => hfmtp e (List.mem_append_left _ he)
  have haudio : ∀ e ∈ s.audioInfoList, e.strFmtp = [] :=
    fun e he => hfmtp e (List.mem_append_right _ he)
  unfold bodyLines
  rw [List.append_assoc, runLines_media init .video none _ rfl hvideo]
  by_cases hv : s.videoInfoList = []
  · have ha : s.audioInfoList ≠ [] := fun ha => hentry (by rw [entries, hv, ha]; rfl)
    rw [if_pos hv, runLines_media init .audio none _ rfl haudio, if_neg ha,
      runLines_direct (setList_status _ _ _)]
    exact ⟨_, rfl, rfl, by rw [hv]; rfl, rfl, rfl⟩
  · rw [if_neg hv, runLines_media _ .audio _ _ rfl haudio]
    by_cases ha : s.audioInfoList = []
    · rw [if_pos ha, runLines_direct (setList_status _ _ _)]
      exact ⟨_, rfl, rfl, rfl, by rw [ha]; rfl, rfl⟩
    · rw [if_neg ha, runLines_direct (setList_status _ _ _)]
      exact ⟨_, rfl, rfl, rfl, rfl, rfl⟩

/-! ## The round trip -/

/-- A new description decodes a text if its lines are read and there is an entry. -/
theorem decodeSdp_ok {text : List UInt8} {s' : MediaSdp} :
    decodeSdp init text = (.ok, s') ↔
      ∃ d, runLines (cLines text) ⟨init, none, .ok, true⟩ = .ok d ∧ d.nRet = .ok ∧ d.sdp = s' ∧
        s'.entries ≠ [] := by
  have hlines := decodeLines_eq [] text ⟨init, none, .ok, true⟩ (Nat.lt_succ_self text.length)
  rw [List.nil_append, List.length_nil] at hlines
  unfold decodeSdp
  by_cases hempty : text = []
  · rw [if_pos hempty, hempty]
    refine ⟨nofun, ?_⟩
    rintro ⟨d, hrun, -, rfl, hentry⟩
    obtain rfl := Except.ok.inj hrun
    exact absurd rfl hentry
  · rw [if_neg hempty, hlines]
    cases hrun : runLines (cLines text) ⟨init, none, .ok, true⟩ with
    | error sdp =>
      refine ⟨nofun, ?_⟩
      rintro ⟨d, hd, -⟩
      cases hd
    | ok d =>
      have hentries : d.sdp.entries = [] ↔
          d.sdp.videoInfoList = [] ∧ d.sdp.audioInfoList = [] := List.append_eq_nil_iff
      by_cases hnone : d.sdp.entries = []
      · simp only [if_pos (hentries.mp hnone)]
        refine ⟨nofun, ?_⟩
        rintro ⟨d', hd, -, rfl, hentry⟩
        obtain rfl := Except.ok.inj hd
        exact absurd hnone hentry
      · simp only [if_neg (fun h => hnone (hentries.mpr h)), Prod.mk.injEq]
        constructor
        · rintro ⟨hret, rfl⟩
          exact ⟨d, rfl, hret, rfl, hnone⟩
        · rintro ⟨d', hd, hret, rfl, -⟩
          obtain rfl := Except.ok.inj hd
          exact ⟨hret, rfl⟩

/-- What holds of the values of all entries. -/
theorem forall_values {Q : UInt8 × List UInt8 × List UInt8 × List UInt8 → Prop} {s s' : MediaSdp}
    (hvideo : s'.videoInfoList.map values = s.videoInfoList.map values)
    (haudio : s'.audioInfoList.map values = s.audioInfoList.map values)
    (h : ∀ e ∈ s'.entries, Q (values e)) : ∀ e ∈ s.entries, Q (values e) := by
  have hmap : s'.entries.map values = s.entries.map values := by
    rw [entries, entries, List.map_append, List.map_append, hvideo, haudio]
  intro e he
  have hmem : values e ∈ s'.entries.map values := hmap ▸ List.mem_map_of_mem he
  obtain ⟨e', he', hvalues⟩ := List.mem_map.mp hmem
  exact hvalues ▸ h e' he'

theorem clean_ascii (l : List Char) (h : (l.all fun c => !isBreak (UInt8.ofNat c.toNat)) = true) :
    Clean (ascii (.ofList l)) := by
  rw [ascii_ofList]
  intro c hc
  obtain ⟨x, hx, rfl⟩ := List.mem_map.mp hc
  exact Bool.not_eq_true' _ ▸ List.all_eq_true.mp h x hx

theorem clean_headLines : ∀ l ∈ headLines, Clean l := by
  unfold headLines
  repeat' refine List.forall_mem_cons.mpr ⟨clean_ascii _ (by decide), ?_⟩
  exact List.forall_mem_nil _

/-- A description for playback is not decoded: its range comes in front of the entries. -/
theorem Built.live (h : Built s) {isplayback : Int} {timeRange : List UInt8} {s' : MediaSdp}
    (hdecode : decodeSdp MediaSdp.init (s.encodeSdp isplayback timeRange) = (.ok, s')) :
    isplayback ≠ 1 := by
  intro hplayback
  obtain ⟨d, hrun, hret, -, -⟩ := decodeSdp_ok.mp hdecode
  have hrange : ∀ t, cLines (ascii "a=" ++ rtspEndLine ++ t) = ascii "a=" :: cLines (10 :: t) :=
    fun t => cLines_append (show Clean (ascii "a=") from clean_ascii _ (by decide)) (b := 13) rfl (10 :: t)
  rw [h.encodeSdp, if_pos hplayback, runLines_endLines clean_headLines _ rfl, runLines_headLines,
    List.append_assoc, hrange] at hrun
  obtain rfl := Except.ok.inj hrun
  cases hret

/-- Decoded texts have no zeros. -/
theorem decodeSdp_no_zero {text : List UInt8} {s' : MediaSdp}
    (hdecode : decodeSdp init text = (.ok, s')) :
    ∀ e ∈ s'.entries, 0 ∉ e.strRtpmap ∧ 0 ∉ e.strFmtp ∧ 0 ∉ e.strControl := by
  obtain ⟨d, hrun, -, rfl, -⟩ := decodeSdp_ok.mp hdecode
  have hzero : ∀ l ∈ cLines text, ∀ x, x <:+ l → 0 ∉ x := by
    intro l hl x hx hmem
    have hbreak := cLines_no_break l hl 0 (hx.subset hmem)
    cases hbreak
  refine runLines_forall (P := fun e => 0 ∉ e.strRtpmap ∧ 0 ∉ e.strFmtp ∧ 0 ∉ e.strControl)
    (fun pt => by simp) ?_ ?_ ?_ hrun (fun e he => nomatch he)
  · exact fun l hl e x he hx => ⟨hzero l hl x hx, he.2⟩
  · exact fun l hl e x he hx => ⟨he.1, he.2.1, hzero l hl x hx⟩
  · exact fun l hl e x he _ hx _ => ⟨he.1, hzero l hl x hx, he.2.2⟩

/-! ## Formats -/

/-- The lines behind the head: of the payload types, of an entry, or of the direction. -/
theorem mem_bodyLines {l : List UInt8} (h : l ∈ bodyLines s) :
    (∃ media info infos, l = mediaLine media info infos) ∨ (∃ e ∈ s.entries, l ∈ infoLines e) ∨
      l ∈ directLines s.enTransDirect := by
  have hmedia : ∀ media infos, l ∈ mediaLines media infos →
      (∃ media info infos, l = mediaLine media info infos) ∨ ∃ e ∈ infos, l ∈ infoLines e := by
    intro media infos hl
    cases infos with
    | nil => cases hl
    | cons info infos =>
      rcases List.mem_cons.mp hl with rfl | hl
      · exact .inl ⟨_, _, _, rfl⟩
      · exact .inr (List.mem_flatMap.mp hl)
  unfold bodyLines at h
  simp only [List.mem_append] at h
  rcases h with (h | h) | h
  · rcases hmedia _ _ h with h | ⟨e, he, h⟩
    · exact .inl h
    · exact .inr (.inl ⟨e, List.mem_append_left _ he, h⟩)
  · rcases hmedia _ _ h with h | ⟨e, he, h⟩
    · exact .inl h
    · exact .inr (.inl ⟨e, List.mem_append_right _ he, h⟩)
  · exact .inr (.inr h)

theorem mem_infoLines {l : List UInt8} {e : SdpMediaInfo} (h : l ∈ infoLines e) :
    l = rtpmapLine e ∨ l = e.strFmtp ∨ l = controlLine e := by
  unfold infoLines at h
  rcases List.mem_cons.mp h with h | h
  · split at h
    · exact .inl h
    · exact .inr (.inl h)
  · split at h
    · cases h
    · exact .inr (.inr (List.mem_singleton.mp h))

theorem Clean.append {l t : List UInt8} (hl : Clean l) (ht : Clean t) : Clean (l ++ t) :=
  List.forall_mem_append.mpr ⟨hl, ht⟩

theorem clean_decimal (n : Nat) : Clean (decimal n) := by
  intro c hc
  have hdigit := isDigit_decimal n c hc
  rw [isBreak_false]
  refine ⟨?_, ?_, ?_⟩ <;> rintro rfl <;> revert hdigit <;> decide

theorem clean_of_isText {l : List UInt8} (hl : IsText l) (hzero : 0 ∉ l) : Clean l := by
  intro c hc
  rw [isBreak_false]
  exact ⟨fun h => hzero (h ▸ hc), (hl c hc).2, (hl c hc).1⟩

theorem Built.clean (h : Built s)
    (hzero : ∀ e ∈ s.entries, 0 ∉ e.strRtpmap ∧ 0 ∉ e.strFmtp ∧ 0 ∉ e.strControl) :
    ∀ l ∈ headLines ++ bodyLines s, Clean l := by
  intro l hl
  rcases List.mem_append.mp hl with hl | hl
  · exact clean_headLines l hl
  rcases mem_bodyLines hl with ⟨media, info, infos, rfl⟩ | ⟨e, he, hl⟩ | hl
  · have hname : Clean (mediaName media) := by cases media <;> decide
    have htypes : Clean (infos.flatMap fun info => ascii " " ++
        decimal info.ucPayloadType.toNat) := by
      intro c hc
      obtain ⟨info, -, hc⟩ := List.mem_flatMap.mp hc
      have hblank : Clean (ascii " ") := clean_ascii _ (by decide)
      exact (hblank.append (clean_decimal _)) c hc
    have hm : Clean (ascii "m=") := clean_ascii _ (by decide)
    have hblank : Clean (ascii " ") := clean_ascii _ (by decide)
    have hrtp : Clean (ascii " RTP/AVP") := clean_ascii _ (by decide)
    exact ((((hm.append hname).append hblank).append (clean_decimal _)).append hrtp).append htypes
  · obtain ⟨hrtpmap, hfmtp, hcontrol⟩ := h.noBreaks e he
    obtain ⟨hrtpmap₀, hfmtp₀, hcontrol₀⟩ := hzero e he
    rcases mem_infoLines hl with rfl | rfl | rfl
    · have ha : Clean (ascii "a=rtpmap:") := by decide
      have hblank : Clean (ascii " ") := clean_ascii _ (by decide)
      exact ((ha.append (clean_decimal _)).append hblank).append (clean_of_isText hrtpmap hrtpmap₀)
    · exact clean_of_isText hfmtp hfmtp₀
    · have ha : Clean (ascii "a=control:") := by decide
      exact ha.append (clean_of_isText hcontrol hcontrol₀)
  · have hdirect : ∀ l ∈ directLines s.enTransDirect, Clean l := by
      cases s.enTransDirect <;> decide
    exact hdirect l hl

theorem not_fmtpLine {l : List UInt8} (hl : isSpace (l.headD 32) = false ∧ lower (l.headD 32) ≠ 97) :
    ¬ FmtpLine l := by
  rintro ⟨c, t, u, hc, -, ha, -⟩
  cases l with
  | nil => cases hc
  | cons x l =>
    obtain ⟨hspace, hlower⟩ : isSpace x = false ∧ lower x ≠ 97 := hl
    rw [jumpSpace_cons hspace] at hc
    exact hlower ((List.cons.inj hc).1 ▸ ha)

theorem not_fmtpLine_attribute {c : UInt8} {u : List UInt8} (hc : isSpace c = false)
    (hname : strSdpFmtp.isPrefixOf (c :: u) = false) : ¬ FmtpLine (97 :: 61 :: c :: u) := by
  rintro ⟨c', t, u', hc', ht, -, hattr⟩
  rw [jumpSpace_cons (by decide)] at hc'
  obtain ⟨-, rfl⟩ := List.cons.inj hc'
  rw [jumpSpace_cons (by decide)] at ht
  obtain ⟨-, rfl⟩ := List.cons.inj ht
  rw [jumpSpace_cons hc, hasAttr_false hname] at hattr
  cases hattr

/-- Only a format of an entry is read as a format. -/
theorem fmtpLine_body {l : List UInt8} (hl : l ∈ headLines ++ bodyLines s) (hfmtp : FmtpLine l) :
    ∃ e ∈ s.entries, l = e.strFmtp := by
  rcases List.mem_append.mp hl with hl | hl
  · have hhead : ∀ l ∈ headLines, isSpace (l.headD 32) = false ∧ lower (l.headD 32) ≠ 97 := by decide
    exact absurd hfmtp (not_fmtpLine (hhead l hl))
  rcases mem_bodyLines hl with ⟨media, info, infos, rfl⟩ | ⟨e, he, hl⟩ | hl
  · have hm : lower 109 ≠ 97 := by decide
    exact absurd hfmtp (not_fmtpLine ⟨rfl, hm⟩)
  · rcases mem_infoLines hl with rfl | rfl | rfl
    · exact absurd hfmtp (not_fmtpLine_attribute rfl rfl)
    · exact ⟨e, he, rfl⟩
    · exact absurd hfmtp (not_fmtpLine_attribute rfl rfl)
  · cases hdirect : s.enTransDirect with
    | max =>
      rw [hdirect] at hl
      cases hl
    | _ =>
      rw [hdirect] at hl
      obtain rfl := List.mem_singleton.mp hl
      exact absurd hfmtp (not_fmtpLine_attribute rfl rfl)

theorem exists_bound (infos : List SdpMediaInfo) : ∃ n, ∀ e ∈ infos, e.strFmtp.length ≤ n := by
  induction infos with
  | nil => exact ⟨0, fun e he => nomatch he⟩
  | cons info infos ih =>
    obtain ⟨n, hn⟩ := ih
    refine ⟨max info.strFmtp.length n, List.forall_mem_cons.mpr ⟨Nat.le_max_left _ _, ?_⟩⟩
    exact fun e he => Nat.le_trans (hn e he) (Nat.le_max_right _ _)

/-- A description that is decoded to its own entries has no formats: the longest one is read as
something shorter. -/
theorem Built.no_fmtp (h : Built s) {isplayback : Int} {timeRange : List UInt8}
    (hround : RoundTrips s isplayback timeRange) : ∀ e ∈ s.entries, e.strFmtp = [] := by
  obtain ⟨s', hdecode, hvideo, haudio, -⟩ := hround
  have hzero := forall_values (Q := fun v => 0 ∉ v.2.1 ∧ 0 ∉ v.2.2.1 ∧ 0 ∉ v.2.2.2) hvideo haudio
    (decodeSdp_no_zero hdecode)
  have hlive := h.live hdecode
  rw [h.encodeSdp, if_neg hlive, List.nil_append, ← endLines_append,
    ← List.append_nil (endLines _)] at hdecode
  obtain ⟨d, hrun, -, rfl, -⟩ := decodeSdp_ok.mp hdecode
  rw [runLines_endLines (h.clean hzero) [] rfl] at hrun
  have hshorter : ∀ n, (∀ e ∈ s.entries, e.strFmtp.length ≤ n + 1) →
      ∀ e ∈ s.entries, e.strFmtp.length ≤ n := by
    intro n hn
    refine forall_values (Q := fun v => v.2.2.1.length ≤ n) hvideo haudio ?_
    refine runLines_forall (P := fun e => e.strFmtp.length ≤ n) (fun pt => Nat.zero_le n)
      (fun l hl e x he hx => he) (fun l hl e x he hx => he) ?_ hrun (fun e he => nomatch he)
    intro l hl e x he hfmtp hx hlt
    obtain ⟨e', he', rfl⟩ := fmtpLine_body (by simpa [cLines] using hl) hfmtp
    exact Nat.le_of_lt_succ (Nat.lt_of_lt_of_le hlt (hn e' he'))
  have hnone : ∀ n, (∀ e ∈ s.entries, e.strFmtp.length ≤ n) →
      ∀ e ∈ s.entries, e.strFmtp.length ≤ 0 := by
    intro n
    induction n with
    | zero => exact id
    | succ n ih => exact fun hn => ih (hshorter n hn)
  obtain ⟨n, hn⟩ := exists_bound s.entries
  intro e he
  exact List.eq_nil_of_length_eq_zero (Nat.le_zero.mp (hnone n hn e he))

/-! ## The condition -/

/-- What a description without formats is decoded to. -/
theorem Built.decodeSdp (h : Built s) {isplayback : Int} (timeRange : List UInt8)
    (hlive : isplayback ≠ 1) (hentry : s.entries ≠ []) (hfmtp : ∀ e ∈ s.entries, e.strFmtp = [])
    (hzero : ∀ e ∈ s.entries, 0 ∉ e.strRtpmap ∧ 0 ∉ e.strControl) :
    ∃ s', MediaSdp.decodeSdp MediaSdp.init (s.encodeSdp isplayback timeRange) = (.ok, s') ∧
      s'.videoInfoList = settled s.videoInfoList ∧ s'.audioInfoList = settled s.audioInfoList ∧
      s'.enTransDirect = .max := by
  obtain ⟨d, hrun, hret, hvideo, haudio, hdirect⟩ := runLines_body s hentry hfmtp
  have hclean := h.clean fun e he => ⟨(hzero e he).1, by simp [hfmtp e he], (hzero e he).2⟩
  refine ⟨d.sdp, decodeSdp_ok.mpr ⟨d, ?_, hret, rfl, ?_⟩, hvideo, haudio, hdirect⟩
  · rw [h.encodeSdp, if_neg hlive, List.nil_append, ← endLines_append,
      ← List.append_nil (endLines _), runLines_endLines hclean [] rfl, List.append_assoc,
      runLines_headLines]
    simpa [cLines] using hrun
  · rw [entries, hvideo, haudio]
    intro hnil
    obtain ⟨hv, ha⟩ := List.append_eq_nil_iff.mp hnil
    have hsettled : ∀ infos, settled infos = [] → infos = [] := by
      intro infos hinfos
      cases infos with
      | nil => rfl
      | cons info infos => cases hinfos
    exact hentry (by rw [entries, hsettled _ hv, hsettled _ ha]; rfl)

theorem length_settled (infos : List SdpMediaInfo) : (settled infos).length ≤ 1 := by
  cases infos <;> simp [settled]

/-- One entry without a format settles to itself. -/
theorem settled_values {infos : List SdpMediaInfo} (hlength : infos.length ≤ 1)
    (hfmtp : ∀ e ∈ infos, e.strFmtp = []) : (settled infos).map values = infos.map values := by
  cases infos with
  | nil => rfl
  | cons info infos =>
    obtain rfl : infos = [] := by
      simp only [List.length_cons] at hlength
      exact List.eq_nil_of_length_eq_zero (by omega)
    have hempty := hfmtp info List.mem_cons_self
    by_cases hcontrol : info.strControl = [] <;>
      simp [settled, settle, values, hempty, hcontrol]

/-- A built description is read as it was built exactly if it is a simple one. -/
theorem roundTrips_iff (s : MediaSdp) (hs : Built s) (isplayback : Int) (timeRange : List UInt8) :
    RoundTrips s isplayback timeRange ↔ Simple s isplayback := by
  constructor
  · intro hround
    have hfmtp := hs.no_fmtp hround
    obtain ⟨s', hdecode, hvideo, haudio, hdirect⟩ := hround
    have hlive := hs.live hdecode
    have hzero := forall_values (Q := fun v => 0 ∉ v.2.1 ∧ 0 ∉ v.2.2.1 ∧ 0 ∉ v.2.2.2) hvideo haudio
      (decodeSdp_no_zero hdecode)
    have hzero : ∀ e ∈ s.entries, 0 ∉ e.strRtpmap ∧ 0 ∉ e.strControl :=
      fun e he => ⟨(hzero e he).1, (hzero e he).2.2⟩
    obtain ⟨-, -, -, -, hentry'⟩ := decodeSdp_ok.mp hdecode
    have hentry : s.entries ≠ [] := by
      intro hnil
      obtain ⟨hv, ha⟩ := List.append_eq_nil_iff.mp hnil
      rw [hv, List.map_nil, List.map_eq_nil_iff] at hvideo
      rw [ha, List.map_nil, List.map_eq_nil_iff] at haudio
      exact hentry' (by rw [entries, hvideo, haudio]; rfl)
    obtain ⟨s₁, hdecode₁, hvideo₁, haudio₁, hdirect₁⟩ :=
      hs.decodeSdp timeRange hlive hentry hfmtp hzero
    rw [hdecode] at hdecode₁
    obtain rfl := (Prod.mk.inj hdecode₁).2
    refine ⟨hlive, ?_, ?_, hentry, hfmtp, hzero, hdirect.symm.trans hdirect₁⟩
    · have hlength := congrArg List.length hvideo
      rw [hvideo₁, List.length_map, List.length_map] at hlength
      exact hlength ▸ length_settled _
    · have hlength := congrArg List.length haudio
      rw [haudio₁, List.length_map, List.length_map] at hlength
      exact hlength ▸ length_settled _
  · intro hsimple
    obtain ⟨s', hdecode, hvideo, haudio, hdirect⟩ := hs.decodeSdp timeRange
      hsimple.live hsimple.entry hsimple.fmtp hsimple.zero
    refine ⟨s', hdecode, ?_, ?_, hdirect.trans hsimple.direct.symm⟩
    · rw [hvideo]
      exact settled_values hsimple.video fun e he => hsimple.fmtp e (List.mem_append_left _ he)
    · rw [haudio]
      exact settled_values hsimple.audio fun e he => hsimple.fmtp e (List.mem_append_right _ he)

/-- One H.264 entry. -/
def oneVideo : MediaSdp := init.addVideoInfo ⟨98, 0, [], [], ascii "trackID=1"⟩

theorem built_oneVideo : Built oneVideo :=
  .addVideoInfo .init (by refine ⟨?_, ?_, ?_⟩ <;> exact forall_mem_of_all (by decide))

theorem roundTrips_oneVideo : RoundTrips oneVideo 0 [] :=
  (roundTrips_iff oneVideo built_oneVideo 0 []).mpr
    ⟨by decide, by decide, by decide, by simp [entries, oneVideo, addVideoInfo], by decide, by decide,
      rfl⟩

/-- With a direction it is not read as it was built. -/
theorem not_roundTrips_recvonly : ¬ RoundTrips (oneVideo.setTransDirect .recvonly) 0 [] := by
  rintro ⟨s', hdecode, -, -, hdirect⟩
  have hbuilt : Built (oneVideo.setTransDirect .recvonly) := built_oneVideo.setTransDirect .recvonly
  obtain ⟨s₁, hdecode₁, -, -, hdirect₁⟩ := hbuilt.decodeSdp [] (by decide : (0 : Int) ≠ 1)
    (by simp [entries, oneVideo, addVideoInfo, setTransDirect]) (by decide) (by decide)
  rw [hdecode] at hdecode₁
  obtain rfl := (Prod.mk.inj hdecode₁).2
  rw [hdirect₁] at hdirect
  cases hdirect

end AllCamera.MediaSdp
