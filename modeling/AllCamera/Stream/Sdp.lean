import AllCamera.Stream.Decimal

/-!
# Session descriptions (`CMediaSdp`)

* `MediaSdp`: the description, with its lists of video and audio entries. `addVideoInfo`,
  `addAudioInfo`, `setTransDirect`: what a caller puts in.
* `encodeSdp`: the text. The entries of one kind share an `m=` line, and have their own attributes.
* `decodeSdp`: reads a text line by line, with `parseMediaDesc` and `parseAttributes`. A line ends at
  `\r`, at `\n`, or at a zero.
-/

namespace AllCamera

/-- `SDP_MEDIA_INFO`. -/
structure SdpMediaInfo where
  ucPayloadType : UInt8
  usPort : UInt16
  strRtpmap : List UInt8
  strFmtp : List UInt8
  strControl : List UInt8

/-- `TRANS_DIRECTION`. -/
inductive TransDirection where
  | recvonly | sendonly | sendrecv | max
  deriving DecidableEq

/-- `_enSDP_STATUS`. -/
inductive SdpStatus where
  | globalInfo | videoInfo | audioInfo

/-- A list of entries. -/
inductive SdpMedia where
  | video | audio

/-- `RET_OK`, `RET_FAIL`. -/
inductive SdpRet where
  | ok | fail
  deriving DecidableEq

/-- `CMediaSdp`. -/
structure MediaSdp where
  unSession : UInt32
  strOwner : List UInt8
  strSessionName : List UInt8
  strUrl : List UInt8
  strConnAddr : List UInt8
  range : List UInt8
  strSsrc : List UInt8
  bSetFormat : Bool
  str28181Format : List UInt8
  enTransDirect : TransDirection
  videoInfoList : List SdpMediaInfo
  audioInfoList : List SdpMediaInfo
  enParseStatus : SdpStatus

namespace MediaSdp

/-- The constructor. -/
def init : MediaSdp where
  unSession := 0
  strOwner := ascii "vds"
  strSessionName := ascii "allcamera media server"
  strUrl := []
  strConnAddr := ascii "vds.allcam.com.cn"
  range := []
  strSsrc := []
  bSetFormat := false
  str28181Format := []
  enTransDirect := .max
  videoInfoList := []
  audioInfoList := []
  enParseStatus := .globalInfo

/-! ## Building -/

/-- The `rtpmap` of a video entry that has none. -/
def videoRtpmap (ucPayloadType : UInt8) : List UInt8 :=
  if ucPayloadType = 26 then ascii "JPEG/90000"
  else if ucPayloadType = 96 then ascii "PS/90000"
  else if ucPayloadType = 97 then ascii "MP4V-ES/90000"
  else if ucPayloadType = 98 then ascii "H264/90000"
  else if ucPayloadType = 99 then ascii "H265/90000"
  else ascii "H264/90000"

/-- The `rtpmap` of an audio entry that has none. -/
def audioRtpmap (ucPayloadType : UInt8) : List UInt8 :=
  if ucPayloadType = 0 then ascii "PCMU/8000"
  else if ucPayloadType = 8 then ascii "PCMA/8000"
  else []

/-- The entry with a default for an empty `rtpmap`. -/
def withRtpmap (rtpmap : UInt8 → List UInt8) (info : SdpMediaInfo) : SdpMediaInfo :=
  if info.strRtpmap = [] then { info with strRtpmap := rtpmap info.ucPayloadType } else info

/-- `addVideoInfo`. -/
def addVideoInfo (s : MediaSdp) (info : SdpMediaInfo) : MediaSdp :=
  { s with videoInfoList := s.videoInfoList ++ [withRtpmap videoRtpmap info] }

/-- `addAudioInfo`. -/
def addAudioInfo (s : MediaSdp) (info : SdpMediaInfo) : MediaSdp :=
  { s with audioInfoList := s.audioInfoList ++ [withRtpmap audioRtpmap info] }

/-- `setTransDirect`. -/
def setTransDirect (s : MediaSdp) (enTransDirect : TransDirection) : MediaSdp :=
  { s with enTransDirect := enTransDirect }

/-! ## Encoding -/

/-- The attributes of an entry. -/
def encodeMediaInfo (s : MediaSdp) (info : SdpMediaInfo) : List UInt8 :=
  (if info.strFmtp ≠ [] then info.strFmtp ++ rtspEndLine
    else ascii "a=rtpmap:" ++ decimal info.ucPayloadType.toNat ++ ascii " " ++ info.strRtpmap ++
      rtspEndLine) ++
    if info.strControl ≠ [] then ascii "a=control:" ++ info.strControl ++ rtspEndLine
    else if s.strUrl ≠ [] then ascii "a=control:" ++ s.strUrl ++ rtspEndLine
    else []

/-- `encodeMediaDesc`: nothing for no entries, which is the caller's check. -/
def encodeMediaDesc (s : MediaSdp) (unStatus : SdpMedia) : List UInt8 :=
  let mediaInfoList := match unStatus with
    | .video => s.videoInfoList
    | .audio => s.audioInfoList
  match mediaInfoList with
  | [] => []
  | info :: _ =>
    (match unStatus with
      | .video => ascii "m=video "
      | .audio => ascii "m=audio ") ++
      decimal info.usPort.toNat ++ ascii " " ++ ascii "RTP" ++ ascii "/" ++ ascii "AVP" ++
      mediaInfoList.flatMap (fun info => ascii " " ++ decimal info.ucPayloadType.toNat) ++
      rtspEndLine ++ mediaInfoList.flatMap s.encodeMediaInfo

/-- The line of the direction. -/
def encodeTransDirect : TransDirection → List UInt8
  | .recvonly => ascii "a=" ++ ascii "recvonly" ++ rtspEndLine
  | .sendonly => ascii "a=" ++ ascii "sendonly" ++ rtspEndLine
  | .sendrecv => ascii "a=" ++ ascii "sendrecv" ++ rtspEndLine
  | .max => []

/-- `encodeSdp`. -/
def encodeSdp (s : MediaSdp) (isplayback : Int) (timeRange : List UInt8) : List UInt8 :=
  ascii "v=0" ++ rtspEndLine ++
    ascii "o=" ++ s.strOwner ++ ascii " " ++ decimal s.unSession.toNat ++ ascii " 0 IN IP4 " ++
    (if s.strConnAddr ≠ [] then s.strConnAddr else ascii "vds.allcam.com") ++ rtspEndLine ++
    ascii "s=" ++ s.strSessionName ++ rtspEndLine ++
    (if s.strConnAddr ≠ [] then ascii "c=" ++ ascii "IN IP4 " ++ s.strConnAddr ++ rtspEndLine
      else []) ++
    ascii "t=0 0" ++ rtspEndLine ++
    (if isplayback = 1 then ascii "a=" ++ s.range ++ rtspEndLine ++ ascii "a=length:" ++ timeRange ++
      rtspEndLine else []) ++
    s.encodeMediaDesc .video ++ s.encodeMediaDesc .audio ++ encodeTransDirect s.enTransDirect ++
    (if s.strSsrc ≠ [] then ascii "y=" ++ s.strSsrc ++ rtspEndLine else []) ++
    if s.bSetFormat then ascii "f=" ++ s.str28181Format ++ rtspEndLine else []

/-! ## Decoding -/

/-- `getNextLine`: the line from `nNextStart` on and where the next one begins; nothing if the text
ends before the line does. -/
def getNextLine (strSdpMsg : List UInt8) (nNextStart : Nat) : Option (List UInt8 × Nat) :=
  let strBuff := (strSdpMsg.drop nNextStart).takeWhile fun c => c ≠ 0 ∧ c ≠ 10 ∧ c ≠ 13
  if strSdpMsg.length = nNextStart + strBuff.length then none
  else some (strBuff, nNextStart + strBuff.length + 1)

/-- `JUMP_SPACE`. -/
def jumpSpace (psz : List UInt8) : List UInt8 := psz.dropWhile isSpace

/-- `strsep`, at a blank: the text in front of it, and the text behind if there is one. -/
def strsep (psz : List UInt8) : List UInt8 × Option (List UInt8) :=
  match find [32] psz with
  | none => (psz, none)
  | some i => (psz.take i, some (psz.drop (i + 1)))

/-- The text behind the next blank. -/
def nextField (psz : List UInt8) : Option (List UInt8) := (strsep psz).2

/-- What `decodeSdp` works on. `pMediaInfo` is the last entry of one of the lists. -/
structure Decoding where
  sdp : MediaSdp
  pMediaInfo : Option SdpMedia
  nRet : SdpRet
  bFirst : Bool

/-- `parseConnDesc`. -/
def parseConnDesc (pszBuff : List UInt8) (s : MediaSdp) : SdpRet × MediaSdp :=
  match nextField pszBuff with
  | none => (.fail, s)
  | some pszBuff =>
    match nextField (jumpSpace pszBuff) with
    | none => (.fail, s)
    | some pszBuff => (.ok, { s with strConnAddr := jumpSpace pszBuff })

/-- `parseMediaDesc`, with what becomes of `pMediaInfo`. -/
def parseMediaDesc (pszBuff : List UInt8) (s : MediaSdp) (pMediaInfo : Option SdpMedia) :
    SdpRet × MediaSdp × Option SdpMedia :=
  let cType := lower (pszBuff.headD 0)
  if cType ≠ 118 ∧ cType ≠ 97 then (.ok, { s with enParseStatus := .globalInfo }, pMediaInfo)
  else
    match nextField pszBuff with
    | none => (.fail, s, pMediaInfo)
    | some pszBuff =>
      match nextField (jumpSpace pszBuff) with
      | none => (.fail, s, pMediaInfo)
      | some pszBuff =>
        match nextField (jumpSpace pszBuff) with
        | none => (.fail, s, pMediaInfo)
        | some pszBuff =>
          if jumpSpace pszBuff = [] then (.fail, s, pMediaInfo)
          else
            let stMediaInfo : SdpMediaInfo := {
              ucPayloadType := (atoi (jumpSpace pszBuff)).toUInt8
              usPort := 0
              strRtpmap := []
              strFmtp := []
              strControl := [] }
            if cType = 118 then
              (.ok, { s with
                enParseStatus := .videoInfo, videoInfoList := s.videoInfoList ++ [stMediaInfo] },
                some .video)
            else
              (.ok, { s with
                enParseStatus := .audioInfo, audioInfoList := s.audioInfoList ++ [stMediaInfo] },
                some .audio)

/-- The entry that `pMediaInfo` points to is changed. -/
def modifyMedia (s : MediaSdp) (f : SdpMediaInfo → SdpMediaInfo) : SdpMedia → MediaSdp
  | .video => { s with videoInfoList := s.videoInfoList.modify (s.videoInfoList.length - 1) f }
  | .audio => { s with audioInfoList := s.audioInfoList.modify (s.audioInfoList.length - 1) f }

def strSdpRtpmap : List UInt8 := ascii "rtpmap:"
def strSdpFmtp : List UInt8 := ascii "fmtp:"
def strSdpControlAttr : List UInt8 := ascii "control:"
def strSdpRecvonlyAttr : List UInt8 := ascii "recvonly"
def strSdpSendonlyAttr : List UInt8 := ascii "sendonly"
def strSdpSendrecvAttr : List UInt8 := ascii "sendrecv"

/-- An attribute with its name, and more behind it. -/
def hasAttr (name pszBuff : List UInt8) : Bool :=
  name.length < pszBuff.length ∧ name.isPrefixOf pszBuff

/-- `parseAttributes`. -/
def parseAttributes (pszBuff : List UInt8) (s : MediaSdp) (pMediaInfo : Option SdpMedia) :
    SdpRet × MediaSdp :=
  match pMediaInfo with
  | none => (.fail, s)
  | some media =>
    match s.enParseStatus with
    | .globalInfo =>
      if hasAttr strSdpControlAttr pszBuff then
        (.ok, { s with strUrl := pszBuff.drop strSdpControlAttr.length })
      else (.ok, s)
    | _ =>
      if hasAttr strSdpRtpmap pszBuff then
        match nextField pszBuff with
        | none => (.fail, s)
        | some pszBuff => (.ok, s.modifyMedia (fun info => { info with strRtpmap := pszBuff }) media)
      else if hasAttr strSdpFmtp pszBuff then
        match nextField pszBuff with
        | none => (.fail, s)
        | some pszBuff => (.ok, s.modifyMedia (fun info => { info with strFmtp := pszBuff }) media)
      else if hasAttr strSdpControlAttr pszBuff then
        (.ok, s.modifyMedia
          (fun info => { info with strControl := pszBuff.drop strSdpControlAttr.length }) media)
      else if (ascii "range").isPrefixOf pszBuff then (.ok, { s with range := pszBuff })
      else if strSdpRecvonlyAttr.length < pszBuff.length then
        if strSdpRecvonlyAttr.isPrefixOf pszBuff then (.ok, { s with enTransDirect := .recvonly })
        else if strSdpSendonlyAttr.isPrefixOf pszBuff then
          (.ok, { s with enTransDirect := .sendonly })
        else if strSdpSendrecvAttr.isPrefixOf pszBuff then
          (.ok, { s with enTransDirect := .sendrecv })
        else (.ok, s)
      else (.ok, s)

/-- The statement of one line, by its letter. -/
def decodeStatement (cCode : UInt8) (pszTmp : List UInt8) (d : Decoding) : Decoding :=
  let d := { d with bFirst := false }
  if cCode = 115 then { d with sdp := { d.sdp with strSessionName := pszTmp } }
  else if cCode = 99 then
    let (nRet, sdp) := parseConnDesc pszTmp d.sdp
    { d with nRet := nRet, sdp := sdp }
  else if cCode = 109 then
    let (nRet, sdp, pMediaInfo) := parseMediaDesc pszTmp d.sdp d.pMediaInfo
    { d with nRet := nRet, sdp := sdp, pMediaInfo := pMediaInfo }
  else if cCode = 97 then
    let (nRet, sdp) := parseAttributes pszTmp d.sdp d.pMediaInfo
    { d with nRet := nRet, sdp := sdp }
  else if cCode = 117 then { d with sdp := { d.sdp with strUrl := pszTmp } }
  else d

/-- One line; an error is a return out of the loop. -/
def decodeLine (strBuff : List UInt8) (d : Decoding) : Except MediaSdp Decoding :=
  match jumpSpace strBuff with
  | [] => .ok d
  | cCode :: pszTmp =>
    match jumpSpace pszTmp with
    | 61 :: pszTmp =>
      if lower cCode ≠ 118 ∧ d.bFirst then .error d.sdp
      else .ok (decodeStatement (lower cCode) (jumpSpace pszTmp) d)
    | _ => .error d.sdp

/-- The loop over the lines, `fuel` turns at most. -/
def decodeLines : Nat → List UInt8 → Nat → Decoding → Except MediaSdp Decoding
  | 0, _, _, d => .ok d
  | fuel + 1, strSdp, nNextStart, d =>
    match getNextLine strSdp nNextStart with
    | none => .ok d
    | some (strBuff, nNextStart) =>
      match decodeLine strBuff d with
      | .error sdp => .error sdp
      | .ok d => if d.nRet = .ok then decodeLines fuel strSdp nNextStart d else .ok d

/-- `decodeSdp`: what it returns, and what becomes of the description. -/
def decodeSdp (s : MediaSdp) (strSdp : List UInt8) : SdpRet × MediaSdp :=
  if strSdp = [] then (.fail, s)
  else
    match decodeLines (strSdp.length + 1) strSdp 0 ⟨s, none, .ok, true⟩ with
    | .error sdp => (.fail, sdp)
    | .ok d =>
      if d.sdp.videoInfoList = [] ∧ d.sdp.audioInfoList = [] then (.fail, d.sdp)
      else (d.nRet, d.sdp)

end MediaSdp

end AllCamera
