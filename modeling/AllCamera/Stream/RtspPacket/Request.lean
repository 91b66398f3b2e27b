import AllCamera.Stream.Decimal

/-!
# RTSP requests as text (`CRtspPacket`)

* `RtspPacket`: the packet. `CLib`: the functions of the C library that it uses for numbers with a
  fraction and for addresses.
* `generateRtspReq`: the text of a request.
* `parse`: reads a text line by line into a packet, with `parseRtspMethodLine`,
  `parseRtspHeaderIndex`, `parseRtspHeaderValue` and `parseNatInfo`. Its result is `.ok` for a
  return of 0 and `.error` for a return of -1, each with the packet as it was left.
-/

namespace AllCamera

/-- `RTSP_VERSION`. -/
def rtspVersion : List UInt8 := ascii "RTSP/1.0"

/-- `RTSP_USER_AGENT`. -/
def rtspUserAgent : List UInt8 := ascii "AllCam adapter/v1.0.0.0"

/-- `RTSP_MAX_URL_LENGTH`. -/
def rtspMaxUrlLength : Nat := 512

/-- `RtspSetParameterMethod`. -/
def rtspSetParameterMethod : Nat := 8

/-- `RtspResponseMethod`: the methods in front of it are those of requests. -/
def rtspResponseMethod : Nat := 11

/-- `RtspIllegalMethod`. -/
def rtspIllegalMethod : Nat := 12

/-- `_enRtspHeaders`. -/
inductive RtspHeader where
  | cseq | userAgent | session | range | scale | speed | contentLength | transPort | rtpInfo
  | contentType | xNatInfo | xPlayInfo | xPlayCtrl
  deriving DecidableEq

/-- The headers in their order. -/
def RtspHeader.all : List RtspHeader :=
  [.cseq, .userAgent, .session, .range, .scale, .speed, .contentLength, .transPort, .rtpInfo,
    .contentType, .xNatInfo, .xPlayInfo, .xPlayCtrl]

/-- `m_strRtspHeaders`. Two names stand in the places of each other. -/
def RtspHeader.name : RtspHeader → List UInt8
  | .cseq => ascii "CSeq"
  | .userAgent => ascii "User-Agent"
  | .session => ascii "Session"
  | .range => ascii "Range"
  | .scale => ascii "Scale"
  | .speed => ascii "Speed"
  | .contentLength => ascii "Content-Length"
  | .transPort => ascii "Transport"
  | .rtpInfo => ascii "Content-Type"
  | .contentType => ascii "RTP-Info"
  | .xNatInfo => ascii "x-NAT-Info"
  | .xPlayInfo => ascii "X-PLAYINFO"
  | .xPlayCtrl => ascii "X-PLAYCTRL"

/-- `m_strRtspStatusCode`, without the text for an unknown one. -/
def rtspStatusCodes : List (List UInt8) :=
  [ascii "200 OK", ascii "300 Multiple Choices", ascii "400 Bad Request", ascii "401 Unauthorized",
    ascii "404 Not Found", ascii "406 Not Acceptable", ascii "500 Internal Server Error"]

/-- `RTSP_STATUS_CODE_LENGTH`. -/
def rtspStatusCodeLength : Nat := 3

/-- `RTSP_NAT_TYPE`. -/
inductive RtspNatType where
  | rtp | rtcp | invalid
  deriving DecidableEq

/-- `RTSP_NAT_INFO`. -/
structure RtspNatInfo where
  natType : RtspNatType
  localIp : UInt32
  localPort : UInt16
  srcIp : UInt32
  srcPort : UInt16

/-- Functions of the C library. A `double` is given by its bits. -/
structure CLib where
  /-- `printf` with `%6.6f`. -/
  printDouble : UInt64 → List UInt8
  atof : List UInt8 → UInt64
  /-- `ntohl` of what `inet_addr` returns. -/
  inetAddr : List UInt8 → UInt32

/-- `CRtspPacket`. `rtspUrl` is the text in the array `RtspUrl`, which is filled up with zeros. -/
structure RtspPacket where
  methodIndex : Nat
  rtspUrl : List UInt8
  sessionID : UInt64
  cseq : UInt32
  statusCodeIndex : Nat
  ulContenLength : UInt32
  strContentType : List UInt8
  strContent : List UInt8
  strRange : List UInt8
  dSpeed : UInt64
  dScale : UInt64
  strXPlayCtrl : List UInt8
  strXPlayInfo : List UInt8
  natInfo : RtspNatInfo
  strRtpInfo : List UInt8
  strTransPort : List UInt8

/-- A `double` is 0, with either sign. -/
def isZeroDouble (d : UInt64) : Bool := d = 0 ∨ d = 0x8000000000000000

/-- `inet_ntoa` of `htonl`. -/
def inetNtoa (ip : UInt32) : List UInt8 :=
  decimal (ip.toNat / 2 ^ 24) ++ ascii "." ++ decimal (ip.toNat / 2 ^ 16 % 256) ++ ascii "." ++
    decimal (ip.toNat / 2 ^ 8 % 256) ++ ascii "." ++ decimal (ip.toNat % 256)

namespace RtspPacket

/-- The constructor. -/
def init : RtspPacket where
  methodIndex := rtspIllegalMethod
  rtspUrl := []
  sessionID := 0
  cseq := 0
  statusCodeIndex := rtspStatusCodes.length
  ulContenLength := 0
  strContentType := []
  strContent := []
  strRange := []
  dSpeed := 0
  dScale := 0
  strXPlayCtrl := []
  strXPlayInfo := []
  natInfo := ⟨.invalid, 0, 0, 0, 0⟩
  strRtpInfo := []
  strTransPort := []

/-- `hasNetInfo`. -/
def hasNetInfo (p : RtspPacket) : Bool := p.natInfo.natType ≠ .invalid

/-! ## Generating -/

/-- `uint64ToStr`: printed as a `long long`. -/
def uint64ToStr (num : UInt64) : List UInt8 := printD num.toInt64.toInt

/-- `uint32ToStr`. -/
def uint32ToStr (num : UInt32) : List UInt8 := decimal num.toNat

/-- `double2Str`: into a buffer of 16 bytes. -/
def double2Str (lib : CLib) (num : UInt64) : List UInt8 := (lib.printDouble num).take 15

/-- A header with its value. -/
def headerLine (header : RtspHeader) (value : List UInt8) : List UInt8 :=
  header.name ++ ascii ":" ++ value ++ rtspEndLine

/-- `generateCommonHeader`. -/
def generateCommonHeader (p : RtspPacket) : List UInt8 :=
  headerLine .session (uint64ToStr p.sessionID) ++ headerLine .cseq (uint32ToStr p.cseq) ++
    (if p.strRange ≠ [] then headerLine .range p.strRange else []) ++
    headerLine .userAgent rtspUserAgent

/-- `generateAcceptedHeader`. -/
def generateAcceptedHeader (lib : CLib) (p : RtspPacket) : List UInt8 :=
  (if isZeroDouble p.dSpeed then [] else headerLine .speed (double2Str lib p.dSpeed)) ++
    if isZeroDouble p.dScale then [] else headerLine .scale (double2Str lib p.dScale)

/-- `generateNatInfo`. The text always fits into its buffer. -/
def generateNatInfo (p : RtspPacket) : List UInt8 :=
  if p.natInfo.natType ≠ .invalid then
    (if p.natInfo.natType = .rtp then ascii "x-NAT-Info:type=RTP;"
      else ascii "x-NAT-Info:type=RTCP;") ++
      ascii "local_addr=" ++ inetNtoa p.natInfo.localIp ++ ascii ";local_port=" ++
      decimal p.natInfo.localPort.toNat ++ ascii ";" ++
      (if p.natInfo.srcIp ≠ 0 ∧ p.natInfo.srcPort ≠ 0 then
        ascii "src_addr=" ++ inetNtoa p.natInfo.srcIp ++ ascii ";src_port=" ++
          decimal p.natInfo.srcPort.toNat
      else []) ++
      rtspEndLine
  else []

/-- `generateRtspReq`: the request, or nothing if it returns -1. -/
def generateRtspReq (lib : CLib) (p : RtspPacket) : Option (List UInt8) :=
  if rtspIllegalMethod ≤ p.methodIndex then none
  else some (
    rtspMethods.getD p.methodIndex [] ++ ascii " " ++ p.rtspUrl ++ ascii " " ++ rtspVersion ++
      rtspEndLine ++
    p.generateCommonHeader ++ p.generateAcceptedHeader lib ++ p.generateNatInfo ++
    (if p.methodIndex = rtspSetParameterMethod ∧ p.strXPlayCtrl ≠ [] then
      headerLine .xPlayCtrl p.strXPlayCtrl else []) ++
    (if p.methodIndex = rtspSetParameterMethod ∧ p.strXPlayInfo ≠ [] then
      headerLine .xPlayInfo p.strXPlayInfo else []) ++
    rtspEndLine)

/-! ## Parsing -/

/-- `readRtspLine` at a pointer: the line, and the length with the line's end. `strstr` does not look
behind a zero. -/
def readRtspLine (pszMsg : List UInt8) : Option (List UInt8 × Nat) :=
  (find rtspEndLine (pszMsg.takeWhile (· ≠ 0))).map fun nLength =>
    (pszMsg.take nLength, nLength + rtspEndLine.length)

/-- The loop over the methods: the index of the first one at the front. -/
def findMethod (strLine : List UInt8) : Nat :=
  ((List.range rtspIllegalMethod).find? fun nMethodsIndex =>
    (rtspMethods.getD nMethodsIndex []).isPrefixOf strLine).getD rtspIllegalMethod

/-- The loop over the status codes. -/
def findStatus (strLeast : List UInt8) : Nat :=
  rtspStatusCodes.findIdx fun status =>
    status.take rtspStatusCodeLength = strLeast.take rtspStatusCodeLength

/-- `parseRtspMethodLine`. -/
def parseRtspMethodLine (p : RtspPacket) (strLine : List UInt8) : Except RtspPacket RtspPacket :=
  let nMethodsIndex := findMethod strLine
  let name := rtspMethods.getD nMethodsIndex []
  let p := { p with methodIndex := nMethodsIndex }
  if nMethodsIndex = rtspIllegalMethod then .error p
  else if strLine.length ≤ name.length + 1 then .error p
  else
    let strLeast := trimString (strLine.drop (name.length + 1))
    if nMethodsIndex = rtspResponseMethod then
      .ok { p with statusCodeIndex := findStatus strLeast }
    else
      match find rtspVersion strLeast with
      | none => .error p
      | some nPos =>
        let strUrl := trimString (strLeast.take nPos)
        if strUrl.length > rtspMaxUrlLength then .error p
        -- `memcpy` to the front of the array
        else .ok { p with rtspUrl := strUrl ++ p.rtspUrl.drop strUrl.length }

/-- `parseRtspHeaderIndex`: the first header whose name is at the front, in any spelling; nothing for
`RtspNotAcceptedHeader`. -/
def parseRtspHeaderIndex (strLine : List UInt8) : Option RtspHeader :=
  RtspHeader.all.find? fun header => (header.name.map lower).isPrefixOf (strLine.map lower)

/-- What one part `key=value` of the NAT information sets. -/
def setNatInfo (lib : CLib) (strKey strValue : List UInt8) (info : RtspNatInfo) :
    Except RtspNatInfo RtspNatInfo :=
  if strKey.map lower = ascii "type" then
    if strValue.map lower = ascii "rtp" then .ok { info with natType := .rtp }
    else if strValue.map lower = ascii "rtcp" then .ok { info with natType := .rtcp }
    else .error info
  else if strKey.map lower = ascii "local_addr" then
    let info := { info with localIp := lib.inetAddr strValue }
    if info.localIp = 0 then .error info else .ok info
  else if strKey.map lower = ascii "local_port" then
    let info := { info with localPort := (atoi strValue).toUInt16 }
    if info.localPort = 0 then .error info else .ok info
  else if strKey.map lower = ascii "src_addr" then
    let info := { info with srcIp := lib.inetAddr strValue }
    if info.srcIp = 0 then .error info else .ok info
  else if strKey.map lower = ascii "src_port" then
    let info := { info with srcPort := (atoi strValue).toUInt16 }
    if info.srcPort = 0 then .error info else .ok info
  else .error info

/-- The loop of `parseNatInfo` over the parts, `fuel` turns at most. -/
def parseNatParts (lib : CLib) : Nat → List UInt8 → RtspNatInfo → Except RtspNatInfo RtspNatInfo
  | 0, _, info => .error info
  | fuel + 1, strNatInfo, info =>
    match find [59] strNatInfo with
    | none => .ok info
    | some nPos =>
      let strLine := strNatInfo.take nPos
      match find [61] strLine with
      | none => .error info
      | some nEqual => do
        let info ← setNatInfo lib (trimString (strLine.take nEqual))
          (trimString (strLine.drop (nEqual + 1))) info
        parseNatParts lib fuel (strNatInfo.drop (nPos + 1)) info

/-- `parseNatInfo` of a text that is not empty. -/
def parseNatInfo (lib : CLib) (strNatInfo : List UInt8) (info : RtspNatInfo) :
    Except RtspNatInfo RtspNatInfo :=
  let strNatInfo := if strNatInfo.getLast? ≠ some 59 then strNatInfo ++ [59] else strNatInfo
  parseNatParts lib (strNatInfo.length + 1) strNatInfo info

/-- The `switch` of `parseRtspHeaderValue`. -/
def setHeaderValue (lib : CLib) (p : RtspPacket) (header : RtspHeader) (strValue : List UInt8) :
    Except RtspPacket RtspPacket :=
  match header with
  | .cseq => .ok { p with cseq := (strtoull strValue).toUInt32 }
  | .session => .ok { p with sessionID := strtoull strValue }
  | .xNatInfo =>
    if strValue = [] then .error p
    else
      match parseNatInfo lib strValue p.natInfo with
      | .error info => .error { p with natInfo := info }
      | .ok info => .ok { p with natInfo := info }
  | .range => .ok { p with strRange := strValue }
  | .speed => .ok { p with dSpeed := lib.atof strValue }
  | .scale => .ok { p with dScale := lib.atof strValue }
  | .contentLength => .ok { p with ulContenLength := atoi strValue }
  | .contentType => if strValue = [] then .error p else .ok { p with strContentType := strValue }
  | .transPort => if strValue = [] then .error p else .ok { p with strTransPort := strValue }
  | .rtpInfo => if strValue = [] then .error p else .ok { p with strRtpInfo := strValue }
  | .xPlayInfo => .ok { p with strXPlayInfo := strValue }
  | .userAgent | .xPlayCtrl => .ok p

/-- `parseRtspHeaderValue`. -/
def parseRtspHeaderValue (lib : CLib) (p : RtspPacket) (header : RtspHeader) (strLine : List UInt8) :
    Except RtspPacket RtspPacket :=
  let strValue := strLine.drop header.name.length
  match find [58] strValue with
  | none => .error p
  | some nPos => setHeaderValue lib p header (trimString (strValue.drop (nPos + 1)))

/-- One line of the loop: a header that is not accepted is passed over. -/
def parseRtspHeader (lib : CLib) (p : RtspPacket) (strLine : List UInt8) :
    Except RtspPacket RtspPacket :=
  match parseRtspHeaderIndex strLine with
  | none => .ok p
  | some header => parseRtspHeaderValue lib p header strLine

/-- The loop of `parse` from `nOffset` on, `fuel` turns at most. -/
def parseRtspHeaders (lib : CLib) (pszRtsp : List UInt8) (unRtspSize : Nat) :
    Nat → Nat → RtspPacket → Except RtspPacket RtspPacket
  | 0, _, p => .error p
  | fuel + 1, nOffset, p =>
    if nOffset < unRtspSize then
      match readRtspLine (pszRtsp.drop nOffset) with
      | none => .error p
      | some (strLine, nReadSize) =>
        if strLine = [] then .ok p
        else do
          let p ← parseRtspHeader lib p strLine
          parseRtspHeaders lib pszRtsp unRtspSize fuel (nOffset + nReadSize) p
    else .ok p

/-- `parse`. `pszRtsp` are the bytes at the pointer, with those behind the first `unRtspSize`; there is
a zero behind them. -/
def parse (lib : CLib) (p : RtspPacket) (pszRtsp : List UInt8) (unRtspSize : Nat) :
    Except RtspPacket RtspPacket :=
  if unRtspSize = 0 then .error p
  else
    match readRtspLine pszRtsp with
    | none => .error p
    | some (strLine, nReadSize) => do
      let p ← p.parseRtspMethodLine strLine
      let p ← parseRtspHeaders lib pszRtsp unRtspSize (unRtspSize + 1) nReadSize p
      if p.ulContenLength ≠ 0 then
        let strRtspMsg := pszRtsp.take unRtspSize
        match find rtspEndMsg strRtspMsg with
        | none => .error p
        | some endPos => .ok { p with strContent := strRtspMsg.drop (endPos + rtspEndMsg.length) }
      else .ok p

end RtspPacket

end AllCamera
