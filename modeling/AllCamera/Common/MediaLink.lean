import AllCamera.Stream.Decimal

/-!
# Signed media URLs (`CSVSMediaLinkFactory`)

A media URL names a server, a content and arguments. The part behind the server, up to the argument
`encrypt=`, is signed: its digest is taken over it and a secret mask.

* `MediaLink`: what a URL says. `makeMediaUrl`: the URL of a link.
* `parseMediaUrl`: the link of a URL, with `splitUrl` and `checkHoturi` for the signature. The
  exception of `substr` is `none`.
-/

namespace AllCamera.MediaLink

/-- `PLAY_URL_TYPE`. -/
inductive PlayUrlType where
  | default | rtsp | hls | rtmp | max
  deriving DecidableEq

/-- `PLAY_TYPE`. -/
inductive PlayType where
  | live | platRecord | frontRecord | max
  deriving DecidableEq

/-- `DEV_STREAM_TYPE`. -/
inductive DevStreamType where
  | main | sub | max
  deriving DecidableEq

/-- `SVS_DEV_TYPE`. -/
inductive SvsDevType where
  | gb28181 | vms | ehome | max
  deriving DecidableEq

def DevStreamType.toNat : DevStreamType → Nat
  | main => 0
  | sub => 1
  | max => 2

def SvsDevType.toNat : SvsDevType → Nat
  | gb28181 => 1
  | vms => 2
  | ehome => 3
  | max => 4

/-- `SVS_MEDIA_LINK_RESULT`. -/
inductive LinkResult where
  | fail | success | authFail
  deriving DecidableEq

/-! ## The parts of a URL -/

def keyName : List UInt8 := ascii "key="
def timeStamp : List UInt8 := ascii "timestamp="
def timeOut : List UInt8 := ascii "timeout="
def strTime : List UInt8 := ascii "30"
def strEncrypt : List UInt8 := ascii "encrypt="
def strStreamtype : List UInt8 := ascii "streamtype="
def strStarttime : List UInt8 := ascii "starttime="
def strEndtime : List UInt8 := ascii "endtime="
def strDevtype : List UInt8 := ascii "devtype="
def strSplitchar : List UInt8 := ascii "&"
def strArgBegin : List UInt8 := ascii "?"
def strSplitDir : List UInt8 := ascii "/"
def strArgNo : List UInt8 := ascii "no"
def strArgEq : List UInt8 := ascii "="
def strProtocolEnd : List UInt8 := ascii "://"
def strPort : List UInt8 := ascii ":"

def urlPrefixRtsp : List UInt8 := ascii "rtsp://"
def urlPrefixHls : List UInt8 := ascii "http://"
def urlPrefixRtmp : List UInt8 := ascii "rtmp://"

def strLiveTag : List UInt8 := ascii "live"
def strPlatTag : List UInt8 := ascii "plat_vod"
def strFrontTag : List UInt8 := ascii "front_vod"

/-- `TIME_LEN`. -/
def timeLen : Nat := 15

/-! ## Times -/

/-- `struct tm`. -/
structure Tm where
  year : Int
  mon : Int
  mday : Int
  hour : Int
  min : Int
  sec : Int

/-- `CSVSMediaLinkFactory`: the mask, and the functions of the system. -/
structure Factory where
  mask : List UInt8
  md5 : List UInt8 → Fin 16 → UInt8
  localtime : Int → Tm
  mktime : Tm → Int

/-- What a call finds of the system: `time(NULL)`, and the bytes behind the timestamp's text. -/
structure Moment where
  now : Int
  beyond : Nat → UInt8

/-- The memory at `c_str()`. -/
def cStr (s : List UInt8) (beyond : Nat → UInt8) (i : Nat) : UInt8 :=
  if i < s.length then s.getD i 0 else if i = s.length then 0 else beyond i

/-- The fields that `str2time` copies: their offsets and lengths. -/
def str2timeFields : List (Nat × Nat) := [(0, 4), (4, 2), (6, 2), (8, 2), (10, 2), (12, 2)]

/-- A copied field as an `int`. -/
def timeField (pStr : Nat → UInt8) (i : Nat) : Int :=
  let (off, len) := str2timeFields.getD i (0, 0)
  (atoi ((List.range len).map fun j => pStr (off + j))).toInt32.toInt

/-- `SVS_SS_UTILITIES::str2time`. -/
def str2time (f : Factory) (pStr : Nat → UInt8) : Int :=
  f.mktime {
    year := timeField pStr 0 - 1900
    mon := timeField pStr 1 - 1
    mday := timeField pStr 2
    hour := timeField pStr 3
    min := timeField pStr 4
    sec := timeField pStr 5 }

/-- `SVS_SS_UTILITIES::time2str`, into a buffer for `timeLen` bytes. -/
def time2str (f : Factory) (t : Int) : List UInt8 :=
  let tmv := f.localtime t
  (printPadded 4 (tmv.year + 1900) ++ printPadded 2 (tmv.mon + 1) ++ printPadded 2 tmv.mday ++
    printPadded 2 tmv.hour ++ printPadded 2 tmv.min ++ printPadded 2 tmv.sec).take timeLen

/-! ## Signing -/

/-- The two digits of `%02x`. -/
def hex02 (b : UInt8) : List UInt8 :=
  [b.toNat / 16, b.toNat % 16].map fun d => UInt8.ofNat (Nat.digitChar d).toNat

/-- `encrpyt`. -/
def encrpyt (f : Factory) (srcSrc : List UInt8) : List UInt8 :=
  (List.finRange 16).flatMap fun i => hex02 (f.md5 srcSrc i)

/-- The digest of a base URI. -/
def digest (f : Factory) (strBasicUri : List UInt8) : List UInt8 :=
  encrpyt f (strBasicUri ++ strSplitchar ++ keyName ++ f.mask)

/-- `makeHotUri`. -/
def makeHotUri (f : Factory) (strBasicUrl : List UInt8) : List UInt8 :=
  strBasicUrl ++ strSplitchar ++ strEncrypt ++ digest f strBasicUrl

/-! ## Links -/

/-- `CSVSMediaLink`. -/
structure Link where
  url : List UInt8
  urlType : PlayUrlType
  playType : PlayType
  serverIP : List UInt8
  port : UInt32
  contentID : List UInt8
  streamtype : DevStreamType
  startTime : List UInt8
  endTime : List UInt8
  devType : SvsDevType

/-- The constructor. -/
def Link.init : Link where
  url := []
  urlType := .default
  playType := .live
  serverIP := strArgNo
  port := 554
  contentID := strArgNo
  streamtype := .main
  startTime := strArgNo
  endTime := strArgNo
  devType := .gb28181

def PlayUrlType.urlStart : PlayUrlType → List UInt8
  | hls => urlPrefixHls
  | rtmp => urlPrefixRtmp
  | _ => urlPrefixRtsp

def PlayType.tag : PlayType → List UInt8
  | live => strLiveTag
  | platRecord => strPlatTag
  | frontRecord => strFrontTag
  | max => []

/-- The part of a URL that is signed. -/
def basicUri (f : Factory) (now : Int) (link : Link) : List UInt8 :=
  strSplitDir ++ link.playType.tag ++ strSplitDir ++ link.contentID ++
    strArgBegin ++ strStreamtype ++ decimal link.streamtype.toNat ++
    strSplitchar ++ strDevtype ++ decimal link.devType.toNat ++
    strSplitchar ++ strStarttime ++ link.startTime ++
    strSplitchar ++ strEndtime ++ link.endTime ++
    strSplitchar ++ timeStamp ++ time2str f now ++
    strSplitchar ++ timeOut ++ strTime

/-- `makeMediaUrl`. -/
def makeMediaUrl (f : Factory) (now : Int) (link : Link) : List UInt8 :=
  link.urlType.urlStart ++ link.serverIP ++ strPort ++ printD link.port.toInt32.toInt ++
    makeHotUri f (basicUri f now link)

/-! ## Parsing -/

/-- `substr(pos, n)`, which throws behind the end. -/
def substr (s : List UInt8) (pos n : Nat) : Option (List UInt8) :=
  if s.length < pos then none else some ((s.drop pos).take n)

/-- `substr(pos)`. -/
def substrFrom (s : List UInt8) (pos : Nat) : Option (List UInt8) :=
  if s.length < pos then none else some (s.drop pos)

/-- The `size_t` `a - b` as a number of bytes of `s`: below zero it wraps to more than any string
has. -/
def sizeSub (s : List UInt8) (a b : Nat) : Nat := if b ≤ a then a - b else s.length

/-- What `splitUrl` gives. -/
structure Split where
  basicUrl : List UInt8
  timestamp : List UInt8
  timeout : List UInt8
  encrypt : List UInt8

/-- `splitUrl`; with a key missing, no parts. -/
def splitUrl (strUrl : List UInt8) : Option (Option Split) :=
  match find timeStamp strUrl, find timeOut strUrl, find strEncrypt strUrl with
  | some nTimeIdx, some nTimeoutIdx, some nEncryptIdx => do
    let basicUrl ← substr strUrl 0 (sizeSub strUrl nEncryptIdx 1)
    let nStartIndex := nTimeIdx + timeStamp.length
    let timestamp ← substr strUrl nStartIndex (sizeSub strUrl nTimeoutIdx nStartIndex)
    let nStartIndex := nTimeoutIdx + timeOut.length
    let timeout ← substr strUrl nStartIndex (sizeSub strUrl nEncryptIdx nStartIndex)
    let nStartIndex := nEncryptIdx + strEncrypt.length
    let encrypt ← substr strUrl nStartIndex (sizeSub strUrl strUrl.length nStartIndex)
    return some ⟨basicUrl, timestamp, timeout, encrypt⟩
  | _, _, _ => some none

/-- How far the time of the URL is away. -/
def age (f : Factory) (m : Moment) (sp : Split) : Nat :=
  (m.now - str2time f (cStr sp.timestamp m.beyond)).natAbs

/-- The comparison of `checkHoturi`, in 32 bits. -/
def expired (f : Factory) (m : Moment) (sp : Split) : Bool :=
  (atoi sp.timeout).toNat < age f m sp % 2 ^ 32

/-- `checkHoturi`, with the parts that it was given. -/
def checkHoturi (f : Factory) (m : Moment) (strHotUri : List UInt8) :
    Option (LinkResult × Option Split) := do
  match ← splitUrl strHotUri with
  | none => return (.authFail, none)
  | some sp =>
    if expired f m sp then return (.authFail, some sp)
    if sp.encrypt ≠ digest f sp.basicUrl then return (.authFail, some sp)
    return (.success, some sp)

/-- The protocol, and the text behind it. -/
def protocol (strTmp : List UInt8) : Option (Option (PlayUrlType × List UInt8)) :=
  match find strProtocolEnd strTmp with
  | none => some none
  | some idx => do
    let strProtcol ← substr strTmp 0 (idx + 3)
    let strTmp ← substrFrom strTmp (idx + 3)
    if strProtcol = urlPrefixRtsp then return some (.rtsp, strTmp)
    else if strProtcol = urlPrefixHls then return some (.hls, strTmp)
    else if strProtcol = urlPrefixRtmp then return some (.rtmp, strTmp)
    else return none

/-- The text from the first slash on. -/
def hotUri (strTmp : List UInt8) : Option (Option (List UInt8)) :=
  match find strSplitDir strTmp with
  | none => some none
  | some idx => do return some (← substrFrom strTmp idx)

/-- The text in front of the next slash, and the text behind it. -/
def untilDir (strTmp : List UInt8) : Option (Option (List UInt8 × List UInt8)) :=
  match find strSplitDir strTmp with
  | none => some none
  | some idx => do
    let text ← substr strTmp 0 idx
    let strTmp ← substrFrom strTmp (idx + 1)
    return some (text, strTmp)

/-- The server and the port; the colon is searched in all of the text. -/
def address (strTmp : List UInt8) (link : Link) : Option (Link × Option (List UInt8)) :=
  match find strPort strTmp with
  | some idx => do
    let link := { link with serverIP := ← substr strTmp 0 idx }
    let strTmp ← substrFrom strTmp (idx + 1)
    match ← untilDir strTmp with
    | none => return (link, none)
    | some (port, strTmp) => return ({ link with port := atoi port }, some strTmp)
  | none => do
    match ← untilDir strTmp with
    | none => return (link, none)
    | some (ip, strTmp) => return ({ link with serverIP := ip }, some strTmp)

/-- The play type of a tag. -/
def playTypeOf (strPlayType : List UInt8) : Option PlayType :=
  if strPlayType = strLiveTag then some .live
  else if strPlayType = strPlatTag then some .platRecord
  else if strPlayType = strFrontTag then some .frontRecord
  else none

/-- An argument is set. Unknown names and types change nothing. -/
def setArg (link : Link) (strarg strvalue : List UInt8) : Link :=
  if strarg = strStreamtype then
    if (atoi strvalue).toNat = DevStreamType.main.toNat then { link with streamtype := .main }
    else if (atoi strvalue).toNat = DevStreamType.sub.toNat then { link with streamtype := .sub }
    else link
  else if strarg = strDevtype then
    if (atoi strvalue).toNat = SvsDevType.vms.toNat then { link with devType := .vms }
    else if (atoi strvalue).toNat = SvsDevType.gb28181.toNat then { link with devType := .gb28181 }
    else if (atoi strvalue).toNat = SvsDevType.ehome.toNat then { link with devType := .ehome }
    else link
  else if strarg = strStarttime then { link with startTime := strvalue }
  else if strarg = strEndtime then { link with endTime := strvalue }
  else link

/-- The value of an argument, and the text behind it. -/
def argValue (strTmp : List UInt8) : Option (List UInt8 × List UInt8) :=
  match find strSplitchar strTmp with
  | none => some (strTmp, [])
  | some idx => do
    let strvalue ← substr strTmp 0 idx
    let strTmp ← substrFrom strTmp (idx + 1)
    return (strvalue, strTmp)

/-- The loop over the arguments, `fuel` turns at most. -/
def args : Nat → List UInt8 → Link → Option Link
  | 0, _, link => some link
  | fuel + 1, strTmp, link =>
    match find strArgEq strTmp with
    | none => some link
    | some idx => do
      let strarg ← substr strTmp 0 (idx + 1)
      let (strvalue, strTmp) ← argValue (← substrFrom strTmp (idx + 1))
      args fuel strTmp (setArg link strarg strvalue)

/-- What `parseMediaUrl` returns, what becomes of the link, and the parts that were checked. -/
structure Parsed where
  result : LinkResult
  link : Link
  split : Option Split

/-- Without arguments nothing is checked. -/
def content (f : Factory) (m : Moment) (strHotUri strTmp : List UInt8) (link : Link) :
    Option Parsed :=
  match find strArgBegin strTmp with
  | none => some ⟨.success, link, none⟩
  | some idx => do
    let link := { link with contentID := ← substr strTmp 0 idx }
    let strTmp ← substrFrom strTmp (idx + 1)
    let link ← args (strTmp.length + 1) strTmp link
    let (result, split) ← checkHoturi f m strHotUri
    return ⟨result, link, split⟩

/-- `parseMediaUrl`. -/
def parseMediaUrl (f : Factory) (m : Moment) (strUrl : List UInt8) (link : Link) :
    Option Parsed := do
  let link := { link with url := strUrl }
  match ← protocol strUrl with
  | none => return ⟨.fail, link, none⟩
  | some (type, strTmp) =>
    let link := { link with urlType := type }
    match ← hotUri strTmp with
    | none => return ⟨.fail, link, none⟩
    | some strHotUri =>
      match ← address strTmp link with
      | (link, none) => return ⟨.fail, link, none⟩
      | (link, some strTmp) =>
        match ← untilDir strTmp with
        | none => return ⟨.fail, link, none⟩
        | some (strPlayType, strTmp) =>
          match playTypeOf strPlayType with
          | none => return ⟨.fail, link, none⟩
          | some playType => content f m strHotUri strTmp { link with playType := playType }

end AllCamera.MediaLink
