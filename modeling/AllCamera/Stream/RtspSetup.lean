import AllCamera.Stream.RtspPacket.RequestLines

/-!
# SETUP messages of the RTSP server (`CRtspSetupMessage`)

A SETUP message and its answer say in one header how the media are sent: over the RTSP connection with a channel
number, or over UDP with a port of the client and, in the answer, one of the server.

* `RtspServerMessage`, `RtspSetupMessage`: the message. `encodeMessage`: its text. `decodeMessage`: a message that is
  set from a packet, with `parsePort`, `parseIp` and `parseUdpTransParam`.
* `parsePort_field`: a port is read back where its name is found.
* `parse_encodeMessage`: the packet that `parse` makes of an encoded message has its transport text.
* `Restored`, `restored_iff`: when the message is read back from its transport text.
-/

namespace AllCamera

/-- `RTSP_MSG_REQ` and `RTSP_MSG_RSP`. -/
inductive RtspMsgType where
  | req | rsp
  deriving DecidableEq

/-- `TRANS_PROTOCOL`. -/
inductive TransProtocol where
  | tcp | udp
  deriving DecidableEq

/-- `RTSP_CODE_STRING`. -/
def rtspCodeStrings : List (List UInt8) :=
  [ascii "100 Continue", ascii "200 OK", ascii "201 Created", ascii "202 Accepted", ascii "203 No Content",
    ascii "204 Partial Content", ascii "250 Low on Storage Space", ascii "300 Multiple Choices",
    ascii "301 Moved Permanently", ascii "302 Moved Temporarily", ascii "303 See Other", ascii "304 Not Modified",
    ascii "305 Use Proxy", ascii "400 Bad Request", ascii "401 Unauthorized", ascii "402 Payment Required",
    ascii "403 Forbidden", ascii "404 Not Found", ascii "405 Method Not Allowed", ascii "406 Not Acceptable",
    ascii "407 Proxy Authentication Required", ascii "408 Request Time-out", ascii "409 Conflict", ascii "410 Gone",
    ascii "411 Length Required", ascii "412 Precondition Failed", ascii "413 Request Entity Too Large",
    ascii "414 Request-URI Too Large", ascii "415 Unsupported Media Type", ascii "451 Parameter Not Understood",
    ascii "452 Conference Not Found", ascii "453 Not Enough Bandwidth", ascii "454 Session Not Found",
    ascii "455 Method Not Valid in this State", ascii "456 Header Field Not Valid For Resource",
    ascii "457 Invalid Range", ascii "458 Parameter Is Read-Only", ascii "459 Aggregate Option Not Allowed",
    ascii "460 Only Aggregate Option Allowed", ascii "461 Unsupported Transport",
    ascii "462 Destination Unreachable", ascii "500 Internal Server Error", ascii "501 Not Implemented",
    ascii "502 Bad Gateway", ascii "503 Service Unavailable", ascii "504 Gateway Timeout",
    ascii "505 RTSP Version not supported", ascii "551 Option Not Supported"]

/-- `RTSP_STATUS_CODES_BUTT`. -/
def rtspStatusCodesButt : Nat := 48

/-- `RTSP_SERVER_AGENT`. -/
def rtspServerAgent : List UInt8 := ascii "AllCam adapter v1.0.0.0"

/-- `ID_LEN`. -/
def idLen : Nat := 32

/-- The members of `CRtspMessage`. -/
structure RtspServerMessage where
  unMsgType : RtspMsgType
  unCSeq : UInt32
  strSession : List UInt8
  unStatusCode : UInt32
  strRtspUrl : List UInt8
  unContentLength : UInt32
  strContetType : List UInt8
  strBody : List UInt8
  deriving DecidableEq

/-- `CRtspSetupMessage`. -/
structure RtspSetupMessage extends RtspServerMessage where
  unTransType : TransProtocol
  unInterleaveNum : UInt32
  usClientPort : UInt16
  unDestIp : UInt32
  usServerPort : UInt16
  unSrcIp : UInt32
  deriving DecidableEq

namespace RtspServerMessage

/-- The constructor. -/
def init : RtspServerMessage := ⟨.req, 0, [], .ofNat rtspStatusCodesButt, [], 0, [], []⟩

/-- The first line of a SETUP message. -/
def startLine (m : RtspServerMessage) : Option (List UInt8) :=
  match m.unMsgType with
  | .req => some (ascii "SETUP" ++ ascii " " ++ m.strRtspUrl ++ ascii " " ++ rtspVersion ++ rtspEndLine)
  | .rsp =>
    if rtspStatusCodesButt ≤ m.unStatusCode.toNat then none
    else some (rtspVersion ++ ascii " " ++ rtspCodeStrings.getD m.unStatusCode.toNat [] ++ rtspEndLine)

/-- `CRtspMessage::encodeMessage` of a SETUP message, where `date` is the text of the time. -/
def encodeMessage (date : List UInt8) (m : RtspServerMessage) : Option (List UInt8) := do
  let first ← m.startLine
  return first ++
    (ascii "CSeq: " ++ decimal m.unCSeq.toNat ++ rtspEndLine) ++
    (if m.strSession ≠ [] then ascii "Session: " ++ m.strSession ++ rtspEndLine else []) ++
    match m.unMsgType with
    | .req => ascii "User-Agent: " ++ rtspServerAgent ++ rtspEndLine
    | .rsp => ascii "Date: " ++ date ++ rtspEndLine ++ (ascii "Server: " ++ rtspServerAgent ++ rtspEndLine)

/-- `CRtspMessage::decodeMessage`. The URL ends in front of the first zero of its array. -/
def decodeMessage (p : RtspPacket) (m : RtspServerMessage) : RtspServerMessage :=
  let m :=
    if p.methodIndex = rtspResponseMethod then { m with unStatusCode := .ofNat p.statusCodeIndex }
    else { m with strRtspUrl := p.rtspUrl.takeWhile (· ≠ 0) }
  { m with
    unCSeq := p.cseq
    strSession := (decimal p.sessionID.toNat).take (idLen - 1)
    unContentLength := p.ulContenLength
    strBody := p.strContent
    strContetType := p.strContentType }

@[simp] theorem decodeMessage_unMsgType (p : RtspPacket) (m : RtspServerMessage) :
    (m.decodeMessage p).unMsgType = m.unMsgType := by
  unfold decodeMessage
  split <;> rfl

end RtspServerMessage

namespace RtspSetupMessage

/-- The constructor. -/
def init : RtspSetupMessage := ⟨.init, .tcp, 0, 0, 0xffffffff, 0, 0xffffffff⟩

/-! ## Encoding -/

/-- A number and the one behind it, as text. -/
def pairText (n next : Nat) : List UInt8 := decimal n ++ ascii "-" ++ decimal next

/-- What `encodeMessage` writes as the transport. The number behind a port is an `int`. -/
def transport (m : RtspSetupMessage) : List UInt8 :=
  ascii "RTP" ++ ascii "/" ++ ascii "AVP" ++
    (match m.unTransType with
    | .tcp => ascii "/" ++ ascii "TCP"
    | .udp => []) ++
    ascii ";" ++
    match m.unTransType with
    | .tcp =>
      ascii "unicast" ++ ascii ";" ++
        (ascii "interleaved=" ++ pairText m.unInterleaveNum.toNat (m.unInterleaveNum + 1).toNat)
    | .udp =>
      ascii "unicast" ++ ascii ";" ++
        (ascii "client_port=" ++ pairText m.usClientPort.toNat (m.usClientPort.toNat + 1)) ++
        match m.unMsgType with
        | .req => []
        | .rsp => ascii ";" ++ (ascii "server_port=" ++ pairText m.usServerPort.toNat (m.usServerPort.toNat + 1))

/-- `encodeMessage`: the text, or nothing if it returns `RET_FAIL`. -/
def encodeMessage (date : List UInt8) (m : RtspSetupMessage) : Option (List UInt8) := do
  let strMessage ← m.toRtspServerMessage.encodeMessage date
  return strMessage ++ (ascii "Transport: " ++ m.transport ++ rtspEndLine) ++ rtspEndLine

/-! ## Decoding -/

/-- The text behind the name at `nIndexKey`, up to a semicolon. -/
def fieldAt (srcStr strName : List UInt8) (nIndexKey : Nat) : List UInt8 :=
  match find (ascii ";") (srcStr.drop nIndexKey) with
  | some n => (srcStr.drop (nIndexKey + strName.length)).take (n - strName.length)
  | none => srcStr.drop (nIndexKey + strName.length)

/-- `parsePort`: the value, or nothing if it returns `RET_FAIL`. -/
def parsePort (srcStr strName : List UInt8) : Option (List UInt8) := do
  let nIndexKey ← find strName srcStr
  let strValue := fieldAt srcStr strName nIndexKey
  match find (ascii "-") strValue with
  | some nIndexHLine => return trimString (strValue.take nIndexHLine)
  | none => return trimString strValue

/-- `parseIp`: whether it returns `RET_OK`, and `strValue`, which stays as it is without the name. -/
def parseIp (lib : CLib) (srcStr strName strValue : List UInt8) : Bool × List UInt8 :=
  match find strName srcStr with
  | none => (true, strValue)
  | some nIndexKey =>
    let strValue := trimString (fieldAt srcStr strName nIndexKey)
    (lib.inetAddr strValue ≠ 0, strValue)

/-- `parseUdpTransParam`: `.ok` for `RET_OK` and `.error` for `RET_FAIL`, each with the message as it is left. -/
def parseUdpTransParam (lib : CLib) (m : RtspSetupMessage) (strTransport : List UInt8) :
    Except RtspSetupMessage RtspSetupMessage :=
  match parsePort strTransport (ascii "client_port=") with
  | none => .error m
  | some strPort =>
    let m := { m with usClientPort := (atoi strPort).toUInt16 }
    let (ok, strIp) := parseIp lib strTransport (ascii "destination=") []
    let m := if ok then { m with unDestIp := lib.inetAddr strIp } else m
    match m.unMsgType with
    | .req => .ok m
    | .rsp =>
      match parsePort strTransport (ascii "server_port=") with
      | none => .error m
      | some strPort =>
        let m := { m with usServerPort := (atoi strPort).toUInt16 }
        let (ok, strIp) := parseIp lib strTransport (ascii "source=") strIp
        .ok (if ok then { m with unSrcIp := lib.inetAddr strIp } else m)

/-- `decodeMessage`. -/
def decodeMessage (lib : CLib) (p : RtspPacket) (m : RtspSetupMessage) :
    Except RtspSetupMessage RtspSetupMessage :=
  let m := { m with toRtspServerMessage := m.toRtspServerMessage.decodeMessage p }
  match find (ascii "TCP") p.strTransPort with
  | some _ =>
    let m := { m with unTransType := .tcp }
    match find (ascii "interleaved=") p.strTransPort with
    | some nStrIndex =>
      .ok { m with unInterleaveNum := atoi (p.strTransPort.drop (nStrIndex + (ascii "interleaved=").length)) }
    | none => .error m
  | none => parseUdpTransParam lib { m with unTransType := .udp } p.strTransPort

/-! ## Reading a port -/

theorem notMem_pairText {c : UInt8} (hc : isDigit c = false) (h45 : c ≠ 45) (n next : Nat) : c ∉ pairText n next := by
  intro h
  rcases List.mem_append.mp h with h | h
  · rcases List.mem_append.mp h with h | h
    · exact notMem_decimal hc n h
    · exact h45 (List.mem_singleton.mp h)
  · exact notMem_decimal hc next h

/-- The value behind a name, up to the end of the text or a semicolon. -/
theorem fieldAt_eq {front key value rest : List UInt8} (hkey : 59 ∉ key) (hvalue : 59 ∉ value)
    (hrest : ∀ c, rest.head? = some c → c = 59) :
    fieldAt (front ++ (key ++ (value ++ rest))) key front.length = value := by
  have hboth : 59 ∉ key ++ value := fun h => (List.mem_append.mp h).elim hkey hvalue
  have hdrop : (front ++ (key ++ (value ++ rest))).drop (front.length + key.length) = value ++ rest := by
    rw [← List.append_assoc, ← List.length_append, List.drop_left]
  unfold fieldAt
  rw [List.drop_left, hdrop, ← List.append_assoc key]
  cases rest with
  | nil =>
    have hnone : find (ascii ";") (key ++ value ++ []) = none := by
      rw [List.append_nil]
      exact find_letter_none hboth
    rw [hnone]
    exact List.append_nil value
  | cons c rest =>
    obtain rfl := hrest c rfl
    have hsome : find (ascii ";") (key ++ value ++ 59 :: rest) = some (key ++ value).length := find_letter hboth rest
    rw [hsome]
    dsimp only
    rw [List.length_append, Nat.add_sub_cancel_left, List.take_left]

theorem parsePort_field {front key rest : List UInt8} {n next : Nat} (hkey : 59 ∉ key)
    (hrest : ∀ c, rest.head? = some c → c = 59)
    (hfind : find key (front ++ (key ++ (pairText n next ++ rest))) = some front.length) :
    parsePort (front ++ (key ++ (pairText n next ++ rest))) key = some (decimal n) := by
  have hfield : fieldAt (front ++ (key ++ (pairText n next ++ rest))) key front.length = pairText n next :=
    fieldAt_eq hkey (notMem_pairText (by decide) (by decide) n next) hrest
  have hline : find (ascii "-") (pairText n next) = some (decimal n).length := by
    unfold pairText
    rw [List.append_assoc]
    exact find_letter (notMem_decimal (by decide) n) _
  have htake : (pairText n next).take (decimal n).length = decimal n := by
    unfold pairText
    rw [List.append_assoc, List.take_left]
  unfold parsePort
  rw [hfind, Option.bind_eq_bind, Option.bind_some]
  dsimp only
  rw [hfield, hline]
  dsimp only
  rw [htake, RtspPacket.trimString_of_notMem (notMem_decimal (by decide) n)]
  rfl

theorem toUInt16_atoi_decimal (port : UInt16) : (atoi (decimal port.toNat)).toUInt16 = port := by
  have h := atoi_decimal (t := []) port.toNat nofun
  rw [List.append_nil] at h
  rw [h]
  apply UInt16.toNat.inj
  have := port.toNat_lt
  rw [UInt32.toNat_toUInt16, UInt32.toNat_ofNat']
  omega

/-! ## What the searches find -/

theorem transport_tcp {m : RtspSetupMessage} (h : m.unTransType = .tcp) :
    m.transport = ascii "RTP/AVP/TCP;unicast;" ++ (ascii "interleaved=" ++
      pairText m.unInterleaveNum.toNat (m.unInterleaveNum + 1).toNat) := by
  simp [transport, h, ascii]

/-- The transport over UDP up to the ports of the client. -/
def clientPart (m : RtspSetupMessage) : List UInt8 :=
  ascii "RTP/AVP;unicast;client_port=" ++ pairText m.usClientPort.toNat (m.usClientPort.toNat + 1)

/-- The ports of the server in an answer. -/
def serverPart (m : RtspSetupMessage) : List UInt8 :=
  ascii "server_port=" ++ pairText m.usServerPort.toNat (m.usServerPort.toNat + 1)

theorem transport_request {m : RtspSetupMessage} (h : m.unTransType = .udp) (hm : m.unMsgType = .req) :
    m.transport = m.clientPart := by
  simp [transport, clientPart, h, hm, ascii]

theorem transport_response {m : RtspSetupMessage} (h : m.unTransType = .udp) (hm : m.unMsgType = .rsp) :
    m.transport = m.clientPart ++ 59 :: m.serverPart := by
  simp [transport, clientPart, serverPart, h, hm, ascii]

/-- The numbers do not make a text that ends in another letter. -/
theorem not_infix_pair {w key : List UInt8} {a : UInt8} (ha : isDigit a = false) (h45 : a ≠ 45)
    (hkey : ¬ w ++ [a] <:+: key) (n next : Nat) : ¬ w ++ [a] <:+: key ++ pairText n next :=
  not_infix_append (notMem_pairText ha h45 n next) hkey

theorem not_infix_clientPart {w : List UInt8} {a : UInt8} (ha : isDigit a = false) (h45 : a ≠ 45)
    (hkey : ¬ w ++ [a] <:+: ascii "RTP/AVP;unicast;client_port=") (m : RtspSetupMessage) :
    ¬ w ++ [a] <:+: m.clientPart :=
  not_infix_pair ha h45 hkey _ _

/-- UDP is not taken for TCP. -/
theorem find_tcp_udp {m : RtspSetupMessage} (h : m.unTransType = .udp) : find (ascii "TCP") m.transport = none := by
  have hclient : ¬ ascii "TCP" <:+: m.clientPart :=
    not_infix_clientPart (w := ascii "TC") (by decide) (by decide) (by decide) m
  rw [find_eq_none_iff]
  cases hm : m.unMsgType with
  | req =>
    rw [transport_request h hm]
    exact hclient
  | rsp =>
    have hserver : ¬ ascii "TCP" <:+: m.serverPart :=
      not_infix_pair (w := ascii "TC") (by decide) (by decide) (by decide) _ _
    rw [transport_response h hm]
    exact not_infix_segment (by decide) (by decide) hclient hserver

/-- The port of the client is read from a request and from an answer. -/
theorem parsePort_client {m : RtspSetupMessage} (h : m.unTransType = .udp) :
    parsePort m.transport (ascii "client_port=") = some (decimal m.usClientPort.toNat) := by
  have hfind : ∀ rest, find (ascii "client_port=") (ascii "RTP/AVP;unicast;" ++ (ascii "client_port=" ++ rest)) =
      some (ascii "RTP/AVP;unicast;").length := fun rest => find_of_not_infix (by decide) (by decide) rest
  have hclient : m.clientPart = ascii "RTP/AVP;unicast;" ++ (ascii "client_port=" ++
      pairText m.usClientPort.toNat (m.usClientPort.toNat + 1)) := by
    have hname : "RTP/AVP;unicast;client_port=" = "RTP/AVP;unicast;" ++ "client_port=" := rfl
    rw [clientPart, hname, ascii_append, List.append_assoc]
  have hread : ∀ rest : List UInt8, (∀ c, rest.head? = some c → c = 59) →
      parsePort (m.clientPart ++ rest) (ascii "client_port=") = some (decimal m.usClientPort.toNat) := by
    intro rest hrest
    rw [hclient, List.append_assoc, List.append_assoc]
    exact parsePort_field (by decide) hrest (hfind _)
  cases hm : m.unMsgType with
  | req =>
    rw [transport_request h hm, ← List.append_nil m.clientPart]
    exact hread [] nofun
  | rsp =>
    rw [transport_response h hm]
    exact hread _ fun c hc => (Option.some.inj hc).symm

theorem not_infix_server (m : RtspSetupMessage) : ¬ ascii "server_port=" <:+: m.clientPart :=
  not_infix_clientPart (w := ascii "server_port") (by decide) (by decide) (by decide) m

/-- A request has no port of the server. -/
theorem parsePort_server_request {m : RtspSetupMessage} (h : m.unTransType = .udp) (hm : m.unMsgType = .req) :
    parsePort m.transport (ascii "server_port=") = none := by
  unfold parsePort
  rw [transport_request h hm, find_eq_none_iff.mpr m.not_infix_server]
  rfl

theorem parsePort_server_response {m : RtspSetupMessage} (h : m.unTransType = .udp) (hm : m.unMsgType = .rsp) :
    parsePort m.transport (ascii "server_port=") = some (decimal m.usServerPort.toNat) := by
  have hserver : m.serverPart = ascii "server_port=" ++
      (pairText m.usServerPort.toNat (m.usServerPort.toNat + 1) ++ []) := by
    rw [List.append_nil]
    rfl
  have hfind : find (ascii "server_port=") (m.clientPart ++ [59] ++ m.serverPart) =
      some (m.clientPart ++ [59]).length := by
    rw [← List.append_cons, find_segment (by decide) (by decide) m.not_infix_server, hserver,
      find_prefix (by decide), Option.map_some, List.length_append, Nat.zero_add]
    rfl
  rw [transport_response h hm, List.append_cons]
  rw [hserver] at hfind ⊢
  exact parsePort_field (by decide) nofun hfind

/-- The channel number of a transport over TCP. -/
theorem find_interleaved {m : RtspSetupMessage} (h : m.unTransType = .tcp) :
    ∃ n, find (ascii "interleaved=") m.transport = some n ∧
      atoi (m.transport.drop (n + (ascii "interleaved=").length)) = m.unInterleaveNum := by
  refine ⟨(ascii "RTP/AVP/TCP;unicast;").length, ?_, ?_⟩
  · rw [transport_tcp h]
    exact find_of_not_infix (by decide) (by decide) _
  · rw [transport_tcp h, ← List.append_assoc, ← List.length_append, List.drop_left]
    unfold pairText
    rw [List.append_assoc, atoi_decimal, UInt32.ofNat_toNat]
    intro c hc
    obtain rfl : (45 : UInt8) = c := Option.some.inj hc
    decide

theorem find_tcp {m : RtspSetupMessage} (h : m.unTransType = .tcp) : ∃ n, find (ascii "TCP") m.transport = some n := by
  rw [transport_tcp h]
  exact ⟨(ascii "RTP/AVP/").length, find_of_not_infix (l := ascii "RTP/AVP/") (by decide) (by decide) _⟩

/-! ## The packet of an encoded message -/

section Parse

open RtspPacket

variable {lib : CLib} {m : RtspSetupMessage} {p q : RtspPacket} {s date : List UInt8}

theorem oneLine_of_forall (h : ∀ c ∈ s, c ≠ 0 ∧ c ≠ 13) : OneLine s :=
  ⟨fun h0 => (h 0 h0).1 rfl, fun hend => (h 13 (hend.subset List.mem_cons_self)).2 rfl⟩

theorem oneLine_of_all (h : (s.all fun c => decide (c ≠ 0 ∧ c ≠ 13)) = true) : OneLine s :=
  oneLine_of_forall (forall_mem_of_all h)

/-- The letters of a literal are tested without its bytes. -/
theorem oneLine_ascii (l : List Char)
    (h : (l.all fun c => decide (UInt8.ofNat c.toNat ≠ 0 ∧ UInt8.ofNat c.toNat ≠ 13)) = true ∧ l ≠ []) :
    OneLine (ascii (.ofList l)) ∧ ascii (.ofList l) ≠ [] := by
  rw [ascii_ofList]
  exact ⟨oneLine_of_all (by rw [List.all_map]; exact h.1), mt List.map_eq_nil_iff.mp h.2⟩

theorem trimString_blank (h : 32 ∉ s) : trimString (32 :: s) = s := by
  have hdrop : s.dropWhile (· = 32) = s := dropWhile_blank fun hs => h (List.mem_of_head? hs)
  cases hs : s with
  | nil => decide
  | cons c t =>
    have hback : (32 :: s).getLast? ≠ some 32 := by
      rw [hs, List.getLast?_cons_cons, ← hs]
      exact fun hlast => h (List.mem_of_getLast? hlast)
    have hreverse : (32 :: s).reverse.dropWhile (· = 32) = (32 :: s).reverse :=
      dropWhile_blank (by rwa [List.head?_reverse])
    rw [← hs, trimString, hreverse, List.reverse_reverse, List.dropWhile_cons_of_pos (by decide), hdrop]

/-- The letters of the transport. -/
theorem transport_chars (m : RtspSetupMessage) : ∀ c ∈ m.transport, c ≠ 0 ∧ c ≠ 13 ∧ c ≠ 32 := by
  have hpair : ∀ n next : Nat, ∀ c ∈ pairText n next, c ≠ 0 ∧ c ≠ 13 ∧ c ≠ 32 := by
    intro n next c hc
    refine ⟨?_, ?_, ?_⟩ <;> rintro rfl <;> exact notMem_pairText (by decide) (by decide) n next hc
  have happend : ∀ {a b : List UInt8}, (∀ c ∈ a, c ≠ 0 ∧ c ≠ 13 ∧ c ≠ 32) →
      (∀ c ∈ b, c ≠ 0 ∧ c ≠ 13 ∧ c ≠ 32) → ∀ c ∈ a ++ b, c ≠ 0 ∧ c ≠ 13 ∧ c ≠ 32 :=
    fun ha hb c hc => (List.mem_append.mp hc).elim (ha c) (hb c)
  have hclient : ∀ c ∈ m.clientPart, c ≠ 0 ∧ c ≠ 13 ∧ c ≠ 32 :=
    happend (forall_mem_of_all (by decide)) (hpair _ _)
  cases h : m.unTransType with
  | tcp =>
    rw [transport_tcp h]
    exact happend (forall_mem_of_all (by decide)) (happend (forall_mem_of_all (by decide)) (hpair _ _))
  | udp =>
    cases hm : m.unMsgType with
    | req =>
      rw [transport_request h hm]
      exact hclient
    | rsp =>
      rw [transport_response h hm, List.append_cons]
      exact happend (happend hclient (forall_mem_of_all (by decide)))
        (happend (forall_mem_of_all (by decide)) (hpair _ _))

theorem transport_ne_nil (m : RtspSetupMessage) : m.transport ≠ [] := by
  simp [transport, ascii]

/-- The line of the transport sets it. -/
theorem parseRtspHeader_transport (m : RtspSetupMessage) (p : RtspPacket) :
    parseRtspHeader lib p (headerText (.transPort, 32 :: m.transport)) =
      .ok { p with strTransPort := m.transport } := by
  have hblank : 32 ∉ m.transport := fun h => (m.transport_chars 32 h).2.2 rfl
  rw [parseRtspHeader_line, trimString_blank hblank]
  simp only [setHeaderValue, if_neg m.transport_ne_nil]

/-- The first line of the text. -/
def firstLine (m : RtspSetupMessage) : List UInt8 :=
  match m.unMsgType with
  | .req => requestLine 1 m.strRtspUrl
  | .rsp => rtspVersion ++ 32 :: rtspCodeStrings.getD m.unStatusCode.toNat []

/-- The lines in front of the transport. -/
def commonLines (date : List UInt8) (m : RtspSetupMessage) : List (List UInt8) :=
  headerText (.cseq, 32 :: decimal m.unCSeq.toNat) ::
    (if m.strSession ≠ [] then [headerText (.session, 32 :: m.strSession)] else []) ++
    match m.unMsgType with
    | .req => [headerText (.userAgent, 32 :: rtspServerAgent)]
    | .rsp => [ascii "Date: " ++ date, ascii "Server: " ++ rtspServerAgent]

theorem encodeMessage_lines {text : List UInt8} (h : m.encodeMessage date = some text) :
    text = endLines (m.firstLine :: (m.commonLines date ++ [headerText (.transPort, 32 :: m.transport)])) ++
      rtspEndLine := by
  obtain ⟨common, hcommon, htext⟩ := Option.bind_eq_some_iff.mp h
  obtain rfl := Option.some.inj htext
  suffices hlines : common = endLines (m.firstLine :: m.commonLines date) by
    rw [hlines]
    simp [endLines, headerText, RtspHeader.name, ascii]
  obtain ⟨first, hfirst, hcommon⟩ := Option.bind_eq_some_iff.mp hcommon
  obtain rfl := Option.some.inj hcommon
  unfold RtspServerMessage.startLine at hfirst
  cases hm : m.unMsgType with
  | req =>
    rw [hm] at hfirst
    obtain rfl := Option.some.inj hfirst
    by_cases hs : m.strSession = [] <;>
      simp [endLines, firstLine, commonLines, requestLine, rtspMethods, headerText, RtspHeader.name, hm, hs, ascii]
  | rsp =>
    rw [hm] at hfirst
    obtain ⟨-, hfirst⟩ := Option.ite_none_left_eq_some.mp hfirst
    obtain rfl := Option.some.inj hfirst
    by_cases hs : m.strSession = [] <;>
      simp [endLines, firstLine, commonLines, headerText, RtspHeader.name, hm, hs, ascii]

theorem oneLine_blank (h : OneLine s) : OneLine (32 :: s) :=
  OneLine.append_cons (s := []) ⟨List.not_mem_nil, by decide⟩ (by decide) h

/-- The code of an answer that was encoded has a text. -/
theorem code_text (h : m.encodeMessage date = some s) (hm : m.unMsgType = .rsp) :
    OneLine (rtspCodeStrings.getD m.unStatusCode.toNat []) ∧ rtspCodeStrings.getD m.unStatusCode.toNat [] ≠ [] := by
  obtain ⟨common, hcommon, -⟩ := Option.bind_eq_some_iff.mp h
  obtain ⟨first, hfirst, -⟩ := Option.bind_eq_some_iff.mp hcommon
  unfold RtspServerMessage.startLine at hfirst
  rw [hm] at hfirst
  have hlt : m.unStatusCode.toNat < rtspCodeStrings.length := Nat.not_le.mp (Option.ite_none_left_eq_some.mp hfirst).1
  have hall : ∀ t ∈ rtspCodeStrings, OneLine t ∧ t ≠ [] := by
    unfold rtspCodeStrings
    repeat' refine List.forall_mem_cons.mpr ⟨oneLine_ascii _ (by decide), ?_⟩
    exact List.forall_mem_nil _
  rw [List.getD, List.getElem?_eq_getElem hlt, Option.getD_some]
  exact hall _ (List.getElem_mem hlt)

/-- The first line says which message it is. -/
theorem parseRtspMethodLine_firstLine (h : m.encodeMessage date = some s)
    (hurl : m.unMsgType = .req → UrlText m.strRtspUrl) (p : RtspPacket) :
    OneLine m.firstLine ∧ ∃ q, p.parseRtspMethodLine m.firstLine = .ok q ∧
      (q.methodIndex = rtspResponseMethod ↔ m.unMsgType = .rsp) ∧ q.ulContenLength = p.ulContenLength := by
  have hversion : OneLine rtspVersion := oneLine_of_all (by decide)
  unfold firstLine
  cases hm : m.unMsgType with
  | req =>
    have hu := hurl hm
    have hmethod : OneLine (rtspMethods.getD 1 []) := oneLine_of_all (by decide)
    refine ⟨hmethod.append_cons (by decide) (OneLine.append_cons ⟨hu.zero, hu.lineEnd⟩ (by decide) hversion), ?_⟩
    exact ⟨_, parseRtspMethodLine_request (by decide) hu p, by simp [rtspResponseMethod], rfl⟩
  | rsp =>
    obtain ⟨hcode, hne⟩ := code_text h hm
    have hfind : findMethod (rtspVersion ++ 32 :: rtspCodeStrings.getD m.unStatusCode.toNat []) = rtspResponseMethod :=
      findMethod_method (i := rtspResponseMethod) (by decide) _
    have hlength : ¬ (rtspVersion ++ 32 :: rtspCodeStrings.getD m.unStatusCode.toNat []).length ≤
        (rtspMethods.getD rtspResponseMethod []).length + 1 := by
      have hpos := List.length_pos_iff.mpr hne
      have hname : rtspMethods.getD rtspResponseMethod [] = rtspVersion := rfl
      rw [hname, List.length_append, List.length_cons]
      omega
    refine ⟨hversion.append_cons (by decide) hcode, ?_⟩
    unfold parseRtspMethodLine
    dsimp only
    rw [hfind, if_neg (by decide), if_neg hlength, if_pos rfl]
    exact ⟨_, rfl, by simp, rfl⟩

/-- No line in front of the transport stops the parser. -/
theorem run_commonLines (lib : CLib) (hsession : OneLine m.strSession) (hdate : OneLine date) :
    ∀ l ∈ m.commonLines date, (OneLine l ∧ l ≠ []) ∧ ∀ p, ∃ q, parseRtspHeader lib p l = .ok q ∧
      q.methodIndex = p.methodIndex ∧ q.ulContenLength = p.ulContenLength := by
  have hcseq : OneLine (decimal m.unCSeq.toNat) := oneLine_of_forall fun c hc => by
    refine ⟨?_, ?_⟩ <;> rintro rfl <;> exact notMem_decimal (by decide) _ hc
  have hagent : OneLine rtspServerAgent := oneLine_of_all (by decide)
  have hline : ∀ x : RtspHeader × List UInt8, OneLine x.2 → OneLine (headerText x) ∧ headerText x ≠ [] :=
    fun x hx => ⟨oneLine_headerText hx, by simp [headerText]⟩
  -- two headers are not accepted
  have hdateLine : parseRtspHeaderIndex (ascii "Date: " ++ date) = none := rfl
  have hserverLine : parseRtspHeaderIndex (ascii "Server: " ++ rtspServerAgent) = none := rfl
  intro l hl
  rcases List.mem_append.mp hl with hl | hl
  · rcases List.mem_cons.mp hl with rfl | hl
    · refine ⟨hline _ (oneLine_blank hcseq), fun p => ?_⟩
      rw [parseRtspHeader_line]
      exact ⟨_, rfl, rfl, rfl⟩
    · split at hl
      · obtain rfl := List.mem_singleton.mp hl
        refine ⟨hline _ (oneLine_blank hsession), fun p => ?_⟩
        rw [parseRtspHeader_line]
        exact ⟨_, rfl, rfl, rfl⟩
      · cases hl
  · split at hl
    · obtain rfl := List.mem_singleton.mp hl
      refine ⟨hline _ (oneLine_blank hagent), fun p => ?_⟩
      rw [parseRtspHeader_line]
      exact ⟨_, rfl, rfl, rfl⟩
    · rcases List.mem_cons.mp hl with rfl | hl
      · refine ⟨⟨?_, by simp [ascii]⟩, fun p => ⟨p, ?_, rfl, rfl⟩⟩
        · exact OneLine.append_cons (s := ascii "Date:") (oneLine_of_all (by decide)) (by decide) hdate
        · unfold parseRtspHeader
          rw [hdateLine]
      · obtain rfl := List.mem_singleton.mp hl
        refine ⟨⟨?_, by simp [ascii]⟩, fun p => ⟨p, ?_, rfl, rfl⟩⟩
        · exact OneLine.append_cons (s := ascii "Server:") (oneLine_of_all (by decide)) (by decide) hagent
        · unfold parseRtspHeader
          rw [hserverLine]

/-- Lines that each leave the method and the content length as they are. -/
theorem foldlM_keeps {ls : List (List UInt8)} (h : ∀ l ∈ ls, ∀ p, ∃ q, parseRtspHeader lib p l = .ok q ∧
    q.methodIndex = p.methodIndex ∧ q.ulContenLength = p.ulContenLength) (p : RtspPacket) :
    ∃ q, ls.foldlM (parseRtspHeader lib) p = .ok q ∧ q.methodIndex = p.methodIndex ∧
      q.ulContenLength = p.ulContenLength := by
  induction ls generalizing p with
  | nil => exact ⟨p, rfl, rfl, rfl⟩
  | cons l ls ih =>
    obtain ⟨q, hq, hindex, hlength⟩ := h l List.mem_cons_self p
    obtain ⟨r, hr, hindex', hlength'⟩ := ih (fun x hx => h x (List.mem_cons_of_mem l hx)) q
    exact ⟨r, (foldlM_cons_ok hq).trans hr, hindex'.trans hindex, hlength'.trans hlength⟩

/-- The packet that is made of an encoded message has its transport, and is an answer if the message is one. -/
theorem parse_encodeMessage (h : m.encodeMessage date = some s) (hurl : m.unMsgType = .req → UrlText m.strRtspUrl)
    (hsession : OneLine m.strSession) (hdate : OneLine date) :
    ∃ q, parse lib .init s s.length = .ok q ∧ q.strTransPort = m.transport ∧
      (q.methodIndex = rtspResponseMethod ↔ m.unMsgType = .rsp) := by
  obtain ⟨hfirst, q₁, hmethod, hindex₁, hlength₁⟩ := parseRtspMethodLine_firstLine h hurl .init
  have hcommon := run_commonLines lib hsession hdate
  obtain ⟨q₂, hrun, hindex₂, hlength₂⟩ := foldlM_keeps (fun l hl => (hcommon l hl).2) q₁
  have htransport : OneLine (headerText (.transPort, 32 :: m.transport)) :=
    oneLine_headerText (oneLine_blank (oneLine_of_forall fun c hc =>
      ⟨(m.transport_chars c hc).1, (m.transport_chars c hc).2.1⟩))
  have hlines : ∀ l ∈ m.commonLines date ++ [headerText (.transPort, 32 :: m.transport)], OneLine l ∧ l ≠ [] := by
    intro l hl
    rcases List.mem_append.mp hl with hl | hl
    · exact (hcommon l hl).1
    · rw [List.mem_singleton.mp hl]
      exact ⟨htransport, by simp [headerText]⟩
  have hall : (m.commonLines date ++ [headerText (.transPort, 32 :: m.transport)]).foldlM (parseRtspHeader lib) q₁ =
      .ok { q₂ with strTransPort := m.transport } :=
    (foldlM_append_ok hrun).trans (foldlM_cons_ok (parseRtspHeader_transport m q₂))
  refine ⟨{ q₂ with strTransPort := m.transport }, ?_, rfl, ?_⟩
  · rw [encodeMessage_lines h]
    exact parse_endLines hfirst hlines hmethod hall (hlength₂.trans hlength₁)
  · exact (iff_of_eq (congrArg (· = _) hindex₂)).trans hindex₁

/-- The answer to a SETUP over TCP. -/
theorem parse_encodeMessage_answer :
    let m : RtspSetupMessage := { init with unMsgType := .rsp, unStatusCode := 1, unInterleaveNum := 2 }
    ∃ s q, m.encodeMessage (ascii "Thu") = some s ∧
      parse ⟨fun _ => [], fun _ => 0, fun _ => 0⟩ .init s s.length = .ok q ∧ q.strTransPort = m.transport := by
  intro m
  obtain ⟨s, hs⟩ : ∃ s, m.encodeMessage (ascii "Thu") = some s := ⟨_, rfl⟩
  have hdate : OneLine (ascii "Thu") := oneLine_of_all (by decide)
  obtain ⟨q, hq, htransport, -⟩ :=
    @parse_encodeMessage ⟨fun _ => [], fun _ => 0, fun _ => 0⟩ m s _ hs nofun (oneLine_of_all rfl) hdate
  exact ⟨s, q, hs, hq, htransport⟩

end Parse

/-! ## Decoding what was encoded -/

/-- A decoding has the transport of `m` in its result. -/
def Restored (m : RtspSetupMessage) : Except RtspSetupMessage RtspSetupMessage → Prop
  | .error _ => False
  | .ok m' =>
    m'.unTransType = m.unTransType ∧
      match m.unTransType with
      | .tcp => m'.unInterleaveNum = m.unInterleaveNum
      | .udp => m'.usClientPort = m.usClientPort ∧ (m.unMsgType = .rsp → m'.usServerPort = m.usServerPort)

section Decode

variable {lib : CLib} {m d : RtspSetupMessage}

theorem restored_tcp (h : m.unTransType = .tcp) (p : RtspPacket) :
    Restored m (d.decodeMessage lib { p with strTransPort := m.transport }) := by
  obtain ⟨n, hfind, hatoi⟩ := find_interleaved h
  obtain ⟨k, htcp⟩ := find_tcp h
  simp only [decodeMessage, htcp, hfind, Restored, h, hatoi, and_self]

/-- Over UDP the transport is read into a message of the same type. -/
theorem decodeMessage_udp (lib : CLib) (d : RtspSetupMessage) (h : m.unTransType = .udp) (p : RtspPacket) :
    ∃ d₀ : RtspSetupMessage, d₀.unMsgType = d.unMsgType ∧ d₀.unTransType = .udp ∧ d₀.usServerPort = d.usServerPort ∧
      d.decodeMessage lib { p with strTransPort := m.transport } = parseUdpTransParam lib d₀ m.transport := by
  let d₀ : RtspSetupMessage := { d with
    toRtspServerMessage := d.toRtspServerMessage.decodeMessage { p with strTransPort := m.transport }
    unTransType := .udp }
  refine ⟨d₀, by simp [d₀], rfl, rfl, ?_⟩
  simp only [decodeMessage, find_tcp_udp h, d₀]

/-- A message that is a request leaves its port of the server alone. -/
theorem parseUdpTransParam_request (lib : CLib) (h : m.unTransType = .udp) (hd : d.unMsgType = .req) :
    ∃ d', parseUdpTransParam lib d m.transport = .ok d' ∧ d'.unTransType = d.unTransType ∧
      d'.usClientPort = m.usClientPort ∧ d'.usServerPort = d.usServerPort := by
  unfold parseUdpTransParam
  rw [parsePort_client h]
  dsimp only
  obtain ⟨ok, strIp⟩ := parseIp lib m.transport (ascii "destination=") []
  cases ok <;> simp only [hd, toUInt16_atoi_decimal, if_true, Bool.false_eq_true, if_false] <;>
    exact ⟨_, rfl, rfl, rfl, rfl⟩

/-- A message that is an answer reads an answer. -/
theorem parseUdpTransParam_response (lib : CLib) (h : m.unTransType = .udp) (hm : m.unMsgType = .rsp)
    (hd : d.unMsgType = .rsp) :
    ∃ d', parseUdpTransParam lib d m.transport = .ok d' ∧ d'.unTransType = d.unTransType ∧
      d'.usClientPort = m.usClientPort ∧ d'.usServerPort = m.usServerPort := by
  unfold parseUdpTransParam
  rw [parsePort_client h]
  dsimp only
  obtain ⟨ok, strIp⟩ := parseIp lib m.transport (ascii "destination=") []
  cases ok <;> simp only [hd, toUInt16_atoi_decimal, if_true, Bool.false_eq_true, if_false,
    parsePort_server_response h hm]
  all_goals
    refine ⟨_, rfl, ?_⟩
    split <;> exact ⟨rfl, rfl, rfl⟩

/-- A message that is an answer does not read a request. -/
theorem parseUdpTransParam_error (lib : CLib) (h : m.unTransType = .udp) (hm : m.unMsgType = .req)
    (hd : d.unMsgType = .rsp) : ∃ d', parseUdpTransParam lib d m.transport = .error d' := by
  unfold parseUdpTransParam
  rw [parsePort_client h]
  dsimp only
  obtain ⟨ok, strIp⟩ := parseIp lib m.transport (ascii "destination=") []
  cases ok <;> simp only [hd, if_true, Bool.false_eq_true, if_false, parsePort_server_request h hm] <;>
    exact ⟨_, rfl⟩

theorem restored_udp_same (h : m.unTransType = .udp) (hd : d.unMsgType = m.unMsgType) (p : RtspPacket) :
    Restored m (d.decodeMessage lib { p with strTransPort := m.transport }) := by
  obtain ⟨d₀, htype, htrans₀, -, hdecode⟩ := decodeMessage_udp lib d h p
  rw [hdecode]
  cases hm : m.unMsgType with
  | req =>
    obtain ⟨d', hr, htrans, hclient, -⟩ := parseUdpTransParam_request lib h (htype.trans (hd.trans hm))
    rw [hr]
    simp [Restored, h, hm, htrans, htrans₀, hclient]
  | rsp =>
    obtain ⟨d', hr, htrans, hclient, hserver⟩ :=
      parseUdpTransParam_response lib h hm (htype.trans (hd.trans hm))
    rw [hr]
    simp [Restored, h, htrans, htrans₀, hclient, hserver]

theorem restored_udp_response (h : m.unTransType = .udp) (hm : m.unMsgType = .rsp) (hd : d.unMsgType = .req)
    (p : RtspPacket) : Restored m (d.decodeMessage lib { p with strTransPort := m.transport }) ↔
      d.usServerPort = m.usServerPort := by
  obtain ⟨d₀, htype, htrans₀, hserver₀, hdecode⟩ := decodeMessage_udp lib d h p
  obtain ⟨d', hr, htrans, hclient, hserver⟩ := parseUdpTransParam_request lib h (htype.trans hd)
  rw [hdecode, hr]
  simp [Restored, h, hm, htrans, htrans₀, hclient, hserver, hserver₀]

theorem not_restored_udp_request (h : m.unTransType = .udp) (hm : m.unMsgType = .req) (hd : d.unMsgType = .rsp)
    (p : RtspPacket) : ¬ Restored m (d.decodeMessage lib { p with strTransPort := m.transport }) := by
  obtain ⟨d₀, htype, -, -, hdecode⟩ := decodeMessage_udp lib d h p
  obtain ⟨d', hr⟩ := parseUdpTransParam_error lib h hm (htype.trans hd)
  rw [hdecode, hr]
  exact id

/-- The transport of every message is read back over TCP, and over UDP by a message of the same type. A message that is
a request has the port of the server in an answer only if it had it before. -/
theorem restored_iff (lib : CLib) (m d : RtspSetupMessage) (p : RtspPacket) :
    Restored m (d.decodeMessage lib { p with strTransPort := m.transport }) ↔
      m.unTransType = .tcp ∨ d.unMsgType = m.unMsgType ∨
        m.unMsgType = .rsp ∧ d.usServerPort = m.usServerPort := by
  cases h : m.unTransType with
  | tcp => simp [restored_tcp h]
  | udp =>
    cases hd : d.unMsgType <;> cases hm : m.unMsgType
    · simp [restored_udp_same h (hd.trans hm.symm)]
    · simp [restored_udp_response h hm hd]
    · simp [not_restored_udp_request h hm hd]
    · simp [restored_udp_same h (hd.trans hm.symm)]

/-- A new message, as it is made for an answer that is received, is a request. It does not get the port of the
server. -/
theorem not_restored_answer : ¬ ∀ (lib : CLib) (m : RtspSetupMessage) (p : RtspPacket),
    (m.unTransType = .tcp → m.unInterleaveNum.toNat < 2 ^ 31 - 1) →
      Restored m (init.decodeMessage lib { p with strTransPort := m.transport }) := by
  intro h
  have hanswer := h ⟨fun _ => [], fun _ => 0, fun _ => 0xffffffff⟩
    { init with unMsgType := .rsp, unStatusCode := 1, unTransType := .udp, usClientPort := 5000, usServerPort := 6000 }
    { RtspPacket.init with methodIndex := rtspResponseMethod } nofun
  exact absurd ((restored_udp_response rfl rfl rfl _).mp hanswer) (by decide)

end Decode

end RtspSetupMessage

end AllCamera
