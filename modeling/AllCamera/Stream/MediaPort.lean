import AllCamera.Lib.History
import AllCamera.Lib.Run
import AllCamera.Lib.SortedMap

/-!
# The UDP media ports (`CStreamMediaPort`)

At its start the interface opens pairs of UDP ports, an even one for RTP and the next one for RTCP,
out of the configured ranges. Sessions take a pair and give it back.

* `portList`: the ports of the ranges, as `init` collects them.
* `createRtpUdpPort`: the pairs are opened. Which handles can be allocated and opened is given; a port
  to which an open handle of the process is bound is not bound a second time.
* `allocRtpUdpPort`, `releaseRtpUdpPort`: the pair with the least port is handed out; a pair comes back
  by the local port of the handle that is given.
* `PortSystem`: the interface, the bound ports, the pairs that were opened, and what was handed out
  and came back.

The TCP port and the ports for Ehome are left out.
-/

namespace AllCamera

open scoped UIntOrder

/-- `PortRange`. -/
structure PortRange where
  usStartPort : UInt16
  usEndPort : UInt16
  deriving DecidableEq, Repr

/-- The loop of `init` over a range, from `usStartPort = p` on, for `fuel` tests of its condition. -/
def rangeLoop (range : PortRange) : Nat → UInt16 → Option (List UInt16)
  | 0, _ => none
  | fuel + 1, p =>
    if p ≤ range.usEndPort ∧ range.usStartPort ≤ p then
      (rangeLoop range fuel (p + 1)).map (p :: ·)
    else some []

/-- The list of ports that `init` makes of the ranges; `none` if a loop has not ended in time. -/
def portList (fuel : Nat) : List PortRange → Option (List UInt16)
  | [] => some []
  | range :: ranges =>
    match rangeLoop range fuel range.usStartPort, portList fuel ranges with
    | some list, some rest => some (list ++ rest)
    | _, _ => none

/-- A `CUdpHandle`: its address and the port of its local address. -/
structure UdpHandle where
  handle : Nat
  localPort : UInt16
  deriving DecidableEq, Repr

/-- `RTP_UDP_PORT_INFO`. -/
structure RtpUdpPortInfo where
  pRtpHandle : UdpHandle
  pRtcpHandle : UdpHandle
  deriving DecidableEq, Repr

/-- The UDP ports of `CStreamMediaPort`. -/
structure MediaPort where
  unPortNum : UInt32
  unUsedUdpPortMap : SortedMap UInt16 RtpUdpPortInfo
  allocUdpPortMap : SortedMap UInt16 RtpUdpPortInfo

namespace MediaPort

/-- `allocRtpUdpPort`: the first of the unused pairs. -/
def allocRtpUdpPort (m : MediaPort) : Option RtpUdpPortInfo × MediaPort :=
  match m.unUsedUdpPortMap.entries with
  | [] => (none, m)
  | (port, udpInfo) :: _ =>
    (some udpInfo,
      { m with
        allocUdpPortMap := m.allocUdpPortMap.insert port udpInfo
        unUsedUdpPortMap := m.unUsedUdpPortMap.erase port })

/-- `releaseRtpUdpPort`; first component: the pair that has come back, `none` for `RET_FAIL`. -/
def releaseRtpUdpPort (m : MediaPort) (pRtpHandle pRtcpHandle : Option UdpHandle) :
    Option RtpUdpPortInfo × MediaPort :=
  match pRtpHandle, pRtcpHandle with
  | some rtp, some _ =>
    let usRtpPort := rtp.localPort
    match m.allocUdpPortMap.find usRtpPort with
    | none => (none, m)
    | some udpInfo =>
      (some udpInfo,
        { m with
          unUsedUdpPortMap := m.unUsedUdpPortMap.insert usRtpPort udpInfo
          allocUdpPortMap := m.allocUdpPortMap.erase usRtpPort })
  | _, _ => (none, m)

end MediaPort

/-- What becomes of an attempt to open a pair: whether `new` gives both handles, and whether the
sockets can be opened and registered. -/
structure Attempt where
  allocated : Bool
  rtpOpens : Bool
  rtcpOpens : Bool
  deriving DecidableEq, Repr

/-- The interface; the ports bound by its handles; the pairs opened at the start; what was handed out
and came back, newest first. -/
structure PortSystem where
  mediaPort : MediaPort
  bound : List UInt16
  opened : List RtpUdpPortInfo
  history : List (History.Event RtpUdpPortInfo)

/-- `openHandle`: the bound ports with the handle's one. Port 0 lets the system choose one. -/
def openHandle (bound : List UInt16) (opens : Bool) (port : UInt16) : Option (List UInt16) :=
  if opens ∧ (port = 0 ∨ port ∉ bound) then some (port :: bound) else none

namespace PortSystem

/-- The interface before `init`. -/
def empty : PortSystem where
  mediaPort := { unPortNum := 0, unUsedUdpPortMap := .empty, allocUdpPortMap := .empty }
  bound := []
  opened := []
  history := []

/-- One round of the loop of `createRtpUdpPort`; `none` if it returns since `new` has failed. Handles
that are deleted leave their ports. -/
def createPair (list : List UInt16) (attempt : Attempt) (n : Nat) (usRtpPort : UInt16)
    (s : PortSystem) : Option PortSystem :=
  if usRtpPort % 2 ≠ 0 then some s
  else
    let usRtcpPort := usRtpPort + 1
    if usRtcpPort ∉ list then some s
    else if !attempt.allocated then none
    else
      match openHandle s.bound attempt.rtpOpens usRtpPort with
      | none => some s
      | some bound =>
        match openHandle bound attempt.rtcpOpens usRtcpPort with
        | none => some s
        | some bound =>
          let udpInfo : RtpUdpPortInfo := ⟨⟨2 * n, usRtpPort⟩, ⟨2 * n + 1, usRtcpPort⟩⟩
          some
            { s with
              mediaPort :=
                { s.mediaPort with
                  unUsedUdpPortMap := s.mediaPort.unUsedUdpPortMap.insert usRtpPort udpInfo
                  unPortNum := s.mediaPort.unPortNum + 1 }
              bound
              opened := udpInfo :: s.opened }

/-- `createRtpUdpPort`, from the port with number `n` of the list on. -/
def createRtpUdpPort (list : List UInt16) (attempts : Nat → Attempt) :
    Nat → List UInt16 → PortSystem → PortSystem
  | _, [], s => s
  | n, usRtpPort :: rest, s =>
    match createPair list (attempts n) n usRtpPort s with
    | none => s
    | some s => createRtpUdpPort list attempts (n + 1) rest s

/-- The interface after `init`. A loop that does not end after all ports does not end at all, and no
port is opened. -/
def start (ranges : List PortRange) (attempts : Nat → Attempt) : PortSystem :=
  match portList (2 ^ 16 + 1) ranges with
  | none => empty
  | some list => createRtpUdpPort list attempts 0 list empty

/-- The calls. -/
inductive Act where
  | allocRtpUdpPort
  | releaseRtpUdpPort (pRtpHandle pRtcpHandle : Option UdpHandle)
  deriving DecidableEq, Repr

def step (s : PortSystem) : Act → PortSystem
  | .allocRtpUdpPort =>
    let r := s.mediaPort.allocRtpUdpPort
    { s with mediaPort := r.2, history := r.1.toList.map .out ++ s.history }
  | .releaseRtpUdpPort pRtpHandle pRtcpHandle =>
    let r := s.mediaPort.releaseRtpUdpPort pRtpHandle pRtcpHandle
    { s with mediaPort := r.2, history := r.1.toList.map .back ++ s.history }

end PortSystem

end AllCamera
