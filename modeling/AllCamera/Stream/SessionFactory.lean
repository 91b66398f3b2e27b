import AllCamera.Lib.Run
import AllCamera.Lib.SortedMap
import Mathlib.Data.List.Lex

/-!
# The session factory (`CStreamSessionFactory`)

The factory makes the sessions, gives them their ids and counts the references to them. Its map is
from the ids to the sessions, and a multimap is from a content to the ids of the sessions that are a
source of it.

* `SessionFactory`: the members of the class, and the sessions that are allocated.
* `createSourceSession`, `createSession`, `findSession`, `findSessionByContent`, `getAllSession`,
  `releaseSession`, `releaseSessionById`: the functions, each of which has the mutex for its whole
  time.
* `SessionSystem`: the factory and, for the statements, the references that its callers have.

A session is its address. What the classes of sessions do is left out, but for the class that is
chosen; so is the timer that checks the status of the sessions.
-/

namespace AllCamera

open scoped UIntOrder

/-- `CONTENT_ID_LEN`. -/
def contentIdLen : Nat := 256

/-- `SESSION_TYPE`. -/
inductive SessionType where
  | rtp
  | rtsp
  | rtmp
  | hls
  | ehome
  | max
  deriving DecidableEq, Repr

/-- `PEER_TYPE`. -/
inductive PeerType where
  | pu
  | cu
  | record
  | stream
  | max
  deriving DecidableEq, Repr

/-- The classes of sessions. -/
inductive SessionClass where
  | stdRtpSession
  | rtmpSession
  | ehomeSession
  | rtpSession
  deriving DecidableEq, Repr

/-- `CStreamSession`, as the factory uses it. -/
structure StreamSession where
  sessionClass : SessionClass
  peerType : PeerType
  streamID : UInt64
  szContentId : List UInt8
  lReferenceCnt : Int32
  deriving DecidableEq, Repr

namespace StreamSession

def addReference (o : StreamSession) : StreamSession :=
  { o with lReferenceCnt := o.lReferenceCnt + 1 }

def decReference (o : StreamSession) : StreamSession :=
  { o with lReferenceCnt := o.lReferenceCnt - 1 }

/-- `setContentID`: `strncpy` fills the first `CONTENT_ID_LEN` bytes of the array, with zeros behind
a shorter text; the byte behind them is 0. -/
def setContentID (o : StreamSession) (strContentID : List UInt8) : StreamSession :=
  { o with szContentId := (strContentID.takeWhile (· ≠ 0)).take contentIdLen }

end StreamSession

/-- The members of `CStreamSessionFactory`, and the session at each address. -/
structure SessionFactory where
  sessionMap : SortedMap UInt64 Nat
  contentMap : Multimap (List UInt8) UInt64
  sessionIndex : UInt64
  session : Nat → Option StreamSession

namespace SessionFactory

/-- `createConcreteSession`: a local session of another type is not made. -/
def createConcreteSession (unSessionType : SessionType) (bLocalFlag : Bool) :
    Option SessionClass :=
  if bLocalFlag then
    match unSessionType with
    | .rtsp => some .stdRtpSession
    | .rtmp => some .rtmpSession
    | _ => none
  else if unSessionType = .ehome then some .ehomeSession else some .rtpSession

/-- What is done to the session at `p`. -/
def modify (f : SessionFactory) (p : Nat) (g : StreamSession → StreamSession) : SessionFactory :=
  { f with session := Function.update f.session p ((f.session p).map g) }

def addReference (f : SessionFactory) (p : Nat) : SessionFactory := f.modify p (·.addReference)

/-- `createSourceSession` (of a content) and `createSession`. The address is the one that `new`
gives. -/
def create (f : SessionFactory) (strContent : Option (List UInt8)) (unPeerType : PeerType)
    (unSessionType : SessionType) (bLocalFlag : Bool) (p : Nat) : Option Nat × SessionFactory :=
  let sessionIndx := f.sessionIndex
  let f := { f with sessionIndex := sessionIndx + 1 }
  match f.sessionMap.find sessionIndx with
  | some q => (some q, f.addReference q)
  | none =>
    match createConcreteSession unSessionType bLocalFlag with
    | none => (none, f)
    | some sessionClass =>
      let o : StreamSession :=
        { sessionClass, peerType := unPeerType, streamID := sessionIndx, szContentId := [],
          lReferenceCnt := 1 }
      (some p,
        { f with
          session := Function.update f.session p (some o)
          sessionMap := f.sessionMap.insert sessionIndx p
          contentMap :=
            match strContent with
            | some c => f.contentMap.insert c sessionIndx
            | none => f.contentMap })

def createSourceSession (f : SessionFactory) (strContent : List UInt8) (unPeerType : PeerType)
    (unSessionType : SessionType) (bLocalFlag : Bool) (p : Nat) : Option Nat × SessionFactory :=
  f.create (some strContent) unPeerType unSessionType bLocalFlag p

def createSession (f : SessionFactory) (unPeerType : PeerType) (unSessionType : SessionType)
    (bLocalFlag : Bool) (p : Nat) : Option Nat × SessionFactory :=
  f.create none unPeerType unSessionType bLocalFlag p

/-- The session at `p` leaves the maps and is deleted. The scan for its content begins at the
content and goes on to the end of the map. -/
def destroy (f : SessionFactory) (p : Nat) (key : UInt64) (o : StreamSession) : SessionFactory :=
  { f with
    sessionMap := f.sessionMap.erase key
    contentMap := f.contentMap.eraseFrom o.szContentId (fun _ => true) (fun e => e.2 == o.streamID)
    session := Function.update f.session p none }

/-- `releaseSession` of a session; one that is not in the map is left as it is. -/
def releaseSession (f : SessionFactory) (p : Nat) : SessionFactory :=
  match f.session p with
  | none => f
  | some o =>
    let o := o.decReference
    if 0 < o.lReferenceCnt then f.modify p (·.decReference)
    else
      match f.sessionMap.find o.streamID with
      | none => f.modify p (·.decReference)
      | some _ => f.destroy p o.streamID o

/-- `releaseSession` by id. -/
def releaseSessionById (f : SessionFactory) (streamID : UInt64) : SessionFactory :=
  match f.sessionMap.find streamID with
  | none => f
  | some p =>
    match f.session p with
    | none => f
    | some o =>
      let o := o.decReference
      if 0 < o.lReferenceCnt then f.modify p (·.decReference) else f.destroy p streamID o

/-- `findSession` by id. -/
def findSession (f : SessionFactory) (streamID : UInt64) : Option Nat × SessionFactory :=
  match f.sessionMap.find streamID with
  | none => (none, f)
  | some p => (some p, f.addReference p)

/-- `findSession` by content: the first of the content's ids. -/
def findSessionByContent (f : SessionFactory) (strContent : List UInt8) :
    Option Nat × SessionFactory :=
  match f.contentMap.find strContent with
  | [] => (none, f)
  | (_, sessionIndx) :: _ => f.findSession sessionIndx

def getAllSession (f : SessionFactory) : List Nat × SessionFactory :=
  let sessionList := f.sessionMap.entries.map Prod.snd
  (sessionList, sessionList.foldl addReference f)

end SessionFactory

/-! ## The factory and its callers -/

/-- The factory; for each session the references to it that were obtained and not yet released and
the content it was created for; the ids of the sessions created so far; the calls that create. -/
structure SessionSystem where
  factory : SessionFactory
  held : Nat → Nat
  contentOf : Nat → Option (List UInt8)
  created : List UInt64
  creates : Nat

namespace SessionSystem

/-- The calls. A call that creates has the address that `new` gives; `setContentID` is called by
whoever has a session. -/
inductive Act where
  | createSourceSession (strContent : List UInt8) (unPeerType : PeerType)
      (unSessionType : SessionType) (bLocalFlag : Bool) (p : Nat)
  | createSession (unPeerType : PeerType) (unSessionType : SessionType) (bLocalFlag : Bool) (p : Nat)
  | setContentID (p : Nat) (strContentID : List UInt8)
  | findSession (streamID : UInt64)
  | findSessionByContent (strContent : List UInt8)
  | getAllSession
  | releaseSession (p : Nat)
  | releaseSessionById (streamID : UInt64)
  deriving DecidableEq, Repr

/-- A new factory. -/
def init : SessionSystem where
  factory :=
    { sessionMap := .empty, contentMap := .empty, sessionIndex := 1, session := fun _ => none }
  held := fun _ => 0
  contentOf := fun _ => none
  created := []
  creates := 0

/-- The caller gets the references that a call has added. -/
def obtain (s : SessionSystem) (r : Option Nat × SessionFactory) : SessionSystem :=
  { s with
    factory := r.2
    held := match r.1 with
      | some p => Function.update s.held p (s.held p + 1)
      | none => s.held }

/-- A call that creates, of a content or of none, and its result: a session at the address of `new` is
a new one. -/
def createStep (s : SessionSystem) (strContent : Option (List UInt8))
    (r : Option Nat × SessionFactory) (p : Nat) : SessionSystem :=
  let s := { s with creates := s.creates + 1 }
  if r.1 = some p then
    { s.obtain r with
      contentOf := Function.update s.contentOf p strContent
      created := s.factory.sessionIndex :: s.created }
  else s.obtain r

/-- A reference to `p` is given back. -/
def giveBack (s : SessionSystem) (p : Nat) (f : SessionFactory) : SessionSystem :=
  { s with factory := f, held := Function.update s.held p (s.held p - 1) }

def step (s : SessionSystem) : Act → SessionSystem
  | .createSourceSession c peer type flag p =>
    s.createStep (some c) (s.factory.createSourceSession c peer type flag p) p
  | .createSession peer type flag p =>
    s.createStep none (s.factory.createSession peer type flag p) p
  | .setContentID p c => { s with factory := s.factory.modify p (·.setContentID c) }
  | .findSession streamID => s.obtain (s.factory.findSession streamID)
  | .findSessionByContent c => s.obtain (s.factory.findSessionByContent c)
  | .getAllSession =>
    let r := s.factory.getAllSession
    { s with factory := r.2, held := fun p => s.held p + r.1.count p }
  | .releaseSession p => s.giveBack p (s.factory.releaseSession p)
  | .releaseSessionById streamID =>
    match s.factory.sessionMap.find streamID with
    | none => s
    | some p => s.giveBack p (s.factory.releaseSessionById streamID)

/-- A reference to `p` may be given back: there is one, and if it is the last one to a source session,
the session has the content id it was created for. -/
def Releasable (s : SessionSystem) (p : Nat) : Prop :=
  0 < s.held p ∧
    (s.held p = 1 → ∀ c ∈ s.contentOf p, ∀ o ∈ s.factory.session p, o.szContentId = c)

instance (s : SessionSystem) (p : Nat) : Decidable (s.Releasable p) :=
  inferInstanceAs (Decidable (_ ∧ _))

/-- What callers keep to, and `new`: an address is given out when nothing is there. -/
def Disciplined (s : SessionSystem) : Act → Prop
  | .createSourceSession _ _ _ _ p => s.factory.session p = none
  | .createSession _ _ _ p => s.factory.session p = none
  | .releaseSession p => s.Releasable p
  | .releaseSessionById streamID => ∀ p ∈ s.factory.sessionMap.find streamID, s.Releasable p
  | _ => True

instance (s : SessionSystem) : ∀ a, Decidable (s.Disciplined a)
  | .createSourceSession _ _ _ _ p => inferInstanceAs (Decidable (s.factory.session p = none))
  | .createSession _ _ _ p => inferInstanceAs (Decidable (s.factory.session p = none))
  | .setContentID _ _ => inferInstanceAs (Decidable True)
  | .findSession _ => inferInstanceAs (Decidable True)
  | .findSessionByContent _ => inferInstanceAs (Decidable True)
  | .getAllSession => inferInstanceAs (Decidable True)
  | .releaseSession p => inferInstanceAs (Decidable (s.Releasable p))
  | .releaseSessionById streamID =>
    inferInstanceAs (Decidable (∀ p ∈ s.factory.sessionMap.find streamID, s.Releasable p))

end SessionSystem

end AllCamera
