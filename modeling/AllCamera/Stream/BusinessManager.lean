import AllCamera.Lib.SortedMap
import AllCamera.Stream.Business

/-!
# The business manager (`CStreamBusinessManager`)

The manager has every business twice in its multimap, under the stream it receives and the one it
sends, and counts the references to it.

* `BusinessManager`: the members of the class, and the businesses that are allocated.
* `createBusiness`, `findBusiness`, `findBusinessList`, `getAllBusiness`, `releaseBusiness`,
  `statFlux`: the functions. What they do to the maps is done under the mutex; a list is released by
  one `releaseBusiness` after another.
* `BusinessSystem`: the manager and, for the statements, the references that its callers have.

A business is its address. Of the business itself there are its ids, its type and its count; the
rates that it reports are given to `statFlux`. The timer is left out.
-/

namespace AllCamera

open scoped UIntOrder

/-- `KILO`. -/
def kilo : UInt32 := 1024

/-- `CStreamBusiness`, as the manager uses it. -/
structure ManagedBusiness where
  recvStreamID : UInt64
  sendStreamID : UInt64
  enPlayType : PlayType
  nRefCount : Int32
  deriving DecidableEq, Repr

namespace ManagedBusiness

def addReference (b : ManagedBusiness) : ManagedBusiness := { b with nRefCount := b.nRefCount + 1 }

def decReference (b : ManagedBusiness) : ManagedBusiness := { b with nRefCount := b.nRefCount - 1 }

end ManagedBusiness

/-- The members of `CStreamBusinessManager`, and the business at each address. -/
structure BusinessManager where
  businessMap : Multimap UInt64 Nat
  unMaxBusinessNum : UInt32
  inputRate : UInt32
  outputRate : UInt32
  business : Nat → Option ManagedBusiness

namespace BusinessManager

/-- What is done to the business at `p`. -/
def modify (m : BusinessManager) (p : Nat) (g : ManagedBusiness → ManagedBusiness) :
    BusinessManager :=
  { m with business := Function.update m.business p ((m.business p).map g) }

def addReference (m : BusinessManager) (p : Nat) : BusinessManager := m.modify p (·.addReference)

/-- `createBusiness`. `initialized`: `new` has given the address `p`, and `init` has found both
sessions. -/
def createBusiness (capacity : UInt32) (m : BusinessManager) (recvSessionId sendSessionId : UInt64)
    (enPlayType : PlayType) (initialized : Bool) (p : Nat) : Option Nat × BusinessManager :=
  if !initialized then (none, m)
  else if capacity ≤ m.unMaxBusinessNum then (none, m)
  else
    let b : ManagedBusiness :=
      { recvStreamID := recvSessionId, sendStreamID := sendSessionId, enPlayType, nRefCount := 1 }
    (some p,
      { m with
        business := Function.update m.business p (some b)
        businessMap := (m.businessMap.insert recvSessionId p).insert sendSessionId p
        unMaxBusinessNum := m.unMaxBusinessNum + 1 })

/-- `findBusiness`: the first business of the stream. -/
def findBusiness (m : BusinessManager) (streamID : UInt64) : Option Nat × BusinessManager :=
  match m.businessMap.find streamID with
  | [] => (none, m)
  | (_, p) :: _ => (some p, m.addReference p)

/-- `findBusiness` of a list: one that has the stream for both of its own is in it twice. -/
def findBusinessList (m : BusinessManager) (streamID : UInt64) : List Nat × BusinessManager :=
  let list := ((m.businessMap.find streamID).takeWhile fun e => e.1 = streamID).map Prod.snd
  (list, list.foldl addReference m)

/-- `getAllBusiness`: `isBusinessInList` keeps the second entry of a business out. -/
def getAllBusiness (m : BusinessManager) : List Nat × BusinessManager :=
  let businessList := m.businessMap.entries.foldl
    (fun list e => if e.2 ∈ list then list else list ++ [e.2]) []
  (businessList, businessList.foldl addReference m)

/-- `statFlux`, with the rates that the businesses have at the time. -/
def statFlux (m : BusinessManager) (inputRate outputRate : Nat → UInt32) : BusinessManager :=
  { m with
    inputRate := m.businessMap.entries.foldl (fun sum e => sum + inputRate e.2) 0 / kilo
    outputRate := m.businessMap.entries.foldl (fun sum e => sum + outputRate e.2) 0 / kilo }

/-- A loop of `destroyBusiness`: of the stream's entries, the one of the business is erased. -/
def eraseEntry (m : Multimap UInt64 Nat) (stream : UInt64) (p : Nat) : Multimap UInt64 Nat :=
  m.eraseFrom stream (fun e => e.1 == stream) (fun e => e.2 == p)

/-- `destroyBusiness`. -/
def destroyBusiness (m : BusinessManager) (p : Nat) (b : ManagedBusiness) : BusinessManager :=
  { m with
    businessMap := eraseEntry (eraseEntry m.businessMap b.recvStreamID p) b.sendStreamID p
    business := Function.update m.business p none }

/-- `releaseBusiness`. -/
def releaseBusiness (m : BusinessManager) (p : Nat) : BusinessManager :=
  match m.business p with
  | none => m
  | some b =>
    let b := b.decReference
    if b.nRefCount ≤ 0 then
      let m := m.destroyBusiness p b
      { m with unMaxBusinessNum := m.unMaxBusinessNum - 1 }
    else m.modify p (·.decReference)

end BusinessManager

/-! ## The manager and its callers -/

/-- The manager; for each business the references to it that were obtained and not yet released; the
businesses that were created and not yet destroyed. -/
structure BusinessSystem where
  manager : BusinessManager
  held : Nat → Nat
  live : List Nat

namespace BusinessSystem

/-- The calls. -/
inductive Act where
  | createBusiness (recvSessionId sendSessionId : UInt64) (enPlayType : PlayType)
      (initialized : Bool) (p : Nat)
  | findBusiness (streamID : UInt64)
  | findBusinessList (streamID : UInt64)
  | getAllBusiness
  | releaseBusiness (p : Nat)
  | statFlux (inputRate outputRate : Nat → UInt32)

/-- A new manager. -/
def init : BusinessSystem where
  manager :=
    { businessMap := .empty, unMaxBusinessNum := 0, inputRate := 0, outputRate := 0,
      business := fun _ => none }
  held := fun _ => 0
  live := []

/-- The caller gets a reference to each business of the list that a call returns. -/
def obtain (s : BusinessSystem) (r : List Nat × BusinessManager) : BusinessSystem :=
  { s with manager := r.2, held := fun p => s.held p + r.1.count p }

def step (capacity : UInt32) (s : BusinessSystem) : Act → BusinessSystem
  | .createBusiness recvSessionId sendSessionId enPlayType initialized p =>
    let r := s.manager.createBusiness capacity recvSessionId sendSessionId enPlayType initialized p
    { s.obtain (r.1.toList, r.2) with live := r.1.toList ++ s.live }
  | .findBusiness streamID =>
    let r := s.manager.findBusiness streamID
    s.obtain (r.1.toList, r.2)
  | .findBusinessList streamID => s.obtain (s.manager.findBusinessList streamID)
  | .getAllBusiness => s.obtain s.manager.getAllBusiness
  | .releaseBusiness p =>
    let manager := s.manager.releaseBusiness p
    { s with
      manager
      held := Function.update s.held p (s.held p - 1)
      live := s.live.filter fun q => (manager.business q).isSome }
  | .statFlux inputRate outputRate =>
    { s with manager := s.manager.statFlux inputRate outputRate }

/-- A reference is released once, and `new` gives an address where nothing is. -/
def Disciplined (s : BusinessSystem) : Act → Prop
  | .createBusiness _ _ _ _ p => s.manager.business p = none
  | .releaseBusiness p => 0 < s.held p
  | _ => True

instance (s : BusinessSystem) : ∀ a, Decidable (s.Disciplined a)
  | .createBusiness _ _ _ _ p => inferInstanceAs (Decidable (s.manager.business p = none))
  | .findBusiness _ => inferInstanceAs (Decidable True)
  | .findBusinessList _ => inferInstanceAs (Decidable True)
  | .getAllBusiness => inferInstanceAs (Decidable True)
  | .releaseBusiness p => inferInstanceAs (Decidable (0 < s.held p))
  | .statFlux _ _ => inferInstanceAs (Decidable True)

/-- No count of references is beyond its range. -/
def Bounded (s : BusinessSystem) : Prop := ∀ p ∈ s.live, s.held p < 2 ^ 31

instance (s : BusinessSystem) : Decidable s.Bounded :=
  inferInstanceAs (Decidable (∀ p ∈ s.live, _))

end BusinessSystem

end AllCamera
