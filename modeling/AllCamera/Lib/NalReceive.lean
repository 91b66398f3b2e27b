import AllCamera.Lib.Nal

/-!
# A receiver of H.264 payloads

The receiver takes RTP packets and puts the NAL units together that they carry: a payload is a NAL unit of the
types from 1 to 23, or a fragment. It refuses what does not fit: a payload of another type, a fragment that both
starts and ends a NAL unit, one that starts where another is not ended, one that goes on where nothing started or
under another NAL header, and a NAL unit in between.

* `rtpPayload`: the payload of an RTP packet.
* `NalReceiver.receive`: a payload arrives; `depacketize`: the NAL units of a list of payloads.
* `depacketize_single`: one payload is read as itself exactly if its type is that of a NAL unit.
* `receive_start`, `receive_middle`, `receive_stop`: the three kinds of fragments.
-/

namespace AllCamera

/-- The payload of an RTP packet: what is behind the fixed header, the CSRC list and the header extension, and in
front of the padding. -/
def rtpPayload (packet : List UInt8) : Option (List UInt8) :=
  let first := (packet.headD 0).toNat
  let csrc := 12 + first % 16 * 4
  let words := (packet.getD (csrc + 2) 0).toNat * 256 + (packet.getD (csrc + 3) 0).toNat
  let head := if first / 16 % 2 = 1 then csrc + 4 + words * 4 else csrc
  let tail := if first / 32 % 2 = 1 then (packet.getLastD 0).toNat else 0
  if first / 64 = 2 ∧ head + tail ≤ packet.length then
    some ((packet.drop head).take (packet.length - head - tail))
  else none

/-- A packet whose first byte has version 2 and nothing else. -/
theorem rtpPayload_plain {head : List UInt8} (hlen : head.length = 12) (hfirst : head.headD 0 = 128)
    (payload : List UInt8) : rtpPayload (head ++ payload) = some payload := by
  obtain ⟨b, bs, rfl⟩ := List.exists_cons_of_length_pos (l := head) (by omega)
  have hb : b = 128 := hfirst
  have hdrop : (b :: bs ++ payload).drop 12 = payload := List.drop_left' hlen
  have hsize : (b :: bs ++ payload).length = 12 + payload.length := by rw [List.length_append, hlen]
  have h128 : ((b :: bs ++ payload).headD 0).toNat = 128 := by rw [hb]; rfl
  have hext : ¬ 128 / 16 % 2 = 1 := by decide
  have hrest : 12 + payload.length - (12 + 128 % 16 * 4) - 0 = payload.length := by omega
  unfold rtpPayload
  simp only [h128, hsize, if_neg hext, hrest]
  rw [if_pos ⟨trivial, by omega⟩]
  exact congrArg some ((congrArg (List.take _) hdrop).trans (List.take_length ..))

namespace Nal

/-- The bit of a fragmentation header that starts a NAL unit. -/
def startBit (fu : UInt8) : Bool := fu.toNat / 128 == 1

/-- The bit of a fragmentation header that ends a NAL unit. -/
def stopBit (fu : UInt8) : Bool := fu.toNat / 64 % 2 == 1

/-- The types of the payloads that are a NAL unit. -/
def IsSingle (b : UInt8) : Prop := 1 ≤ typeOf b ∧ typeOf b ≤ 23

instance (b : UInt8) : Decidable (IsSingle b) := inferInstanceAs (Decidable (_ ∧ _))

theorem not_isSingle_fuA {b : UInt8} (h : typeOf b = fuA) : ¬ IsSingle b := by
  rintro ⟨-, hle⟩
  rw [h] at hle
  exact absurd hle (by decide)

end Nal

open Nal

/-- The NAL units that were put together, and the bytes of the one whose fragments arrive. -/
structure NalReceiver where
  units : List (List UInt8)
  part : Option (List UInt8)
  deriving DecidableEq

namespace NalReceiver

/-- A fragment that goes on: `rest` follows what is there. -/
def goOn (r : NalReceiver) (ind fu : UInt8) (rest : List UInt8) : Option NalReceiver :=
  r.part.bind fun bytes =>
    if bytes.head? ≠ some (rebuilt ind fu) then none
    else if stopBit fu then some ⟨r.units ++ [bytes ++ rest], none⟩
    else some { r with part := some (bytes ++ rest) }

/-- A fragment: the first one brings the NAL header. -/
def receiveFragment (r : NalReceiver) (ind : UInt8) : List UInt8 → Option NalReceiver
  | [] => none
  | fu :: rest =>
    if startBit fu then
      if r.part = none ∧ stopBit fu = false then some { r with part := some (rebuilt ind fu :: rest) } else none
    else r.goOn ind fu rest

/-- A payload arrives. -/
def receive (r : NalReceiver) : List UInt8 → Option NalReceiver
  | [] => none
  | head :: rest =>
    if IsSingle head then if r.part = none then some { r with units := r.units ++ [head :: rest] } else none
    else if typeOf head = fuA then r.receiveFragment head rest
    else none

/-- The payloads arrive one after the other. -/
def receiveAll (r : NalReceiver) (payloads : List (List UInt8)) : Option NalReceiver :=
  payloads.foldlM receive r

variable {r r' : NalReceiver} {ind fu head : UInt8} {bytes rest : List UInt8}

theorem receiveAll_nil (r : NalReceiver) : r.receiveAll [] = some r := rfl

theorem receiveAll_append (r : NalReceiver) (ps qs : List (List UInt8)) :
    r.receiveAll (ps ++ qs) = (r.receiveAll ps).bind fun r => r.receiveAll qs :=
  List.foldlM_append

theorem receiveAll_concat {ps : List (List UInt8)} (h : r.receiveAll ps = some r') (p : List UInt8) :
    r.receiveAll (ps ++ [p]) = r'.receive p := by
  rw [receiveAll_append, h]
  exact Option.bind_fun_some _

theorem receive_single (hhead : IsSingle head) (hpart : r.part = none) :
    r.receive (head :: rest) = some { r with units := r.units ++ [head :: rest] } := by
  rw [receive, if_pos hhead, if_pos hpart]

theorem receive_fuA (hind : typeOf ind = fuA) : r.receive (ind :: fu :: rest) = r.receiveFragment ind (fu :: rest) := by
  rw [receive, if_neg (not_isSingle_fuA hind), if_pos hind]

theorem receive_start (hind : typeOf ind = fuA) (hstart : startBit fu = true) (hstop : stopBit fu = false)
    (hpart : r.part = none) :
    r.receive (ind :: fu :: rest) = some { r with part := some (rebuilt ind fu :: rest) } := by
  rw [receive_fuA hind, receiveFragment, if_pos hstart, if_pos ⟨hpart, hstop⟩]

theorem goOn_of_part (hpart : r.part = some bytes) (hhead : bytes.head? = some (rebuilt ind fu)) :
    r.goOn ind fu rest =
      if stopBit fu then some ⟨r.units ++ [bytes ++ rest], none⟩ else some { r with part := some (bytes ++ rest) } := by
  rw [goOn, hpart, Option.bind_some, if_neg (not_not_intro hhead)]

theorem receive_middle (hind : typeOf ind = fuA) (hstart : startBit fu = false) (hstop : stopBit fu = false)
    (hpart : r.part = some bytes) (hhead : bytes.head? = some (rebuilt ind fu)) :
    r.receive (ind :: fu :: rest) = some { r with part := some (bytes ++ rest) } := by
  rw [receive_fuA hind, receiveFragment, if_neg (by simp [hstart]), goOn_of_part hpart hhead,
    if_neg (by simp [hstop])]

theorem receive_stop (hind : typeOf ind = fuA) (hstart : startBit fu = false) (hstop : stopBit fu = true)
    (hpart : r.part = some bytes) (hhead : bytes.head? = some (rebuilt ind fu)) :
    r.receive (ind :: fu :: rest) = some ⟨r.units ++ [bytes ++ rest], none⟩ := by
  rw [receive_fuA hind, receiveFragment, if_neg (by simp [hstart]), goOn_of_part hpart hhead, if_pos hstop]

theorem receiveAll_cons (r : NalReceiver) (p : List UInt8) (ps : List (List UInt8)) :
    r.receiveAll (p :: ps) = (r.receive p).bind fun r => r.receiveAll ps := rfl

/-- A start fragment is refused where another NAL unit is not ended. -/
theorem receive_start_of_part (hind : typeOf ind = fuA) (hstart : startBit fu = true) (hpart : r.part ≠ none) :
    r.receive (ind :: fu :: rest) = none := by
  rw [receive_fuA hind, receiveFragment, if_pos hstart, if_neg fun h => hpart h.1]

/-- Two start fragments one behind the other. -/
theorem receiveAll_start_start {ind' fu' : UInt8} {rest' : List UInt8} (hind : typeOf ind = fuA)
    (hstart : startBit fu = true) (hind' : typeOf ind' = fuA) (hstart' : startBit fu' = true) (r : NalReceiver)
    (ps : List (List UInt8)) : r.receiveAll ((ind :: fu :: rest) :: (ind' :: fu' :: rest') :: ps) = none := by
  rw [receiveAll_cons, receive_fuA hind, receiveFragment, if_pos hstart]
  split_ifs with hok
  · rw [Option.bind_some, receiveAll_cons, receive_start_of_part hind' hstart' (Option.some_ne_none _)]
    rfl
  · rfl

/-- A payload adds at most a NAL unit, and where none is open only itself. -/
theorem units_of_receive {p : List UInt8} (h : r.receive p = some r') : r'.units.length ≤ r.units.length + 1 ∧
    (r.part = none → r.units.length < r'.units.length →
      IsSingle (p.headD 0) ∧ r' = ⟨r.units ++ [p], none⟩) := by
  cases p with
  | nil => cases h
  | cons head rest =>
    rw [receive] at h
    split_ifs at h with hsingle hpart hfu
    · obtain rfl := Option.some.inj h
      refine ⟨by simp, fun _ _ => ⟨hsingle, ?_⟩⟩
      simp only [hpart]
    · cases rest with
      | nil => cases h
      | cons fu rest =>
        rw [receiveFragment] at h
        split_ifs at h with hstart hok
        · obtain rfl := Option.some.inj h
          exact ⟨Nat.le_succ _, fun _ hlt => absurd hlt (Nat.lt_irrefl _)⟩
        · obtain ⟨bytes, hbytes, h⟩ := Option.bind_eq_some_iff.mp h
          refine ⟨?_, fun hnone => by rw [hnone] at hbytes; cases hbytes⟩
          split_ifs at h
          · obtain rfl := Option.some.inj h
            simp
          · obtain rfl := Option.some.inj h
            exact Nat.le_succ _

/-- Payloads add at most a NAL unit each. -/
theorem length_units_le {ps : List (List UInt8)} (h : r.receiveAll ps = some r') :
    r'.units.length ≤ r.units.length + ps.length := by
  induction ps generalizing r with
  | nil =>
    cases h
    exact Nat.le_refl _
  | cons p ps ih =>
    rw [receiveAll_cons] at h
    obtain ⟨r₁, hp, h⟩ := Option.bind_eq_some_iff.mp h
    have hone := (units_of_receive hp).1
    have hrest := ih h
    rw [List.length_cons]
    omega

/-- Payloads that each add a NAL unit are these NAL units. -/
theorem units_eq_of_length {ps : List (List UInt8)} (hpart : r.part = none) (h : r.receiveAll ps = some r')
    (hlen : r'.units.length = r.units.length + ps.length) :
    (∀ p ∈ ps, IsSingle (p.headD 0)) ∧ r'.units = r.units ++ ps := by
  induction ps generalizing r with
  | nil =>
    cases h
    exact ⟨fun p hp => absurd hp List.not_mem_nil, (List.append_nil _).symm⟩
  | cons p ps ih =>
    rw [receiveAll_cons] at h
    obtain ⟨r₁, hp, h⟩ := Option.bind_eq_some_iff.mp h
    have hrest := length_units_le h
    rw [List.length_cons] at hlen
    obtain ⟨hsingle, rfl⟩ := (units_of_receive hp).2 hpart (by omega)
    obtain ⟨hall, hunits⟩ := ih rfl h (by rw [hlen, List.length_append, List.length_singleton]; omega)
    exact ⟨List.forall_mem_cons.mpr ⟨hsingle, hall⟩, by rw [hunits, List.append_assoc, List.singleton_append]⟩

/-- NAL units that are sent as they are. -/
theorem receiveAll_singles {ps : List (List UInt8)} (h : ∀ p ∈ ps, IsSingle (p.headD 0)) (units : List (List UInt8)) :
    receiveAll ⟨units, none⟩ ps = some ⟨units ++ ps, none⟩ := by
  induction ps generalizing units with
  | nil => rw [List.append_nil, receiveAll_nil]
  | cons p ps ih =>
    obtain ⟨hp, hps⟩ := List.forall_mem_cons.mp h
    cases p with
    | nil => exact absurd hp (by decide)
    | cons head rest =>
      have hhead : IsSingle head := hp
      rw [receiveAll_cons, receive_single hhead rfl, Option.bind_some, ih hps, List.append_assoc, List.singleton_append]

end NalReceiver

/-- The NAL units that the payloads carry; none, if the receiver refuses one or waits for more at the end. -/
def depacketize (payloads : List (List UInt8)) : Option (List (List UInt8)) :=
  (NalReceiver.receiveAll ⟨[], none⟩ payloads).bind fun r => if r.part = none then some r.units else none

theorem depacketize_of_receiveAll {payloads units : List (List UInt8)}
    (h : NalReceiver.receiveAll ⟨[], none⟩ payloads = some ⟨units, none⟩) : depacketize payloads = some units := by
  rw [depacketize, h]
  rfl

theorem depacketize_concat {ps : List (List UInt8)} {r : NalReceiver}
    (h : NalReceiver.receiveAll ⟨[], none⟩ ps = some r) (p : List UInt8) :
    depacketize (ps ++ [p]) = (r.receive p).bind fun r => if r.part = none then some r.units else none := by
  rw [depacketize, NalReceiver.receiveAll_concat h]

/-- As many payloads as NAL units: they are read as themselves exactly if all their types are those of NAL units. -/
theorem depacketize_eq_iff {ps units : List (List UInt8)} (hlen : units.length = ps.length) :
    depacketize ps = some units ↔ units = ps ∧ ∀ p ∈ ps, IsSingle (p.headD 0) := by
  constructor
  · intro h
    obtain ⟨r, hr, h⟩ := Option.bind_eq_some_iff.mp h
    split_ifs at h
    obtain rfl := Option.some.inj h
    obtain ⟨hall, hunits⟩ := NalReceiver.units_eq_of_length rfl hr (by rw [hlen]; exact (Nat.zero_add _).symm)
    exact ⟨hunits, hall⟩
  · rintro ⟨rfl, hall⟩
    exact depacketize_of_receiveAll (NalReceiver.receiveAll_singles hall [])

/-- One payload is read as itself exactly if its type is that of a NAL unit. -/
theorem depacketize_single {head : UInt8} {body : List UInt8} :
    depacketize [head :: body] = some [head :: body] ↔ IsSingle head := by
  rw [depacketize_eq_iff rfl, List.forall_mem_singleton]
  exact and_iff_right rfl

end AllCamera
