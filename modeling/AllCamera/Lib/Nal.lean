import Mathlib.Tactic.Common
import Mathlib.Data.List.Basic
import Mathlib.Data.UInt

/-!
# H.264 NAL units, in RTP packets and in a byte stream

A NAL unit is a header byte and a body. An RTP payload holds one NAL unit as it is, or a fragment
of the body behind a fragmentation indicator and a fragmentation header. A byte stream holds the
NAL units one after the other, each behind a start code.

* `Nal.Carried n ps`: the payloads `ps` carry the NAL unit `n` and nothing else.
* `CarriedAll ns ps`: the payloads carry the NAL units one after the other.
* `AnnexB ns es`: the bytes `es` are the byte stream of the NAL units; `AnnexB.le_length` and
  `AnnexB.length_le` bound its length.
-/

namespace AllCamera

/-- A NAL unit: the header byte and the body. The types from 24 on are those of other payloads. -/
structure Nal where
  header : UInt8
  body : List UInt8
  isNal : 1 ≤ header.toNat % 32 ∧ header.toNat % 32 ≤ 23

namespace Nal

/-- The type of a payload that holds a fragment. -/
def fuA : Nat := 28

/-- The type in a NAL header or a fragmentation indicator or header. -/
def typeOf (b : UInt8) : Nat := b.toNat % 32

/-- The bytes of a NAL unit. -/
def bytes (n : Nal) : List UInt8 := n.header :: n.body

/-- The fragmentation indicator: the first three bits of the NAL header. -/
def indicator (n : Nal) : UInt8 := .ofNat (n.header.toNat / 32 * 32 + fuA)

/-- The NAL header from an indicator and a fragmentation header. -/
def rebuilt (ind fu : UInt8) : UInt8 := .ofNat (ind.toNat / 32 * 32 + typeOf fu)

/-- `fu` is a fragmentation header of the NAL unit with the start bit `s` and the end bit `e`. Its
reserved bit is not looked at. -/
structure IsFuHeader (n : Nal) (s e : Bool) (fu : UInt8) : Prop where
  start : fu.toNat / 128 = s.toNat
  stop : fu.toNat / 64 % 2 = e.toNat
  type : typeOf fu = typeOf n.header

/-- The payloads that carry the rest `body` of a NAL unit, behind its first fragment. -/
inductive Fragments (n : Nal) : List UInt8 → List (List UInt8) → Prop
  | last {fu : UInt8} {body : List UInt8} :
      n.IsFuHeader false true fu → Fragments n body [n.indicator :: fu :: body]
  | middle {fu : UInt8} {frag body : List UInt8} {ps : List (List UInt8)} :
      n.IsFuHeader false false fu → Fragments n body ps →
        Fragments n (frag ++ body) ((n.indicator :: fu :: frag) :: ps)

/-- The payloads carry the NAL unit: one holds it, or the start fragment and the others do. -/
inductive Carried (n : Nal) : List (List UInt8) → Prop
  | single : Carried n [n.bytes]
  | fragments {fu : UInt8} {frag body : List UInt8} {ps : List (List UInt8)} :
      n.IsFuHeader true false fu → n.body = frag ++ body → Fragments n body ps →
        Carried n ((n.indicator :: fu :: frag) :: ps)

@[simp] theorem length_bytes (n : Nal) : n.bytes.length = n.body.length + 1 := rfl

theorem typeOf_indicator (n : Nal) : typeOf n.indicator = fuA := by
  have := n.header.toNat_lt
  simp only [typeOf, indicator, fuA, UInt8.toNat_ofNat']
  omega

theorem typeOf_header_ne (n : Nal) : typeOf n.header ≠ fuA := by
  have := n.isNal
  simp only [typeOf, fuA]
  omega

theorem IsFuHeader.rebuilt_eq {n : Nal} {s e : Bool} {fu : UInt8} (h : n.IsFuHeader s e fu) :
    rebuilt n.indicator fu = n.header := by
  have hlt := n.header.toNat_lt
  have htype := h.type
  apply UInt8.toNat_inj.mp
  simp only [rebuilt, indicator, typeOf, fuA, UInt8.toNat_ofNat'] at htype ⊢
  omega

theorem Fragments.ne_nil {n : Nal} {body : List UInt8} {ps : List (List UInt8)}
    (h : Fragments n body ps) : ps ≠ [] := by
  cases h <;> exact List.cons_ne_nil _ _

theorem Fragments.length_sum {n : Nal} {body : List UInt8} {ps : List (List UInt8)}
    (h : Fragments n body ps) : (ps.map List.length).sum = body.length + 2 * ps.length := by
  induction h with
  | last hfu => simp
  | middle hfu hps ih =>
    simp only [List.map_cons, List.sum_cons, List.length_cons, List.length_append, ih]
    omega

/-- Payloads of a NAL unit that begin with a fragment. -/
theorem Carried.of_fu {n : Nal} {p : List UInt8} {ps : List (List UInt8)} (h : n.Carried (p :: ps))
    (ht : typeOf (p.headD 0) = fuA) : ∃ fu frag, p = n.indicator :: fu :: frag ∧
      n.IsFuHeader true false fu ∧
      ((p :: ps).map List.length).sum = n.body.length + 2 * (p :: ps).length := by
  cases h with
  | single => exact absurd ht n.typeOf_header_ne
  | fragments hfu hbody hps =>
    refine ⟨_, _, rfl, hfu, ?_⟩
    simp only [List.map_cons, List.sum_cons, List.length_cons, hps.length_sum, hbody,
      List.length_append]
    omega

/-- The first payload of a NAL unit begins with a type. -/
theorem Carried.type_ne_zero {n : Nal} {p : List UInt8} {ps : List (List UInt8)}
    (h : n.Carried (p :: ps)) : typeOf (p.headD 0) ≠ 0 := by
  cases h with
  | single =>
    have := n.isNal
    simp only [bytes, List.headD_cons, typeOf]
    omega
  | fragments hfu hbody hps =>
    rw [List.headD_cons, typeOf_indicator]
    decide

theorem Carried.ne_nil {n : Nal} {ps : List (List UInt8)} (h : n.Carried ps) : ps ≠ [] := by
  cases h <;> exact List.cons_ne_nil _ _

end Nal

/-- The payloads carry the NAL units one after the other. -/
inductive CarriedAll : List Nal → List (List UInt8) → Prop
  | nil : CarriedAll [] []
  | cons {n : Nal} {ns : List Nal} {ps qs : List (List UInt8)} :
      n.Carried ps → CarriedAll ns qs → CarriedAll (n :: ns) (ps ++ qs)

theorem CarriedAll.one {n : Nal} {ps : List (List UInt8)} : CarriedAll [n] ps ↔ n.Carried ps := by
  constructor
  · rintro (_ | ⟨h, hs⟩)
    cases hs
    rwa [List.append_nil]
  · intro h
    have := CarriedAll.cons h .nil
    rwa [List.append_nil] at this

theorem CarriedAll.ne_nil {ns : List Nal} {ps : List (List UInt8)} (h : CarriedAll ns ps)
    (hns : ns ≠ []) : ps ≠ [] := by
  cases h with
  | nil => exact absurd rfl hns
  | cons hn _ => exact List.append_ne_nil_of_left_ne_nil hn.ne_nil _

/-- The two start codes of a byte stream. -/
inductive IsStartCode : List UInt8 → Prop
  | three : IsStartCode [0, 0, 1]
  | four : IsStartCode [0, 0, 0, 1]

/-- The byte stream of the NAL units: each behind a start code, and nothing else. -/
inductive AnnexB : List Nal → List UInt8 → Prop
  | nil : AnnexB [] []
  | cons {n : Nal} {ns : List Nal} {code es : List UInt8} :
      IsStartCode code → AnnexB ns es → AnnexB (n :: ns) (code ++ n.bytes ++ es)

/-- The bytes of the NAL units. -/
def nalLength (ns : List Nal) : Nat := (ns.map fun n => n.bytes.length).sum

@[simp] theorem nalLength_cons (n : Nal) (ns : List Nal) :
    nalLength (n :: ns) = n.bytes.length + nalLength ns := rfl

theorem IsStartCode.length {code : List UInt8} (h : IsStartCode code) :
    3 ≤ code.length ∧ code.length ≤ 4 := by
  cases h <;> decide

theorem AnnexB.le_length {ns : List Nal} {es : List UInt8} (h : AnnexB ns es) :
    3 * ns.length + nalLength ns ≤ es.length := by
  induction h with
  | nil => exact Nat.le_refl _
  | cons hc _ ih =>
    have := hc.length
    simp only [List.length_cons, List.length_append, nalLength_cons]
    omega

theorem AnnexB.length_le {ns : List Nal} {es : List UInt8} (h : AnnexB ns es) :
    es.length ≤ 4 * ns.length + nalLength ns := by
  induction h with
  | nil => exact Nat.le_refl _
  | cons hc _ ih =>
    have := hc.length
    simp only [List.length_cons, List.length_append, nalLength_cons]
    omega

theorem AnnexB.one {n : Nal} {code : List UInt8} (h : IsStartCode code) :
    AnnexB [n] (code ++ n.bytes) := by
  have := AnnexB.cons (n := n) h .nil
  rwa [List.append_nil] at this

end AllCamera
