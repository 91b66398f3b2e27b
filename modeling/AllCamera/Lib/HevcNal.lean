import AllCamera.Lib.Memory

/-!
# H.265 NAL units in RTP packets

A NAL unit has a header of two bytes. An RTP payload holds one NAL unit as it is, several of them
behind an aggregation header, each with its length in front, or a fragment of the body of one behind a
payload header and a fragmentation header.

* `HevcNal.Carried n ps`: the payloads `ps` carry the NAL unit `n` and nothing else.
* `HevcNal.Carried.of_fragments`: payloads that begin with a fragment end with one that has the end
  bit.
-/

namespace AllCamera

/-- A NAL unit: the two header bytes and the body. The types from 48 on are those of other payloads. -/
structure HevcNal where
  header0 : UInt8
  header1 : UInt8
  body : List UInt8
  isNal : header0.toNat / 2 % 64 < 48

namespace HevcNal

/-- The type of a payload with several NAL units. -/
def aggregation : Nat := 48

/-- The type of a payload that holds a fragment. -/
def fragmentation : Nat := 49

/-- The type in the first byte of a NAL or payload header. -/
def typeOf (b : UInt8) : Nat := b.toNat / 2 % 64

/-- The bytes of a NAL unit. -/
def bytes (n : HevcNal) : List UInt8 := n.header0 :: n.header1 :: n.body

/-- `p` is the first byte of a payload header of the given type for the NAL unit: the forbidden bit
and the layer are those of the NAL unit. -/
structure IsHeader (n : HevcNal) (type : Nat) (p : UInt8) : Prop where
  type : typeOf p = type
  forbidden : p.toNat / 128 = n.header0.toNat / 128
  layer : p.toNat % 2 = n.header0.toNat % 2

/-- `fu` is a fragmentation header of the NAL unit with the start bit `s` and the end bit `e`. -/
structure IsFuHeader (n : HevcNal) (s e : Bool) (fu : UInt8) : Prop where
  start : fu.toNat / 128 = s.toNat
  stop : fu.toNat / 64 % 2 = e.toNat
  type : fu.toNat % 64 = typeOf n.header0

/-- A payload with a fragment: `p` and the second header byte, the fragmentation header, the bytes. -/
def fragment (n : HevcNal) (p fu : UInt8) (frag : List UInt8) : List UInt8 :=
  p :: n.header1 :: fu :: frag

/-- The payloads that carry the rest `body` of a NAL unit, behind its first fragment. -/
inductive Fragments (n : HevcNal) : List UInt8 → List (List UInt8) → Prop
  | last {p fu : UInt8} {body : List UInt8} :
      n.IsHeader fragmentation p → n.IsFuHeader false true fu →
        Fragments n body [n.fragment p fu body]
  | middle {p fu : UInt8} {frag body : List UInt8} {ps : List (List UInt8)} :
      n.IsHeader fragmentation p → n.IsFuHeader false false fu → Fragments n body ps →
        Fragments n (frag ++ body) (n.fragment p fu frag :: ps)

/-- The payloads carry the NAL unit: one holds it, with or without an aggregation header, or the
start fragment and the others do. -/
inductive Carried (n : HevcNal) : List (List UInt8) → Prop
  | single : Carried n [n.bytes]
  | aggregated {p0 p1 : UInt8} : typeOf p0 = aggregation →
      Carried n [p0 :: p1 :: be16Bytes (.ofNat n.bytes.length) ++ n.bytes]
  | fragments {p fu : UInt8} {frag body : List UInt8} {ps : List (List UInt8)} :
      n.IsHeader fragmentation p → n.IsFuHeader true false fu → n.body = frag ++ body →
        Fragments n body ps → Carried n (n.fragment p fu frag :: ps)

/-- A payload with a fragment that has the end bit. -/
def EndsFragment (l : List UInt8) : Prop :=
  ∃ p0 p1 fu frag, l = p0 :: p1 :: fu :: frag ∧ typeOf p0 = fragmentation ∧ fu.toNat / 64 % 2 = 1

theorem Fragments.ends {n : HevcNal} {body : List UInt8} {ps : List (List UInt8)}
    (h : Fragments n body ps) : ∃ l ∈ ps, EndsFragment l := by
  induction h with
  | last hp hfu => exact ⟨_, List.mem_singleton_self _, _, _, _, _, rfl, hp.type, hfu.stop⟩
  | middle _ _ _ ih =>
    obtain ⟨l, hl, hend⟩ := ih
    exact ⟨l, List.mem_cons_of_mem _ hl, hend⟩

/-- A payload that begins with a fragment is followed by one that ends it. -/
theorem Carried.of_fragments {n : HevcNal} {l : List UInt8} {ps : List (List UInt8)}
    (h : n.Carried (l :: ps)) (ht : typeOf (l.headD 0) = fragmentation) : ∃ l ∈ ps, EndsFragment l := by
  cases h with
  | single =>
    have := n.isNal
    simp only [bytes, List.headD_cons, typeOf, fragmentation] at ht
    omega
  | aggregated hp =>
    rw [List.cons_append, List.headD_cons, hp] at ht
    exact absurd ht (by decide)
  | fragments _ _ _ hps => exact hps.ends

/-- One payload is as long as the NAL unit, or four bytes longer. -/
theorem Carried.length_of_one {n : HevcNal} {l : List UInt8} (h : n.Carried [l]) :
    l.length = n.bytes.length ∨ l.length = n.bytes.length + 4 := by
  cases h with
  | single => exact .inl rfl
  | aggregated hp => exact .inr (by simp [be16Bytes])
  | fragments _ _ _ hps => cases hps

theorem Carried.ne_nil {n : HevcNal} {ps : List (List UInt8)} (h : n.Carried ps) : ps ≠ [] := by
  cases h <;> exact List.cons_ne_nil _ _

theorem Carried.head_ne_nil {n : HevcNal} {l : List UInt8} {ps : List (List UInt8)}
    (h : n.Carried (l :: ps)) : l ≠ [] := by
  cases h <;> exact List.cons_ne_nil _ _

end HevcNal

end AllCamera
