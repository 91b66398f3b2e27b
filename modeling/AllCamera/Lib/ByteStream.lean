import AllCamera.Lib.Find
import AllCamera.Lib.Nal

/-!
# Byte streams of NAL units

In general form: any number of zeros stands in front of the start codes and behind the last NAL unit. The zeros in
front of a start code belong to no NAL unit.

* `IsStreamUnit`: a NAL unit that can be found in a stream.
* `byteStream units t`: the stream of the NAL units, each with the zeros in front of its start code, and `t` zeros
  at the end.
* `not_infix_zeros`: no start code begins in a NAL unit or in the zeros behind it.
-/

namespace AllCamera

/-- A NAL unit in a byte stream: no start code is in it, and its last byte is not zero. -/
structure IsStreamUnit (nal : List UInt8) : Prop where
  ne_nil : nal ≠ []
  noCode : ¬ [0, 0, 1] <:+: nal
  last : nal.getLast ne_nil ≠ 0

/-- The byte stream of the NAL units, each with the number of zeros in front of its start code. -/
def byteStream : List (Nat × List UInt8) → Nat → List UInt8
  | [], t => List.replicate t 0
  | (z, nal) :: us, t => List.replicate z 0 ++ ([0, 0, 1] ++ (nal ++ byteStream us t))

/-- What is between the start codes, where the byte in front of a start code belongs to it if it is zero. -/
def streamPieces : List (Nat × List UInt8) → Nat → List (List UInt8)
  | [], _ => []
  | [(_, nal)], t => [nal ++ List.replicate t 0]
  | (_, nal) :: (z, nal') :: us, t => (nal ++ List.replicate (z - 1) 0) :: streamPieces ((z, nal') :: us) t

/-- No start code begins in a text without one or in the zeros behind it. -/
theorem not_infix_zeros {l : List UInt8} (h : ¬ [0, 0, 1] <:+: l) (n : Nat) :
    ¬ [0, 0, 1] <:+: l ++ List.replicate n 0 := by
  have hone : (1 : UInt8) ∉ List.replicate n 0 := fun hmem => absurd (List.eq_of_mem_replicate hmem) (by decide)
  exact not_infix_append (w := [0, 0]) hone h

/-- What is left of a NAL unit behind its first bytes. -/
theorem IsStreamUnit.drop {nal : List UInt8} (h : IsStreamUnit nal) (k : Nat) :
    ¬ [0, 0, 1] <:+: nal.drop k ∧ ∀ hne : nal.drop k ≠ [], (nal.drop k).getLast hne ≠ 0 := by
  refine ⟨fun hcode => h.noCode (hcode.trans (List.drop_suffix k nal).isInfix), fun hne => ?_⟩
  rw [List.getLast_drop hne]
  exact h.last

/-- All zeros in front of a start code but one may be counted to what is in front. -/
theorem byteStream_split (z : Nat) (nal : List UInt8) (us : List (Nat × List UInt8)) (t : Nat) :
    byteStream ((z, nal) :: us) t = List.replicate (z - 1) 0 ++ byteStream ((min z 1, nal) :: us) t := by
  have hz : List.replicate z (0 : UInt8) = List.replicate (z - 1) 0 ++ List.replicate (min z 1) 0 := by
    rw [List.replicate_append_replicate]
    congr 1
    omega
  rw [byteStream, byteStream, hz, List.append_assoc]

/-- The zeros in front of the first start code are in no piece. -/
theorem streamPieces_cons (z z' : Nat) (nal : List UInt8) (us : List (Nat × List UInt8)) (t : Nat) :
    streamPieces ((z, nal) :: us) t = streamPieces ((z', nal) :: us) t := by
  cases us <;> rfl

theorem length_streamPieces (units : List (Nat × List UInt8)) (t : Nat) :
    (streamPieces units t).length = units.length := by
  fun_induction streamPieces units t with
  | case1 => rfl
  | case2 => rfl
  | case3 _ nal z nal' us t ih => rw [List.length_cons, List.length_cons, ih]

private theorem append_zeros_eq {nal : List UInt8} {n : Nat} : nal ++ List.replicate n 0 = nal ↔ n = 0 := by
  rw [List.append_right_eq_self, List.replicate_eq_nil_iff]

/-- The pieces are the NAL units exactly if there are no further zeros. -/
theorem streamPieces_eq_iff {units : List (Nat × List UInt8)} (hne : units ≠ []) (t : Nat) :
    streamPieces units t = units.map Prod.snd ↔ t = 0 ∧ ∀ u ∈ units.tail, u.1 ≤ 1 := by
  fun_induction streamPieces units t with
  | case1 => exact absurd rfl hne
  | case2 z nal t =>
    simp
  | case3 _ nal z nal' us t ih =>
    rw [List.map_cons, List.cons.injEq, append_zeros_eq, ih (List.cons_ne_nil _ _), List.tail_cons, List.tail_cons,
      List.forall_mem_cons]
    constructor
    · rintro ⟨hz, ht, hus⟩
      exact ⟨ht, by omega, hus⟩
    · rintro ⟨ht, hz, hus⟩
      exact ⟨by omega, ht, hus⟩

end AllCamera
