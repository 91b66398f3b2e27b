import Mathlib.Data.List.Induction
import Mathlib.Data.UInt
import Mathlib.Tactic.Common

/-!
# Cyclic redundancy checks

The register of a check without reflection: it is shifted, and where the bit that leaves it differs from the bit of the
message, the polynomial is added.

* `step`, `feed`: one bit, and the bits of a message.
* `highBits r`: the bits of the register, the highest first. `feed_highBits`: they empty it.
* `feed_eq_zero_iff`: nothing else of that length does, if the polynomial is odd. So a message with its check has the
  check 0 exactly if the check stands behind it with its highest bit first.
* `stepNat`: the step on numbers, to compute with.
-/

namespace AllCamera.Crc

variable {w : Nat} (poly : BitVec w)

/-- A bit of the message. -/
def step (r : BitVec w) (b : Bool) : BitVec w := r <<< 1 ^^^ if r.msb ^^ b then poly else 0

/-- The bits of a message. -/
def feed (r : BitVec w) (bits : List Bool) : BitVec w := bits.foldl (step poly) r

/-- The first bits of the register, from the highest on. -/
def highBits (r : BitVec w) (n : Nat) : List Bool := (List.range n).map r.getMsbD

variable {poly} {r : BitVec w} {bits : List Bool}

theorem feed_append (bits' : List Bool) : feed poly r (bits ++ bits') = feed poly (feed poly r bits) bits' :=
  List.foldl_append

theorem feed_concat (b : Bool) : feed poly r (bits ++ [b]) = step poly (feed poly r bits) b := feed_append [b]

theorem highBits_succ (r : BitVec w) (n : Nat) : highBits r (n + 1) = highBits r n ++ [r.getMsbD n] := by
  rw [highBits, List.range_succ, List.map_append]
  rfl

/-- The bit that leaves the register only shifts it. -/
theorem step_msb (r : BitVec w) : step poly r r.msb = r <<< 1 := by
  rw [step, Bool.xor_self, if_neg Bool.false_ne_true, BitVec.ofNat_eq_ofNat, BitVec.xor_zero]

theorem feed_highBits (r : BitVec w) (n : Nat) : feed poly r (highBits r n) = r <<< n := by
  induction n with
  | zero => exact (BitVec.shiftLeft_zero r).symm
  | succ n ih => rw [highBits_succ, feed_concat, ih, ← BitVec.msb_shiftLeft, step_msb, BitVec.shiftLeft_add]

/-- The lowest bit says whether an odd polynomial was added. -/
theorem getLsbD_step (hodd : poly.getLsbD 0 = true) (r : BitVec w) (b : Bool) :
    (step poly r b).getLsbD 0 = (r.msb ^^ b) := by
  rw [step, BitVec.getLsbD_xor, BitVec.getLsbD_shiftLeft]
  cases r.msb ^^ b
  · simp
  · simp [hodd]

/-- From the end of the message to its front: the polynomial was never added. -/
theorem eq_highBits (hodd : poly.getLsbD 0 = true) (hlen : bits.length ≤ w)
    (hlow : ∀ i < bits.length, (feed poly r bits).getLsbD i = false) : bits = highBits r bits.length := by
  induction bits using List.reverseRecOn with
  | nil => rfl
  | append_singleton bits b ih =>
    rw [List.length_append, List.length_singleton] at hlen hlow ⊢
    rw [feed_concat] at hlow
    have htop := (getLsbD_step hodd (feed poly r bits) b).symm.trans (hlow 0 (Nat.succ_pos _))
    have hb : (feed poly r bits).msb = b := by
      revert htop
      cases (feed poly r bits).msb <;> cases b <;> decide
    subst hb
    rw [step_msb] at hlow
    have hbits := ih (Nat.le_of_succ_le hlen) fun i hi => by
      have hnext := hlow (i + 1) (Nat.succ_lt_succ hi)
      rw [BitVec.getLsbD_shiftLeft] at hnext
      simpa [Nat.lt_of_lt_of_le (Nat.succ_lt_succ hi) hlen] using hnext
    have hfeed : feed poly r bits = r <<< bits.length := by
      conv_lhs => rw [hbits]
      exact feed_highBits r _
    rw [highBits_succ, ← hbits, hfeed, BitVec.msb_shiftLeft]

/-- The bits that empty the register are its own. -/
theorem feed_eq_zero_iff (hodd : poly.getLsbD 0 = true) (hlen : bits.length = w) :
    feed poly r bits = 0 ↔ bits = highBits r w := by
  constructor
  · intro h
    have hbits : bits = highBits r bits.length :=
      eq_highBits hodd (Nat.le_of_eq hlen) fun i _ => by rw [h, BitVec.ofNat_eq_ofNat, BitVec.getLsbD_zero]
    rwa [hlen] at hbits
  · intro h
    rw [h, feed_highBits]
    exact BitVec.shiftLeft_eq_zero (Nat.le_refl w)

/-! ## On numbers -/

/-- The step on numbers. -/
def stepNat (w poly r : Nat) (b : Bool) : Nat := 2 * r % 2 ^ w ^^^ if r.testBit (w - 1) ^^ b then poly else 0

theorem toNat_step (poly r : BitVec w) (b : Bool) : (step poly r b).toNat = stepNat w poly.toNat r.toNat b := by
  rw [step, BitVec.toNat_xor, BitVec.toNat_shiftLeft, stepNat, Nat.shiftLeft_eq, Nat.mul_comm,
    BitVec.msb_eq_getLsbD_last, BitVec.testBit_toNat]
  split <;> rfl

theorem toNat_feed (poly r : BitVec w) (bits : List Bool) :
    (feed poly r bits).toNat = bits.foldl (stepNat w poly.toNat) r.toNat := by
  induction bits generalizing r with
  | nil => rfl
  | cons b bits ih =>
    rw [List.foldl_cons, ← toNat_step]
    exact ih _

end AllCamera.Crc
