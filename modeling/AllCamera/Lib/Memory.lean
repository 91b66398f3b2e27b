import Mathlib.Tactic.Common
import Mathlib.Data.List.Basic
import Mathlib.Data.UInt

/-!
# Byte memory

A buffer seen from its base address: one byte at every integer offset. The bytes outside the
buffer are there too (a read past the end of a C buffer returns whatever lies behind it), so a
read is total and a program's behaviour can be stated for every content of the bytes it should
not have read.

* `read m p n`: the `n` bytes from offset `p` on; `write m p l`: `l` stored from `p` on.
* `read_write` and `read_write_of_disjoint`: the two rules for a read after a write.
* `u32`, `setU32`: a 32-bit value in the byte order of the host.
-/

namespace AllCamera

/-- The bytes of a buffer by their offset from its base. -/
abbrev Memory := Int → UInt8

namespace Memory

/-- The `n` bytes from offset `p` on. -/
def read (m : Memory) (p : Int) (n : Nat) : List UInt8 :=
  (List.range n).map fun i : Nat => m (p + (i : Int))

/-- `m` with `l` stored from offset `p` on. -/
def write (m : Memory) (p : Int) (l : List UInt8) : Memory :=
  fun i => if p ≤ i ∧ i < p + l.length then l.getD (i - p).toNat 0 else m i

variable {m : Memory} {p q : Int} {l : List UInt8}

@[simp] theorem length_read (m : Memory) (p : Int) (n : Nat) : (m.read p n).length = n := by
  simp [read]

@[simp] theorem read_zero (m : Memory) (p : Int) : m.read p 0 = [] := rfl

theorem read_succ (m : Memory) (p : Int) (n : Nat) :
    m.read p (n + 1) = m p :: m.read (p + 1) n := by
  simp only [read, List.range_succ_eq_map, List.map_cons, List.map_map]
  congr 1
  · simp
  · apply List.map_congr_left
    intro i _
    show m (p + ((i + 1 : Nat) : Int)) = m (p + 1 + i)
    congr 1
    omega

theorem read_add (m : Memory) (p : Int) (a b : Nat) :
    m.read p (a + b) = m.read p a ++ m.read (p + a) b := by
  induction a generalizing p with
  | zero => simp
  | succ a ih =>
    rw [show a + 1 + b = (a + b) + 1 by omega, read_succ, read_succ, ih, List.cons_append]
    congr 3
    push_cast
    omega

/-- A text that lies there in two parts. -/
theorem read_append {a b : List UInt8} (h : m.read p (a ++ b).length = a ++ b) :
    m.read p a.length = a ∧ m.read (p + a.length) b.length = b := by
  rw [List.length_append, read_add] at h
  exact List.append_inj h (length_read _ _ _)

theorem getElem?_read (m : Memory) (p : Int) (n i : Nat) (h : i < n) :
    (m.read p n)[i]? = some (m (p + i)) := by
  simp [read, h]

theorem drop_read (m : Memory) (p : Int) (n k : Nat) :
    (m.read p n).drop k = m.read (p + k) (n - k) := by
  by_cases h : k ≤ n
  · obtain ⟨j, rfl⟩ := Nat.exists_eq_add_of_le h
    rw [read_add, List.drop_append_of_le_length (by simp), List.drop_of_length_le (by simp)]
    simp
  · rw [List.drop_of_length_le (by simp; omega), show n - k = 0 by omega]
    rfl

theorem take_read (m : Memory) (p : Int) (n k : Nat) (h : k ≤ n) :
    (m.read p n).take k = m.read p k := by
  obtain ⟨j, rfl⟩ := Nat.exists_eq_add_of_le h
  rw [read_add, List.take_append_of_le_length (by simp), List.take_of_length_le (by simp)]

/-- Two memories that agree on the range give the same read. -/
theorem read_congr {m m' : Memory} {n : Nat} (h : ∀ i, p ≤ i → i < p + n → m i = m' i) :
    m.read p n = m'.read p n := by
  apply List.map_congr_left
  intro i hi
  have := List.mem_range.mp hi
  exact h _ (by omega) (by omega)

theorem write_of_lt {i : Int} (h : i < p) : m.write p l i = m i := by
  simp only [write]
  rw [if_neg (by omega)]

theorem write_of_ge {i : Int} (h : p + l.length ≤ i) : m.write p l i = m i := by
  simp only [write]
  rw [if_neg (by omega)]

theorem write_at {k : Nat} (h : k < l.length) : m.write p l (p + k) = l.getD k 0 := by
  simp only [write]
  rw [if_pos (by omega)]
  congr 1
  omega

/-- A read of the written range gives the written bytes. -/
theorem read_write (m : Memory) (p : Int) (l : List UInt8) :
    (m.write p l).read p l.length = l := by
  apply List.ext_getElem?
  intro i
  by_cases h : i < l.length
  · rw [getElem?_read _ _ _ _ h, write_at h]
    simp [h]
  · rw [List.getElem?_eq_none (by simp; omega), List.getElem?_eq_none (by omega)]

/-- A read of a range apart from the written one is unchanged. -/
theorem read_write_of_disjoint {n : Nat} (h : q + n ≤ p ∨ p + l.length ≤ q) :
    (m.write p l).read q n = m.read q n := by
  apply read_congr
  intro i h1 h2
  rcases h with h | h
  · exact write_of_lt (by omega)
  · exact write_of_ge (by omega)

/-- What was read can be written back. -/
theorem write_read (m : Memory) (p : Int) (n : Nat) : m.write p (m.read p n) = m := by
  funext i
  by_cases h : p ≤ i ∧ i < p + n
  · obtain ⟨k, rfl⟩ := Int.le.dest h.1
    rw [write_at (by rw [length_read]; omega), List.getD_eq_getElem?_getD,
      getElem?_read _ _ _ _ (by omega), Option.getD_some]
  · rw [write, if_neg (by rwa [length_read])]

/-- Two texts written one behind the other. -/
theorem write_append (m : Memory) (p : Int) (a b : List UInt8) :
    (m.write p a).write (p + a.length) b = m.write p (a ++ b) := by
  funext i
  by_cases h1 : p ≤ i ∧ i < p + a.length
  · obtain ⟨k, rfl⟩ := Int.le.dest h1.1
    rw [write_of_lt (by omega), write_at (by omega), write_at (by rw [List.length_append]; omega)]
    simp only [List.getD_eq_getElem?_getD, List.getElem?_append_left (show k < a.length by omega)]
  by_cases h2 : p + a.length ≤ i ∧ i < p + a.length + b.length
  · obtain ⟨k, rfl⟩ := Int.le.dest h2.1
    have hk : p + (a.length : Int) + k = p + ((a.length + k : Nat) : Int) := by omega
    rw [write_at (by omega), hk, write_at (by rw [List.length_append]; omega)]
    simp only [List.getD_eq_getElem?_getD, List.getElem?_append_right (Nat.le_add_right _ _),
      Nat.add_sub_cancel_left]
  · simp only [write, List.length_append]
    rw [if_neg (by omega), if_neg (by omega), if_neg (by omega)]

/-- One byte of the range is written. -/
theorem read_write_one {a b : List UInt8} {x : UInt8} {n : Nat} (h : m.read p n = a ++ x :: b)
    (y : UInt8) : (m.write (p + a.length) [y]).read p n = a ++ y :: b := by
  have hlen := congrArg List.length h
  simp only [length_read, List.length_append, List.length_cons] at hlen
  have hsplit := read_add m p a.length (1 + b.length)
  have hsplit' := read_add (m.write (p + a.length) [y]) p a.length (1 + b.length)
  rw [show a.length + (1 + b.length) = n by omega] at hsplit hsplit'
  rw [hsplit, read_add m (p + a.length) 1 b.length] at h
  obtain ⟨ha, h⟩ := List.append_inj h (length_read _ _ _)
  have htail : m.read (p + a.length) 1 ++ m.read (p + a.length + (1 : Nat)) b.length = [x] ++ b := h
  have hone : (m.read (p + a.length) 1).length = [x].length := length_read _ _ _
  have hb := (List.append_inj htail hone).2
  rw [hsplit', read_add _ (p + a.length) 1 b.length, read_write_of_disjoint (.inl (Int.le_refl _)), ha]
  have hone := read_write m (p + a.length) [y]
  rw [List.length_singleton] at hone
  rw [hone, read_write_of_disjoint (.inr (by simp)), hb]
  rfl

/-- A write inside the range of an earlier one. -/
theorem write_write_inside {c : List UInt8} {k : Nat} (h : k + c.length ≤ l.length) :
    (m.write p l).write (p + k) c = m.write p (l.take k ++ c ++ l.drop (k + c.length)) := by
  funext i
  have hlen : (l.take k ++ c ++ l.drop (k + c.length)).length = l.length := by simp; omega
  by_cases hin : p ≤ i ∧ i < p + l.length
  · obtain ⟨j, rfl⟩ : ∃ j : Nat, i = p + j := ⟨(i - p).toNat, by omega⟩
    rw [write_at (l := l.take k ++ c ++ l.drop (k + c.length)) (by omega)]
    by_cases h1 : j < k
    · rw [write_of_lt (by omega), write_at (by omega)]
      simp [List.getD_eq_getElem?_getD, List.getElem?_append, h1, show j < l.length by omega,
        Nat.min_eq_left (show k ≤ l.length by omega)]
    by_cases h2 : j < k + c.length
    · rw [show p + (j : Int) = p + k + ((j - k : Nat) : Int) by omega, write_at (by omega)]
      simp [List.getD_eq_getElem?_getD, List.getElem?_append, h1, show k ≤ l.length by omega,
        show j - k < c.length by omega]
    · rw [write_of_ge (by omega), write_at (by omega)]
      simp only [List.getD_eq_getElem?_getD, List.getElem?_append, List.length_append,
        List.length_take, List.getElem?_drop, Nat.min_eq_left (show k ≤ l.length by omega), h2,
        if_false]
      congr 2
      omega
  · simp only [write, hlen, hin, if_false]
    rw [if_neg (by omega)]

end Memory

/-! ## Integers in network byte order -/

/-- `ntohs`: the 16-bit value of two bytes. -/
def be16 (hi lo : UInt8) : UInt16 := UInt16.ofNat (hi.toNat * 256 + lo.toNat)

/-- `ntohl`: the 32-bit value of four bytes. -/
def be32 (b₃ b₂ b₁ b₀ : UInt8) : UInt32 :=
  UInt32.ofNat (((b₃.toNat * 256 + b₂.toNat) * 256 + b₁.toNat) * 256 + b₀.toNat)

/-- `htonl` on a little-endian host. -/
def htonl (v : UInt32) : UInt32 :=
  be32 (.ofNat (v.toNat % 256)) (.ofNat (v.toNat / 2 ^ 8 % 256)) (.ofNat (v.toNat / 2 ^ 16 % 256))
    (.ofNat (v.toNat / 2 ^ 24))

/-- The bytes of a 16-bit value, the high one first. -/
def be16Bytes (v : UInt16) : List UInt8 := [.ofNat (v.toNat / 256), .ofNat (v.toNat % 256)]

/-- The bytes of a 32-bit value, the high one first. -/
def be32Bytes (v : UInt32) : List UInt8 :=
  [.ofNat (v.toNat / 2 ^ 24), .ofNat (v.toNat / 2 ^ 16 % 256), .ofNat (v.toNat / 2 ^ 8 % 256),
    .ofNat (v.toNat % 256)]

theorem toNat_be16 (hi lo : UInt8) : (be16 hi lo).toNat = hi.toNat * 256 + lo.toNat := by
  have h1 := hi.toNat_lt
  have h2 := lo.toNat_lt
  simp only [be16, UInt16.toNat_ofNat']
  omega

theorem be16_be16Bytes (v : UInt16) :
    be16 (.ofNat (v.toNat / 256)) (.ofNat (v.toNat % 256)) = v := by
  have h := v.toNat_lt
  apply UInt16.toNat_inj.mp
  rw [toNat_be16]
  simp only [UInt8.toNat_ofNat']
  omega

theorem be32_be32Bytes (v : UInt32) :
    be32 (.ofNat (v.toNat / 2 ^ 24)) (.ofNat (v.toNat / 2 ^ 16 % 256))
      (.ofNat (v.toNat / 2 ^ 8 % 256)) (.ofNat (v.toNat % 256)) = v := by
  have h := v.toNat_lt
  apply UInt32.toNat_inj.mp
  simp only [be32, UInt8.toNat_ofNat', UInt32.toNat_ofNat']
  omega

/-! ## Integers in the byte order of the host -/

/-- The bytes of a 32-bit value, the low one first. -/
def le32Bytes (v : UInt32) : List UInt8 :=
  [.ofNat (v.toNat % 256), .ofNat (v.toNat / 2 ^ 8 % 256), .ofNat (v.toNat / 2 ^ 16 % 256),
    .ofNat (v.toNat / 2 ^ 24)]

namespace Memory

variable {m : Memory} {p q : Int} {l : List UInt8} {v : UInt32}

/-- The 32-bit value at offset `p`. -/
def u32 (m : Memory) (p : Int) : UInt32 := be32 (m (p + 3)) (m (p + 2)) (m (p + 1)) (m p)

/-- `m` with a 32-bit value stored at offset `p`. -/
def setU32 (m : Memory) (p : Int) (v : UInt32) : Memory := m.write p (le32Bytes v)

@[simp] theorem u32_setU32 (m : Memory) (p : Int) (v : UInt32) : (m.setU32 p v).u32 p = v := by
  have h0 : m.setU32 p v p = .ofNat (v.toNat % 256) := by
    have h := write_at (m := m) (p := p) (l := le32Bytes v) (k := 0) (by simp [le32Bytes])
    rwa [show p + ((0 : Nat) : Int) = p by omega] at h
  have h1 : m.setU32 p v (p + 1) = .ofNat (v.toNat / 2 ^ 8 % 256) :=
    write_at (m := m) (p := p) (l := le32Bytes v) (k := 1) (by simp [le32Bytes])
  have h2 : m.setU32 p v (p + 2) = .ofNat (v.toNat / 2 ^ 16 % 256) :=
    write_at (m := m) (p := p) (l := le32Bytes v) (k := 2) (by simp [le32Bytes])
  have h3 : m.setU32 p v (p + 3) = .ofNat (v.toNat / 2 ^ 24) :=
    write_at (m := m) (p := p) (l := le32Bytes v) (k := 3) (by simp [le32Bytes])
  rw [u32, h0, h1, h2, h3, be32_be32Bytes]

/-- A value is read as before where nothing was written. -/
theorem u32_write_of_disjoint (h : q + 4 ≤ p ∨ p + l.length ≤ q) : (m.write p l).u32 q = m.u32 q := by
  have hkeep : ∀ i, q ≤ i → i < q + 4 → m.write p l i = m i := by
    intro i hqi hi
    rcases h with h | h
    · exact write_of_lt (by omega)
    · exact write_of_ge (by omega)
  rw [u32, u32, hkeep _ (by omega) (by omega), hkeep _ (by omega) (by omega),
    hkeep _ (by omega) (by omega), hkeep _ (by omega) (by omega)]

theorem u32_setU32_of_disjoint (h : q + 4 ≤ p ∨ p + 4 ≤ q) : (m.setU32 p v).u32 q = m.u32 q :=
  u32_write_of_disjoint h

/-- A value at the beginning of a text. -/
theorem u32_write_append (m : Memory) (p : Int) (v : UInt32) (l : List UInt8) :
    (m.write p (le32Bytes v ++ l)).u32 p = v := by
  rw [← write_append, u32_write_of_disjoint (.inl (by simp [le32Bytes]))]
  exact u32_setU32 m p v

theorem setU32_of_lt {i : Int} (h : i < p) : m.setU32 p v i = m i := write_of_lt h

theorem setU32_of_ge {i : Int} (h : p + 4 ≤ i) : m.setU32 p v i = m i := write_of_ge h

end Memory

end AllCamera
