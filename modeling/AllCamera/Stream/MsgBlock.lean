import AllCamera.Lib.Memory

/-!
# Message blocks

The media path hands RTP packets around in `ACE_Message_Block`s from a pool
(`CMediaBlockBuffer`). A block is a buffer of `size` bytes with a read and a write offset; the
packet is what lies between them. The library checks nothing when an offset is moved: a read
offset past the write offset is possible, and `length()` then wraps around in `size_t`.

* `MsgBlock.length`, `advance`, `retreat`, `copy`, `space`: the calls the stream code makes.
* `MsgBlock.Within`: the offsets are in order and inside the buffer, as in every received block.
-/

namespace AllCamera

/-- `ACE_Message_Block`: the data block behind `base()`, its size, and the offsets of `rd_ptr()`
and `wr_ptr()` from `base()`. -/
structure MsgBlock where
  data : Memory
  size : Nat
  rd : Int
  wr : Int

namespace MsgBlock

/-- `length()`: `wr_ptr - rd_ptr` in `size_t`. -/
def length (b : MsgBlock) : Nat := ((b.wr - b.rd) % 2 ^ 64).toNat

/-- `length()` assigned to a `uint32_t`. -/
def length32 (b : MsgBlock) : Nat := b.length % 2 ^ 32

/-- `rd_ptr()[i]`. -/
def byte (b : MsgBlock) (i : Nat) : UInt8 := b.data (b.rd + i)

/-- `rd_ptr(n)`: the read pointer moves on by `n` bytes. -/
def advance (b : MsgBlock) (n : Nat) : MsgBlock := { b with rd := b.rd + n }

/-- `rd_ptr(rd_ptr() - n)`: the read pointer moves back by `n` bytes. -/
def retreat (b : MsgBlock) (n : Nat) : MsgBlock := { b with rd := b.rd - n }

/-- The bytes between the read and the write pointer. -/
def payload (b : MsgBlock) : List UInt8 := b.data.read b.rd b.length

/-- `space()`: what is left behind the write pointer. -/
def space (b : MsgBlock) : Nat := (b.size - b.wr).toNat

/-- `copy(src->rd_ptr(), n)`: appends `n` bytes, or fails without a change when they do not
fit. -/
def copy (b src : MsgBlock) (n : Nat) : MsgBlock :=
  if b.space < n then b
  else { b with data := b.data.write b.wr (src.data.read src.rd n), wr := b.wr + n }

/-- `STREAM_MSG_BLOCK_SIZE`: the buffer of every block of the pool. -/
def blockSize : Nat := 2 * 1024

/-- `sizeof(STREAM_TRANSMIT_PACKET) - 1`: the receivers store every packet behind that header. -/
def transmitHead : Nat := 4 + 8 + 4

/-- A block of the pool with a packet in it: the read offset behind the transmit header, the
offsets in order and inside the buffer. -/
structure Within (b : MsgBlock) : Prop where
  head : (transmitHead : Int) ≤ b.rd
  order : b.rd ≤ b.wr
  inside : b.wr ≤ b.size
  cap : b.size = blockSize

variable {b : MsgBlock}

theorem length_of_le (h : b.rd ≤ b.wr) (hs : b.wr - b.rd < 2 ^ 64) :
    (b.length : Int) = b.wr - b.rd := by
  unfold length
  rw [Int.emod_eq_of_lt (by omega) hs]
  omega

end MsgBlock

end AllCamera
