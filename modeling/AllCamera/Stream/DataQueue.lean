import AllCamera.Lib.Run
import Mathlib.Logic.Function.Basic

/-!
# The lock-free queue between the receivers and the exchange threads (`CMediaDataQueue`)

A ring of block pointers. A producer reads the write index and its tag, looks whether the ring is
full and the slot free, and takes the slot by a compare-and-swap on index and tag; it stores its
block and counts it in two steps more. A consumer does the same at the read index.

Every atomic read, swap, slot access and counter update is one step here. A run is the list of the
steps that the scheduler takes: which thread, and what it does where it has a choice.

* `Thread`: where a thread is in `enqueue_tail` or `dequeue_head`, with its local variables.
* `step`: one step of one thread.
* The history (`entered`, `heads`, `pos`, ...) is kept beside the members and never read by the
  code.
-/

namespace AllCamera

namespace DataQueue

/-- Where a thread is in `enqueue_tail`: at the loop condition; behind each read of the loop body;
at the swap; and behind it, at the slot and at the counter. -/
inductive EnqueueAt where
  | top
  | readIndex
  | readTag (unHeadIndex : UInt32)
  | checkFull (unHeadIndex unTag : UInt32)
  | checkSlot (unHeadIndex unTag : UInt32)
  | swap (unHeadIndex unTag : UInt32)
  | store (unHeadIndex : UInt32)
  | count
  deriving DecidableEq, Repr

/-- Where a thread is in `dequeue_head`. -/
inductive DequeueAt where
  | top
  | readIndex
  | readTag (unTailIndex : UInt32)
  | checkEmpty (unTailIndex unTag : UInt32)
  | checkSlot (unTailIndex unTag : UInt32)
  | swap (unTailIndex unTag : UInt32)
  | take (unTailIndex : UInt32)
  | clear (unTailIndex : UInt32)
  | count
  deriving DecidableEq, Repr

/-- A thread between calls, or in one; `mb` is the block that it enqueues. -/
inductive Thread (β : Type) where
  | idle
  | enqueue (mb : β) (place : EnqueueAt)
  | dequeue (place : DequeueAt)
  deriving DecidableEq, Repr

/-- What a thread does next: it calls, takes the next step of its call, gives up because of its
timeout, or calls `close`. -/
inductive Act (β : Type) where
  | enqueue_tail (mb : β)
  | dequeue_head
  | go
  | timeout
  | close
  deriving Repr

end DataQueue

/-- `CMediaDataQueue` and its threads `τ`. The history: `entered` are the blocks in the order of the
successful swaps of the write index, `heads` is the number of those of the read index; `pos` is, for
each thread, how many swaps there were of its index when it read the tag, and after its own swap the
number of that swap; `began` is the number of all swaps when its call began; `returned` are the
blocks read by consumers, with the number of the consumer's swap; `stored` and `cleared` are the
numbers of the swaps whose slot was filled and emptied; `incs` and `decs` those that were counted. -/
structure DataQueue (τ β : Type) where
  writeIndex : UInt32
  writeTag : UInt32
  readIndex : UInt32
  readTag : UInt32
  activeFlag : Bool
  arraySize : UInt32
  queueSize : UInt32
  dataArray : Nat → Option β
  thread : τ → DataQueue.Thread β
  entered : List β
  heads : Nat
  pos : τ → Nat
  began : τ → Nat
  returned : List (Nat × Option β)
  stored : Nat → Bool
  cleared : Nat → Bool
  incs : List Nat
  decs : List Nat

namespace DataQueue

variable {τ β : Type}

/-- `init`. -/
def init (unQueueSize : UInt32) : DataQueue τ β where
  writeIndex := 0
  writeTag := 0
  readIndex := 0
  readTag := 0
  activeFlag := true
  arraySize := unQueueSize + 1
  queueSize := 0
  dataArray := fun _ => none
  thread := fun _ => .idle
  entered := []
  heads := 0
  pos := fun _ => 0
  began := fun _ => 0
  returned := []
  stored := fun _ => false
  cleared := fun _ => false
  incs := []
  decs := []

/-- `message_count`. -/
def messageCount (q : DataQueue τ β) : UInt32 := q.queueSize

/-- `full`: against `m_unMaxQueueSize`. -/
def full (q : DataQueue τ β) : Bool := q.arraySize - 1 ≤ q.queueSize

/-- The successful swaps so far. -/
def swaps (q : DataQueue τ β) : Nat := q.entered.length + q.heads

variable [DecidableEq τ]

/-- Thread `t` goes on to `x`. -/
def goes (q : DataQueue τ β) (t : τ) (x : Thread β) : DataQueue τ β :=
  { q with thread := Function.update q.thread t x }

/-- The next step of `enqueue_tail`. -/
def enqueueStep (q : DataQueue τ β) (t : τ) (mb : β) : EnqueueAt → DataQueue τ β
  | .top => if q.activeFlag then q.goes t (.enqueue mb .readIndex) else q.goes t .idle
  | .readIndex => q.goes t (.enqueue mb (.readTag q.writeIndex))
  | .readTag i =>
    { q.goes t (.enqueue mb (.checkFull i q.writeTag)) with
      pos := Function.update q.pos t q.entered.length }
  | .checkFull i tag =>
    if (i + 1) % q.arraySize = q.readIndex then q.goes t (.enqueue mb .top)
    else q.goes t (.enqueue mb (.checkSlot i tag))
  | .checkSlot i tag =>
    if (q.dataArray i.toNat).isSome then q.goes t (.enqueue mb .top)
    else q.goes t (.enqueue mb (.swap i tag))
  | .swap i tag =>
    if q.writeIndex = i ∧ q.writeTag = tag then
      { q.goes t (.enqueue mb (.store i)) with
        writeIndex := (i + 1) % q.arraySize
        writeTag := tag + 1
        pos := Function.update q.pos t q.entered.length
        entered := q.entered ++ [mb] }
    else q.goes t (.enqueue mb .top)
  | .store i =>
    { q.goes t (.enqueue mb .count) with
      dataArray := Function.update q.dataArray i.toNat (some mb)
      stored := Function.update q.stored (q.pos t) true }
  | .count =>
    { q.goes t .idle with
      queueSize := q.queueSize + 1
      incs := q.incs ++ [q.pos t] }

/-- The next step of `dequeue_head`. -/
def dequeueStep (q : DataQueue τ β) (t : τ) : DequeueAt → DataQueue τ β
  | .top => if q.activeFlag then q.goes t (.dequeue .readIndex) else q.goes t .idle
  | .readIndex => q.goes t (.dequeue (.readTag q.readIndex))
  | .readTag i =>
    { q.goes t (.dequeue (.checkEmpty i q.readTag)) with
      pos := Function.update q.pos t q.heads }
  | .checkEmpty i tag =>
    if i = q.writeIndex then q.goes t (.dequeue .top) else q.goes t (.dequeue (.checkSlot i tag))
  | .checkSlot i tag =>
    if (q.dataArray i.toNat).isNone then q.goes t (.dequeue .top)
    else q.goes t (.dequeue (.swap i tag))
  | .swap i tag =>
    if q.readIndex = i ∧ q.readTag = tag then
      { q.goes t (.dequeue (.take i)) with
        readIndex := (i + 1) % q.arraySize
        readTag := tag + 1
        pos := Function.update q.pos t q.heads
        heads := q.heads + 1 }
    else q.goes t (.dequeue .top)
  | .take i =>
    { q.goes t (.dequeue (.clear i)) with
      returned := q.returned ++ [(q.pos t, q.dataArray i.toNat)] }
  | .clear i =>
    { q.goes t (.dequeue .count) with
      dataArray := Function.update q.dataArray i.toNat none
      cleared := Function.update q.cleared (q.pos t) true }
  | .count =>
    { q.goes t .idle with
      queueSize := q.queueSize - 1
      decs := q.decs ++ [q.pos t] }

/-- One step: what thread `t` does. A call that the array refuses returns at once, and what a
thread cannot do where it is, it does not. -/
def step (q : DataQueue τ β) : τ × Act β → DataQueue τ β
  | (t, .enqueue_tail mb) =>
    match q.thread t with
    | .idle =>
      if q.arraySize = 0 then q
      else { q.goes t (.enqueue mb .top) with began := Function.update q.began t q.swaps }
    | _ => q
  | (t, .dequeue_head) =>
    match q.thread t with
    | .idle =>
      if q.arraySize = 0 then q
      else { q.goes t (.dequeue .top) with began := Function.update q.began t q.swaps }
    | _ => q
  | (t, .go) =>
    match q.thread t with
    | .idle => q
    | .enqueue mb x => q.enqueueStep t mb x
    | .dequeue x => q.dequeueStep t x
  | (t, .timeout) =>
    match q.thread t with
    | .enqueue _ .readIndex => q.goes t .idle
    | .dequeue .readIndex => q.goes t .idle
    | _ => q
  | (_, .close) => { q with activeFlag := false }

/-- Fewer than 2^32 successful swaps happened inside each call that is under way. -/
def TagsFresh (q : DataQueue τ β) : Prop :=
  ∀ t, q.thread t ≠ .idle → q.swaps < q.began t + 2 ^ 32

end DataQueue

end AllCamera
