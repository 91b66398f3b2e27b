import AllCamera.Lib.Memory
import AllCamera.Lib.Run

/-!
# Receiving on a TCP connection (`handle_input`)

`CTcpConnect::handle_input` receives into a buffer of 64 KiB, hands what is there to the handler of
the connection until that takes no more, and moves the rest to the front.
`CStreamRtspPushSession::handle_input` is the same loop. The handler is a parameter here: it is given
the buffer, the offset and the number of bytes, and returns how many it took, or a negative number.

* `Receiver`: the buffer, and the object of the handler.
* `turn`, `handleInput`: one turn of the loop, and the whole call.
* `step`: a call for bytes that the peer has sent.
* `Kept.step`: what a handler keeps while it returns no negative number.
* `Inv`: the units of a stream that the handler cuts out are whole and in order, and a part of the
  next one waits in the buffer. `Inv.step`: a handler that does right in every turn keeps it.
-/

namespace AllCamera

/-- `DEFAULT_BUFFER_SIZE`. -/
def recvBufferSize : Nat := 64 * 1024

/-- A connection: the handler's object, the bytes of `m_pRecvBuffer` and its `length()`; inside
`handle_input` how many bytes are processed, and whether its loop goes on; and whether it returned
-1. -/
structure Receiver (ρ : Type) where
  user : ρ
  data : Memory
  length : Nat
  processedSize : Nat
  inLoop : Bool
  closed : Bool

namespace Receiver

/-- What the handler returned, and what it left. -/
structure Handled (ρ : Type) where
  nSize : Int
  data : Memory
  user : ρ

/-- `handleRecvedData`, given its object, the buffer, an offset and a number of bytes. -/
abbrev Handler (ρ : Type) := ρ → Memory → Nat → Nat → Handled ρ

variable {ρ υ : Type}

/-- A new connection. -/
def init (user : ρ) : Receiver ρ := ⟨user, fun _ => 0, 0, 0, false, false⟩

/-- The bytes that were received and not processed. -/
def view (c : Receiver ρ) : List UInt8 := c.data.read c.processedSize (c.length - c.processedSize)

/-- `recv` put `seg` behind the bytes in the buffer; the loop begins. -/
def recv (c : Receiver ρ) (seg : List UInt8) : Receiver ρ :=
  { c with
    data := c.data.write c.length seg
    length := c.length + seg.length
    processedSize := 0
    inLoop := true }

/-- Behind the loop: the rest is moved to the front. -/
def compact (c : Receiver ρ) : Receiver ρ :=
  { c with
    data := c.data.write 0 c.view
    length := c.length - c.processedSize
    processedSize := 0
    inLoop := false }

section Handler

variable (handle : Handler ρ)

/-- The handler's answer to what is in the buffer. -/
def answer (c : Receiver ρ) : Handled ρ :=
  handle c.user c.data c.processedSize (c.length - c.processedSize)

/-- One turn of the loop, with what follows the last one. -/
def turn (c : Receiver ρ) : Receiver ρ :=
  let r := c.answer handle
  let c := { c with data := r.data, user := r.user }
  if r.nSize < 0 then { c with inLoop := false, closed := true }
  else if r.nSize = 0 then c.compact
  else
    let c := { c with processedSize := c.processedSize + r.nSize.toNat }
    if c.processedSize < c.length then c else c.compact

/-- The turns of the loop, `fuel` at most. -/
def turns : Nat → Receiver ρ → Receiver ρ
  | 0, c => c
  | fuel + 1, c => if c.inLoop then turns fuel (c.turn handle) else c

/-- The loop. Every turn but the last one processes a byte. -/
def loop (c : Receiver ρ) : Receiver ρ := turns handle (c.length + 1) c

/-- `handle_input`, when `recv` gives `seg`. -/
def handleInput (c : Receiver ρ) (seg : List UInt8) : Receiver ρ := (c.recv seg).loop handle

/-- A call of `handle_input` while `c.2` has been sent by the peer and not yet received: `recv` gives
up to `k` bytes of it, and not more than there is room for. With a full buffer `CTcpConnect` goes on
to its loop (`whenFull`) and `CStreamRtspPushSession` returns. -/
def step (whenFull : Bool) (c : Receiver ρ × List UInt8) (k : Nat) : Receiver ρ × List UInt8 :=
  let n := min k (recvBufferSize - c.1.length)
  if c.1.closed ∨ c.2 = [] ∨ k = 0 then c
  else if recvBufferSize ≤ c.1.length ∧ !whenFull then c
  else (c.1.handleInput handle (c.2.take n), c.2.drop n)

end Handler

/-! ## The loop ends -/

variable {handle : Handler ρ} {c : Receiver ρ}

/-- A turn is the last one, or processes something. -/
theorem turn_progress (handle : Handler ρ) (c : Receiver ρ) :
    (c.turn handle).inLoop = false ∨ (c.processedSize < (c.turn handle).processedSize ∧
      (c.turn handle).processedSize < (c.turn handle).length ∧
      (c.turn handle).length = c.length) := by
  unfold turn
  simp only
  split
  · exact .inl rfl
  · split
    · exact .inl rfl
    · split
      · rename_i hlt
        refine .inr ⟨?_, hlt, rfl⟩
        simp only
        omega
      · exact .inl rfl

theorem turns_ends (handle : Handler ρ) (fuel : Nat) (c : Receiver ρ)
    (hf : c.length < fuel + c.processedSize) :
    (turns handle fuel c).inLoop = false ∨
      (turns handle fuel c).length ≤ (turns handle fuel c).processedSize := by
  induction fuel generalizing c with
  | zero => exact .inr (by simp only [turns]; omega)
  | succ fuel ih =>
    simp only [turns]
    split
    · rcases turn_progress handle c with hend | ⟨h1, h2, h3⟩
      · refine .inl ?_
        cases fuel with
        | zero => exact hend
        | succ fuel => simp [turns, hend]
      · exact ih _ (by omega)
    · rename_i hl
      exact .inl (by simpa using hl)

/-- What a turn keeps, the loop keeps. -/
theorem turns_invariant (handle : Handler ρ) {J : Receiver ρ → Prop}
    (hturn : ∀ c, J c → c.inLoop = true → J (c.turn handle)) (fuel : Nat) (h : J c) :
    J (turns handle fuel c) := by
  induction fuel generalizing c with
  | zero => exact h
  | succ fuel ih =>
    unfold Receiver.turns
    split
    · rename_i hl
      exact ih (hturn c h hl)
    · exact h

/-! ## What is in the buffer -/

theorem view_compact (c : Receiver ρ) : c.compact.view = c.view := by
  have := Memory.read_write c.data 0 c.view
  rwa [view, Memory.length_read] at this

theorem length_view (c : Receiver ρ) : c.view.length = c.length - c.processedSize :=
  Memory.length_read _ _ _

/-- A turn of a handler that takes `d` bytes and leaves the buffer as it is. -/
theorem turn_took {u : ρ} {d : Nat} (h : c.answer handle = ⟨(d : Int), c.data, u⟩)
    (hd : c.processedSize + d ≤ c.length) (hl : c.inLoop = true) :
    (c.turn handle).user = u ∧ (c.turn handle).view = c.view.drop d ∧
      (c.turn handle).closed = c.closed ∧
      ((c.turn handle).inLoop = true →
        0 < d ∧ (c.turn handle).processedSize < (c.turn handle).length) ∧
      ((c.turn handle).inLoop = false →
        (c.turn handle).processedSize = 0 ∧ (d = 0 ∨ c.processedSize + d = c.length)) := by
  have hview : c.data.read (c.processedSize + d : Nat) (c.length - (c.processedSize + d)) =
      c.view.drop d := by
    rw [view, Memory.drop_read, Nat.sub_sub]
    rfl
  unfold turn
  simp only [h, Int.toNat_natCast]
  rw [if_neg (by omega)]
  split
  · rename_i hzero
    obtain rfl : d = 0 := by omega
    exact ⟨rfl, view_compact c, rfl, nofun, fun _ => ⟨rfl, .inl rfl⟩⟩
  · rename_i hpos
    split
    · rename_i hlt
      exact ⟨rfl, hview, rfl, fun _ => ⟨by omega, hlt⟩, fun hno => absurd hno (by simp [hl])⟩
    · rename_i hge
      exact ⟨rfl, (view_compact _).trans hview, rfl, nofun,
        fun _ => ⟨rfl, .inr (Nat.le_antisymm hd (Nat.not_lt.mp hge))⟩⟩

/-- What a call receives. -/
theorem step_eq {rest : List UInt8} {j : Nat} (hopen : c.closed = false) (hrest : rest ≠ [])
    (hj : 0 < j) (hroom : c.length < recvBufferSize) :
    step handle false (c, rest) j =
      (c.handleInput handle (rest.take (min j (recvBufferSize - c.length))),
        rest.drop (min j (recvBufferSize - c.length))) := by
  unfold step
  dsimp only
  rw [if_neg, if_neg]
  · simp only [not_and]
    omega
  · simp only [hopen, not_or]
    exact ⟨by decide, hrest, by omega⟩

/-! ## Units -/

section Units

variable {bytes : υ → List UInt8} {I : List υ → ρ → Prop} {us : List υ} {wire : List UInt8}

/-- The handler does right when `us` are the units from here on: it takes the first one if it is
there as a whole, and leaves the bytes behind it alone; if not it asks for more, and what it may
have written makes the unit another one. -/
structure Answers (handle : Handler ρ) (bytes : υ → List UInt8) (I : List υ → ρ → Prop)
    (us : List υ) (c : Receiver ρ) : Prop where
  whole : ∀ u us', us = u :: us' → (bytes u).length ≤ c.view.length →
    (c.answer handle).nSize = (bytes u).length ∧ I us' (c.answer handle).user ∧
      ∀ n, (c.answer handle).data.read (c.processedSize + (bytes u).length : Nat) n =
        c.data.read (c.processedSize + (bytes u).length : Nat) n
  part : ∀ u us', us = u :: us' → c.view.length < (bytes u).length →
    (c.answer handle).nSize = 0 ∧ ∃ u', I (u' :: us') (c.answer handle).user ∧
      (c.answer handle).data.read c.processedSize (c.length - c.processedSize) ++
        (bytes u).drop c.view.length = bytes u'

/-- Before the units `us`, of which `wire` is still to come: what was received of them is in the
buffer, and outside of the loop that is only a part of the first one. -/
structure Before (bytes : υ → List UInt8) (I : List υ → ρ → Prop) (c : Receiver ρ)
    (wire : List UInt8) (us : List υ) : Prop where
  user : I us c.user
  stream : c.view ++ wire = (us.map bytes).flatten
  processed : c.processedSize ≤ c.length
  more : c.inLoop = true → c.processedSize < c.length
  idle : c.inLoop = false → c.processedSize = 0
  size : c.length ≤ recvBufferSize
  isOpen : c.closed = false
  part : c.inLoop = false → ∀ u us', us = u :: us' → c.view.length < (bytes u).length

/-- The invariant of a connection on which `wire` is still to come. -/
def Inv (bytes : υ → List UInt8) (I : List υ → ρ → Prop) (c : Receiver ρ × List UInt8) : Prop :=
  c.1.inLoop = false ∧ ∃ us, Before bytes I c.1 c.2 us

/-- The bytes that are there of the first unit. -/
theorem Before.byte {u : υ} {us' : List υ} {i : Nat} (h : Before bytes I c wire (u :: us'))
    (hi : i < c.length - c.processedSize) (hu : i < (bytes u).length) :
    (bytes u)[i]? = some (c.data (c.processedSize + i)) := by
  have hstream : c.view ++ wire = bytes u ++ (us'.map bytes).flatten := h.stream
  have := congrArg (·[i]?) hstream
  simp only [List.getElem?_append, length_view, if_pos hi, if_pos hu] at this
  rw [← this, view, Memory.getElem?_read _ _ _ _ hi]

/-- The first unit, when it is there as a whole. -/
theorem Before.front {u : υ} {us' : List υ} (h : Before bytes I c wire (u :: us'))
    (hu : (bytes u).length ≤ c.length - c.processedSize) :
    c.data.read c.processedSize (bytes u).length = bytes u := by
  apply List.ext_getElem?
  intro i
  by_cases hi : i < (bytes u).length
  · rw [h.byte (by omega) hi, Memory.getElem?_read _ _ _ _ hi]
  · rw [List.getElem?_eq_none (by simpa using hi), List.getElem?_eq_none (by omega)]

/-- A part of the first unit, and the rest of it. -/
theorem Before.view_append_drop {u : υ} {us' : List υ} (h : Before bytes I c wire (u :: us'))
    (hu : c.view.length ≤ (bytes u).length) : c.view ++ (bytes u).drop c.view.length = bytes u := by
  have hstream : c.view ++ wire = bytes u ++ (us'.map bytes).flatten := h.stream
  have := congrArg (List.take c.view.length) hstream
  rw [List.take_left, List.take_append_of_le_length hu] at this
  conv_lhs => rw [this, List.length_take, Nat.min_eq_left hu]
  exact List.take_append_drop _ _

/-- A turn in which the first unit is there as a whole takes it. -/
theorem Before.turn_whole {u : υ} {us' : List υ} (h : Before bytes I c wire (u :: us'))
    (hne : ∀ u, bytes u ≠ []) (hl : c.inLoop = true) (ha : Answers handle bytes I (u :: us') c)
    (hwhole : (bytes u).length ≤ c.view.length) : Before bytes I (c.turn handle) wire us' := by
  have hmore := h.more hl
  have hlen := c.length_view
  have hpos : 0 < (bytes u).length := List.length_pos_iff.mpr (hne u)
  have hstream : c.view ++ wire = bytes u ++ (us'.map bytes).flatten := h.stream
  obtain ⟨hsize, huser, hkeep⟩ := ha.whole u us' rfl hwhole
  -- the unit is in front of the view
  have hrest : c.view.drop (bytes u).length ++ wire = (us'.map bytes).flatten := by
    have := congrArg (List.drop (bytes u).length) hstream
    rwa [List.drop_append_of_le_length hwhole, List.drop_left] at this
  have hview : (c.answer handle).data.read (c.processedSize + (bytes u).length : Nat)
      (c.length - (c.processedSize + (bytes u).length)) = c.view.drop (bytes u).length := by
    rw [hkeep, view, Memory.drop_read]
    congr 1
    omega
  unfold Receiver.turn
  simp only [hsize, Int.toNat_natCast]
  rw [if_neg (by omega), if_neg (by omega)]
  split
  · rename_i hlt
    exact ⟨huser, by rw [← hrest, ← hview]; rfl, Nat.le_of_lt hlt, fun _ => hlt,
      fun hno => absurd hno (by simp [hl]), h.size, h.isOpen,
      fun hno => absurd hno (by simp [hl])⟩
  · rename_i hge
    -- nothing is left behind it
    have hnil : c.view.drop (bytes u).length = [] := by
      rw [← hview, show c.length - (c.processedSize + (bytes u).length) = 0 by omega]
      rfl
    refine ⟨huser, ?_, Nat.zero_le _, fun hyes => (by cases hyes), fun _ => rfl, ?_,
      h.isOpen, fun _ v vs _ => ?_⟩
    · rw [view_compact, ← hrest, ← hview]
      rfl
    · exact Nat.le_trans (Nat.sub_le _ _) h.size
    · rw [view_compact, view, hview, hnil]
      exact List.length_pos_iff.mpr (hne v)

/-- A turn with a part of the first unit leaves it, with what the handler may have written. -/
theorem Before.turn_part {u : υ} {us' : List υ} (h : Before bytes I c wire (u :: us'))
    (ha : Answers handle bytes I (u :: us') c) (hlt : c.view.length < (bytes u).length) :
    ∃ u', Before bytes I (c.turn handle) wire (u' :: us') := by
  have hlen := c.length_view
  have hstream : c.view ++ wire = bytes u ++ (us'.map bytes).flatten := h.stream
  obtain ⟨hsize, u', huser, hkeep⟩ := ha.part u us' rfl hlt
  -- what is still to come is the rest of this unit, and the others
  have hwire : wire = (bytes u).drop c.view.length ++ (us'.map bytes).flatten := by
    have := congrArg (List.drop c.view.length) hstream
    rwa [List.drop_left, List.drop_append_of_le_length (Nat.le_of_lt hlt)] at this
  have hlen' := congrArg List.length hkeep
  rw [List.length_append, List.length_drop, Memory.length_read] at hlen'
  unfold Receiver.turn
  simp only [hsize, if_true]
  rw [if_neg (by omega)]
  refine ⟨u', huser, ?_, Nat.zero_le _, fun hyes => (by cases hyes), fun _ => rfl, ?_,
    h.isOpen, ?_⟩
  · rw [view_compact, hwire, ← List.append_assoc, List.map_cons, List.flatten_cons, ← hkeep]
    rfl
  · exact Nat.le_trans (Nat.sub_le _ _) h.size
  · rintro _ v vs hv
    obtain ⟨rfl, -⟩ := List.cons.inj hv
    rw [view_compact, length_view]
    simp only
    omega

/-- One turn. -/
theorem Before.turn (h : Before bytes I c wire us) (hne : ∀ u, bytes u ≠ []) (hl : c.inLoop = true)
    (ha : Answers handle bytes I us c) : ∃ us', Before bytes I (c.turn handle) wire us' := by
  cases us with
  | nil =>
    have hmore := h.more hl
    have hlen := c.length_view
    have hview : c.view = [] := (List.append_eq_nil_iff.mp h.stream).1
    rw [hview, List.length_nil] at hlen
    omega
  | cons u us' =>
    by_cases hwhole : (bytes u).length ≤ c.view.length
    · exact ⟨us', h.turn_whole hne hl ha hwhole⟩
    · obtain ⟨u', hpart⟩ := h.turn_part ha (Nat.not_le.mp hwhole)
      exact ⟨u' :: us', hpart⟩

/-- What every turn of a loop meets. -/
def TurnsOk (handle : Handler ρ) (ok : Receiver ρ → Prop) : Nat → Receiver ρ → Prop
  | 0, _ => True
  | fuel + 1, c => c.inLoop = true → ok c ∧ TurnsOk handle ok fuel (c.turn handle)

instance decidableTurnsOk {ok : Receiver ρ → Prop} [DecidablePred ok] :
    ∀ fuel c, Decidable (TurnsOk handle ok fuel c)
  | 0, _ => inferInstanceAs (Decidable True)
  | fuel + 1, c =>
    have : Decidable (TurnsOk handle ok fuel (c.turn handle)) := decidableTurnsOk fuel (c.turn handle)
    inferInstanceAs (Decidable (c.inLoop = true → ok c ∧ TurnsOk handle ok fuel (c.turn handle)))

theorem turnsOk_of_forall {ok : Receiver ρ → Prop} (h : ∀ c, ok c) (fuel : Nat) (c : Receiver ρ) :
    TurnsOk handle ok fuel c := by
  induction fuel generalizing c with
  | zero => trivial
  | succ fuel ih => exact fun _ => ⟨h c, ih _⟩

/-- A loop in every turn of which the handler does right. -/
theorem Before.turns {ok : Receiver ρ → Prop} (hne : ∀ u, bytes u ≠ [])
    (ha : ∀ c us, Before bytes I c wire us → c.inLoop = true → ok c → Answers handle bytes I us c)
    (fuel : Nat)
    (h : Before bytes I c wire us) (hok : TurnsOk handle ok fuel c) :
    ∃ us', Before bytes I (turns handle fuel c) wire us' := by
  induction fuel generalizing c us with
  | zero => exact ⟨us, h⟩
  | succ fuel ih =>
    simp only [Receiver.turns]
    split
    · rename_i hl
      obtain ⟨hokc, hoks⟩ := hok hl
      obtain ⟨us', h'⟩ := h.turn hne hl (ha c us h hl hokc)
      exact ih h' hoks
    · exact ⟨us, h⟩

/-- The bytes that `recv` gave are behind those that were there. -/
theorem view_recv (hp : c.processedSize = 0) (seg : List UInt8) : (c.recv seg).view = c.view ++ seg := by
  have hview : c.view = c.data.read 0 c.length := by
    simp [view, hp]
  rw [hview]
  have hfront : (c.data.write c.length seg).read 0 c.length = c.data.read 0 c.length :=
    Memory.read_write_of_disjoint (.inl (by omega))
  have hadd := Memory.read_add (c.data.write c.length seg) 0 c.length seg.length
  rw [hfront, Int.zero_add, Memory.read_write] at hadd
  exact hadd

/-- The condition of a call, if there is one: every turn of its loop meets `ok`. -/
def StepOk (handle : Handler ρ) (ok : Receiver ρ → Prop) (whenFull : Bool)
    (c : Receiver ρ × List UInt8) (k : Nat) : Prop :=
  let n := min k (recvBufferSize - c.1.length)
  ¬ (c.1.closed ∨ c.2 = [] ∨ k = 0) → ¬ (recvBufferSize ≤ c.1.length ∧ !whenFull) →
    TurnsOk handle ok ((c.1.recv (c.2.take n)).length + 1) (c.1.recv (c.2.take n))

instance decidableStepOk {ok : Receiver ρ → Prop} [DecidablePred ok] (whenFull : Bool)
    (c : Receiver ρ × List UInt8) (k : Nat) : Decidable (StepOk handle ok whenFull c k) :=
  inferInstanceAs (Decidable (_ → _ → TurnsOk handle ok _ _))

/-- **Calls.** A call of `handle_input` in every turn of which the handler does right keeps the
invariant. -/
theorem Inv.step {ok : Receiver ρ → Prop} {whenFull : Bool} {c : Receiver ρ × List UInt8}
    (h : Inv bytes I c) (hne : ∀ u, bytes u ≠ [])
    (ha : ∀ wire c us, Before bytes I c wire us → c.inLoop = true → ok c →
      Answers handle bytes I us c) (k : Nat) (hok : StepOk handle ok whenFull c k) :
    Inv bytes I (step handle whenFull c k) := by
  obtain ⟨c, wire⟩ := c
  obtain ⟨hl, us, hb⟩ := h
  unfold Receiver.step
  split
  · exact ⟨hl, us, hb⟩
  · rename_i hgo
    split
    · exact ⟨hl, us, hb⟩
    · rename_i hfull
      have hok := hok hgo hfull
      simp only [not_or] at hgo
      have hsize : c.length ≤ recvBufferSize := hb.size
      -- there is something to process: what `recv` gave, or a full buffer
      have hpos : 0 < c.length + (wire.take (min k (recvBufferSize - c.length))).length := by
        have hw : 0 < wire.length := List.length_pos_iff.mpr hgo.2.1
        have hk : 0 < k := Nat.pos_of_ne_zero hgo.2.2
        have hroom : 0 < recvBufferSize := by decide
        rw [List.length_take]
        omega
      have hb' : Before bytes I (c.recv (wire.take (min k (recvBufferSize - c.length))))
          (wire.drop (min k (recvBufferSize - c.length))) us := by
        refine ⟨hb.user, ?_, Nat.zero_le _, fun _ => hpos, fun hno => (by cases hno), ?_, hb.isOpen,
          fun hno => (by cases hno)⟩
        · rw [view_recv (hb.idle hl), List.append_assoc, List.take_append_drop]
          exact hb.stream
        · simp only [recv, List.length_take]
          omega
      obtain ⟨us', hend⟩ := hb'.turns hne (ha _) _ hok
      have hloop : (handleInput handle c
          (wire.take (min k (recvBufferSize - c.length)))).inLoop = false := by
        rcases (turns_ends _ _ (c.recv (wire.take (min k (recvBufferSize - c.length))))
          (Nat.lt_of_lt_of_le (Nat.lt_succ_self _) (Nat.le_add_right _ _)) :
            (handleInput handle c _).inLoop = false ∨ _) with hl | hge
        · exact hl
        · by_contra hno
          have hmore := hend.more (Bool.eq_false_or_eq_true _ |>.resolve_right hno)
          exact Nat.lt_irrefl _ (Nat.lt_of_lt_of_le hmore hge)
      exact ⟨hloop, us', hend⟩

/-- What is in the buffer between two calls: nothing behind the last unit, and in front of another
one a part of it. -/
theorem Before.view_cases (h : Before bytes I c wire us) (hl : c.inLoop = false) :
    match us with
    | [] => c.view = [] ∧ wire = []
    | u :: _ => c.view <+: bytes u ∧ c.view ≠ bytes u ∧ wire ≠ [] := by
  cases us with
  | nil => exact List.append_eq_nil_iff.mp h.stream
  | cons u us' =>
    have hpart := h.part hl u us' rfl
    have hstream : c.view ++ wire = bytes u ++ (us'.map bytes).flatten := h.stream
    refine ⟨?_, fun heq => ?_, fun hnil => ?_⟩
    · exact List.prefix_of_prefix_length_le ⟨wire, hstream⟩ (List.prefix_append _ _) (Nat.le_of_lt hpart)
    · rw [heq] at hpart
      exact Nat.lt_irrefl _ hpart
    · have := congrArg List.length hstream
      rw [hnil, List.append_nil, List.length_append] at this
      omega

/-- A new connection, to which the bytes of `us` are sent. -/
theorem init_inv {user : ρ} (hne : ∀ u, bytes u ≠ []) (hu : I us user) :
    Inv bytes I (init user, (us.map bytes).flatten) := by
  refine ⟨rfl, us, hu, rfl, Nat.le_refl _, fun hyes => (by cases hyes), fun _ => rfl, Nat.zero_le _,
    rfl, ?_⟩
  rintro _ u us' -
  exact List.length_pos_iff.mpr (hne u)

end Units

/-! ## What the handler keeps -/

section Keeps

variable {K L : ρ → Prop} {whenFull : Bool}

/-- `K` holds of the handler's object, and while the connection is open `L`. -/
structure Kept (K L : ρ → Prop) (c : Receiver ρ) : Prop where
  always : K c.user
  isOpen : c.closed = false → L c.user
  closed : c.closed = true → c.inLoop = false

theorem Kept.turn (hh : ∀ u m p n, L u → K (handle u m p n).user ∧
      (0 ≤ (handle u m p n).nSize → L (handle u m p n).user))
    (h : Kept K L c) (hl : c.inLoop = true) : Kept K L (c.turn handle) := by
  have hopen : c.closed = false := by
    by_contra hc
    rw [h.closed (by simpa using hc)] at hl
    cases hl
  obtain ⟨hk, hL⟩ := hh c.user c.data c.processedSize (c.length - c.processedSize) (h.isOpen hopen)
  unfold Receiver.turn
  simp only
  split
  · exact ⟨hk, nofun, fun _ => rfl⟩
  · rename_i hneg
    have hL : L (c.answer handle).user := hL (Int.not_lt.mp hneg)
    split
    · exact ⟨hk, fun _ => hL, fun _ => rfl⟩
    · split
      · exact ⟨hk, fun _ => hL, fun hc => absurd (hopen.symm.trans hc) (by decide)⟩
      · exact ⟨hk, fun _ => hL, fun _ => rfl⟩

theorem Kept.turns (hh : ∀ u m p n, L u → K (handle u m p n).user ∧
      (0 ≤ (handle u m p n).nSize → L (handle u m p n).user))
    (fuel : Nat) (h : Kept K L c) : Kept K L (turns handle fuel c) :=
  turns_invariant _ (fun _ hc hl => hc.turn hh hl) fuel h

/-- A call keeps what the handler keeps. -/
theorem Kept.step (hh : ∀ u m p n, L u → K (handle u m p n).user ∧
      (0 ≤ (handle u m p n).nSize → L (handle u m p n).user))
    {c : Receiver ρ × List UInt8} (h : Kept K L c.1) (k : Nat) :
    Kept K L (step handle whenFull c k).1 := by
  unfold Receiver.step
  simp only
  split
  · exact h
  · rename_i hnot
    split
    · exact h
    · refine Kept.turns hh _ ⟨h.always, h.isOpen, fun hc => absurd hc ?_⟩
      exact fun hc => hnot (.inl hc)

end Keeps

/-- When a full buffer ends the call, some calls lead to where no further one does anything. -/
theorem exists_final (handle : Handler ρ) (c : Receiver ρ × List UInt8) :
    ∃ ks, ∀ k, step handle false (Run.run (step handle false) c ks) k =
      Run.run (step handle false) c ks := by
  by_cases hfinal : ∀ k, step handle false c k = c
  · exact ⟨[], hfinal⟩
  · obtain ⟨k, hk⟩ := not_forall.mp hfinal
    have hlt : (step handle false c k).2.length < c.2.length := by
      unfold step at hk ⊢
      simp only at hk ⊢
      split at hk
      · exact absurd rfl hk
      · rename_i hnot
        rw [if_neg hnot]
        obtain ⟨-, hne, hk0⟩ : _ ∧ c.2 ≠ [] ∧ k ≠ 0 := by
          simpa only [not_or] using hnot
        split at hk
        · exact absurd rfl hk
        · rename_i hfull
          rw [if_neg hfull]
          have hpos := List.length_pos_iff.mpr hne
          simp only [Bool.not_false, and_true] at hfull
          simp only [List.length_drop]
          omega
    obtain ⟨ks, hks⟩ := exists_final handle (step handle false c k)
    exact ⟨k :: ks, hks⟩
termination_by c.2.length

end Receiver

end AllCamera
