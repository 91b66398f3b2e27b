import AllCamera.Stream.TcpSend

/-!
# What is sent is what was given

The bytes on the wire, followed by those in the send list, should be the messages whose send
returned `RET_OK`. That fails where the rest of a gather write does not fit into the one block that
is allocated for it, and where a call fails that has sent a part of its message.

* `MessageOk`, `IovecOk`: what keeps a call from doing that.
* `step_sound_iff`: a call keeps the equation exactly then.
* `run_sound_iff`: and so it holds in all states of a run exactly if every call is like that.
-/

namespace AllCamera.TcpConnect

/-- The bytes on the wire and then those in the list are the messages. -/
def Sound (c : TcpConnect) : Prop := c.wire ++ c.sendList.flatten = c.messages.flatten

instance (c : TcpConnect) : Decidable c.Sound := inferInstanceAs (Decidable (_ = _))

/-! ## The condition -/

/-- The socket takes every block of the list as a whole. -/
def Flushes (least : Nat → Sent) (list : List Bytes) : Prop :=
  ∀ k b, list[k]? = some b → b.length ≤ (least k).n ∧ (b = [] → (least k).disconnect = false)

/-- The blocks are there, and there is memory for their duplicates. -/
def Queueable (dup : Nat → Bool) (bs : List (Option Bytes)) : Prop :=
  ∀ k b, bs[k]? = some b → b ≠ none ∧ dup k = true

/-- The rest of a message of which something was sent: the blocks are there, no error but a full
socket comes before the last one, and there is memory if the socket is full. -/
def RestOk (out : Nat → Sent) (dup : Nat → Bool) : List (Option Bytes) → Prop
  | [] => True
  | none :: _ => False
  | some b :: bs =>
    if b.length ≤ (out 0).n then RestOk (fun k => out (k + 1)) (fun k => dup (k + 1)) bs
    else ((out 0).n = 0 → (out 0).disconnect = false) ∧ Queueable dup (some b :: bs)

/-- A message: it ends before its first byte was sent or kept, or goes on to its end. -/
def MessageOk (out : Nat → Sent) (dup : Nat → Bool) : List (Option Bytes) → Prop
  | [] => True
  | none :: _ => True
  | some b :: bs =>
    if b.length = 0 then MessageOk (fun k => out (k + 1)) (fun k => dup (k + 1)) bs
    else if (out 0).n = 0 then
      (out 0).disconnect = true ∨ dup 0 = false ∨ Queueable dup (some b :: bs)
    else RestOk out dup (some b :: bs)

/-- A gather write of which the socket takes `out.n` bytes, or all: what is left fits into a block,
for which there is memory unless nothing was taken; and `unDataSize` is not the number taken of a
longer message. -/
def IovecOk (pIovec : List Bytes) (unDataSize : UInt32) (out : Sent) (alloc : Bool) : Prop :=
  let n := min out.n pIovec.flatten.length
  if n = 0 ∧ out.disconnect = true then True
  else if unDataSize.toNat = n then n = pIovec.flatten.length
  else if alloc then pIovec.flatten.length - n ≤ MsgBlock.blockSize
  else n = 0

/-- The condition of a call: if it comes to sending its own message, that is all right. -/
def CallOk (c : TcpConnect) : Call → Prop
  | .sendLeastData _ => True
  | .sendMessage pMessage least out dup =>
    c.started = true → Flushes least c.sendList → MessageOk out dup pMessage
  | .sendv pIovec unDataSize least out alloc =>
    c.started = true → Flushes least c.sendList → IovecOk pIovec unDataSize out alloc

/-! ## Loops -/

/-- What is taken of a buffer is a first part of it, as long as `nSendSize`. -/
theorem taken_append_drop {o : Sent} {data : Bytes} {n : Nat} (h : o.nSendSize data = some n) :
    n = min o.n data.length ∧ o.taken data ++ data.drop n = data := by
  unfold Sent.nSendSize at h
  have hn : n = (o.taken data).length := by
    split at h
    · split at h
      · cases h
      · rw [← Option.some.inj h]
        exact Eq.symm ‹_›
    · exact (Option.some.inj h).symm
  have hlen : (o.taken data).length = min o.n data.length := List.length_take
  refine ⟨hn.trans hlen, ?_⟩
  rw [hn, hlen, Sent.taken]
  rcases Nat.le_total o.n data.length with hle | hle
  · rw [Nat.min_eq_left hle, List.take_append_drop]
  · rw [Nat.min_eq_right hle, List.take_of_length_le hle, List.drop_length, List.append_nil]

/-- An error comes with nothing taken. -/
theorem nSendSize_none {o : Sent} {data : Bytes} :
    o.nSendSize data = none ↔ min o.n data.length = 0 ∧ o.disconnect = true := by
  unfold Sent.nSendSize Sent.taken
  rw [List.length_take]
  split
  · rename_i hzero
    simp only [hzero, true_and]
    split <;> simp_all
  · rename_i hpos
    simp [hpos]

theorem disconnect_of_none {o : Sent} {data : Bytes} (h : o.nSendSize data = none) :
    min o.n data.length = 0 ∧ o.disconnect = true := nSendSize_none.mp h

theorem nSendSize_of_disconnect {o : Sent} {data : Bytes} (hzero : min o.n data.length = 0)
    (herr : o.disconnect = true) : o.nSendSize data = none := nSendSize_none.mpr ⟨hzero, herr⟩

theorem taken_of_none {o : Sent} {data : Bytes} (h : o.nSendSize data = none) : o.taken data = [] := by
  have := (disconnect_of_none h).1
  exact List.length_eq_zero_iff.mp (by rw [Sent.taken, List.length_take, this])

/-- The list's bytes are taken, or stay. -/
theorem leastLoop_bytes (out : Nat → Sent) (list : List Bytes) :
    (leastLoop out list).taken ++ (leastLoop out list).list.flatten = list.flatten := by
  induction list generalizing out with
  | nil => rfl
  | cons b bs ih =>
    rw [leastLoop_cons]
    split
    · rename_i hnone
      simp [taken_of_none hnone]
    · rename_i nRet hsome
      obtain ⟨hn, htaken⟩ := taken_append_drop hsome
      split
      · rw [List.flatten_cons, List.flatten_cons, ← List.append_assoc, htaken]
      · rename_i hall
        have hwhole : (out 0).taken b = b := by
          rw [not_not] at hall
          rw [← hall, List.drop_length, List.append_nil] at htaken
          exact htaken
        rw [List.append_assoc, ih, hwhole, List.flatten_cons]

/-- `sendLeastData` returns `RET_OK` when the socket takes everything, and then the list is empty. -/
theorem leastLoop_ok (out : Nat → Sent) (list : List Bytes) :
    (leastLoop out list).ret = .ok ↔ Flushes out list := by
  induction list generalizing out with
  | nil => simp [leastLoop_nil, Flushes]
  | cons b bs ih =>
    have hcons : Flushes out (b :: bs) ↔
        (b.length ≤ (out 0).n ∧ (b = [] → (out 0).disconnect = false)) ∧
          Flushes (fun k => out (k + 1)) bs := by
      refine ⟨fun h => ⟨h 0 b rfl, fun k b' hb' => h (k + 1) b' hb'⟩, ?_⟩
      rintro ⟨h0, h⟩ k b' hb'
      cases k with
      | zero =>
        obtain rfl : b = b' := Option.some.inj hb'
        exact h0
      | succ k => exact h k b' hb'
    rw [hcons]
    rw [leastLoop_cons]
    split
    · rename_i hnone
      obtain ⟨hzero, herr⟩ := disconnect_of_none hnone
      refine ⟨fun h => (by cases h), fun h => absurd (h.1.2 ?_) (by simp [herr])⟩
      exact List.length_eq_zero_iff.mp (by omega)
    · rename_i nRet hsome
      obtain ⟨hn, -⟩ := taken_append_drop hsome
      split
      · exact ⟨fun h => (by cases h), fun h => by omega⟩
      · rename_i hall
        simp only
        rw [ih]
        refine ⟨fun h => ⟨⟨by omega, ?_⟩, h⟩, fun h => h.2⟩
        rintro rfl
        by_contra herr
        have hnone : (out 0).nSendSize [] = none :=
          nSendSize_of_disconnect (by simp) (by simpa using herr)
        rw [hnone] at hsome
        cases hsome

theorem leastLoop_list {out : Nat → Sent} {list : List Bytes} (h : (leastLoop out list).ret = .ok) :
    (leastLoop out list).list = [] := by
  induction list generalizing out with
  | nil => rfl
  | cons b bs ih =>
    rw [leastLoop_cons] at h ⊢
    split
    · rename_i hnone
      rw [hnone] at h
      cases h
    · rename_i nRet hsome
      rw [hsome] at h
      split
      · rename_i hne
        simp only [hne, ne_eq, not_false_eq_true, if_true] at h
        cases h
      · rename_i heq
        simp only [heq, if_false] at h
        exact ih h

theorem queueable_cons (dup : Nat → Bool) (b : Option Bytes) (bs : List (Option Bytes)) :
    Queueable dup (b :: bs) ↔ (b ≠ none ∧ dup 0 = true) ∧ Queueable (fun k => dup (k + 1)) bs := by
  refine ⟨fun h => ⟨h 0 b rfl, fun k b' hb' => h (k + 1) b' hb'⟩, ?_⟩
  rintro ⟨h0, h⟩ k b' hb'
  cases k with
  | zero =>
    obtain rfl : b = b' := Option.some.inj hb'
    exact h0
  | succ k => exact h k b' hb'

theorem queueLoop_ok (dup : Nat → Bool) (n : Nat) (bs : List (Option Bytes)) :
    (queueLoop dup n bs).ret = .ok ↔ Queueable dup bs := by
  induction bs generalizing dup n with
  | nil => simp [queueLoop_nil, Queueable]
  | cons b bs ih =>
    rw [queueable_cons]
    cases b with
    | none => simp [queueLoop_none]
    | some b =>
      rw [queueLoop_some]
      split
      · rename_i hdup
        simp [hdup, ih]
      · rename_i hdup
        simp [hdup]

/-- All blocks are put into the list, the first one without what was sent of it. -/
theorem queueLoop_list {dup : Nat → Bool} {n : Nat} {b : Bytes} {bs : List (Option Bytes)}
    (h : Queueable dup (some b :: bs)) :
    (queueLoop dup n (some b :: bs)).list.flatten = b.drop n ++ blockBytes bs := by
  have hrest : ∀ (dup : Nat → Bool) (bs : List (Option Bytes)), Queueable dup bs →
      (queueLoop dup 0 bs).list.flatten = blockBytes bs := by
    intro dup bs
    induction bs generalizing dup with
    | nil => exact fun _ => rfl
    | cons b bs ih =>
      intro hq
      obtain ⟨⟨hb, hdup⟩, htail⟩ := (queueable_cons _ _ _).mp hq
      cases b with
      | none => exact absurd rfl hb
      | some b => simp [queueLoop_some, hdup, ih _ htail, blockBytes]
  obtain ⟨⟨-, hdup⟩, hq⟩ := (queueable_cons _ _ _).mp h
  simp [queueLoop_some, hdup, hrest _ _ hq]

/-- A function's loops take and keep its message when it returns `RET_OK`, and nothing when not. -/
def Loop.Keeps (r : Loop) (message : Bytes) : Prop :=
  r.taken ++ r.list.flatten = if r.ret = .ok then message else []

/-- The rest of a message is sent or kept, or `RET_OK` is not returned. -/
theorem sendLoop_rest (out : Nat → Sent) (dup : Nat → Bool) (bs : List (Option Bytes)) :
    ((sendLoop out dup bs).ret = .ok ↔ RestOk out dup bs) ∧
      (RestOk out dup bs →
        (sendLoop out dup bs).taken ++ (sendLoop out dup bs).list.flatten = blockBytes bs) := by
  induction bs generalizing out dup with
  | nil => simp [sendLoop_nil, RestOk, blockBytes]
  | cons b bs ih =>
    cases b with
    | none => simp [sendLoop_none, RestOk]
    | some b =>
      obtain ⟨ihok, ihbytes⟩ := ih (fun k => out (k + 1)) (fun k => dup (k + 1))
      rw [sendLoop_some, RestOk]
      by_cases hempty : b.length = 0
      · obtain rfl := List.length_eq_zero_iff.mp hempty
        simp only [List.length_nil, if_true, Nat.zero_le]
        exact ⟨ihok, ihbytes⟩
      · rw [if_neg hempty]
        split
        · rename_i hnone
          obtain ⟨hzero, herr⟩ := disconnect_of_none hnone
          have hn : (out 0).n = 0 := by omega
          rw [if_neg (by omega)]
          exact ⟨⟨fun h => (by cases h), fun h => absurd (h.1 hn) (by simp [herr])⟩,
            fun h => absurd (h.1 hn) (by simp [herr])⟩
        · rename_i n hsome
          obtain ⟨hn, htaken⟩ := taken_append_drop hsome
          by_cases hwhole : b.length ≤ (out 0).n
          · have htake : (out 0).taken b = b := List.take_of_length_le hwhole
            rw [if_neg (by omega), if_pos hwhole]
            refine ⟨ihok, fun h => ?_⟩
            simp only
            rw [List.append_assoc, ihbytes h, htake]
            rfl
          · rw [if_pos (by omega), if_neg hwhole]
            have herr : (out 0).n = 0 → (out 0).disconnect = false := by
              intro hz
              by_contra hno
              have := nSendSize_of_disconnect (show min (out 0).n b.length = 0 by omega) (by simpa using hno)
              rw [this] at hsome
              cases hsome
            simp only [queueLoop_ok]
            refine ⟨⟨fun h => ⟨herr, h⟩, fun h => h.2⟩, fun h => ?_⟩
            rw [queueLoop_list h.2, ← List.append_assoc, htaken]
            rfl

/-- A first block of which nothing is sent is kept with the others, or nothing is. -/
theorem sendLoop_refused {out : Nat → Sent} {dup : Nat → Bool} {b : Bytes}
    {bs : List (Option Bytes)} (hempty : b.length ≠ 0) (hn : (out 0).n = 0) :
    (sendLoop out dup (some b :: bs)).Keeps (blockBytes (some b :: bs)) ↔
      (out 0).disconnect = true ∨ dup 0 = false ∨ Queueable dup (some b :: bs) := by
  have htaken : (out 0).taken b = [] := by simp [Sent.taken, hn]
  rw [sendLoop_some, if_neg hempty]
  by_cases herr : (out 0).disconnect = true
  · rw [nSendSize_of_disconnect (by omega) herr]
    simp [Loop.Keeps, htaken, herr]
  · have hsome : (out 0).nSendSize b = some 0 := by
      simp [Sent.nSendSize, htaken, herr]
    simp only [hsome, ne_eq, hempty, not_false_eq_true, if_true, herr, Bool.false_eq_true, false_or]
    by_cases hdup : dup 0 = true
    · have hne : b ≠ [] := fun h => hempty (by rw [h]; rfl)
      by_cases hq : Queueable dup (some b :: bs)
      · simp only [hq, or_true, iff_true, Loop.Keeps, (queueLoop_ok dup 0 _).mpr hq, if_true,
          htaken, queueLoop_list hq]
        rfl
      · have hret : (queueLoop dup 0 (some b :: bs)).ret ≠ .ok :=
          fun h => hq ((queueLoop_ok dup 0 _).mp h)
        simp only [hq, or_false, hdup, Bool.true_eq_false, iff_false, Loop.Keeps, hret, if_false,
          htaken, List.nil_append]
        simp [queueLoop_some, hdup, hne]
    · simp [queueLoop_some, hdup, Loop.Keeps, htaken]

/-- If the socket takes a byte, it is one of the first block. -/
theorem sendLoop_taken_ne_nil (out : Nat → Sent) (dup : Nat → Bool) {b : Bytes}
    (bs : List (Option Bytes)) (hempty : b.length ≠ 0) (hn : (out 0).n ≠ 0) :
    (sendLoop out dup (some b :: bs)).taken ≠ [] := by
  have hne : (out 0).taken b ≠ [] := by
    intro h
    have := congrArg List.length h
    rw [Sent.taken, List.length_take, List.length_nil] at this
    omega
  intro htaken
  rw [sendLoop_some] at htaken
  rw [if_neg hempty] at htaken
  split at htaken
  · exact hne htaken
  · split at htaken
    · exact hne htaken
    · exact hne (List.append_eq_nil_iff.mp htaken).1

/-- `sendMessage` takes and keeps its message or nothing exactly under the condition. -/
theorem sendLoop_keeps (out : Nat → Sent) (dup : Nat → Bool) (bs : List (Option Bytes)) :
    (sendLoop out dup bs).Keeps (blockBytes bs) ↔ MessageOk out dup bs := by
  induction bs generalizing out dup with
  | nil => simp [sendLoop_nil, MessageOk, Loop.Keeps, blockBytes]
  | cons b bs ih =>
    cases b with
    | none => simp [sendLoop_none, MessageOk, Loop.Keeps]
    | some b =>
      by_cases hempty : b.length = 0
      · obtain rfl := List.length_eq_zero_iff.mp hempty
        rw [sendLoop_some, MessageOk]
        simp only [List.length_nil, if_true]
        exact ih _ _
      · obtain ⟨hok, hbytes⟩ := sendLoop_rest out dup (some b :: bs)
        unfold MessageOk
        rw [if_neg hempty]
        by_cases hn : (out 0).n = 0
        · rw [if_pos hn]
          exact sendLoop_refused hempty hn
        · rw [if_neg hn]
          by_cases hrest : RestOk out dup (some b :: bs)
          · simp only [hrest, iff_true, Loop.Keeps, hok.mpr hrest, if_true]
            exact hbytes hrest
          · have hret : (sendLoop out dup (some b :: bs)).ret ≠ .ok := fun h => hrest (hok.mp h)
            simp only [hrest, iff_false, Loop.Keeps, hret, if_false]
            exact fun hnil => sendLoop_taken_ne_nil out dup bs hempty hn
              (List.append_eq_nil_iff.mp hnil).1

/-- The block never holds more than it has room for. -/
theorem copyLoop_length {block : Bytes} (h : block.length ≤ MsgBlock.blockSize) (n : Nat)
    (vs : List Bytes) : (copyLoop block n vs).length ≤ MsgBlock.blockSize := by
  induction vs generalizing block n with
  | nil => exact h
  | cons v vs ih =>
    unfold copyLoop
    split
    · apply ih
      unfold copyBlock
      split
      · exact h
      · rw [List.length_append]
        omega
    · exact ih h _

/-- What is behind the first `n` bytes is copied, if it fits. -/
theorem copyLoop_fits {block : Bytes} {n : Nat} {vs : List Bytes}
    (h : block.length + (vs.flatten.length - n) ≤ MsgBlock.blockSize) :
    copyLoop block n vs = block ++ vs.flatten.drop n := by
  induction vs generalizing block n with
  | nil => simp [copyLoop]
  | cons v vs ih =>
    rw [List.flatten_cons, List.length_append] at h
    unfold copyLoop
    split
    · rename_i hlt
      have hcopy : copyBlock block (v.drop n) = block ++ v.drop n := by
        unfold copyBlock
        rw [if_neg (by rw [List.length_drop]; omega)]
      rw [hcopy, ih (by rw [List.length_append, List.length_drop]; omega), List.drop_zero,
        List.flatten_cons, List.drop_append_of_le_length (Nat.le_of_lt hlt), List.append_assoc]
    · rename_i hge
      have hfit : block.length + (vs.flatten.length - (n - v.length)) ≤ MsgBlock.blockSize := by omega
      have hpast : v.length ≤ n := by omega
      rw [ih hfit, List.flatten_cons, List.drop_append, List.drop_of_length_le hpast, List.nil_append]

/-- `sendv` takes and keeps its message or nothing exactly under the condition. -/
theorem sendvLoop_keeps (pIovec : List Bytes) (unDataSize : UInt32) (out : Sent) (alloc : Bool) :
    (sendvLoop pIovec unDataSize out alloc).Keeps pIovec.flatten ↔
      IovecOk pIovec unDataSize out alloc := by
  unfold sendvLoop IovecOk
  split
  · rename_i hnone
    rw [if_pos (disconnect_of_none hnone)]
    simp [Loop.Keeps, taken_of_none hnone]
  · rename_i n hsome
    obtain ⟨hn, htaken⟩ := taken_append_drop hsome
    have hgo : ¬ (min out.n pIovec.flatten.length = 0 ∧ out.disconnect = true) := by
      intro h
      rw [nSendSize_of_disconnect h.1 h.2] at hsome
      cases hsome
    have hlen := congrArg List.length htaken
    rw [List.length_append, List.length_drop] at hlen
    have hle : n ≤ pIovec.flatten.length := by omega
    simp only [← hn] at hgo ⊢
    rw [if_neg hgo]
    by_cases hsize : unDataSize.toNat = n
    · rw [if_neg (not_not.mpr hsize), if_pos hsize]
      simp only [Loop.Keeps, if_true, List.flatten_nil, List.append_nil]
      refine ⟨fun h => ?_, fun h => ?_⟩
      · rw [h] at hlen
        omega
      · rwa [h, List.drop_length, List.append_nil] at htaken
    · rw [if_pos hsize, if_neg hsize]
      by_cases halloc : alloc = true
      · rw [if_pos halloc, if_pos halloc]
        simp only [Loop.Keeps, if_true, List.flatten_cons, List.flatten_nil, List.append_nil]
        refine ⟨fun h => ?_, fun h => ?_⟩
        · have hcopy : (copyLoop [] n pIovec).length ≤ MsgBlock.blockSize :=
            copyLoop_length (Nat.zero_le _) n pIovec
          have := congrArg List.length h
          rw [List.length_append] at this
          omega
        · rw [copyLoop_fits (by rw [List.length_nil]; omega), List.nil_append, htaken]
      · rw [if_neg halloc, if_neg halloc]
        simp only [Loop.Keeps, reduceCtorEq, if_false, List.flatten_nil, List.append_nil]
        refine ⟨fun h => ?_, fun h => ?_⟩
        · rw [h, List.length_nil] at hlen
          omega
        · apply List.length_eq_zero_iff.mp
          omega

/-! ## Calls -/

variable {c : TcpConnect}

/-- `sendLeastData` keeps the equation. -/
theorem Sound.sendLeastData (h : c.Sound) (out : Nat → Sent) : (c.sendLeastData out).2.Sound := by
  unfold Sound TcpConnect.sendLeastData at *
  simp only
  rw [List.append_assoc, leastLoop_bytes]
  exact h

/-- The flush keeps the equation, and empties the list when it succeeds. -/
theorem Sound.flush (h : c.Sound) (least : Nat → Sent) :
    (c.flush least).2.Sound ∧ ((c.flush least).1 = .ok ↔ Flushes least c.sendList) ∧
      ((c.flush least).1 = .ok → (c.flush least).2.sendList = []) := by
  unfold TcpConnect.flush
  split
  · rename_i hnil
    refine ⟨h, ?_, fun _ => hnil⟩
    rw [hnil]
    simp [Flushes]
  · exact ⟨h.sendLeastData least, leastLoop_ok least c.sendList, leastLoop_list⟩

/-- A message behind an empty list. -/
theorem Sound.finish_iff (h : c.Sound) (hnil : c.sendList = []) (r : Loop) (message : Bytes) :
    (c.finish r message).Sound ↔ r.Keeps message := by
  have hwire : c.wire = c.messages.flatten := by
    unfold Sound at h
    rwa [hnil, List.flatten_nil, List.append_nil] at h
  unfold Sound finish Loop.Keeps
  simp only [hnil, List.nil_append, hwire, List.append_assoc]
  split
  · rw [List.flatten_append, List.flatten_singleton, List.append_cancel_left_eq]
  · rw [List.append_right_eq_self]

/-- The functions that send a message after a flush. -/
theorem Sound.send_iff (h : c.Sound) (least : Nat → Sent) (r : Loop) (message : Bytes) :
    Sound (if !c.started then c else
      match c.flush least with
      | (.ok, c) => c.finish r message
      | (_, c) => c) ↔
      (c.started = true → Flushes least c.sendList → r.Keeps message) := by
  cases hstart : c.started with
  | false => simp [h]
  | true =>
    obtain ⟨hsound, hok, hnil⟩ := h.flush least
    simp only [Bool.not_true, Bool.false_eq_true, if_false, true_imp_iff, ← hok]
    split
    · rename_i c' heq
      rw [heq] at hsound hnil
      simp only [heq, true_imp_iff]
      exact hsound.finish_iff (hnil rfl) r message
    · rename_i ret c' hne heq
      rw [heq] at hsound
      simp only [heq, hsound, true_iff]
      exact fun hret => absurd hret hne

/-- **A call** keeps the equation exactly under its condition. -/
theorem step_sound_iff (h : c.Sound) (a : Call) : (step c a).Sound ↔ CallOk c a := by
  cases a with
  | sendLeastData least => exact iff_of_true (h.sendLeastData least) trivial
  | sendMessage pMessage least out dup =>
    have hsend := h.send_iff least (sendLoop out dup pMessage) (blockBytes pMessage)
    rw [sendLoop_keeps] at hsend
    exact hsend
  | sendv pIovec unDataSize least out alloc =>
    have hsend := h.send_iff least (sendvLoop pIovec unDataSize out alloc) pIovec.flatten
    rw [sendvLoop_keeps] at hsend
    exact hsend

/-- **Runs.** For every sequence of calls and all answers of the socket and of the allocations: the
bytes on the wire, followed by those in the send list, are in every state that is reached the messages
whose send returned `RET_OK`, one behind the other, if and only if every call meets its condition. -/
theorem run_sound_iff (calls : List Call) :
    (∀ pre, pre <+: calls → (Run.run step init pre).Sound) ↔ Run.Allowed step CallOk init calls :=
  (Run.allowed_iff (show init.Sound from rfl) fun _ a h => step_sound_iff h a).symm

/-- A socket that is full. -/
def wouldBlock : Sent := ⟨0, false, by decide⟩

/-- A packet with its interleaved header, 2051 bytes, given to a full socket: the header is kept. -/
theorem not_sound_longIovec :
    ¬ ∀ pre, pre <+: [Call.sendv [[0x24, 0, 7, 255], List.replicate 2047 0] 2051 (fun _ => wouldBlock)
      wouldBlock true] → (Run.run step init pre).Sound := by
  generalize hiovec : [[0x24, 0, 7, 255], List.replicate 2047 (0 : UInt8)] = pIovec
  intro h
  have hok : CallOk init (.sendv pIovec 2051 (fun _ => wouldBlock) wouldBlock true) :=
    (step_sound_iff (show init.Sound from rfl) _).mp (h _ List.prefix_rfl)
  have hlen : pIovec.flatten.length = 2051 := by
    rw [← hiovec, List.flatten_cons, List.length_append, List.flatten_singleton, List.length_replicate]
    rfl
  -- nothing is taken, and what is left does not fit into a block
  have hblock := hok rfl fun _ _ hblock => nomatch hblock
  simp [IovecOk, wouldBlock, hlen, MsgBlock.blockSize] at hblock

end AllCamera.TcpConnect
