import AllCamera.Stream.RtspPacket.Message
import AllCamera.Stream.RtpTcpConnect.Interleaved
import AllCamera.Stream.RtspPushSession

/-!
# Cutting RTSP messages out of a TCP stream

The searches of `checkRtsp` go through everything that was received, and its `strncmp` also behind
that. Messages are cut out right as long as these find what belongs to the first message.

* `RtspMessage.checks`: that condition, for what was received of a message.
* `checkRtsp_part`, `checkRtsp_head`: what `checkRtsp` answers then; `checkRtsp_part_iff`: a part of
  a header is refused otherwise.
* `run_cuts`: both handlers cut a stream into its messages when every turn of their loops meets the
  condition.
-/

namespace AllCamera

open Receiver

/-- The condition on the `n` bytes at `p`, which begin with the message or are a part of it. Without
the whole header: a method is recognised, and less than 2048 bytes are there. With it: the lengths
fit, the first `Content-Length:` (or, where there is none, `Content-length:`) of everything that
was received is the one of this message, and its digits end within as many bytes as the first line
has; for a message without content length neither is found. -/
def RtspMessage.checks (msg : RtspMessage) (m : Memory) (p n : Nat) : Bool :=
  if n < msg.head.length then knownMethod m p && decide (n < rtspMsgLength)
  else
    decide (msg.bytes.length < 2 ^ 32) &&
      match msg.lengthLine with
      | none => find contentLength (m.read p n) = none && find contentLengthLower (m.read p n) = none
      | some l =>
        decide (l.blanks.length + l.digits.length ≤ msg.startLine.length) &&
          (find contentLength (m.read p n) = some msg.lengthAt ||
            find contentLength (m.read p n) = none &&
              find contentLengthLower (m.read p n) = some msg.lengthAt)

/-! ## `checkRtsp` -/

section Check

variable {msg : RtspMessage} {m : Memory} {p n : Nat}

/-- With a part of the header `checkRtsp` asks for more. -/
theorem checkRtsp_part (hn : n < msg.head.length) (hview : m.read p n <+: msg.head)
    (hc : msg.checks m p n = true) : checkRtsp m p n = ⟨0, 0, m⟩ := by
  unfold RtspMessage.checks at hc
  rw [if_pos hn, Bool.and_eq_true, decide_eq_true_iff] at hc
  have hend := msg.find_end_part hview (by simpa using hn)
  unfold checkRtsp
  rw [if_pos hc.1]
  simp only [hend]
  rw [if_neg (by omega)]

/-- With a part of the header it asks for more only then. -/
theorem checkRtsp_part_iff (hn : n < msg.head.length) (hview : m.read p n <+: msg.head) :
    (checkRtsp m p n).ret = 0 ↔ msg.checks m p n = true := by
  refine ⟨fun h => ?_, fun hc => by rw [checkRtsp_part hn hview hc]⟩
  have hend := msg.find_end_part hview (by simpa using hn)
  unfold RtspMessage.checks
  rw [if_pos hn]
  unfold checkRtsp at h
  split at h
  · rename_i hknown
    simp only [hend] at h
    split at h
    · cases h
    · rename_i hshort
      rw [hknown, decide_eq_true (by omega)]
      rfl
  · cases h

/-- The start line is there with the header, and with it the method. -/
theorem knownMethod_head {t : List UInt8} (hview : m.read p n = msg.head ++ t) :
    knownMethod m p = true := by
  obtain ⟨name, hmem, hname⟩ := msg.startLine_method
  obtain ⟨t', ht'⟩ := msg.head_eq
  have hpre : name <+: m.read p n := by
    rw [hview, ht', List.append_assoc]
    exact hname.trans (List.prefix_append _ _)
  have hlen : name.length ≤ n := by simpa using hpre.length_le
  refine List.any_eq_true.mpr ⟨name, hmem, beq_iff_eq.mpr ?_⟩
  rw [← Memory.take_read m p n _ hlen]
  exact (List.prefix_iff_eq_take.mp hpre).symm

/-- The buffer after `checkRtsp` has found the length: the message is `capital` there. -/
structure Raised (msg : RtspMessage) (m : Memory) (p : Nat) (m' : Memory) : Prop where
  read : ∀ n, msg.head.length ≤ n → m.read p n = msg.bytes.take n →
    m'.read p n = msg.capital.bytes.take n
  rest : ∀ n, msg.head.length ≤ n → msg.capital.bytes.drop n = msg.bytes.drop n
  behind : ∀ k, m'.read (p + msg.bytes.length : Nat) k = m.read (p + msg.bytes.length : Nat) k

theorem Raised.same (h : msg.capital = msg) (m : Memory) (p : Nat) : Raised msg m p m := by
  refine ⟨fun n _ hm => ?_, fun n _ => ?_, fun k => rfl⟩
  · rw [h, hm]
  · rw [h]

/-- The name lies before the end of the header. -/
theorem lengthAt_lt {l : LengthLine} (hl : msg.lengthLine = some l) :
    msg.lengthAt + contentLength.length < msg.head.length := by
  have := l.name_length
  simp only [RtspMessage.head, RtspMessage.lines, RtspMessage.lengthAt, hl, endLines, LengthLine.text,
    Option.toList_some, List.map_cons, List.map_nil, List.cons_append, List.flatMap_cons,
    List.flatMap_append, List.flatMap_nil, List.length_append, rtspEndLine, List.length_cons,
    List.length_nil]
  omega

/-- The `L` is written. -/
theorem Raised.written {l : LengthLine} (hl : msg.lengthLine = some l)
    (hname : l.name = contentLengthLower) (m : Memory) (p : Nat) :
    Raised msg m p (m.write (p + msg.lengthAt + 8 : Nat) [76]) := by
  obtain ⟨a, b, x, hbytes, ha, hcapital⟩ := msg.bytes_capital hl hname
  have hin : a.length < msg.head.length := by
    have := lengthAt_lt hl
    have h15 : contentLength.length = 15 := by decide
    omega
  have hat : ((p + msg.lengthAt + 8 : Nat) : Int) = p + a.length := by omega
  have htot := congrArg List.length hbytes
  rw [List.length_append, List.length_cons] at htot
  refine ⟨fun n hn hm => ?_, fun n hn => ?_, fun k => ?_⟩
  · have htake : ∀ y, (a ++ y :: b).take n = a ++ y :: b.take (n - a.length - 1) := by
      intro y
      rw [List.take_append, List.take_of_length_le (by omega),
        show n - a.length = (n - a.length - 1) + 1 by omega, List.take_succ_cons]
      rfl
    rw [hbytes, htake] at hm
    rw [hcapital, htake, hat]
    exact Memory.read_write_one hm 76
  · have hdrop : ∀ y, (a ++ y :: b).drop n = b.drop (n - a.length - 1) := by
      intro y
      rw [List.drop_append, List.drop_of_length_le (by omega),
        show n - a.length = (n - a.length - 1) + 1 by omega, List.drop_succ_cons]
      rfl
    rw [hbytes, hcapital, hdrop, hdrop]
  · apply Memory.read_write_of_disjoint
    right
    have : ([76] : List UInt8).length = 1 := rfl
    omega

/-- A name found where the line begins is the name of the line. -/
theorem name_of_find {l : LengthLine} (hl : msg.lengthLine = some l) {name t : List UInt8}
    (hlen : name.length = contentLength.length)
    (hf : find name (msg.head ++ t) = some msg.lengthAt) : l.name = name := by
  have hpre := prefix_of_find hf
  have hhead : (msg.head ++ t).drop msg.lengthAt = l.name ++ (l.blanks ++ l.digits ++ (l.tail ++
      (rtspEndLine ++ (endLines (msg.behind.map OtherLine.text) ++ (rtspEndLine ++ t))))) := by
    have hsplit : msg.head ++ t = endLines (msg.startLine :: msg.before.map OtherLine.text) ++
        (l.name ++ (l.blanks ++ l.digits ++ (l.tail ++ (rtspEndLine ++
          (endLines (msg.behind.map OtherLine.text) ++ (rtspEndLine ++ t)))))) := by
      simp [RtspMessage.head, RtspMessage.lines, endLines, hl, LengthLine.text]
    rw [hsplit]
    exact List.drop_left
  rw [hhead] at hpre
  obtain ⟨rest, hrest⟩ := hpre
  exact (List.append_inj hrest (by rw [hlen, l.name_length])).1.symm

/-- The end of the header, and a length. -/
theorem toNat_msgLen {h : Nat} (hh : 4 ≤ h) (v : Nat) :
    UInt32.ofNat (h - 4) + 4 + UInt32.ofNat v = UInt32.ofNat (h + v) := by
  apply UInt32.toNat_inj.mp
  have h4 : (4 : UInt32).toNat = 4 := rfl
  simp only [UInt32.toNat_add, UInt32.toNat_ofNat', h4]
  omega

/-- With the header `checkRtsp` answers the length of the message. -/
theorem checkRtsp_head {t : List UInt8} (hn : msg.head.length ≤ n)
    (hview : m.read p n = msg.head ++ t) (hc : msg.checks m p n = true) :
    ∃ m', checkRtsp m p n = ⟨0, .ofNat msg.bytes.length, m'⟩ ∧ Raised msg m p m' := by
  unfold RtspMessage.checks at hc
  rw [if_neg (by omega), Bool.and_eq_true, decide_eq_true_iff, hview] at hc
  obtain ⟨-, hc⟩ := hc
  unfold checkRtsp
  rw [if_pos (knownMethod_head hview), hview]
  simp only [msg.find_end, msg.find_endLine_head]
  have hbody := msg.body_length
  have hsum := toNat_msgLen msg.length_head
  rw [msg.length_bytes, hbody]
  cases hl : msg.lengthLine with
  | none =>
    have hsame : msg.capital = msg := msg.capital_eq_self fun l h => by rw [hl] at h; cases h
    simp only [hl, Bool.and_eq_true, decide_eq_true_iff] at hc
    refine ⟨m, ?_, Raised.same hsame m p⟩
    simp only [hc.1, hc.2, Option.map_none, Option.getD_none]
    rw [← hsum 0]
    simp
  | some l =>
    simp only [hl, Bool.and_eq_true, Bool.or_eq_true, decide_eq_true_iff] at hc
    obtain ⟨hroom, hfind⟩ := hc
    have hvalue := msg.lengthField_value hl hroom (v := msg.head ++ t) rfl
    rcases hfind with hupper | ⟨hupper, hlower⟩
    · have hname : l.name = contentLength := name_of_find hl rfl hupper
      have hsame : msg.capital = msg := msg.capital_eq_self fun l' h => by
        obtain rfl : l = l' := Option.some.inj (hl.symm.trans h)
        rw [hname]
        decide
      refine ⟨m, ?_, Raised.same hsame m p⟩
      simp only [hupper, hvalue, hsum]
      rfl
    · have hname : l.name = contentLengthLower := name_of_find hl (by decide) hlower
      refine ⟨_, ?_, Raised.written hl hname m p⟩
      simp only [hupper, hlower, hvalue, hsum]
      rfl

end Check

/-! ## A turn of the loop -/

/-- The letter does not change the condition. -/
theorem RtspMessage.checks_capital (msg : RtspMessage) (m : Memory) (p n : Nat) :
    msg.capital.checks m p n = msg.checks m p n := by
  have hhead := msg.length_head_capital
  have hbytes := msg.length_bytes_capital
  cases hl : msg.lengthLine with
  | none =>
    have hnone : msg.capital.lengthLine = none := by simp [RtspMessage.capital, hl]
    simp only [RtspMessage.checks, hhead, hbytes, hnone, hl]
  | some l =>
    have hsome : msg.capital.lengthLine = some l.capital := by simp [RtspMessage.capital, hl]
    simp only [RtspMessage.checks, hhead, hbytes, hsome, hl]
    rfl

/-- No method begins with the flag of a frame. -/
theorem knownMethod_flag {m : Memory} {p : Nat} (h : knownMethod m p = true) : m p ≠ 0x24 := by
  obtain ⟨name, hmem, hname⟩ := List.any_eq_true.mp h
  have hall : ∀ name ∈ rtspMethods, name ≠ [] ∧ name.head? ≠ some 0x24 := by decide
  obtain ⟨hne, hflag⟩ := hall name hmem
  obtain ⟨a, l, rfl⟩ := List.exists_cons_of_ne_nil hne
  have := beq_iff_eq.mp hname
  rw [List.length_cons, Memory.read_succ] at this
  rw [(List.cons.inj this).1]
  exact fun ha => hflag (by rw [ha]; rfl)

section Turn

variable {ρ : Type} {I : List RtspMessage → ρ → Prop} {c : Receiver ρ} {wire : List UInt8}
  {msg : RtspMessage} {us : List RtspMessage}

/-- What was received of the messages, when it is not all of the first one. -/
theorem Receiver.Before.read_part (h : Before RtspMessage.bytes I c wire (msg :: us)) {n : Nat}
    (hn : n = c.length - c.processedSize) (hlen : n ≤ msg.bytes.length) :
    c.data.read c.processedSize n = msg.bytes.take n := by
  subst hn
  have hview := h.view_append_drop (by rwa [length_view])
  have := congrArg (List.take c.view.length) hview
  rwa [List.take_left, length_view] at this

/-- With the whole header there, the view begins with it. -/
theorem Receiver.Before.read_head (h : Before RtspMessage.bytes I c wire (msg :: us)) {n : Nat}
    (hn : n = c.length - c.processedSize) (hlen : msg.head.length ≤ n) :
    ∃ t, c.data.read c.processedSize n = msg.head ++ t := by
  subst hn
  have hstream : c.view ++ wire = msg.head ++ (msg.body ++ (us.map RtspMessage.bytes).flatten) := by
    rw [h.stream]
    simp [RtspMessage.bytes]
  have hpre : msg.head <+: c.view :=
    List.prefix_of_prefix_length_le ⟨_, hstream.symm⟩ (List.prefix_append c.view wire)
      (by rwa [length_view])
  obtain ⟨t, ht⟩ := hpre
  exact ⟨t, ht.symm⟩

/-- `checkRtsp` in front of a part of a message. -/
theorem check_part (h : Before RtspMessage.bytes I c wire (msg :: us)) {n : Nat}
    (hn : n = c.length - c.processedSize) (hc : msg.checks c.data c.processedSize n = true)
    (hlen : n < msg.bytes.length) :
    c.data c.processedSize ≠ 0x24 ∧ ∃ r, checkRtsp c.data c.processedSize n = r ∧ r.ret = 0 ∧
      (r.unMsgLen = 0 ∨ n < r.unMsgLen.toNat) ∧ ∃ msg' : RtspMessage, (msg' = msg ∨ msg' = msg.capital) ∧
        r.data.read c.processedSize n ++ msg.bytes.drop n = msg'.bytes := by
  have hread := h.read_part hn (Nat.le_of_lt hlen)
  by_cases hhead : n < msg.head.length
  · have hpre : c.data.read c.processedSize n <+: msg.head := by
      rw [hread, RtspMessage.bytes, List.take_append_of_le_length (Nat.le_of_lt hhead)]
      exact List.take_prefix _ _
    refine ⟨?_, _, checkRtsp_part hhead hpre hc, rfl, .inl rfl, msg, .inl rfl, ?_⟩
    · unfold RtspMessage.checks at hc
      rw [if_pos hhead, Bool.and_eq_true] at hc
      exact knownMethod_flag hc.1
    · rw [hread, List.take_append_drop]
  · obtain ⟨t, ht⟩ := h.read_head hn (by omega)
    obtain ⟨m', hcheck, hraised⟩ := checkRtsp_head (by omega) ht hc
    unfold RtspMessage.checks at hc
    rw [if_neg hhead, Bool.and_eq_true, decide_eq_true_iff] at hc
    refine ⟨knownMethod_flag (knownMethod_head ht), _, hcheck, rfl, .inr ?_, msg.capital,
      .inr rfl, ?_⟩
    · rwa [UInt32.toNat_ofNat', Nat.mod_eq_of_lt hc.1]
    · rw [hraised.read n (by omega) hread, ← hraised.rest n (by omega), List.take_append_drop]

/-- `checkRtsp` in front of a message. -/
theorem check_whole (h : Before RtspMessage.bytes I c wire (msg :: us)) {n : Nat}
    (hn : n = c.length - c.processedSize) (hc : msg.checks c.data c.processedSize n = true)
    (hlen : msg.bytes.length ≤ n) :
    c.data c.processedSize ≠ 0x24 ∧ ∃ r, checkRtsp c.data c.processedSize n = r ∧ r.ret = 0 ∧
      r.unMsgLen.toNat = msg.bytes.length ∧
      r.data.read c.processedSize msg.bytes.length = msg.capital.bytes ∧
      ∀ k, r.data.read (c.processedSize + msg.bytes.length : Nat) k =
        c.data.read (c.processedSize + msg.bytes.length : Nat) k := by
  have hhead : msg.head.length ≤ msg.bytes.length := by
    rw [msg.length_bytes]
    omega
  obtain ⟨t, ht⟩ := h.read_head hn (by omega)
  obtain ⟨m', hcheck, hraised⟩ := checkRtsp_head (by omega) ht hc
  unfold RtspMessage.checks at hc
  rw [if_neg (by omega), Bool.and_eq_true, decide_eq_true_iff] at hc
  refine ⟨knownMethod_flag (knownMethod_head ht), _, hcheck, rfl, ?_, ?_, hraised.behind⟩
  · rw [UInt32.toNat_ofNat', Nat.mod_eq_of_lt hc.1]
  · have hfront := h.front (hn ▸ hlen)
    rw [hraised.read _ hhead (by rw [List.take_length, hfront]), ← msg.length_bytes_capital,
      List.take_length]

end Turn

/-! ## What was passed on -/

/-- Of `msgs`, all but `us` have been passed on as `f`; in the first of these the letter may have been
written. -/
def CutBefore {π : Type} (f : RtspMessage → π) (msgs us : List RtspMessage) (passed : List π) : Prop :=
  ∃ done rest, done ++ rest = msgs ∧ passed = done.map f ∧
    (us = rest ∨ ∃ msg rest', rest = msg :: rest' ∧ us = msg.capital :: rest')

/-- The condition of a turn on the buffer: the next message meets its own. -/
def NextOk {ρ : Type} (msgs : List RtspMessage) (count : ρ → Nat) (c : Receiver ρ) : Prop :=
  msgs[count c.user]?.all (fun msg => msg.checks c.data c.processedSize (c.length - c.processedSize)) =
    true

instance {ρ : Type} (msgs : List RtspMessage) (count : ρ → Nat) :
    DecidablePred (NextOk (ρ := ρ) msgs count) :=
  fun _ => inferInstanceAs (Decidable (_ = true))

/-- What was sent has been cut into its messages: the first ones have been passed on as `f`, and
of the next one a part is in the buffer. -/
structure Cuts {ρ π : Type} (f : RtspMessage → π) (msgs : List RtspMessage) (passed : List π)
    (c : Receiver ρ × List UInt8) : Prop where
  isOpen : c.1.closed = false
  first : passed = (msgs.take passed.length).map f
  stream : c.1.view.length + c.2.length =
    ((msgs.drop passed.length).map RtspMessage.bytes).flatten.length
  next : ∀ msg, msgs[passed.length]? = some msg →
    (c.1.view <+: msg.bytes ∨ c.1.view <+: msg.capital.bytes) ∧ c.1.view.length < msg.bytes.length
  all : c.2 = [] → passed = msgs.map f

section CutBefore

variable {π : Type} {f : RtspMessage → π} {msgs us : List RtspMessage} {msg : RtspMessage}
  {passed : List π}

theorem CutBefore.checks {ρ : Type} {count : ρ → Nat} {c : Receiver ρ}
    (h : CutBefore f msgs (msg :: us) passed) (hcount : count c.user = passed.length)
    (hok : NextOk msgs count c) :
    msg.checks c.data c.processedSize (c.length - c.processedSize) = true := by
  obtain ⟨done, rest, rfl, rfl, hus⟩ := h
  unfold NextOk at hok
  rw [hcount, List.length_map, List.getElem?_append_right (Nat.le_refl _), Nat.sub_self] at hok
  rcases hus with rfl | ⟨msg', rest', rfl, hus⟩
  · exact hok
  · obtain ⟨rfl, -⟩ := List.cons.inj hus
    rw [RtspMessage.checks_capital]
    exact hok

/-- The first message is passed on. -/
theorem CutBefore.pass (hf : ∀ msg : RtspMessage, f msg.capital = f msg)
    (h : CutBefore f msgs (msg :: us) passed) : CutBefore f msgs us (passed ++ [f msg]) := by
  obtain ⟨done, rest, rfl, rfl, hus⟩ := h
  rcases hus with rfl | ⟨msg', rest', rfl, hus⟩
  · exact ⟨done ++ [msg], us, by simp, by simp, .inl rfl⟩
  · obtain ⟨rfl, rfl⟩ := List.cons.inj hus
    exact ⟨done ++ [msg'], us, by simp, by simp [hf], .inl rfl⟩

/-- The letter is written in the first message. -/
theorem CutBefore.raise (h : CutBefore f msgs (msg :: us) passed) :
    CutBefore f msgs (msg.capital :: us) passed := by
  obtain ⟨done, rest, hdone, hpassed, hus⟩ := h
  rcases hus with rfl | ⟨msg', rest', rfl, hus⟩
  · exact ⟨done, msg :: us, hdone, hpassed, .inr ⟨msg, us, rfl, rfl⟩⟩
  · obtain ⟨rfl, rfl⟩ := List.cons.inj hus
    refine ⟨done, msg' :: us, hdone, hpassed, .inr ⟨msg', us, rfl, ?_⟩⟩
    rw [RtspMessage.capital_capital]

/-- Between two calls the stream is cut into its messages. -/
theorem CutBefore.cuts {ρ : Type} {I : List RtspMessage → ρ → Prop} {c : Receiver ρ × List UInt8}
    (h : CutBefore f msgs us passed) (hl : c.1.inLoop = false)
    (hb : Before RtspMessage.bytes I c.1 c.2 us) : Cuts f msgs passed c := by
  have hcases := hb.view_cases hl
  have hstream := congrArg List.length hb.stream
  rw [List.length_append] at hstream
  obtain ⟨done, rest, rfl, rfl, hus⟩ := h
  have hlen : (done.map f).length = done.length := List.length_map f
  refine ⟨hb.isOpen, by rw [hlen, List.take_left], ?_, fun msg hmsg => ?_, fun hwire => ?_⟩
  · rw [hlen, List.drop_left, hstream]
    rcases hus with rfl | ⟨msg, rest', rfl, rfl⟩
    · rfl
    · simp [msg.length_bytes_capital]
  · rw [hlen, List.getElem?_append_right (Nat.le_refl _), Nat.sub_self] at hmsg
    rcases hus with rfl | ⟨msg', rest', rfl, rfl⟩
    · cases us with
      | nil => cases hmsg
      | cons u us =>
        obtain rfl : u = msg := by simpa using hmsg
        exact ⟨.inl hcases.1, hb.part hl u us rfl⟩
    · obtain rfl : msg' = msg := by simpa using hmsg
      refine ⟨.inr hcases.1, ?_⟩
      rw [← msg'.length_bytes_capital]
      exact hb.part hl _ _ rfl
  · cases us with
    | nil =>
      rcases hus with rfl | ⟨msg, rest', -, hno⟩
      · rw [List.append_nil]
      · cases hno
    | cons u us => exact absurd hwire hcases.2.2

end CutBefore

/-! ## The handlers -/

namespace RtpTcpConnect

/-- What a message is passed on as: one part of it, with the `L`. -/
def passedMessage (msg : RtspMessage) : Passed where
  usInnerMsgType := .rtsp
  unDataOffset := 0
  unSize := msg.bytes.length
  data := msg.capital.bytes

theorem passedMessage_capital (msg : RtspMessage) : passedMessage msg.capital = passedMessage msg := by
  simp only [passedMessage, msg.length_bytes_capital, msg.capital_capital]

/-- The message, wherever it lies, is parsed, and its session is found. -/
def Finds (d : Downstream) (msg : RtspMessage) : Prop :=
  ∀ (m : Memory) (p : Nat), m.read p msg.bytes.length = msg.capital.bytes →
    ∃ id, d.parse m p msg.bytes.length = some id ∧ d.addTcpConnect id = true ∧ id ≠ 0 ∧
      d.playType id = true

theorem Finds.capital {d : Downstream} {msg : RtspMessage} (h : Finds d msg) :
    Finds d msg.capital := by
  unfold Finds at *
  rw [msg.length_bytes_capital, msg.capital_capital]
  exact h

/-- Of `msgs`, all but `us` have been passed on, and the stream is known, or will be. -/
structure MessagesBefore (d : Downstream) (msgs us : List RtspMessage) (c : RtpTcpConnect) : Prop where
  cut : CutBefore passedMessage msgs us c.passed
  stream : c.ullStreamID ≠ 0 ∨ ∀ msg ∈ us.head?, Finds d msg

variable {d : Downstream} {msgs us : List RtspMessage} {c : Receiver RtpTcpConnect}
  {wire : List UInt8}

/-- The stream of the message in front. -/
theorem findStream_ok {c : RtpTcpConnect} {msg : RtspMessage} {m : Memory} {p : Nat}
    (h : c.ullStreamID ≠ 0 ∨ Finds d msg) (hsize : c.unSize = msg.bytes.length)
    (hm : m.read p msg.bytes.length = msg.capital.bytes) :
    ∃ c', c.findStream d m p = (.ok, c') ∧ c'.ullStreamID ≠ 0 ∧ c'.passed = c.passed ∧
      c'.unSize = c.unSize := by
  unfold findStream
  by_cases hid : c.ullStreamID ≠ 0
  · rw [if_pos hid]
    exact ⟨_, rfl, hid, rfl, rfl⟩
  · obtain ⟨id, hparse, hadd, hne, hplay⟩ := h.resolve_left hid m p hm
    rw [if_neg hid, hsize, hparse]
    simp only
    rw [if_pos ⟨hadd, hne, hplay⟩]
    exact ⟨_, rfl, hne, rfl, rfl⟩

/-- Without the flag in front it is a message. -/
theorem parseDataInfo_message (d : Downstream) (c : RtpTcpConnect) {m : Memory} {p n : Nat}
    (hm : m p ≠ 0x24) : c.parseDataInfo d m p n =
      parseRtspPacket d { c with unSize := 0, unDataOffset := 0, usInnerMsgType := .rtp } m p n :=
  if_pos hm

/-- A message that is there as a whole is parsed. -/
theorem parseDataInfo_whole {c : RtpTcpConnect} {msg : RtspMessage} {m : Memory} {p n : Nat}
    {r : Checked} (hm : m p ≠ 0x24) (hr : checkRtsp m p n = r) (hret : r.ret = 0)
    (hsize : r.unMsgLen.toNat = msg.bytes.length) (hlen : msg.bytes.length ≤ n)
    (hread : r.data.read p msg.bytes.length = msg.capital.bytes)
    (hstream : c.ullStreamID ≠ 0 ∨ Finds d msg) :
    ∃ c' : RtpTcpConnect, c.parseDataInfo d m p n =
        (.ok, { c' with usInnerMsgType := .rtsp, unDataOffset := 0 }, r.data) ∧
      c'.ullStreamID ≠ 0 ∧ c'.passed = c.passed ∧ c'.unSize = msg.bytes.length := by
  obtain ⟨c', hfind, hid, hpassed, hunsize⟩ := findStream_ok
    (c := { c with unSize := r.unMsgLen.toNat, unDataOffset := 0, usInnerMsgType := .rtp })
    hstream hsize hread
  have hpos := List.length_pos_iff.mpr msg.bytes_ne_nil
  refine ⟨c', ?_, hid, hpassed, hunsize.trans hsize⟩
  rw [parseDataInfo_message d c hm]
  unfold parseRtspPacket
  simp only [hr, hret, ne_eq, not_true_eq_false, if_false]
  rw [if_neg (by omega)]
  simp only [hfind]

/-- A part of a message has to wait. -/
theorem parseDataInfo_part (d : Downstream) (c : RtpTcpConnect) {m : Memory} {p n : Nat}
    {r : Checked} (hm : m p ≠ 0x24) (hr : checkRtsp m p n = r) (hret : r.ret = 0)
    (hlack : r.unMsgLen = 0 ∨ n < r.unMsgLen.toNat) :
    ∃ c', c.parseDataInfo d m p n = (.dataLack, c', r.data) ∧ c'.passed = c.passed ∧
      c'.ullStreamID = c.ullStreamID := by
  rw [parseDataInfo_message d c hm]
  unfold parseRtspPacket
  simp only [hr, hret, ne_eq, not_true_eq_false, if_false]
  rw [if_pos ?_]
  · exact ⟨_, rfl, rfl, rfl⟩
  · rcases hlack with hzero | hlong
    · rw [hzero]
      exact .inl rfl
    · exact .inr hlong

/-- In front of the messages `us` the handler does right if the turn meets the condition. -/
theorem answers_messages (hd : Succeeds d)
    (h : Before RtspMessage.bytes (MessagesBefore d msgs) c wire us)
    (hok : NextOk msgs (fun u => u.passed.length) c) :
    Answers (handleRecvedData d) RtspMessage.bytes (MessagesBefore d msgs) us c := by
  have hview := c.length_view
  refine ⟨fun msg us' hus hlen => ?_, fun msg us' hus hlen => ?_⟩
  · subst hus
    have huser := h.user
    have hc := huser.cut.checks rfl hok
    obtain ⟨hflag, r, hr, hret, hsize, hread, hbehind⟩ := check_whole h rfl hc (hview ▸ hlen)
    have hstream : c.user.ullStreamID ≠ 0 ∨ Finds d msg :=
      huser.stream.imp_right fun hall => hall msg (by simp)
    obtain ⟨c', hparse, hid, hpassed, hunsize⟩ :=
      parseDataInfo_whole hflag hr hret hsize (hview ▸ hlen) hread hstream
    unfold answer handleRecvedData
    rw [hparse]
    simp only [findServiceType, handleControlMessage_ok hd, pass, taken, hpassed]
    rw [if_neg (by decide)]
    refine ⟨by simp only [hunsize, Nat.add_zero], ⟨?_, .inl hid⟩, hbehind⟩
    have hpass := huser.cut.pass passedMessage_capital
    simp only [hunsize, Nat.add_zero, hread]
    exact hpass
  · subst hus
    have huser := h.user
    have hc := huser.cut.checks rfl hok
    obtain ⟨hflag, r, hr, hret, hlack, msg', hmsg', hread⟩ := check_part h rfl hc (hview ▸ hlen)
    obtain ⟨c', hparse, hpassed, hid⟩ := parseDataInfo_part d c.user hflag hr hret hlack
    unfold answer handleRecvedData
    rw [hparse]
    refine ⟨rfl, msg', ⟨?_, ?_⟩, by rw [hview]; exact hread⟩
    · simp only [hpassed]
      rcases hmsg' with rfl | rfl
      · exact huser.cut
      · exact huser.cut.raise
    · simp only [hid]
      refine huser.stream.imp_right fun hall => ?_
      rcases hmsg' with rfl | rfl
      · exact hall
      · simpa using (hall msg (by simp)).capital

end RtpTcpConnect

namespace RtspPushSession

variable {d : PushSessionRest} {msgs us : List RtspMessage} {c : Receiver RtspPushSession}
  {wire : List UInt8}

/-- What a message is passed on as: its bytes, with the `L`. -/
def passedMessage (msg : RtspMessage) : List UInt8 := msg.capital.bytes

theorem passedMessage_capital (msg : RtspMessage) : passedMessage msg.capital = passedMessage msg := by
  simp only [passedMessage, msg.capital_capital]

/-- A message that is there as a whole can be parsed. -/
theorem isParsable_whole {msg : RtspMessage} {m : Memory} {p n : Nat} {r : Checked}
    (hr : checkRtsp m p n = r) (hret : r.ret = 0) (hsize : r.unMsgLen.toNat = msg.bytes.length)
    (hlen : msg.bytes.length ≤ n) : isParsable m p n = ((msg.bytes.length : Int), r.data) := by
  have hpos := List.length_pos_iff.mpr msg.bytes_ne_nil
  have hne : r.unMsgLen ≠ 0 := by
    intro hzero
    rw [hzero, UInt32.toNat_zero] at hsize
    omega
  unfold isParsable
  simp only [hr, hret, ne_eq, not_true_eq_false, if_false]
  rw [if_neg hne, if_neg (by omega), hsize]

/-- A part of a message has to wait. -/
theorem isParsable_part {m : Memory} {p n : Nat} {r : Checked} (hr : checkRtsp m p n = r)
    (hret : r.ret = 0) (hlack : r.unMsgLen = 0 ∨ n < r.unMsgLen.toNat) :
    isParsable m p n = (0, r.data) := by
  unfold isParsable
  simp only [hr, hret, ne_eq, not_true_eq_false, if_false]
  rcases hlack with hzero | hlong
  · rw [if_pos hzero]
  · rw [if_pos hlong, ite_self]

/-- In front of the messages `us` the handler does right if the turn meets the condition. -/
theorem answers_messages
    (h : Before RtspMessage.bytes (fun us s => CutBefore passedMessage msgs us s.messages) c wire us)
    (hl : c.inLoop = true) (hok : NextOk msgs (fun s => s.messages.length) c) :
    Answers (processRecvedMessage d) RtspMessage.bytes
      (fun us s => CutBefore passedMessage msgs us s.messages) us c := by
  have hview := c.length_view
  have hmore := h.more hl
  refine ⟨fun msg us' hus hlen => ?_, fun msg us' hus hlen => ?_⟩
  · subst hus
    have hc := h.user.checks rfl hok
    obtain ⟨hflag, r, hr, hret, hsize, hread, hbehind⟩ := check_whole h rfl hc (hview ▸ hlen)
    have hpos := List.length_pos_iff.mpr msg.bytes_ne_nil
    have hparse := isParsable_whole hr hret hsize (hview ▸ hlen)
    have hmessage : ¬ c.data c.processedSize = interleaveFlag := hflag
    unfold answer processRecvedMessage
    rw [if_neg (by omega), if_neg hmessage, hparse]
    simp only [Int.toNat_natCast]
    rw [if_neg (by omega), if_neg (by omega)]
    refine ⟨rfl, ?_, hbehind⟩
    simp only [hread]
    exact h.user.pass passedMessage_capital
  · subst hus
    have hc := h.user.checks rfl hok
    obtain ⟨hflag, r, hr, hret, hlack, msg', hmsg', hread⟩ := check_part h rfl hc (hview ▸ hlen)
    have hparse := isParsable_part hr hret hlack
    have hmessage : ¬ c.data c.processedSize = interleaveFlag := hflag
    unfold answer processRecvedMessage
    rw [if_neg (by omega), if_neg hmessage, hparse]
    refine ⟨rfl, msg', ?_, by rw [hview]; exact hread⟩
    rcases hmsg' with rfl | rfl
    · exact h.user
    · exact h.user.raise

end RtspPushSession

/-! ## Messages on a connection -/

/-- The bytes of the messages. -/
def messageBytes (msgs : List RtspMessage) : List UInt8 := (msgs.map RtspMessage.bytes).flatten

/-- A media connection to which the messages are sent, after calls that receive up to `ks` bytes. -/
def runConnect (d : Downstream) (id : UInt64) (video audio : UInt8) (msgs : List RtspMessage)
    (ks : List Nat) : Receiver RtpTcpConnect × List UInt8 :=
  Run.run (step (RtpTcpConnect.handleRecvedData d) true)
    (Receiver.init (RtpTcpConnect.init id video audio), messageBytes msgs) ks

/-- A push session to which the messages are sent, after calls that receive up to `ks` bytes. -/
def runSession (d : PushSessionRest) (media : PushSessionMedia) (msgs : List RtspMessage)
    (ks : List Nat) : Receiver RtspPushSession × List UInt8 :=
  Run.run (step (RtspPushSession.processRecvedMessage d) false)
    (Receiver.init (RtspPushSession.init media), messageBytes msgs) ks

/-- Every turn of every call on the media connection meets the condition on the buffer. -/
def ConnectOk (d : Downstream) (id : UInt64) (video audio : UInt8) (msgs : List RtspMessage)
    (ks : List Nat) : Prop :=
  Run.Allowed (step (RtpTcpConnect.handleRecvedData d) true)
    (StepOk (RtpTcpConnect.handleRecvedData d) (NextOk msgs fun c => c.passed.length) true)
    (Receiver.init (RtpTcpConnect.init id video audio), messageBytes msgs) ks

/-- Every turn of every call on the push session meets the condition on the buffer. -/
def SessionOk (d : PushSessionRest) (media : PushSessionMedia) (msgs : List RtspMessage)
    (ks : List Nat) : Prop :=
  Run.Allowed (step (RtspPushSession.processRecvedMessage d) false)
    (StepOk (RtspPushSession.processRecvedMessage d) (NextOk msgs fun s => s.messages.length) false)
    (Receiver.init (RtspPushSession.init media), messageBytes msgs) ks

instance (d : Downstream) (id : UInt64) (video audio : UInt8) (msgs : List RtspMessage)
    (ks : List Nat) : Decidable (ConnectOk d id video audio msgs ks) :=
  inferInstanceAs (Decidable (Run.Allowed _ _ _ ks))

instance (d : PushSessionRest) (media : PushSessionMedia) (msgs : List RtspMessage) (ks : List Nat) :
    Decidable (SessionOk d media msgs ks) :=
  inferInstanceAs (Decidable (Run.Allowed _ _ _ ks))

/-- **Messages.** For every list of messages and every way the receives cut their bytes: as long as
each turn of the loop meets the condition on the buffer, `handle_input` of the media connection, when
it knows the stream or finds it by the first message and its blocks are taken, and `handle_input` of
the push session cut the stream into these messages. After every call the connection is open, the
first messages have been passed on, each as a whole, and of the next one a part is in the buffer. -/
theorem run_cuts {d : Downstream} {id : UInt64} {msgs : List RtspMessage}
    (hd : RtpTcpConnect.Succeeds d) (hid : id ≠ 0 ∨ ∀ msg ∈ msgs.head?, RtpTcpConnect.Finds d msg)
    (video audio : UInt8) (rest : PushSessionRest) (media : PushSessionMedia) (ks : List Nat) :
    (ConnectOk d id video audio msgs ks →
      Cuts RtpTcpConnect.passedMessage msgs (runConnect d id video audio msgs ks).1.user.passed
        (runConnect d id video audio msgs ks)) ∧
    (SessionOk rest media msgs ks →
      Cuts RtspPushSession.passedMessage msgs (runSession rest media msgs ks).1.user.messages
        (runSession rest media msgs ks)) := by
  refine ⟨fun hok => ?_, fun hok => ?_⟩
  · have hinv : Inv RtspMessage.bytes (RtpTcpConnect.MessagesBefore d msgs)
        (runConnect d id video audio msgs ks) :=
      Run.Allowed.invariant hok
        (init_inv RtspMessage.bytes_ne_nil ⟨⟨[], msgs, rfl, rfl, .inl rfl⟩, hid⟩)
        fun s k hs hstep => hs.step RtspMessage.bytes_ne_nil
          (fun _ _ _ h _ hnext => RtpTcpConnect.answers_messages hd h hnext) k hstep
    obtain ⟨hl, us, hb⟩ := hinv
    exact hb.user.cut.cuts hl hb
  · have hinv : Inv RtspMessage.bytes
        (fun us s => CutBefore RtspPushSession.passedMessage msgs us s.messages)
        (runSession rest media msgs ks) :=
      Run.Allowed.invariant hok
        (init_inv RtspMessage.bytes_ne_nil ⟨[], msgs, rfl, rfl, .inl rfl⟩)
        fun s k hs hstep => hs.step RtspMessage.bytes_ne_nil
          (fun _ _ _ h hl hnext => RtspPushSession.answers_messages h hl hnext) k hstep
    obtain ⟨hl, us, hb⟩ := hinv
    exact hb.user.cuts hl hb

/-- A message without header lines. -/
def playMessage : RtspMessage where
  startLine := ascii "PLAY"
  before := []
  lengthLine := none
  behind := []
  body := []
  startLine_text := forall_mem_of_all (by decide)
  startLine_method := ⟨ascii "PLAY", by decide, by decide⟩
  body_length := rfl

/-- A message with two bytes of content. -/
def announceMessage : RtspMessage where
  startLine := ascii "ANNOUNCE a"
  before := []
  lengthLine := some
    { name := ascii "Content-length:"
      blanks := ascii " "
      digits := ascii "2"
      tail := []
      name_lower := by decide
      blanks_blank := forall_mem_of_all (by decide)
      digits_ne_nil := by decide
      digits_digit := forall_mem_of_all (by decide)
      tail_blank := forall_mem_of_all (by decide) }
  behind := []
  body := ascii "ab"
  startLine_text := forall_mem_of_all (by decide)
  startLine_method := ⟨ascii "ANNOUNCE", by decide, by decide⟩
  body_length := by decide

/-- The rest of the program around a push session. -/
def takesMessages : PushSessionRest := ⟨fun media _ => media, fun _ => true⟩

/-- The members of a new push session. -/
def noMedia : PushSessionMedia := ⟨false, false, false, 0, 1⟩

/-- The two, one received in two parts and then the other in two. -/
theorem run_cuts_twoMessages :
    (runConnect RtpTcpConnect.takesAll 1 0 2 [playMessage, announceMessage] [6, 2, 20, 100]).1.user.passed =
        [RtpTcpConnect.passedMessage playMessage, RtpTcpConnect.passedMessage announceMessage] ∧
      (runSession takesMessages noMedia [playMessage, announceMessage] [6, 2, 20, 100]).1.user.messages =
        [ascii "PLAY\r\n\r\n", ascii "ANNOUNCE a\r\nContent-Length: 2\r\n\r\nab"] := by
  have hd : RtpTcpConnect.Succeeds RtpTcpConnect.takesAll :=
    ⟨fun _ => rfl, fun _ => rfl, fun _ => rfl⟩
  have hid : (1 : UInt64) ≠ 0 ∨ ∀ msg ∈ [playMessage, announceMessage].head?,
      RtpTcpConnect.Finds RtpTcpConnect.takesAll msg := .inl (by decide)
  have h := run_cuts hd hid 0 2 takesMessages noMedia [6, 2, 20, 100]
  exact ⟨(h.1 (by decide)).all (by decide),
    (h.2 (by decide)).all (by decide)⟩

/-- With three bytes of the first message no method is recognised; and with both messages in the
buffer the length of the second is added to the first. -/
theorem not_cuts :
    ¬ Cuts RtpTcpConnect.passedMessage [playMessage]
        (runConnect RtpTcpConnect.takesAll 1 0 2 [playMessage] [3]).1.user.passed
        (runConnect RtpTcpConnect.takesAll 1 0 2 [playMessage] [3]) ∧
      ¬ Cuts RtspPushSession.passedMessage [playMessage, announceMessage]
        (runSession takesMessages noMedia [playMessage, announceMessage] [100]).1.user.messages
        (runSession takesMessages noMedia [playMessage, announceMessage] [100]) := by
  refine ⟨fun h => ?_, fun h => ?_⟩
  · exact absurd h.isOpen (by decide)
  · exact absurd h.first (by decide)

end AllCamera
