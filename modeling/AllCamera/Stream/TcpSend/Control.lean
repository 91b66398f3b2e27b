import AllCamera.Stream.TcpSend.Conservation

/-!
# Control messages on a TCP connection

`sendMessage` of a buffer, for RTSP. A message that cannot be sent is kept in one block of the pool,
but no more than `maxBufSignalNum` of them, until the list has been sent.

* `ControlConnect`, `sendMessage`: the connection with its counter, and the function.
* `sendMessage_reported_iff`: when a message that is reported as sent is on the wire or in the list.
* `step`, `run_balanced_iff`: runs, with the other functions.
-/

namespace AllCamera

/-- `MAX_BUF_SIGNAL_NUM`. -/
def maxBufSignalNum : UInt32 := 20

/-- `CTcpConnect` with `m_ulSignalMsgBufNum`. -/
structure ControlConnect extends TcpConnect where
  ulSignalMsgBufNum : UInt32

namespace ControlConnect

open TcpConnect (copyBlock Flushes Sound)

/-- A connection after `start`. -/
def init : ControlConnect := ⟨TcpConnect.init, 0⟩

variable (c : ControlConnect)

/-- `sendLeastData`: the counter begins anew when the list is sent. -/
def sendLeastData (out : Nat → Sent) : SendRet × ControlConnect :=
  let r := c.toTcpConnect.sendLeastData out
  (r.1, ⟨r.2, if r.1 = .ok then 0 else c.ulSignalMsgBufNum⟩)

/-- `sendLeastData`, unless the list is empty. -/
def flush (out : Nat → Sent) : SendRet × ControlConnect :=
  if c.sendList = [] then (.ok, c) else c.sendLeastData out

/-- The message, or the rest of it, is put into the list as one block, if there is one. What
`copy` returns is not looked at. -/
def cache (data : Bytes) (alloc : Bool) : SendRet × ControlConnect :=
  if alloc then (.ok, { c with sendList := c.sendList ++ [copyBlock [] data] })
  else (.disconnect, { c with started := false })

/-- The message is sent behind the list, which is empty. -/
def sendNow (data : Bytes) (out : Sent) (alloc : Bool) : SendRet × ControlConnect :=
  match out.nSendSize data with
  | none => (.disconnect, { c with started := false, wire := c.wire ++ out.taken data })
  | some nSendSize =>
    let c := { c with wire := c.wire ++ out.taken data }
    if data.length ≠ nSendSize then c.cache (data.drop nSendSize) alloc else (.ok, c)

/-- `sendMessage` of a buffer `data`, whose length is `unDataSize`, before the return value is told. A
connection that breaks while the list is sent is like a full socket here. -/
def sendBuffer (data : Bytes) (least : Nat → Sent) (out : Sent) (alloc : Bool) :
    SendRet × ControlConnect :=
  if !c.started then (.fail, c)
  else if maxBufSignalNum ≤ c.ulSignalMsgBufNum then (.ok, c)
  else
    match c.flush least with
    | (.ok, c) => c.sendNow data out alloc
    | (_, c) =>
      match c.cache data alloc with
      | (.ok, c) => (.ok, { c with ulSignalMsgBufNum := c.ulSignalMsgBufNum + 1 })
      | r => r

/-- `sendMessage`: the message counts as sent when `RET_OK` is returned. -/
def sendMessage (data : Bytes) (least : Nat → Sent) (out : Sent) (alloc : Bool) :
    SendRet × ControlConnect :=
  match c.sendBuffer data least out alloc with
  | (.ok, c) => (.ok, { c with messages := c.messages ++ [data] })
  | r => r

/-! ## One message -/

/-- The bytes on the wire, and then those in the list. -/
def given : Bytes := c.wire ++ c.sendList.flatten

/-- A message of a started connection is not lost: it is not one too many; if the list is sent
first, what the socket leaves of it fits into a block; and if not, all of it does. -/
structure Kept (data : Bytes) (least : Nat → Sent) (out : Sent) (alloc : Bool) : Prop where
  full : maxBufSignalNum ≤ c.ulSignalMsgBufNum → data = []
  rest : c.ulSignalMsgBufNum < maxBufSignalNum → Flushes least c.sendList → alloc = true →
    (min out.n data.length = 0 → out.disconnect = false) →
      data.length - out.n ≤ MsgBlock.blockSize
  whole : c.ulSignalMsgBufNum < maxBufSignalNum → ¬Flushes least c.sendList → alloc = true →
    data.length ≤ MsgBlock.blockSize

variable {c : ControlConnect} {data : Bytes} {alloc : Bool} {out : Sent} {least : Nat → Sent}

/-- One block keeps all of what it is given, or nothing. -/
theorem copyBlock_eq_iff (data : Bytes) :
    copyBlock [] data = data ↔ data.length ≤ MsgBlock.blockSize := by
  unfold copyBlock
  rw [List.length_nil, Nat.sub_zero]
  split
  · refine ⟨fun h => ?_, fun h => by omega⟩
    rw [← h]
    exact Nat.zero_le _
  · exact ⟨fun _ => by omega, fun _ => List.nil_append _⟩

theorem cache_given (c : ControlConnect) (data : Bytes) (alloc : Bool) :
    ((c.cache data alloc).1 = .ok → (c.cache data alloc).2.given = c.given ++ data) ↔
      (alloc = true → data.length ≤ MsgBlock.blockSize) := by
  unfold cache given
  cases alloc with
  | false => simp
  | true =>
    simp only [if_true, true_imp_iff, List.flatten_append, List.flatten_singleton]
    rw [← List.append_assoc, List.append_cancel_left_eq, copyBlock_eq_iff]

/-- What was left of the message when its first part had been sent. -/
theorem sendNow_given (c : ControlConnect) (data : Bytes) (out : Sent) (alloc : Bool)
    (hnil : c.sendList = []) :
    ((c.sendNow data out alloc).1 = .ok → (c.sendNow data out alloc).2.given = c.given ++ data) ↔
      (alloc = true → (min out.n data.length = 0 → out.disconnect = false) →
        data.length - out.n ≤ MsgBlock.blockSize) := by
  unfold sendNow
  split
  · rename_i hnone
    obtain ⟨hzero, herr⟩ := TcpConnect.nSendSize_none.mp hnone
    refine iff_of_true (fun h => (by cases h)) fun _ h => ?_
    rw [h hzero] at herr
    cases herr
  · rename_i n hsome
    obtain ⟨hn, htaken⟩ := TcpConnect.taken_append_drop hsome
    have herr : min out.n data.length = 0 → out.disconnect = false := by
      intro hzero
      by_contra h
      rw [TcpConnect.nSendSize_none.mpr ⟨hzero, by simpa using h⟩] at hsome
      cases hsome
    have hgiven : c.given ++ data =
        given { c with wire := c.wire ++ out.taken data } ++ data.drop n := by
      simp only [given, hnil, List.flatten_nil, List.append_nil]
      rw [List.append_assoc, htaken]
    simp only [hgiven]
    split
    · rw [cache_given, List.length_drop]
      refine forall_congr' fun _ => ⟨fun h _ => by omega, fun h => ?_⟩
      have := h herr
      omega
    · rename_i hall
      refine iff_of_true (fun _ => ?_) fun _ _ => by omega
      rw [not_not] at hall
      rw [← hall, List.drop_length, List.append_nil]

/-- The flush conserves what was given, and empties the list when it succeeds. -/
theorem flush_given (c : ControlConnect) (least : Nat → Sent) :
    (c.flush least).2.given = c.given ∧ ((c.flush least).1 = .ok ↔ Flushes least c.sendList) ∧
      ((c.flush least).1 = .ok → (c.flush least).2.sendList = []) := by
  unfold flush
  split
  · rename_i hnil
    refine ⟨rfl, ?_, fun _ => hnil⟩
    rw [hnil]
    simp [Flushes]
  · refine ⟨?_, TcpConnect.leastLoop_ok least c.sendList, TcpConnect.leastLoop_list⟩
    unfold given sendLeastData TcpConnect.sendLeastData
    rw [List.append_assoc, TcpConnect.leastLoop_bytes]

/-- `sendBuffer` with too many messages in the list. -/
theorem sendBuffer_full (hstart : c.started = true) (hfull : maxBufSignalNum ≤ c.ulSignalMsgBufNum) :
    c.sendBuffer data least out alloc = (.ok, c) := by
  simp [sendBuffer, hstart, hfull]

/-- `sendBuffer` when the socket takes the list. -/
theorem sendBuffer_flushed (hstart : c.started = true)
    (hroom : c.ulSignalMsgBufNum < maxBufSignalNum) (hflush : Flushes least c.sendList) :
    c.sendBuffer data least out alloc = (c.flush least).2.sendNow data out alloc := by
  have hok := (flush_given c least).2.1.mpr hflush
  unfold sendBuffer
  rw [hstart, Bool.not_true, if_neg Bool.false_ne_true, if_neg (UInt32.not_le.mpr hroom)]
  generalize c.flush least = r at hok
  obtain ⟨ret, c'⟩ := r
  subst hok
  rfl

/-- `sendBuffer` when it does not: the message is put behind the list, and counted. -/
theorem sendBuffer_blocked (hstart : c.started = true)
    (hroom : c.ulSignalMsgBufNum < maxBufSignalNum) (hflush : ¬Flushes least c.sendList) :
    let c' := (c.flush least).2
    c.sendBuffer data least out alloc = if alloc
      then (.ok, { c' with
        sendList := c'.sendList ++ [copyBlock [] data]
        ulSignalMsgBufNum := c'.ulSignalMsgBufNum + 1 })
      else (.disconnect, { c' with started := false }) := by
  have hret := (flush_given c least).2.1.not.mpr hflush
  unfold sendBuffer
  rw [hstart, Bool.not_true, if_neg Bool.false_ne_true, if_neg (UInt32.not_le.mpr hroom)]
  generalize c.flush least = r at hret
  obtain ⟨ret, c'⟩ := r
  unfold cache
  cases ret with
  | ok => exact absurd rfl hret
  | _ => cases alloc <;> rfl

theorem sendBuffer_given (hstart : c.started = true) :
    ((c.sendBuffer data least out alloc).1 = .ok →
      (c.sendBuffer data least out alloc).2.given = c.given ++ data) ↔
        c.Kept data least out alloc := by
  obtain ⟨hgiven, -, hnil⟩ := flush_given c least
  by_cases hfull : maxBufSignalNum ≤ c.ulSignalMsgBufNum
  · rw [sendBuffer_full hstart hfull]
    refine ⟨fun h => ⟨fun _ => List.self_eq_append_right.mp (h rfl), fun h' => ?_, fun h' => ?_⟩,
      fun h _ => List.self_eq_append_right.mpr (h.full hfull)⟩
    · exact absurd hfull (UInt32.not_le.mpr h')
    · exact absurd hfull (UInt32.not_le.mpr h')
  · have hroom := UInt32.not_le.mp hfull
    by_cases hflush : Flushes least c.sendList
    · have hok := (flush_given c least).2.1.mpr hflush
      rw [sendBuffer_flushed hstart hroom hflush, ← hgiven, sendNow_given _ data out alloc (hnil hok)]
      exact ⟨fun h => ⟨fun h' => absurd h' hfull, fun _ _ => h, fun _ h' => absurd hflush h'⟩,
        fun h => h.rest hroom hflush⟩
    · have hkept : c.Kept data least out alloc ↔ (alloc = true → data.length ≤ MsgBlock.blockSize) :=
        ⟨fun h => h.whole hroom hflush,
          fun h => ⟨fun h' => absurd h' hfull, fun _ h' => absurd h' hflush, fun _ _ => h⟩⟩
      rw [sendBuffer_blocked hstart hroom hflush, hkept, ← hgiven,
        ← cache_given (c.flush least).2 data alloc]
      unfold cache
      cases alloc <;> rfl

theorem sendMessage_given (hstart : c.started = true) :
    ((c.sendMessage data least out alloc).1 = .ok →
      (c.sendMessage data least out alloc).2.wire ++
          (c.sendMessage data least out alloc).2.sendList.flatten =
        c.wire ++ c.sendList.flatten ++ data) ↔ c.Kept data least out alloc := by
  rw [← sendBuffer_given hstart]
  unfold sendMessage
  generalize c.sendBuffer data least out alloc = r
  obtain ⟨ret, c'⟩ := r
  cases ret <;> rfl

/-- **A message** of a started connection that is reported as sent (`RET_OK`) is on the wire or in the
list, behind everything that was pending, exactly if it is not lost by one of the limits. -/
theorem sendMessage_reported_iff (c : ControlConnect) (data : Bytes) (least : Nat → Sent) (out : Sent)
    (alloc : Bool) :
    (c.started = true → (c.sendMessage data least out alloc).1 = .ok →
      (c.sendMessage data least out alloc).2.wire ++
          (c.sendMessage data least out alloc).2.sendList.flatten =
        c.wire ++ c.sendList.flatten ++ data) ↔
      (c.started = true → c.Kept data least out alloc) :=
  forall_congr' fun hstart => sendMessage_given hstart

/-- A message of 2049 bytes to a full socket, the first of a connection, is reported as sent. -/
theorem not_reported_longMessage :
    let r := init.sendMessage (List.replicate 2049 0) (fun _ => TcpConnect.wouldBlock)
      TcpConnect.wouldBlock true
    r.1 = .ok ∧ r.2.wire ++ r.2.sendList.flatten ≠ List.replicate 2049 0 := by
  have hkept : ¬ init.Kept (List.replicate 2049 0) (fun _ => TcpConnect.wouldBlock)
      TcpConnect.wouldBlock true := by
    intro h
    have hlen := h.rest (by decide) (fun _ _ hblock => nomatch hblock) rfl fun _ => rfl
    rw [List.length_replicate] at hlen
    exact absurd hlen (by decide)
  rw [← sendMessage_given (c := init) rfl] at hkept
  exact Classical.not_imp.mp hkept

/-! ## Runs -/

/-- A message that is not reported as sent has not been sent in part. -/
def NotInPart (c : ControlConnect) (data : Bytes) (least : Nat → Sent) (out : Sent) (alloc : Bool) :
    Prop :=
  c.ulSignalMsgBufNum < maxBufSignalNum → Flushes least c.sendList → alloc = false →
    out.n = 0 ∨ data.length ≤ out.n

theorem sendNow_failed (c : ControlConnect) (data : Bytes) (out : Sent) (alloc : Bool)
    (hnil : c.sendList = []) :
    ((c.sendNow data out alloc).1 ≠ .ok → (c.sendNow data out alloc).2.given = c.given) ↔
      (alloc = false → out.n = 0 ∨ data.length ≤ out.n) := by
  unfold sendNow
  split
  · rename_i hnone
    have hzero := (TcpConnect.nSendSize_none.mp hnone).1
    refine iff_of_true (fun _ => ?_) fun _ => by omega
    simp [given, TcpConnect.taken_of_none hnone]
  · rename_i n hsome
    obtain ⟨hn, -⟩ := TcpConnect.taken_append_drop hsome
    have hpart : given { c with wire := c.wire ++ out.taken data } = c.given ↔
        out.n = 0 ∨ data.length = 0 := by
      simp only [given, hnil, List.flatten_nil, List.append_nil, List.append_right_eq_self]
      rw [← List.length_eq_zero_iff, Sent.taken, List.length_take]
      omega
    split
    · cases alloc with
      | true => exact iff_of_true (fun h => absurd rfl h) fun h => absurd h (by decide)
      | false =>
        have hfail : ((cache { c with wire := c.wire ++ out.taken data } (data.drop n) false).1 ≠ .ok →
            (cache { c with wire := c.wire ++ out.taken data } (data.drop n) false).2.given =
              c.given) ↔ out.n = 0 ∨ data.length = 0 :=
          ⟨fun h => hpart.mp (h fun hok => by cases hok), fun h _ => hpart.mpr h⟩
        rw [hfail]
        simp only [true_imp_iff]
        omega
    · exact iff_of_true (fun h => absurd rfl h) fun _ => by omega

theorem sendBuffer_failed (hstart : c.started = true) :
    ((c.sendBuffer data least out alloc).1 ≠ .ok →
      (c.sendBuffer data least out alloc).2.given = c.given) ↔ c.NotInPart data least out alloc := by
  obtain ⟨hgiven, -, hnil⟩ := flush_given c least
  unfold NotInPart
  by_cases hfull : maxBufSignalNum ≤ c.ulSignalMsgBufNum
  · rw [sendBuffer_full hstart hfull]
    exact iff_of_true (fun h => absurd rfl h) fun h => absurd hfull (UInt32.not_le.mpr h)
  · have hroom := UInt32.not_le.mp hfull
    by_cases hflush : Flushes least c.sendList
    · have hok := (flush_given c least).2.1.mpr hflush
      rw [sendBuffer_flushed hstart hroom hflush, ← hgiven,
        sendNow_failed _ data out alloc (hnil hok)]
      exact ⟨fun h _ _ => h, fun h => h hroom hflush⟩
    · rw [sendBuffer_blocked hstart hroom hflush]
      refine iff_of_true (fun hret => ?_) fun _ h => absurd h hflush
      cases alloc with
      | true => exact absurd rfl hret
      | false => exact hgiven

/-- A call, with the answers that it gets. -/
inductive Call where
  | buffer (data : Bytes) (least : Nat → Sent) (out : Sent) (alloc : Bool)
  | other (a : TcpConnect.Call)

/-- The other functions send the whole list. -/
def Clears (c : TcpConnect) : TcpConnect.Call → Bool
  | .sendLeastData least => (c.sendLeastData least).1 == .ok
  | .sendMessage _ least _ _ | .sendv _ _ least _ _ =>
    c.started && c.sendList != [] && (c.sendLeastData least).1 == .ok

/-- The call's effect. -/
def step (c : ControlConnect) : Call → ControlConnect
  | .buffer data least out alloc => (c.sendMessage data least out alloc).2
  | .other a =>
    ⟨TcpConnect.step c.toTcpConnect a,
      if Clears c.toTcpConnect a then 0 else c.ulSignalMsgBufNum⟩

/-- The condition of a call. -/
def CallOk (c : ControlConnect) : Call → Prop
  | .buffer data least out alloc =>
    c.started = true → c.Kept data least out alloc ∧ c.NotInPart data least out alloc
  | .other a => TcpConnect.CallOk c.toTcpConnect a

theorem flush_messages (c : ControlConnect) (least : Nat → Sent) :
    (c.flush least).2.messages = c.messages := by
  unfold flush
  split <;> rfl

theorem sendNow_messages (c : ControlConnect) (data : Bytes) (out : Sent) (alloc : Bool) :
    (c.sendNow data out alloc).2.messages = c.messages := by
  unfold sendNow cache
  cases alloc <;> split
  all_goals first | rfl | (dsimp only; split <;> rfl)

theorem sendBuffer_messages (c : ControlConnect) (data : Bytes) (least : Nat → Sent) (out : Sent)
    (alloc : Bool) : (c.sendBuffer data least out alloc).2.messages = c.messages := by
  have hflush := flush_messages c least
  unfold sendBuffer
  split_ifs
  · rfl
  · rfl
  · generalize c.flush least = r at hflush
    obtain ⟨ret, c'⟩ := r
    cases ret with
    | ok => exact (sendNow_messages c' data out alloc).trans hflush
    | _ => cases alloc <;> exact hflush

/-- A message keeps the equation exactly under its condition. -/
theorem sendMessage_sound_iff (h : Sound c.toTcpConnect) (data : Bytes) (least : Nat → Sent)
    (out : Sent) (alloc : Bool) :
    Sound (c.sendMessage data least out alloc).2.toTcpConnect ↔
      CallOk c (.buffer data least out alloc) := by
  simp only [CallOk]
  by_cases hstart : c.started = true
  · rw [← sendBuffer_given hstart, ← sendBuffer_failed hstart]
    have hmessages := sendBuffer_messages c data least out alloc
    unfold Sound at h
    unfold sendMessage Sound given
    simp only [hstart, true_imp_iff]
    generalize c.sendBuffer data least out alloc = r at hmessages
    obtain ⟨ret, c'⟩ := r
    by_cases hret : ret = .ok
    · subst hret
      simp only at hmessages
      simp [h, hmessages]
    · simp only at hmessages
      cases ret <;> simp [h, hmessages] at hret ⊢
  · have hfail : c.sendMessage data least out alloc = (.fail, c) := by
      simp [sendMessage, sendBuffer, hstart]
    rw [hfail]
    exact iff_of_true h fun h' => absurd h' hstart

/-- **Runs** of all functions. The bytes on the wire, followed by those in the list, are in every
state the messages that were reported as sent, if and only if every call meets its condition. -/
theorem run_balanced_iff (calls : List Call) :
    (∀ pre, pre <+: calls → Sound (Run.run step init pre).toTcpConnect) ↔
      Run.Allowed step CallOk init calls := by
  refine (Run.allowed_iff (I := fun c : ControlConnect => Sound c.toTcpConnect)
    (show Sound TcpConnect.init from rfl) fun c a h => ?_).symm
  cases a with
  | buffer data least out alloc => exact sendMessage_sound_iff h data least out alloc
  | other a => exact TcpConnect.step_sound_iff h a

end ControlConnect

end AllCamera
