import AllCamera.Vms.ClientLink
import AllCamera.Lib.Framing

/-!
# The parser of a link

`parseData` cuts messages off the front of the buffer. Its rule for the front is a `Framing`, so that what it finds
depends on the bytes alone, and not on how `recv` returns them.

* `svsFraming`: the rule. `parseData_splits`: the parser cuts by it.
* `parsed`: the link behind `recv`; `received_splits`: `received` leaves it, or fails.
-/

namespace AllCamera

namespace SvsMsg

variable {bs : List UInt8}

theorem protocolVersion_append (h : svsMsgHeaderSize ≤ bs.length) (xs : List UInt8) :
    protocolVersion (bs ++ xs) = protocolVersion bs := by
  unfold svsMsgHeaderSize at h
  unfold protocolVersion
  rw [List.take_append_of_le_length (by omega)]

theorem packetLength_append (h : svsMsgHeaderSize ≤ bs.length) (xs : List UInt8) :
    packetLength (bs ++ xs) = packetLength bs := by
  unfold svsMsgHeaderSize at h
  unfold packetLength
  rw [List.drop_append_of_le_length (by omega), List.take_append_of_le_length (by simp; omega)]

end SvsMsg

open SvsMsg

/-- What `parseData` finds at the front of the bytes. -/
def svsCut (bs : List UInt8) : Cut :=
  if bs.length < svsMsgHeaderSize then .more
  else if packetLength bs < svsMsgHeaderSize then .bad
  else if bs.length < packetLength bs then .more
  else if protocolVersion bs ≠ svsMsgProtocolVersion then .bad
  else .unit (packetLength bs)

theorem svsCut_unit {bs : List UInt8} {n : Nat} : svsCut bs = .unit n ↔
    svsMsgHeaderSize ≤ n ∧ n ≤ bs.length ∧ packetLength bs = n ∧ protocolVersion bs = svsMsgProtocolVersion := by
  unfold svsCut
  split_ifs with h1 h2 h3 h4
  · simp only [false_iff]; omega
  · simp only [false_iff]; omega
  · simp only [false_iff]; omega
  · simp [h4]
  · simp only [Cut.unit.injEq]
    constructor
    · rintro rfl
      exact ⟨Nat.not_lt.mp h2, Nat.not_lt.mp h3, rfl, not_not.mp h4⟩
    · exact fun h => h.2.2.1

theorem svsCut_bad {bs : List UInt8} : svsCut bs = .bad ↔ svsMsgHeaderSize ≤ bs.length ∧
    (packetLength bs < svsMsgHeaderSize ∨
      packetLength bs ≤ bs.length ∧ protocolVersion bs ≠ svsMsgProtocolVersion) := by
  unfold svsCut
  split_ifs with h1 h2 h3 h4
  · simp only [false_iff]; omega
  · simp only [true_iff]; omega
  · simp only [false_iff]; omega
  · simp only [true_iff]; omega
  · simp only [false_iff]; omega

/-- The framing of the protocol: the header decides, and it is not looked at before it is there. -/
def svsFraming : Framing UInt8 where
  cut := svsCut
  cut_nil := rfl
  unit_length h := by
    obtain ⟨hn, hle, -⟩ := svsCut_unit.mp h
    exact ⟨Nat.lt_of_lt_of_le (by decide) hn, hle⟩
  unit_append h xs := by
    obtain ⟨hn, hle, hp, hv⟩ := svsCut_unit.mp h
    have h12 := hn.trans hle
    rw [svsCut_unit, packetLength_append h12, protocolVersion_append h12, List.length_append]
    exact ⟨hn, by omega, hp, hv⟩
  bad_append h xs := by
    obtain ⟨h12, hbad⟩ := svsCut_bad.mp h
    rw [svsCut_bad, packetLength_append h12, protocolVersion_append h12, List.length_append]
    exact ⟨by omega, hbad.imp_right fun h => ⟨by omega, h.2⟩⟩

/-- A message as `sendMsg` takes it, with a header and the version of the protocol. -/
theorem isUnit_iff {m : SvsMsg} : svsFraming.IsUnit m ↔
    svsMsgHeaderSize ≤ m.length ∧ packetLength m = m.length ∧ protocolVersion m = svsMsgProtocolVersion := by
  refine svsCut_unit.trans ⟨fun h => ⟨h.1, h.2.2⟩, fun h => ⟨h.1, le_refl _, h.2⟩⟩

namespace ClientLink

/-- A message that is handed to the handler. -/
def notHeartbeat (m : SvsMsg) : Bool := m.msgType ≠ svsMsgTypeHeartbeat

/-- The message of a notice of a received message. -/
def handledMsg : Notice → Option SvsMsg
  | .message m .recv => some m
  | _ => none

/-- The messages that the handler was given as received. -/
def handled (l : ClientLink) : List SvsMsg := l.notices.filterMap handledMsg

variable {l : ClientLink}

theorem delWaitRespMsg_eq (l : ClientLink) (t : Nat) : ∃ w a,
    l.delWaitRespMsg t = { l with waitRespMsgMap := w, answered := a } := by
  unfold delWaitRespMsg
  split
  · exact ⟨_, _, rfl⟩
  · simp only
    split
    · exact ⟨_, _, rfl⟩
    · exact ⟨_, _, rfl⟩

/-- Received messages change what the parser does not work on. -/
theorem foldl_handleParsed_eq (now : Int) (l : ClientLink) (us : List SvsMsg) : ∃ w a r,
    us.foldl (handleParsed now) l = { l with
      waitRespMsgMap := w
      answered := a
      lastRecvHeartbeatTime := r
      notices := l.notices ++ (us.filter notHeartbeat).map fun m => .message m .recv } ∧
    (r = l.lastRecvHeartbeatTime ∨ r = now) := by
  induction us generalizing l with
  | nil =>
    refine ⟨l.waitRespMsgMap, l.answered, l.lastRecvHeartbeatTime, ?_, .inl rfl⟩
    rw [List.filter_nil, List.map_nil, List.append_nil]
    rfl
  | cons m us ih =>
    obtain ⟨w, a, r, he, hr⟩ := ih (l.handleParsed now m)
    rw [List.foldl_cons, he]
    by_cases hbeat : m.msgType = svsMsgTypeHeartbeat
    · have hone : l.handleParsed now m = { l with lastRecvHeartbeatTime := now } := if_pos hbeat
      rw [hone] at hr ⊢
      rw [List.filter_cons_of_neg (by simpa [notHeartbeat] using hbeat)]
      exact ⟨w, a, r, rfl, .inr (hr.elim id id)⟩
    · obtain ⟨w', a', hdel⟩ := delWaitRespMsg_eq (l.notify (.message m .recv)) m.transactionNo
      have hone : l.handleParsed now m = _ := (if_neg hbeat).trans hdel
      rw [hone] at hr ⊢
      rw [List.filter_cons_of_pos (by simpa [notHeartbeat] using hbeat), List.map_cons, List.append_cons]
      exact ⟨w, a, r, rfl, hr⟩

theorem parseLoop_succ (now : Int) (fuel : Nat) (l : ClientLink) (bs : List UInt8) :
    parseLoop now (fuel + 1) l bs =
      if packetLength bs < svsMsgHeaderSize then (.msgLengthInvalid, l, bs)
      else if bs.length < packetLength bs then (.ok, l, bs)
      else if protocolVersion bs ≠ svsMsgProtocolVersion then (.parseMsg, l, bs)
      else if (bs.drop (packetLength bs)).length < svsMsgHeaderSize then
        (.ok, l.handleParsed now (bs.take (packetLength bs)), bs.drop (packetLength bs))
      else parseLoop now fuel (l.handleParsed now (bs.take (packetLength bs))) (bs.drop (packetLength bs)) := rfl

/-- The loop handles the units of the bytes one by one; `ok` if the rest may become one. -/
theorem parseLoop_splits (now : Int) (fuel : Nat) (l : ClientLink) (bs : List UInt8) (hf : bs.length ≤ fuel)
    (h12 : svsMsgHeaderSize ≤ bs.length) : ∃ us ok,
      svsFraming.Splits bs us (parseLoop now fuel l bs).2.2 ok ∧
      (parseLoop now fuel l bs).2.1 = us.foldl (handleParsed now) l ∧
      ((parseLoop now fuel l bs).1 = .ok ↔ ok = true) := by
  induction fuel generalizing l bs with
  | zero =>
    unfold svsMsgHeaderSize at h12
    omega
  | succ fuel ih =>
    rw [parseLoop_succ]
    split_ifs with hshort hpart hver hend
    · exact ⟨[], false, .bad (svsCut_bad.mpr ⟨h12, .inl hshort⟩), rfl, by simp⟩
    · refine ⟨[], true, .more ?_, rfl, by simp⟩
      change svsCut bs = .more
      rw [svsCut, if_neg (Nat.not_lt.mpr h12), if_neg hshort, if_pos hpart]
    · exact ⟨[], false, .bad (svsCut_bad.mpr ⟨h12, .inr ⟨Nat.not_lt.mp hpart, hver⟩⟩), rfl, by simp⟩
    · have hcut := svsCut_unit.mpr ⟨Nat.not_lt.mp hshort, Nat.not_lt.mp hpart, rfl, not_not.mp hver⟩
      exact ⟨[_], true, .unit hcut (.more (if_pos hend)), rfl, by simp⟩
    · have hcut := svsCut_unit.mpr ⟨Nat.not_lt.mp hshort, Nat.not_lt.mp hpart, rfl, not_not.mp hver⟩
      obtain ⟨us, ok, hs, hl, hok⟩ := ih (l.handleParsed now (bs.take (packetLength bs)))
        (bs.drop (packetLength bs)) (by
          rw [List.length_drop]
          unfold svsMsgHeaderSize at hshort h12
          omega) (Nat.not_lt.mp hend)
      exact ⟨_ :: us, ok, .unit hcut hs, hl, hok⟩

theorem parseData_splits (l : ClientLink) (now : Int) : ∃ us ok,
    svsFraming.Splits l.recvBuff us (l.parseData now).2.2 ok ∧
      (l.parseData now).2.1 = us.foldl (handleParsed now) l ∧ ((l.parseData now).1 = .ok ↔ ok = true) := by
  unfold parseData
  split
  · rename_i hshort
    exact ⟨[], true, .more (if_pos hshort), rfl, by simp⟩
  · rename_i h12
    exact parseLoop_splits now _ l _ (le_refl _) (Nat.not_lt.mp h12)

/-- The link when `recv` gave `seg`, the messages `us` are handled and `rest` is left. -/
def parsed (l : ClientLink) (seg : List UInt8) (us : List SvsMsg) (rest : List UInt8) (now : Int) : ClientLink :=
  { us.foldl (handleParsed now) { l with got := l.got ++ seg, recvBuff := l.recvBuff ++ seg } with recvBuff := rest }

theorem parsed_eq (l : ClientLink) (seg : List UInt8) (us : List SvsMsg) (rest : List UInt8) (now : Int) :
    ∃ w a r, l.parsed seg us rest now = { l with
      got := l.got ++ seg
      recvBuff := rest
      waitRespMsgMap := w
      answered := a
      lastRecvHeartbeatTime := r
      notices := l.notices ++ (us.filter notHeartbeat).map fun m => .message m .recv } ∧
    (r = l.lastRecvHeartbeatTime ∨ r = now) := by
  obtain ⟨w, a, r, he, hr⟩ := foldl_handleParsed_eq now { l with got := l.got ++ seg, recvBuff := l.recvBuff ++ seg } us
  exact ⟨w, a, r, by rw [parsed, he], hr⟩

theorem connFlag_parsed (l : ClientLink) (seg : List UInt8) (us : List SvsMsg) (rest : List UInt8) (now : Int) :
    (l.parsed seg us rest now).connFlag = l.connFlag := by
  obtain ⟨_, _, _, he, -⟩ := parsed_eq l seg us rest now
  rw [he]

theorem received_splits (l : ClientLink) (seg : List UInt8) (now : Int) : ∃ us rest ok,
    svsFraming.Splits (l.recvBuff ++ seg) us rest ok ∧
      l.received seg now = if ok then (.ok, l.parsed seg us rest now) else (.fail, l.parsed seg us [] now) := by
  obtain ⟨us, ok, hs, hl, hok⟩ := parseData_splits { l with got := l.got ++ seg, recvBuff := l.recvBuff ++ seg } now
  refine ⟨us, _, ok, hs, ?_⟩
  unfold received parsed
  rw [← hl]
  generalize parseData { l with got := l.got ++ seg, recvBuff := l.recvBuff ++ seg } now = p at hok ⊢
  obtain ⟨r, l', rest⟩ := p
  cases ok with
  | true =>
    obtain rfl : r = .ok := hok.mpr rfl
    rfl
  | false =>
    have hr : r ≠ .ok := fun h => Bool.false_ne_true (hok.mp h)
    cases r with
    | ok => exact absurd rfl hr
    | _ => rfl

end ClientLink

end AllCamera
