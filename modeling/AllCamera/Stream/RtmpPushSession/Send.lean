import AllCamera.Stream.RtmpPushSession

/-!
# What a session sends

`sendRtmpData` puts a message behind the queue and sends the whole queue, which nothing ever empties.

* `Call.encoding`: the chunks of one call. `sendQueue_sendRtmpData`, `sent_sendRtmpData`: what a
  call does to the queue and the socket.
* `Call.Encodable`: the calls whose chunks the chunk format gives back; `encoding_eq_encode` and
  `Call.encodable_of_split`.
* `sendRtmpData_runs_iff`: only the first call of a session sends what it should.
-/

namespace AllCamera.RtmpPushSession

variable {s : RtmpPushSession} {c : Call}

/-- The chunks of a message, at the chunk length of a session. -/
def Call.encoding (chunkLen : Nat) (c : Call) : List UInt8 :=
  c.header ++ RtmpChunk.pieces (c.flags 3) chunkLen c.buf

/-- The loop from `pos` on gives the pieces that are left. -/
theorem sendLoop_eq (flags : UInt8) {chunkLen : Nat} (hc : 0 < chunkLen) (buf : List UInt8)
    (fuel pos : Nat) (queue : List UInt8) (hf : buf.length < fuel + pos) (hpos : pos ≤ buf.length) :
    sendLoop flags chunkLen buf fuel pos queue =
      queue ++ if pos = buf.length then []
        else (if pos = 0 then [] else [flags]) ++ RtmpChunk.pieces flags chunkLen (buf.drop pos) := by
  induction fuel generalizing pos queue with
  | zero => omega
  | succ fuel ih =>
    rw [sendLoop]
    by_cases hlt : pos < buf.length
    · have hne : pos ≠ buf.length := by omega
      rw [if_pos hlt, if_neg hne]
      have hlen : (buf.drop pos).length = buf.length - pos := List.length_drop
      have hfirst : (if pos = 0 then queue else queue ++ [flags]) =
          queue ++ if pos = 0 then [] else [flags] := by
        split <;> simp
      dsimp only
      rw [hfirst]
      by_cases hle : buf.length - pos ≤ chunkLen
      · have hend : pos + (buf.length - pos) = buf.length := by omega
        rw [Nat.min_eq_left hle, RtmpChunk.pieces_of_le _ (by omega), ih _ _ (by omega) (by omega),
          if_pos hend, List.take_of_length_le (by omega), List.append_nil, List.append_assoc]
      · have hend : pos + chunkLen ≠ buf.length := by omega
        have hzero : pos + chunkLen ≠ 0 := by omega
        rw [Nat.min_eq_right (by omega), RtmpChunk.pieces_of_lt _ hc (by omega), ih _ _ (by omega)
          (by omega), if_neg hend, if_neg hzero, List.drop_drop]
        simp only [List.append_assoc, List.cons_append, List.nil_append]
    · rw [if_neg hlt, if_pos (by omega), List.append_nil]

/-- A call puts its message behind the queue. -/
theorem sendQueue_sendRtmpData (hc : 0 < s.chunkLen) (c : Call) :
    (s.sendRtmpData c).sendQueue = s.sendQueue ++ c.encoding s.chunkLen := by
  have hloop := sendLoop_eq (c.flags 3) hc c.buf (c.buf.length + 1) 0 (s.sendQueue ++ c.header)
    (by omega) (Nat.zero_le _)
  have hpieces : (if 0 = c.buf.length then [] else (if 0 = 0 then [] else [c.flags 3]) ++
      RtmpChunk.pieces (c.flags 3) s.chunkLen (c.buf.drop 0)) =
      RtmpChunk.pieces (c.flags 3) s.chunkLen c.buf := by
    split
    · rename_i hnil
      rw [List.eq_nil_of_length_eq_zero hnil.symm, RtmpChunk.pieces_of_le _ (Nat.zero_le _)]
    · simp
  rw [hpieces, List.append_assoc] at hloop
  exact hloop

/-- All of the queue is sent. -/
theorem sent_sendRtmpData (s : RtmpPushSession) (c : Call) :
    (s.sendRtmpData c).sent = s.sent ++ (s.sendRtmpData c).sendQueue.take
      ((s.sendRtmpData c).sendQueue.length % 2 ^ 32) := rfl

theorem chunkLen_sendRtmpData (s : RtmpPushSession) (c : Call) :
    (s.sendRtmpData c).chunkLen = s.chunkLen := rfl

theorem Call.length_header (c : Call) : c.header.length = 12 := rfl

/-- The header and the payload, with a byte in front of every chunk but the first one. -/
theorem Call.length_encoding (c : Call) :
    (c.encoding defaultChunkLen).length =
      11 + c.buf.length + max 1 (RtmpChunk.chunks c.buf.length) := by
  have := RtmpChunk.length_pieces (c.flags 3) c.buf
  simp only [encoding, defaultChunkLen, List.length_append, length_header]
  omega

/-! ## One message -/

/-- The chunk stream has an id of its own, and length and timestamp fit in the header. -/
def Call.Encodable (c : Call) : Prop :=
  c.buf.length < 2 ^ 24 ∧ c.timestamp.toNat % 2 ^ 24 ≠ 0xffffff ∧ 2 ≤ c.channel % 64

instance (c : Call) : Decidable c.Encodable := inferInstanceAs (Decidable (_ ∧ _ ∧ _))

/-- The message of a call. -/
def Call.message (c : Call) : RtmpChunk.Message :=
  ⟨c.timestamp.toNat % 2 ^ 24, c.type, c.endpoint.toNat, c.buf⟩

theorem be24Bytes_mod (n : Nat) : RtmpChunk.be24Bytes n = RtmpChunk.be24Bytes (n % 2 ^ 24) := by
  simp only [RtmpChunk.be24Bytes, List.cons.injEq, and_true]
  refine ⟨?_, ?_, ?_⟩
  all_goals
    apply UInt8.toNat.inj
    simp only [UInt8.toNat_ofNat']
    omega

/-- The chunks of a call are those of its message. -/
theorem Call.encoding_eq_encode (c : Call) (chunkLen : Nat) :
    c.encoding chunkLen = RtmpChunk.encode (c.channel % 64).toNat chunkLen c.message := by
  rw [encoding, header, be24Bytes_mod c.timestamp.toNat]
  simp [RtmpChunk.encode, message, flags]

/-- The chunks of an encodable call split into its message. -/
theorem Call.Encodable.split (h : c.Encodable) :
    (RtmpChunk.split .init (c.encoding defaultChunkLen)).1.messages = [c.message] := by
  obtain ⟨hlen, hts, hch⟩ := h
  have hmod : c.channel % 64 < 64 := Int.emod_lt_of_pos _ (by decide)
  have hsplit := RtmpChunk.split_encode (s := .init) (c.channel % 64).toNat (by omega)
    (by omega) (by decide) c.message (by simp only [message]; omega) hlen c.endpoint.toNat_lt rfl []
  rw [RtmpChunk.split_nil, List.append_nil] at hsplit
  rw [encoding_eq_encode]
  have := congrArg (·.1.messages) hsplit
  exact this.trans (RtmpChunk.Splitter.messages_complete _ _ _)

/-- The header of a call that is not encodable is a longer one by the chunk format. -/
theorem Call.header_long (hlen : c.buf.length < 2 ^ 24) (h : ¬ c.Encodable) {more bytes' : List UInt8}
    {fmt csid : Nat} {cs : RtmpChunk.ChunkStream} {body : List UInt8}
    (hbasic : RtmpChunk.basicHeader (c.header ++ more) = some (fmt, csid, bytes'))
    (hheader : RtmpChunk.messageHeader none fmt bytes' = some (cs, body)) :
    body.length + 12 < (c.header ++ more).length := by
  obtain ⟨t₂, t₁, t₀, tail, rfl, hlong⟩ := RtmpChunk.messageHeader_none hheader
  have hmod : c.channel % 64 < 64 := Int.emod_lt_of_pos _ (by decide)
  have hflags : (c.flags 0).toNat = (c.channel % 64).toNat := by
    simp only [flags, RtmpChunk.basicByte, UInt8.toNat_ofNat']
    omega
  by_cases hch : 2 ≤ c.channel % 64
  · -- the timestamp is an extended one, and the payload begins four bytes later
    have hts : c.timestamp.toNat % 2 ^ 24 = 0xffffff := by
      by_contra hts
      exact h ⟨hlen, hts, hch⟩
    have hbyte := RtmpChunk.basicHeader_basicByte 0 (c.channel % 64).toNat
      (by decide) (by omega) (by omega)
    have hbytes := be24Bytes_mod c.timestamp.toNat
    rw [hts] at hbytes
    rw [header, hbytes, List.cons_append, flags, hbyte] at hbasic
    simp only [RtmpChunk.be24Bytes, List.cons_append, List.nil_append, Option.some.injEq,
      Prod.mk.injEq, List.cons.injEq] at hbasic
    obtain ⟨-, -, rfl, rfl, rfl, rfl⟩ := hbasic
    rw [if_pos (by decide)] at hlong
    simp only [List.length_cons] at hlong
    simp only [header, RtmpChunk.be24Bytes, List.cons_append, List.nil_append, List.length_cons]
    omega
  · -- the basic header has a second byte
    have hle := RtmpChunk.basicHeader_long (b := c.flags 0) hbasic (by omega)
    have htotal : (c.header ++ more).length = (RtmpChunk.be24Bytes c.timestamp.toNat ++
        RtmpChunk.be24Bytes c.buf.length ++ c.type :: RtmpChunk.le32Bytes c.endpoint.toNat ++
          more).length + 1 := rfl
    have hle' : (t₂ :: t₁ :: t₀ :: tail).length + 1 ≤ (RtmpChunk.be24Bytes c.timestamp.toNat ++
        RtmpChunk.be24Bytes c.buf.length ++ c.type :: RtmpChunk.le32Bytes c.endpoint.toNat ++
          more).length := hle
    omega

/-- If the chunks of a call give back its payload, it is encodable. -/
theorem Call.encodable_of_split
    (h : (RtmpChunk.split .init (c.encoding defaultChunkLen)).1.messages.map (·.payload) = [c.buf]) :
    c.Encodable := by
  obtain ⟨m, hm, hbuf⟩ := List.map_eq_singleton_iff.mp h
  have hlen : c.buf.length < 2 ^ 24 := by
    rw [← hbuf]
    exact RtmpChunk.split_small (c.encoding defaultChunkLen) (by rw [hm]; simp)
  by_contra hno
  have hheavy := RtmpChunk.split_heavy 12
    (fun fmt csid cs bytes' body hbasic hheader => c.header_long hlen hno hbasic hheader) hm
  have hlength := c.length_encoding
  rw [hbuf] at hheavy
  simp only [encoding] at hlength
  omega

/-! ## Runs -/

/-- A new session after the calls. -/
def afterCalls (calls : List Call) : RtmpPushSession := Run.run sendRtmpData init calls

/-- The bytes sent are the chunks of the calls, each once and in order, and split into their
payloads. -/
def Transmits (calls : List Call) : Prop :=
  (afterCalls calls).sent = (calls.map (·.encoding defaultChunkLen)).flatten ∧
    (RtmpChunk.split .init (afterCalls calls).sent).1.messages.map (·.payload) = calls.map (·.buf)

theorem transmits_nil : Transmits [] := by
  refine ⟨rfl, ?_⟩
  have hsent : (afterCalls []).sent = [] := rfl
  rw [hsent, RtmpChunk.split_nil]
  rfl

theorem sent_one (c : Call) : (afterCalls [c]).sent =
    (c.encoding defaultChunkLen).take ((c.encoding defaultChunkLen).length % 2 ^ 32) := by
  have hqueue := sendQueue_sendRtmpData (s := init) (by decide) c
  have hsent := init.sent_sendRtmpData c
  rw [hqueue] at hsent
  exact hsent

theorem sent_two (c d : Call) : (afterCalls [c, d]).sent = (afterCalls [c]).sent ++
    (c.encoding defaultChunkLen ++ d.encoding defaultChunkLen).take
      ((c.encoding defaultChunkLen ++ d.encoding defaultChunkLen).length % 2 ^ 32) := by
  have hqueue := sendQueue_sendRtmpData (s := init) (by decide) c
  have hqueue' := sendQueue_sendRtmpData (s := init.sendRtmpData c)
    (Nat.succ_pos 127) d
  have hsent := (init.sendRtmpData c).sent_sendRtmpData d
  rw [hqueue', hqueue, chunkLen_sendRtmpData] at hsent
  exact hsent

/-- A call is sent as it should be on a new session exactly when it is encodable. -/
theorem transmits_one (c : Call) : Transmits [c] ↔ c.Encodable := by
  constructor
  · rintro ⟨hsent, hsplit⟩
    rw [hsent] at hsplit
    simp only [List.map_cons, List.map_nil, List.flatten_cons, List.flatten_nil,
      List.append_nil] at hsplit
    exact c.encodable_of_split hsplit
  · intro h
    have hlength := c.length_encoding
    have hlen := h.1
    have hsmall : (c.encoding defaultChunkLen).length % 2 ^ 32 =
        (c.encoding defaultChunkLen).length := by
      apply Nat.mod_eq_of_lt
      simp only [RtmpChunk.chunks] at hlength
      omega
    have hsent : (afterCalls [c]).sent = c.encoding defaultChunkLen := by
      rw [sent_one, hsmall, List.take_length]
    refine ⟨by simpa using hsent, ?_⟩
    rw [hsent, h.split]
    rfl

/-- With a second call the first message is sent again. -/
theorem not_transmits_two (c d : Call) (hc : Transmits [c]) : ¬ Transmits [c, d] := by
  rintro ⟨hsent, -⟩
  have hfirst : (afterCalls [c]).sent = c.encoding defaultChunkLen := by simpa using hc.1
  rw [sent_two, hfirst] at hsent
  have htaken := congrArg List.length (hfirst.symm.trans (sent_one c))
  have hlength := congrArg List.length hsent
  have hpos := c.length_encoding
  simp only [List.map_cons, List.map_nil, List.flatten_cons, List.flatten_nil, List.append_nil,
    List.length_append, List.length_take] at htaken hlength
  omega

/-- In every state of a run of calls the socket has what it should, exactly when there is at most one
call, and that one is encodable. -/
theorem sendRtmpData_runs_iff (calls : List Call) :
    (∀ pre, pre <+: calls → Transmits pre) ↔
      calls = [] ∨ ∃ c, calls = [c] ∧ c.Encodable := by
  constructor
  · intro h
    match calls with
    | [] => exact .inl rfl
    | [c] => exact .inr ⟨c, rfl, (transmits_one c).mp (h [c] List.prefix_rfl)⟩
    | c :: d :: rest =>
      have hc : Transmits [c] := h [c] ⟨d :: rest, rfl⟩
      exact absurd (h [c, d] ⟨rest, rfl⟩) (not_transmits_two c d hc)
  · rintro (rfl | ⟨c, rfl, hc⟩) pre hpre
    · rw [List.prefix_nil.mp hpre]
      exact transmits_nil
    · cases pre with
      | nil => exact transmits_nil
      | cons d pre =>
        obtain ⟨rfl, hnil⟩ := List.cons_prefix_cons.mp hpre
        rw [List.prefix_nil.mp hnil]
        exact (transmits_one d).mpr hc

/-- Two messages without a payload. -/
theorem sendRtmpData_repeats : ¬ ∀ calls, Transmits calls := by
  intro h
  have hone : Transmits [⟨20, 0, [], 0, 3⟩] := h _
  exact not_transmits_two ⟨20, 0, [], 0, 3⟩ ⟨20, 0, [], 0, 3⟩ hone (h _)

end AllCamera.RtmpPushSession
