import AllCamera.Lib.Memory

/-!
# The RTMP chunk format

Messages travel in chunks. A chunk has a basic header (its header type 0 to 3 and the id of its chunk
stream), a message header as long as the type says, an extended timestamp where the timestamp field
is all ones, and at most a chunk size of payload bytes. What a shorter header leaves out is that of
the last chunk of the same chunk stream. Chunks of several chunk streams may alternate.

* `chunk`: the first chunk of some bytes, taken by a `Splitter`, which has the messages so far, the
  parts of those to come, and the chunk size.
* `split`: all whole chunks of some bytes. `split_chunk`, `split_none`: its two rules.
* `encode`: a message as a chunk of type 0 and further ones of type 3. `split_encode`: they split
  into the message.
* `Heavy.split`: how many bytes at least a first message has needed.
-/

namespace AllCamera.RtmpChunk

/-! ## Splitting -/

structure Message where
  timestamp : Nat
  type : UInt8
  stream : Nat
  payload : List UInt8
  deriving DecidableEq

/-- The header of the last chunk of a chunk stream, and the payload of a message that is not
complete. -/
structure ChunkStream where
  timestamp : Nat
  delta : Nat
  extended : Bool
  length : Nat
  type : UInt8
  stream : Nat
  part : List UInt8

structure Splitter where
  streams : Nat → Option ChunkStream
  chunkSize : Nat
  messages : List Message

/-- At the beginning of a connection. -/
def Splitter.init : Splitter := ⟨fun _ => none, 128, []⟩

/-- A number of three bytes, the highest first. -/
def be24 (a b c : UInt8) : Nat := a.toNat * 65536 + b.toNat * 256 + c.toNat

/-- The header type, the id of the chunk stream and the bytes behind. -/
def basicHeader : List UInt8 → Option (Nat × Nat × List UInt8)
  | [] => none
  | b :: rest =>
    let fmt := b.toNat / 64
    if b.toNat % 64 = 0 then
      match rest with
      | b₁ :: rest => some (fmt, 64 + b₁.toNat, rest)
      | [] => none
    else if b.toNat % 64 = 1 then
      match rest with
      | b₁ :: b₂ :: rest => some (fmt, 64 + b₁.toNat + 256 * b₂.toNat, rest)
      | _ => none
    else some (fmt, b.toNat % 64, rest)

/-- The extended timestamp, if there is one. -/
def extendedTimestamp (extended : Bool) (field : Nat) (bytes : List UInt8) :
    Option (Nat × List UInt8) :=
  match extended, bytes with
  | false, bytes => some (field, bytes)
  | true, b₃ :: b₂ :: b₁ :: b₀ :: bytes => some ((be32 b₃ b₂ b₁ b₀).toNat, bytes)
  | true, _ => none

/-- The message header of type `fmt` on a chunk stream that was `old`. A timestamp of type 1 or 2 is
a delta; a message that begins with type 3 repeats the last one. -/
def messageHeader (old : Option ChunkStream) (fmt : Nat) (bytes : List UInt8) :
    Option (ChunkStream × List UInt8) :=
  match fmt, old, bytes with
  | 0, old, t₂ :: t₁ :: t₀ :: l₂ :: l₁ :: l₀ :: ty :: s₀ :: s₁ :: s₂ :: s₃ :: rest => do
    let extended := be24 t₂ t₁ t₀ = 0xffffff
    let (t, rest) ← extendedTimestamp extended (be24 t₂ t₁ t₀) rest
    return ({
      timestamp := t
      delta := t
      extended := extended
      length := be24 l₂ l₁ l₀
      type := ty
      stream := (be32 s₃ s₂ s₁ s₀).toNat
      part := (old.map (·.part)).getD [] }, rest)
  | 1, some cs, t₂ :: t₁ :: t₀ :: l₂ :: l₁ :: l₀ :: ty :: rest => do
    let extended := be24 t₂ t₁ t₀ = 0xffffff
    let (t, rest) ← extendedTimestamp extended (be24 t₂ t₁ t₀) rest
    return ({ cs with
      timestamp := (cs.timestamp + t) % 2 ^ 32
      delta := t
      extended := extended
      length := be24 l₂ l₁ l₀
      type := ty }, rest)
  | 2, some cs, t₂ :: t₁ :: t₀ :: rest => do
    let extended := be24 t₂ t₁ t₀ = 0xffffff
    let (t, rest) ← extendedTimestamp extended (be24 t₂ t₁ t₀) rest
    return ({ cs with
      timestamp := (cs.timestamp + t) % 2 ^ 32
      delta := t
      extended := extended }, rest)
  | 3, some cs, rest => do
    let (_, rest) ← extendedTimestamp cs.extended cs.delta rest
    return ({ cs with
      timestamp := if cs.part = [] then (cs.timestamp + cs.delta) % 2 ^ 32 else cs.timestamp }, rest)
  | _, _, _ => none

/-- The chunk stream `csid` becomes `cs`. -/
def Splitter.set (s : Splitter) (csid : Nat) (cs : ChunkStream) : Splitter :=
  { s with streams := fun i => if i = csid then some cs else s.streams i }

/-- A message about the chunk format itself: type 1 sets the chunk size, type 2 gives up the part of
a message. -/
def Splitter.control (s : Splitter) (m : Message) : Splitter :=
  match m.payload with
  | b₃ :: b₂ :: b₁ :: b₀ :: _ =>
    let n := (be32 b₃ b₂ b₁ b₀).toNat
    if m.type = 1 then { s with chunkSize := max 1 (n % 2 ^ 31) }
    else if m.type = 2 then
      match s.streams n with
      | some cs => s.set n { cs with part := [] }
      | none => s
    else s
  | _ => s

/-- The message of a chunk stream is complete. -/
def Splitter.complete (s : Splitter) (csid : Nat) (cs : ChunkStream) : Splitter :=
  let m : Message := ⟨cs.timestamp, cs.type, cs.stream, cs.part⟩
  { s.set csid { cs with part := [] } with messages := s.messages ++ [m] }.control m

/-- The first chunk of `bytes`; nothing, if it is not there as a whole, or if its header gives a length
below what is there of the message. -/
def chunk (s : Splitter) (bytes : List UInt8) : Option (Splitter × List UInt8) := do
  let (fmt, csid, rest) ← basicHeader bytes
  let (cs, rest) ← messageHeader (s.streams csid) fmt rest
  let n := min s.chunkSize (cs.length - cs.part.length)
  if rest.length < n ∨ cs.length < cs.part.length then none
  else
    let cs := { cs with part := cs.part ++ rest.take n }
    if cs.part.length < cs.length then some (s.set csid cs, rest.drop n)
    else some (s.complete csid cs, rest.drop n)

/-! ## What a chunk takes -/

variable {s s' : Splitter} {bytes rest : List UInt8} {cs : ChunkStream} {fmt csid : Nat}

theorem basicHeader_length (h : basicHeader bytes = some (fmt, csid, rest)) :
    rest.length + 1 ≤ bytes.length := by
  unfold basicHeader at h
  repeat' split at h
  all_goals cases h
  all_goals
    simp only [List.length_cons]
    omega

/-- An id of 64 or more takes a second byte. -/
theorem basicHeader_long {b : UInt8} (h : basicHeader (b :: bytes) = some (fmt, csid, rest))
    (hb : b.toNat % 64 < 2) : rest.length + 1 ≤ bytes.length := by
  unfold basicHeader at h
  dsimp only at h
  split at h
  · split at h
    · cases h
      simp
    · cases h
  · split at h
    · split at h
      · cases h
        simp only [List.length_cons]
        omega
      · cases h
    · omega

theorem extendedTimestamp_length {extended : Bool} {field t : Nat}
    (h : extendedTimestamp extended field bytes = some (t, rest)) :
    rest.length + (if extended then 4 else 0) = bytes.length := by
  unfold extendedTimestamp at h
  split at h
  · cases h
    rfl
  · cases h
    simp
  · cases h

/-- What a message header leaves of the chunk stream, and how long it is. -/
theorem messageHeader_length {old : Option ChunkStream}
    (h : messageHeader old fmt bytes = some (cs, rest)) :
    rest.length ≤ bytes.length ∧ cs.part = (old.map (·.part)).getD [] := by
  unfold messageHeader at h
  split at h
  · obtain ⟨⟨t, rest'⟩, ht, h⟩ := Option.bind_eq_some_iff.mp h
    cases h
    have := extendedTimestamp_length ht
    refine ⟨?_, rfl⟩
    simp only [List.length_cons]
    omega
  · obtain ⟨⟨t, rest'⟩, ht, h⟩ := Option.bind_eq_some_iff.mp h
    cases h
    have := extendedTimestamp_length ht
    refine ⟨?_, rfl⟩
    simp only [List.length_cons]
    omega
  · obtain ⟨⟨t, rest'⟩, ht, h⟩ := Option.bind_eq_some_iff.mp h
    cases h
    have := extendedTimestamp_length ht
    refine ⟨?_, rfl⟩
    simp only [List.length_cons]
    omega
  · obtain ⟨⟨t, rest'⟩, ht, h⟩ := Option.bind_eq_some_iff.mp h
    cases h
    have := extendedTimestamp_length ht
    exact ⟨by omega, rfl⟩
  · cases h

/-- The first header of a chunk stream. -/
theorem messageHeader_none (h : messageHeader none fmt bytes = some (cs, rest)) :
    ∃ t₂ t₁ t₀ tail, bytes = t₂ :: t₁ :: t₀ :: tail ∧
      rest.length + 11 + (if be24 t₂ t₁ t₀ = 0xffffff then 4 else 0) = bytes.length := by
  unfold messageHeader at h
  split at h
  · obtain ⟨⟨t, rest'⟩, ht, h⟩ := Option.bind_eq_some_iff.mp h
    cases h
    have := extendedTimestamp_length ht
    refine ⟨_, _, _, _, rfl, ?_⟩
    simp only [decide_eq_true_eq] at this
    simp only [List.length_cons]
    omega
  all_goals grind

/-- The part of a message on a chunk stream. -/
def Splitter.part (s : Splitter) (csid : Nat) : List UInt8 :=
  ((s.streams csid).map (·.part)).getD []

/-- What a chunk does: it adds to the part of a message, or completes the message. -/
theorem chunk_cases (h : chunk s bytes = some (s', rest)) :
    ∃ fmt csid cs n body bytes', basicHeader bytes = some (fmt, csid, bytes') ∧
      messageHeader (s.streams csid) fmt bytes' = some (cs, body) ∧
      n = min s.chunkSize (cs.length - (s.part csid).length) ∧ n ≤ body.length ∧
      (s.part csid).length ≤ cs.length ∧ rest = body.drop n ∧
      ((s.part csid ++ body.take n).length < cs.length ∧
          s' = s.set csid { cs with part := s.part csid ++ body.take n } ∨
        (s.part csid ++ body.take n).length = cs.length ∧
          s' = s.complete csid { cs with part := s.part csid ++ body.take n }) := by
  obtain ⟨⟨fmt, csid, bytes'⟩, hbasic, h⟩ := Option.bind_eq_some_iff.mp h
  obtain ⟨⟨cs, body⟩, hheader, h⟩ := Option.bind_eq_some_iff.mp h
  obtain ⟨-, hpart⟩ := messageHeader_length hheader
  have hpart' : cs.part = s.part csid := hpart
  dsimp only at h
  rw [hpart'] at h
  split at h
  · cases h
  · rename_i hnot
    refine ⟨fmt, csid, cs, _, body, bytes', hbasic, hheader, rfl, by omega, by omega, ?_⟩
    split at h
    · rename_i hlt
      cases h
      exact ⟨rfl, .inl ⟨hlt, rfl⟩⟩
    · rename_i hlt
      cases h
      refine ⟨rfl, .inr ⟨?_, rfl⟩⟩
      simp only [List.length_append, List.length_take] at hlt ⊢
      omega

/-- A chunk is not empty. -/
theorem chunk_length (h : chunk s bytes = some (s', rest)) : rest.length < bytes.length := by
  obtain ⟨fmt, csid, cs, n, body, bytes', hbasic, hheader, -, -, -, rfl, -⟩ := chunk_cases h
  have h₁ := basicHeader_length hbasic
  have h₂ := (messageHeader_length hheader).1
  simp only [List.length_drop]
  omega

/-- The whole chunks of `bytes`, and what is left behind them. -/
def split (s : Splitter) (bytes : List UInt8) : Splitter × List UInt8 :=
  match _h : chunk s bytes with
  | none => (s, bytes)
  | some (s', rest) => split s' rest
termination_by bytes.length
decreasing_by exact chunk_length ‹_›

theorem split_chunk (h : chunk s bytes = some (s', rest)) : split s bytes = split s' rest := by
  rw [split]
  split
  · rename_i hnone
    rw [h] at hnone
    cases hnone
  · rename_i hsome
    rw [h] at hsome
    cases hsome
    rfl

theorem split_none (h : chunk s bytes = none) : split s bytes = (s, bytes) := by
  rw [split]
  split
  · rfl
  · rename_i hsome
    rw [h] at hsome
    cases hsome

theorem split_nil (s : Splitter) : split s [] = (s, []) := split_none rfl

/-- What every chunk keeps holds behind all of them. -/
theorem split_induction {P : Splitter → List UInt8 → Prop}
    (hstep : ∀ s bytes s' rest, chunk s bytes = some (s', rest) → P s bytes → P s' rest)
    (s : Splitter) (bytes : List UInt8) : P s bytes → P (split s bytes).1 (split s bytes).2 := by
  fun_induction split s bytes with
  | case1 s bytes hnone => exact id
  | case2 s bytes s' rest hchunk ih => exact fun h => ih (hstep _ _ _ _ hchunk h)

/-! ## A message in chunks -/

/-- A basic header of one byte. -/
def basicByte (fmt csid : Nat) : UInt8 := .ofNat (fmt * 64 + csid)

def be24Bytes (n : Nat) : List UInt8 := [.ofNat (n / 65536), .ofNat (n / 256), .ofNat n]

def le32Bytes (n : Nat) : List UInt8 :=
  [.ofNat n, .ofNat (n / 2 ^ 8), .ofNat (n / 2 ^ 16), .ofNat (n / 2 ^ 24)]

/-- A payload in pieces of `size` bytes, with `flags` between them. -/
def pieces (flags : UInt8) (size : Nat) (payload : List UInt8) : List UInt8 :=
  if payload.length ≤ size ∨ size = 0 then payload
  else payload.take size ++ flags :: pieces flags size (payload.drop size)
termination_by payload.length
decreasing_by
  simp only [List.length_drop]
  omega

theorem pieces_of_le (flags : UInt8) {size : Nat} {payload : List UInt8}
    (h : payload.length ≤ size) : pieces flags size payload = payload := by
  rw [pieces, if_pos (.inl h)]

theorem pieces_of_lt (flags : UInt8) {size : Nat} {payload : List UInt8} (hpos : 0 < size)
    (h : size < payload.length) : pieces flags size payload =
      payload.take size ++ flags :: pieces flags size (payload.drop size) := by
  rw [pieces, if_neg (by omega)]

/-- A message as a chunk of type 0 and as many chunks of type 3 as it needs. -/
def encode (csid size : Nat) (m : Message) : List UInt8 :=
  basicByte 0 csid :: (be24Bytes m.timestamp ++ be24Bytes m.payload.length ++ m.type ::
    le32Bytes m.stream ++ pieces (basicByte 3 csid) size m.payload)

theorem be24_be24Bytes {n : Nat} (h : n < 2 ^ 24) :
    be24 (.ofNat (n / 65536)) (.ofNat (n / 256)) (.ofNat n) = n := by
  simp only [be24, UInt8.toNat_ofNat']
  omega

theorem be32_le32Bytes {n : Nat} (h : n < 2 ^ 32) :
    (be32 (.ofNat (n / 2 ^ 24)) (.ofNat (n / 2 ^ 16)) (.ofNat (n / 2 ^ 8)) (.ofNat n)).toNat = n := by
  simp only [be32, UInt8.toNat_ofNat', UInt32.toNat_ofNat']
  omega

theorem basicHeader_basicByte (fmt csid : Nat) (hf : fmt < 4) (hc : 2 ≤ csid) (hc' : csid < 64)
    (bytes : List UInt8) : basicHeader (basicByte fmt csid :: bytes) = some (fmt, csid, bytes) := by
  have htoNat : (basicByte fmt csid).toNat = fmt * 64 + csid := by
    simp only [basicByte, UInt8.toNat_ofNat']
    omega
  have hdiv : (fmt * 64 + csid) / 64 = fmt := by omega
  have hmod : (fmt * 64 + csid) % 64 = csid := by omega
  simp only [basicHeader, htoNat, hdiv, hmod]
  rw [if_neg (by omega), if_neg (by omega)]

theorem Splitter.set_set (s : Splitter) (csid : Nat) (cs cs' : ChunkStream) :
    (s.set csid cs).set csid cs' = s.set csid cs' := by
  simp only [set, Splitter.mk.injEq, and_true]
  funext i
  split <;> rfl

theorem Splitter.complete_set (s : Splitter) (csid : Nat) (cs cs' : ChunkStream) :
    (s.set csid cs).complete csid cs' = s.complete csid cs' := by
  simp only [complete, set_set]
  rfl

/-- A chunk that ends inside its message. -/
theorem chunk_part {payload : List UInt8} {n : Nat} (hbasic : basicHeader bytes = some (fmt, csid, rest))
    (hheader : messageHeader (s.streams csid) fmt rest = some (cs, payload))
    (hn : n = s.chunkSize) (hlen : n ≤ payload.length) (hlt : cs.part.length + n < cs.length) :
    chunk s bytes = some (s.set csid { cs with part := cs.part ++ payload.take n }, payload.drop n) := by
  have hmin : min s.chunkSize (cs.length - cs.part.length) = n := by omega
  simp only [chunk, hbasic, hheader, Option.bind_eq_bind, Option.bind_some, hmin]
  rw [if_neg (by omega), if_pos (by
    simp only [List.length_append, List.length_take]
    omega)]

/-- A chunk that ends its message. -/
theorem chunk_complete {body more : List UInt8}
    (hbasic : basicHeader bytes = some (fmt, csid, rest))
    (hheader : messageHeader (s.streams csid) fmt rest = some (cs, body ++ more))
    (hlen : cs.part.length + body.length = cs.length) (hn : body.length ≤ s.chunkSize) :
    chunk s bytes = some (s.complete csid { cs with part := cs.part ++ body }, more) := by
  have hmin : min s.chunkSize (cs.length - cs.part.length) = body.length := by omega
  simp only [chunk, hbasic, hheader, Option.bind_eq_bind, Option.bind_some, hmin,
    List.take_left, List.drop_left]
  rw [if_neg (by
    simp only [List.length_append]
    omega), if_neg (by
    simp only [List.length_append]
    omega)]

/-- A header of type 3 inside of a message. -/
theorem messageHeader_three (hext : cs.extended = false) (hpart : cs.part ≠ [])
    (bytes : List UInt8) : messageHeader (some cs) 3 bytes = some (cs, bytes) := by
  simp only [messageHeader, hext, extendedTimestamp, Option.bind_eq_bind, Option.bind_some,
    if_neg hpart]
  rw [← hext]
  rfl

/-- The chunks of type 3 behind the first one. -/
theorem split_pieces {size : Nat} (hc : 2 ≤ csid) (hc' : csid < 64) (hpos : 0 < size)
    (more payload : List UInt8) (s : Splitter) (cs : ChunkStream)
    (hcs : s.streams csid = some cs) (hext : cs.extended = false) (hpart : cs.part ≠ [])
    (hlen : cs.part.length + payload.length = cs.length) (hsize : s.chunkSize = size) :
    split s (basicByte 3 csid :: pieces (basicByte 3 csid) size payload ++ more) =
      split (s.complete csid { cs with part := cs.part ++ payload }) more := by
  have hbasic := basicHeader_basicByte 3 csid (by omega) hc hc'
  fun_induction pieces (basicByte 3 csid) size payload generalizing s cs with
  | case1 payload hle =>
    have hheader := messageHeader_three hext hpart (payload ++ more)
    rw [← hcs] at hheader
    exact split_chunk (chunk_complete (hbasic _) hheader hlen (by omega))
  | case2 payload hlt ih =>
    obtain ⟨hlt, -⟩ := not_or.mp hlt
    have htake : (payload.take size).length = size := by
      simp only [List.length_take]
      omega
    have hheader := messageHeader_three hext hpart
    rw [← hcs] at hheader
    have hchunk := chunk_part (s := s) (n := size) (hbasic (payload.take size ++
      (basicByte 3 csid :: pieces (basicByte 3 csid) size (payload.drop size)) ++ more))
      (hheader _) hsize.symm (by simp only [List.length_append, htake]; omega) (by omega)
    simp only [List.append_assoc, List.cons_append] at hchunk
    rw [List.take_left' htake, List.drop_left' htake] at hchunk
    have hrest := ih (s.set csid { cs with part := cs.part ++ payload.take size })
      { cs with part := cs.part ++ payload.take size } (by simp [Splitter.set]) hext
      (by simp [hpart]) (by
        simp only [List.length_append, htake, List.length_drop]
        omega) hsize
    rw [Splitter.complete_set] at hrest
    simp only [List.append_assoc, List.take_append_drop, List.cons_append] at hrest ⊢
    rw [split_chunk hchunk]
    exact hrest

/-- The fields of a header of type 0, without an extended timestamp. -/
theorem messageHeader_fields (old : Option ChunkStream) (t₂ t₁ t₀ l₂ l₁ l₀ ty s₀ s₁ s₂ s₃ : UInt8)
    (rest : List UInt8) (h : be24 t₂ t₁ t₀ ≠ 0xffffff) :
    messageHeader old 0 (t₂ :: t₁ :: t₀ :: l₂ :: l₁ :: l₀ :: ty :: s₀ :: s₁ :: s₂ :: s₃ :: rest) =
      some (⟨be24 t₂ t₁ t₀, be24 t₂ t₁ t₀, false, be24 l₂ l₁ l₀, ty, (be32 s₃ s₂ s₁ s₀).toNat,
        (old.map (·.part)).getD []⟩, rest) := by
  have hext : extendedTimestamp (decide (be24 t₂ t₁ t₀ = 0xffffff)) (be24 t₂ t₁ t₀) rest =
      some (be24 t₂ t₁ t₀, rest) := by
    rw [decide_eq_false h]
    rfl
  rw [messageHeader, hext, decide_eq_false h]
  rfl

/-- What a chunk of type 0 says about its message. -/
theorem messageHeader_zero (old : Option ChunkStream) {timestamp length stream : Nat}
    (hts : timestamp < 0xffffff) (hlen : length < 2 ^ 24) (hstream : stream < 2 ^ 32) (type : UInt8)
    (body : List UInt8) :
    messageHeader old 0 (be24Bytes timestamp ++ be24Bytes length ++ type ::
        le32Bytes stream ++ body) =
      some (⟨timestamp, timestamp, false, length, type, stream, (old.map (·.part)).getD []⟩, body) := by
  have hts' := be24_be24Bytes (n := timestamp) (by omega)
  have hext : timestamp ≠ 0xffffff := Nat.ne_of_lt hts
  rw [← hts'] at hext
  have hfields := messageHeader_fields old _ _ _ (.ofNat (length / 65536)) (.ofNat (length / 256))
    (.ofNat length) type (.ofNat stream) (.ofNat (stream / 2 ^ 8)) (.ofNat (stream / 2 ^ 16))
    (.ofNat (stream / 2 ^ 24)) body hext
  rwa [hts', be24_be24Bytes hlen, be32_le32Bytes hstream] at hfields

/-- The message of `encode` comes out of its chunks. -/
theorem split_encode (csid : Nat) (hc : 2 ≤ csid) (hc' : csid < 64) (hpos : 0 < s.chunkSize) (m : Message)
    (hts : m.timestamp < 0xffffff) (hlen : m.payload.length < 2 ^ 24) (hstream : m.stream < 2 ^ 32)
    (hpart : s.part csid = []) (more : List UInt8) :
    split s (encode csid s.chunkSize m ++ more) =
      split (s.complete csid ⟨m.timestamp, m.timestamp, false, m.payload.length, m.type, m.stream,
        m.payload⟩) more := by
  have hbasic := basicHeader_basicByte 0 csid (by omega) hc hc'
  have hheader := messageHeader_zero (s.streams csid) hts hlen hstream m.type
  rw [show ((s.streams csid).map (·.part)).getD [] = [] from hpart] at hheader
  by_cases hle : m.payload.length ≤ s.chunkSize
  · have hpieces := pieces_of_le (basicByte 3 csid) hle
    have hchunk := chunk_complete (hbasic _) (hheader (m.payload ++ more)) (by simp) hle
    simp only [encode, hpieces, List.append_assoc, List.cons_append, List.nil_append] at hchunk ⊢
    exact split_chunk hchunk
  · have htake : (m.payload.take s.chunkSize).length = s.chunkSize := by
      simp only [List.length_take]
      omega
    have hpieces := pieces_of_lt (basicByte 3 csid) hpos (Nat.lt_of_not_le hle)
    have hchunk := chunk_part (s := s) (n := s.chunkSize) (hbasic _) (hheader
      (m.payload.take s.chunkSize ++ (basicByte 3 csid ::
        pieces (basicByte 3 csid) s.chunkSize (m.payload.drop s.chunkSize) ++ more))) rfl
      (by simp only [List.length_append, htake]; omega) (by
        simp only [List.length_nil]
        omega)
    rw [List.take_left' htake, List.drop_left' htake] at hchunk
    have hrest := split_pieces hc hc' hpos more (m.payload.drop s.chunkSize) (s.set csid
      ⟨m.timestamp, m.timestamp, false, m.payload.length, m.type, m.stream,
        m.payload.take s.chunkSize⟩) _ (if_pos rfl) rfl (by
        intro hnil
        have := congrArg List.length hnil
        simp only [htake, List.length_nil] at this
        omega) (by
        simp only [htake, List.length_drop]
        omega) rfl
    rw [Splitter.complete_set] at hrest
    simp only [encode, hpieces, List.append_assoc, List.cons_append, List.nil_append,
      List.take_append_drop] at hchunk hrest ⊢
    rw [split_chunk hchunk]
    exact hrest

/-! ## What a message costs -/

/-- The number of chunks of 128 bytes for `n` bytes. -/
def chunks (n : Nat) : Nat := (n + 127) / 128

/-- The part and the first message are paid for by the `k` bytes in front of `s`: a byte for each of
theirs and for each of their chunks, and `extra` more. -/
structure Heavy (extra k : Nat) (s : Splitter) : Prop where
  pos : extra < k
  chunkSize : s.messages = [] → s.chunkSize = 128
  part : ∀ csid, s.messages = [] → (s.part csid).length + chunks (s.part csid).length + extra ≤ k
  message : ∀ m ms, s.messages = m :: ms →
    m.payload.length + max 1 (chunks m.payload.length) + extra ≤ k

theorem Splitter.part_set (s : Splitter) (csid i : Nat) (cs : ChunkStream) :
    (s.set csid cs).part i = if i = csid then cs.part else s.part i := by
  unfold part set
  simp only
  split <;> rfl

theorem Splitter.messages_control (s : Splitter) (m : Message) :
    (s.control m).messages = s.messages := by
  unfold control
  dsimp only
  repeat' split
  all_goals rfl

theorem Splitter.messages_complete (s : Splitter) (csid : Nat) (cs : ChunkStream) :
    (s.complete csid cs).messages =
      s.messages ++ [⟨cs.timestamp, cs.type, cs.stream, cs.part⟩] :=
  messages_control _ _

/-- A chunk is paid for by its own bytes. -/
theorem Heavy.chunk {extra total : Nat} (hs : Heavy extra (total - bytes.length) s)
    (hle : bytes.length ≤ total) (h : RtmpChunk.chunk s bytes = some (s', rest)) :
    Heavy extra (total - rest.length) s' := by
  obtain ⟨fmt, csid, cs, n, body, bytes', hbasic, hheader, hn, hlen, -, rfl, hcases⟩ := chunk_cases h
  have h₁ := basicHeader_length hbasic
  have h₂ := (messageHeader_length hheader).1
  have hrest : (body.drop n).length + n + 1 ≤ bytes.length := by
    simp only [List.length_drop]
    omega
  have hpos := hs.pos
  have hnew : s.messages = [] → (s.part csid ++ body.take n).length +
      max 1 (chunks (s.part csid ++ body.take n).length) + extra ≤ total - (body.drop n).length := by
    intro hm
    have hpart := hs.part csid hm
    have hsize := hs.chunkSize hm
    simp only [chunks, List.length_append, List.length_take] at hpart ⊢
    omega
  rcases hcases with ⟨-, rfl⟩ | ⟨-, rfl⟩
  · refine ⟨by omega, hs.chunkSize, fun i hm => ?_, fun m ms hm => ?_⟩
    · rw [Splitter.part_set]
      split
      · have := hnew hm
        simp only
        omega
      · have := hs.part i hm
        omega
    · have := hs.message m ms hm
      omega
  · have hmessages := s.messages_complete csid { cs with part := s.part csid ++ body.take n }
    refine ⟨by omega, fun hm => ?_, fun i hm => ?_, fun m ms hm => ?_⟩
    · rw [hmessages] at hm
      simp at hm
    · rw [hmessages] at hm
      simp at hm
    · rw [hmessages] at hm
      cases hold : s.messages with
      | nil =>
        rw [hold] at hm
        cases hm
        exact hnew hold
      | cons m₀ ms₀ =>
        rw [hold] at hm
        cases hm
        have := hs.message _ ms₀ hold
        omega

/-- Behind a first chunk with a header of more than `extra` bytes. -/
theorem Heavy.first {extra : Nat} (h : RtmpChunk.chunk .init bytes = some (s, rest))
    (hheader : ∀ fmt csid cs bytes' body, basicHeader bytes = some (fmt, csid, bytes') →
      messageHeader none fmt bytes' = some (cs, body) → body.length + extra < bytes.length) :
    Heavy extra (bytes.length - rest.length) s := by
  obtain ⟨fmt, csid, cs, n, body, bytes', hbasic, hcs, hn, hlen, -, rfl, hcases⟩ := chunk_cases h
  have hlong := hheader fmt csid cs bytes' body hbasic hcs
  have hn' : n ≤ 128 := hn ▸ Nat.min_le_left _ _
  have hrest : (body.drop n).length + n = body.length := by
    simp only [List.length_drop]
    omega
  have htake : ([] ++ body.take n).length = n := by
    simp only [List.nil_append, List.length_take]
    omega
  rcases hcases with ⟨-, rfl⟩ | ⟨-, rfl⟩
  · refine ⟨by omega, fun _ => rfl, fun i _ => ?_, nofun⟩
    rw [Splitter.part_set]
    split
    · have hpart : ((Splitter.init.part csid) ++ body.take n).length = n := htake
      simp only [chunks, hpart]
      omega
    · have hpart : (Splitter.init.part i).length = 0 := rfl
      simp only [chunks, hpart]
      omega
  · have hmessages := Splitter.init.messages_complete csid
      { cs with part := Splitter.init.part csid ++ body.take n }
    refine ⟨by omega, fun hm => ?_, fun i hm => ?_, fun m ms hm => ?_⟩
    · rw [hmessages] at hm
      cases hm
    · rw [hmessages] at hm
      cases hm
    · rw [hmessages] at hm
      cases hm
      have hpart : ((Splitter.init.part csid) ++ body.take n).length = n := htake
      simp only [chunks, hpart]
      omega

/-- A first message out of bytes whose first header has more than `extra` bytes. -/
theorem split_heavy (extra : Nat) {m : Message} {ms : List Message}
    (hheader : ∀ fmt csid cs bytes' body, basicHeader bytes = some (fmt, csid, bytes') →
      messageHeader none fmt bytes' = some (cs, body) → body.length + extra < bytes.length)
    (h : (split .init bytes).1.messages = m :: ms) :
    m.payload.length + max 1 (chunks m.payload.length) + extra ≤ bytes.length := by
  cases hchunk : RtmpChunk.chunk .init bytes with
  | none =>
    rw [split_none hchunk] at h
    cases h
  | some p =>
    obtain ⟨s, rest⟩ := p
    have hfirst := Heavy.first hchunk hheader
    have hlen := chunk_length hchunk
    rw [split_chunk hchunk] at h
    have hall := split_induction (P := fun s rest => Heavy extra (bytes.length - rest.length) s ∧
      rest.length ≤ bytes.length) (fun s rest s' rest' hc hs =>
        ⟨hs.1.chunk hs.2 hc, by have := chunk_length hc; have := hs.2; omega⟩)
      s rest ⟨hfirst, Nat.le_of_lt hlen⟩
    have := hall.1.message m ms h
    omega

/-- The payload and its separators, for chunks of 128 bytes. -/
theorem length_pieces (flags : UInt8) (payload : List UInt8) :
    (pieces flags 128 payload).length + 1 = payload.length + max 1 (chunks payload.length) := by
  fun_induction pieces flags 128 payload with
  | case1 payload hle =>
    simp only [chunks]
    omega
  | case2 payload hlt ih =>
    simp only [chunks, List.length_append, List.length_cons, List.length_take,
      List.length_drop] at ih ⊢
    omega

theorem be24_lt (a b c : UInt8) : be24 a b c < 2 ^ 24 := by
  have := a.toNat_lt
  have := b.toNat_lt
  have := c.toNat_lt
  simp only [be24]
  omega

/-- The lengths of messages have three bytes. -/
structure Small (s : Splitter) : Prop where
  stream : ∀ csid cs, s.streams csid = some cs → cs.length < 2 ^ 24
  message : ∀ m ∈ s.messages, m.payload.length < 2 ^ 24

theorem messageHeader_small {old : Option ChunkStream}
    (hold : ∀ cs, old = some cs → cs.length < 2 ^ 24)
    (h : messageHeader old fmt bytes = some (cs, rest)) : cs.length < 2 ^ 24 := by
  unfold messageHeader at h
  split at h
  · obtain ⟨⟨t, rest'⟩, ht, h⟩ := Option.bind_eq_some_iff.mp h
    cases h
    exact be24_lt _ _ _
  · obtain ⟨⟨t, rest'⟩, ht, h⟩ := Option.bind_eq_some_iff.mp h
    cases h
    exact be24_lt _ _ _
  · obtain ⟨⟨t, rest'⟩, ht, h⟩ := Option.bind_eq_some_iff.mp h
    cases h
    have := hold _ rfl
    exact this
  · obtain ⟨⟨t, rest'⟩, ht, h⟩ := Option.bind_eq_some_iff.mp h
    cases h
    have := hold _ rfl
    exact this
  · cases h

theorem Small.set (hs : Small s) (hcs : cs.length < 2 ^ 24) : Small (s.set csid cs) where
  stream := by
    intro i cs' h
    simp only [Splitter.set] at h
    split at h
    · cases h
      exact hcs
    · exact hs.stream i cs' h
  message := hs.message

theorem Small.control (hs : Small s) (m : Message) : Small (s.control m) := by
  unfold Splitter.control
  dsimp only
  repeat' split
  · exact ⟨hs.stream, hs.message⟩
  · rename_i hcs
    have := hs.stream _ _ hcs
    exact hs.set this
  · exact hs
  · exact hs
  · exact hs

theorem Small.complete (hs : Small s) (hcs : cs.length < 2 ^ 24)
    (hlen : cs.part.length = cs.length) : Small (s.complete csid cs) := by
  have hset : Small (s.set csid { cs with part := [] }) := hs.set hcs
  have hmessages : Small { s.set csid { cs with part := [] } with
      messages := s.messages ++ [⟨cs.timestamp, cs.type, cs.stream, cs.part⟩] } := by
    refine ⟨hset.stream, fun m hm => ?_⟩
    rcases List.mem_append.mp hm with hm | hm
    · exact hs.message m hm
    · rw [List.mem_singleton.mp hm]
      simp only
      omega
  exact hmessages.control _

theorem Small.chunk (hs : Small s) (h : RtmpChunk.chunk s bytes = some (s', rest)) : Small s' := by
  obtain ⟨fmt, csid, cs, n, body, bytes', -, hheader, -, -, -, -, hcases⟩ := chunk_cases h
  have hsmall := messageHeader_small (fun cs' h' => hs.stream csid cs' h') hheader
  rcases hcases with ⟨-, rfl⟩ | ⟨hlen, rfl⟩
  · exact hs.set hsmall
  · exact hs.complete hsmall hlen

theorem split_small (bytes : List UInt8) {m : Message} (hm : m ∈ (split .init bytes).1.messages) :
    m.payload.length < 2 ^ 24 :=
  (split_induction (P := fun s _ => Small s) (fun _ _ _ _ hc hs => hs.chunk hc) .init bytes
    ⟨nofun, nofun⟩).message m hm

/-! ## A message takes bytes -/

/-- There is a message, or a part of one; before the first message the chunk size is what it was. -/
structure Begun (s : Splitter) : Prop where
  chunkSize : s.messages = [] → s.chunkSize = 128
  some : s.messages = [] → ∃ csid, s.part csid ≠ []

theorem Begun.of_chunk (hsize : s.messages = [] → s.chunkSize = 128)
    (h : RtmpChunk.chunk s bytes = .some (s', rest)) : Begun s' := by
  obtain ⟨fmt, csid, cs, n, body, bytes', -, -, hn, hlen, -, -, hcases⟩ := chunk_cases h
  rcases hcases with ⟨hlt, rfl⟩ | ⟨-, rfl⟩
  · refine ⟨hsize, fun hm => ⟨csid, fun hnil => ?_⟩⟩
    rw [Splitter.part_set, if_pos rfl] at hnil
    have := congrArg List.length hnil
    have hsize' := hsize hm
    simp only [List.length_append, List.length_take, List.length_nil] at hlt this
    omega
  · have hmessages := s.messages_complete csid { cs with part := s.part csid ++ body.take n }
    constructor
    · intro hm
      rw [hmessages] at hm
      simp at hm
    · intro hm
      rw [hmessages] at hm
      simp at hm

/-- Whole chunks without any message, or part of one, are no bytes. -/
theorem split_eq_nil (hmessages : (split .init bytes).1.messages = [])
    (hpart : ∀ csid, (split .init bytes).1.part csid = [])
    (hrest : (split .init bytes).2 = []) : bytes = [] := by
  cases hchunk : RtmpChunk.chunk .init bytes with
  | none => rwa [split_none hchunk] at hrest
  | some p =>
    obtain ⟨s, rest⟩ := p
    rw [split_chunk hchunk] at hmessages hpart
    have hbegun := split_induction (P := fun s _ => Begun s)
      (fun _ _ _ _ hc hs => .of_chunk hs.chunkSize hc) s rest (.of_chunk (fun _ => rfl) hchunk)
    obtain ⟨csid, hne⟩ := hbegun.some hmessages
    exact absurd (hpart csid) hne

end AllCamera.RtmpChunk
