import AllCamera.Stream.FrameOrganizer
import AllCamera.Stream.MediaExchange
import AllCamera.Stream.PsDemux.HandleFrame

/-!
# What the processors of a set receive

`ProcessAddSession` makes the set of a stream when its first processor is added, as a
`CStreamPsMediaProcessorSet` if that processor wants PS turned into RTP, and as a plain one if not.
Whoever is added later gets what the set gives.

* `PsConverter`, `ProcessorSet.Sends`: `Send` of both kinds of set. The loop of the demultiplexer may
  not return, so this is a relation.
* `Registration`: who is registered for a stream, by the messages alone.
* `kindOnly_iff`: the processors receive what they asked for, whatever media comes, if and only if
  each of them is of the kind of the one that the set was made for.
-/

namespace AllCamera

/-! ## The two kinds of set -/

/-- The members of `CStreamPsMediaProcessorSet`. -/
structure PsConverter where
  rtpFrameOrganizer : FrameOrganizer
  demux : Demux

/-- `MAX_RTP_FRAME_CACHE_NUM`. -/
def maxRtpFrameCacheNum : Nat := 3

/-- The constructor of `CStreamPsMediaProcessorSet`. -/
def PsConverter.new : PsConverter := ⟨(FrameOrganizer.init maxRtpFrameCacheNum).2, Demux.init⟩

/-- The call of `handleRtpFrame` for `frame` returns, and leaves `d'`. -/
def Demux.Handles (env : Env) (d : Demux) (frame : Delivery) (d' : Demux) : Prop :=
  let d0 := d.beginFrame (frame.packets.map fun i => i.pRtpMsgBlock.block)
  ∃ k, (∀ j < k, ¬ Demux.Done ((Demux.dealStep env)^[j] d0)) ∧
    Demux.Done ((Demux.dealStep env)^[k] d0) ∧ d' = (Demux.dealStep env)^[k] d0

/-- The frames that a call of `insertRtpPacket` hands over, one after the other. -/
inductive Demux.HandlesAll (env : Env) : Demux → List Delivery → Demux → Prop
  | nil (d : Demux) : HandlesAll env d [] d
  | cons {d d' d'' : Demux} {f : Delivery} {fs : List Delivery} :
      d.Handles env f d' → HandlesAll env d' fs d'' → HandlesAll env d (f :: fs) d''

/-- `CStreamPsMediaProcessorSet::Send` of `b` returns, and gives `out` to the processors. -/
structure PsConverter.Sends (env : Env) (c : PsConverter) (b : MsgBlock) (out : List MsgBlock)
    (c' : PsConverter) : Prop where
  organizer : c'.rtpFrameOrganizer = (c.rtpFrameOrganizer.insertRtpPacket b).1
  handles : Demux.HandlesAll env c.demux (c.rtpFrameOrganizer.insertRtpPacket b).2.delivered c'.demux
  sent : c'.demux.sent = c.demux.sent ++ out

/-- `Send` of a set: every processor in the list gets `out`. -/
def ProcessorSet.Sends (env : Env) (s : ProcessorSet PsConverter) (b : MsgBlock)
    (out : List MsgBlock) (s' : ProcessorSet PsConverter) : Prop :=
  match s.converter with
  | none => out = [b] ∧ s' = s
  | some c => ∃ c', c.Sends env b out c' ∧ s' = { s with converter := some c' }

/-- A thread processes a message; there is memory for a new set. -/
inductive Processes (env : Env) : ExchangeMap PsConverter → TransmitPacket MsgBlock →
    ExchangeMap PsConverter → Prop
  | add (m : ExchangeMap PsConverter) (id : UInt64) (p : Nat) (recv send : MediaTransType) :
      Processes env m ⟨id, .addSession p recv send⟩
        (processAddSession PsConverter.new true m id p recv send).1
  | del (m : ExchangeMap PsConverter) (id : UInt64) (p : Nat) :
      Processes env m ⟨id, .delSession p⟩ (processDelSession m id p).1
  | unsupported (m : ExchangeMap PsConverter) (id : UInt64) : Processes env m ⟨id, .unsupported⟩ m
  | noSet (m : ExchangeMap PsConverter) (id : UInt64) (b : MsgBlock) :
      m id = none → Processes env m ⟨id, .mediaData b⟩ m
  | media (m : ExchangeMap PsConverter) (id : UInt64) (b : MsgBlock) (out : List MsgBlock)
      (s s' : ProcessorSet PsConverter) : m id = some s → s.Sends env b out s' →
      Processes env m ⟨id, .mediaData b⟩ (Function.update m id (some s'))

/-- The messages of a run, from the empty map. -/
inductive Processed (env : Env) : List (TransmitPacket MsgBlock) → ExchangeMap PsConverter → Prop
  | nil : Processed env [] fun _ => none
  | snoc {pkts : List (TransmitPacket MsgBlock)} {pkt : TransmitPacket MsgBlock}
      {m m' : ExchangeMap PsConverter} : Processed env pkts m → Processes env m pkt m' →
      Processed env (pkts ++ [pkt]) m'

/-! ## Registrations -/

/-- A processor wants PS turned into RTP. -/
def wantsRtp (unRecvTranType unSendTranType : MediaTransType) : Bool :=
  unRecvTranType = .ps ∧ unSendTranType = .rtp

/-- Who is registered for a stream, each with what it wants; what the first of them wanted; and the
media that came since. -/
structure Registration where
  processors : List (Nat × Bool)
  first : Bool
  media : List MsgBlock

namespace Registration

/-- The addresses of the processors. -/
def addresses (g : Registration) : List Nat := g.processors.map Prod.fst

/-- A message of the stream. -/
def after : Option Registration → PacketBody MsgBlock → Option Registration
  | none, .addSession p recv send => some ⟨[(p, wantsRtp recv send)], wantsRtp recv send, []⟩
  | none, _ => none
  | some g, .addSession p recv send =>
    if p ∈ g.addresses then some g
    else some { g with processors := g.processors ++ [(p, wantsRtp recv send)] }
  | some g, .delSession p =>
    let rest := g.processors.filter (·.1 ≠ p)
    if rest.isEmpty then none else some { g with processors := rest }
  | some g, .mediaData b => some { g with media := g.media ++ [b] }
  | some g, .unsupported => some g

/-- The registration of stream `id` behind the messages `pkts`. -/
def of (id : UInt64) (pkts : List (TransmitPacket MsgBlock)) : Option Registration :=
  pkts.foldl (fun g pkt => if pkt.puStreamId = id then after g pkt.body else g) none

theorem of_snoc (id : UInt64) (pkts : List (TransmitPacket MsgBlock)) (pkt : TransmitPacket MsgBlock) :
    of id (pkts ++ [pkt]) = if pkt.puStreamId = id then after (of id pkts) pkt.body else of id pkts := by
  simp [of]

end Registration

/-! ## What the processors receive -/

/-- Processor `p` of stream `id` receives `out` for the media `bs`. -/
def Receives (env : Env) (m : ExchangeMap PsConverter) (id : UInt64) (p : Nat) (bs out : List MsgBlock) :
    Prop :=
  ∃ s, m id = some s ∧ p ∈ s.processList ∧ ∃ s', Run.Trace (ProcessorSet.Sends env) s bs out s'

/-- `out` is what a demultiplexer that had `past` makes of `bs`. -/
def IsDemuxed (env : Env) (past bs out : List MsgBlock) : Prop :=
  ∃ outs c c', Run.Trace (PsConverter.Sends env) .new past outs c ∧
    Run.Trace (PsConverter.Sends env) c bs out c'

/-- Whatever media comes, a processor that wants RTP receives what the demultiplexer makes of it,
and the others receive it unchanged. -/
def KindOnly (env : Env) (m : ExchangeMap PsConverter) (id : UInt64) (g : Registration) : Prop :=
  ∀ x ∈ g.processors, ∀ bs out, Receives env m id x.1 bs out →
    if x.2 then IsDemuxed env g.media bs out else out = bs

/-- The set of a stream as the registration says. -/
structure SetOf (env : Env) (g : Registration) (s : ProcessorSet PsConverter) : Prop where
  processList : s.processList = g.addresses
  nodup : g.addresses.Nodup
  kind : s.converter.isSome = g.first
  converter : ∀ c, s.converter = some c →
    ∃ outs, Run.Trace (PsConverter.Sends env) .new g.media outs c

/-- The map and the registration of a stream agree. -/
def Agrees (env : Env) : Option Registration → Option (ProcessorSet PsConverter) → Prop
  | none, none => True
  | some g, some s => SetOf env g s
  | _, _ => False

section Agrees

variable {env : Env} {g : Registration} {s s' : ProcessorSet PsConverter} {m m' : ExchangeMap PsConverter}
  {id : UInt64} {p : Nat} {b : MsgBlock} {out : List MsgBlock}

theorem findSet_none (hm : m id = none) (recv send : MediaTransType) :
    findSet PsConverter.new true m id recv send = some (newSet .new recv send) := by
  simp [findSet, hm]

theorem findSet_some (hm : m id = some s) (recv send : MediaTransType) :
    findSet PsConverter.new true m id recv send = some s := by
  simp [findSet, hm]

/-- The set that is made for a processor. -/
theorem setOf_new (env : Env) (p : Nat) (recv send : MediaTransType) :
    SetOf env ⟨[(p, wantsRtp recv send)], wantsRtp recv send, []⟩
      { newSet PsConverter.new recv send with processList := [p] } := by
  refine ⟨rfl, List.nodup_singleton p, ?_, fun c hc => ⟨[], ?_⟩⟩
  · unfold newSet wantsRtp
    by_cases h : recv = .ps ∧ send = .rtp <;> simp [h]
  · have hc' : (newSet PsConverter.new recv send).converter = some c := hc
    obtain rfl : PsConverter.new = c := by
      unfold newSet at hc'
      by_cases h : recv = .ps ∧ send = .rtp
      · simpa [h] using hc'
      · simp [h] at hc'
    exact .nil _

/-- A processor is added to the set. -/
theorem SetOf.add (h : SetOf env g s) (hp : p ∉ g.addresses) (want : Bool) :
    SetOf env { g with processors := g.processors ++ [(p, want)] }
      { s with processList := s.processList ++ [p] } := by
  have haddr : (g.processors ++ [(p, want)]).map Prod.fst = g.addresses ++ [p] := by
    simp [Registration.addresses]
  refine ⟨?_, ?_, h.kind, h.converter⟩
  · simp only [Registration.addresses, haddr, h.processList]
  · rw [Registration.addresses, haddr]
    exact List.nodup_append_comm.mp (List.nodup_cons.mpr ⟨hp, h.nodup⟩)

/-- A processor is taken out of the set. -/
theorem SetOf.del (h : SetOf env g s) (p : Nat) :
    SetOf env { g with processors := g.processors.filter (·.1 ≠ p) }
      { s with processList := s.processList.erase p } := by
  have haddr : (g.processors.filter (·.1 ≠ p)).map Prod.fst = g.addresses.filter (· ≠ p) := by
    simp [Registration.addresses, List.filter_map, Function.comp_def]
  refine ⟨?_, ?_, h.kind, h.converter⟩
  · simp only [Registration.addresses, haddr]
    rw [h.processList, h.nodup.erase_eq_filter]
    exact List.filter_congr fun q _ => by by_cases hq : q = p <;> simp [hq]
  · rw [Registration.addresses, haddr]
    exact h.nodup.filter _

/-- The set sends a block. -/
theorem SetOf.send (h : SetOf env g s) (hs : s.Sends env b out s') :
    SetOf env { g with media := g.media ++ [b] } s' := by
  unfold ProcessorSet.Sends at hs
  split at hs
  · rename_i hnone
    obtain ⟨-, rfl⟩ := hs
    exact ⟨h.processList, h.nodup, h.kind, fun c hc => by simp [hnone] at hc⟩
  · rename_i c hsome
    obtain ⟨c', hc', rfl⟩ := hs
    refine ⟨h.processList, h.nodup, ?_, fun c'' hc'' => ?_⟩
    · rw [← h.kind, hsome]
      rfl
    · obtain ⟨outs, htrace⟩ := h.converter c hsome
      obtain rfl := Option.some.inj hc''
      exact ⟨_, htrace.snoc hc'⟩

/-- There is a set exactly if there is a registration, and they fit. -/
theorem Agrees.some_or_none {g : Option Registration} {o : Option (ProcessorSet PsConverter)}
    (h : Agrees env g o) :
    (g = none ∧ o = none) ∨ ∃ r s, g = some r ∧ o = some s ∧ SetOf env r s := by
  cases g <;> cases o
  · exact .inl ⟨rfl, rfl⟩
  · exact h.elim
  · exact h.elim
  · exact .inr ⟨_, _, rfl, rfl, h⟩

/-- The message that adds a processor. -/
theorem Agrees.add {g : Option Registration} (ha : Agrees env g (m id)) (p : Nat)
    (recv send : MediaTransType) :
    Agrees env (Registration.after g (.addSession p recv send))
      ((processAddSession PsConverter.new true m id p recv send).1 id) := by
  rcases ha.some_or_none with ⟨rfl, hm⟩ | ⟨r, s, rfl, hm, hset⟩
  · simp only [processAddSession, findSet_none hm, Registration.after, Function.update_self]
    exact setOf_new env p recv send
  · simp only [processAddSession, findSet_some hm, Registration.after, Function.update_self,
      ProcessorSet.addMediaProcessor, hset.processList]
    by_cases hp : p ∈ r.addresses
    · rw [if_pos hp, if_pos hp]
      exact hset
    · rw [if_neg hp, if_neg hp, ← hset.processList]
      exact hset.add hp _

/-- The message that takes a processor away. -/
theorem Agrees.del {g : Option Registration} (ha : Agrees env g (m id)) (p : Nat) :
    Agrees env (Registration.after g (.delSession p)) ((processDelSession m id p).1 id) := by
  rcases ha.some_or_none with ⟨rfl, hm⟩ | ⟨r, s, rfl, hm, hset⟩
  · simp [processDelSession, hm, Registration.after, Agrees]
  · have hdel := hset.del p
    have hempty : (s.processList.erase p).isEmpty = (r.processors.filter (·.1 ≠ p)).isEmpty := by
      have := congrArg List.isEmpty hdel.processList
      simpa [Registration.addresses] using this
    simp only [processDelSession, hm, Registration.after, Function.update_self,
      ProcessorSet.delMediaProcessor, hempty]
    split
    · trivial
    · exact hdel

/-- A message of the stream. -/
theorem Agrees.after {pkt : TransmitPacket MsgBlock} (h : Processes env m pkt m')
    {g : Option Registration} (ha : Agrees env g (m pkt.puStreamId)) :
    Agrees env (Registration.after g pkt.body) (m' pkt.puStreamId) := by
  cases h with
  | add id p recv send => exact ha.add p recv send
  | del id p => exact ha.del p
  | unsupported id =>
    cases g with
    | none => exact ha
    | some g => exact ha
  | noSet id b hm =>
    rcases ha.some_or_none with ⟨rfl, hnone⟩ | ⟨r, s, rfl, hsome, hset⟩
    · exact ha
    · simp [hm] at hsome
  | media id b out s s' hm hs =>
    rcases ha.some_or_none with ⟨rfl, hnone⟩ | ⟨r, s1, rfl, hsome, hset⟩
    · simp [hm] at hnone
    · obtain rfl : s = s1 := Option.some.inj (hm.symm.trans hsome)
      rw [Function.update_self]
      exact hset.send hs

/-- A message of another stream. -/
theorem Processes.other {pkt : TransmitPacket MsgBlock} (h : Processes env m pkt m')
    (hid : id ≠ pkt.puStreamId) : m' id = m id := by
  cases h with
  | add id' p recv send =>
    unfold processAddSession
    split
    · rfl
    · exact Function.update_of_ne hid _ _
  | del id' p =>
    unfold processDelSession
    split
    · rfl
    · exact Function.update_of_ne hid _ _
  | unsupported => rfl
  | noSet => rfl
  | media => exact Function.update_of_ne hid _ _

/-- After every run the sets are as the registrations say. -/
theorem Processed.agrees {pkts : List (TransmitPacket MsgBlock)} (h : Processed env pkts m)
    (id : UInt64) : Agrees env (Registration.of id pkts) (m id) := by
  induction h with
  | nil => trivial
  | snoc _ hstep ih =>
    rename_i pkts pkt m m'
    rw [Registration.of_snoc]
    split
    · rename_i hid
      subst hid
      exact Agrees.after hstep ih
    · rename_i hid
      rw [hstep.other (Ne.symm hid)]
      exact ih

/-! ## What a set sends -/

/-- A plain set sends the media on. -/
theorem trace_plain {bs : List MsgBlock} (h : Run.Trace (ProcessorSet.Sends env) s bs out s')
    (hs : s.converter = none) : out = bs := by
  induction h with
  | nil => rfl
  | cons hstep _ ih =>
    rw [ProcessorSet.Sends, hs] at hstep
    obtain ⟨rfl, rfl⟩ := hstep
    rw [ih hs]
    rfl

/-- The other set sends what its converter makes. -/
theorem trace_converter {bs : List MsgBlock} (h : Run.Trace (ProcessorSet.Sends env) s bs out s')
    {c : PsConverter} (hs : s.converter = some c) :
    ∃ c', Run.Trace (PsConverter.Sends env) c bs out c' := by
  have hstep : ∀ (s : ProcessorSet PsConverter) (c : PsConverter) b out s', s.converter = some c →
      s.Sends env b out s' → ∃ c', c.Sends env b out c' ∧ s'.converter = some c' := by
    intro s c b out s' hc h
    rw [ProcessorSet.Sends, hc] at h
    obtain ⟨c', hc', rfl⟩ := h
    exact ⟨c', hc', rfl⟩
  obtain ⟨c', hc', -⟩ := h.map (I := fun s c => s.converter = some c) hstep hs
  exact ⟨c', hc'⟩

/-- A block without bytes, which is no RTP packet. -/
def MsgBlock.noBytes : MsgBlock :=
  ⟨fun _ => 0, MsgBlock.blockSize, MsgBlock.transmitHead, MsgBlock.transmitHead⟩

theorem insertRtpPacket_noBytes (o : FrameOrganizer) :
    o.insertRtpPacket .noBytes = (o, ⟨.fail, [], [], []⟩) := by
  have hlen : MsgBlock.noBytes.length32 = 0 := by decide
  simp [FrameOrganizer.insertRtpPacket, RtpPacket.parsePacket, hlen, RtpPacket.fixedHeader]

theorem HandlesAll.of_nil {d d' : Demux} (h : Demux.HandlesAll env d [] d') : d' = d := by
  cases h
  rfl

/-- Without a frame for the demultiplexer nothing is sent. -/
theorem PsConverter.Sends.out_nil {c c' : PsConverter} (h : c.Sends env b out c')
    (hd : (c.rtpFrameOrganizer.insertRtpPacket b).2.delivered = []) : out = [] := by
  have hh := h.handles
  rw [hd] at hh
  have hsent := h.sent
  rw [HandlesAll.of_nil hh] at hsent
  simpa using hsent

theorem sends_noBytes_self (c : PsConverter) : c.Sends env .noBytes [] c where
  organizer := by rw [insertRtpPacket_noBytes]
  handles := by
    rw [insertRtpPacket_noBytes]
    exact .nil _
  sent := by simp

/-- **Kinds.** After every run of messages, for a stream with processors: every processor receives
what it asked for, whatever media comes, if and only if all of them are of the kind of the one that
the set was made for. -/
theorem kindOnly_iff {pkts : List (TransmitPacket MsgBlock)} (h : Processed env pkts m)
    (hg : Registration.of id pkts = some g) :
    KindOnly env m id g ↔ ∀ x ∈ g.processors, x.2 = g.first := by
  have ha := h.agrees id
  rw [hg] at ha
  obtain ⟨hno, -⟩ | ⟨g, s, ⟨⟩, hm, hset⟩ := ha.some_or_none
  · cases hno
  have hmem : ∀ x ∈ g.processors, x.1 ∈ s.processList := by
    intro x hx
    rw [hset.processList]
    exact List.mem_map_of_mem hx
  refine ⟨fun hk x hx => ?_, fun hall x hx bs out hrec => ?_⟩
  · -- a block that is no RTP packet tells the two kinds of set apart
    cases hc : s.converter with
    | none =>
      have hsend : s.Sends env .noBytes [.noBytes] s := by
        rw [ProcessorSet.Sends, hc]
        exact ⟨rfl, rfl⟩
      have hx2 := hk x hx [.noBytes] [.noBytes]
        ⟨s, hm, hmem x hx, s, .singleton hsend⟩
      rw [← hset.kind, hc]
      cases hx2t : x.2 with
      | false => rfl
      | true =>
        rw [hx2t] at hx2
        obtain ⟨outs, c, c', -, ht⟩ := hx2
        have := ht.of_singleton.out_nil (by rw [insertRtpPacket_noBytes])
        cases this
    | some c =>
      have hsend : s.Sends env .noBytes [] s := by
        rw [ProcessorSet.Sends, hc]
        exact ⟨c, sends_noBytes_self c, by rw [← hc]⟩
      have hx2 := hk x hx [.noBytes] [] ⟨s, hm, hmem x hx, s, .singleton hsend⟩
      rw [← hset.kind, hc]
      cases hx2t : x.2 with
      | true => rfl
      | false =>
        rw [hx2t] at hx2
        cases hx2
  · obtain ⟨s1, hm1, -, s', ht⟩ := hrec
    obtain rfl : s = s1 := Option.some.inj (hm.symm.trans hm1)
    rw [hall x hx]
    cases hc : s.converter with
    | none =>
      rw [← hset.kind, hc]
      exact trace_plain ht hc
    | some c =>
      rw [← hset.kind, hc]
      obtain ⟨outs, hpast⟩ := hset.converter c hc
      obtain ⟨c', hc'⟩ := trace_converter ht hc
      exact ⟨outs, c, c', hpast, hc'⟩

end Agrees

/-! ## Two processors -/

/-- Two messages that register processors 7 and 8 for stream 1, which comes as PS. -/
def addTwo (first second : MediaTransType) : List (TransmitPacket MsgBlock) :=
  [⟨1, .addSession 7 .ps first⟩, ⟨1, .addSession 8 .ps second⟩]

/-- The map behind them. -/
def addedTwo (first second : MediaTransType) : ExchangeMap PsConverter :=
  (processAddSession PsConverter.new true
    (processAddSession PsConverter.new true (fun _ => none) 1 7 .ps first).1 1 8 .ps second).1

theorem processed_addTwo (env : Env) (first second : MediaTransType) :
    Processed env (addTwo first second) (addedTwo first second) :=
  .snoc (.snoc .nil (.add _ _ _ _ _)) (.add _ _ _ _ _)

theorem kindOnly_addTwo :
    KindOnly .zero (addedTwo .rtp .rtp) 1 ⟨[(7, true), (8, true)], true, []⟩ :=
  (kindOnly_iff (processed_addTwo .zero .rtp .rtp) rfl).mpr (by simp)

/-- An RTP packet that does not end its frame. -/
def openPacket : MsgBlock := RtpPacket.received ⟨96, false, 1, 90000, 5⟩ [0, 0, 1, 0xBA]

/-- Processor 7 takes the stream as it is, and processor 8, which wants RTP, receives the same. -/
theorem not_kindOnly_plainFirst :
    Registration.of 1 (addTwo .ps .rtp) = some ⟨[(7, false), (8, true)], false, []⟩ ∧
      Receives .zero (addedTwo .ps .rtp) 1 8 [openPacket] [openPacket] ∧
      ¬ IsDemuxed .zero [] [openPacket] [openPacket] ∧
      ¬ KindOnly .zero (addedTwo .ps .rtp) 1 ⟨[(7, false), (8, true)], false, []⟩ := by
  have hrec : Receives .zero (addedTwo .ps .rtp) 1 8 [openPacket] [openPacket] :=
    ⟨⟨none, [7, 8]⟩, rfl, by simp, ⟨none, [7, 8]⟩, .singleton ⟨rfl, rfl⟩⟩
  have hnot : ¬ IsDemuxed .zero [] [openPacket] [openPacket] := by
    rintro ⟨outs, c, c', hpast, ht⟩
    obtain ⟨-, rfl⟩ := hpast.of_nil
    -- the demultiplexer keeps the packet until its frame is complete
    have hdelivered : (PsConverter.new.rtpFrameOrganizer.insertRtpPacket openPacket).2.delivered = [] :=
      List.isEmpty_iff.mp (by decide)
    have := ht.of_singleton.out_nil hdelivered
    cases this
  exact ⟨rfl, hrec, hnot, fun hk => hnot (by simpa using hk (8, true) (by simp) _ _ hrec)⟩

end AllCamera
