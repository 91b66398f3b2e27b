import AllCamera.Stream.MediaPort

/-!
# The pairs of ports

Whatever the ranges, the sockets that cannot be opened and the calls are: the two maps share no pair
and have the pairs that were opened, each of which is an even port and the next one, both of them
configured; and a pair goes out again only when it has come back (`run_pairs_sound`).

* `Inv`: the invariant; `Inv.insert` for a pair that is opened, `Inv.step` for a call.
* `portList_eq_none_iff`: the loop over the ranges ends, but for one that has all ports.
-/

namespace AllCamera

open scoped UIntOrder

/-! ## The ports of the ranges -/

/-- A configured port. -/
def InRanges (ranges : List PortRange) (port : UInt16) : Prop :=
  ∃ range ∈ ranges, range.usStartPort ≤ port ∧ port ≤ range.usEndPort

theorem mem_rangeLoop {range : PortRange} {fuel : Nat} {p q : UInt16} {list : List UInt16}
    (h : rangeLoop range fuel p = some list) (hq : q ∈ list) :
    range.usStartPort ≤ q ∧ q ≤ range.usEndPort := by
  induction fuel generalizing p list with
  | zero => cases h
  | succ fuel ih =>
    rw [rangeLoop] at h
    split at h
    · rename_i hin
      obtain ⟨rest, hrest, rfl⟩ := Option.map_eq_some_iff.mp h
      rcases List.mem_cons.mp hq with rfl | hq
      · exact ⟨hin.2, hin.1⟩
      · exact ih hrest hq
    · obtain rfl := Option.some.inj h
      cases hq

theorem inRanges_of_mem {ranges : List PortRange} {list : List UInt16} {port : UInt16}
    {fuel : Nat} (h : portList fuel ranges = some list) (hport : port ∈ list) : InRanges ranges port := by
  induction ranges generalizing list with
  | nil =>
    obtain rfl := Option.some.inj h
    cases hport
  | cons range ranges ih =>
    rw [portList] at h
    split at h
    · rename_i first rest hfirst hrest
      obtain rfl := Option.some.inj h
      rcases List.mem_append.mp hport with hport | hport
      · exact ⟨range, List.mem_cons_self, mem_rangeLoop hfirst hport⟩
      · obtain ⟨range', hmem, hin⟩ := ih hrest hport
        exact ⟨range', List.mem_cons_of_mem range hmem, hin⟩
    · cases h

/-- The loop ends when it has gone beyond the range, or around. -/
theorem rangeLoop_returns {range : PortRange} {fuel : Nat} {p : UInt16}
    (hfull : ¬ (range.usStartPort = 0 ∧ range.usEndPort = 65535))
    (hfuel : range.usEndPort.toNat + 1 - p.toNat < fuel) :
    ∃ list, rangeLoop range fuel p = some list := by
  induction fuel generalizing p with
  | zero => omega
  | succ fuel ih =>
    rw [rangeLoop]
    split
    · rename_i hin
      have hle : p.toNat ≤ range.usEndPort.toNat := UInt16.le_iff_toNat_le.mp hin.1
      by_cases hlast : p.toNat + 1 < 2 ^ 16
      · have hnext : (p + 1).toNat = p.toNat + 1 := by
          rw [UInt16.toNat_add, UInt16.toNat_one]
          omega
        obtain ⟨list, hlist⟩ := ih (p := p + 1) (by omega)
        exact ⟨p :: list, by rw [hlist]; rfl⟩
      · -- from the last port the counter goes to 0
        have hp : p = 65535 := UInt16.toNat_inj.mp (by
          have := p.toNat_lt
          change p.toNat = 65535
          omega)
        have hend : range.usEndPort = 65535 := UInt16.toNat_inj.mp (by
          have := range.usEndPort.toNat_lt
          change range.usEndPort.toNat = 65535
          omega)
        have hstart : ¬ range.usStartPort ≤ 0 := by
          intro hle
          refine hfull ⟨UInt16.toNat_inj.mp ?_, hend⟩
          have := UInt16.le_iff_toNat_le.mp hle
          change range.usStartPort.toNat = 0
          rw [UInt16.toNat_zero] at this
          omega
        obtain ⟨fuel, rfl⟩ : ∃ k, fuel = k + 1 := ⟨fuel - 1, by omega⟩
        refine ⟨[p], ?_⟩
        rw [rangeLoop, if_neg (by rw [hp]; exact fun h => hstart h.2)]
        rfl
    · exact ⟨[], rfl⟩

/-- The loop over all ports never ends. -/
theorem rangeLoop_full (fuel : Nat) (p : UInt16) : rangeLoop ⟨0, 65535⟩ fuel p = none := by
  induction fuel generalizing p with
  | zero => rfl
  | succ fuel ih =>
    have hin : p ≤ 65535 ∧ 0 ≤ p := by
      constructor
      · have := p.toNat_lt
        refine UInt16.le_iff_toNat_le.mpr ?_
        change p.toNat ≤ 65535
        omega
      · exact UInt16.le_iff_toNat_le.mpr (Nat.zero_le _)
    rw [rangeLoop, if_pos hin, ih]
    rfl

/-- The loops of `init` do not end, however long they run, exactly if a range has all ports. -/
theorem portList_eq_none_iff {fuel : Nat} (hfuel : 2 ^ 16 < fuel) (ranges : List PortRange) :
    portList fuel ranges = none ↔ ⟨0, 65535⟩ ∈ ranges := by
  induction ranges with
  | nil => simp [portList]
  | cons range ranges ih =>
    rw [List.mem_cons, ← ih, portList]
    by_cases hfull : range.usStartPort = 0 ∧ range.usEndPort = 65535
    · obtain ⟨start, stop⟩ := range
      obtain ⟨rfl, rfl⟩ := hfull
      simp [rangeLoop_full]
    · have hne : (⟨0, 65535⟩ : PortRange) ≠ range := by
        rintro rfl
        exact hfull ⟨rfl, rfl⟩
      have hfuel : range.usEndPort.toNat + 1 - range.usStartPort.toNat < fuel := by
        have := range.usEndPort.toNat_lt
        omega
      obtain ⟨list, hlist⟩ := rangeLoop_returns hfull hfuel
      rw [hlist]
      cases hrest : portList fuel ranges with
      | none => simp
      | some rest => simp [hne]

/-! ## The maps -/

namespace PortSystem

open AllCamera.Run AllCamera.History

/-- An even port and the next one, both of them configured. -/
def IsPair (ranges : List PortRange) (udpInfo : RtpUdpPortInfo) : Prop :=
  udpInfo.pRtpHandle.localPort % 2 = 0 ∧
    udpInfo.pRtcpHandle.localPort = udpInfo.pRtpHandle.localPort + 1 ∧
    InRanges ranges udpInfo.pRtpHandle.localPort ∧ InRanges ranges udpInfo.pRtcpHandle.localPort

/-- The maps and what was handed out are right. -/
structure Sound (ranges : List PortRange) (s : PortSystem) : Prop where
  disjoint : ∀ e ∈ s.mediaPort.unUsedUdpPortMap.entries, ∀ e' ∈ s.mediaPort.allocUdpPortMap.entries,
    e.1 ≠ e'.1 ∧ e.2 ≠ e'.2
  /-- Together the maps have the pairs that were opened, each under its even port. -/
  opened : (s.mediaPort.unUsedUdpPortMap.entries ++ s.mediaPort.allocUdpPortMap.entries).Perm
    (s.opened.map fun udpInfo => (udpInfo.pRtpHandle.localPort, udpInfo))
  pairs : ∀ udpInfo ∈ s.opened, IsPair ranges udpInfo
  /-- A pair that is handed out again has come back in between. -/
  handedOut : ∀ udpInfo post mid pre,
    s.history = post ++ .out udpInfo :: (mid ++ .out udpInfo :: pre) → .back udpInfo ∈ mid

/-- The key of a pair. -/
def entry (udpInfo : RtpUdpPortInfo) : UInt16 × RtpUdpPortInfo :=
  (udpInfo.pRtpHandle.localPort, udpInfo)

/-- The invariant. -/
structure Inv (ranges : List PortRange) (s : PortSystem) : Prop where
  opened : (s.mediaPort.unUsedUdpPortMap.entries ++ s.mediaPort.allocUdpPortMap.entries).Perm
    (s.opened.map entry)
  ports : ((s.opened.map entry).map Prod.fst).Nodup
  pairs : ∀ udpInfo ∈ s.opened, IsPair ranges udpInfo
  bound : ∀ udpInfo ∈ s.opened, udpInfo.pRtcpHandle.localPort ∈ s.bound
  out : ∀ udpInfo, udpInfo ∈ outs s.history ↔ entry udpInfo ∈ s.mediaPort.allocUdpPortMap.entries
  alternates : Alternates s.history

variable {ranges : List PortRange} {s : PortSystem} {udpInfo : RtpUdpPortInfo} {port : UInt16}

theorem inv_empty (ranges : List PortRange) : Inv ranges empty where
  opened := .refl _
  ports := .nil
  pairs udpInfo h := by cases h
  bound udpInfo h := by cases h
  out udpInfo := by simp [empty, outs, SortedMap.empty]
  alternates := trivial

/-- The keys of the two maps are different ports. -/
theorem Inv.keys (h : s.Inv ranges) :
    ((s.mediaPort.unUsedUdpPortMap.entries ++ s.mediaPort.allocUdpPortMap.entries).map
      Prod.fst).Nodup :=
  (h.opened.map _).nodup_iff.mpr h.ports

/-- An entry is that of its pair. -/
theorem Inv.eq_entry (h : s.Inv ranges) (hmem : (port, udpInfo) ∈
    s.mediaPort.unUsedUdpPortMap.entries ++ s.mediaPort.allocUdpPortMap.entries) :
    (port, udpInfo) = entry udpInfo := by
  obtain ⟨udpInfo', -, heq⟩ := List.mem_map.mp (h.opened.mem_iff.mp hmem)
  obtain rfl : udpInfo' = udpInfo := (Prod.mk.inj heq).2
  exact heq.symm

theorem Inv.sound (h : s.Inv ranges) : s.Sound ranges where
  disjoint e he e' he' := by
    have hkeys := h.keys
    rw [List.map_append, List.nodup_append] at hkeys
    have hne : e.1 ≠ e'.1 :=
      hkeys.2.2 e.1 (List.mem_map_of_mem he) e'.1 (List.mem_map_of_mem he')
    refine ⟨hne, fun heq => hne ?_⟩
    have hfirst := h.eq_entry (List.mem_append_left _ he)
    have hsecond := h.eq_entry (List.mem_append_right _ he')
    exact (congrArg Prod.fst hfirst).trans (heq ▸ congrArg Prod.fst hsecond.symm)
  opened := h.opened
  pairs := h.pairs
  handedOut udpInfo post mid pre hhistory := by
    have halt := h.alternates
    rw [hhistory] at halt
    exact halt.back_between

/-! ## The start -/

theorem succ_ne_zero (h : port % 2 = 0) : port + 1 ≠ 0 := by
  intro hzero
  have hmod := congrArg UInt16.toNat h
  have hsum := congrArg UInt16.toNat hzero
  rw [UInt16.toNat_mod] at hmod
  rw [UInt16.toNat_add] at hsum
  have := port.toNat_lt
  change port.toNat % 2 = 0 at hmod
  change (port.toNat + 1) % 2 ^ 16 = 0 at hsum
  omega

/-- The RTCP port of a pair that is open can not be bound again. -/
theorem Inv.new_port (h : s.Inv ranges) {bound : List UInt16} {opens : Bool}
    (hsub : s.bound ⊆ bound) (heven : port % 2 = 0)
    (hopen : (openHandle bound opens (port + 1)).isSome) :
    port ∉ (s.opened.map entry).map Prod.fst := by
  intro hmem
  rw [List.map_map] at hmem
  obtain ⟨udpInfo, hopened, rfl⟩ := List.mem_map.mp hmem
  have hpair := (h.pairs udpInfo hopened).2.1
  have hbound := hsub (h.bound udpInfo hopened)
  rw [hpair] at hbound
  rw [openHandle, if_neg] at hopen
  · cases hopen
  · rintro ⟨-, hzero | hfree⟩
    · exact succ_ne_zero heven hzero
    · exact hfree hbound

/-- A pair is opened. -/
theorem Inv.insert (h : s.Inv ranges) (udpInfo : RtpUdpPortInfo) {bound : List UInt16}
    (hsub : s.bound ⊆ bound)
    (hpair : IsPair ranges udpInfo) (hbound : udpInfo.pRtcpHandle.localPort ∈ bound)
    (hnew : udpInfo.pRtpHandle.localPort ∉ (s.opened.map entry).map Prod.fst) :
    Inv ranges { s with
      mediaPort :=
        { s.mediaPort with
          unUsedUdpPortMap :=
            s.mediaPort.unUsedUdpPortMap.insert udpInfo.pRtpHandle.localPort udpInfo
          unPortNum := s.mediaPort.unPortNum + 1 }
      bound
      opened := udpInfo :: s.opened } := by
  have hnone : s.mediaPort.unUsedUdpPortMap.find udpInfo.pRtpHandle.localPort = none := by
    rw [SortedMap.find_eq_none_iff]
    intro hmem
    refine hnew ((h.opened.map Prod.fst).mem_iff.mp ?_)
    rw [List.map_append]
    exact List.mem_append_left _ hmem
  refine ⟨?_, ?_, ?_, ?_, h.out, h.alternates⟩
  · exact ((SortedMap.perm_insert hnone udpInfo).append_right _).trans (h.opened.cons _)
  · exact List.nodup_cons.mpr ⟨hnew, h.ports⟩
  · exact List.forall_mem_cons.mpr ⟨hpair, h.pairs⟩
  · exact List.forall_mem_cons.mpr ⟨hbound, fun udpInfo hopened => hsub (h.bound udpInfo hopened)⟩

theorem Inv.createPair (h : s.Inv ranges) {list : List UInt16}
    (hlist : ∀ p ∈ list, InRanges ranges p) {attempt : Attempt} {n : Nat} (hport : port ∈ list)
    {s' : PortSystem} (hs : createPair list attempt n port s = some s') : s'.Inv ranges := by
  simp only [PortSystem.createPair] at hs
  split at hs
  · exact Option.some.inj hs ▸ h
  split at hs
  · exact Option.some.inj hs ▸ h
  split at hs
  · cases hs
  rename_i heven hnext _
  have heven : port % 2 = 0 := not_not.mp heven
  split at hs
  · exact Option.some.inj hs ▸ h
  rename_i bound hrtp
  split at hs
  · exact Option.some.inj hs ▸ h
  rename_i bound' hrtcp
  obtain rfl := Option.some.inj hs
  have hrtp : port :: s.bound = bound := by
    rw [openHandle] at hrtp
    split at hrtp
    · exact Option.some.inj hrtp
    · cases hrtp
  have hopens : (openHandle bound attempt.rtcpOpens (port + 1)).isSome := by
    rw [hrtcp]
    rfl
  have hnew := h.new_port (hrtp ▸ List.subset_cons_self _ _) heven hopens
  have hrtcp : (port + 1) :: bound = bound' := by
    rw [openHandle] at hrtcp
    split at hrtcp
    · exact Option.some.inj hrtcp
    · cases hrtcp
  refine h.insert ⟨⟨2 * n, port⟩, ⟨2 * n + 1, port + 1⟩⟩ ?_ ?_ ?_ hnew
  · rw [← hrtcp, ← hrtp]
    exact fun p hp => List.mem_cons_of_mem _ (List.mem_cons_of_mem _ hp)
  · exact ⟨heven, rfl, hlist port hport, hlist (port + 1) (not_not.mp hnext)⟩
  · rw [← hrtcp]
    exact List.mem_cons_self

theorem Inv.createRtpUdpPort (h : s.Inv ranges) {list rest : List UInt16}
    (hlist : ∀ p ∈ list, InRanges ranges p) (attempts : Nat → Attempt) (n : Nat)
    (hrest : rest ⊆ list) : (createRtpUdpPort list attempts n rest s).Inv ranges := by
  induction rest generalizing n s with
  | nil => exact h
  | cons port rest ih =>
    rw [PortSystem.createRtpUdpPort]
    split
    · exact h
    · rename_i s' hs
      exact ih (h.createPair hlist (hrest List.mem_cons_self) hs) (n + 1)
        fun p hp => hrest (List.mem_cons_of_mem port hp)

theorem inv_start (ranges : List PortRange) (attempts : Nat → Attempt) :
    (start ranges attempts).Inv ranges := by
  rw [start]
  split
  · exact inv_empty ranges
  · rename_i list hlist
    exact (inv_empty ranges).createRtpUdpPort (fun p hp => inRanges_of_mem hlist hp) attempts 0
      (List.Subset.refl list)

/-! ## The calls -/

theorem Inv.alloc (h : s.Inv ranges) : (s.step .allocRtpUdpPort).Inv ranges := by
  rw [PortSystem.step, MediaPort.allocRtpUdpPort]
  cases hentries : s.mediaPort.unUsedUdpPortMap.entries with
  | nil => exact h
  | cons e rest =>
    obtain ⟨port, udpInfo⟩ := e
    have hmem : (port, udpInfo) ∈ s.mediaPort.unUsedUdpPortMap.entries :=
      hentries ▸ List.mem_cons_self
    have hkey := h.eq_entry (List.mem_append_left _ hmem)
    have hkeys := h.keys
    rw [List.map_append, List.nodup_append] at hkeys
    have hnone : s.mediaPort.allocUdpPortMap.find port = none := by
      rw [SortedMap.find_eq_none_iff]
      exact fun hin => hkeys.2.2 port (List.mem_map_of_mem hmem) port hin rfl
    have hinsert := SortedMap.perm_insert hnone udpInfo
    refine ⟨?_, h.ports, h.pairs, h.bound, fun udpInfo' => ?_, ?_⟩
    · refine (hinsert.append_left _).trans (List.perm_middle.trans ?_)
      exact ((SortedMap.perm_erase hmem).symm.append_right _).trans h.opened
    · simp only [Option.toList_some, List.map_cons, List.map_nil, List.cons_append, List.nil_append,
        outs, List.mem_cons, hinsert.mem_iff, h.out, hkey]
      refine or_congr_left ⟨fun heq => heq ▸ rfl, fun heq => (Prod.mk.inj heq).2⟩
    · refine ⟨fun hout => ?_, h.alternates⟩
      have hin := (h.out udpInfo).mp hout
      rw [← hkey] at hin
      exact SortedMap.find_eq_none_iff.mp hnone (List.mem_map_of_mem hin)

theorem Inv.release (h : s.Inv ranges) (pRtpHandle pRtcpHandle : Option UdpHandle) :
    (s.step (.releaseRtpUdpPort pRtpHandle pRtcpHandle)).Inv ranges := by
  cases pRtpHandle with
  | none => exact h
  | some rtp =>
  cases pRtcpHandle with
  | none => exact h
  | some rtcp =>
    simp only [PortSystem.step, MediaPort.releaseRtpUdpPort]
    cases hfind : s.mediaPort.allocUdpPortMap.find rtp.localPort with
    | none => exact h
    | some udpInfo =>
      have hmem := SortedMap.find_eq_some_iff.mp hfind
      have hkey := h.eq_entry (List.mem_append_right _ hmem)
      have hkeys := h.keys
      rw [List.map_append, List.nodup_append] at hkeys
      have hnone : s.mediaPort.unUsedUdpPortMap.find rtp.localPort = none := by
        rw [SortedMap.find_eq_none_iff]
        exact fun hin => hkeys.2.2 _ hin _ (List.mem_map_of_mem hmem) rfl
      have herase := SortedMap.perm_erase hmem
      refine ⟨?_, h.ports, h.pairs, h.bound, fun udpInfo' => ?_, ?_⟩
      · refine ((SortedMap.perm_insert hnone udpInfo).append_right _).trans ?_
        exact (List.perm_middle.symm.trans (herase.symm.append_left _)).trans h.opened
      · simp only [Option.toList_some, List.map_cons, List.map_nil, List.cons_append,
          List.nil_append, outs, List.mem_filter, h.out, decide_eq_true_eq]
        change _ ↔ entry udpInfo' ∈ Assoc.erase _ rtp.localPort
        rw [Assoc.mem_erase]
        refine and_congr_right fun hin => not_congr ⟨fun heq => ?_, fun heq => ?_⟩
        · rw [heq, ← hkey]
        · have hport : entry udpInfo' = (rtp.localPort, udpInfo') := Prod.ext heq rfl
          rw [hport] at hin
          have hsame := SortedMap.find_eq_some_iff.mpr hin
          rw [hfind] at hsame
          exact (Option.some.inj hsame).symm
      · refine ⟨(h.out udpInfo).mpr ?_, h.alternates⟩
        rw [← hkey]
        exact hmem

theorem Inv.step (h : s.Inv ranges) (a : Act) : (s.step a).Inv ranges := by
  cases a with
  | allocRtpUdpPort => exact h.alloc
  | releaseRtpUdpPort pRtpHandle pRtcpHandle => exact h.release pRtpHandle pRtcpHandle

/-- **The pairs of ports are right after every start and every sequence of calls.** -/
theorem run_pairs_sound (ranges : List PortRange) (attempts : Nat → Attempt) (as : List Act) :
    (run PortSystem.step (start ranges attempts) as).Sound ranges :=
  (run_invariant (inv_start ranges attempts) fun _ a h => h.step a).sound

end PortSystem

end AllCamera
