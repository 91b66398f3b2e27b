import AllCamera.Record.IndexResend

/-!
# The indexes that leave the map

An index is to leave the map only by a successful confirmation of its latest end time, or after it was sent
again more than `UNACKED_INDEX_RESEND_TIMES` times, and what is kept is to be of the type
`REPORT_INDEX_TYPE_RECONNECT`. A confirmation is taken whatever its code and its end time are; a later end
time brings its own type with it; and what the timer has found to be aged is deleted even if it has been
replaced since.

* `Departure.Good`, `Kept`; `Proper`.
* `AllNodes`, `NodeOk`, `Sound`.
* `recordPastIndex_kept_iff`, `handleReportConfirm_kept_iff`, `dealIndex_kept_iff`.
* `run_kept_iff`; `not_kept_refused_later`.
-/

namespace AllCamera

open Run
open scoped UIntOrder

/-- A successful confirmation of the latest end time that was reported, or enough resends. -/
def Departure.Good (d : Departure) : Prop :=
  (∃ c ∈ d.confirm, c.respCode = 0 ∧
    ∃ t ∈ d.reported, (∀ u ∈ d.reported, u ≤ t) ∧ c.indexEndTime = timeU32 t) ∨
  unackedIndexResendTimes.toNat < d.resends

namespace IndexResendMgr

variable {s : IndexResendMgr} {key : IndexKey} {node : CacheNode} {m : SortedMap IndexKey (Option CacheNode)}
  {P : IndexKey → CacheNode → Prop}

/-- What holds of all nodes in the map. -/
def AllNodes (P : IndexKey → CacheNode → Prop) (m : SortedMap IndexKey (Option CacheNode)) : Prop :=
  ∀ key node, m.find key = some (some node) → P key node

/-- What is asked of the manager. -/
structure Kept (s : IndexResendMgr) : Prop where
  nodes : AllNodes (fun _ node => node.stIndexInfo.recordReportType = .reconnect) s.indexMap
  departures : ∀ d ∈ s.departures, d.Good

/-- A report does not replace the index of a node, or has the type itself; a confirmation that takes a node
out is a successful one of its end time, or the node was sent again often enough, as is one that the timer
takes out. -/
def Proper (s : IndexResendMgr) : Act → Prop
  | .recordPastIndex index _ _ =>
    ∀ node, s.indexMap.find (keyOf index) = some (some node) → node.stIndexInfo.endTime < index.endTime →
      index.recordReportType = .reconnect
  | .handleReportConfirm c =>
    c.complete = true →
      ∀ node, s.indexMap.find (makeIndexInfoKey c.indexStartTime c.deviceId) = some (some node) →
        c.respCode = 0 ∧ c.indexEndTime = timeU32 node.stIndexInfo.endTime ∨
          unackedIndexResendTimes < node.uiResendTimes
  | .checkUnackedIndex _ _ => True
  | .dealIndex _ _ =>
    ∀ key ∈ s.dealing.head?.bind fun e => if e.2 = .delete then some e.1 else none,
      ∀ node, s.indexMap.find key = some (some node) → unackedIndexResendTimes < node.uiResendTimes

/-! ## The nodes -/

theorem AllNodes.insert (h : AllNodes P m) (hfree : m.find key = none) (hnode : P key node) :
    AllNodes P (m.insert key (some node)) := by
  intro key' node' hfind
  rw [SortedMap.find_insert hfree] at hfind
  split_ifs at hfind with hk
  · obtain rfl := Option.some.inj (Option.some.inj hfind)
    rwa [hk]
  · exact h key' node' hfind

theorem AllNodes.erase (h : AllNodes P m) (key : IndexKey) : AllNodes P (m.erase key) := by
  intro key' node' hfind
  rw [SortedMap.find_erase] at hfind
  split_ifs at hfind
  exact h key' node' hfind

theorem allNodes_modify_iff (h : AllNodes P m) {old : Option CacheNode} (hold : m.find key = some old) :
    AllNodes P (m.modify key fun _ => some node) ↔ P key node := by
  refine ⟨fun hall => hall key node ?_, fun hnode key' node' hfind => ?_⟩
  · rw [SortedMap.find_modify, if_pos rfl, hold]
    rfl
  · rw [SortedMap.find_modify] at hfind
    split_ifs at hfind with hk
    · rw [hold] at hfind
      obtain rfl := Option.some.inj (Option.some.inj hfind)
      rwa [hk]
    · exact h key' node' hfind

/-- The index of a node has the latest end time, and the counter counts. -/
structure NodeOk (node : CacheNode) : Prop where
  mem : node.stIndexInfo.endTime ∈ node.reported
  latest : ∀ u ∈ node.reported, u ≤ node.stIndexInfo.endTime
  count : node.uiResendTimes.toNat = node.resends
  bound : node.resends ≤ unackedIndexResendTimes.toNat + 1

/-- What holds in every state: a node that is to be sent again was not sent again too often. -/
structure Sound (s : IndexResendMgr) : Prop where
  nodes : AllNodes (fun _ node => NodeOk node) s.indexMap
  fresh : AllNodes (fun key node => (key, .resend) ∈ s.dealing →
    node.resends ≤ unackedIndexResendTimes.toNat) s.indexMap
  once : s.dealing.Nodup

theorem NodeOk.times_lt_iff (h : NodeOk node) :
    unackedIndexResendTimes < node.uiResendTimes ↔ unackedIndexResendTimes.toNat < node.resends := by
  rw [UInt32.lt_iff_toNat_lt, h.count]

/-- A node that a confirmation takes out. -/
theorem NodeOk.good_iff (h : NodeOk node) (key : IndexKey) (c : ReportConfirm) :
    Departure.Good ⟨key, node.reported, node.resends, some c⟩ ↔
      c.respCode = 0 ∧ c.indexEndTime = timeU32 node.stIndexInfo.endTime ∨
        unackedIndexResendTimes < node.uiResendTimes := by
  rw [h.times_lt_iff]
  refine or_congr_left ⟨?_, fun ⟨hcode, hend⟩ => ?_⟩
  · rintro ⟨c', hc', hcode, t, ht, hmax, hend⟩
    obtain rfl := Option.some.inj hc'
    have hlatest : t = node.stIndexInfo.endTime := Int.le_antisymm (h.latest t ht) (hmax _ h.mem)
    exact ⟨hcode, hlatest ▸ hend⟩
  · exact ⟨c, rfl, hcode, _, h.mem, h.latest, hend⟩

/-- One that the timer takes out. -/
theorem NodeOk.good_none_iff (h : NodeOk node) (key : IndexKey) :
    Departure.Good ⟨key, node.reported, node.resends, none⟩ ↔
      unackedIndexResendTimes < node.uiResendTimes := by
  rw [h.times_lt_iff]
  exact or_iff_right fun ⟨_, hc, _⟩ => nomatch hc

/-! ## `RecordPastIndex` -/

section RecordPastIndex

variable (index : PastIndex) (alloc : Bool) (now : Int)

theorem Sound.addIndex (h : Sound s) (hfree : s.indexMap.find (keyOf index) = none) :
    Sound (s.addIndex index alloc now).1 := by
  unfold IndexResendMgr.addIndex
  split_ifs
  · exact ⟨h.nodes.insert hfree ⟨by simp, by simp, rfl, by simp⟩, h.fresh.insert hfree fun _ => by simp, h.once⟩
  · exact h

theorem Kept.addIndex (h : Kept s) (hfree : s.indexMap.find (keyOf index) = none) :
    Kept (s.addIndex index alloc now).1 := by
  unfold IndexResendMgr.addIndex
  split_ifs
  · exact ⟨h.nodes.insert hfree rfl, h.departures⟩
  · exact h

theorem NodeOk.report (h : NodeOk node) (index : PastIndex) :
    NodeOk (if node.stIndexInfo.endTime < index.endTime then
        { node with reported := node.reported ++ [index.endTime], stIndexInfo := index }
      else { node with reported := node.reported ++ [index.endTime] }) := by
  split_ifs with hlt
  · refine ⟨by simp, fun u hu => ?_, h.count, h.bound⟩
    rcases List.mem_append.mp hu with hu | hu
    · exact Int.le_trans (h.latest u hu) (Int.le_of_lt hlt)
    · exact Int.le_of_eq (List.mem_singleton.mp hu)
  · refine ⟨List.mem_append_left _ h.mem, fun u hu => ?_, h.count, h.bound⟩
    rcases List.mem_append.mp hu with hu | hu
    · exact h.latest u hu
    · rw [List.mem_singleton.mp hu]
      exact Int.not_lt.mp hlt

theorem Sound.recordPastIndex (h : Sound s) : Sound (s.recordPastIndex index alloc now).1 := by
  unfold IndexResendMgr.recordPastIndex
  split
  · rename_i hfind
    exact h.addIndex index alloc now hfind
  · have herased : Sound { s with indexMap := s.indexMap.erase (keyOf index) } :=
      ⟨h.nodes.erase _, h.fresh.erase _, h.once⟩
    exact herased.addIndex index alloc now (by rw [SortedMap.find_erase, if_pos rfl])
  · rename_i node hfind
    refine ⟨(allNodes_modify_iff h.nodes hfind).mpr ?_, (allNodes_modify_iff h.fresh hfind).mpr fun hmem => ?_,
      h.once⟩
    · exact (h.nodes _ _ hfind).report index
    · have hfresh := h.fresh _ _ hfind hmem
      dsimp only
      split_ifs
      · exact hfresh
      · exact hfresh

theorem recordPastIndex_kept_iff (h : Kept s) :
    Kept (s.recordPastIndex index alloc now).1 ↔ s.Proper (.recordPastIndex index alloc now) := by
  unfold IndexResendMgr.recordPastIndex Proper
  split
  · rename_i hfind
    exact iff_of_true (h.addIndex index alloc now hfind) fun node hnode => by simp [hfind] at hnode
  · rename_i hfind
    have herased : Kept { s with indexMap := s.indexMap.erase (keyOf index) } := ⟨h.nodes.erase _, h.departures⟩
    refine iff_of_true (herased.addIndex index alloc now (by rw [SortedMap.find_erase, if_pos rfl]))
      fun node hnode => by simp [hfind] at hnode
  · rename_i node hfind
    have htype := h.nodes _ _ hfind
    have hnodes := @allNodes_modify_iff _ (if node.stIndexInfo.endTime < index.endTime then
        { node with reported := node.reported ++ [index.endTime], stIndexInfo := index }
      else { node with reported := node.reported ++ [index.endTime] }) _ _ h.nodes _ hfind
    refine ⟨fun hkept node' hnode' hlt => ?_, fun hproper => ⟨hnodes.mpr ?_, h.departures⟩⟩
    · obtain rfl := Option.some.inj (Option.some.inj (hfind.symm.trans hnode'))
      have hnew := hnodes.mp hkept.nodes
      rwa [if_pos hlt] at hnew
    · split_ifs with hlt
      · exact hproper node hfind hlt
      · exact htype

end RecordPastIndex

/-! ## `HandleReportConfirm` -/

theorem Sound.handleReportConfirm (h : Sound s) (c : ReportConfirm) : Sound (s.handleReportConfirm c).1 := by
  unfold IndexResendMgr.handleReportConfirm
  split_ifs
  · exact h
  · dsimp only
    split
    · exact h
    · exact ⟨h.nodes.erase _, h.fresh.erase _, h.once⟩
    · exact ⟨h.nodes.erase _, h.fresh.erase _, h.once⟩

theorem handleReportConfirm_kept_iff (hs : Sound s) (h : Kept s) (c : ReportConfirm) :
    Kept (s.handleReportConfirm c).1 ↔ s.Proper (.handleReportConfirm c) := by
  unfold IndexResendMgr.handleReportConfirm Proper
  by_cases hc : c.complete = false
  · rw [if_pos hc]
    exact iff_of_true h fun hcomplete => by simp [hc] at hcomplete
  rw [if_neg hc]
  have hcomplete : c.complete = true := (Bool.not_eq_false _).mp hc
  dsimp only
  split
  · rename_i hfind
    exact iff_of_true h fun _ node hnode => by simp [hfind] at hnode
  · rename_i hfind
    exact iff_of_true ⟨h.nodes.erase _, h.departures⟩ fun _ node hnode => by simp [hfind] at hnode
  · rename_i node hfind
    have hgood := (hs.nodes _ _ hfind).good_iff (makeIndexInfoKey c.indexStartTime c.deviceId) c
    refine ⟨fun hkept _ node' hnode' => ?_, fun hproper => ⟨h.nodes.erase _, fun d hd => ?_⟩⟩
    · obtain rfl := Option.some.inj (Option.some.inj (hfind.symm.trans hnode'))
      exact hgood.mp (hkept.departures _ (List.mem_append_right _ (List.mem_singleton_self _)))
    · rcases List.mem_append.mp hd with hd | hd
      · exact h.departures d hd
      · rw [List.mem_singleton.mp hd]
        exact hgood.mpr (hproper hcomplete node hfind)

/-! ## The timer -/

theorem Sound.checkUnackedIndex (h : Sound s) (connected : Bool) (tCurrent : Int) :
    Sound (s.checkUnackedIndex connected tCurrent) := by
  unfold IndexResendMgr.checkUnackedIndex
  split_ifs
  · exact h
  · refine ⟨h.nodes, fun key node hfind hmem => ?_, ?_⟩
    · -- what is due is not aged
      rcases List.mem_append.mp hmem with hmem | hmem
      · obtain ⟨e, -, heq⟩ := List.mem_map.mp hmem
        exact nomatch (Prod.mk.inj heq).2
      · obtain ⟨⟨key', node'⟩, he, heq⟩ := List.mem_map.mp hmem
        obtain ⟨rfl, -⟩ := Prod.mk.inj heq
        obtain ⟨hentry, hdue⟩ := List.mem_filter.mp he
        have hsame := (SortedMap.find_eq_some_iff.mpr hentry).symm.trans hfind
        obtain rfl := Option.some.inj hsame
        have hok := h.nodes _ _ hfind
        simp only [due, aged, Bool.and_eq_true, Bool.not_eq_true', decide_eq_false_iff_not] at hdue
        rw [hok.times_lt_iff] at hdue
        exact Nat.not_lt.mp hdue.1
    · have hkeys : ∀ (p : IndexKey × Option CacheNode → Bool) (flag : DealFlag),
          ((s.indexMap.entries.filter p).map fun e => (e.1, flag)).Nodup := by
        intro p flag
        have hnodup := s.indexMap.nodup.sublist ((List.filter_sublist (p := p)).map Prod.fst)
        have hmap := hnodup.map fun a b (hab : (a, flag) = (b, flag)) => (Prod.mk.inj hab).1
        rwa [List.map_map] at hmap
      refine List.nodup_append.mpr ⟨hkeys _ _, hkeys _ _, fun a ha b hb hab => ?_⟩
      obtain ⟨e, -, rfl⟩ := List.mem_map.mp ha
      obtain ⟨e', -, rfl⟩ := List.mem_map.mp hb
      exact nomatch (Prod.mk.inj hab).2

theorem Kept.checkUnackedIndex (h : Kept s) (connected : Bool) (tCurrent : Int) :
    Kept (s.checkUnackedIndex connected tCurrent) := by
  unfold IndexResendMgr.checkUnackedIndex
  split_ifs
  · exact h
  · exact ⟨h.nodes, h.departures⟩

theorem Sound.dealIndex (h : Sound s) (resent : Bool) (now : Int) : Sound (s.dealIndex resent now) := by
  unfold IndexResendMgr.dealIndex
  split
  · exact h
  rename_i key flag dealing hdealing
  have honce := h.once
  rw [hdealing] at honce
  obtain ⟨hnotMem, hnodup⟩ := List.nodup_cons.mp honce
  have hfresh : AllNodes (fun key node => (key, .resend) ∈ dealing →
      node.resends ≤ unackedIndexResendTimes.toNat) s.indexMap := by
    intro key' node' hfind hmem
    refine h.fresh key' node' hfind ?_
    rw [hdealing]
    exact List.mem_cons_of_mem _ hmem
  dsimp only
  split
  · exact ⟨h.nodes, hfresh, hnodup⟩
  · exact ⟨h.nodes.erase _, hfresh.erase _, hnodup⟩
  · rename_i node hfind
    cases flag with
    | delete => exact ⟨h.nodes.erase _, hfresh.erase _, hnodup⟩
    | resend =>
      dsimp only
      split_ifs
      · -- the node is sent again, for the only time
        have hok := h.nodes _ _ hfind
        have hle : node.resends ≤ unackedIndexResendTimes.toNat :=
          h.fresh key node hfind (by rw [hdealing]; exact List.mem_cons_self)
        refine ⟨(allNodes_modify_iff h.nodes hfind).mpr ⟨hok.mem, hok.latest, ?_, Nat.succ_le_succ hle⟩,
          (allNodes_modify_iff hfresh hfind).mpr fun hmem => absurd hmem hnotMem, hnodup⟩
        have hthree : unackedIndexResendTimes.toNat = 3 := rfl
        have hcount := hok.count
        show (node.uiResendTimes + 1).toNat = node.resends + 1
        rw [UInt32.toNat_add, UInt32.toNat_one]
        omega
      · exact ⟨h.nodes, hfresh, hnodup⟩

theorem dealIndex_kept_iff (hs : Sound s) (h : Kept s) (resent : Bool) (now : Int) :
    Kept (s.dealIndex resent now) ↔ s.Proper (.dealIndex resent now) := by
  unfold IndexResendMgr.dealIndex Proper
  split
  · rename_i hdealing
    exact iff_of_true h fun key hkey => by simp [hdealing] at hkey
  rename_i key flag dealing hdealing
  rw [hdealing]
  dsimp only
  cases flag with
  | resend =>
    refine iff_of_true ?_ fun key' hkey => by simp at hkey
    split
    · exact ⟨h.nodes, h.departures⟩
    · exact ⟨h.nodes.erase _, h.departures⟩
    · rename_i node hfind
      split_ifs
      · exact ⟨(allNodes_modify_iff h.nodes hfind).mpr (h.nodes key node hfind :), h.departures⟩
      · exact ⟨h.nodes, h.departures⟩
  | delete =>
    have hkey : (∀ key' ∈ ((key, DealFlag.delete) :: dealing).head?.bind fun e =>
          if e.2 = .delete then some e.1 else none,
        ∀ node, s.indexMap.find key' = some (some node) → unackedIndexResendTimes < node.uiResendTimes) ↔
        ∀ node, s.indexMap.find key = some (some node) →
          unackedIndexResendTimes < node.uiResendTimes := by simp
    rw [hkey]
    split
    · rename_i hfind
      exact iff_of_true ⟨h.nodes, h.departures⟩ fun node hnode => by simp [hfind] at hnode
    · rename_i hfind
      exact iff_of_true ⟨h.nodes.erase _, h.departures⟩ fun node hnode => by simp [hfind] at hnode
    · rename_i node hfind
      have hgood := (hs.nodes _ _ hfind).good_none_iff key
      refine ⟨fun hkept node' hnode' => ?_, fun hproper => ⟨h.nodes.erase _, fun d hd => ?_⟩⟩
      · obtain rfl := Option.some.inj (Option.some.inj (hfind.symm.trans hnode'))
        exact hgood.mp (hkept.departures _ (List.mem_append_right _ (List.mem_singleton_self _)))
      · rcases List.mem_append.mp hd with hd | hd
        · exact h.departures d hd
        · rw [List.mem_singleton.mp hd]
          exact hgood.mpr (hproper node hfind)

/-! ## Runs -/

theorem Sound.step (h : Sound s) (act : Act) : Sound (s.step act) := by
  cases act with
  | recordPastIndex index alloc now => exact h.recordPastIndex index alloc now
  | handleReportConfirm c => exact h.handleReportConfirm c
  | checkUnackedIndex connected tCurrent => exact h.checkUnackedIndex connected tCurrent
  | dealIndex resent now => exact h.dealIndex resent now

theorem step_kept_iff (hs : Sound s) (h : Kept s) (act : Act) : Kept (s.step act) ↔ s.Proper act := by
  cases act with
  | recordPastIndex index alloc now => exact recordPastIndex_kept_iff index alloc now h
  | handleReportConfirm c => exact handleReportConfirm_kept_iff hs h c
  | checkUnackedIndex connected tCurrent =>
    exact iff_of_true (h.checkUnackedIndex connected tCurrent) trivial
  | dealIndex resent now => exact dealIndex_kept_iff hs h resent now

/-- In every interleaving, each index that left the map did so rightly and each that is there is of the right
type, in all states, exactly if all steps are proper. -/
theorem run_kept_iff (acts : List Act) :
    Allowed step Proper new acts ↔ ∀ pre, pre <+: acts → Kept (run step new pre) := by
  have hfind : ∀ P, AllNodes P new.indexMap := fun P key node h => by cases h
  refine allowed_iff_of_invariant (I := Sound) ⟨hfind _, hfind _, List.nodup_nil⟩
    ⟨hfind _, fun d hd => nomatch hd⟩ fun s act hs hk => ?_
  exact ⟨step_kept_iff hs hk act, fun _ => hs.step act⟩

/-- An index is reported, and the server refuses it. -/
def refusedActs : List Act :=
  [.recordPastIndex ⟨[67], 100, 200, .over⟩ true 1000, .handleReportConfirm ⟨true, [67], 100, 200, 1⟩]

/-- An index is reported, and again with a later end time. -/
def laterActs : List Act :=
  [.recordPastIndex ⟨[67], 100, 200, .over⟩ true 1000, .recordPastIndex ⟨[67], 100, 300, .over⟩ true 1001]

/-- The index leaves the map although the server refused it and it was never sent again; and the type of the
later index is kept. -/
theorem not_kept_refused_later : (¬ Kept (run step new refusedActs)) ∧ ¬ Kept (run step new laterActs) := by
  have hdepartures : (run step new refusedActs).departures =
      [⟨makeIndexInfoKey 100 [67], [200], 0, some ⟨true, [67], 100, 200, 1⟩⟩] := by decide
  have hnode : (run step new laterActs).indexMap.find (makeIndexInfoKey 100 [67]) =
      some (some ⟨⟨[67], 100, 300, .over⟩, 0, 1000, [200, 300], 0⟩) := by decide
  refine ⟨fun h => ?_, fun h => nomatch (h.nodes _ _ hnode : ReportIndexType.over = .reconnect)⟩
  have hgood := h.departures _ (hdepartures ▸ List.mem_singleton_self _)
  rcases hgood with ⟨c, hc, hcode, -⟩ | htimes
  · obtain rfl := Option.some.inj hc
    exact absurd hcode (by decide)
  · exact absurd htimes (by decide)

end IndexResendMgr

end AllCamera
