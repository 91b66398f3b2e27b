import AllCamera.Record.DiskManager

/-!
# The configured disks (`refreshDiskList`, `parseDiskListConf`)

The configuration lists the disks of all raids: disks are separated by `,` and raids by `|`, and `[0]` or `[1]`
behind a path says whether the disk has its metadata apart. The list can be read again while the server runs: a
disk that is new is added to its raid, and none is removed.

* `parseDiskInfo`, `parseDiskListConf`: the disks of a list, each with the index of its raid.
* `RecordDisk`, `DiskRaid`, `DiskLists`: the raids with their disks; `tryAddDisk`, `refreshDiskInfo`,
  `refreshDiskList`.
* `parseDiskListConf_raidIndex`, `parseDiskListConf_sorted`: what the index of a disk is.

A string is the characters in front of its end, and a character is a byte. What `checkMountOnlineStatus` and
`statistics` of a disk return is an argument; allocations succeed.
-/

namespace AllCamera

/-- `DISK_NAME_SIZE`. -/
def diskNameSize : Nat := 128

/-- `SVS_LUN_MAX_NUM`. -/
def lunMaxNum : Nat := 32

/-- `SVS_RAID_MAX_NUM`. -/
def raidMaxNum : Nat := 64

/-- `SVS_DISK_TYPE`. -/
inductive DiskType
  | mountdisk
  | localdisk
  deriving DecidableEq, Repr

/-- `DISK_INFO`. -/
structure DiskInfo where
  diskPath : List Char
  medaDataPartedFlag : Bool
  diskMountTypeFlag : DiskType
  raidIndex : Nat
  deriving DecidableEq, Repr

/-! ## The list -/

/-- The flag of a disk: the character behind the last `[`, which is not looked for at the first character. -/
def partedFlag (diskPath : List Char) : Option Bool :=
  if '[' ∈ diskPath.tail then
    match (diskPath.tail.reverse.takeWhile (· ≠ '[')).getLast? with
    | some '0' => some false
    | some '1' => some true
    | _ => none
  else some false

/-- The characters that end a path in `move_pos`. -/
def endsPath (c : Char) : Bool := c = ' ' ∨ c = ',' ∨ c = '|' ∨ c = '['

/-- The path of a disk, without a `/` at its end. -/
def diskPathOf (diskPath : List Char) : List Char :=
  let path := (diskPath.dropWhile (· ≠ '/')).takeWhile fun c => !endsPath c
  if path.length ≠ 1 ∧ path.getLast? = some '/' then path.dropLast else path

/-- `parseDiskInfo`; `mountOnline` is whether `checkMountOnlineStatus` finds a path. -/
def parseDiskInfo (mountOnline : List Char → Bool) (raidIndex : Nat) (diskPath : List Char) : Option DiskInfo :=
  match partedFlag diskPath with
  | none => none
  | some medaDataPartedFlag =>
    if '/' ∈ diskPath then
      some
        { diskPath := diskPathOf diskPath
          medaDataPartedFlag
          diskMountTypeFlag :=
            if !mountOnline (diskPathOf diskPath) ∧ medaDataPartedFlag = false then .localdisk else .mountdisk
          raidIndex }
    else none

/-- The characters that separate the disks. -/
def separates (c : Char) : Bool := c = ',' ∨ c = '|'

/-- What `parseDiskListConf` takes as the next disk, and what is behind it. But for the first one it has its
separator in front. -/
def nextDisk (first : Bool) (startPos : List Char) : List Char × List Char :=
  match first, startPos with
  | false, c :: rest => (c :: rest.takeWhile (!separates ·), rest.dropWhile (!separates ·))
  | _, startPos => (startPos.takeWhile (!separates ·), startPos.dropWhile (!separates ·))

theorem nextDisk_append (first : Bool) (startPos : List Char) :
    (nextDisk first startPos).1 ++ (nextDisk first startPos).2 = startPos := by
  cases first with
  | false =>
    cases startPos with
    | nil => rfl
    | cons c rest => exact congrArg (c :: ·) List.takeWhile_append_dropWhile
  | true => exact List.takeWhile_append_dropWhile

theorem length_nextDisk_lt {first : Bool} {startPos : List Char} (h : (nextDisk first startPos).1 ≠ []) :
    (nextDisk first startPos).2.length < startPos.length := by
  have hlen := congrArg List.length (nextDisk_append first startPos)
  have hpos := List.length_pos_of_ne_nil h
  rw [List.length_append] at hlen
  omega

/-- The index of the raid of the next disk. -/
def nextRaidIndex (first : Bool) (raidIndex : Nat) (startPos : List Char) : Nat :=
  if first = false ∧ startPos.head? = some '|' then raidIndex + 1 else raidIndex

/-- The loop of `parseDiskListConf` at `startPos`; nothing where a disk does not fit into `diskPathTemp`. -/
def parseLoop (mountOnline : List Char → Bool) (first : Bool) (raidIndex : Nat) (startPos : List Char) :
    Option (List DiskInfo) :=
  if _h : (nextDisk first startPos).1 = [] ∨ '/' ∉ startPos then some []
  else if diskNameSize ≤ (nextDisk first startPos).1.length then none
  else
    let raidIndex := nextRaidIndex first raidIndex startPos
    let infos := parseLoop mountOnline false raidIndex (nextDisk first startPos).2
    match parseDiskInfo mountOnline raidIndex (nextDisk first startPos).1 with
    | none => infos
    | some info => infos.map (info :: ·)
termination_by startPos.length
decreasing_by
  exact length_nextDisk_lt fun h => _h (.inl h)

/-- `parseDiskListConf`. -/
def parseDiskListConf (mountOnline : List Char → Bool) (strDiskPath : List Char) : Option (List DiskInfo) :=
  parseLoop mountOnline true 0 strDiskPath

/-! ## What a list says -/

theorem parseDiskInfo_raidIndex {mountOnline : List Char → Bool} {raidIndex : Nat} {diskPath : List Char}
    {info : DiskInfo} (h : parseDiskInfo mountOnline raidIndex diskPath = some info) :
    info.raidIndex = raidIndex := by
  unfold parseDiskInfo at h
  split at h
  · cases h
  · split at h
    · cases h
      rfl
    · cases h

/-- The induction on the passes of the loop. -/
theorem parseLoop_induction {motive : Bool → Nat → List Char → Prop}
    (pass : ∀ first raidIndex startPos,
      ((nextDisk first startPos).1 ≠ [] →
        motive false (nextRaidIndex first raidIndex startPos) (nextDisk first startPos).2) →
      motive first raidIndex startPos)
    (first : Bool) (raidIndex : Nat) (startPos : List Char) : motive first raidIndex startPos := by
  induction hn : startPos.length using Nat.strong_induction_on generalizing first raidIndex startPos with
  | h n ih =>
    refine pass first raidIndex startPos fun hne => ?_
    exact ih _ (hn ▸ length_nextDisk_lt hne) _ _ _ rfl

/-- A pass of the loop that finds a disk. -/
theorem parseLoop_cases {mountOnline : List Char → Bool} {first : Bool} {raidIndex : Nat} {startPos : List Char}
    {infos : List DiskInfo} (h : parseLoop mountOnline first raidIndex startPos = some infos) :
    infos = [] ∨
    ((nextDisk first startPos).1 ≠ [] ∧
      ∃ rest, parseLoop mountOnline false (nextRaidIndex first raidIndex startPos) (nextDisk first startPos).2 =
          some rest ∧
        (infos = rest ∨ ∃ info, infos = info :: rest ∧
          parseDiskInfo mountOnline (nextRaidIndex first raidIndex startPos) (nextDisk first startPos).1 =
            some info)) := by
  rw [parseLoop] at h
  split at h
  · cases h
    exact .inl rfl
  · rename_i hend
    split at h
    · cases h
    · refine .inr ⟨fun hnil => hend (.inl hnil), ?_⟩
      simp only at h
      split at h
      · exact ⟨infos, h, .inl rfl⟩
      · rename_i info hinfo
        obtain ⟨rest, hrest, rfl⟩ := Option.map_eq_some_iff.mp h
        exact ⟨rest, hrest, .inr ⟨info, rfl, hinfo⟩⟩

theorem le_nextRaidIndex (first : Bool) (raidIndex : Nat) (startPos : List Char) :
    raidIndex ≤ nextRaidIndex first raidIndex startPos := by
  unfold nextRaidIndex
  split <;> omega

theorem count_takeWhile_separates (l : List Char) : (l.takeWhile (!separates ·)).count '|' = 0 := by
  rw [List.count_eq_zero]
  intro hmem
  have hsep := List.all_takeWhile (p := (!separates ·)) (l := l)
  have hbar : (!separates '|') = true := List.all_eq_true.mp hsep '|' hmem
  revert hbar
  decide

/-- The index goes up where there is a `|` in front of the disk. -/
theorem nextRaidIndex_eq (first : Bool) (raidIndex : Nat) (startPos : List Char) :
    nextRaidIndex first raidIndex startPos = raidIndex + (nextDisk first startPos).1.count '|' := by
  unfold nextRaidIndex
  cases first with
  | true =>
    have h := count_takeWhile_separates startPos
    simp only [nextDisk, h]
    rfl
  | false =>
    cases startPos with
    | nil => rfl
    | cons c rest =>
      have h := count_takeWhile_separates rest
      by_cases hc : c = '|' <;> simp [nextDisk, h, hc]

/-- A disk has no `|` behind its first `/`. -/
theorem count_takeWhile_nextDisk (first : Bool) (startPos : List Char) :
    ((nextDisk first startPos).1.takeWhile (· ≠ '/')).count '|' = (nextDisk first startPos).1.count '|' := by
  have hsub (l : List Char) : ((l.takeWhile (!separates ·)).takeWhile (· ≠ '/')).count '|' = 0 :=
    Nat.eq_zero_of_le_zero
      ((count_takeWhile_separates l) ▸ (List.takeWhile_sublist _).count_le '|')
  cases first with
  | true => exact (hsub startPos).trans (count_takeWhile_separates startPos).symm
  | false =>
    cases startPos with
    | nil => rfl
    | cons c rest =>
      have h := count_takeWhile_separates rest
      change ((c :: rest.takeWhile (!separates ·)).takeWhile (· ≠ '/')).count '|' =
        (c :: rest.takeWhile (!separates ·)).count '|'
      by_cases hslash : c = '/'
      · subst hslash
        simp [h]
      · rw [List.takeWhile_cons_of_pos (by simpa using hslash), List.count_cons, List.count_cons, hsub, h]

/-- The index of a disk is the number of `|` in front of its path. -/
theorem parseDiskListConf_raidIndex {mountOnline : List Char → Bool} {strDiskPath : List Char}
    {infos : List DiskInfo} (h : parseDiskListConf mountOnline strDiskPath = some infos) {info : DiskInfo}
    (hmem : info ∈ infos) : ∃ pre disk post, strDiskPath = pre ++ disk ++ post ∧
      parseDiskInfo mountOnline info.raidIndex disk = some info ∧
      info.raidIndex = (pre ++ disk.takeWhile (· ≠ '/')).count '|' := by
  -- at a pass, `pre` is in front of `startPos` and the index is the number of `|` in it
  suffices hloop : ∀ infos, parseLoop mountOnline true 0 strDiskPath = some infos → info ∈ infos →
      ∀ pre, 0 = pre.count '|' → ∃ pre' disk post, pre ++ strDiskPath = pre' ++ disk ++ post ∧
        parseDiskInfo mountOnline info.raidIndex disk = some info ∧
        info.raidIndex = (pre' ++ disk.takeWhile (· ≠ '/')).count '|' from
    hloop infos h hmem [] rfl
  clear h hmem infos
  generalize true = first, 0 = raidIndex
  induction first, raidIndex, strDiskPath using parseLoop_induction with
  | pass first raidIndex startPos ih =>
  intro infos h hmem pre hpre
  obtain rfl | ⟨hne, rest, hrest, hinfos⟩ := parseLoop_cases h
  · cases hmem
  have happ := nextDisk_append first startPos
  have hindex := nextRaidIndex_eq first raidIndex startPos
  have hbehind (hmem : info ∈ rest) : ∃ pre' disk post, pre ++ startPos = pre' ++ disk ++ post ∧
      parseDiskInfo mountOnline info.raidIndex disk = some info ∧
      info.raidIndex = (pre' ++ disk.takeWhile (· ≠ '/')).count '|' := by
    have h := ih hne rest hrest hmem (pre ++ (nextDisk first startPos).1)
      (by rw [hindex, List.count_append, hpre])
    rwa [List.append_assoc, happ] at h
  obtain rfl | ⟨head, rfl, hhead⟩ := hinfos
  · exact hbehind hmem
  · obtain rfl | hmem := List.mem_cons.mp hmem
    · rw [parseDiskInfo_raidIndex hhead]
      refine ⟨pre, (nextDisk first startPos).1, (nextDisk first startPos).2, ?_, hhead, ?_⟩
      · rw [List.append_assoc, happ]
      · rw [hindex, List.count_append, count_takeWhile_nextDisk, hpre]
    · exact hbehind hmem

theorem le_raidIndex_of_parseLoop {mountOnline : List Char → Bool} {first : Bool} {raidIndex : Nat}
    {startPos : List Char} {infos : List DiskInfo}
    (h : parseLoop mountOnline first raidIndex startPos = some infos) :
    infos.Pairwise (fun info info' => info.raidIndex ≤ info'.raidIndex) ∧
      ∀ info ∈ infos, raidIndex ≤ info.raidIndex := by
  induction first, raidIndex, startPos using parseLoop_induction generalizing infos with
  | pass first raidIndex startPos ih =>
    have hle := le_nextRaidIndex first raidIndex startPos
    obtain rfl | ⟨hne, rest, hrest, hinfos⟩ := parseLoop_cases h
    · exact ⟨.nil, by simp⟩
    obtain ⟨hpair, hall⟩ := ih hne hrest
    obtain rfl | ⟨info, rfl, hinfo⟩ := hinfos
    · exact ⟨hpair, fun info hmem => hle.trans (hall info hmem)⟩
    · have hindex := parseDiskInfo_raidIndex hinfo
      refine ⟨List.pairwise_cons.mpr ⟨fun info' hmem => hindex ▸ hall info' hmem, hpair⟩, fun info' hmem => ?_⟩
      obtain rfl | hmem := List.mem_cons.mp hmem
      · exact hindex ▸ hle
      · exact hle.trans (hall info' hmem)

/-- The disks come in the order of their raids. -/
theorem parseDiskListConf_sorted {mountOnline : List Char → Bool} {strDiskPath : List Char}
    {infos : List DiskInfo} (h : parseDiskListConf mountOnline strDiskPath = some infos) :
    infos.Pairwise fun info info' => info.raidIndex ≤ info'.raidIndex :=
  (le_raidIndex_of_parseLoop h).1

/-- Where a disk is to be. -/
def DiskInfo.place (info : DiskInfo) : List Char × Nat := (info.diskPath, info.raidIndex)

theorem parseDiskInfo_place (mountOnline mountOnline' : List Char → Bool) (raidIndex : Nat)
    (diskPath : List Char) : (parseDiskInfo mountOnline raidIndex diskPath).map DiskInfo.place =
      (parseDiskInfo mountOnline' raidIndex diskPath).map DiskInfo.place := by
  unfold parseDiskInfo
  split
  · rfl
  · split <;> rfl

/-- What is mounted says nothing of the places of the disks. -/
theorem parseDiskListConf_place (mountOnline mountOnline' : List Char → Bool) (strDiskPath : List Char) :
    (parseDiskListConf mountOnline strDiskPath).map (List.map DiskInfo.place) =
      (parseDiskListConf mountOnline' strDiskPath).map (List.map DiskInfo.place) := by
  unfold parseDiskListConf
  generalize true = first, 0 = raidIndex
  induction first, raidIndex, strDiskPath using parseLoop_induction with
  | pass first raidIndex startPos ih =>
    rw [parseLoop, parseLoop]
    split
    · rfl
    · rename_i hend
      split
      · rfl
      · have hrest := ih fun hnil => hend (.inl hnil)
        have hplace := parseDiskInfo_place mountOnline mountOnline' (nextRaidIndex first raidIndex startPos)
          (nextDisk first startPos).1
        simp only
        cases hinfo : parseDiskInfo mountOnline (nextRaidIndex first raidIndex startPos)
            (nextDisk first startPos).1 with
        | none =>
          rw [hinfo] at hplace
          rw [Option.map_eq_none_iff.mp hplace.symm]
          exact hrest
        | some info =>
          rw [hinfo] at hplace
          obtain ⟨info', hinfo', hsame⟩ := Option.map_eq_some_iff.mp hplace.symm
          have hcons := congrArg (Option.map (info.place :: ·)) hrest
          rw [hinfo']
          simpa only [Option.map_map, Function.comp_def, List.map_cons, hsame] using hcons

/-! ## The raids -/

/-- `CAC_Record_Disk`, without the sizes. -/
structure RecordDisk where
  path : List Char
  index : Nat
  medaDataPartedFlag : Bool
  diskMountFlag : DiskType
  flag : DiskErr
  deriving DecidableEq, Repr

/-- The disks of `CAC_Record_Raid`: `disk_` with `disk_total_`, or `NULL` before `init`. For the statements,
`inits` is the number of calls of `init`. -/
structure DiskRaid where
  disk : Option (List RecordDisk)
  inits : Nat

namespace DiskRaid

/-- `init`, as to the disks. -/
def init (raid : DiskRaid) : DiskRaid where
  disk := some []
  inits := raid.inits + 1

/-- The paths of the disks. -/
def paths (raid : DiskRaid) : List (List Char) := (raid.disk.getD []).map RecordDisk.path

/-- `refreshDiskInfo` of a disk. -/
def refreshDisk (diskInfoVec : List DiskInfo) (disk : RecordDisk) : RecordDisk :=
  match diskInfoVec.find? fun info => info.diskPath = disk.path with
  | none => { disk with flag := .diskOfflineConf }
  | some info =>
    { disk with
      medaDataPartedFlag := info.medaDataPartedFlag
      flag := if disk.flag = .diskOfflineConf then .diskBad else disk.flag }

/-- `refreshDiskInfo`. -/
def refreshDiskInfo (diskInfoVec : List DiskInfo) (raid : DiskRaid) : DiskRaid :=
  { raid with disk := raid.disk.map fun disks => disks.map (refreshDisk diskInfoVec) }

/-- `tryAddDisk`; `statFlag` is the flag of the disk after `statistics`. Nothing where `disk_` is `NULL` and it
is written to. -/
def tryAddDisk (statFlag : List Char → DiskErr) (info : DiskInfo) (raid : DiskRaid) : Option DiskRaid :=
  match raid.disk with
  | none => none
  | some disks =>
    if info.diskPath ∈ disks.map RecordDisk.path then some raid
    else if lunMaxNum ≤ disks.length then some raid
    else
      some { raid with
        disk := some (disks ++
          [{ path := info.diskPath
             index := disks.length
             medaDataPartedFlag := info.medaDataPartedFlag
             diskMountFlag := info.diskMountTypeFlag
             flag := statFlag info.diskPath }]) }

/-- The paths of a raid after `tryAddDisk`. -/
def withPath (paths : List (List Char)) (path : List Char) : List (List Char) :=
  if path ∈ paths then paths
  else if lunMaxNum ≤ paths.length then paths
  else paths ++ [path]

end DiskRaid

/-- `m_raidList` and `m_raidTotal` of the manager. -/
structure DiskLists where
  raidTotal : Nat
  raidList : Nat → DiskRaid

/-- A call of `refreshDiskList`, with what the system answers. -/
structure RefreshCall where
  strDiskPath : List Char
  mountOnline : List Char → Bool
  statFlag : List Char → DiskErr

namespace DiskLists

/-- After the constructor. -/
def new : DiskLists where
  raidTotal := 0
  raidList := fun _ => ⟨none, 0⟩

/-- The raid of a disk is initialised if its index is not below `m_raidTotal`. -/
def initRaid (m : DiskLists) (raidIndex : Nat) : DiskLists :=
  if m.raidTotal ≤ raidIndex then
    { raidTotal := m.raidTotal + 1
      raidList := Function.update m.raidList raidIndex (m.raidList raidIndex).init }
  else m

/-- A pass of the second loop of `refreshDiskList`; nothing where the index is not one of `m_raidList`. -/
def addDisk (statFlag : List Char → DiskErr) (m : DiskLists) (info : DiskInfo) : Option DiskLists :=
  if raidMaxNum ≤ info.raidIndex then none
  else
    let m := m.initRaid info.raidIndex
    (DiskRaid.tryAddDisk statFlag info (m.raidList info.raidIndex)).map fun raid =>
      { m with raidList := Function.update m.raidList info.raidIndex raid }

/-- The first loop of `refreshDiskList`. -/
def refreshDiskInfo (m : DiskLists) (diskInfoVec : List DiskInfo) : DiskLists :=
  { m with
    raidList := fun i => if i < m.raidTotal then (m.raidList i).refreshDiskInfo diskInfoVec else m.raidList i }

/-- `refreshDiskList`; nothing where it leaves its memory. -/
def refreshDiskList (m : DiskLists) (call : RefreshCall) : Option DiskLists :=
  if call.strDiskPath = [] then some m
  else
    (parseDiskListConf call.mountOnline call.strDiskPath).bind fun diskInfoVec =>
      diskInfoVec.foldlM (addDisk call.statFlag) (m.refreshDiskInfo diskInfoVec)

end DiskLists

end AllCamera
