import AllCamera.Common.MediaLink.Check

/-!
# A media URL is read as the link it was made of

* `Made`: the links whose URL can be read.
* `made`: the segments of a URL that `makeMediaUrl` makes; `keys_made` finds the keys in them.
* `parseMediaUrl_makeMediaUrl`: the round trip, within the timeout.
-/

namespace AllCamera.MediaLink

/-- A link with known types, and with texts that leave the letters of the URL's form alone. -/
structure Made (l : Link) : Prop where
  urlType : l.urlType.Valid
  playType : l.playType.Valid
  streamtype : l.streamtype ≠ .max
  devType : l.devType ≠ .max
  serverIP : 58 ∉ l.serverIP ∧ 47 ∉ l.serverIP
  contentID : 63 ∉ l.contentID ∧ 47 ∉ l.contentID ∧ 38 ∉ l.contentID ∧ 61 ∉ l.contentID
  startTime : 38 ∉ l.startTime ∧ 61 ∉ l.startTime
  endTime : 38 ∉ l.endTime ∧ 61 ∉ l.endTime

/-! ## What is printed -/

/-- A letter that no number and no digest has. -/
def Mark (c : UInt8) : Prop := c ≠ 45 ∧ (c < 48 ∨ 57 < c) ∧ (c < 97 ∨ 102 < c)

instance (c : UInt8) : Decidable (Mark c) := by unfold Mark; infer_instance

theorem not_digit_of_mark {c : UInt8} (h : Mark c) : ¬ isDigit c = true := by
  obtain ⟨-, h, -⟩ := h
  simp only [isDigit, decide_eq_true_eq, not_and_or, UInt8.not_le]
  exact h

theorem mark_notMem_decimal {c : UInt8} (h : Mark c) (n : Nat) : c ∉ decimal n :=
  notMem_decimal (Bool.not_eq_true _ ▸ not_digit_of_mark h) n

theorem mark_notMem_printD {c : UInt8} (h : Mark c) (i : Int) : c ∉ printD i := by
  intro hmem
  rcases printD_chars i c hmem with hdigit | hminus
  · exact not_digit_of_mark h hdigit
  · exact h.1 hminus

theorem mark_notMem_printPadded {c : UInt8} (h : Mark c) (w : Nat) (i : Int) :
    c ∉ printPadded w i := by
  intro hmem
  rcases printPadded_chars w i c hmem with hdigit | hminus
  · exact not_digit_of_mark h hdigit
  · exact h.1 hminus

theorem mark_notMem_time2str {c : UInt8} (h : Mark c) (f : Factory) (t : Int) :
    c ∉ time2str f t := by
  intro hmem
  have hmem := List.mem_of_mem_take hmem
  simp only [List.mem_append, or_assoc] at hmem
  rcases hmem with hmem | hmem | hmem | hmem | hmem | hmem <;>
    exact mark_notMem_printPadded h _ _ hmem

theorem le_length_time2str (f : Factory) (t : Int) : 14 ≤ (time2str f t).length := by
  have hyear := le_length_printPadded 4 ((f.localtime t).year + 1900)
  have hmon := le_length_printPadded 2 ((f.localtime t).mon + 1)
  have hmday := le_length_printPadded 2 (f.localtime t).mday
  have hhour := le_length_printPadded 2 (f.localtime t).hour
  have hmin := le_length_printPadded 2 (f.localtime t).min
  have hsec := le_length_printPadded 2 (f.localtime t).sec
  simp only [time2str, List.length_take, List.length_append, timeLen]
  omega

theorem mark_notMem_digest {c : UInt8} (h : Mark c) (f : Factory) (s : List UInt8) :
    c ∉ digest f s := by
  have hchar : ∀ d < 16, ¬ Mark (UInt8.ofNat (Nat.digitChar d).toNat) := by decide
  intro hmem
  obtain ⟨i, -, hmem⟩ := List.mem_flatMap.mp hmem
  obtain ⟨d, hd, rfl⟩ := List.mem_map.mp hmem
  have hbyte := (f.md5 (s ++ strSplitchar ++ keyName ++ f.mask) i).toNat_lt
  have hd : d < 16 := by
    simp only [List.mem_cons, List.not_mem_nil, or_false] at hd
    omega
  exact hchar d hd h

/-! ## Reading the time -/

theorem str2time_congr {f : Factory} {p q : Nat → UInt8} (h : ∀ o < 14, p o = q o) :
    str2time f p = str2time f q := by
  have hfield : ∀ i < 6, timeField p i = timeField q i := by
    intro i hi
    have hoffset : ∀ i < 6, ∀ j < (str2timeFields.getD i (0, 0)).2,
        (str2timeFields.getD i (0, 0)).1 + j < 14 := by decide
    simp only [timeField]
    congr 3
    apply List.map_congr_left
    intro j hj
    exact h _ (hoffset i hi j (List.mem_range.mp hj))
  unfold str2time
  rw [hfield 0 (by decide), hfield 1 (by decide), hfield 2 (by decide), hfield 3 (by decide),
    hfield 4 (by decide), hfield 5 (by decide)]

/-- What follows a text of fourteen letters is not read. -/
theorem str2time_append (f : Factory) {s : List UInt8} (h : 14 ≤ s.length) (t : List UInt8)
    (beyond : Nat → UInt8) :
    str2time f (cStr (s ++ t) beyond) = str2time f (cStr s beyond) := by
  apply str2time_congr
  intro o ho
  have hs : o < s.length := by omega
  have hst : o < (s ++ t).length := by
    rw [List.length_append]
    omega
  simp only [cStr, if_pos hs, if_pos hst, List.getD_eq_getElem?_getD, List.getElem?_append_left hs]

/-! ## The keys of a made URL -/

/-- The keys of a made URL in front of the digest; the path has none. -/
def keys : List (List UInt8) :=
  [[], strStreamtype, strDevtype, strStarttime, strEndtime, timeStamp, timeOut]

/-- Their values, each with the letter behind it. -/
def values (f : Factory) (now : Int) (l : Link) : List (List UInt8 × UInt8) :=
  [(strSplitDir ++ l.playType.tag ++ strSplitDir ++ l.contentID, 63),
    (decimal l.streamtype.toNat, 38), (decimal l.devType.toNat, 38), (l.startTime, 38),
    (l.endTime, 38), (time2str f now, 38), (strTime, 38)]

/-- The segments of a made URL. -/
def made (f : Factory) (now : Int) (l : Link) : List (List UInt8 × UInt8) :=
  (keys.zip (values f now l)).map fun s => (s.1 ++ s.2.1, s.2.2)

variable {f : Factory} {now : Int} {l : Link} {pat w t : List UInt8}

theorem makeHotUri_eq (f : Factory) (now : Int) (l : Link) :
    makeHotUri f (basicUri f now l) =
      segments (made f now l) ++ (strEncrypt ++ digest f (basicUri f now l)) := by
  generalize hd : digest f (basicUri f now l) = d
  unfold makeHotUri made keys values segments
  rw [hd]
  unfold basicUri
  rw [strSplitchar_eq, strArgBegin_eq]
  simp only [List.zip_cons_cons, List.zip_nil_right, List.map_cons, List.map_nil,
    List.flatMap_cons, List.flatMap_nil, List.append_assoc, List.nil_append, List.append_nil]

theorem Made.value_marks (h : Made l) : ∀ v ∈ values f now l, 61 ∉ v.1 ∧ (v.2 = 63 ∨ v.2 = 38) := by
  have htag : 61 ∉ l.playType.tag := by cases l.playType <;> decide
  have hdir : 61 ∉ strSplitDir ++ l.playType.tag ++ strSplitDir ++ l.contentID := by
    simp [strSplitDir_eq, htag, h.contentID.2.2.2]
  have hmark : Mark 61 := by decide
  intro v hv
  simp only [values, List.mem_cons, List.not_mem_nil, or_false] at hv
  rcases hv with rfl | rfl | rfl | rfl | rfl | rfl | rfl
  · exact ⟨hdir, .inl rfl⟩
  · exact ⟨mark_notMem_decimal hmark _, .inr rfl⟩
  · exact ⟨mark_notMem_decimal hmark _, .inr rfl⟩
  · exact ⟨h.startTime.2, .inr rfl⟩
  · exact ⟨h.endTime.2, .inr rfl⟩
  · exact ⟨mark_notMem_time2str hmark f now, .inr rfl⟩
  · exact ⟨by decide, .inr rfl⟩

/-- A key is found behind the segments that have other keys. -/
theorem Made.find_key (h : Made l) (f : Factory) (now : Int) (n : Nat) (hw : 63 ∉ w ++ [61] ∧ 38 ∉ w ++ [61])
    (hkeys : ∀ key ∈ keys.take n, find (w ++ [61]) key = none) (t : List UInt8) :
    find (w ++ [61]) (segments ((made f now l).take n) ++ (w ++ [61] ++ t)) =
      some (segments ((made f now l).take n)).length := by
  have hsegment : ∀ s ∈ (made f now l).take n, s.2 ∉ w ++ [61] ∧ ¬ w ++ [61] <:+: s.1 := by
    intro s hs
    rw [made, ← List.map_take, List.zip, List.take_zipWith] at hs
    obtain ⟨⟨key, v⟩, hmem, rfl⟩ := List.mem_map.mp hs
    obtain ⟨hkey, hv⟩ := List.of_mem_zip hmem
    obtain ⟨hvalue, hsep⟩ := h.value_marks v (List.mem_of_mem_take hv)
    refine ⟨?_, not_infix_append hvalue (find_eq_none_iff.mp (hkeys key hkey))⟩
    rcases hsep with hsep | hsep
    · exact hsep ▸ hw.1
    · exact hsep ▸ hw.2
  have hne : w ++ [61] ≠ [] := by simp
  rw [find_segments hne hsegment, find_prefix hne]
  simp

/-- The segments in front of the timestamp. -/
def front (f : Factory) (now : Int) (l : Link) : List UInt8 := segments ((made f now l).take 5)

theorem Made.hasKeys (h : Made l) (D : List UInt8) :
    Keys (front f now l ++ (timeStamp ++ (time2str f now ++ [38] ++ (timeOut ++ (strTime ++
      38 :: (strEncrypt ++ D)))))) (front f now l).length
      ((front f now l).length + 10 + (time2str f now ++ [38]).length)
      ((front f now l).length + 10 + (time2str f now ++ [38]).length + 8 + strTime.length + 1) := by
  have hsix : segments ((made f now l).take 6) =
      front f now l ++ (timeStamp ++ (time2str f now ++ [38])) := by
    simp [made, keys, values, segments, front]
  have hseven : segments ((made f now l).take 7) =
      front f now l ++ (timeStamp ++ (time2str f now ++ [38] ++ (timeOut ++ (strTime ++ [38])))) := by
    simp [made, keys, values, segments, front]
  refine ⟨?_, ?_, ?_⟩
  · exact h.find_key f now 5 (w := ascii "timestamp") (by decide) (by decide) _
  · have hfind := h.find_key f now 6 (w := ascii "timeout") (by decide) (by decide)
      (strTime ++ 38 :: (strEncrypt ++ D))
    rw [hsix] at hfind
    have hlength : (front f now l ++ (timeStamp ++ (time2str f now ++ [38]))).length =
        (front f now l).length + 10 + (time2str f now ++ [38]).length := by
      simp only [List.length_append, show timeStamp.length = 10 from rfl, Nat.add_assoc]
    rw [hlength] at hfind
    rw [← hfind]
    simp only [List.append_assoc]
    rfl
  · have hfind := h.find_key f now 7 (w := ascii "encrypt") (by decide) (by decide) D
    rw [hseven] at hfind
    have hlength : (front f now l ++ (timeStamp ++ (time2str f now ++ [38] ++ (timeOut ++
        (strTime ++ [38]))))).length =
        (front f now l).length + 10 + (time2str f now ++ [38]).length + 8 + strTime.length + 1 := by
      simp only [List.length_append, show timeStamp.length = 10 from rfl,
        show timeOut.length = 8 from rfl, List.length_cons, List.length_nil, Nat.add_assoc]
    rw [hlength] at hfind
    rw [← hfind]
    simp only [List.append_assoc, List.cons_append, List.nil_append]
    rfl

/-! ## The arguments of a made URL -/

/-- One turn of the loop, for a key with its value. -/
theorem args_key {fuel : Nat} (key name : List UInt8) {value : List UInt8} (hkey : key = name ++ [61])
    (hname : 61 ∉ name) (hvalue : 38 ∉ value) (rest : List UInt8) (link : Link) :
    args (fuel + 1) (key ++ (value ++ 38 :: rest)) link =
      args fuel rest (setArg link key value) := by
  subst hkey
  rw [List.append_assoc, List.singleton_append, args_turn hname (argValue_next hvalue rest)]

theorem setArg_streamtype {s : DevStreamType} (hs : s ≠ .max) (link : Link) :
    setArg link strStreamtype (decimal s.toNat) = { link with streamtype := s } := by
  have hvalue : atoi (decimal s.toNat) = UInt32.ofNat s.toNat := by
    simpa using atoi_decimal (t := []) s.toNat nofun
  unfold setArg
  rw [if_pos rfl, hvalue]
  cases s with
  | max => exact absurd rfl hs
  | _ => rfl

theorem setArg_devType {d : SvsDevType} (hd : d ≠ .max) (link : Link) :
    setArg link strDevtype (decimal d.toNat) = { link with devType := d } := by
  have hvalue : atoi (decimal d.toNat) = UInt32.ofNat d.toNat := by
    simpa using atoi_decimal (t := []) d.toNat nofun
  unfold setArg
  rw [if_neg (by decide), if_pos rfl, hvalue]
  cases d with
  | max => exact absurd rfl hd
  | _ => rfl

theorem setArg_startTime (link : Link) (value : List UInt8) :
    setArg link strStarttime value = { link with startTime := value } := by
  unfold setArg
  rw [if_neg (by decide), if_neg (by decide), if_pos rfl]

theorem setArg_endTime (link : Link) (value : List UInt8) :
    setArg link strEndtime value = { link with endTime := value } := by
  unfold setArg
  rw [if_neg (by decide), if_neg (by decide), if_neg (by decide), if_pos rfl]

theorem setArg_other {key : List UInt8} (h : key ∉ [strStreamtype, strDevtype, strStarttime,
    strEndtime]) (link : Link) (value : List UInt8) : setArg link key value = link := by
  simp only [List.mem_cons, List.not_mem_nil, or_false, not_or] at h
  unfold setArg
  rw [if_neg h.1, if_neg h.2.1, if_neg h.2.2.1, if_neg h.2.2.2]

/-- The arguments of a made URL, in their order. -/
def query (f : Factory) (now : Int) (l : Link) (D : List UInt8) : List UInt8 :=
  strStreamtype ++ (decimal l.streamtype.toNat ++ 38 :: (strDevtype ++ (decimal l.devType.toNat ++
    38 :: (strStarttime ++ (l.startTime ++ 38 :: (strEndtime ++ (l.endTime ++ 38 :: (timeStamp ++
      (time2str f now ++ 38 :: (timeOut ++ (strTime ++ 38 :: (strEncrypt ++ D))))))))))))

theorem Made.args_query (h : Made l) (f : Factory) (now : Int) {D : List UInt8} (hD : 61 ∉ D ∧ 38 ∉ D)
    (link : Link) : args ((query f now l D).length + 1) (query f now l D) link = some { link with
      streamtype := l.streamtype, devType := l.devType, startTime := l.startTime
      endTime := l.endTime } := by
  have hmark : Mark 38 := by decide
  have hlast : ∀ fuel link, args (fuel + 1) (strEncrypt ++ D) link = some link := by
    intro fuel link
    have hname : 61 ∉ ascii "encrypt" := by decide
    refine (args_turn hname (argValue_last hD.2) link).trans ?_
    rw [setArg_other (by decide), args_done List.not_mem_nil]
  rw [← args_of_lt (by omega : (query f now l D).length < (query f now l D).length + 7)]
  generalize (query f now l D).length = n
  unfold query
  rw [args_key strStreamtype (ascii "streamtype") rfl (by decide) (mark_notMem_decimal hmark _),
    args_key strDevtype (ascii "devtype") rfl (by decide) (mark_notMem_decimal hmark _),
    args_key strStarttime (ascii "starttime") rfl (by decide) h.startTime.1,
    args_key strEndtime (ascii "endtime") rfl (by decide) h.endTime.1,
    args_key timeStamp (ascii "timestamp") rfl (by decide) (mark_notMem_time2str hmark f now),
    args_key timeOut (ascii "timeout") rfl (by decide) (by decide), hlast,
    setArg_streamtype h.streamtype, setArg_devType h.devType, setArg_startTime, setArg_endTime,
    setArg_other (by decide), setArg_other (by decide)]

/-! ## The round trip -/

/-- The signed part from the play type on, and the digest. -/
theorem makeHotUri_query (f : Factory) (now : Int) (l : Link) :
    makeHotUri f (basicUri f now l) = 47 :: (l.playType.tag ++ 47 :: (l.contentID ++
      63 :: query f now l (digest f (basicUri f now l)))) := by
  generalize hd : digest f (basicUri f now l) = d
  unfold makeHotUri query
  rw [hd]
  unfold basicUri
  rw [strSplitchar_eq, strArgBegin_eq, strSplitDir_eq]
  simp only [List.append_assoc, List.cons_append, List.nil_append]

theorem makeHotUri_pieces (f : Factory) (now : Int) (l : Link) :
    makeHotUri f (basicUri f now l) = front f now l ++ (timeStamp ++ (time2str f now ++ [38] ++
      (timeOut ++ (strTime ++ 38 :: (strEncrypt ++ digest f (basicUri f now l)))))) := by
  rw [makeHotUri_eq]
  simp [made, keys, values, segments, front]

theorem basicUri_pieces (f : Factory) (now : Int) (l : Link) :
    basicUri f now l =
      front f now l ++ (timeStamp ++ (time2str f now ++ [38] ++ (timeOut ++ strTime))) := by
  have hpieces := makeHotUri_pieces f now l
  unfold makeHotUri at hpieces
  rw [strSplitchar_eq] at hpieces
  generalize digest f (basicUri f now l) = d at hpieces
  refine @List.append_cancel_right _ _ (38 :: (strEncrypt ++ d)) _ ?_
  simp only [List.append_assoc, List.cons_append, List.nil_append] at hpieces ⊢
  exact hpieces

/-- A made URL is young enough when it is read within its timeout. -/
theorem Made.verdict (f : Factory) {now : Int} {m : Moment} (s : List UInt8)
    (hinverse : ∀ beyond, str2time f (cStr (time2str f now) beyond) = now)
    (hnow : (m.now - now).natAbs ≤ 30) :
    MediaLink.verdict f m ⟨s, time2str f now ++ [38], strTime ++ [38], digest f s⟩ = .success := by
  have htimeout : (atoi (strTime ++ [38])).toNat = 30 := by decide
  have hage : age f m ⟨s, time2str f now ++ [38], strTime ++ [38], digest f s⟩ ≤ 30 := by
    unfold age
    rw [str2time_append f (le_length_time2str f now), hinverse]
    exact hnow
  refine verdict_success.mpr ⟨rfl, ?_⟩
  rw [htimeout]
  exact Nat.le_trans (Nat.mod_le _ _) hage

/-- The URL of a link is accepted by every factory with the same mask within the timeout, and read
as that link. -/
theorem parseMediaUrl_makeMediaUrl (f : Factory) (now : Int) (m : Moment) (l link : Link)
    (hl : Made l) (hinverse : ∀ beyond, str2time f (cStr (time2str f now) beyond) = now)
    (hnow : (m.now - now).natAbs ≤ 30) :
    ∃ sp, parseMediaUrl f m (makeMediaUrl f now l) link =
      some ⟨.success, { l with url := makeMediaUrl f now l }, some sp⟩ := by
  have hmark : Mark 47 := by decide
  have hport : 47 ∉ printD l.port.toInt32.toInt := mark_notMem_printD hmark _
  have hhost : 47 ∉ l.serverIP ++ 58 :: printD l.port.toInt32.toInt := by
    simp [hl.serverIP.2, hport]
  have hdigest : 61 ∉ digest f (basicUri f now l) ∧ 38 ∉ digest f (basicUri f now l) :=
    ⟨mark_notMem_digest (by decide) f _, mark_notMem_digest (by decide) f _⟩
  have hurl : makeMediaUrl f now l = l.urlType.urlStart ++
      (l.serverIP ++ 58 :: printD l.port.toInt32.toInt ++ 47 :: (l.playType.tag ++ 47 ::
        (l.contentID ++ 63 :: query f now l (digest f (basicUri f now l))))) := by
    unfold makeMediaUrl
    rw [makeHotUri_query, strPort_eq]
    simp only [List.append_assoc, List.cons_append, List.nil_append]
  have hvalue : atoi (printD l.port.toInt32.toInt) = l.port := by
    simpa using atoi_printD_toInt32 (t := []) l.port nofun
  have haddr : ∀ url rest, address (l.serverIP ++ 58 :: printD l.port.toInt32.toInt ++ 47 :: rest)
      { link with url := url, urlType := l.urlType } = some ({ link with
        url := url, urlType := l.urlType, serverIP := l.serverIP, port := l.port }, some rest) := by
    intro url rest
    rw [List.append_assoc, List.cons_append, address_port hl.serverIP.1 hport, hvalue]
  have hcheck : checkHoturi f m (47 :: (l.playType.tag ++ 47 :: (l.contentID ++
      63 :: query f now l (digest f (basicUri f now l))))) = some (.success,
        some ⟨basicUri f now l, time2str f now ++ [38], strTime ++ [38],
          digest f (basicUri f now l)⟩) := by
    rw [← makeHotUri_query, makeHotUri_pieces, checkHoturi_keys (hl.hasKeys _), cut_pieces,
      ← basicUri_pieces, Made.verdict f _ hinverse hnow]
  rw [hurl, parseMediaUrl_address hl.urlType hhost hl.playType (haddr _ _),
    content_args hl.contentID.1 (hl.args_query f now hdigest _) hcheck]
  exact ⟨_, rfl⟩

/-- A recording of a camera. -/
def sampleLink : Link :=
  ⟨[], .rtmp, .frontRecord, ascii "10.0.0.1", 8554, ascii "cam7", .sub, ascii "20160101100000",
    ascii "20160101110000", .vms⟩

/-- The URL of that link, into the default link, at time zero. -/
theorem parseMediaUrl_makeMediaUrl_sample :
    ∃ sp, parseMediaUrl zeroFactory zeroMoment (makeMediaUrl zeroFactory 0 sampleLink) Link.init =
      some ⟨.success, { sampleLink with url := makeMediaUrl zeroFactory 0 sampleLink }, some sp⟩ :=
  parseMediaUrl_makeMediaUrl zeroFactory 0 zeroMoment sampleLink Link.init
    ⟨.inr (.inr rfl), nofun, nofun, nofun, by decide, by decide, by decide, by decide⟩
    (fun _ => rfl) (by decide)

end AllCamera.MediaLink
