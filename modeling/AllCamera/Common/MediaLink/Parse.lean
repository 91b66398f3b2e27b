import AllCamera.Common.MediaLink

/-!
# How a media URL is read

* `Server`, `Request`: the URLs that reach the content, and what is read of them.
* `parseMediaUrl_request`, `parseMediaUrl_fail`: `parseMediaUrl` on them and on all others.
* `parts`: what `splitUrl` cuts out. `args_of_le`: the loop over the arguments ends.
-/

namespace AllCamera.MediaLink

variable {s t u v : List UInt8}

/-! ## Cutting -/

theorem substr_of_le {pos : Nat} (h : pos ≤ s.length) (n : Nat) :
    substr s pos n = some ((s.drop pos).take n) :=
  if_neg (Nat.not_lt.mpr h)

theorem substr_append (u v : List UInt8) : substr (u ++ v) 0 u.length = some u := by
  rw [substr_of_le (Nat.zero_le _), List.drop_zero, List.take_left]

theorem substrFrom_append (u v : List UInt8) : substrFrom (u ++ v) u.length = some v := by
  have hle : ¬ (u ++ v).length < u.length := by simp
  rw [substrFrom, if_neg hle, List.drop_left]

/-- The text behind a letter. -/
theorem substrFrom_behind (u v : List UInt8) (c : UInt8) :
    substrFrom (u ++ c :: v) (u.length + 1) = some v := by
  have h := substrFrom_append (u ++ [c]) v
  simpa using h

/-- The text up to a letter. -/
theorem substr_upto (u v : List UInt8) (c : UInt8) :
    substr (u ++ c :: v) 0 (u.length + 1) = some (u ++ [c]) := by
  have h := substr_append (u ++ [c]) v
  simpa using h

theorem strSplitDir_eq : strSplitDir = [47] := rfl
theorem strPort_eq : strPort = [58] := rfl
theorem strArgBegin_eq : strArgBegin = [63] := rfl
theorem strSplitchar_eq : strSplitchar = [38] := rfl
theorem strArgEq_eq : strArgEq = [61] := rfl

/-! ## Protocol and server -/

/-- The types that `parseMediaUrl` knows. -/
def PlayUrlType.Valid (type : PlayUrlType) : Prop := type = .rtsp ∨ type = .hls ∨ type = .rtmp

def PlayType.Valid (playType : PlayType) : Prop := playType ≠ .max

theorem protocol_start {type : PlayUrlType} (h : type.Valid) (text : List UInt8) :
    protocol (type.urlStart ++ text) = some (some (type, text)) := by
  have hfind : find strProtocolEnd (type.urlStart ++ text) = some 4 := by
    apply find_append _ (by decide)
    rcases h with rfl | rfl | rfl <;> decide
  have hlength : type.urlStart.length = 4 + 3 := by
    rcases h with rfl | rfl | rfl <;> decide
  unfold protocol
  rw [hfind]
  simp only [← hlength, substr_append, substrFrom_append, Option.bind_eq_bind, Option.bind_some]
  rcases h with rfl | rfl | rfl <;> rfl

/-- A URL without a known protocol. -/
theorem protocol_none {url : List UInt8}
    (h : ∀ (type : PlayUrlType) (text : List UInt8), type.Valid → url ≠ type.urlStart ++ text) :
    protocol url = some none := by
  unfold protocol
  cases hfind : find strProtocolEnd url with
  | none => rfl
  | some idx =>
    have hle : idx + 3 ≤ url.length := find_le hfind (by decide)
    have htext : url = url.take (idx + 3) ++ url.drop (idx + 3) := (List.take_append_drop _ _).symm
    have hfrom : substrFrom url (idx + 3) = some (url.drop (idx + 3)) :=
      if_neg (Nat.not_lt.mpr hle)
    simp only [substr_of_le (Nat.zero_le _), List.drop_zero, hfrom, Option.bind_eq_bind,
      Option.bind_some]
    have hrtsp : url.take (idx + 3) ≠ urlPrefixRtsp := fun hp =>
      h .rtsp _ (.inl rfl) (htext.trans (congrArg (· ++ _) hp))
    have hhls : url.take (idx + 3) ≠ urlPrefixHls := fun hp =>
      h .hls _ (.inr (.inl rfl)) (htext.trans (congrArg (· ++ _) hp))
    have hrtmp : url.take (idx + 3) ≠ urlPrefixRtmp := fun hp =>
      h .rtmp _ (.inr (.inr rfl)) (htext.trans (congrArg (· ++ _) hp))
    rw [if_neg hrtsp, if_neg hhls, if_neg hrtmp]
    rfl

theorem untilDir_dir (hu : 47 ∉ u) (v : List UInt8) :
    untilDir (u ++ 47 :: v) = some (some (u, v)) := by
  unfold untilDir
  rw [strSplitDir_eq, find_letter hu]
  simp only [substr_append, substrFrom_behind, Option.bind_eq_bind, Option.bind_some]
  rfl

theorem untilDir_none (hs : 47 ∉ s) : untilDir s = some none := by
  unfold untilDir
  rw [strSplitDir_eq, find_letter_none hs]

/-- The text behind the server: behind the slash after the first colon, wherever that is, or behind
the first slash if there is no colon. -/
inductive Server : List UInt8 → List UInt8 → Prop
  | port {ip port rest : List UInt8} :
    58 ∉ ip → 47 ∉ port → Server (ip ++ 58 :: (port ++ 47 :: rest)) rest
  | plain {ip rest : List UInt8} : 58 ∉ ip ++ 47 :: rest → 47 ∉ ip → Server (ip ++ 47 :: rest) rest

theorem address_port {ip port rest : List UInt8} (hip : 58 ∉ ip) (hport : 47 ∉ port) (link : Link) :
    address (ip ++ 58 :: (port ++ 47 :: rest)) link =
      some ({ link with serverIP := ip, port := atoi port }, some rest) := by
  unfold address
  rw [strPort_eq, find_letter hip]
  simp only [substr_append, substrFrom_behind, Option.bind_eq_bind, Option.bind_some,
    untilDir_dir hport]
  rfl

theorem address_plain {ip rest : List UInt8} (hcolon : 58 ∉ ip ++ 47 :: rest) (hip : 47 ∉ ip)
    (link : Link) :
    address (ip ++ 47 :: rest) link = some ({ link with serverIP := ip }, some rest) := by
  unfold address
  rw [strPort_eq, find_letter_none hcolon]
  simp only [Option.bind_eq_bind, Option.bind_some, untilDir_dir hip]
  rfl

/-- Of the link only the server changes. -/
theorem address_server {text rest : List UInt8} (h : Server text rest) (link : Link) :
    ∃ ip port, address text link =
      some ({ link with serverIP := ip, port := port }, some rest) := by
  cases h with
  | port hip hport => exact ⟨_, _, address_port hip hport link⟩
  | plain hcolon hip => exact ⟨_, _, address_plain hcolon hip link⟩

theorem address_none {text : List UInt8} (h : ∀ rest, ¬ Server text rest) (link : Link) :
    ∃ link', address text link = some (link', none) := by
  unfold address
  rw [strPort_eq]
  rcases find_letter_cases 58 text with ⟨ip, behind, hip, rfl, hfind⟩ | ⟨hcolon, hfind⟩
  · have hdir : 47 ∉ behind := by
      intro hmem
      obtain ⟨port, rest, rfl, hport⟩ := List.eq_append_cons_of_mem hmem
      exact h rest (.port hip hport)
    rw [hfind]
    simp only [substr_append, substrFrom_behind, Option.bind_eq_bind, Option.bind_some,
      untilDir_none hdir]
    exact ⟨_, rfl⟩
  · have hdir : 47 ∉ text := by
      intro hmem
      obtain ⟨ip, rest, rfl, hip⟩ := List.eq_append_cons_of_mem hmem
      exact h rest (.plain hcolon hip)
    rw [hfind]
    simp only [Option.bind_eq_bind, Option.bind_some, untilDir_none hdir]
    exact ⟨_, rfl⟩

theorem hotUri_dir {host : List UInt8} (h : 47 ∉ host) (v : List UInt8) :
    hotUri (host ++ 47 :: v) = some (some (47 :: v)) := by
  unfold hotUri
  rw [strSplitDir_eq, find_letter h]
  simp only [substrFrom_append, Option.bind_eq_bind, Option.bind_some]
  rfl

/-! ## Requests -/

/-- A URL that reaches the content: its play type, the part from the first slash on, and the text
behind the play type. -/
inductive Request : List UInt8 → PlayType → List UInt8 → List UInt8 → Prop
  | mk {type : PlayUrlType} {host hot : List UInt8} {playType : PlayType} {text : List UInt8} :
    type.Valid → 47 ∉ host → playType.Valid →
    Server (host ++ 47 :: hot) (playType.tag ++ 47 :: text) →
    Request (type.urlStart ++ (host ++ 47 :: hot)) playType (47 :: hot) text

theorem tag_no_dir (playType : PlayType) : 47 ∉ playType.tag := by
  cases playType <;> decide

theorem playTypeOf_tag {playType : PlayType} (h : playType.Valid) :
    playTypeOf playType.tag = some playType := by
  cases playType with
  | max => exact absurd rfl h
  | _ => decide

theorem tag_of_playTypeOf {tag : List UInt8} {playType : PlayType}
    (h : playTypeOf tag = some playType) : playType.Valid ∧ tag = playType.tag := by
  unfold playTypeOf at h
  split at h
  · cases h
    exact ⟨nofun, ‹_›⟩
  · split at h
    · cases h
      exact ⟨nofun, ‹_›⟩
    · split at h
      · cases h
        exact ⟨nofun, ‹_›⟩
      · cases h

/-- `parseMediaUrl` up to the content, for a server that is read in any way. -/
theorem parseMediaUrl_address {f : Factory} {m : Moment} {link link' : Link} {type : PlayUrlType}
    {host hot text : List UInt8} {playType : PlayType} (htype : type.Valid) (hhost : 47 ∉ host)
    (hplay : playType.Valid)
    (haddr : address (host ++ 47 :: hot)
      { link with url := type.urlStart ++ (host ++ 47 :: hot), urlType := type } =
        some (link', some (playType.tag ++ 47 :: text))) :
    parseMediaUrl f m (type.urlStart ++ (host ++ 47 :: hot)) link =
      content f m (47 :: hot) text { link' with playType := playType } := by
  unfold parseMediaUrl
  simp only [protocol_start htype, hotUri_dir hhost, haddr, untilDir_dir (tag_no_dir playType),
    playTypeOf_tag hplay, Option.bind_eq_bind, Option.bind_some]

theorem parseMediaUrl_request (f : Factory) (m : Moment) (link : Link) {url hot text : List UInt8}
    {playType : PlayType} (h : Request url playType hot text) :
    ∃ type ip port, parseMediaUrl f m url link =
      content f m hot text { link with
        url := url, urlType := type, serverIP := ip, port := port, playType := playType } := by
  cases h with
  | @mk type host hot _ _ htype hhost hplay hserver =>
    obtain ⟨ip, port, haddr⟩ := address_server hserver
      { link with url := type.urlStart ++ (host ++ 47 :: hot), urlType := type }
    exact ⟨type, ip, port, parseMediaUrl_address htype hhost hplay haddr⟩

/-- All other URLs fail before anything is checked. -/
theorem parseMediaUrl_fail (f : Factory) (m : Moment) (link : Link) {url : List UInt8}
    (h : ∀ playType hot text, ¬ Request url playType hot text) :
    ∃ link', parseMediaUrl f m url link = some ⟨.fail, link', none⟩ := by
  by_cases hprotocol : ∃ (type : PlayUrlType) (text : List UInt8), type.Valid ∧
      url = type.urlStart ++ text
  · obtain ⟨type, text, htype, rfl⟩ := hprotocol
    by_cases hdir : 47 ∈ text
    · obtain ⟨host, hot, rfl, hhost⟩ := List.eq_append_cons_of_mem hdir
      by_cases hserver : ∃ rest, Server (host ++ 47 :: hot) rest
      · obtain ⟨rest, hserver⟩ := hserver
        obtain ⟨ip, port, haddr⟩ := address_server hserver
          { link with url := type.urlStart ++ (host ++ 47 :: hot), urlType := type }
        unfold parseMediaUrl
        simp only [protocol_start htype, hotUri_dir hhost, haddr, Option.bind_eq_bind,
          Option.bind_some]
        by_cases hrest : 47 ∈ rest
        · obtain ⟨tag, text, rfl, htag⟩ := List.eq_append_cons_of_mem hrest
          simp only [untilDir_dir htag, Option.bind_some]
          cases hplay : playTypeOf tag with
          | none => exact ⟨_, rfl⟩
          | some playType =>
            obtain ⟨hvalid, rfl⟩ := tag_of_playTypeOf hplay
            exact absurd (Request.mk htype hhost hvalid hserver) (h playType _ text)
        · simp only [untilDir_none hrest, Option.bind_some]
          exact ⟨_, rfl⟩
      · obtain ⟨link', haddr⟩ := address_none (not_exists.mp hserver)
          { link with url := type.urlStart ++ (host ++ 47 :: hot), urlType := type }
        unfold parseMediaUrl
        simp only [protocol_start htype, hotUri_dir hhost, haddr, Option.bind_eq_bind,
          Option.bind_some]
        exact ⟨_, rfl⟩
    · have hhot : hotUri text = some none := by
        unfold hotUri
        rw [strSplitDir_eq, find_letter_none hdir]
      unfold parseMediaUrl
      simp only [protocol_start htype, hhot, Option.bind_eq_bind, Option.bind_some]
      exact ⟨_, rfl⟩
  · have hnone : protocol url = some none :=
      protocol_none fun type text htype htext => hprotocol ⟨type, text, htype, htext⟩
    unfold parseMediaUrl
    simp only [hnone, Option.bind_eq_bind, Option.bind_some]
    exact ⟨_, rfl⟩

/-! ## Arguments -/

theorem args_done {fuel : Nat} {link : Link} (h : 61 ∉ s) : args fuel s link = some link := by
  cases fuel with
  | zero => rfl
  | succ fuel => rw [args, strArgEq_eq, find_letter_none h]

/-- One turn of the loop. -/
theorem args_turn {fuel : Nat} {name value rest text : List UInt8} (hname : 61 ∉ name)
    (hvalue : argValue text = some (value, rest)) (link : Link) :
    args (fuel + 1) (name ++ 61 :: text) link =
      args fuel rest (setArg link (name ++ [61]) value) := by
  rw [args, strArgEq_eq, find_letter hname]
  simp only [substr_upto, substrFrom_behind, hvalue, Option.bind_eq_bind, Option.bind_some]

theorem argValue_next {value : List UInt8} (h : 38 ∉ value) (rest : List UInt8) :
    argValue (value ++ 38 :: rest) = some (value, rest) := by
  unfold argValue
  rw [strSplitchar_eq, find_letter h]
  simp only [substr_append, substrFrom_behind, Option.bind_eq_bind, Option.bind_some]
  rfl

theorem argValue_last {value : List UInt8} (h : 38 ∉ value) :
    argValue value = some (value, []) := by
  unfold argValue
  rw [strSplitchar_eq, find_letter_none h]

/-- There always is a value, and less text behind it. -/
theorem argValue_some (text : List UInt8) :
    ∃ value rest, argValue text = some (value, rest) ∧ rest.length ≤ text.length := by
  by_cases hmem : 38 ∈ text
  · obtain ⟨value, rest, rfl, h⟩ := List.eq_append_cons_of_mem hmem
    exact ⟨value, rest, argValue_next h rest, by simp; omega⟩
  · exact ⟨text, [], argValue_last hmem, Nat.zero_le _⟩

theorem args_some (fuel : Nat) (text : List UInt8) (link : Link) :
    ∃ link', args fuel text link = some link' := by
  induction fuel generalizing text link with
  | zero => exact ⟨link, rfl⟩
  | succ fuel ih =>
    by_cases hmem : 61 ∈ text
    · obtain ⟨name, behind, rfl, hname⟩ := List.eq_append_cons_of_mem hmem
      obtain ⟨value, rest, hvalue, -⟩ := argValue_some behind
      rw [args_turn hname hvalue]
      exact ih rest _
    · exact ⟨link, args_done hmem⟩

/-- The loop ends: with more turns than letters, their number does not matter. -/
theorem args_of_lt {fuel : Nat} {text : List UInt8} (h : text.length < fuel) (link : Link) :
    args fuel text link = args (text.length + 1) text link := by
  have hall : ∀ n fuel' : Nat, ∀ text : List UInt8, ∀ link : Link, text.length < n →
      text.length < fuel' → args n text link = args fuel' text link := by
    intro n
    induction n with
    | zero =>
      intro fuel' text link hn
      exact absurd hn (Nat.not_lt_zero _)
    | succ n ih =>
      intro fuel' text link hn hfuel'
      by_cases hmem : 61 ∈ text
      · obtain ⟨name, behind, rfl, hname⟩ := List.eq_append_cons_of_mem hmem
        obtain ⟨value, rest, hvalue, hle⟩ := argValue_some behind
        simp only [List.length_append, List.length_cons] at hn hfuel'
        obtain ⟨fuel', rfl⟩ : ∃ k, fuel' = k + 1 := ⟨fuel' - 1, by omega⟩
        rw [args_turn hname hvalue, args_turn hname hvalue]
        exact ih fuel' rest _ (by omega) (by omega)
      · rw [args_done hmem, args_done hmem]
  exact hall fuel _ text link h (Nat.lt_succ_self _)

/-! ## The parts of the signature -/

/-- Where the three keys are, each for the first time. -/
def Keys (strUrl : List UInt8) (nTimeIdx nTimeoutIdx nEncryptIdx : Nat) : Prop :=
  find timeStamp strUrl = some nTimeIdx ∧ find timeOut strUrl = some nTimeoutIdx ∧
    find strEncrypt strUrl = some nEncryptIdx

/-- What `splitUrl` cuts out between them. -/
def cut (strUrl : List UInt8) (nTimeIdx nTimeoutIdx nEncryptIdx : Nat) : Split where
  basicUrl := strUrl.take (sizeSub strUrl nEncryptIdx 1)
  timestamp := (strUrl.drop (nTimeIdx + 10)).take (sizeSub strUrl nTimeoutIdx (nTimeIdx + 10))
  timeout := (strUrl.drop (nTimeoutIdx + 8)).take (sizeSub strUrl nEncryptIdx (nTimeoutIdx + 8))
  encrypt := strUrl.drop (nEncryptIdx + 8)

variable {strUrl : List UInt8} {i j k : Nat}

theorem splitUrl_keys (h : Keys strUrl i j k) : splitUrl strUrl = some (some (cut strUrl i j k)) := by
  obtain ⟨hi, hj, hk⟩ := h
  have htimestamp : i + timeStamp.length ≤ strUrl.length := find_le hi (by decide)
  have htimeout : j + timeOut.length ≤ strUrl.length := find_le hj (by decide)
  have hencrypt : k + strEncrypt.length ≤ strUrl.length := find_le hk (by decide)
  have hbehind : sizeSub strUrl strUrl.length (k + strEncrypt.length) =
      (strUrl.drop (k + strEncrypt.length)).length := by
    rw [sizeSub, if_pos hencrypt, List.length_drop]
  unfold splitUrl
  simp only [hi, hj, hk, substr_of_le (Nat.zero_le _), substr_of_le htimestamp,
    substr_of_le htimeout, substr_of_le hencrypt, Option.bind_eq_bind, Option.bind_some,
    hbehind, List.take_length]
  rfl

theorem splitUrl_none (h : ∀ i j k, ¬ Keys strUrl i j k) : splitUrl strUrl = some none := by
  unfold splitUrl
  split
  · rename_i hi hj hk
    exact absurd ⟨hi, hj, hk⟩ (h _ _ _)
  · rfl

theorem Keys.unique {i' j' k' : Nat} (h : Keys strUrl i j k) (h' : Keys strUrl i' j' k') :
    i' = i ∧ j' = j ∧ k' = k := by
  obtain ⟨hi, hj, hk⟩ := h
  obtain ⟨hi', hj', hk'⟩ := h'
  refine ⟨?_, ?_, ?_⟩
  · exact Option.some.inj (hi'.symm.trans hi)
  · exact Option.some.inj (hj'.symm.trans hj)
  · exact Option.some.inj (hk'.symm.trans hk)

/-- The parts between the keys: one letter behind the timeout is not signed. -/
theorem cut_pieces (A B C D : List UInt8) (x : UInt8) :
    cut (A ++ (timeStamp ++ (B ++ (timeOut ++ (C ++ x :: (strEncrypt ++ D)))))) A.length
      (A.length + 10 + B.length) (A.length + 10 + B.length + 8 + C.length + 1) =
      ⟨A ++ (timeStamp ++ (B ++ (timeOut ++ C))), B, C ++ [x], D⟩ := by
  have hstamp : timeStamp.length = 10 := rfl
  have hout : timeOut.length = 8 := rfl
  have hencrypt : strEncrypt.length = 8 := rfl
  generalize hurl : A ++ (timeStamp ++ (B ++ (timeOut ++ (C ++ x :: (strEncrypt ++ D))))) = url
  have hbase : url = A ++ (timeStamp ++ (B ++ (timeOut ++ C))) ++ x :: (strEncrypt ++ D) := by
    simp [← hurl]
  have htime : url = A ++ timeStamp ++ (B ++ (timeOut ++ (C ++ x :: (strEncrypt ++ D)))) := by
    simp [← hurl]
  have htimeout : url = A ++ (timeStamp ++ (B ++ timeOut)) ++ (C ++ [x] ++ (strEncrypt ++ D)) := by
    simp [← hurl]
  have hdigest : url = A ++ (timeStamp ++ (B ++ (timeOut ++ (C ++ x :: strEncrypt)))) ++ D := by
    simp [← hurl]
  unfold cut sizeSub
  rw [Split.mk.injEq]
  refine ⟨?_, ?_, ?_, ?_⟩
  · rw [if_pos (by omega), hbase, List.take_left' (by simp [hstamp, hout]; omega)]
  · rw [if_pos (by omega), htime, List.drop_left' (by simp [hstamp]),
      List.take_left' (by omega)]
  · rw [if_pos (by omega), htimeout, List.drop_left' (by simp [hstamp, hout]; omega),
      List.take_left' (by simp; omega)]
  · rw [hdigest, List.drop_left' (by simp [hstamp, hout, hencrypt]; omega)]

/-- What is checked of the parts. -/
def verdict (f : Factory) (m : Moment) (sp : Split) : LinkResult :=
  if expired f m sp then .authFail
  else if sp.encrypt ≠ digest f sp.basicUrl then .authFail
  else .success

theorem checkHoturi_keys {f : Factory} {m : Moment} (h : Keys strUrl i j k) :
    checkHoturi f m strUrl = some (verdict f m (cut strUrl i j k), some (cut strUrl i j k)) := by
  unfold checkHoturi verdict
  simp only [splitUrl_keys h, Option.bind_eq_bind, Option.bind_some]
  by_cases hexpired : expired f m (cut strUrl i j k) = true
  · rw [if_pos hexpired, if_pos hexpired]
    rfl
  · rw [if_neg hexpired, if_neg hexpired]
    split <;> rfl

theorem checkHoturi_none {f : Factory} {m : Moment} (h : ∀ i j k, ¬ Keys strUrl i j k) :
    checkHoturi f m strUrl = some (.authFail, none) := by
  unfold checkHoturi
  simp only [splitUrl_none h, Option.bind_eq_bind, Option.bind_some]
  rfl

/-- With arguments, the parts are checked after all arguments are set. -/
theorem content_args {f : Factory} {m : Moment} {hot id text : List UInt8} {link link' : Link}
    (hid : 63 ∉ id) (hargs : args (text.length + 1) text { link with contentID := id } = some link')
    {result : LinkResult} {split : Option Split}
    (hcheck : checkHoturi f m hot = some (result, split)) :
    content f m hot (id ++ 63 :: text) link = some ⟨result, link', split⟩ := by
  unfold content
  rw [strArgBegin_eq, find_letter hid]
  simp only [substr_append, substrFrom_behind, hargs, hcheck, Option.bind_eq_bind,
    Option.bind_some]
  rfl

theorem content_plain {f : Factory} {m : Moment} {hot text : List UInt8} {link : Link}
    (h : 63 ∉ text) : content f m hot text link = some ⟨.success, link, none⟩ := by
  unfold content
  rw [strArgBegin_eq, find_letter_none h]

end AllCamera.MediaLink
