import AllCamera.Common.MediaLink.RoundTrip

/-!
# What the signature does not cover

An accepted URL with arguments is its protocol and host, the base URI that is signed, one more
letter, and the digest. So two accepted URLs with one base URI differ in the protocol, the host and
that letter.

* `Reading`: how an accepted URL with arguments was read. `Reading.url_outside`: its form.
* `Server.cut`: where the server ends does not depend on what is behind the base URI.
* `Agree`: links that agree in what is authorised. `args_idle`: what is behind the last argument
  does not matter.
* `sameValues_iff`: when two accepted URLs with one base URI are authorised for the same.
-/

namespace AllCamera.MediaLink

variable {f : Factory} {m : Moment} {url : List UInt8} {l : Link} {p : Parsed} {sp : Split}

/-! ## The end of the server -/

theorem not_server {ip behind r : List UInt8} (hip : 58 ∉ ip) (hbehind : 47 ∉ behind) :
    ¬ Server (ip ++ 58 :: behind) r := by
  intro h
  obtain ⟨ip', port', haddr⟩ := address_server h Link.init
  unfold address at haddr
  rw [strPort_eq, find_letter hip] at haddr
  simp only [substr_append, substrFrom_behind, Option.bind_eq_bind, Option.bind_some,
    untilDir_none hbehind] at haddr
  cases haddr

variable {host h r : List UInt8}

/-- A host with a colon ends at the first slash. -/
theorem Server.colon (hdir : 47 ∉ host) (hcolon : 58 ∈ host) (h : List UInt8) :
    Server (host ++ 47 :: h) h := by
  obtain ⟨ip, port, rfl, hip⟩ := List.eq_append_cons_of_mem hcolon
  rw [List.append_assoc, List.cons_append]
  refine .port hip ?_
  intro hmem
  exact hdir (by simp [hmem])

/-- A server that ends in front of a tail in which there is at most one letter of its form. -/
theorem Server.cut {h₀ u v : List UInt8} {x : UInt8} (hdir : 47 ∉ host) (hu : 47 ∉ u ∧ 58 ∉ u)
    (hv : 47 ∉ v ∧ 58 ∉ v) (hserver : Server (host ++ 47 :: (h₀ ++ (u ++ x :: v))) r)
    (hr : 47 ∈ r) : ∃ r₀, r = r₀ ++ (u ++ x :: v) ∧ Server (host ++ 47 :: h₀) r₀ := by
  by_cases hhost : 58 ∈ host
  · exact ⟨h₀, (Server.colon hdir hhost _).unique hserver, .colon hdir hhost _⟩
  by_cases hh₀ : 58 ∈ h₀
  · obtain ⟨a, c, rfl, ha⟩ := List.eq_append_cons_of_mem hh₀
    have hip : 58 ∉ host ++ 47 :: a := by simp [hhost, ha]
    have htext : ∀ t : List UInt8, host ++ 47 :: (a ++ 58 :: c ++ t) =
        host ++ 47 :: a ++ 58 :: (c ++ t) := by simp
    by_cases hc : 47 ∈ c
    · obtain ⟨port, q, rfl, hport⟩ := List.eq_append_cons_of_mem hc
      have hserver' : ∀ t, Server (host ++ 47 :: (a ++ 58 :: (port ++ 47 :: q) ++ t)) (q ++ t) := by
        intro t
        have hbehind : port ++ 47 :: q ++ t = port ++ 47 :: (q ++ t) := by simp
        rw [htext, hbehind]
        exact .port hip hport
      have hserver₀ := hserver' []
      rw [List.append_nil, List.append_nil] at hserver₀
      exact ⟨q, (hserver' _).unique hserver, hserver₀⟩
    · rw [htext] at hserver
      by_cases hx : x = 47
      · subst hx
        have hport : 47 ∉ c ++ u := by simp [hc, hu.1]
        have hserver' : Server (host ++ 47 :: a ++ 58 :: (c ++ (u ++ 47 :: v))) v := by
          rw [← List.append_assoc c]
          exact .port hip hport
        rw [hserver'.unique hserver] at hr
        exact absurd hr hv.1
      · refine absurd hserver (not_server hip ?_)
        simp [hc, hu.1, hv.1, Ne.symm hx]
  · by_cases hx : x = 58
    · subst hx
      have hip : 58 ∉ host ++ 47 :: (h₀ ++ u) := by simp [hhost, hh₀, hu.2]
      have htext : host ++ 47 :: (h₀ ++ (u ++ 58 :: v)) = host ++ 47 :: (h₀ ++ u) ++ 58 :: v := by
        simp
      rw [htext] at hserver
      exact absurd hserver (not_server hip hv.1)
    · have hcolon : 58 ∉ host ++ 47 :: (h₀ ++ (u ++ x :: v)) := by
        simp [hhost, hh₀, hu.2, hv.2, Ne.symm hx]
      have hcolon₀ : 58 ∉ host ++ 47 :: h₀ := by simp [hhost, hh₀]
      exact ⟨h₀, (Server.plain hcolon hdir).unique hserver, .plain hcolon₀ hdir⟩

/-- Two hosts behind which the same text is read. -/
def SameStart (host₁ host₂ basicUrl : List UInt8) : Prop :=
  (58 ∈ host₁ ↔ 58 ∈ host₂) ∨ 58 ∉ basicUrl

theorem Server.same {host₁ host₂ h₀ r₁ r₂ : List UInt8} (hdir₁ : 47 ∉ host₁) (hdir₂ : 47 ∉ host₂)
    (hsame : SameStart host₁ host₂ (47 :: h₀)) (h₁ : Server (host₁ ++ 47 :: h₀) r₁)
    (h₂ : Server (host₂ ++ 47 :: h₀) r₂) : r₁ = r₂ := by
  -- without a colon in the host, the host does not matter
  have hplain : ∀ {host r : List UInt8}, 47 ∉ host → 58 ∉ host → Server (host ++ 47 :: h₀) r →
      Server (47 :: h₀) r := by
    intro host r hdir hcolon hserver
    by_cases hh₀ : 58 ∈ h₀
    · obtain ⟨a, c, rfl, ha⟩ := List.eq_append_cons_of_mem hh₀
      have hip : 58 ∉ 47 :: a := by simp [ha]
      have hip' : 58 ∉ host ++ 47 :: a := by simp [hcolon, ha]
      have htext : host ++ 47 :: (a ++ 58 :: c) = host ++ 47 :: a ++ 58 :: c := by simp
      rw [htext] at hserver
      by_cases hc : 47 ∈ c
      · obtain ⟨port, q, rfl, hport⟩ := List.eq_append_cons_of_mem hc
        rw [(Server.port hip' hport).unique hserver]
        exact .port hip hport
      · exact absurd hserver (not_server hip' hc)
    · have hcolon' : 58 ∉ host ++ 47 :: h₀ := by simp [hcolon, hh₀]
      have hcolon₀ : 58 ∉ [] ++ 47 :: h₀ := by simp [hh₀]
      rw [(Server.plain hcolon' hdir).unique hserver]
      exact .plain hcolon₀ List.not_mem_nil
  by_cases hcolon₁ : 58 ∈ host₁ <;> by_cases hcolon₂ : 58 ∈ host₂
  · rw [(Server.colon hdir₁ hcolon₁ _).unique h₁, (Server.colon hdir₂ hcolon₂ _).unique h₂]
  · have hb : 58 ∉ [] ++ 47 :: h₀ := by
      rcases hsame with hiff | hb
      · exact absurd (hiff.mp hcolon₁) hcolon₂
      · exact hb
    rw [(Server.colon hdir₁ hcolon₁ _).unique h₁,
      (Server.plain hb List.not_mem_nil).unique (hplain hdir₂ hcolon₂ h₂)]
  · have hb : 58 ∉ [] ++ 47 :: h₀ := by
      rcases hsame with hiff | hb
      · exact absurd (hiff.mpr hcolon₂) hcolon₁
      · exact hb
    rw [(Server.colon hdir₂ hcolon₂ _).unique h₂,
      (Server.plain hb List.not_mem_nil).unique (hplain hdir₁ hcolon₁ h₁)]
  · exact (hplain hdir₂ hcolon₂ h₂).unique (hplain hdir₁ hcolon₁ h₁)

/-! ## Arguments -/

/-- The links agree in what is authorised. -/
structure Agree (l₁ l₂ : Link) : Prop where
  playType : l₁.playType = l₂.playType
  contentID : l₁.contentID = l₂.contentID
  streamtype : l₁.streamtype = l₂.streamtype
  devType : l₁.devType = l₂.devType
  startTime : l₁.startTime = l₂.startTime
  endTime : l₁.endTime = l₂.endTime

theorem Agree.setArg {l₁ l₂ : Link} (h : Agree l₁ l₂) (strarg strvalue : List UInt8) :
    Agree (setArg l₁ strarg strvalue) (setArg l₂ strarg strvalue) := by
  obtain ⟨hplay, hcontent, hstream, hdev, hstart, hend⟩ := h
  unfold MediaLink.setArg
  repeat' split
  all_goals constructor <;> first | assumption | rfl

theorem Agree.args {l₁ l₂ l₁' l₂' : Link} {fuel : Nat} {text : List UInt8} (h : Agree l₁ l₂)
    (h₁ : args fuel text l₁ = some l₁') (h₂ : args fuel text l₂ = some l₂') : Agree l₁' l₂' := by
  induction fuel generalizing text l₁ l₂ with
  | zero =>
    cases h₁
    cases h₂
    exact h
  | succ fuel ih =>
    by_cases hmem : 61 ∈ text
    · obtain ⟨name, behind, rfl, hname⟩ := List.eq_append_cons_of_mem hmem
      obtain ⟨value, rest, hvalue, -⟩ := argValue_some behind
      rw [args_turn hname hvalue] at h₁ h₂
      exact ih (h.setArg _ _) h₁ h₂
    · rw [args_done hmem] at h₁ h₂
      cases h₁
      cases h₂
      exact h

/-- No argument is set by the text, and none by a name that goes on in it. -/
def Idle (T : List UInt8) : Prop :=
  ∀ fuel link, args fuel T link = some link ∧
    ∀ name, 61 ∉ name → args fuel (name ++ 38 :: T) link = some link

theorem args_idle {T₁ T₂ : List UInt8} (h₁ : Idle T₁) (h₂ : Idle T₂) (fuel : Nat)
    (a : List UInt8) (link : Link) :
    args fuel (a ++ 38 :: T₁) link = args fuel (a ++ 38 :: T₂) link := by
  induction fuel generalizing a link with
  | zero => rfl
  | succ fuel ih =>
    by_cases hmem : 61 ∈ a
    · obtain ⟨name, behind, rfl, hname⟩ := List.eq_append_cons_of_mem hmem
      by_cases hnext : 38 ∈ behind
      · obtain ⟨value, rest, rfl, hvalue⟩ := List.eq_append_cons_of_mem hnext
        have hturn : ∀ T, args (fuel + 1) (name ++ 61 :: (value ++ 38 :: rest) ++ 38 :: T) link =
            args fuel (rest ++ 38 :: T) (setArg link (name ++ [61]) value) := by
          intro T
          rw [← args_turn hname (argValue_next hvalue (rest ++ 38 :: T))]
          simp
        rw [hturn, hturn, ih]
      · have hturn : ∀ T, args (fuel + 1) (name ++ 61 :: behind ++ 38 :: T) link =
            args fuel T (setArg link (name ++ [61]) behind) := by
          intro T
          rw [← args_turn hname (argValue_next hnext T)]
          simp
        rw [hturn, hturn, (h₁ _ _).1, (h₂ _ _).1]
    · rw [(h₁ _ _).2 a hmem, (h₂ _ _).2 a hmem]

/-- The text behind the `&` of the timeout. -/
def lastArgs (x : UInt8) (D : List UInt8) : List UInt8 :=
  timeOut ++ (strTime ++ x :: (strEncrypt ++ D))

theorem idle_lastArgs {D : List UInt8} (hD : 61 ∉ D ∧ 38 ∉ D) (x : UInt8) :
    Idle (lastArgs x D) := by
  have hencrypt : ∀ fuel link, args fuel (strEncrypt ++ D) link = some link := by
    intro fuel link
    cases fuel with
    | zero => rfl
    | succ fuel =>
      have hname : 61 ∉ ascii "encrypt" := by decide
      refine (args_turn hname (argValue_last hD.2) link).trans ?_
      rw [setArg_other (by decide), args_done List.not_mem_nil]
  -- the value is `30`, and the letter and the digest with it unless that is an `&`
  have hvalue : ∀ fuel link name, 61 ∉ name →
      (∀ value, setArg link (name ++ [61]) value = link) →
      args (fuel + 1) (name ++ 61 :: (strTime ++ x :: (strEncrypt ++ D))) link = some link := by
    intro fuel link name hname hset
    by_cases hx : x = 38
    · subst hx
      rw [args_turn hname (argValue_next (by decide) _), hset, hencrypt]
    · have hnot : 38 ∉ strTime ++ x :: (strEncrypt ++ D) := by
        have htime : 38 ∉ strTime := by decide
        have hkey : 38 ∉ strEncrypt := by decide
        simp [htime, hkey, Ne.symm hx, hD.2]
      rw [args_turn hname (argValue_last hnot), hset, args_done List.not_mem_nil]
  intro fuel link
  cases fuel with
  | zero => exact ⟨rfl, fun _ _ => rfl⟩
  | succ fuel =>
    refine ⟨?_, fun name hname => ?_⟩
    · exact hvalue fuel link (ascii "timeout") (by decide) (setArg_other (by decide) link)
    · have hname' : 61 ∉ name ++ 38 :: ascii "timeout" := by
        have htimeout : 61 ∉ ascii "timeout" := by decide
        simp [hname, htimeout]
      have hkey : name ++ 38 :: ascii "timeout" ++ [61] ∉ [strStreamtype, strDevtype, strStarttime,
          strEndtime] := by
        have hmark : ∀ key ∈ [strStreamtype, strDevtype, strStarttime, strEndtime], 38 ∉ key := by
          decide
        exact fun hmem => hmark _ hmem (by simp)
      have hturn := hvalue fuel link _ hname' (setArg_other hkey link)
      rw [← hturn, List.append_assoc, List.cons_append]
      rfl

/-! ## Readings -/

/-- How an accepted URL with arguments was read. -/
structure Reading (f : Factory) (url : List UInt8) (l : Link) (p : Parsed) (sp : Split) where
  type : PlayUrlType
  host : List UInt8
  h : List UInt8
  playType : PlayType
  id : List UInt8
  behind : List UInt8
  urlType : PlayUrlType
  ip : List UInt8
  port : UInt32
  i : Nat
  j : Nat
  k : Nat
  url_eq : url = type.urlStart ++ (host ++ 47 :: h)
  host_dir : 47 ∉ host
  playType_valid : playType.Valid
  server : Server (host ++ 47 :: h) (playType.tag ++ 47 :: (id ++ 63 :: behind))
  id_begin : 63 ∉ id
  keys : Keys (47 :: h) i j k
  split_eq : sp = cut (47 :: h) i j k
  encrypt_eq : sp.encrypt = digest f sp.basicUrl
  args_eq : args (behind.length + 1) behind { l with
    url := url, urlType := urlType, serverIP := ip, port := port, playType := playType
    contentID := id } = some p.link

theorem exists_reading (hparse : parseMediaUrl f m url l = some p) (hsuccess : p.result = .success)
    (hsplit : p.split = some sp) : Nonempty (Reading f url l p sp) := by
  by_cases hrequest : ∃ playType hot text, Request url playType hot text
  · obtain ⟨playType, hot, text, hrequest⟩ := hrequest
    obtain ⟨type', ip, port, hparse'⟩ := parseMediaUrl_request f m l hrequest
    rw [hparse'] at hparse
    cases hrequest with
    | @mk type host h _ _ htype hhost hplay hserver =>
      by_cases hbegin : 63 ∈ text
      · obtain ⟨id, behind, rfl, hid⟩ := List.eq_append_cons_of_mem hbegin
        obtain ⟨link', hargs⟩ := args_some (behind.length + 1) behind
          { l with
            url := type.urlStart ++ (host ++ 47 :: h), urlType := type', serverIP := ip
            port := port, playType := playType, contentID := id }
        by_cases hkeys : ∃ i j k, Keys (47 :: h) i j k
        · obtain ⟨i, j, k, hkeys⟩ := hkeys
          rw [content_args hid hargs (checkHoturi_keys hkeys)] at hparse
          obtain rfl := Option.some.inj hparse
          obtain rfl := Option.some.inj hsplit
          exact ⟨{
            type, host, h, playType, id, behind, urlType := type', ip, port, i, j, k
            url_eq := rfl
            host_dir := hhost
            playType_valid := hplay
            server := hserver
            id_begin := hid
            keys := hkeys
            split_eq := rfl
            encrypt_eq := (verdict_success.mp hsuccess).1
            args_eq := hargs }⟩
        · have hkeys : ∀ i j k, ¬ Keys (47 :: h) i j k := fun i j k h => hkeys ⟨i, j, k, h⟩
          rw [content_args hid hargs (checkHoturi_none hkeys)] at hparse
          obtain rfl := Option.some.inj hparse
          cases hsuccess
      · rw [content_plain hbegin] at hparse
        obtain rfl := Option.some.inj hparse
        cases hsplit
  · obtain ⟨link', hfail⟩ := parseMediaUrl_fail f m l
      fun playType hot text h => hrequest ⟨playType, hot, text, h⟩
    rw [hfail] at hparse
    obtain rfl := Option.some.inj hparse
    cases hsuccess

namespace Reading

variable (r : Reading f url l p sp)

/-- The letter in front of the digest's key. -/
def byte : UInt8 := (47 :: r.h).getD (r.k - 1) 0

theorem k_pos : 0 < r.k := by
  obtain ⟨D, hD⟩ := prefix_of_find r.keys.2.2
  rcases Nat.eq_zero_or_pos r.k with hzero | hpos
  · rw [hzero, List.drop_zero] at hD
    exact absurd (List.cons.inj hD).1 (by decide)
  · exact hpos

theorem base_eq : sp.basicUrl = (47 :: r.h).take (r.k - 1) := by
  refine (congrArg Split.basicUrl r.split_eq).trans ?_
  simp only [cut, sizeSub]
  rw [if_pos (Nat.succ_le_of_lt r.k_pos)]

theorem hot_eq : 47 :: r.h = sp.basicUrl ++ r.byte :: (strEncrypt ++ digest f sp.basicUrl) := by
  obtain ⟨D, hD⟩ := prefix_of_find r.keys.2.2
  have hle : r.k + strEncrypt.length ≤ (47 :: r.h).length := find_le r.keys.2.2 (by decide)
  have hlength : strEncrypt.length = 8 := rfl
  have hpos := r.k_pos
  have hdigest : digest f sp.basicUrl = D := by
    have hencrypt := r.encrypt_eq.symm.trans (congrArg Split.encrypt r.split_eq)
    simp only [cut, ← hlength] at hencrypt
    rw [hencrypt, ← List.drop_drop, ← hD, List.drop_left]
  have hlt : r.k - 1 < (47 :: r.h).length := by omega
  have hbyte : r.byte = (47 :: r.h)[r.k - 1] := by
    simp only [byte, List.getD_eq_getElem?_getD, List.getElem?_eq_getElem hlt, Option.getD_some]
  have hcons := List.drop_eq_getElem_cons hlt
  rw [Nat.sub_add_cancel hpos, ← hbyte, ← hD] at hcons
  rw [hdigest, r.base_eq, ← hcons, List.take_append_drop]

/-- The text behind the play type, in front of a tail with at most one letter of a URL's form. -/
theorem text_cut {h₀ u v : List UInt8} {x : UInt8} (hu : 47 ∉ u ∧ 58 ∉ u)
    (hv : 47 ∉ v ∧ 58 ∉ v ∧ 63 ∉ v) (hh : r.h = h₀ ++ (u ++ x :: v)) :
    ∃ t₀, Server (r.host ++ 47 :: h₀) (r.playType.tag ++ 47 :: t₀) ∧
      r.id ++ 63 :: r.behind = t₀ ++ (u ++ x :: v) := by
  have hserver := r.server
  rw [hh] at hserver
  obtain ⟨r₀, hr₀, hserver₀⟩ := hserver.cut r.host_dir hu ⟨hv.1, hv.2.1⟩ (by simp)
  by_cases hmem : 47 ∈ r₀
  · obtain ⟨tag, t₀, rfl, htag⟩ := List.eq_append_cons_of_mem hmem
    rw [List.append_assoc, List.cons_append] at hr₀
    obtain ⟨rfl, htext⟩ := letter_inj (tag_no_dir _) htag hr₀
    exact ⟨t₀, hserver₀, htext⟩
  · by_cases hx : x = 47
    · subst hx
      have hnot : 47 ∉ r₀ ++ u := by simp [hmem, hu.1]
      rw [← List.append_assoc] at hr₀
      have htext := (letter_inj (tag_no_dir _) hnot hr₀).2
      exact absurd (htext ▸ by simp) hv.2.2
    · have hnot : 47 ∉ r₀ ++ (u ++ x :: v) := by simp [hmem, hu.1, hv.1, Ne.symm hx]
      exact absurd (hr₀ ▸ by simp) hnot

/-- The base URI begins with the slash. -/
theorem base_cons (r : Reading f url l p sp) : ∃ h₀, sp.basicUrl = 47 :: h₀ := by
  cases hbase : sp.basicUrl with
  | nil =>
    -- then the text behind the host is the key and the digest, and no play type
    have hhot := r.hot_eq
    rw [hbase, List.nil_append] at hhot
    have hh : r.h = [] ++ ([] ++ 101 :: (ascii "ncrypt=" ++ digest f [])) :=
      (List.cons.inj hhot).2
    have hmark : ∀ c, Mark c → c ∉ ascii "ncrypt=" → c ∉ ascii "ncrypt=" ++ digest f [] := by
      intro c hc hkey
      simp only [List.mem_append, not_or]
      exact ⟨hkey, mark_notMem_digest hc f []⟩
    obtain ⟨t₀, hserver, -⟩ := r.text_cut (by simp) ⟨hmark 47 (by decide) (by decide),
      hmark 58 (by decide) (by decide), hmark 63 (by decide) (by decide)⟩ hh
    have hnil : Server (r.host ++ 47 :: []) [] := by
      by_cases hcolon : 58 ∈ r.host
      · exact .colon r.host_dir hcolon []
      · exact .plain (by simp [hcolon]) r.host_dir
    exact absurd (hserver.unique hnil) (by simp)
  | cons c h₀ =>
    have hhot := r.hot_eq
    rw [hbase, List.cons_append] at hhot
    exact ⟨h₀, by rw [(List.cons.inj hhot).1]⟩

end Reading

/-! ## Base URIs that a factory makes -/

/-- A base URI with the timeout that `makeMediaUrl` puts at its end, and no other. -/
def FactoryMade (basicUrl : List UInt8) : Prop :=
  ∃ b₀, basicUrl = b₀ ++ 38 :: (timeOut ++ strTime) ∧ find timeOut b₀ = none

/-- There is no timestamp behind the timeout. -/
theorem find_timeStamp_lastArgs {D : List UInt8} (hD : 61 ∉ D) (x : UInt8) :
    find timeStamp (lastArgs x D) = none := by
  -- the pattern has two bytes that only `x` could be
  have honly : ∀ c, c ∉ timeOut ++ (strTime ++ strEncrypt) → c ∈ timeOut ++ (strTime ++ x :: strEncrypt) →
      c = x := by
    intro c hnot hmem
    simp only [List.mem_append, List.mem_cons, not_or] at hnot hmem
    rcases hmem with h | h | h | h
    · exact (hnot.1 h).elim
    · exact (hnot.2.1 h).elim
    · exact h
    · exact (hnot.2.2 h).elim
  have hshort : find timeStamp (timeOut ++ (strTime ++ x :: strEncrypt)) = none := by
    refine find_eq_none_iff.mpr fun h => ?_
    have hs : (115 : UInt8) = x := honly 115 (by decide) (h.subset (by decide))
    have ha : (97 : UInt8) = x := honly 97 (by decide) (h.subset (by decide))
    exact absurd (hs.trans ha.symm) (by decide)
  have htext : lastArgs x D = timeOut ++ (strTime ++ x :: strEncrypt) ++ D := by
    simp [lastArgs]
  rw [htext, find_eq_none_iff]
  exact not_infix_append (w := ascii "timestamp") hD (find_eq_none_iff.mp hshort)

theorem Reading.k_eq (r : Reading f url l p sp) : r.k = sp.basicUrl.length + 1 := by
  have hle : r.k + strEncrypt.length ≤ (47 :: r.h).length := find_le r.keys.2.2 (by decide)
  have hpos := r.k_pos
  rw [r.base_eq, List.length_take]
  omega

theorem Reading.hot_made (r : Reading f url l p sp) {b₀ : List UInt8}
    (hbase : sp.basicUrl = b₀ ++ 38 :: (timeOut ++ strTime)) :
    47 :: r.h = b₀ ++ 38 :: lastArgs r.byte (digest f sp.basicUrl) := by
  have hhot := r.hot_eq
  generalize digest f sp.basicUrl = D at hhot ⊢
  rw [hhot, hbase]
  simp [lastArgs]

/-- The only timeout is the last one, and the timestamp is in front of it. -/
theorem Reading.keys_made (r : Reading f url l p sp) {b₀ : List UInt8}
    (hbase : sp.basicUrl = b₀ ++ 38 :: (timeOut ++ strTime)) (hnone : find timeOut b₀ = none) :
    find timeStamp b₀ = some r.i ∧ r.j = b₀.length + 1 := by
  have hmark : 61 ∉ digest f sp.basicUrl := mark_notMem_digest (by decide) f _
  obtain ⟨hi, hj, -⟩ := r.keys
  rw [r.hot_made hbase] at hi hj
  constructor
  · cases hfind : find timeStamp b₀ with
    | none =>
      rw [find_segment (by decide) (by decide) (find_eq_none_iff.mp hfind),
        find_timeStamp_lastArgs hmark] at hi
      cases hi
    | some i => rw [← hi, find_append hfind (by decide)]
  · have hlast : find timeOut (lastArgs r.byte (digest f sp.basicUrl)) = some 0 :=
      find_prefix (by decide) _
    rw [find_segment (by decide) (by decide) (find_eq_none_iff.mp hnone), hlast] at hj
    simp only [Option.map_some, Option.some.injEq] at hj
    omega

/-- The parts of a URL with such a base URI. -/
theorem Reading.parts_made (r : Reading f url l p sp) {b₀ : List UInt8}
    (hbase : sp.basicUrl = b₀ ++ 38 :: (timeOut ++ strTime)) (hnone : find timeOut b₀ = none) :
    ∃ i, find timeStamp b₀ = some i ∧ sp.timestamp = b₀.drop (i + 10) ++ [38] ∧
      sp.timeout = strTime ++ [r.byte] := by
  obtain ⟨hstamp, hout⟩ := r.keys_made hbase hnone
  have hk := r.k_eq
  have hle : r.i + timeStamp.length ≤ b₀.length := find_le hstamp (by decide)
  have hlength : timeStamp.length = 10 := rfl
  have hb₀ : b₀ = b₀.take r.i ++ (timeStamp ++ b₀.drop (r.i + 10)) := by
    obtain ⟨t, ht⟩ := prefix_of_find hstamp
    have hdrop : b₀.drop (r.i + 10) = t := by
      rw [← hlength, ← List.drop_drop, ← ht, List.drop_left]
    rw [hdrop, ht, List.take_append_drop]
  refine ⟨r.i, hstamp, ?_⟩
  have hpieces := cut_pieces (b₀.take r.i) (b₀.drop (r.i + 10) ++ [38]) strTime
    (digest f sp.basicUrl) r.byte
  have hsplit := r.split_eq
  have htext : 47 :: r.h = b₀.take r.i ++ (timeStamp ++ (b₀.drop (r.i + 10) ++ [38] ++
      (timeOut ++ (strTime ++ r.byte :: (strEncrypt ++ digest f sp.basicUrl))))) := by
    rw [r.hot_made hbase]
    conv_lhs => rw [hb₀]
    simp [lastArgs]
  have htake : (b₀.take r.i).length = r.i := by
    rw [List.length_take]
    omega
  have htimeout : r.i + 10 + (b₀.drop (r.i + 10) ++ [38]).length = r.j := by
    simp only [List.length_append, List.length_drop, List.length_singleton]
    omega
  have hencrypt : r.j + 8 + strTime.length + 1 = r.k := by
    have htimeOut : timeOut.length = 8 := rfl
    rw [hk, hbase, hout]
    simp only [List.length_append, List.length_cons]
    omega
  rw [htake, htimeout, hencrypt, ← htext] at hpieces
  have hsplit := hsplit.trans hpieces
  exact ⟨congrArg Split.timestamp hsplit, congrArg Split.timeout hsplit⟩

/-! ## Two URLs with one base URI -/

/-- What is in a URL besides the base URI and the digest. -/
structure Outside where
  type : PlayUrlType
  host : List UInt8
  byte : UInt8

/-- The URL. -/
def Outside.toUrl (o : Outside) (basicUrl digest : List UInt8) : List UInt8 :=
  o.type.urlStart ++ (o.host ++ (basicUrl ++ o.byte :: (strEncrypt ++ digest)))

/-- What was authorised is the same, and for as long. -/
structure SameValues (f : Factory) (p₁ p₂ : Parsed) (sp₁ sp₂ : Split) : Prop where
  link : Agree p₁.link p₂.link
  timestamp : sp₁.timestamp = sp₂.timestamp
  timeout : atoi sp₁.timeout = atoi sp₂.timeout
  expiry : ∀ m, expired f m sp₁ = expired f m sp₂

variable {url₁ url₂ : List UInt8} {p₁ p₂ : Parsed} {sp₁ sp₂ : Split}

theorem SameValues.of_parts (hlink : Agree p₁.link p₂.link)
    (htimestamp : sp₁.timestamp = sp₂.timestamp) (htimeout : atoi sp₁.timeout = atoi sp₂.timeout) :
    SameValues f p₁ p₂ sp₁ sp₂ := by
  refine ⟨hlink, htimestamp, htimeout, fun m => ?_⟩
  unfold expired age
  rw [htimestamp, htimeout]

theorem Reading.outside (r : Reading f url l p sp) :
    url = Outside.toUrl ⟨r.type, r.host, r.byte⟩ sp.basicUrl (digest f sp.basicUrl) := by
  have hurl := r.url_eq
  rw [r.hot_eq] at hurl
  exact hurl

section Two

variable (r₁ : Reading f url₁ l p₁ sp₁) (r₂ : Reading f url₂ l p₂ sp₂)

/-- The play type, and the text up to the tail, are the same. -/
theorem Reading.same_text {h₀ u v : List UInt8} {x₁ x₂ : UInt8} (hu : 47 ∉ u ∧ 58 ∉ u)
    (hv : 47 ∉ v ∧ 58 ∉ v ∧ 63 ∉ v) (hh₁ : r₁.h = h₀ ++ (u ++ x₁ :: v))
    (hh₂ : r₂.h = h₀ ++ (u ++ x₂ :: v)) (hsame : SameStart r₁.host r₂.host (47 :: h₀)) :
    r₁.playType = r₂.playType ∧ ∃ t₀, r₁.id ++ 63 :: r₁.behind = t₀ ++ (u ++ x₁ :: v) ∧
      r₂.id ++ 63 :: r₂.behind = t₀ ++ (u ++ x₂ :: v) := by
  obtain ⟨t₁, hserver₁, htext₁⟩ := r₁.text_cut hu hv hh₁
  obtain ⟨t₂, hserver₂, htext₂⟩ := r₂.text_cut hu hv hh₂
  have hrest := Server.same r₁.host_dir r₂.host_dir hsame hserver₁ hserver₂
  obtain ⟨htag, rfl⟩ := letter_inj (tag_no_dir _) (tag_no_dir _) hrest
  refine ⟨?_, t₁, htext₁, htext₂⟩
  have hplay := playTypeOf_tag r₁.playType_valid
  rw [htag, playTypeOf_tag r₂.playType_valid] at hplay
  exact (Option.some.inj hplay).symm

/-- The same content and arguments that come to the same. -/
theorem Reading.agree (hplay : r₁.playType = r₂.playType) (hid : r₁.id = r₂.id)
    (hargs : ∀ fuel link, args fuel r₁.behind link = args fuel r₂.behind link) :
    Agree p₁.link p₂.link := by
  have hargs₁ := r₁.args_eq
  have hargs₂ := r₂.args_eq
  have hlt₁ : r₁.behind.length < r₁.behind.length + r₂.behind.length + 1 := by omega
  have hlt₂ : r₂.behind.length < r₁.behind.length + r₂.behind.length + 1 := by omega
  rw [← args_of_lt hlt₁, hargs] at hargs₁
  rw [← args_of_lt hlt₂] at hargs₂
  have hagree := fun hstart => Agree.args hstart hargs₁ hargs₂
  exact hagree ⟨hplay, hid, rfl, rfl, rfl, rfl⟩

/-- The digest's key and the digest have no letter of a URL's form. -/
theorem digest_marks (f : Factory) (s : List UInt8) :
    47 ∉ strEncrypt ++ digest f s ∧ 58 ∉ strEncrypt ++ digest f s ∧
      63 ∉ strEncrypt ++ digest f s := by
  have hmark : ∀ c, Mark c → c ∉ strEncrypt → c ∉ strEncrypt ++ digest f s := by
    intro c hc hkey
    simp only [List.mem_append, not_or]
    exact ⟨hkey, mark_notMem_digest hc f s⟩
  exact ⟨hmark 47 (by decide) (by decide), hmark 58 (by decide) (by decide),
    hmark 63 (by decide) (by decide)⟩

/-- With the same letter all is the same. -/
theorem Reading.sameValues_of_byte (hbase : sp₁.basicUrl = sp₂.basicUrl)
    (hsame : SameStart r₁.host r₂.host sp₁.basicUrl) (hbyte : r₁.byte = r₂.byte) :
    SameValues f p₁ p₂ sp₁ sp₂ := by
  have hhot₁ := r₁.hot_eq
  have hhot₂ := r₂.hot_eq
  rw [← hbase, ← hbyte, ← hhot₁] at hhot₂
  have hh := (List.cons.inj hhot₂).2
  obtain ⟨h₀, hh₀⟩ := r₁.base_cons
  rw [hh₀] at hsame
  rw [hh₀, List.cons_append] at hhot₁
  have hh₁ : r₁.h = h₀ ++ ([] ++ r₁.byte :: (strEncrypt ++ digest f (47 :: h₀))) :=
    (List.cons.inj hhot₁).2
  obtain ⟨hplay, t₀, htext₁, htext₂⟩ := Reading.same_text r₁ r₂ (by simp) (digest_marks f _) hh₁
    (hh.trans hh₁) hsame
  obtain ⟨hid, hbehind⟩ := letter_inj r₁.id_begin r₂.id_begin (htext₁.trans htext₂.symm)
  have hkeys := r₂.keys
  rw [hh] at hkeys
  obtain ⟨hi, hj, hk⟩ := r₁.keys.unique hkeys
  have hsplit : sp₁ = sp₂ := by
    rw [r₁.split_eq, r₂.split_eq, hh, hi, hj, hk]
  refine .of_parts (Reading.agree r₁ r₂ hplay hid fun fuel link => by rw [hbehind]) ?_ ?_
  · rw [hsplit]
  · rw [hsplit]

/-- What `atoi` makes of the timeout and the letter behind it. -/
theorem atoi_timeout (x : UInt8) : atoi (strTime ++ [x]) =
    if isDigit x = true then UInt32.ofNat (300 + (x.toNat - 48)) else 30 := by
  have hbytes : ∀ n < 256, atoi (strTime ++ [UInt8.ofNat n]) =
      if isDigit (UInt8.ofNat n) = true then
        UInt32.ofNat (300 + ((UInt8.ofNat n).toNat - 48)) else 30 := by
    set_option maxRecDepth 8000 in
    decide
  have hx := hbytes x.toNat x.toNat_lt
  rwa [UInt8.ofNat_toNat] at hx

/-- The letter is read with the timeout if it is a digit. -/
theorem atoi_timeout_eq_iff {x y : UInt8} : atoi (strTime ++ [x]) = atoi (strTime ++ [y]) ↔
    x = y ∨ (isDigit x = false ∧ isDigit y = false) := by
  have hdigit : ∀ {c : UInt8}, isDigit c = true → 48 ≤ c.toNat ∧ c.toNat ≤ 57 := by
    intro c hc
    simpa [isDigit, UInt8.le_iff_toNat_le] using hc
  rw [atoi_timeout, atoi_timeout]
  cases hx : isDigit x <;> cases hy : isDigit y
  · simp
  · have hy' := hdigit hy
    have hne : x ≠ y := by
      rintro rfl
      rw [hx] at hy
      cases hy
    simp [hne, ← UInt32.toNat_inj]
    omega
  · have hx' := hdigit hx
    have hne : x ≠ y := by
      rintro rfl
      rw [hx] at hy
      cases hy
    simp [hne, ← UInt32.toNat_inj]
    omega
  · have hx' := hdigit hx
    have hy' := hdigit hy
    simp [← UInt32.toNat_inj, ← UInt8.toNat_inj]
    omega

/-- A letter that is no digit, and another one: the arguments come to the same. -/
theorem Reading.agree_made (hbase : sp₁.basicUrl = sp₂.basicUrl)
    (hsame : SameStart r₁.host r₂.host sp₁.basicUrl) (hmade : FactoryMade sp₁.basicUrl)
    (hbyte : r₁.byte ≠ r₂.byte) : Agree p₁.link p₂.link := by
  obtain ⟨b₀, hb, -⟩ := hmade
  have hD := digest_marks f sp₁.basicUrl
  have hidle := idle_lastArgs (D := digest f sp₁.basicUrl)
    ⟨mark_notMem_digest (by decide) f _, mark_notMem_digest (by decide) f _⟩
  have hhot₁ := r₁.hot_eq
  have hhot₂ := r₂.hot_eq
  rw [← hbase] at hhot₂
  generalize digest f sp₁.basicUrl = D at hhot₁ hhot₂ hD hidle
  rw [hb] at hhot₁ hhot₂ hsame
  cases b₀ with
  | nil => exact absurd (List.cons.inj hhot₁).1 (by decide)
  | cons c b₀ =>
    rw [List.cons_append, List.cons_append] at hhot₁ hhot₂
    obtain ⟨rfl, hh₁⟩ := List.cons.inj hhot₁
    have hh₂ := (List.cons.inj hhot₂).2
    rw [List.append_assoc] at hh₁ hh₂
    have hu : 47 ∉ 38 :: (timeOut ++ strTime) ∧ 58 ∉ 38 :: (timeOut ++ strTime) := by decide
    have hu' : 63 ∉ 38 :: (timeOut ++ strTime) := by decide
    have hsame : SameStart r₁.host r₂.host (47 :: b₀) :=
      hsame.imp_right fun hcolon hmem => hcolon (List.mem_append_left _ hmem)
    obtain ⟨hplay, t₀, htext₁, htext₂⟩ := Reading.same_text r₁ r₂ hu hD hh₁ hh₂ hsame
    -- the arguments begin in front of the timeout, or the letter begins them in both URLs
    by_cases hbegin : 63 ∈ t₀
    · obtain ⟨id, a, rfl, hid⟩ := List.eq_append_cons_of_mem hbegin
      rw [List.append_assoc, List.cons_append] at htext₁ htext₂
      obtain ⟨hid₁, hbehind₁⟩ := letter_inj r₁.id_begin hid htext₁
      obtain ⟨hid₂, hbehind₂⟩ := letter_inj r₂.id_begin hid htext₂
      refine Reading.agree r₁ r₂ hplay (hid₁.trans hid₂.symm) fun fuel link => ?_
      have hlast : ∀ x, 38 :: (timeOut ++ strTime) ++ x :: (strEncrypt ++ D) =
          38 :: lastArgs x D := by
        intro x
        simp [lastArgs]
      rw [hbehind₁, hbehind₂, hlast, hlast]
      exact args_idle (hidle _) (hidle _) fuel a link
    · have hletter : ∀ {x : UInt8} {id behind : List UInt8},
          id ++ 63 :: behind = t₀ ++ (38 :: (timeOut ++ strTime) ++ x :: (strEncrypt ++ D)) →
            x = 63 := by
        intro x id behind htext
        rw [← List.append_assoc] at htext
        have hfront : 63 ∉ t₀ ++ 38 :: (timeOut ++ strTime) := by
          simp only [List.mem_append, not_or]
          exact ⟨hbegin, by simpa using hu'⟩
        exact eq_of_mem_append_cons hfront hD.2.2 (htext ▸ by simp)
      exact absurd ((hletter htext₁).trans (hletter htext₂).symm) hbyte

/-- With a base URI of a factory, no other letter than a digit matters. -/
theorem Reading.sameValues_made (hbase : sp₁.basicUrl = sp₂.basicUrl)
    (hsame : SameStart r₁.host r₂.host sp₁.basicUrl) (hmade : FactoryMade sp₁.basicUrl) :
    SameValues f p₁ p₂ sp₁ sp₂ ↔
      r₁.byte = r₂.byte ∨ (isDigit r₁.byte = false ∧ isDigit r₂.byte = false) := by
  have hmade' := hmade
  obtain ⟨b₀, hb, hnone⟩ := hmade'
  obtain ⟨i, hi, htimestamp₁, htimeout₁⟩ := r₁.parts_made hb hnone
  obtain ⟨i', hi', htimestamp₂, htimeout₂⟩ := r₂.parts_made (hbase ▸ hb) hnone
  obtain rfl := Option.some.inj (hi.symm.trans hi')
  rw [← atoi_timeout_eq_iff, ← htimeout₁, ← htimeout₂]
  refine ⟨fun h => h.timeout, fun htimeout => ?_⟩
  by_cases hbyte : r₁.byte = r₂.byte
  · exact Reading.sameValues_of_byte r₁ r₂ hbase hsame hbyte
  · exact .of_parts (Reading.agree_made r₁ r₂ hbase hsame hmade hbyte)
      (htimestamp₁.trans htimestamp₂.symm) htimeout

end Two

/-- Two accepted URLs with arguments and one base URI are the base URI and its digest, with a
protocol, a host and one letter around them. They are authorised for the same if the hosts end alike
and the letter is the same; and with a base URI that a factory makes, exactly if no digit makes the
letters differ. -/
theorem authorised_values (m₁ m₂ : Moment) (l : Link)
    (hparse₁ : parseMediaUrl f m₁ url₁ l = some p₁)
    (hparse₂ : parseMediaUrl f m₂ url₂ l = some p₂) (hsuccess₁ : p₁.result = .success)
    (hsuccess₂ : p₂.result = .success) (hsplit₁ : p₁.split = some sp₁)
    (hsplit₂ : p₂.split = some sp₂) (hbase : sp₁.basicUrl = sp₂.basicUrl) :
    ∃ o₁ o₂ : Outside, 47 ∉ o₁.host ∧ 47 ∉ o₂.host ∧
      url₁ = o₁.toUrl sp₁.basicUrl (digest f sp₁.basicUrl) ∧
      url₂ = o₂.toUrl sp₁.basicUrl (digest f sp₁.basicUrl) ∧
      (SameStart o₁.host o₂.host sp₁.basicUrl →
        (o₁.byte = o₂.byte → SameValues f p₁ p₂ sp₁ sp₂) ∧
        (FactoryMade sp₁.basicUrl → (SameValues f p₁ p₂ sp₁ sp₂ ↔
          o₁.byte = o₂.byte ∨ (isDigit o₁.byte = false ∧ isDigit o₂.byte = false)))) := by
  obtain ⟨r₁⟩ := exists_reading hparse₁ hsuccess₁ hsplit₁
  obtain ⟨r₂⟩ := exists_reading hparse₂ hsuccess₂ hsplit₂
  have hurl₂ := r₂.outside
  rw [← hbase] at hurl₂
  refine ⟨_, _, r₁.host_dir, r₂.host_dir, r₁.outside, hurl₂, fun hsame => ?_⟩
  exact ⟨Reading.sameValues_of_byte r₁ r₂ hbase hsame,
    Reading.sameValues_made r₁ r₂ hbase hsame⟩

/-- A URL with a digest of zeros, and a letter in front of its key. -/
def timeoutUrl (x : UInt8) : List UInt8 :=
  ascii "rtsp://h/live/c?timestamp=&timeout=30" ++ x :: (strEncrypt ++ List.replicate 32 48)

theorem authorised_values_zero : ∃ p₁ p₂ sp₁ sp₂,
    parseMediaUrl zeroFactory zeroMoment (timeoutUrl 38) Link.init = some p₁ ∧
    parseMediaUrl zeroFactory zeroMoment (timeoutUrl 44) Link.init = some p₂ ∧
    ∃ o₁ o₂ : Outside, 47 ∉ o₁.host ∧ 47 ∉ o₂.host ∧
      timeoutUrl 38 = o₁.toUrl sp₁.basicUrl (digest zeroFactory sp₁.basicUrl) ∧
      timeoutUrl 44 = o₂.toUrl sp₁.basicUrl (digest zeroFactory sp₁.basicUrl) ∧
      (SameStart o₁.host o₂.host sp₁.basicUrl →
        (o₁.byte = o₂.byte → SameValues zeroFactory p₁ p₂ sp₁ sp₂) ∧
        (FactoryMade sp₁.basicUrl → (SameValues zeroFactory p₁ p₂ sp₁ sp₂ ↔
          o₁.byte = o₂.byte ∨ (isDigit o₁.byte = false ∧ isDigit o₂.byte = false)))) :=
  ⟨_, _, _, _, rfl, rfl, authorised_values zeroMoment zeroMoment Link.init rfl rfl rfl rfl rfl rfl
    (by decide)⟩

/-- With a `9` in place of the `&`, thirty seconds become 309. -/
theorem authorised_timeout_extended : ∃ p₁ p₂ sp₁ sp₂,
    parseMediaUrl zeroFactory zeroMoment (timeoutUrl 38) Link.init = some p₁ ∧
    parseMediaUrl zeroFactory zeroMoment (timeoutUrl 57) Link.init = some p₂ ∧
    p₁.result = .success ∧ p₂.result = .success ∧ p₁.split = some sp₁ ∧ p₂.split = some sp₂ ∧
    sp₁.basicUrl = sp₂.basicUrl ∧ sp₁.encrypt = sp₂.encrypt ∧
    ¬ SameValues zeroFactory p₁ p₂ sp₁ sp₂ :=
  ⟨_, _, _, _, rfl, rfl, rfl, rfl, rfl, rfl, by decide, by decide,
    fun h => absurd h.timeout (by decide)⟩

end AllCamera.MediaLink
