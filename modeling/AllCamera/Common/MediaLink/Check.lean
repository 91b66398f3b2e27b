import AllCamera.Common.MediaLink.Parse

/-!
# What an accepted URL has shown

* `Signed`: a URL whose arguments carry the digest of its base URI. `Authorised`: and whose time is
  within its timeout.
* `Unchecked`, `Wrapped`: the URLs that are accepted all the same.
* `LongTimestamp`: the URLs whose timestamp is as long as `str2time` takes it to be.
-/

namespace AllCamera.MediaLink

variable {f : Factory} {m : Moment} {url hot text : List UInt8} {link : Link} {playType : PlayType}
  {sp : Split}

/-! ## One reading of a URL -/

theorem Server.unique {s r r' : List UInt8} (h : Server s r) (h' : Server s r') : r' = r := by
  obtain ⟨ip, port, haddr⟩ := address_server h Link.init
  obtain ⟨ip', port', haddr'⟩ := address_server h' Link.init
  rw [haddr] at haddr'
  simp only [Option.some.injEq, Prod.mk.injEq] at haddr'
  exact haddr'.2.symm

theorem Request.unique {playType' : PlayType} {hot' text' : List UInt8}
    (h : Request url playType hot text) (h' : Request url playType' hot' text') :
    playType' = playType ∧ hot' = hot ∧ text' = text := by
  cases h with
  | @mk type host hot _ _ htype hhost hplay hserver =>
    generalize hurl : type.urlStart ++ (host ++ 47 :: hot) = url at h'
    cases h' with
    | @mk type' host' hot' _ _ htype' hhost' hplay' hserver' =>
      have hprotocol := protocol_start htype (host ++ 47 :: hot)
      rw [hurl, protocol_start htype'] at hprotocol
      simp only [Option.some.injEq, Prod.mk.injEq] at hprotocol
      have hdir := hotUri_dir hhost hot
      rw [← hprotocol.2, hotUri_dir hhost'] at hdir
      rw [← hprotocol.2] at hserver
      have htag := untilDir_dir (tag_no_dir playType) text
      rw [hserver'.unique hserver, untilDir_dir (tag_no_dir playType')] at htag
      simp only [Option.some.injEq, Prod.mk.injEq] at htag hdir
      have htype := playTypeOf_tag hplay
      rw [← htag.1, playTypeOf_tag hplay'] at htype
      exact ⟨Option.some.inj htype, hdir, htag.2⟩

/-! ## What parsing gives -/

/-- The three ends of `parseMediaUrl`: it fails, nothing is checked, or the arguments are. -/
theorem parseMediaUrl_cases (f : Factory) (m : Moment) (url : List UInt8) (link : Link) :
    (∃ link', parseMediaUrl f m url link = some ⟨.fail, link', none⟩ ∧
      ∀ playType hot text, ¬ Request url playType hot text) ∨
    ∃ playType hot text, Request url playType hot text ∧
      ((63 ∉ text ∧ ∃ link', parseMediaUrl f m url link = some ⟨.success, link', none⟩) ∨
      (63 ∈ text ∧ (∀ i j k, ¬ Keys hot i j k) ∧
        ∃ link', parseMediaUrl f m url link = some ⟨.authFail, link', none⟩) ∨
      (63 ∈ text ∧ ∃ i j k, Keys hot i j k ∧ ∃ link', parseMediaUrl f m url link =
        some ⟨verdict f m (cut hot i j k), link', some (cut hot i j k)⟩)) := by
  by_cases hrequest : ∃ playType hot text, Request url playType hot text
  · obtain ⟨playType, hot, text, hrequest⟩ := hrequest
    refine .inr ⟨playType, hot, text, hrequest, ?_⟩
    obtain ⟨type, ip, port, hparse⟩ := parseMediaUrl_request f m link hrequest
    rw [hparse]
    by_cases hbegin : 63 ∈ text
    · obtain ⟨id, behind, rfl, hid⟩ := List.eq_append_cons_of_mem hbegin
      obtain ⟨link', hargs⟩ := args_some (behind.length + 1) behind
        { link with
          url := url, urlType := type, serverIP := ip, port := port, playType := playType
          contentID := id }
      by_cases hkeys : ∃ i j k, Keys hot i j k
      · obtain ⟨i, j, k, hkeys⟩ := hkeys
        exact .inr (.inr ⟨hbegin, i, j, k, hkeys, link',
          content_args hid hargs (checkHoturi_keys hkeys)⟩)
      · have hkeys : ∀ i j k, ¬ Keys hot i j k := fun i j k h => hkeys ⟨i, j, k, h⟩
        exact .inr (.inl ⟨hbegin, hkeys, link', content_args hid hargs (checkHoturi_none hkeys)⟩)
    · exact .inl ⟨hbegin, _, content_plain hbegin⟩
  · have hnone : ∀ playType hot text, ¬ Request url playType hot text :=
      fun playType hot text h => hrequest ⟨playType, hot, text, h⟩
    obtain ⟨link', hparse⟩ := parseMediaUrl_fail f m link hnone
    exact .inl ⟨link', hparse, hnone⟩

/-! ## Authorisation -/

/-- `url` carries the arguments `sp`, and the digest of their base URI. -/
def Signed (f : Factory) (url : List UInt8) (sp : Split) : Prop :=
  ∃ playType hot text i j k, Request url playType hot text ∧ 63 ∈ text ∧ Keys hot i j k ∧
    sp = cut hot i j k ∧ sp.encrypt = digest f sp.basicUrl

/-- The time of the URL is within its timeout. -/
def Authorised (f : Factory) (m : Moment) (url : List UInt8) : Prop :=
  ∃ sp, Signed f url sp ∧ age f m sp ≤ (atoi sp.timeout).toNat

/-- A URL of a content without arguments. -/
def Unchecked (url : List UInt8) : Prop :=
  ∃ playType hot text, Request url playType hot text ∧ 63 ∉ text

/-- A signed URL so old, or from so far ahead, that the age is within the timeout in 32 bits only. -/
def Wrapped (f : Factory) (m : Moment) (url : List UInt8) : Prop :=
  ∃ sp, Signed f url sp ∧ (atoi sp.timeout).toNat < age f m sp ∧
    age f m sp % 2 ^ 32 ≤ (atoi sp.timeout).toNat

theorem Signed.unique {sp' : Split} (h : Signed f url sp) (h' : Signed f url sp') : sp' = sp := by
  obtain ⟨playType, hot, text, i, j, k, hrequest, -, hkeys, rfl, -⟩ := h
  obtain ⟨playType', hot', text', i', j', k', hrequest', -, hkeys', rfl, -⟩ := h'
  obtain ⟨-, rfl, -⟩ := hrequest.unique hrequest'
  obtain ⟨rfl, rfl, rfl⟩ := hkeys.unique hkeys'
  rfl

/-- The check accepts what is signed and young in 32 bits. -/
theorem verdict_success : verdict f m sp = .success ↔
    sp.encrypt = digest f sp.basicUrl ∧ age f m sp % 2 ^ 32 ≤ (atoi sp.timeout).toNat := by
  unfold verdict expired
  by_cases hage : age f m sp % 2 ^ 32 ≤ (atoi sp.timeout).toNat
  · have hexpired : ¬ decide ((atoi sp.timeout).toNat < age f m sp % 2 ^ 32) = true := by
      simpa using hage
    rw [if_neg hexpired]
    by_cases hencrypt : sp.encrypt = digest f sp.basicUrl
    · rw [if_neg (not_not.mpr hencrypt)]
      exact iff_of_true rfl ⟨hencrypt, hage⟩
    · rw [if_pos hencrypt]
      exact iff_of_false nofun fun h => hencrypt h.1
  · have hexpired : decide ((atoi sp.timeout).toNat < age f m sp % 2 ^ 32) = true := by
      simpa using hage
    rw [if_pos hexpired]
    exact iff_of_false nofun fun h => hage h.2

/-- What an accepted URL is. -/
theorem accepted_cases {p : Parsed} (h : parseMediaUrl f m url link = some p)
    (hsuccess : p.result = .success) :
    (Unchecked url ∧ p.split = none) ∨
      ∃ sp, p.split = some sp ∧ Signed f url sp ∧
        age f m sp % 2 ^ 32 ≤ (atoi sp.timeout).toNat := by
  rcases parseMediaUrl_cases f m url link with ⟨link', hparse, -⟩ |
    ⟨playType, hot, text, hrequest, ⟨hbegin, link', hparse⟩ | ⟨hbegin, -, link', hparse⟩ |
      ⟨hbegin, i, j, k, hkeys, link', hparse⟩⟩
  all_goals rw [hparse] at h; obtain rfl := Option.some.inj h
  · cases hsuccess
  · exact .inl ⟨⟨playType, hot, text, hrequest, hbegin⟩, rfl⟩
  · cases hsuccess
  · obtain ⟨hencrypt, hage⟩ := verdict_success.mp hsuccess
    exact .inr ⟨_, rfl, ⟨playType, hot, text, i, j, k, hrequest, hbegin, hkeys, rfl, hencrypt⟩, hage⟩

/-- Without arguments nothing is authorised, but accepted. -/
theorem Unchecked.accepted (h : Unchecked url) (f : Factory) (m : Moment) (link : Link) :
    (∃ link', parseMediaUrl f m url link = some ⟨.success, link', none⟩) ∧
      ¬ Authorised f m url := by
  obtain ⟨playType, hot, text, hrequest, hbegin⟩ := h
  refine ⟨?_, ?_⟩
  · obtain ⟨type, ip, port, hparse⟩ := parseMediaUrl_request f m link hrequest
    exact ⟨_, hparse.trans (content_plain hbegin)⟩
  · rintro ⟨sp, ⟨playType', hot', text', i, j, k, hrequest', hbegin', -⟩, -⟩
    obtain ⟨-, -, rfl⟩ := hrequest.unique hrequest'
    exact hbegin hbegin'

theorem Wrapped.accepted (h : Wrapped f m url) (link : Link) :
    (∃ link' sp, parseMediaUrl f m url link = some ⟨.success, link', some sp⟩) ∧
      ¬ Authorised f m url := by
  obtain ⟨sp, hsigned, hlong, hage⟩ := h
  refine ⟨?_, ?_⟩
  · obtain ⟨playType, hot, text, i, j, k, hrequest, hbegin, hkeys, rfl, hencrypt⟩ := hsigned
    obtain ⟨id, behind, rfl, hid⟩ := List.eq_append_cons_of_mem hbegin
    obtain ⟨type, ip, port, hparse⟩ := parseMediaUrl_request f m link hrequest
    obtain ⟨link', hargs⟩ := args_some (behind.length + 1) behind
      { link with
        url := url, urlType := type, serverIP := ip, port := port, playType := playType
        contentID := id }
    refine ⟨link', cut hot i j k, hparse.trans ?_⟩
    rw [content_args hid hargs (checkHoturi_keys hkeys), verdict_success.mpr ⟨hencrypt, hage⟩]
  · rintro ⟨sp', hsigned', hyoung⟩
    obtain rfl := hsigned.unique hsigned'
    exact absurd hyoung (Nat.not_le.mpr hlong)

/-- Accepted URLs are authorised, except those without arguments and those whose age wraps. -/
theorem parseMediaUrl_authorised_iff (f : Factory) (m : Moment) (url : List UInt8) (link : Link) :
    (∀ p, parseMediaUrl f m url link = some p → p.result = .success → Authorised f m url) ↔
      ¬ Unchecked url ∧ ¬ Wrapped f m url := by
  constructor
  · intro h
    refine ⟨?_, ?_⟩
    · intro hunchecked
      obtain ⟨⟨link', hparse⟩, hnot⟩ := hunchecked.accepted f m link
      exact hnot (h _ hparse rfl)
    · intro hwrapped
      obtain ⟨⟨link', sp, hparse⟩, hnot⟩ := hwrapped.accepted link
      exact hnot (h _ hparse rfl)
  · rintro ⟨hchecked, hwrapped⟩ p hparse hsuccess
    rcases accepted_cases hparse hsuccess with ⟨hunchecked, -⟩ | ⟨sp, -, hsigned, hage⟩
    · exact absurd hunchecked hchecked
    · refine ⟨sp, hsigned, Nat.not_lt.mp ?_⟩
      intro hlong
      exact hwrapped ⟨sp, hsigned, hlong, hage⟩

/-- A factory and a moment for small cases: a digest of zeros, and time zero. -/
def zeroFactory : Factory where
  mask := ascii "svs_url_mask"
  md5 := fun _ _ => 0
  localtime := fun _ => ⟨70, 0, 1, 0, 0, 0⟩
  mktime := fun _ => 0

def zeroMoment : Moment := ⟨0, fun _ => 0⟩

/-- `rtsp://h/live/c` is accepted. -/
theorem parseMediaUrl_bypass :
    ∃ p, parseMediaUrl zeroFactory zeroMoment (ascii "rtsp://h/live/c") Link.init = some p ∧
      p.result = .success ∧ ¬ Authorised zeroFactory zeroMoment (ascii "rtsp://h/live/c") := by
  have hserver : Server (ascii "h" ++ 47 :: (ascii "live/c")) (ascii "live" ++ 47 :: ascii "c") :=
    .plain (by decide) (by decide)
  have hrequest : Request (urlPrefixRtsp ++ (ascii "h" ++ 47 :: ascii "live/c")) .live
      (47 :: ascii "live/c") (ascii "c") :=
    .mk (.inl rfl : PlayUrlType.rtsp.Valid) (by decide) (by simp [PlayType.Valid]) hserver
  have hunchecked : Unchecked (ascii "rtsp://h/live/c") := ⟨_, _, _, hrequest, by decide⟩
  obtain ⟨⟨link', hparse⟩, hnot⟩ := hunchecked.accepted zeroFactory zeroMoment Link.init
  exact ⟨_, hparse, rfl, hnot⟩

/-! ## Reading the timestamp -/

/-- The offsets that `str2time` reads. -/
def str2timeReads : List Nat :=
  str2timeFields.flatMap fun field => (List.range field.2).map (field.1 + ·)

/-- The timestamp has fourteen letters, `extra` included: the zero behind the text, where that may
be read, is one. -/
def LongTimestamp (extra : Nat) (url : List UInt8) : Prop :=
  ∀ playType hot text i j k, Request url playType hot text → 63 ∈ text → Keys hot i j k →
    14 ≤ (if i + 10 ≤ j then j - (i + 10) else hot.length - (i + 10)) + extra

theorem Keys.timestamp_length {i j k : Nat} (h : Keys hot i j k) :
    (cut hot i j k).timestamp.length =
      if i + 10 ≤ j then j - (i + 10) else hot.length - (i + 10) := by
  have htimeout : j + 8 ≤ hot.length := find_le h.2.1 (by decide)
  have hlength : (cut hot i j k).timestamp.length =
      min (sizeSub hot j (i + 10)) (hot.length - (i + 10)) := by
    simp [cut]
  rw [hlength]
  unfold sizeSub
  split <;> omega

theorem str2timeReads_lt {n : Nat} : (∀ o ∈ str2timeReads, o < n) ↔ 14 ≤ n := by
  have hreads : str2timeReads = List.range 14 := by decide
  rw [hreads]
  constructor
  · intro h
    exact h 13 (by decide)
  · intro h o ho
    exact Nat.lt_of_lt_of_le (List.mem_range.mp ho) h

/-- Parsing ends and never cuts outside of the text; it reads inside of the timestamp exactly when
that is long enough. -/
theorem parseMediaUrl_reads_iff (f : Factory) (m : Moment) (url : List UInt8) (link : Link)
    (extra : Nat) :
    (∀ fuel text link, text.length < fuel →
      args fuel text link = args (text.length + 1) text link) ∧
    ∃ p, parseMediaUrl f m url link = some p ∧
      ((∀ sp, p.split = some sp → ∀ o ∈ str2timeReads, o < sp.timestamp.length + extra) ↔
        LongTimestamp extra url) := by
  refine ⟨fun fuel text link h => args_of_lt h link, ?_⟩
  rcases parseMediaUrl_cases f m url link with ⟨link', hparse, hnone⟩ |
    ⟨playType, hot, text, hrequest, ⟨hbegin, link', hparse⟩ | ⟨hbegin, hkeys, link', hparse⟩ |
      ⟨hbegin, i, j, k, hkeys, link', hparse⟩⟩
  all_goals refine ⟨_, hparse, ?_⟩
  · refine ⟨fun _ playType hot text i j k hrequest => ?_, fun _ _ h => nomatch h⟩
    exact absurd hrequest (hnone playType hot text)
  · refine ⟨fun _ playType' hot' text' i j k hrequest' hbegin' => ?_, fun _ _ h => nomatch h⟩
    obtain ⟨-, -, rfl⟩ := hrequest.unique hrequest'
    exact absurd hbegin' hbegin
  · refine ⟨fun _ playType' hot' text' i j k hrequest' _ hkeys' => ?_, fun _ _ h => nomatch h⟩
    obtain ⟨-, rfl, -⟩ := hrequest.unique hrequest'
    exact absurd hkeys' (hkeys i j k)
  · constructor
    · intro h playType' hot' text' i' j' k' hrequest' _ hkeys'
      obtain ⟨-, rfl, -⟩ := hrequest.unique hrequest'
      obtain ⟨rfl, rfl, rfl⟩ := hkeys.unique hkeys'
      rw [← hkeys.timestamp_length]
      exact str2timeReads_lt.mp (h _ rfl)
    · intro h sp hsp
      obtain rfl := Option.some.inj hsp
      rw [str2timeReads_lt, hkeys.timestamp_length]
      exact h playType hot text i j k hrequest hbegin hkeys

/-- An empty timestamp is read up to thirteen bytes behind its end, before the digest is looked at. -/
theorem parseMediaUrl_overread :
    ∃ p sp, parseMediaUrl zeroFactory zeroMoment
        (ascii "rtsp://h/live/c?timestamp=timeout=30&encrypt=0") Link.init = some p ∧
      p.split = some sp ∧ sp.encrypt ≠ digest zeroFactory sp.basicUrl ∧ sp.timestamp = [] ∧
      13 ∈ str2timeReads :=
  ⟨_, _, rfl, rfl, by decide, by decide, by decide⟩

end AllCamera.MediaLink
