import AllCamera.Stream.Sdp.RoundTrip
import Mathlib.Data.List.DropRight

/-!
# The last line of a session description

`getNextLine` tells the end of a text from the end of a line after it has gone over the line. So a last line without
an end is not read. How the other lines end plays no part.

* `LineEnd`, `Relined`: texts with the same lines and other ends. `EndsAlike`: what is wanted of a text.
* `LineHeld`, `LastLineHeld`: what the last line says is refused and there is no entry, or it is so already.
* `runLines_terminated`, `endsAlike_iff`.
-/

namespace AllCamera.MediaSdp

/-! ## What is wanted -/

/-- What ends a line. -/
inductive LineEnd
  | lf
  | cr
  | crlf
  deriving DecidableEq

def LineEnd.bytes : LineEnd → List UInt8
  | .lf => [10]
  | .cr => [13]
  | .crlf => [13, 10]

/-- The text of lines, each with its end. -/
def endedLines (ls : List (List UInt8 × LineEnd)) : List UInt8 := ls.flatMap fun l => l.1 ++ l.2.bytes

/-- The texts have the same lines, and may end them in other ways. -/
def Relined (text text' : List UInt8) : Prop :=
  ∃ ls ls' last, ls.map Prod.fst = ls'.map Prod.fst ∧ text = endedLines ls ++ last ∧ text' = endedLines ls' ++ last

/-- The media lists, the attributes and the direction are the same. -/
structure SameMedia (s s' : MediaSdp) : Prop where
  videoInfoList : s.videoInfoList = s'.videoInfoList
  audioInfoList : s.audioInfoList = s'.audioInfoList
  range : s.range = s'.range
  strUrl : s.strUrl = s'.strUrl
  enTransDirect : s.enTransDirect = s'.enTransDirect

/-- Two calls of `decodeSdp` have the same result. -/
def SameResult (r r' : SdpRet × MediaSdp) : Prop := r.1 = r'.1 ∧ SameMedia r.2 r'.2

/-- What is wanted of a text: the end of its last line may be left out, and it may have other line ends. -/
structure EndsAlike (text : List UInt8) : Prop where
  terminator : (∀ c ∈ text.getLast?, c ≠ 10 ∧ c ≠ 13) →
    ∀ e : LineEnd, SameResult (decodeSdp init text) (decodeSdp init (text ++ e.bytes))
  lineEnds : ∀ text', Relined text text' → decodeSdp init text = decodeSdp init text'

/-! ## What a line says -/

/-- The text behind `n` fields. -/
def behindFields : Nat → List UInt8 → Option (List UInt8)
  | 0, psz => some psz
  | n + 1, psz =>
    match nextField psz with
    | none => none
    | some psz => behindFields n (jumpSpace psz)

/-- The direction that an attribute names. -/
def attrDirect (psz : List UInt8) : Option TransDirection :=
  if strSdpRecvonlyAttr.length < psz.length then
    if strSdpRecvonlyAttr.isPrefixOf psz then some .recvonly
    else if strSdpSendonlyAttr.isPrefixOf psz then some .sendonly
    else if strSdpSendrecvAttr.isPrefixOf psz then some .sendrecv
    else none
  else none

/-- The last entry of the list, if there is one, has the text in a field. -/
def EntryHas (s : MediaSdp) (media : SdpMedia) (field : SdpMediaInfo → List UInt8) (x : List UInt8) : Prop :=
  ∀ info ∈ (s.getList media).getLast?, field info = x

/-- An attribute of an entry is refused and there is no entry, or what it says is so already. -/
def EntryAttributeHeld (psz : List UInt8) (s : MediaSdp) (media : SdpMedia) : Prop :=
  if hasAttr strSdpRtpmap psz then
    match nextField psz with
    | none => s.entries = []
    | some x => s.EntryHas media (·.strRtpmap) x
  else if hasAttr strSdpFmtp psz then
    match nextField psz with
    | none => s.entries = []
    | some x => s.EntryHas media (·.strFmtp) x
  else if hasAttr strSdpControlAttr psz then s.EntryHas media (·.strControl) (psz.drop strSdpControlAttr.length)
  else if (ascii "range").isPrefixOf psz then s.range = psz
  else ∀ x ∈ attrDirect psz, s.enTransDirect = x

/-- The same for an attribute; behind other media it is one of the session. -/
def AttributeHeld (psz : List UInt8) (s : MediaSdp) (pMediaInfo : Option SdpMedia) : Prop :=
  match pMediaInfo with
  | none => s.entries = []
  | some media =>
    match s.enParseStatus with
    | .globalInfo => hasAttr strSdpControlAttr psz = true → s.strUrl = psz.drop strSdpControlAttr.length
    | _ => EntryAttributeHeld psz s media

/-- The same for a statement: no other media are described by it, and it is complete if there is an entry. -/
def StatementHeld (cCode : UInt8) (psz : List UInt8) (d : Decoding) : Prop :=
  if cCode = 99 then behindFields 2 psz = none → d.sdp.entries = []
  else if cCode = 109 then
    lower (psz.headD 0) = 118 ∨ lower (psz.headD 0) = 97 →
      d.sdp.entries = [] ∧ ∀ x ∈ behindFields 3 psz, x = []
  else if cCode = 97 then AttributeHeld psz d.sdp d.pMediaInfo
  else if cCode = 117 then d.sdp.strUrl = psz
  else True

/-- The same for a line. -/
def LineHeld (l : List UInt8) (d : Decoding) : Prop :=
  match jumpSpace l with
  | [] => True
  | cCode :: psz =>
    match jumpSpace psz with
    | 61 :: psz =>
      if lower cCode ≠ 118 ∧ d.bFirst then d.sdp.entries = []
      else StatementHeld (lower cCode) (jumpSpace psz) d
    | _ => d.sdp.entries = []

/-- The text behind the last end of a line. -/
def lastLine (text : List UInt8) : List UInt8 := text.rtakeWhile fun c => !isBreak c

/-- The decoder before the first line. -/
def start : Decoding := ⟨init, none, .ok, true⟩

/-- The same for the last line of a text, if the decoder gets to it. -/
def LastLineHeld (text : List UInt8) : Prop :=
  ∀ d, runLines (cLines text) start = .ok d → d.nRet = .ok → LineHeld (lastLine text) d

/-! ## The lines of a text -/

variable {s t text : List UInt8} {ls ls' : List (List UInt8)} {d d' : Decoding}

theorem lastLine_clean (hs : Clean s) : lastLine s = s := by
  refine List.rtakeWhile_eq_self_iff.mpr fun c hc => ?_
  rw [hs c hc]
  rfl

theorem lastLine_append (l : List UInt8) {b : UInt8} (hb : isBreak b = true) (t : List UInt8) :
    lastLine (l ++ b :: t) = lastLine t := by
  have hbreak : (b :: l.reverse).takeWhile (fun c => !isBreak c) = [] :=
    List.takeWhile_cons_of_neg (by rw [hb]; exact Bool.false_ne_true)
  have hrev : (l ++ b :: t).reverse = t.reverse ++ b :: l.reverse := by simp
  unfold lastLine List.rtakeWhile
  rw [hrev, List.takeWhile_append, hbreak, List.append_nil]
  split
  · next hlength => rw [(List.takeWhile_prefix _).eq_of_length hlength]
  · rfl

/-- A text, the end of its last line, and more. -/
theorem cLines_terminated (s : List UInt8) {b : UInt8} (hb : isBreak b = true) (t : List UInt8) :
    cLines (s ++ b :: t) = cLines s ++ lastLine s :: cLines t := by
  generalize hn : s.length = n
  induction n using Nat.strong_induction_on generalizing s with
  | _ n ih =>
    rcases line_cases s with ⟨l, b', u, hl, hb', rfl⟩ | hs
    · have hlt : u.length < n := by
        rw [← hn, List.length_append, List.length_cons]
        omega
      rw [List.append_assoc, List.cons_append, cLines_append hl hb', cLines_append hl hb', lastLine_append l hb',
        ih u.length hlt u rfl, List.cons_append]
    · rw [cLines_append hs hb, cLines_of_no_break hs, lastLine_clean hs, List.nil_append]

/-- The lines with something in them. -/
def filled (ls : List (List UInt8)) : List (List UInt8) := ls.filter fun l => !l.isEmpty

theorem filled_append (ls ls' : List (List UInt8)) : filled (ls ++ ls') = filled ls ++ filled ls' :=
  List.filter_append ..

/-- How a line ends plays no part. -/
theorem filled_end (l : List UInt8) (e : LineEnd) (t : List UInt8) :
    filled (cLines (l ++ e.bytes ++ t)) = filled (cLines l) ++ (filled [lastLine l] ++ filled (cLines t)) := by
  have hone : ∀ b, isBreak b = true → filled (cLines (l ++ b :: t)) =
      filled (cLines l) ++ (filled [lastLine l] ++ filled (cLines t)) := by
    intro b hb
    rw [cLines_terminated l hb, ← List.singleton_append, filled_append, filled_append]
  cases e with
  | lf =>
    rw [List.append_assoc]
    exact hone 10 rfl
  | cr =>
    rw [List.append_assoc]
    exact hone 13 rfl
  | crlf =>
    have htext : l ++ LineEnd.crlf.bytes ++ t = l ++ 13 :: ([] ++ 10 :: t) := by simp [LineEnd.bytes]
    rw [htext, cLines_terminated l rfl, cLines_terminated [] rfl, ← List.singleton_append, filled_append, filled_append]
    rfl

theorem Relined.filled {text' : List UInt8} (h : Relined text text') :
    MediaSdp.filled (cLines text) = MediaSdp.filled (cLines text') := by
  obtain ⟨ls, ls', last, hlines, rfl, rfl⟩ := h
  induction ls generalizing ls' with
  | nil =>
    cases ls' with
    | nil => rfl
    | cons l' ls' => cases hlines
  | cons l ls ih =>
    cases ls' with
    | nil => cases hlines
    | cons l' ls' =>
      obtain ⟨line, e⟩ := l
      obtain ⟨line', e'⟩ := l'
      simp only [List.map_cons, List.cons.injEq] at hlines
      obtain ⟨rfl, hrest⟩ := hlines
      have hfirst : ∀ (e : LineEnd) (ls : List (List UInt8 × LineEnd)),
          endedLines ((line, e) :: ls) ++ last = line ++ e.bytes ++ (endedLines ls ++ last) := by
        intro e ls
        rw [endedLines, List.flatMap_cons, List.append_assoc]
        rfl
      rw [hfirst, hfirst, filled_end, filled_end, ih ls' hrest]

/-! ## The decoder on lines -/

/-- What `decodeSdp` returns, and the description, after its loop. -/
def finish : Except MediaSdp Decoding → SdpRet × MediaSdp
  | .error sdp => (.fail, sdp)
  | .ok d => (if d.sdp.entries = [] then .fail else d.nRet, d.sdp)

theorem decodeSdp_eq (text : List UInt8) : decodeSdp init text = finish (runLines (cLines text) start) := by
  have hlines := decodeLines_eq [] text start (Nat.lt_succ_self text.length)
  rw [List.nil_append, List.length_nil] at hlines
  unfold decodeSdp
  by_cases hempty : text = []
  · rw [if_pos hempty, hempty]
    rfl
  · rw [if_neg hempty]
    simp only [start] at hlines
    rw [hlines]
    simp only [start]
    cases runLines (cLines text) ⟨init, none, .ok, true⟩ with
    | error sdp => rfl
    | ok d =>
      simp only [finish]
      by_cases hnone : d.sdp.entries = []
      · rw [if_pos (List.append_eq_nil_iff.mp hnone), if_pos hnone]
      · rw [if_neg fun h => hnone (List.append_eq_nil_iff.mpr h), if_neg hnone]

theorem runLines_append (hd : d.nRet = .ok) (ls ls' : List (List UInt8)) :
    runLines (ls ++ ls') d =
      match runLines ls d with
      | .error sdp => .error sdp
      | .ok d' => if d'.nRet = .ok then runLines ls' d' else .ok d' := by
  induction ls generalizing d with
  | nil =>
    simp only [List.nil_append, runLines]
    rw [if_pos hd]
  | cons l ls ih =>
    rw [List.cons_append, runLines, runLines]
    cases decodeLine l d with
    | error sdp => rfl
    | ok d₁ =>
      simp only
      by_cases hd₁ : d₁.nRet = .ok
      · rw [if_pos hd₁, if_pos hd₁, ih hd₁]
      · rw [if_neg hd₁, if_neg hd₁]
        simp only
        rw [if_neg hd₁]

/-- Empty lines do nothing. -/
theorem runLines_filled (hd : d.nRet = .ok) (ls : List (List UInt8)) : runLines (filled ls) d = runLines ls d := by
  induction ls generalizing d with
  | nil => rfl
  | cons l ls ih =>
    cases l with
    | nil =>
      have hempty : decodeLine [] d = .ok d := rfl
      have hfilled : filled ([] :: ls) = filled ls := rfl
      rw [hfilled, ih hd, runLines, hempty]
      simp only
      rw [if_pos hd]
    | cons c l =>
      have hfilled : filled ((c :: l) :: ls) = (c :: l) :: filled ls := rfl
      rw [hfilled, runLines, runLines]
      cases decodeLine (c :: l) d with
      | error sdp => rfl
      | ok d₁ =>
        simp only
        by_cases hd₁ : d₁.nRet = .ok
        · rw [if_pos hd₁, if_pos hd₁, ih hd₁]
        · rw [if_neg hd₁, if_neg hd₁]

/-- With an end behind it the last line is read. -/
theorem runLines_terminated (hd : d.nRet = .ok) (text : List UInt8) (e : LineEnd) :
    runLines (cLines (text ++ e.bytes)) d = runLines (cLines text ++ [lastLine text]) d := by
  have hend := filled_end text e []
  rw [List.append_nil] at hend
  rw [← runLines_filled hd, ← runLines_filled hd (cLines text ++ [lastLine text]), hend, filled_append]
  congr 2
  exact List.append_nil _

/-! ## What is kept -/

theorem SameMedia.refl (s : MediaSdp) : SameMedia s s := ⟨rfl, rfl, rfl, rfl, rfl⟩

theorem SameMedia.entries {s s' : MediaSdp} (h : SameMedia s s') : s'.entries = s.entries := by
  unfold MediaSdp.entries
  rw [h.videoInfoList, h.audioInfoList]

/-- Between two states: all of this is kept, and a line is refused only without an entry. -/
def Keeps (s : MediaSdp) (nRet : SdpRet) (s' : MediaSdp) : Prop := SameMedia s s' ∧ (nRet = .ok ∨ s.entries = [])

theorem keeps_ok {s : MediaSdp} : Keeps s .ok s := ⟨.refl s, .inl rfl⟩

theorem keeps_fail {s : MediaSdp} : Keeps s .fail s ↔ s.entries = [] :=
  ⟨fun h => h.2.resolve_left SdpRet.noConfusion, fun h => ⟨.refl s, .inr h⟩⟩

theorem sameResult_ok (hd : d.nRet = .ok) (d' : Decoding) :
    SameResult (finish (.ok d)) (finish (.ok d')) ↔ Keeps d.sdp d'.nRet d'.sdp := by
  simp only [SameResult, finish, Keeps]
  rw [and_comm]
  refine and_congr_right fun hsame => ?_
  rw [hsame.entries, hd]
  by_cases hnone : d.sdp.entries = []
  · rw [if_pos hnone, if_pos hnone]
    exact iff_of_true rfl (.inr hnone)
  · rw [if_neg hnone, if_neg hnone]
    exact ⟨fun h => .inl h.symm, fun h => (h.resolve_right hnone).symm⟩

theorem sameResult_error (hd : d.nRet = .ok) :
    SameResult (finish (.ok d)) (finish (.error d.sdp)) ↔ d.sdp.entries = [] := by
  simp only [SameResult, finish, hd]
  constructor
  · rintro ⟨hret, -⟩
    by_contra hne
    rw [if_neg hne] at hret
    cases hret
  · intro hnone
    rw [if_pos hnone]
    exact ⟨rfl, .refl _⟩

/-! ## What a statement does -/

variable {psz : List UInt8} {sdp : MediaSdp} {pMediaInfo : Option SdpMedia}

theorem parseConnDesc_keeps :
    Keeps sdp (parseConnDesc psz sdp).1 (parseConnDesc psz sdp).2 ↔
      (behindFields 2 psz = none → sdp.entries = []) := by
  unfold parseConnDesc
  simp only [behindFields]
  cases nextField psz with
  | none => exact ⟨fun h _ => keeps_fail.mp h, fun h => keeps_fail.mpr (h rfl)⟩
  | some x =>
    simp only
    cases nextField (jumpSpace x) with
    | none => exact ⟨fun h _ => keeps_fail.mp h, fun h => keeps_fail.mpr (h rfl)⟩
    | some y => exact iff_of_true ⟨⟨rfl, rfl, rfl, rfl, rfl⟩, .inl rfl⟩ fun h => (Option.some_ne_none _ h).elim

/-- A description of other media adds an entry. -/
theorem not_keeps_entry {nRet : SdpRet} {s' : MediaSdp} (h : s'.entries.length = sdp.entries.length + 1) :
    ¬ Keeps sdp nRet s' := by
  intro hkeeps
  rw [hkeeps.1.entries] at h
  exact Nat.succ_ne_self _ h.symm

theorem parseMediaDesc_keeps :
    Keeps sdp (parseMediaDesc psz sdp pMediaInfo).1 (parseMediaDesc psz sdp pMediaInfo).2.1 ↔
      (lower (psz.headD 0) = 118 ∨ lower (psz.headD 0) = 97 →
        sdp.entries = [] ∧ ∀ x ∈ behindFields 3 psz, x = []) := by
  unfold parseMediaDesc
  simp only [behindFields]
  generalize lower (psz.headD 0) = cType
  by_cases hother : cType ≠ 118 ∧ cType ≠ 97
  · rw [if_pos hother]
    refine iff_of_true ⟨⟨rfl, rfl, rfl, rfl, rfl⟩, .inl rfl⟩ fun h => ?_
    exact (h.elim hother.1 hother.2).elim
  · have htype : cType = 118 ∨ cType = 97 := by
      by_contra h
      exact hother (not_or.mp h)
    rw [if_neg hother, forall_prop_of_true htype]
    have hfail : Keeps sdp .fail sdp ↔ sdp.entries = [] ∧ ∀ x ∈ (none : Option (List UInt8)), x = [] :=
      keeps_fail.trans (and_iff_left fun x hx => absurd hx (Option.not_mem_none x)).symm
    cases nextField psz with
    | none => exact hfail
    | some x =>
      simp only
      cases nextField (jumpSpace x) with
      | none => exact hfail
      | some y =>
        simp only
        cases nextField (jumpSpace y) with
        | none => exact hfail
        | some z =>
          simp only
          by_cases hnone : jumpSpace z = []
          · rw [if_pos hnone]
            exact keeps_fail.trans (and_iff_left fun u hu => Option.some.inj hu ▸ hnone).symm
          · rw [if_neg hnone]
            refine iff_of_false ?_ fun h => hnone (h.2 _ rfl)
            by_cases hvideo : cType = 118
            · rw [if_pos hvideo]
              refine not_keeps_entry ?_
              simp only [entries, List.length_append, List.length_singleton]
              omega
            · rw [if_neg hvideo]
              refine not_keeps_entry ?_
              simp only [entries, List.length_append, List.length_singleton]
              omega

theorem modify_last_eq {α : Type} {f : α → α} {xs : List α} :
    xs.modify (xs.length - 1) f = xs ↔ ∀ x ∈ xs.getLast?, f x = x := by
  induction xs with
  | nil => exact iff_of_true rfl nofun
  | cons x xs ih =>
    cases xs with
    | nil => simp
    | cons y ys => simpa using ih

/-- A field of the last entry is set. -/
theorem modifyMedia_keeps {field : SdpMediaInfo → List UInt8} {f : SdpMediaInfo → SdpMediaInfo} {x : List UInt8}
    (hf : ∀ info, f info = info ↔ field info = x) (media : SdpMedia) :
    Keeps sdp .ok (sdp.modifyMedia f media) ↔ sdp.EntryHas media field x := by
  have hlast : ∀ infos : List SdpMediaInfo,
      infos = infos.modify (infos.length - 1) f ↔ ∀ info ∈ infos.getLast?, field info = x := by
    intro infos
    rw [eq_comm, modify_last_eq]
    simp only [hf]
  unfold EntryHas
  cases media with
  | video => exact ⟨fun h => (hlast _).mp h.1.1, fun h => ⟨⟨(hlast _).mpr h, rfl, rfl, rfl, rfl⟩, .inl rfl⟩⟩
  | audio => exact ⟨fun h => (hlast _).mp h.1.2, fun h => ⟨⟨rfl, (hlast _).mpr h, rfl, rfl, rfl⟩, .inl rfl⟩⟩

/-- The direction is set. -/
theorem direct_keeps {direct : TransDirection} :
    Keeps sdp .ok { sdp with enTransDirect := direct } ↔ ∀ x ∈ some direct, sdp.enTransDirect = x :=
  ⟨fun h _ hx => h.1.enTransDirect.trans (Option.some.inj hx),
    fun h => ⟨⟨rfl, rfl, rfl, rfl, h direct rfl⟩, .inl rfl⟩⟩

theorem attributeHeld_global {media : SdpMedia} (hstatus : sdp.enParseStatus = .globalInfo) :
    AttributeHeld psz sdp (some media) ↔
      (hasAttr strSdpControlAttr psz = true → sdp.strUrl = psz.drop strSdpControlAttr.length) := by
  simp only [AttributeHeld, hstatus]

theorem attributeHeld_entry {media : SdpMedia} (hstatus : sdp.enParseStatus ≠ .globalInfo) :
    AttributeHeld psz sdp (some media) ↔ EntryAttributeHeld psz sdp media := by
  simp only [AttributeHeld]

theorem parseAttributes_keeps :
    Keeps sdp (parseAttributes psz sdp pMediaInfo).1 (parseAttributes psz sdp pMediaInfo).2 ↔
      AttributeHeld psz sdp pMediaInfo := by
  have hurl : ∀ x, Keeps sdp .ok { sdp with strUrl := x } ↔ sdp.strUrl = x :=
    fun x => ⟨fun h => h.1.strUrl, fun h => ⟨⟨rfl, rfl, rfl, h, rfl⟩, .inl rfl⟩⟩
  have hrange : Keeps sdp .ok { sdp with range := psz } ↔ sdp.range = psz :=
    ⟨fun h => h.1.range, fun h => ⟨⟨rfl, rfl, h, rfl, rfl⟩, .inl rfl⟩⟩
  unfold parseAttributes
  cases pMediaInfo with
  | none => exact keeps_fail
  | some media =>
    simp only
    split
    · next hstatus =>
      rw [attributeHeld_global hstatus]
      split
      · next hattr => exact ⟨fun h _ => (hurl _).mp h, fun h => (hurl _).mpr (h hattr)⟩
      · next hattr => exact iff_of_true keeps_ok fun h => (hattr h).elim
    · next hstatus =>
      rw [attributeHeld_entry hstatus]
      unfold EntryAttributeHeld attrDirect
      split
      · cases nextField psz with
        | none => exact keeps_fail
        | some x => exact modifyMedia_keeps (fun info => by cases info; simp [eq_comm]) media
      split
      · cases nextField psz with
        | none => exact keeps_fail
        | some x => exact modifyMedia_keeps (fun info => by cases info; simp [eq_comm]) media
      split
      · exact modifyMedia_keeps (fun info => by cases info; simp [eq_comm]) media
      split
      · exact hrange
      split
      · split
        · exact direct_keeps
        split
        · exact direct_keeps
        split
        · exact direct_keeps
        · exact iff_of_true keeps_ok nofun
      · exact iff_of_true keeps_ok nofun

theorem decodeStatement_keeps (hd : d.nRet = .ok) (cCode : UInt8) (psz : List UInt8) :
    Keeps d.sdp (decodeStatement cCode psz d).nRet (decodeStatement cCode psz d).sdp ↔ StatementHeld cCode psz d := by
  unfold decodeStatement StatementHeld
  simp only
  by_cases hname : cCode = 115
  · subst hname
    exact iff_of_true ⟨⟨rfl, rfl, rfl, rfl, rfl⟩, .inl hd⟩ trivial
  rw [if_neg hname]
  by_cases hconn : cCode = 99
  · rw [if_pos hconn, if_pos hconn]
    exact parseConnDesc_keeps
  rw [if_neg hconn, if_neg hconn]
  by_cases hmedia : cCode = 109
  · rw [if_pos hmedia, if_pos hmedia]
    exact parseMediaDesc_keeps
  rw [if_neg hmedia, if_neg hmedia]
  by_cases hattr : cCode = 97
  · rw [if_pos hattr, if_pos hattr]
    exact parseAttributes_keeps
  rw [if_neg hattr, if_neg hattr]
  by_cases hurl : cCode = 117
  · rw [if_pos hurl, if_pos hurl]
    exact ⟨fun h => h.1.strUrl, fun h => ⟨⟨rfl, rfl, rfl, h, rfl⟩, .inl hd⟩⟩
  rw [if_neg hurl, if_neg hurl]
  exact iff_of_true ⟨.refl _, .inl hd⟩ trivial

theorem decodeLine_refused {l rest : List UInt8} {cCode : UInt8} (hl : jumpSpace l = cCode :: rest)
    (hne : ∀ psz, jumpSpace rest ≠ 61 :: psz) : decodeLine l d = .error d.sdp := by
  unfold decodeLine
  rw [hl]
  simp only

theorem lineHeld_refused {l rest : List UInt8} {cCode : UInt8} (hl : jumpSpace l = cCode :: rest)
    (hne : ∀ psz, jumpSpace rest ≠ 61 :: psz) : LineHeld l d ↔ d.sdp.entries = [] := by
  unfold LineHeld
  rw [hl]
  simp only

/-- What is the same after a line is read. -/
theorem decodeLine_same (hd : d.nRet = .ok) (l : List UInt8) :
    SameResult (finish (.ok d)) (finish (decodeLine l d)) ↔ LineHeld l d := by
  cases hl : jumpSpace l with
  | nil =>
    unfold decodeLine LineHeld
    rw [hl]
    exact iff_of_true ⟨rfl, .refl _⟩ trivial
  | cons cCode rest =>
    by_cases hequal : ∃ psz, jumpSpace rest = 61 :: psz
    · obtain ⟨psz, hpsz⟩ := hequal
      unfold decodeLine LineHeld
      simp only [hl, hpsz]
      by_cases hversion : lower cCode ≠ 118 ∧ d.bFirst = true
      · rw [if_pos hversion, if_pos hversion]
        exact sameResult_error hd
      · rw [if_neg hversion, if_neg hversion]
        exact (sameResult_ok hd _).trans (decodeStatement_keeps hd _ _)
    · have hne : ∀ psz, jumpSpace rest ≠ 61 :: psz := fun psz h => hequal ⟨psz, h⟩
      rw [decodeLine_refused hl hne, lineHeld_refused hl hne]
      exact sameResult_error hd

/-! ## A text -/

/-- What is the same when the end of the last line is added. -/
theorem terminated_iff (text : List UInt8) (e : LineEnd) :
    SameResult (decodeSdp init text) (decodeSdp init (text ++ e.bytes)) ↔ LastLineHeld text := by
  rw [decodeSdp_eq, decodeSdp_eq, runLines_terminated rfl, runLines_append rfl]
  unfold LastLineHeld
  cases runLines (cLines text) start with
  | error sdp => exact iff_of_true ⟨rfl, .refl _⟩ nofun
  | ok d =>
    simp only
    by_cases hd : d.nRet = .ok
    · rw [if_pos hd]
      have hone : runLines [lastLine text] d = decodeLine (lastLine text) d := by
        rw [runLines]
        cases decodeLine (lastLine text) d with
        | error sdp => rfl
        | ok d' =>
          simp only [runLines]
          exact ite_self _
      rw [hone, decodeLine_same hd]
      constructor
      · intro h d' hd' _
        exact Except.ok.inj hd' ▸ h
      · exact fun h => h d rfl hd
    · rw [if_neg hd]
      refine iff_of_true ⟨rfl, .refl _⟩ fun d' hd' hok => ?_
      rw [Except.ok.inj hd'] at hd
      exact (hd hok).elim

theorem Relined.decodeSdp {text' : List UInt8} (h : Relined text text') :
    MediaSdp.decodeSdp init text = MediaSdp.decodeSdp init text' := by
  rw [decodeSdp_eq, decodeSdp_eq, ← runLines_filled rfl, ← runLines_filled rfl (cLines text'), h.filled]

/-- Behind the end of a line there is nothing. -/
theorem lastLineHeld_of_end (h : ¬ ∀ c ∈ text.getLast?, c ≠ 10 ∧ c ≠ 13) : LastLineHeld text := by
  obtain ⟨c, hc⟩ := not_forall.mp h
  obtain ⟨hlast, hbreak⟩ := Classical.not_imp.mp hc
  have hb : isBreak c = true := by
    by_contra hno
    exact hbreak (isBreak_false.mp (Bool.not_eq_true _ ▸ hno)).2
  obtain ⟨p, rfl⟩ := List.getLast?_eq_some_iff.mp hlast
  intro d _ _
  rw [lastLine_append p hb []]
  exact trivial

/-- The end of the last line can be left out if and only if what the line says is so without it. -/
theorem endsAlike_iff (text : List UInt8) : EndsAlike text ↔ LastLineHeld text := by
  constructor
  · intro h
    by_cases hend : ∀ c ∈ text.getLast?, c ≠ 10 ∧ c ≠ 13
    · exact (terminated_iff text .lf).mp (h.terminator hend .lf)
    · exact lastLineHeld_of_end hend
  · intro h
    exact ⟨fun _ e => (terminated_iff text e).mpr h, fun _ hlines => hlines.decodeSdp⟩

/-- The media are described in the last line. -/
theorem not_endsAlike_media : ¬ EndsAlike (ascii "v=0\r\nm=video 0 RTP/AVP 96") := by
  intro h
  have hfail : (MediaSdp.decodeSdp init (ascii "v=0\r\nm=video 0 RTP/AVP 96")).1 = .fail := by decide
  have hok : (MediaSdp.decodeSdp init (ascii "v=0\r\nm=video 0 RTP/AVP 96" ++ LineEnd.lf.bytes)).1 = .ok := by decide
  have hlast : (ascii "v=0\r\nm=video 0 RTP/AVP 96").getLast? = some 54 := by decide
  have hend : ∀ c ∈ (ascii "v=0\r\nm=video 0 RTP/AVP 96").getLast?, c ≠ 10 ∧ c ≠ 13 := by
    intro c hc
    rw [hlast] at hc
    obtain rfl := Option.some.inj hc
    decide
  have hsame := (h.terminator hend .lf).1
  rw [hfail, hok] at hsame
  cases hsame

end AllCamera.MediaSdp
