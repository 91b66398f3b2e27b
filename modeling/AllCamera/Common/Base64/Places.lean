import AllCamera.Common.Base64

/-!
# Where a decoder of base64 writes

The padding of a group is kept for the groups behind it, and a group of pads only moves the place back. So the
place of a group depends on all pads in front of it, in a text that is not a text of bytes.

* `Fits`, `place`: the places of the groups in the buffer; `decodeLoop_of_fits`, `fits_of_inside`.
* `PadsLast`: the pads of a text are at its end.
* `DecodesSafely`: the decoder keeps to its buffer, returns as many bytes as there are, and refuses pads that
  are elsewhere. `decodesSafely_iff`: the texts for which it does.
-/

namespace AllCamera.SVSBase64

/-! ## Where the decoder writes -/

/-- From `pDecDstBase` on, the places of the groups up to the first one that is not readable are in the buffer,
and the place behind them is not in front of it. -/
def Fits : Int → Int → List (List UInt8) → Prop
  | _, pDecDstBase, [] => 0 ≤ pDecDstBase
  | pad, pDecDstBase, g :: gs =>
    0 ≤ pDecDstBase ∧
      (Readable g → pDecDstBase + 3 ≤ maxDecBufLen ∧
        Fits (padAfter pad g) (pDecDstBase + (3 - padAfter pad g)) gs)

/-- The place behind the groups. -/
def place : Int → Int → List (List UInt8) → Int
  | _, pDecDstBase, [] => pDecDstBase
  | pad, pDecDstBase, g :: gs => place (padAfter pad g) (pDecDstBase + (3 - padAfter pad g)) gs

theorem Fits.nonneg {pad p : Int} {gs : List (List UInt8)} (h : Fits pad p gs) : 0 ≤ p := by
  cases gs with
  | nil => exact h
  | cons g gs => exact h.1

theorem padAfter_nonneg {pad : Int} (h : 0 ≤ pad) (g : List UInt8) : 0 ≤ padAfter pad g := by
  unfold padAfter
  split <;> omega

/-- If the places fit, the place is never in front of the buffer and is the length, and the text is taken exactly
if all groups are readable. -/
theorem decodeLoop_of_fits {d : Decoding} (hpad : 0 ≤ d.pad) (hlen : (d.iDecLen.toNat : Int) = d.pDecDstBase)
    (hfits : Fits d.pad d.pDecDstBase d.groups) :
    (∀ d', Reaches d d' → 0 ≤ d'.pDecDstBase ∧ (d'.iDecLen.toNat : Int) = d'.pDecDstBase) ∧
      if ∀ g ∈ d.groups, Readable g then
        ∃ content, decodeLoop d = .binary content ∧
          (content.length : Int) = place d.pad d.pDecDstBase d.groups
      else decodeLoop d = .null := by
  generalize hgs : d.groups = gs at hfits
  induction gs generalizing d with
  | nil =>
    rcases pass_cases d with ⟨-, hpass⟩ | ⟨g, gs, hcons, -⟩
    · refine ⟨fun d' h => h.eq_of_inr hpass ▸ ⟨hfits, hlen⟩, ?_⟩
      rw [if_pos (by simp), decodeLoop_inr hpass]
      exact ⟨_, rfl, by rw [Memory.length_read, hlen]; rfl⟩
    · cases hgs.symm.trans hcons
  | cons g gs ih =>
    rcases pass_cases d with ⟨hnil, -⟩ | ⟨g', gs', hcons, hcases⟩
    · cases hgs.symm.trans hnil
    cases hgs.symm.trans hcons
    rcases hcases with ⟨hread, hpass⟩ | ⟨hread, hout, -⟩ | ⟨hread, hin, buf, src, -, -, hafter, -, hpass⟩
    · refine ⟨fun d' h => h.eq_of_inr hpass ▸ ⟨hfits.1, hlen⟩, ?_⟩
      rw [if_neg (by simp [hread])]
      exact decodeLoop_inr hpass
    · exact absurd ⟨hfits.1, (hfits.2 hread).1⟩ hout
    · obtain ⟨hle, hfits'⟩ := hfits.2 hread
      have hpad' : 0 ≤ padAfter d.pad g := padAfter_nonneg hpad g
      have hlen' : ((d.after g buf src).iDecLen.toNat : Int) = (d.after g buf src).pDecDstBase := by
        have hmax : maxDecBufLen < 2 ^ 32 := by decide
        exact toNat_add_ofInt hlen hfits'.nonneg (by omega)
      obtain ⟨ihreach, ihloop⟩ := ih hpad' hlen' hafter hfits'
      refine ⟨?_, ?_⟩
      · intro d' h
        cases h with
        | refl => exact ⟨hfits.1, hlen⟩
        | pass h htail =>
          cases hpass.symm.trans h
          exact ihreach d' htail
      · rw [decodeLoop_inl hpass]
        simp only [List.forall_mem_cons, hread, true_and]
        exact ihloop

/-- Where the decoder stays in its buffer the places fit. -/
theorem fits_of_inside {d : Decoding} (hinside : decodeLoop d ≠ .outside)
    (hcursor : ∀ d', Reaches d d' → 0 ≤ d'.pDecDstBase) : Fits d.pad d.pDecDstBase d.groups := by
  generalize hgs : d.groups = gs
  induction gs generalizing d with
  | nil => exact hcursor d (.refl d)
  | cons g gs ih =>
    refine ⟨hcursor d (.refl d), fun hread => ?_⟩
    rcases pass_cases d with ⟨hnil, -⟩ | ⟨g', gs', hcons, hcases⟩
    · cases hgs.symm.trans hnil
    cases hgs.symm.trans hcons
    rcases hcases with ⟨hnot, -⟩ | ⟨-, -, hpass⟩ | ⟨-, hin, buf, src, -, -, hafter, -, hpass⟩
    · exact absurd hread hnot
    · exact absurd (decodeLoop_inr hpass) hinside
    · refine ⟨hin.2, ih (d := d.after g buf src) ?_ ?_ hafter⟩
      · rwa [← decodeLoop_inl hpass]
      · exact fun d' h => hcursor d' (.pass hpass h)

/-! ## Texts whose pads are at the end -/

/-- Induction on a text of whole groups. -/
theorem induction_of_dvd {motive : (l : List UInt8) → 4 ∣ l.length → Prop} (nil : motive [] (Nat.dvd_zero 4))
    (group : ∀ a b c d rest (h : 4 ∣ rest.length), motive rest h →
      motive (a :: b :: c :: d :: rest) (Nat.dvd_add_self_right.mpr h)) (l : List UInt8)
    (h : 4 ∣ l.length) : motive l h := by
  match l with
  | [] => exact nil
  | [_] | [_, _] | [_, _, _] => simp at h
  | a :: b :: c :: d :: rest =>
    have hrest : 4 ∣ rest.length := by
      simp only [List.length_cons] at h
      omega
    exact group a b c d rest hrest (induction_of_dvd nil group rest hrest)

theorem groups_append {l : List UInt8} (h : 4 ∣ l.length) (l' : List UInt8) :
    groups (l ++ l') = groups l ++ groups l' := by
  induction l, h using induction_of_dvd with
  | nil => rfl
  | group a b c d rest _ ih => simp only [List.cons_append, groups, ih]

/-- Without pads there are three bytes for each group. -/
theorem place_of_no_pad {l : List UInt8} (hdvd : 4 ∣ l.length) (hpad : '='.toUInt8 ∉ l) (p : Int)
    (gs : List (List UInt8)) :
    place 0 p (groups l ++ gs) = place 0 (p + 3 * (l.length / 4 : Nat)) gs := by
  induction l, hdvd using induction_of_dvd generalizing p with
  | nil => simp [groups]
  | group a b c d rest _ ih =>
    simp only [List.mem_cons, not_or] at hpad
    obtain ⟨ha, hb, hc, hd, hpad⟩ := hpad
    have hafter : padAfter 0 [a, b, c, d] = 0 := by simp [padAfter, ha, hb, hc, hd]
    simp only [groups, List.cons_append, place, hafter, ih hpad, List.length_cons]
    congr 1
    omega

/-- The last four characters. -/
def lastGroup (l : List UInt8) : List UInt8 := l.drop (l.length - 4)

/-- There are no pads in front of the last two characters. -/
def PadsLast (l : List UInt8) : Prop := '='.toUInt8 ∉ l.take (l.length - 2)

instance (l : List UInt8) : Decidable (PadsLast l) :=
  inferInstanceAs (Decidable (_ ∉ _))

/-- There are three bytes for each group, less the padding of the last one. -/
theorem place_of_padsLast {l : List UInt8} (hdvd : 4 ∣ l.length) (hpads : PadsLast l) :
    padding (lastGroup l) ≤ 2 ∧ place 0 0 (groups l) + padding (lastGroup l) = 3 * (l.length / 4 : Nat) := by
  rcases eq_or_ne l [] with rfl | hne
  · exact ⟨Nat.zero_le 2, rfl⟩
  have hpos := List.length_pos_of_ne_nil hne
  have hsplit : l.take (l.length - 4) ++ lastGroup l = l := List.take_append_drop _ l
  have hlen : (l.take (l.length - 4)).length = l.length - 4 := List.length_take_of_le (by omega)
  have hlast : (lastGroup l).length = 4 := by
    rw [lastGroup, List.length_drop]
    omega
  have hdvd' : 4 ∣ (l.take (l.length - 4)).length := by omega
  have hfront : '='.toUInt8 ∉ l.take (l.length - 4) := by
    intro hin
    apply hpads
    exact (List.take_subset_take_left l (by omega)) hin
  generalize hx : lastGroup l = last at *
  match last, hlast with
  | [a, b, c, d], _ =>
    have hab : a ≠ '='.toUInt8 ∧ b ≠ '='.toUInt8 := by
      unfold PadsLast at hpads
      rw [← hsplit, List.length_append, hlen, List.take_append] at hpads
      have htake : l.length - 4 + [a, b, c, d].length - 2 - (l.take (l.length - 4)).length = 2 := by
        rw [hlen]
        simp only [List.length_cons, List.length_nil]
        omega
      rw [htake] at hpads
      simp only [List.mem_append, not_or] at hpads
      have hpads := hpads.2
      simp only [List.take_succ_cons, List.take_zero, List.mem_cons, List.not_mem_nil, or_false, not_or] at hpads
      exact ⟨Ne.symm hpads.1, Ne.symm hpads.2⟩
    have hplace : place 0 0 (groups l) =
        3 * ((l.length - 4) / 4 : Nat) + (3 - padAfter 0 [a, b, c, d]) := by
      rw [← hsplit, groups_append hdvd', place_of_no_pad hdvd' hfront, hsplit, hlen]
      simp [groups, place]
    have hafter : padAfter 0 [a, b, c, d] = padding [a, b, c, d] := by
      unfold padAfter
      split
      · rfl
      · rename_i hnot
        simp only [List.mem_cons, List.not_mem_nil, or_false, not_or] at hnot
        obtain ⟨ha, hb, hc, hd⟩ := hnot
        simp [padding, Ne.symm ha, Ne.symm hb, Ne.symm hc, Ne.symm hd]
    have hle : padding [a, b, c, d] ≤ 2 := by
      simp only [padding, List.dropWhile_cons_of_pos, hab, decide_true, ne_eq, not_false_eq_true]
      exact (List.dropWhile_sublist _).length_le
    refine ⟨hle, ?_⟩
    rw [hplace, hafter]
    omega

/-! ## The texts that are decoded safely -/

/-- It writes in its buffer, the place and the length are never below zero, a text that it takes gives three
bytes for each group less the padding of the last one, and one with pads elsewhere is refused. -/
structure DecodesSafely (decBuf : Memory) (content : List UInt8) : Prop where
  inside : decode decBuf content ≠ .outside
  cursor : ∀ d, Reaches (start decBuf content) d →
    0 ≤ d.pDecDstBase ∧ (d.iDecLen.toNat : Int) = d.pDecDstBase
  length : ∀ bytes, decode decBuf content = .binary bytes →
    4 ∣ (plain content).length ∧ padding (lastGroup (plain content)) ≤ 2 ∧
      bytes.length + padding (lastGroup (plain content)) = 3 * ((plain content).length / 4)
  pads : ¬ PadsLast (plain content) → decode decBuf content = .null

/-- The places of the groups fit, and if all groups are readable they are the whole text, with its pads at the
end. -/
def Acceptable (content : List UInt8) : Prop :=
  Fits 0 0 (groups (visible content)) ∧
    ((∀ g ∈ groups (visible content), Readable g) →
      visible content = plain content ∧ PadsLast (plain content))

/-- What is left out of a text has no effect on the length, so that there is nothing. -/
theorem visible_eq {content bytes : List UInt8} (hdvd : 4 ∣ (visible content).length)
    (hpads : PadsLast (plain content)) (hplain : 4 ∣ (plain content).length)
    (hplace : (bytes.length : Int) = place 0 0 (groups (visible content)))
    (hle : padding (lastGroup (plain content)) ≤ 2)
    (hlen : bytes.length + padding (lastGroup (plain content)) = 3 * ((plain content).length / 4)) :
    visible content = plain content := by
  have hprefix := visible_prefix content
  apply hprefix.eq_of_length_le
  by_contra hlt
  have htake : visible content = (plain content).take (visible content).length :=
    (List.prefix_iff_eq_take.mp hprefix)
  have hnopad : '='.toUInt8 ∉ visible content := by
    intro hin
    apply hpads
    rw [htake] at hin
    exact List.take_subset_take_left _ (by omega) hin
  have hplace' := place_of_no_pad hdvd hnopad 0 []
  rw [List.append_nil, ← hplace] at hplace'
  simp only [place] at hplace'
  omega

theorem decodesSafely_iff (decBuf : Memory) (content : List UInt8) :
    DecodesSafely decBuf content ↔ Acceptable content := by
  have hof_fits := fun hfits : Fits 0 0 (groups (visible content)) =>
    decodeLoop_of_fits (d := start decBuf content) (Int.le_refl 0) rfl hfits
  constructor
  · intro h
    have hinside : decodeLoop (start decBuf content) ≠ .outside ∨ content = [] := by
      rcases eq_or_ne content [] with rfl | hne
      · exact .inr rfl
      · have := h.inside
        rw [decode, if_neg hne] at this
        exact .inl this
    have hfits : Fits 0 0 (groups (visible content)) := by
      rcases hinside with hinside | rfl
      · exact fits_of_inside hinside fun d' hd' => (h.cursor d' hd').1
      · exact Int.le_refl 0
    refine ⟨hfits, fun hread => ?_⟩
    rcases eq_or_ne content [] with rfl | hne
    · exact ⟨rfl, by decide⟩
    have hloop := (hof_fits hfits).2
    rw [groups_start, if_pos hread] at hloop
    obtain ⟨bytes, hbytes, hplace⟩ := hloop
    have hdecode : decode decBuf content = .binary bytes := by rw [decode, if_neg hne, hbytes]
    have hpads : PadsLast (plain content) := by
      by_contra hnot
      cases (h.pads hnot).symm.trans hdecode
    obtain ⟨hdvd, hle, hlen⟩ := h.length bytes hdecode
    exact ⟨visible_eq (dvd_length_of_readable hread) hpads hdvd hplace hle hlen, hpads⟩
  · rintro ⟨hfits, hwhole⟩
    obtain ⟨hreach, hloop⟩ := hof_fits hfits
    rw [groups_start] at hloop
    rcases eq_or_ne content [] with rfl | hne
    · exact ⟨nofun, hreach, nofun, fun _ => rfl⟩
    have hdecode : decode decBuf content = decodeLoop (start decBuf content) := if_neg hne
    split at hloop
    · rename_i hread
      obtain ⟨bytes, hbytes, hplace⟩ := hloop
      obtain ⟨hvisible, hpads⟩ := hwhole hread
      have hdvd := dvd_length_of_readable hread
      rw [hvisible] at hdvd
      obtain ⟨hle, hlast⟩ := place_of_padsLast hdvd hpads
      have hbinary := hdecode.trans hbytes
      constructor
      case inside => exact fun hout => nomatch hbinary.symm.trans hout
      case cursor => exact hreach
      case length =>
        intro bytes' hbytes'
        cases hbinary.symm.trans hbytes'
        refine ⟨hdvd, hle, ?_⟩
        have hplace : (bytes.length : Int) = place 0 0 (groups (plain content)) := hvisible ▸ hplace
        omega
      case pads => exact fun hnot => absurd hpads hnot
    · have hnull := hdecode.trans hloop
      constructor
      case inside => exact fun hout => nomatch hnull.symm.trans hout
      case cursor => exact hreach
      case length => exact fun bytes hbytes => nomatch hnull.symm.trans hbytes
      case pads => exact fun _ => hnull

/-- `====`. -/
def padsOnly : List UInt8 := List.replicate 4 '='.toUInt8

/-- A text of four pads leaves the place in front of the buffer, and is taken. -/
theorem not_decodesSafely_padsOnly : ¬ DecodesSafely (fun _ => 0) padsOnly := by
  intro h
  have hpass : pass (start (fun _ => 0) padsOnly) =
      .inl ((start (fun _ => 0) padsOnly).after padsOnly [0, 0, 0, 0] []) := rfl
  have hcursor := (h.cursor _ (.pass hpass (.refl _))).1
  exact absurd hcursor (by decide)

end AllCamera.SVSBase64
