import AllCamera.Stream.RtmpAmf

/-!
# The recursion of `amf_load` ends

A value has a type byte and a member has a key, so every nested call has fewer bytes in front of it.

* `Consumes`: a call that does not run out of fuel and takes a number of bytes; its rules.
* `consumes_load`: by induction on the fuel, for the decoder and the loop over the members.
* `amfLoad_ends`: the fuel of `amfLoad` is enough for any bytes.
-/

namespace AllCamera.RtmpAmf

variable {dec dec' : Decoder}

theorem Decoder.length_rest_advance (dec : Decoder) (n : Nat) :
    (dec.advance n).rest.length = dec.rest.length - n := by
  simp only [rest, advance, List.length_drop]
  omega

/-- A call in front of `dec` that does not run out of fuel, and takes `k` bytes or more. -/
def Consumes {α : Type} (k : Nat) (dec : Decoder) (r : Except Stop (α × Decoder)) : Prop :=
  r ≠ .error .fuel ∧ ∀ a dec', r = .ok (a, dec') → dec'.rest.length + k ≤ dec.rest.length

namespace Consumes

variable {α β : Type} {j k n : Nat} {r : Except Stop (α × Decoder)}
  {f : α × Decoder → Except Stop (β × Decoder)} {x : Except Stop (β × Decoder)}

theorem ok {a : α} (h : dec'.rest.length + k ≤ dec.rest.length) :
    Consumes k dec (.ok (a, dec')) := by
  refine ⟨nofun, fun a' dec₁ h' => ?_⟩
  cases h'
  exact h

theorem throw {what : String} : Consumes (α := α) k dec (.error (.throw what)) :=
  ⟨nofun, fun _ _ => nofun⟩

theorem bind (hr : Consumes j dec r)
    (hf : ∀ a dec', r = .ok (a, dec') → dec'.rest.length + j ≤ dec.rest.length →
      Consumes k dec' (f (a, dec'))) : Consumes (j + k) dec (r >>= f) := by
  cases r with
  | error e => exact ⟨fun h => hr.1 (by cases h; rfl), fun _ _ => nofun⟩
  | ok p =>
    obtain ⟨a, dec₁⟩ := p
    have h₁ := hr.2 a dec₁ rfl
    have h₂ := hf a dec₁ rfl h₁
    refine ⟨h₂.1, fun b dec₂ hb => ?_⟩
    have := h₂.2 b dec₂ hb
    omega

theorem guard {c : Prop} [Decidable c] {what : String} {g : PUnit → Except Stop (β × Decoder)}
    (h : Consumes k dec (g ())) :
    Consumes k dec (if c then do let r ← MonadExcept.throw (.throw what); g r else g ()) := by
  split
  · exact throw
  · exact h

theorem ite {c : Prop} [Decidable c] {r' : Except Stop (α × Decoder)} (h : Consumes k dec r)
    (h' : Consumes k dec r') : Consumes k dec (if c then r else r') := by
  split
  · exact h
  · exact h'

theorem need (h : n ≤ dec.rest.length → Consumes k dec x) :
    Consumes k dec (dec.need n >>= fun _ => x) := by
  unfold Decoder.need
  split
  · exact throw
  · refine h ?_
    simp only [Decoder.rest, List.length_drop]
    omega

theorem mono (h : Consumes j dec r) (hk : k ≤ j) : Consumes k dec r :=
  ⟨h.1, fun a dec' ha => by
    have := h.2 a dec' ha
    omega⟩

theorem advance (h : Consumes k (dec.advance n) r) : Consumes k dec r :=
  ⟨h.1, fun a dec' ha => by
    have := h.2 a dec' ha
    rw [Decoder.length_rest_advance] at this
    omega⟩

theorem asValue {g : α → AMFValue} (h : Consumes k dec r) :
    Consumes k dec (RtmpAmf.asValue g r) :=
  h.bind (k := 0) fun _ _ _ _ => ok (Nat.le_refl _)

end Consumes

theorem peek_pos {b : UInt8} (h : peek dec = .ok b) : 1 ≤ dec.rest.length := by
  unfold peek at h
  split at h
  · cases h
  · rename_i hb
    have := (List.getElem?_eq_some_iff.mp hb).1
    simp only [Decoder.rest, List.length_drop]
    omega

theorem peek_error {e : Stop} (h : peek dec = .error e) : e = notEnoughData := by
  unfold peek at h
  split at h
  · cases h
    rfl
  · cases h

theorem Consumes.peek {α : Type} {k : Nat} {f : UInt8 → Except Stop (α × Decoder)}
    (h : ∀ b, 1 ≤ dec.rest.length → Consumes k dec (f b)) :
    Consumes k dec (RtmpAmf.peek dec >>= f) := by
  cases hb : RtmpAmf.peek dec with
  | error e =>
    rw [peek_error hb]
    exact throw
  | ok b => exact h b (peek_pos hb)

/-- The byte at the position, whatever the mode has become. -/
theorem consumes_next (dec : Decoder) :
    Consumes 1 dec (do let b ← peek dec; return (b, dec.advance 1)) :=
  .peek fun b hpos => .ok (by
    rw [Decoder.length_rest_advance]
    omega)

theorem consumes_getByte (dec : Decoder) : Consumes 1 dec (getByte dec) := by
  unfold getByte
  split
  · refine .peek fun b hpos => ?_
    have hnext := consumes_next (if b = amf0SwitchAmf3 then { dec.advance 1 with version := 3 } else dec)
    refine ⟨hnext.1, fun a dec' h => ?_⟩
    have hle := hnext.2 a dec' h
    split at hle
    · have hlen : ({ dec.advance 1 with version := 3 } : Decoder).rest.length =
          dec.rest.length - 1 := dec.length_rest_advance 1
      omega
    · exact hle
  · exact consumes_next dec

theorem consumes_loadAmf3Integer (dec : Decoder) : Consumes 1 dec (loadAmf3Integer dec) := by
  have hloop : ∀ (left : Nat) (value : UInt32) (dec : Decoder),
      Consumes 0 dec (loadAmf3IntegerLoop left value dec) := by
    intro left
    induction left with
    | zero => exact fun value dec => .ok (Nat.le_refl _)
    | succ left ih =>
      intro value dec
      refine ((consumes_getByte dec).bind (k := 0) fun b dec₁ _ _ => ?_).mono (Nat.zero_le _)
      dsimp only
      split
      · exact .ok (Nat.le_refl _)
      · split
        · exact .ok (Nat.le_refl _)
        · exact ih _ _
  refine (consumes_getByte dec).bind (k := 0) fun b dec₁ _ _ => ?_
  dsimp only
  split
  · exact .ok (Nat.le_refl _)
  · split
    · exact .ok (Nat.le_refl _)
    · exact hloop _ _ _

theorem consumes_loadText (dec : Decoder) (n : Nat) : Consumes 0 dec (loadText dec n) :=
  .need fun _ => .ok (by
    rw [Decoder.length_rest_advance]
    omega)

theorem consumes_amfLoadKey (dec : Decoder) : Consumes 2 dec (amfLoadKey dec) :=
  .need fun hn => by
    have htext := consumes_loadText (dec.advance 2) dec.loadBe16.toNat
    refine ⟨htext.1, fun a dec' h => ?_⟩
    have := htext.2 a dec' h
    rw [Decoder.length_rest_advance] at this
    omega

theorem consumes_amfLoadString (dec : Decoder) : Consumes 1 dec (amfLoadString dec) := by
  refine (consumes_getByte dec).bind (k := 0) fun type dec₁ _ _ => ?_
  dsimp only
  split
  · exact .guard (((consumes_loadAmf3Integer dec₁).bind (k := 0)
      fun n dec₂ _ _ => consumes_loadText dec₂ _).mono (Nat.zero_le _))
  · exact .guard ((consumes_amfLoadKey dec₁).mono (Nat.zero_le _))

theorem consumes_amfLoadNumber (dec : Decoder) : Consumes 1 dec (amfLoadNumber dec) := by
  refine (consumes_getByte dec).bind (k := 0) fun type dec₁ _ _ => ?_
  exact .guard (.need fun _ => .ok (by
    rw [Decoder.length_rest_advance]
    omega))

theorem consumes_amfLoadInteger (dec : Decoder) : Consumes 1 dec (amfLoadInteger dec) := by
  unfold amfLoadInteger
  split
  · exact (consumes_loadAmf3Integer dec).bind (k := 0) fun _ _ _ _ => .ok (Nat.le_refl _)
  · exact (consumes_amfLoadNumber dec).bind (k := 0) fun _ _ _ _ => .ok (Nat.le_refl _)

theorem consumes_amfLoadBoolean (dec : Decoder) : Consumes 1 dec (amfLoadBoolean dec) := by
  refine (consumes_getByte dec).bind (k := 0) fun type dec₁ _ _ => ?_
  refine .guard (((consumes_getByte dec₁).bind (k := 0) fun b dec₂ _ _ => ?_).mono (Nat.zero_le _))
  exact .ok (Nat.le_refl _)

section Loop

variable {members : Decoder → Except Stop (AMFObject × Decoder)}

/-- Behind the loop over the members. -/
theorem consumes_end (o : AMFObject) (dec : Decoder) :
    Consumes 0 dec (do
      let (type, dec) ← getByte dec
      if type ≠ amf0ObjectEnd then MonadExcept.throw (.throw "expected object end")
      return (o, dec)) := by
  refine ((consumes_getByte dec).bind (k := 0) fun type dec₁ _ _ => ?_).mono (Nat.zero_le _)
  exact .guard (.ok (Nat.le_refl _))

theorem consumes_amfLoadObject
    (h : ∀ dec₁ : Decoder, dec₁.rest.length < dec.rest.length → Consumes 0 dec₁ (members dec₁)) :
    Consumes 1 dec (amfLoadObject members dec) := by
  refine (consumes_getByte dec).bind (k := 0) fun type dec₁ _ hlt => ?_
  exact .guard ((h dec₁ (by omega)).bind (k := 0) fun o dec₂ _ _ => consumes_end o dec₂)

theorem consumes_amfLoadEcma
    (h : ∀ dec₁ : Decoder, dec₁.rest.length < dec.rest.length → Consumes 0 dec₁ (members dec₁)) :
    Consumes 1 dec (amfLoadEcma members dec) := by
  refine (consumes_getByte dec).bind (k := 0) fun type dec₁ _ hlt => ?_
  refine .guard (.need fun _ => ?_)
  have hlen := Decoder.length_rest_advance dec₁ 4
  refine .advance (n := 4) ?_
  exact (h _ (by omega)).bind (k := 0) fun o dec₂ _ _ => consumes_end o dec₂

end Loop

/-- A call with more fuel than there are bytes in front of it. -/
theorem consumes_load (fuel : Nat) :
    (∀ dec : Decoder, dec.rest.length < fuel → Consumes 1 dec (amfLoadFuel fuel dec)) ∧
    (∀ (dec : Decoder) acc, dec.rest.length < fuel → Consumes 0 dec (loadMembers fuel dec acc)) := by
  induction fuel with
  | zero =>
    exact ⟨fun _ h => absurd h (Nat.not_lt_zero _), fun _ _ h => absurd h (Nat.not_lt_zero _)⟩
  | succ fuel ih =>
    constructor
    · intro dec hf
      have hmembers : ∀ dec₁ : Decoder, dec₁.rest.length < dec.rest.length →
          Consumes 0 dec₁ (loadMembers fuel dec₁ .nil) := fun dec₁ h => ih.2 dec₁ .nil (by omega)
      refine .peek fun type hpos => ?_
      have hone : ∀ v, Consumes 1 dec (oneByte dec v) := fun v => .ok (by
        rw [Decoder.length_rest_advance]
        omega)
      repeat' with_reducible apply Consumes.ite
      · exact (consumes_amfLoadString dec).asValue
      · exact (consumes_amfLoadNumber dec).asValue
      · exact (consumes_amfLoadInteger dec).asValue
      · exact hone _
      · exact hone _
      · exact (consumes_amfLoadObject hmembers).asValue
      · exact (consumes_amfLoadEcma hmembers).asValue
      · exact hone _
      · exact hone _
      · exact .throw
      · exact (consumes_amfLoadString dec).asValue
      · exact (consumes_amfLoadNumber dec).asValue
      · exact (consumes_amfLoadBoolean dec).asValue
      · exact (consumes_amfLoadObject hmembers).asValue
      · exact (consumes_amfLoadEcma hmembers).asValue
      · exact hone _
      · exact hone _
      · exact .throw
    · intro dec acc hf
      refine ((consumes_amfLoadKey dec).bind (k := 0) fun key dec₁ _ hkey => ?_).mono
        (Nat.zero_le _)
      dsimp only
      split
      · exact .ok (Nat.le_refl _)
      · refine ((ih.1 dec₁ (by omega)).bind (k := 0) fun value dec₂ _ hvalue => ?_).mono
          (Nat.zero_le _)
        exact ih.2 dec₂ _ (by omega)

/-- `amf_load` always returns or throws. -/
theorem amfLoad_ends (dec : Decoder) : amfLoad dec ≠ .error .fuel :=
  ((consumes_load _).1 dec (Nat.lt_succ_self _)).1

end AllCamera.RtmpAmf
