import AllCamera.Stream.RtmpAmf.RoundTrip

/-!
# Writing what was loaded

* `amfLoad_keyed`: every loaded value is well formed and has no ECMA array, so the encoder takes it.
* `loadMembers_find`: a member that was read is not replaced by what follows.
* `amfLoadFuel_lossy`: behind what the encoder left out or cut, the decoder reads something else.
* `amfLoad_reloads`: a loaded value is written and loaded again as it is when AMF0 can express it,
  and, but for one form of key, only then.
-/

namespace AllCamera.RtmpAmf

variable {dec dec' : Decoder}

theorem bind_ok {α β : Type} {x : Except Stop α} {f : α → Except Stop β} {b : β}
    (h : x >>= f = .ok b) : ∃ a, x = .ok a ∧ f a = .ok b := by
  cases x with
  | error e => cases h
  | ok a => exact ⟨a, rfl, h⟩

theorem asValue_ok {α : Type} {f : α → AMFValue} {r : Except Stop (α × Decoder)} {v : AMFValue}
    (h : asValue f r = .ok (v, dec')) : ∃ a, r = .ok (a, dec') ∧ v = f a := by
  obtain ⟨⟨a, dec₁⟩, hr, ha⟩ := bind_ok h
  cases ha
  exact ⟨a, hr, rfl⟩

/-- A check that throws. -/
theorem guard_ok {α : Type} {c : Prop} [Decidable c] {e : Stop} {f : PUnit → Except Stop α} {a : α}
    (h : (if c then do let r ← throw e; f r else f ()) = .ok a) : ¬ c ∧ f () = .ok a := by
  split at h
  · cases h
  · exact ⟨‹_›, h⟩

/-- An object comes from its loop. -/
theorem amfLoadObject_ok {members : Decoder → Except Stop (AMFObject × Decoder)} {o : AMFObject}
    (h : amfLoadObject members dec = .ok (o, dec')) :
    ∃ b dec₁ dec₂, getByte dec = .ok (b, dec₁) ∧ members dec₁ = .ok (o, dec₂) := by
  obtain ⟨⟨b, dec₁⟩, hb, h⟩ := bind_ok h
  obtain ⟨-, h⟩ := guard_ok h
  obtain ⟨⟨o', dec₂⟩, ho, h⟩ := bind_ok h
  obtain ⟨⟨b', dec₃⟩, -, h⟩ := bind_ok h
  obtain ⟨-, h⟩ := guard_ok h
  cases h
  exact ⟨b, dec₁, dec₂, hb, ho⟩

theorem amfLoadEcma_ok {members : Decoder → Except Stop (AMFObject × Decoder)} {o : AMFObject}
    (h : amfLoadEcma members dec = .ok (o, dec')) :
    ∃ dec₁ dec₂, members dec₁ = .ok (o, dec₂) := by
  obtain ⟨⟨b, dec₁⟩, -, h⟩ := bind_ok h
  obtain ⟨-, h⟩ := guard_ok h
  obtain ⟨-, -, h⟩ := bind_ok h
  obtain ⟨⟨o', dec₂⟩, ho, h⟩ := bind_ok h
  obtain ⟨⟨b', dec₃⟩, -, h⟩ := bind_ok h
  obtain ⟨-, h⟩ := guard_ok h
  cases h
  exact ⟨_, dec₂, ho⟩

theorem amfLoadKey_length {s : List UInt8} (h : amfLoadKey dec = .ok (s, dec')) :
    s.length ≤ 65535 := by
  obtain ⟨-, -, h⟩ := bind_ok h
  obtain ⟨-, -, h⟩ := bind_ok h
  cases h
  have := dec.loadBe16.toNat_lt
  simp only [List.length_take]
  omega

/-! ## The members of a map -/

namespace AMFObject

variable {key : List UInt8} {value : AMFValue} {p : AMFValue → Prop}

theorem mem_keys_insert {k : List UInt8} :
    ∀ {o : AMFObject}, k ∈ (o.insert key value).keys → k = key ∨ k ∈ o.keys
  | nil, h => by simpa [insert, keys] using h
  | cons k' v rest, h => by
    unfold insert at h
    split at h
    · simpa [keys] using h
    · split at h
      · exact .inr h
      · rcases List.mem_cons.mp h with rfl | h
        · exact .inr List.mem_cons_self
        · exact (mem_keys_insert h).imp_right (List.mem_cons_of_mem _)

theorem pairwise_insert :
    ∀ {o : AMFObject}, o.keys.Pairwise (· < ·) → (o.insert key value).keys.Pairwise (· < ·)
  | nil, _ => by simp [insert, keys]
  | cons k v rest, h => by
    obtain ⟨hk, hrest⟩ := List.pairwise_cons.mp h
    unfold insert
    split
    · rename_i hlt
      refine List.pairwise_cons.mpr ⟨fun k' hk' => ?_, h⟩
      rcases List.mem_cons.mp hk' with rfl | hk'
      · exact hlt
      · exact List.lt_trans hlt (hk k' hk')
    · split
      · exact h
      · rename_i hlt hne
        refine List.pairwise_cons.mpr ⟨fun k' hk' => ?_, pairwise_insert hrest⟩
        rcases mem_keys_insert hk' with rfl | hk'
        · exact Std.lt_of_le_of_ne (List.not_lt.mp hlt) (Ne.symm hne)
        · exact hk k' hk'

theorem forall_insert (hv : value.Forall p) :
    ∀ {o : AMFObject}, o.Forall p → (o.insert key value).Forall p
  | nil, _ => ⟨hv, trivial⟩
  | cons k v rest, h => by
    unfold insert
    split
    · exact ⟨hv, h⟩
    · split
      · exact h
      · exact ⟨h.1, forall_insert hv h.2⟩

theorem find_insert_self :
    ∀ {o : AMFObject}, key ∉ o.keys → (o.insert key value).find key = some value
  | nil, _ => by simp [insert, find]
  | cons k v rest, h => by
    have hne : key ≠ k := fun he => h (he ▸ List.mem_cons_self)
    have hrest : key ∉ rest.keys := fun hmem => h (List.mem_cons_of_mem _ hmem)
    unfold insert
    split
    · simp [find]
    · simp [find, hne, find_insert_self hrest]

theorem mem_keys_of_find {k : List UInt8} {x : AMFValue} :
    ∀ {o : AMFObject}, o.find k = some x → k ∈ o.keys
  | cons k' v rest, h => by
    unfold find at h
    split at h
    · rename_i he
      exact he ▸ List.mem_cons_self
    · exact List.mem_cons_of_mem _ (mem_keys_of_find h)

/-- A member stays what it is. -/
theorem find_insert {k : List UInt8} {x : AMFValue} :
    ∀ {o : AMFObject}, o.keys.Pairwise (· < ·) → o.find k = some x →
      (o.insert key value).find k = some x
  | cons k' v rest, hs, h => by
    obtain ⟨hk', hrest⟩ := List.pairwise_cons.mp hs
    unfold insert
    split
    · rename_i hlt
      have hlt' : key < k := by
        rcases List.mem_cons.mp (mem_keys_of_find h) with rfl | hmem
        · exact hlt
        · exact List.lt_trans hlt (hk' k hmem)
      have hne : k ≠ key := fun he => List.lt_irrefl _ (he ▸ hlt')
      simpa [find, hne] using h
    · split
      · exact h
      · unfold find at h ⊢
        split
        · rename_i he
          rwa [if_pos he] at h
        · rename_i he
          rw [if_neg he] at h
          exact find_insert hrest h

theorem find_append {o' : AMFObject} :
    ∀ {o : AMFObject}, key ∉ o.keys → (o.append (cons key value o')).find key = some value
  | nil, _ => by simp [append, find]
  | cons k v rest, h => by
    have hne : key ≠ k := fun he => h (he ▸ List.mem_cons_self)
    have hrest : key ∉ rest.keys := fun hmem => h (List.mem_cons_of_mem _ hmem)
    simp [append, find, hne, find_append hrest]

end AMFObject

/-! ## What is loaded -/

/-- The members that a loop has read. -/
structure Members (o : AMFObject) : Prop where
  keyed : Keyed (.object o)
  inside : o.Forall Keyed
  notEcma : o.Forall NotEcma

theorem Members.nil : Members .nil := ⟨by simp [Keyed, AMFObject.keys], trivial, trivial⟩

theorem Members.insert {o : AMFObject} {key : List UInt8} {value : AMFValue} (h : Members o)
    (hne : key ≠ []) (hlong : key.length ≤ 65535) (hk : value.Forall Keyed)
    (he : value.Forall NotEcma) : Members (o.insert key value) where
  keyed := by
    refine ⟨AMFObject.pairwise_insert h.keyed.1, fun k hmem => ?_⟩
    rcases AMFObject.mem_keys_insert hmem with rfl | hmem
    · exact ⟨hne, hlong⟩
    · exact h.keyed.2 k hmem
  inside := AMFObject.forall_insert hk h.inside
  notEcma := AMFObject.forall_insert he h.notEcma

/-- Neither members nor undefined. -/
def IsLeaf : AMFValue → Prop
  | .object _ | .ecmaArray _ | .undefined => False
  | _ => True

section Cases

variable {fuel : Nat} {v : AMFValue}

/-- What a call of the decoder may give: the members of its loop; undefined, at its own type byte;
or a value without members. -/
def Loads (fuel : Nat) (dec : Decoder) (v : AMFValue) : Prop :=
  (∃ o dec₁ dec₂, v = .object o ∧ loadMembers fuel dec₁ .nil = .ok (o, dec₂)) ∨
    v = .undefined ∧ (dec.version = 3 ∨ peek dec = .ok amf0Undefined) ∨ IsLeaf v

theorem Loads.leaf {α : Type} {f : α → AMFValue} {r : Except Stop (α × Decoder)}
    (h : asValue f r = .ok (v, dec')) (hf : ∀ a, IsLeaf (f a)) : Loads fuel dec v := by
  obtain ⟨a, -, rfl⟩ := asValue_ok h
  exact .inr (.inr (hf a))

theorem Loads.one {w : AMFValue} (h : oneByte dec w = .ok (v, dec')) (hw : IsLeaf w) :
    Loads fuel dec v := by
  cases h
  exact .inr (.inr hw)

theorem Loads.object
    (h : asValue .object (amfLoadObject (fun dec => loadMembers fuel dec .nil) dec) =
      .ok (v, dec')) : Loads fuel dec v := by
  obtain ⟨o, ho, rfl⟩ := asValue_ok h
  obtain ⟨-, dec₁, dec₂, -, hm⟩ := amfLoadObject_ok ho
  exact .inl ⟨o, dec₁, dec₂, rfl, hm⟩

theorem Loads.ecma
    (h : asValue .object (amfLoadEcma (fun dec => loadMembers fuel dec .nil) dec) =
      .ok (v, dec')) : Loads fuel dec v := by
  obtain ⟨o, ho, rfl⟩ := asValue_ok h
  obtain ⟨dec₁, dec₂, hm⟩ := amfLoadEcma_ok ho
  exact .inl ⟨o, dec₁, dec₂, rfl, hm⟩

theorem Loads.ite {c : Prop} [Decidable c] {r r' x : Except Stop (AMFValue × Decoder)}
    (h : (if c then r else r') = x) (hr : c → r = x → Loads fuel dec v)
    (hr' : r' = x → Loads fuel dec v) : Loads fuel dec v := by
  split at h
  · exact hr ‹_› h
  · exact hr' h

theorem amfLoadFuel_ok (h : amfLoadFuel (fuel + 1) dec = .ok (v, dec')) : Loads fuel dec v := by
  obtain ⟨type, htype, h⟩ := bind_ok h
  by_cases hversion : dec.version = 3
  · simp only [if_pos hversion] at h
    apply Loads.ite h fun _ h => .leaf h fun _ => trivial
    intro h
    apply Loads.ite h fun _ h => .leaf h fun _ => trivial
    intro h
    apply Loads.ite h fun _ h => .leaf h fun _ => trivial
    intro h
    apply Loads.ite h fun _ h => .one h trivial
    intro h
    apply Loads.ite h fun _ h => .one h trivial
    intro h
    apply Loads.ite h fun _ h => .object h
    intro h
    apply Loads.ite h fun _ h => .ecma h
    intro h
    apply Loads.ite h fun _ h => .one h trivial
    intro h
    refine Loads.ite h (fun _ h => ?_) nofun
    cases h
    exact .inr (.inl ⟨rfl, .inl hversion⟩)
  · simp only [if_neg hversion] at h
    apply Loads.ite h fun _ h => .leaf h fun _ => trivial
    intro h
    apply Loads.ite h fun _ h => .leaf h fun _ => trivial
    intro h
    apply Loads.ite h fun _ h => .leaf h fun _ => trivial
    intro h
    apply Loads.ite h fun _ h => .object h
    intro h
    apply Loads.ite h fun _ h => .ecma h
    intro h
    apply Loads.ite h fun _ h => .one h trivial
    intro h
    refine Loads.ite h (fun hundefined h => ?_) nofun
    cases h
    exact .inr (.inl ⟨rfl, .inr (hundefined ▸ htype)⟩)

/-- One turn of the loop over the members. -/
theorem loadMembers_ok {acc o : AMFObject} (h : loadMembers (fuel + 1) dec acc = .ok (o, dec')) :
    ∃ key dec₁, amfLoadKey dec = .ok (key, dec₁) ∧ (key = [] ∧ o = acc ∨
      key ≠ [] ∧ ∃ value dec₂, amfLoadFuel fuel dec₁ = .ok (value, dec₂) ∧
        loadMembers fuel dec₂ (acc.insert key value) = .ok (o, dec')) := by
  obtain ⟨⟨key, dec₁⟩, hkey, h⟩ := bind_ok h
  refine ⟨key, dec₁, hkey, ?_⟩
  by_cases hempty : key = []
  · simp only [if_pos hempty] at h
    cases h
    exact .inl ⟨hempty, rfl⟩
  · simp only [if_neg hempty] at h
    obtain ⟨⟨value, dec₂⟩, hvalue, h⟩ := bind_ok h
    exact .inr ⟨hempty, value, dec₂, hvalue, h⟩

end Cases

/-- What is loaded is well formed, by the recursion of the decoder. -/
theorem loaded (fuel : Nat) :
    (∀ dec v dec', amfLoadFuel fuel dec = .ok (v, dec') → v.Forall Keyed ∧ v.Forall NotEcma) ∧
    (∀ dec acc o dec', loadMembers fuel dec acc = .ok (o, dec') → Members acc → Members o) := by
  induction fuel with
  | zero =>
    constructor
    · intro dec v dec' h
      cases h
    · intro dec acc o dec' h
      cases h
  | succ fuel ih =>
    constructor
    · intro dec v dec' h
      obtain ⟨o, dec₁, dec₂, rfl, hm⟩ | ⟨rfl, -⟩ | hleaf := amfLoadFuel_ok h
      · have := ih.2 _ _ _ _ hm .nil
        exact ⟨⟨this.keyed, this.inside⟩, trivial, this.notEcma⟩
      · exact ⟨trivial, trivial⟩
      · cases v <;> first | exact hleaf.elim | exact ⟨trivial, trivial⟩
    · intro dec acc o dec' h hacc
      obtain ⟨key, dec₁, hkey, ⟨-, rfl⟩ | ⟨hne, value, dec₂, hvalue, h⟩⟩ := loadMembers_ok h
      · exact hacc
      · obtain ⟨hk, he⟩ := ih.1 _ _ _ hvalue
        exact ih.2 _ _ _ _ h (hacc.insert hne (amfLoadKey_length hkey) hk he)

/-- Members that were read stay. -/
theorem loadMembers_find {fuel : Nat} {acc o : AMFObject} {key : List UInt8} {value : AMFValue}
    (h : loadMembers fuel dec acc = .ok (o, dec')) (hs : acc.keys.Pairwise (· < ·))
    (hfind : acc.find key = some value) : o.find key = some value := by
  induction fuel generalizing dec acc with
  | zero => cases h
  | succ fuel ih =>
    obtain ⟨k, dec₁, -, ⟨-, rfl⟩ | ⟨-, x, dec₂, -, h⟩⟩ := loadMembers_ok h
    · exact hfind
    · exact ih h (AMFObject.pairwise_insert hs) (AMFObject.find_insert hs hfind)

/-! ## What cannot be read back -/

/-- Behind an undefined member, a key whose length begins with the type byte of undefined. -/
def AMFObject.Ambiguous : AMFObject → Prop
  | .cons _ .undefined (.cons k v rest) =>
    k.length / 256 = amf0Undefined.toNat ∨ (AMFObject.cons k v rest).Ambiguous
  | .cons _ _ rest => rest.Ambiguous
  | .nil => False

def NotAmbiguous : AMFValue → Prop
  | .object o | .ecmaArray o => ¬ o.Ambiguous
  | _ => True

theorem AMFObject.Ambiguous.cons {key : List UInt8} {value : AMFValue} {rest : AMFObject}
    (h : rest.Ambiguous) : (AMFObject.cons key value rest).Ambiguous := by
  cases value <;> first
    | exact h
    | cases rest with
      | nil => exact h
      | cons k v rest => exact .inr h

/-- What follows an undefined member does not read as undefined. -/
theorem not_undefined {fuel : Nat} {key l : List UInt8} {rest : AMFObject}
    (hat : dec.At (rest.bytes ++ [0, 0] ++ l))
    (ha : ¬ (AMFObject.cons key .undefined rest).Ambiguous)
    (hkeys : ∀ k ∈ rest.keys, k ≠ [] ∧ k.length ≤ 65535) :
    amfLoadFuel fuel dec ≠ .ok (.undefined, dec') := by
  intro h
  cases fuel with
  | zero => cases h
  | succ fuel =>
    obtain ⟨_, _, _, h, _⟩ | ⟨-, h⟩ | h := amfLoadFuel_ok h
    · cases h
    · have hpeek : peek dec = .ok amf0Undefined := h.resolve_left (by simp [hat.version])
      cases rest with
      | nil =>
        have hzero : peek dec = .ok 0 := Decoder.At.peek (l := 0 :: l) (by
          simpa [AMFObject.bytes] using hat)
        rw [hzero] at hpeek
        cases hpeek
      | cons k v rest =>
        have hfirst : peek dec = .ok (.ofNat ((UInt16.ofNat k.length).toNat / 256)) :=
          Decoder.At.peek (l := _) (by
            simpa only [AMFObject.bytes, textBytes, be16Bytes, List.append_assoc, List.cons_append,
              List.nil_append] using hat)
        rw [hfirst] at hpeek
        have hlong := (hkeys k List.mem_cons_self).2
        have hhead := congrArg UInt8.toNat (Except.ok.inj hpeek)
        simp only [UInt8.toNat_ofNat', UInt16.toNat_ofNat'] at hhead
        refine ha (.inl ?_)
        omega
    · exact h.elim

/-- A member that reads as another value makes another object. -/
theorem loadMembers_ne {fuel : Nat} {acc rest : AMFObject} {key : List UInt8} {x value : AMFValue}
    (hs : (acc.append (.cons key value rest)).keys.Pairwise (· < ·)) (hne : x ≠ value) :
    loadMembers fuel dec (acc.insert key x) ≠ .ok (acc.append (.cons key value rest), dec') := by
  intro h
  rw [AMFObject.keys_append] at hs
  obtain ⟨hacc, -, hlt⟩ := List.pairwise_append.mp hs
  have hmem : key ∉ acc.keys := fun hmem =>
    List.lt_irrefl _ (hlt key hmem key List.mem_cons_self)
  have hfind := loadMembers_find h (AMFObject.pairwise_insert hacc)
    (AMFObject.find_insert_self hmem)
  rw [AMFObject.find_append hmem] at hfind
  exact hne (Option.some.inj hfind).symm

mutual

/-- What is not lossless in the value keeps its bytes from loading as that value. -/
theorem amfLoadFuel_lossy : ∀ (v : AMFValue) {fuel : Nat} {dec dec' : Decoder} {l : List UInt8},
    v.Forall Keyed → v.Forall NotEcma → v.Forall NotAmbiguous → ¬ v.Forall Lossless →
    v ≠ .undefined → dec.At (v.bytes ++ l) → (v.bytes ++ l).length < fuel →
    amfLoadFuel fuel dec ≠ .ok (v, dec')
  | .string s, fuel + 1, dec, dec', l, _, _, _, hl, _, hat, _ => by
    have hlong : ¬ s.length ≤ 65535 := hl
    intro h
    simp only [amfLoadFuel, hat.peek, hat.amfLoadString, hat.version, asValue,
      bind, Except.bind] at h
    have hs : s.take (s.length % 65536) = s := by
      injection h with h
      exact AMFValue.string.inj (Prod.mk.inj h).1
    have := congrArg List.length hs
    simp only [List.length_take] at this
    omega
  | .integer i, fuel + 1, dec, dec', l, _, _, _, _, _, hat, _ => by
    intro h
    have hload := hat.amfLoadNumber
    simp [amfLoadFuel, hat.peek, hload, hat.version, asValue, bind, Except.bind, pure, Except.pure,
      amf0Number, amf0String] at h
  | .object o, fuel + 1, dec, dec', l, hk, he, ha, hl, _, hat, hf => by
    intro h
    have hat' : dec.At (amf0Object :: (o.bytes ++ [0, 0] ++ (amf0ObjectEnd :: l))) := by
      simpa [AMFValue.bytes] using hat
    obtain ⟨type, htype, h⟩ := bind_ok h
    rw [hat'.peek] at htype
    cases htype
    simp only [hat.version] at h
    obtain ⟨o', ho, he'⟩ := asValue_ok h
    cases he'
    obtain ⟨b, dec₁, dec₂, hb, hm⟩ := amfLoadObject_ok ho
    rw [hat'.getByte (by decide)] at hb
    cases hb
    exact @loadMembers_lossy o _ _ _ .nil _ hk.2 he.2 ha.1 ha.2 (fun ho => hl ⟨trivial, ho⟩) hk.1.1
      hk.1.2 hat'.tail (by simp [AMFValue.bytes] at hf ⊢; omega) hm
  | .number _, _, _, _, _, _, _, _, hl, _, _, _ | .boolean _, _, _, _, _, _, _, _, hl, _, _, _
  | .null, _, _, _, _, _, _, _, hl, _, _, _ => absurd trivial hl
  | .undefined, _, _, _, _, _, _, _, _, hne, _, _ => absurd rfl hne
  | .ecmaArray _, _, _, _, _, _, he, _, _, _, _, _ => he.1.elim

theorem loadMembers_lossy : ∀ (o : AMFObject) {fuel : Nat} {dec dec' : Decoder} {acc : AMFObject}
    {l : List UInt8}, o.Forall Keyed → o.Forall NotEcma → ¬ o.Ambiguous → o.Forall NotAmbiguous →
    ¬ o.Forall Lossless → (acc.append o).keys.Pairwise (· < ·) →
    (∀ k ∈ o.keys, k ≠ [] ∧ k.length ≤ 65535) → dec.At (o.bytes ++ [0, 0] ++ l) →
    (o.bytes ++ [0, 0] ++ l).length < fuel →
    loadMembers fuel dec acc ≠ .ok (acc.append o, dec')
  | .nil, _, _, _, _, _, _, _, _, _, hl, _, _, _, _ => absurd trivial hl
  | .cons key value rest, fuel + 1, dec, dec', acc, l, hk, he, ha, hi, hl, hs, hkeys, hat, hf => by
    intro h
    have hat' : dec.At (textBytes key ++ (value.bytes ++ (rest.bytes ++ [0, 0] ++ l))) := by
      simpa [AMFObject.bytes] using hat
    obtain ⟨hne, hlong⟩ := hkeys key List.mem_cons_self
    have hkey := hat'.amfLoadKey hlong
    have hlength := length_textBytes key
    have hf' : (textBytes key).length + (value.bytes.length + (rest.bytes.length + 2 + l.length)) <
        fuel + 1 := by
      simp only [AMFObject.bytes, List.length_append, List.length_cons, List.length_nil] at hf
      omega
    have hf'' : (value.bytes ++ (rest.bytes ++ [0, 0] ++ l)).length < fuel := by
      simp only [List.length_append, List.length_cons, List.length_nil]
      omega
    obtain ⟨k, dec₁, hk', ⟨rfl, -⟩ | ⟨-, x, dec₂, hx, h⟩⟩ := loadMembers_ok h
    · rw [hkey] at hk'
      cases hk'
      exact hne rfl
    rw [hkey] at hk'
    cases hk'
    -- the member has to read as its value, or the object is another one
    by_cases hxv : x = value
    · subst hxv
      by_cases hlossless : x.Forall Lossless
      · have hvalue := amfLoadFuel_bytes x hk.1 he.1 hlossless hat'.advance hf''
        rw [hvalue] at hx
        cases hx
        have hinsert : acc.insert key x = acc.append (.cons key x .nil) := by
          rw [AMFObject.keys_append] at hs
          exact AMFObject.insert_last x fun k hmem =>
            (List.pairwise_append.mp hs).2.2 k hmem key List.mem_cons_self
        rw [hinsert, ← AMFObject.append_cons key x rest acc] at h
        exact @loadMembers_lossy rest fuel _ _ _ _ hk.2 he.2 (fun hr => ha hr.cons) hi.2
          (fun hr => hl ⟨hlossless, hr⟩) (by rwa [AMFObject.append_cons])
          (fun k hmem => hkeys k (List.mem_cons_of_mem _ hmem)) hat'.advance.advance (by
            simp only [List.length_append, List.length_cons, List.length_nil]
            omega) h
      · by_cases hundefined : x = .undefined
        · subst hundefined
          have hat₁ : (dec.advance (textBytes key).length).At (rest.bytes ++ [0, 0] ++ l) :=
            hat'.advance
          exact not_undefined hat₁ ha (fun k hmem => hkeys k (List.mem_cons_of_mem _ hmem)) hx
        · exact amfLoadFuel_lossy x hk.1 he.1 hi.1 hlossless hundefined hat'.advance hf'' hx
    · exact loadMembers_ne hs hxv h

end

/-! ## Writing and loading again -/

/-- The value is written, and what was written loads as the value. -/
def Reloads (v : AMFValue) : Prop :=
  ∃ buf dec', amfWrite [] v = some buf ∧ amfLoad ⟨buf, 0, 0⟩ = .ok (v, dec')

/-- A value that was loaded, in AMF0 mode or not. -/
theorem amfLoad_reloads (dec dec' : Decoder) (v : AMFValue) (h : amfLoad dec = .ok (v, dec')) :
    (v.Forall Lossless → Reloads v) ∧ (v.Forall NotAmbiguous → Reloads v → v.Forall Lossless) := by
  obtain ⟨hk, he⟩ := (loaded _).1 _ _ _ h
  have hwrite := amfWrite_eq [] v he
  have hat : Decoder.At ⟨v.bytes, 0, 0⟩ (v.bytes ++ []) :=
    ⟨rfl, Nat.zero_le _, by simp [Decoder.rest]⟩
  constructor
  · intro hl
    have hload := amfLoadFuel_bytes v hk he hl hat (Nat.lt_succ_self _)
    rw [← hat.rest] at hload
    exact ⟨v.bytes, _, hwrite, hload⟩
  · rintro ha ⟨buf, dec₁, hbuf, hload⟩
    rw [hwrite] at hbuf
    cases hbuf
    by_contra hl
    by_cases hundefined : v = .undefined
    · subst hundefined
      cases hload
    · have hlossy := @amfLoadFuel_lossy v _ _ dec₁ _ hk he ha hl hundefined hat
        (Nat.lt_succ_self _)
      rw [← hat.rest] at hlossy
      exact hlossy hload

theorem amfLoad_reloads_boolean : Reloads (.object (.cons [97] (.boolean true) .nil)) :=
  (amfLoad_reloads ⟨[3, 0, 1, 97, 1, 7, 0, 0, 9], 0, 0⟩ _ (.object (.cons [97] (.boolean true) .nil))
    rfl).1 (by simp [AMFValue.Forall, AMFObject.Forall, Lossless])

/-- An object with the one member `a`, which is undefined: the encoder writes its key alone. -/
theorem amfLoad_undefined_lost :
    ¬ ∀ (dec dec' : Decoder) (v : AMFValue), dec.version = 0 → amfLoad dec = .ok (v, dec') →
      Reloads v := by
  intro h
  obtain ⟨buf, dec', hwrite, hload⟩ := h ⟨[3, 0, 1, 97, 6, 0, 0, 9], 0, 0⟩
    ⟨[3, 0, 1, 97, 6, 0, 0, 9], 8, 0⟩ (.object (.cons [97] .undefined .nil)) rfl rfl
  have hbuf : buf = [3, 0, 1, 97, 0, 0, 9] := (Option.some.inj hwrite).symm
  subst hbuf
  cases hload

end AllCamera.RtmpAmf
