import AllCamera.Lib.RefCount
import AllCamera.Stream.SessionFactory

/-!
# References to sessions

What holds of the factory after every run of calls in which no reference is released twice and a
source session has its content's id when it goes (`Sound`). The session index is a 64-bit counter and
the reference count a 32-bit one: it holds for runs with at most `2 ^ 64` calls that create and with
less than `2 ^ 31` references to a session at a time (`Bounded`), and beyond either limit it does not
(`not_sound_beyond`).

* `Inv`: the invariant; `Inv.modify`, `Inv.destroy` and `Inv.insert` are what the functions do.
* `run_sessions_sound`: the result.
-/

namespace AllCamera.SessionSystem

open scoped UIntOrder
open AllCamera.Run SessionFactory

/-- The maps, the counts and the ids are right. -/
structure Sound (s : SessionSystem) : Prop where
  /-- An id is never used again. -/
  ids : s.created.Nodup
  /-- The id map has the sessions that exist, under their ids. -/
  mapped : ∀ streamID p, (streamID, p) ∈ s.factory.sessionMap.entries ↔
    ∃ o, s.factory.session p = some o ∧ o.streamID = streamID
  counted : ∀ p o, s.factory.session p = some o → Counts o.lReferenceCnt (s.held p) ∧ 0 < s.held p
  /-- A session is deleted with its last reference. -/
  deleted : ∀ p, s.factory.session p = none ↔ s.held p = 0
  /-- The content map has one entry for each source session. -/
  entries : s.factory.contentMap.entries.Nodup ∧ ∀ c streamID,
    (c, streamID) ∈ s.factory.contentMap.entries ↔
      ∃ p o, s.factory.session p = some o ∧ o.streamID = streamID ∧ s.contentOf p = some c
  /-- A content's session is found. -/
  found : ∀ c p, (s.factory.session p).isSome → s.contentOf p = some c →
    ∃ q, (s.factory.findSessionByContent c).1 = some q ∧ (s.factory.session q).isSome ∧
      s.contentOf q = some c

/-- The counters are within their range. -/
def Bounded (s : SessionSystem) : Prop :=
  s.creates ≤ 2 ^ 64 ∧ ∀ e ∈ s.factory.sessionMap.entries, s.held e.2 < 2 ^ 31

instance (s : SessionSystem) : Decidable s.Bounded := inferInstanceAs (Decidable (_ ∧ _))

/-- The invariant. -/
structure Inv (s : SessionSystem) : Prop where
  mapped : ∀ streamID p, (streamID, p) ∈ s.factory.sessionMap.entries ↔
    ∃ o, s.factory.session p = some o ∧ o.streamID = streamID
  balanced : Balanced StreamSession.lReferenceCnt s.factory.session s.held
  nodup : s.factory.contentMap.entries.Nodup
  entries : ∀ c streamID, (c, streamID) ∈ s.factory.contentMap.entries ↔
    ∃ p o, s.factory.session p = some o ∧ o.streamID = streamID ∧ s.contentOf p = some c
  index : s.factory.sessionIndex = UInt64.ofNat (s.creates + 1)
  distinct : s.created.Nodup
  issued : ∀ streamID ∈ s.created, ∃ i < s.creates, streamID = UInt64.ofNat (i + 1)
  known : ∀ p o, s.factory.session p = some o → o.streamID ∈ s.created

variable {s : SessionSystem} {p q : Nat} {o o' : StreamSession} {streamID : UInt64}
  {c : List UInt8}

theorem inv_init : Inv init where
  mapped streamID p := by simp [init, SortedMap.empty]
  balanced := ⟨fun _ _ h => (Option.some_ne_none _ h.symm).elim, fun _ _ => rfl⟩
  nodup := .nil
  entries c streamID := by simp [init, Multimap.empty]
  index := rfl
  distinct := .nil
  issued streamID h := by cases h
  known p o h := by cases h

theorem Inv.find_eq_some_iff (h : s.Inv) : s.factory.sessionMap.find streamID = some p ↔
    ∃ o, s.factory.session p = some o ∧ o.streamID = streamID :=
  SortedMap.find_eq_some_iff.trans (h.mapped streamID p)

/-- An id is that of one session. -/
theorem Inv.eq_of_id (h : s.Inv) (hp : s.factory.session p = some o)
    (hq : s.factory.session q = some o') (hid : o.streamID = o'.streamID) : p = q := by
  have hfp := h.find_eq_some_iff.mpr ⟨o, hp, hid⟩
  have hfq := h.find_eq_some_iff.mpr ⟨o', hq, rfl⟩
  exact Option.some.inj (hfp.symm.trans hfq)

/-- The session that the content map leads to. -/
theorem Inv.found (h : s.Inv) (hp : (s.factory.session p).isSome) (hc : s.contentOf p = some c) :
    ∃ q, (s.factory.findSessionByContent c).1 = some q ∧ (s.factory.session q).isSome ∧
      s.contentOf q = some c := by
  obtain ⟨o, hp⟩ := Option.isSome_iff_exists.mp hp
  have hmem := (h.entries c o.streamID).mpr ⟨p, o, hp, rfl, hc⟩
  rw [findSessionByContent]
  cases hfind : s.factory.contentMap.find c with
  | nil => exact absurd hfind (Multimap.find_ne_nil hmem)
  | cons e es =>
    have hkey := Multimap.key_of_find hfind
    have he : e ∈ s.factory.contentMap.entries :=
      s.factory.contentMap.find_subset c (hfind ▸ List.mem_cons_self)
    obtain ⟨q, o', hq, hid, hcq⟩ := (h.entries e.1 e.2).mp he
    have hmap := h.find_eq_some_iff.mpr ⟨o', hq, hid⟩
    refine ⟨q, ?_, by rw [hq]; rfl, by rw [hcq, hkey]⟩
    simp only [findSession, hmap]

theorem Inv.sound (h : s.Inv) : s.Sound where
  ids := h.distinct
  mapped := h.mapped
  counted := h.balanced.counted
  deleted _ := h.balanced.eq_none_iff
  entries := ⟨h.nodup, h.entries⟩
  found _ _ hp hc := h.found hp hc

/-! ## Sessions that stay -/

/-- A session that keeps its id, and has another count. -/
theorem Inv.modify {g : StreamSession → StreamSession} {n : Nat} (h : s.Inv)
    (hp : s.factory.session p = some o) (hid : (g o).streamID = o.streamID)
    (hcount : Counts (g o).lReferenceCnt n) (hn : 0 < n) :
    Inv { s with factory := s.factory.modify p g, held := Function.update s.held p n } := by
  have hsession : (s.factory.modify p g).session = Function.update s.factory.session p (some (g o)) := by
    rw [SessionFactory.modify, hp]
    rfl
  -- the sessions have the ids that they had
  have hids : ∀ q streamID, (∃ o', (s.factory.modify p g).session q = some o' ∧ o'.streamID = streamID) ↔
      ∃ o', s.factory.session q = some o' ∧ o'.streamID = streamID := by
    intro q streamID
    rw [hsession]
    by_cases hq : q = p
    · subst hq
      simp [hp, hid]
    · rw [Function.update_of_ne hq]
  refine ⟨fun streamID q => (h.mapped streamID q).trans (hids q streamID).symm, ?_, h.nodup,
    fun c streamID => (h.entries c streamID).trans ?_, h.index, h.distinct, h.issued,
    fun q o' hq => ?_⟩
  · rw [hsession]
    exact h.balanced.update hcount hn
  · refine exists_congr fun q => ?_
    have := hids q streamID
    constructor
    · rintro ⟨o', hq, hid', hc⟩
      obtain ⟨o'', hq', hid''⟩ := this.mpr ⟨o', hq, hid'⟩
      exact ⟨o'', hq', hid'', hc⟩
    · rintro ⟨o', hq, hid', hc⟩
      obtain ⟨o'', hq', hid''⟩ := this.mp ⟨o', hq, hid'⟩
      exact ⟨o'', hq', hid'', hc⟩
  · obtain ⟨o'', hq', hid'⟩ := (hids q o'.streamID).mp ⟨o', hq, rfl⟩
    exact hid' ▸ h.known q o'' hq'

/-- One reference more. -/
theorem Inv.addReference (h : s.Inv) (hp : s.factory.session p = some o)
    (hbound : s.held p + 1 < 2 ^ 31) : Inv { s with
      factory := s.factory.addReference p, held := Function.update s.held p (s.held p + 1) } :=
  h.modify hp rfl ((h.balanced.counted p o hp).1.succ hbound) (Nat.succ_pos _)

theorem Inv.setContentID (h : s.Inv) (p : Nat) (c : List UInt8) :
    Inv { s with factory := s.factory.modify p (·.setContentID c) } := by
  cases hp : s.factory.session p with
  | none =>
    have hsame : s.factory.modify p (·.setContentID c) = s.factory := by
      rw [SessionFactory.modify, hp, Option.map_none, ← hp, Function.update_eq_self]
    rw [hsame]
    exact h
  | some o =>
    have hcount := h.balanced.counted p o hp
    have := h.modify (g := (·.setContentID c)) hp rfl hcount.1 hcount.2
    rwa [Function.update_eq_self] at this

/-- The references of a list of sessions. -/
theorem Inv.addReferences (h : s.Inv) (ps : List Nat) (hps : ∀ p ∈ ps, 0 < s.held p)
    (hbound : ∀ p ∈ ps, s.held p + ps.count p < 2 ^ 31) : Inv { s with
      factory := ps.foldl SessionFactory.addReference s.factory
      held := fun p => s.held p + ps.count p } := by
  refine foldl_addReference (P := fun f held => Inv { s with factory := f, held })
    (fun f held p h hpos hone => ?_) h ps hps hbound
  obtain ⟨o, hp⟩ := h.balanced.exists hpos
  exact h.addReference hp hone

/-! ## Sessions that go and come -/

/-- The content map without the session that is deleted. -/
theorem Inv.eraseFrom (h : s.Inv) (hp : s.factory.session p = some o)
    (hcontent : ∀ c ∈ s.contentOf p, o.szContentId = c) :
    let m := s.factory.contentMap.eraseFrom o.szContentId (fun _ => true) (fun e => e.2 == o.streamID)
    m.entries.Nodup ∧ ∀ c streamID, (c, streamID) ∈ m.entries ↔
      (c, streamID) ∈ s.factory.contentMap.entries ∧ streamID ≠ o.streamID := by
  intro m
  -- an entry with the id is the one of the session
  have hown : ∀ e ∈ s.factory.contentMap.entries, e.2 = o.streamID → s.contentOf p = some e.1 := by
    intro e he hid
    obtain ⟨q, o', hq, hid', hc⟩ := (h.entries e.1 e.2).mp he
    rwa [h.eq_of_id hp hq (hid'.trans hid).symm]
  cases hc : s.contentOf p with
  | none =>
    have hmiss : ∀ e ∈ s.factory.contentMap.entries, (e.2 == o.streamID) = false := by
      intro e he
      rw [beq_eq_false_iff_ne]
      intro hid
      rw [hown e he hid] at hc
      cases hc
    have hsame : m.entries = s.factory.contentMap.entries := Multimap.eraseFrom_of_miss hmiss
    rw [hsame]
    refine ⟨h.nodup, fun c streamID => ⟨fun hmem => ⟨hmem, ?_⟩, And.left⟩⟩
    simpa using hmiss _ hmem
  | some c =>
    obtain rfl := hcontent c hc
    have hmem := (h.entries o.szContentId o.streamID).mpr ⟨p, o, hp, rfl, hc⟩
    obtain ⟨e, -, hhit, hperm⟩ : ∃ e : List UInt8 × UInt64, true = true ∧
        (e.2 == o.streamID) = true ∧ s.factory.contentMap.entries.Perm (e :: m.entries) :=
      Multimap.perm_eraseFrom hmem (fun _ _ => rfl) (beq_self_eq_true _)
    have hnodup := hperm.nodup_iff.mp h.nodup
    rw [List.nodup_cons] at hnodup
    refine ⟨hnodup.2, fun c' streamID => ?_⟩
    have hmem' := hperm.mem_iff (a := (c', streamID))
    rw [List.mem_cons] at hmem'
    have he : ∀ b ∈ s.factory.contentMap.entries, b.2 = o.streamID → b = (o.szContentId, o.streamID) := by
      intro b hb hid
      have := hown b hb hid
      rw [hc] at this
      exact Prod.ext (Option.some.inj this).symm hid
    have heq := he e (hperm.mem_iff.mpr List.mem_cons_self) (by simpa using hhit)
    subst heq
    constructor
    · intro hin
      refine ⟨hmem'.mpr (.inr hin), fun hid => hnodup.1 ?_⟩
      exact he _ (hmem'.mpr (.inr hin)) hid ▸ hin
    · rintro ⟨hin, hne⟩
      rcases hmem'.mp hin with heq | hin
      · exact absurd (Prod.mk.inj heq).2 hne
      · exact hin

/-- The session is deleted with its last reference. -/
theorem Inv.destroy (h : s.Inv) (hp : s.factory.session p = some o) (hheld : s.held p = 1)
    (hcontent : ∀ c ∈ s.contentOf p, o.szContentId = c) :
    Inv (s.giveBack p (s.factory.destroy p o.streamID o.decReference)) := by
  have hcontents := h.eraseFrom hp hcontent
  have hother : ∀ q streamID, (∃ o', Function.update s.factory.session p none q = some o' ∧
      o'.streamID = streamID) ↔
      (∃ o', s.factory.session q = some o' ∧ o'.streamID = streamID) ∧ streamID ≠ o.streamID := by
    intro q streamID
    by_cases hq : q = p
    · subst hq
      simp only [Function.update_self, reduceCtorEq, false_and, exists_false, false_iff, not_and,
        not_not]
      rintro ⟨o', hq, rfl⟩
      rw [hp] at hq
      rw [Option.some.inj hq]
    · rw [Function.update_of_ne hq, iff_self_and]
      rintro ⟨o', hq', rfl⟩ hid
      exact hq (h.eq_of_id hq' hp hid)
  refine ⟨fun streamID q => ?_, ?_, hcontents.1, fun c streamID => ?_, h.index, h.distinct,
    h.issued, fun q o' hq => ?_⟩
  · refine Iff.trans ?_ (hother q streamID).symm
    rw [← h.mapped streamID q]
    exact Assoc.mem_erase
  · rw [giveBack, hheld]
    exact h.balanced.delete
  · refine (hcontents.2 c streamID).trans ?_
    rw [h.entries]
    constructor
    · rintro ⟨⟨q, o', hq, hid, hc⟩, hne⟩
      obtain ⟨o'', hq', hid'⟩ := (hother q streamID).mpr ⟨⟨o', hq, hid⟩, hne⟩
      exact ⟨q, o'', hq', hid', hc⟩
    · rintro ⟨q, o', hq, hid, hc⟩
      obtain ⟨⟨o'', hq', hid'⟩, hne⟩ := (hother q streamID).mp ⟨o', hq, hid⟩
      exact ⟨⟨q, o'', hq', hid', hc⟩, hne⟩
  · obtain ⟨⟨o'', hq', hid'⟩, -⟩ := (hother q o'.streamID).mp ⟨o', hq, rfl⟩
    exact hid' ▸ h.known q o'' hq'

/-- An id goes by, whether or not a session is made. -/
theorem Inv.issue (h : s.Inv) : Inv { s with
    factory := { s.factory with sessionIndex := s.factory.sessionIndex + 1 }
    creates := s.creates + 1 } where
  mapped := h.mapped
  balanced := h.balanced
  nodup := h.nodup
  entries := h.entries
  index := by
    rw [h.index]
    exact (UInt64.ofNat_add (s.creates + 1) 1).symm
  distinct := h.distinct
  issued streamID hid := by
    obtain ⟨i, hi, rfl⟩ := h.issued streamID hid
    exact ⟨i, Nat.lt_succ_of_lt hi, rfl⟩
  known := h.known

/-- The next id is new while the counter has not come around. -/
theorem Inv.fresh (h : s.Inv) (hlt : s.creates < 2 ^ 64) : s.factory.sessionIndex ∉ s.created := by
  intro hmem
  obtain ⟨i, hi, heq⟩ := h.issued _ hmem
  rw [h.index] at heq
  have := congrArg UInt64.toNat heq
  rw [UInt64.toNat_ofNat', UInt64.toNat_ofNat'] at this
  omega

theorem Inv.find_eq_none (h : s.Inv) (hnew : streamID ∉ s.created) :
    s.factory.sessionMap.find streamID = none := by
  cases hfind : s.factory.sessionMap.find streamID with
  | none => rfl
  | some p =>
    obtain ⟨o, hp, rfl⟩ := h.find_eq_some_iff.mp hfind
    exact absurd (h.known p o hp) hnew

/-- A new session under a new id. -/
theorem Inv.insert (h : s.Inv) (hp : s.factory.session p = none) (hnew : o.streamID ∉ s.created)
    (hissued : ∃ i < s.creates, o.streamID = UInt64.ofNat (i + 1)) (hone : o.lReferenceCnt = 1)
    (content : Option (List UInt8)) : Inv { s with
      factory := { s.factory with
        session := Function.update s.factory.session p (some o)
        sessionMap := s.factory.sessionMap.insert o.streamID p
        contentMap :=
          match content with
          | some c => s.factory.contentMap.insert c o.streamID
          | none => s.factory.contentMap }
      held := Function.update s.held p (s.held p + 1)
      contentOf := Function.update s.contentOf p content
      created := o.streamID :: s.created } := by
  have hids : ∀ q streamID, (∃ o', Function.update s.factory.session p (some o) q = some o' ∧
      o'.streamID = streamID) ↔ (q = p ∧ streamID = o.streamID) ∨
      ∃ o', s.factory.session q = some o' ∧ o'.streamID = streamID := by
    intro q streamID
    by_cases hq : q = p
    · subst hq
      simp [hp, eq_comm]
    · simp [hq]
  refine ⟨fun streamID q => ?_, ?_, ?_, fun c streamID => ?_, h.index, ?_,
    fun streamID hid => ?_, fun q o' hq => ?_⟩
  · refine Iff.trans ?_ (hids q streamID).symm
    rw [(SortedMap.perm_insert (h.find_eq_none hnew) p).mem_iff, List.mem_cons, h.mapped,
      Prod.mk.injEq, and_comm]
  · refine h.balanced.update ?_ (Nat.succ_pos _)
    rw [hone, h.balanced.gone p hp]
    exact counts_one
  · cases content with
    | none => exact h.nodup
    | some c =>
      refine (s.factory.contentMap.perm_insert c o.streamID).nodup_iff.mpr
        (List.nodup_cons.mpr ⟨fun hmem => ?_, h.nodup⟩)
      obtain ⟨q, o', hq, hid, -⟩ := (h.entries _ _).mp hmem
      exact hnew (hid ▸ h.known q o' hq)
  · -- an entry is the one of the new session or of another one
    have hold : (∃ q o', Function.update s.factory.session p (some o) q = some o' ∧
        o'.streamID = streamID ∧ Function.update s.contentOf p content q = some c) ↔
        (streamID = o.streamID ∧ content = some c) ∨
          (c, streamID) ∈ s.factory.contentMap.entries := by
      rw [h.entries]
      constructor
      · rintro ⟨q, o', hq, hid, hc⟩
        by_cases hqp : q = p
        · subst hqp
          rw [Function.update_self] at hq hc
          exact .inl ⟨(Option.some.inj hq) ▸ hid.symm, hc⟩
        · rw [Function.update_of_ne hqp] at hq hc
          exact .inr ⟨q, o', hq, hid, hc⟩
      · rintro (⟨rfl, rfl⟩ | ⟨q, o', hq, hid, hc⟩)
        · exact ⟨p, o, Function.update_self .., rfl, Function.update_self ..⟩
        · have hqp : q ≠ p := by
            rintro rfl
            rw [hp] at hq
            cases hq
          exact ⟨q, o', by rwa [Function.update_of_ne hqp], hid, by rwa [Function.update_of_ne hqp]⟩
    refine Iff.trans ?_ hold.symm
    cases content with
    | none => simp
    | some c' =>
      rw [(s.factory.contentMap.perm_insert c' o.streamID).mem_iff, List.mem_cons, Prod.mk.injEq,
        Option.some.injEq, eq_comm (a := c), and_comm]
  · exact List.nodup_cons.mpr ⟨hnew, h.distinct⟩
  · rcases List.mem_cons.mp hid with rfl | hid
    · exact hissued
    · exact h.issued streamID hid
  · rcases (hids q o'.streamID).mp ⟨o', hq, rfl⟩ with ⟨-, hid⟩ | ⟨o'', hq', hid⟩
    · rw [hid]
      exact List.mem_cons_self
    · exact List.mem_cons_of_mem _ (hid ▸ h.known q o'' hq')

/-! ## The calls -/

theorem Inv.create (h : s.Inv) (hlt : s.creates < 2 ^ 64) (hp : s.factory.session p = none)
    (content : Option (List UInt8)) (unPeerType : PeerType) (unSessionType : SessionType)
    (bLocalFlag : Bool) : Inv (s.createStep content
      (s.factory.create content unPeerType unSessionType bLocalFlag p) p) := by
  have hnone := h.find_eq_none (h.fresh hlt)
  simp only [createStep, SessionFactory.create, hnone]
  cases createConcreteSession unSessionType bLocalFlag with
  | none => exact h.issue
  | some sessionClass =>
    simp only [if_true]
    exact h.issue.insert
      (o := { sessionClass, peerType := unPeerType, streamID := s.factory.sessionIndex,
              szContentId := [], lReferenceCnt := 1 })
      hp (h.fresh hlt) ⟨s.creates, Nat.lt_succ_self _, h.index⟩ rfl content

theorem Inv.release (h : s.Inv) (hr : s.Releasable p) :
    Inv (s.giveBack p (s.factory.releaseSession p)) := by
  obtain ⟨hheld, hcontent⟩ := hr
  obtain ⟨o, hp⟩ := h.balanced.exists hheld
  obtain ⟨n, hn⟩ : ∃ n, s.held p = n + 1 := Nat.exists_eq_add_one.mpr hheld
  have hcount := (h.balanced.counted p o hp).1
  rw [hn] at hcount
  have hdec : Counts o.decReference.lReferenceCnt n := hcount.pred
  rw [releaseSession]
  simp only [hp]
  by_cases hlast : n = 0
  · subst hlast
    have hpos : ¬ 0 < o.decReference.lReferenceCnt := by
      rw [hdec.pos_iff]
      omega
    have hfind := h.find_eq_some_iff.mpr ⟨o, hp, rfl⟩
    rw [if_neg hpos]
    change s.factory.sessionMap.find o.decReference.streamID = some p at hfind
    simp only [hfind]
    exact h.destroy (o := o) hp hn fun c hc => hcontent hn c hc o hp
  · have hpos : 0 < o.decReference.lReferenceCnt := hdec.pos_iff.mpr (Nat.pos_of_ne_zero hlast)
    rw [if_pos hpos]
    have := h.modify (g := (·.decReference)) hp rfl hdec (Nat.pos_of_ne_zero hlast)
    rwa [show n = s.held p - 1 by omega] at this

/-- A release by id is one of the session that has the id. -/
theorem Inv.releaseSessionById_eq (h : s.Inv) (hfind : s.factory.sessionMap.find streamID = some p) :
    s.factory.releaseSessionById streamID = s.factory.releaseSession p := by
  obtain ⟨o, hp, rfl⟩ := h.find_eq_some_iff.mp hfind
  have hfind' : s.factory.sessionMap.find o.decReference.streamID = some p := hfind
  rw [releaseSessionById, releaseSession]
  simp only [hfind, hp, hfind']
  rfl

theorem Inv.find (h : s.Inv) (hbound : ∀ e ∈ s.factory.sessionMap.entries,
      (s.obtain (s.factory.findSession streamID)).held e.2 < 2 ^ 31) :
    Inv (s.obtain (s.factory.findSession streamID)) := by
  rw [findSession] at hbound ⊢
  cases hfind : s.factory.sessionMap.find streamID with
  | none => exact h
  | some p =>
    obtain ⟨o, hp, hid⟩ := h.find_eq_some_iff.mp hfind
    have := hbound _ (SortedMap.find_eq_some_iff.mp hfind)
    rw [hfind, obtain] at this
    simp only [Function.update_self] at this
    exact h.addReference hp this

theorem sessionMap_addReferences (ps : List Nat) (f : SessionFactory) :
    (ps.foldl SessionFactory.addReference f).sessionMap = f.sessionMap := by
  induction ps generalizing f with
  | nil => rfl
  | cons p ps ih => exact ih _

/-- One call keeps the invariant. -/
theorem Inv.step (h : s.Inv) {a : Act} (ha : s.Disciplined a) (hb : (s.step a).Bounded) :
    (s.step a).Inv := by
  cases a with
  | createSourceSession c peer type flag p =>
    refine h.create ?_ ha _ _ _ _
    have hcreates := hb.1
    simp only [SessionSystem.step, createStep] at hcreates
    split at hcreates
    · exact hcreates
    · exact hcreates
  | createSession peer type flag p =>
    refine h.create ?_ ha _ _ _ _
    have hcreates := hb.1
    simp only [SessionSystem.step, createStep] at hcreates
    split at hcreates
    · exact hcreates
    · exact hcreates
  | setContentID p c => exact h.setContentID p c
  | findSession streamID =>
    refine h.find fun e he => hb.2 e ?_
    simp only [SessionSystem.step, obtain, SessionFactory.findSession]
    split
    · exact he
    · exact he
  | findSessionByContent c =>
    simp only [SessionSystem.step, findSessionByContent] at hb ⊢
    cases hfind : s.factory.contentMap.find c with
    | nil => exact h
    | cons e es =>
      rw [hfind] at hb
      refine h.find fun e' he' => hb.2 e' ?_
      simp only [obtain, SessionFactory.findSession]
      split
      · exact he'
      · exact he'
  | getAllSession =>
    refine h.addReferences _ (fun p hp => ?_) fun p hp => ?_
    · obtain ⟨e, he, rfl⟩ := List.mem_map.mp hp
      obtain ⟨o, ho, -⟩ := (h.mapped e.1 e.2).mp he
      exact (h.balanced.counted e.2 o ho).2
    · obtain ⟨e, he, rfl⟩ := List.mem_map.mp hp
      refine hb.2 e ?_
      simp only [SessionSystem.step, SessionFactory.getAllSession, sessionMap_addReferences]
      exact he
  | releaseSession p => exact h.release ha
  | releaseSessionById streamID =>
    simp only [SessionSystem.step]
    cases hfind : s.factory.sessionMap.find streamID with
    | none => exact h
    | some p =>
      simp only [h.releaseSessionById_eq hfind]
      exact h.release (ha p hfind)

/-- **After every run of calls that keep to the discipline, within the range of the counters, the
factory is right.** -/
theorem run_sessions_sound {as : List Act}
    (h : Allowed SessionSystem.step (fun s a => s.Disciplined a ∧ (s.step a).Bounded) init as) :
    (run SessionSystem.step init as).Sound :=
  (h.invariant inv_init fun _ _ hs ha => hs.step ha.1 ha.2).sound

/-- Two sources of one content and a session that is no source; they are found and released. -/
def twoSources : List Act :=
  [.createSourceSession [97] .pu .rtp false 0, .setContentID 0 [97],
    .createSourceSession [97] .pu .ehome false 1, .setContentID 1 [97],
    .createSession .cu .rtsp true 2, .findSessionByContent [97], .getAllSession, .releaseSession 0,
    .releaseSession 0, .releaseSessionById 1, .findSessionByContent [97], .releaseSessionById 3,
    .releaseSession 2]

theorem twoSources_sound : (run SessionSystem.step init twoSources).Sound :=
  run_sessions_sound (by decide)

/-! ## Beyond the range of the counters -/

/-- One reference more for each time that a session is found. -/
theorem run_findSession (hfind : s.factory.sessionMap.find streamID = some p) (n : Nat) :
    let s' := run SessionSystem.step s (List.replicate n (.findSession streamID))
    s'.factory.sessionMap = s.factory.sessionMap ∧ s'.creates = s.creates ∧
      s'.held p = s.held p + n := by
  induction n generalizing s with
  | zero => exact ⟨rfl, rfl, rfl⟩
  | succ n ih =>
    have hstep : s.step (.findSession streamID) = { s with
        factory := s.factory.addReference p
        held := Function.update s.held p (s.held p + 1) } := by
      simp only [SessionSystem.step, SessionFactory.findSession, hfind, obtain]
    rw [List.replicate_succ, run, hstep]
    obtain ⟨hmap, hcreates, hheld⟩ := ih (s := { s with
        factory := s.factory.addReference p
        held := Function.update s.held p (s.held p + 1) }) hfind
    refine ⟨hmap, hcreates, hheld.trans ?_⟩
    simp only [Function.update_self]
    omega

theorem allowed_findSession (hcreates : s.creates ≤ 2 ^ 64) (n : Nat) :
    Allowed SessionSystem.step (fun s a => s.Disciplined a ∧ (s.step a).creates ≤ 2 ^ 64) s
      (List.replicate n (.findSession streamID)) := by
  induction n generalizing s with
  | zero => trivial
  | succ n ih => exact ⟨⟨trivial, hcreates⟩, ih hcreates⟩

/-- A session is created, and then found `n` times. -/
def findsAgain (n : Nat) : List Act :=
  .createSession .cu .rtsp true 0 :: List.replicate n (.findSession 1)

theorem findSession_overflows (n : Nat) (hn : 2 ^ 31 ≤ n + 1) :
    Allowed SessionSystem.step (fun s a => s.Disciplined a ∧ (s.step a).creates ≤ 2 ^ 64) init
      (findsAgain n) ∧
    ¬ (run SessionSystem.step init (findsAgain n)).Sound := by
  have hfind : (SessionSystem.step init
      (.createSession .cu .rtsp true 0)).factory.sessionMap.find 1 = some 0 := by decide
  have hone : (SessionSystem.step init (.createSession .cu .rtsp true 0)).held 0 = 1 := rfl
  obtain ⟨hmap, -, hheld⟩ := run_findSession hfind n
  refine ⟨⟨by decide, allowed_findSession (by decide) n⟩, fun hsound => ?_⟩
  have hlast := SortedMap.find_eq_some_iff.mp ((congrArg (SortedMap.find · 1) hmap).trans hfind)
  obtain ⟨o, hp, -⟩ := (hsound.mapped 1 0).mp hlast
  have hlt : (run SessionSystem.step (SessionSystem.step init (.createSession .cu .rtsp true 0))
      (List.replicate n (.findSession 1))).held 0 < 2 ^ 31 := (hsound.counted 0 o hp).1.lt
  omega

/-- An id goes by for each call that makes no session. -/
theorem run_createSession_fails (hmap : s.factory.sessionMap.entries = []) (n : Nat) :
    let s' := run SessionSystem.step s (List.replicate n (.createSession .cu .hls true p))
    s'.factory = { s.factory with sessionIndex := s.factory.sessionIndex + UInt64.ofNat n } ∧
      s'.created = s.created ∧ s'.held = s.held := by
  induction n generalizing s with
  | zero => exact ⟨by simp [run], rfl, rfl⟩
  | succ n ih =>
    have hfind : ∀ id, s.factory.sessionMap.find id = none := by
      intro id
      rw [SortedMap.find_eq_none_iff, hmap]
      exact List.not_mem_nil
    have hstep : s.step (.createSession .cu .hls true p) = { s with
        factory := { s.factory with sessionIndex := s.factory.sessionIndex + 1 }
        creates := s.creates + 1 } := by
      simp only [SessionSystem.step, createStep, createSession, SessionFactory.create, hfind]
      rfl
    rw [List.replicate_succ, run, hstep]
    obtain ⟨hfactory, hsame⟩ := ih (s := { s with
        factory := { s.factory with sessionIndex := s.factory.sessionIndex + 1 }
        creates := s.creates + 1 }) hmap
    refine ⟨hfactory.trans ?_, hsame⟩
    simp only [SessionFactory.mk.injEq, true_and, and_true]
    rw [UInt64.add_assoc, ← UInt64.ofNat_one, ← UInt64.ofNat_add, Nat.add_comm 1 n]

theorem allowed_createSession_fails (hmap : s.factory.sessionMap.entries = [])
    (hp : s.factory.session p = none) (n : Nat) :
    Allowed SessionSystem.step (fun s a => s.Disciplined a ∧
      ∀ e ∈ (s.step a).factory.sessionMap.entries, (s.step a).held e.2 < 2 ^ 31) s
      (List.replicate n (.createSession .cu .hls true p)) := by
  induction n generalizing s with
  | zero => trivial
  | succ n ih =>
    have hrun := (run_createSession_fails (p := p) hmap 1).1
    have hmap' : (s.step (.createSession .cu .hls true p)).factory.sessionMap.entries = [] :=
      (congrArg (fun f => f.sessionMap.entries) hrun).trans hmap
    refine ⟨⟨hp, fun e he => ?_⟩, ih hmap' ((congrArg (fun f => f.session p) hrun).trans hp)⟩
    rw [hmap'] at he
    cases he

theorem createSession_new
    (hfind : s.factory.sessionMap.find s.factory.sessionIndex = none) (p : Nat) :
    let s' := s.step (.createSession .cu .rtsp true p)
    s'.created = s.factory.sessionIndex :: s.created ∧
      s'.factory.sessionMap = s.factory.sessionMap.insert s.factory.sessionIndex p ∧
      s'.held = Function.update s.held p (s.held p + 1) := by
  have hclass : createConcreteSession .rtsp true = some .stdRtpSession := rfl
  simp only [SessionSystem.step, createStep, createSession, SessionFactory.create, hfind, hclass,
    if_true, true_and]
  exact ⟨rfl, rfl⟩

/-- A session is created and released, then `n` calls make none, then a session is created. -/
def createsAgain (n : Nat) : List Act :=
  [.createSession .cu .rtsp true 0, .releaseSession 0] ++
    (List.replicate n (.createSession .cu .hls true 0) ++ [.createSession .cu .rtsp true 0])

theorem createSession_again (n : Nat) (hn : 2 + UInt64.ofNat n = 1) :
    Allowed SessionSystem.step (fun s a => s.Disciplined a ∧
      ∀ e ∈ (s.step a).factory.sessionMap.entries, (s.step a).held e.2 < 2 ^ 31) init
      (createsAgain n) ∧
    (run SessionSystem.step init (createsAgain n)).created = [1, 1] := by
  have hmap : (run SessionSystem.step init
      [.createSession .cu .rtsp true 0, .releaseSession 0]).factory.sessionMap.entries = [] := by
    decide
  have hp : (run SessionSystem.step init
      [.createSession .cu .rtsp true 0, .releaseSession 0]).factory.session 0 = none := by
    decide
  have hallowed := allowed_createSession_fails hmap hp n
  obtain ⟨hfactory, hcreated, hheld⟩ := run_createSession_fails (p := 0) hmap n
  simp only [createsAgain, allowed_append, run_append]
  -- the state before the last call has the first id as the next one
  generalize run SessionSystem.step (run SessionSystem.step init
    [.createSession .cu .rtsp true 0, .releaseSession 0])
    (List.replicate n (.createSession .cu .hls true 0)) = s at hfactory hcreated hheld ⊢
  have hindex : s.factory.sessionIndex = 1 := (congrArg (·.sessionIndex) hfactory).trans hn
  have hmap' : s.factory.sessionMap = .empty := congrArg (·.sessionMap) hfactory
  have hfree : s.factory.session 0 = none := (congrArg (·.session 0) hfactory).trans hp
  obtain ⟨hnew, hentries, href⟩ := createSession_new (s := s) (by rw [hmap']; rfl) 0
  refine ⟨⟨by decide, hallowed, ⟨hfree, fun e he => ?_⟩, trivial⟩, ?_⟩
  · rw [hentries, hmap', hindex] at he
    obtain rfl : e = (1, 0) := List.mem_singleton.mp he
    rw [href, Function.update_self, hheld]
    decide
  · rw [run, run, hnew, hindex, hcreated]
    rfl

/-- Beyond `2 ^ 31` references a count is wrong; beyond `2 ^ 64` calls that create an id comes again. -/
theorem not_sound_beyond :
    (∃ as, Allowed SessionSystem.step
        (fun s a => s.Disciplined a ∧ (s.step a).creates ≤ 2 ^ 64) init as ∧
      ¬ (run SessionSystem.step init as).Sound) ∧
    ∃ as, Allowed SessionSystem.step
        (fun s a => s.Disciplined a ∧
          ∀ e ∈ (s.step a).factory.sessionMap.entries, (s.step a).held e.2 < 2 ^ 31) init as ∧
      ¬ (run SessionSystem.step init as).Sound := by
  constructor
  · exact ⟨_, findSession_overflows (2 ^ 31) (by decide)⟩
  · obtain ⟨hallowed, hcreated⟩ := createSession_again (2 ^ 64 - 1) (by decide)
    refine ⟨_, hallowed, fun hsound => ?_⟩
    have hids := hsound.ids
    rw [hcreated] at hids
    exact absurd hids (by decide)

end AllCamera.SessionSystem
