import AllCamera.Record.MbBuffer

/-!
# What a pool does to its list

* `Heap.Frame`: some blocks have other links, nothing else is changed.
* `allocLoop_spec`, `allocMb_spec`: a batch is taken from the front of the free list.
* `freeLoop_spec`, `freeMb_spec`: a batch is put in front of it.
* `splitLoop_spec`: a batch is divided by the classes of its blocks.
-/

namespace AllCamera

/-- Only the blocks `l` have other links; sizes and first bytes stay. -/
structure Heap.Frame (h h' : Heap) (l : List Nat) : Prop where
  other : ∀ b ∉ l, h' b = h b
  fixed : ∀ b, (h' b).size = (h b).size ∧ (h' b).info = (h b).info ∧ (h' b).home = (h b).home

/-- The links of a heap. -/
def Heap.nexts (h : Heap) (b : Nat) : Option Nat := (h b).next

def Heap.conts (h : Heap) (b : Nat) : Option Nat := (h b).cont

namespace Heap

variable {h h' h'' : Heap} {b b' mb : Nat} {o : Option Nat} {l l' : List Nat}

@[simp] theorem next_setNext_self : (h.setNext b o b).next = o := by simp [setNext]

@[simp] theorem cont_setNext : (h.setNext b o b').cont = (h b').cont := by
  unfold setNext
  by_cases hb : b' = b
  · rw [hb, Function.update_self]
  · rw [Function.update_of_ne hb]

@[simp] theorem cont_setCont_self : (h.setCont b o b).cont = o := by simp [setCont]

@[simp] theorem setNext_of_ne (hb : b' ≠ b) : h.setNext b o b' = h b' := Function.update_of_ne hb _ _

@[simp] theorem setCont_of_ne (hb : b' ≠ b) : h.setCont b o b' = h b' := Function.update_of_ne hb _ _

theorem Frame.refl (h : Heap) (l : List Nat) : Frame h h l := ⟨fun _ _ => rfl, fun _ => ⟨rfl, rfl, rfl⟩⟩

theorem Frame.trans (hf : Frame h h' l) (hf' : Frame h' h'' l') (hl : l ⊆ l') : Frame h h'' l' := by
  refine ⟨fun b hb => ?_, fun b => ?_⟩
  · rw [hf'.other b hb, hf.other b fun hmem => hb (hl hmem)]
  · obtain ⟨hsize, hinfo, hhome⟩ := hf.fixed b
    obtain ⟨hsize', hinfo', hhome'⟩ := hf'.fixed b
    exact ⟨hsize'.trans hsize, hinfo'.trans hinfo, hhome'.trans hhome⟩

theorem Frame.mono (hf : Frame h h' l) (hl : l ⊆ l') : Frame h h' l' :=
  ⟨fun b hb => hf.other b fun hmem => hb (hl hmem), hf.fixed⟩

theorem frame_setNext (hb : b ∈ l) : Frame h (h.setNext b o) l := by
  refine ⟨fun b' hb' => setNext_of_ne fun heq => hb' (heq ▸ hb), fun b' => ?_⟩
  unfold setNext
  by_cases heq : b' = b
  · rw [heq, Function.update_self]
    exact ⟨rfl, rfl, rfl⟩
  · rw [Function.update_of_ne heq]
    exact ⟨rfl, rfl, rfl⟩

theorem frame_setCont (hb : b ∈ l) : Frame h (h.setCont b o) l := by
  refine ⟨fun b' hb' => setCont_of_ne fun heq => hb' (heq ▸ hb), fun b' => ?_⟩
  unfold setCont
  by_cases heq : b' = b
  · rw [heq, Function.update_self]
    exact ⟨rfl, rfl, rfl⟩
  · rw [Function.update_of_ne heq]
    exact ⟨rfl, rfl, rfl⟩

theorem Frame.chain_nexts (hf : Frame h h' l) (hc : LinkedNodes h.nexts o l') (hd : ∀ b ∈ l', b ∉ l) :
    LinkedNodes h'.nexts o l' :=
  hc.congr fun b hb => by
    unfold nexts
    rw [hf.other b (hd b hb)]

theorem Frame.chain_conts (hf : Frame h h' l) (hc : LinkedNodes h.conts o l') (hd : ∀ b ∈ l', b ∉ l) :
    LinkedNodes h'.conts o l' :=
  hc.congr fun b hb => by
    unfold conts
    rw [hf.other b (hd b hb)]

end Heap

namespace MbBuffer

variable {h : Heap} {p : MbBuffer} {l pl : List Nat} {mb : Nat} {o : Option Nat}

/-- The free list of a pool, with its counter. -/
structure FreeList (h : Heap) (p : MbBuffer) (l : List Nat) : Prop where
  chain : LinkedNodes h.nexts p.freeMbList l
  count : p.freeMbCount.toNat = l.length

/-- The first block is taken from the list. -/
theorem FreeList.tail (hf : FreeList h p (mb :: l)) :
    p.freeMbList = some mb ∧
      FreeList h { p with freeMbList := (h mb).next, freeMbCount := p.freeMbCount - 1 } l := by
  obtain ⟨hhead, hchain⟩ := hf.chain
  have hcount := hf.count
  refine ⟨hhead, hchain, ?_⟩
  rw [List.length_cons] at hcount
  have hle : (1 : UInt32) ≤ p.freeMbCount := by
    rw [UInt32.le_iff_toNat_le, UInt32.toNat_one]
    omega
  rw [UInt32.toNat_sub_of_le _ _ hle, UInt32.toNat_one]
  omega

/-! ## `alloc_mb` -/

/-- The loop takes blocks from the list and links them behind `mbCont`. -/
theorem allocLoop_spec (n : Nat) (hf : FreeList h p l) (hmb : mb ∉ l) (hcont : ∀ b ∈ mb :: l, (h b).cont = none) :
    ∃ taken rest, l = taken ++ rest ∧ FreeList (allocLoop n h p mb).1 (allocLoop n h p mb).2 rest ∧
      LinkedNodes (allocLoop n h p mb).1.conts ((allocLoop n h p mb).1 mb).cont taken ∧
      Heap.Frame h (allocLoop n h p mb).1 (mb :: taken) ∧ (allocLoop n h p mb).2.mbSize = p.mbSize := by
  induction n generalizing h p mb l with
  | zero =>
    refine ⟨[], l, rfl, hf, ?_, .refl _ _, rfl⟩
    exact LinkedNodes.nil_iff.mpr (hcont mb List.mem_cons_self)
  | succ n ih =>
    cases l with
    | nil =>
      have hnone : p.freeMbList = none := hf.chain
      unfold allocLoop
      rw [hnone]
      exact ⟨[], [], rfl, hf, LinkedNodes.nil_iff.mpr (hcont mb List.mem_cons_self), .refl _ _, rfl⟩
    | cons mbTemp l =>
      obtain ⟨hne, hmb'⟩ : mb ≠ mbTemp ∧ mb ∉ l := by simpa using hmb
      have htemp : mbTemp ∉ l := (List.nodup_cons.mp hf.chain.nodup).1
      obtain ⟨hhead, hrest⟩ := hf.tail
      unfold allocLoop
      rw [hhead]
      dsimp only
      -- the block is cut off and linked behind `mb`
      have hframe : Heap.Frame h (((h.setNext mbTemp none).setCont mbTemp none).setCont mb (some mbTemp))
          [mb, mbTemp] :=
        ((Heap.frame_setNext (by simp)).trans (Heap.frame_setCont (by simp)) (List.Subset.refl _)).trans
          (Heap.frame_setCont (by simp)) (List.Subset.refl _)
      generalize hh₁ : ((h.setNext mbTemp none).setCont mbTemp none).setCont mb (some mbTemp) = h₁ at hframe ⊢
      have hmbCont : (h₁ mb).cont = some mbTemp := by rw [← hh₁, Heap.cont_setCont_self]
      have htempCont : (h₁ mbTemp).cont = none := by
        rw [← hh₁, Heap.setCont_of_ne (Ne.symm hne), Heap.cont_setCont_self]
      have hout : ∀ b ∈ l, b ∉ [mb, mbTemp] := by
        intro b hb hmem
        rcases List.mem_pair.mp hmem with rfl | rfl
        · exact hmb' hb
        · exact htemp hb
      obtain ⟨taken, rest, rfl, hfree, hchain, hframe', hsize⟩ := ih (h := h₁)
        (p := { p with freeMbList := (h mbTemp).next, freeMbCount := p.freeMbCount - 1 })
        ⟨hframe.chain_nexts hrest.chain hout, hrest.count⟩ htemp (fun b hb => by
          rcases List.mem_cons.mp hb with rfl | hb
          · exact htempCont
          · rw [hframe.other b (hout b hb)]
            exact hcont b (by simp [hb]))
      refine ⟨mbTemp :: taken, rest, rfl, hfree, ?_, ?_, hsize⟩
      · rw [hframe'.other mb (by simp at hmb'; simp [hne, hmb']), hmbCont]
        exact ⟨rfl, hchain⟩
      · refine (hframe.mono ?_).trans (hframe'.mono ?_) (List.Subset.refl _)
        · simp
        · simp

/-- A batch: some blocks from the front of the list, linked by `cont`. There is none only if the list is
empty. -/
theorem allocMb_spec {n : UInt32} (hn : n ≠ 0) (hf : FreeList h p l) (hcont : ∀ b ∈ l, (h b).cont = none) :
    ∃ taken rest, l = taken ++ rest ∧ FreeList (p.allocMb h n).1 (p.allocMb h n).2.1 rest ∧
      LinkedNodes (p.allocMb h n).1.conts (p.allocMb h n).2.2 taken ∧
      Heap.Frame h (p.allocMb h n).1 taken ∧ (p.allocMb h n).2.1.mbSize = p.mbSize := by
  unfold allocMb
  rw [if_neg hn]
  cases l with
  | nil =>
    have hnone : p.freeMbList = none := hf.chain
    rw [hnone]
    exact ⟨[], [], rfl, hf, rfl, .refl _ _, rfl⟩
  | cons mbFirst l =>
    have hfirst : mbFirst ∉ l := (List.nodup_cons.mp hf.chain.nodup).1
    obtain ⟨hhead, hrest⟩ := hf.tail
    rw [hhead]
    dsimp only
    have hframe : Heap.Frame h (h.setNext mbFirst none) [mbFirst] := Heap.frame_setNext (by simp)
    obtain ⟨taken, rest, rfl, hfree, hchain, hframe', hsize⟩ := allocLoop_spec (n.toNat - 1)
      (h := h.setNext mbFirst none)
      (p := { p with freeMbList := (h mbFirst).next, freeMbCount := p.freeMbCount - 1 })
      ⟨hframe.chain_nexts hrest.chain (fun b hb hmem => hfirst (List.mem_singleton.mp hmem ▸ hb)), hrest.count⟩
      hfirst (fun b hb => by rw [Heap.cont_setNext]; exact hcont b hb)
    refine ⟨mbFirst :: taken, rest, rfl, hfree, ⟨rfl, hchain⟩, ?_, hsize⟩
    exact hframe.trans hframe' (by simp)

/-! ## `free_mb` -/

/-- A block is put in front of the list. -/
def put (h : Heap) (p : MbBuffer) (mb : Nat) : Heap × MbBuffer :=
  (((h.setCont mb none).setNext mb none).setNext mb p.freeMbList,
    { p with freeMbList := some mb, freeMbCount := p.freeMbCount + 1 })

theorem put_spec (hf : FreeList h p pl) (hmb : mb ∉ pl) (hbound : 1 + pl.length < 2 ^ 32) :
    FreeList (put h p mb).1 (put h p mb).2 (mb :: pl) ∧ ((put h p mb).1 mb).cont = none ∧
      Heap.Frame h (put h p mb).1 [mb] ∧ (put h p mb).2.mbSize = p.mbSize := by
  have hframe : Heap.Frame h (put h p mb).1 [mb] :=
    ((Heap.frame_setCont (by simp)).trans (Heap.frame_setNext (by simp)) (List.Subset.refl _)).trans
      (Heap.frame_setNext (by simp)) (List.Subset.refl _)
  refine ⟨⟨⟨rfl, ?_⟩, ?_⟩, ?_, hframe, rfl⟩
  · rw [show (put h p mb).1.nexts mb = p.freeMbList from Heap.next_setNext_self]
    exact hframe.chain_nexts hf.chain fun b hb hmem => hmb (List.mem_singleton.mp hmem ▸ hb)
  · show (p.freeMbCount + 1).toNat = pl.length + 1
    have hcount := hf.count
    rw [UInt32.toNat_add, UInt32.toNat_one]
    omega
  · show ((((h.setCont mb none).setNext mb none).setNext mb p.freeMbList) mb).cont = none
    rw [Heap.cont_setNext, Heap.cont_setNext, Heap.cont_setCont_self]

/-- One turn of the loop, for a block of the size of the pool. -/
theorem freeLoop_succ (fuel : Nat) (hsize : (h mb).size = p.mbSize) :
    freeLoop (fuel + 1) h p mb o =
      match o with
      | none => put h p mb
      | some x => freeLoop fuel (put h p mb).1 (put h p mb).2 x ((put h p mb).1 x).cont := by
  have hsame : (((h.setCont mb none).setNext mb none) mb).size = p.mbSize := by
    rw [← hsize]
    exact (((Heap.frame_setCont (List.mem_singleton_self mb)).trans
      (Heap.frame_setNext (List.mem_singleton_self mb)) (List.Subset.refl _)).fixed mb).1
  conv_lhs => unfold freeLoop
  dsimp only
  rw [if_neg (not_not.mpr hsame)]
  cases o <;> rfl

/-- The loop puts the blocks in front of the list, one after the other. -/
theorem freeLoop_spec (fuel : Nat) (hfuel : l.length < fuel) (hl : LinkedNodes h.conts o l) (hmb : mb ∉ l)
    (hsize : ∀ b ∈ mb :: l, (h b).size = p.mbSize) (hf : FreeList h p pl) (hdisj : ∀ b ∈ mb :: l, b ∉ pl)
    (hbound : l.length + 1 + pl.length < 2 ^ 32) :
    FreeList (freeLoop fuel h p mb o).1 (freeLoop fuel h p mb o).2 ((mb :: l).reverse ++ pl) ∧
      (∀ b ∈ mb :: l, ((freeLoop fuel h p mb o).1 b).cont = none) ∧
      Heap.Frame h (freeLoop fuel h p mb o).1 (mb :: l) ∧ (freeLoop fuel h p mb o).2.mbSize = p.mbSize := by
  induction l generalizing fuel h p mb o pl with
  | nil =>
    obtain rfl := LinkedNodes.nil_iff.mp hl
    obtain ⟨fuel, rfl⟩ := Nat.exists_eq_succ_of_ne_zero (Nat.ne_of_gt hfuel)
    rw [freeLoop_succ fuel (hsize mb List.mem_cons_self)]
    obtain ⟨hput, hcont, hframe, hsame⟩ := put_spec hf (hdisj mb List.mem_cons_self) (by simpa using hbound)
    exact ⟨hput, by simpa using hcont, hframe, hsame⟩
  | cons x l ih =>
    obtain ⟨rfl, hl'⟩ := hl
    obtain ⟨fuel, rfl⟩ := Nat.exists_eq_succ_of_ne_zero (Nat.ne_of_gt (Nat.lt_of_le_of_lt (Nat.zero_le _) hfuel))
    rw [freeLoop_succ fuel (hsize mb List.mem_cons_self)]
    dsimp only
    simp only [List.length_cons] at hfuel hbound
    obtain ⟨hput, hcont, hframe, hsame⟩ := put_spec hf (hdisj mb List.mem_cons_self) (by omega)
    generalize put h p mb = r at hput hcont hframe hsame ⊢
    have hchain : LinkedNodes h.conts (some x) (x :: l) := ⟨rfl, hl'⟩
    have hx : x ∉ l := (List.nodup_cons.mp hchain.nodup).1
    have hne : ∀ b ∈ x :: l, b ∉ [mb] := fun b hb hmem => hmb (List.mem_singleton.mp hmem ▸ hb)
    have hrest : LinkedNodes r.1.conts (r.1 x).cont l := by
      rw [hframe.other x (hne x List.mem_cons_self)]
      exact hframe.chain_conts hl' fun b hb => hne b (List.mem_cons_of_mem _ hb)
    have hsizes : ∀ b ∈ x :: l, (r.1 b).size = r.2.mbSize := by
      intro b hb
      rw [(hframe.fixed b).1, hsame]
      exact hsize b (List.mem_cons_of_mem _ hb)
    have hdisj' : ∀ b ∈ x :: l, b ∉ mb :: pl := by
      intro b hb hmem
      rcases List.mem_cons.mp hmem with rfl | hmem
      · exact hmb hb
      · exact hdisj b (List.mem_cons_of_mem _ hb) hmem
    obtain ⟨hfree, hconts, hframe', hsame'⟩ := ih fuel (by omega) hrest hx hsizes hput hdisj'
      (by simp only [List.length_cons]; omega)
    refine ⟨?_, fun b hb => ?_, ?_, hsame'.trans hsame⟩
    · rw [List.reverse_cons, List.append_assoc]
      exact hfree
    · rcases List.mem_cons.mp hb with rfl | hb
      · rw [hframe'.other b hmb]
        exact hcont
      · exact hconts b hb
    · exact (hframe.mono (by simp)).trans (hframe'.mono (List.subset_cons_self _ _)) (List.Subset.refl _)

/-- A batch that is linked by `cont` is put in front of the list. -/
theorem freeMb_spec (fuel : Nat) (hl : LinkedNodes h.conts (some mb) l) (hfuel : l.length ≤ fuel)
    (hsize : ∀ b ∈ l, (h b).size = p.mbSize) (hf : FreeList h p pl) (hdisj : ∀ b ∈ l, b ∉ pl)
    (hbound : l.length + pl.length < 2 ^ 32) :
    FreeList (p.freeMb fuel h mb).1 (p.freeMb fuel h mb).2 (l.reverse ++ pl) ∧
      (∀ b ∈ l, ((p.freeMb fuel h mb).1 b).cont = none) ∧ Heap.Frame h (p.freeMb fuel h mb).1 l ∧
      (p.freeMb fuel h mb).2.mbSize = p.mbSize := by
  have hnodup := hl.nodup
  obtain ⟨l, rfl, hl'⟩ := hl.of_some
  exact freeLoop_spec fuel hfuel hl' (List.nodup_cons.mp hnodup).1 hsize hf hdisj hbound

end MbBuffer

/-! ## The batch by its classes -/

/-- The first loop of `CSVS_Mb_Buffer_Manager::free_mb`: the blocks are put in front of the list of their
class. -/
theorem splitLoop_spec (fuel : Nat) {h : Heap} (mbFreeBuff : MbClass → Option Nat) {o : Option Nat}
    {l : List Nat} (lists : MbClass → List Nat) (hfuel : l.length < fuel) (hl : LinkedNodes h.conts o l)
    (hlists : ∀ c, LinkedNodes h.conts (mbFreeBuff c) (lists c)) (hdisj : ∀ c, ∀ b ∈ lists c, b ∉ l) :
    (∀ c, LinkedNodes (BufferManager.splitLoop fuel h mbFreeBuff o).1.conts
        ((BufferManager.splitLoop fuel h mbFreeBuff o).2 c)
        ((l.filter fun b => (h b).info = c).reverse ++ lists c)) ∧
      Heap.Frame h (BufferManager.splitLoop fuel h mbFreeBuff o).1 l := by
  induction l generalizing fuel h mbFreeBuff o lists with
  | nil =>
    obtain rfl := LinkedNodes.nil_iff.mp hl
    obtain ⟨fuel, rfl⟩ := Nat.exists_eq_succ_of_ne_zero (Nat.ne_of_gt hfuel)
    exact ⟨hlists, .refl _ _⟩
  | cons mb l ih =>
    have hnodup := hl.nodup
    obtain ⟨rfl, hl'⟩ := hl
    obtain ⟨fuel, rfl⟩ := Nat.exists_eq_succ_of_ne_zero (Nat.ne_of_gt (Nat.lt_of_le_of_lt (Nat.zero_le _) hfuel))
    obtain ⟨hmb, -⟩ := List.nodup_cons.mp hnodup
    unfold BufferManager.splitLoop
    dsimp only
    -- the block goes to the list of its class
    have hframe : Heap.Frame h (h.setCont mb (mbFreeBuff (h mb).info)) [mb] := Heap.frame_setCont (by simp)
    have hcont : (h.setCont mb (mbFreeBuff (h mb).info) mb).cont = mbFreeBuff (h mb).info :=
      Heap.cont_setCont_self
    generalize h.setCont mb (mbFreeBuff (h mb).info) = h₁ at hframe hcont ⊢
    have hout : ∀ b ∈ l, b ∉ [mb] := fun b hb hmem => hmb (List.mem_singleton.mp hmem ▸ hb)
    have houtLists : ∀ c, ∀ b ∈ lists c, b ∉ [mb] := fun c b hb hmem =>
      hdisj c b hb (List.mem_singleton.mp hmem ▸ List.mem_cons_self)
    obtain ⟨hchains, hframe'⟩ := ih fuel (h := h₁)
      (Function.update mbFreeBuff (h mb).info (some mb)) (o := (h mb).cont)
      (Function.update lists (h mb).info (mb :: lists (h mb).info))
      (Nat.lt_of_succ_lt_succ hfuel) (hframe.chain_conts hl' hout) (fun c => by
        by_cases hc : c = (h mb).info
        · rw [hc, Function.update_self, Function.update_self]
          refine ⟨rfl, ?_⟩
          rw [show h₁.conts mb = _ from hcont]
          exact hframe.chain_conts (hlists _) (houtLists _)
        · rw [Function.update_of_ne hc, Function.update_of_ne hc]
          exact hframe.chain_conts (hlists c) (houtLists c))
      (fun c b hb hmem => by
        by_cases hc : c = (h mb).info
        · rw [hc, Function.update_self] at hb
          rcases List.mem_cons.mp hb with rfl | hb
          · exact hmb hmem
          · exact hdisj _ b hb (List.mem_cons_of_mem _ hmem)
        · rw [Function.update_of_ne hc] at hb
          exact hdisj c b hb (List.mem_cons_of_mem _ hmem))
    refine ⟨fun c => ?_, ?_⟩
    · have hinfo : (l.filter fun b => (h₁ b).info = c) = l.filter fun b => (h b).info = c :=
        List.filter_congr fun b _ => by rw [(hframe.fixed b).2.1]
      have hc := hchains c
      rw [hinfo] at hc
      by_cases hclass : (h mb).info = c
      · rw [List.filter_cons_of_pos (by simpa using hclass), List.reverse_cons, List.append_assoc]
        rw [← hclass, Function.update_self] at hc
        rw [← hclass]
        exact hc
      · rw [List.filter_cons_of_neg (by simpa using hclass)]
        rwa [Function.update_of_ne (Ne.symm hclass)] at hc
    · exact (hframe.mono (by simp)).trans (hframe'.mono (List.subset_cons_self _ _)) (List.Subset.refl _)

end AllCamera
