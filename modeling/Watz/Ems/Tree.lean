import Watz.Ems.Fields

namespace Watz.Ems

open Base.Layout Base.Words
open Base.LinkedTree

-- Only these bytes of the memory change.
structure Within (bytes : Set Nat) (h h' : Heap) : Prop where
  same : h' = { h with mem := h'.mem }
  outside : ∀ i ∉ bytes, h'.mem i = h.mem i

namespace Within

variable {bytes bytes' : Set Nat} {h h' h'' : Heap}

theorem refl (bytes : Set Nat) (h : Heap) : Within bytes h h := ⟨rfl, fun _ _ => rfl⟩

theorem trans (hw : Within bytes h h') (hw' : Within bytes h' h'') : Within bytes h h'' := by
  constructor
  · rw [hw'.same, hw.same]
  · exact fun i hi => (hw'.outside i hi).trans (hw.outside i hi)

theorem mono (hw : Within bytes h h') (hsub : bytes ⊆ bytes') : Within bytes' h h' :=
  ⟨hw.same, fun i hi => hw.outside i fun hmem => hi (hsub hmem)⟩

theorem root (hw : Within bytes h h') : h'.kfcTreeRoot = h.kfcTreeRoot := by
  rw [hw.same]

theorem inHeap (hw : Within bytes h h') (a : Nat) : h'.hmuIsInHeap a = h.hmuIsInHeap a := by
  rw [hw.same]
  rfl

theorem store {h : Heap} {a width n : Nat} (hsub : ∀ i, a ≤ i → i < a + width → i ∈ bytes) :
    Within bytes h { h with mem := store h.mem a width n } := by
  refine ⟨rfl, fun i hi => store_outside ?_⟩
  by_contra hin
  exact hi (hsub i (by omega) (by omega))

end Within

section Links

variable {h : Heap} {nodes : List Nat} {b p : Nat}

theorem within_setLeft (hb : b ∈ nodes) : Within (linkBytes nodes) h (h.setLeft b p) :=
  Within.store fun _ _ _ => ⟨b, hb, by omega, by omega⟩

theorem within_setRight (hb : b ∈ nodes) : Within (linkBytes nodes) h (h.setRight b p) :=
  Within.store fun _ _ _ => ⟨b, hb, by omega, by omega⟩

theorem within_setParent (hb : b ∈ nodes) : Within (linkBytes nodes) h (h.setParent b p) :=
  Within.store fun _ _ _ => ⟨b, hb, by omega, by omega⟩

theorem within_setSlot (hb : b ∈ nodes) (side : Side) :
    Within (linkBytes nodes) h (h.setSlot b side p) := by
  cases side with
  | left => exact within_setLeft hb
  | right => exact within_setRight hb

theorem within_clearLinks (hb : b ∈ nodes) : Within (linkBytes nodes) h (h.clearLinks b) :=
  ((within_setParent hb).trans (within_setRight hb)).trans (within_setLeft hb)

end Links

-- The tree hangs to the right of the root node.
def TreeAt (h : Heap) (t : KeyTree Nat Nat) : Prop :=
  t.Linked h.links h.kfcTreeRoot (h.right h.kfcTreeRoot)

-- Where its nodes lie.
structure Sited (h : Heap) (t : KeyTree Nat Nat) : Prop where
  spaced : Spaced (h.kfcTreeRoot :: t.addresses)
  inHeap : ∀ a ∈ t.addresses, h.hmuIsInHeap a = true
  pos : ∀ a ∈ h.kfcTreeRoot :: t.addresses, a ≠ 0
  small : ∀ a ∈ h.kfcTreeRoot :: t.addresses, a < 2 ^ 64

section Remove

variable {h : Heap} {path : TreePath Nat Nat} {l r : KeyTree Nat Nat} {p s : Nat}

theorem Sited.nodup {t : KeyTree Nat Nat} (hsited : Sited h t) :
    (h.kfcTreeRoot :: t.addresses).Nodup :=
  hsited.spaced.nodup

theorem mem_plug {a : Nat} {t : KeyTree Nat Nat} :
    a ∈ (path.plug t).addresses ↔ a ∈ t.addresses ∨ a ∈ path.addresses := by
  rw [(path.addresses_plug t).mem_iff, List.mem_append]

theorem slotOf_right (hr : h.right (h.parent p) = p) : slotOf h p = some .right := by
  rw [slotOf, if_pos hr.symm]

theorem slotOf_left (hr : p ≠ h.right (h.parent p)) (hl : h.left (h.parent p) = p) :
    slotOf h p = some .left := by
  rw [slotOf, if_neg hr, if_pos hl.symm]

theorem slotOf_eq (htree : TreeAt h (path.plug (.node l p s r)))
    (hnodup : (h.kfcTreeRoot :: (path.plug (.node l p s r)).addresses).Nodup) :
    h.parent p = path.parent h.kfcTreeRoot ∧ slotOf h p = some path.side := by
  obtain ⟨hpath, hhole, hne, hparent, _⟩ := (TreePath.linked_plug _ _).mp htree
  replace hparent : h.parent p = path.parent h.kfcTreeRoot := hparent
  refine ⟨hparent, ?_⟩
  cases path with
  | top =>
      apply slotOf_right
      rw [hparent]
      exact hhole
  | left outer a k r' =>
      obtain ⟨_, _, _, _, hr', _⟩ := hpath
      replace hparent : h.parent p = a := hparent
      apply slotOf_left
      · rw [hparent]
        intro heq
        have hmem : h.right a ∈ r'.addresses := hr'.mem_addresses (by
          rw [heq] at hne
          exact hne)
        have hplug := (List.nodup_cons.mp hnodup).2
        rw [(TreePath.addresses_plug _ _).nodup_iff, List.nodup_append] at hplug
        refine hplug.2.2 p ?_ (h.right a) ?_ heq
        · simp
        · simp [TreePath.addresses, hmem]
      · rw [hparent]
        exact hhole
  | right outer l' a k =>
      apply slotOf_right
      rw [hparent]
      exact hhole

-- What the checks at the start of `remove_tree_node` look at.
theorem not_suspect (hsited : Sited h (path.plug (.node l p s r))) :
    ¬(path.parent h.kfcTreeRoot = 0 ∨ p = h.kfcTreeRoot ∨ (!h.hmuIsInHeap p) = true ∨
      (path.parent h.kfcTreeRoot ≠ h.kfcTreeRoot ∧
        (!h.hmuIsInHeap (path.parent h.kfcTreeRoot)) = true)) := by
  have hp : p ∈ (path.plug (.node l p s r)).addresses := mem_plug.mpr (.inl (by simp))
  have hroot := (List.nodup_cons.mp hsited.nodup).1
  rintro (hzero | heq | hout | ⟨hne, hout⟩)
  · refine hsited.pos _ ?_ hzero
    rcases List.mem_cons.mp (path.parent_mem h.kfcTreeRoot) with heq | hmem
    · rw [heq]
      exact List.mem_cons_self
    · exact List.mem_cons_of_mem _ (mem_plug.mpr (.inr hmem))
  · exact hroot (heq ▸ hp)
  · simp [hsited.inHeap p hp] at hout
  · rcases List.mem_cons.mp (path.parent_mem h.kfcTreeRoot) with heq | hmem
    · exact hne heq
    · simp [hsited.inHeap _ (mem_plug.mpr (.inr hmem))] at hout

-- The heap after the child `c` has moved up into the place of `p`.
def lifted (h : Heap) (path : TreePath Nat Nat) (p c : Nat) : Heap :=
  if c = 0 then (h.setSlot (path.parent h.kfcTreeRoot) path.side c).clearLinks p
  else
    ((h.setSlot (path.parent h.kfcTreeRoot) path.side c).setParent c
      (path.parent h.kfcTreeRoot)).clearLinks p

theorem treeAt_lifted {child : KeyTree Nat Nat} {nodes : List Nat} (c : Nat)
    (hpath : path.Linked h.links h.kfcTreeRoot) (hchild : child.Linked h.links p c)
    (hspaced : Spaced nodes)
    (hnodes : h.kfcTreeRoot :: p :: (child.addresses ++ path.addresses) ⊆ nodes)
    (hnodup : (h.kfcTreeRoot :: p :: (child.addresses ++ path.addresses)).Nodup) (hc : c < 2 ^ 64)
    (hparent : path.parent h.kfcTreeRoot < 2 ^ 64) :
    TreeAt (lifted h path p c) (path.plug child) ∧
      Within (linkBytes nodes) h (lifted h path p c) := by
  have hp : p ∈ nodes := hnodes (List.mem_cons_of_mem _ List.mem_cons_self)
  have hsub : h.kfcTreeRoot :: (child.addresses ++ path.addresses) ⊆ nodes := by
    intro a ha
    apply hnodes
    rcases List.mem_cons.mp ha with rfl | ha
    · exact List.mem_cons_self
    · exact List.mem_cons_of_mem _ (List.mem_cons_of_mem _ ha)
  have hslot : path.parent h.kfcTreeRoot ∈ nodes := by
    apply hsub
    rcases List.mem_cons.mp (path.parent_mem h.kfcTreeRoot) with heq | hmem
    · rw [heq]
      exact List.mem_cons_self
    · exact List.mem_cons_of_mem _ (List.mem_append_right _ hmem)
  rw [List.nodup_cons, List.nodup_cons] at hnodup
  obtain ⟨hroot, hnot, hrest⟩ := hnodup
  have hother : p ∉ h.kfcTreeRoot :: (child.addresses ++ path.addresses) := by
    intro hmem
    rcases List.mem_cons.mp hmem with rfl | hmem
    · exact hroot List.mem_cons_self
    · exact hnot hmem
  have hmoved := (Realises.refl h nodes).setSlot hspaced hslot hc path.side
  have hwithin : Within (linkBytes nodes) h
      (h.setSlot (path.parent h.kfcTreeRoot) path.side c) := within_setSlot hslot path.side
  -- The links as they are afterwards, and that nothing else changed.
  have hlifted : Realises (lifted h path p c) ((h.links.setSlot (path.parent h.kfcTreeRoot)
      path.side c).adopt c (path.parent h.kfcTreeRoot))
        (h.kfcTreeRoot :: (child.addresses ++ path.addresses)) ∧
      Within (linkBytes nodes) h (lifted h path p c) := by
    by_cases hzero : c = 0
    · rw [lifted, if_pos hzero, Links.adopt, if_pos hzero]
      exact ⟨hmoved.clearLinks hspaced hp hsub hother, hwithin.trans (within_clearLinks hp)⟩
    · have hmem : c ∈ nodes :=
        hsub (List.mem_cons_of_mem _ (List.mem_append_left _ (hchild.mem_addresses hzero)))
      rw [lifted, if_neg hzero, Links.adopt, if_neg hzero]
      exact ⟨(hmoved.setParent hspaced hmem hparent).clearLinks hspaced hp hsub hother,
        (hwithin.trans (within_setParent hmem)).trans (within_clearLinks hp)⟩
  refine ⟨?_, hlifted.2⟩
  rw [TreeAt, hlifted.2.root]
  exact linked_lift hpath hchild
    (List.nodup_cons.mpr ⟨fun hmem => hroot (List.mem_cons_of_mem _ hmem), hrest⟩) hlifted.1

theorem Linked.eq_leaf {t : KeyTree Nat Nat} {f : Links Nat Nat} {parent : Nat}
    (h : t.Linked f parent 0) : t = .leaf := by
  cases t with
  | leaf => rfl
  | node l a k r => exact absurd h.1.symm h.2.1

theorem parent_mem_plug {t : KeyTree Nat Nat} :
    path.parent h.kfcTreeRoot ∈ h.kfcTreeRoot :: (path.plug t).addresses := by
  rcases List.mem_cons.mp (path.parent_mem h.kfcTreeRoot) with heq | hmem
  · rw [heq]
    exact List.mem_cons_self
  · exact List.mem_cons_of_mem _ (mem_plug.mpr (.inr hmem))

-- The node itself does not notice that its parent points elsewhere.
theorem moved_fields (hsited : Sited h (path.plug (.node l p s r))) (c : Nat) (hc : c < 2 ^ 64) :
    (h.setSlot (path.parent h.kfcTreeRoot) path.side c).left p = h.left p ∧
      (h.setSlot (path.parent h.kfcTreeRoot) path.side c).right p = h.right p ∧
      (h.setSlot (path.parent h.kfcTreeRoot) path.side c).parent p = h.parent p := by
  have hp : p ∈ (path.plug (.node l p s r)).addresses := mem_plug.mpr (.inl (by simp))
  have hne : p ≠ path.parent h.kfcTreeRoot := by
    intro heq
    have hnodup := hsited.nodup
    rw [((path.addresses_plug _).cons _).nodup_iff, List.nodup_cons, List.nodup_append] at hnodup
    rcases List.mem_cons.mp (path.parent_mem h.kfcTreeRoot) with hroot | hmem
    · exact hnodup.1 (by rw [← hroot, ← heq]; simp)
    · exact hnodup.2.2.2 p (by simp) _ hmem heq
  have hmoved := (Realises.refl h _).setSlot hsited.spaced parent_mem_plug hc path.side p
    (List.mem_cons_of_mem _ hp)
  obtain ⟨hl, hr, hpar, _⟩ := (Links.agree_setSlot hne).trans hmoved
  exact ⟨hl, hr, hpar⟩

theorem removeTreeNode_lift (fuel : Nat) (htree : TreeAt h (path.plug (.node l p s r)))
    (hsited : Sited h (path.plug (.node l p s r))) (hone : l = .leaf ∨ r = .leaf) :
    ∃ h', removeTreeNode (fuel + 1) h p = some (true, h') ∧ TreeAt h' (path.plug (l.join r)) ∧
      Within (linkBytes (h.kfcTreeRoot :: (path.plug (.node l p s r)).addresses)) h h' := by
  obtain ⟨hparent, hslot⟩ := slotOf_eq htree hsited.nodup
  obtain ⟨hpath, _, _, _, _, hl, hr⟩ := (TreePath.linked_plug _ _).mp htree
  have hpar : path.parent h.kfcTreeRoot < 2 ^ 64 := hsited.small _ parent_mem_plug
  have hnodup := hsited.nodup
  rw [((path.addresses_plug _).cons _).nodup_iff, KeyTree.addresses_node] at hnodup
  have hinHeap : ∀ c, (h.setSlot (path.parent h.kfcTreeRoot) path.side c).hmuIsInHeap =
      h.hmuIsInHeap := by
    intro c
    cases path.side <;> rfl
  have hsub : ∀ child : KeyTree Nat Nat, child = l ∨ child = r →
      h.kfcTreeRoot :: p :: (child.addresses ++ path.addresses) ⊆
        h.kfcTreeRoot :: (path.plug (.node l p s r)).addresses := by
    intro child hchild a ha
    rw [((path.addresses_plug _).cons _).mem_iff]
    simp only [KeyTree.addresses_node, List.mem_cons, List.mem_append] at ha ⊢
    rcases hchild with rfl | rfl <;> tauto
  have hin : ∀ c, c ∈ l.addresses ∨ c ∈ r.addresses → h.hmuIsInHeap c = true := by
    intro c hc
    apply hsited.inHeap
    simp only [mem_plug, KeyTree.addresses_node, List.mem_append, List.mem_cons]
    tauto
  rw [removeTreeNode]
  simp only [hparent, if_neg (not_suspect hsited), hslot]
  by_cases hzero : h.left p = 0
  · have hleaf : l = .leaf := by
      rw [show h.links.left p = 0 from hzero] at hl
      exact Linked.eq_leaf hl
    subst hleaf
    have hlift := treeAt_lifted (h.right p) hpath hr hsited.spaced (hsub r (.inr rfl))
      (by simpa using hnodup) (load_lt _ _ _) hpar
    obtain ⟨_, hright', hparent'⟩ := moved_fields hsited (h.right p) (load_lt _ _ _)
    simp only [if_pos hzero, hright', hparent', hparent, hinHeap]
    refine ⟨lifted h path p (h.right p), ?_, hlift⟩
    by_cases hchild : h.right p = 0
    · rw [if_neg (not_not.mpr hchild), lifted, if_pos hchild]
    · have hok : h.hmuIsInHeap (h.right p) = true := hin _ (.inr (hr.mem_addresses hchild))
      simp [hchild, hok, lifted]
  · have hleaf : r = .leaf := by
      rcases hone with rfl | hleaf
      · exact absurd hl hzero
      · exact hleaf
    subst hleaf
    have hlift := treeAt_lifted (h.left p) hpath hl hsited.spaced (hsub l (.inl rfl))
      (by
        rw [KeyTree.addresses_leaf, List.append_assoc, List.cons_append, List.nil_append] at hnodup
        exact (List.perm_middle.cons _).nodup_iff.mp hnodup) (load_lt _ _ _) hpar
    obtain ⟨hleft', _, hparent'⟩ := moved_fields hsited (h.left p) (load_lt _ _ _)
    have hright : h.right p = 0 := hr
    simp only [if_neg hzero, if_pos hright, hleft', hparent', hparent, hinHeap]
    refine ⟨lifted h path p (h.left p), ?_, ?_⟩
    · have hok : h.hmuIsInHeap (h.left p) = true := hin _ (.inl (hl.mem_addresses hzero))
      simp [hzero, hok, lifted]
    · rw [KeyTree.join_leaf]
      exact hlift

-- The walk to the right ends at the last entry.
theorem rightmost_eq {t t' : KeyTree Nat Nat} {parent a q j fuel : Nat}
    (hlinked : t.Linked h.links parent a) (hsplit : t.splitMax = some (t', q, j))
    (hin : ∀ b ∈ t.addresses, h.hmuIsInHeap b = true) (hfuel : t.entries.length ≤ fuel) :
    rightmost h fuel a = some (true, q) := by
  induction t generalizing parent a t' fuel with
  | leaf => cases hsplit
  | node l b k r _ ihr =>
      obtain ⟨rfl, _, _, _, _, hr⟩ := hlinked
      replace hr : r.Linked h.links a (h.right a) := hr
      obtain ⟨fuel, rfl⟩ : ∃ n, fuel = n + 1 := ⟨fuel - 1, by simp at hfuel; omega⟩
      rw [rightmost]
      rw [KeyTree.splitMax] at hsplit
      cases hsplit' : r.splitMax with
      | none =>
          rw [hsplit'] at hsplit
          obtain ⟨rfl, rfl, rfl⟩ := hsplit
          rw [KeyTree.splitMax_eq_none hsplit'] at hr
          exact if_pos hr
      | some split =>
          obtain ⟨r', c, i⟩ := split
          rw [hsplit'] at hsplit
          obtain ⟨rfl, rfl, rfl⟩ := hsplit
          have hne : h.right a ≠ 0 := by
            intro hzero
            rw [hzero] at hr
            rw [Linked.eq_leaf hr] at hsplit'
            cases hsplit'
          have hok : h.hmuIsInHeap (h.right a) = true := by
            apply hin
            simp [hr.mem_addresses hne]
          rw [if_neg hne, hok]
          refine ihr hr hsplit' (fun b hb => hin b (by simp [hb])) ?_
          simp at hfuel
          omega

-- The sizes are not among the bytes of the pointers.
theorem size_of_within {h' : Heap} {nodes : List Nat} {a : Nat}
    (hw : Within (linkBytes nodes) h h') (hspaced : Spaced nodes) (ha : a ∈ nodes) :
    h'.size a = h.size a := by
  apply load_congr
  intro i hlow hhigh
  apply hw.outside
  rintro ⟨b, hb, hi, hi'⟩
  by_cases hab : a = b
  · omega
  · rcases hspaced.apart ha hb hab with hapart | hapart <;> omega

-- A child of the moved node gets it as its parent.
theorem realises_adopt {f : Links Nat Nat} {nodes : List Nat} {c q : Nat}
    (hf : Realises h f nodes) (hspaced : Spaced nodes) (hc : c ≠ 0 → c ∈ nodes)
    (hq : q < 2 ^ 64) :
    Realises (if c ≠ 0 then h.setParent c q else h) (f.adopt c q) nodes ∧
      Within (linkBytes nodes) h (if c ≠ 0 then h.setParent c q else h) := by
  by_cases hzero : c = 0
  · rw [Links.adopt, if_pos hzero, if_neg (not_not.mpr hzero)]
    exact ⟨hf, .refl _ h⟩
  · rw [Links.adopt, if_neg hzero, if_pos hzero]
    exact ⟨hf.setParent hspaced (hc hzero) hq, within_setParent (hc hzero)⟩

-- The stores of `replaceNode`, one after the other, with the links that they leave.
theorem replaceNode_eq {f : Links Nat Nat} {nodes : List Nat} {q parent : Nat} (side : Side)
    (rest : List Nat)
    (hf : Realises h f nodes) (hspaced : Spaced nodes) (hp : p ∈ nodes) (hq : q ∈ nodes)
    (hparent : parent ∈ nodes) (hne : p ≠ q) (hne' : p ≠ parent) (hsmall : q < 2 ^ 64)
    (hleft : f.left p ≠ 0 → f.left p ∈ nodes ∧ h.hmuIsInHeap (f.left p) = true)
    (hright : f.right p ≠ 0 → f.right p ∈ nodes ∧ h.hmuIsInHeap (f.right p) = true)
    (hrest : rest ⊆ nodes) (hnot : p ∉ rest) :
    ∃ h', replaceNode h p q parent side = (true, h') ∧
      Realises h' (f.replace p q parent side) rest ∧ Within (linkBytes nodes) h h' := by
  have hslot : f.Agree (f.setSlot parent side q) p := Links.agree_setSlot hne'
  obtain ⟨hl0, hr0, hp0, _⟩ := hslot
  simp only [replaceNode, Links.replace]
  -- the pointer of the parent
  have hw1 : Within (linkBytes nodes) h (h.setSlot parent side q) := within_setSlot hparent side
  have hf1 := hf.setSlot hspaced hparent hsmall side
  generalize h.setSlot parent side q = h1 at hw1 hf1 ⊢
  generalize f.setSlot parent side q = f1 at hl0 hr0 hp0 hf1 ⊢
  obtain ⟨-, -, hp1, -⟩ := hf1 p hp
  replace hp1 : h1.parent p = f1.parent p := hp1
  -- the pointers of the node
  have hw2 : Within (linkBytes nodes) h1 (h1.setParent q (h1.parent p)) := within_setParent hq
  have hf2 := hf1.setParent hspaced hq (p := h1.parent p) (load_lt _ _ _)
  rw [hp1] at hw2 hf2 ⊢
  obtain ⟨hl2, hr2, -, -⟩ := Links.agree_setParent (f := f1) (c := f1.parent p) hne
  generalize h1.setParent q (f1.parent p) = h2 at hw2 hf2 ⊢
  generalize f1.setParent q (f1.parent p) = f2 at hl2 hr2 hf2 ⊢
  have hp2 : h2.left p = f2.left p := (hf2 p hp).1
  have hw3 : Within (linkBytes nodes) h2 (h2.setLeft q (h2.left p)) := within_setLeft hq
  have hf3 := hf2.setLeft hspaced hq (p := h2.left p) (load_lt _ _ _)
  rw [hp2] at hw3 hf3 ⊢
  obtain ⟨-, hr3, -, -⟩ := Links.agree_setLeft (f := f2) (c := f2.left p) hne
  have hlq := Links.left_setLeft f2 q (f2.left p)
  generalize h2.setLeft q (f2.left p) = h3 at hw3 hf3 ⊢
  generalize f2.setLeft q (f2.left p) = f3 at hr3 hlq hf3 ⊢
  have hp3 : h3.right p = f3.right p := (hf3 p hp).2.1
  have hw4 : Within (linkBytes nodes) h3 (h3.setRight q (h3.right p)) := within_setRight hq
  have hf4 := hf3.setRight hspaced hq (p := h3.right p) (load_lt _ _ _)
  rw [hp3] at hw4 hf4 ⊢
  have hrq := Links.right_setRight f3 q (f3.right p)
  have hlq' : (f3.setRight q (f3.right p)).left q = f3.left q := rfl
  generalize h3.setRight q (f3.right p) = h4 at hw4 hf4 ⊢
  generalize f3.setRight q (f3.right p) = f4 at hrq hlq' hf4 ⊢
  -- the children
  have hw := hw1.trans (hw2.trans (hw3.trans hw4))
  have hl4 : f4.left q = f.left p := by rw [hlq', hlq, hl2, hl0]
  have hr4 : f4.right q = f.right p := by rw [hrq, hr3, hr2, hr0]
  have hq4 : h4.left q = f4.left q := (hf4 q hq).1
  rw [hq4, hl4]
  rw [if_neg (by
    rintro ⟨hzero, hout⟩
    rw [hw.inHeap, (hleft hzero).2] at hout
    cases hout)]
  obtain ⟨hf5, hw5⟩ := realises_adopt hf4 hspaced (c := f.left p) (fun hzero => (hleft hzero).1)
    hsmall
  generalize (if f.left p ≠ 0 then h4.setParent (f.left p) q else h4) = h5 at hf5 hw5 ⊢
  have hr5 : (f4.adopt (f.left p) q).right q = f.right p := by rw [Links.right_adopt, hr4]
  have hq5 : h5.right q = (f4.adopt (f.left p) q).right q := (hf5 q hq).2.1
  rw [hq5, hr5]
  rw [if_neg (by
    rintro ⟨hzero, hout⟩
    rw [(hw.trans hw5).inHeap, (hright hzero).2] at hout
    cases hout)]
  obtain ⟨hf6, hw6⟩ := realises_adopt hf5 hspaced (c := f.right p) (fun hzero => (hright hzero).1)
    hsmall
  refine ⟨_, rfl, hf6.clearLinks hspaced hp hrest hnot, ?_⟩
  exact hw.trans (hw5.trans (hw6.trans (within_clearLinks hp)))

theorem mem_heap_of_linked {t : KeyTree Nat Nat} {f : Links Nat Nat} {parent a : Nat}
    {whole : KeyTree Nat Nat} (hsited : Sited h whole) (hlinked : t.Linked f parent a)
    (hsub : t.addresses ⊆ whole.addresses) (hne : a ≠ 0) :
    a ∈ h.kfcTreeRoot :: whole.addresses ∧ h.hmuIsInHeap a = true := by
  have hmem := hsub (hlinked.mem_addresses hne)
  exact ⟨List.mem_cons_of_mem _ hmem, hsited.inHeap a hmem⟩

-- The nodes, with the last one of the left subtree by name.
theorem perm_splitMax (root p s : Nat) (r : KeyTree Nat Nat) (path : TreePath Nat Nat)
    {q j : Nat} {l' : KeyTree Nat Nat}
    (hsplit : l.splitMax = some (l', q, j)) :
    (root :: (path.plug (.node l p s r)).addresses).Perm
      (root :: p :: q :: (l'.addresses ++ r.addresses ++ path.addresses)) := by
  have hl : l.addresses = l'.addresses ++ [q] := by
    simp [KeyTree.addresses, KeyTree.entries_splitMax hsplit]
  apply ((path.addresses_plug _).cons _).trans
  rw [KeyTree.addresses_node, hl]
  simp only [List.perm_iff_count, List.count_cons, List.count_append, List.count_nil]
  intro a
  omega

-- A node with two children: the last node of the left subtree is taken out and put in its place.
theorem removeTreeNode_replace {fuel q j : Nat} {l' : KeyTree Nat Nat}
    (htree : TreeAt h (path.plug (.node l p s r))) (hsited : Sited h (path.plug (.node l p s r)))
    (hsplit : l.splitMax = some (l', q, j)) (hr : r ≠ .leaf)
    (hfuel : (path.plug (.node l p s r)).entries.length ≤ fuel) :
    ∃ h', removeTreeNode fuel h p = some (true, h') ∧ TreeAt h' (path.plug (.node l' q j r)) ∧
      Within (linkBytes (h.kfcTreeRoot :: (path.plug (.node l p s r)).addresses)) h h' := by
  obtain ⟨hparent, hslot⟩ := slotOf_eq htree hsited.nodup
  obtain ⟨-, -, -, -, -, hl0, hr0⟩ := (TreePath.linked_plug _ _).mp htree
  replace hl0 : l.Linked h.links p (h.left p) := hl0
  replace hr0 : r.Linked h.links p (h.right p) := hr0
  have hlen : l.entries.length + 1 + r.entries.length ≤ fuel := by
    simp only [TreePath.entries_plug, KeyTree.entries_node, List.length_append,
      List.length_cons] at hfuel
    omega
  have hlsplit : l.addresses = l'.addresses ++ [q] := by
    simp [KeyTree.addresses, KeyTree.entries_splitMax hsplit]
  have hlpos : l.entries.length ≠ 0 := by simp [KeyTree.entries_splitMax hsplit]
  obtain ⟨fuel, rfl⟩ : ∃ n, fuel = n + 1 + 1 := ⟨fuel - 2, by omega⟩
  -- where the nodes are
  have hperm := perm_splitMax h.kfcTreeRoot p s r path hsplit
  have hnodes : ∀ a, a ∈ h.kfcTreeRoot :: p :: q :: (l'.addresses ++ r.addresses ++
      path.addresses) → a ∈ h.kfcTreeRoot :: (path.plug (.node l p s r)).addresses :=
    fun a ha => hperm.mem_iff.mpr ha
  have hsubl : l.addresses ⊆ (path.plug (.node l p s r)).addresses := fun a ha =>
    mem_plug.mpr (.inl (by simp [ha]))
  have hsubr : r.addresses ⊆ (path.plug (.node l p s r)).addresses := fun a ha =>
    mem_plug.mpr (.inl (by simp [ha]))
  have hzl : h.left p ≠ 0 := by
    intro hzero
    rw [hzero] at hl0
    rw [Linked.eq_leaf hl0] at hsplit
    cases hsplit
  have hzr : h.right p ≠ 0 := by
    intro hzero
    rw [hzero] at hr0
    exact hr (Linked.eq_leaf hr0)
  have hinl := (mem_heap_of_linked hsited hl0 hsubl hzl).2
  -- the last node of the left subtree comes out
  obtain ⟨path', lq, hplug, hplug'⟩ := TreePath.exists_plug_max hsplit (.left path p s r)
  rw [TreePath.plug] at hplug hplug'
  rw [← hplug] at htree
  have hkey : h.size q = j := ((TreePath.linked_plug _ _).mp htree).2.2.2.2.1
  obtain ⟨h1, hrun, htree1, hw1⟩ := removeTreeNode_lift fuel htree
    (by rw [hplug]; exact hsited) (.inr rfl)
  rw [KeyTree.join_leaf, hplug'] at htree1
  rw [hplug] at hw1
  have hright := rightmost_eq hl0 hsplit (fun b hb => hsited.inHeap b (hsubl hb))
    (show l.entries.length ≤ fuel + 1 by omega)
  -- and goes into the place of `p`
  obtain ⟨-, -, -, -, -, hl1, hr1⟩ := (TreePath.linked_plug _ _).mp htree1
  have hnodup := hperm.nodup_iff.mp hsited.nodup
  have hne : p ≠ q ∧ p ≠ h.kfcTreeRoot ∧ p ∉ l'.addresses ++ r.addresses ++ path.addresses := by
    have hroot := List.nodup_cons.mp hnodup
    have hp := List.nodup_cons.mp hroot.2
    refine ⟨fun heq => hp.1 (heq ▸ List.mem_cons_self), fun heq => ?_, fun hmem => ?_⟩
    · exact hroot.1 (heq ▸ List.mem_cons_self)
    · exact hp.1 (List.mem_cons_of_mem _ hmem)
  have hq : q ∈ h.kfcTreeRoot :: (path.plug (.node l p s r)).addresses := hnodes q (by simp)
  obtain ⟨h2, hreplace, hf2, hw2⟩ := replaceNode_eq path.side
    (h.kfcTreeRoot :: q :: (l'.addresses ++ r.addresses ++ path.addresses))
    (Realises.refl h1 _) hsited.spaced (hnodes p (by simp)) hq (parent_mem_plug (h := h))
    hne.1 (by
      intro heq
      rcases List.mem_cons.mp (path.parent_mem h.kfcTreeRoot) with hroot | hmem
      · exact hne.2.1 (heq.trans hroot)
      · exact hne.2.2 (List.mem_append_right _ (heq ▸ hmem)))
    (hsited.small q hq)
    (fun hzero => by
      rw [hw1.inHeap]
      exact mem_heap_of_linked hsited hl1 (fun a ha => hsubl (by simp [hlsplit, ha])) hzero)
    (fun hzero => by
      rw [hw1.inHeap]
      exact mem_heap_of_linked hsited hr1 hsubr hzero)
    (fun a ha => hnodes a (by
      simp only [List.mem_cons] at ha ⊢
      tauto))
    (by
      simp only [List.mem_cons, not_or]
      exact ⟨hne.2.1, hne.1, hne.2.2⟩)
  refine ⟨h2, ?_, ?_, hw1.trans hw2⟩
  · rw [removeTreeNode]
    simp only [hparent, if_neg (not_suspect hsited), hslot, if_neg hzl, if_neg hzr, hinl, hright,
      hrun, hreplace]
    rfl
  · have hroot : h2.kfcTreeRoot = h.kfcTreeRoot := hw2.root.trans hw1.root
    have hkey1 : h1.links.key q = j := (size_of_within hw1 hsited.spaced hq).trans hkey
    rw [TreeAt, hroot, ← hkey1]
    rw [TreeAt, hw1.root] at htree1
    exact linked_replace htree1 hnodup (hsited.pos q hq) hf2

theorem removeTreeNode_eq {fuel : Nat} (htree : TreeAt h (path.plug (.node l p s r)))
    (hsited : Sited h (path.plug (.node l p s r)))
    (hfuel : (path.plug (.node l p s r)).entries.length ≤ fuel) :
    ∃ h', removeTreeNode fuel h p = some (true, h') ∧ TreeAt h' (path.plug (l.join r)) ∧
      Within (linkBytes (h.kfcTreeRoot :: (path.plug (.node l p s r)).addresses)) h h' := by
  have hpos : fuel ≠ 0 := by
    simp only [TreePath.entries_plug, KeyTree.entries_node, List.length_append,
      List.length_cons] at hfuel
    omega
  obtain ⟨n, rfl⟩ := Nat.exists_eq_succ_of_ne_zero hpos
  by_cases hone : l = .leaf ∨ r = .leaf
  · exact removeTreeNode_lift n htree hsited hone
  · obtain ⟨hl, hr⟩ := not_or.mp hone
    cases hsplit : l.splitMax with
    | none => exact absurd (KeyTree.splitMax_eq_none hsplit) hl
    | some split =>
        obtain ⟨l', q, j⟩ := split
        have hjoin : l.join r = .node l' q j r := by
          cases r with
          | leaf => exact absurd rfl hr
          | node rl c i rr => rw [KeyTree.join, hsplit]
        rw [hjoin]
        exact removeTreeNode_replace htree hsited hsplit hr hfuel

end Remove

section Insert

variable {h : Heap} {t l r : KeyTree Nat Nat} {q size : Nat}

-- The heap after a node has been put into the hole.
def linked (h : Heap) (path : TreePath Nat Nat) (q : Nat) : Heap :=
  (h.setSlot (path.parent h.kfcTreeRoot) path.side q).setParent q (path.parent h.kfcTreeRoot)

theorem linkLoop_node {a k fuel parent : Nat} (outer : TreePath Nat Nat)
    (hlinked : (KeyTree.node l a k r).Linked h.links parent a)
    (hin : ∀ b ∈ (KeyTree.node l a k r).addresses, h.hmuIsInHeap b = true)
    (hfuel : (KeyTree.node l a k r).entries.length ≤ fuel) :
    linkLoop h q size fuel a =
      some (true, linked h (TreePath.descend size outer (.node l a k r)) q) := by
  generalize ht : KeyTree.node l a k r = t at hlinked hin hfuel ⊢
  induction t generalizing l a k r fuel parent outer with
  | leaf => cases ht
  | node l a k r ihl ihr =>
      cases ht
      obtain ⟨-, -, -, hkey, hl, hr⟩ := hlinked
      replace hkey : h.size a = k := hkey
      replace hl : l.Linked h.links a (h.left a) := hl
      replace hr : r.Linked h.links a (h.right a) := hr
      obtain ⟨fuel, rfl⟩ : ∃ n, fuel = n + 1 := ⟨fuel - 1, by simp at hfuel; omega⟩
      simp only [KeyTree.entries_node, List.length_append, List.length_cons] at hfuel
      rw [linkLoop, hkey, TreePath.descend]
      by_cases hlt : k < size
      · rw [if_pos hlt, if_pos hlt]
        cases r with
        | leaf =>
            replace hr : h.right a = 0 := hr
            rw [if_pos hr]
            rfl
        | node rl b i rr =>
            have heq : h.right a = b := hr.1
            rw [heq] at hr ⊢
            rw [if_neg hr.2.1, hin b (by simp)]
            exact ihr (.right outer l a k) rfl hr
              (fun c hc => hin c (by
                rw [KeyTree.addresses_node]
                exact List.mem_append_right _ (List.mem_cons_of_mem _ hc)))
              (by omega)
      · rw [if_neg hlt, if_neg hlt]
        cases l with
        | leaf =>
            replace hl : h.left a = 0 := hl
            rw [if_pos hl]
            rfl
        | node ll b i lr =>
            have heq : h.left a = b := hl.1
            rw [heq] at hl ⊢
            rw [if_neg hl.2.1, hin b (by simp)]
            exact ihl (.left outer a k r) rfl hl
              (fun c hc => hin c (by rw [KeyTree.addresses_node]; exact List.mem_append_left _ hc))
              (by omega)

theorem linkLoop_eq {fuel : Nat} (htree : TreeAt h t) (hsited : Sited h t)
    (hspaced : Spaced (h.kfcTreeRoot :: q :: t.addresses)) (hq : q ≠ 0) (hsmall : q < 2 ^ 64)
    (hleft : h.left q = 0) (hright : h.right q = 0) (hsize : h.size q = size)
    (hroot : h.size h.kfcTreeRoot < size) (hfuel : t.entries.length < fuel) :
    ∃ h', linkLoop h q size fuel h.kfcTreeRoot = some (true, h') ∧ TreeAt h' (t.insert q size) ∧
      Within (linkBytes (h.kfcTreeRoot :: q :: t.addresses)) h h' := by
  generalize hpath : TreePath.descend size .top t = path
  have hplug : path.plug .leaf = t := by rw [← hpath, TreePath.descend_plug_leaf, TreePath.plug]
  have hplug' : path.plug (.node .leaf q size .leaf) = t.insert q size := by
    rw [← hpath, TreePath.descend_plug_node, TreePath.plug]
  have hperm : t.addresses.Perm path.addresses := by
    rw [← hplug]
    exact path.addresses_plug .leaf
  have hnodes : h.kfcTreeRoot :: q :: path.addresses ⊆ h.kfcTreeRoot :: q :: t.addresses :=
    fun a ha => ((hperm.cons q).cons _).mem_iff.mpr ha
  have hparent : path.parent h.kfcTreeRoot ∈ h.kfcTreeRoot :: q :: t.addresses := by
    apply hnodes
    rcases List.mem_cons.mp (path.parent_mem h.kfcTreeRoot) with heq | hmem
    · rw [heq]
      exact List.mem_cons_self
    · exact List.mem_cons_of_mem _ (List.mem_cons_of_mem _ hmem)
  have hparent' : path.parent h.kfcTreeRoot < 2 ^ 64 := by
    apply hsited.small
    rw [← hplug]
    exact parent_mem_plug
  have hq' : q ∈ h.kfcTreeRoot :: q :: t.addresses := by simp
  refine ⟨linked h path q, ?_, ?_, (within_setSlot hparent _).trans (within_setParent hq')⟩
  · obtain ⟨fuel, rfl⟩ : ∃ n, fuel = n + 1 := ⟨fuel - 1, by omega⟩
    rw [linkLoop, if_pos hroot]
    cases t with
    | leaf =>
        replace htree : h.right h.kfcTreeRoot = 0 := htree
        rw [if_pos htree, ← hpath]
        rfl
    | node l a k r =>
        have heq : h.right h.kfcTreeRoot = a := htree.1
        rw [TreeAt, heq] at htree
        rw [heq, if_neg htree.2.1, hsited.inHeap a (by simp), ← hpath]
        exact linkLoop_node .top htree hsited.inHeap (by omega)
  · rw [← hplug']
    rw [TreeAt, show (linked h path q).kfcTreeRoot = h.kfcTreeRoot from
      ((within_setSlot hparent _).trans (within_setParent hq')).root]
    rw [← hplug] at htree
    have hkey : h.links.key q = size := hsize
    rw [← hkey]
    apply linked_link htree
      (((hperm.cons q).cons _).nodup_iff.mp hspaced.nodup) hq hleft hright
    intro a ha
    exact ((Realises.refl h _).setSlot hspaced hparent hsmall path.side).setParent hspaced hq'
      hparent' a (hnodes ha)

-- The search of the best fit.
theorem bestLoop_eq (size last : Nat) {parent a fuel : Nat} (hlinked : t.Linked h.links parent a)
    (hin : ∀ b ∈ t.addresses, h.hmuIsInHeap b = true) (hfuel : t.entries.length < fuel) :
    bestLoop h size fuel last a = some (true, ((t.atLeast size).map Prod.fst).getD last) := by
  induction t generalizing parent a last fuel with
  | leaf =>
      obtain ⟨fuel, rfl⟩ : ∃ n, fuel = n + 1 := ⟨fuel - 1, by omega⟩
      replace hlinked : a = 0 := hlinked
      rw [bestLoop, if_pos hlinked]
      rfl
  | node l b k r ihl ihr =>
      obtain ⟨rfl, hne, -, hkey, hl, hr⟩ := hlinked
      replace hkey : h.size a = k := hkey
      obtain ⟨fuel, rfl⟩ : ∃ n, fuel = n + 1 := ⟨fuel - 1, by omega⟩
      simp only [KeyTree.entries_node, List.length_append, List.length_cons] at hfuel
      rw [bestLoop, if_neg hne, hin a (by simp), hkey, KeyTree.atLeast]
      by_cases hlt : k < size
      · rw [if_pos hlt, if_pos hlt]
        exact ihr last hr (fun c hc => hin c (by simp [hc])) (by omega)
      · rw [if_neg hlt, if_neg hlt]
        refine (ihl a hl (fun c hc => hin c (by simp [hc])) (by omega)).trans ?_
        cases l.atLeast size <;> rfl

end Insert

end Watz.Ems
