import Mathlib.Data.List.Nodup
import Mathlib.Order.Lattice

namespace Watz.Base.LinkedTree

-- Binary trees of addresses with keys. Equal keys go to the left.
inductive KeyTree (α κ : Type) where
  | leaf
  | node (left : KeyTree α κ) (address : α) (key : κ) (right : KeyTree α κ)

variable {α κ : Type}

namespace KeyTree

def entries : KeyTree α κ → List (α × κ)
  | leaf => []
  | node l a k r => l.entries ++ (a, k) :: r.entries

def addresses (t : KeyTree α κ) : List α := t.entries.map Prod.fst

@[simp] theorem entries_leaf : (leaf : KeyTree α κ).entries = [] := rfl

@[simp] theorem entries_node (l r : KeyTree α κ) (a : α) (k : κ) :
    (node l a k r).entries = l.entries ++ (a, k) :: r.entries := rfl

@[simp] theorem addresses_leaf : (leaf : KeyTree α κ).addresses = [] := rfl

@[simp] theorem addresses_node (l r : KeyTree α κ) (a : α) (k : κ) :
    (node l a k r).addresses = l.addresses ++ a :: r.addresses := by
  simp [addresses]

section Order

variable [LinearOrder κ]

def Ordered : KeyTree α κ → Prop
  | leaf => True
  | node l _ k r =>
      l.Ordered ∧ r.Ordered ∧ (∀ e ∈ l.entries, e.2 ≤ k) ∧ ∀ e ∈ r.entries, k < e.2

def insert (a : α) (k : κ) : KeyTree α κ → KeyTree α κ
  | leaf => node leaf a k leaf
  | node l b j r => if j < k then node l b j (r.insert a k) else node (l.insert a k) b j r

theorem entries_insert (a : α) (k : κ) (t : KeyTree α κ) :
    (t.insert a k).entries.Perm ((a, k) :: t.entries) := by
  induction t with
  | leaf => exact List.Perm.refl _
  | node l b j r ihl ihr =>
      rw [insert]
      split
      · have hright : ((b, j) :: (r.insert a k).entries).Perm ((a, k) :: (b, j) :: r.entries) :=
          (ihr.cons (b, j)).trans (List.Perm.swap _ _ _)
        exact (hright.append_left l.entries).trans List.perm_middle
      · exact ihl.append_right _

theorem mem_entries_insert {a : α} {k : κ} {t : KeyTree α κ} {e : α × κ} :
    e ∈ (t.insert a k).entries ↔ e = (a, k) ∨ e ∈ t.entries := by
  rw [(entries_insert a k t).mem_iff, List.mem_cons]

theorem ordered_insert {a : α} {k : κ} {t : KeyTree α κ} (h : t.Ordered) :
    (t.insert a k).Ordered := by
  induction t with
  | leaf => simp [insert, Ordered]
  | node l b j r ihl ihr =>
      obtain ⟨hl, hr, hle, hlt⟩ := h
      rw [insert]
      split
      case isTrue hjk =>
        refine ⟨hl, ihr hr, hle, ?_⟩
        intro e he
        rcases mem_entries_insert.mp he with rfl | he
        · exact hjk
        · exact hlt e he
      case isFalse hjk =>
        refine ⟨ihl hl, hr, ?_, hlt⟩
        intro e he
        rcases mem_entries_insert.mp he with rfl | he
        · exact le_of_not_gt hjk
        · exact hle e he

-- The entry with the least key that is not below `k`.
def atLeast (k : κ) : KeyTree α κ → Option (α × κ)
  | leaf => none
  | node l a j r =>
      if j < k then r.atLeast k
      else
        match l.atLeast k with
        | some e => some e
        | none => some (a, j)

theorem atLeast_eq_none {k : κ} {t : KeyTree α κ} (hordered : t.Ordered) (h : t.atLeast k = none) :
    ∀ e ∈ t.entries, e.2 < k := by
  induction t with
  | leaf => simp
  | node l a j r _ ihr =>
      obtain ⟨_, hr, hle, _⟩ := hordered
      rw [atLeast] at h
      split at h
      case isTrue hjk =>
        intro e he
        rcases List.mem_append.mp he with he | he
        · exact lt_of_le_of_lt (hle e he) hjk
        rcases List.mem_cons.mp he with rfl | he
        · exact hjk
        · exact ihr hr h e he
      case isFalse => split at h <;> cases h

theorem atLeast_eq_some {k : κ} {t : KeyTree α κ} {e : α × κ} (hordered : t.Ordered)
    (h : t.atLeast k = some e) :
    e ∈ t.entries ∧ k ≤ e.2 ∧ ∀ e' ∈ t.entries, k ≤ e'.2 → e.2 ≤ e'.2 := by
  induction t with
  | leaf => cases h
  | node l a j r ihl ihr =>
      obtain ⟨hl, hr, hle, hlt⟩ := hordered
      simp only [entries_node, List.mem_append, List.mem_cons]
      rw [atLeast] at h
      split at h
      case isTrue hjk =>
        obtain ⟨hmem, hk, hleast⟩ := ihr hr h
        refine ⟨.inr (.inr hmem), hk, ?_⟩
        rintro e' (he | rfl | he) hk'
        · exact absurd (lt_of_le_of_lt (hle e' he) hjk) (not_lt.mpr hk')
        · exact absurd hjk (not_lt.mpr hk')
        · exact hleast e' he hk'
      case isFalse hjk =>
        cases hleft : l.atLeast k with
        | some e' =>
            rw [hleft] at h
            obtain rfl := Option.some.inj h
            obtain ⟨hmem, hk, hleast⟩ := ihl hl hleft
            refine ⟨.inl hmem, hk, ?_⟩
            rintro e'' (he | rfl | he) hk'
            · exact hleast e'' he hk'
            · exact hle e' hmem
            · exact (hle e' hmem).trans (hlt e'' he).le
        | none =>
            rw [hleft] at h
            obtain rfl := Option.some.inj h
            refine ⟨.inr (.inl rfl), not_lt.mp hjk, ?_⟩
            rintro e' (he | rfl | he) hk'
            · exact absurd (atLeast_eq_none hl hleft e' he) (not_lt.mpr hk')
            · exact le_rfl
            · exact (hlt e' he).le

end Order

-- A tree without its last entry, and that entry.
def splitMax : KeyTree α κ → Option (KeyTree α κ × α × κ)
  | leaf => none
  | node l a k r =>
      match r.splitMax with
      | none => some (l, a, k)
      | some (r', b, j) => some (node l a k r', b, j)

-- Two trees in one, where the node above them is taken out.
def join (l r : KeyTree α κ) : KeyTree α κ :=
  match l.splitMax with
  | none => r
  | some (l', b, j) =>
      match r with
      | leaf => l
      | node rl c i rr => node l' b j (node rl c i rr)

theorem splitMax_eq_none {t : KeyTree α κ} (h : t.splitMax = none) : t = leaf := by
  cases t with
  | leaf => rfl
  | node l a k r =>
      rw [splitMax] at h
      split at h <;> cases h

theorem entries_splitMax {t t' : KeyTree α κ} {b : α} {j : κ} (h : t.splitMax = some (t', b, j)) :
    t.entries = t'.entries ++ [(b, j)] := by
  induction t generalizing t' with
  | leaf => cases h
  | node l a k r _ ihr =>
      rw [splitMax] at h
      cases hr : r.splitMax with
      | none =>
          rw [hr] at h
          obtain ⟨rfl, rfl, rfl⟩ := h
          rw [splitMax_eq_none hr, entries_node, entries_leaf]
      | some split =>
          obtain ⟨r', c, i⟩ := split
          rw [hr] at h
          obtain ⟨rfl, rfl, rfl⟩ := h
          rw [entries_node, entries_node, ihr hr, List.append_assoc, List.cons_append]

@[simp] theorem join_leaf (l : KeyTree α κ) : join l leaf = l := by
  rw [join]
  cases hl : l.splitMax with
  | none => exact (splitMax_eq_none hl).symm
  | some split => rfl

theorem entries_join (l r : KeyTree α κ) : (join l r).entries = l.entries ++ r.entries := by
  rw [join]
  cases hl : l.splitMax with
  | none =>
      rw [splitMax_eq_none hl]
      simp
  | some split =>
      obtain ⟨l', b, j⟩ := split
      cases r with
      | leaf => simp
      | node rl c i rr => simp [entries_splitMax hl]

section Order

variable [LinearOrder κ]

theorem ordered_splitMax {t t' : KeyTree α κ} {b : α} {j : κ} (hordered : t.Ordered)
    (h : t.splitMax = some (t', b, j)) : t'.Ordered ∧ ∀ e ∈ t'.entries, e.2 ≤ j := by
  induction t generalizing t' with
  | leaf => cases h
  | node l a k r _ ihr =>
      obtain ⟨hl, hr, hle, hlt⟩ := hordered
      rw [splitMax] at h
      cases hsplit : r.splitMax with
      | none =>
          rw [hsplit] at h
          obtain ⟨rfl, rfl, rfl⟩ := h
          exact ⟨hl, hle⟩
      | some split =>
          obtain ⟨r', c, i⟩ := split
          rw [hsplit] at h
          obtain ⟨rfl, rfl, rfl⟩ := h
          obtain ⟨hr', hmax⟩ := ihr hr hsplit
          have hentries := entries_splitMax hsplit
          have hkj : k < j := hlt (b, j) (by simp [hentries])
          refine ⟨⟨hl, hr', hle, fun e he => hlt e (by simp [hentries, he])⟩, ?_⟩
          intro e he
          rcases List.mem_append.mp he with he | he
          · exact (hle e he).trans hkj.le
          rcases List.mem_cons.mp he with rfl | he
          · exact hkj.le
          · exact hmax e he

theorem ordered_join {l r : KeyTree α κ} {a : α} {k : κ} (h : (node l a k r).Ordered) :
    (join l r).Ordered := by
  obtain ⟨hl, hr, hle, hlt⟩ := h
  rw [join]
  cases hsplit : l.splitMax with
  | none => exact hr
  | some split =>
      obtain ⟨l', b, j⟩ := split
      obtain ⟨hl', hmax⟩ := ordered_splitMax hl hsplit
      have hjk : j ≤ k := hle (b, j) (by simp [entries_splitMax hsplit])
      cases r with
      | leaf => exact hl
      | node rl c i rr => exact ⟨hl', hr, hmax, fun e he => lt_of_le_of_lt hjk (hlt e he)⟩

end Order

end KeyTree

open KeyTree

-- A tree with a hole, from the hole outwards.
inductive TreePath (α κ : Type) where
  | top
  | left (outer : TreePath α κ) (address : α) (key : κ) (right : KeyTree α κ)
  | right (outer : TreePath α κ) (left : KeyTree α κ) (address : α) (key : κ)

namespace TreePath

def plug : TreePath α κ → KeyTree α κ → KeyTree α κ
  | top, t => t
  | left outer a k r, t => outer.plug (node t a k r)
  | right outer l a k, t => outer.plug (node l a k t)

-- The addresses of the nodes around the hole.
def addresses : TreePath α κ → List α
  | top => []
  | left outer a _ r => a :: (r.addresses ++ outer.addresses)
  | right outer l a _ => a :: (l.addresses ++ outer.addresses)

-- The entries in front of the hole and behind it.
def before : TreePath α κ → List (α × κ)
  | top => []
  | left outer _ _ _ => outer.before
  | right outer l a k => outer.before ++ (l.entries ++ [(a, k)])

def after : TreePath α κ → List (α × κ)
  | top => []
  | left outer a k r => (a, k) :: (r.entries ++ outer.after)
  | right outer _ _ _ => outer.after

theorem entries_plug (path : TreePath α κ) (t : KeyTree α κ) :
    (path.plug t).entries = path.before ++ t.entries ++ path.after := by
  induction path generalizing t with
  | top => simp [plug, before, after]
  | left outer a k r ih => simp [plug, before, after, ih]
  | right outer l a k ih => simp [plug, before, after, ih]

theorem addresses_plug (path : TreePath α κ) (t : KeyTree α κ) :
    (path.plug t).addresses.Perm (t.addresses ++ path.addresses) := by
  induction path generalizing t with
  | top => simp [plug, addresses]
  | left outer a k r ih =>
      apply (ih (node t a k r)).trans
      simp [addresses]
  | right outer l a k ih =>
      apply (ih (node l a k t)).trans
      rw [addresses_node, addresses, List.append_assoc]
      have hswap := (List.perm_append_comm_assoc l.addresses t.addresses outer.addresses).cons a
      exact List.perm_middle.trans (hswap.trans List.perm_middle.symm)

theorem exists_plug {t : KeyTree α κ} {e : α × κ} (h : e ∈ t.entries) :
    ∃ (path : TreePath α κ) (l r : KeyTree α κ), t = path.plug (node l e.1 e.2 r) := by
  suffices hgeneral : ∀ outer : TreePath α κ,
      ∃ (path : TreePath α κ) (l r : KeyTree α κ), outer.plug t = path.plug (node l e.1 e.2 r) from
    hgeneral top
  induction t with
  | leaf => cases h
  | node l a k r ihl ihr =>
      intro outer
      rcases List.mem_append.mp h with h | h
      · exact ihl h (left outer a k r)
      rcases List.mem_cons.mp h with rfl | h
      · exact ⟨outer, l, r, rfl⟩
      · exact ihr h (right outer l a k)

-- The last entry of a tree has no right child; without it the tree is what `splitMax` leaves.
theorem exists_plug_max {t t' : KeyTree α κ} {q : α} {j : κ} (h : t.splitMax = some (t', q, j))
    (outer : TreePath α κ) :
    ∃ (path : TreePath α κ) (l : KeyTree α κ),
      path.plug (node l q j leaf) = outer.plug t ∧ path.plug l = outer.plug t' := by
  induction t generalizing outer t' with
  | leaf => cases h
  | node l a k r _ ihr =>
      rw [splitMax] at h
      cases hr : r.splitMax with
      | none =>
          rw [hr] at h
          obtain ⟨rfl, rfl, rfl⟩ := h
          rw [splitMax_eq_none hr]
          exact ⟨outer, l, rfl, rfl⟩
      | some split =>
          obtain ⟨r', c, i⟩ := split
          rw [hr] at h
          obtain ⟨rfl, rfl, rfl⟩ := h
          exact ihr hr (right outer l a k)

section Order

variable [LinearOrder κ]

-- A smaller ordered tree fits into the hole of an ordered one.
theorem ordered_plug {path : TreePath α κ} {t t' : KeyTree α κ} (h : (path.plug t).Ordered)
    (ht' : t.Ordered → t'.Ordered) (hsub : t'.entries ⊆ t.entries) : (path.plug t').Ordered := by
  induction path generalizing t t' with
  | top => exact ht' h
  | left outer a k r ih =>
      apply ih h
      · rintro ⟨hl, hr, hle, hlt⟩
        exact ⟨ht' hl, hr, fun e he => hle e (hsub he), hlt⟩
      · intro e he
        simp only [entries_node, List.mem_append] at he ⊢
        exact he.imp_left fun he => hsub he
  | right outer l a k ih =>
      apply ih h
      · rintro ⟨hl, hr, hle, hlt⟩
        exact ⟨hl, ht' hr, hle, fun e he => hlt e (hsub he)⟩
      · intro e he
        simp only [entries_node, List.mem_append, List.mem_cons] at he ⊢
        exact he.imp_right (Or.imp_right fun he => hsub he)

-- Where the descent of `insert` ends.
def descend (k : κ) (outer : TreePath α κ) : KeyTree α κ → TreePath α κ
  | leaf => outer
  | node l b j r => if j < k then descend k (right outer l b j) r else descend k (left outer b j r) l

theorem descend_plug_leaf (k : κ) (outer : TreePath α κ) (t : KeyTree α κ) :
    (descend k outer t).plug leaf = outer.plug t := by
  induction t generalizing outer with
  | leaf => rfl
  | node l b j r ihl ihr =>
      rw [descend]
      split
      · exact ihr _
      · exact ihl _

theorem descend_plug_node (a : α) (k : κ) (outer : TreePath α κ) (t : KeyTree α κ) :
    (descend k outer t).plug (node leaf a k leaf) = outer.plug (t.insert a k) := by
  induction t generalizing outer with
  | leaf => rfl
  | node l b j r ihl ihr =>
      rw [descend, KeyTree.insert]
      split
      · exact ihr _
      · exact ihl _

end Order

end TreePath

-- The fields of nodes, by their addresses.
structure Links (α κ : Type) where
  left : α → α
  right : α → α
  parent : α → α
  key : α → κ

def Links.Agree (f g : Links α κ) (a : α) : Prop :=
  g.left a = f.left a ∧ g.right a = f.right a ∧ g.parent a = f.parent a ∧ g.key a = f.key a

-- Which of its two pointers of a node.
inductive Side where
  | left
  | right
  deriving DecidableEq

namespace Links

variable [DecidableEq α]

def setLeft (f : Links α κ) (a b : α) : Links α κ := { f with left := Function.update f.left a b }

def setRight (f : Links α κ) (a b : α) : Links α κ := { f with right := Function.update f.right a b }

def setParent (f : Links α κ) (a b : α) : Links α κ :=
  { f with parent := Function.update f.parent a b }

def setSlot (f : Links α κ) (a : α) (side : Side) (b : α) : Links α κ :=
  match side with
  | .left => f.setLeft a b
  | .right => f.setRight a b

end Links

variable {f g : Links α κ} {root : α}

theorem Links.Agree.refl (f : Links α κ) (a : α) : f.Agree f a := ⟨rfl, rfl, rfl, rfl⟩

theorem Links.Agree.symm {a : α} (h : f.Agree g a) : g.Agree f a :=
  ⟨h.1.symm, h.2.1.symm, h.2.2.1.symm, h.2.2.2.symm⟩

theorem Links.Agree.trans {f' : Links α κ} {a : α} (h : f.Agree g a) (h' : g.Agree f' a) :
    f.Agree f' a :=
  ⟨h'.1.trans h.1, h'.2.1.trans h.2.1, h'.2.2.1.trans h.2.2.1, h'.2.2.2.trans h.2.2.2⟩

section Set

variable [DecidableEq α] {a b c : α}

@[simp] theorem Links.left_setLeft (f : Links α κ) (a b : α) : (f.setLeft a b).left a = b :=
  Function.update_self ..

@[simp] theorem Links.right_setRight (f : Links α κ) (a b : α) : (f.setRight a b).right a = b :=
  Function.update_self ..

@[simp] theorem Links.parent_setParent (f : Links α κ) (a b : α) :
    (f.setParent a b).parent a = b :=
  Function.update_self ..

theorem Links.agree_setLeft (h : b ≠ a) : f.Agree (f.setLeft a c) b := by
  simp [Links.Agree, Links.setLeft, h]

theorem Links.agree_setRight (h : b ≠ a) : f.Agree (f.setRight a c) b := by
  simp [Links.Agree, Links.setRight, h]

theorem Links.agree_setParent (h : b ≠ a) : f.Agree (f.setParent a c) b := by
  simp [Links.Agree, Links.setParent, h]

theorem Links.agree_setSlot {side : Side} (h : b ≠ a) : f.Agree (f.setSlot a side c) b := by
  cases side with
  | left => exact agree_setLeft h
  | right => exact agree_setRight h

end Set

namespace TreePath

-- Which pointer of the node above it the hole is.
def side : TreePath α κ → Side
  | top => .right
  | left _ _ _ _ => .left
  | right _ _ _ _ => .right

-- The node above the hole; above the whole tree it is the root node, which holds no key.
def parent (root : α) : TreePath α κ → α
  | top => root
  | left _ a _ _ => a
  | right _ _ a _ => a

-- The pointer in the hole. The tree hangs to the right of the root node.
def hole (f : Links α κ) (root : α) : TreePath α κ → α
  | top => f.right root
  | left _ a _ _ => f.left a
  | right _ _ a _ => f.right a

-- Everything around the hole is as before, the pointer in it apart.
def Kept (f g : Links α κ) (root : α) : TreePath α κ → Prop
  | top => True
  | left outer a _ r =>
      g.right a = f.right a ∧ g.parent a = f.parent a ∧ g.key a = f.key a ∧
        g.right root = f.right root ∧ ∀ b ∈ r.addresses ++ outer.addresses, f.Agree g b
  | right outer l a _ =>
      g.left a = f.left a ∧ g.parent a = f.parent a ∧ g.key a = f.key a ∧
        g.right root = f.right root ∧ ∀ b ∈ l.addresses ++ outer.addresses, f.Agree g b

theorem kept_of_agree {path : TreePath α κ} (hroot : g.right root = f.right root)
    (hagree : ∀ b ∈ path.addresses, f.Agree g b) : path.Kept f g root := by
  cases path with
  | top => trivial
  | left outer a k r =>
      obtain ⟨_, hright, hparent, hkey⟩ := hagree a List.mem_cons_self
      exact ⟨hright, hparent, hkey, hroot, fun b hb => hagree b (List.mem_cons_of_mem _ hb)⟩
  | right outer l a k =>
      obtain ⟨hleft, _, hparent, hkey⟩ := hagree a List.mem_cons_self
      exact ⟨hleft, hparent, hkey, hroot, fun b hb => hagree b (List.mem_cons_of_mem _ hb)⟩

theorem parent_mem (root : α) (path : TreePath α κ) :
    path.parent root ∈ root :: path.addresses := by
  cases path with
  | top => exact List.mem_cons_self
  | left outer a k r => exact List.mem_cons_of_mem _ List.mem_cons_self
  | right outer l a k => exact List.mem_cons_of_mem _ List.mem_cons_self

theorem hole_congr {path : TreePath α κ} (hroot : g.right root = f.right root)
    (hagree : ∀ b ∈ path.addresses, f.Agree g b) : path.hole g root = path.hole f root := by
  cases path with
  | top => exact hroot
  | left outer a k r => exact (hagree a List.mem_cons_self).1
  | right outer l a k => exact (hagree a List.mem_cons_self).2.1

-- A pointer is stored in the hole.
theorem kept_setSlot [DecidableEq α] {path : TreePath α κ} {b : α}
    (hnodup : (root :: path.addresses).Nodup)
    (hagree : ∀ a ∈ root :: path.addresses,
      (f.setSlot (path.parent root) path.side b).Agree g a) :
    path.Kept f g root ∧ path.hole g root = b := by
  have hkeep : ∀ a ∈ root :: path.addresses, a ≠ path.parent root → f.Agree g a := fun a ha hne =>
    (Links.agree_setSlot hne).trans (hagree a ha)
  have hparent := hagree _ (path.parent_mem root)
  cases path with
  | top =>
      refine ⟨trivial, ?_⟩
      simpa [hole, parent, side, Links.setSlot, Links.setRight] using hparent.2.1
  | left outer a k r =>
      obtain ⟨hroot, hnodup⟩ := List.nodup_cons.mp hnodup
      obtain ⟨hnot, _⟩ := List.nodup_cons.mp hnodup
      have hne : root ≠ a := fun h => hroot (h ▸ List.mem_cons_self)
      obtain ⟨hleft, hright, hpar, hkey⟩ := hparent
      refine ⟨⟨hright, hpar, hkey, (hkeep root List.mem_cons_self hne).2.1, ?_⟩, ?_⟩
      · intro b hb
        apply hkeep b (List.mem_cons_of_mem _ (List.mem_cons_of_mem _ hb))
        rintro rfl
        exact hnot hb
      · simpa [hole, parent, side, Links.setSlot, Links.setLeft] using hleft
  | right outer l a k =>
      obtain ⟨hroot, hnodup⟩ := List.nodup_cons.mp hnodup
      obtain ⟨hnot, _⟩ := List.nodup_cons.mp hnodup
      have hne : root ≠ a := fun h => hroot (h ▸ List.mem_cons_self)
      obtain ⟨hleft, hright, hpar, hkey⟩ := hparent
      refine ⟨⟨hleft, hpar, hkey, (hkeep root List.mem_cons_self hne).2.1, ?_⟩, ?_⟩
      · intro b hb
        apply hkeep b (List.mem_cons_of_mem _ (List.mem_cons_of_mem _ hb))
        rintro rfl
        exact hnot hb
      · simpa [hole, parent, side, Links.setSlot, Links.setRight] using hright

end TreePath

-- The tree with other addresses.
def KeyTree.relocate (move : α → α) : KeyTree α κ → KeyTree α κ
  | leaf => leaf
  | node l a k r => node (l.relocate move) (move a) k (r.relocate move)

theorem KeyTree.entries_relocate (move : α → α) (t : KeyTree α κ) :
    (t.relocate move).entries = t.entries.map (Prod.map move id) := by
  induction t with
  | leaf => rfl
  | node l a k r ihl ihr => simp [relocate, ihl, ihr]

theorem KeyTree.addresses_relocate (move : α → α) (t : KeyTree α κ) :
    (t.relocate move).addresses = t.addresses.map move := by
  simp [addresses, entries_relocate, Function.comp_def]

theorem KeyTree.Ordered.relocate [LinearOrder κ] {move : α → α} {t : KeyTree α κ}
    (h : t.Ordered) : (t.relocate move).Ordered := by
  induction t with
  | leaf => trivial
  | node l a k r ihl ihr =>
      obtain ⟨hl, hr, hle, hlt⟩ := h
      refine ⟨ihl hl, ihr hr, ?_, ?_⟩
      · rw [entries_relocate]
        intro _ hmem
        obtain ⟨e, he, rfl⟩ := List.mem_map.mp hmem
        exact hle e he
      · rw [entries_relocate]
        intro _ hmem
        obtain ⟨e, he, rfl⟩ := List.mem_map.mp hmem
        exact hlt e he

variable [Zero α]

-- The nodes of a tree whose root has this parent and lies at this address. Zero is no address.
def KeyTree.Linked (f : Links α κ) : α → α → KeyTree α κ → Prop
  | _, address, leaf => address = 0
  | parent, address, node l a k r =>
      address = a ∧ a ≠ 0 ∧ f.parent a = parent ∧ f.key a = k ∧
        l.Linked f a (f.left a) ∧ r.Linked f a (f.right a)

theorem KeyTree.Linked.congr {t : KeyTree α κ} {parent address : α} (h : t.Linked f parent address)
    (hagree : ∀ a ∈ t.addresses, f.Agree g a) : t.Linked g parent address := by
  induction t generalizing parent address with
  | leaf => exact h
  | node l a k r ihl ihr =>
      obtain ⟨rfl, hne, hparent, hkey, hl, hr⟩ := h
      simp only [addresses_node, List.mem_append, List.mem_cons] at hagree
      obtain ⟨hleft, hright, hparent', hkey'⟩ := hagree address (.inr (.inl rfl))
      refine ⟨rfl, hne, hparent'.trans hparent, hkey'.trans hkey, ?_, ?_⟩
      · rw [hleft]
        exact ihl hl fun b hb => hagree b (.inl hb)
      · rw [hright]
        exact ihr hr fun b hb => hagree b (.inr (.inr hb))

-- All nodes move, and their links with them. The address above the tree may stay.
theorem KeyTree.Linked.relocate {t : KeyTree α κ} {parent address : α} (move above : α → α)
    (h : t.Linked f parent address)
    (hzero : move 0 = 0) (hpos : ∀ a ∈ t.addresses, move a ≠ 0)
    (hleft : ∀ a ∈ t.addresses, g.left (move a) = move (f.left a))
    (hright : ∀ a ∈ t.addresses, g.right (move a) = move (f.right a))
    (hparent : ∀ a ∈ t.addresses, g.parent (move a) = above (f.parent a))
    (hkey : ∀ a ∈ t.addresses, g.key (move a) = f.key a)
    (habove : ∀ a ∈ t.addresses, above a = move a) :
    (t.relocate move).Linked g (above parent) (move address) := by
  induction t generalizing parent address with
  | leaf =>
      rw [show address = 0 from h]
      exact hzero
  | node l a k r ihl ihr =>
      obtain ⟨rfl, -, hp, hk, hl, hr⟩ := h
      simp only [addresses_node, List.mem_append, List.mem_cons] at *
      have hself : ∀ {q : α → Prop}, (∀ b, b ∈ l.addresses ∨ b = address ∨ b ∈ r.addresses → q b) →
          q address := fun hq => hq address (.inr (.inl rfl))
      refine ⟨rfl, hself hpos, ?_, ?_, ?_, ?_⟩
      · rw [hself hparent, hp]
      · rw [hself hkey, hk]
      · rw [hself hleft, ← hself habove]
        exact ihl hl (fun b hb => hpos b (.inl hb)) (fun b hb => hleft b (.inl hb))
          (fun b hb => hright b (.inl hb)) (fun b hb => hparent b (.inl hb))
          (fun b hb => hkey b (.inl hb)) (fun b hb => habove b (.inl hb))
      · rw [hself hright, ← hself habove]
        exact ihr hr (fun b hb => hpos b (.inr (.inr hb))) (fun b hb => hleft b (.inr (.inr hb)))
          (fun b hb => hright b (.inr (.inr hb))) (fun b hb => hparent b (.inr (.inr hb)))
          (fun b hb => hkey b (.inr (.inr hb))) (fun b hb => habove b (.inr (.inr hb)))

namespace TreePath

def Linked (f : Links α κ) (root : α) : TreePath α κ → Prop
  | top => True
  | left outer a k r =>
      outer.hole f root = a ∧ a ≠ 0 ∧ f.parent a = outer.parent root ∧ f.key a = k ∧
        r.Linked f a (f.right a) ∧ outer.Linked f root
  | right outer l a k =>
      outer.hole f root = a ∧ a ≠ 0 ∧ f.parent a = outer.parent root ∧ f.key a = k ∧
        l.Linked f a (f.left a) ∧ outer.Linked f root

theorem linked_plug (path : TreePath α κ) (t : KeyTree α κ) :
    (path.plug t).Linked f root (f.right root) ↔
      path.Linked f root ∧ t.Linked f (path.parent root) (path.hole f root) := by
  induction path generalizing t with
  | top => simp [plug, Linked, parent, hole]
  | left outer a k r ih =>
      rw [plug, ih]
      simp only [Linked, KeyTree.Linked, parent, hole]
      tauto
  | right outer l a k ih =>
      rw [plug, ih]
      simp only [Linked, KeyTree.Linked, parent, hole]
      tauto

theorem Linked.congr {path : TreePath α κ} (h : path.Linked f root) (hkept : path.Kept f g root) :
    path.Linked g root := by
  induction path with
  | top => trivial
  | left outer a k r ih =>
      obtain ⟨hhole, hne, hparent, hkey, hr, houter⟩ := h
      obtain ⟨hright, hparent', hkey', hroot, hagree⟩ := hkept
      have hagree' : ∀ b ∈ outer.addresses, f.Agree g b := fun b hb =>
        hagree b (List.mem_append_right _ hb)
      refine ⟨(hole_congr hroot hagree').trans hhole, hne, hparent'.trans hparent,
        hkey'.trans hkey, ?_, ih houter (kept_of_agree hroot hagree')⟩
      rw [hright]
      exact hr.congr fun b hb => hagree b (List.mem_append_left _ hb)
  | right outer l a k ih =>
      obtain ⟨hhole, hne, hparent, hkey, hl, houter⟩ := h
      obtain ⟨hleft, hparent', hkey', hroot, hagree⟩ := hkept
      have hagree' : ∀ b ∈ outer.addresses, f.Agree g b := fun b hb =>
        hagree b (List.mem_append_right _ hb)
      refine ⟨(hole_congr hroot hagree').trans hhole, hne, hparent'.trans hparent,
        hkey'.trans hkey, ?_, ih houter (kept_of_agree hroot hagree')⟩
      rw [hleft]
      exact hl.congr fun b hb => hagree b (List.mem_append_left _ hb)

end TreePath

-- A tree keeps its nodes and gets another parent.
theorem KeyTree.Linked.reparent {t : KeyTree α κ} {parent parent' address : α}
    (h : t.Linked f parent address) (hnodup : t.addresses.Nodup)
    (hagree : ∀ a ∈ t.addresses, a ≠ address → f.Agree g a)
    (hroot : address ≠ 0 → g.left address = f.left address ∧ g.right address = f.right address ∧
      g.parent address = parent' ∧ g.key address = f.key address) :
    t.Linked g parent' address := by
  cases t with
  | leaf => exact h
  | node l a k r =>
      obtain ⟨rfl, hne, hparent, hkey, hl, hr⟩ := h
      obtain ⟨hleft, hright, hparent', hkey'⟩ := hroot hne
      rw [addresses_node, List.nodup_middle, List.nodup_cons] at hnodup
      simp only [addresses_node, List.mem_append, List.mem_cons] at hagree
      refine ⟨rfl, hne, hparent', hkey'.trans hkey, ?_, ?_⟩
      · rw [hleft]
        refine hl.congr fun b hb => hagree b (.inl hb) ?_
        rintro rfl
        exact hnodup.1 (List.mem_append_left _ hb)
      · rw [hright]
        refine hr.congr fun b hb => hagree b (.inr (.inr hb)) ?_
        rintro rfl
        exact hnodup.1 (List.mem_append_right _ hb)

theorem KeyTree.Linked.mem_addresses {t : KeyTree α κ} {parent address : α}
    (h : t.Linked f parent address) (hne : address ≠ 0) : address ∈ t.addresses := by
  cases t with
  | leaf => exact absurd h hne
  | node l a k r =>
      rw [h.1, addresses_node]
      exact List.mem_append_right _ List.mem_cons_self

section Remove

variable [DecidableEq α] {path : TreePath α κ} {p c q : α} {child l r : KeyTree α κ} {k : κ}

-- The root of a tree gets another parent, if there is a root.
def Links.adopt (f : Links α κ) (c parent : α) : Links α κ :=
  if c = 0 then f else f.setParent c parent

theorem Links.agree_adopt {a : α} (parent : α) (h : a ≠ c ∨ c = 0) :
    f.Agree (f.adopt c parent) a := by
  rw [Links.adopt]
  split
  · exact .refl f a
  · exact agree_setParent (h.resolve_right ‹_›)

theorem KeyTree.Linked.adopt {t : KeyTree α κ} {parent parent' : α} (h : t.Linked f parent c)
    (hnodup : t.addresses.Nodup) (hagree : ∀ a ∈ t.addresses, (f.adopt c parent').Agree g a) :
    t.Linked g parent' c := by
  apply h.reparent hnodup
  · intro a ha hne
    exact (Links.agree_adopt _ (.inl hne)).trans (hagree a ha)
  · intro hne
    obtain ⟨hleft, hright, hparent, hkey⟩ := hagree c (h.mem_addresses hne)
    simp only [Links.adopt, if_neg hne, Links.setParent,
      Function.update_self] at hleft hright hparent hkey
    exact ⟨hleft, hright, hparent, hkey⟩

-- A node with one child is taken out: the child moves up.
theorem linked_lift (hpath : path.Linked f root) (hchild : child.Linked f p c)
    (hnodup : (root :: (child.addresses ++ path.addresses)).Nodup)
    (hagree : ∀ a ∈ root :: (child.addresses ++ path.addresses),
      ((f.setSlot (path.parent root) path.side c).adopt c (path.parent root)).Agree g a) :
    (path.plug child).Linked g root (g.right root) := by
  have hsub : ∀ a ∈ root :: path.addresses, a ∈ root :: (child.addresses ++ path.addresses) := by
    simp only [List.mem_cons, List.mem_append]
    tauto
  obtain ⟨hroot, hrest⟩ := List.nodup_cons.mp hnodup
  obtain ⟨hchildren, hothers, hapart⟩ := List.nodup_append.mp hrest
  have hnot : ∀ a ∈ child.addresses, ∀ b ∈ root :: path.addresses, a ≠ b := by
    intro a ha b hb
    rcases List.mem_cons.mp hb with rfl | hb
    · rintro rfl
      exact hroot (List.mem_append_left _ ha)
    · exact hapart a ha b hb
  have hslot : ∀ a ∈ root :: path.addresses,
      (f.setSlot (path.parent root) path.side c).Agree g a := by
    intro a ha
    refine (Links.agree_adopt _ ?_).trans (hagree a (hsub a ha))
    by_cases hc : c = 0
    · exact .inr hc
    · exact .inl (hnot c (hchild.mem_addresses hc) a ha).symm
  obtain ⟨hkept, hhole⟩ := TreePath.kept_setSlot
    (List.nodup_cons.mpr ⟨fun h => hroot (List.mem_append_right _ h), hothers⟩) hslot
  rw [TreePath.linked_plug, hhole]
  refine ⟨hpath.congr hkept, ?_⟩
  have hchild' : child.Linked (f.setSlot (path.parent root) path.side c) p c := by
    apply hchild.congr
    intro a ha
    exact Links.agree_setSlot (hnot a ha _ (path.parent_mem root))
  apply hchild'.adopt hchildren
  intro a ha
  exact hagree a (List.mem_cons_of_mem _ (List.mem_append_left _ ha))

-- A node takes the place of another one.
def Links.replace (f : Links α κ) (p q parent : α) (side : Side) : Links α κ :=
  let f := f.setSlot parent side q
  let f := f.setParent q (f.parent p)
  let f := f.setLeft q (f.left p)
  let f := f.setRight q (f.right p)
  let f := f.adopt (f.left q) q
  f.adopt (f.right q) q

@[simp] theorem Links.left_adopt (f : Links α κ) (c parent : α) :
    (f.adopt c parent).left = f.left := by
  rw [adopt]
  split <;> rfl

@[simp] theorem Links.right_adopt (f : Links α κ) (c parent : α) :
    (f.adopt c parent).right = f.right := by
  rw [adopt]
  split <;> rfl

-- The fields of the new node, and the new parent of its children.
def Links.place (f : Links α κ) (q parent x y : α) : Links α κ :=
  ((((f.setParent q parent).setLeft q x).setRight q y).adopt x q).adopt y q

theorem Links.replace_eq {parent : α} {side : Side} (hp : p ≠ parent) :
    f.replace p q parent side =
      (f.setSlot parent side q).place q (f.parent p) (f.left p) (f.right p) := by
  have hagree : f.Agree (f.setSlot parent side q) p := agree_setSlot hp
  obtain ⟨hleft, hright, hparent, _⟩ := hagree
  simp only [replace, place, right_adopt]
  simp [setLeft, setRight, setParent, hleft, hright, hparent]

theorem Links.agree_place {a parent x y : α} (hq : a ≠ q) (hx : a ≠ x ∨ x = 0)
    (hy : a ≠ y ∨ y = 0) : f.Agree (f.place q parent x y) a :=
  (((((agree_setParent hq).trans (agree_setLeft hq)).trans (agree_setRight hq)).trans
    (agree_adopt q hx)).trans (agree_adopt q hy))

theorem Links.place_self (parent : α) {x y : α} (hx : q ≠ x ∨ x = 0) (hy : q ≠ y ∨ y = 0) :
    (f.place q parent x y).left q = x ∧ (f.place q parent x y).right q = y ∧
      (f.place q parent x y).parent q = parent ∧ (f.place q parent x y).key q = f.key q := by
  obtain ⟨hleft, hright, hparent, hkey⟩ := (agree_adopt (f := ((f.setParent q parent).setLeft q
    x).setRight q y) q hx).trans (agree_adopt q hy)
  refine ⟨hleft.trans ?_, hright.trans ?_, hparent.trans ?_, hkey.trans ?_⟩
  · simp [setLeft, setRight, setParent]
  · simp [setLeft, setRight, setParent]
  · simp [setLeft, setRight, setParent]
  · rfl

theorem Links.place_left (parent : α) {x y : α} (hzero : x ≠ 0) (hq : x ≠ q) (hy : x ≠ y ∨ y = 0) :
    (f.place q parent x y).left x = f.left x ∧ (f.place q parent x y).right x = f.right x ∧
      (f.place q parent x y).parent x = q ∧ (f.place q parent x y).key x = f.key x := by
  obtain ⟨hleft, hright, hparent, hkey⟩ := agree_adopt (f := (((f.setParent q parent).setLeft q
    x).setRight q y).adopt x q) q hy
  refine ⟨hleft.trans ?_, hright.trans ?_, hparent.trans ?_, hkey.trans ?_⟩
  · simp [setLeft, setRight, setParent, hq]
  · simp [setLeft, setRight, setParent, hq]
  · simp [adopt, hzero, setParent]
  · simp [adopt, hzero, setLeft, setRight, setParent]

theorem Links.place_right (parent x : α) {y : α} (hzero : y ≠ 0) (hq : y ≠ q) :
    (f.place q parent x y).left y = f.left y ∧ (f.place q parent x y).right y = f.right y ∧
      (f.place q parent x y).parent y = q ∧ (f.place q parent x y).key y = f.key y := by
  refine ⟨?_, ?_, ?_, ?_⟩
  · simp [place, setLeft, setRight, setParent, hq]
  · simp [place, setLeft, setRight, setParent, hq]
  · simp [place, adopt, hzero, setParent]
  · rw [place, adopt, if_neg hzero, adopt]
    split <;> rfl

theorem KeyTree.Linked.ne_or_zero {t : KeyTree α κ} {parent x a : α} (h : t.Linked f parent x)
    (ha : a ∉ t.addresses) : a ≠ x ∨ x = 0 := by
  by_cases hzero : x = 0
  · exact .inr hzero
  · refine .inl ?_
    rintro rfl
    exact ha (h.mem_addresses hzero)

omit [Zero α] [DecidableEq α] in
-- The nodes around a hole are none of those in it.
theorem around_apart
    (hnodup : (root :: p :: q :: (l.addresses ++ r.addresses ++ path.addresses)).Nodup) :
    ∀ a ∈ root :: path.addresses, a ≠ p ∧ a ≠ q ∧ a ∉ l.addresses ∧ a ∉ r.addresses := by
  simp only [List.nodup_cons, List.mem_cons, List.mem_append, not_or, List.nodup_append] at hnodup
  obtain ⟨⟨hrp, hrq, ⟨hrl, hrr⟩, -⟩, ⟨-, -, hpp⟩, ⟨-, hqpath⟩, -, -, hlrpath⟩ := hnodup
  intro a ha
  rcases List.mem_cons.mp ha with rfl | ha
  · exact ⟨hrp, hrq, hrl, hrr⟩
  · refine ⟨?_, ?_, fun hl => hlrpath a (.inl hl) a ha rfl, fun hr => hlrpath a (.inr hr) a ha rfl⟩
    · rintro rfl
      exact hpp ha
    · rintro rfl
      exact hqpath ha

theorem linked_replace (h : (path.plug (node l p k r)).Linked f root (f.right root))
    (hnodup : (root :: p :: q :: (l.addresses ++ r.addresses ++ path.addresses)).Nodup)
    (hq : q ≠ 0)
    (hagree : ∀ a ∈ root :: q :: (l.addresses ++ r.addresses ++ path.addresses),
      (f.replace p q (path.parent root) path.side).Agree g a) :
    (path.plug (node l q (f.key q) r)).Linked g root (g.right root) := by
  obtain ⟨hpath, _, _, hparent, _, hl, hr⟩ := (TreePath.linked_plug _ _).mp h
  have hmem := path.parent_mem root
  have hout := around_apart hnodup
  simp only [List.nodup_cons, List.mem_cons, List.mem_append, not_or, List.nodup_append] at hnodup
  obtain ⟨⟨-, -, -, hrpath⟩, -, ⟨⟨hql, hqr⟩, -⟩, ⟨hnl, hnr, hlr⟩, hnpath, -⟩ := hnodup
  have hnotLeft : ∀ a, a ∉ l.addresses → a ≠ f.left p ∨ f.left p = 0 := fun _ => hl.ne_or_zero
  have hnotRight : ∀ a, a ∉ r.addresses → a ≠ f.right p ∨ f.right p = 0 := fun _ => hr.ne_or_zero
  rw [Links.replace_eq (hout _ hmem).1.symm, hparent] at hagree
  simp only [List.mem_cons, List.mem_append] at hagree
  obtain ⟨hkept, hhole⟩ := TreePath.kept_setSlot (b := q) (f := f) (g := g)
    (List.nodup_cons.mpr ⟨hrpath, hnpath⟩) (by
      intro a ha
      obtain ⟨-, hne, hal, har⟩ := hout a ha
      refine (Links.agree_place hne (hnotLeft a hal) (hnotRight a har)).trans (hagree a ?_)
      rcases List.mem_cons.mp ha with rfl | ha
      · exact .inl rfl
      · exact .inr (.inr (.inr ha)))
  -- The children keep their links but for the parent.
  have hslot : ∀ a, a ∈ l.addresses ∨ a ∈ r.addresses ∨ a = q →
      f.Agree (f.setSlot (path.parent root) path.side q) a := by
    rintro a ha
    apply Links.agree_setSlot
    rintro rfl
    obtain ⟨-, hne, hal, har⟩ := hout _ hmem
    rcases ha with ha | ha | ha
    · exact hal ha
    · exact har ha
    · exact hne ha
  obtain ⟨hleft, hright, hpar, hkey⟩ := Links.place_self (f := f.setSlot (path.parent root)
    path.side q) (path.parent root) (hnotLeft q hql) (hnotRight q hqr)
  obtain ⟨hleft', hright', hpar', hkey'⟩ := hagree q (.inr (.inl rfl))
  rw [TreePath.linked_plug, hhole]
  refine ⟨hpath.congr hkept, rfl, hq, hpar'.trans hpar,
    hkey'.trans (hkey.trans (hslot q (.inr (.inr rfl))).2.2.2), ?_, ?_⟩
  · rw [hleft', hleft]
    apply hl.reparent hnl
    · intro a ha hne
      refine (hslot a (.inl ha)).trans ((Links.agree_place ?_ (.inl hne) ?_).trans (hagree a ?_))
      · rintro rfl
        exact hql ha
      · exact hnotRight a fun har => hlr a ha a har rfl
      · exact .inr (.inr (.inl (.inl ha)))
    · intro hzero
      have hx := hl.mem_addresses hzero
      obtain ⟨hxl, hxr, hxp, hxk⟩ := Links.place_left
        (f := f.setSlot (path.parent root) path.side q) (q := q) (y := f.right p)
        (path.parent root) hzero (fun h => hql (h ▸ hx))
        (hnotRight _ fun har => hlr _ hx _ har rfl)
      obtain ⟨hxl', hxr', hxp', hxk'⟩ := hagree (f.left p) (.inr (.inr (.inl (.inl hx))))
      obtain ⟨hsl, hsr, -, hsk⟩ := hslot (f.left p) (.inl hx)
      exact ⟨hxl'.trans (hxl.trans hsl), hxr'.trans (hxr.trans hsr), hxp'.trans hxp,
        hxk'.trans (hxk.trans hsk)⟩
  · rw [hright', hright]
    apply hr.reparent hnr
    · intro a ha hne
      refine (hslot a (.inr (.inl ha))).trans
        ((Links.agree_place ?_ ?_ (.inl hne)).trans (hagree a ?_))
      · rintro rfl
        exact hqr ha
      · exact hnotLeft a fun hal => hlr a hal a ha rfl
      · exact .inr (.inr (.inl (.inr ha)))
    · intro hzero
      have hx := hr.mem_addresses hzero
      obtain ⟨hxl, hxr, hxp, hxk⟩ := Links.place_right (f := f.setSlot (path.parent root) path.side
        q) (q := q) (path.parent root) (f.left p) hzero (fun h => hqr (h ▸ hx))
      obtain ⟨hxl', hxr', hxp', hxk'⟩ := hagree (f.right p) (.inr (.inr (.inl (.inr hx))))
      obtain ⟨hsl, hsr, -, hsk⟩ := hslot (f.right p) (.inr (.inl hx))
      exact ⟨hxl'.trans (hxl.trans hsl), hxr'.trans (hxr.trans hsr), hxp'.trans hxp,
        hxk'.trans (hxk.trans hsk)⟩

-- A new node without children fills the hole.
theorem linked_link (h : (path.plug leaf).Linked f root (f.right root))
    (hnodup : (root :: q :: path.addresses).Nodup) (hq : q ≠ 0) (hleft : f.left q = 0)
    (hright : f.right q = 0)
    (hagree : ∀ a ∈ root :: q :: path.addresses,
      ((f.setSlot (path.parent root) path.side q).setParent q (path.parent root)).Agree g a) :
    (path.plug (node leaf q (f.key q) leaf)).Linked g root (g.right root) := by
  obtain ⟨hpath, _⟩ := (TreePath.linked_plug _ _).mp h
  simp only [List.nodup_cons, List.mem_cons, not_or] at hnodup
  obtain ⟨⟨hrq, hrpath⟩, hqpath, hnpath⟩ := hnodup
  have hne : ∀ a ∈ root :: path.addresses, a ≠ q := by
    rintro a ha rfl
    rcases List.mem_cons.mp ha with ha | ha
    · exact hrq ha.symm
    · exact hqpath ha
  obtain ⟨hkept, hhole⟩ := TreePath.kept_setSlot (List.nodup_cons.mpr ⟨hrpath, hnpath⟩) fun a ha =>
    (Links.agree_setParent (hne a ha)).trans (hagree a (by
      rcases List.mem_cons.mp ha with rfl | ha
      · exact List.mem_cons_self
      · exact List.mem_cons_of_mem _ (List.mem_cons_of_mem _ ha)))
  have hslot : f.Agree (f.setSlot (path.parent root) path.side q) q :=
    Links.agree_setSlot (hne _ (path.parent_mem root)).symm
  obtain ⟨hl, hr, -, hk⟩ := hslot
  obtain ⟨hl', hr', hp', hk'⟩ := hagree q (List.mem_cons_of_mem _ List.mem_cons_self)
  rw [TreePath.linked_plug, hhole]
  refine ⟨hpath.congr hkept, rfl, hq, hp'.trans (by simp [Links.setParent]), hk'.trans hk, ?_, ?_⟩
  · exact hl'.trans (hl.trans hleft)
  · exact hr'.trans (hr.trans hright)

end Remove

end Watz.Base.LinkedTree
