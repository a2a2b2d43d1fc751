import Watz.Base.References
import Watz.Wasi.Path

namespace Watz.Wasi

open Base.References

-- `struct fd_entry` with an object.
structure FdEntry where
  object : Nat
  rightsBase : BitVec 64
  rightsInheriting : BitVec 64

-- `struct fd_table` with its objects. For the accounts: `held` has the references of the calls
-- under way, `lost` those that no call and no entry has any more, and `renumbered` counts the
-- calls of `fd_renumber` that have gone through.
structure FdTable where
  entries : List (Option FdEntry)
  used : BitVec 64
  objects : Counts 32
  held : List Nat
  lost : List Nat
  renumbered : Nat

def fdTableInit : FdTable := ⟨[], 0, ⟨0, fun _ => 0, []⟩, [], [], 0⟩

-- What making an object comes to. A directory's object has a lock of its own, which may fail.
inductive Making where
  | noMemory
  | noLock
  | made

section Operations

variable (ft : FdTable)

def fdTableGetEntry (fd : Nat) (rightsBase rightsInheriting : BitVec 64) : Except Errno FdEntry :=
  match ft.entries[fd]? with
  | some (some fe) =>
      if ~~~fe.rightsBase &&& rightsBase ≠ 0 ∨ ~~~fe.rightsInheriting &&& rightsInheriting ≠ 0 then
        .error .notcapable
      else .ok fe
  | _ => .error .badf

-- `while (size <= min || size < (ft->used + incr) * 2) size *= 2`. A size that has become zero
-- stays zero.
def doubled (min : Nat) (need : BitVec 64) : Nat → Nat → Option Nat
  | 0, _ => none
  | rounds + 1, size =>
      if size ≤ min ∨ size < need.toNat then doubled min need rounds (size * 2 % 2 ^ 64)
      else some size

-- `memory` is what the allocation gives, which sets `errno` when it fails.
def fdTableGrow (min : Nat) (incr : BitVec 64) (memory : Except Errno Unit) :
    Option (Except Errno Unit × FdTable) :=
  let need := (ft.used + incr) * 2
  if ft.entries.length ≤ min ∨ ft.entries.length < need.toNat then
    match doubled min need 65 (if ft.entries.length = 0 then 1 else ft.entries.length), memory with
    | none, _ => none
    | some _, .error e => some (.error e, ft)
    | some size, .ok () =>
        some (.ok (), { ft with
          entries := ft.entries ++ List.replicate (size - ft.entries.length) none })
  else some (.ok (), ft)

-- With the assertions about `used` compiled in, a run that breaks one would stop here.
def fdTableAttach (fd : Nat) (fe : FdEntry) : FdTable :=
  { ft with entries := ft.entries.set fd (some fe), used := ft.used + 1 }

def fdTableDetach (fd : Nat) : FdTable :=
  { ft with entries := ft.entries.set fd none, used := ft.used - 1 }

def refcountAcquire (object : Nat) : FdTable := { ft with objects := ft.objects.acquire object }

def fdObjectRelease (object : Nat) : FdTable := { ft with objects := ft.objects.release object }

-- `pick` is what the loop of `fd_table_unused` ends with: a free entry or an error of the random
-- numbers. The loop does not end with an entry that is in use.
def fdTableInsert (fe : FdEntry) (memory : Except Errno Unit) (pick : Except Errno Nat) :
    Option (Except Errno Nat × FdTable) :=
  match fdTableGrow ft 0 1 memory with
  | none => none
  | some (.error e, ft) => some (.error e, fdObjectRelease ft fe.object)
  | some (.ok (), ft) =>
      match pick with
      | .error e => some (.error e, { ft with lost := fe.object :: ft.lost })
      | .ok fd =>
          match ft.entries[fd]? with
          | some none => some (.ok fd, fdTableAttach ft fd fe)
          | _ => none

-- Without memory for the object the handle is closed. `(__wasi_errno_t)-1` has 16 bits.
def fdTableInsertFd (rightsBase rightsInheriting : BitVec 64) (object : Making)
    (memory : Except Errno Unit) (pick : Except Errno Nat) : Option (Except Errno Nat × FdTable) :=
  let created := { ft with objects := ft.objects.create }
  match object with
  | .noMemory => some (.error .nomem, ft)
  | .noLock => some (.error (.other 65535), fdObjectRelease created ft.objects.next)
  | .made =>
      fdTableInsert created ⟨ft.objects.next, rightsBase, rightsInheriting⟩ memory pick

-- The rights are those of `fd_determine_type_rights`; when it fails, no object is made. The entry
-- must not be in use; this is an assertion.
def fdTableInsertExisting (fd : Nat) (rightsBase rightsInheriting : BitVec 64) (object : Making)
    (memory : Except Errno Unit) : Option (Bool × FdTable) :=
  let created := { ft with objects := ft.objects.create }
  match object with
  | .noMemory => some (false, ft)
  | .noLock => some (false, fdObjectRelease created ft.objects.next)
  | .made =>
      match fdTableGrow created fd 1 memory with
      | none => none
      | some (.error _, grown) => some (false, fdObjectRelease grown ft.objects.next)
      | some (.ok (), grown) =>
          match grown.entries[fd]? with
          | some none =>
              some (true, fdTableAttach grown fd ⟨ft.objects.next, rightsBase, rightsInheriting⟩)
          | _ => none

-- A call begins and has a reference.
def fdObjectGet (fd : Nat) (rightsBase rightsInheriting : BitVec 64) :
    Except Errno Nat × FdTable :=
  match fdTableGetEntry ft fd rightsBase rightsInheriting with
  | .error e => (.error e, ft)
  | .ok fe => (.ok fe.object, { refcountAcquire ft fe.object with held := fe.object :: ft.held })

-- A call under way gives its reference back.
def giveBack (object : Nat) : Option FdTable :=
  if object ∈ ft.held then
    some (fdObjectRelease { ft with held := ft.held.erase object } object)
  else none

-- `fd_close` until it unlocks the table. The reference of the entry is the call's then.
def fdClose (fd : Nat) : Except Errno Unit × FdTable :=
  match fdTableGetEntry ft fd 0 0 with
  | .error e => (.error e, ft)
  | .ok fe => (.ok (), { fdTableDetach ft fd with held := fe.object :: ft.held })

-- The count of the entries is lowered once more in the end. The object of an entry that is
-- renumbered to itself is gone when its reference count is to be raised.
def fdRenumber (src dst : Nat) : Option (Except Errno Unit × FdTable) :=
  match fdTableGetEntry ft src 0 0, fdTableGetEntry ft dst 0 0 with
  | .error e, _ => some (.error e, ft)
  | .ok _, .error e => some (.error e, ft)
  | .ok feFrom, .ok feTo =>
      if src = dst then none
      else
        let ft := fdTableDetach ft dst
        let ft := refcountAcquire ft feFrom.object
        let ft := fdTableAttach ft dst feFrom
        let ft := fdObjectRelease ft feTo.object
        let ft := fdTableDetach ft src
        let ft := fdObjectRelease ft feFrom.object
        some (.ok (), { ft with used := ft.used - 1, renumbered := ft.renumbered + 1 })

def fdFdstatSetRights (fd : Nat) (rightsBase rightsInheriting : BitVec 64) :
    Except Errno Unit × FdTable :=
  match fdTableGetEntry ft fd rightsBase rightsInheriting with
  | .error e => (.error e, ft)
  | .ok fe =>
      let fe : FdEntry := ⟨fe.object, rightsBase, rightsInheriting⟩
      (.ok (), { ft with entries := ft.entries.set fd (some fe) })

end Operations

-- What the runtime, the guest's threads and the calls under way do, one locked part after the
-- other.
inductive FdCall where
  | insertExisting (fd : Nat) (rightsBase rightsInheriting : BitVec 64) (object : Making)
      (memory : Except Errno Unit)
  | insertFd (rightsBase rightsInheriting : BitVec 64) (object : Making)
      (memory : Except Errno Unit) (pick : Except Errno Nat)
  | get (fd : Nat) (rightsBase rightsInheriting : BitVec 64)
  | release (object : Nat)
  | close (fd : Nat)
  | renumber (src dst : Nat)
  | setRights (fd : Nat) (rightsBase rightsInheriting : BitVec 64)

-- Nothing comes of a call that does not end, that faults or that has nothing to give back.
def FdCall.step (ft : FdTable) : FdCall → Option FdTable
  | .insertExisting fd rightsBase rightsInheriting object memory =>
      (fdTableInsertExisting ft fd rightsBase rightsInheriting object memory).map Prod.snd
  | .insertFd rightsBase rightsInheriting object memory pick =>
      (fdTableInsertFd ft rightsBase rightsInheriting object memory pick).map Prod.snd
  | .get fd rightsBase rightsInheriting =>
      some (fdObjectGet ft fd rightsBase rightsInheriting).2
  | .release object => giveBack ft object
  | .close fd => some (fdClose ft fd).2
  | .renumber src dst => (fdRenumber ft src dst).map Prod.snd
  | .setRights fd rightsBase rightsInheriting =>
      some (fdFdstatSetRights ft fd rightsBase rightsInheriting).2

def FdTable.run (ft : FdTable) : List FdCall → Option FdTable
  | [] => some ft
  | call :: calls => (call.step ft).bind fun ft => ft.run calls

section Entries

variable {entries : List (Option FdEntry)} {fd : Nat} {fe : FdEntry}

def objectsOf (entries : List (Option FdEntry)) : List Nat :=
  entries.filterMap fun entry => entry.map FdEntry.object

theorem objectsOf_insert (h : entries[fd]? = some none) (fe : FdEntry) :
    (objectsOf (entries.set fd (some fe)) : Multiset Nat) = fe.object ::ₘ objectsOf entries := by
  induction entries generalizing fd with
  | nil => cases h
  | cons entry entries ih =>
      cases fd with
      | zero =>
          obtain rfl := Option.some.inj h
          rfl
      | succ fd =>
          have hrest := ih h
          cases entry with
          | none => exact hrest
          | some other =>
              change (other.object ::ₘ (objectsOf (entries.set fd (some fe)) : Multiset Nat)) =
                fe.object ::ₘ other.object ::ₘ objectsOf entries
              rw [hrest, Multiset.cons_swap]

theorem objectsOf_remove (h : entries[fd]? = some (some fe)) :
    (objectsOf entries : Multiset Nat) = fe.object ::ₘ objectsOf (entries.set fd none) := by
  have hlt : fd < entries.length := (List.getElem?_eq_some_iff.mp h).1
  have hfree : (entries.set fd none)[fd]? = some none := List.getElem?_set_self hlt
  have hback : (entries.set fd none).set fd (some fe) = entries := by
    rw [List.set_set, ← (List.getElem?_eq_some_iff.mp h).2, List.set_getElem_self]
  rw [← objectsOf_insert hfree fe, hback]

theorem objectsOf_append (more : Nat) :
    objectsOf (entries ++ List.replicate more none) = objectsOf entries := by
  rw [objectsOf, List.filterMap_append, List.filterMap_replicate_of_none rfl, List.append_nil,
    objectsOf]

-- A table that is not full has a free entry.
theorem exists_free (h : (objectsOf entries).length < entries.length) :
    ∃ fd : Nat, entries[fd]? = some none := by
  induction entries with
  | nil => cases h
  | cons entry entries ih =>
      cases entry with
      | none => exact ⟨0, rfl⟩
      | some fe =>
          obtain ⟨fd, hfree⟩ := ih (Nat.lt_of_succ_lt_succ h)
          exact ⟨fd + 1, hfree⟩

theorem length_objectsOf_le : (objectsOf entries).length ≤ entries.length :=
  List.length_filterMap_le _ _

end Entries

-- The references to objects, wherever they are.
def FdTable.refs (ft : FdTable) : Multiset Nat := objectsOf ft.entries + (ft.held + ft.lost)

-- No object has more references than its `atomic_uint` can count.
def FdTable.Few (ft : FdTable) : Prop := ∀ object, ft.refs.count object < 2 ^ 32

-- The objects are counted, with references that an operation has in hand, and so are the entries,
-- but for what the calls of `fd_renumber` have taken off.
structure FdTable.Owes (ft : FdTable) (pending : Multiset Nat) (few : Prop) : Prop where
  exact : ft.objects.Exact (pending + ft.refs) few
  used : ft.used + BitVec.ofNat 64 ft.renumbered = BitVec.ofNat 64 (objectsOf ft.entries).length

section Counted

variable {ft ft' : FdTable} {pending : Multiset Nat} {few : Prop} {fd object : Nat} {fe : FdEntry}
  {rightsBase rightsInheriting : BitVec 64} {memory : Except Errno Unit}

theorem length_objectsOf {first second : List Nat}
    (h : (first : Multiset Nat) = object ::ₘ second) : first.length = second.length + 1 := by
  have hcard := congrArg Multiset.card h
  rw [Multiset.card_cons, Multiset.coe_card, Multiset.coe_card] at hcard
  exact hcard

theorem attach_refs (h : ft.entries[fd]? = some none) :
    (fdTableAttach ft fd fe).refs = fe.object ::ₘ ft.refs := by
  change (objectsOf (ft.entries.set fd (some fe)) : Multiset Nat) + _ = _
  rw [objectsOf_insert h fe, Multiset.cons_add]
  rfl

theorem detach_refs (h : ft.entries[fd]? = some (some fe)) :
    ft.refs = fe.object ::ₘ (fdTableDetach ft fd).refs := by
  rw [FdTable.refs.eq_def ft, objectsOf_remove h, Multiset.cons_add]
  rfl

theorem attach_owes (h : ft.entries[fd]? = some none) (ho : ft.Owes (fe.object ::ₘ pending) few) :
    (fdTableAttach ft fd fe).Owes pending few := by
  refine ⟨?_, ?_⟩
  · rw [attach_refs h, Multiset.add_cons, ← Multiset.cons_add]
    exact ho.exact
  · have hused := ho.used
    change ft.used + 1 + BitVec.ofNat 64 ft.renumbered = _
    rw [show (objectsOf (fdTableAttach ft fd fe).entries).length = _ from
      length_objectsOf (objectsOf_insert h fe), BitVec.ofNat_add, ← hused]
    generalize BitVec.ofNat 64 ft.renumbered = drift
    bv_omega

theorem detach_owes (h : ft.entries[fd]? = some (some fe)) (ho : ft.Owes pending few) :
    (fdTableDetach ft fd).Owes (fe.object ::ₘ pending) few := by
  refine ⟨?_, ?_⟩
  · rw [Multiset.cons_add, ← Multiset.add_cons, ← detach_refs h]
    exact ho.exact
  · have hused := ho.used
    rw [length_objectsOf (objectsOf_remove h), BitVec.ofNat_add] at hused
    change ft.used - 1 + BitVec.ofNat 64 ft.renumbered =
      BitVec.ofNat 64 (objectsOf (ft.entries.set fd none)).length
    generalize BitVec.ofNat 64 ft.renumbered = drift at hused ⊢
    generalize BitVec.ofNat 64 (objectsOf (ft.entries.set fd none)).length = live at hused ⊢
    bv_omega

theorem acquire_owes (hmem : object ∈ pending + ft.refs) (ho : ft.Owes pending few) :
    (refcountAcquire ft object).Owes (object ::ₘ pending) few := by
  refine ⟨?_, ho.used⟩
  rw [Multiset.cons_add]
  exact ho.exact.acquire hmem

theorem release_owes (ho : ft.Owes (object ::ₘ pending) few)
    (hfew : few → (pending + ft.refs).count object < 2 ^ 32) :
    (fdObjectRelease ft object).Owes pending few := by
  refine ⟨?_, ho.used⟩
  have hexact := ho.exact
  rw [Multiset.cons_add] at hexact
  exact hexact.release hfew

theorem create_owes (ho : ft.Owes pending few) :
    ({ ft with objects := ft.objects.create } : FdTable).Owes (ft.objects.next ::ₘ pending) few := by
  refine ⟨?_, ho.used⟩
  rw [Multiset.cons_add]
  exact ho.exact.create

-- A reference goes to a call under way.
theorem hold_owes (ho : ft.Owes (object ::ₘ pending) few) :
    ({ ft with held := object :: ft.held } : FdTable).Owes pending few := by
  refine ⟨?_, ho.used⟩
  have hrefs : pending + ({ ft with held := object :: ft.held } : FdTable).refs =
      object ::ₘ pending + ft.refs := by
    change pending + (_ + (((object :: ft.held : List Nat) : Multiset Nat) + _)) = _
    rw [← Multiset.cons_coe, Multiset.cons_add, Multiset.add_cons, Multiset.add_cons,
      Multiset.cons_add]
    rfl
  rw [hrefs]
  exact ho.exact

theorem lose_owes (ho : ft.Owes (object ::ₘ pending) few) :
    ({ ft with lost := object :: ft.lost } : FdTable).Owes pending few := by
  refine ⟨?_, ho.used⟩
  have hrefs : pending + ({ ft with lost := object :: ft.lost } : FdTable).refs =
      object ::ₘ pending + ft.refs := by
    change pending + (_ + (_ + ((object :: ft.lost : List Nat) : Multiset Nat))) = _
    rw [← Multiset.cons_coe, Multiset.add_cons, Multiset.add_cons, Multiset.add_cons,
      Multiset.cons_add]
    rfl
  rw [hrefs]
  exact ho.exact

theorem unhold_refs (hmem : object ∈ ft.held) :
    ft.refs = object ::ₘ ({ ft with held := ft.held.erase object } : FdTable).refs := by
  have hheld : (ft.held : Multiset Nat) = object ::ₘ (ft.held.erase object : List Nat) := by
    rw [Multiset.cons_coe]
    exact Multiset.coe_eq_coe.mpr (List.perm_cons_erase hmem)
  rw [FdTable.refs.eq_def ft, hheld, Multiset.cons_add, Multiset.add_cons]
  rfl

theorem unhold_owes (hmem : object ∈ ft.held) (ho : ft.Owes pending few) :
    ({ ft with held := ft.held.erase object } : FdTable).Owes (object ::ₘ pending) few := by
  refine ⟨?_, ho.used⟩
  rw [Multiset.cons_add, ← Multiset.add_cons, ← unhold_refs hmem]
  exact ho.exact

-- A table grows by free entries, or stays as it is.
theorem grow_eq {min : Nat} {incr : BitVec 64} {answer : Except Errno Unit}
    (h : fdTableGrow ft min incr memory = some (answer, ft')) :
    ∃ more, ft' = { ft with entries := ft.entries ++ List.replicate more none } := by
  have hsame : ft = { ft with entries := ft.entries ++ List.replicate 0 none } := by
    rw [List.replicate_zero, List.append_nil]
  rw [fdTableGrow.eq_def] at h
  simp only at h
  split at h
  · generalize doubled min _ 65 _ = size at h
    cases size with
    | none => cases h
    | some size =>
        cases memory with
        | error e =>
            obtain ⟨-, rfl⟩ := Prod.mk.inj (Option.some.inj h)
            exact ⟨0, hsame⟩
        | ok _ => exact ⟨_, (Prod.mk.inj (Option.some.inj h)).2.symm⟩
  · obtain ⟨-, rfl⟩ := Prod.mk.inj (Option.some.inj h)
    exact ⟨0, hsame⟩

theorem getEntry_ok (h : fdTableGetEntry ft fd rightsBase rightsInheriting = .ok fe) :
    ft.entries[fd]? = some (some fe) := by
  rw [fdTableGetEntry] at h
  split at h
  · rename_i entry hentry
    split at h
    · cases h
    · rw [hentry, Except.ok.inj h]
  · cases h

theorem object_mem_refs (h : ft.entries[fd]? = some (some fe)) : fe.object ∈ ft.refs := by
  rw [FdTable.refs, objectsOf_remove h]
  exact Multiset.mem_add.mpr (.inl (Multiset.mem_cons_self _ _))

-- The table with a new object and more free entries.
def FdTable.enlarged (ft : FdTable) (more : Nat) : FdTable :=
  { ft with
    entries := ft.entries ++ List.replicate more none
    objects := ft.objects.create }

-- What an insertion can come to. A reference is lost when the random numbers fail.
inductive Inserted (ft : FdTable) (rightsBase rightsInheriting : BitVec 64) (drawn : Prop) :
    FdTable → Prop
  | refused : Inserted ft rightsBase rightsInheriting drawn ft
  | freed (more : Nat) : Inserted ft rightsBase rightsInheriting drawn
      (fdObjectRelease (ft.enlarged more) ft.objects.next)
  | lost (more : Nat) (h : ¬drawn) : Inserted ft rightsBase rightsInheriting drawn
      { ft.enlarged more with lost := ft.objects.next :: ft.lost }
  | attached (more fd : Nat) (h : (ft.enlarged more).entries[fd]? = some none) :
      Inserted ft rightsBase rightsInheriting drawn
        (fdTableAttach (ft.enlarged more) fd ⟨ft.objects.next, rightsBase, rightsInheriting⟩)

theorem grow_enlarged {min : Nat} {incr : BitVec 64} {answer : Except Errno Unit}
    (h : fdTableGrow { ft with objects := ft.objects.create } min incr memory =
      some (answer, ft')) : ∃ more, ft' = ft.enlarged more := grow_eq h

theorem enlarged_zero : ft.enlarged 0 = { ft with objects := ft.objects.create } := by
  rw [FdTable.enlarged, List.replicate_zero, List.append_nil]

theorem insertFd_inserted {object : Making} {pick answer : Except Errno Nat}
    (h : fdTableInsertFd ft rightsBase rightsInheriting object memory pick = some (answer, ft')) :
    Inserted ft rightsBase rightsInheriting (∃ fd, pick = .ok fd) ft' := by
  rw [fdTableInsertFd.eq_def] at h
  cases object with
  | noMemory =>
      obtain ⟨-, rfl⟩ := Prod.mk.inj (Option.some.inj h)
      exact .refused
  | noLock =>
      obtain ⟨-, rfl⟩ := Prod.mk.inj (Option.some.inj h)
      rw [← enlarged_zero]
      exact .freed 0
  | made =>
      simp only [fdTableInsert] at h
      split at h
      · cases h
      · rename_i hgrow
        obtain ⟨more, rfl⟩ := grow_enlarged hgrow
        obtain ⟨-, rfl⟩ := Prod.mk.inj (Option.some.inj h)
        exact .freed more
      · rename_i hgrow
        obtain ⟨more, rfl⟩ := grow_enlarged hgrow
        split at h
        · obtain ⟨-, rfl⟩ := Prod.mk.inj (Option.some.inj h)
          refine .lost more ?_
          rintro ⟨fd, hpick⟩
          cases hpick
        · split at h
          · rename_i hfree
            obtain ⟨-, rfl⟩ := Prod.mk.inj (Option.some.inj h)
            exact .attached more _ hfree
          · cases h

theorem insertExisting_inserted {object : Making} {answer : Bool}
    (h : fdTableInsertExisting ft fd rightsBase rightsInheriting object memory =
      some (answer, ft')) : Inserted ft rightsBase rightsInheriting True ft' := by
  rw [fdTableInsertExisting.eq_def] at h
  cases object with
  | noMemory =>
      obtain ⟨-, rfl⟩ := Prod.mk.inj (Option.some.inj h)
      exact .refused
  | noLock =>
      obtain ⟨-, rfl⟩ := Prod.mk.inj (Option.some.inj h)
      rw [← enlarged_zero]
      exact .freed 0
  | made =>
      simp only at h
      split at h
      · cases h
      · rename_i hgrow
        obtain ⟨more, rfl⟩ := grow_enlarged hgrow
        obtain ⟨-, rfl⟩ := Prod.mk.inj (Option.some.inj h)
        exact .freed more
      · rename_i hgrow
        obtain ⟨more, rfl⟩ := grow_enlarged hgrow
        split at h
        · rename_i hfree
          obtain ⟨-, rfl⟩ := Prod.mk.inj (Option.some.inj h)
          exact .attached more fd hfree
        · cases h

theorem enlarged_owes (more : Nat) (ho : ft.Owes pending few) :
    (ft.enlarged more).Owes (ft.objects.next ::ₘ pending) few := by
  have hcreated := create_owes ho
  refine ⟨?_, ?_⟩
  · rw [FdTable.refs, FdTable.enlarged]
    simp only [objectsOf_append]
    exact hcreated.exact
  · rw [FdTable.enlarged]
    simp only [objectsOf_append]
    exact ho.used

theorem Inserted.owes {drawn : Prop} (h : Inserted ft rightsBase rightsInheriting drawn ft')
    (ho : ft.Owes pending few) : ft'.Owes pending few := by
  cases h with
  | refused => exact ho
  | freed more =>
      refine release_owes (enlarged_owes more ho) fun _ => ?_
      -- nothing else refers to the new object
      have hnew : ft.objects.next ∉ pending + ft.refs := fun hmem =>
        Nat.lt_irrefl _ (ho.exact.created _ hmem)
      have hsame : (ft.enlarged more).refs = ft.refs := by
        rw [FdTable.refs, FdTable.enlarged]
        simp only [objectsOf_append]
        rfl
      rw [hsame, Multiset.count_eq_zero.mpr hnew]
      exact Nat.two_pow_pos 32
  | lost more _ => exact lose_owes (enlarged_owes more ho)
  | attached more fd hfree => exact attach_owes hfree (enlarged_owes more ho)

-- What renumbering can come to.
inductive Renumbered (ft : FdTable) (src dst : Nat) : FdTable → Prop
  | refused : Renumbered ft src dst ft
  | moved {feFrom feTo : FdEntry} (hsrc : ft.entries[src]? = some (some feFrom))
      (hdst : ft.entries[dst]? = some (some feTo)) (hne : src ≠ dst) {moved : FdTable}
      (hmoved : moved = fdObjectRelease (fdTableDetach (fdObjectRelease (fdTableAttach
        (refcountAcquire (fdTableDetach ft dst) feFrom.object) dst feFrom) feTo.object) src)
        feFrom.object) :
      Renumbered ft src dst
        { moved with used := moved.used - 1, renumbered := moved.renumbered + 1 }

theorem renumber_renumbered {src dst : Nat} {answer : Except Errno Unit}
    (h : fdRenumber ft src dst = some (answer, ft')) : Renumbered ft src dst ft' := by
  rw [fdRenumber] at h
  split at h
  · obtain ⟨-, rfl⟩ := Prod.mk.inj (Option.some.inj h)
    exact .refused
  · obtain ⟨-, rfl⟩ := Prod.mk.inj (Option.some.inj h)
    exact .refused
  · rename_i hsrc hdst
    split at h
    · cases h
    · rename_i hne
      obtain ⟨-, rfl⟩ := Prod.mk.inj (Option.some.inj h)
      exact .moved (getEntry_ok hsrc) (getEntry_ok hdst) hne rfl

theorem Renumbered.owes {src dst : Nat} (h : Renumbered ft src dst ft') (hfew : few → ft.Few)
    (ho : ft.Owes 0 few) : ft'.Owes 0 few := by
  cases h with
  | refused => exact ho
  | @moved feFrom feTo hsrc hdst hne moved hmoved =>
      have hlt : dst < ft.entries.length := (List.getElem?_eq_some_iff.mp hdst).1
      -- the entry that is renumbered stays where it is until the end
      have hsrc1 : (fdTableDetach ft dst).entries[src]? = some (some feFrom) := by
        rw [fdTableDetach, List.getElem?_set_ne (Ne.symm hne)]
        exact hsrc
      have hdst1 : (refcountAcquire (fdTableDetach ft dst) feFrom.object).entries[dst]? =
          some none := by
        change (fdTableDetach ft dst).entries[dst]? = _
        rw [fdTableDetach, List.getElem?_set_self hlt]
      have howes1 := detach_owes hdst ho
      have howes2 := acquire_owes (Multiset.mem_add.mpr (.inr (object_mem_refs hsrc1))) howes1
      have howes3 : (fdTableAttach (refcountAcquire (fdTableDetach ft dst) feFrom.object) dst
          feFrom).Owes {feTo.object} few := attach_owes hdst1 howes2
      -- a reference to the one object has taken the place of one to the other
      have hrefs3 : (fdTableAttach (refcountAcquire (fdTableDetach ft dst) feFrom.object) dst
          feFrom).refs = _ := attach_refs hdst1
      have hrefs1 : ft.refs = feTo.object ::ₘ
          (refcountAcquire (fdTableDetach ft dst) feFrom.object).refs := detach_refs hdst
      have howes4 := release_owes howes3 fun hcase => by
        have hbound := hfew hcase feTo.object
        rw [hrefs1, Multiset.count_cons_self] at hbound
        rw [zero_add, hrefs3, Multiset.count_cons]
        split <;> omega
      have hsrc4 : (fdObjectRelease (fdTableAttach (refcountAcquire (fdTableDetach ft dst)
          feFrom.object) dst feFrom) feTo.object).entries[src]? = some (some feFrom) := by
        change ((fdTableDetach ft dst).entries.set dst (some feFrom))[src]? = _
        rw [List.getElem?_set_ne (Ne.symm hne)]
        exact hsrc1
      have hrefs5 := detach_refs hsrc4
      have howes6 := release_owes (detach_owes hsrc4 howes4) fun hcase => by
        have hbound := hfew hcase feFrom.object
        have hback := (Multiset.cons_inj_right _).mp (hrefs3.symm.trans hrefs5)
        rw [zero_add, ← hback]
        exact (Multiset.count_le_of_le _ (hrefs1 ▸ Multiset.le_cons_self _ _)).trans_lt hbound
      rw [← hmoved] at howes6
      refine ⟨howes6.exact, ?_⟩
      have hused := howes6.used
      simp only
      rw [BitVec.ofNat_add, ← hused]
      generalize BitVec.ofNat 64 _ = drift
      bv_omega

theorem setRights_owes (ho : ft.Owes pending few) :
    (fdFdstatSetRights ft fd rightsBase rightsInheriting).2.Owes pending few := by
  rw [fdFdstatSetRights]
  split
  · exact ho
  · rename_i fe hentry
    replace hentry := getEntry_ok hentry
    -- the entry is taken out and put back, with other rights
    have hlt : fd < ft.entries.length := (List.getElem?_eq_some_iff.mp hentry).1
    have hfree : (fdTableDetach ft fd).entries[fd]? = some none := by
      rw [fdTableDetach, List.getElem?_set_self hlt]
    have hout := detach_owes hentry ho
    have hback : (fdTableAttach (fdTableDetach ft fd) fd
        ⟨fe.object, rightsBase, rightsInheriting⟩).Owes pending few := attach_owes hfree hout
    rw [fdTableAttach, fdTableDetach] at hback
    simp only [List.set_set, BitVec.sub_add_cancel] at hback
    exact hback

theorem step_owes {call : FdCall} (h : call.step ft = some ft') (hfew : few → ft.Few)
    (ho : ft.Owes 0 few) : ft'.Owes 0 few := by
  cases call with
  | insertExisting fd rightsBase rightsInheriting object memory =>
      obtain ⟨⟨answer, ft'⟩, hinsert, rfl⟩ := Option.map_eq_some_iff.mp h
      exact (insertExisting_inserted hinsert).owes ho
  | insertFd rightsBase rightsInheriting object memory pick =>
      obtain ⟨⟨answer, ft'⟩, hinsert, rfl⟩ := Option.map_eq_some_iff.mp h
      exact (insertFd_inserted hinsert).owes ho
  | get fd rightsBase rightsInheriting =>
      obtain rfl := Option.some.inj h
      rw [fdObjectGet]
      split
      · exact ho
      · rename_i fe hentry
        have hmem := object_mem_refs (getEntry_ok hentry)
        exact hold_owes (acquire_owes (Multiset.mem_add.mpr (.inr hmem)) ho)
  | release object =>
      rw [FdCall.step, giveBack] at h
      split at h
      · rename_i hmem
        obtain rfl := Option.some.inj h
        refine release_owes (unhold_owes hmem ho) fun hcase => ?_
        rw [zero_add]
        exact (Multiset.count_le_of_le _ (unhold_refs hmem ▸ Multiset.le_cons_self _ _)).trans_lt
          (hfew hcase object)
      · cases h
  | close fd =>
      obtain rfl := Option.some.inj h
      rw [fdClose]
      split
      · exact ho
      · rename_i fe hentry
        exact hold_owes (detach_owes (getEntry_ok hentry) ho)
  | renumber src dst =>
      obtain ⟨⟨answer, ft'⟩, hrenumber, rfl⟩ := Option.map_eq_some_iff.mp h
      exact (renumber_renumbered hrenumber).owes hfew ho
  | setRights fd rightsBase rightsInheriting =>
      obtain rfl := Option.some.inj h
      exact setRights_owes ho

theorem init_owes : fdTableInit.Owes 0 few :=
  ⟨⟨fun _ => rfl, fun _ hlt => absurd hlt (Nat.not_lt_zero _),
    fun _ _ hmem => absurd hmem List.not_mem_nil, fun _ => List.nodup_nil,
    fun _ hmem => absurd hmem (Multiset.notMem_zero _)⟩, rfl⟩

theorem run_owes (few : Prop) {calls : List FdCall} (h : ft.run calls = some ft')
    (hfew : few → ∀ done mid, done <+: calls → ft.run done = some mid → mid.Few)
    (ho : ft.Owes 0 few) : ft'.Owes 0 few := by
  induction calls generalizing ft with
  | nil =>
      obtain rfl := Option.some.inj h
      exact ho
  | cons call calls ih =>
      obtain ⟨next, hstep, hrest⟩ := Option.bind_eq_some_iff.mp h
      refine ih hrest (fun hcase done mid hdone hmid => ?_)
        (step_owes hstep (fun hcase => hfew hcase [] ft List.nil_prefix rfl) ho)
      refine hfew hcase (call :: done) mid (List.cons_prefix_cons.mpr ⟨rfl, hdone⟩) ?_
      rw [FdTable.run, hstep]
      exact hmid

theorem run_exact (few : Prop) {calls : List FdCall} (h : fdTableInit.run calls = some ft)
    (hfew : few → ∀ done mid, done <+: calls → fdTableInit.run done = some mid → mid.Few) :
    ft.objects.Exact ft.refs few := by
  have hexact := (run_owes few h hfew init_owes).exact
  rwa [zero_add] at hexact

end Counted

end Watz.Wasi
