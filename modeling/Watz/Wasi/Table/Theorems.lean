import Watz.Wasi.Table

namespace Watz.Wasi

section Runs

variable {ft ft' : FdTable} {calls : List FdCall}

-- Whatever the order of the calls: as long as the references to an object fit its counter, it
-- counts the entries and the calls that refer to it, and it is closed once, when the last of them
-- has gone.
theorem objects_closed_once (h : fdTableInit.run calls = some ft)
    (hfew : ∀ done mid, done <+: calls → fdTableInit.run done = some mid → mid.Few) :
    ft.objects.closed.Nodup ∧ ∀ object,
      (ft.objects.count object).toNat =
        (objectsOf ft.entries).count object + (ft.held.count object + ft.lost.count object) ∧
      (object ∈ ft.objects.closed ↔ object < ft.objects.next ∧
        object ∉ objectsOf ft.entries ∧ object ∉ ft.held ∧ object ∉ ft.lost) := by
  have hexact := run_exact True h fun _ => hfew
  refine ⟨hexact.once trivial, fun object => ⟨?_, ?_⟩⟩
  · have hbound := hfew calls ft List.prefix_rfl h object
    rw [hexact.count, BitVec.toNat_ofNat, Nat.mod_eq_of_lt hbound, FdTable.refs,
      Multiset.count_add, Multiset.count_add, Multiset.coe_count, Multiset.coe_count,
      Multiset.coe_count]
  · have hrefs : object ∉ ft.refs ↔
        object ∉ objectsOf ft.entries ∧ object ∉ ft.held ∧ object ∉ ft.lost := by
      rw [FdTable.refs, Multiset.mem_add, Multiset.mem_add, Multiset.mem_coe, Multiset.mem_coe,
        Multiset.mem_coe, not_or, not_or]
    rw [← hrefs]
    exact ⟨hexact.closed trivial object, fun hgone => hexact.gone object hgone.1 hgone.2⟩

theorem doubled_enough {need : BitVec 64} (hneed : need.toNat ≤ 2 ^ 63) {rounds size : Nat}
    (hpos : 0 < size) (hreach : need.toNat ≤ size * 2 ^ rounds) :
    ∃ larger, doubled 0 need (rounds + 1) size = some larger ∧ need.toNat ≤ larger ∧
      size ≤ larger := by
  induction rounds generalizing size with
  | zero =>
      rw [doubled, if_neg (by omega)]
      exact ⟨size, rfl, by omega, Nat.le_refl _⟩
  | succ rounds ih =>
      rw [doubled]
      by_cases hlt : size < need.toNat
      · have hsmall : size * 2 % 2 ^ 64 = size * 2 := Nat.mod_eq_of_lt (by omega)
        rw [if_pos (.inr hlt), hsmall]
        have hreach' : need.toNat ≤ size * 2 * 2 ^ rounds := by
          rw [Nat.mul_assoc, ← Nat.pow_succ']
          exact hreach
        obtain ⟨larger, hsome, henough, hle⟩ := ih (Nat.mul_pos hpos Nat.two_pos) hreach'
        exact ⟨larger, hsome, henough, by omega⟩
      · rw [if_neg (by omega)]
        exact ⟨size, rfl, by omega, Nat.le_refl _⟩

-- What growing for one more entry gives, when there is memory.
theorem grow_one (ft : FdTable) (hneed : ((ft.used + 1) * 2).toNat ≤ 2 ^ 63) :
    ∃ more, fdTableGrow ft 0 1 (.ok ()) =
        some (.ok (), { ft with entries := ft.entries ++ List.replicate more none }) ∧
      0 < ft.entries.length + more ∧ ((ft.used + 1) * 2).toNat ≤ ft.entries.length + more ∧
      (0 < ft.entries.length → ((ft.used + 1) * 2).toNat ≤ ft.entries.length → more = 0) := by
  rw [fdTableGrow.eq_def]
  simp only
  by_cases hgrow : ft.entries.length ≤ 0 ∨ ft.entries.length < ((ft.used + 1) * 2).toNat
  · rw [if_pos hgrow]
    have hpos : 0 < if ft.entries.length = 0 then 1 else ft.entries.length := by
      split <;> omega
    have hle : ft.entries.length ≤ if ft.entries.length = 0 then 1 else ft.entries.length := by
      split <;> omega
    generalize (if ft.entries.length = 0 then 1 else ft.entries.length) = size at hpos hle ⊢
    obtain ⟨larger, hsome, henough, hlarger⟩ :=
      doubled_enough hneed hpos (show _ ≤ size * 2 ^ 64 by omega)
    rw [hsome]
    exact ⟨larger - ft.entries.length, rfl, by omega, by omega, by omega⟩
  · rw [if_neg hgrow]
    refine ⟨0, ?_, by omega, by omega, fun _ _ => rfl⟩
    rw [List.replicate_zero, List.append_nil]

theorem insertFd_eq_of_grow {rightsBase rightsInheriting : BitVec 64} {fd more : Nat}
    (h : fdTableGrow { ft with objects := ft.objects.create } 0 1 (.ok ()) =
      some (.ok (), { ft with
        objects := ft.objects.create
        entries := ft.entries ++ List.replicate more none })) :
    (∃ ft', fdTableInsertFd ft rightsBase rightsInheriting .made (.ok ()) (.ok fd) =
      some (.ok fd, ft')) ↔ (ft.entries ++ List.replicate more none)[fd]? = some none := by
  rw [fdTableInsertFd.eq_def]
  simp only [fdTableInsert, h]
  constructor
  · rintro ⟨ft', hinsert⟩
    split at hinsert
    · assumption
    · cases hinsert
  · intro hfree
    rw [hfree]
    exact ⟨_, rfl⟩

-- The live entries as `used` has them.
theorem need_eq (h : fdTableInit.run calls = some ft) (hsize : ft.entries.length < 2 ^ 62)
    (hdrift : ft.renumbered ≤ (objectsOf ft.entries).length) :
    ((ft.used + 1) * 2).toNat = 2 * ((objectsOf ft.entries).length - ft.renumbered + 1) := by
  have hlive : (objectsOf ft.entries).length ≤ ft.entries.length := length_objectsOf_le
  have hused := congrArg BitVec.toNat (run_owes False h False.elim init_owes).used
  rw [BitVec.toNat_add, BitVec.toNat_ofNat, BitVec.toNat_ofNat] at hused
  have hlt := ft.used.isLt
  rw [BitVec.toNat_mul, BitVec.toNat_add, show (1 : BitVec 64).toNat = 1 from rfl,
    show (2 : BitVec 64).toNat = 2 from rfl]
  omega

-- With a free entry, or in a table that grows, an insertion can end.
theorem inserts_of_room (h : fdTableInit.run calls = some ft) (hsize : ft.entries.length < 2 ^ 62)
    (hdrift : ft.renumbered ≤ (objectsOf ft.entries).length)
    (rightsBase rightsInheriting : BitVec 64)
    (hroom : (objectsOf ft.entries).length < ft.entries.length ∨
      ft.entries.length < 2 * ((objectsOf ft.entries).length - ft.renumbered + 1)) :
    ∃ fd ft', fdTableInsertFd ft rightsBase rightsInheriting .made (.ok ()) (.ok fd) =
      some (.ok fd, ft') := by
  have hlive : (objectsOf ft.entries).length ≤ ft.entries.length := length_objectsOf_le
  have hneed := need_eq h hsize hdrift
  obtain ⟨more, hgrow, hpos, henough, -⟩ :=
    grow_one { ft with objects := ft.objects.create } (hneed.trans_le (by omega))
  simp only [hneed] at henough hpos
  have hfree : (objectsOf (ft.entries ++ List.replicate more none)).length <
      (ft.entries ++ List.replicate more none).length := by
    rw [objectsOf_append, List.length_append, List.length_replicate]
    omega
  obtain ⟨fd, hfd⟩ := exists_free hfree
  exact ⟨fd, (insertFd_eq_of_grow hgrow).mpr hfd⟩

-- An insertion ends exactly when there is a free entry or the table grows, and the table only
-- grows when the count of the entries asks for it.
theorem insertion_ends_iff (h : fdTableInit.run calls = some ft)
    (hsize : ft.entries.length < 2 ^ 62)
    (hdrift : ft.renumbered ≤ (objectsOf ft.entries).length)
    (rightsBase rightsInheriting : BitVec 64) :
    (∃ fd ft', fdTableInsertFd ft rightsBase rightsInheriting .made (.ok ()) (.ok fd) =
      some (.ok fd, ft')) ↔
    (objectsOf ft.entries).length < ft.entries.length ∨
      ft.entries.length < 2 * ((objectsOf ft.entries).length - ft.renumbered + 1) := by
  have hlive : (objectsOf ft.entries).length ≤ ft.entries.length := length_objectsOf_le
  have hneed := need_eq h hsize hdrift
  refine ⟨?_, inserts_of_room h hsize hdrift rightsBase rightsInheriting⟩
  rintro ⟨fd, hinsert⟩
  obtain ⟨more, hgrow, -, -, hnone⟩ :=
    grow_one { ft with objects := ft.objects.create } (hneed.trans_le (by omega))
  simp only [hneed] at hnone
  have hfree := (insertFd_eq_of_grow hgrow).mp hinsert
  by_contra hfull
  rw [not_or] at hfull
  have hstays : more = 0 := hnone (by omega) (by omega)
  subst hstays
  rw [List.replicate_zero, List.append_nil] at hfree
  have hless := length_objectsOf (objectsOf_insert hfree ⟨0, 0, 0⟩)
  have hbound : (objectsOf (ft.entries.set fd (some ⟨0, 0, 0⟩))).length ≤ _ :=
    length_objectsOf_le
  rw [List.length_set] at hbound
  omega

end Runs

section Rights

variable {ft ft' ft1 : FdTable} {fe fe' : FdEntry} {fd : Nat}
  {rightsBase rightsInheriting : BitVec 64}

-- Rights that are none but those of another entry.
def Covered (rights of : BitVec 64) : Prop := ~~~of &&& rights = 0#64

theorem Covered.refl (rights : BitVec 64) : Covered rights rights := by
  rw [Covered, BitVec.and_comm, BitVec.and_not_self]
  rfl

theorem Covered.trans {first second third : BitVec 64} (h : Covered first second)
    (h' : Covered second third) : Covered first third := by
  refine BitVec.eq_of_getLsbD_eq fun i hi => ?_
  have hbit := congrArg (fun v => v.getLsbD i) h
  have hbit' := congrArg (fun v => v.getLsbD i) h'
  simp only [BitVec.getLsbD_and, BitVec.getLsbD_not, hi, decide_true, Bool.true_and,
    BitVec.getLsbD_zero] at hbit hbit' ⊢
  cases hfirst : first.getLsbD i
  · rw [Bool.and_false]
  · cases hsecond : second.getLsbD i
    · rw [hfirst, hsecond] at hbit
      cases hbit
    · rw [hsecond] at hbit'
      exact hbit'

-- The same object with no more rights.
structure FdEntry.Within (fe' fe : FdEntry) : Prop where
  object : fe'.object = fe.object
  base : Covered fe'.rightsBase fe.rightsBase
  inheriting : Covered fe'.rightsInheriting fe.rightsInheriting

theorem FdEntry.Within.refl (fe : FdEntry) : fe.Within fe := ⟨rfl, .refl _, .refl _⟩

-- Each entry for an object that is not new goes back to an entry for it with all of its rights.
structure Restricts (ft ft' : FdTable) : Prop where
  entries : ∀ fe', some fe' ∈ ft'.entries →
    (∃ fe, some fe ∈ ft.entries ∧ fe'.Within fe) ∨ ft.objects.next ≤ fe'.object
  next : ft.objects.next ≤ ft'.objects.next

theorem Restricts.trans (h : Restricts ft ft1) (h' : Restricts ft1 ft') : Restricts ft ft' := by
  refine ⟨fun fe' hmem => ?_, h.next.trans h'.next⟩
  rcases h'.entries fe' hmem with ⟨fe1, hmem1, hwithin1⟩ | hnew
  · rcases h.entries fe1 hmem1 with ⟨fe, hfe, hwithin⟩ | hnew
    · exact .inl ⟨fe, hfe, hwithin1.object.trans hwithin.object,
        hwithin1.base.trans hwithin.base, hwithin1.inheriting.trans hwithin.inheriting⟩
    · exact .inr (hwithin1.object ▸ hnew)
  · exact .inr (h.next.trans hnew)

theorem restricts_of_subset (h : ∀ fe', some fe' ∈ ft'.entries → some fe' ∈ ft.entries)
    (hnext : ft.objects.next ≤ ft'.objects.next) : Restricts ft ft' :=
  ⟨fun fe' hmem => .inl ⟨fe', h fe' hmem, .refl fe'⟩, hnext⟩

theorem Restricts.refl : Restricts ft ft := restricts_of_subset (fun _ => id) (Nat.le_refl _)

theorem mem_detach (h : some fe' ∈ (fdTableDetach ft fd).entries) : some fe' ∈ ft.entries := by
  rcases List.mem_or_eq_of_mem_set h with hmem | heq
  · exact hmem
  · cases heq

theorem mem_attach (h : some fe' ∈ (fdTableAttach ft fd fe).entries) :
    some fe' ∈ ft.entries ∨ fe' = fe :=
  (List.mem_or_eq_of_mem_set h).imp_right Option.some.inj

theorem enlarged_restricts (ft : FdTable) (more : Nat) : Restricts ft (ft.enlarged more) := by
  refine restricts_of_subset (fun fe' hmem => ?_) (Nat.le_succ _)
  rcases List.mem_append.mp hmem with hmem | hmem
  · exact hmem
  · cases (List.mem_replicate.mp hmem).2

theorem Inserted.restricts {drawn : Prop}
    (h : Inserted ft rightsBase rightsInheriting drawn ft') : Restricts ft ft' := by
  cases h with
  | refused => exact .refl
  | freed more =>
      have hmore := enlarged_restricts ft more
      exact ⟨hmore.entries, hmore.next⟩
  | lost more _ =>
      have hmore := enlarged_restricts ft more
      exact ⟨hmore.entries, hmore.next⟩
  | attached more fd _ =>
      have hmore := enlarged_restricts ft more
      refine ⟨fun fe' hmem => ?_, hmore.next⟩
      rcases mem_attach hmem with hmem | rfl
      · exact hmore.entries fe' hmem
      · exact .inr (Nat.le_refl _)

-- A number that is renumbered takes its rights along.
theorem Renumbered.restricts {src dst : Nat} (h : Renumbered ft src dst ft') :
    Restricts ft ft' := by
  cases h with
  | refused => exact .refl
  | moved hsrc hdst hne hmoved =>
      subst hmoved
      refine restricts_of_subset (fun fe' hmem => ?_) (Nat.le_refl _)
      rcases mem_attach (mem_detach hmem) with hmem | rfl
      · exact mem_detach hmem
      · exact List.mem_of_getElem? hsrc

theorem getEntry_covered (h : fdTableGetEntry ft fd rightsBase rightsInheriting = .ok fe) :
    Covered rightsBase fe.rightsBase ∧ Covered rightsInheriting fe.rightsInheriting := by
  rw [fdTableGetEntry] at h
  split at h
  · split at h
    · cases h
    · rename_i hrights
      obtain rfl := Except.ok.inj h
      rw [not_or, not_not, not_not] at hrights
      exact hrights
  · cases h

theorem setRights_restricts :
    Restricts ft (fdFdstatSetRights ft fd rightsBase rightsInheriting).2 := by
  rw [fdFdstatSetRights]
  split
  · exact .refl
  · rename_i fe hentry
    obtain ⟨hbase, hinheriting⟩ := getEntry_covered hentry
    refine ⟨fun fe' hmem => .inl ?_, Nat.le_refl _⟩
    rcases List.mem_or_eq_of_mem_set hmem with hmem | heq
    · exact ⟨fe', hmem, .refl fe'⟩
    · obtain rfl := Option.some.inj heq
      exact ⟨fe, List.mem_of_getElem? (getEntry_ok hentry), rfl, hbase, hinheriting⟩

theorem step_restricts {call : FdCall} (h : call.step ft = some ft') : Restricts ft ft' := by
  cases call with
  | insertExisting fd rightsBase rightsInheriting object memory =>
      obtain ⟨⟨answer, ft'⟩, hinsert, rfl⟩ := Option.map_eq_some_iff.mp h
      exact (insertExisting_inserted hinsert).restricts
  | insertFd rightsBase rightsInheriting object memory pick =>
      obtain ⟨⟨answer, ft'⟩, hinsert, rfl⟩ := Option.map_eq_some_iff.mp h
      exact (insertFd_inserted hinsert).restricts
  | get fd rightsBase rightsInheriting =>
      obtain rfl := Option.some.inj h
      rw [fdObjectGet]
      split <;> exact restricts_of_subset (fun _ => id) (Nat.le_refl _)
  | release object =>
      rw [FdCall.step, giveBack] at h
      split at h
      · obtain rfl := Option.some.inj h
        exact restricts_of_subset (fun _ => id) (Nat.le_refl _)
      · cases h
  | close fd =>
      obtain rfl := Option.some.inj h
      rw [fdClose]
      split
      · exact .refl
      · exact restricts_of_subset (fun _ => mem_detach) (Nat.le_refl _)
  | renumber src dst =>
      obtain ⟨⟨answer, ft'⟩, hrenumber, rfl⟩ := Option.map_eq_some_iff.mp h
      exact (renumber_renumbered hrenumber).restricts
  | setRights fd rightsBase rightsInheriting =>
      obtain rfl := Option.some.inj h
      exact setRights_restricts

-- No calls give back rights that have been dropped: whatever number an object comes to be under,
-- it has no rights that no entry for it had before.
theorem rights_never_grow {calls : List FdCall} (h : ft.run calls = some ft')
    (hmem : some fe' ∈ ft'.entries) (hold : fe'.object < ft.objects.next) :
    ∃ fe, some fe ∈ ft.entries ∧ fe'.Within fe := by
  have hrun : Restricts ft ft' := by
    clear hmem hold
    induction calls generalizing ft with
    | nil =>
        obtain rfl := Option.some.inj h
        exact .refl
    | cons call calls ih =>
        obtain ⟨next, hstep, hrest⟩ := Option.bind_eq_some_iff.mp h
        exact (step_restricts hstep).trans (ih hrest)
  rcases hrun.entries fe' hmem with hwithin | hnew
  · exact hwithin
  · exact absurd hold (Nat.not_lt.mpr hnew)

end Rights

section Accounts

variable {ft ft' : FdTable} {calls : List FdCall}

-- The random numbers of an insertion do not fail.
def FdCall.Drawn : FdCall → Prop
  | .insertFd _ _ _ _ pick => ∃ fd, pick = .ok fd
  | _ => True

def FdCall.Renumbers : FdCall → Prop
  | .renumber _ _ => True
  | _ => False

theorem Inserted.accounts {rightsBase rightsInheriting : BitVec 64} {drawn : Prop}
    (h : Inserted ft rightsBase rightsInheriting drawn ft') :
    (drawn → ft'.lost = ft.lost) ∧ ft'.renumbered = ft.renumbered := by
  cases h with
  | refused => exact ⟨fun _ => rfl, rfl⟩
  | freed more => exact ⟨fun _ => rfl, rfl⟩
  | lost more hnot => exact ⟨fun hdrawn => absurd hdrawn hnot, rfl⟩
  | attached more fd _ => exact ⟨fun _ => rfl, rfl⟩

theorem Renumbered.lost_eq {src dst : Nat} (h : Renumbered ft src dst ft') :
    ft'.lost = ft.lost := by
  cases h with
  | refused => rfl
  | moved _ _ _ hmoved => rw [hmoved]; rfl

-- References are lost by failing random numbers only, and entries are counted twice by
-- `fd_renumber` only.
theorem step_accounts {call : FdCall} (h : call.step ft = some ft') :
    (call.Drawn → ft'.lost = ft.lost) ∧ (¬call.Renumbers → ft'.renumbered = ft.renumbered) := by
  cases call with
  | insertExisting fd rightsBase rightsInheriting object memory =>
      obtain ⟨⟨answer, ft'⟩, hinsert, rfl⟩ := Option.map_eq_some_iff.mp h
      obtain ⟨hlost, hrenumbered⟩ := (insertExisting_inserted hinsert).accounts
      exact ⟨fun _ => hlost trivial, fun _ => hrenumbered⟩
  | insertFd rightsBase rightsInheriting object memory pick =>
      obtain ⟨⟨answer, ft'⟩, hinsert, rfl⟩ := Option.map_eq_some_iff.mp h
      obtain ⟨hlost, hrenumbered⟩ := (insertFd_inserted hinsert).accounts
      exact ⟨hlost, fun _ => hrenumbered⟩
  | get fd rightsBase rightsInheriting =>
      obtain rfl := Option.some.inj h
      rw [fdObjectGet]
      split <;> exact ⟨fun _ => rfl, fun _ => rfl⟩
  | release object =>
      rw [FdCall.step, giveBack] at h
      split at h
      · obtain rfl := Option.some.inj h
        exact ⟨fun _ => rfl, fun _ => rfl⟩
      · cases h
  | close fd =>
      obtain rfl := Option.some.inj h
      rw [fdClose]
      split <;> exact ⟨fun _ => rfl, fun _ => rfl⟩
  | renumber src dst =>
      obtain ⟨⟨answer, ft'⟩, hrenumber, rfl⟩ := Option.map_eq_some_iff.mp h
      exact ⟨fun _ => (renumber_renumbered hrenumber).lost_eq, fun hnot => absurd trivial hnot⟩
  | setRights fd rightsBase rightsInheriting =>
      obtain rfl := Option.some.inj h
      rw [fdFdstatSetRights]
      split <;> exact ⟨fun _ => rfl, fun _ => rfl⟩

-- What each of these calls leaves as it is, all of them do.
theorem run_same {α : Type} (field : FdTable → α) {same : FdCall → Prop}
    (hsame : ∀ ft ft' call, FdCall.step ft call = some ft' → same call → field ft' = field ft)
    (h : ft.run calls = some ft') (hcalls : ∀ call ∈ calls, same call) :
    field ft' = field ft := by
  induction calls generalizing ft with
  | nil =>
      obtain rfl := Option.some.inj h
      rfl
  | cons call calls ih =>
      obtain ⟨next, hstep, hrest⟩ := Option.bind_eq_some_iff.mp h
      obtain ⟨hcall, hcalls⟩ := List.forall_mem_cons.mp hcalls
      exact (ih hrest hcalls).trans (hsame _ _ _ hstep hcall)

-- As long as nothing is renumbered, an insertion can end in every state.
theorem insertion_ends_without_renumbering (h : fdTableInit.run calls = some ft)
    (hother : ∀ call ∈ calls, ¬call.Renumbers) (hsize : ft.entries.length < 2 ^ 62)
    (rightsBase rightsInheriting : BitVec 64) :
    ∃ fd ft', fdTableInsertFd ft rightsBase rightsInheriting .made (.ok ()) (.ok fd) =
      some (.ok fd, ft') := by
  have hnone : ft.renumbered = 0 :=
    run_same FdTable.renumbered (fun _ _ _ hstep => (step_accounts hstep).2) h hother
  have hlive : (objectsOf ft.entries).length ≤ ft.entries.length := length_objectsOf_le
  refine inserts_of_room h hsize (by omega) rightsBase rightsInheriting ?_
  omega

-- When all entries are closed and no call is under way, every object that was ever made is closed.
theorem nothing_stays_open (h : fdTableInit.run calls = some ft)
    (hdrawn : ∀ call ∈ calls, call.Drawn) (hempty : ∀ fe, some fe ∉ ft.entries)
    (hdone : ft.held = []) : ∀ object < ft.objects.next, object ∈ ft.objects.closed := by
  intro object hlt
  have hentries : object ∉ objectsOf ft.entries := by
    intro hmem
    obtain ⟨entry, hentry, hobject⟩ := List.mem_filterMap.mp hmem
    obtain ⟨fe, rfl, -⟩ := Option.map_eq_some_iff.mp hobject
    exact hempty fe hentry
  have hlost : object ∉ ft.lost := by
    rw [run_same FdTable.lost (fun _ _ _ hstep => (step_accounts hstep).1) h hdrawn]
    exact List.not_mem_nil
  refine (run_exact False h False.elim).gone object hlt ?_
  rw [FdTable.refs, Multiset.mem_add, Multiset.mem_add, Multiset.mem_coe, Multiset.mem_coe,
    Multiset.mem_coe, hdone]
  rintro (hmem | hmem | hmem)
  · exact hentries hmem
  · exact List.not_mem_nil hmem
  · exact hlost hmem

end Accounts

section Sample

def openAt (fd : Nat) : FdCall := .insertFd 0 0 .made (.ok ()) (.ok fd)

-- A directory is closed by its number while a call still uses it.
def sampleUse : List FdCall :=
  [.insertExisting 3 0 0 .made (.ok ()), openAt 0, .get 3 0 0, .close 3, .get 0 0 0, .release 0,
    .release 1, .release 0]

-- Four files, and five times a number is renumbered and its old place filled again.
def sampleFill : List FdCall :=
  [openAt 0, openAt 1, openAt 2, openAt 3, .renumber 0 1, openAt 0, .renumber 0 1, openAt 0,
    openAt 4, .renumber 0 1, openAt 0, openAt 5, .renumber 0 1, openAt 0, openAt 6, .renumber 0 1,
    openAt 0, openAt 7]

theorem few_of_card {ft : FdTable} (h : ft.refs.card < 2 ^ 32) : ft.Few := fun object =>
  (Multiset.count_le_card object _).trans_lt h

theorem sampleUse_few : ∀ done mid, done <+: sampleUse → fdTableInit.run done = some mid →
    mid.Few := by
  intro done mid hdone hmid
  have htake : done = sampleUse.take done.length := List.prefix_iff_eq_take.mp hdone
  have hcards : ∀ n ≤ 8,
      (fdTableInit.run (sampleUse.take n)).all fun ft => ft.refs.card < 2 ^ 32 := by decide
  have hcard := hcards done.length hdone.length_le
  rw [← htake, hmid] at hcard
  exact few_of_card (of_decide_eq_true hcard)

theorem objects_closed_once_sample :
    ∃ ft, fdTableInit.run sampleUse = some ft ∧ ft.objects.closed = [0] ∧
      ft.objects.closed.Nodup ∧ ∀ object,
        (ft.objects.count object).toNat =
          (objectsOf ft.entries).count object + (ft.held.count object + ft.lost.count object) ∧
        (object ∈ ft.objects.closed ↔ object < ft.objects.next ∧
          object ∉ objectsOf ft.entries ∧ object ∉ ft.held ∧ object ∉ ft.lost) :=
  ⟨_, rfl, rfl, objects_closed_once (show fdTableInit.run sampleUse = some _ from rfl)
    sampleUse_few⟩

theorem nothing_stays_open_sample :
    ∃ ft, fdTableInit.run (sampleUse ++ [.close 0, .release 1]) = some ft ∧
      ∀ object < ft.objects.next, object ∈ ft.objects.closed := by
  have hrun : ∃ ft, fdTableInit.run (sampleUse ++ [.close 0, .release 1]) = some ft ∧
      objectsOf ft.entries = [] ∧ ft.held = [] := ⟨_, rfl, rfl, rfl⟩
  obtain ⟨ft, hft, hentries, hheld⟩ := hrun
  refine ⟨ft, hft, nothing_stays_open hft ?_ ?_ hheld⟩
  · intro call hmem
    simp only [sampleUse, openAt, List.cons_append, List.nil_append, List.mem_cons,
      List.not_mem_nil, or_false] at hmem
    rcases hmem with rfl | rfl | rfl | rfl | rfl | rfl | rfl | rfl | rfl | rfl
    all_goals first | trivial | exact ⟨0, rfl⟩
  · intro fe hmem
    have hobject : fe.object ∈ objectsOf ft.entries :=
      List.mem_filterMap.mpr ⟨some fe, hmem, rfl⟩
    rw [hentries] at hobject
    exact absurd hobject List.not_mem_nil

-- All eight entries are in use, and the table does not grow.
theorem insertion_ends_iff_sample :
    ∃ ft, fdTableInit.run sampleFill = some ft ∧
      ¬∃ fd ft', fdTableInsertFd ft 0 0 .made (.ok ()) (.ok fd) = some (.ok fd, ft') := by
  refine ⟨_, rfl, ?_⟩
  rw [insertion_ends_iff (show fdTableInit.run sampleFill = some _ from rfl) (by decide)
    (by decide) 0 0]
  decide

-- The rights that are left go with the object to another number.
def sampleRights : List FdCall := [.setRights 0 1 0, .renumber 0 1]

theorem rights_never_grow_sample :
    ∃ ft ft' fe', fdTableInit.run [.insertFd 3 1 .made (.ok ()) (.ok 0), openAt 1] = some ft ∧
      ft.run sampleRights = some ft' ∧ ft'.entries[1]? = some (some fe') ∧ fe'.rightsBase = 1 ∧
      ∃ fe, some fe ∈ ft.entries ∧ fe'.Within fe := by
  refine ⟨_, _, ⟨0, 1, 0⟩, rfl, rfl, rfl, rfl, ?_⟩
  exact rights_never_grow (show FdTable.run _ sampleRights = some _ from rfl)
    (List.mem_of_getElem? (show _[1]? = _ from rfl)) (by decide)

end Sample

end Watz.Wasi
