import Mathlib.Data.List.TakeWhile
import Watz.Base.Account
import Watz.Base.Run
import Watz.Wasi.Path

namespace Watz.Wasi

open Base.Account

-- What is in use: the handles that path resolution has opened, the buffers, and the directories of
-- the table, by their handles.
def Event.handle : Event → Change Nat
  | .openat _ _ (some handle) => .gain handle
  | .close handle => .lose handle
  | _ => .keep

def Event.buffer : Event → Change Nat
  | .malloc buffer => .gain buffer
  | .free buffer => .lose buffer
  | _ => .keep

def Event.object : Event → Change Nat
  | .acquire object => .gain object
  | .release object => .lose object
  | _ => .keep

-- A name of an entry of a directory: it leads nowhere but to that entry.
structure IsName (path : List Char) : Prop where
  ne_nil : path ≠ []
  no_slash : '/' ∉ path
  ne_dot : path ≠ ['.']
  ne_dotdot : path ≠ ['.', '.']

-- What the calls hand to the operating system in the end: the directory or an entry of it.
def IsTarget (path : List Char) : Prop :=
  path = ['.'] ∨ ∃ name slashes, IsName name ∧ (∀ c ∈ slashes, c = '/') ∧ path = name ++ slashes

-- The directories that may be used after these events.
def Usable (log : List Event) (dir : Nat) : Prop :=
  dir ∈ balance Event.object log ∨ dir ∈ balance Event.handle log

def Allowed (log : List Event) : Event → Prop
  | .malloc buffer => buffer ∉ balance Event.buffer log
  | .free buffer => buffer ∈ balance Event.buffer log
  | .acquire _ => True
  | .release object => object ∈ balance Event.object log
  | .openat dir path _ => Usable log dir ∧ IsName path
  | .fstatat dir path => Usable log dir ∧ IsName path
  | .readlinkat dir path => Usable log dir ∧ IsName path
  | .close handle => handle ∈ balance Event.handle log
  | .operate _ paths => ∀ p ∈ paths, Usable log p.1 ∧ IsTarget p.2

-- Everything done so far was allowed, and this is in use.
structure World.Holds {σ : Type} (w : World σ) (handles buffers objects : Multiset Nat) : Prop where
  lawful : Lawful Allowed w.log
  opened : balance Event.handle w.log = handles
  allocated : balance Event.buffer w.log = buffers
  acquired : balance Event.object w.log = objects
  fresh : ∀ b ∈ buffers, b < w.next

section Calls

variable {σ : Type} {os : Os σ} {w : World σ} {handles buffers objects : Multiset Nat}

-- What holds after a call that may fail.
def After {α : Type} (answer : Except Errno α × World σ) (ok : α → World σ → Prop)
    (error : World σ → Prop) : Prop :=
  (∀ a w, answer = (.ok a, w) → ok a w) ∧ ∀ e w, answer = (.error e, w) → error w

theorem After.ok {α : Type} {a : α} {ok : α → World σ → Prop} {error : World σ → Prop}
    (h : ok a w) : After (.ok a, w) ok error := by
  refine ⟨fun a' w' heq => ?_, fun e w' heq => ?_⟩
  · obtain ⟨ha, rfl⟩ := Prod.mk.inj heq
    obtain rfl := Except.ok.inj ha
    exact h
  · cases (Prod.mk.inj heq).1

theorem After.error {α : Type} {e : Errno} {ok : α → World σ → Prop} {error : World σ → Prop}
    (h : error w) : After (.error e, w) ok error := by
  refine ⟨fun a' w' heq => ?_, fun e w' heq => ?_⟩
  · cases (Prod.mk.inj heq).1
  · obtain ⟨-, rfl⟩ := Prod.mk.inj heq
    exact h

-- A directory is used: it is the one at hand, or one that has been opened.
def InUse (handles objects : Multiset Nat) (dir : Nat) : Prop := dir ∈ objects ∨ dir ∈ handles

theorem World.Holds.usable (hw : w.Holds handles buffers objects) {dir : Nat}
    (hdir : InUse handles objects dir) : Usable w.log dir := by
  rw [Usable, hw.acquired, hw.opened]
  exact hdir

theorem malloc_some (hw : w.Holds handles buffers objects) {size b : Nat} {w' : World σ}
    (h : w.malloc os size = (some b, w')) : w'.Holds handles (b ::ₘ buffers) objects := by
  rw [World.malloc] at h
  split at h
  · obtain ⟨rfl, rfl⟩ := Prod.mk.inj h |>.imp_left Option.some.inj
    refine ⟨⟨?_, hw.lawful⟩, balance_keep rfl hw.opened, balance_gain rfl hw.allocated,
      balance_keep rfl hw.acquired, ?_⟩
    · rw [Allowed, hw.allocated]
      exact fun hmem => absurd (hw.fresh _ hmem) (Nat.lt_irrefl _)
    · intro b hb
      rcases Multiset.mem_cons.mp hb with rfl | hb
      · exact Nat.lt_succ_self _
      · exact Nat.lt_succ_of_lt (hw.fresh b hb)
  · cases h

theorem malloc_none (hw : w.Holds handles buffers objects) {size : Nat} {w' : World σ}
    (h : w.malloc os size = (none, w')) : w'.Holds handles buffers objects := by
  rw [World.malloc] at h
  split at h
  · cases h
  · obtain rfl := (Prod.mk.inj h).2
    exact ⟨hw.lawful, hw.opened, hw.allocated, hw.acquired, hw.fresh⟩

theorem free_holds {b : Nat} (hw : w.Holds handles (b ::ₘ buffers) objects) :
    (w.free b).Holds handles buffers objects := by
  refine ⟨⟨?_, hw.lawful⟩, balance_keep rfl hw.opened, balance_lose rfl hw.allocated,
    balance_keep rfl hw.acquired, fun c hc => hw.fresh c (Multiset.mem_cons_of_mem hc)⟩
  rw [Allowed, hw.allocated]
  exact Multiset.mem_cons_self _ _

theorem acquire_holds (hw : w.Holds handles buffers objects) (object : Nat) :
    (w.note (.acquire object)).Holds handles buffers (object ::ₘ objects) :=
  ⟨⟨trivial, hw.lawful⟩, balance_keep rfl hw.opened,
    balance_keep rfl hw.allocated, balance_gain rfl hw.acquired,
    hw.fresh⟩

theorem release_holds {object : Nat} (hw : w.Holds handles buffers (object ::ₘ objects)) :
    (w.note (.release object)).Holds handles buffers objects := by
  refine ⟨⟨?_, hw.lawful⟩, balance_keep rfl hw.opened,
    balance_keep rfl hw.allocated, balance_lose rfl hw.acquired, hw.fresh⟩
  rw [Allowed, hw.acquired]
  exact Multiset.mem_cons_self _ _

theorem close_holds {handle : Nat} (hw : w.Holds (handle ::ₘ handles) buffers objects) :
    (w.close os handle).2.Holds handles buffers objects := by
  refine ⟨⟨?_, hw.lawful⟩, balance_lose rfl hw.opened, balance_keep rfl hw.allocated,
    balance_keep rfl hw.acquired, hw.fresh⟩
  rw [Allowed, hw.opened]
  exact Multiset.mem_cons_self _ _

-- A number that `openat` gives to a handle.
def Os.Gives (os : Os σ) (handle : Nat) : Prop :=
  ∃ s dir path, (os.openat s dir path).1 = .ok handle

variable (os) in
theorem openat_holds (hw : w.Holds handles buffers objects) {dir : Nat} {path : List Char}
    (hdir : InUse handles objects dir) (hname : IsName path) :
    After (w.openat os dir path)
      (fun handle w' => os.Gives handle ∧ w'.Holds (handle ::ₘ handles) buffers objects)
      fun w' => w'.Holds handles buffers objects := by
  have hallowed : ∀ result, Allowed w.log (.openat dir path result) := fun _ =>
    ⟨hw.usable hdir, hname⟩
  rw [World.openat]
  cases hopen : os.openat w.os dir path with
  | mk answer s =>
      cases answer with
      | error e =>
          exact .error ⟨⟨hallowed _, hw.lawful⟩, balance_keep rfl hw.opened,
            balance_keep rfl hw.allocated, balance_keep rfl hw.acquired, hw.fresh⟩
      | ok handle =>
          exact .ok ⟨⟨w.os, dir, path, congrArg Prod.fst hopen⟩, ⟨hallowed _, hw.lawful⟩,
            balance_gain rfl hw.opened, balance_keep rfl hw.allocated,
            balance_keep rfl hw.acquired, hw.fresh⟩

variable (os) in
theorem fstatat_holds (hw : w.Holds handles buffers objects) {dir : Nat} {path : List Char}
    (hdir : InUse handles objects dir) (hname : IsName path) :
    (w.fstatat os dir path).2.Holds handles buffers objects :=
  ⟨⟨⟨hw.usable hdir, hname⟩, hw.lawful⟩, balance_keep rfl hw.opened,
    balance_keep rfl hw.allocated, balance_keep rfl hw.acquired, hw.fresh⟩

variable (os) in
theorem readlinkat_holds (size : Nat) (hw : w.Holds handles buffers objects) {dir : Nat}
    {path : List Char} (hdir : InUse handles objects dir) (hname : IsName path) :
    (w.readlinkat os dir path size).2.Holds handles buffers objects :=
  ⟨⟨⟨hw.usable hdir, hname⟩, hw.lawful⟩, balance_keep rfl hw.opened,
    balance_keep rfl hw.allocated, balance_keep rfl hw.acquired, hw.fresh⟩

theorem operate_holds (hw : w.Holds handles buffers objects) (operation : Operation)
    {paths : List (Nat × List Char)}
    (hpaths : ∀ p ∈ paths, InUse handles objects p.1 ∧ IsTarget p.2) :
    (w.operate os operation paths).2.Holds handles buffers objects :=
  ⟨⟨fun p hp => ⟨hw.usable (hpaths p hp).1, (hpaths p hp).2⟩, hw.lawful⟩,
    balance_keep rfl hw.opened, balance_keep rfl hw.allocated,
    balance_keep rfl hw.acquired, hw.fresh⟩

variable (os) in
theorem realpath_holds (hw : w.Holds handles buffers objects) (path : List Char) :
    (w.realpath os path).2.Holds handles buffers objects :=
  ⟨hw.lawful, hw.opened, hw.allocated, hw.acquired, hw.fresh⟩

variable (os) in
theorem strNullterminate_holds (hw : w.Holds handles buffers objects) (s : List Char) :
    After (strNullterminate os w s)
      (fun path w' => path.text = s ∧ w'.Holds handles (path.start ::ₘ buffers) objects)
      fun w' => w'.Holds handles buffers objects := by
  rw [strNullterminate]
  split
  · rename_i w' hmalloc
    exact .error (malloc_none hw hmalloc)
  · rename_i b w' hmalloc
    have hw' := malloc_some hw hmalloc
    split
    · exact .error (free_holds hw')
    · exact .ok ⟨rfl, hw'⟩

theorem readLoop_holds (hw : w.Holds handles buffers objects) {dir bufLen : Nat}
    {path : List Char} (hpos : 0 < bufLen) (hdir : InUse handles objects dir)
    (hname : IsName path) :
    After (readLoop os w dir path bufLen hpos)
      (fun symlink w' => w'.Holds handles (symlink.1.start ::ₘ buffers) objects)
      fun w' => w'.Holds handles buffers objects := by
  fun_induction readLoop os w dir path bufLen hpos with
  | case1 w bufLen hpos w' hmalloc => exact .error (malloc_none hw hmalloc)
  | case2 w bufLen hpos buf w' hmalloc e w'' hread =>
      have hw' := readlinkat_holds os bufLen (malloc_some hw hmalloc) hdir hname
      rw [hread] at hw'
      exact .error (free_holds hw')
  | case3 w bufLen hpos buf w' hmalloc text hlt w'' hread hless =>
      have hw' := readlinkat_holds os bufLen (malloc_some hw hmalloc) hdir hname
      rw [hread] at hw'
      exact .ok hw'
  | case4 w bufLen hpos buf w' hmalloc text hlt w'' hread hless ih =>
      have hw' := readlinkat_holds os bufLen (malloc_some hw hmalloc) hdir hname
      rw [hread] at hw'
      exact ih (free_holds hw')

variable (os) in
theorem readlinkatDup_holds (hw : w.Holds handles buffers objects) {dir : Nat}
    {path : List Char} (hdir : InUse handles objects dir) (hname : IsName path) :
    After (readlinkatDup os w dir path)
      (fun symlink w' => w'.Holds handles (symlink.1.start ::ₘ buffers) objects)
      fun w' => w'.Holds handles buffers objects := by
  have hw' := fstatat_holds os hw hdir hname
  rw [readlinkatDup]
  split
  · rename_i hstat
    rw [hstat] at hw'
    exact readLoop_holds hw' _ hdir hname
  · rename_i hstat
    rw [hstat] at hw'
    exact readLoop_holds hw' _ hdir hname

end Calls

section Loop

variable {σ : Type} {os : Os σ} {walk : Walk σ} {base : Nat}
  {handles buffers objects : Multiset Nat}

def Walk.starts (walk : Walk σ) : List Nat := (walk.path :: walk.below).map Text.start

-- The loop holds the directory it starts from, the handles on its stack and the buffers of the
-- paths. Both stacks fit into their arrays.
structure Walk.Owns (os : Os σ) (base : Nat) (handles buffers objects : Multiset Nat)
    (walk : Walk σ) : Prop where
  holds : walk.world.Holds (walk.fds + handles) (walk.starts + buffers) (base ::ₘ objects)
  given : ∀ fd ∈ walk.fds, os.Gives fd
  depth : walk.fds.length < 128
  nesting : walk.below.length < 32

-- In the end the path that is handed out is in the buffer that goes with it.
def Ending.Owns (os : Os σ) (base : Nat) (handles buffers objects : Multiset Nat) :
    Ending σ → Prop
  | .success walk path start =>
      walk.world.Holds (walk.fds + handles) (start.toList + buffers) (base ::ₘ objects) ∧
        (∀ fd ∈ walk.fds, os.Gives fd) ∧ IsTarget path
  | .fail walk _ => walk.Owns os base handles buffers objects

def Flow.Owns (os : Os σ) (base : Nat) (handles buffers objects : Multiset Nat) : Flow σ → Prop
  | .next walk => walk.Owns os base handles buffers objects
  | .done ending => ending.Owns os base handles buffers objects

theorem Walk.current_inUse (walk : Walk σ) :
    InUse (walk.fds + handles) (base ::ₘ objects) (walk.fds.headD base) := by
  cases hfds : walk.fds with
  | nil => exact .inl (Multiset.mem_cons_self _ _)
  | cons fd fds => exact .inr (Multiset.mem_add.mpr (.inl List.mem_cons_self))

theorem coe_cons_add (a : Nat) (l : List Nat) (s : Multiset Nat) :
    ((a :: l : List Nat) : Multiset Nat) + s = a ::ₘ ((l : Multiset Nat) + s) := by
  rw [← Multiset.cons_coe, Multiset.cons_add]

-- Only the world has changed.
theorem Walk.Owns.of_holds (hw : walk.Owns os base handles buffers objects) {world : World σ}
    (hworld : world.Holds (walk.fds + handles) (walk.starts + buffers) (base ::ₘ objects)) :
    Walk.Owns os base handles buffers objects { walk with world := world } :=
  ⟨hworld, hw.given, hw.depth, hw.nesting⟩

theorem endComponent_owns (hw : walk.Owns os base handles buffers objects) :
    (endComponent walk).Owns os base handles buffers objects := by
  have hstarts : (walk.starts : Multiset Nat) + buffers =
      walk.path.start ::ₘ ((walk.below.map Text.start : Multiset Nat) + buffers) :=
    coe_cons_add _ _ _
  have hfree := free_holds (hstarts ▸ hw.holds)
  rw [endComponent]
  split
  · split
    · rename_i hbelow
      rw [hbelow] at hfree
      exact ⟨hfree, hw.given, .inl rfl⟩
    · rename_i path below hbelow
      rw [hbelow] at hfree
      refine ⟨hfree, hw.given, hw.depth, ?_⟩
      have hnesting := hw.nesting
      rw [hbelow, List.length_cons] at hnesting
      exact Nat.lt_of_succ_lt hnesting
  · exact hw

theorem pushSymlink_owns {symlink : Text} {len : Nat} {slash : Bool}
    (hworld : walk.world.Holds (walk.fds + handles) (symlink.start ::ₘ (walk.starts + buffers))
      (base ::ₘ objects))
    (hgiven : ∀ fd ∈ walk.fds, os.Gives fd) (hdepth : walk.fds.length < 128)
    (hnesting : walk.below.length < 32) :
    (pushSymlink walk symlink len slash).Owns os base handles buffers objects := by
  have hfree := free_holds hworld
  rw [pushSymlink]
  split
  · exact ⟨hfree, hgiven, hdepth, hnesting⟩
  · simp only
    split
    · refine ⟨?_, hgiven, hdepth, hnesting⟩
      have hswap : symlink.start ::ₘ ((walk.starts : Multiset Nat) + buffers) =
          walk.path.start ::ₘ
            ((symlink.start :: walk.below.map Text.start : List Nat) + buffers) := by
        rw [Walk.starts, List.map_cons, coe_cons_add, coe_cons_add, Multiset.cons_swap]
      exact free_holds (hswap ▸ hworld)
    · split
      · exact ⟨hfree, hgiven, hdepth, hnesting⟩
      · refine ⟨?_, hgiven, hdepth, ?_⟩
        · have hpush : symlink.start ::ₘ ((walk.starts : Multiset Nat) + buffers) =
              ((symlink.start :: walk.starts : List Nat) : Multiset Nat) + buffers :=
            (coe_cons_add _ _ _).symm
          exact hpush ▸ hworld
        · rw [List.length_cons]
          omega

theorem enterDirectory_owns (hw : walk.Owns os base handles buffers objects) {file : List Char}
    (hname : IsName file) {slash : Bool} :
    (enterDirectory os base walk file slash).Owns os base handles buffers objects := by
  have hopen := openat_holds os hw.holds walk.current_inUse hname
  rw [enterDirectory]
  split
  · rename_i newdir world heq
    obtain ⟨hgives, hworld⟩ := hopen.1 _ _ heq
    split
    · exact hw.of_holds (close_holds hworld)
    · rename_i hdepth
      refine endComponent_owns ⟨?_, List.forall_mem_cons.mpr ⟨hgives, hw.given⟩, ?_, hw.nesting⟩
      · have hpush : newdir ::ₘ ((walk.fds : Multiset Nat) + handles) =
            ((newdir :: walk.fds : List Nat) : Multiset Nat) + handles :=
          (coe_cons_add _ _ _).symm
        exact hpush ▸ hworld
      · have hless := hw.depth
        rw [List.length_cons]
        omega
  · rename_i e world heq
    have hworld := hopen.2 _ _ heq
    split
    · exact hw.of_holds hworld
    · have hread := readlinkatDup_holds os hworld walk.current_inUse hname
      split
      · rename_i hlink
        exact pushSymlink_owns (hread.1 _ _ hlink) hw.given hw.depth hw.nesting
      · rename_i hlink
        exact hw.of_holds (hread.2 _ _ hlink)

theorem lastComponent_owns (hw : walk.Owns os base handles buffers objects)
    (hbelow : walk.below = []) {path file : List Char} (hname : IsName file)
    (htarget : IsTarget path) {follow slash : Bool} :
    (lastComponent os base follow walk path file slash).Owns os base handles buffers objects := by
  have hstarts : walk.starts = [walk.path.start] := by rw [Walk.starts, hbelow]; rfl
  have hread := readlinkatDup_holds os hw.holds walk.current_inUse hname
  rw [lastComponent]
  split
  · split
    · rename_i hlink
      exact pushSymlink_owns (hread.1 _ _ hlink) hw.given hw.depth hw.nesting
    · rename_i hlink
      have hworld := hread.2 _ _ hlink
      split
      · exact hw.of_holds hworld
      · rw [hstarts] at hworld
        exact ⟨hworld, hw.given, htarget⟩
  · have hworld := hw.holds
    rw [hstarts] at hworld
    exact ⟨hworld, hw.given, htarget⟩

theorem not_mem_file (path : List Char) : '/' ∉ path.takeWhile (· ≠ '/') := by
  intro hmem
  have hslash := List.mem_takeWhile_imp hmem
  simp at hslash

theorem isName_takeWhile {path : List Char} (hne : path.takeWhile (· ≠ '/') ≠ [])
    (hdot : path.takeWhile (· ≠ '/') ≠ ['.']) (hdotdot : path.takeWhile (· ≠ '/') ≠ ['.', '.']) :
    IsName (path.takeWhile (· ≠ '/')) :=
  ⟨hne, not_mem_file path, hdot, hdotdot⟩

theorem round_owns (hw : walk.Owns os base handles buffers objects)
    (follow needsFinalComponent : Bool) :
    (round os base follow needsFinalComponent walk).Owns os base handles buffers objects := by
  have hadvance : ∀ text, (walk.advance text).Owns os base handles buffers objects := fun _ =>
    ⟨hw.holds, hw.given, hw.depth, hw.nesting⟩
  simp only [round]
  split
  · exact hadvance _
  · rename_i hne
    split
    · exact endComponent_owns (hadvance _)
    · rename_i hdot
      split
      · split
        · exact hadvance _
        · rename_i fd fds hfds
          have hclose : (walk.world.close os fd).2.Holds (fds + handles) (walk.starts + buffers)
              (base ::ₘ objects) := by
            refine close_holds ?_
            have hpop : fd ::ₘ ((fds : Multiset Nat) + handles) =
                ((fd :: fds : List Nat) : Multiset Nat) + handles :=
              (coe_cons_add _ _ _).symm
            rw [hpop, ← show walk.fds = fd :: fds from hfds]
            exact hw.holds
          have hgiven := hw.given
          have hdepth := hw.depth
          rw [show walk.fds = fd :: fds from hfds] at hgiven
          have hgiven' := (List.forall_mem_cons.mp hgiven).2
          rw [show walk.fds = fd :: fds from hfds, List.length_cons] at hdepth
          split
          · rename_i hworld
            rw [show walk.world.close os fd = _ from hworld] at hclose
            exact ⟨hclose, hgiven', Nat.lt_of_succ_lt hdepth, hw.nesting⟩
          · rename_i hworld
            rw [show walk.world.close os fd = _ from hworld] at hclose
            exact endComponent_owns ⟨hclose, hgiven', Nat.lt_of_succ_lt hdepth, hw.nesting⟩
      · rename_i hdotdot
        have hname := isName_takeWhile hne hdot hdotdot
        split
        · exact enterDirectory_owns (hadvance _) hname
        · rename_i hlast
          simp only [not_or, not_not] at hlast
          refine lastComponent_owns (hadvance _) hlast.1 hname (.inr ⟨_, _, hname, ?_,
            (List.takeWhile_append_dropWhile).symm⟩)
          intro c hc
          simpa using List.dropWhile_eq_nil_iff.mp hlast.2.1 c hc

theorem pathLoop_owns (hw : walk.Owns os base handles buffers objects)
    (follow needsFinalComponent : Bool) :
    (pathLoop os base follow needsFinalComponent walk).Owns os base handles buffers objects := by
  fun_induction pathLoop os base follow needsFinalComponent walk with
  | case1 walk next hround ih =>
      have hnext := round_owns hw follow needsFinalComponent
      rw [hround] at hnext
      exact ih hnext
  | case2 walk ending hround =>
      have hending := round_owns hw follow needsFinalComponent
      rw [hround] at hending
      exact hending

end Loop

section Access

variable {σ : Type} {os : Os σ} {w : World σ} {pa : PathAccess}
  {handles buffers objects : Multiset Nat}

-- The handle that goes with a lease, unless it is the one of the table.
def PathAccess.ownHandle (pa : PathAccess) : Multiset Nat :=
  if pa.object = pa.fd then 0 else {pa.fd}

def PathAccess.ownBuffer (pa : PathAccess) : Multiset Nat := pa.pathStart.toList

theorem closeAll_holds {fds : List Nat} (hw : w.Holds (fds + handles) buffers objects) :
    (closeAll os w fds).Holds handles buffers objects := by
  induction fds generalizing w with
  | nil => simpa [closeAll] using hw
  | cons fd fds ih =>
      rw [coe_cons_add] at hw
      exact ih (close_holds hw)

theorem freeAll_holds {starts : List Nat} (hw : w.Holds handles (starts + buffers) objects) :
    (freeAll w starts).Holds handles buffers objects := by
  induction starts generalizing w with
  | nil => simpa [freeAll] using hw
  | cons start starts ih =>
      rw [coe_cons_add] at hw
      exact ih (free_holds hw)

theorem access_holds {base : Nat} {ending : Ending σ} (hbase : ¬os.Gives base)
    (hending : ending.Owns os base handles buffers objects) :
    After (ending.access os base)
      (fun pa w' => IsTarget pa.path ∧ pa.object = base ∧
        w'.Holds (pa.ownHandle + handles) (pa.ownBuffer + buffers) (base ::ₘ objects))
      fun w' => w'.Holds handles buffers objects := by
  cases ending with
  | success walk path start =>
      obtain ⟨hworld, hgiven, htarget⟩ := hending
      refine .ok ⟨htarget, rfl, closeAll_holds ?_⟩
      rw [Multiset.coe_reverse, PathAccess.ownHandle]
      cases hfds : walk.fds with
      | nil =>
          rw [hfds] at hworld
          rw [List.headD_nil, if_pos rfl, zero_add]
          exact hworld
      | cons fd fds =>
          -- the last one is kept, and it is not the one of the table
          have hne : base ≠ fd := by
            rintro rfl
            exact hbase (hgiven _ (by rw [hfds]; exact List.mem_cons_self))
          rw [hfds, coe_cons_add, ← Multiset.singleton_add, add_left_comm] at hworld
          rw [List.headD_cons, if_neg hne, List.tail_cons]
          exact hworld
  | fail walk e =>
      refine .error (release_holds (freeAll_holds ?_))
      rw [Multiset.coe_reverse]
      refine closeAll_holds ?_
      rw [Multiset.coe_reverse]
      exact hending.holds

variable (os) in
theorem start_owns {path : Text} (hw : w.Holds handles (path.start ::ₘ buffers) objects)
    (base : Nat) :
    Walk.Owns os base handles buffers objects ⟨w.note (.acquire base), [], path, [], 0⟩ := by
  refine ⟨?_, by simp, by simp, by simp⟩
  have hacquired := acquire_holds hw base
  rw [← zero_add handles] at hacquired
  exact hacquired

-- The lease that `path_get` gives.
theorem pathGet_holds (hw : w.Holds handles buffers objects) {object : Except Errno Nat}
    (hobject : ∀ base, object = .ok base → ¬os.Gives base) (follow needsFinalComponent : Bool)
    (upath : List Char) :
    After (pathGet os w object follow upath needsFinalComponent)
      (fun pa w' => IsTarget pa.path ∧
        w'.Holds (pa.ownHandle + handles) (pa.ownBuffer + buffers) (pa.object ::ₘ objects))
      fun w' => w'.Holds handles buffers objects := by
  have hcopy := strNullterminate_holds os hw upath
  rw [pathGet]
  split
  · rename_i heq
    exact .error (hcopy.2 _ _ heq)
  · rename_i path world heq
    have hworld := (hcopy.1 _ _ heq).2
    cases object with
    | error e => exact .error (free_holds hworld)
    | ok base =>
        have hloop := pathLoop_owns (start_owns os hworld base) follow needsFinalComponent
        obtain ⟨hok, herror⟩ := access_holds (hobject base rfl) hloop
        refine ⟨fun pa w' h => ?_, herror⟩
        obtain ⟨htarget, rfl, hheld⟩ := hok pa w' h
        exact ⟨htarget, hheld⟩

theorem pathPut_holds (hw : w.Holds (pa.ownHandle + handles) (pa.ownBuffer + buffers)
    (pa.object ::ₘ objects)) : (pathPut os w pa).Holds handles buffers objects := by
  have hfree : (freePath w pa.pathStart).Holds (pa.ownHandle + handles) buffers
      (pa.object ::ₘ objects) := by
    rw [PathAccess.ownBuffer] at hw
    cases hstart : pa.pathStart with
    | none =>
        rw [hstart, Option.toList_none, Multiset.coe_nil, zero_add] at hw
        exact hw
    | some start =>
        rw [hstart, Option.toList_some, coe_cons_add, Multiset.coe_nil, zero_add] at hw
        exact free_holds hw
  rw [pathPut]
  refine release_holds ?_
  rw [PathAccess.ownHandle] at hfree
  split
  · rename_i hne
    rw [if_neg hne, Multiset.singleton_add] at hfree
    exact close_holds hfree
  · rename_i heq
    rw [not_not] at heq
    rw [if_pos heq, zero_add] at hfree
    exact hfree

end Access

section Run

variable {σ : Type} {os : Os σ} {w : World σ} {handles buffers objects : Multiset Nat}

-- The number of a directory of the table is not given to another handle.
def Kept (os : Os σ) (object : Except Errno Nat) : Prop :=
  ∀ base, object = .ok base → ¬os.Gives base

theorem PathAccess.inUse (pa : PathAccess) :
    InUse (pa.ownHandle + handles) (pa.object ::ₘ objects) pa.fd := by
  by_cases heq : pa.object = pa.fd
  · rw [← heq]
    exact .inl (Multiset.mem_cons_self _ _)
  · rw [ownHandle, if_neg heq]
    exact .inr (Multiset.mem_add.mpr (.inl (Multiset.mem_singleton_self _)))

theorem pathCall_holds (hw : w.Holds handles buffers objects) {object : Except Errno Nat}
    (hobject : Kept os object) {follow needsFinalComponent : Bool} {path : List Char}
    {operation : Operation} :
    (pathCall os w object follow path needsFinalComponent operation).2.Holds handles buffers
      objects := by
  have hget := pathGet_holds hw hobject follow needsFinalComponent path
  rw [pathCall]
  split
  · rename_i heq
    exact hget.2 _ _ heq
  · rename_i pa world heq
    obtain ⟨htarget, hworld⟩ := hget.1 _ _ heq
    refine pathPut_holds (operate_holds hworld operation fun p hp => ?_)
    obtain rfl := List.mem_singleton.mp hp
    exact ⟨pa.inUse, htarget⟩

-- Two leases are given back in the order in which they were taken.
theorem pathPut_two {oldPa newPa : PathAccess}
    (hw : w.Holds (newPa.ownHandle + (oldPa.ownHandle + handles))
      (newPa.ownBuffer + (oldPa.ownBuffer + buffers)) (newPa.object ::ₘ oldPa.object ::ₘ objects)) :
    (pathPut os (pathPut os w oldPa) newPa).Holds handles buffers objects := by
  rw [add_left_comm, add_left_comm newPa.ownBuffer, Multiset.cons_swap] at hw
  exact pathPut_holds (pathPut_holds hw)

-- Two leases at a time are in use together.
theorem paths_inUse {oldPa newPa : PathAccess} (hold : IsTarget oldPa.path)
    (hnew : IsTarget newPa.path) :
    ∀ p ∈ [(oldPa.fd, oldPa.path), (newPa.fd, newPa.path)],
      InUse (newPa.ownHandle + (oldPa.ownHandle + handles))
        (newPa.object ::ₘ oldPa.object ::ₘ objects) p.1 ∧ IsTarget p.2 := by
  intro p hp
  rcases List.mem_cons.mp hp with rfl | hp
  · refine ⟨?_, hold⟩
    rw [add_left_comm, Multiset.cons_swap]
    exact oldPa.inUse
  · obtain rfl := List.mem_singleton.mp hp
    exact ⟨newPa.inUse, hnew⟩

theorem pathRename_holds (hw : w.Holds handles buffers objects)
    {oldObject newObject : Except Errno Nat} (hold : Kept os oldObject)
    (hnew : Kept os newObject) {oldPath newPath : List Char} :
    (pathRename os w oldObject newObject oldPath newPath).2.Holds handles buffers objects := by
  have hget := pathGet_holds hw hold false true oldPath
  rw [pathRename]
  split
  · rename_i heq
    exact hget.2 _ _ heq
  · rename_i oldPa world heq
    obtain ⟨htarget, hworld⟩ := hget.1 _ _ heq
    have hget' := pathGet_holds hworld hnew false true newPath
    split
    · rename_i heq'
      exact pathPut_holds (hget'.2 _ _ heq')
    · rename_i newPa world' heq'
      obtain ⟨htarget', hworld'⟩ := hget'.1 _ _ heq'
      exact pathPut_two (operate_holds hworld' .renameat (paths_inUse htarget htarget'))

theorem underPrestat_holds (hw : w.Holds handles buffers objects) (pathReal : List Char)
    (prestats : List (Option (List Char))) :
    (underPrestat os w pathReal prestats).2.Holds handles buffers objects := by
  induction prestats generalizing w with
  | nil => exact hw
  | cons prestat prestats ih =>
      cases prestat with
      | none => exact ih hw
      | some dir =>
          have hreal := realpath_holds os hw dir
          rw [underPrestat]
          split
          · rename_i heq
            rw [heq] at hreal
            exact hreal
          · rename_i heq
            rw [heq] at hreal
            split
            · exact hreal
            · exact ih hreal

variable (os) in
theorem validatePath_holds (hw : w.Holds handles buffers objects) (path : List Char)
    (prestats : List (Option (List Char))) :
    (validatePath os w path prestats).2.Holds handles buffers objects := by
  have hreal := realpath_holds os hw path
  rw [validatePath]
  split
  · rename_i heq
    rw [heq] at hreal
    exact hreal
  · rename_i heq
    rw [heq] at hreal
    exact underPrestat_holds hreal _ _

-- `path_link` and `path_symlink` return early when a path is not valid.
def Call.Refused (os : Os σ) (w : World σ) : Call → Prop
  | .link prestats oldObject newObject oldFollow oldPath newPath =>
      ∃ oldPa newPa w1 w2, pathGet os w oldObject oldFollow oldPath false = (.ok oldPa, w1) ∧
        pathGet os w1 newObject false newPath true = (.ok newPa, w2) ∧
        ((validatePath os w2 oldPa.path prestats).1 = false ∨
          (validatePath os (validatePath os w2 oldPa.path prestats).2 newPa.path prestats).1 =
            false)
  | .symlink prestats oldPath object newPath =>
      ∃ target pa w1 w2, strNullterminate os w oldPath = (.ok target, w1) ∧
        pathGet os w1 object false newPath true = (.ok pa, w2) ∧
        (validatePath os w2 target.text prestats).1 = false
  | _ => False

-- What a call leaves behind: nothing, unless it was refused; then a directory at least.
structure Left (refused : Prop) (handles buffers objects : Multiset Nat) : Prop where
  nothing : ¬refused → handles = 0 ∧ buffers = 0 ∧ objects = 0
  directory : refused → ∃ object, object ∈ objects

theorem Left.zero {refused : Prop} (h : ¬refused) : Left refused 0 0 0 :=
  ⟨fun _ => ⟨rfl, rfl, rfl⟩, fun h' => absurd h' h⟩

def Leaves (refused : Prop) (w : World σ) (handles buffers objects : Multiset Nat) : Prop :=
  ∃ handles' buffers' objects', Left refused handles' buffers' objects' ∧
    w.Holds (handles' + handles) (buffers' + buffers) (objects' + objects)

theorem Leaves.of_holds {refused : Prop} (h : ¬refused) (hw : w.Holds handles buffers objects) :
    Leaves refused w handles buffers objects := by
  refine ⟨0, 0, 0, .zero h, ?_⟩
  rw [zero_add, zero_add, zero_add]
  exact hw

-- The two leases of a refused link stay.
theorem Leaves.of_two {refused : Prop} (h : refused) {oldPa newPa : PathAccess}
    (hw : w.Holds (newPa.ownHandle + (oldPa.ownHandle + handles))
      (newPa.ownBuffer + (oldPa.ownBuffer + buffers)) (newPa.object ::ₘ oldPa.object ::ₘ objects)) :
    Leaves refused w handles buffers objects := by
  refine ⟨newPa.ownHandle + oldPa.ownHandle, newPa.ownBuffer + oldPa.ownBuffer,
    {newPa.object, oldPa.object}, ⟨fun h' => absurd h h', fun _ => ?_⟩, ?_⟩
  · exact ⟨newPa.object, Multiset.mem_cons_self _ _⟩
  · rw [add_assoc, add_assoc, Multiset.insert_eq_cons, Multiset.cons_add, Multiset.singleton_add]
    exact hw

theorem pathLink_leaves (hw : w.Holds handles buffers objects)
    (prestats : List (Option (List Char))) {oldObject newObject : Except Errno Nat}
    (hold : Kept os oldObject) (hnew : Kept os newObject) (oldFollow : Bool)
    (oldPath newPath : List Char) :
    Leaves (Call.Refused os w (.link prestats oldObject newObject oldFollow oldPath newPath))
      (pathLink os w prestats oldObject newObject oldFollow oldPath newPath).2
      handles buffers objects := by
  have hget := pathGet_holds hw hold oldFollow false oldPath
  rw [pathLink]
  split
  · rename_i heq
    refine .of_holds ?_ (hget.2 _ _ heq)
    rintro ⟨oldPa, newPa, w1, w2, heq', -⟩
    cases heq.symm.trans heq'
  · rename_i oldPa w1 heq
    obtain ⟨htarget, hworld⟩ := hget.1 _ _ heq
    have hget' := pathGet_holds hworld hnew false true newPath
    split
    · rename_i heq'
      refine .of_holds ?_ (pathPut_holds (hget'.2 _ _ heq'))
      rintro ⟨oldPa', newPa, w1', w2, h1, h2, -⟩
      obtain ⟨rfl, rfl⟩ := Prod.mk.inj (heq.symm.trans h1) |>.imp_left Except.ok.inj
      cases heq'.symm.trans h2
    · rename_i newPa w2 heq'
      obtain ⟨htarget', hworld'⟩ := hget'.1 _ _ heq'
      have hvalid := validatePath_holds os hworld' oldPa.path prestats
      split
      · rename_i hfalse
        rw [hfalse] at hvalid
        exact .of_two ⟨oldPa, newPa, w1, w2, heq, heq', .inl (by rw [hfalse])⟩ hvalid
      · rename_i w3 htrue
        rw [htrue] at hvalid
        have hvalid' := validatePath_holds os hvalid newPa.path prestats
        split
        · rename_i hfalse
          rw [hfalse] at hvalid'
          exact .of_two ⟨oldPa, newPa, w1, w2, heq, heq', .inr (by rw [htrue, hfalse])⟩ hvalid'
        · rename_i w4 htrue'
          rw [htrue'] at hvalid'
          refine .of_holds ?_
            (pathPut_two (operate_holds hvalid' .linkat (paths_inUse htarget htarget')))
          rintro ⟨oldPa', newPa', w1', w2', h1, h2, hinvalid⟩
          obtain ⟨rfl, rfl⟩ := Prod.mk.inj (heq.symm.trans h1) |>.imp_left Except.ok.inj
          obtain ⟨rfl, rfl⟩ := Prod.mk.inj (heq'.symm.trans h2) |>.imp_left Except.ok.inj
          rw [htrue, htrue'] at hinvalid
          rcases hinvalid with hinvalid | hinvalid <;> cases hinvalid

theorem pathSymlink_leaves (hw : w.Holds handles buffers objects)
    (prestats : List (Option (List Char))) (oldPath : List Char) {object : Except Errno Nat}
    (hobject : Kept os object) (newPath : List Char) :
    Leaves (Call.Refused os w (.symlink prestats oldPath object newPath))
      (pathSymlink os w prestats oldPath object newPath).2 handles buffers objects := by
  have hcopy := strNullterminate_holds os hw oldPath
  rw [pathSymlink]
  split
  · rename_i heq
    refine .of_holds ?_ (hcopy.2 _ _ heq)
    rintro ⟨target, pa, w1, w2, heq', -⟩
    cases heq.symm.trans heq'
  · rename_i target w1 heq
    have hworld := (hcopy.1 _ _ heq).2
    have hget := pathGet_holds hworld hobject false true newPath
    split
    · rename_i heq'
      refine .of_holds ?_ (free_holds (hget.2 _ _ heq'))
      rintro ⟨target', pa, w1', w2, h1, h2, -⟩
      obtain ⟨rfl, rfl⟩ := Prod.mk.inj (heq.symm.trans h1) |>.imp_left Except.ok.inj
      cases heq'.symm.trans h2
    · rename_i pa w2 heq'
      obtain ⟨htarget, hworld'⟩ := hget.1 _ _ heq'
      have hvalid := validatePath_holds os hworld' target.text prestats
      split
      · rename_i w3 hfalse
        rw [hfalse, ← Multiset.singleton_add, add_left_comm, Multiset.singleton_add] at hvalid
        refine ⟨pa.ownHandle, pa.ownBuffer, {pa.object},
          ⟨fun h => absurd ⟨target, pa, w1, w2, heq, heq', by rw [hfalse]⟩ h, fun _ => ?_⟩, ?_⟩
        · exact ⟨pa.object, Multiset.mem_singleton_self _⟩
        · exact free_holds hvalid
      · rename_i w3 htrue
        rw [htrue] at hvalid
        refine .of_holds ?_ (free_holds (pathPut_holds (operate_holds hvalid .symlinkat ?_)))
        · rintro ⟨target', pa', w1', w2', h1, h2, hinvalid⟩
          obtain ⟨rfl, rfl⟩ := Prod.mk.inj (heq.symm.trans h1) |>.imp_left Except.ok.inj
          obtain ⟨rfl, rfl⟩ := Prod.mk.inj (heq'.symm.trans h2) |>.imp_left Except.ok.inj
          rw [htrue] at hinvalid
          cases hinvalid
        · intro p hp
          obtain rfl := List.mem_singleton.mp hp
          exact ⟨pa.inUse, htarget⟩

theorem call_leaves (hw : w.Holds handles buffers objects) {call : Call}
    (hkept : ∀ object ∈ call.directories, Kept os object) :
    Leaves (call.Refused os w) (call.run os w).2 handles buffers objects := by
  cases call with
  | createDirectory object path =>
      exact .of_holds id (pathCall_holds hw (hkept _ List.mem_cons_self))
  | openFile object follow creates path =>
      exact .of_holds id (pathCall_holds hw (hkept _ List.mem_cons_self))
  | readlink object path => exact .of_holds id (pathCall_holds hw (hkept _ List.mem_cons_self))
  | filestatGet object follow path =>
      exact .of_holds id (pathCall_holds hw (hkept _ List.mem_cons_self))
  | filestatSetTimes object follow path =>
      exact .of_holds id (pathCall_holds hw (hkept _ List.mem_cons_self))
  | unlinkFile object path => exact .of_holds id (pathCall_holds hw (hkept _ List.mem_cons_self))
  | removeDirectory object path =>
      exact .of_holds id (pathCall_holds hw (hkept _ List.mem_cons_self))
  | rename oldObject newObject oldPath newPath =>
      exact .of_holds id (pathRename_holds hw (hkept _ List.mem_cons_self)
        (hkept _ (List.mem_cons_of_mem _ List.mem_cons_self)))
  | link prestats oldObject newObject oldFollow oldPath newPath =>
      exact pathLink_leaves hw prestats (hkept _ List.mem_cons_self)
        (hkept _ (List.mem_cons_of_mem _ List.mem_cons_self)) oldFollow oldPath newPath
  | symlink prestats oldPath object newPath =>
      exact pathSymlink_leaves hw prestats oldPath (hkept _ List.mem_cons_self) newPath

theorem Leaves.congr {p q : Prop} (h : p ↔ q) (hw : Leaves p w handles buffers objects) :
    Leaves q w handles buffers objects := propext h ▸ hw

-- What the first call leaves stays, whatever follows.
theorem Leaves.append {p q : Prop} {w' : World σ} {handles' buffers' objects' : Multiset Nat}
    (hfirst : Left p handles' buffers' objects')
    (hrest : Leaves q w' (handles' + handles) (buffers' + buffers) (objects' + objects)) :
    Leaves (p ∨ q) w' handles buffers objects := by
  obtain ⟨handles2, buffers2, objects2, hleft, hw'⟩ := hrest
  refine ⟨handles2 + handles', buffers2 + buffers', objects2 + objects', ⟨fun h => ?_, ?_⟩, ?_⟩
  · obtain ⟨hp, hq⟩ := not_or.mp h
    obtain ⟨rfl, rfl, rfl⟩ := hfirst.nothing hp
    obtain ⟨rfl, rfl, rfl⟩ := hleft.nothing hq
    exact ⟨rfl, rfl, rfl⟩
  · rintro (hp | hq)
    · obtain ⟨object, hmem⟩ := hfirst.directory hp
      exact ⟨object, Multiset.mem_add.mpr (.inr hmem)⟩
    · obtain ⟨object, hmem⟩ := hleft.directory hq
      exact ⟨object, Multiset.mem_add.mpr (.inl hmem)⟩
  · rw [add_assoc, add_assoc, add_assoc]
    exact hw'

open Base.Run in
theorem run_leaves (hw : w.Holds handles buffers objects) {calls : List Call}
    (hkept : ∀ call ∈ calls, ∀ object ∈ call.directories, Kept os object) :
    Leaves (∃ t ∈ steps (Call.next os) w calls, t.input.Refused os t.before)
      (final (Call.next os) w calls) handles buffers objects := by
  induction calls generalizing w handles buffers objects with
  | nil => exact .of_holds (by simp [steps]) hw
  | cons call calls ih =>
      obtain ⟨handles', buffers', objects', hleft, hw'⟩ :=
        call_leaves hw (hkept call List.mem_cons_self)
      have hrest := ih hw' fun c hc => hkept c (List.mem_cons_of_mem _ hc)
      refine (Leaves.append hleft hrest).congr ?_
      simp only [steps, List.mem_cons, exists_eq_or_imp]
      exact Iff.rfl

end Run

end Watz.Wasi
