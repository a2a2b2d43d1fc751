import Mathlib.Algebra.Order.Ring.Nat
import Mathlib.Data.List.Basic

namespace Watz.Wasi

-- The error numbers that the resolution of paths looks at or gives itself.
inductive Errno where
  | badf
  | ilseq
  | inval
  | loop
  | mlink
  | nametoolong
  | noent
  | nomem
  | notdir
  | notcapable
  | other (code : Nat)
  deriving DecidableEq, Repr

-- A symbolic link is shorter than this, and the operating system reports no longer one.
def PATH_MAX : Nat := 4096

-- What the calls do with the path in the end.
inductive Operation where
  | mkdirat
  | openat
  | readlinkat
  | fstatat
  | utimensat
  | symlinkat
  | unlinkat (directory : Bool)
  | renameat
  | linkat
  deriving DecidableEq, Repr

-- What a call of the operating system or of the allocator answers. It may remember what has been
-- asked, and other processes may change the files in between: that is its own state.
structure Os (σ : Type) where
  -- `wasm_runtime_malloc`: whether there is memory
  malloc : σ → Nat → Bool × σ
  -- the number that a failing allocation leaves in `errno`
  errno : σ → Errno
  -- `os_openat` with `__WASI_O_DIRECTORY` and without `__WASI_LOOKUP_SYMLINK_FOLLOW`
  openat : σ → Nat → List Char → Except Errno Nat × σ
  -- `os_fstatat`: the size
  fstatat : σ → Nat → List Char → Except Errno Nat × σ
  -- `os_readlinkat` into a buffer of this size
  readlinkat : σ → Nat → List Char → Nat →
    Except Errno {text : List Char // text.length < PATH_MAX} × σ
  -- `os_close`: the error, if there is one
  close : σ → Nat → Option Errno × σ
  -- `os_realpath`
  realpath : σ → List Char → Option (List Char) × σ
  -- `os_mkdirat` and the like, on one path or on two
  operate : σ → Operation → List (Nat × List Char) → Except Errno Unit × σ

-- What has been done, for the accounts. A buffer goes by a number.
inductive Event where
  | malloc (buffer : Nat)
  | free (buffer : Nat)
  | acquire (object : Nat)
  | release (object : Nat)
  | openat (dir : Nat) (path : List Char) (result : Option Nat)
  | fstatat (dir : Nat) (path : List Char)
  | readlinkat (dir : Nat) (path : List Char)
  | close (handle : Nat)
  | operate (operation : Operation) (paths : List (Nat × List Char))
  deriving DecidableEq, Repr

-- `log` begins with the last event.
structure World (σ : Type) where
  os : σ
  next : Nat
  log : List Event

namespace World

variable {σ : Type} (os : Os σ) (w : World σ)

def malloc (size : Nat) : Option Nat × World σ :=
  match os.malloc w.os size with
  | (true, s) => (some w.next, ⟨s, w.next + 1, .malloc w.next :: w.log⟩)
  | (false, s) => (none, { w with os := s })

def note (event : Event) : World σ := { w with log := event :: w.log }

def free (buffer : Nat) : World σ := w.note (.free buffer)

def openat (dir : Nat) (path : List Char) : Except Errno Nat × World σ :=
  let answer := os.openat w.os dir path
  (answer.1, { w with os := answer.2, log := .openat dir path answer.1.toOption :: w.log })

def fstatat (dir : Nat) (path : List Char) : Except Errno Nat × World σ :=
  let answer := os.fstatat w.os dir path
  (answer.1, { w with os := answer.2, log := .fstatat dir path :: w.log })

def readlinkat (dir : Nat) (path : List Char) (size : Nat) :
    Except Errno {text : List Char // text.length < PATH_MAX} × World σ :=
  let answer := os.readlinkat w.os dir path size
  (answer.1, { w with os := answer.2, log := .readlinkat dir path :: w.log })

def close (handle : Nat) : Option Errno × World σ :=
  let answer := os.close w.os handle
  (answer.1, { w with os := answer.2, log := .close handle :: w.log })

def realpath (path : List Char) : Option (List Char) × World σ :=
  let answer := os.realpath w.os path
  (answer.1, { w with os := answer.2 })

def operate (operation : Operation) (paths : List (Nat × List Char)) :
    Except Errno Unit × World σ :=
  let answer := os.operate w.os operation paths
  (answer.1, { w with os := answer.2, log := .operate operation paths :: w.log })

end World

-- A string up to its end in a buffer that is to be freed.
structure Text where
  text : List Char
  start : Nat
  deriving DecidableEq, Repr

def cString (bytes : List Char) : List Char := bytes.takeWhile (· ≠ '\x00')

section Strings

variable {σ : Type} (os : Os σ)

def strNullterminate (w : World σ) (s : List Char) : Except Errno Text × World σ :=
  match w.malloc os ((cString s).length + 1) with
  | (none, w) => (.error (os.errno w.os), w)
  | (some ret, w) =>
      if (cString s).length ≠ s.length then (.error .ilseq, w.free ret)
      else (.ok ⟨s, ret⟩, w)

-- The loop of `readlinkat_dup`. The allocation gets the length cut to 32 bits.
def readLoop (w : World σ) (handle : Nat) (path : List Char) (bufLen : Nat) (hpos : 0 < bufLen) :
    Except Errno (Text × Nat) × World σ :=
  match w.malloc os (bufLen % 2 ^ 32) with
  | (none, w) => (.error .nomem, w)
  | (some buf, w) =>
      match w.readlinkat os handle path bufLen with
      | (.error e, w) => (.error e, w.free buf)
      | (.ok ⟨text, _⟩, w) =>
          if text.length < bufLen then (.ok (⟨cString text, buf⟩, text.length + 1), w)
          else readLoop (w.free buf) handle path (bufLen * 2) (by omega)
termination_by PATH_MAX - bufLen

-- The string and the length that goes with it.
def readlinkatDup (w : World σ) (handle : Nat) (path : List Char) :
    Except Errno (Text × Nat) × World σ :=
  match w.fstatat os handle path with
  | (.ok (size + 1), w) => readLoop os w handle path (size + 2) (by omega)
  | (_, w) => readLoop os w handle path 32 (by omega)

-- `b_strcat_s(s1, s1max, s2)`: too long a string is left as it is.
def bStrcatS (s1 : List Char) (s1max : Nat) (s2 : List Char) : List Char :=
  if s1max < s1.length + s2.length + 1 then s1 else s1 ++ s2

end Strings

-- The state of the loop in `path_get`.
structure Walk (σ : Type) where
  world : World σ
  -- `fds[curfd]` down to `fds[1]`
  fds : List Nat
  -- `paths[curpath]` with `paths_start[curpath]`
  path : Text
  -- the same from `curpath - 1` down to 0
  below : List Text
  expansions : Fin 128

-- How the loop ends. On success `path` is in the buffer `start`, or in none.
inductive Ending (σ : Type) where
  | success (walk : Walk σ) (path : List Char) (start : Option Nat)
  | fail (walk : Walk σ) (error : Errno)

inductive Flow (σ : Type) where
  | next (walk : Walk σ)
  | done (ending : Ending σ)

-- `paths[curpath]` goes on.
def Walk.advance {σ : Type} (walk : Walk σ) (text : List Char) : Walk σ :=
  { walk with path := { walk.path with text := text } }

-- What is left of the paths.
def Walk.rest {σ : Type} (walk : Walk σ) : Nat :=
  walk.path.text.length + (walk.below.flatMap Text.text).length

section Loop

variable {σ : Type} (os : Os σ)

-- A component has been dealt with.
def endComponent (walk : Walk σ) : Flow σ :=
  if walk.path.text = [] then
    match walk.below with
    | [] => .done (.success { walk with world := walk.world.free walk.path.start } ['.'] none)
    | path :: below =>
        .next { walk with
          world := walk.world.free walk.path.start
          path := path
          below := below }
  else .next walk

def pushSymlink (walk : Walk σ) (symlink : Text) (symlinkLen : Nat) (endsWithSlashes : Bool) :
    Flow σ :=
  if h : walk.expansions + 1 = 128 then
    .done (.fail { walk with world := walk.world.free symlink.start } .loop)
  else
    let expansions : Fin 128 := ⟨walk.expansions + 1, by omega⟩
    let path : Text :=
      { symlink with
        text := if endsWithSlashes then bStrcatS symlink.text symlinkLen ['/'] else symlink.text }
    if walk.path.text = [] then
      .next { walk with
        world := walk.world.free walk.path.start
        path := path
        expansions := expansions }
    else if walk.below.length + 1 = 32 then
      .done (.fail { walk with world := walk.world.free symlink.start } .loop)
    else
      .next { walk with path := path, below := walk.path :: walk.below, expansions := expansions }

-- A component that must be a directory.
def enterDirectory (base : Nat) (walk : Walk σ) (file : List Char) (endsWithSlashes : Bool) :
    Flow σ :=
  match walk.world.openat os (walk.fds.headD base) file with
  | (.ok newdir, world) =>
      if walk.fds.length + 1 = 128 then
        .done (.fail { walk with world := (world.close os newdir).2 } .nametoolong)
      else endComponent { walk with world := world, fds := newdir :: walk.fds }
  | (.error e, world) =>
      if e ≠ .loop ∧ e ≠ .mlink ∧ e ≠ .notdir then .done (.fail { walk with world := world } e)
      else
        match readlinkatDup os world (walk.fds.headD base) file with
        | (.ok (symlink, symlinkLen), world) =>
            pushSymlink { walk with world := world } symlink symlinkLen endsWithSlashes
        | (.error e, world) =>
            .done (.fail { walk with world := world } (if e = .inval then .notdir else e))

-- The last component.
def lastComponent (base : Nat) (follow : Bool) (walk : Walk σ) (path file : List Char)
    (endsWithSlashes : Bool) : Flow σ :=
  if endsWithSlashes ∨ follow then
    match readlinkatDup os walk.world (walk.fds.headD base) file with
    | (.ok (symlink, symlinkLen), world) =>
        pushSymlink { walk with world := world } symlink symlinkLen endsWithSlashes
    | (.error e, world) =>
        if e ≠ .inval ∧ e ≠ .noent then .done (.fail { walk with world := world } e)
        else .done (.success { walk with world := world } path (some walk.path.start))
  else .done (.success walk path (some walk.path.start))

-- One round of the loop in `path_get`.
def round (base : Nat) (follow needsFinalComponent : Bool) (walk : Walk σ) : Flow σ :=
  let path := walk.path.text
  let file := path.takeWhile (· ≠ '/')
  let fileEnd := path.dropWhile (· ≠ '/')
  let rest := fileEnd.dropWhile (· = '/')
  let endsWithSlashes : Bool := fileEnd ≠ []
  let walk := walk.advance rest
  if file = [] then .done (.fail walk (if endsWithSlashes then .notcapable else .noent))
  else if file = ['.'] then endComponent walk
  else if file = ['.', '.'] then
    match walk.fds with
    | [] => .done (.fail walk .notcapable)
    | fd :: fds =>
        match walk.world.close os fd with
        | (some e, world) => .done (.fail { walk with world := world, fds := fds } e)
        | (none, world) => endComponent { walk with world := world, fds := fds }
  else if walk.below ≠ [] ∨ rest ≠ [] ∨ (endsWithSlashes ∧ ¬needsFinalComponent) then
    enterDirectory os base walk file endsWithSlashes
  else lastComponent os base follow walk path file endsWithSlashes

-- A component that is dealt with does not bring anything back.
theorem endComponent_next {walk next : Walk σ} (h : endComponent walk = .next next) :
    next.expansions = walk.expansions ∧ next.rest = walk.rest := by
  rw [endComponent] at h
  split at h
  case isFalse =>
    obtain rfl := Flow.next.inj h
    exact ⟨rfl, rfl⟩
  case isTrue hempty =>
    split at h
    · cases h
    · rename_i path below hbelow
      obtain rfl := Flow.next.inj h
      refine ⟨rfl, ?_⟩
      rw [Walk.rest, Walk.rest, hempty, hbelow, List.flatMap_cons, List.length_append]
      exact (Nat.zero_add _).symm

theorem pushSymlink_next {walk next : Walk σ} {symlink : Text} {len : Nat} {slash : Bool}
    (h : pushSymlink walk symlink len slash = .next next) :
    next.expansions.val = walk.expansions + 1 := by
  rw [pushSymlink] at h
  split at h
  · cases h
  · simp only at h
    split at h
    · obtain rfl := Flow.next.inj h
      rfl
    · split at h
      · cases h
      · obtain rfl := Flow.next.inj h
        rfl

-- An expansion is one of 128.
def Walk.Before (walk next : Walk σ) : Prop :=
  walk.expansions < next.expansions ∨
    next.expansions = walk.expansions ∧ next.rest < walk.rest

theorem enterDirectory_next {base : Nat} {walk next : Walk σ} {file : List Char} {slash : Bool}
    (h : enterDirectory os base walk file slash = .next next) :
    walk.expansions < next.expansions ∨
      next.expansions = walk.expansions ∧ next.rest = walk.rest := by
  rw [enterDirectory] at h
  split at h
  · split at h
    · cases h
    · obtain ⟨hsame, hrest⟩ := endComponent_next h
      exact .inr ⟨hsame, hrest⟩
  · split at h
    · cases h
    · split at h
      · have hexpanded := pushSymlink_next h
        refine .inl (Fin.lt_def.mpr ?_)
        simp only at hexpanded
        omega
      · cases h

theorem lastComponent_next {base : Nat} {follow slash : Bool} {walk next : Walk σ}
    {path file : List Char}
    (h : lastComponent os base follow walk path file slash = .next next) :
    walk.expansions < next.expansions := by
  rw [lastComponent] at h
  split at h
  · split at h
    · have hexpanded := pushSymlink_next h
      refine Fin.lt_def.mpr ?_
      simp only at hexpanded
      omega
    · split at h <;> cases h
  · cases h

theorem length_rest {path : List Char} (h : path.takeWhile (· ≠ '/') ≠ []) :
    ((path.dropWhile (· ≠ '/')).dropWhile (· = '/')).length < path.length := by
  have htake := List.length_pos_iff.mpr h
  have hdrop := (List.dropWhile_suffix (· = '/') (l := path.dropWhile (· ≠ '/'))).length_le
  have hsplit := congrArg List.length (List.takeWhile_append_dropWhile (p := (· ≠ '/')) (l := path))
  rw [List.length_append] at hsplit
  omega

theorem round_next {base : Nat} {follow needsFinalComponent : Bool} {walk next : Walk σ}
    (h : round os base follow needsFinalComponent walk = .next next) : walk.Before next := by
  simp only [round] at h
  split at h
  · cases h
  · rename_i hfile
    -- whatever is left after the component is shorter
    have hless : (walk.advance
        ((walk.path.text.dropWhile (· ≠ '/')).dropWhile (· = '/'))).rest < walk.rest := by
      have hlength := length_rest hfile
      simp only [Walk.rest, Walk.advance]
      omega
    split at h
    · obtain ⟨hsame, hrest⟩ := endComponent_next h
      exact .inr ⟨hsame, hrest ▸ hless⟩
    · split at h
      · split at h
        · cases h
        · split at h
          · cases h
          · obtain ⟨hsame, hrest⟩ := endComponent_next h
            exact .inr ⟨hsame, hrest ▸ hless⟩
      · split at h
        · refine (enterDirectory_next os h).imp_right fun ⟨hsame, hrest⟩ => ⟨hsame, ?_⟩
          exact hrest ▸ hless
        · have hexpanded := lastComponent_next os h
          exact .inl hexpanded

-- The loop of `path_get`.
def pathLoop (base : Nat) (follow needsFinalComponent : Bool) (walk : Walk σ) : Ending σ :=
  match _h : round os base follow needsFinalComponent walk with
  | .next next => pathLoop base follow needsFinalComponent next
  | .done ending => ending
termination_by (128 - walk.expansions.val, walk.rest)
decreasing_by
  rcases round_next os (by assumption) with hless | ⟨hsame, hless⟩
  · exact Prod.Lex.left _ _ (by omega)
  · rw [hsame]
    exact Prod.Lex.right _ hless

theorem pathLoop_next {base : Nat} {follow needsFinalComponent : Bool} {walk : Walk σ}
    (next : Walk σ) (h : round os base follow needsFinalComponent walk = .next next) :
    pathLoop os base follow needsFinalComponent walk =
      pathLoop os base follow needsFinalComponent next := by
  rw [pathLoop]
  split
  · rename_i next' hround
    obtain rfl := Flow.next.inj (h.symm.trans hround)
    rfl
  · rename_i ending hround
    cases h.symm.trans hround

theorem pathLoop_done {base : Nat} {follow needsFinalComponent : Bool} {walk : Walk σ}
    {ending : Ending σ} (h : round os base follow needsFinalComponent walk = .done ending) :
    pathLoop os base follow needsFinalComponent walk = ending := by
  rw [pathLoop]
  split
  · rename_i next hround
    cases h.symm.trans hround
  · rename_i ending' hround
    exact Flow.done.inj (hround.symm.trans h)

end Loop

-- `struct path_access`; `follow` is always false, since the links have been followed.
structure PathAccess where
  fd : Nat
  path : List Char
  follow : Bool
  pathStart : Option Nat
  object : Nat
  deriving DecidableEq, Repr

section Calls

variable {σ : Type} (os : Os σ)

def closeAll (w : World σ) (fds : List Nat) : World σ :=
  fds.foldl (fun w fd => (w.close os fd).2) w

def freeAll (w : World σ) (buffers : List Nat) : World σ := buffers.foldl World.free w

def Ending.access (base : Nat) : Ending σ → Except Errno PathAccess × World σ
  | .success walk path start =>
      (.ok ⟨walk.fds.headD base, path, false, start, base⟩,
        closeAll os walk.world walk.fds.tail.reverse)
  | .fail walk e =>
      let world := closeAll os walk.world walk.fds.reverse
      let world := freeAll world ((walk.path :: walk.below).map Text.start).reverse
      (.error e, world.note (.release base))

-- `object` is what `fd_object_get` gives for the descriptor: the handle of the directory.
def pathGet (w : World σ) (object : Except Errno Nat) (follow : Bool) (upath : List Char)
    (needsFinalComponent : Bool) : Except Errno PathAccess × World σ :=
  match strNullterminate os w upath with
  | (.error e, w) => (.error e, w)
  | (.ok path, w) =>
      match object with
      | .error e => (.error e, w.free path.start)
      | .ok base =>
          (pathLoop os base follow needsFinalComponent
            ⟨w.note (.acquire base), [], path, [], 0⟩).access os base

-- A null pointer is not freed.
def freePath (w : World σ) : Option Nat → World σ
  | some start => w.free start
  | none => w

def pathPut (w : World σ) (pa : PathAccess) : World σ :=
  let w := freePath w pa.pathStart
  let w := if pa.object ≠ pa.fd then (w.close os pa.fd).2 else w
  w.note (.release pa.object)

-- A call on one path. `path_create_directory`, `path_unlink_file` and the others that take no
-- lookup flags pass no `follow`.
def pathCall (w : World σ) (object : Except Errno Nat) (follow : Bool) (path : List Char)
    (needsFinalComponent : Bool) (operation : Operation) : Except Errno Unit × World σ :=
  match pathGet os w object follow path needsFinalComponent with
  | (.error e, w) => (.error e, w)
  | (.ok pa, w) =>
      let answer := w.operate os operation [(pa.fd, pa.path)]
      (answer.1, pathPut os answer.2 pa)

def pathCreateDirectory (w : World σ) (object : Except Errno Nat) (path : List Char) :
    Except Errno Unit × World σ :=
  pathCall os w object false path true .mkdirat

-- `path_open` up to the point where the new handle goes into the table. `creates` tells whether
-- `__WASI_O_CREAT` is set.
def pathOpenFile (w : World σ) (object : Except Errno Nat) (follow creates : Bool)
    (path : List Char) : Except Errno Unit × World σ :=
  pathCall os w object follow path creates .openat

def pathReadlink (w : World σ) (object : Except Errno Nat) (path : List Char) :
    Except Errno Unit × World σ :=
  pathCall os w object false path false .readlinkat

def pathFilestatGet (w : World σ) (object : Except Errno Nat) (follow : Bool)
    (path : List Char) : Except Errno Unit × World σ :=
  pathCall os w object follow path false .fstatat

-- `path_filestat_set_times`, the flags being valid.
def pathFilestatSetTimes (w : World σ) (object : Except Errno Nat) (follow : Bool)
    (path : List Char) : Except Errno Unit × World σ :=
  pathCall os w object follow path false .utimensat

def pathUnlinkFile (w : World σ) (object : Except Errno Nat) (path : List Char) :
    Except Errno Unit × World σ :=
  pathCall os w object false path true (.unlinkat false)

def pathRemoveDirectory (w : World σ) (object : Except Errno Nat) (path : List Char) :
    Except Errno Unit × World σ :=
  pathCall os w object false path true (.unlinkat true)

def pathRename (w : World σ) (oldObject newObject : Except Errno Nat)
    (oldPath newPath : List Char) : Except Errno Unit × World σ :=
  match pathGet os w oldObject false oldPath true with
  | (.error e, w) => (.error e, w)
  | (.ok oldPa, w) =>
      match pathGet os w newObject false newPath true with
      | (.error e, w) => (.error e, pathPut os w oldPa)
      | (.ok newPa, w) =>
          let answer := w.operate os .renameat [(oldPa.fd, oldPa.path), (newPa.fd, newPa.path)]
          (answer.1, pathPut os (pathPut os answer.2 oldPa) newPa)

-- The loop of `validate_path` over the preopened directories.
def underPrestat (w : World σ) (pathReal : List Char) : List (Option (List Char)) → Bool × World σ
  | [] => (false, w)
  | none :: prestats => underPrestat w pathReal prestats
  | some dir :: prestats =>
      match w.realpath os dir with
      | (none, w) => (false, w)
      | (some prestatDirReal, w) =>
          if prestatDirReal.isPrefixOf pathReal then (true, w)
          else underPrestat w pathReal prestats

def validatePath (w : World σ) (path : List Char) (prestats : List (Option (List Char))) :
    Bool × World σ :=
  match w.realpath os path with
  | (none, w) => (true, w)
  | (some pathReal, w) => underPrestat os w pathReal prestats

-- A path that is not valid is an early return.
def pathLink (w : World σ) (prestats : List (Option (List Char)))
    (oldObject newObject : Except Errno Nat) (oldFollow : Bool) (oldPath newPath : List Char) :
    Except Errno Unit × World σ :=
  match pathGet os w oldObject oldFollow oldPath false with
  | (.error e, w) => (.error e, w)
  | (.ok oldPa, w) =>
      match pathGet os w newObject false newPath true with
      | (.error e, w) => (.error e, pathPut os w oldPa)
      | (.ok newPa, w) =>
          match validatePath os w oldPa.path prestats with
          | (false, w) => (.error .badf, w)
          | (true, w) =>
              match validatePath os w newPa.path prestats with
              | (false, w) => (.error .badf, w)
              | (true, w) =>
                  let answer := w.operate os .linkat
                    [(oldPa.fd, oldPa.path), (newPa.fd, newPa.path)]
                  (answer.1, pathPut os (pathPut os answer.2 oldPa) newPa)

def pathSymlink (w : World σ) (prestats : List (Option (List Char))) (oldPath : List Char)
    (object : Except Errno Nat) (newPath : List Char) : Except Errno Unit × World σ :=
  match strNullterminate os w oldPath with
  | (.error e, w) => (.error e, w)
  | (.ok target, w) =>
      match pathGet os w object false newPath true with
      | (.error e, w) => (.error e, w.free target.start)
      | (.ok pa, w) =>
          match validatePath os w target.text prestats with
          | (false, w) => (.error .badf, w.free target.start)
          | (true, w) =>
              let answer := w.operate os .symlinkat [(pa.fd, pa.path)]
              (answer.1, (pathPut os answer.2 pa).free target.start)

-- The calls of the guest that take a path, with the directory that `fd_object_get` gives.
inductive Call where
  | createDirectory (object : Except Errno Nat) (path : List Char)
  | openFile (object : Except Errno Nat) (follow creates : Bool) (path : List Char)
  | readlink (object : Except Errno Nat) (path : List Char)
  | filestatGet (object : Except Errno Nat) (follow : Bool) (path : List Char)
  | filestatSetTimes (object : Except Errno Nat) (follow : Bool) (path : List Char)
  | unlinkFile (object : Except Errno Nat) (path : List Char)
  | removeDirectory (object : Except Errno Nat) (path : List Char)
  | rename (oldObject newObject : Except Errno Nat) (oldPath newPath : List Char)
  | link (prestats : List (Option (List Char))) (oldObject newObject : Except Errno Nat)
      (oldFollow : Bool) (oldPath newPath : List Char)
  | symlink (prestats : List (Option (List Char))) (oldPath : List Char)
      (object : Except Errno Nat) (newPath : List Char)

def Call.run (w : World σ) : Call → Except Errno Unit × World σ
  | .createDirectory object path => pathCreateDirectory os w object path
  | .openFile object follow creates path => pathOpenFile os w object follow creates path
  | .readlink object path => pathReadlink os w object path
  | .filestatGet object follow path => pathFilestatGet os w object follow path
  | .filestatSetTimes object follow path => pathFilestatSetTimes os w object follow path
  | .unlinkFile object path => pathUnlinkFile os w object path
  | .removeDirectory object path => pathRemoveDirectory os w object path
  | .rename oldObject newObject oldPath newPath =>
      pathRename os w oldObject newObject oldPath newPath
  | .link prestats oldObject newObject oldFollow oldPath newPath =>
      pathLink os w prestats oldObject newObject oldFollow oldPath newPath
  | .symlink prestats oldPath object newPath => pathSymlink os w prestats oldPath object newPath

-- The directories that a call names.
def Call.directories : Call → List (Except Errno Nat)
  | .createDirectory object _ => [object]
  | .openFile object _ _ _ => [object]
  | .readlink object _ => [object]
  | .filestatGet object _ _ => [object]
  | .filestatSetTimes object _ _ => [object]
  | .unlinkFile object _ => [object]
  | .removeDirectory object _ => [object]
  | .rename oldObject newObject _ _ => [oldObject, newObject]
  | .link _ oldObject newObject _ _ _ => [oldObject, newObject]
  | .symlink _ _ object _ => [object]

-- The guest makes one call after the other.
def Call.next (w : World σ) (call : Call) : World σ × Except Errno Unit :=
  ((call.run os w).2, (call.run os w).1)

end Calls

end Watz.Wasi
