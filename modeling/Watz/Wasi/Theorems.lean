import Mathlib.Logic.Relation
import Watz.Wasi.Resolution

namespace Watz.Wasi

open Base.Account
open Base.Resolve
open Base.Run

section Calls

variable {σ : Type} {os : Os σ} {w : World σ} {handles buffers objects : Multiset Nat}

theorem initial_holds (s : σ) : World.Holds ⟨s, 0, []⟩ 0 0 0 :=
  ⟨trivial, rfl, rfl, rfl, fun _ hmem => absurd hmem (Multiset.notMem_zero _)⟩

-- Whatever the guest asks for and whatever the operating system answers: a directory is only used
-- while it is open, for a plain name in it, and nothing is closed, freed or released twice.
theorem calls_lawful (os : Os σ) (s : σ) (calls : List Call)
    (hkept : ∀ call ∈ calls, ∀ object ∈ call.directories, Kept os object) :
    Lawful Allowed (final (Call.next os) ⟨s, 0, []⟩ calls).log := by
  obtain ⟨_, _, _, -, hholds⟩ := run_leaves (initial_holds s) hkept
  exact hholds.lawful

-- Nothing is left open, allocated or acquired, unless a link was refused for one of its paths.
theorem calls_leave_nothing_iff (os : Os σ) (s : σ) (calls : List Call)
    (hkept : ∀ call ∈ calls, ∀ object ∈ call.directories, Kept os object) :
    (balance Event.handle (final (Call.next os) ⟨s, 0, []⟩ calls).log = 0 ∧
      balance Event.buffer (final (Call.next os) ⟨s, 0, []⟩ calls).log = 0 ∧
      balance Event.object (final (Call.next os) ⟨s, 0, []⟩ calls).log = 0) ↔
    ∀ t ∈ steps (Call.next os) ⟨s, 0, []⟩ calls, ¬t.input.Refused os t.before := by
  obtain ⟨handles, buffers, objects, hleft, hholds⟩ := run_leaves (initial_holds s) hkept
  rw [hholds.opened, hholds.allocated, hholds.acquired, add_zero, add_zero, add_zero]
  constructor
  · rintro ⟨-, -, hnone⟩ t ht hrefused
    obtain ⟨object, hmem⟩ := hleft.directory ⟨t, ht, hrefused⟩
    rw [hnone] at hmem
    exact Multiset.notMem_zero _ hmem
  · intro hnone
    exact hleft.nothing fun ⟨t, ht, hrefused⟩ => hnone t ht hrefused

-- One round of the loop that goes on.
def Rounds (os : Os σ) (base : Nat) (follow needsFinalComponent : Bool) (walk next : Walk σ) :
    Prop :=
  round os base follow needsFinalComponent walk = .next next

-- After any number of rounds the stacks of handles and of paths fit into their arrays, and what
-- is open and allocated since the call began is on them.
theorem rounds_owned (hw : w.Holds handles buffers objects) {upath : List Char} {path : Text}
    {w' : World σ} (hcopy : strNullterminate os w upath = (.ok path, w')) (base : Nat)
    (follow needsFinalComponent : Bool) {walk : Walk σ}
    (hwalk : Relation.ReflTransGen (Rounds os base follow needsFinalComponent)
      ⟨w'.note (.acquire base), [], path, [], 0⟩ walk) :
    walk.fds.length < 128 ∧ walk.below.length < 32 ∧
      walk.world.Holds (walk.fds + handles) (walk.starts + buffers) (base ::ₘ objects) := by
  have howns : walk.Owns os base handles buffers objects := by
    induction hwalk with
    | refl => exact start_owns os ((strNullterminate_holds os hw upath).1 _ _ hcopy).2 base
    | tail _ hround ih =>
        have hnext := round_owns ih follow needsFinalComponent
        rw [hround] at hnext
        exact hnext
  exact ⟨howns.depth, howns.nesting, howns.holds⟩

end Calls

section Get

variable {σ : Type} {os : Os σ} {files : Files} {places : σ → Places} {w w' : World σ} {base : Nat}
  {upath : List Char}

theorem Denotes.inside {path : List Char} {place : List (List Char)} {outcome : Outcome (List Char)}
    {tree : Entries (List Char)} (h : Denotes path place outcome) (hwithin : outcome.Within tree) :
    Inside tree place := by
  cases outcome with
  | directory result =>
      obtain ⟨rfl, -⟩ := h
      exact hwithin
  | entry result name closed =>
      obtain ⟨rfl, -⟩ := h
      exact hwithin
  | failed failure => exact h.elim

-- What is handed out is what the path leads to, and it lies below the base, whatever the path and
-- the links on the way ask for.
theorem path_get_confined (hs : Serves os files places) (hbase : places w.os base = some [])
    (follow needsFinalComponent : Bool) {pa : PathAccess}
    (h : pathGet os w (.ok base) follow upath needsFinalComponent = (.ok pa, w')) :
    ∃ place outcome, places w'.os pa.fd = some place ∧ Denotes pa.path place outcome ∧
      (startOf upath).Gives files.tree ⟨follow, needsFinalComponent⟩ outcome ∧
      Inside files.tree place := by
  obtain ⟨place, outcome, hplace, hdenotes, hgives⟩ := pathGet_ok hs hbase h
  have hwithin := hgives.within (splice_within Inside.nil [] false)
  exact ⟨place, outcome, hplace, hdenotes, hgives, hdenotes.inside hwithin⟩

-- The links and the directories on the way fit into the arrays.
def Short (tree : Entries (List Char)) (mode : Mode) (start : Progress (List Char)) : Prop :=
  ∀ links progress, Leads tree mode start links progress →
    links < 32 ∧ ∀ state, progress = .go state → state.place.length < 128

inductive Answers (places : σ → Places) :
    Except Errno PathAccess × World σ → Outcome (List Char) → Prop
  | failed {failure w} : Answers places (.error (errnoOf failure), w) (.failed failure)
  | found {pa w place outcome} (hplace : places w.os pa.fd = some place)
      (hpath : Denotes pa.path place outcome) : Answers places (.ok pa, w) outcome

-- Where there is room for it, every path is resolved, and to what it leads to.
theorem path_get_resolves (hs : Serves os files places) (hbase : places w.os base = some [])
    (follow needsFinalComponent : Bool) (hmem : ¬os.Scarce) (hnul : '\x00' ∉ upath)
    (hshort : Short files.tree ⟨follow, needsFinalComponent⟩ (startOf upath)) :
    (∃ outcome, (startOf upath).Gives files.tree ⟨follow, needsFinalComponent⟩ outcome) ∧
    ∀ outcome, (startOf upath).Gives files.tree ⟨follow, needsFinalComponent⟩ outcome →
      Answers places (pathGet os w (.ok base) follow upath needsFinalComponent) outcome := by
  have hanswer : ∃ outcome,
      (startOf upath).Gives files.tree ⟨follow, needsFinalComponent⟩ outcome ∧
        Answers places (pathGet os w (.ok base) follow upath needsFinalComponent) outcome := by
    cases hget : pathGet os w (.ok base) follow upath needsFinalComponent with
    | mk answer w' =>
        cases answer with
        | ok pa =>
            obtain ⟨place, outcome, hplace, hdenotes, hgives⟩ := pathGet_ok hs hbase hget
            exact ⟨outcome, hgives, .found hplace hdenotes⟩
        | error e =>
            rcases pathGet_error hs hbase hget with hscarce | hnul' | hfails
            · exact absurd hscarce hmem
            · exact absurd hnul' hnul
            · cases hfails with
              | resolved failure hleads => exact ⟨.failed failure, hleads.gives rfl, .failed⟩
              | nomem hscarce => exact absurd hscarce hmem
              | links hleads hmany => exact absurd (hshort _ _ hleads).1 (Nat.not_lt.mpr hmany)
              | depth hleads hdeep =>
                  exact absurd ((hshort _ _ hleads).2 _ rfl) (Nat.not_lt.mpr hdeep)
  obtain ⟨outcome, hgives, hget⟩ := hanswer
  refine ⟨⟨outcome, hgives⟩, fun other hother => ?_⟩
  rw [← hgives.unique hother]
  exact hget

end Get

section Sample

-- An operating system for these files. The handles are the places in the table, and the last of
-- the first four is the directory at the base.
abbrev SampleState := {table : List (Option (List (List Char))) // 3 < table.length}

def sampleState : SampleState := ⟨[none, none, none, some []], by decide⟩

def SampleState.place (s : SampleState) (handle : Nat) : Option (List (List Char)) :=
  (s.1[handle]?).join

def SampleState.insert (s : SampleState) (place : List (List Char)) : SampleState :=
  ⟨s.1 ++ [some place], by rw [List.length_append]; exact Nat.lt_add_right _ s.2⟩

def SampleState.remove (s : SampleState) (handle : Nat) : SampleState :=
  ⟨s.1.set handle none, by rw [List.length_set]; exact s.2⟩

-- A directory with a link to the file that stands beside it.
def sampleFiles : Files
  | [] => .directory
  | [['d']] => .directory
  | [['f']] => .file
  | [['l'], ['d']] => .link ['.', '.', '/', 'f']
  | _ => .absent

def sampleOpenat (s : SampleState) (dir : Nat) (name : List Char) :
    Except Errno Nat × SampleState :=
  match s.place dir with
  | none => (.error .badf, s)
  | some place =>
      match sampleFiles (name :: place) with
      | .absent => (.error .noent, s)
      | .file => (.error .notdir, s)
      | .link _ => (.error .loop, s)
      | .directory => (.ok s.1.length, s.insert (name :: place))

def sampleReadlinkat (s : SampleState) (dir : Nat) (name : List Char) (size : Nat) :
    Except Errno {text : List Char // text.length < PATH_MAX} :=
  match s.place dir with
  | none => .error .badf
  | some place =>
      match sampleFiles (name :: place) with
      | .absent => .error .noent
      | .link text =>
          if h : (text.take size).length < PATH_MAX then .ok ⟨text.take size, h⟩
          else .error .nametoolong
      | _ => .error .inval

def sampleOs : Os SampleState where
  malloc s _ := (true, s)
  errno _ := .nomem
  openat := sampleOpenat
  fstatat s _ _ := (.ok 0, s)
  readlinkat s dir name size := (sampleReadlinkat s dir name size, s)
  close s handle := (none, s.remove handle)
  realpath s path := (some ('/' :: path), s)
  operate s _ _ := (.ok (), s)

theorem sample_kept : Kept sampleOs (.ok 3) := by
  rintro base hbase ⟨s, dir, name, hopen⟩
  obtain rfl := Except.ok.inj hbase
  rw [show sampleOs.openat = sampleOpenat from rfl, sampleOpenat] at hopen
  split at hopen
  · cases hopen
  · split at hopen
    · cases hopen
    · cases hopen
    · cases hopen
    · have hlength := s.2
      rw [Except.ok.inj hopen] at hlength
      exact absurd hlength (Nat.lt_irrefl _)

-- The last of the calls is refused: the file is not below the directory that is open to the guest.
def sampleCalls : List Call :=
  [.openFile (.ok 3) true false ['d', '/', 'l'], .unlinkFile (.ok 3) ['.', '.', '/', 'f'],
    .link [some ['d']] (.ok 3) (.ok 3) false ['f'] ['d', '/', 'g']]

theorem sampleCalls_kept :
    ∀ call ∈ sampleCalls, ∀ object ∈ call.directories, Kept sampleOs object := by
  have hdirectories : ∀ call ∈ sampleCalls, ∀ object ∈ call.directories, object = .ok 3 := by
    decide
  intro call hcall object hobject
  rw [hdirectories call hcall object hobject]
  exact sample_kept

theorem calls_lawful_sample :
    Lawful Allowed (final (Call.next sampleOs) ⟨sampleState, 0, []⟩ sampleCalls).log :=
  calls_lawful sampleOs sampleState sampleCalls sampleCalls_kept

theorem calls_leave_nothing_iff_sample :
    (balance Event.handle (final (Call.next sampleOs) ⟨sampleState, 0, []⟩ sampleCalls).log = 0 ∧
      balance Event.buffer (final (Call.next sampleOs) ⟨sampleState, 0, []⟩ sampleCalls).log = 0 ∧
      balance Event.object (final (Call.next sampleOs) ⟨sampleState, 0, []⟩ sampleCalls).log = 0) ↔
    ∀ t ∈ steps (Call.next sampleOs) ⟨sampleState, 0, []⟩ sampleCalls,
      ¬t.input.Refused sampleOs t.before :=
  calls_leave_nothing_iff sampleOs sampleState sampleCalls sampleCalls_kept

-- One round in the directory, from the beginning of the path.
theorem rounds_owned_sample :
    ∃ walk : Walk SampleState, walk.fds.length < 128 ∧ walk.below.length < 32 ∧
      walk.world.Holds (walk.fds + 0) (walk.starts + 0) (3 ::ₘ 0) ∧ walk.fds = [4] := by
  let walk : Walk SampleState :=
    ⟨⟨sampleState, 1, [.acquire 3, .malloc 0]⟩, [], ⟨['d', '/', 'l'], 0⟩, [], 0⟩
  have hcopy : strNullterminate sampleOs ⟨sampleState, 0, []⟩ ['d', '/', 'l'] =
      (.ok ⟨['d', '/', 'l'], 0⟩, ⟨sampleState, 1, [.malloc 0]⟩) := rfl
  have hround : Rounds sampleOs 3 true false walk
      ⟨⟨sampleState.insert [['d']], 1, [.openat 3 ['d'] (some 4), .acquire 3, .malloc 0]⟩, [4],
        ⟨['l'], 0⟩, [], 0⟩ := rfl
  obtain ⟨hdepth, hnesting, hholds⟩ :=
    rounds_owned (initial_holds sampleState) hcopy 3 true false (.single hround)
  exact ⟨_, hdepth, hnesting, hholds, rfl⟩

theorem place_insert (s : SampleState) (place : List (List Char)) :
    (s.insert place).place = Function.update s.place s.1.length (some place) := by
  funext handle
  rw [SampleState.place, SampleState.insert]
  rcases Nat.lt_trichotomy handle s.1.length with hlt | rfl | hgt
  · rw [Function.update_of_ne (Nat.ne_of_lt hlt), List.getElem?_append_left hlt]
    rfl
  · rw [Function.update_self, List.getElem?_concat_length]
    rfl
  · rw [Function.update_of_ne (Nat.ne_of_gt hgt), SampleState.place,
      List.getElem?_eq_none (Nat.le_of_lt hgt), List.getElem?_eq_none]
    rw [List.length_append]
    exact hgt

theorem place_remove (s : SampleState) (handle : Nat) :
    (s.remove handle).place = Function.update s.place handle none := by
  funext other
  rw [SampleState.place, SampleState.remove]
  by_cases heq : other = handle
  · subst heq
    rw [Function.update_self, List.getElem?_set_self']
    cases s.1[other]? <;> rfl
  · rw [Function.update_of_ne heq, List.getElem?_set_ne (Ne.symm heq)]
    rfl

theorem sampleFiles_link {place : List (List Char)} {text : List Char}
    (h : sampleFiles place = .link text) : text = ['.', '.', '/', 'f'] := by
  rw [sampleFiles.eq_def] at h
  split at h
  · cases h
  · cases h
  · cases h
  · exact (Node.link.inj h).symm
  · cases h

theorem sample_serves : Serves sampleOs sampleFiles SampleState.place where
  malloc _ _ := rfl
  fstatat _ _ _ := rfl
  close s handle := ⟨rfl, place_remove s handle⟩
  openDirectory s dir place name hplace _ hentry := by
    refine ⟨s.1.length, ?_, ?_, ?_⟩
    · simp only [sampleOs, sampleOpenat, hplace, hentry]
    · rw [SampleState.place, List.getElem?_eq_none (Nat.le_refl _)]
      rfl
    · simp only [sampleOs, sampleOpenat, hplace, hentry]
      exact place_insert s (name :: place)
  openAbsent s dir place name hplace _ hentry := by
    simp only [sampleOs, sampleOpenat, hplace, hentry]
  openFile s dir place name hplace _ hentry := by
    simp only [sampleOs, sampleOpenat, hplace, hentry]
  openLink s dir place name text hplace _ hentry := by
    refine ⟨.loop, ?_, .inl rfl⟩
    simp only [sampleOs, sampleOpenat, hplace, hentry]
  openOther s dir name e h := by
    simp only [sampleOs, sampleOpenat] at h ⊢
    split at h
    · rfl
    · split at h
      · rfl
      · rfl
      · rfl
      · cases h
  readlinkat _ _ _ _ := rfl
  readLink s dir place name text size hplace _ hentry := by
    obtain rfl := sampleFiles_link hentry
    have hshort : (['.', '.', '/', 'f'].take size).length < PATH_MAX :=
      Nat.lt_of_le_of_lt (List.length_take_le' ..) (by decide)
    refine ⟨by decide, ⟨_, hshort⟩, ?_, rfl⟩
    simp only [sampleOs, sampleReadlinkat, hplace, hentry]
    exact dif_pos hshort
  readOther s dir place name size hplace _ hno := by
    simp only [sampleOs, sampleReadlinkat, hplace]
    cases hentry : sampleFiles (name :: place) with
    | link text => exact absurd hentry (hno text)
    | absent => rfl
    | file => rfl
    | directory => rfl

-- Into the directory, out of it again, and to the file.
theorem path_get_confined_sample :
    ∃ pa w', pathGet sampleOs ⟨sampleState, 0, []⟩ (.ok 3) false
        ['d', '/', '.', '.', '/', 'f'] true = (.ok pa, w') ∧
      ∃ place outcome, w'.os.place pa.fd = some place ∧ Denotes pa.path place outcome ∧
        (startOf ['d', '/', '.', '.', '/', 'f']).Gives sampleFiles.tree ⟨false, true⟩ outcome ∧
        Inside sampleFiles.tree place := by
  let world (s : SampleState) (log : List Event) : World SampleState :=
    ⟨s, 1, log ++ [.acquire 3, .malloc 0]⟩
  let inside : SampleState := sampleState.insert [['d']]
  have hloop : pathLoop sampleOs 3 false true
      ⟨world sampleState [], [], ⟨['d', '/', '.', '.', '/', 'f'], 0⟩, [], 0⟩ =
        .success ⟨world (inside.remove 4) [.close 4, .openat 3 ['d'] (some 4)], [], ⟨[], 0⟩, [], 0⟩
          ['f'] (some 0) := by
    rw [pathLoop_next sampleOs ⟨world inside [.openat 3 ['d'] (some 4)], [4],
        ⟨['.', '.', '/', 'f'], 0⟩, [], 0⟩ rfl,
      pathLoop_next sampleOs ⟨world (inside.remove 4)
        [.close 4, .openat 3 ['d'] (some 4)], [], ⟨['f'], 0⟩, [], 0⟩ rfl]
    exact pathLoop_done sampleOs rfl
  have hget : pathGet sampleOs ⟨sampleState, 0, []⟩ (.ok 3) false
      ['d', '/', '.', '.', '/', 'f'] true = Ending.access sampleOs 3 (pathLoop sampleOs 3 false true
        ⟨world sampleState [], [], ⟨['d', '/', '.', '.', '/', 'f'], 0⟩, [], 0⟩) := rfl
  rw [hloop] at hget
  exact ⟨_, _, hget, path_get_confined sample_serves rfl false true hget⟩

-- The states of a resolution that follows the link.
theorem sample_leads {links : Nat} {progress : Progress (List Char)}
    (h : Leads sampleFiles.tree ⟨true, false⟩ (startOf ['d', '/', 'l']) links progress) :
    (links, progress) ∈ [(0, .go ⟨[], [.enter ['d'], .enter ['l']], false⟩),
      (0, .go ⟨[['d']], [.enter ['l']], false⟩), (1, .go ⟨[['d']], [.up, .enter ['f']], false⟩),
      (1, .go ⟨[], [.enter ['f']], false⟩), (1, .stop (.entry [] ['f'] false))] := by
  induction h with
  | start => exact List.mem_cons_self
  | step _ ih =>
      simp only [List.mem_cons, Prod.mk.injEq, Progress.go.injEq, reduceCtorEq, and_false,
        List.not_mem_nil, or_false] at ih ⊢
      rcases ih with ⟨rfl, rfl⟩ | ⟨rfl, rfl⟩ | ⟨rfl, rfl⟩ | ⟨rfl, rfl⟩
      · exact .inr (.inl ⟨rfl, rfl⟩)
      · exact .inr (.inr (.inl ⟨rfl, rfl⟩))
      · exact .inr (.inr (.inr (.inl ⟨rfl, rfl⟩)))
      · exact .inr (.inr (.inr (.inr ⟨rfl, rfl⟩)))

theorem path_get_resolves_sample :
    (∃ outcome, (startOf ['d', '/', 'l']).Gives sampleFiles.tree ⟨true, false⟩ outcome) ∧
    ∀ outcome, (startOf ['d', '/', 'l']).Gives sampleFiles.tree ⟨true, false⟩ outcome →
      Answers SampleState.place
        (pathGet sampleOs ⟨sampleState, 0, []⟩ (.ok 3) true ['d', '/', 'l'] false) outcome := by
  refine path_get_resolves sample_serves rfl true false ?_ (by decide) ?_
  · rintro ⟨s, size, hnone⟩
    cases hnone
  · intro links progress hleads
    have hmem := sample_leads hleads
    simp only [List.mem_cons, Prod.mk.injEq, List.not_mem_nil, or_false] at hmem
    rcases hmem with ⟨rfl, rfl⟩ | ⟨rfl, rfl⟩ | ⟨rfl, rfl⟩ | ⟨rfl, rfl⟩ | ⟨rfl, rfl⟩
    all_goals
      refine ⟨by decide, fun state hstate => ?_⟩
      cases hstate <;> decide

end Sample

end Watz.Wasi
