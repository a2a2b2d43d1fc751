import Watz.Wasi.Files

namespace Watz.Wasi

open Base.Resolve

def errnoOf : Failure → Errno
  | .escapes => .notcapable
  | .missing => .noent
  | .noDirectory => .notdir

-- The path that is handed out stands for the result of the resolution.
def Denotes (path : List Char) (place : List (List Char)) : Outcome (List Char) → Prop
  | .directory result => result = place ∧ path = ['.']
  | .entry result name closed =>
      result = place ∧ ∃ slashes, path = name ++ slashes ∧ (∀ c ∈ slashes, c = '/') ∧
        closed = decide (slashes ≠ [])
  | .failed _ => False

section Simulation

variable {σ : Type} (os : Os σ) (tree : Entries (List Char)) (mode : Mode)
  (start : Progress (List Char))

-- Why the code may fail: the path says so, or there is no room left.
inductive Fails : Errno → Prop
  | resolved (failure) {links} (h : Leads tree mode start links (.stop (.failed failure))) :
      Fails (errnoOf failure)
  | nomem (h : os.Scarce) : Fails .nomem
  | links {links progress} (h : Leads tree mode start links progress) (hmany : 32 ≤ links) :
      Fails .loop
  | depth {links state} (h : Leads tree mode start links (.go state))
      (hdeep : 128 ≤ state.place.length) : Fails .nametoolong

def restMoves (below : List Text) : List (Move (List Char)) :=
  below.flatMap fun path => movesOf path.text

def restClosed (below : List Text) : Bool := below.getLast?.any fun path => endsWithSlash path.text

variable (places : σ → Places) (base : Nat)

-- The stack of paths stands for the rest of the resolution.
structure Tracks (walk : Walk σ) (place : List (List Char)) : Prop where
  leads : Leads tree mode start walk.expansions
    (splice (routeOf walk.path.text) place (restMoves walk.below) (restClosed walk.below))
  placed : Placed (places walk.world.os) base walk.fds place
  queued : ∀ path ∈ walk.below, IsRelative path.text
  nested : walk.below.length ≤ walk.expansions

-- The same after a component, when nothing may be left of the last path.
structure Resumes (walk : Walk σ) (place : List (List Char)) (closed : Bool) : Prop where
  leads : Leads tree mode start walk.expansions
    (.go ⟨place, movesOf walk.path.text ++ restMoves walk.below, closed⟩)
  relative : walk.path.text ≠ [] → IsRelative walk.path.text
  closed_eq : walk.path.text ≠ [] → walk.below = [] → closed = endsWithSlash walk.path.text
  closed_below : walk.below ≠ [] → closed = restClosed walk.below
  placed : Placed (places walk.world.os) base walk.fds place
  queued : ∀ path ∈ walk.below, IsRelative path.text
  nested : walk.below.length ≤ walk.expansions

def Ending.Tracks : Ending σ → Prop
  | .success walk path _ => ∃ place outcome links,
      Placed (places walk.world.os) base walk.fds place ∧ Denotes path place outcome ∧
      Leads tree mode start links (.stop outcome)
  | .fail _ e => Fails os tree mode start e

def Flow.Tracks : Flow σ → Prop
  | .next walk => ∃ place, Wasi.Tracks tree mode start places base walk place
  | .done ending => ending.Tracks os tree mode start places base

variable {os tree mode start places base} {walk : Walk σ} {place : List (List Char)} {closed : Bool}

theorem movesOf_ne_nil {text : List Char} (h : IsRelative text) : movesOf text ≠ [] := by
  rw [(cut_of_relative h).moves]
  exact List.cons_ne_nil _ _

theorem restMoves_eq_nil {below : List Text} (h : ∀ path ∈ below, IsRelative path.text) :
    restMoves below = [] ↔ below = [] := by
  cases below with
  | nil => exact iff_of_true rfl rfl
  | cons path below =>
      refine iff_of_false (fun hnil => ?_) (List.cons_ne_nil _ _)
      rw [restMoves, List.flatMap_cons] at hnil
      exact movesOf_ne_nil (h path List.mem_cons_self) (List.append_eq_nil_iff.mp hnil).1

theorem splice_relative {text : List Char} {rest : List (Move (List Char))} (h : IsRelative text) :
    splice (routeOf text) place rest closed =
      .go ⟨place, movesOf text ++ rest, if rest = [] then endsWithSlash text else closed⟩ := by
  rw [routeOf_relative h]
  rfl

theorem endComponent_tracks (h : Resumes tree mode start places base walk place closed) :
    (endComponent walk).Tracks os tree mode start places base := by
  rw [endComponent]
  split
  · rename_i hempty
    have hleads := h.leads
    rw [hempty, show movesOf [] = [] from rfl, List.nil_append] at hleads
    split
    · rename_i hbelow
      rw [hbelow] at hleads
      exact ⟨place, .directory place, _, h.placed, ⟨rfl, rfl⟩, hleads.walk rfl rfl⟩
    · rename_i path below hbelow
      have hqueued := h.queued
      have hnested := h.nested
      have hclosed := h.closed_below (by rw [hbelow]; exact List.cons_ne_nil _ _)
      rw [hbelow] at hqueued hnested hclosed hleads
      obtain ⟨hpath, hrest⟩ := List.forall_mem_cons.mp hqueued
      refine ⟨place, ?_, h.placed, hrest, Nat.le_of_succ_le hnested⟩
      rw [splice_relative hpath]
      have hsame : (if restMoves below = [] then endsWithSlash path.text else restClosed below) =
          closed := by
        rw [hclosed]
        cases below with
        | nil => rfl
        | cons next below =>
            rw [if_neg (fun hnil => List.cons_ne_nil _ _ ((restMoves_eq_nil hrest).mp hnil))]
            rfl
      rw [hsame]
      exact hleads
  · rename_i hne
    have hrelative := h.relative hne
    refine ⟨place, ?_, h.placed, h.queued, h.nested⟩
    rw [splice_relative hrelative]
    have hsame : (if restMoves walk.below = [] then endsWithSlash walk.path.text
        else restClosed walk.below) = closed := by
      split
      · rename_i hnil
        exact (h.closed_eq hne ((restMoves_eq_nil h.queued).mp hnil)).symm
      · rename_i hnil
        exact (h.closed_below fun hbelow => hnil ((restMoves_eq_nil h.queued).mpr hbelow)).symm
    rw [hsame]
    exact h.leads

-- A link goes on the stack, or takes the place of a path of which nothing is left.
theorem pushSymlink_tracks {symlink : Text} {slash : Bool} {rest : List (Move (List Char))}
    (hrest : rest = movesOf walk.path.text ++ restMoves walk.below)
    (hleads : Leads tree mode start (walk.expansions + 1)
      (splice (routeOf symlink.text) place rest closed))
    (hrelative : walk.path.text ≠ [] → IsRelative walk.path.text)
    (hclosed : walk.path.text ≠ [] → walk.below = [] → closed = endsWithSlash walk.path.text)
    (hbelow : walk.below ≠ [] → closed = restClosed walk.below)
    (hplaced : Placed (places walk.world.os) base walk.fds place)
    (hqueued : ∀ path ∈ walk.below, IsRelative path.text)
    (hnested : walk.below.length ≤ walk.expansions) :
    (pushSymlink walk symlink (symlink.text.length + 1) slash).Tracks os tree mode start places
      base := by
  have htext : (if slash then bStrcatS symlink.text (symlink.text.length + 1) ['/']
      else symlink.text) = symlink.text := by
    rw [bStrcatS_link, ite_self]
  rw [pushSymlink]
  split
  · rename_i hlast
    exact .links hleads (by omega)
  · simp only [htext]
    split
    · rename_i hempty
      rw [hempty, show movesOf [] = [] from rfl, List.nil_append] at hrest
      refine ⟨place, ?_, hplaced, hqueued, Nat.le_succ_of_le hnested⟩
      have hsame : splice (routeOf symlink.text) place rest closed =
          splice (routeOf symlink.text) place (restMoves walk.below) (restClosed walk.below) := by
        rw [hrest]
        by_cases hnil : walk.below = []
        · rw [hnil]
          rfl
        · rw [hbelow hnil]
      rw [← hsame]
      exact hleads
    · rename_i hne
      split
      · rename_i hfull
        exact .links hleads (by omega)
      · refine ⟨place, ?_, hplaced, ?_, Nat.succ_le_succ hnested⟩
        · have hsame : closed = restClosed (walk.path :: walk.below) := by
            by_cases hnil : walk.below = []
            · rw [hclosed hne hnil, hnil]
              rfl
            · rw [hbelow hnil]
              obtain ⟨path, below, hcons⟩ := List.exists_cons_of_ne_nil hnil
              rw [hcons]
              rfl
          rw [← hsame, show restMoves (walk.path :: walk.below) = rest from hrest.symm]
          exact hleads
        · exact List.forall_mem_cons.mpr ⟨hrelative hne, hqueued⟩

-- The state of the resolution in front of a component.
structure Faces (tree : Entries (List Char)) (mode : Mode) (start : Progress (List Char))
    (places : σ → Places) (base : Nat) (walk : Walk σ) (place : List (List Char))
    (move : Move (List Char)) (closed : Bool) : Prop where
  leads : Leads tree mode start walk.expansions
    (.go ⟨place, move :: (movesOf walk.path.text ++ restMoves walk.below), closed⟩)
  relative : walk.path.text ≠ [] → IsRelative walk.path.text
  closed_eq : walk.path.text ≠ [] → walk.below = [] → closed = endsWithSlash walk.path.text
  closed_below : walk.below ≠ [] → closed = restClosed walk.below
  placed : Placed (places walk.world.os) base walk.fds place
  queued : ∀ path ∈ walk.below, IsRelative path.text
  nested : walk.below.length ≤ walk.expansions

-- A component has been dealt with in the directories that are open afterwards.
theorem Faces.resumes {move : Move (List Char)} {world : World σ} {fds : List Nat}
    {place' : List (List Char)} (h : Faces tree mode start places base walk place move closed)
    (hleads : Leads tree mode start walk.expansions
      (.go ⟨place', movesOf walk.path.text ++ restMoves walk.below, closed⟩))
    (hplaced : Placed (places world.os) base fds place') :
    Resumes tree mode start places base { walk with world := world, fds := fds } place' closed :=
  ⟨hleads, h.relative, h.closed_eq, h.closed_below, hplaced, h.queued, h.nested⟩

variable {files : Files} {file : List Char} {slash : Bool} {world : World σ}

-- The name is a link, which has been read.
theorem Faces.push {symlink : Text}
    (h : Faces files.tree mode start places base walk place (.enter file) closed)
    (hentry : files (file :: place) = .link symlink.text)
    (hfollow : movesOf walk.path.text ++ restMoves walk.below ≠ [] ∨ closed = true ∨
      mode.follow = true)
    (hstep : advance files.tree mode
      ⟨place, .enter file :: (movesOf walk.path.text ++ restMoves walk.below), closed⟩ =
        splice (routeOf symlink.text) place (movesOf walk.path.text ++ restMoves walk.below) closed)
    (hworld : places world.os = places walk.world.os) :
    (pushSymlink { walk with world := world } symlink (symlink.text.length + 1) slash).Tracks os
      files.tree mode start places base := by
  have hplaced : Placed (places world.os) base walk.fds place := hworld ▸ h.placed
  exact pushSymlink_tracks rfl (h.leads.follow (follows_link (tree_eq hentry) hfollow) hstep)
    h.relative h.closed_eq h.closed_below hplaced h.queued h.nested

-- A name that is gone through and is no link takes one step.
theorem Faces.pass (h : Faces files.tree mode start places base walk place (.enter file) closed)
    (hpass : movesOf walk.path.text ++ restMoves walk.below ≠ [] ∨ (closed ∧ ¬mode.keepLast))
    {node : Node} (hentry : files (file :: place) = node) (hnode : node.isLink = false) :
    Leads files.tree mode start walk.expansions
      (through files.tree place file (movesOf walk.path.text ++ restMoves walk.below) closed) :=
  h.leads.walk (follows_other (tree_ne_link (not_link hentry hnode))) (advance_through hpass)

theorem enterDirectory_tracks (hs : Serves os files places) (hname : IsName file)
    (h : Faces files.tree mode start places base walk place (.enter file) closed)
    (hpass : movesOf walk.path.text ++ restMoves walk.below ≠ [] ∨ (closed ∧ ¬mode.keepLast)) :
    (enterDirectory os base walk file slash).Tracks os files.tree mode start places base := by
  have hplace := h.placed.current
  rw [enterDirectory]
  split
  · rename_i handle world hopen
    obtain ⟨hentry, hfresh, hworld⟩ := open_ok hs hplace hname hopen
    have hleads := h.pass hpass hentry rfl
    rw [through, tree_eq hentry] at hleads
    split
    · rename_i hfull
      refine .depth hleads ?_
      rw [List.length_cons, h.placed.length_eq, hfull]
    · exact endComponent_tracks (h.resumes hleads (hworld ▸ h.placed.push hfresh))
  · rename_i e world hopen
    obtain ⟨hworld, herror⟩ := open_error hs hplace hname hopen
    split
    · rename_i hother'
      cases herror with
      | absent hentry =>
          have hleads := h.pass hpass hentry rfl
          rw [through, tree_eq hentry] at hleads
          exact .resolved .missing hleads
      | file hentry => exact absurd rfl hother'.2.2
      | link hentry he =>
          rcases he with rfl | rfl | rfl
          · exact absurd rfl hother'.1
          · exact absurd rfl hother'.2.1
          · exact absurd rfl hother'.2.2
    · rename_i hlink
      have hplace' : places world.os (walk.fds.headD base) = some place := hworld ▸ hplace
      have hread := readlinkatDup_serves hs hplace' hname
      split
      · rename_i symlink len world' heq
        rw [heq] at hread
        obtain ⟨hentry, rfl⟩ := hread.2.of_ok
        have hfollow : movesOf walk.path.text ++ restMoves walk.below ≠ [] ∨ closed = true ∨
            mode.follow = true := hpass.imp_right fun hclosed => .inl hclosed.1
        refine h.push hentry hfollow ?_ (hread.1.trans hworld)
        rw [advance_through hpass, through, tree_eq hentry]
        rfl
      · rename_i e' world' heq
        rw [heq] at hread
        rcases hread.2.of_error with ⟨hscarce, rfl⟩ | ⟨hno, rfl⟩
        · exact .nomem hscarce
        · cases herror with
          | absent hentry => exact absurd ⟨by decide, by decide, by decide⟩ hlink
          | file hentry =>
              have hleads := h.pass hpass hentry rfl
              rw [through, tree_eq hentry] at hleads
              rw [hentry]
              exact .resolved .noDirectory hleads
          | link hentry he => exact absurd hentry (hno _)

theorem lastComponent_tracks (hs : Serves os files places) (hname : IsName file) {path : List Char}
    (h : Faces files.tree mode start places base walk place (.enter file) closed)
    (hempty : walk.path.text = []) (hbelow : walk.below = [])
    (hlast : ¬(closed ∧ ¬mode.keepLast)) (hpath : Denotes path place (.entry place file closed)) :
    (lastComponent os base mode.follow walk path file closed).Tracks os files.tree mode start places
      base := by
  have hnil : movesOf walk.path.text ++ restMoves walk.below = [] := by
    rw [hempty, hbelow]
    rfl
  have hleads := h.leads
  rw [hnil] at hleads
  -- the name stands for itself
  have hstop : ∀ (world : World σ) (buffer : Option Nat),
      places world.os = places walk.world.os →
      follows files.tree mode ⟨place, [.enter file], closed⟩ = false →
      last files.tree mode place file closed = .stop (.entry place file closed) →
      Ending.Tracks os files.tree mode start places base
        (.success { walk with world := world } path buffer) := by
    intro world buffer hworld hfollows hstay
    have hplaced : Placed (places world.os) base walk.fds place := hworld ▸ h.placed
    exact ⟨place, _, _, hplaced, hpath,
      hleads.walk hfollows ((advance_last hlast).trans hstay)⟩
  rw [lastComponent]
  split
  · rename_i hfollow
    have hread := readlinkatDup_serves hs h.placed.current hname
    split
    · rename_i symlink len world heq
      rw [heq] at hread
      obtain ⟨hentry, rfl⟩ := hread.2.of_ok
      refine h.push hentry (.inr hfollow) ?_ hread.1
      rw [hnil, advance_last hlast, last_link (tree_eq hentry) hfollow]
    · rename_i e world heq
      rw [heq] at hread
      rcases hread.2.of_error with ⟨hscarce, rfl⟩ | ⟨hno, rfl⟩
      · exact .nomem hscarce
      · have hstays := hstop world (some walk.path.start) hread.1
          (follows_other (tree_ne_link hno)) (last_other (tree_ne_link hno))
        split
        · rename_i hodd
          rcases (files (file :: place)).readError_eq with hnoent | hinval
          · exact absurd hnoent hodd.2
          · exact absurd hinval hodd.1
        · exact hstays
  · rename_i hfollow
    simp only [not_or, Bool.not_eq_true] at hfollow
    exact hstop walk.world (some walk.path.start) rfl (follows_last hfollow.1 hfollow.2)
      (last_kept hfollow.1 hfollow.2)

-- What the stack of paths stands for, when the first of them has been cut.
theorem Tracks.faces {fileEnd rest : List Char}
    (h : Tracks tree mode start places base walk place)
    (hcut : Cut walk.path.text file fileEnd rest) (hrelative : IsRelative walk.path.text) :
    ∃ closed, Faces tree mode start places base (walk.advance rest) place (moveOf file) closed ∧
      (rest = [] → walk.below = [] → closed = decide (fileEnd ≠ [])) := by
  have hleads := h.leads
  rw [splice_relative hrelative, hcut.moves, List.cons_append] at hleads
  have hend : walk.below = [] →
      (if restMoves walk.below = [] then endsWithSlash walk.path.text
        else restClosed walk.below) = endsWithSlash walk.path.text := fun hbelow =>
    if_pos ((restMoves_eq_nil h.queued).mpr hbelow)
  refine ⟨_, ⟨hleads, fun hne => (hcut.goes_on hne).1, fun hne hbelow => ?_, fun hbelow => ?_,
    h.placed, h.queued, h.nested⟩, fun hnil hbelow => ?_⟩
  · exact (hend hbelow).trans (hcut.goes_on hne).2
  · exact if_neg fun hnil => hbelow ((restMoves_eq_nil h.queued).mp hnil)
  · exact (hend hbelow).trans (hcut.ends hnil).2

theorem moveOf_name (hdot : file ≠ ['.']) (hdotdot : file ≠ ['.', '.']) :
    moveOf file = .enter file := by
  rw [moveOf, if_neg hdot, if_neg hdotdot]

-- A path without a first component is empty or absolute.
theorem routeOf_no_file {text : List Char} (h : text.takeWhile (· ≠ '/') = []) :
    ∃ failure, routeOf text = .error failure ∧
      (if decide (text.dropWhile (· ≠ '/') ≠ []) = true then Errno.notcapable else .noent) =
        errnoOf failure := by
  cases text with
  | nil => exact ⟨.missing, rfl, rfl⟩
  | cons c tail =>
      have hc : c = '/' := by
        by_contra hne
        rw [List.takeWhile_cons_of_pos (by simpa using hne)] at h
        cases h
      subst hc
      exact ⟨.escapes, rfl, rfl⟩

theorem isRelative_of_file {text : List Char} (h : text.takeWhile (· ≠ '/') ≠ []) :
    IsRelative text := by
  refine ⟨fun hnil => h (by rw [hnil]; rfl), fun hhead => ?_⟩
  obtain ⟨tail, rfl⟩ := List.head?_eq_some_iff.mp hhead
  exact h rfl

-- A name that is not the last of all is one with moves behind it.
theorem moves_pass {rest : List Char} {below : List Text} {keepLast : Prop}
    (hqueued : ∀ path ∈ below, IsRelative path.text) (hrelative : rest ≠ [] → IsRelative rest)
    (hclosed : rest = [] → below = [] → closed = slash)
    (hpass : below ≠ [] ∨ rest ≠ [] ∨ (slash ∧ ¬keepLast)) :
    movesOf rest ++ restMoves below ≠ [] ∨ (closed ∧ ¬keepLast) := by
  by_cases hmoves : movesOf rest ++ restMoves below = []
  · obtain ⟨hnone, hqueue⟩ := List.append_eq_nil_iff.mp hmoves
    have hbelow := (restMoves_eq_nil hqueued).mp hqueue
    have hrest : rest = [] := Classical.byContradiction fun hne =>
      movesOf_ne_nil (hrelative hne) hnone
    rw [hclosed hrest hbelow]
    rcases hpass with hpass | hpass | hpass
    · exact absurd hbelow hpass
    · exact absurd hrest hpass
    · exact .inr hpass
  · exact .inl hmoves

theorem round_tracks (hs : Serves os files places)
    (h : Tracks files.tree mode start places base walk place) :
    (round os base mode.follow mode.keepLast walk).Tracks os files.tree mode start places base := by
  simp only [round]
  split
  · rename_i hfile
    obtain ⟨failure, hroute, herror⟩ := routeOf_no_file hfile
    have hleads := h.leads
    rw [hroute] at hleads
    change Fails os files.tree mode start _
    rw [herror]
    exact .resolved failure hleads
  · rename_i hfile
    have hrelative := isRelative_of_file hfile
    have hcut := cut_of_relative hrelative
    obtain ⟨closed, hfaces, hclosed⟩ := h.faces hcut hrelative
    split
    · rename_i hdot
      rw [hdot] at hfaces
      exact endComponent_tracks (hfaces.resumes (hfaces.leads.walk rfl rfl) hfaces.placed)
    · rename_i hdot
      split
      · rename_i hdotdot
        rw [hdotdot] at hfaces
        have hplaced := hfaces.placed
        split
        · rename_i hfds
          rw [hfds] at hplaced
          obtain ⟨rfl, -⟩ := hplaced
          exact .resolved .escapes (hfaces.leads.walk rfl rfl)
        · rename_i fd fds hfds
          rw [hfds] at hplaced
          obtain ⟨name, outer, rfl, houter⟩ := hplaced.pop
          obtain ⟨hnone, hplaces⟩ := hs.close walk.world.os fd
          split
          · rename_i e world hworld
            have herror : (os.close walk.world.os fd).1 = some e := congrArg Prod.fst hworld
            rw [hnone] at herror
            cases herror
          · rename_i world hworld
            obtain rfl := (Prod.mk.inj hworld).2
            exact endComponent_tracks
              (hfaces.resumes (hfaces.leads.walk rfl rfl) (hplaces ▸ houter))
      · rename_i hdotdot
        rw [moveOf_name hdot hdotdot] at hfaces
        have hname := isName_takeWhile hfile hdot hdotdot
        split
        · rename_i hpass
          exact enterDirectory_tracks hs hname hfaces
            (moves_pass h.queued (fun hne => (hcut.goes_on hne).1) hclosed hpass)
        · rename_i hstay
          simp only [not_or, not_not] at hstay
          obtain ⟨hbelow, hrest, hlast⟩ := hstay
          have heq := hclosed hrest hbelow
          rw [← heq] at hlast ⊢
          refine lastComponent_tracks hs hname hfaces hrest hbelow hlast ⟨rfl, _, ?_, ?_, heq⟩
          · exact hcut.text_eq
          · exact (hcut.ends hrest).1

theorem pathLoop_tracks (hs : Serves os files places)
    (h : Tracks files.tree mode start places base walk place) :
    (pathLoop os base mode.follow mode.keepLast walk).Tracks os files.tree mode start places
      base := by
  fun_induction pathLoop os base mode.follow mode.keepLast walk generalizing place with
  | case1 walk next hround ih =>
      have hnext := round_tracks hs h
      rw [hround] at hnext
      obtain ⟨place', hnext⟩ := hnext
      exact ih hnext
  | case2 walk ending hround =>
      have hending := round_tracks hs h
      rw [hround] at hending
      exact hending

end Simulation

section Get

variable {σ : Type} {os : Os σ} {files : Files} {places : σ → Places} {w w' : World σ} {base : Nat}
  {upath : List Char}

-- Where the resolution of a path begins.
def startOf (upath : List Char) : Progress (List Char) := splice (routeOf upath) [] [] false

theorem copy_ok (hs : Serves os files places) {path : Text}
    (h : strNullterminate os w upath = (.ok path, w')) :
    path.text = upath ∧ places w'.os = places w.os := by
  rw [strNullterminate] at h
  split at h
  · cases h
  · rename_i ret world hmalloc
    split at h
    · cases h
    · obtain ⟨hpath, rfl⟩ := Prod.mk.inj h
      obtain rfl := Except.ok.inj hpath
      exact ⟨rfl, malloc_places hs hmalloc⟩

theorem copy_error {e : Errno} (h : strNullterminate os w upath = (.error e, w')) :
    os.Scarce ∨ '\x00' ∈ upath := by
  rw [strNullterminate] at h
  split at h
  · rename_i world hmalloc
    exact .inl (malloc_scarce hmalloc)
  · split at h
    · rename_i hlength
      refine .inr (Classical.byContradiction fun hnul => hlength ?_)
      rw [cString_eq hnul]
    · cases h

theorem closeAll_places (hs : Serves os files places) {fds : List Nat} {handle : Nat}
    (h : handle ∉ fds) : places (closeAll os w fds).os handle = places w.os handle := by
  induction fds generalizing w with
  | nil => rfl
  | cons fd fds ih =>
      obtain ⟨hne, hrest⟩ := List.ne_and_not_mem_of_not_mem_cons h
      have hclose : places (w.close os fd).2.os handle = places w.os handle := by
        rw [show places (w.close os fd).2.os = _ from (hs.close w.os fd).2]
        exact Function.update_of_ne hne _ _
      exact (ih hrest).trans hclose

theorem Placed.current_kept {places : Places} {fds : List Nat} {place : List (List Char)}
    (h : Placed places base fds place) : fds.headD base ∉ fds.tail.reverse := by
  cases fds with
  | nil => exact List.not_mem_nil
  | cons fd fds => exact fun hmem => h.2.2.1 (List.mem_reverse.mp hmem)

theorem pathLoop_start (hs : Serves os files places) {path : Text} (hpath : path.text = upath)
    (hbase : places w.os base = some []) (follow needsFinalComponent : Bool) :
    (pathLoop os base follow needsFinalComponent ⟨w, [], path, [], 0⟩).Tracks os files.tree
      ⟨follow, needsFinalComponent⟩ (startOf upath) places base := by
  have hstart : Tracks files.tree ⟨follow, needsFinalComponent⟩ (startOf upath) places base
      ⟨w, [], path, [], 0⟩ [] := by
    refine ⟨?_, ⟨rfl, hbase⟩, fun _ hmem => absurd hmem List.not_mem_nil, Nat.le_refl _⟩
    rw [← hpath]
    exact .start
  exact pathLoop_tracks hs hstart

theorem pathGet_ok (hs : Serves os files places) (hbase : places w.os base = some [])
    {follow needsFinalComponent : Bool} {pa : PathAccess}
    (h : pathGet os w (.ok base) follow upath needsFinalComponent = (.ok pa, w')) :
    ∃ place outcome, places w'.os pa.fd = some place ∧ Denotes pa.path place outcome ∧
      (startOf upath).Gives files.tree ⟨follow, needsFinalComponent⟩ outcome := by
  rw [pathGet] at h
  split at h
  · cases h
  · rename_i path world hcopy
    obtain ⟨hpath, hplaces⟩ := copy_ok hs hcopy
    have htracks := pathLoop_start (w := world.note (.acquire base)) hs hpath
      (show places world.os base = _ from hplaces ▸ hbase) follow needsFinalComponent
    simp only at h
    generalize pathLoop os base follow needsFinalComponent _ = ending at h htracks
    cases ending with
    | success walk path start =>
        obtain ⟨place, outcome, links, hplaced, hdenotes, hleads⟩ := htracks
        obtain ⟨hpa, rfl⟩ := Prod.mk.inj h
        obtain rfl := Except.ok.inj hpa
        refine ⟨place, outcome, ?_, hdenotes, hleads.gives rfl⟩
        exact (closeAll_places hs hplaced.current_kept).trans hplaced.current
    | fail walk e => cases h

theorem pathGet_error (hs : Serves os files places) (hbase : places w.os base = some [])
    {follow needsFinalComponent : Bool} {e : Errno}
    (h : pathGet os w (.ok base) follow upath needsFinalComponent = (.error e, w')) :
    os.Scarce ∨ '\x00' ∈ upath ∨
      Fails os files.tree ⟨follow, needsFinalComponent⟩ (startOf upath) e := by
  rw [pathGet] at h
  split at h
  · rename_i hcopy
    exact (copy_error hcopy).imp_right .inl
  · rename_i path world hcopy
    obtain ⟨hpath, hplaces⟩ := copy_ok hs hcopy
    have htracks := pathLoop_start (w := world.note (.acquire base)) hs hpath
      (show places world.os base = _ from hplaces ▸ hbase) follow needsFinalComponent
    simp only at h
    generalize pathLoop os base follow needsFinalComponent _ = ending at h htracks
    cases ending with
    | success walk path start => cases h
    | fail walk e' =>
        obtain rfl := Except.error.inj (Prod.mk.inj h).1
        exact .inr (.inr htracks)

end Get

end Watz.Wasi
