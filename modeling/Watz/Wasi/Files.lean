import Watz.Base.Resolve
import Watz.Wasi.Balance

namespace Watz.Wasi

open Base.Resolve

-- What a path says: the names between the slashes, and whether it ends with one.
def components (text : List Char) : List (List Char) := (text.splitOn '/').filter (· ≠ [])

def moveOf (component : List Char) : Move (List Char) :=
  if component = ['.'] then .stay
  else if component = ['.', '.'] then .up
  else .enter component

def movesOf (text : List Char) : List (Move (List Char)) := (components text).map moveOf

def endsWithSlash (text : List Char) : Bool := text.getLast? = some '/'

-- An empty path leads nowhere, and an absolute one out of the directory.
def routeOf (text : List Char) : Except Failure (Route (List Char)) :=
  if text = [] then .error .missing
  else if text.head? = some '/' then .error .escapes
  else .ok ⟨movesOf text, endsWithSlash text⟩

section Strings

variable {file rest slashes text : List Char}

theorem components_file (h : '/' ∉ file) (hne : file ≠ []) : components file = [file] := by
  rw [components, List.splitOn_eq_singleton h]
  simp [hne]

theorem components_cons_slash (text : List Char) : components ('/' :: text) = components text := by
  have h : ('/' :: text).splitOn '/' = [] :: text.splitOn '/' :=
    List.splitOn_append_cons_self_of_not_mem List.not_mem_nil text
  rw [components, h]
  simp [components]

theorem components_slashes (h : ∀ c ∈ slashes, c = '/') (text : List Char) :
    components (slashes ++ text) = components text := by
  induction slashes with
  | nil => rfl
  | cons c slashes ih =>
      obtain rfl := h c List.mem_cons_self
      rw [List.cons_append, components_cons_slash]
      exact ih fun d hd => h d (List.mem_cons_of_mem _ hd)

theorem components_append (h : '/' ∉ file) (hne : file ≠ []) (text : List Char) :
    components (file ++ '/' :: text) = file :: components text := by
  rw [components, List.splitOn_append_cons_self_of_not_mem h]
  simp [hne, components]

-- A path that is relative and not empty, or what is left of one.
structure IsRelative (text : List Char) : Prop where
  ne_nil : text ≠ []
  head : text.head? ≠ some '/'

theorem routeOf_relative (h : IsRelative text) :
    routeOf text = .ok ⟨movesOf text, endsWithSlash text⟩ := by
  rw [routeOf, if_neg h.ne_nil, if_neg h.head]

-- The first component of a path, and what follows it.
structure Cut (text file fileEnd rest : List Char) : Prop where
  text_eq : text = file ++ fileEnd
  ne_nil : file ≠ []
  no_slash : '/' ∉ file
  moves : movesOf text = moveOf file :: movesOf rest
  ends : rest = [] → (∀ c ∈ fileEnd, c = '/') ∧ endsWithSlash text = decide (fileEnd ≠ [])
  goes_on : rest ≠ [] → IsRelative rest ∧ endsWithSlash text = endsWithSlash rest

theorem endsWithSlash_append {first second : List Char} (h : second ≠ []) :
    endsWithSlash (first ++ second) = endsWithSlash second := by
  rw [endsWithSlash, endsWithSlash, List.getLast?_append, List.getLast?_eq_getLast_of_ne_nil h,
    Option.some_or]

theorem endsWithSlash_of_not_mem (h : '/' ∉ file) : endsWithSlash file = false := by
  rw [endsWithSlash, decide_eq_false_iff_not]
  exact fun hlast => h (List.mem_of_getLast? hlast)

theorem endsWithSlash_slashes (h : ∀ c ∈ slashes, c = '/') (hne : slashes ≠ []) :
    endsWithSlash slashes = true := by
  rw [endsWithSlash, List.getLast?_eq_getLast_of_ne_nil hne,
    h _ (List.getLast_mem hne), decide_eq_true rfl]

theorem file_ne_nil (h : IsRelative text) : text.takeWhile (· ≠ '/') ≠ [] := by
  obtain ⟨c, tail, rfl⟩ := List.exists_cons_of_ne_nil h.ne_nil
  have hc : c ≠ '/' := fun heq => h.head (by rw [heq]; rfl)
  rw [List.takeWhile_cons_of_pos (by simpa using hc)]
  exact List.cons_ne_nil _ _

theorem fileEnd_head {c : Char} {tail : List Char}
    (h : text.dropWhile (· ≠ '/') = c :: tail) : c = '/' := by
  have hnot := List.head?_dropWhile_not (· ≠ '/') text
  rw [h] at hnot
  simpa using hnot

theorem rest_head (fileEnd : List Char) (hne : fileEnd.dropWhile (· = '/') ≠ []) :
    (fileEnd.dropWhile (· = '/')).head? ≠ some '/' := by
  intro hhead
  have hnot := List.head_dropWhile_not (· = '/') hne
  rw [List.head?_eq_some_head hne] at hhead
  rw [Option.some.inj hhead] at hnot
  simp at hnot

theorem cut_of_relative (h : IsRelative text) :
    Cut text (text.takeWhile (· ≠ '/')) (text.dropWhile (· ≠ '/'))
      ((text.dropWhile (· ≠ '/')).dropWhile (· = '/')) := by
  have htext : text = text.takeWhile (· ≠ '/') ++ text.dropWhile (· ≠ '/') :=
    List.takeWhile_append_dropWhile.symm
  have hne := file_ne_nil h
  have hfile := not_mem_file text
  have hhead : ∀ c tail, text.dropWhile (· ≠ '/') = c :: tail → c = '/' := fun c tail =>
    fileEnd_head
  generalize text.dropWhile (· ≠ '/') = fileEnd at *
  generalize text.takeWhile (· ≠ '/') = file at *
  -- what follows the component is a number of slashes and the rest
  have hslashes : ∀ c ∈ fileEnd.takeWhile (· = '/'), c = '/' := fun c hc => by
    simpa using List.mem_takeWhile_imp hc
  have hsplit : fileEnd = fileEnd.takeWhile (· = '/') ++ fileEnd.dropWhile (· = '/') :=
    List.takeWhile_append_dropWhile.symm
  have hrest := rest_head fileEnd
  refine ⟨htext, hne, hfile, ?_, fun hnil => ?_, fun hnil => ⟨⟨hnil, hrest hnil⟩, ?_⟩⟩
  · have hcomponents : components text = file :: components (fileEnd.dropWhile (· = '/')) := by
      rw [htext]
      cases fileEnd with
      | nil =>
          rw [List.append_nil, components_file hfile hne]
          rfl
      | cons c tail =>
          obtain rfl := hhead c tail rfl
          rw [components_append hfile hne, ← components_cons_slash tail]
          conv_lhs => rw [hsplit, components_slashes hslashes]
    rw [movesOf, hcomponents, List.map_cons, movesOf]
  · rw [hnil, List.append_nil] at hsplit
    refine ⟨fun c hc => hslashes c (hsplit ▸ hc), ?_⟩
    rw [htext]
    by_cases hend : fileEnd = []
    · rw [hend, List.append_nil, endsWithSlash_of_not_mem hfile]
      rfl
    · have hall : ∀ c ∈ fileEnd, c = '/' := fun c hc => hslashes c (hsplit ▸ hc)
      rw [endsWithSlash_append hend, endsWithSlash_slashes hall hend, decide_eq_true hend]
  · have hend : fileEnd ≠ [] := by
      rintro rfl
      exact hnil rfl
    conv_lhs => rw [htext, endsWithSlash_append hend, hsplit, endsWithSlash_append hnil]

end Strings

-- The files below the directory of the table, by the names that lead there, the last name first.
inductive Node where
  | absent
  | file
  | directory
  | link (text : List Char)

abbrev Files := List (List Char) → Node

def Node.entry : Node → Entry (List Char)
  | absent => .absent
  | file => .file
  | directory => .directory
  | link text => .link (routeOf text)

def Node.isLink : Node → Bool
  | link _ => true
  | _ => false

theorem not_link {entry node : Node} (h : entry = node) (hnode : node.isLink = false)
    (text : List Char) : entry ≠ .link text := by
  intro hlink
  rw [h.symm.trans hlink] at hnode
  cases hnode

-- What is no link cannot be read as one.
def Node.readError : Node → Errno
  | absent => .noent
  | _ => .inval

theorem Node.readError_eq (node : Node) : node.readError = .noent ∨ node.readError = .inval := by
  cases node with
  | absent => exact .inl rfl
  | file => exact .inr rfl
  | directory => exact .inr rfl
  | link text => exact .inr rfl

def Files.tree (files : Files) : Entries (List Char) := fun place => (files place).entry

theorem tree_eq {files : Files} {place : List (List Char)} {node : Node}
    (h : files place = node) : files.tree place = node.entry :=
  congrArg Node.entry h

theorem tree_ne_link {files : Files} {place : List (List Char)}
    (h : ∀ text, files place ≠ .link text) (target : Except Failure (Route (List Char))) :
    files.tree place ≠ .link target := by
  intro heq
  rw [Files.tree] at heq
  cases hnode : files place with
  | link text => exact h text hnode
  | absent => rw [hnode] at heq; cases heq
  | file => rw [hnode] at heq; cases heq
  | directory => rw [hnode] at heq; cases heq

-- Which directory a handle stands for.
abbrev Places := Nat → Option (List (List Char))

-- An operating system that serves these files and refuses no call, and nobody changes the files
-- meanwhile.
structure Serves {σ : Type} (os : Os σ) (files : Files) (places : σ → Places) : Prop where
  malloc : ∀ s size, places (os.malloc s size).2 = places s
  fstatat : ∀ s dir name, places (os.fstatat s dir name).2 = places s
  close : ∀ s handle, (os.close s handle).1 = none ∧
    places (os.close s handle).2 = Function.update (places s) handle none
  openDirectory : ∀ s dir place name, places s dir = some place → IsName name →
    files (name :: place) = .directory → ∃ handle, (os.openat s dir name).1 = .ok handle ∧
      places s handle = none ∧
      places (os.openat s dir name).2 = Function.update (places s) handle (some (name :: place))
  openAbsent : ∀ s dir place name, places s dir = some place → IsName name →
    files (name :: place) = .absent → (os.openat s dir name).1 = .error .noent
  openFile : ∀ s dir place name, places s dir = some place → IsName name →
    files (name :: place) = .file → (os.openat s dir name).1 = .error .notdir
  openLink : ∀ s dir place name text, places s dir = some place → IsName name →
    files (name :: place) = .link text → ∃ e, (os.openat s dir name).1 = .error e ∧
      (e = .loop ∨ e = .mlink ∨ e = .notdir)
  openOther : ∀ s dir name e, (os.openat s dir name).1 = .error e →
    places (os.openat s dir name).2 = places s
  readlinkat : ∀ s dir name size, places (os.readlinkat s dir name size).2 = places s
  readLink : ∀ s dir place name text size, places s dir = some place → IsName name →
    files (name :: place) = .link text → '\x00' ∉ text ∧
      ∃ content, (os.readlinkat s dir name size).1 = .ok content ∧ content.1 = text.take size
  readOther : ∀ s dir place name size, places s dir = some place → IsName name →
    (∀ text, files (name :: place) ≠ .link text) →
    (os.readlinkat s dir name size).1 = .error (files (name :: place)).readError

-- The handles on the stack stand for the directories that have been entered, one in the other.
def Placed (places : Places) (base : Nat) : List Nat → List (List Char) → Prop
  | [], place => place = [] ∧ places base = some []
  | fd :: fds, place =>
      places fd = some place ∧ fd ≠ base ∧ fd ∉ fds ∧
        ∃ name outer, place = name :: outer ∧ Placed places base fds outer

section Placed

variable {places places' : Places} {base : Nat} {fds : List Nat} {place : List (List Char)}

theorem Placed.current (h : Placed places base fds place) :
    places (fds.headD base) = some place := by
  cases fds with
  | nil =>
      obtain ⟨rfl, hbase⟩ := h
      exact hbase
  | cons fd fds => exact h.1

theorem Placed.length_eq (h : Placed places base fds place) : place.length = fds.length := by
  induction fds generalizing place with
  | nil => rw [h.1]; rfl
  | cons fd fds ih =>
      obtain ⟨-, -, -, name, outer, rfl, hrest⟩ := h
      rw [List.length_cons, List.length_cons, ih hrest]

theorem Placed.isSome (h : Placed places base fds place) :
    ∀ handle ∈ base :: fds, (places handle).isSome := by
  induction fds generalizing place with
  | nil =>
      intro handle hmem
      rw [List.mem_singleton.mp hmem, h.2]
      rfl
  | cons fd fds ih =>
      obtain ⟨hfd, -, -, name, outer, rfl, hrest⟩ := h
      intro handle hmem
      rcases List.mem_cons.mp hmem with rfl | hmem
      · exact ih hrest handle List.mem_cons_self
      · rcases List.mem_cons.mp hmem with rfl | hmem
        · rw [hfd]
          rfl
        · exact ih hrest handle (List.mem_cons_of_mem _ hmem)

theorem Placed.congr (h : Placed places base fds place)
    (hsame : ∀ handle ∈ base :: fds, places' handle = places handle) :
    Placed places' base fds place := by
  induction fds generalizing place with
  | nil => exact ⟨h.1, (hsame base List.mem_cons_self).trans h.2⟩
  | cons fd fds ih =>
      obtain ⟨hfd, hne, hnot, name, outer, rfl, hrest⟩ := h
      refine ⟨?_, hne, hnot, name, outer, rfl, ih hrest fun handle hmem => hsame handle ?_⟩
      · rw [hsame fd (List.mem_cons_of_mem _ List.mem_cons_self)]
        exact hfd
      · rcases List.mem_cons.mp hmem with rfl | hmem
        · exact List.mem_cons_self
        · exact List.mem_cons_of_mem _ (List.mem_cons_of_mem _ hmem)

-- A directory is entered.
theorem Placed.push (h : Placed places base fds place) {handle : Nat} {name : List Char}
    (hnew : places handle = none) :
    Placed (Function.update places handle (some (name :: place))) base (handle :: fds)
      (name :: place) := by
  have hne : ∀ other ∈ base :: fds, other ≠ handle := by
    rintro other hmem rfl
    have hsome := h.isSome other hmem
    rw [hnew] at hsome
    cases hsome
  refine ⟨Function.update_self .., (hne base List.mem_cons_self).symm,
    fun hmem => hne handle (List.mem_cons_of_mem _ hmem) rfl, name, place, rfl,
    h.congr fun other hmem => Function.update_of_ne (hne other hmem) _ _⟩

-- The last directory is left.
theorem Placed.pop {fd : Nat} (h : Placed places base (fd :: fds) place) :
    ∃ name outer, place = name :: outer ∧
      Placed (Function.update places fd none) base fds outer := by
  obtain ⟨-, hne, hnot, name, outer, rfl, hrest⟩ := h
  refine ⟨name, outer, rfl, hrest.congr fun other hmem => Function.update_of_ne ?_ _ _⟩
  rintro rfl
  rcases List.mem_cons.mp hmem with heq | hmem
  · exact hne heq
  · exact hnot hmem

end Placed

section Serve

variable {σ : Type} {os : Os σ} {files : Files} {places : σ → Places} {w w' : World σ}
  {dir : Nat} {place : List (List Char)} {name text : List Char}

theorem malloc_places (hs : Serves os files places) {size : Nat} {answer : Option Nat}
    (h : w.malloc os size = (answer, w')) : places w'.os = places w.os := by
  rw [World.malloc] at h
  have hsame := hs.malloc w.os size
  split at h
  · rename_i heq
    rw [heq] at hsame
    rw [← (Prod.mk.inj h).2]
    exact hsame
  · rename_i heq
    rw [heq] at hsame
    rw [← (Prod.mk.inj h).2]
    exact hsame

theorem readlinkat_places (hs : Serves os files places) {size : Nat}
    {answer : Except Errno {text : List Char // text.length < PATH_MAX}}
    (h : w.readlinkat os dir name size = (answer, w')) :
    answer = (os.readlinkat w.os dir name size).1 ∧ places w'.os = places w.os := by
  obtain ⟨rfl, rfl⟩ := Prod.mk.inj h
  exact ⟨rfl, hs.readlinkat _ _ _ _⟩

-- An allocation may fail.
def Os.Scarce (os : Os σ) : Prop := ∃ s size, (os.malloc s size).1 = false

theorem malloc_scarce {size : Nat} (h : w.malloc os size = (none, w')) : os.Scarce := by
  rw [World.malloc] at h
  split at h
  · cases h
  · rename_i heq
    exact ⟨w.os, size, congrArg Prod.fst heq⟩

-- What reading a link gives when nothing changes: the whole text of it, unless memory runs out.
inductive ReadAnswer (os : Os σ) (entry : Node) : Except Errno (Text × Nat) → Prop
  | nomem (h : os.Scarce) : ReadAnswer os entry (.error .nomem)
  | link {text buf} (h : entry = .link text) :
      ReadAnswer os entry (.ok (⟨text, buf⟩, text.length + 1))
  | other (h : ∀ text, entry ≠ .link text) : ReadAnswer os entry (.error entry.readError)

theorem ReadAnswer.of_ok {entry : Node} {symlink : Text} {len : Nat}
    (h : ReadAnswer os entry (.ok (symlink, len))) :
    entry = .link symlink.text ∧ len = symlink.text.length + 1 := by
  cases h with
  | link h => exact ⟨h, rfl⟩

theorem ReadAnswer.of_error {entry : Node} {e : Errno} (h : ReadAnswer os entry (.error e)) :
    os.Scarce ∧ e = .nomem ∨ (∀ text, entry ≠ .link text) ∧ e = entry.readError := by
  cases h with
  | nomem h => exact .inl ⟨h, rfl⟩
  | other h => exact .inr ⟨h, rfl⟩

theorem cString_eq (h : '\x00' ∉ text) : cString text = text := by
  rw [cString, List.takeWhile_eq_self_iff]
  intro c hc
  simpa using fun heq : c = '\x00' => h (heq ▸ hc)

theorem read_ok (hs : Serves os files places) {s : σ} (hplace : places s dir = some place)
    (hname : IsName name) {size : Nat} {content : {text : List Char // text.length < PATH_MAX}}
    (h : .ok content = (os.readlinkat s dir name size).1) :
    ∃ text, files (name :: place) = .link text ∧ '\x00' ∉ text ∧ content.1 = text.take size := by
  by_cases hlink : ∃ text, files (name :: place) = .link text
  · obtain ⟨text, hentry⟩ := hlink
    obtain ⟨hnul, content', hok, htake⟩ := hs.readLink _ _ _ _ _ size hplace hname hentry
    obtain rfl := Except.ok.inj (h.trans hok)
    exact ⟨text, hentry, hnul, htake⟩
  · have herror := hs.readOther _ _ _ _ size hplace hname (not_exists.mp hlink)
    cases h.trans herror

theorem read_error (hs : Serves os files places) {s : σ} (hplace : places s dir = some place)
    (hname : IsName name) {size : Nat} {e : Errno}
    (h : .error e = (os.readlinkat s dir name size).1) :
    ReadAnswer os (files (name :: place)) (.error e) := by
  by_cases hlink : ∃ text, files (name :: place) = .link text
  · obtain ⟨text, hentry⟩ := hlink
    obtain ⟨-, content, hok, -⟩ := hs.readLink _ _ _ _ _ size hplace hname hentry
    cases h.trans hok
  · have herror := hs.readOther _ _ _ _ size hplace hname (not_exists.mp hlink)
    obtain rfl := Except.error.inj (h.trans herror)
    exact .other (not_exists.mp hlink)

theorem readLoop_serves (hs : Serves os files places) (hplace : places w.os dir = some place)
    (hname : IsName name) {bufLen : Nat} (hpos : 0 < bufLen) :
    places (readLoop os w dir name bufLen hpos).2.os = places w.os ∧
      ReadAnswer os (files (name :: place)) (readLoop os w dir name bufLen hpos).1 := by
  fun_induction readLoop os w dir name bufLen hpos with
  | case1 w bufLen hpos w' hmalloc => exact
      ⟨malloc_places hs hmalloc, .nomem (malloc_scarce hmalloc)⟩
  | case2 w bufLen hpos buf w' hmalloc e w'' hread =>
      have hsame := malloc_places hs hmalloc
      obtain ⟨he, hsame'⟩ := readlinkat_places hs hread
      exact ⟨hsame'.trans hsame, read_error hs (hsame ▸ hplace) hname he⟩
  | case3 w bufLen hpos buf w' hmalloc content hlt w'' hread hless =>
      have hsame := malloc_places hs hmalloc
      obtain ⟨hok, hsame'⟩ := readlinkat_places hs hread
      obtain ⟨text, hentry, hnul, htake⟩ := read_ok hs (hsame ▸ hplace) hname hok
      simp only at htake
      -- the buffer was not filled, so this is all of it
      have hall : content = text := by
        rw [htake, List.length_take] at hless
        rw [htake, List.take_of_length_le (by omega)]
      rw [hall, cString_eq hnul]
      exact ⟨hsame'.trans hsame, .link hentry⟩
  | case4 w bufLen hpos buf w' hmalloc content hlt w'' hread hless ih =>
      have hsame := malloc_places hs hmalloc
      obtain ⟨-, hsame'⟩ := readlinkat_places hs hread
      have hsame'' : places (w''.free buf).os = places w.os := hsame'.trans hsame
      obtain ⟨hplaces, hanswer⟩ := ih (hsame'' ▸ hplace)
      exact ⟨hplaces.trans hsame'', hanswer⟩

theorem readlinkatDup_serves (hs : Serves os files places) (hplace : places w.os dir = some place)
    (hname : IsName name) : places (readlinkatDup os w dir name).2.os = places w.os ∧
      ReadAnswer os (files (name :: place)) (readlinkatDup os w dir name).1 := by
  have hsame : places (w.fstatat os dir name).2.os = places w.os := hs.fstatat _ _ _
  rw [readlinkatDup]
  split
  · rename_i heq
    rw [heq] at hsame
    exact (readLoop_serves hs (hsame ▸ hplace) hname _).imp_left (·.trans hsame)
  · rename_i heq
    rw [heq] at hsame
    exact (readLoop_serves hs (hsame ▸ hplace) hname _).imp_left (·.trans hsame)

-- Only a directory is opened.
theorem open_ok (hs : Serves os files places) (hplace : places w.os dir = some place)
    (hname : IsName name) {handle : Nat} (h : w.openat os dir name = (.ok handle, w')) :
    files (name :: place) = .directory ∧ places w.os handle = none ∧
      places w'.os = Function.update (places w.os) handle (some (name :: place)) := by
  obtain ⟨hok, rfl⟩ := Prod.mk.inj h
  cases hentry : files (name :: place) with
  | absent => cases hok.symm.trans (hs.openAbsent _ _ _ _ hplace hname hentry)
  | file => cases hok.symm.trans (hs.openFile _ _ _ _ hplace hname hentry)
  | link text =>
      obtain ⟨e, herror, -⟩ := hs.openLink _ _ _ _ _ hplace hname hentry
      cases hok.symm.trans herror
  | directory =>
      obtain ⟨handle', hok', hfresh, hplaces⟩ := hs.openDirectory _ _ _ _ hplace hname hentry
      obtain rfl := Except.ok.inj (hok.symm.trans hok')
      exact ⟨rfl, hfresh, hplaces⟩

-- Why a name does not open.
inductive OpenError (entry : Node) : Errno → Prop
  | absent (h : entry = .absent) : OpenError entry .noent
  | file (h : entry = .file) : OpenError entry .notdir
  | link {text e} (h : entry = .link text) (he : e = .loop ∨ e = .mlink ∨ e = .notdir) :
      OpenError entry e

theorem open_error (hs : Serves os files places) (hplace : places w.os dir = some place)
    (hname : IsName name) {e : Errno} (h : w.openat os dir name = (.error e, w')) :
    places w'.os = places w.os ∧ OpenError (files (name :: place)) e := by
  obtain ⟨herror, rfl⟩ := Prod.mk.inj h
  refine ⟨hs.openOther _ _ _ _ herror, ?_⟩
  cases hentry : files (name :: place) with
  | absent =>
      obtain rfl := Except.error.inj
        (herror.symm.trans (hs.openAbsent _ _ _ _ hplace hname hentry))
      exact .absent rfl
  | file =>
      obtain rfl := Except.error.inj (herror.symm.trans (hs.openFile _ _ _ _ hplace hname hentry))
      exact .file rfl
  | link text =>
      obtain ⟨e', herror', he⟩ := hs.openLink _ _ _ _ _ hplace hname hentry
      obtain rfl := Except.error.inj (herror.symm.trans herror')
      exact .link rfl he
  | directory =>
      obtain ⟨handle, hok, -⟩ := hs.openDirectory _ _ _ _ hplace hname hentry
      cases herror.symm.trans hok

-- A link is put in the place of its name as it is: there is no room for a slash.
theorem bStrcatS_link (text : List Char) : bStrcatS text (text.length + 1) ['/'] = text := by
  rw [bStrcatS, if_pos]
  simp only [List.length_cons, List.length_nil]
  omega

end Serve

end Watz.Wasi
