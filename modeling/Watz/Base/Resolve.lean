import Mathlib.Data.List.Infix

namespace Watz.Base.Resolve

-- What a path asks for, one thing after the other.
inductive Move (ν : Type) where
  | stay
  | up
  | enter (name : ν)
  deriving DecidableEq, Repr

-- A path. `closed` tells that a separator ends it, so that the last name must be a directory.
structure Route (ν : Type) where
  moves : List (Move ν)
  closed : Bool
  deriving DecidableEq, Repr

inductive Failure where
  | escapes
  | missing
  | noDirectory
  deriving DecidableEq, Repr

-- What a name stands for. A link that leads nowhere gives the failure.
inductive Entry (ν : Type) where
  | absent
  | file
  | directory
  | link (target : Except Failure (Route ν))

-- The entries, by the names that lead to them from the base directory, the last name first.
abbrev Entries (ν : Type) := List ν → Entry ν

-- The result: a directory, or an entry of a directory by its name.
inductive Outcome (ν : Type) where
  | directory (place : List ν)
  | entry (place : List ν) (name : ν) (closed : Bool)
  | failed (failure : Failure)
  deriving DecidableEq, Repr

-- `follow`: a link in the last place is followed. `keepLast`: the last name is kept even where a
-- separator follows it.
structure Mode where
  follow : Bool
  keepLast : Bool

-- What is to be done, from the directory at `place`.
structure State (ν : Type) where
  place : List ν
  moves : List (Move ν)
  closed : Bool

inductive Progress (ν : Type) where
  | stop (outcome : Outcome ν)
  | go (state : State ν)

variable {ν : Type}

-- A link is put in the place of its name. What ends the last part ends the whole.
def splice (target : Except Failure (Route ν)) (place : List ν) (rest : List (Move ν))
    (closed : Bool) : Progress ν :=
  match target with
  | .error failure => .stop (.failed failure)
  | .ok target =>
      .go ⟨place, target.moves ++ rest, if rest = [] then target.closed else closed⟩

-- A name that is gone through. It must be a directory, or a link.
def through (tree : Entries ν) (place : List ν) (name : ν) (rest : List (Move ν)) (closed : Bool) :
    Progress ν :=
  match tree (name :: place) with
  | .absent => .stop (.failed .missing)
  | .file => .stop (.failed .noDirectory)
  | .directory => .go ⟨name :: place, rest, closed⟩
  | .link target => splice target place rest closed

def last (tree : Entries ν) (mode : Mode) (place : List ν) (name : ν) (closed : Bool) :
    Progress ν :=
  match tree (name :: place) with
  | .link target =>
      if closed ∨ mode.follow then splice target place [] closed
      else .stop (.entry place name closed)
  | _ => .stop (.entry place name closed)

def advance (tree : Entries ν) (mode : Mode) : State ν → Progress ν
  | ⟨place, [], _⟩ => .stop (.directory place)
  | ⟨place, .stay :: rest, closed⟩ => .go ⟨place, rest, closed⟩
  | ⟨[], .up :: _, _⟩ => .stop (.failed .escapes)
  | ⟨_ :: place, .up :: rest, closed⟩ => .go ⟨place, rest, closed⟩
  | ⟨place, .enter name :: rest, closed⟩ =>
      if rest ≠ [] ∨ (closed ∧ ¬mode.keepLast) then through tree place name rest closed
      else last tree mode place name closed

-- Whether the next step puts a link in the place of a name.
def follows (tree : Entries ν) (mode : Mode) : State ν → Bool
  | ⟨place, .enter name :: rest, closed⟩ =>
      match tree (name :: place) with
      | .link _ => rest ≠ [] ∨ closed ∨ mode.follow
      | _ => false
  | _ => false

section Names

variable {tree : Entries ν} {mode : Mode} {place : List ν} {name : ν} {rest : List (Move ν)}
  {closed : Bool}

theorem follows_link {target : Except Failure (Route ν)} (h : tree (name :: place) = .link target)
    (hfollow : rest ≠ [] ∨ closed = true ∨ mode.follow = true) :
    follows tree mode ⟨place, .enter name :: rest, closed⟩ = true := by
  rw [follows, h]
  exact decide_eq_true hfollow

theorem follows_other (h : ∀ target, tree (name :: place) ≠ .link target) :
    follows tree mode ⟨place, .enter name :: rest, closed⟩ = false := by
  rw [follows]
  split
  · rename_i target heq
    exact absurd heq (h target)
  · rfl

theorem follows_last (hclosed : closed = false) (hfollow : mode.follow = false) :
    follows tree mode ⟨place, [.enter name], closed⟩ = false := by
  simp only [follows]
  split
  · rw [hclosed, hfollow]
    simp
  · rfl

theorem advance_through (h : rest ≠ [] ∨ (closed ∧ ¬mode.keepLast)) :
    advance tree mode ⟨place, .enter name :: rest, closed⟩ =
      through tree place name rest closed := by
  rw [advance, if_pos h]

theorem advance_last (h : ¬(closed ∧ ¬mode.keepLast)) :
    advance tree mode ⟨place, [.enter name], closed⟩ = last tree mode place name closed := by
  rw [advance, if_neg]
  rintro (hne | hpass)
  · exact hne rfl
  · exact h hpass

theorem last_link {target : Except Failure (Route ν)} (h : tree (name :: place) = .link target)
    (hfollow : closed = true ∨ mode.follow = true) :
    last tree mode place name closed = splice target place [] closed := by
  rw [last, h]
  exact if_pos hfollow

theorem last_other (h : ∀ target, tree (name :: place) ≠ .link target) :
    last tree mode place name closed = .stop (.entry place name closed) := by
  rw [last]
  split
  · rename_i target heq
    exact absurd heq (h target)
  · rfl

theorem last_kept (hclosed : closed = false) (hfollow : mode.follow = false) :
    last tree mode place name closed = .stop (.entry place name closed) := by
  simp only [last]
  split
  · rw [hclosed, hfollow]
    simp
  · rfl

end Names

-- The resolution of a path, which may take any number of steps.
inductive Resolves (tree : Entries ν) (mode : Mode) : State ν → Outcome ν → Prop
  | stop {state outcome} (h : advance tree mode state = .stop outcome) :
      Resolves tree mode state outcome
  | go {state next outcome} (h : advance tree mode state = .go next)
      (hnext : Resolves tree mode next outcome) : Resolves tree mode state outcome

variable {tree : Entries ν} {mode : Mode} {state : State ν} {place : List ν} {outcome : Outcome ν}

-- A path has one result.
theorem Resolves.unique {other : Outcome ν} (h : Resolves tree mode state outcome)
    (h' : Resolves tree mode state other) : outcome = other := by
  induction h with
  | stop h =>
      cases h' with
      | stop h' => exact Progress.stop.inj (h.symm.trans h')
      | go h' _ => cases h.symm.trans h'
  | go h _ ih =>
      cases h' with
      | stop h' => cases h.symm.trans h'
      | go h' hnext' =>
          obtain rfl := Progress.go.inj (h.symm.trans h')
          exact ih hnext'

-- How far a resolution has come, and how many links it has followed.
inductive Leads (tree : Entries ν) (mode : Mode) (start : Progress ν) : Nat → Progress ν → Prop
  | start : Leads tree mode start 0 start
  | step {links state} (h : Leads tree mode start links (.go state)) :
      Leads tree mode start (links + (follows tree mode state).toNat) (advance tree mode state)

variable {start progress : Progress ν} {links : Nat}

-- A step that follows no link.
theorem Leads.walk (h : Leads tree mode start links (.go state))
    (hfollows : follows tree mode state = false) (hstep : advance tree mode state = progress) :
    Leads tree mode start links progress := by
  have hnext := h.step
  rw [hfollows, hstep] at hnext
  exact hnext

theorem Leads.follow (h : Leads tree mode start links (.go state))
    (hfollows : follows tree mode state = true) (hstep : advance tree mode state = progress) :
    Leads tree mode start (links + 1) progress := by
  have hnext := h.step
  rw [hfollows, hstep] at hnext
  exact hnext

def Progress.Gives (tree : Entries ν) (mode : Mode) (outcome : Outcome ν) : Progress ν → Prop
  | stop other => other = outcome
  | go state => Resolves tree mode state outcome

theorem Progress.Gives.unique {other : Outcome ν} (h : start.Gives tree mode outcome)
    (h' : start.Gives tree mode other) : outcome = other := by
  cases start with
  | stop result => exact Eq.trans (Eq.symm h) h'
  | go state => exact Resolves.unique h h'

theorem Leads.gives (h : Leads tree mode start links progress)
    (hgives : progress.Gives tree mode outcome) : start.Gives tree mode outcome := by
  induction h generalizing outcome with
  | start => exact hgives
  | @step _ state _ ih =>
      apply ih
      cases hstep : advance tree mode state with
      | stop other =>
          rw [hstep] at hgives
          obtain rfl : other = outcome := hgives
          exact .stop hstep
      | go next =>
          rw [hstep] at hgives
          exact .go hstep hgives

-- A place that is reached through directories only.
def Inside (tree : Entries ν) (place : List ν) : Prop :=
  ∀ outer, outer <:+ place → outer ≠ [] → tree outer = .directory

theorem Inside.nil : Inside tree [] := fun _ hsuffix hne =>
  absurd (List.suffix_nil.mp hsuffix) hne

theorem Inside.tail {name : ν} (h : Inside tree (name :: place)) : Inside tree place :=
  fun outer hsuffix => h outer (hsuffix.trans (List.suffix_cons _ _))

theorem Inside.cons {name : ν} (h : Inside tree place)
    (hentry : tree (name :: place) = .directory) : Inside tree (name :: place) := by
  intro outer hsuffix hne
  rcases List.suffix_cons_iff.mp hsuffix with rfl | hsuffix
  · exact hentry
  · exact h outer hsuffix hne

def Outcome.Within (tree : Entries ν) : Outcome ν → Prop
  | directory place => Inside tree place
  | entry place _ _ => Inside tree place
  | failed _ => True

def Progress.Within (tree : Entries ν) : Progress ν → Prop
  | stop outcome => outcome.Within tree
  | go state => Inside tree state.place

theorem splice_within {target : Except Failure (Route ν)} (h : Inside tree place)
    (rest : List (Move ν)) (closed : Bool) : (splice target place rest closed).Within tree := by
  cases target with
  | error failure => trivial
  | ok target => exact h

variable (mode) in
-- No step leads out of the base.
theorem advance_within (h : Inside tree state.place) : (advance tree mode state).Within tree := by
  obtain ⟨place, moves, closed⟩ := state
  cases moves with
  | nil => exact h
  | cons move rest =>
      cases move with
      | stay => exact h
      | up =>
          cases place with
          | nil => trivial
          | cons name place => exact h.tail
      | enter name =>
          rw [advance]
          split
          · rw [through]
            split
            · trivial
            · trivial
            · rename_i hentry
              exact h.cons hentry
            · exact splice_within h rest closed
          · rw [last]
            split
            · split
              · exact splice_within h [] closed
              · exact h
            · exact h

-- Whatever a path and the links ask for, the result lies in a directory below the base.
theorem Resolves.within (h : Resolves tree mode state outcome) (hplace : Inside tree state.place) :
    outcome.Within tree := by
  induction h with
  | stop h =>
      have hwithin := advance_within mode hplace
      rw [h] at hwithin
      exact hwithin
  | go h _ ih =>
      have hwithin := advance_within mode hplace
      rw [h] at hwithin
      exact ih hwithin

theorem Progress.Gives.within (h : start.Gives tree mode outcome) (hstart : start.Within tree) :
    outcome.Within tree := by
  cases start with
  | stop other =>
      obtain rfl : other = outcome := h
      exact hstart
  | go state => exact Resolves.within h hstart

end Watz.Base.Resolve
