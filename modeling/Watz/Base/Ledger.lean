import Mathlib.Logic.Function.Basic

namespace Watz.Base

-- What a variable for a handle holds. Handles are not copied, so a handle that was allocated
-- is held by one variable until it is overwritten there.
inductive Handle where
  | unset
  | null
  | live (id : Nat)
  | freed (id : Nat)
  deriving DecidableEq, Repr

namespace Handle

def isLive : Handle → Bool
  | unset => false
  | null => false
  | live _ => true
  | freed _ => false

-- The handle without its identifier.
def kind : Handle → Handle
  | unset => unset
  | null => null
  | live _ => live 0
  | freed _ => freed 0

theorem isLive_kind (handle : Handle) : handle.kind.isLive = handle.isLive := by
  cases handle <;> rfl

-- The identifiers that go with a variable when it is overwritten.
def ids : Handle → List Nat
  | unset => []
  | null => []
  | live id => [id]
  | freed _ => []

theorem ids_eq_nil (handle : Handle) : handle.ids = [] ↔ handle.isLive = false := by
  cases handle <;> simp [ids, isLive]

end Handle

-- What is done with a variable: `declare` leaves it uninitialised, `clear` sets it to null.
inductive Action (ν : Type) where
  | declare (var : ν)
  | clear (var : ν)
  | alloc (var : ν)
  | free (var : ν)
  | use (var : ν)
  deriving DecidableEq, Repr

def Action.var {ν : Type} : Action ν → ν
  | declare var => var
  | clear var => var
  | alloc var => var
  | free var => var
  | use var => var

-- `lost` are the identifiers that were live when their variable was overwritten: nothing can
-- free them any more. `sound` is lost for good when a variable that holds no live handle is
-- used, or one that is not null is freed.
structure Ledger (ν : Type) where
  next : Nat
  held : ν → Handle
  lost : List Nat
  sound : Bool

namespace Ledger

variable {ν : Type}

def start (ν : Type) : Ledger ν := ⟨0, fun _ => .null, [], true⟩

variable [DecidableEq ν]

def set (L : Ledger ν) (var : ν) (handle : Handle) : Ledger ν :=
  { L with held := Function.update L.held var handle, lost := (L.held var).ids ++ L.lost }

def act (L : Ledger ν) : Action ν → Ledger ν
  | .declare var => L.set var .unset
  | .clear var => L.set var .null
  | .alloc var => { L.set var (.live L.next) with next := L.next + 1 }
  | .free var =>
      match L.held var with
      | .unset => { L with sound := false }
      | .null => L
      | .live id => { L with held := Function.update L.held var (.freed id) }
      | .freed _ => { L with sound := false }
  | .use var => if (L.held var).isLive then L else { L with sound := false }

def replay (L : Ledger ν) (actions : List (Action ν)) : Ledger ν := actions.foldl act L

@[simp] theorem replay_nil (L : Ledger ν) : L.replay [] = L := rfl

@[simp] theorem replay_cons (L : Ledger ν) (action : Action ν) (rest : List (Action ν)) :
    L.replay (action :: rest) = (L.act action).replay rest := rfl

theorem replay_append (L : Ledger ν) (first second : List (Action ν)) :
    L.replay (first ++ second) = (L.replay first).replay second := List.foldl_append

-- Nothing is live, and nothing went wrong.
structure Clean (L : Ledger ν) : Prop where
  sound : L.sound = true
  lost : L.lost = []
  idle : ∀ var, (L.held var).isLive = false

-- Every live handle is in one of the variables that are released in the end, and these hold
-- nothing that must not be released.
structure Settled (owned : ν → Prop) (L : Ledger ν) : Prop where
  sound : L.sound = true
  lost : L.lost = []
  idle : ∀ var, ¬owned var → (L.held var).isLive = false
  ready : ∀ var, owned var → L.held var = .null ∨ (L.held var).isLive = true

section Frame

variable (L : Ledger ν)

theorem act_held_of_ne {action : Action ν} {var : ν} (h : var ≠ action.var) :
    (L.act action).held var = L.held var := by
  cases action with
  | declare other => exact Function.update_of_ne h _ _
  | clear other => exact Function.update_of_ne h _ _
  | alloc other => exact Function.update_of_ne h _ _
  | free other =>
      simp only [act]
      split
      · rfl
      · rfl
      · exact Function.update_of_ne h _ _
      · rfl
  | use other =>
      simp only [act]
      split <;> rfl

-- A variable that no action touches holds what it held.
theorem replay_held_of_not_mem {actions : List (Action ν)} {var : ν}
    (h : ∀ action ∈ actions, var ≠ action.var) : (L.replay actions).held var = L.held var := by
  induction actions generalizing L with
  | nil => rfl
  | cons action rest ih =>
      rw [replay_cons, ih _ fun other ho => h other (List.mem_cons_of_mem _ ho)]
      exact L.act_held_of_ne (h action List.mem_cons_self)

end Frame

section Mirror

-- Two ledgers that agree, up to identifiers, on the variables in scope.
structure Mirrors (scope : ν → Prop) (L M : Ledger ν) : Prop where
  sound : L.sound = M.sound
  lost : L.lost = [] ↔ M.lost = []
  kind : ∀ var, scope var → (L.held var).kind = (M.held var).kind

variable {scope : ν → Prop} {L M : Ledger ν}

theorem Mirrors.set (h : Mirrors scope L M) {var : ν} (hvar : scope var) {first second : Handle}
    (hkind : first.kind = second.kind) : Mirrors scope (L.set var first) (M.set var second) := by
  have hlive : (L.held var).isLive = (M.held var).isLive := by
    rw [← Handle.isLive_kind, h.kind var hvar, Handle.isLive_kind]
  refine ⟨h.sound, ?_, ?_⟩
  · simp only [Ledger.set, List.append_eq_nil_iff, Handle.ids_eq_nil, hlive, h.lost]
  · intro other hother
    by_cases hsame : other = var
    · subst hsame
      simpa only [Ledger.set, Function.update_self] using hkind
    · simpa only [Ledger.set, Function.update_of_ne hsame] using h.kind other hother

omit [DecidableEq ν] in
theorem Mirrors.unsound (h : Mirrors scope L M) :
    Mirrors scope { L with sound := false } { M with sound := false } :=
  ⟨rfl, h.lost, h.kind⟩

theorem Mirrors.update (h : Mirrors scope L M) (var : ν) {first second : Handle}
    (hkind : first.kind = second.kind) :
    Mirrors scope { L with held := Function.update L.held var first }
      { M with held := Function.update M.held var second } := by
  refine ⟨h.sound, h.lost, ?_⟩
  intro other hother
  by_cases hsame : other = var
  · subst hsame
    simpa only [Function.update_self] using hkind
  · simpa only [Function.update_of_ne hsame] using h.kind other hother

theorem Mirrors.act (h : Mirrors scope L M) {action : Action ν} (hvar : scope action.var) :
    Mirrors scope (L.act action) (M.act action) := by
  have hkind := h.kind action.var hvar
  cases action with
  | declare var => exact h.set hvar rfl
  | clear var => exact h.set hvar rfl
  | alloc var =>
      have hset : Mirrors scope (L.set var (.live L.next)) (M.set var (.live M.next)) :=
        h.set hvar rfl
      exact ⟨hset.sound, hset.lost, hset.kind⟩
  | free var =>
      simp only [Action.var] at hkind
      cases hL : L.held var <;> cases hM : M.held var <;>
        simp only [hL, hM, Handle.kind, reduceCtorEq] at hkind <;>
        simp only [Ledger.act, hL, hM]
      · exact h.unsound
      · exact h
      · exact h.update var rfl
      · exact h.unsound
  | use var =>
      have hlive : (L.held var).isLive = (M.held var).isLive := by
        rw [← Handle.isLive_kind, h.kind var hvar, Handle.isLive_kind]
      simp only [Ledger.act, hlive]
      split
      · exact h
      · exact h.unsound

theorem Mirrors.replay (h : Mirrors scope L M) {actions : List (Action ν)}
    (hscope : ∀ action ∈ actions, scope action.var) :
    Mirrors scope (L.replay actions) (M.replay actions) := by
  induction actions generalizing L M with
  | nil => exact h
  | cons action rest ih =>
      exact ih (h.act (hscope action List.mem_cons_self))
        fun other ho => hscope other (List.mem_cons_of_mem _ ho)

end Mirror

-- A routine is balanced when it releases exactly what it put into its variables, once, and
-- touches none of them before it holds something.
def Balanced (vars : List ν) (actions : List (Action ν)) : Prop :=
  ((start ν).replay actions).sound = true ∧ ((start ν).replay actions).lost = [] ∧
    ∀ var ∈ vars, (((start ν).replay actions).held var).isLive = false

instance (vars : List ν) (actions : List (Action ν)) : Decidable (Balanced vars actions) :=
  inferInstanceAs (Decidable (_ ∧ _ ∧ _))

section Routine

-- `declare` and `clear` both put a handle into a variable that must not be released.
section Reset

variable {action : ν → Action ν} {handle : Handle} {L : Ledger ν} {vars : List ν}

theorem reset_sound (haction : ∀ (L : Ledger ν) var, L.act (action var) = L.set var handle) :
    (L.replay (vars.map action)).sound = L.sound := by
  induction vars generalizing L with
  | nil => rfl
  | cons var rest ih => rw [List.map_cons, replay_cons, ih, haction, set]

theorem reset_lost (haction : ∀ (L : Ledger ν) var, L.act (action var) = L.set var handle)
    (hhandle : handle.isLive = false) (h : ∀ var ∈ vars, (L.held var).isLive = false) :
    (L.replay (vars.map action)).lost = L.lost := by
  induction vars generalizing L with
  | nil => rfl
  | cons var rest ih =>
      have hids : (L.held var).ids = [] :=
        (Handle.ids_eq_nil _).mpr (h var List.mem_cons_self)
      have hrest : ∀ other ∈ rest, ((L.set var handle).held other).isLive = false := by
        intro other hother
        by_cases hsame : other = var
        · subst hsame
          simpa only [set, Function.update_self] using hhandle
        · simpa only [set, Function.update_of_ne hsame] using
            h other (List.mem_cons_of_mem _ hother)
      calc (L.replay ((var :: rest).map action)).lost
          = ((L.set var handle).replay (rest.map action)).lost := by
            rw [List.map_cons, replay_cons, haction]
        _ = (L.set var handle).lost := ih hrest
        _ = L.lost := by simp only [set, hids, List.nil_append]

theorem reset_held_of_not_mem (hvar : ∀ var, (action var).var = var) {var : ν} (h : var ∉ vars) :
    (L.replay (vars.map action)).held var = L.held var := by
  refine replay_held_of_not_mem L fun other hother => ?_
  obtain ⟨third, hthird, rfl⟩ := List.mem_map.mp hother
  rw [hvar]
  rintro rfl
  exact h hthird

theorem reset_held (haction : ∀ (L : Ledger ν) var, L.act (action var) = L.set var handle)
    (hvar : ∀ var, (action var).var = var) {var : ν} (h : var ∈ vars) :
    (L.replay (vars.map action)).held var = handle := by
  induction vars generalizing L with
  | nil => cases h
  | cons other rest ih =>
      by_cases hrest : var ∈ rest
      · exact ih hrest
      · have hsame : var = other := (List.mem_cons.mp h).resolve_right hrest
        subst hsame
        calc (L.replay ((var :: rest).map action)).held var
            = ((L.set var handle).replay (rest.map action)).held var := by
              rw [List.map_cons, replay_cons, haction]
          _ = (L.set var handle).held var := reset_held_of_not_mem hvar hrest
          _ = handle := by simp only [set, Function.update_self]

end Reset

-- A balanced routine that declares its variables first can run anywhere: what they held
-- before does not matter if none of it was live, and no other variable changes.
theorem Settled.routine {owned : ν → Prop} {L : Ledger ν} (h : L.Settled owned) {vars : List ν}
    (hvars : ∀ var ∈ vars, ¬owned var) {actions : List (Action ν)}
    (hdeclares : vars.map .declare <+: actions) (hlocal : ∀ action ∈ actions, action.var ∈ vars)
    (hbalanced : Balanced vars actions) :
    (L.replay actions).Settled owned ∧ ∀ var ∉ vars, (L.replay actions).held var = L.held var := by
  obtain ⟨body, rfl⟩ := hdeclares
  have hmirrors : Mirrors (· ∈ vars) (L.replay (vars.map .declare))
      ((start ν).replay (vars.map .declare)) := by
    refine ⟨?_, ?_, ?_⟩
    · rw [reset_sound fun _ _ => rfl, reset_sound fun _ _ => rfl, h.sound]
      rfl
    · rw [reset_lost (fun _ _ => rfl) rfl fun var hvar => h.idle var (hvars var hvar), h.lost,
        reset_lost (fun _ _ => rfl) rfl fun _ _ => rfl]
      rfl
    · intro var hvar
      rw [reset_held (fun _ _ => rfl) (fun _ => rfl) hvar,
        reset_held (fun _ _ => rfl) (fun _ => rfl) hvar]
  have hend := hmirrors.replay fun action haction =>
    hlocal action (List.mem_append_right _ haction)
  rw [← replay_append, ← replay_append] at hend
  have hframe : ∀ var ∉ vars,
      (L.replay (vars.map .declare ++ body)).held var = L.held var := by
    intro var hvar
    refine replay_held_of_not_mem L fun action haction => ?_
    rintro rfl
    exact hvar (hlocal action haction)
  obtain ⟨hsound, hlost, hidle⟩ := hbalanced
  refine ⟨⟨hend.sound.trans hsound, hend.lost.mpr hlost, ?_, ?_⟩, hframe⟩
  · intro var hvar
    by_cases hmem : var ∈ vars
    · rw [← Handle.isLive_kind, hend.kind var hmem, Handle.isLive_kind]
      exact hidle var hmem
    · rw [hframe var hmem]
      exact h.idle var hvar
  · intro var hvar
    have hmem : var ∉ vars := fun hmem => hvars var hmem hvar
    rw [hframe var hmem]
    exact h.ready var hvar

theorem Settled.declare {owned : ν → Prop} {L : Ledger ν} (h : L.Settled owned) {vars : List ν}
    (hvars : ∀ var ∈ vars, ¬owned var) :
    (L.replay (vars.map .declare)).Settled owned ∧
      ∀ var ∉ vars, (L.replay (vars.map .declare)).held var = L.held var := by
  refine h.routine hvars (List.prefix_refl _) ?_ ⟨?_, ?_, ?_⟩
  · intro action haction
    obtain ⟨var, hvar, rfl⟩ := List.mem_map.mp haction
    exact hvar
  · exact reset_sound fun _ _ => rfl
  · exact reset_lost (fun _ _ => rfl) rfl fun _ _ => rfl
  · intro var hvar
    rw [reset_held (fun _ _ => rfl) (fun _ => rfl) hvar]
    rfl

-- Once all variables that may hold something are null, any of them can be taken for released.
theorem Settled.clear {owned : ν → Prop} {L : Ledger ν} (h : L.Settled owned) {vars : List ν}
    (hidle : ∀ var ∈ vars, (L.held var).isLive = false) (howned : ∀ var, owned var → var ∈ vars)
    {other : ν → Prop} (hother : ∀ var, other var → var ∈ vars) :
    (L.replay (vars.map .clear)).Settled other := by
  have hnull : ∀ var ∈ vars, (L.replay (vars.map .clear)).held var = .null :=
    fun var hvar => reset_held (fun _ _ => rfl) (fun _ => rfl) hvar
  refine ⟨?_, ?_, ?_, ?_⟩
  · rw [reset_sound fun _ _ => rfl, h.sound]
  · rw [reset_lost (fun _ _ => rfl) rfl hidle, h.lost]
  · intro var _
    by_cases hvar : var ∈ vars
    · rw [hnull var hvar]
      rfl
    · rw [reset_held_of_not_mem (fun _ => rfl) hvar]
      exact h.idle var fun howner => hvar (howned var howner)
  · intro var hvar
    exact .inl (hnull var (hother var hvar))

end Routine

section Settled

variable {owned : ν → Prop} {L : Ledger ν}

omit [DecidableEq ν] in
theorem start_settled (owned : ν → Prop) : (start ν).Settled owned :=
  ⟨rfl, rfl, fun _ _ => rfl, fun _ _ => .inl rfl⟩

omit [DecidableEq ν] in
theorem Settled.of_iff (h : L.Settled owned) {other : ν → Prop}
    (hsame : ∀ var, owned var ↔ other var) : L.Settled other := by
  obtain rfl : owned = other := funext fun var => propext (hsame var)
  exact h

theorem Settled.alloc (h : L.Settled owned) {var : ν} (hidle : (L.held var).isLive = false) :
    (L.act (.alloc var)).Settled fun other => owned other ∨ other = var := by
  have hids : (L.held var).ids = [] := (Handle.ids_eq_nil _).mpr hidle
  refine ⟨h.sound, ?_, ?_, ?_⟩
  · simp only [act, set, hids, List.nil_append, h.lost]
  · intro other hother
    rw [L.act_held_of_ne fun hsame => hother (.inr hsame)]
    exact h.idle other fun howned => hother (.inl howned)
  · intro other hother
    by_cases hsame : other = var
    · subst hsame
      simp only [act, set, Function.update_self, Handle.isLive, or_true]
    · rw [L.act_held_of_ne hsame]
      exact h.ready other (hother.resolve_right hsame)

theorem Settled.alloc_owned (h : L.Settled owned) {var : ν} (hvar : owned var)
    (hidle : (L.held var).isLive = false) : (L.act (.alloc var)).Settled owned :=
  (h.alloc hidle).of_iff fun _ => or_iff_left_of_imp fun hsame => hsame ▸ hvar

theorem Settled.free (h : L.Settled owned) {var : ν} (hvar : owned var) :
    (L.act (.free var)).Settled fun other => owned other ∧ other ≠ var := by
  have hothers : ∀ other, other ≠ var → (L.act (.free var)).held other = L.held other :=
    fun other hne => L.act_held_of_ne hne
  have hfreed : (L.act (.free var)).sound = true ∧ (L.act (.free var)).lost = [] ∧
      ((L.act (.free var)).held var).isLive = false := by
    rcases h.ready var hvar with hnull | hlive
    · simp only [act, hnull, Handle.isLive]
      exact ⟨h.sound, h.lost, trivial⟩
    · cases hheld : L.held var with
      | live id =>
          simp only [act, hheld, Function.update_self, Handle.isLive]
          exact ⟨h.sound, h.lost, trivial⟩
      | _ => simp [hheld, Handle.isLive] at hlive
  refine ⟨hfreed.1, hfreed.2.1, ?_, ?_⟩
  · intro other hother
    by_cases hsame : other = var
    · rw [hsame]
      exact hfreed.2.2
    · rw [hothers other hsame]
      exact h.idle other fun howned => hother ⟨howned, hsame⟩
  · intro other hother
    rw [hothers other hother.2]
    exact h.ready other hother.1

-- What is allocated and released at once leaves no trace.
theorem Settled.alloc_free (h : L.Settled owned) {var : ν} (hvar : ¬owned var) :
    (L.replay [.alloc var, .free var]).Settled owned := by
  refine ((h.alloc (h.idle var hvar)).free (.inr rfl)).of_iff fun other => ?_
  constructor
  · rintro ⟨howned | rfl, hne⟩
    · exact howned
    · exact absurd rfl hne
  · intro howned
    refine ⟨.inl howned, ?_⟩
    rintro rfl
    exact hvar howned

theorem Settled.release (h : L.Settled owned) {vars : List ν} (hnodup : vars.Nodup)
    (howned : ∀ var ∈ vars, owned var) :
    (L.replay (vars.map .free)).Settled fun var => owned var ∧ var ∉ vars := by
  induction vars generalizing owned L with
  | nil => simpa using h
  | cons var rest ih =>
      obtain ⟨hfresh, hrest⟩ := List.nodup_cons.mp hnodup
      have hnext := ih (h.free (howned var List.mem_cons_self)) hrest fun other hother =>
        ⟨howned other (List.mem_cons_of_mem _ hother), fun hsame => hfresh (hsame ▸ hother)⟩
      refine hnext.of_iff fun other => ?_
      simp only [List.mem_cons, not_or, and_assoc]

omit [DecidableEq ν] in
theorem Settled.clean (h : L.Settled owned) (hidle : ∀ var, owned var → (L.held var).isLive = false) :
    L.Clean := by
  refine ⟨h.sound, h.lost, fun var => ?_⟩
  by_cases hvar : owned var
  · exact hidle var hvar
  · exact h.idle var hvar

end Settled

end Ledger

end Watz.Base
