import Watz.Base.Ledger
import Watz.Base.Prog

namespace Watz.Base

-- What decides whether a step of a routine works: nothing, the result that goes with its
-- index, or data that is not looked at.
inductive Verdict where
  | always
  | result (index : Nat)
  | either
  deriving DecidableEq, Repr

namespace Verdict

def index? : Verdict → Option Nat
  | always => none
  | result index => some index
  | either => none

def mayWork (works : Nat → Bool) : Verdict → Bool
  | always => true
  | result index => works index
  | either => true

def mayFail (works : Nat → Bool) : Verdict → Bool
  | always => false
  | result index => !works index
  | either => true

end Verdict

-- One step of a routine: what it does first, what decides whether it works, and what is done
-- when it does not.
structure Call (ν : Type) where
  before : List (Action ν)
  verdict : Verdict
  cleanup : List (Action ν)
  deriving DecidableEq, Repr

namespace Call

variable {ν : Type} {works : Nat → Bool}

def released (cleanup : List (Action ν)) (c : Call ν) : Call ν :=
  { c with cleanup := c.cleanup ++ cleanup }

-- Everything that a list of calls can do, and whether it gets to its end.
def outcomes (works : Nat → Bool) : List (Call ν) → List (List (Action ν) × Bool)
  | [] => [([], true)]
  | c :: rest =>
      (if c.verdict.mayWork works then
        (outcomes works rest).map fun outcome => (c.before ++ outcome.1, outcome.2)
      else []) ++
      if c.verdict.mayFail works then [(c.before ++ c.cleanup, false)] else []

theorem mem_outcomes_cons {c : Call ν} {rest : List (Call ν)} {outcome : List (Action ν) × Bool} :
    outcome ∈ outcomes works (c :: rest) ↔
      (c.verdict.mayWork works = true ∧ ∃ later ∈ outcomes works rest,
        outcome = (c.before ++ later.1, later.2)) ∨
      c.verdict.mayFail works = true ∧ outcome = (c.before ++ c.cleanup, false) := by
  simp only [outcomes, List.mem_append]
  cases c.verdict.mayWork works <;> cases c.verdict.mayFail works <;>
    simp [eq_comm]

theorem mem_outcomes_append {first second : List (Call ν)} {actions later : List (Action ν)}
    {ok : Bool} (h : (actions, true) ∈ outcomes works first)
    (hlater : (later, ok) ∈ outcomes works second) :
    (actions ++ later, ok) ∈ outcomes works (first ++ second) := by
  induction first generalizing actions with
  | nil =>
      obtain rfl : actions = [] := by simpa [outcomes] using h
      exact hlater
  | cons c rest ih =>
      rcases mem_outcomes_cons.mp h with ⟨hworks, ⟨inner, ok'⟩, hinner, hsame⟩ | ⟨-, hsame⟩
      · obtain ⟨rfl, rfl⟩ := Prod.mk.inj hsame
        refine mem_outcomes_cons.mpr (.inl ⟨hworks, _, ih hinner, ?_⟩)
        simp only [List.append_assoc]
      · cases (Prod.mk.inj hsame).2

theorem mem_outcomes_append_of_fail {first second : List (Call ν)} {actions : List (Action ν)}
    (h : (actions, false) ∈ outcomes works first) :
    (actions, false) ∈ outcomes works (first ++ second) := by
  induction first generalizing actions with
  | nil => simp [outcomes] at h
  | cons c rest ih =>
      rcases mem_outcomes_cons.mp h with ⟨hworks, ⟨inner, ok⟩, hinner, hsame⟩ | ⟨hworks, hsame⟩
      · obtain ⟨rfl, rfl⟩ := Prod.mk.inj hsame
        exact mem_outcomes_cons.mpr (.inl ⟨hworks, _, ih hinner, rfl⟩)
      · exact mem_outcomes_cons.mpr (.inr ⟨hworks, hsame⟩)

theorem mem_outcomes_released (cleanup : List (Action ν)) {calls : List (Call ν)}
    {actions : List (Action ν)} {ok : Bool} (h : (actions, ok) ∈ outcomes works calls) :
    (if ok then actions else actions ++ cleanup, ok) ∈
      outcomes works (calls.map (released cleanup)) := by
  induction calls generalizing actions with
  | nil =>
      obtain ⟨rfl, rfl⟩ : actions = [] ∧ ok = true := by simpa [outcomes] using h
      exact h
  | cons c rest ih =>
      rcases mem_outcomes_cons.mp h with ⟨hworks, ⟨inner, ok'⟩, hinner, hsame⟩ | ⟨hworks, hsame⟩
      · obtain ⟨rfl, rfl⟩ := Prod.mk.inj hsame
        refine mem_outcomes_cons.mpr (.inl ⟨hworks, _, ih hinner, ?_⟩)
        cases ok <;> simp [released]
      · obtain ⟨rfl, rfl⟩ := Prod.mk.inj hsame
        refine mem_outcomes_cons.mpr (.inr ⟨hworks, ?_⟩)
        simp [released]

theorem actions_of_quiet {calls : List (Call ν)} (h : ∀ c ∈ calls, c.before = [] ∧ c.cleanup = [])
    {outcome : List (Action ν) × Bool} (hmem : outcome ∈ outcomes works calls) :
    outcome.1 = [] := by
  induction calls generalizing outcome with
  | nil =>
      obtain rfl : outcome = ([], true) := by simpa [outcomes] using hmem
      rfl
  | cons c rest ih =>
      obtain ⟨hbefore, hcleanup⟩ := h c List.mem_cons_self
      rcases mem_outcomes_cons.mp hmem with ⟨-, later, hlater, rfl⟩ | ⟨-, rfl⟩
      · simpa [hbefore] using ih (fun other ho => h other (List.mem_cons_of_mem _ ho)) hlater
      · simp [hbefore, hcleanup]

section FirstFault

-- The first index that fails, `bound` when none below it does.
def firstFault (works : Nat → Bool) (bound : Nat) : Nat :=
  (List.range bound).findIdx fun index => !works index

theorem firstFault_le (works : Nat → Bool) (bound : Nat) : firstFault works bound ≤ bound := by
  have hle : firstFault works bound ≤ (List.range bound).length := List.findIdx_le_length
  rwa [List.length_range] at hle

theorem works_of_lt_firstFault {bound index : Nat} (h : index < firstFault works bound) :
    works index = true := by
  have hnot := List.not_of_lt_findIdx h
  simpa using hnot

theorem not_works_firstFault {bound : Nat} (h : firstFault works bound < bound) :
    works (firstFault works bound) = false := by
  have hlength : (List.range bound).findIdx (fun index => !works index) <
      (List.range bound).length := by
    rwa [List.length_range]
  simpa [firstFault] using List.findIdx_getElem (w := hlength)

theorem le_firstFault_iff {bound count : Nat} (h : count ≤ bound) :
    count ≤ firstFault works bound ↔ ∀ index < count, works index = true := by
  constructor
  · intro hle index hindex
    exact works_of_lt_firstFault (Nat.lt_of_lt_of_le hindex hle)
  · intro hworks
    by_contra hlt
    have hfault : firstFault works bound < count := Nat.lt_of_not_le hlt
    have hnot := not_works_firstFault (Nat.lt_of_lt_of_le hfault h)
    rw [hworks _ hfault] at hnot
    cases hnot

-- What the calls can do when the results before an index, and no others, are good.
def outcomesAt (fault : Nat) (calls : List (Call ν)) : List (List (Action ν) × Bool) :=
  outcomes (fun index => decide (index < fault)) calls

-- What a routine can do when its results come in order is decided by the first that fails.
theorem outcomes_of_first {calls : List (Call ν)} {start count fault : Nat}
    (hindices : calls.filterMap (·.verdict.index?) = List.range' start count)
    (hstart : start ≤ fault) (hbefore : ∀ index < fault, works index = true)
    (hfault : fault < start + count → works fault = false) :
    outcomes works calls = outcomesAt fault calls := by
  unfold outcomesAt
  induction calls generalizing start count with
  | nil => rfl
  | cons c rest ih =>
      cases hverdict : c.verdict with
      | always =>
          simp only [List.filterMap_cons, hverdict, Verdict.index?] at hindices
          simp only [outcomes, hverdict, Verdict.mayWork, Verdict.mayFail, ih hindices hstart hfault]
      | either =>
          simp only [List.filterMap_cons, hverdict, Verdict.index?] at hindices
          simp only [outcomes, hverdict, Verdict.mayWork, Verdict.mayFail, ih hindices hstart hfault]
      | result index =>
          simp only [List.filterMap_cons, hverdict, Verdict.index?] at hindices
          cases count with
          | zero => cases hindices
          | succ count =>
              rw [List.range'_succ] at hindices
              obtain ⟨rfl, hrest⟩ := List.cons.inj hindices
              by_cases hlt : index < fault
              · have hlater := ih hrest hlt fun hend => hfault (by omega)
                simp [outcomes, hverdict, Verdict.mayWork, Verdict.mayFail, hlt,
                  hbefore index hlt, hlater]
              · have hsame : index = fault := by omega
                subst hsame
                simp [outcomes, hverdict, Verdict.mayWork, Verdict.mayFail, hfault (by omega)]

theorem outcomes_firstFault {calls : List (Call ν)} {bound : Nat}
    (hindices : calls.filterMap (·.verdict.index?) = List.range bound) :
    outcomes works calls = outcomesAt (firstFault works bound) calls :=
  outcomes_of_first (hindices.trans List.range_eq_range') (Nat.zero_le _)
    (fun _ hindex => works_of_lt_firstFault hindex)
    fun hlt => not_works_firstFault (by simpa using hlt)

end FirstFault

end Call

namespace Prog

variable {ρ σ ε ω α β ν : Type}

-- Unless it panics, the program does what a list of calls can do.
def Follows (actions : ω → List (Action ν)) (works : Nat → Bool) (p : Prog ρ σ ε ω α) (env : ρ)
    (s : σ) (calls : List (Call ν)) : Prop :=
  (p env s).out ≠ .panic →
    ((p env s).log.flatMap actions, (p env s).out.isOk) ∈ Call.outcomes works calls

section Follows

variable {actions : ω → List (Action ν)} {works : Nat → Bool} {env : ρ} {s : σ}
  {calls : List (Call ν)}

theorem Follows.bind {p : Prog ρ σ ε ω α} {f : α → Prog ρ σ ε ω β} {later : List (Call ν)}
    (hp : Follows actions works p env s calls)
    (hf : ∀ value, (p env s).out = .ok value →
      Follows actions works (f value) env (p env s).state later) :
    Follows actions works (p >>= f) env s (calls ++ later) := by
  intro hreturns
  cases hout : (p env s).out with
  | ok value =>
      have hfirst := hp (by simp [hout])
      rw [hout] at hfirst
      rw [out_bind_of_ok p f env s hout] at hreturns ⊢
      rw [log_bind_of_ok p f env s hout, List.flatMap_append]
      exact Call.mem_outcomes_append hfirst (hf value hout hreturns)
  | fail code =>
      have hfirst := hp (by simp [hout])
      have hnot : (p env s).out.isOk = false := by rw [hout]; rfl
      rw [isOk_bind_of_not_ok p f env s hnot, log_bind_of_not_ok p f env s hnot]
      rw [hnot] at hfirst
      exact Call.mem_outcomes_append_of_fail hfirst
  | panic =>
      refine absurd ?_ hreturns
      simp only [bind_run, andThen, hout]

-- Nothing that counts is done.
theorem Follows.quiet {p : Prog ρ σ ε ω α}
    (hok : (p env s).out = .panic ∨ (p env s).out.isOk = true)
    (hlog : (p env s).log.flatMap actions = []) : Follows actions works p env s [] := by
  intro hreturns
  rw [hlog, hok.resolve_left hreturns]
  exact List.mem_singleton_self _

theorem Follows.pure (value : α) : Follows actions works (pure value : Prog ρ σ ε ω α) env s [] :=
  .quiet (.inr rfl) rfl

theorem Follows.ask : Follows actions works (ask : Prog ρ σ ε ω ρ) env s [] :=
  .quiet (.inr rfl) rfl

theorem Follows.bind_ask {f : ρ → Prog ρ σ ε ω β} (hf : Follows actions works (f env) env s calls) :
    Follows actions works (Prog.ask >>= f) env s calls :=
  hf

theorem Follows.of_eq {p : Prog ρ σ ε ω α} {other : List (Call ν)}
    (hp : Follows actions works p env s calls) (h : calls = other) :
    Follows actions works p env s other :=
  h ▸ hp

theorem Follows.get : Follows actions works (get : Prog ρ σ ε ω σ) env s [] :=
  .quiet (.inr rfl) rfl

theorem Follows.modify (f : σ → σ) :
    Follows actions works (modify f : Prog ρ σ ε ω Unit) env s [] :=
  .quiet (.inr rfl) rfl

theorem Follows.orPanic (choice : Option α) :
    Follows actions works (orPanic choice : Prog ρ σ ε ω α) env s [] := by
  cases choice with
  | none => exact .quiet (.inl rfl) rfl
  | some value => exact .quiet (.inr rfl) rfl

-- Nothing that it does can fail.
theorem Follows.always {p : Prog ρ σ ε ω α} (hok : (p env s).out.isOk = true) :
    Follows actions works p env s [⟨(p env s).log.flatMap actions, .always, []⟩] := by
  intro _
  refine Call.mem_outcomes_cons.mpr (.inl ⟨rfl, _, List.mem_singleton_self _, ?_⟩)
  rw [hok, List.append_nil]

theorem Follows.emit (events : List ω) :
    Follows actions works (emit events : Prog ρ σ ε ω Unit) env s
      [⟨events.flatMap actions, .always, []⟩] :=
  .always rfl

theorem Follows.require (condition : Bool) (code : ε) :
    Follows actions works (require condition code : Prog ρ σ ε ω Unit) env s
      [⟨[], .either, []⟩] := by
  intro _
  cases condition <;>
    simp [Prog.require, ret, Call.outcomes, Verdict.mayWork, Verdict.mayFail]

theorem Follows.orFail (choice : Option α) (code : ε) :
    Follows actions works (orFail choice code : Prog ρ σ ε ω α) env s [⟨[], .either, []⟩] := by
  intro _
  cases choice <;> simp [Prog.orFail, ret, Call.outcomes, Verdict.mayWork, Verdict.mayFail]

theorem Follows.call {result : ρ → Option ε} {index : Nat} (h : (result env).isNone = works index)
    (record : Option ε → ω) :
    Follows actions works (call result record : Prog ρ σ ε ω Unit) env s
      [⟨actions (record (result env)), .result index, []⟩] := by
  intro _
  cases hresult : result env <;> rw [hresult] at h <;>
    simp [Prog.call, hresult, Call.outcomes, Verdict.mayWork, Verdict.mayFail, ← h]

theorem Follows.call_either (result : ρ → Option ε) (record : Option ε → ω) :
    Follows actions works (Prog.call result record : Prog ρ σ ε ω Unit) env s
      [⟨actions (record (result env)), .either, []⟩] := by
  intro _
  cases hresult : result env <;>
    simp [Prog.call, hresult, Call.outcomes, Verdict.mayWork, Verdict.mayFail]

theorem Follows.onFail {p : Prog ρ σ ε ω α} (cleanup : List ω)
    (hp : Follows actions works p env s calls) :
    Follows actions works (onFail cleanup p) env s
      (calls.map (Call.released (cleanup.flatMap actions))) := by
  intro hreturns
  rw [onFail_out] at hreturns
  have hreleased := Call.mem_outcomes_released (cleanup.flatMap actions) (hp hreturns)
  cases hout : (p env s).out with
  | ok value => simpa [Prog.onFail, hout] using hreleased
  | fail code => simpa [Prog.onFail, hout] using hreleased
  | panic => exact absurd hout hreturns

-- Events that a failure leaves behind but that do nothing with handles.
theorem Follows.onFailWith {p : Prog ρ σ ε ω α} {report : ε → List ω}
    (hquiet : ∀ code, (report code).flatMap actions = [])
    (hp : Follows actions works p env s calls) :
    Follows actions works (onFailWith report p) env s calls := by
  intro hreturns
  rw [onFailWith_out] at hreturns
  have hout := hp hreturns
  cases hcode : (p env s).out <;> simpa [Prog.onFailWith, hcode, hquiet] using hout

-- What a program does that follows calls with results in order depends on the first fault.
theorem Follows.mem_firstFault {p : Prog ρ σ ε ω α} (hp : Follows actions works p env s calls)
    (hreturns : (p env s).out ≠ .panic) {bound : Nat}
    (hindices : calls.filterMap (·.verdict.index?) = List.range bound) :
    ((p env s).log.flatMap actions, (p env s).out.isOk) ∈
      Call.outcomesAt (Call.firstFault works bound) calls := by
  rw [← Call.outcomes_firstFault hindices]
  exact hp hreturns

end Follows

-- A program that follows the same calls in any state. The rules below go through its text.
def Traced (actions : ω → List (Action ν)) (works : ρ → Nat → Bool) (p : Prog ρ σ ε ω α)
    (calls : ρ → List (Call ν)) : Prop :=
  ∀ env s, Follows actions (works env) p env s (calls env)

section Traced

variable {actions : ω → List (Action ν)} {works : ρ → Nat → Bool} {calls : ρ → List (Call ν)}

theorem Traced.of_eq {p : Prog ρ σ ε ω α} {other : ρ → List (Call ν)}
    (hp : Traced actions works p calls) (h : ∀ env, calls env = other env) :
    Traced actions works p other :=
  fun env s => (hp env s).of_eq (h env)

theorem Traced.bind {p : Prog ρ σ ε ω α} {f : α → Prog ρ σ ε ω β} {later : ρ → List (Call ν)}
    (hp : Traced actions works p calls) (hf : ∀ value, Traced actions works (f value) later) :
    Traced actions works (p >>= f) fun env => calls env ++ later env :=
  fun env s => (hp env s).bind fun value _ => hf value env _

theorem Traced.onFail {p : Prog ρ σ ε ω α} {cleanup : List ω}
    (hp : Traced actions works p calls) :
    Traced actions works (onFail cleanup p)
      fun env => (calls env).map (Call.released (cleanup.flatMap actions)) :=
  fun env s => (hp env s).onFail cleanup

theorem Traced.onFailWith {p : Prog ρ σ ε ω α} {report : ε → List ω}
    (hquiet : ∀ code, (report code).flatMap actions = []) (hp : Traced actions works p calls) :
    Traced actions works (onFailWith report p) calls :=
  fun env s => (hp env s).onFailWith hquiet

theorem Traced.pure {value : α} :
    Traced actions works (pure value : Prog ρ σ ε ω α) fun _ => [] :=
  fun _ _ => .pure value

theorem Traced.ask : Traced actions works (ask : Prog ρ σ ε ω ρ) fun _ => [] := fun _ _ => .ask

theorem Traced.get : Traced actions works (get : Prog ρ σ ε ω σ) fun _ => [] := fun _ _ => .get

theorem Traced.modify {f : σ → σ} :
    Traced actions works (modify f : Prog ρ σ ε ω Unit) fun _ => [] :=
  fun _ _ => .modify f

theorem Traced.orPanic {choice : Option α} :
    Traced actions works (orPanic choice : Prog ρ σ ε ω α) fun _ => [] :=
  fun _ _ => .orPanic choice

theorem Traced.require {condition : Bool} {code : ε} :
    Traced actions works (require condition code : Prog ρ σ ε ω Unit)
      fun _ => [⟨[], .either, []⟩] :=
  fun _ _ => .require condition code

theorem Traced.orFail {choice : Option α} {code : ε} :
    Traced actions works (orFail choice code : Prog ρ σ ε ω α) fun _ => [⟨[], .either, []⟩] :=
  fun _ _ => .orFail choice code

theorem Traced.emit {events : List ω} : Traced actions works (emit events : Prog ρ σ ε ω Unit)
    fun _ => [⟨events.flatMap actions, .always, []⟩] :=
  fun _ _ => .emit events

end Traced

-- From this ledger, a run leaves one with `post` if it works and one with `kept` if it fails.
def Settles (actions : ω → List (Action ν)) [DecidableEq ν] (kept post : Ledger ν → Prop)
    (p : Prog ρ σ ε ω α) (env : ρ) (s : σ) (L : Ledger ν) : Prop :=
  (p env s).out ≠ .panic →
    if (p env s).out.isOk then post (L.replay ((p env s).log.flatMap actions))
    else kept (L.replay ((p env s).log.flatMap actions))

section Settles

variable {actions : ω → List (Action ν)} [DecidableEq ν] {kept mid post : Ledger ν → Prop}
  {env : ρ} {s : σ} {L : Ledger ν}

theorem Settles.bind {p : Prog ρ σ ε ω α} {f : α → Prog ρ σ ε ω β}
    (hp : Settles actions kept mid p env s L)
    (hf : ∀ value M, (p env s).out = .ok value → mid M →
      Settles actions kept post (f value) env (p env s).state M) :
    Settles actions kept post (p >>= f) env s L := by
  intro hreturns
  cases hout : (p env s).out with
  | ok value =>
      have hmid := hp (by simp [hout])
      simp only [hout, Out.isOk_ok, if_true] at hmid
      rw [out_bind_of_ok p f env s hout] at hreturns ⊢
      rw [log_bind_of_ok p f env s hout, List.flatMap_append, Ledger.replay_append]
      exact hf value _ hout hmid hreturns
  | fail code =>
      have hnot : (p env s).out.isOk = false := by rw [hout]; rfl
      have hkept := hp (by simp [hout])
      rw [hnot] at hkept
      rw [isOk_bind_of_not_ok p f env s hnot, log_bind_of_not_ok p f env s hnot]
      exact hkept
  | panic => exact absurd (out_bind_of_panic p f env s hout) hreturns

theorem Settles.mono {p : Prog ρ σ ε ω α} (hp : Settles actions kept mid p env s L)
    (h : ∀ M, mid M → post M) : Settles actions kept post p env s L := by
  intro hreturns
  have hend := hp hreturns
  split at hend <;> rename_i hok
  · rw [if_pos hok]
    exact h _ hend
  · rw [if_neg hok]
    exact hend

-- The same holds of the ledger whether the program works or not.
theorem Settles.of_both {p : Prog ρ σ ε ω α}
    (h : (p env s).out ≠ .panic → kept (L.replay ((p env s).log.flatMap actions))) :
    Settles actions kept kept p env s L := by
  intro hreturns
  rw [ite_self]
  exact h hreturns

-- Nothing that counts is done.
theorem Settles.silent {p : Prog ρ σ ε ω α} (hlog : (p env s).log.flatMap actions = [])
    (hkept : kept L) : Settles actions kept (· = L) p env s L := by
  intro _
  rw [hlog]
  split
  · rfl
  · exact hkept

theorem Settles.quiet {works : Nat → Bool} {p : Prog ρ σ ε ω α} {calls : List (Call ν)}
    (hp : Follows actions works p env s calls)
    (hquiet : ∀ c ∈ calls, c.before = [] ∧ c.cleanup = []) (hkept : kept L) :
    Settles actions kept (· = L) p env s L :=
  fun hreturns => Settles.silent (Call.actions_of_quiet hquiet (hp hreturns)) hkept hreturns

-- What comes after a part that cannot work does not matter.
theorem Settles.never {p : Prog ρ σ ε ω α} {f : α → Prog ρ σ ε ω β}
    (hp : Settles actions kept (fun _ => False) p env s L) :
    Settles actions kept post (p >>= f) env s L :=
  hp.bind fun _ _ _ h => h.elim

end Settles

end Prog

end Watz.Base
