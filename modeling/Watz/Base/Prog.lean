import Mathlib.Data.List.Basic
import Mathlib.Tactic.Tauto

namespace Watz.Base

-- How a C function ends: with a value, with an error code, or not at all because the
-- system call it made ended the whole instance.
inductive Out (ε α : Type) where
  | ok (value : α)
  | fail (code : ε)
  | panic
  deriving DecidableEq, Repr

namespace Out

variable {ε α : Type}

def isOk : Out ε α → Bool
  | ok _ => true
  | fail _ => false
  | panic => false

@[simp] theorem isOk_ok (value : α) : (ok value : Out ε α).isOk = true := rfl
@[simp] theorem isOk_fail (code : ε) : (fail code : Out ε α).isOk = false := rfl
@[simp] theorem isOk_panic : (panic : Out ε α).isOk = false := rfl

theorem isOk_iff (out : Out ε α) : out.isOk = true ↔ ∃ value, out = ok value := by
  cases out <;> simp

theorem isOk_unit_iff (out : Out ε Unit) : out.isOk = true ↔ out = ok () := by
  cases out <;> simp

end Out

structure Effect (σ ε ω α : Type) where
  out : Out ε α
  state : σ
  log : List ω

-- A program reads an environment `ρ`, updates a state `σ`, fails with codes `ε` and logs
-- events `ω`. The updates made before a failure stay: there is no rollback.
def Prog (ρ σ ε ω α : Type) : Type := ρ → σ → Effect σ ε ω α

namespace Prog

variable {ρ σ ε ω α β : Type}

def ret (value : α) : Prog ρ σ ε ω α := fun _ s => ⟨.ok value, s, []⟩

def andThen (p : Prog ρ σ ε ω α) (f : α → Prog ρ σ ε ω β) : Prog ρ σ ε ω β := fun env s =>
  match (p env s).out with
  | .ok value =>
      let next := f value env (p env s).state
      ⟨next.out, next.state, (p env s).log ++ next.log⟩
  | .fail code => ⟨.fail code, (p env s).state, (p env s).log⟩
  | .panic => ⟨.panic, (p env s).state, (p env s).log⟩

instance : Monad (Prog ρ σ ε ω) where
  pure := ret
  bind := andThen

def ask : Prog ρ σ ε ω ρ := fun env s => ⟨.ok env, s, []⟩

def get : Prog ρ σ ε ω σ := fun _ s => ⟨.ok s, s, []⟩

def modify (f : σ → σ) : Prog ρ σ ε ω Unit := fun _ s => ⟨.ok (), f s, []⟩

def failWith (code : ε) : Prog ρ σ ε ω α := fun _ s => ⟨.fail code, s, []⟩

def abort : Prog ρ σ ε ω α := fun _ s => ⟨.panic, s, []⟩

def emit (events : List ω) : Prog ρ σ ε ω Unit := fun _ s => ⟨.ok (), s, events⟩

-- A check of the C text: `if (!condition) return code;`.
def require (condition : Bool) (code : ε) : Prog ρ σ ε ω Unit :=
  if condition then ret () else failWith code

def orPanic : Option α → Prog ρ σ ε ω α
  | some value => ret value
  | none => abort

def orFail (choice : Option α) (code : ε) : Prog ρ σ ε ω α :=
  match choice with
  | some value => ret value
  | none => failWith code

-- A call whose result the environment decides. `record` turns the result into an event.
def call (result : ρ → Option ε) (record : Option ε → ω) : Prog ρ σ ε ω Unit := fun env s =>
  match result env with
  | none => ⟨.ok (), s, [record none]⟩
  | some code => ⟨.fail code, s, [record (some code)]⟩

-- `goto out` on failure: the events of the cleanup follow those of the failed part.
def onFail (cleanup : List ω) (p : Prog ρ σ ε ω α) : Prog ρ σ ε ω α := fun env s =>
  match (p env s).out with
  | .fail code => ⟨.fail code, (p env s).state, (p env s).log ++ cleanup⟩
  | _ => p env s

-- Events that a failure leaves behind depending on its code.
def onFailWith (report : ε → List ω) (p : Prog ρ σ ε ω α) : Prog ρ σ ε ω α := fun env s =>
  match (p env s).out with
  | .fail code => ⟨.fail code, (p env s).state, (p env s).log ++ report code⟩
  | _ => p env s

-- A part whose error code the caller drops.
def ignoreFail (p : Prog ρ σ ε ω Unit) : Prog ρ σ ε ω Unit := fun env s =>
  match (p env s).out with
  | .fail _ => ⟨.ok (), (p env s).state, (p env s).log⟩
  | _ => p env s

@[simp] theorem exists_unit {prop : Unit → Prop} : (∃ value, prop value) ↔ prop () :=
  ⟨fun ⟨_, h⟩ => h, fun h => ⟨(), h⟩⟩

section Outcome

variable (p : Prog ρ σ ε ω α) (f : α → Prog ρ σ ε ω β) (env : ρ) (s : σ)

theorem out_bind_ok (value : β) :
    ((p >>= f) env s).out = .ok value ↔
      ∃ first, (p env s).out = .ok first ∧ (f first env (p env s).state).out = .ok value := by
  change (andThen p f env s).out = .ok value ↔ _
  unfold andThen
  cases h : (p env s).out <;> simp

theorem state_bind_of_ok {first : α} (h : (p env s).out = .ok first) :
    ((p >>= f) env s).state = (f first env (p env s).state).state := by
  change (andThen p f env s).state = _
  simp only [andThen, h]

theorem out_bind_of_ok {first : α} (h : (p env s).out = .ok first) :
    ((p >>= f) env s).out = (f first env (p env s).state).out := by
  change (andThen p f env s).out = _
  simp only [andThen, h]

theorem log_bind_of_ok {first : α} (h : (p env s).out = .ok first) :
    ((p >>= f) env s).log = (p env s).log ++ (f first env (p env s).state).log := by
  change (andThen p f env s).log = _
  simp only [andThen, h]

theorem state_bind_of_not_ok (h : (p env s).out.isOk = false) :
    ((p >>= f) env s).state = (p env s).state := by
  change (andThen p f env s).state = _
  cases ho : (p env s).out with
  | ok value => simp [ho] at h
  | fail code => simp only [andThen, ho]
  | panic => simp only [andThen, ho]

theorem out_bind_of_panic (h : (p env s).out = .panic) : ((p >>= f) env s).out = .panic := by
  change (andThen p f env s).out = _
  simp only [andThen, h]

theorem isOk_bind_of_not_ok (h : (p env s).out.isOk = false) :
    ((p >>= f) env s).out.isOk = false := by
  change (andThen p f env s).out.isOk = false
  cases ho : (p env s).out with
  | ok value => simp [ho] at h
  | fail code => simp only [andThen, ho, Out.isOk_fail]
  | panic => simp only [andThen, ho, Out.isOk_panic]

theorem log_bind_of_not_ok (h : (p env s).out.isOk = false) :
    ((p >>= f) env s).log = (p env s).log := by
  change (andThen p f env s).log = _
  cases ho : (p env s).out with
  | ok value => simp [ho] at h
  | fail code => simp only [andThen, ho]
  | panic => simp only [andThen, ho]

-- The log of the first part is always part of the whole log.
theorem mem_log_bind {event : ω} (h : event ∈ (p env s).log) : event ∈ ((p >>= f) env s).log := by
  cases ho : (p env s).out.isOk with
  | false => rwa [log_bind_of_not_ok p f env s ho]
  | true =>
      obtain ⟨value, hv⟩ := (Out.isOk_iff _).mp ho
      rw [log_bind_of_ok p f env s hv]
      exact List.mem_append_left _ h

end Outcome

-- The program succeeds with this value and leaves this state.
def Reaches (p : Prog ρ σ ε ω α) (env : ρ) (s : σ) (value : α) (post : σ) : Prop :=
  (p env s).out = .ok value ∧ (p env s).state = post

section Reaches

variable {p : Prog ρ σ ε ω α} {f : α → Prog ρ σ ε ω β} {env : ρ} {s mid post : σ}
  {first : α} {value : β}

theorem Reaches.bind_out (hp : Reaches p env s first mid) :
    ((p >>= f) env s).out = (f first env mid).out := by
  obtain ⟨hout, rfl⟩ := hp
  exact out_bind_of_ok p f env s hout

theorem Reaches.bind_state (hp : Reaches p env s first mid) :
    ((p >>= f) env s).state = (f first env mid).state := by
  obtain ⟨hout, rfl⟩ := hp
  exact state_bind_of_ok p f env s hout

theorem Reaches.bind (hp : Reaches p env s first mid)
    (hf : Reaches (f first) env mid value post) : Reaches (p >>= f) env s value post :=
  ⟨hp.bind_out.trans hf.1, hp.bind_state.trans hf.2⟩

theorem Reaches.require {condition : Bool} (h : condition = true) (code : ε) (env : ρ) (s : σ) :
    Reaches (require condition code : Prog ρ σ ε ω Unit) env s () s := by
  subst h
  exact ⟨rfl, rfl⟩

theorem Reaches.ask (env : ρ) (s : σ) : Reaches (ask : Prog ρ σ ε ω ρ) env s env s := ⟨rfl, rfl⟩

theorem Reaches.get (env : ρ) (s : σ) : Reaches (get : Prog ρ σ ε ω σ) env s s s := ⟨rfl, rfl⟩

theorem Reaches.modify (f : σ → σ) (env : ρ) (s : σ) :
    Reaches (modify f : Prog ρ σ ε ω Unit) env s () (f s) := ⟨rfl, rfl⟩

theorem Reaches.of_run {log : List ω} (h : p env s = ⟨.ok first, post, log⟩) :
    Reaches p env s first post := by
  rw [Reaches, h]
  exact ⟨rfl, rfl⟩

end Reaches

section Steps

variable (env : ρ) (s : σ)

theorem bind_run (p : Prog ρ σ ε ω α) (f : α → Prog ρ σ ε ω β) :
    (p >>= f) env s = andThen p f env s := rfl

theorem run_bind {p : Prog ρ σ ε ω α} {f : α → Prog ρ σ ε ω β} {env : ρ} {s mid post : σ}
    {first : α} {value : β} {log log' : List ω} (hp : p env s = ⟨.ok first, mid, log⟩)
    (hf : f first env mid = ⟨.ok value, post, log'⟩) :
    (p >>= f) env s = ⟨.ok value, post, log ++ log'⟩ := by
  simp only [bind_run, andThen, hp, hf]

theorem ok_of_run_bind {p : Prog ρ σ ε ω α} {f : α → Prog ρ σ ε ω β} {env : ρ} {s mid : σ}
    {first : α} {value : β} {log : List ω} (hp : p env s = ⟨.ok first, mid, log⟩)
    (h : ((p >>= f) env s).out = .ok value) : (f first env mid).out = .ok value := by
  simpa only [bind_run, andThen, hp] using h

@[simp] theorem pure_run (value : α) :
    (pure value : Prog ρ σ ε ω α) env s = ⟨.ok value, s, []⟩ := rfl

@[simp] theorem ask_run : (ask : Prog ρ σ ε ω ρ) env s = ⟨.ok env, s, []⟩ := rfl

@[simp] theorem get_run : (get : Prog ρ σ ε ω σ) env s = ⟨.ok s, s, []⟩ := rfl

@[simp] theorem modify_run (f : σ → σ) :
    (modify f : Prog ρ σ ε ω Unit) env s = ⟨.ok (), f s, []⟩ := rfl

@[simp] theorem emit_run (events : List ω) :
    (emit events : Prog ρ σ ε ω Unit) env s = ⟨.ok (), s, events⟩ := rfl

@[simp] theorem failWith_run (code : ε) :
    (failWith code : Prog ρ σ ε ω α) env s = ⟨.fail code, s, []⟩ := rfl

@[simp] theorem abort_run : (abort : Prog ρ σ ε ω α) env s = ⟨.panic, s, []⟩ := rfl

@[simp] theorem require_out_ok (condition : Bool) (code : ε) :
    ((require condition code : Prog ρ σ ε ω Unit) env s).out = .ok () ↔ condition = true := by
  cases condition <;> simp [require, ret]

@[simp] theorem require_state (condition : Bool) (code : ε) :
    ((require condition code : Prog ρ σ ε ω Unit) env s).state = s := by
  cases condition <;> simp [require, ret]

@[simp] theorem require_log (condition : Bool) (code : ε) :
    ((require condition code : Prog ρ σ ε ω Unit) env s).log = [] := by
  cases condition <;> simp [require, ret]

@[simp] theorem orPanic_out_ok (choice : Option α) (value : α) :
    ((orPanic choice : Prog ρ σ ε ω α) env s).out = .ok value ↔ choice = some value := by
  cases choice <;> simp [orPanic, ret]

@[simp] theorem orPanic_state (choice : Option α) :
    ((orPanic choice : Prog ρ σ ε ω α) env s).state = s := by
  cases choice <;> simp [orPanic, ret]

@[simp] theorem orPanic_log (choice : Option α) :
    ((orPanic choice : Prog ρ σ ε ω α) env s).log = [] := by
  cases choice <;> simp [orPanic, ret]

@[simp] theorem orFail_out_ok (choice : Option α) (code : ε) (value : α) :
    ((orFail choice code : Prog ρ σ ε ω α) env s).out = .ok value ↔ choice = some value := by
  cases choice <;> simp [orFail, ret]

@[simp] theorem orFail_state (choice : Option α) (code : ε) :
    ((orFail choice code : Prog ρ σ ε ω α) env s).state = s := by
  cases choice <;> simp [orFail, ret]

@[simp] theorem orFail_log (choice : Option α) (code : ε) :
    ((orFail choice code : Prog ρ σ ε ω α) env s).log = [] := by
  cases choice <;> simp [orFail, ret]

@[simp] theorem call_out_ok (result : ρ → Option ε) (record : Option ε → ω) :
    ((call result record : Prog ρ σ ε ω Unit) env s).out = .ok () ↔ result env = none := by
  cases h : result env <;> simp [call, h]

@[simp] theorem call_state (result : ρ → Option ε) (record : Option ε → ω) :
    ((call result record : Prog ρ σ ε ω Unit) env s).state = s := by
  cases h : result env <;> simp [call, h]

@[simp] theorem call_log (result : ρ → Option ε) (record : Option ε → ω) :
    ((call result record : Prog ρ σ ε ω Unit) env s).log = [record (result env)] := by
  cases h : result env <;> simp [call, h]

@[simp] theorem onFail_out (cleanup : List ω) (p : Prog ρ σ ε ω α) :
    (onFail cleanup p env s).out = (p env s).out := by
  cases h : (p env s).out <;> simp [onFail, h]

@[simp] theorem onFail_state (cleanup : List ω) (p : Prog ρ σ ε ω α) :
    (onFail cleanup p env s).state = (p env s).state := by
  cases h : (p env s).out <;> simp [onFail, h]

@[simp] theorem onFailWith_out (report : ε → List ω) (p : Prog ρ σ ε ω α) :
    (onFailWith report p env s).out = (p env s).out := by
  cases h : (p env s).out <;> simp [onFailWith, h]

@[simp] theorem onFailWith_state (report : ε → List ω) (p : Prog ρ σ ε ω α) :
    (onFailWith report p env s).state = (p env s).state := by
  cases h : (p env s).out <;> simp [onFailWith, h]

@[simp] theorem ignoreFail_state (p : Prog ρ σ ε ω Unit) :
    (ignoreFail p env s).state = (p env s).state := by
  cases h : (p env s).out <;> simp [ignoreFail, h]

theorem mem_log_onFail (cleanup : List ω) (p : Prog ρ σ ε ω α) {event : ω} :
    event ∈ (onFail cleanup p env s).log → event ∈ (p env s).log ∨ event ∈ cleanup := by
  cases h : (p env s).out <;> simp only [onFail, h, List.mem_append] <;> tauto

theorem log_onFail_of_mem (cleanup : List ω) (p : Prog ρ σ ε ω α) {event : ω}
    (he : event ∈ (p env s).log) : event ∈ (onFail cleanup p env s).log := by
  cases h : (p env s).out <;> simp only [onFail, h, List.mem_append] <;> tauto

end Steps

-- The program leaves the part of the state that `view` shows as it was, whatever its outcome.
def Keeps {γ : Type} (view : σ → γ) (p : Prog ρ σ ε ω α) : Prop :=
  ∀ env s, view (p env s).state = view s

-- Every event that the program logs from here is allowed.
def Logs (p : Prog ρ σ ε ω α) (env : ρ) (s : σ) (allowed : ω → Prop) : Prop :=
  ∀ event ∈ (p env s).log, allowed event

-- Started where the invariant holds, the program keeps it and logs allowed events only,
-- whatever its outcome.
def Confined (inv : σ → Prop) (allowed : ω → Prop) (p : Prog ρ σ ε ω α) : Prop :=
  ∀ env s, inv s → inv (p env s).state ∧ Logs p env s allowed

section Keeps

variable {γ : Type} {view : σ → γ}

@[simp] theorem Keeps.bind {p : Prog ρ σ ε ω α} {f : α → Prog ρ σ ε ω β}
    (hp : Keeps view p) (hf : ∀ value, Keeps view (f value)) : Keeps view (p >>= f) := by
  intro env s
  cases ho : (p env s).out.isOk with
  | false => rw [state_bind_of_not_ok p f env s ho]; exact hp env s
  | true =>
      obtain ⟨value, hv⟩ := (Out.isOk_iff _).mp ho
      rw [state_bind_of_ok p f env s hv]
      exact (hf value env _).trans (hp env s)

@[simp] theorem Keeps.pure (value : α) : Keeps view (pure value : Prog ρ σ ε ω α) :=
  fun _ _ => rfl

@[simp] theorem Keeps.ask : Keeps view (ask : Prog ρ σ ε ω ρ) := fun _ _ => rfl

@[simp] theorem Keeps.get : Keeps view (get : Prog ρ σ ε ω σ) := fun _ _ => rfl

@[simp] theorem Keeps.emit (events : List ω) : Keeps view (emit events : Prog ρ σ ε ω Unit) :=
  fun _ _ => rfl

@[simp] theorem Keeps.failWith (code : ε) : Keeps view (failWith code : Prog ρ σ ε ω α) :=
  fun _ _ => rfl

@[simp] theorem Keeps.abort : Keeps view (abort : Prog ρ σ ε ω α) := fun _ _ => rfl

@[simp] theorem Keeps.require (condition : Bool) (code : ε) :
    Keeps view (require condition code : Prog ρ σ ε ω Unit) := by
  intro env s
  rw [require_state]

@[simp] theorem Keeps.orPanic (choice : Option α) :
    Keeps view (orPanic choice : Prog ρ σ ε ω α) := by
  intro env s
  rw [orPanic_state]

@[simp] theorem Keeps.orFail (choice : Option α) (code : ε) :
    Keeps view (orFail choice code : Prog ρ σ ε ω α) := by
  intro env s
  rw [orFail_state]

@[simp] theorem Keeps.call (result : ρ → Option ε) (record : Option ε → ω) :
    Keeps view (call result record : Prog ρ σ ε ω Unit) := by
  intro env s
  rw [call_state]

@[simp] theorem Keeps.onFail {cleanup : List ω} {p : Prog ρ σ ε ω α} (hp : Keeps view p) :
    Keeps view (onFail cleanup p) := by
  intro env s
  rw [onFail_state]
  exact hp env s

@[simp] theorem Keeps.onFailWith {report : ε → List ω} {p : Prog ρ σ ε ω α} (hp : Keeps view p) :
    Keeps view (onFailWith report p) := by
  intro env s
  rw [onFailWith_state]
  exact hp env s

@[simp] theorem Keeps.ignoreFail {p : Prog ρ σ ε ω Unit} (hp : Keeps view p) :
    Keeps view (ignoreFail p) := by
  intro env s
  rw [ignoreFail_state]
  exact hp env s

@[simp] theorem Keeps.modify {f : σ → σ} (hf : ∀ s, view (f s) = view s) :
    Keeps view (modify f : Prog ρ σ ε ω Unit) := fun _ s => hf s

@[simp] theorem Keeps.ite {condition : Prop} [Decidable condition] {p q : Prog ρ σ ε ω α}
    (hp : Keeps view p) (hq : Keeps view q) : Keeps view (if condition then p else q) := by
  split
  · exact hp
  · exact hq

theorem state_of_keeps {p : Prog ρ σ ε ω α} (hp : Keeps id p) (env : ρ) (s : σ) :
    (p env s).state = s := hp env s

theorem Keeps.of_id {p : Prog ρ σ ε ω α} (hp : Keeps id p) : Keeps view p := by
  intro env s
  rw [state_of_keeps hp]

-- A program that keeps a part of the state keeps whatever is read off that part.
theorem Keeps.map {δ : Type} {coarse : σ → δ} {p : Prog ρ σ ε ω α} (hp : Keeps view p)
    (g : γ → δ) (hg : ∀ s, coarse s = g (view s)) : Keeps coarse p := by
  intro env s
  rw [hg, hg, hp env s]

end Keeps

-- A failure of the program leaves the state as it was.
def Atomic (p : Prog ρ σ ε ω α) : Prop :=
  ∀ env s, (p env s).out.isOk = false → (p env s).state = s

section Atomic

-- A check that passes goes on from the state it looked at.
theorem Keeps.reaches {p : Prog ρ σ ε ω α} (hp : Keeps id p) {env : ρ} {s : σ} {value : α}
    (hout : (p env s).out = .ok value) : Reaches p env s value s :=
  ⟨hout, hp env s⟩

-- A check either passes, and the rest runs from the same state, or it ends the program there.
theorem Keeps.bind_cases {p : Prog ρ σ ε ω α} (hp : Keeps id p) (f : α → Prog ρ σ ε ω β)
    (env : ρ) (s : σ) :
    (∃ value, (p env s).out = .ok value ∧ ((p >>= f) env s).out = (f value env s).out ∧
        ((p >>= f) env s).state = (f value env s).state) ∨
      ((p env s).out.isOk = false ∧ ((p >>= f) env s).out.isOk = false ∧
        ((p >>= f) env s).state = s) := by
  cases ho : (p env s).out.isOk with
  | false =>
      right
      exact ⟨rfl, isOk_bind_of_not_ok p f env s ho,
        (state_bind_of_not_ok p f env s ho).trans (hp env s)⟩
  | true =>
      left
      obtain ⟨value, hv⟩ := (Out.isOk_iff _).mp ho
      have hreaches := hp.reaches hv
      exact ⟨value, hv, hreaches.bind_out, hreaches.bind_state⟩

theorem Atomic.modify (f : σ → σ) : Atomic (modify f : Prog ρ σ ε ω Unit) := by
  intro env s h
  simp at h

theorem Atomic.onFail {cleanup : List ω} {p : Prog ρ σ ε ω α} (hp : Atomic p) :
    Atomic (onFail cleanup p) := by
  intro env s h
  rw [onFail_out] at h
  rw [onFail_state]
  exact hp env s h

-- Nothing changes before the part that may change the state and fail.
theorem Atomic.after {p : Prog ρ σ ε ω α} {f : α → Prog ρ σ ε ω β} (hp : Keeps id p)
    (hf : ∀ value, Atomic (f value)) : Atomic (p >>= f) := by
  intro env s h
  cases ho : (p env s).out.isOk with
  | false => rw [state_bind_of_not_ok p f env s ho]; exact hp env s
  | true =>
      obtain ⟨value, hv⟩ := (Out.isOk_iff _).mp ho
      rw [out_bind_of_ok p f env s hv] at h
      rw [state_bind_of_ok p f env s hv, hf value env _ h]
      exact hp env s

-- What follows the change cannot fail.
theorem Atomic.before {p : Prog ρ σ ε ω α} {f : α → Prog ρ σ ε ω β} (hp : Atomic p)
    (hf : ∀ value env s, (f value env s).out.isOk = true) : Atomic (p >>= f) := by
  intro env s h
  cases ho : (p env s).out.isOk with
  | false => rw [state_bind_of_not_ok p f env s ho]; exact hp env s ho
  | true =>
      obtain ⟨value, hv⟩ := (Out.isOk_iff _).mp ho
      rw [out_bind_of_ok p f env s hv, hf] at h
      cases h

end Atomic

-- A program that succeeds has logged allowed events only.
def Reports (allowed : ω → Prop) (p : Prog ρ σ ε ω α) : Prop :=
  ∀ env s value, (p env s).out = .ok value → Logs p env s allowed

section Logs

variable {p : Prog ρ σ ε ω α} {f : α → Prog ρ σ ε ω β} {env : ρ} {s : σ} {allowed : ω → Prop}

theorem Logs.bind (hp : Logs p env s allowed)
    (hf : ∀ value, (p env s).out = .ok value → Logs (f value) env (p env s).state allowed) :
    Logs (p >>= f) env s allowed := by
  intro event he
  cases ho : (p env s).out.isOk with
  | false =>
      rw [log_bind_of_not_ok p f env s ho] at he
      exact hp event he
  | true =>
      obtain ⟨value, hv⟩ := (Out.isOk_iff _).mp ho
      rw [log_bind_of_ok p f env s hv] at he
      rcases List.mem_append.mp he with he | he
      · exact hp event he
      · exact hf value hv event he

-- Where the first part is known to get, the rest starts there.
theorem Reaches.logs_bind {first : α} {mid : σ} (hreaches : Reaches p env s first mid)
    (hp : Logs p env s allowed) (hf : Logs (f first) env mid allowed) :
    Logs (p >>= f) env s allowed := by
  refine hp.bind fun value hv => ?_
  cases hreaches.1.symm.trans hv
  rw [hreaches.2]
  exact hf

theorem Reaches.mem_log_bind {first : α} {mid : σ} (hreaches : Reaches p env s first mid)
    {event : ω} (he : event ∈ (f first env mid).log) : event ∈ ((p >>= f) env s).log := by
  rw [log_bind_of_ok p f env s hreaches.1, hreaches.2]
  exact List.mem_append_right _ he

theorem Logs.onFail {cleanup : List ω} (hcleanup : ∀ event ∈ cleanup, allowed event)
    (hp : Logs p env s allowed) : Logs (onFail cleanup p) env s allowed := by
  intro event he
  rcases mem_log_onFail env s cleanup p he with he | he
  · exact hp event he
  · exact hcleanup event he

theorem logs_of_nil (h : (p env s).log = []) : Logs p env s allowed := by
  intro event he
  rw [h] at he
  cases he

theorem logs_of_run {out : Out ε α} {post : σ} {log : List ω} (h : p env s = ⟨out, post, log⟩)
    (hlog : ∀ event ∈ log, allowed event) : Logs p env s allowed := by
  rw [Logs, h]
  exact hlog

theorem logs_bind_iff {first : α} (h : (p env s).out = .ok first) :
    Logs (p >>= f) env s allowed ↔
      Logs p env s allowed ∧ Logs (f first) env (p env s).state allowed := by
  simp only [Logs, log_bind_of_ok p f env s h, List.mem_append, or_imp, forall_and]

end Logs

section Confined

variable {inv : σ → Prop} {allowed : ω → Prop}

theorem Confined.logs {p : Prog ρ σ ε ω α} (hp : Confined (fun _ => True) allowed p) (env : ρ)
    (s : σ) : Logs p env s allowed := (hp env s trivial).2

@[simp] theorem Confined.bind {p : Prog ρ σ ε ω α} {f : α → Prog ρ σ ε ω β}
    (hp : Confined inv allowed p) (hf : ∀ value, Confined inv allowed (f value)) :
    Confined inv allowed (p >>= f) := by
  intro env s hs
  obtain ⟨hmid, hlog⟩ := hp env s hs
  refine ⟨?_, hlog.bind fun value _ => (hf value env _ hmid).2⟩
  cases ho : (p env s).out.isOk with
  | false => rwa [state_bind_of_not_ok p f env s ho]
  | true =>
      obtain ⟨value, hv⟩ := (Out.isOk_iff _).mp ho
      rw [state_bind_of_ok p f env s hv]
      exact (hf value env _ hmid).1

-- What follows a read of the state may rely on the invariant of what was read.
theorem Confined.bind_get {f : σ → Prog ρ σ ε ω β}
    (hf : ∀ s, inv s → Confined inv allowed (f s)) :
    Confined inv allowed ((Prog.get : Prog ρ σ ε ω σ) >>= f) :=
  fun env s hs => hf s hs env s hs

@[simp] theorem Confined.pure (value : α) :
    Confined inv allowed (pure value : Prog ρ σ ε ω α) :=
  fun _ _ hs => ⟨hs, logs_of_nil rfl⟩

@[simp] theorem Confined.ask : Confined inv allowed (ask : Prog ρ σ ε ω ρ) :=
  fun _ _ hs => ⟨hs, logs_of_nil rfl⟩

@[simp] theorem Confined.get : Confined inv allowed (get : Prog ρ σ ε ω σ) :=
  fun _ _ hs => ⟨hs, logs_of_nil rfl⟩

@[simp] theorem Confined.emit {events : List ω} (h : ∀ event ∈ events, allowed event) :
    Confined inv allowed (emit events : Prog ρ σ ε ω Unit) :=
  fun _ _ hs => ⟨hs, h⟩

@[simp] theorem Confined.modify {f : σ → σ} (hf : ∀ s, inv s → inv (f s)) :
    Confined inv allowed (modify f : Prog ρ σ ε ω Unit) :=
  fun _ s hs => ⟨hf s hs, logs_of_nil rfl⟩

@[simp] theorem Confined.require (condition : Bool) (code : ε) :
    Confined inv allowed (require condition code : Prog ρ σ ε ω Unit) :=
  fun env s hs => ⟨by rwa [require_state], logs_of_nil (require_log env s condition code)⟩

@[simp] theorem Confined.orPanic (choice : Option α) :
    Confined inv allowed (orPanic choice : Prog ρ σ ε ω α) :=
  fun env s hs => ⟨by rwa [orPanic_state], logs_of_nil (orPanic_log env s choice)⟩

@[simp] theorem Confined.orFail (choice : Option α) (code : ε) :
    Confined inv allowed (orFail choice code : Prog ρ σ ε ω α) :=
  fun env s hs => ⟨by rwa [orFail_state], logs_of_nil (orFail_log env s choice code)⟩

@[simp] theorem Confined.call {result : ρ → Option ε} {record : Option ε → ω}
    (h : ∀ outcome, allowed (record outcome)) :
    Confined inv allowed (call result record : Prog ρ σ ε ω Unit) := by
  intro env s hs
  refine ⟨by rwa [call_state], ?_⟩
  intro event he
  rw [call_log, List.mem_singleton] at he
  rw [he]
  exact h _

@[simp] theorem Confined.onFailWith {report : ε → List ω} {p : Prog ρ σ ε ω α}
    (hreport : ∀ code, ∀ event ∈ report code, allowed event) (hp : Confined inv allowed p) :
    Confined inv allowed (onFailWith report p) := by
  intro env s hs
  obtain ⟨hstate, hlog⟩ := hp env s hs
  refine ⟨by rwa [onFailWith_state], ?_⟩
  intro event he
  unfold Prog.onFailWith at he
  split at he
  case h_1 code _ =>
    rcases List.mem_append.mp he with he | he
    · exact hlog event he
    · exact hreport code event he
  case h_2 => exact hlog event he

@[simp] theorem Confined.onFail {cleanup : List ω} {p : Prog ρ σ ε ω α}
    (hcleanup : ∀ event ∈ cleanup, allowed event) (hp : Confined inv allowed p) :
    Confined inv allowed (onFail cleanup p) :=
  Confined.onFailWith (fun _ => hcleanup) hp

@[simp] theorem Confined.ignoreFail {p : Prog ρ σ ε ω Unit} (hp : Confined inv allowed p) :
    Confined inv allowed (ignoreFail p) := by
  intro env s hs
  obtain ⟨hstate, hlog⟩ := hp env s hs
  refine ⟨by rwa [ignoreFail_state], ?_⟩
  intro event he
  unfold Prog.ignoreFail at he
  split at he
  case h_1 => exact hlog event he
  case h_2 => exact hlog event he

@[simp] theorem Confined.ite {condition : Prop} [Decidable condition] {p q : Prog ρ σ ε ω α}
    (hp : Confined inv allowed p) (hq : Confined inv allowed q) :
    Confined inv allowed (if condition then p else q) := by
  split
  · exact hp
  · exact hq

end Confined

section Reports

variable {allowed : ω → Prop}

@[simp] theorem Reports.bind {p : Prog ρ σ ε ω α} {f : α → Prog ρ σ ε ω β}
    (hp : Reports allowed p) (hf : ∀ value, Reports allowed (f value)) :
    Reports allowed (p >>= f) := by
  intro env s value h
  obtain ⟨first, hfirst, hsecond⟩ := (out_bind_ok p f env s value).mp h
  refine (hp env s first hfirst).bind fun other hother => ?_
  cases hfirst.symm.trans hother
  exact hf first env _ value hsecond

theorem reports_of_nil {p : Prog ρ σ ε ω α} (h : ∀ env s, (p env s).log = []) :
    Reports allowed p :=
  fun env s _ _ => logs_of_nil (h env s)

@[simp] theorem Reports.pure (value : α) : Reports allowed (pure value : Prog ρ σ ε ω α) :=
  reports_of_nil fun _ _ => rfl

@[simp] theorem Reports.ask : Reports allowed (ask : Prog ρ σ ε ω ρ) :=
  reports_of_nil fun _ _ => rfl

@[simp] theorem Reports.get : Reports allowed (get : Prog ρ σ ε ω σ) :=
  reports_of_nil fun _ _ => rfl

@[simp] theorem Reports.modify (f : σ → σ) : Reports allowed (modify f : Prog ρ σ ε ω Unit) :=
  reports_of_nil fun _ _ => rfl

@[simp] theorem Reports.require (condition : Bool) (code : ε) :
    Reports allowed (require condition code : Prog ρ σ ε ω Unit) :=
  reports_of_nil fun env s => require_log env s condition code

@[simp] theorem Reports.orPanic (choice : Option α) :
    Reports allowed (orPanic choice : Prog ρ σ ε ω α) :=
  reports_of_nil fun env s => orPanic_log env s choice

@[simp] theorem Reports.orFail (choice : Option α) (code : ε) :
    Reports allowed (orFail choice code : Prog ρ σ ε ω α) :=
  reports_of_nil fun env s => orFail_log env s choice code

theorem Reports.emit {events : List ω} (h : ∀ event ∈ events, allowed event) :
    Reports allowed (emit events : Prog ρ σ ε ω Unit) :=
  fun _ _ _ _ => h

-- Only the event of a call that works counts: one that fails ends the program.
@[simp] theorem Reports.call {result : ρ → Option ε} {record : Option ε → ω}
    (h : allowed (record none)) : Reports allowed (call result record : Prog ρ σ ε ω Unit) := by
  intro env s value hout event he
  have hnone := (call_out_ok env s result record).mp hout
  rw [call_log, hnone, List.mem_singleton] at he
  rw [he]
  exact h

@[simp] theorem Reports.onFailWith {report : ε → List ω} {p : Prog ρ σ ε ω α}
    (hp : Reports allowed p) : Reports allowed (onFailWith report p) := by
  intro env s value h
  rw [onFailWith_out] at h
  have hsame : (Prog.onFailWith report p env s).log = (p env s).log := by
    simp only [Prog.onFailWith, h]
  intro event he
  rw [hsame] at he
  exact hp env s value h event he

-- The events of a cleanup on failure are none of a success.
@[simp] theorem Reports.onFail {cleanup : List ω} {p : Prog ρ σ ε ω α}
    (hp : Reports allowed p) : Reports allowed (onFail cleanup p) :=
  Reports.onFailWith hp

@[simp] theorem Reports.ite {condition : Prop} [Decidable condition] {p q : Prog ρ σ ε ω α}
    (hp : Reports allowed p) (hq : Reports allowed q) :
    Reports allowed (if condition then p else q) := by
  split
  · exact hp
  · exact hq

end Reports

-- A program that succeeds has logged allowed events only where the condition holds.
def ReportsWhen (allowed : ω → Prop) (condition : ρ → Prop) (p : Prog ρ σ ε ω α) : Prop :=
  ∀ env s value, (p env s).out = .ok value → (Logs p env s allowed ↔ condition env)

section ReportsWhen

variable {allowed : ω → Prop} {condition other : ρ → Prop} {p : Prog ρ σ ε ω α}
  {f : α → Prog ρ σ ε ω β}

theorem ReportsWhen.bind (hp : ReportsWhen allowed condition p)
    (hf : ∀ value, ReportsWhen allowed other (f value)) :
    ReportsWhen allowed (fun env => condition env ∧ other env) (p >>= f) := by
  intro env s value h
  obtain ⟨first, hfirst, hsecond⟩ := (out_bind_ok p f env s value).mp h
  rw [logs_bind_iff hfirst, hp env s first hfirst, hf first env _ value hsecond]

-- A part that logs allowed events only adds nothing to the condition.
theorem Reports.bind_when (hp : Reports allowed p)
    (hf : ∀ value, ReportsWhen allowed condition (f value)) :
    ReportsWhen allowed condition (p >>= f) := by
  intro env s value h
  obtain ⟨first, hfirst, hsecond⟩ := (out_bind_ok p f env s value).mp h
  rw [logs_bind_iff hfirst, hf first env _ value hsecond, and_iff_right (hp env s first hfirst)]

theorem ReportsWhen.bind_reports (hp : ReportsWhen allowed condition p)
    (hf : ∀ value, Reports allowed (f value)) : ReportsWhen allowed condition (p >>= f) := by
  intro env s value h
  obtain ⟨first, hfirst, hsecond⟩ := (out_bind_ok p f env s value).mp h
  rw [logs_bind_iff hfirst, hp env s first hfirst,
    and_iff_left (hf first env _ value hsecond)]

theorem ReportsWhen.ask_bind {f : ρ → Prog ρ σ ε ω β}
    (hf : ∀ env s value, (f env env s).out = .ok value →
      (Logs (f env) env s allowed ↔ condition env)) :
    ReportsWhen allowed condition ((Prog.ask : Prog ρ σ ε ω ρ) >>= f) := by
  intro env s value h
  rw [(Reaches.ask env s).bind_out] at h
  have hask : Logs (Prog.ask : Prog ρ σ ε ω ρ) env s allowed := logs_of_nil rfl
  exact (logs_bind_iff rfl).trans ((and_iff_right hask).trans (hf env s value h))

theorem ReportsWhen.onFail {cleanup : List ω} (hp : ReportsWhen allowed condition p) :
    ReportsWhen allowed condition (onFail cleanup p) := by
  intro env s value h
  rw [onFail_out] at h
  have hsame : (Prog.onFail cleanup p env s).log = (p env s).log := by
    simp only [Prog.onFail, h]
  rw [Logs, hsame]
  exact hp env s value h

end ReportsWhen

-- Started where the invariant holds, the program keeps it and comes back to its caller.
def Returns (inv : σ → Prop) (p : Prog ρ σ ε ω α) : Prop :=
  ∀ env s, inv s → inv (p env s).state ∧ (p env s).out ≠ .panic

section Returns

variable {inv : σ → Prop}

theorem Returns.bind {p : Prog ρ σ ε ω α} {f : α → Prog ρ σ ε ω β} (hp : Returns inv p)
    (hf : ∀ value, Returns inv (f value)) : Returns inv (p >>= f) := by
  intro env s hs
  obtain ⟨hmid, hpanic⟩ := hp env s hs
  rw [bind_run]
  unfold andThen
  cases hout : (p env s).out with
  | ok value => exact hf value env _ hmid
  | fail code => exact ⟨hmid, by simp⟩
  | panic => exact absurd hout hpanic

theorem Returns.bind_get {f : σ → Prog ρ σ ε ω β} (hf : ∀ s, inv s → Returns inv (f s)) :
    Returns inv ((Prog.get : Prog ρ σ ε ω σ) >>= f) :=
  fun env s hs => hf s hs env s hs

theorem Returns.pure (value : α) : Returns inv (pure value : Prog ρ σ ε ω α) :=
  fun _ _ hs => ⟨hs, by simp⟩

theorem Returns.ask : Returns inv (ask : Prog ρ σ ε ω ρ) := fun _ _ hs => ⟨hs, by simp⟩

theorem Returns.emit (events : List ω) : Returns inv (emit events : Prog ρ σ ε ω Unit) :=
  fun _ _ hs => ⟨hs, by simp⟩

theorem Returns.modify {f : σ → σ} (hf : ∀ s, inv s → inv (f s)) :
    Returns inv (modify f : Prog ρ σ ε ω Unit) :=
  fun _ s hs => ⟨hf s hs, by simp⟩

theorem Returns.require (condition : Bool) (code : ε) :
    Returns inv (require condition code : Prog ρ σ ε ω Unit) := by
  intro env s hs
  cases condition with
  | false => exact ⟨hs, by simp [Prog.require]⟩
  | true => exact ⟨hs, by simp [Prog.require, ret]⟩

theorem Returns.orPanic {choice : Option α} (h : choice ≠ none) :
    Returns inv (orPanic choice : Prog ρ σ ε ω α) := by
  intro env s hs
  cases choice with
  | none => exact absurd rfl h
  | some value => exact ⟨hs, by simp [Prog.orPanic, ret]⟩

theorem Returns.call (result : ρ → Option ε) (record : Option ε → ω) :
    Returns inv (call result record : Prog ρ σ ε ω Unit) := by
  intro env s hs
  refine ⟨by rwa [call_state], ?_⟩
  cases h : result env <;> simp [Prog.call, h]

theorem Returns.onFail {cleanup : List ω} {p : Prog ρ σ ε ω α} (hp : Returns inv p) :
    Returns inv (onFail cleanup p) := by
  intro env s hs
  rw [onFail_state, onFail_out]
  exact hp env s hs

end Returns

end Prog

end Watz.Base
