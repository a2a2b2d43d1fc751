import Mathlib.Data.List.Basic

namespace Watz.Base.Run

variable {σ ι ο : Type}

-- One step of a run: the state it starts in, its input, its output and the state it leaves.
structure Step (σ ι ο : Type) where
  before : σ
  input : ι
  output : ο
  after : σ

def one (next : σ → ι → σ × ο) (s : σ) (input : ι) : Step σ ι ο :=
  ⟨s, input, (next s input).2, (next s input).1⟩

def steps (next : σ → ι → σ × ο) : σ → List ι → List (Step σ ι ο)
  | _, [] => []
  | s, input :: rest => one next s input :: steps next (next s input).1 rest

def final (next : σ → ι → σ × ο) : σ → List ι → σ
  | s, [] => s
  | s, input :: rest => final next (next s input).1 rest

variable {next : σ → ι → σ × ο}

-- Every recorded step is a step of the machine.
theorem step_eq {s : σ} {inputs : List ι} {t : Step σ ι ο} (ht : t ∈ steps next s inputs) :
    t = one next t.before t.input := by
  induction inputs generalizing s with
  | nil => simp [steps] at ht
  | cons input rest ih =>
      rcases List.mem_cons.mp ht with rfl | ht
      · rfl
      · exact ih ht

theorem after_eq {s : σ} {inputs : List ι} {t : Step σ ι ο} (ht : t ∈ steps next s inputs) :
    t.after = (next t.before t.input).1 :=
  congrArg Step.after (step_eq ht)

theorem output_eq {s : σ} {inputs : List ι} {t : Step σ ι ο} (ht : t ∈ steps next s inputs) :
    t.output = (next t.before t.input).2 :=
  congrArg Step.output (step_eq ht)

theorem input_mem {s : σ} {inputs : List ι} {t : Step σ ι ο} (ht : t ∈ steps next s inputs) :
    t.input ∈ inputs := by
  induction inputs generalizing s with
  | nil => simp [steps] at ht
  | cons input rest ih =>
      rcases List.mem_cons.mp ht with rfl | ht
      · exact List.mem_cons_self
      · exact List.mem_cons_of_mem _ (ih ht)

-- An invariant that every step of the run keeps holds in every state of the run. The step
-- condition may look at the inputs of this run only.
theorem invariant {inv : σ → Prop} {s : σ} {inputs : List ι} (hs : inv s)
    (hstep : ∀ t ∈ steps next s inputs, inv t.before → inv t.after) :
    ∀ t ∈ steps next s inputs, inv t.before ∧ inv t.after := by
  induction inputs generalizing s with
  | nil => simp [steps]
  | cons input rest ih =>
      have hfirst : inv (next s input).1 := hstep (one next s input) (by simp [steps]) hs
      intro t ht
      rcases List.mem_cons.mp ht with rfl | ht
      · exact ⟨hs, hfirst⟩
      · exact ih hfirst (fun u hu => hstep u (List.mem_cons_of_mem _ hu)) t ht

theorem invariant_final {inv : σ → Prop} {s : σ} {inputs : List ι} (hs : inv s)
    (hstep : ∀ t ∈ steps next s inputs, inv t.before → inv t.after) :
    inv (final next s inputs) := by
  induction inputs generalizing s with
  | nil => exact hs
  | cons input rest ih =>
      have hfirst : inv (next s input).1 := hstep (one next s input) (by simp [steps]) hs
      exact ih hfirst fun u hu => hstep u (List.mem_cons_of_mem _ hu)

-- An invariant of a state together with the steps that have led to it.
theorem invariant_history {inv : List (Step σ ι ο) → σ → Prop} {s : σ} {inputs : List ι}
    {past : List (Step σ ι ο)} (hs : inv past s)
    (hstep : ∀ past, ∀ t ∈ steps next s inputs, inv past t.before → inv (past ++ [t]) t.after) :
    ∀ history t rest, steps next s inputs = history ++ t :: rest →
      inv (past ++ history) t.before := by
  induction inputs generalizing s past with
  | nil => simp [steps]
  | cons input inputs ih =>
      intro history t rest hrun
      cases history with
      | nil =>
          obtain ⟨rfl, -⟩ := List.cons.inj hrun
          rwa [List.append_nil]
      | cons first history =>
          obtain ⟨rfl, hlater⟩ := List.cons.inj hrun
          have hfirst : inv (past ++ [one next s input]) (next s input).1 :=
            hstep past (one next s input) (by simp [steps]) hs
          have hend := ih hfirst (fun past u hu => hstep past u (List.mem_cons_of_mem _ hu))
            history t rest hlater
          rwa [List.append_assoc] at hend

-- An invariant that a step establishes holds from there on.
theorem invariant_since {inv : σ → Prop} {s : σ} {inputs : List ι} {history : List (Step σ ι ο)}
    {e : Step σ ι ο} {later : List (Step σ ι ο)} (hrun : steps next s inputs = history ++ e :: later)
    (he : inv e.after) (hstep : ∀ t ∈ later, inv t.before → inv t.after) :
    ∀ t ∈ later, inv t.after := by
  induction history generalizing s inputs with
  | nil =>
      cases inputs with
      | nil => simp [steps] at hrun
      | cons input rest =>
          obtain ⟨rfl, rfl⟩ := List.cons.inj hrun
          intro t ht
          exact (invariant he hstep t ht).2
  | cons u history ih =>
      cases inputs with
      | nil => simp [steps] at hrun
      | cons input rest => exact ih (List.cons.inj hrun).2

end Watz.Base.Run
