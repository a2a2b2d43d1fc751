import Watz.Output
import Watz.Tee

namespace Watz.OnnxBench

open Base Output

-- A memory reference as the trusted application gets it: parameter `index` of one invocation.
-- The mapping lives as long as that invocation.
structure Ref where
  invocation : Nat
  index : Nat
  deriving DecidableEq

inductive Command where
  | runWasm
  | configureHeap
  | configureLinearMemory
  | configureOut
  deriving DecidableEq

-- The identifiers of `wamr_ta.h` in the benchmark.
def Command.ofId : Nat → Option Command
  | 0 => some .runWasm
  | 1 => some .configureHeap
  | 2 => some .configureLinearMemory
  | 3 => some .configureOut
  | _ => none

def Command.expParamTypes : Command → Nat
  | .runWasm => TEE_PARAM_TYPES TEE_PARAM_TYPE_MEMREF_INPUT TEE_PARAM_TYPE_MEMREF_INPUT
      TEE_PARAM_TYPE_MEMREF_INPUT TEE_PARAM_TYPE_MEMREF_INPUT
  | .configureHeap => TEE_PARAM_TYPES TEE_PARAM_TYPE_VALUE_INPUT TEE_PARAM_TYPE_NONE
      TEE_PARAM_TYPE_NONE TEE_PARAM_TYPE_NONE
  | .configureLinearMemory => TEE_PARAM_TYPES TEE_PARAM_TYPE_VALUE_INPUT TEE_PARAM_TYPE_NONE
      TEE_PARAM_TYPE_NONE TEE_PARAM_TYPE_NONE
  | .configureOut => TEE_PARAM_TYPES TEE_PARAM_TYPE_MEMREF_INOUT TEE_PARAM_TYPE_NONE
      TEE_PARAM_TYPE_NONE TEE_PARAM_TYPE_NONE

-- What the heap, the runtime and the guest do in one `TA_RunWasm`. The start function of the
-- module runs, and may write, while the module is instantiated. `tornDown` tells whether
-- `TA_TearDownWamrRuntime` comes back: it also destroys a runtime that failed to start.
structure Launch where
  heapGranted : Bool
  bytecodeGranted : Bool
  fullInit : Bool
  load : Bool
  instantiate : Bool
  createExecEnv : Bool
  executeMain : Bool
  tornDown : Bool
  startCalls : List Call
  mainCalls : List Call

-- One call of `TA_InvokeCommandEntryPoint`. `value` is `params[0].value.a` and `size` is
-- `params[0].memref.size`, whichever the types make of it.
structure Invocation where
  cmdId : Nat
  paramTypes : Nat
  value : UInt32
  size : UInt32
  launch : Launch

def Invocation.command (inv : Invocation) : Option Command :=
  (Command.ofId inv.cmdId).filter fun command => command.expParamTypes == inv.paramTypes

-- The static variables of the trusted application and of its platform layer, whether a fault has
-- ended it, and the number of the invocation that comes next.
structure State where
  heapSize : UInt32
  initialLinearMemorySize : UInt32
  output : Globals Ref
  dead : Bool
  invocations : Nat

def State.initial : State := ⟨0, 0, .initial, false, 0⟩

structure Response where
  result : Option TeeError
  stores : List (Store Ref)

-- The guest makes these calls one after another, up to the first that does not come back. The
-- globals are gone then.
def writeAll : Globals Ref → List Call → Option (Globals Ref) × List (Store Ref)
  | g, [] => (some g, [])
  | g, call :: rest =>
      match writev g call with
      | none => (none, [])
      | some (next, written) =>
          let (last, stores) := writeAll next rest
          (last, written.store.toList ++ stores)

-- The result code and the globals of a function that came back, and what its guest stored.
structure Ran where
  ended : Option (Option TeeError × Globals Ref)
  stores : List (Store Ref)

def initializeWamrRuntime (launch : Launch) (g : Globals Ref) : Ran :=
  if launch.fullInit = false then ⟨some (some .generic, g), []⟩
  else if launch.load = false then ⟨some (some .generic, g), []⟩
  else
    match writeAll g launch.startCalls with
    | (none, stores) => ⟨none, stores⟩
    | (some g, stores) =>
        if launch.instantiate = false then ⟨some (some .generic, g), stores⟩
        else if launch.createExecEnv = false then ⟨some (some .generic, g), stores⟩
        else ⟨some (none, g), stores⟩

def executeWamrRuntime (launch : Launch) (g : Globals Ref) : Ran :=
  match writeAll g launch.mainCalls with
  | (none, stores) => ⟨none, stores⟩
  | (some g, stores) => ⟨some (if launch.executeMain then none else some .generic, g), stores⟩

def tearDownWamrRuntime (launch : Launch) (ran : Ran) : Ran :=
  if launch.tornDown then ran else ⟨none, ran.stores⟩

-- The output buffer is not among the parameters: `COMMAND_CONFIGURE_OUT` has set it before.
def runWasm (launch : Launch) (g : Globals Ref) : Ran :=
  if launch.heapGranted = false then ⟨some (some .generic, g), []⟩
  else if launch.bytecodeGranted = false then ⟨some (some .generic, g), []⟩
  else
    match initializeWamrRuntime launch g with
    | ⟨none, stores⟩ => ⟨none, stores⟩
    | ⟨some (some error, g), stores⟩ => tearDownWamrRuntime launch ⟨some (some error, g), stores⟩
    | ⟨some (none, g), stores⟩ =>
        match executeWamrRuntime launch g with
        | ⟨none, later⟩ => ⟨none, stores ++ later⟩
        | ⟨some (result, g), later⟩ =>
            tearDownWamrRuntime launch ⟨some (result, g), stores ++ later⟩

def dispatch (s : State) (inv : Invocation) : Command → State × Response
  | .runWasm =>
      match runWasm inv.launch s.output with
      | ⟨none, stores⟩ => ({ s with dead := true }, ⟨some .targetDead, stores⟩)
      | ⟨some (result, output), stores⟩ => ({ s with output := output }, ⟨result, stores⟩)
  | .configureHeap => ({ s with heapSize := inv.value }, ⟨none, []⟩)
  | .configureLinearMemory => ({ s with initialLinearMemorySize := inv.value }, ⟨none, []⟩)
  | .configureOut =>
      ({ s with output := watzSetOutputBuffer ⟨s.invocations, 0⟩ inv.size }, ⟨none, []⟩)

def invokeCommandEntryPoint (s : State) (inv : Invocation) : State × Response :=
  if s.dead then ({ s with invocations := s.invocations + 1 }, ⟨some .targetDead, []⟩)
  else
    match inv.command with
    | none => ({ s with invocations := s.invocations + 1 }, ⟨some .badParameters, []⟩)
    | some command =>
        let (next, response) := dispatch s inv command
        ({ next with invocations := s.invocations + 1 }, response)

abbrev SessionStep : Type := Run.Step State Invocation Response

def session (inputs : List Invocation) : List SessionStep :=
  Run.steps invokeCommandEntryPoint State.initial inputs

-- Every byte stored in this step goes to a reference of the invocation that is executing.
def Current (t : SessionStep) : Prop :=
  ∀ store ∈ t.output.stores, store.bytes ≠ [] →
    ∃ ref, store.target = some ref ∧ ref.invocation = t.before.invocations

-- The calls of `writev` that the guest would make if all of them came back.
def Launch.calls (launch : Launch) : List Call :=
  if launch.heapGranted && launch.bytecodeGranted && launch.fullInit && launch.load then
    launch.startCalls ++
      if launch.instantiate && launch.createExecEnv then launch.mainCalls else []
  else []

-- The guest of this step writes nothing that fits the room in the buffer set before, up to its
-- first call that does not come back.
def Mute (s : State) (inv : Invocation) : Prop :=
  s.dead = false → inv.command = some .runWasm →
    ∀ call ∈ inv.launch.calls.takeWhile Call.returns, Idle s.output call

-- The buffer was passed to an earlier invocation. Without one there is no room.
structure Stale (s : State) : Prop where
  earlier : ∀ ref, s.output.outputBuffer = some ref → ref.invocation < s.invocations
  unset : s.output.outputBuffer = none → s.output.outputBufferSize = 0

section WriteAll

-- A first part that does not come back leaves nothing to a second.
theorem writeAll_append (g : Globals Ref) (first second : List Call) :
    writeAll g (first ++ second) =
      match writeAll g first with
      | (none, stores) => (none, stores)
      | (some next, stores) =>
          ((writeAll next second).1, stores ++ (writeAll next second).2) := by
  induction first generalizing g with
  | nil => simp [writeAll]
  | cons call rest ih =>
      rw [List.cons_append, writeAll, writeAll]
      cases writev g call with
      | none => rfl
      | some answer =>
          simp only [ih]
          cases writeAll answer.1 rest with
          | mk last stores => cases last <;> simp

theorem writeAll_outputBuffer {g next : Globals Ref} {calls : List Call}
    (h : (writeAll g calls).1 = some next) : next.outputBuffer = g.outputBuffer := by
  induction calls generalizing g with
  | nil =>
      cases h
      rfl
  | cons call rest ih =>
      rw [writeAll, writev] at h
      by_cases hreturns : call.returns = true
      · rw [if_pos hreturns] at h
        rw [ih h, deliver_outputBuffer]
      · rw [if_neg hreturns] at h
        cases h

theorem writeAll_target (g : Globals Ref) (calls : List Call) :
    ∀ store ∈ (writeAll g calls).2, store.target = g.outputBuffer := by
  induction calls generalizing g with
  | nil => simp [writeAll]
  | cons call rest ih =>
      intro store hstore
      rw [writeAll, writev] at hstore
      by_cases hreturns : call.returns = true
      · simp only [if_pos hreturns, List.mem_append] at hstore
        rcases hstore with hfirst | hrest
        · exact store_target (Option.mem_toList.mp hfirst)
        · rw [ih _ store hrest, deliver_outputBuffer]
      · simp [if_neg hreturns] at hstore

-- Nothing is stored exactly when every call that is made and comes back is idle in the room at
-- the start.
theorem writeAll_mute_iff (g : Globals Ref) (calls : List Call) :
    (∀ store ∈ (writeAll g calls).2, store.bytes = []) ↔
      ∀ call ∈ calls.takeWhile Call.returns, Idle g call := by
  induction calls generalizing g with
  | nil => simp [writeAll]
  | cons call rest ih =>
      rw [writeAll, writev, List.takeWhile_cons]
      by_cases hreturns : call.returns = true
      · have hfirst : (∀ store ∈ (deliver g call).2.store.toList, store.bytes = []) ↔
            Idle g call := by
          rw [← stored_nil_iff, Written.stored]
          cases (deliver g call).2.store <;> simp
        simp only [if_pos hreturns, List.forall_mem_append, List.forall_mem_cons, hfirst, ih]
        refine and_congr_right ?_
        intro hidle
        rw [deliver_of_idle hidle]
      · simp [hreturns]

theorem writeAll_of_no_room {g next : Globals Ref} {calls : List Call}
    (hroom : g.outputBufferSize = 0) (h : (writeAll g calls).1 = some next) : next = g := by
  induction calls with
  | nil =>
      cases h
      rfl
  | cons call rest ih =>
      rw [writeAll, writev] at h
      by_cases hreturns : call.returns = true
      · simp only [if_pos hreturns, deliver_of_idle (idle_of_no_room hroom)] at h
        exact ih h
      · rw [if_neg hreturns] at h
        cases h

end WriteAll

-- What these calls leave, if a function makes them and comes back.
structure Ran.Of (ran : Ran) (g : Globals Ref) (calls : List Call) : Prop where
  stores : ran.stores = (writeAll g calls).2
  ended : ∀ result next, ran.ended = some (result, next) → (writeAll g calls).1 = some next

section RunWasm

variable {launch : Launch} {g : Globals Ref} {ran : Ran} {calls : List Call}

theorem Ran.Of.tearDown (h : ran.Of g calls) : (tearDownWamrRuntime launch ran).Of g calls := by
  unfold tearDownWamrRuntime
  split
  · exact h
  · exact ⟨h.stores, fun result next hended => by cases hended⟩

theorem ran_of_nil (result : Option TeeError) : (⟨some (result, g), []⟩ : Ran).Of g [] := by
  refine ⟨rfl, fun result' next hended => ?_⟩
  cases hended
  rfl

theorem ran_of_none {stores : List (Store Ref)} (h : writeAll g calls = (none, stores))
    (more : List Call) : (⟨none, stores⟩ : Ran).Of g (calls ++ more) := by
  refine ⟨?_, fun result next hended => by cases hended⟩
  rw [writeAll_append, h]

theorem ran_of_some {next : Globals Ref} {stores : List (Store Ref)}
    (h : writeAll g calls = (some next, stores)) (result : Option TeeError) :
    (⟨some (result, next), stores⟩ : Ran).Of g calls := by
  refine ⟨by rw [h], fun result' next' hended => ?_⟩
  cases hended
  rw [h]

theorem ran_of_runWasm (launch : Launch) (g : Globals Ref) :
    (runWasm launch g).Of g launch.calls := by
  unfold runWasm Launch.calls
  cases launch.heapGranted with
  | false => exact ran_of_nil _
  | true =>
    cases launch.bytecodeGranted with
    | false => exact ran_of_nil _
    | true =>
      simp only [initializeWamrRuntime, executeWamrRuntime, Bool.true_eq_false, if_false]
      cases launch.fullInit with
      | false => exact (ran_of_nil _).tearDown
      | true =>
        cases launch.load with
        | false => exact (ran_of_nil _).tearDown
        | true =>
          simp only [Bool.true_eq_false, if_false, Bool.and_true, if_true]
          rcases hstart : writeAll g launch.startCalls with ⟨_ | next, stores⟩
          · exact ran_of_none hstart _
          · by_cases hready : (launch.instantiate && launch.createExecEnv) = true
            · obtain ⟨hinstantiate, hexec⟩ := Bool.and_eq_true_iff.mp hready
              simp only [hinstantiate, hexec, Bool.true_eq_false, if_false, Bool.and_true, if_true]
              have hwhole := writeAll_append g launch.startCalls launch.mainCalls
              rw [hstart] at hwhole
              rcases hmain : writeAll next launch.mainCalls with ⟨_ | last, later⟩
              · simp only [hmain] at hwhole
                rw [← List.append_nil (launch.startCalls ++ launch.mainCalls)]
                exact ran_of_none hwhole _
              · simp only [hmain] at hwhole
                exact (ran_of_some hwhole _).tearDown
            · rw [if_neg hready, List.append_nil]
              have hended : (tearDownWamrRuntime launch ⟨some (some .generic, next), stores⟩).Of g
                  launch.startCalls := (ran_of_some hstart _).tearDown
              cases hinstantiate : launch.instantiate with
              | false => exact hended
              | true =>
                cases hexec : launch.createExecEnv with
                | false => exact hended
                | true => exact absurd (by rw [hinstantiate, hexec]; rfl) hready

end RunWasm

section Session

variable {s : State} {inv : Invocation}

theorem stores_of_command :
    (invokeCommandEntryPoint s inv).2.stores =
      if s.dead = false ∧ inv.command = some .runWasm then
        (writeAll s.output inv.launch.calls).2
      else [] := by
  unfold invokeCommandEntryPoint
  cases s.dead with
  | true => rfl
  | false =>
    cases hcommand : inv.command with
    | none => rfl
    | some command =>
      cases command with
      | runWasm =>
          have hran := (ran_of_runWasm inv.launch s.output).stores
          simp only [dispatch, Bool.false_eq_true, if_false, true_and, if_true, ← hran]
          rcases runWasm inv.launch s.output with ⟨_ | ⟨result, output⟩, stores⟩ <;> rfl
      | configureHeap => rfl
      | configureLinearMemory => rfl
      | configureOut => rfl

theorem Stale.later (h : Stale s) {s' : State} (houtput : s'.output = s.output)
    (hcount : s'.invocations = s.invocations + 1) : Stale s' := by
  constructor
  · intro ref href
    rw [houtput] at href
    have hpast := h.earlier ref href
    omega
  · rw [houtput]
    exact h.unset

-- Whatever an invocation does to the buffer, it belongs to the past when the next one comes.
theorem Stale.step (h : Stale s) (inv : Invocation) : Stale (invokeCommandEntryPoint s inv).1 := by
  unfold invokeCommandEntryPoint
  cases s.dead with
  | true => exact h.later rfl rfl
  | false =>
    cases inv.command with
    | none => exact h.later rfl rfl
    | some command =>
      cases command with
      | runWasm =>
          have hran := (ran_of_runWasm inv.launch s.output).ended
          simp only [dispatch, Bool.false_eq_true, if_false]
          rcases hend : runWasm inv.launch s.output with ⟨_ | ⟨result, output⟩, stores⟩
          · exact h.later rfl rfl
          · have hwritten := hran result output (by rw [hend])
            have hsame := writeAll_outputBuffer hwritten
            constructor
            · intro ref href
              exact Nat.lt_succ_of_lt (h.earlier ref (hsame.symm.trans href))
            · intro hunset
              have hroom := h.unset (hsame.symm.trans hunset)
              rw [writeAll_of_no_room hroom hwritten]
              exact hroom
      | configureHeap => exact h.later rfl rfl
      | configureLinearMemory => exact h.later rfl rfl
      | configureOut =>
          constructor
          · rintro ref ⟨⟩
            exact Nat.lt_succ_self _
          · intro hunset
            cases hunset

-- A store can only go to a reference of an earlier invocation, so it has to be empty.
theorem current_iff_mute (h : Stale s) :
    Current (Run.one invokeCommandEntryPoint s inv) ↔ Mute s inv := by
  simp only [Current, Mute, Run.one, stores_of_command]
  by_cases hruns : s.dead = false ∧ inv.command = some .runWasm
  · rw [if_pos hruns, ← writeAll_mute_iff]
    constructor
    · intro hcurrent _ _ store hstore
      by_contra hbytes
      obtain ⟨ref, htarget, hnow⟩ := hcurrent store hstore hbytes
      rw [writeAll_target _ _ store hstore] at htarget
      have hpast := h.earlier ref htarget
      omega
    · intro hmute store hstore hbytes
      exact absurd (hmute hruns.1 hruns.2 store hstore) hbytes
  · rw [if_neg hruns]
    constructor
    · intro _ halive hcommand
      exact absurd ⟨halive, hcommand⟩ hruns
    · intro _ store hstore
      simp at hstore

end Session

theorem session_stale (inputs : List Invocation) : ∀ t ∈ session inputs, Stale t.before := by
  have hinitial : Stale State.initial := ⟨fun ref href => by simp [State.initial, Globals.initial] at href,
    fun _ => rfl⟩
  intro t ht
  refine (Run.invariant hinitial ?_ t ht).1
  intro u hu hbefore
  rw [Run.after_eq hu]
  exact hbefore.step u.input

-- The output never goes to a reference of the running command: a session respects the
-- lifetimes exactly when none of its guests writes anything that fits.
theorem stores_current_iff (inputs : List Invocation) :
    (∀ t ∈ session inputs, Current t) ↔ ∀ t ∈ session inputs, Mute t.before t.input := by
  refine forall₂_congr ?_
  intro t ht
  have hstep : t = Run.one invokeCommandEntryPoint t.before t.input := Run.step_eq ht
  rw [hstep]
  exact current_iff_mute (session_stale inputs t ht)

-- The benchmark's own order: the output buffer first, then a guest that prints one byte.
def configureOutput : Invocation :=
  ⟨3, TEE_PARAM_TYPES TEE_PARAM_TYPE_MEMREF_INOUT TEE_PARAM_TYPE_NONE TEE_PARAM_TYPE_NONE
    TEE_PARAM_TYPE_NONE, 0, 4096, ⟨true, true, true, true, true, true, true, true, [], []⟩⟩

def printOne : Invocation :=
  ⟨0, TEE_PARAM_TYPES TEE_PARAM_TYPE_MEMREF_INPUT TEE_PARAM_TYPE_MEMREF_INPUT
    TEE_PARAM_TYPE_MEMREF_INPUT TEE_PARAM_TYPE_MEMREF_INPUT, 0, 64,
    ⟨true, true, true, true, true, true, true, true, [], [⟨1, [[46]], true, true⟩]⟩⟩

theorem stores_outlive_command : ¬∀ t ∈ session [configureOutput, printOne], Current t := by
  intro h
  have hprint := h (Run.one invokeCommandEntryPoint
    (invokeCommandEntryPoint State.initial configureOutput).1 printOne) (by simp [session, Run.steps])
  obtain ⟨ref, htarget, hnow⟩ := hprint ⟨some ⟨0, 0⟩, 0, [46]⟩ (by
    rw [Run.one, stores_of_command]
    decide) (by decide)
  cases htarget
  exact absurd hnow (by decide)

end Watz.OnnxBench
