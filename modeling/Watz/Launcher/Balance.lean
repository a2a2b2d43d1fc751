import Watz.Launcher

namespace Watz.Launcher

open Base.Shared

-- The calls that undo `wasm_runtime_instantiate`, `wasm_runtime_load` and
-- `wasm_runtime_full_init`.
def Event.isRelease : Event → Bool
  | .deinstantiate => true
  | .unload => true
  | .destroy => true
  | _ => false

def Event.freed : Event → Option Block
  | .free block => some block
  | _ => none

-- What the session holds. A runtime that is destroyed without having been set up counts
-- below zero; freeing a null pointer does nothing.
@[ext] structure Ledger where
  blocks : Block → Nat
  initialised : Int
  loaded : Int
  instantiated : Int
  singleton : Bool

def Ledger.idle : Ledger := ⟨fun _ => 0, 0, 0, 0, false⟩

def Ledger.record (ledger : Ledger) : Event → Ledger
  | .malloc block granted =>
      if granted then
        { ledger with blocks := Function.update ledger.blocks block (ledger.blocks block + 1) }
      else ledger
  | .free block =>
      { ledger with blocks := Function.update ledger.blocks block (ledger.blocks block - 1) }
  | .fullInit ok => if ok then { ledger with initialised := ledger.initialised + 1 } else ledger
  | .load ok => if ok then { ledger with loaded := ledger.loaded + 1 } else ledger
  | .instantiate ok =>
      if ok then { ledger with instantiated := ledger.instantiated + 1 } else ledger
  | .deinstantiate => { ledger with instantiated := ledger.instantiated - 1 }
  | .unload => { ledger with loaded := ledger.loaded - 1 }
  | .destroy => { ledger with initialised := ledger.initialised - 1 }
  | .setSingleton => { ledger with singleton := true }
  | .clearSingleton => { ledger with singleton := false }
  | .memMove => ledger
  | .setOutputBuffer => ledger
  | .executeMain _ => ledger
  | .copyFetched _ _ => ledger

def Ledger.replay (ledger : Ledger) (events : List Event) : Ledger :=
  events.foldl Ledger.record ledger

-- A launch that uses what it was given and nothing else, gives all of it back in order, and
-- reports success only when it was one. The pool of `wasm_runtime_full_init` is
-- `global_heap_buf`.
structure Balanced (events : List Event) (result : Option TeeError) : Prop where
  pool : ∀ ok, .fullInit ok ∈ events → .malloc .globalHeapBuf true ∈ events
  copy : .memMove ∈ events → .malloc .trustedWasmBytecode true ∈ events
  released : events.filter Event.isRelease =
    (if .instantiate true ∈ events then [.deinstantiate] else []) ++
      (if .load true ∈ events then [.unload] else []) ++
      (if .fullInit true ∈ events then [.destroy] else [])
  freed : events.filterMap Event.freed = [.globalHeapBuf, .trustedWasmBytecode]
  restored : Ledger.idle.replay events = Ledger.idle
  succeeded : result = none →
    .malloc .globalHeapBuf true ∈ events ∧ .malloc .trustedWasmBytecode true ∈ events ∧
      .fullInit true ∈ events ∧ .load true ∈ events ∧ .instantiate true ∈ events ∧
      .executeMain true ∈ events

-- One `COMMAND_RUN_WASM` as it finds the shared memory and the normal world.
structure Invocation where
  launch : Launch
  contents : Contents Address
  world : World Address

def Invocation.events (invocation : Invocation) : List Event :=
  notes (behaviour runWasm241 invocation.launch invocation.contents invocation.world).1

def Invocation.result (invocation : Invocation) : Option TeeError :=
  (behaviour runWasm241 invocation.launch invocation.contents invocation.world).2

-- The launches of one session. A fault kills the instance, and with it the session.
def session : List Invocation → List (List Event × Option TeeError)
  | [] => []
  | invocation :: rest =>
      (invocation.events, invocation.result) ::
        if invocation.result = some .targetDead then [] else session rest

-- Every launch is balanced, and the next one starts from where the first one did.
def Steady : Ledger → List (List Event × Option TeeError) → Prop
  | _, [] => True
  | ledger, (events, result) :: rest =>
      ledger = Ledger.idle ∧ Balanced events result ∧ Steady (ledger.replay events) rest

-- Both blocks were allocated and the runtime was set up in the first of them.
def Invocation.Supplied (invocation : Invocation) : Prop :=
  invocation.launch.granted .globalHeapBuf = true ∧
    invocation.launch.granted .trustedWasmBytecode = true ∧
    invocation.launch.runtime.fullInit true = true

section Log

-- What the runtime answers in a launch.
structure Outcomes where
  initialised : Bool
  loaded : Bool
  instantiated : Bool
  executed : Bool

def Outcomes.hasModule (outcomes : Outcomes) : Bool := outcomes.initialised && outcomes.loaded

def Outcomes.hasInstance (outcomes : Outcomes) : Bool :=
  outcomes.hasModule && outcomes.instantiated

def Outcomes.startUp (outcomes : Outcomes) : List Event :=
  .fullInit outcomes.initialised ::
    ((if outcomes.initialised then [.load outcomes.loaded] else []) ++
      (if outcomes.hasModule then [.instantiate outcomes.instantiated] else []) ++
      (if outcomes.hasInstance then [.setSingleton] else []))

def Outcomes.tearDown (outcomes : Outcomes) : List Event :=
  .clearSingleton ::
    ((if outcomes.hasInstance then [.deinstantiate] else []) ++
      (if outcomes.hasModule then [.unload] else []) ++ [.destroy])

def Outcomes.log (outcomes : Outcomes) (granted : Block → Bool) : List Event :=
  [.malloc .globalHeapBuf (granted .globalHeapBuf),
    .malloc .trustedWasmBytecode (granted .trustedWasmBytecode), .memMove, .setOutputBuffer] ++
    (outcomes.startUp ++
      ((if outcomes.hasInstance then [.executeMain outcomes.executed] else []) ++
        (outcomes.tearDown ++ [.free .globalHeapBuf, .free .trustedWasmBytecode])))

def Outcomes.result (outcomes : Outcomes) : Option TeeError :=
  if outcomes.hasInstance && outcomes.executed then none else some .generic

-- The accesses of the runtime leave no notes of the launcher.
theorem notes_onShared {α : Type} {post : List Event → α → Prop} (h : ∀ value, post [] value)
    (p : Code Address Empty α) : (onShared p).Notes post := by
  induction p with
  | ret value => exact h value
  | fetch address next ih => exact ih
  | store address byte next ih => exact ih
  | note event _ _ => exact nomatch event

theorem notes_call {context : Context} (h : context.wasmBytecode = .wasmBytecode)
    (p : Code Address Empty Bool) :
    (context.call p).Notes fun events value => events = [] ∧ value.2 = context := by
  simp only [Context.call, h]
  have hquiet : (onShared p).Notes fun events _ => events = [] :=
    notes_onShared (fun _ => rfl) p
  refine hquiet.bind ?_
  rintro events value rfl
  exact ⟨rfl, rfl⟩

-- The context tells how far the launch has come.
def Outcomes.Describes (outcomes : Outcomes) (context : Context) : Prop :=
  context.wasmBytecode = .wasmBytecode ∧ context.module = outcomes.hasModule ∧
    context.moduleInst = outcomes.hasInstance

theorem notes_initializeWamrRuntime {launch : Launch} {argc : Nat} {context : Context}
    (hpointer : context.wasmBytecode = .wasmBytecode) (hmodule : context.module = false)
    (hinst : context.moduleInst = false) :
    (initializeWamrRuntime launch argc context).Notes fun events value =>
      ∃ outcomes : Outcomes,
        outcomes.initialised = launch.runtime.fullInit (launch.granted .globalHeapBuf) ∧
        events = outcomes.startUp ∧ outcomes.Describes value.2 ∧
        value.1 = if outcomes.hasInstance then none else some .generic := by
  unfold initializeWamrRuntime
  cases launch.runtime.fullInit (launch.granted .globalHeapBuf) with
  | false => exact ⟨⟨false, false, false, false⟩, rfl, rfl, ⟨hpointer, hmodule, hinst⟩, rfl⟩
  | true =>
      refine (notes_call hpointer _).bind ?_
      rintro events ⟨loaded, loadedContext⟩ ⟨rfl, rfl⟩
      cases loaded with
      | false => exact ⟨⟨true, false, false, false⟩, rfl, rfl, ⟨hpointer, rfl, hinst⟩, rfl⟩
      | true =>
          refine Code.Notes.emit_bind ?_
          simp only [if_true]
          refine Code.Notes.bind (notes_call (by exact hpointer) _) ?_
          rintro events ⟨instantiated, finalContext⟩ ⟨rfl, rfl⟩
          cases instantiated with
          | false => exact ⟨⟨true, true, false, false⟩, rfl, rfl, ⟨hpointer, rfl, rfl⟩, rfl⟩
          | true => exact ⟨⟨true, true, true, false⟩, rfl, rfl, ⟨hpointer, rfl, rfl⟩, rfl⟩

theorem notes_executeWamrRuntime {launch : Launch} {context : Context}
    (hpointer : context.wasmBytecode = .wasmBytecode) :
    (executeWamrRuntime launch context).Notes fun events value =>
      ∃ executed, events = [.executeMain executed] ∧ value.2 = context ∧
        value.1 = if executed then none else some .generic := by
  refine Code.Notes.bind (notes_call hpointer _) ?_
  rintro events ⟨executed, finalContext⟩ ⟨rfl, rfl⟩
  exact ⟨executed, rfl, rfl, rfl⟩

theorem notes_tearDownWamrRuntime {outcomes : Outcomes} {context : Context}
    (h : outcomes.Describes context) :
    (tearDownWamrRuntime context).Notes fun events _ => events = outcomes.tearDown := by
  obtain ⟨_, hmodule, hinst⟩ := h
  unfold tearDownWamrRuntime Outcomes.tearDown
  rw [hmodule, hinst]
  cases outcomes.hasInstance <;> cases outcomes.hasModule <;> rfl

-- The label `error` and what stands below it.
theorem notes_close {outcomes : Outcomes} {context : Context} {result : Option TeeError}
    (hcontext : outcomes.Describes context) (hresult : result = outcomes.result) :
    (do tearDownWamrRuntime context
        Code.emit (.free .globalHeapBuf)
        Code.emit (.free .trustedWasmBytecode)
        pure result : LaunchM (Option TeeError)).Notes fun events result =>
      events = outcomes.tearDown ++ [.free .globalHeapBuf, .free .trustedWasmBytecode] ∧
        result = outcomes.result := by
  refine (notes_tearDownWamrRuntime hcontext).bind ?_
  rintro events _ rfl
  exact ⟨rfl, hresult⟩

-- A launch whose copy does not fault.
theorem notes_runWasm241 {launch : Launch} (contents : Contents Address)
    (h : ¬(launch.granted .trustedWasmBytecode = false ∧ launch.wasmBytecodeSize ≠ 0)) :
    (runWasm241 launch contents).Notes fun events result =>
      ∃ outcomes : Outcomes,
        outcomes.initialised = launch.runtime.fullInit (launch.granted .globalHeapBuf) ∧
        events = outcomes.log launch.granted ∧ result = outcomes.result := by
  unfold runWasm241 runWasm
  refine Code.Notes.emit_bind (Code.Notes.emit_bind (Code.Notes.emit_bind ?_))
  rw [if_neg h]
  refine Code.Notes.emit_bind ?_
  refine Code.Notes.bind (notes_initializeWamrRuntime (by exact rfl) rfl rfl) ?_
  rintro events ⟨result, context⟩ ⟨outcomes, hinit, rfl, hcontext, hresult⟩
  by_cases hinstance : outcomes.hasInstance = true
  · rw [if_pos hinstance] at hresult
    subst hresult
    refine Code.Notes.bind (notes_executeWamrRuntime hcontext.1) ?_
    rintro events ⟨result, finalContext⟩ ⟨executed, rfl, rfl, rfl⟩
    let final : Outcomes := { outcomes with executed := executed }
    have hfinal : final.Describes finalContext := hcontext
    have hready : final.hasInstance = true := hinstance
    have hreturn : final.result = if executed then none else some .generic := by
      simp [Outcomes.result, hready, final]
    refine (notes_close hfinal hreturn.symm).mono ?_
    rintro events result ⟨rfl, rfl⟩
    refine ⟨final, hinit, ?_, rfl⟩
    simp only [Outcomes.log, if_pos hready]
    rfl
  · rw [if_neg hinstance] at hresult
    subst hresult
    have hreturn : outcomes.result = some .generic := by
      simp [Outcomes.result, hinstance]
    refine (notes_close hcontext hreturn.symm).mono ?_
    rintro events result ⟨rfl, rfl⟩
    refine ⟨outcomes, hinit, ?_, rfl⟩
    simp [Outcomes.log, hinstance]

-- Either the copy faults, or the launch runs to its end.
theorem Invocation.cases (invocation : Invocation) :
    (invocation.launch.granted .trustedWasmBytecode = false ∧
        .memMove ∈ invocation.events ∧
        .malloc .trustedWasmBytecode true ∉ invocation.events) ∨
      ∃ outcomes : Outcomes,
        outcomes.initialised =
            invocation.launch.runtime.fullInit (invocation.launch.granted .globalHeapBuf) ∧
        invocation.events = outcomes.log invocation.launch.granted ∧
        invocation.result = outcomes.result := by
  by_cases h : invocation.launch.granted .trustedWasmBytecode = false ∧
    invocation.launch.wasmBytecodeSize ≠ 0
  · left
    have hevents : invocation.events =
        [.malloc .globalHeapBuf (invocation.launch.granted .globalHeapBuf),
          .malloc .trustedWasmBytecode (invocation.launch.granted .trustedWasmBytecode),
          .memMove] := by
      have hnotes : (runWasm241 invocation.launch invocation.contents).Notes fun events _ =>
          events = [.malloc .globalHeapBuf (invocation.launch.granted .globalHeapBuf),
            .malloc .trustedWasmBytecode (invocation.launch.granted .trustedWasmBytecode),
            .memMove] := by
        unfold runWasm241 runWasm
        refine Code.Notes.emit_bind (Code.Notes.emit_bind (Code.Notes.emit_bind ?_))
        rw [if_pos h]
        exact rfl
      exact hnotes.run invocation.world 1 invocation.contents
    rw [hevents]
    refine ⟨h.1, by simp, ?_⟩
    simp [h.1]
  · right
    exact (notes_runWasm241 invocation.contents h).run invocation.world 1 invocation.contents

theorem Outcomes.mem_log_malloc (outcomes : Outcomes) (granted : Block → Bool) (block : Block) :
    .malloc block true ∈ outcomes.log granted ↔ granted block = true := by
  obtain ⟨initialised, loaded, instantiated, executed⟩ := outcomes
  cases initialised <;> cases loaded <;> cases instantiated <;> cases block <;>
    simp [log, startUp, tearDown, hasModule, hasInstance]

theorem Outcomes.mem_log_steps (outcomes : Outcomes) (granted : Block → Bool) :
    (.fullInit true ∈ outcomes.log granted ↔ outcomes.initialised = true) ∧
      (.load true ∈ outcomes.log granted ↔ outcomes.hasModule = true) ∧
      (.instantiate true ∈ outcomes.log granted ↔ outcomes.hasInstance = true) ∧
      (.executeMain true ∈ outcomes.log granted ↔
        outcomes.hasInstance = true ∧ outcomes.executed = true) := by
  obtain ⟨initialised, loaded, instantiated, executed⟩ := outcomes
  cases initialised <;> cases loaded <;> cases instantiated <;>
    simp [log, startUp, tearDown, hasModule, hasInstance]

theorem Outcomes.filter_log_release (outcomes : Outcomes) (granted : Block → Bool) :
    (outcomes.log granted).filter Event.isRelease =
      (if outcomes.hasInstance then [.deinstantiate] else []) ++
        (if outcomes.hasModule then [.unload] else []) ++ [.destroy] := by
  obtain ⟨initialised, loaded, instantiated, executed⟩ := outcomes
  cases initialised <;> cases loaded <;> cases instantiated <;> rfl

theorem Outcomes.filterMap_log_freed (outcomes : Outcomes) (granted : Block → Bool) :
    (outcomes.log granted).filterMap Event.freed = [.globalHeapBuf, .trustedWasmBytecode] := by
  obtain ⟨initialised, loaded, instantiated, executed⟩ := outcomes
  cases initialised <;> cases loaded <;> cases instantiated <;> rfl

theorem Outcomes.replay_log {outcomes : Outcomes} {granted : Block → Bool}
    (hheap : granted .globalHeapBuf = true) (htrusted : granted .trustedWasmBytecode = true)
    (hinit : outcomes.initialised = true) :
    Ledger.idle.replay (outcomes.log granted) = Ledger.idle := by
  obtain ⟨initialised, loaded, instantiated, executed⟩ := outcomes
  simp only at hinit
  subst hinit
  simp only [log, hheap, htrusted]
  have hblocks : ∀ block, (Ledger.idle.replay
      [.malloc .globalHeapBuf true, .malloc .trustedWasmBytecode true, .free .globalHeapBuf,
        .free .trustedWasmBytecode]).blocks block = 0 := by
    intro block
    cases block <;> rfl
  cases loaded <;> cases instantiated <;> exact Ledger.ext (funext hblocks) rfl rfl rfl rfl

-- A runtime that was not set up is destroyed all the same, and a block that was not
-- allocated is used all the same. These are the only ways out of balance.
theorem Outcomes.balanced_log_iff (outcomes : Outcomes) (granted : Block → Bool) :
    Balanced (outcomes.log granted) outcomes.result ↔
      granted .globalHeapBuf = true ∧ granted .trustedWasmBytecode = true ∧
        outcomes.initialised = true := by
  obtain ⟨hinit, hload, hinstantiate, hexecute⟩ := outcomes.mem_log_steps granted
  constructor
  · intro h
    have hpool := h.pool outcomes.initialised (by simp [log, startUp])
    have hcopy := h.copy (by simp [log])
    refine ⟨(outcomes.mem_log_malloc granted _).mp hpool,
      (outcomes.mem_log_malloc granted _).mp hcopy, ?_⟩
    have hreleased := h.released
    rw [outcomes.filter_log_release] at hreleased
    simp only [hinit, hload, hinstantiate] at hreleased
    by_contra hnot
    rw [if_neg hnot] at hreleased
    simp at hreleased
  · rintro ⟨hheap, htrusted, hready⟩
    have hmalloc : ∀ block, .malloc block true ∈ outcomes.log granted := by
      intro block
      refine (outcomes.mem_log_malloc granted block).mpr ?_
      cases block with
      | globalHeapBuf => exact hheap
      | trustedWasmBytecode => exact htrusted
    exact
      { pool := fun _ _ => hmalloc _
        copy := fun _ => hmalloc _
        released := by
          rw [outcomes.filter_log_release]
          simp only [hinit, hload, hinstantiate, hready, if_true]
        freed := outcomes.filterMap_log_freed granted
        restored := replay_log hheap htrusted hready
        succeeded := by
          intro hresult
          have hdone : outcomes.hasInstance = true ∧ outcomes.executed = true := by
            simpa [result] using hresult
          have hmodule : outcomes.hasModule = true := by
            have hboth := hdone.1
            simp only [hasInstance, Bool.and_eq_true] at hboth
            exact hboth.1
          exact ⟨hmalloc _, hmalloc _, hinit.mpr hready, hload.mpr hmodule,
            hinstantiate.mpr hdone.1, hexecute.mpr hdone⟩ }

end Log

theorem balanced_iff_supplied (invocation : Invocation) :
    Balanced invocation.events invocation.result ↔ invocation.Supplied := by
  rcases invocation.cases with ⟨hdenied, hmove, hmalloc⟩ | ⟨outcomes, hinit, hevents, hresult⟩
  · constructor
    · intro h
      exact absurd (h.copy hmove) hmalloc
    · rintro ⟨_, hgranted, _⟩
      rw [hgranted] at hdenied
      cases hdenied
  · rw [hevents, hresult, outcomes.balanced_log_iff, hinit]
    constructor
    · rintro ⟨hheap, htrusted, hready⟩
      exact ⟨hheap, htrusted, hheap ▸ hready⟩
    · rintro ⟨hheap, htrusted, hready⟩
      exact ⟨hheap, htrusted, hheap.symm ▸ hready⟩

theorem alive_of_supplied {invocation : Invocation} (h : invocation.Supplied) :
    invocation.result ≠ some .targetDead := by
  rcases invocation.cases with ⟨hdenied, _, _⟩ | ⟨outcomes, _, _, hresult⟩
  · rw [h.2.1] at hdenied
    cases hdenied
  · rw [hresult, Outcomes.result]
    split <;> simp

-- A session stays balanced, and every launch starts from the same state, exactly as long as
-- every launch gets its two blocks and its runtime.
theorem runWasm241_balanced_iff (invocations : List Invocation) :
    Steady Ledger.idle (session invocations) ↔
      ∀ invocation ∈ invocations, invocation.Supplied := by
  induction invocations with
  | nil => simp [session, Steady]
  | cons invocation rest ih =>
      simp only [session, Steady, List.forall_mem_cons]
      rw [balanced_iff_supplied]
      constructor
      · rintro ⟨_, hnow, hlater⟩
        have hbalanced := (balanced_iff_supplied invocation).mpr hnow
        rw [hbalanced.restored, if_neg (alive_of_supplied hnow)] at hlater
        exact ⟨hnow, ih.mp hlater⟩
      · rintro ⟨hnow, hrest⟩
        have hbalanced := (balanced_iff_supplied invocation).mpr hnow
        refine ⟨trivial, hnow, ?_⟩
        rw [hbalanced.restored, if_neg (alive_of_supplied hnow)]
        exact ih.mpr hrest

-- A pool too small for the runtime.
def refusing : Invocation where
  launch := { sampleLaunch with runtime := { sampleRuntime with fullInit := fun _ => false } }
  contents := sampleContents
  world := World.quiet

-- No room for the copy of the bytecode.
def crowded : Invocation where
  launch := { sampleLaunch with granted := fun block => block = .globalHeapBuf }
  contents := sampleContents
  world := World.quiet

theorem runWasm241_unbalanced :
    (.fullInit false ∈ refusing.events ∧ .fullInit true ∉ refusing.events ∧
        .destroy ∈ refusing.events) ∧
      (.malloc .trustedWasmBytecode false ∈ crowded.events ∧ .memMove ∈ crowded.events ∧
        .free .globalHeapBuf ∉ crowded.events) ∧
      ¬Steady Ledger.idle (session [refusing]) ∧ ¬Steady Ledger.idle (session [crowded]) := by
  refine ⟨by decide, by decide, ?_, ?_⟩
  · intro h
    have hreleased := h.2.1.released
    revert hreleased
    decide
  · intro h
    have hcopy := h.2.1.copy (by decide)
    revert hcopy
    decide

end Watz.Launcher
