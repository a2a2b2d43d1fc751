import Watz.Base.Shared
import Watz.Tee

namespace Watz.Launcher

open Base.Shared

-- The two memory references that the normal world passes as inputs and keeps mapped.
inductive Address where
  | bytecode (offset : Nat)
  | argument (offset : Nat)
  deriving DecidableEq

inductive Block where
  | globalHeapBuf
  | trustedWasmBytecode
  deriving DecidableEq

-- `memMove` is the copy into `trusted_wasm_bytecode`, `copyFetched` a byte that the runtime
-- reads from it. `setSingleton` and `clearSingleton` are the stores to
-- `singleton_wamr_context`.
inductive Event where
  | malloc (block : Block) (granted : Bool)
  | free (block : Block)
  | memMove
  | setOutputBuffer
  | fullInit (ok : Bool)
  | load (ok : Bool)
  | instantiate (ok : Bool)
  | setSingleton
  | executeMain (ok : Bool)
  | clearSingleton
  | deinstantiate
  | unload
  | destroy
  | copyFetched (offset : Nat) (byte : UInt8)
  deriving DecidableEq

-- The parts of the WebAssembly runtime that the launcher calls. They read the module and the
-- arguments where the context points, as often as they like, and the loader also stores
-- there (it moves strings to make room for their terminators).
structure Runtime where
  fullInit : Bool → Bool
  load : Nat → Code Address Empty Bool
  instantiate : Nat → Code Address Empty Bool
  executeMain : Code Address Empty Bool

-- The parameters of one `TA_RunWasm`. `argBuff` says whether the pointer is not null.
structure Launch where
  wasmBytecodeSize : Nat
  argBuff : Bool
  granted : Block → Bool
  runtime : Runtime

inductive Pointer where
  | wasmBytecode
  | trustedWasmBytecode
  deriving DecidableEq

-- `wamr_context`, as far as the launcher reads it, and the block that holds the copy.
structure Context where
  wasmBytecode : Pointer
  copy : Nat → UInt8
  module : Bool
  moduleInst : Bool

def onShared {α : Type} : Code Address Empty α → Code Address Event α
  | .ret value => .ret value
  | .fetch address next => .fetch address fun byte => onShared (next byte)
  | .store address byte next => .store address byte (onShared next)
  | .note event _ => nomatch event

-- The copy answers for the bytecode. The argument string has no copy.
def onCopy {α : Type} :
    (Nat → UInt8) → Code Address Empty α → Code Address Event (α × (Nat → UInt8))
  | copy, .ret value => .ret (value, copy)
  | copy, .fetch (.bytecode offset) next =>
      .note (.copyFetched offset (copy offset)) (onCopy copy (next (copy offset)))
  | copy, .fetch (.argument offset) next =>
      .fetch (.argument offset) fun byte => onCopy copy (next byte)
  | copy, .store (.bytecode offset) byte next => onCopy (Function.update copy offset byte) next
  | copy, .store (.argument offset) byte next => .store (.argument offset) byte (onCopy copy next)
  | _, .note event _ => nomatch event

def Context.call (context : Context) (p : Code Address Empty Bool) :
    Code Address Event (Bool × Context) :=
  match context.wasmBytecode with
  | .wasmBytecode => do
      let ok ← onShared p
      pure (ok, context)
  | .trustedWasmBytecode => do
      let (ok, copy) ← onCopy context.copy p
      pure (ok, { context with copy := copy })

abbrev LaunchM (α : Type) : Type := Code Address Event α

def initializeWamrRuntime (launch : Launch) (argc : Nat) (context : Context) :
    LaunchM (Option TeeError × Context) := do
  let initialised := launch.runtime.fullInit (launch.granted .globalHeapBuf)
  Code.emit (.fullInit initialised)
  if initialised then
    let (loaded, context) ← context.call (launch.runtime.load launch.wasmBytecodeSize)
    Code.emit (.load loaded)
    let context := { context with module := loaded }
    if loaded then
      let (instantiated, context) ← context.call (launch.runtime.instantiate argc)
      Code.emit (.instantiate instantiated)
      let context := { context with moduleInst := instantiated }
      if instantiated then
        Code.emit .setSingleton
        pure (none, context)
      else pure (some .generic, context)
    else pure (some .generic, context)
  else pure (some .generic, context)

def executeWamrRuntime (launch : Launch) (context : Context) :
    LaunchM (Option TeeError × Context) := do
  let (ok, context) ← context.call launch.runtime.executeMain
  Code.emit (.executeMain ok)
  pure (if ok then none else some .generic, context)

def tearDownWamrRuntime (context : Context) : LaunchM Unit := do
  Code.emit .clearSingleton
  if context.moduleInst then Code.emit .deinstantiate
  if context.module then Code.emit .unload
  Code.emit .destroy

-- `TA_RunWasm` from the moment of its `TEE_MemMove` on, with `contents` what the shared
-- memory holds then. A copy to a null pointer faults.
def runWasm (pointer : Pointer) (launch : Launch) (contents : Contents Address) :
    LaunchM (Option TeeError) := do
  Code.emit (.malloc .globalHeapBuf (launch.granted .globalHeapBuf))
  Code.emit (.malloc .trustedWasmBytecode (launch.granted .trustedWasmBytecode))
  Code.emit .memMove
  if launch.granted .trustedWasmBytecode = false ∧ launch.wasmBytecodeSize ≠ 0 then
    pure (some .targetDead)
  else
    Code.emit .setOutputBuffer
    let context : Context :=
      { wasmBytecode := pointer
        copy := fun i => if i < launch.wasmBytecodeSize then contents (.bytecode i) else 0
        module := false
        moduleInst := false }
    let argc := if launch.argBuff then 2 else 1
    let (result, context) ← initializeWamrRuntime launch argc context
    let (result, context) ←
      if result = none then executeWamrRuntime launch context else pure (result, context)
    tearDownWamrRuntime context
    Code.emit (.free .globalHeapBuf)
    Code.emit (.free .trustedWasmBytecode)
    pure result

-- The launcher of the 2.4.1 tree hands the shared pointer to the runtime: the line with the
-- copy is commented out. That of the 2021 tree hands over the copy.
def runWasm241 : Launch → Contents Address → LaunchM (Option TeeError) := runWasm .wasmBytecode

def runWasm2021 : Launch → Contents Address → LaunchM (Option TeeError) :=
  runWasm .trustedWasmBytecode

-- What a launch does when the normal world acts like this after the copy.
def behaviour (runWasm : Launch → Contents Address → LaunchM (Option TeeError)) (launch : Launch)
    (contents : Contents Address) (world : World Address) :
    List (Seen Address Event) × Option TeeError :=
  run world 1 contents (runWasm launch contents)

-- Every byte that a launch on the contents at the copy fetches is still there when it is
-- fetched.
def Undisturbed (runWasm : Launch → Contents Address → LaunchM (Option TeeError))
    (launch : Launch) (contents : Contents Address) (world : World Address) : Prop :=
  Unchanged world 1 contents (behaviour runWasm launch contents World.quiet).1

theorem behaviour_eq_quiet_iff (runWasm : Launch → Contents Address → LaunchM (Option TeeError))
    (launch : Launch) (contents : Contents Address) (world : World Address) :
    behaviour runWasm launch contents world = behaviour runWasm launch contents World.quiet ↔
      Undisturbed runWasm launch contents world :=
  run_eq_iff world World.quiet 1 contents contents (runWasm launch contents)

-- A normal world that leaves both references alone from the copy on.
def Silent (world : World Address) : Prop :=
  ∀ n, 1 ≤ n → ∀ contents, world n contents = contents

theorem undisturbed_of_silent {world : World Address} (h : Silent world)
    (runWasm : Launch → Contents Address → LaunchM (Option TeeError)) (launch : Launch)
    (contents : Contents Address) : Undisturbed runWasm launch contents world :=
  unchanged_of_silent h _ 1 (Nat.le_refl 1) contents

-- A loader that looks at one address so many times.
def peek (address : Address) : Nat → Code Address Empty Bool
  | 0 => .ret true
  | n + 1 => .fetch address fun _ => peek address n

def peeking (address : Address) (times : Nat) : Launch where
  wasmBytecodeSize := 0
  argBuff := false
  granted _ := true
  runtime :=
    { fullInit := fun _ => true
      load := fun _ => peek address times
      instantiate := fun _ => .ret true
      executeMain := .ret true }

-- A world that was silent so far and passes the next look keeps the byte.
theorem kept_of_peek {world : World Address} {address : Address} {contents : Contents Address}
    (times i : Nat)
    (hsilent : ∀ n, i ≤ n → n < i + times → world n contents = contents)
    (h : Unchanged world i contents
      (run World.quiet i contents (onShared (peek address (times + 1)))).1) :
    world (i + times) contents address = contents address := by
  induction times generalizing i with
  | zero => exact h.1
  | succ times ih =>
      have hnow : world i contents = contents := hsilent i (Nat.le_refl i) (by omega)
      have hrest := h.2
      rw [hnow] at hrest
      have hlater : ∀ n, i + 1 ≤ n → n < i + 1 + times → world n contents = contents :=
        fun n hn hlt => hsilent n (by omega) (by omega)
      have hkept := ih (i + 1) hlater hrest
      rwa [show i + 1 + times = i + (times + 1) by omega] at hkept

theorem silent_of_undisturbed {world : World Address}
    (h : ∀ launch contents, Undisturbed runWasm241 launch contents world) : Silent world := by
  intro n
  induction n using Nat.strongRecOn with
  | ind n ih =>
      intro hn contents
      funext address
      obtain ⟨times, rfl⟩ : ∃ times, n = 1 + times := ⟨n - 1, by omega⟩
      have hlaunch := h (peeking address (times + 1)) contents
      have hinit := Unchanged.of_bind (initializeWamrRuntime (peeking address (times + 1)) 1 _) _
        hlaunch
      have hload := Unchanged.of_bind (Context.call _ (peek address (times + 1))) _ hinit
      have hpeek := Unchanged.of_bind (onShared (peek address (times + 1))) _ hload
      exact kept_of_peek times 1 (fun m hm hlt => ih m hlt hm contents) hpeek

-- The copy protects nothing. A launch goes as the contents at the copy determine exactly as
-- far as the normal world leaves the bytes alone that it then fetches, and a normal world
-- under which every launch does is one that writes nothing more.
theorem runWasm241_snapshot_iff (world : World Address) :
    (∀ launch contents,
        (∀ other, Silent other →
          behaviour runWasm241 launch contents world =
            behaviour runWasm241 launch contents other) ↔
        Undisturbed runWasm241 launch contents world) ∧
      ((∀ launch contents other, Silent other →
          behaviour runWasm241 launch contents world =
            behaviour runWasm241 launch contents other) ↔
        Silent world) := by
  have hpoint : ∀ launch contents,
      (∀ other, Silent other →
        behaviour runWasm241 launch contents world =
          behaviour runWasm241 launch contents other) ↔
      Undisturbed runWasm241 launch contents world := by
    intro launch contents
    have hworld := behaviour_eq_quiet_iff runWasm241 launch contents world
    constructor
    · intro h
      exact hworld.mp (h World.quiet fun _ _ _ => rfl)
    · intro h other hother
      have hsame := (behaviour_eq_quiet_iff runWasm241 launch contents other).mpr
        (undisturbed_of_silent hother runWasm241 launch contents)
      rw [hworld.mpr h, hsame]
  refine ⟨hpoint, ?_, ?_⟩
  · intro h
    exact silent_of_undisturbed fun launch contents => (hpoint launch contents).mp (h launch contents)
  · intro h launch contents
    exact (hpoint launch contents).mpr (undisturbed_of_silent h runWasm241 launch contents)

-- A module header with the magic number only checked in its first byte, one argument byte and
-- one instruction.
def sampleRuntime : Runtime where
  fullInit granted := granted
  load _ := .fetch (.bytecode 0) fun byte => .ret (byte == 0)
  instantiate argc := if argc = 2 then .fetch (.argument 0) fun _ => .ret true else .ret true
  executeMain := .fetch (.bytecode 8) fun _ => .ret true

def sampleLaunch : Launch := ⟨9, true, fun _ => true, sampleRuntime⟩

def sampleContents : Contents Address := fun _ => 0

-- The normal world rewrites one byte once the module is loaded.
def rewriting (target : Address) : World Address := fun n contents =>
  if n = 2 then Function.update contents target 7 else contents

theorem runWasm241_races :
    behaviour runWasm241 sampleLaunch sampleContents (rewriting (.bytecode 8)) ≠
        behaviour runWasm241 sampleLaunch sampleContents World.quiet ∧
      Seen.fetched (.bytecode 8) 7 ∈
        (behaviour runWasm241 sampleLaunch sampleContents (rewriting (.bytecode 8))).1 ∧
      Seen.fetched (.argument 0) 7 ∈
        (behaviour runWasm241 sampleLaunch sampleContents (rewriting (.argument 0))).1 := by
  decide

section Reference

def IsArgument : Address → Prop
  | .argument _ => True
  | .bytecode _ => False

theorem touches_onCopy {α : Type} (p : Code Address Empty α) (copy : Nat → UInt8) :
    (onCopy copy p).Touches IsArgument fun _ => True := by
  induction p generalizing copy with
  | ret value => trivial
  | fetch address next ih =>
      cases address with
      | bytecode offset => exact ih _ copy
      | argument offset => exact ⟨trivial, fun byte => ih byte copy⟩
  | store address byte next ih =>
      cases address with
      | bytecode offset => exact ih _
      | argument offset => exact ⟨trivial, ih copy⟩
  | note event _ _ => exact nomatch event

-- A context that points to the copy goes on doing so.
def Secured (context : Context) : Prop := context.wasmBytecode = .trustedWasmBytecode

theorem touches_call {context : Context} (h : Secured context) (p : Code Address Empty Bool) :
    (context.call p).Touches IsArgument fun value => Secured value.2 := by
  have hpointer : context.wasmBytecode = .trustedWasmBytecode := h
  simp only [Context.call, hpointer]
  refine (touches_onCopy p context.copy).bind fun _ _ => ?_
  exact rfl

theorem touches_initializeWamrRuntime {launch : Launch} {argc : Nat} {context : Context}
    (h : Secured context) :
    (initializeWamrRuntime launch argc context).Touches IsArgument fun value =>
      Secured value.2 := by
  unfold initializeWamrRuntime
  cases launch.runtime.fullInit (launch.granted .globalHeapBuf) with
  | false => exact h
  | true =>
      refine (touches_call h _).bind fun value hvalue => ?_
      obtain ⟨loaded, loadedContext⟩ := value
      cases loaded with
      | false => exact hvalue
      | true =>
          refine Code.Touches.emit_bind ?_
          simp only [if_true]
          refine Code.Touches.bind (touches_call (by exact hvalue) _) fun value hinst => ?_
          obtain ⟨instantiated, _⟩ := value
          cases instantiated <;> exact hinst

theorem touches_tearDownWamrRuntime (context : Context) :
    (tearDownWamrRuntime context).Touches IsArgument fun _ => True := by
  unfold tearDownWamrRuntime
  cases context.moduleInst <;> cases context.module <;> trivial

theorem touches_runWasm2021 (launch : Launch) (contents : Contents Address) :
    (runWasm2021 launch contents).Touches IsArgument fun _ => True := by
  unfold runWasm2021 runWasm
  refine Code.Touches.emit_bind (Code.Touches.emit_bind (Code.Touches.emit_bind ?_))
  split
  case isTrue => trivial
  case isFalse =>
    refine Code.Touches.emit_bind ?_
    refine Code.Touches.bind (touches_initializeWamrRuntime (by exact rfl)) fun value hvalue => ?_
    obtain ⟨result, context⟩ := value
    have hexecute : (executeWamrRuntime launch context).Touches IsArgument fun _ => True := by
      refine Code.Touches.bind (touches_call hvalue _) fun _ _ => ?_
      trivial
    have htearDown : ∀ value : Option TeeError × Context,
        (do tearDownWamrRuntime value.2
            Code.emit (.free .globalHeapBuf)
            Code.emit (.free .trustedWasmBytecode)
            pure value.1 : LaunchM (Option TeeError)).Touches IsArgument fun _ => True := by
      intro value
      refine (touches_tearDownWamrRuntime value.2).bind fun _ _ => ?_
      trivial
    cases result with
    | none => exact hexecute.bind fun value _ => htearDown value
    | some error => exact htearDown (some error, context)

-- The launcher of the 2021 tree fetches the bytecode from its copy, so only the argument
-- string is exposed.
theorem runWasm2021_of_argument_kept {world : World Address}
    (h : ∀ n contents address, IsArgument address → world n contents address = contents address)
    (launch : Launch) (contents : Contents Address) :
    behaviour runWasm2021 launch contents world =
      behaviour runWasm2021 launch contents World.quiet :=
  run_eq_quiet h _ (touches_runWasm2021 launch contents) 1 contents contents fun _ _ => rfl

end Reference

end Watz.Launcher
