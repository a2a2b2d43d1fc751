import Watz.Base.Run
import Watz.Verifier

namespace Watz.Verifier

open Base Tee

inductive Command where
  | bootstrapSecret
  | handleMsg0
  | prepareMsg1
  | handleMsg2
  | prepareMsg3
  deriving DecidableEq, Repr

-- The identifiers of `vedliot_verifier_ta.h`.
def Command.ofId : Nat → Option Command
  | 0 => some .bootstrapSecret
  | 1 => some .handleMsg0
  | 2 => some .prepareMsg1
  | 3 => some .handleMsg2
  | 4 => some .prepareMsg3
  | _ => none

def Command.expParamTypes : Command → Nat
  | .bootstrapSecret => TEE_PARAM_TYPES TEE_PARAM_TYPE_MEMREF_INPUT TEE_PARAM_TYPE_NONE
      TEE_PARAM_TYPE_NONE TEE_PARAM_TYPE_NONE
  | .handleMsg0 => TEE_PARAM_TYPES TEE_PARAM_TYPE_MEMREF_INPUT TEE_PARAM_TYPE_NONE
      TEE_PARAM_TYPE_NONE TEE_PARAM_TYPE_NONE
  | .prepareMsg1 => TEE_PARAM_TYPES TEE_PARAM_TYPE_MEMREF_OUTPUT TEE_PARAM_TYPE_VALUE_OUTPUT
      TEE_PARAM_TYPE_NONE TEE_PARAM_TYPE_NONE
  | .handleMsg2 => TEE_PARAM_TYPES TEE_PARAM_TYPE_MEMREF_INPUT TEE_PARAM_TYPE_VALUE_OUTPUT
      TEE_PARAM_TYPE_MEMREF_OUTPUT TEE_PARAM_TYPE_NONE
  | .prepareMsg3 => TEE_PARAM_TYPES TEE_PARAM_TYPE_MEMREF_OUTPUT TEE_PARAM_TYPE_MEMREF_OUTPUT
      TEE_PARAM_TYPE_NONE TEE_PARAM_TYPE_NONE

variable {P : Prims}

-- One call of `TA_InvokeCommandEntryPoint`: `buffer` is `params[0].memref`. The second memory
-- reference of two commands is written in profiling builds only.
structure Invocation (P : Prims) where
  cmdId : Nat
  paramTypes : Nat
  buffer : P.Buf
  env : Env P

-- The command that an invocation reaches: none for an unknown identifier or wrong types.
def Invocation.command (inv : Invocation P) : Option Command :=
  (Command.ofId inv.cmdId).filter fun command => command.expParamTypes == inv.paramTypes

-- What the normal world gets back: the result code (`none` is `TEE_SUCCESS`), the contents of
-- `params[0].memref` and `params[1].value.a` where the code assigns it.
structure Response (P : Prims) where
  result : Option TeeError
  buffer : P.Buf
  valueA : Option Nat
  events : List Event

-- A secret of size zero needs no memory. Otherwise the copy to a null pointer faults.
def configureCustomSecret (buffer : P.Buf) : VerifierM P Unit := do
  let env ← Prog.ask
  let granted := env.faults .configureCustomSecret 0 = none ∨ P.bufSize buffer = 0
  Prog.orPanic (if granted then some () else none)
  Prog.emit [.alloc .secret]
  Prog.modify fun s => { s with secret := P.bufVal buffer }

-- A trusted application instance. A panic ends it, and with it the session.
inductive Instance (P : Prims) where
  | live (ctx : Ctx P)
  | dead

-- The result code and the next state of an entry point, and what the normal world sees.
def conclude {α : Type} (effect : Effect (Ctx P) TeeError Event α) (buffer : P.Buf)
    (onOk : α → P.Buf × Option Nat) (onFail : Option Nat) : Instance P × Response P :=
  match effect.out with
  | .ok value => (.live effect.state, ⟨none, (onOk value).1, (onOk value).2, effect.log⟩)
  | .fail code => (.live effect.state, ⟨some code, buffer, onFail, effect.log⟩)
  | .panic => (.dead, ⟨some .targetDead, buffer, none, effect.log⟩)

def dispatch (inv : Invocation P) (s : Ctx P) : Command → Instance P × Response P
  | .bootstrapSecret =>
      conclude (configureCustomSecret inv.buffer inv.env s) inv.buffer
        (fun _ => (inv.buffer, none)) none
  | .handleMsg0 =>
      conclude (handleMsg0 inv.buffer inv.env s) inv.buffer (fun _ => (inv.buffer, none)) none
  | .prepareMsg1 =>
      -- on failure the code assigns an uninitialised size, which says nothing
      conclude (prepareMsg1 inv.buffer inv.env s) inv.buffer
        (fun buffer => (buffer, some P.sizeofMsg1)) none
  | .handleMsg2 =>
      let effect := handleMsg2 inv.buffer inv.env s
      conclude effect inv.buffer
        (fun _ => (inv.buffer, some (if effect.state.isQuoteValid then 1 else 0))) (some 0)
  | .prepareMsg3 =>
      conclude (prepareMsg3 inv.buffer s.secret inv.env s) inv.buffer
        (fun buffer => (buffer, none)) none

def invokeCommandEntryPoint (s : Ctx P) (inv : Invocation P) : Instance P × Response P :=
  match inv.command with
  | none => (.live s, ⟨some .badParameters, inv.buffer, none, []⟩)
  | some command => dispatch inv s command

def step : Instance P → Invocation P → Instance P × Response P
  | .live s, inv => invokeCommandEntryPoint s inv
  | .dead, inv => (.dead, ⟨some .targetDead, inv.buffer, none, []⟩)

-- `TA_FLAGS` has no `TA_FLAG_SINGLE_INSTANCE`: every session starts from zeroed memory.
def openSessionEntryPoint (paramTypes : Nat) : VerifierM P Unit := do
  Prog.require (paramTypes == TEE_PARAM_TYPES TEE_PARAM_TYPE_NONE TEE_PARAM_TYPE_NONE
    TEE_PARAM_TYPE_NONE TEE_PARAM_TYPE_NONE) .badParameters
  importAttesterAttestationKey
  generateEcdsaKeypair

-- The states in which a session has just been opened.
def Opened (s : Ctx P) : Prop :=
  ∃ paramTypes env, (openSessionEntryPoint paramTypes env (Ctx.zero P)).out = .ok () ∧
    (openSessionEntryPoint paramTypes env (Ctx.zero P)).state = s

-- A session from its opening on, command by command.
abbrev SessionStep (P : Prims) : Type := Run.Step (Instance P) (Invocation P) (Response P)

def session (s : Ctx P) (inputs : List (Invocation P)) : List (SessionStep P) :=
  Run.steps step (.live s) inputs

end Watz.Verifier
