import Watz.Attester
import Watz.Idealised
import Watz.Verifier.Session

namespace Watz.Network

open Base Base.Symbolic Idealised

-- The ECDSA key that a verifier session draws when it is opened.
def serviceKey (index : Nat) : Name := .honest 3 index

-- A signature that an honest party made: the fields whose digest it signed, in order.
structure Signature where
  key : Name
  message : List Term

inductive Stage where
  | idle
  | handshaking
  | anchored
  | quoteSent
  | finished
  | stopped
  deriving DecidableEq

-- One attester run. `anchor` and `data` are what `ra_net_handshake` and
-- `ra_net_receive_data` returned when they succeeded.
structure AttesterRun where
  stage : Stage
  pin : Attester.Pin prims
  ctx : Attester.RaContext prims
  anchor : Option Term
  data : Option Term

-- The command that `handle_connection` comes to next.
inductive Position where
  | idle
  | msg0
  | msg1
  | msg2
  | msg3
  | completed
  | stopped
  deriving DecidableEq

def Position.command : Position → Option Verifier.Command
  | .msg0 => some .handleMsg0
  | .msg1 => some .prepareMsg1
  | .msg2 => some .handleMsg2
  | .msg3 => some .prepareMsg3
  | _ => none

def Position.next : Position → Position
  | .msg0 => .msg1
  | .msg1 => .msg2
  | .msg2 => .msg3
  | .msg3 => .completed
  | position => position

structure VerifierRun where
  position : Position
  inst : Verifier.Instance prims

-- `known` is everything that was ever on the network, and `signatures` what the verifiers and
-- the attestation service signed.
structure State where
  known : List Term
  signatures : List Signature
  attesters : Nat → AttesterRun
  verifiers : Nat → VerifierRun

def init : State where
  known := []
  signatures := []
  attesters _ := ⟨.idle, ⟨blank, 0, blank, 0⟩, Attester.RaContext.fresh prims, none, none⟩
  verifiers _ := ⟨.idle, .dead⟩

-- What the attacker can compute in a state.
def State.Knows (σ : State) (t : Term) : Prop := Derives {u | u ∈ σ.known} t

inductive Action where
  | startHandshake (i : Nat) (pin : Attester.Pin prims) (env : Env prims)
  | finishHandshake (i : Nat) (anchorSize : Nat) (env : Env prims)
  | collectQuote (i : Nat) (quote : Quote)
  | sendQuote (i : Nat) (quote : Quote) (env : Env prims)
  | receiveData (i : Nat) (dataSize : Nat) (env : Env prims)
  | openSession (j : Nat) (env : Env prims) (bootstrap : Verifier.Invocation prims)
  | keepSession (j : Nat) (predecessor : Nat)
  | invoke (j : Nat) (inv : Verifier.Invocation prims)

-- The fields that the attestation service signs, and all fields of a quote.
def signedFields (quote : Quote) : List Term :=
  [quote.anchor, quote.version, quote.claimHash, quote.attestationKey]

def quoteFields (quote : Quote) : List Term := signedFields quote ++ [quote.signature]

def msg0Fields (msg0 : Msg0 Term) : List Term := [msg0.ecdhX, msg0.ecdhY]

def msg2Fields (msg2 : Msg2 Term Quote Term) : List Term :=
  [msg2.ecdhX, msg2.ecdhY, msg2.mac] ++ quoteFields msg2.quote

-- A quote of the attestation service on an anchor.
def Genuine (quote : Quote) : Prop :=
  quote.signature = .sig attestationKey (.hash (.tuple (signedFields quote)))

section Effects

variable {α : Type} (effect : Effect (Attester.RaContext prims) TeeError Event α)

-- An attester run ends with the first call that fails.
def AttesterRun.after (run : AttesterRun) (onOk : α → AttesterRun → AttesterRun) : AttesterRun :=
  match effect.out with
  | .ok value => onOk value { run with ctx := effect.state }
  | _ => { run with ctx := effect.state, stage := .stopped }

def sent (fields : α → List Term) : List Term :=
  match effect.out with
  | .ok value => fields value
  | _ => []

end Effects

-- The messages that the host writes to the socket.
def outgoing : Position → Buf → List Term
  | .msg1, buffer => buffer.fields
  | .msg3, buffer => buffer.fields
  | _, _ => []

-- The signature that goes into `msg1`.
def made : Position → Verifier.Instance prims → Verifier.Invocation prims → List Signature
  | .msg1, .live s, inv =>
      match s.ecdsaLocalKeypair with
      | .key key => [⟨key, [prims.read s.msg1.ecdhX (inv.env.adjacent .msg1EcdhX),
          prims.read s.msg1.ecdhY (inv.env.adjacent .msg1EcdhY),
          prims.read s.msg0.ecdhX (inv.env.adjacent .msg0X),
          prims.read s.msg0.ecdhY (inv.env.adjacent .msg0Y)]⟩]
      | _ => []
  | _, _, _ => []

def bootstrapped (env : Env prims) (bootstrap : Verifier.Invocation prims) :
    Verifier.Instance prims × Verifier.Response prims :=
  Verifier.step
    (.live (Verifier.openSessionEntryPoint 0 env (Verifier.Ctx.zero prims)).state) bootstrap

def apply (σ : State) : Action → State
  | .startHandshake i pin env =>
      let effect := Attester.raNetHandshakeStart env (Attester.RaContext.fresh prims)
      let run : AttesterRun := { σ.attesters i with pin := pin }
      { σ with
        known := sent effect msg0Fields ++ σ.known
        attesters := Function.update σ.attesters i
          (run.after effect fun _ run => { run with stage := .handshaking }) }
  | .finishHandshake i anchorSize env =>
      let run := σ.attesters i
      let effect := Attester.raNetHandshakeFinish run.pin anchorSize env run.ctx
      { σ with
        attesters := Function.update σ.attesters i
          (run.after effect fun anchor run =>
            { run with stage := .anchored, anchor := some anchor }) }
  | .collectQuote _ quote =>
      { σ with
        known := quoteFields quote ++ σ.known
        signatures := ⟨attestationKey, signedFields quote⟩ :: σ.signatures }
  | .sendQuote i quote env =>
      let run := σ.attesters i
      let effect := Attester.raNetSendQuote quote env run.ctx
      { σ with
        known := sent effect msg2Fields ++ σ.known
        attesters := Function.update σ.attesters i
          (run.after effect fun _ run => { run with stage := .quoteSent }) }
  | .receiveData i dataSize env =>
      let run := σ.attesters i
      let effect := Attester.raNetReceiveData dataSize env run.ctx
      { σ with
        attesters := Function.update σ.attesters i
          (run.after effect fun value run =>
            { run with stage := .finished, data := some value.1 }) }
  | .openSession j env bootstrap =>
      { σ with
        verifiers := Function.update σ.verifiers j ⟨.msg0, (bootstrapped env bootstrap).1⟩ }
  | .keepSession j predecessor =>
      { σ with verifiers := Function.update σ.verifiers j ⟨.msg0, (σ.verifiers predecessor).inst⟩ }
  | .invoke j inv =>
      let run := σ.verifiers j
      let (inst, response) := Verifier.step run.inst inv
      match response.result with
      | none =>
          { σ with
            known := outgoing run.position response.buffer ++ σ.known
            signatures := made run.position run.inst inv ++ σ.signatures
            verifiers := Function.update σ.verifiers j ⟨run.position.next, inst⟩ }
      | some _ => { σ with verifiers := Function.update σ.verifiers j ⟨.stopped, inst⟩ }

-- A message that the attacker can deliver.
def State.Delivers (σ : State) (message : Buf) : Prop := ∀ t ∈ message.fields, σ.Knows t

-- When an action can happen. Parties draw private values of their own, never the attacker's;
-- nothing below needs two draws to differ. The attestation service signs a quote only when its
-- anchor was returned by some attester run, and a run sends a quote on its own anchor. The
-- host gives up a session when it cannot be opened or the secret cannot be stored. It handles
-- one connection and ends, and a host that went on to accept another one with the same
-- session would be covered by `keepSession`.
def Enabled (σ : State) : Action → Prop
  | .startHandshake i _ env =>
      (σ.attesters i).stage = .idle ∧ ∃ n, env.ecdhKey = Name.honest attesterRole n
  | .finishHandshake i _ env =>
      (σ.attesters i).stage = .handshaking ∧ σ.Delivers env.wire
  | .collectQuote i quote =>
      (σ.attesters i).anchor = some quote.anchor ∧ Genuine quote ∧
        σ.Knows quote.version ∧ σ.Knows quote.claimHash ∧ σ.Knows quote.attestationKey
  | .sendQuote i quote _ =>
      (σ.attesters i).stage = .anchored ∧ (σ.attesters i).anchor = some quote.anchor ∧
        Genuine quote ∧ ⟨attestationKey, signedFields quote⟩ ∈ σ.signatures
  | .receiveData i _ env =>
      (σ.attesters i).stage = .quoteSent ∧ σ.Delivers env.wire
  | .openSession j env bootstrap =>
      (σ.verifiers j).position = .idle ∧ (∃ n, env.ecdsaKey = serviceKey n) ∧
        (Verifier.openSessionEntryPoint 0 env (Verifier.Ctx.zero prims)).out = .ok () ∧
        bootstrap.command = some .bootstrapSecret ∧
        (∃ n, prims.bufVal bootstrap.buffer = Term.secret n) ∧
        (bootstrapped env bootstrap).2.result = none
  | .keepSession j predecessor =>
      (σ.verifiers j).position = .idle ∧ (σ.verifiers predecessor).position = .completed
  | .invoke j inv =>
      (∃ command, (σ.verifiers j).position.command = some command ∧
        inv.command = some command) ∧
      (∃ n, inv.env.ecdhKey = Name.honest verifierRole n) ∧
      σ.Delivers inv.buffer ∧ σ.Knows inv.env.iv

-- The states of all interleavings of attester runs, verifier runs and the attacker.
inductive Reachable : State → Prop where
  | init : Reachable init
  | step {σ : State} (h : Reachable σ) (action : Action) (henabled : Enabled σ action) :
      Reachable (apply σ action)

end Watz.Network
