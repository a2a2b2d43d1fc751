import Watz.Bytes
import Watz.Verifier.Session

namespace Watz.Host

open Base Base.Layout Bytes Verifier

def TEEC_NONE : Nat := 0
def TEEC_VALUE_OUTPUT : Nat := 2
def TEEC_MEMREF_TEMP_INPUT : Nat := 5
def TEEC_MEMREF_TEMP_OUTPUT : Nat := 6

-- The identifiers and `op.paramTypes` that the host passes to `TEEC_InvokeCommand`.
def commandId : Command → Nat
  | .bootstrapSecret => 0
  | .handleMsg0 => 1
  | .prepareMsg1 => 2
  | .handleMsg2 => 3
  | .prepareMsg3 => 4

def paramTypes : Command → Nat
  | .bootstrapSecret => TEE_PARAM_TYPES TEEC_MEMREF_TEMP_INPUT TEEC_NONE TEEC_NONE TEEC_NONE
  | .handleMsg0 => TEE_PARAM_TYPES TEEC_MEMREF_TEMP_INPUT TEEC_NONE TEEC_NONE TEEC_NONE
  | .prepareMsg1 => TEE_PARAM_TYPES TEEC_MEMREF_TEMP_OUTPUT TEEC_VALUE_OUTPUT TEEC_NONE TEEC_NONE
  | .handleMsg2 => TEE_PARAM_TYPES TEEC_MEMREF_TEMP_INPUT TEEC_VALUE_OUTPUT
      TEEC_MEMREF_TEMP_OUTPUT TEEC_NONE
  | .prepareMsg3 => TEE_PARAM_TYPES TEEC_MEMREF_TEMP_OUTPUT TEEC_MEMREF_TEMP_OUTPUT TEEC_NONE
      TEEC_NONE

-- `msg3_t` as the host declares it once more.
def msg3Header : List CType :=
  [.uint8Array 32, .uint8Array (RA_AES_GCM_TAG_SIZE / 8), .sizeT]

def buffSize (secretSize : Nat) : Nat :=
  secretSize + sizeof msg3Header + RA_AES_GCM_CIPHERTEXT_OVERHEAD

-- `SECRET_DATA` with its terminator.
def builtInSecretSize : Nat := 38

inductive Event where
  | invoked (command : Command) (buffer : List UInt8) (result : Option TeeError)
  | wrote (bytes : List UInt8)
  deriving DecidableEq, Repr

-- How many bytes have arrived when each of the two reads returns. A read waits for one byte.
structure Reads where
  first : ℕ+
  second : ℕ+

-- A session that has been opened and bootstrapped, the results of its TEE calls, and a peer:
-- what it sends first, and what it answers to the bytes written to it.
structure Exchange (T : Platform) where
  ctx : Ctx (prims T)
  tee : Command → Env (prims T)
  msg0 : List UInt8
  reply : List UInt8 → List UInt8

structure Connection (T : Platform) where
  ta : Instance (prims T)
  buff : List UInt8
  incoming : List UInt8

abbrev HostM (T : Platform) (α : Type) : Type :=
  Prog (Exchange T) (Connection T) TeeError Event α

variable {T : Platform}

def overwrite (bytes buff : List UInt8) : List UInt8 := bytes ++ buff.drop bytes.length

-- One `read`, whose count the code drops.
def readSocket (arrived : ℕ+) : HostM T Unit :=
  Prog.modify fun c => { c with
    buff := overwrite (c.incoming.take (min arrived c.buff.length)) c.buff
    incoming := c.incoming.drop (min arrived c.buff.length) }

def Exchange.invocation (x : Exchange T) (command : Command) (buffer : List UInt8) :
    Invocation (prims T) :=
  ⟨commandId command, paramTypes command, buffer, x.tee command⟩

-- `TEEC_InvokeCommand` on the whole buffer. A failure ends the process in `errx`.
def invokeCommand (command : Command) : HostM T Nat := do
  let x ← Prog.ask
  let c ← Prog.get
  let next := step c.ta (x.invocation command c.buff)
  Prog.emit [.invoked command c.buff next.2.result]
  Prog.modify fun c => { c with ta := next.1, buff := next.2.buffer }
  match next.2.result with
  | none => pure (next.2.valueA.getD 0)
  | some code => Prog.failWith code

def handleConnection (secretSize : Nat) (reads : Reads) : HostM T Unit := do
  Prog.modify fun c => { c with buff := List.replicate (buffSize secretSize) 0 }
  readSocket reads.first
  let _ ← invokeCommand .handleMsg0
  let msg1Size ← invokeCommand .prepareMsg1
  let x ← Prog.ask
  let c ← Prog.get
  Prog.emit [.wrote (c.buff.take msg1Size)]
  -- the peer answers what it got
  Prog.modify fun c => { c with incoming := c.incoming ++ x.reply (c.buff.take msg1Size) }
  readSocket reads.second
  let _ ← invokeCommand .handleMsg2
  let _ ← invokeCommand .prepareMsg3
  let c ← Prog.get
  Prog.emit [.wrote c.buff]

-- The connection that `accept` returns.
def Exchange.accepted (x : Exchange T) : Connection T := ⟨.live x.ctx, [], x.msg0⟩

namespace Exchange

variable (x : Exchange T)

-- The exchange on buffers that are exactly as long as the messages in them.
def afterMsg0 : Instance (prims T) × Response (prims T) :=
  step (.live x.ctx) (x.invocation .handleMsg0 x.msg0)

def afterMsg1 : Instance (prims T) × Response (prims T) :=
  step x.afterMsg0.1 (x.invocation .prepareMsg1 (List.replicate (sizeof Wire.Verifier.msg1) 0))

def msg1 : List UInt8 := x.afterMsg1.2.buffer

def msg2 : List UInt8 := x.reply x.msg1

def afterMsg2 : Instance (prims T) × Response (prims T) :=
  step x.afterMsg1.1 (x.invocation .handleMsg2 x.msg2)

def secretSize : Nat := List.length x.ctx.secret

def afterMsg3 : Instance (prims T) × Response (prims T) :=
  step x.afterMsg2.1 (x.invocation .prepareMsg3
    (List.replicate (sizeof Wire.Verifier.msg3 + x.secretSize) 0))

def msg3 : List UInt8 := x.afterMsg3.2.buffer

-- The peer's messages have the right sizes, and the trusted application accepts them.
structure Honest : Prop where
  length_msg0 : x.msg0.length = sizeof Wire.Verifier.msg0
  length_msg2 : x.msg2.length = sizeof (Wire.Verifier.msg2 T.raQuote)
  accepts0 : x.afterMsg0.2.result = none
  prepares1 : x.afterMsg1.2.result = none
  accepts2 : x.afterMsg2.2.result = none
  prepares3 : x.afterMsg3.2.result = none

def Carries (buffer message : List UInt8) : Prop := buffer.take message.length = message

-- The server passes on exactly the peer's messages, in buffers of sufficient size, every
-- command succeeds, and `msg1` and `msg3` are written to the peer.
structure Served (reads : Reads) : Prop where
  returns : (handleConnection x.secretSize reads x x.accepted).out = .ok ()
  served : ∃ buffer0 buffer1 buffer2 buffer3 sent,
    (handleConnection x.secretSize reads x x.accepted).log =
        [.invoked .handleMsg0 buffer0 none, .invoked .prepareMsg1 buffer1 none, .wrote x.msg1,
          .invoked .handleMsg2 buffer2 none, .invoked .prepareMsg3 buffer3 none, .wrote sent] ∧
      Carries buffer0 x.msg0 ∧ sizeof Wire.Verifier.msg1 ≤ buffer1.length ∧
      Carries buffer2 x.msg2 ∧ sizeof Wire.Verifier.msg3 + x.secretSize ≤ buffer3.length ∧
      Carries sent x.msg3

section Run

variable (reads : Reads)

-- The buffers and the responses of one run of `handle_connection`.
def buff0 : List UInt8 :=
  overwrite (x.msg0.take (min reads.first (buffSize x.secretSize)))
    (List.replicate (buffSize x.secretSize) 0)

def run0 : Instance (prims T) × Response (prims T) :=
  step (.live x.ctx) (x.invocation .handleMsg0 (x.buff0 reads))

def run1 : Instance (prims T) × Response (prims T) :=
  step (x.run0 reads).1 (x.invocation .prepareMsg1 (x.run0 reads).2.buffer)

def buff1 : List UInt8 := (x.run1 reads).2.buffer

def sent1 : List UInt8 := (x.buff1 reads).take ((x.run1 reads).2.valueA.getD 0)

def incoming : List UInt8 :=
  x.msg0.drop (min reads.first (buffSize x.secretSize)) ++ x.reply (x.sent1 reads)

def buff2 : List UInt8 :=
  overwrite ((x.incoming reads).take (min reads.second (x.buff1 reads).length)) (x.buff1 reads)

def run2 : Instance (prims T) × Response (prims T) :=
  step (x.run1 reads).1 (x.invocation .handleMsg2 (x.buff2 reads))

def run3 : Instance (prims T) × Response (prims T) :=
  step (x.run2 reads).1 (x.invocation .prepareMsg3 (x.run2 reads).2.buffer)

structure Completed : Prop where
  run0 : (x.run0 reads).2.result = none
  run1 : (x.run1 reads).2.result = none
  run2 : (x.run2 reads).2.result = none
  run3 : (x.run3 reads).2.result = none

theorem invokeCommand_run (command : Command) (c : Connection T)
    (h : (step c.ta (x.invocation command c.buff)).2.result = none) :
    invokeCommand command x c =
      ⟨.ok ((step c.ta (x.invocation command c.buff)).2.valueA.getD 0),
        { c with
          ta := (step c.ta (x.invocation command c.buff)).1
          buff := (step c.ta (x.invocation command c.buff)).2.buffer },
        [.invoked command c.buff none]⟩ := by
  simp only [invokeCommand, Prog.bind_run, Prog.andThen, Prog.ask_run, Prog.get_run, Prog.emit_run,
    Prog.modify_run, h, Prog.pure_run, List.nil_append, List.append_nil]

theorem invokeCommand_ok {command : Command} {c : Connection T} {α : Type}
    {rest : Nat → HostM T α} {value : α}
    (h : ((invokeCommand command >>= rest) x c).out = .ok value) :
    (step c.ta (x.invocation command c.buff)).2.result = none := by
  cases hresult : (step c.ta (x.invocation command c.buff)).2.result with
  | none => rfl
  | some code =>
      simp only [invokeCommand, Prog.bind_run, Prog.andThen, Prog.ask_run, Prog.get_run,
        Prog.emit_run, Prog.modify_run, hresult, Prog.failWith_run] at h
      cases h

-- The connection when each command is invoked.
def connection0 : Connection T :=
  ⟨.live x.ctx, x.buff0 reads, x.msg0.drop (min reads.first (buffSize x.secretSize))⟩

def connection1 : Connection T :=
  { x.connection0 reads with ta := (x.run0 reads).1, buff := (x.run0 reads).2.buffer }

def connection2 : Connection T :=
  ⟨(x.run1 reads).1, x.buff2 reads,
    (x.incoming reads).drop (min reads.second (x.buff1 reads).length)⟩

def connection3 : Connection T :=
  { x.connection2 reads with ta := (x.run2 reads).1, buff := (x.run2 reads).2.buffer }

def completedLog : List Event :=
  [.invoked .handleMsg0 (x.buff0 reads) none,
    .invoked .prepareMsg1 (x.run0 reads).2.buffer none, .wrote (x.sent1 reads),
    .invoked .handleMsg2 (x.buff2 reads) none,
    .invoked .prepareMsg3 (x.run2 reads).2.buffer none, .wrote (x.run3 reads).2.buffer]

theorem readSocket_first :
    readSocket reads.first x ⟨.live x.ctx, List.replicate (buffSize x.secretSize) 0, x.msg0⟩ =
      ⟨.ok (), x.connection0 reads, []⟩ := by
  simp only [readSocket, Prog.modify_run, List.length_replicate, connection0, buff0]

theorem handleConnection_run (h : x.Completed reads) :
    ∃ post, handleConnection x.secretSize reads x x.accepted =
      ⟨.ok (), post, x.completedLog reads⟩ := by
  have hrun0 := x.invokeCommand_run .handleMsg0 (x.connection0 reads) h.run0
  have hrun1 := x.invokeCommand_run .prepareMsg1 (x.connection1 reads) h.run1
  have hrun2 := x.invokeCommand_run .handleMsg2 (x.connection2 reads) h.run2
  have hrun3 := x.invokeCommand_run .prepareMsg3 (x.connection3 reads) h.run3
  have hrun : handleConnection x.secretSize reads x x.accepted = ⟨.ok (), _, _⟩ :=
    Prog.run_bind rfl <| Prog.run_bind (x.readSocket_first reads) <| Prog.run_bind hrun0 <|
      Prog.run_bind hrun1 <| Prog.run_bind rfl <| Prog.run_bind rfl <| Prog.run_bind rfl <|
      Prog.run_bind rfl <| Prog.run_bind rfl <| Prog.run_bind hrun2 <| Prog.run_bind hrun3 <|
      Prog.run_bind rfl rfl
  exact ⟨_, hrun⟩

theorem completed_of_ok (h : (handleConnection x.secretSize reads x x.accepted).out = .ok ()) :
    x.Completed reads := by
  have h := Prog.ok_of_run_bind (Prog.modify_run _ _ _) h
  have h := Prog.ok_of_run_bind (x.readSocket_first reads) h
  have hrun0 : (x.run0 reads).2.result = none := invokeCommand_ok x h
  have h := Prog.ok_of_run_bind (x.invokeCommand_run .handleMsg0 (x.connection0 reads) hrun0) h
  have hrun1 : (x.run1 reads).2.result = none := invokeCommand_ok x h
  have h := Prog.ok_of_run_bind (x.invokeCommand_run .prepareMsg1 (x.connection1 reads) hrun1) h
  have h := Prog.ok_of_run_bind (Prog.ask_run _ _) h
  have h := Prog.ok_of_run_bind (Prog.get_run _ _) h
  have h := Prog.ok_of_run_bind (Prog.emit_run _ _ _) h
  have h := Prog.ok_of_run_bind (Prog.modify_run _ _ _) h
  have h := Prog.ok_of_run_bind (Prog.modify_run _ _ _) h
  have hrun2 : (x.run2 reads).2.result = none := invokeCommand_ok x h
  have h := Prog.ok_of_run_bind (x.invokeCommand_run .handleMsg2 (x.connection2 reads) hrun2) h
  exact ⟨hrun0, hrun1, hrun2, invokeCommand_ok x h⟩

theorem served_iff : x.Served reads ↔ x.Completed reads ∧ x.sent1 reads = x.msg1 ∧
    Carries (x.buff0 reads) x.msg0 ∧
    sizeof Wire.Verifier.msg1 ≤ List.length (x.run0 reads).2.buffer ∧
    Carries (x.buff2 reads) x.msg2 ∧
    sizeof Wire.Verifier.msg3 + x.secretSize ≤ List.length (x.run2 reads).2.buffer ∧
    Carries (x.run3 reads).2.buffer x.msg3 := by
  constructor
  · intro h
    have hcompleted := x.completed_of_ok reads h.returns
    obtain ⟨post, hrun⟩ := x.handleConnection_run reads hcompleted
    obtain ⟨buffer0, buffer1, buffer2, buffer3, sent, hlog, hcarries⟩ := h.served
    rw [hrun, completedLog] at hlog
    simp only [List.cons.injEq, Event.invoked.injEq, Event.wrote.injEq, true_and, and_true] at hlog
    obtain ⟨rfl, h1, hsent, rfl, h3, h4⟩ := hlog
    obtain rfl := (Event.invoked.inj h1).2.1
    obtain rfl := (Event.invoked.inj h3).2.1
    obtain rfl := Event.wrote.inj h4
    exact ⟨hcompleted, hsent, hcarries⟩
  · rintro ⟨hcompleted, hsent, hcarries⟩
    obtain ⟨post, hrun⟩ := x.handleConnection_run reads hcompleted
    refine ⟨by rw [hrun], _, _, _, _, _, ?_, hcarries⟩
    rw [hrun, completedLog, hsent]

end Run

theorem invocation_command (command : Command) (buffer : List UInt8) :
    (x.invocation command buffer).command = some command := by
  cases command <;> rfl

end Exchange

end Watz.Host
