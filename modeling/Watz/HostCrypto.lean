import Watz.GuestMemory
import Watz.Tee

namespace Watz.HostCrypto

open Base Base.Layout Prog

def TEE_ERROR_BAD_STATE : TeeError := .other 0xFFFF0007

inductive Mode where
  | encrypt
  | decrypt
  deriving DecidableEq, Repr

-- What `TEE_AsymmetricEncrypt` or `TEE_AsymmetricDecrypt` does when it is handed an output
-- buffer of this capacity: the bytes it stores there, the length that it stores to `*destLen`
-- if it stores one, and its result.
structure Operated (capacity : Nat) where
  output : List UInt8
  destLen : Option UInt32
  result : Out TeeError Unit
  length_output : output.length ≤ capacity

-- The calls of the TEE. The handle is whatever number the guest passes.
structure Rsa where
  getObjectInfo1 : UInt32 → Out TeeError UInt32
  allocateOperation : Mode → UInt32 → Out TeeError Unit
  setOperationKey : Mode → UInt32 → Out TeeError Unit
  asymmetric : Mode → UInt32 → List UInt8 → (capacity : Nat) → Operated capacity

-- The last arguments of both functions.
structure Buffers where
  dest : UInt32
  destLen : UInt32
  requestedLen : UInt32
  requestedLenSize : UInt32

-- What a call does with `*requestedLen` and with the output buffer.
inductive Access where
  | readLen
  | capacity (size : Nat)
  | output (bytes : List UInt8)
  | writeLen (value : UInt32)
  deriving DecidableEq, Repr

abbrev HostM : Type → Type := Prog Rsa Mem TeeError Access

def tee {α : Type} (result : Rsa → Out TeeError α) : HostM α := fun rsa mem => ⟨result rsa, mem, []⟩

-- A store of the TEE through a pointer that may be NULL.
def store (access : Access) (pointer : Option Nat) (bytes : List UInt8) : HostM Unit := do
  emit [access]
  if bytes = [] then
    ret ()
  else
    let offset ← orPanic pointer
    modify fun mem => write mem offset bytes

-- A call of the guest, with the arguments of `Host_Encrypt` or `Host_Decrypt`.
inductive Call where
  | encrypt (key src : UInt32) (buffers : Buffers)
  | decrypt (key src srcLen : UInt32) (buffers : Buffers)

def Call.buffers : Call → Buffers
  | .encrypt _ _ buffers => buffers
  | .decrypt _ _ _ buffers => buffers

def Call.key : Call → UInt32
  | .encrypt key _ _ => key
  | .decrypt key _ _ _ => key

def Call.mode : Call → Mode
  | .encrypt _ _ _ => .encrypt
  | .decrypt _ _ _ _ => .decrypt

def Buffers.arguments (b : Buffers) : List Nat :=
  [b.dest.toNat, b.destLen.toNat, b.requestedLen.toNat, b.requestedLenSize.toNat]

def Call.arguments : Call → List Nat
  | .encrypt key src buffers => key.toNat :: src.toNat :: buffers.arguments
  | .decrypt key src srcLen buffers =>
      key.toNat :: src.toNat :: srcLen.toNat :: buffers.arguments

-- "(i$*~*~)i" and "(i*~*~*~)i".
def Call.signature : Call → List GuestMemory.Param
  | .encrypt _ _ _ => [.int, .string, .pointer, .length, .pointer, .length]
  | .decrypt _ _ _ _ => [.int, .pointer, .length, .pointer, .length, .pointer, .length]

variable (m : GuestMemory)

def storeLen (requestedLen : Nat) : Option UInt32 → HostM Unit
  | some value => store (.writeLen value) (some requestedLen) (leBytes 4 value.toNat)
  | none => ret ()

def conclude {capacity : Nat} (b : Buffers) (requestedLen : Nat) (done : Operated capacity) :
    HostM Unit := do
  store (.output done.output) (m.addrAppToNative b.dest.toNat) done.output
  storeLen requestedLen done.destLen
  tee fun _ => done.result

-- `TEE_AsymmetricEncrypt(op, NULL, 0, src, ..., dest, requestedLen)` and its sibling. The TEE
-- takes the capacity from `*requestedLen`.
def operate (mode : Mode) (key : UInt32) (input : List UInt8) (b : Buffers) : HostM Unit := do
  emit [.readLen]
  let requestedLen ← orPanic (m.addrAppToNative b.requestedLen.toNat)
  let mem ← get
  let capacity := leNat (slice mem requestedLen 4)
  emit [.capacity capacity]
  let rsa ← ask
  conclude m b requestedLen (rsa.asymmetric mode key input capacity)

-- The body that both functions share. The message of a failed operation prints `*requestedLen`.
def crypt (mode : Mode) (key : UInt32) (input : List UInt8) (b : Buffers) : HostM Unit := do
  require (key != 0) TEE_ERROR_BAD_STATE
  let keySize ← tee fun rsa => rsa.getObjectInfo1 key
  tee fun rsa => rsa.allocateOperation mode keySize
  tee fun rsa => rsa.setOperationKey mode key
  onFail [.readLen] (operate m mode key input b)

def hostEncrypt (key src : UInt32) (buffers : Buffers) : HostM Unit :=
  crypt m .encrypt key (slice m.data src.toNat ((m.strlen src.toNat).getD 0)) buffers

def hostDecrypt (key src srcLen : UInt32) (buffers : Buffers) : HostM Unit :=
  crypt m .decrypt key (slice m.data src.toNat srcLen.toNat) buffers

def Call.body : Call → HostM Unit
  | .encrypt key src buffers => hostEncrypt m key src buffers
  | .decrypt key src srcLen buffers => hostDecrypt m key src srcLen buffers

-- `wasm_runtime_invoke_native`. A failed check raises an exception in the guest.
def invokeNative (rsa : Rsa) (call : Call) : Option (Effect Mem TeeError Access Unit) :=
  if m.checkArguments call.signature call.arguments then some (call.body m rsa m.data) else none

section Property

variable (b : Buffers)

-- The bytes from `start` on lie in one of the two ranges that the signatures describe.
def Validated (start length : Nat) : Prop :=
  (b.dest.toNat ≤ start ∧ start + length ≤ b.dest.toNat + b.destLen.toNat) ∨
    (b.requestedLen.toNat ≤ start ∧
      start + length ≤ b.requestedLen.toNat + b.requestedLenSize.toNat)

def StoresInside (pointer : Option Nat) (length : Nat) : Prop :=
  0 < length → ∃ start, pointer = some start ∧ Validated b start length

def Inside : Access → Prop
  | .readLen => 4 ≤ b.requestedLenSize.toNat
  | .capacity size => size ≤ b.destLen.toNat
  | .output bytes => StoresInside b (m.addrAppToNative b.dest.toNat) bytes.length
  | .writeLen _ => 4 ≤ b.requestedLenSize.toNat ∧
      StoresInside b (m.addrAppToNative b.requestedLen.toNat) 4

-- The memory outside the two ranges is as it was before the call.
def Unchanged (mem : Mem) : Prop := ∀ i, ¬ Validated b i 1 → mem i = m.data i

structure StaysInside (effect : Effect Mem TeeError Access Unit) : Prop where
  accesses : ∀ access ∈ effect.log, Inside m b access
  unchanged : Unchanged m b effect.state

-- The call gets as far as `TEE_AsymmetricEncrypt` or `TEE_AsymmetricDecrypt`.
def Reaches (rsa : Rsa) (call : Call) : Prop :=
  m.checkArguments call.signature call.arguments = true ∧ call.key ≠ 0 ∧
    ∃ keySize, rsa.getObjectInfo1 call.key = .ok keySize ∧
      rsa.allocateOperation call.mode keySize = .ok () ∧
      rsa.setOperationKey call.mode call.key = .ok ()

end Property

section Reach

variable {m} {rsa : Rsa} {call : Call} {mem : Mem}

theorem body_eq (call : Call) : ∃ input,
    call.body m = crypt m call.mode call.key input call.buffers := by
  cases call with
  | encrypt key src buffers => exact ⟨_, rfl⟩
  | decrypt key src srcLen buffers => exact ⟨_, rfl⟩

theorem tee_bind_of_ok {α : Type} {result : Rsa → Out TeeError α} {value : α}
    (h : result rsa = .ok value) (f : α → HostM Unit) :
    (tee result >>= f) rsa mem = f value rsa mem := by
  simp only [bind_run, andThen, tee, h, List.nil_append]

-- What lies before the operation neither touches the memory nor looks at `*requestedLen`.
theorem crypt_of_reaches (h : Reaches m rsa call) (input : List UInt8) :
    crypt m call.mode call.key input call.buffers rsa mem =
      onFail [.readLen] (operate m call.mode call.key input call.buffers) rsa mem := by
  obtain ⟨-, hkey, keySize, hinfo, hallocate, hset⟩ := h
  have hnonzero : (call.key != 0) = true := by simpa using hkey
  calc crypt m call.mode call.key input call.buffers rsa mem
      = (tee (fun rsa => rsa.getObjectInfo1 call.key) >>= fun keySize => do
          tee fun rsa => rsa.allocateOperation call.mode keySize
          tee fun rsa => rsa.setOperationKey call.mode call.key
          onFail [.readLen] (operate m call.mode call.key input call.buffers)) rsa mem := by
        simp only [crypt, require, hnonzero, if_true]
        rfl
    _ = _ := by
        rw [tee_bind_of_ok hinfo, tee_bind_of_ok hallocate, tee_bind_of_ok hset]

-- Nothing in guest memory has been used or changed.
def Idle (p : HostM Unit) (rsa : Rsa) (mem : Mem) : Prop :=
  (p rsa mem).log = [] ∧ (p rsa mem).state = mem

theorem Idle.tee_bind {α : Type} {result : Rsa → Out TeeError α} {f : α → HostM Unit}
    (h : ∀ value, result rsa = .ok value → Idle (f value) rsa mem) :
    Idle (tee result >>= f) rsa mem := by
  cases hout : result rsa with
  | ok value =>
      have hrest := h value hout
      rwa [Idle, tee_bind_of_ok hout]
  | fail code => simp [Idle, bind_run, andThen, tee, hout]
  | panic => simp [Idle, bind_run, andThen, tee, hout]

theorem Idle.require_bind {condition : Bool} {code : TeeError} {f : Unit → HostM Unit}
    (h : condition = true → Idle (f ()) rsa mem) : Idle (require condition code >>= f) rsa mem := by
  cases condition with
  | false => exact ⟨rfl, rfl⟩
  | true => exact h rfl

theorem crypt_of_not_reaches (hcheck : m.checkArguments call.signature call.arguments = true)
    (h : ¬ Reaches m rsa call) (input : List UInt8) :
    Idle (crypt m call.mode call.key input call.buffers) rsa mem := by
  apply Idle.require_bind
  intro hkey
  apply Idle.tee_bind
  intro keySize hinfo
  apply Idle.tee_bind
  intro _ hallocate
  apply Idle.tee_bind
  intro _ hset
  exact absurd ⟨hcheck, by simpa using hkey, keySize, hinfo, hallocate, hset⟩ h

end Reach

section Operate

variable {m} {b : Buffers}

-- What the runtime has checked before either function runs.
theorem ranges_of_checkArguments {call : Call}
    (h : m.checkArguments call.signature call.arguments = true) :
    call.buffers.dest.toNat + call.buffers.destLen.toNat ≤ m.size ∧
      call.buffers.requestedLen.toNat + call.buffers.requestedLenSize.toNat ≤ m.size := by
  cases call with
  | encrypt key src b =>
      simp only [Call.signature, Call.arguments, Buffers.arguments, GuestMemory.checkArguments,
        Bool.and_eq_true, m.validateAppAddr_iff] at h
      exact ⟨h.2.1, h.2.2.1⟩
  | decrypt key src srcLen b =>
      simp only [Call.signature, Call.arguments, Buffers.arguments, GuestMemory.checkArguments,
        Bool.and_eq_true, m.validateAppAddr_iff] at h
      exact ⟨h.2.1, h.2.2.1⟩

theorem unchanged_write {start : Nat} {bytes : List UInt8} {mem : Mem}
    (hinside : Validated b start bytes.length) (h : Unchanged m b mem) :
    Unchanged m b (write mem start bytes) := by
  intro i hi
  rw [write, if_neg, h i hi]
  unfold Validated at hinside hi
  omega

theorem store_confined {access : Access} {pointer : Option Nat} {bytes : List UInt8}
    (haccess : Inside m b access) (h : StoresInside b pointer bytes.length) :
    Confined (Unchanged m b) (Inside m b) (store access pointer bytes) := by
  apply Confined.bind (Confined.emit (by simpa using haccess))
  intro _
  split
  case isTrue => exact Confined.pure ()
  case isFalse hbytes =>
    obtain ⟨start, rfl, hinside⟩ := h (List.length_pos_iff.mpr hbytes)
    intro rsa mem hmem
    exact ⟨unchanged_write hinside hmem, logs_of_nil rfl⟩

theorem addrAppToNative_storesInside {start length size : Nat}
    (hrange : 0 < length → Validated b start length) (hsize : start + size ≤ m.size)
    (hlength : length ≤ size) : StoresInside b (m.addrAppToNative start) length := by
  intro hpos
  exact ⟨start, m.addrAppToNative_of_lt (by omega), hrange hpos⟩

variable {capacity : Nat} {mode : Mode} {key : UInt32} {input : List UInt8} {rsa : Rsa}

theorem storeLen_confined (hlen : b.requestedLen.toNat + b.requestedLenSize.toNat ≤ m.size)
    (hsize : 4 ≤ b.requestedLenSize.toNat) (destLen : Option UInt32) :
    Confined (Unchanged m b) (Inside m b) (storeLen b.requestedLen.toNat destLen) := by
  have hrange : Validated b b.requestedLen.toNat 4 := Or.inr ⟨Nat.le_refl _, by omega⟩
  cases destLen with
  | none => exact Confined.pure ()
  | some value =>
      apply store_confined
      · exact ⟨hsize, addrAppToNative_storesInside (fun _ => hrange) hlen hsize⟩
      · exact fun _ => ⟨_, rfl, by simpa using hrange⟩

theorem conclude_confined {capacity : Nat} (done : Operated capacity)
    (hdest : b.dest.toNat + b.destLen.toNat ≤ m.size)
    (hlen : b.requestedLen.toNat + b.requestedLenSize.toNat ≤ m.size)
    (hsize : 4 ≤ b.requestedLenSize.toNat) (hcapacity : capacity ≤ b.destLen.toNat) :
    Confined (Unchanged m b) (Inside m b) (conclude m b b.requestedLen.toNat done) := by
  have hlength := done.length_output.trans hcapacity
  have houtput : StoresInside b (m.addrAppToNative b.dest.toNat) done.output.length :=
    addrAppToNative_storesInside (fun _ => Or.inl ⟨Nat.le_refl _, by omega⟩) hdest hlength
  have hinside : Inside m b (.output done.output) := houtput
  apply Confined.bind (store_confined hinside houtput)
  intro _
  apply Confined.bind (storeLen_confined hlen hsize done.destLen)
  exact fun _ _ _ hmem => ⟨hmem, logs_of_nil rfl⟩

-- The capacity is the number that lies at `requestedLen` when the call starts.
theorem operate_run (h : b.requestedLen.toNat < m.size) :
    operate m mode key input b rsa m.data =
      (emit [.readLen, .capacity (m.readUint32 b.requestedLen.toNat)] >>= fun _ =>
        conclude m b b.requestedLen.toNat
          (rsa.asymmetric mode key input (m.readUint32 b.requestedLen.toNat))) rsa m.data := by
  simp only [operate, m.addrAppToNative_of_lt h]
  rfl

theorem operate_inside (hdest : b.dest.toNat + b.destLen.toNat ≤ m.size)
    (hlen : b.requestedLen.toNat + b.requestedLenSize.toNat ≤ m.size)
    (hsize : 4 ≤ b.requestedLenSize.toNat)
    (hcapacity : m.readUint32 b.requestedLen.toNat ≤ b.destLen.toNat) :
    StaysInside m b (onFail [.readLen] (operate m mode key input b) rsa m.data) := by
  have hrest := conclude_confined (rsa.asymmetric mode key input _) hdest hlen hsize hcapacity
  have hfirst : ∀ access ∈ [Access.readLen, .capacity (m.readUint32 b.requestedLen.toNat)],
      Inside m b access := by simp [Inside, hsize, hcapacity]
  have hconfined := Confined.bind (Confined.emit hfirst) fun _ : Unit => hrest
  obtain ⟨hstate, hlog⟩ := hconfined rsa m.data fun i _ => rfl
  have hrun := @operate_run m b mode key input rsa (by omega)
  rw [← hrun] at hstate
  rw [Logs, ← hrun] at hlog
  have hmessage : ∀ access ∈ [Access.readLen], Inside m b access := by simp [Inside, hsize]
  exact ⟨Logs.onFail hmessage hlog, by rwa [onFail_state]⟩

-- A call that gets to the operation has read `*requestedLen`, and has handed it on as the
-- capacity unless the pointer is NULL.
theorem operate_reads :
    Access.readLen ∈ (onFail [.readLen] (operate m mode key input b) rsa m.data).log :=
  log_onFail_of_mem rsa m.data _ _ (mem_log_bind _ _ rsa m.data (List.mem_singleton_self _))

theorem operate_hands (h : b.requestedLen.toNat < m.size) :
    .capacity (m.readUint32 b.requestedLen.toNat) ∈
      (onFail [.readLen] (operate m mode key input b) rsa m.data).log := by
  apply log_onFail_of_mem
  rw [operate_run h]
  exact mem_log_bind _ _ rsa m.data (List.mem_cons_of_mem _ (List.mem_singleton_self _))

end Operate

-- A call stays inside the validated ranges exactly when it does not get as far as the
-- operation, or `*requestedLen` is four validated bytes that hold at most `destLen`.
theorem staysInside_iff (rsa : Rsa) (call : Call) :
    (∀ effect, invokeNative m rsa call = some effect → StaysInside m call.buffers effect) ↔
      (Reaches m rsa call → 4 ≤ call.buffers.requestedLenSize.toNat ∧
        m.readUint32 call.buffers.requestedLen.toNat ≤ call.buffers.destLen.toNat) := by
  by_cases hcheck : m.checkArguments call.signature call.arguments = true
  · obtain ⟨input, hbody⟩ := body_eq (m := m) call
    obtain ⟨hdest, hlen⟩ := ranges_of_checkArguments hcheck
    simp only [invokeNative, if_pos hcheck, Option.some.injEq, forall_eq', hbody]
    by_cases hreaches : Reaches m rsa call
    · rw [crypt_of_reaches hreaches]
      constructor
      · rintro ⟨haccesses, -⟩ -
        have hsize := haccesses _ operate_reads
        simp only [Inside] at hsize
        exact ⟨hsize, haccesses _ (operate_hands (by omega))⟩
      · intro h
        obtain ⟨hsize, hcapacity⟩ := h hreaches
        exact operate_inside hdest hlen hsize hcapacity
    · have hidle : Idle (crypt m call.mode call.key input call.buffers) rsa m.data :=
        crypt_of_not_reaches hcheck hreaches input
      obtain ⟨hlog, hstate⟩ := hidle
      simp only [hreaches, false_implies, iff_true]
      refine ⟨?_, ?_⟩
      · rw [hlog]
        simp
      · rw [hstate]
        exact fun _ _ => rfl
  · have hreaches : ¬ Reaches m rsa call := fun h => hcheck h.1
    simp [invokeNative, hcheck, hreaches]

section Example

-- Decrypting yields eleven bytes, and nothing but the length if fewer fit.
def sampleRsa : Rsa where
  getObjectInfo1 _ := .ok 512
  allocateOperation _ _ := .ok ()
  setOperationKey _ _ := .ok ()
  asymmetric _ _ _ capacity :=
    if h : 11 ≤ capacity then ⟨List.replicate 11 0x61, some 11, .ok (), by simpa using h⟩
    else ⟨[], some 11, .fail .shortBuffer, Nat.zero_le _⟩

-- One page. An earlier call has left the requested length at 1024.
def sampleMemory : GuestMemory := ⟨2 ^ 16, fun i => if i = 1024 then 11 else 0, by decide⟩

-- `destLen` is the size of a pointer, as in the second `Host_Decrypt` of the sample program.
def sampleDecrypt : Call := .decrypt 1 2048 64 ⟨4096, 4, 1024, 4⟩

theorem decrypt_writes_past_dest :
    ∃ effect, invokeNative sampleMemory sampleRsa sampleDecrypt = some effect ∧
      ¬ StaysInside sampleMemory sampleDecrypt.buffers effect := by
  have hcheck : sampleMemory.checkArguments sampleDecrypt.signature sampleDecrypt.arguments =
      true := by decide +kernel
  refine ⟨_, if_pos hcheck, fun h => ?_⟩
  have hbehind : ¬ Validated sampleDecrypt.buffers 4100 1 := by unfold Validated; decide +kernel
  exact absurd (h.unchanged 4100 hbehind) (by decide +kernel)

end Example

end Watz.HostCrypto
