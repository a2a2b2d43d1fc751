import Watz.Delivery

namespace Watz.Hostile

open Base Base.Layout Tee Bytes Attester

-- A read of the block that `msg3` is received into: members of the header, what a dump prints,
-- or the content that AES-GCM is handed, with the length that the header states for it.
inductive Access where
  | header (offset length : Nat)
  | printed (offset length : Nat)
  | content (length : Nat)
  deriving DecidableEq, Repr

-- The reads that go with the events of `ra_net_receive_data`.
def accessesOf (contentSize : Nat) : Event → List Access
  | .print .msg3 offset length => [.printed offset length]
  | .read .msg3 offset length => [.header offset length]
  | .call .decryptMsg3 2 _ => [.header 0 RA_AES_GCM_IV_SIZE]
  | .call .decryptMsg3 3 _ =>
      [.header 48 8, .header RA_AES_GCM_IV_SIZE (RA_AES_GCM_TAG_SIZE / 8), .content contentSize]
  | _ => []

variable {T : Platform}

-- The block that `TEE_Malloc` is asked for: its size is cut to a `uint32_t`.
def blockSize (T : Platform) (dataSize : Nat) : Nat := msg3BlockSize (prims T) dataSize % 2 ^ 32

def Allocated (env : Env (prims T)) : Prop := env.faults .allocateMsg3 0 = none

-- The receive loop on this block: how many bytes it stored, and `encrypted_content_size` as it
-- lies there afterwards.
def receiving (dataSize : Nat) (env : Env (prims T)) : Receiving :=
  receivedMsg3 env.wire (blockSize T dataSize)

def contentSize (dataSize : Nat) (env : Env (prims T)) : Nat :=
  (parseMsg3 (receiving dataSize env).data).encryptedContentSize

section Run

variable (dataSize : Nat) (env : Env (prims T)) (s : RaContext (prims T))

def accesses : List Access :=
  (raNetReceiveData dataSize env s).log.flatMap (accessesOf (contentSize dataSize env))

-- The peer sends this many bytes and the block has room for them.
def Sent (count : Nat) : Prop := count ≤ env.wire.pending.length ∧ count ≤ blockSize T dataSize

end Run

section Decrypt

variable {P : Prims} {env : Env P} {s : RaContext P} {msg3 : Msg3 P.Val} (size dataSize : Nat)

def reads {α : Type} (effect : Effect (RaContext P) TeeError Event α) : List Access :=
  effect.log.flatMap (accessesOf size)

end Decrypt

section Guest

variable {P : Prims}

-- `decrypt_msg3` dumps the data only, which is in the guest's memory.
def PrintsData : Event → Prop
  | .print region _ _ => region = .data
  | _ => True

instance quiet_printsData : Event.Quiet PrintsData :=
  ⟨fun _ _ _ => trivial, fun _ => trivial, fun _ => trivial, fun _ => trivial⟩

end Guest

section Receive

variable {P : Prims} {env : Env P} {s : RaContext P} (size dataSize : Nat)

-- The context that `decrypt_msg3` starts from.
def filled (dataSize : Nat) (env : Env P) (s : RaContext P) : RaContext P :=
  withMsg3 env (msg3BlockSize P dataSize) (withBlock (msg3BlockSize P dataSize) s)

-- What the debug builds print of a message that they have received.
def dumped (env : Env P) : List Access :=
  if env.debug then
    [.printed 0 30, .printed 0 RA_AES_GCM_IV_SIZE,
      .printed RA_AES_GCM_IV_SIZE (RA_AES_GCM_TAG_SIZE / 8), .header 48 8,
      .printed P.sizeofMsg3 50, .printed 0 (P.sizeofMsg3 + 50), .header 48 8]
  else []

end Receive

section Received

variable {env : Env (prims T)} {dataSize : Nat}

end Received

section Result

variable (dataSize : Nat) (env : Env (prims T)) (s : RaContext (prims T))

theorem Sent.mono {dataSize : Nat} {env : Env (prims T)} {count other : Nat}
    (h : Sent dataSize env count) (hle : other ≤ count) : Sent dataSize env other :=
  ⟨le_trans hle h.1, le_trans hle h.2⟩

section Decrypts

variable {dataSize : Nat} {env : Env (prims T)} {s : RaContext (prims T)} {msg3 : Msg3 (List UInt8)}

end Decrypts

end Result

section Example

open Sample

end Example

end Watz.Hostile
