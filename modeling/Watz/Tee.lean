import Watz.Base.Prog
import Watz.Messages

namespace Watz

open Base

inductive TeeError where
  | generic
  | shortBuffer
  | security
  | communication
  | badParameters
  | macInvalid
  | signatureInvalid
  | outOfMemory
  | targetDead
  | other (code : Nat)
  deriving DecidableEq, Repr

def TEE_PARAM_TYPE_NONE : Nat := 0
def TEE_PARAM_TYPE_VALUE_INPUT : Nat := 1
def TEE_PARAM_TYPE_VALUE_OUTPUT : Nat := 2
def TEE_PARAM_TYPE_MEMREF_INPUT : Nat := 5
def TEE_PARAM_TYPE_MEMREF_OUTPUT : Nat := 6
def TEE_PARAM_TYPE_MEMREF_INOUT : Nat := 7

-- `TEE_PARAM_TYPES` packs four types of four bits each.
def TEE_PARAM_TYPES (t0 t1 t2 t3 : Nat) : Nat :=
  t0 ||| (t1 <<< 4) ||| (t2 <<< 8) ||| (t3 <<< 12)

-- The functions of `verifier.c`, `remote_attestation.c` and their callers that make calls
-- with a result. `deriveSharedMacKey` runs twice in one command, once for each label.
inductive Fn where
  | configureCustomSecret
  | generateEcdhKeypair
  | generateEcdsaKeypair
  | importAttesterAttestationKey
  | populateAttesterKey
  | deriveSharedKey
  | deriveMacKey
  | deriveSessionKey
  | appendEcdhPublicKeysSignature
  | appendMac
  | verifyMacMsg2
  | verifyQuoteSignature
  | verifyAnchor
  | encryptMsg3
  | establishTcpConnection
  | sendMsg0
  | receiveMsg1
  | importVerifierAttestationKey
  | verifyEcdhPublicKeySignature
  | verifyMsg1Mac
  | generateAnchor
  | prepareMsg2
  | sendMsg2
  | allocateMsg3
  | receiveMsg3
  | decryptMsg3
  deriving DecidableEq, Repr

-- The coordinates of the stored messages.
inductive Field where
  | msg0X
  | msg0Y
  | msg1EcdhX
  | msg1EcdhY
  | msg1EcdsaX
  | msg1EcdsaY
  | msg2X
  | msg2Y
  deriving DecidableEq, Repr

-- The variables that hold handles or heap blocks: context fields and locals of a function.
inductive Slot where
  | secret
  | ecdsaAttesterPublicKey
  | ecdhAttesterPublicKey
  | ecdsaLocalKeypair
  | ecdhLocalKeypair
  | sharedKeyDerivationKey
  | sharedMacKey
  | sharedSessionKey
  | ecdsaVerifierPublicKey
  | ecdhRemotePublicKey (fn : Fn)
  | msg3
  | socket
  | operation (fn : Fn)
  | sharedSecret (fn : Fn)
  | aesKey (fn : Fn)
  -- the block of `util_dump_object_attribute`, called from a function
  | attribute (fn : Fn)
  deriving DecidableEq, Repr

-- The memory blocks that received or produced bytes are stored to.
inductive Region where
  | shared
  | msg1
  | msg3
  | data
  deriving DecidableEq, Repr

-- What an observer of the trusted application sees it do. `use` is one use of a coordinate
-- as `(raw, size)`: a digest or MAC update, a comparison, an attribute reference or a dump.
-- `print` is a dump of part of a block by `utils_print_byte_array`, `read` a number for a log line.
inductive Event where
  | call (fn : Fn) (index : Nat) (result : Option TeeError)
  | use (field : Field) (size : Nat)
  | enter (fn : Fn)
  | alloc (slot : Slot)
  | free (slot : Slot)
  | store (region : Region) (offset length : Nat)
  | print (region : Region) (offset length : Nat)
  | read (region : Region) (offset length : Nat)
  deriving DecidableEq, Repr

-- Allows everything but uses of coordinates, stores, dumps and reads, which it may restrict.
class Event.Quiet (allowed : Event → Prop) : Prop where
  call : ∀ fn index result, allowed (.call fn index result)
  enter : ∀ fn, allowed (.enter fn)
  alloc : ∀ slot, allowed (.alloc slot)
  free : ∀ slot, allowed (.free slot)

-- The value domain of the protocol: what memory ranges hold and what the TEE computes from
-- them. The code below is written once over it. Its two instances are byte strings and the
-- terms of a symbolic attacker model.
structure Prims where
  Coord : Type
  Val : Type
  Quote : Type
  Buf : Type
  Wire : Type
  Ecdh : Type
  Ecdsa : Type
  decEqVal : DecidableEq Val
  -- contents of freshly zeroed memory
  zeroCoord : Coord
  zeroVal : Val
  zeroQuote : Quote
  lit : List UInt8 → Val
  len : Val → Nat
  -- a coordinate: its size field (`resized` sets it to the length of the raw array), what
  -- the range holds, and what it holds with `adjacent` behind it when it is longer
  size : Coord → Nat
  resized : Coord → Coord
  val : Coord → Val
  overrun : Coord → Val → Val
  same : Coord → Coord → Bool
  copy : Coord → Coord
  rawEq : Val → Coord → Bool
  -- the quote: the fields that the attestation service signs, its signature, all its bytes
  anchor : Quote → Val
  version : Quote → Val
  claimHash : Quote → Val
  attestationKey : Quote → Val
  signature : Quote → Val
  quoteBytes : Quote → Val
  -- buffers shared with the normal world and the attester's incoming stream
  bufSize : Buf → Nat
  bufVal : Buf → Val
  sizeofMsg0 : Nat
  sizeofMsg1 : Nat
  sizeofMsg2 : Nat
  sizeofMsg3 : Nat
  getMsg0 : Buf → Msg0 Coord
  getMsg2 : Buf → Msg2 Coord Quote Val
  putMsg1 : Msg1 Coord Val → Buf → Buf
  putMsg3 : Msg3 Val → Buf → Buf
  recvMsg1 : Wire → Option (Msg1 Coord Val)
  recvMsg3 : Wire → Nat → Msg3 Val
  recvCount3 : Wire → Nat → Nat
  -- the stores, as offset and length, that the receive loop makes for each of them
  recvStores1 : Wire → List (Nat × Nat)
  recvStores3 : Wire → Nat → List (Nat × Nat)
  -- the algorithms of the TEE
  sha256 : List Val → Val
  cmac : Val → List Val → Val
  pubX : Ecdh → Val
  pubY : Ecdh → Val
  exportX : Ecdh → Coord → Coord
  exportY : Ecdh → Coord → Coord
  ecdh : Ecdh → Val → Val → Option Val
  exportVerifyX : Ecdsa → Coord → Coord
  exportVerifyY : Ecdsa → Coord → Coord
  sign : Ecdsa → Nat → Val → Val
  verify : Val → Val → Val → Val → Bool
  gcmEncrypt : Val → Val → Val → Val × Val
  gcmDecrypt : Val → Val → Val → Val → Option Val
  -- an exported coordinate fits its array and holds the public value
  size_exportX : ∀ key old, size (exportX key old) ≤ RA_ECDH_KEY_SIZE / 8
  size_exportY : ∀ key old, size (exportY key old) ≤ RA_ECDH_KEY_SIZE / 8
  val_exportX : ∀ key old, val (exportX key old) = pubX key
  val_exportY : ∀ key old, val (exportY key old) = pubY key
  size_exportVerifyX : ∀ key old, size (exportVerifyX key old) ≤ RA_ECDSA_KEY_SIZE / 8
  size_exportVerifyY : ∀ key old, size (exportVerifyY key old) ≤ RA_ECDSA_KEY_SIZE / 8
  size_zeroCoord : size zeroCoord ≤ RA_ECDH_KEY_SIZE / 8
  size_resized : ∀ c, size (resized c) ≤ RA_ECDH_KEY_SIZE / 8
  -- a copy of a coordinate that fits its array holds the same value
  size_copy : ∀ c, size (copy c) = size c
  val_copy : ∀ c, size c ≤ RA_ECDH_KEY_SIZE / 8 → val (copy c) = val c
  same_copy : ∀ c, size c ≤ RA_ECDH_KEY_SIZE / 8 → same c (copy c) = true

instance (P : Prims) : DecidableEq P.Val := P.decEqVal

def Prims.read (P : Prims) (c : P.Coord) (adjacent : P.Val) : P.Val :=
  if P.size c ≤ RA_ECDH_KEY_SIZE / 8 then P.val c else P.overrun c adjacent

theorem Prims.read_of_le (P : Prims) {c : P.Coord} (h : P.size c ≤ RA_ECDH_KEY_SIZE / 8)
    (adjacent : P.Val) : P.read c adjacent = P.val c := by
  simp only [Prims.read, h, ite_true]

@[simp] theorem Prims.read_exportX (P : Prims) (key : P.Ecdh) (old : P.Coord) (adjacent : P.Val) :
    P.read (P.exportX key old) adjacent = P.pubX key := by
  rw [P.read_of_le (P.size_exportX key old), P.val_exportX]

@[simp] theorem Prims.read_exportY (P : Prims) (key : P.Ecdh) (old : P.Coord) (adjacent : P.Val) :
    P.read (P.exportY key old) adjacent = P.pubY key := by
  rw [P.read_of_le (P.size_exportY key old), P.val_exportY]

-- Everything an invocation does not decide itself: the results of the TEE calls, the keys
-- and random values drawn, the bytes received, and the memory behind each coordinate.
-- Each call site runs at most once in an invocation, so `faults` covers every outcome. A dump that
-- gets no block for its text faults there, which no field decides: such a run returns nothing.
structure Env (P : Prims) where
  faults : Fn → Nat → Option TeeError
  ecdhKey : P.Ecdh
  ecdsaKey : P.Ecdsa
  random : Nat
  iv : P.Val
  wire : P.Wire
  adjacent : Field → P.Val
  overCompare : Field → Bool
  -- the build defines `DEBUG_MESSAGE`, as it does at the default log level
  debug : Bool

def Env.NoFaults {P : Prims} (env : Env P) : Prop := ∀ fn index, env.faults fn index = none

-- The first `count` calls that a function makes all work.
def Env.Works {P : Prims} (env : Env P) (fn : Fn) (count : Nat) : Prop :=
  ∀ index < count, env.faults fn index = none

theorem Env.works_zero {P : Prims} (env : Env P) (fn : Fn) : env.Works fn 0 :=
  fun _ h => absurd h (Nat.not_lt_zero _)

theorem Env.works_succ {P : Prims} (env : Env P) (fn : Fn) (count : Nat) :
    env.Works fn (count + 1) ↔ env.Works fn count ∧ env.faults fn count = none :=
  Nat.forall_lt_succ_right

theorem Env.NoFaults.works {P : Prims} {env : Env P} (h : env.NoFaults) (fn : Fn) (count : Nat) :
    env.Works fn count :=
  fun index _ => h fn index

-- What becomes of the block that a dump asks for: in a build with dumps it is freed when the
-- attribute can be read into it, and it stays live when not.
inductive Dump where
  | none
  | released
  | leaked
  deriving DecidableEq, Repr

def Env.dump {P : Prims} (env : Env P) (fn : Fn) (index : Nat) : Dump :=
  if env.debug = true ∧ env.faults fn index = none then
    if env.faults fn (index + 1) = none then .released else .leaked
  else .none

-- The result of the second call: without a block the attribute has no room.
def Env.dumpResult {P : Prims} (env : Env P) (fn : Fn) (index : Nat) : Option TeeError :=
  (env.faults fn (index + 1)).or
    (if (env.faults fn index).isNone then none else some .shortBuffer)

def Env.dumpLog {P : Prims} (env : Env P) (fn : Fn) (index : Nat) : List Event :=
  if env.debug then
    (if (env.faults fn index).isNone then [.alloc (.attribute fn)] else []) ++
      .call fn (index + 1) (env.dumpResult fn index) ::
        if (env.dumpResult fn index).isNone then [.free (.attribute fn)] else []
  else []

-- A dump, if there is one, gets its block and the attribute.
def Env.DumpWorks {P : Prims} (env : Env P) (fn : Fn) (index : Nat) : Prop :=
  env.debug = true → env.faults fn index = none ∧ env.faults fn (index + 1) = none

-- A dump that gets its block gets the attribute.
def Env.DumpReleases {P : Prims} (env : Env P) (fn : Fn) (index : Nat) : Prop :=
  env.debug = true → env.faults fn index = none → env.faults fn (index + 1) = none

theorem Env.dump_ne_leaked_iff {P : Prims} (env : Env P) (fn : Fn) (index : Nat) :
    env.dump fn index ≠ .leaked ↔ env.DumpReleases fn index := by
  unfold Env.dump Env.DumpReleases
  split
  case isTrue h =>
    obtain ⟨hdebug, hgranted⟩ := h
    cases hread : env.faults fn (index + 1) <;> simp [hdebug, hgranted]
  case isFalse h =>
    simp only [ne_eq, reduceCtorEq, not_false_eq_true, true_iff]
    intro hdebug hgranted
    exact absurd ⟨hdebug, hgranted⟩ h

-- A handle: `TEE_HANDLE_NULL`, an object without contents, or an object that holds a key.
inductive Obj (α : Type) where
  | null
  | empty
  | key (value : α)
  deriving DecidableEq, Repr

def Obj.key? {α : Type} : Obj α → Option α
  | null => none
  | empty => none
  | key value => some value

@[simp] theorem Obj.key?_eq_some {α : Type} (obj : Obj α) (value : α) :
    obj.key? = some value ↔ obj = .key value := by
  cases obj <;> simp [Obj.key?]

abbrev TeeM (P : Prims) (σ α : Type) : Type := Prog (Env P) σ TeeError Event α

namespace Tee

variable {P : Prims} {σ α : Type}

-- A call that works unless the environment says otherwise.
def tee (fn : Fn) (index : Nat) : TeeM P σ Unit :=
  Prog.call (fun env => env.faults fn index) (Event.call fn index)

-- A call that also reports `code` when its data does not pass.
def teeCheck (fn : Fn) (index : Nat) (passes : Bool) (code : TeeError) : TeeM P σ Unit :=
  Prog.call (fun env => (env.faults fn index).or (if passes then none else some code))
    (Event.call fn index)

def allocate (fn : Fn) (index : Nat) (slot : Slot) : TeeM P σ Unit := do
  tee fn index
  Prog.emit [.alloc slot]

-- Without a key object the next use of the operation panics.
def setOperationKey (fn : Fn) (index : Nat) (obj : Obj α) : TeeM P σ α := do
  tee fn index
  Prog.orPanic obj.key?

-- `TEE_Malloc` whose result is used unchecked: the null pointer faults at its first use.
def mallocUnchecked (fn : Fn) (index : Nat) (slot : Slot) : TeeM P σ Unit := do
  let env ← Prog.ask
  Prog.orPanic (if env.faults fn index = none then some () else none)
  Prog.emit [.alloc slot]

def stores (region : Region) (ranges : List (Nat × Nat)) : TeeM P σ Unit :=
  Prog.emit (ranges.map fun range => .store region range.1 range.2)

def readCoord (field : Field) (c : P.Coord) : TeeM P σ P.Val := do
  let env ← Prog.ask
  Prog.emit [.use field (P.size c)]
  pure (P.read c (env.adjacent field))

def initRefAttribute (field : Field) (c : P.Coord) : TeeM P σ Unit :=
  Prog.emit [.use field (P.size c)]

-- `TEE_MemCompare` of two raw arrays over the size field of the first.
def memCompare (field : Field) (c : P.Coord) (other : Field) (d : P.Coord) : TeeM P σ Bool := do
  let env ← Prog.ask
  Prog.emit [.use field (P.size c), .use other (P.size c)]
  pure (if P.size c ≤ RA_ECDH_KEY_SIZE / 8 then P.same c d else env.overCompare field)

-- `utils_print_byte_array` of a coordinate, in builds with `DEBUG_MESSAGE`.
def dump (field : Field) (c : P.Coord) : TeeM P σ Unit := do
  let env ← Prog.ask
  Prog.emit (if env.debug then [.use field (P.size c)] else [])

-- The other dumps and log lines of these builds, where they read a block that holds messages.
def print (region : Region) (offset length : Nat) : TeeM P σ Unit := do
  let env ← Prog.ask
  Prog.emit (if env.debug then [.print region offset length] else [])

def logRead (region : Region) (offset length : Nat) : TeeM P σ Unit := do
  let env ← Prog.ask
  Prog.emit (if env.debug then [.read region offset length] else [])

-- `util_dump_object_attribute`, whose two calls continue the numbers of its caller's. The failure
-- of the second call is only printed, and what `TEE_Malloc` gave is then not freed.
def dumpObjectAttribute (fn : Fn) (index : Nat) : TeeM P σ Unit := do
  let env ← Prog.ask
  if env.debug then
    let granted := (env.faults fn index).isNone
    Prog.emit (if granted then [.alloc (.attribute fn)] else [])
    Prog.ignoreFail do
      teeCheck fn (index + 1) granted .shortBuffer
      Prog.emit [.free (.attribute fn)]

-- The lengths that the TEE reports for a SHA-256 digest, a P-256 signature and a CMAC tag.
def sha256Len : Nat := 32
def p256SignatureLen : Nat := 64
def cmacLen : Nat := 16

section Keeps

variable {γ : Type} {view : σ → γ}

@[simp] theorem keeps_tee (fn : Fn) (index : Nat) :
    Prog.Keeps view (tee fn index : TeeM P σ Unit) := by
  simp [tee]

@[simp] theorem keeps_teeCheck (fn : Fn) (index : Nat) (passes : Bool) (code : TeeError) :
    Prog.Keeps view (teeCheck fn index passes code : TeeM P σ Unit) := by
  simp [teeCheck]

@[simp] theorem keeps_allocate (fn : Fn) (index : Nat) (slot : Slot) :
    Prog.Keeps view (allocate fn index slot : TeeM P σ Unit) := by
  simp [allocate]

@[simp] theorem keeps_setOperationKey (fn : Fn) (index : Nat) (obj : Obj α) :
    Prog.Keeps view (setOperationKey fn index obj : TeeM P σ α) := by
  simp [setOperationKey]

@[simp] theorem keeps_mallocUnchecked (fn : Fn) (index : Nat) (slot : Slot) :
    Prog.Keeps view (mallocUnchecked fn index slot : TeeM P σ Unit) := by
  simp [mallocUnchecked]

@[simp] theorem keeps_stores (region : Region) (ranges : List (Nat × Nat)) :
    Prog.Keeps view (stores region ranges : TeeM P σ Unit) := by
  simp [stores]

@[simp] theorem keeps_readCoord (field : Field) (c : P.Coord) :
    Prog.Keeps view (readCoord field c : TeeM P σ P.Val) := by
  simp [readCoord]

@[simp] theorem keeps_initRefAttribute (field : Field) (c : P.Coord) :
    Prog.Keeps view (initRefAttribute field c : TeeM P σ Unit) := by
  simp [initRefAttribute]

@[simp] theorem keeps_memCompare (field : Field) (c : P.Coord) (other : Field) (d : P.Coord) :
    Prog.Keeps view (memCompare field c other d : TeeM P σ Bool) := by
  simp [memCompare]

@[simp] theorem keeps_dump (field : Field) (c : P.Coord) :
    Prog.Keeps view (dump field c : TeeM P σ Unit) := by
  simp [dump]

@[simp] theorem keeps_print (region : Region) (offset length : Nat) :
    Prog.Keeps view (print region offset length : TeeM P σ Unit) := by
  simp [print]

@[simp] theorem keeps_logRead (region : Region) (offset length : Nat) :
    Prog.Keeps view (logRead region offset length : TeeM P σ Unit) := by
  simp [logRead]

@[simp] theorem keeps_dumpObjectAttribute (fn : Fn) (index : Nat) :
    Prog.Keeps view (dumpObjectAttribute fn index : TeeM P σ Unit) := by
  refine Prog.Keeps.ask.bind fun env => Prog.Keeps.ite ?_ (Prog.Keeps.pure ())
  refine (Prog.Keeps.emit _).bind fun _ => Prog.Keeps.ignoreFail ?_
  exact (keeps_teeCheck _ _ _ _).bind fun _ => Prog.Keeps.emit _

end Keeps

section Confined

variable {inv : σ → Prop} {allowed : Event → Prop} [quiet : Event.Quiet allowed]

@[simp] theorem confined_tee (fn : Fn) (index : Nat) :
    Prog.Confined inv allowed (tee fn index : TeeM P σ Unit) :=
  Prog.Confined.call (quiet.call fn index)

@[simp] theorem confined_teeCheck (fn : Fn) (index : Nat) (passes : Bool) (code : TeeError) :
    Prog.Confined inv allowed (teeCheck fn index passes code : TeeM P σ Unit) :=
  Prog.Confined.call (quiet.call fn index)

@[simp] theorem confined_allocate (fn : Fn) (index : Nat) (slot : Slot) :
    Prog.Confined inv allowed (allocate fn index slot : TeeM P σ Unit) :=
  (confined_tee fn index).bind fun _ => Prog.Confined.emit (by simpa using quiet.alloc slot)

@[simp] theorem confined_setOperationKey (fn : Fn) (index : Nat) (obj : Obj α) :
    Prog.Confined inv allowed (setOperationKey fn index obj : TeeM P σ α) :=
  (confined_tee fn index).bind fun _ => Prog.Confined.orPanic _

@[simp] theorem confined_mallocUnchecked (fn : Fn) (index : Nat) (slot : Slot) :
    Prog.Confined inv allowed (mallocUnchecked fn index slot : TeeM P σ Unit) :=
  Prog.Confined.ask.bind fun _ => (Prog.Confined.orPanic _).bind fun _ =>
    Prog.Confined.emit (by simpa using quiet.alloc slot)

@[simp] theorem confined_dumpObjectAttribute (fn : Fn) (index : Nat) :
    Prog.Confined inv allowed (dumpObjectAttribute fn index : TeeM P σ Unit) := by
  refine Prog.Confined.ask.bind fun env => Prog.Confined.ite ?_ (Prog.Confined.pure ())
  refine Prog.Confined.bind (Prog.Confined.emit ?_) fun _ => Prog.Confined.ignoreFail ?_
  · cases (env.faults fn index).isNone with
    | false => simp
    | true => simpa using quiet.alloc (.attribute fn)
  · exact (confined_teeCheck _ _ _ _).bind fun _ =>
      Prog.Confined.emit (by simpa using quiet.free (.attribute fn))

@[simp] theorem confined_enter (fn : Fn) :
    Prog.Confined inv allowed (Prog.emit [.enter fn] : TeeM P σ Unit) :=
  Prog.Confined.emit (by simpa using quiet.enter fn)

end Confined

section ConfinedUses

variable {inv : σ → Prop} {allowed : Event → Prop}

@[simp] theorem confined_stores {region : Region} {ranges : List (Nat × Nat)}
    (h : ∀ range ∈ ranges, allowed (.store region range.1 range.2)) :
    Prog.Confined inv allowed (stores region ranges : TeeM P σ Unit) := by
  refine Prog.Confined.emit ?_
  intro event he
  obtain ⟨range, hrange, rfl⟩ := List.mem_map.mp he
  exact h range hrange

@[simp] theorem confined_readCoord {field : Field} {c : P.Coord}
    (h : allowed (.use field (P.size c))) :
    Prog.Confined inv allowed (readCoord field c : TeeM P σ P.Val) :=
  Prog.Confined.ask.bind fun _ => (Prog.Confined.emit (by simpa using h)).bind fun _ =>
    Prog.Confined.pure _

@[simp] theorem confined_initRefAttribute {field : Field} {c : P.Coord}
    (h : allowed (.use field (P.size c))) :
    Prog.Confined inv allowed (initRefAttribute field c : TeeM P σ Unit) :=
  Prog.Confined.emit (by simpa using h)

@[simp] theorem confined_memCompare {field other : Field} {c d : P.Coord}
    (h : allowed (.use field (P.size c))) (h' : allowed (.use other (P.size c))) :
    Prog.Confined inv allowed (memCompare field c other d : TeeM P σ Bool) :=
  Prog.Confined.ask.bind fun _ => (Prog.Confined.emit (by simpa using ⟨h, h'⟩)).bind fun _ =>
    Prog.Confined.pure _

@[simp] theorem confined_dump {field : Field} {c : P.Coord} (h : allowed (.use field (P.size c))) :
    Prog.Confined inv allowed (dump field c : TeeM P σ Unit) := by
  refine Prog.Confined.ask.bind fun env => Prog.Confined.emit ?_
  cases env.debug with
  | false => simp
  | true => simpa using h

@[simp] theorem confined_print {region : Region} {offset length : Nat}
    (h : allowed (.print region offset length)) :
    Prog.Confined inv allowed (print region offset length : TeeM P σ Unit) := by
  refine Prog.Confined.ask.bind fun env => Prog.Confined.emit ?_
  cases env.debug with
  | false => simp
  | true => simpa using h

@[simp] theorem confined_logRead {region : Region} {offset length : Nat}
    (h : allowed (.read region offset length)) :
    Prog.Confined inv allowed (logRead region offset length : TeeM P σ Unit) := by
  refine Prog.Confined.ask.bind fun env => Prog.Confined.emit ?_
  cases env.debug with
  | false => simp
  | true => simpa using h

end ConfinedUses

section Returns

variable {inv : σ → Prop}

theorem returns_tee (fn : Fn) (index : Nat) :
    Prog.Returns inv (tee fn index : TeeM P σ Unit) :=
  Prog.Returns.call _ _

theorem returns_teeCheck (fn : Fn) (index : Nat) (passes : Bool) (code : TeeError) :
    Prog.Returns inv (teeCheck fn index passes code : TeeM P σ Unit) :=
  Prog.Returns.call _ _

theorem returns_allocate (fn : Fn) (index : Nat) (slot : Slot) :
    Prog.Returns inv (allocate fn index slot : TeeM P σ Unit) :=
  (returns_tee fn index).bind fun _ => Prog.Returns.emit _

theorem returns_setOperationKey (fn : Fn) (index : Nat) {obj : Obj α}
    (h : ∃ value, obj = .key value) :
    Prog.Returns inv (setOperationKey fn index obj : TeeM P σ α) := by
  obtain ⟨value, rfl⟩ := h
  exact (returns_tee fn index).bind fun _ => Prog.Returns.orPanic (by simp [Obj.key?])

theorem returns_readCoord (field : Field) (c : P.Coord) :
    Prog.Returns inv (readCoord field c : TeeM P σ P.Val) :=
  Prog.Returns.ask.bind fun _ => (Prog.Returns.emit _).bind fun _ => Prog.Returns.pure _

theorem returns_memCompare (field : Field) (c : P.Coord) (other : Field) (d : P.Coord) :
    Prog.Returns inv (memCompare field c other d : TeeM P σ Bool) :=
  Prog.Returns.ask.bind fun _ => (Prog.Returns.emit _).bind fun _ => Prog.Returns.pure _

end Returns

section State

variable (env : Env P) (s : σ)

@[simp] theorem tee_state (fn : Fn) (index : Nat) :
    ((tee fn index : TeeM P σ Unit) env s).state = s :=
  Prog.state_of_keeps (keeps_tee fn index) env s

@[simp] theorem teeCheck_state (fn : Fn) (index : Nat) (passes : Bool) (code : TeeError) :
    ((teeCheck fn index passes code : TeeM P σ Unit) env s).state = s :=
  Prog.state_of_keeps (keeps_teeCheck fn index passes code) env s

@[simp] theorem allocate_state (fn : Fn) (index : Nat) (slot : Slot) :
    ((allocate fn index slot : TeeM P σ Unit) env s).state = s :=
  Prog.state_of_keeps (keeps_allocate fn index slot) env s

@[simp] theorem setOperationKey_state (fn : Fn) (index : Nat) (obj : Obj α) :
    ((setOperationKey fn index obj : TeeM P σ α) env s).state = s :=
  Prog.state_of_keeps (keeps_setOperationKey fn index obj) env s

@[simp] theorem mallocUnchecked_state (fn : Fn) (index : Nat) (slot : Slot) :
    ((mallocUnchecked fn index slot : TeeM P σ Unit) env s).state = s :=
  Prog.state_of_keeps (keeps_mallocUnchecked fn index slot) env s

@[simp] theorem stores_state (region : Region) (ranges : List (Nat × Nat)) :
    ((stores region ranges : TeeM P σ Unit) env s).state = s := rfl

@[simp] theorem readCoord_state (field : Field) (c : P.Coord) :
    ((readCoord field c : TeeM P σ P.Val) env s).state = s := rfl

@[simp] theorem initRefAttribute_state (field : Field) (c : P.Coord) :
    ((initRefAttribute field c : TeeM P σ Unit) env s).state = s := rfl

@[simp] theorem memCompare_state (field : Field) (c : P.Coord) (other : Field) (d : P.Coord) :
    ((memCompare field c other d : TeeM P σ Bool) env s).state = s := rfl

@[simp] theorem dump_state (field : Field) (c : P.Coord) :
    ((dump field c : TeeM P σ Unit) env s).state = s := rfl

@[simp] theorem print_state (region : Region) (offset length : Nat) :
    ((print region offset length : TeeM P σ Unit) env s).state = s := rfl

@[simp] theorem logRead_state (region : Region) (offset length : Nat) :
    ((logRead region offset length : TeeM P σ Unit) env s).state = s := rfl

@[simp] theorem dumpObjectAttribute_state (fn : Fn) (index : Nat) :
    ((dumpObjectAttribute fn index : TeeM P σ Unit) env s).state = s :=
  Prog.state_of_keeps (keeps_dumpObjectAttribute fn index) env s

end State

section Outcome

variable (env : Env P) (s : σ)

theorem tee_run {fn : Fn} {index : Nat} (h : env.faults fn index = none) :
    (tee fn index : TeeM P σ Unit) env s = ⟨.ok (), s, [.call fn index none]⟩ := by
  simp only [tee, Prog.call, h]

@[simp] theorem tee_out_ok (fn : Fn) (index : Nat) :
    ((tee fn index : TeeM P σ Unit) env s).out = .ok () ↔ env.faults fn index = none := by
  simp [tee]

@[simp] theorem teeCheck_out_ok (fn : Fn) (index : Nat) (passes : Bool) (code : TeeError) :
    ((teeCheck fn index passes code : TeeM P σ Unit) env s).out = .ok () ↔
      env.faults fn index = none ∧ passes = true := by
  cases passes <;> simp [teeCheck]

@[simp] theorem allocate_out_ok (fn : Fn) (index : Nat) (slot : Slot) :
    ((allocate fn index slot : TeeM P σ Unit) env s).out = .ok () ↔
      env.faults fn index = none := by
  simp [allocate, Prog.out_bind_ok]

@[simp] theorem setOperationKey_out_ok (fn : Fn) (index : Nat) (obj : Obj α) (value : α) :
    ((setOperationKey fn index obj : TeeM P σ α) env s).out = .ok value ↔
      env.faults fn index = none ∧ obj = .key value := by
  simp [setOperationKey, Prog.out_bind_ok]

@[simp] theorem mallocUnchecked_out_ok (fn : Fn) (index : Nat) (slot : Slot) :
    ((mallocUnchecked fn index slot : TeeM P σ Unit) env s).out = .ok () ↔
      env.faults fn index = none := by
  simp [mallocUnchecked, Prog.out_bind_ok]

@[simp] theorem stores_out (region : Region) (ranges : List (Nat × Nat)) :
    ((stores region ranges : TeeM P σ Unit) env s).out = .ok () := rfl

@[simp] theorem readCoord_out (field : Field) (c : P.Coord) :
    ((readCoord field c : TeeM P σ P.Val) env s).out = .ok (P.read c (env.adjacent field)) := rfl

@[simp] theorem initRefAttribute_out (field : Field) (c : P.Coord) :
    ((initRefAttribute field c : TeeM P σ Unit) env s).out = .ok () := rfl

@[simp] theorem memCompare_out (field : Field) (c : P.Coord) (other : Field) (d : P.Coord) :
    ((memCompare field c other d : TeeM P σ Bool) env s).out =
      .ok (if P.size c ≤ RA_ECDH_KEY_SIZE / 8 then P.same c d else env.overCompare field) := rfl

@[simp] theorem dump_out (field : Field) (c : P.Coord) :
    ((dump field c : TeeM P σ Unit) env s).out = .ok () := rfl

@[simp] theorem print_out (region : Region) (offset length : Nat) :
    ((print region offset length : TeeM P σ Unit) env s).out = .ok () := rfl

@[simp] theorem logRead_out (region : Region) (offset length : Nat) :
    ((logRead region offset length : TeeM P σ Unit) env s).out = .ok () := rfl

-- A dump fails without its caller noticing.
theorem dumpObjectAttribute_run (fn : Fn) (index : Nat) :
    (dumpObjectAttribute fn index : TeeM P σ Unit) env s =
      ⟨.ok (), s, env.dumpLog fn index⟩ := by
  cases hdebug : env.debug with
  | false => simp [dumpObjectAttribute, Env.dumpLog, Prog.bind_run, Prog.andThen, hdebug]
  | true =>
      cases hgranted : env.faults fn index <;> cases hread : env.faults fn (index + 1) <;>
        simp [dumpObjectAttribute, Env.dumpLog, Env.dumpResult, teeCheck, Prog.call,
          Prog.ignoreFail, Prog.bind_run, Prog.andThen, hdebug, hgranted, hread]

@[simp] theorem dumpObjectAttribute_out (fn : Fn) (index : Nat) :
    ((dumpObjectAttribute fn index : TeeM P σ Unit) env s).out = .ok () := by
  rw [dumpObjectAttribute_run]

end Outcome

end Tee

end Watz
