import Watz.Tee

namespace Watz

open Base Tee

-- The handles that `derive_shared_key` releases at its label `out`.
def deriveSharedKeyCleanup : List Event :=
  [.free (.aesKey .deriveSharedKey), .free (.operation .deriveSharedKey),
    .free (.sharedSecret .deriveSharedKey)]

def cmacZeroKey : List UInt8 := List.replicate (RA_AES_CMAC_KEY_SIZE / 8) 0

-- Both applications have the two functions below. This is what they read and set in the context
-- of one of them: its own key pair, the other's public key and the key derivation key.
structure Derivation (P : Prims) (σ : Type) where
  keypair : σ → Obj P.Ecdh
  fieldX : Field
  fieldY : Field
  peerX : σ → P.Coord
  peerY : σ → P.Coord
  kdk : σ → Obj P.Val
  storeKdk : Obj P.Val → σ → σ

namespace Derivation

variable {P : Prims} {σ γ : Type} (d : Derivation P σ)

-- The attributes refer to the raw arrays of the peer's key, which `TEE_DeriveKey` reads again.
def deriveSharedKey : TeeM P σ Unit := do
  Prog.emit [.enter .deriveSharedKey]
  let s ← Prog.get
  let keypair ← Prog.onFail deriveSharedKeyCleanup do
    allocate .deriveSharedKey 0 (.operation .deriveSharedKey)
    let keypair ← setOperationKey .deriveSharedKey 1 (d.keypair s)
    allocate .deriveSharedKey 2 (.sharedSecret .deriveSharedKey)
    pure keypair
  let x ← readCoord d.fieldX (d.peerX s)
  let y ← readCoord d.fieldY (d.peerY s)
  let sharedSecret ← Prog.orPanic (P.ecdh keypair x y)
  -- a failure here returns without the cleanup
  tee .deriveSharedKey 3
  Prog.onFail deriveSharedKeyCleanup do
    allocate .deriveSharedKey 4 (.aesKey .deriveSharedKey)
    tee .deriveSharedKey 5
    allocate .deriveSharedKey 6 (.operation .deriveSharedKey)
    tee .deriveSharedKey 7
    tee .deriveSharedKey 8
    allocate .deriveSharedKey 9 .sharedKeyDerivationKey
    Prog.modify (d.storeKdk .empty)
    tee .deriveSharedKey 10
    Prog.modify (d.storeKdk (.key (P.cmac (P.lit cmacZeroKey) [sharedSecret])))
    dumpObjectAttribute .deriveSharedKey 11
  Prog.emit deriveSharedKeyCleanup

-- `derive_shared_mac_key(ctx, data, data_length, output_key)`: `slot` and `store` are the
-- context field that `output_key` points to.
def deriveSharedMacKey (fn : Fn) (data : List UInt8) (slot : Slot) (store : Obj P.Val → σ → σ) :
    TeeM P σ Unit := do
  Prog.emit [.enter fn]
  let s ← Prog.get
  let cleanup : List Event := [.free (.operation fn), .free (.aesKey fn)]
  Prog.onFail cleanup do
    allocate fn 0 (.aesKey fn)
    tee fn 1
    let sharedSecret ← Prog.orPanic (d.kdk s).key?
    tee fn 2
    allocate fn 3 (.operation fn)
    tee fn 4
    tee fn 5
    allocate fn 6 slot
    Prog.modify (store .empty)
    tee fn 7
    Prog.modify (store (.key (P.cmac sharedSecret [P.lit data])))
    dumpObjectAttribute fn 8
  Prog.emit cleanup

-- The shared secret of a key pair and the peer's public key.
def agreed (env : Env P) (key : P.Ecdh) (s : σ) : Option P.Val :=
  P.ecdh key (P.read (d.peerX s) (env.adjacent d.fieldX))
    (P.read (d.peerY s) (env.adjacent d.fieldY))

section Keeps

variable {view : σ → γ}

theorem keeps_deriveSharedKey (hstore : ∀ obj s, view (d.storeKdk obj s) = view s) :
    Prog.Keeps view d.deriveSharedKey := by
  unfold deriveSharedKey
  refine (Prog.Keeps.emit _).bind fun _ => Prog.Keeps.get.bind fun s => ?_
  refine Prog.Keeps.bind (Prog.Keeps.onFail ?_) fun keypair => ?_
  · refine (keeps_allocate _ _ _).bind fun _ => (keeps_setOperationKey _ _ _).bind fun key => ?_
    exact (keeps_allocate _ _ _).bind fun _ => Prog.Keeps.pure key
  refine (keeps_readCoord _ _).bind fun x => (keeps_readCoord _ _).bind fun y => ?_
  refine (Prog.Keeps.orPanic _).bind fun sharedSecret => (keeps_tee _ _).bind fun _ => ?_
  refine Prog.Keeps.bind (Prog.Keeps.onFail ?_) fun _ => Prog.Keeps.emit _
  refine (keeps_allocate _ _ _).bind fun _ => (keeps_tee _ _).bind fun _ => ?_
  refine (keeps_allocate _ _ _).bind fun _ => (keeps_tee _ _).bind fun _ => ?_
  refine (keeps_tee _ _).bind fun _ => (keeps_allocate _ _ _).bind fun _ => ?_
  refine (Prog.Keeps.modify (hstore _)).bind fun _ => (keeps_tee _ _).bind fun _ => ?_
  exact (Prog.Keeps.modify (hstore _)).bind fun _ => keeps_dumpObjectAttribute _ _

theorem keeps_deriveSharedMacKey {fn : Fn} {data : List UInt8} {slot : Slot}
    {store : Obj P.Val → σ → σ} (hstore : ∀ obj s, view (store obj s) = view s) :
    Prog.Keeps view (d.deriveSharedMacKey fn data slot store) := by
  unfold deriveSharedMacKey
  refine (Prog.Keeps.emit _).bind fun _ => Prog.Keeps.get.bind fun s => ?_
  refine Prog.Keeps.bind (Prog.Keeps.onFail ?_) fun _ => Prog.Keeps.emit _
  refine (keeps_allocate _ _ _).bind fun _ => (keeps_tee _ _).bind fun _ => ?_
  refine (Prog.Keeps.orPanic _).bind fun sharedSecret => (keeps_tee _ _).bind fun _ => ?_
  refine (keeps_allocate _ _ _).bind fun _ => (keeps_tee _ _).bind fun _ => ?_
  refine (keeps_tee _ _).bind fun _ => (keeps_allocate _ _ _).bind fun _ => ?_
  refine (Prog.Keeps.modify (hstore _)).bind fun _ => (keeps_tee _ _).bind fun _ => ?_
  exact (Prog.Keeps.modify (hstore _)).bind fun _ => keeps_dumpObjectAttribute _ _

end Keeps

section Confined

variable {inv : σ → Prop} {allowed : Event → Prop} [quiet : Event.Quiet allowed]

theorem confined_deriveSharedKey
    (hx : ∀ s, inv s → allowed (.use d.fieldX (P.size (d.peerX s))))
    (hy : ∀ s, inv s → allowed (.use d.fieldY (P.size (d.peerY s))))
    (hstore : ∀ obj s, inv s → inv (d.storeKdk obj s)) :
    Prog.Confined inv allowed d.deriveSharedKey := by
  have hcleanup : ∀ event ∈ deriveSharedKeyCleanup, allowed event := by
    simp [deriveSharedKeyCleanup, quiet.free]
  unfold deriveSharedKey
  refine (confined_enter _).bind fun _ => Prog.Confined.bind_get fun s hs => ?_
  refine Prog.Confined.bind (Prog.Confined.onFail hcleanup ?_) fun keypair => ?_
  · refine (confined_allocate _ _ _).bind fun _ => ?_
    refine (confined_setOperationKey _ _ _).bind fun key => ?_
    exact (confined_allocate _ _ _).bind fun _ => Prog.Confined.pure key
  refine (confined_readCoord (hx s hs)).bind fun x => ?_
  refine (confined_readCoord (hy s hs)).bind fun y => ?_
  refine (Prog.Confined.orPanic _).bind fun sharedSecret => (confined_tee _ _).bind fun _ => ?_
  refine Prog.Confined.bind (Prog.Confined.onFail hcleanup ?_) fun _ => Prog.Confined.emit hcleanup
  refine (confined_allocate _ _ _).bind fun _ => (confined_tee _ _).bind fun _ => ?_
  refine (confined_allocate _ _ _).bind fun _ => (confined_tee _ _).bind fun _ => ?_
  refine (confined_tee _ _).bind fun _ => (confined_allocate _ _ _).bind fun _ => ?_
  refine (Prog.Confined.modify (hstore _)).bind fun _ => (confined_tee _ _).bind fun _ => ?_
  exact (Prog.Confined.modify (hstore _)).bind fun _ => confined_dumpObjectAttribute _ _

theorem confined_deriveSharedMacKey {fn : Fn} {data : List UInt8} {slot : Slot}
    {store : Obj P.Val → σ → σ} (hstore : ∀ obj s, inv s → inv (store obj s)) :
    Prog.Confined inv allowed (d.deriveSharedMacKey fn data slot store) := by
  have hcleanup : ∀ event ∈ [Event.free (.operation fn), .free (.aesKey fn)], allowed event := by
    simp [quiet.free]
  unfold deriveSharedMacKey
  refine (confined_enter _).bind fun _ => Prog.Confined.get.bind fun s => ?_
  refine Prog.Confined.bind (Prog.Confined.onFail hcleanup ?_) fun _ => Prog.Confined.emit hcleanup
  refine (confined_allocate _ _ _).bind fun _ => (confined_tee _ _).bind fun _ => ?_
  refine (Prog.Confined.orPanic _).bind fun sharedSecret => (confined_tee _ _).bind fun _ => ?_
  refine (confined_allocate _ _ _).bind fun _ => (confined_tee _ _).bind fun _ => ?_
  refine (confined_tee _ _).bind fun _ => (confined_allocate _ _ _).bind fun _ => ?_
  refine (Prog.Confined.modify (hstore _)).bind fun _ => (confined_tee _ _).bind fun _ => ?_
  exact (Prog.Confined.modify (hstore _)).bind fun _ => confined_dumpObjectAttribute _ _

end Confined

section Outcome

variable (env : Env P) (s : σ)

theorem deriveSharedKey_ok :
    (d.deriveSharedKey env s).out = .ok () ↔ env.Works .deriveSharedKey 11 ∧
      ∃ key shared, d.keypair s = .key key ∧ d.agreed env key s = some shared := by
  simp [deriveSharedKey, Prog.out_bind_ok, Env.works_succ, Env.works_zero, agreed]
  grind

theorem deriveSharedKey_reaches (h : env.Works .deriveSharedKey 11) {key : P.Ecdh} {shared : P.Val}
    (hkey : d.keypair s = .key key) (hshared : d.agreed env key s = some shared) :
    Prog.Reaches d.deriveSharedKey env s ()
      (d.storeKdk (.key (P.cmac (P.lit cmacZeroKey) [shared])) (d.storeKdk .empty s)) := by
  unfold agreed at hshared
  simp [Prog.Reaches, deriveSharedKey, setOperationKey, readCoord, allocate, Prog.onFail,
    Prog.bind_run, Prog.andThen, Prog.orPanic, Prog.ret, Obj.key?, tee_run, h 0, h 1, h 2, h 3,
    h 4, h 5, h 6, h 7, h 8, h 9, h 10, hkey, hshared, dumpObjectAttribute_run]

-- Without a shared secret the derivation panics.
theorem deriveSharedKey_panics (h : env.Works .deriveSharedKey 11) {key : P.Ecdh}
    (hkey : d.keypair s = .key key) (hnone : d.agreed env key s = none) :
    (d.deriveSharedKey env s).out = .panic := by
  unfold agreed at hnone
  simp [deriveSharedKey, setOperationKey, readCoord, allocate, Prog.onFail, Prog.bind_run,
    Prog.andThen, Prog.orPanic, Prog.ret, Obj.key?, tee_run, h 0, h 1, h 2, hkey, hnone]

theorem deriveSharedMacKey_ok (fn : Fn) (data : List UInt8) (slot : Slot)
    (store : Obj P.Val → σ → σ) :
    (d.deriveSharedMacKey fn data slot store env s).out = .ok () ↔ env.Works fn 8 ∧
      ∃ key, d.kdk s = .key key := by
  simp [deriveSharedMacKey, Prog.out_bind_ok, Env.works_succ, Env.works_zero]
  grind

theorem deriveSharedMacKey_reaches (fn : Fn) (data : List UInt8) (slot : Slot)
    (store : Obj P.Val → σ → σ) (h : env.Works fn 8) {key : P.Val} (hkey : d.kdk s = .key key) :
    Prog.Reaches (d.deriveSharedMacKey fn data slot store) env s ()
      (store (.key (P.cmac key [P.lit data])) (store .empty s)) := by
  simp [Prog.Reaches, deriveSharedMacKey, allocate, Prog.onFail, Prog.bind_run, Prog.andThen,
    Prog.orPanic, Prog.ret, Obj.key?, tee_run, h 0, h 1, h 2, h 3, h 4, h 5, h 6, h 7, hkey,
    dumpObjectAttribute_run]

end Outcome

end Derivation

end Watz
