import Watz.Derive

namespace Watz.Attester

open Base Tee

-- `ra_context`. The attribute records only repeat `msg1`, and the socket is the environment's.
structure RaContext (P : Prims) where
  ecdhLocalKeypair : Obj P.Ecdh
  sharedKeyDerivationKey : Obj P.Val
  sharedMacKey : Obj P.Val
  sharedSessionKey : Obj P.Val
  ecdsaVerifierPublicKey : Obj (P.Val × P.Val)
  msg0 : Msg0 P.Coord
  msg1 : Msg1 P.Coord P.Val
  msg2 : Msg2 P.Coord P.Quote P.Val
  msg3 : Option (Msg3 P.Val)
  msg3Size : Nat

-- `alloc_ra_context` zeroes the structure and then presets the two sizes of `msg0`.
def RaContext.fresh (P : Prims) : RaContext P where
  ecdhLocalKeypair := .null
  sharedKeyDerivationKey := .null
  sharedMacKey := .null
  sharedSessionKey := .null
  ecdsaVerifierPublicKey := .null
  msg0 := ⟨P.resized P.zeroCoord, P.resized P.zeroCoord⟩
  msg1 := ⟨P.zeroCoord, P.zeroCoord, P.zeroCoord, P.zeroCoord, P.zeroVal, P.zeroVal⟩
  msg2 := ⟨P.zeroCoord, P.zeroCoord, P.zeroQuote, P.zeroVal⟩
  msg3 := none
  msg3Size := 0

-- The service key that the guest pins: two arrays and the sizes it passes for them.
structure Pin (P : Prims) where
  x : P.Val
  xSize : Nat
  y : P.Val
  ySize : Nat

variable {P : Prims}

abbrev AttesterM (P : Prims) (α : Type) : Type := TeeM P (RaContext P) α

def allocRaContext : AttesterM P Unit := Prog.modify fun _ => RaContext.fresh P

def generateEcdhKeypair : AttesterM P Unit := do
  Prog.emit [.enter .generateEcdhKeypair]
  allocate .generateEcdhKeypair 0 .ecdhLocalKeypair
  Prog.modify fun s => { s with ecdhLocalKeypair := .empty }
  tee .generateEcdhKeypair 1
  let env ← Prog.ask
  Prog.modify fun s => { s with ecdhLocalKeypair := .key env.ecdhKey }
  tee .generateEcdhKeypair 2
  Prog.modify fun s => { s with msg0 := { s.msg0 with
    ecdhX := P.exportX env.ecdhKey s.msg0.ecdhX } }
  tee .generateEcdhKeypair 3
  Prog.modify fun s => { s with msg0 := { s.msg0 with
    ecdhY := P.exportY env.ecdhKey s.msg0.ecdhY } }
  dumpObjectAttribute .generateEcdhKeypair 4
  let s ← Prog.get
  dump .msg0X s.msg0.ecdhX
  dump .msg0Y s.msg0.ecdhY

def establishTcpConnection : AttesterM P Unit := allocate .establishTcpConnection 0 .socket

def sendMsg0 : AttesterM P (Msg0 P.Coord) := do
  tee .sendMsg0 0
  let s ← Prog.get
  pure s.msg0

-- In builds with `DEBUG_MESSAGE` the remote key is imported once more, to be dumped, and a
-- failure of that import is the result of the function.
def dumpRemotePublicKey (msg1 : Msg1 P.Coord P.Val) : AttesterM P Unit := do
  let env ← Prog.ask
  if env.debug then
    let cleanup : List Event := [.free (.ecdhRemotePublicKey .receiveMsg1)]
    Prog.onFail cleanup do
      allocate .receiveMsg1 1 (.ecdhRemotePublicKey .receiveMsg1)
      let _ ← readCoord .msg1EcdhX msg1.ecdhX
      let _ ← readCoord .msg1EcdhY msg1.ecdhY
      tee .receiveMsg1 2
      dumpObjectAttribute .receiveMsg1 3
      dumpObjectAttribute .receiveMsg1 5
    Prog.emit cleanup

def receiveMsg1 : AttesterM P Unit := do
  Prog.emit [.enter .receiveMsg1]
  tee .receiveMsg1 0
  let env ← Prog.ask
  stores .msg1 (P.recvStores1 env.wire)
  let msg1 ← Prog.orFail (P.recvMsg1 env.wire) .generic
  Prog.modify fun s => { s with msg1 := msg1 }
  initRefAttribute .msg1EcdhX msg1.ecdhX
  initRefAttribute .msg1EcdhY msg1.ecdhY
  dumpRemotePublicKey msg1

-- Compares whole raw arrays. An empty key skips the comparison.
def verifyServicePublicKey (pin : Pin P) : AttesterM P Unit := do
  let s ← Prog.get
  if pin.xSize = 0 ∧ pin.ySize = 0 then pure ()
  else
    Prog.require (pin.xSize == RA_ECDSA_KEY_SIZE / 8 && pin.ySize == RA_ECDSA_KEY_SIZE / 8)
      .communication
    Prog.require (P.rawEq pin.x s.msg1.ecdsaX) .communication
    Prog.require (P.rawEq pin.y s.msg1.ecdsaY) .communication

def importVerifierAttestationKey : AttesterM P Unit := do
  Prog.emit [.enter .importVerifierAttestationKey]
  let s ← Prog.get
  allocate .importVerifierAttestationKey 0 .ecdsaVerifierPublicKey
  Prog.modify fun s => { s with ecdsaVerifierPublicKey := .empty }
  initRefAttribute .msg1EcdsaX s.msg1.ecdsaX
  initRefAttribute .msg1EcdsaY s.msg1.ecdsaY
  let x ← readCoord .msg1EcdsaX s.msg1.ecdsaX
  let y ← readCoord .msg1EcdsaY s.msg1.ecdsaY
  tee .importVerifierAttestationKey 1
  Prog.modify fun s => { s with ecdsaVerifierPublicKey := .key (x, y) }

-- What a rejected signature prints, in every build.
def signatureReport (s : RaContext P) : TeeError → List Event
  | .signatureInvalid =>
      [.use .msg1EcdsaX (P.size s.msg1.ecdsaX), .use .msg1EcdsaY (P.size s.msg1.ecdsaY),
        .use .msg0X (P.size s.msg0.ecdhX), .use .msg0Y (P.size s.msg0.ecdhY),
        .use .msg1EcdhX (P.size s.msg1.ecdhX), .use .msg1EcdhY (P.size s.msg1.ecdhY)]
  | _ => []

def verifyEcdhPublicKeySignature : AttesterM P Unit := do
  Prog.emit [.enter .verifyEcdhPublicKeySignature]
  let s ← Prog.get
  let cleanup : List Event := [.free (.operation .verifyEcdhPublicKeySignature)]
  Prog.onFail cleanup do
    allocate .verifyEcdhPublicKeySignature 0 (.operation .verifyEcdhPublicKeySignature)
    let gvX ← readCoord .msg1EcdhX s.msg1.ecdhX
    let gvY ← readCoord .msg1EcdhY s.msg1.ecdhY
    let gaX ← readCoord .msg0X s.msg0.ecdhX
    let gaY ← readCoord .msg0Y s.msg0.ecdhY
    tee .verifyEcdhPublicKeySignature 1
    Prog.require (sha256Len == RA_HASH_SIZE / 8) .generic
    allocate .verifyEcdhPublicKeySignature 2 (.operation .verifyEcdhPublicKeySignature)
    let key ← setOperationKey .verifyEcdhPublicKeySignature 3 s.ecdsaVerifierPublicKey
    Prog.onFailWith (signatureReport s) (teeCheck .verifyEcdhPublicKeySignature 4
      (P.verify key.1 key.2 (P.sha256 [gvX, gvY, gaX, gaY]) s.msg1.ecdhSignature)
      .signatureInvalid)
  Prog.emit cleanup

def derivation : Derivation P (RaContext P) where
  keypair s := s.ecdhLocalKeypair
  fieldX := .msg1EcdhX
  fieldY := .msg1EcdhY
  peerX s := s.msg1.ecdhX
  peerY s := s.msg1.ecdhY
  kdk s := s.sharedKeyDerivationKey
  storeKdk obj s := { s with sharedKeyDerivationKey := obj }

def deriveSharedKey : AttesterM P Unit := derivation.deriveSharedKey

-- `data_length` is a `uint8_t` here, which both labels fit.
def deriveSharedMacKey (fn : Fn) (data : List UInt8) (slot : Slot)
    (store : Obj P.Val → RaContext P → RaContext P) : AttesterM P Unit :=
  derivation.deriveSharedMacKey fn (data.take (data.length % 2 ^ 8)) slot store

def storeMacKey (obj : Obj P.Val) (s : RaContext P) : RaContext P :=
  { s with sharedMacKey := obj }

def storeSessionKey (obj : Obj P.Val) (s : RaContext P) : RaContext P :=
  { s with sharedSessionKey := obj }

def verifyMsg1Mac : AttesterM P Unit := do
  Prog.emit [.enter .verifyMsg1Mac]
  let s ← Prog.get
  let cleanup : List Event := [.free (.operation .verifyMsg1Mac)]
  -- the first two failures return without the cleanup
  allocate .verifyMsg1Mac 0 (.operation .verifyMsg1Mac)
  let key ← setOperationKey .verifyMsg1Mac 1 s.sharedMacKey
  Prog.onFail cleanup do
    let gvX ← readCoord .msg1EcdhX s.msg1.ecdhX
    let gvY ← readCoord .msg1EcdhY s.msg1.ecdhY
    let vkX ← readCoord .msg1EcdsaX s.msg1.ecdsaX
    let vkY ← readCoord .msg1EcdsaY s.msg1.ecdsaY
    teeCheck .verifyMsg1Mac 2
      (decide (P.cmac key [gvX, gvY, vkX, vkY, s.msg1.ecdhSignature] = s.msg1.mac)) .macInvalid
  Prog.emit cleanup

def generateAnchor (anchorSize : Nat) : AttesterM P P.Val := do
  Prog.require (anchorSize == RA_ANCHOR_SIZE) .security
  Prog.emit [.enter .generateAnchor]
  let s ← Prog.get
  let cleanup : List Event := [.free (.operation .generateAnchor)]
  let anchor ← Prog.onFail cleanup do
    allocate .generateAnchor 0 (.operation .generateAnchor)
    let gaX ← readCoord .msg0X s.msg0.ecdhX
    let gaY ← readCoord .msg0Y s.msg0.ecdhY
    let gvX ← readCoord .msg1EcdhX s.msg1.ecdhX
    let gvY ← readCoord .msg1EcdhY s.msg1.ecdhY
    tee .generateAnchor 1
    Prog.require (sha256Len == RA_ANCHOR_SIZE) .generic
    pure (P.sha256 [gaX, gaY, gvX, gvY])
  Prog.emit cleanup
  pure anchor

-- The tag part of `prepare_msg2`: a failure only skips to the label `out`.
def computeMsg2Mac : AttesterM P Unit := do
  let s ← Prog.get
  allocate .prepareMsg2 0 (.operation .prepareMsg2)
  let key ← setOperationKey .prepareMsg2 1 s.sharedMacKey
  let x ← readCoord .msg2X s.msg2.ecdhX
  let y ← readCoord .msg2Y s.msg2.ecdhY
  tee .prepareMsg2 2
  Prog.modify fun s => { s with msg2 := { s.msg2 with
    mac := P.cmac key [x, y, P.quoteBytes s.msg2.quote] } }

-- Returns `TEE_SUCCESS` whatever happened to the tag.
def prepareMsg2 (quote : P.Quote) : AttesterM P Unit := do
  Prog.emit [.enter .prepareMsg2]
  Prog.modify fun s => { s with msg2 := { s.msg2 with
    ecdhX := P.copy s.msg0.ecdhX, ecdhY := P.copy s.msg0.ecdhY, quote := quote } }
  Prog.ignoreFail computeMsg2Mac
  Prog.emit [.free (.operation .prepareMsg2)]

def sendMsg2 : AttesterM P (Msg2 P.Coord P.Quote P.Val) := do
  tee .sendMsg2 0
  let s ← Prog.get
  pure s.msg2

-- What `msg3_size` is set to: `sizeof` makes it a 64-bit sum, which cannot wrap.
def msg3BlockSize (P : Prims) (dataSize : Nat) : Nat :=
  P.sizeofMsg3 + dataSize + RA_AES_GCM_CIPHERTEXT_OVERHEAD

-- `TEE_Malloc` takes the size as a `uint32_t`, and how much the heap has left is up to its result.
-- A null result faults when the block is first used.
def allocateMsg3 (dataSize : Nat) : AttesterM P Unit := do
  mallocUnchecked .allocateMsg3 0 .msg3
  Prog.modify fun s => { s with msg3Size := msg3BlockSize P dataSize }

-- What the debug builds print of `msg3`, whatever was received of it.
def dumpMsg3 : AttesterM P Unit := do
  print .msg3 0 30
  print .msg3 0 RA_AES_GCM_IV_SIZE
  print .msg3 RA_AES_GCM_IV_SIZE (RA_AES_GCM_TAG_SIZE / 8)
  logRead .msg3 (RA_AES_GCM_IV_SIZE + RA_AES_GCM_TAG_SIZE / 8) 8
  print .msg3 P.sizeofMsg3 50
  print .msg3 0 (P.sizeofMsg3 + 50)

-- The receive loop takes the size of the block as a `uint32_t` too, and stores the number of
-- bytes it received to the lower half of the field that held the size.
def receiveMsg3 : AttesterM P Unit := do
  tee .receiveMsg3 0
  let env ← Prog.ask
  let s ← Prog.get
  stores .msg3 (P.recvStores3 env.wire (s.msg3Size % 2 ^ 32))
  Prog.modify fun s => { s with
    msg3 := some (P.recvMsg3 env.wire (s.msg3Size % 2 ^ 32))
    msg3Size := s.msg3Size / 2 ^ 32 * 2 ^ 32 + P.recvCount3 env.wire (s.msg3Size % 2 ^ 32) }
  dumpMsg3

-- Returns the bytes stored to the guest's buffer and the new value of `*data_size`. The lengths of
-- `TEE_AEDecryptFinal` are `uint32_t`.
def decryptMsg3 (dataSize : Nat) : AttesterM P (P.Val × Nat) := do
  Prog.emit [.enter .decryptMsg3]
  let s ← Prog.get
  let cleanup : List Event := [.free (.operation .decryptMsg3)]
  let data ← Prog.onFail cleanup do
    allocate .decryptMsg3 0 (.operation .decryptMsg3)
    let key ← setOperationKey .decryptMsg3 1 s.sharedSessionKey
    let msg3 ← Prog.orPanic s.msg3
    tee .decryptMsg3 2
    teeCheck .decryptMsg3 3 (decide (msg3.encryptedContentSize % 2 ^ 32 ≤ dataSize))
      .shortBuffer
    Prog.orFail (P.gcmDecrypt key msg3.iv msg3.encryptedContent msg3.tag) .macInvalid
  stores .data [(0, P.len data)]
  print .data 0 30
  Prog.emit cleanup
  pure (data, P.len data)

-- The part of `ra_net_handshake` up to `send_msg0`, and the part from `receive_msg1` on.
def raNetHandshakeStart : AttesterM P (Msg0 P.Coord) := do
  allocRaContext
  generateEcdhKeypair
  establishTcpConnection
  sendMsg0

def raNetHandshakeFinish (pin : Pin P) (anchorSize : Nat) : AttesterM P P.Val := do
  receiveMsg1
  verifyServicePublicKey pin
  importVerifierAttestationKey
  verifyEcdhPublicKeySignature
  deriveSharedKey
  deriveSharedMacKey .deriveMacKey WASI_RA_SHARED_MAC_DATA .sharedMacKey storeMacKey
  deriveSharedMacKey .deriveSessionKey WASI_RA_SHARED_SESSION_DATA .sharedSessionKey
    storeSessionKey
  verifyMsg1Mac
  generateAnchor anchorSize

def raNetHandshake (pin : Pin P) (anchorSize : Nat) : AttesterM P P.Val := do
  let _ ← raNetHandshakeStart
  raNetHandshakeFinish pin anchorSize

def raNetSendQuote (quote : P.Quote) : AttesterM P (Msg2 P.Coord P.Quote P.Val) := do
  prepareMsg2 quote
  sendMsg2

def raNetReceiveData (dataSize : Nat) : AttesterM P (P.Val × Nat) := do
  allocateMsg3 dataSize
  receiveMsg3
  logRead .msg3 (RA_AES_GCM_IV_SIZE + RA_AES_GCM_TAG_SIZE / 8) 8
  decryptMsg3 dataSize

end Watz.Attester
