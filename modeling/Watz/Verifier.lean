import Watz.Derive

namespace Watz.Verifier

open Base Tee

-- `ra_context_verifier`. The secret and its size are one value. The attribute records of the
-- attester's key only repeat `msg0`, and the `msg3` block lives inside one command.
structure Ctx (P : Prims) where
  secret : P.Val
  ecdsaAttesterPublicKey : Obj (P.Val × P.Val)
  ecdhAttesterPublicKey : Obj (P.Val × P.Val)
  ecdsaLocalKeypair : Obj P.Ecdsa
  ecdhLocalKeypair : Obj P.Ecdh
  sharedKeyDerivationKey : Obj P.Val
  sharedMacKey : Obj P.Val
  sharedSessionKey : Obj P.Val
  isQuoteValid : Bool
  msg0 : Msg0 P.Coord
  msg1 : Msg1 P.Coord P.Val
  msg2 : Msg2 P.Coord P.Quote P.Val

-- `context_singleton` is static, so an instance starts with all bytes zero.
def Ctx.zero (P : Prims) : Ctx P where
  secret := P.lit []
  ecdsaAttesterPublicKey := .null
  ecdhAttesterPublicKey := .null
  ecdsaLocalKeypair := .null
  ecdhLocalKeypair := .null
  sharedKeyDerivationKey := .null
  sharedMacKey := .null
  sharedSessionKey := .null
  isQuoteValid := false
  msg0 := ⟨P.zeroCoord, P.zeroCoord⟩
  msg1 := ⟨P.zeroCoord, P.zeroCoord, P.zeroCoord, P.zeroCoord, P.zeroVal, P.zeroVal⟩
  msg2 := ⟨P.zeroCoord, P.zeroCoord, P.zeroQuote, P.zeroVal⟩

variable {P : Prims}

abbrev VerifierM (P : Prims) (α : Type) : Type := TeeM P (Ctx P) α

def generateEcdhKeypair : VerifierM P Unit := do
  Prog.emit [.enter .generateEcdhKeypair]
  allocate .generateEcdhKeypair 0 .ecdhLocalKeypair
  Prog.modify fun s => { s with ecdhLocalKeypair := .empty }
  tee .generateEcdhKeypair 1
  let env ← Prog.ask
  Prog.modify fun s => { s with ecdhLocalKeypair := .key env.ecdhKey }
  -- the size fields are reset before the export of either coordinate
  Prog.modify fun s => { s with msg1 := { s.msg1 with
    ecdhX := P.resized s.msg1.ecdhX, ecdhY := P.resized s.msg1.ecdhY } }
  tee .generateEcdhKeypair 2
  Prog.modify fun s => { s with msg1 := { s.msg1 with
    ecdhX := P.exportX env.ecdhKey s.msg1.ecdhX } }
  tee .generateEcdhKeypair 3
  Prog.modify fun s => { s with msg1 := { s.msg1 with
    ecdhY := P.exportY env.ecdhKey s.msg1.ecdhY } }
  dumpObjectAttribute .generateEcdhKeypair 4
  let s ← Prog.get
  dump .msg1EcdhX s.msg1.ecdhX
  dump .msg1EcdhY s.msg1.ecdhY

def storeMsg0 (buffer : P.Buf) : VerifierM P Unit := do
  Prog.require (decide (P.sizeofMsg0 ≤ P.bufSize buffer)) .shortBuffer
  Prog.modify fun s => { s with msg0 := P.getMsg0 buffer }
  let s ← Prog.get
  dump .msg0X s.msg0.ecdhX
  dump .msg0Y s.msg0.ecdhY

def populateAttesterKey : VerifierM P Unit := do
  Prog.emit [.enter .populateAttesterKey]
  let s ← Prog.get
  initRefAttribute .msg0X s.msg0.ecdhX
  initRefAttribute .msg0Y s.msg0.ecdhY
  allocate .populateAttesterKey 0 .ecdhAttesterPublicKey
  Prog.modify fun s => { s with ecdhAttesterPublicKey := .empty }
  let x ← readCoord .msg0X s.msg0.ecdhX
  let y ← readCoord .msg0Y s.msg0.ecdhY
  tee .populateAttesterKey 1
  Prog.modify fun s => { s with ecdhAttesterPublicKey := .key (x, y) }

def derivation : Derivation P (Ctx P) where
  keypair s := s.ecdhLocalKeypair
  fieldX := .msg0X
  fieldY := .msg0Y
  peerX s := s.msg0.ecdhX
  peerY s := s.msg0.ecdhY
  kdk s := s.sharedKeyDerivationKey
  storeKdk obj s := { s with sharedKeyDerivationKey := obj }

def deriveSharedKey : VerifierM P Unit := derivation.deriveSharedKey

def deriveSharedMacKey (fn : Fn) (data : List UInt8) (slot : Slot)
    (store : Obj P.Val → Ctx P → Ctx P) : VerifierM P Unit :=
  derivation.deriveSharedMacKey fn data slot store

def storeMacKey (obj : Obj P.Val) (s : Ctx P) : Ctx P := { s with sharedMacKey := obj }

def storeSessionKey (obj : Obj P.Val) (s : Ctx P) : Ctx P := { s with sharedSessionKey := obj }

def appendEcdhPublicKeysSignature : VerifierM P Unit := do
  Prog.emit [.enter .appendEcdhPublicKeysSignature]
  let s ← Prog.get
  let cleanup : List Event := [.free (.operation .appendEcdhPublicKeysSignature)]
  Prog.onFail cleanup do
    allocate .appendEcdhPublicKeysSignature 0 (.operation .appendEcdhPublicKeysSignature)
    let gvX ← readCoord .msg1EcdhX s.msg1.ecdhX
    let gvY ← readCoord .msg1EcdhY s.msg1.ecdhY
    let gaX ← readCoord .msg0X s.msg0.ecdhX
    let gaY ← readCoord .msg0Y s.msg0.ecdhY
    tee .appendEcdhPublicKeysSignature 1
    Prog.require (sha256Len == RA_HASH_SIZE / 8) .generic
    dump .msg0X s.msg0.ecdhX
    dump .msg0Y s.msg0.ecdhY
    dump .msg1EcdhX s.msg1.ecdhX
    dump .msg1EcdhY s.msg1.ecdhY
    allocate .appendEcdhPublicKeysSignature 2 (.operation .appendEcdhPublicKeysSignature)
    let key ← setOperationKey .appendEcdhPublicKeysSignature 3 s.ecdsaLocalKeypair
    tee .appendEcdhPublicKeysSignature 4
    let env ← Prog.ask
    Prog.modify fun s => { s with msg1 := { s.msg1 with
      ecdhSignature := P.sign key env.random (P.sha256 [gvX, gvY, gaX, gaY]) } }
    Prog.require (p256SignatureLen == RA_SIGNATURE_SIZE) .generic
  Prog.emit cleanup

def appendMac : VerifierM P Unit := do
  Prog.emit [.enter .appendMac]
  let s ← Prog.get
  let cleanup : List Event := [.free (.operation .appendMac)]
  -- the first two failures return without the cleanup
  allocate .appendMac 0 (.operation .appendMac)
  let key ← setOperationKey .appendMac 1 s.sharedMacKey
  Prog.onFail cleanup do
    let gvX ← readCoord .msg1EcdhX s.msg1.ecdhX
    let gvY ← readCoord .msg1EcdhY s.msg1.ecdhY
    let vkX ← readCoord .msg1EcdsaX s.msg1.ecdsaX
    let vkY ← readCoord .msg1EcdsaY s.msg1.ecdsaY
    tee .appendMac 2
    Prog.modify fun s => { s with msg1 := { s.msg1 with
      mac := P.cmac key [gvX, gvY, vkX, vkY, s.msg1.ecdhSignature] } }
    Prog.require (RA_AES_CMAC_TAG_SIZE / 8 == cmacLen) .generic
  Prog.emit cleanup

def storeMsg2 (buffer : P.Buf) : VerifierM P Unit := do
  Prog.require (decide (P.sizeofMsg2 ≤ P.bufSize buffer)) .shortBuffer
  Prog.modify fun s => { s with msg2 := P.getMsg2 buffer }

def verifyMacMsg2 : VerifierM P Unit := do
  Prog.emit [.enter .verifyMacMsg2]
  let s ← Prog.get
  let cleanup : List Event := [.free (.operation .verifyMacMsg2)]
  Prog.onFail cleanup do
    allocate .verifyMacMsg2 0 (.operation .verifyMacMsg2)
    let key ← setOperationKey .verifyMacMsg2 1 s.sharedMacKey
    let x ← readCoord .msg2X s.msg2.ecdhX
    let y ← readCoord .msg2Y s.msg2.ecdhY
    teeCheck .verifyMacMsg2 2
      (decide (P.cmac key [x, y, P.quoteBytes s.msg2.quote] = s.msg2.mac)) .macInvalid
  Prog.emit cleanup

def verifyPublicKeyMsg2MatchesMsg0 : VerifierM P Unit := do
  let s ← Prog.get
  let equalX ← memCompare .msg0X s.msg0.ecdhX .msg2X s.msg2.ecdhX
  Prog.require equalX .security
  let equalY ← memCompare .msg0Y s.msg0.ecdhY .msg2Y s.msg2.ecdhY
  Prog.require equalY .security

-- The digest that the attestation service signs.
def quoteDigest (quote : P.Quote) : P.Val :=
  P.sha256 [P.anchor quote, P.version quote, P.claimHash quote, P.attestationKey quote]

-- Sets the validity flag, before `verify_anchor` has run.
def verifyQuoteSignature : VerifierM P Unit := do
  Prog.emit [.enter .verifyQuoteSignature]
  let s ← Prog.get
  let cleanup : List Event := [.free (.operation .verifyQuoteSignature)]
  Prog.onFail cleanup do
    allocate .verifyQuoteSignature 0 (.operation .verifyQuoteSignature)
    tee .verifyQuoteSignature 1
    Prog.require (sha256Len == RA_HASH_SIZE / 8) .generic
    allocate .verifyQuoteSignature 2 (.operation .verifyQuoteSignature)
    let key ← setOperationKey .verifyQuoteSignature 3 s.ecdsaAttesterPublicKey
    teeCheck .verifyQuoteSignature 4
      (P.verify key.1 key.2 (quoteDigest s.msg2.quote) (P.signature s.msg2.quote))
      .signatureInvalid
    Prog.modify fun s => { s with isQuoteValid := true }
  Prog.emit cleanup

def verifyAnchor : VerifierM P Unit := do
  Prog.emit [.enter .verifyAnchor]
  let s ← Prog.get
  let cleanup : List Event := [.free (.operation .verifyAnchor)]
  let digest ← Prog.onFail cleanup do
    allocate .verifyAnchor 0 (.operation .verifyAnchor)
    let gaX ← readCoord .msg0X s.msg0.ecdhX
    let gaY ← readCoord .msg0Y s.msg0.ecdhY
    let gvX ← readCoord .msg1EcdhX s.msg1.ecdhX
    let gvY ← readCoord .msg1EcdhY s.msg1.ecdhY
    tee .verifyAnchor 1
    Prog.require (sha256Len == RA_ANCHOR_SIZE) .generic
    pure (P.sha256 [gaX, gaY, gvX, gvY])
  -- a mismatch returns without the cleanup
  Prog.require (decide (P.anchor s.msg2.quote = digest)) .security
  Prog.emit cleanup

def allocateMsg3 (buffer : P.Buf) : VerifierM P Unit := do
  Prog.require (decide (P.sizeofMsg3 ≤ P.bufSize buffer)) .shortBuffer
  mallocUnchecked .allocateMsg3 0 .msg3

-- The ciphertext goes straight into the shared buffer, the header follows it.
def encryptMsg3 (buffer : P.Buf) (data : P.Val) : VerifierM P P.Buf := do
  Prog.emit [.enter .encryptMsg3]
  let s ← Prog.get
  let env ← Prog.ask
  let cleanup : List Event := [.free (.operation .encryptMsg3)]
  let key ← Prog.onFail cleanup do
    allocate .encryptMsg3 0 (.operation .encryptMsg3)
    let key ← setOperationKey .encryptMsg3 1 s.sharedSessionKey
    tee .encryptMsg3 2
    teeCheck .encryptMsg3 3 (decide (P.len data ≤ P.bufSize buffer - P.sizeofMsg3)) .shortBuffer
    pure key
  stores .shared [(P.sizeofMsg3, P.len data), (0, P.sizeofMsg3)]
  Prog.emit cleanup
  let sealed := P.gcmEncrypt key env.iv data
  pure (P.putMsg3 ⟨env.iv, sealed.2, P.len data, sealed.1⟩ buffer)

def importAttesterAttestationKey : VerifierM P Unit := do
  Prog.emit [.enter .importAttesterAttestationKey]
  allocate .importAttesterAttestationKey 0 .ecdsaAttesterPublicKey
  Prog.modify fun s => { s with ecdsaAttesterPublicKey := .empty }
  tee .importAttesterAttestationKey 1
  let pinned := (P.lit RA_IMX_TEST_PUBLIC_KEY_X, P.lit RA_IMX_TEST_PUBLIC_KEY_Y)
  Prog.modify fun s => { s with ecdsaAttesterPublicKey := .key pinned }

def generateEcdsaKeypair : VerifierM P Unit := do
  Prog.emit [.enter .generateEcdsaKeypair]
  allocate .generateEcdsaKeypair 0 .ecdsaLocalKeypair
  Prog.modify fun s => { s with ecdsaLocalKeypair := .empty }
  tee .generateEcdsaKeypair 1
  let env ← Prog.ask
  Prog.modify fun s => { s with ecdsaLocalKeypair := .key env.ecdsaKey }
  Prog.modify fun s => { s with msg1 := { s.msg1 with
    ecdsaX := P.resized s.msg1.ecdsaX, ecdsaY := P.resized s.msg1.ecdsaY } }
  tee .generateEcdsaKeypair 2
  Prog.modify fun s => { s with msg1 := { s.msg1 with
    ecdsaX := P.exportVerifyX env.ecdsaKey s.msg1.ecdsaX } }
  tee .generateEcdsaKeypair 3
  Prog.modify fun s => { s with msg1 := { s.msg1 with
    ecdsaY := P.exportVerifyY env.ecdsaKey s.msg1.ecdsaY } }
  dumpObjectAttribute .generateEcdsaKeypair 4
  let s ← Prog.get
  dump .msg1EcdsaX s.msg1.ecdsaX
  dump .msg1EcdsaY s.msg1.ecdsaY

def handleMsg0 (buffer : P.Buf) : VerifierM P Unit := do
  generateEcdhKeypair
  storeMsg0 buffer
  populateAttesterKey
  deriveSharedKey
  deriveSharedMacKey .deriveMacKey RA_SHARED_MAC_DATA .sharedMacKey storeMacKey
  deriveSharedMacKey .deriveSessionKey RA_SHARED_SESSION_DATA .sharedSessionKey storeSessionKey

def prepareMsg1 (buffer : P.Buf) : VerifierM P P.Buf := do
  Prog.require (decide (P.sizeofMsg1 ≤ P.bufSize buffer)) .shortBuffer
  appendEcdhPublicKeysSignature
  appendMac
  let s ← Prog.get
  stores .shared [(0, P.sizeofMsg1)]
  print .shared 0 (P.sizeofMsg1 / 2)
  print .shared (P.sizeofMsg1 / 2) (P.sizeofMsg1 / 2)
  pure (P.putMsg1 s.msg1 buffer)

def handleMsg2 (buffer : P.Buf) : VerifierM P Unit := do
  Prog.modify fun s => { s with isQuoteValid := false }
  storeMsg2 buffer
  verifyMacMsg2
  verifyPublicKeyMsg2MatchesMsg0
  verifyQuoteSignature
  verifyAnchor

-- `free_msg3` runs on the successful path only.
def prepareMsg3 (buffer : P.Buf) (data : P.Val) : VerifierM P P.Buf := do
  allocateMsg3 buffer
  let buffer ← encryptMsg3 buffer data
  Prog.emit [.free .msg3]
  print .shared 0 30
  pure buffer

end Watz.Verifier
