import Watz.Attester.Lemmas
import Watz.Bytes
import Watz.Verifier.Lemmas

namespace Watz

open Base Tee

-- What the TEE promises about its algorithms.
structure CryptoCorrect (P : Prims) : Prop where
  commutes : ∀ a b, ∃ shared, P.ecdh a (P.pubX b) (P.pubY b) = some shared ∧
    P.ecdh b (P.pubX a) (P.pubY a) = some shared
  verifies : ∀ key random digest oldX oldY,
    P.verify (P.val (P.exportVerifyX key oldX)) (P.val (P.exportVerifyY key oldY)) digest
      (P.sign key random digest) = true

-- The inputs of one run of the protocol: an environment for each call, the buffers of the
-- verifier's host, the pinned key and the quote.
structure Exchange (P : Prims) where
  opening : Env P
  start : Env P
  exchange : Env P
  signing : Env P
  finish : Env P
  send : Env P
  check : Env P
  memory : Attester.RaContext P
  buffer0 : P.Buf
  buffer1 : P.Buf
  buffer2 : P.Buf
  pin : Attester.Pin P
  quote : P.Quote

namespace Exchange

variable {P : Prims} (x : Exchange P)

-- The contexts of the two parties, in the order in which the calls are made.
def opened : Verifier.Ctx P := (Verifier.openSessionEntryPoint 0 x.opening (Verifier.Ctx.zero P)).state

def attester0 : Attester.RaContext P := (Attester.raNetHandshakeStart x.start x.memory).state

def verifier0 : Verifier.Ctx P := (Verifier.handleMsg0 x.buffer0 x.exchange x.opened).state

def verifier1 : Verifier.Ctx P := (Verifier.prepareMsg1 x.buffer1 x.signing x.verifier0).state

def attester1 : Attester.RaContext P :=
  (Attester.raNetHandshakeFinish x.pin RA_ANCHOR_SIZE x.finish x.attester0).state

def attester2 : Attester.RaContext P := (Attester.raNetSendQuote x.quote x.send x.attester1).state

def checkQuote : Verifier.Instance P × Verifier.Response P :=
  Verifier.step (.live x.verifier1)
    ⟨3, Verifier.Command.expParamTypes .handleMsg2, x.buffer2, x.check⟩

-- Every call works, each message arrives field by field as it was sent, the verifier's key is
-- the pinned one (or none is pinned), and the attestation service signed the quote for the
-- anchor of this handshake.
structure Delivered : Prop where
  openingWorks : x.opening.NoFaults
  startWorks : x.start.NoFaults
  exchangeWorks : x.exchange.NoFaults
  signingWorks : x.signing.NoFaults
  finishWorks : x.finish.NoFaults
  sendWorks : x.send.NoFaults
  checkWorks : x.check.NoFaults
  size0 : P.sizeofMsg0 ≤ P.bufSize x.buffer0
  size1 : P.sizeofMsg1 ≤ P.bufSize x.buffer1
  size2 : P.sizeofMsg2 ≤ P.bufSize x.buffer2
  msg0 : P.getMsg0 x.buffer0 = x.attester0.msg0
  msg1 : P.recvMsg1 x.finish.wire = some x.verifier1.msg1
  msg2 : P.getMsg2 x.buffer2 = x.attester2.msg2
  pinned : Attester.Pinned x.pin x.verifier1.msg1
  anchor : ∀ anchor, (Attester.raNetHandshakeFinish x.pin RA_ANCHOR_SIZE x.finish x.attester0).out =
    .ok anchor → P.anchor x.quote = anchor
  signed : P.verify Verifier.pinnedKey.1 Verifier.pinnedKey.2 (Verifier.quoteDigest x.quote)
    (P.signature x.quote) = true

-- The two implementations compute the same values, and every check of both accepts.
structure Agrees : Prop where
  handleMsg0 : (Verifier.handleMsg0 x.buffer0 x.exchange x.opened).out = .ok ()
  prepareMsg1 : (Verifier.prepareMsg1 x.buffer1 x.signing x.verifier0).out =
    .ok (P.putMsg1 x.verifier1.msg1 x.buffer1)
  handshake : (Attester.raNetHandshakeFinish x.pin RA_ANCHOR_SIZE x.finish x.attester0).out =
    .ok (P.anchor x.quote)
  sendQuote : (Attester.raNetSendQuote x.quote x.send x.attester1).out = .ok x.attester2.msg2
  keys : ∃ kdk km ks,
    (x.attester1.sharedKeyDerivationKey = .key kdk ∧ x.verifier0.sharedKeyDerivationKey = .key kdk) ∧
    (x.attester1.sharedMacKey = .key km ∧ x.verifier0.sharedMacKey = .key km) ∧
    (x.attester1.sharedSessionKey = .key ks ∧ x.verifier0.sharedSessionKey = .key ks)
  digest : P.sha256 (Attester.gv x.finish x.attester1.msg1 ++ Attester.ga x.finish x.attester1.msg0) =
    P.sha256 (Verifier.signedKeys x.signing x.verifier0)
  msg1Tag : Attester.msg1Transcript x.finish x.attester1.msg1 =
    Verifier.msg1Transcript x.signing x.verifier1.msg1
  msg2Tag : Attester.msg2Transcript x.send x.attester2.msg2 =
    Verifier.msg2Transcript x.check (P.getMsg2 x.buffer2)
  anchor : P.sha256 (Attester.ga x.finish x.attester1.msg0 ++ Attester.gv x.finish x.attester1.msg1) =
    P.sha256 (Verifier.anchorKeys x.check x.verifier1)
  accepted : x.checkQuote.2.result = none ∧ x.checkQuote.2.valueA = some 1

section Theorems

variable {x} (h : x.Delivered)

include h

theorem opened_eq : x.opened = Verifier.openedWith x.opening.ecdsaKey :=
  (Verifier.openSessionEntryPoint_reaches x.opening (h.openingWorks.works _ _)
    (h.openingWorks.works _ _)).2

theorem attester0_eq : x.attester0 = Attester.started x.start.ecdhKey :=
  (Attester.raNetHandshakeStart_reaches x.start x.memory
    ⟨h.startWorks.works _ _, h.startWorks.works _ _, h.startWorks.works _ _⟩).2

-- The verifier reads Ga off the message as the attester exported it.
theorem attesterPublicKey_eq (env : Env P) : Verifier.attesterPublicKey env (P.getMsg0 x.buffer0) =
    (P.pubX x.start.ecdhKey, P.pubY x.start.ecdhKey) := by
  rw [h.msg0, attester0_eq h]
  simp [Verifier.attesterPublicKey, Attester.started]

section Keys

variable {shared : P.Val}
  (hverifier : P.ecdh x.exchange.ecdhKey (P.pubX x.start.ecdhKey) (P.pubY x.start.ecdhKey) =
    some shared)

include hverifier

theorem handleMsg0_reaches : Prog.Reaches (Verifier.handleMsg0 x.buffer0) x.exchange x.opened ()
    (Verifier.exchanged x.exchange x.buffer0 shared x.opened) := by
  have hworks : Verifier.HandleMsg0Works x.exchange :=
    ⟨h.exchangeWorks.works _ _, h.exchangeWorks.works _ _, h.exchangeWorks.works _ _,
      h.exchangeWorks.works _ _, h.exchangeWorks.works _ _⟩
  apply Verifier.handleMsg0_reaches x.exchange x.opened x.buffer0 hworks h.size0
  rw [Verifier.agreed, attesterPublicKey_eq h]
  exact hverifier

theorem verifier0_eq :
    x.verifier0 = Verifier.exchanged x.exchange x.buffer0 shared
      (Verifier.openedWith x.opening.ecdsaKey) := by
  rw [← opened_eq h]
  exact (handleMsg0_reaches h hverifier).2

theorem prepareMsg1_reaches : Prog.Reaches (Verifier.prepareMsg1 x.buffer1) x.signing x.verifier0
    (P.putMsg1 x.verifier1.msg1 x.buffer1) (Verifier.signedAndTagged x.signing x.opening.ecdsaKey
      (Verifier.macKey shared) x.verifier0) := by
  have hreaches := Verifier.prepareMsg1_reaches x.signing x.verifier0 x.buffer1 h.size1
    (h.signingWorks.works _ _) (h.signingWorks.works _ _) x.opening.ecdsaKey
    (Verifier.macKey shared) (by rw [verifier0_eq h hverifier]; rfl) (by rw [verifier0_eq h hverifier]; rfl)
  have hstate : x.verifier1 = _ := hreaches.2
  rw [hstate]
  exact hreaches

-- The `msg1` of this run, field by field.
theorem verifier1_eq : x.verifier1 = Verifier.signedAndTagged x.signing x.opening.ecdsaKey
    (Verifier.macKey shared) (Verifier.exchanged x.exchange x.buffer0 shared
      (Verifier.openedWith x.opening.ecdsaKey)) := by
  rw [← verifier0_eq h hverifier]
  exact (prepareMsg1_reaches h hverifier).2

-- Gv and Ga are read alike on both sides.
theorem gv_eq (env : Env P) : Attester.gv env x.verifier1.msg1 =
    [P.pubX x.exchange.ecdhKey, P.pubY x.exchange.ecdhKey] := by
  rw [verifier1_eq h hverifier]
  simp [Attester.gv, Verifier.signedAndTagged, Verifier.withMac, Verifier.withSignature,
    Verifier.exchanged, Verifier.withKeypair]

theorem signedKeys_eq (env : Env P) : Verifier.signedKeys env x.verifier0 =
    [P.pubX x.exchange.ecdhKey, P.pubY x.exchange.ecdhKey, P.pubX x.start.ecdhKey,
      P.pubY x.start.ecdhKey] := by
  have hkey := attesterPublicKey_eq h env
  simp only [Verifier.attesterPublicKey, Prod.mk.injEq] at hkey
  rw [verifier0_eq h hverifier]
  simp [Verifier.signedKeys, Verifier.exchanged, Verifier.withKeypair, hkey]

omit hverifier in
theorem ga_eq (env : Env P) : Attester.ga env x.attester0.msg0 =
    [P.pubX x.start.ecdhKey, P.pubY x.start.ecdhKey] := by
  rw [attester0_eq h]
  simp [Attester.ga, Attester.started]

-- The exported key of the verifier is read alike in every environment.
theorem verifierKey_eq (env : Env P) : Attester.verifierKey env x.verifier1.msg1 =
    (P.val (P.exportVerifyX x.opening.ecdsaKey (P.resized P.zeroCoord)),
      P.val (P.exportVerifyY x.opening.ecdsaKey (P.resized P.zeroCoord))) := by
  rw [verifier1_eq h hverifier]
  simp only [Attester.verifierKey, Verifier.signedAndTagged, Verifier.withMac,
    Verifier.withSignature, Verifier.exchanged, Verifier.withKeypair, Verifier.openedWith]
  rw [P.read_of_le (P.size_exportVerifyX _ _), P.read_of_le (P.size_exportVerifyY _ _)]

theorem msg1Transcript_eq (env other : Env P) : Attester.msg1Transcript env x.verifier1.msg1 =
    Verifier.msg1Transcript other x.verifier1.msg1 := by
  have hgv := gv_eq h hverifier env
  have hgv' := gv_eq h hverifier other
  have hkey := verifierKey_eq h hverifier env
  have hkey' := verifierKey_eq h hverifier other
  simp only [Attester.gv, Attester.verifierKey, List.cons.injEq, Prod.mk.injEq] at hgv hgv' hkey hkey'
  simp [Attester.msg1Transcript, Verifier.msg1Transcript, hgv, hgv', hkey, hkey']

-- Every check of the attester accepts the `msg1` of this run.
theorem attester_accepts (hcrypto : CryptoCorrect P)
    (hattester : P.ecdh x.start.ecdhKey (P.pubX x.exchange.ecdhKey) (P.pubY x.exchange.ecdhKey) =
      some shared) :
    Attester.Accepts x.finish x.pin x.verifier1.msg1 x.start.ecdhKey shared x.attester0 where
  received := h.msg1
  pinned := h.pinned
  keypair := by rw [attester0_eq h]; rfl
  agreement := by
    have hgv := gv_eq h hverifier x.finish
    simp only [Attester.gv, List.cons.injEq] at hgv
    rw [Attester.agreed, hgv.1, hgv.2.1]
    exact hattester
  signature := by
    have hsignature : x.verifier1.msg1.ecdhSignature = P.sign x.opening.ecdsaKey x.signing.random
        (P.sha256 (Verifier.signedKeys x.signing x.verifier0)) := by
      rw [verifier1_eq h hverifier, ← verifier0_eq h hverifier]
      rfl
    rw [gv_eq h hverifier, ga_eq h, verifierKey_eq h hverifier, hsignature,
      signedKeys_eq h hverifier]
    exact hcrypto.verifies _ _ _ _ _
  mac := by
    have hmac : x.verifier1.msg1.mac = P.cmac (Verifier.macKey shared)
        (Verifier.msg1Transcript x.signing x.verifier1.msg1) := by
      rw [verifier1_eq h hverifier]
      rfl
    rw [hmac, msg1Transcript_eq h hverifier x.finish x.signing]
    rfl

theorem raNetHandshakeFinish_reaches (hcrypto : CryptoCorrect P)
    (hattester : P.ecdh x.start.ecdhKey (P.pubX x.exchange.ecdhKey) (P.pubY x.exchange.ecdhKey) =
      some shared) :
    Prog.Reaches (Attester.raNetHandshakeFinish x.pin RA_ANCHOR_SIZE) x.finish x.attester0
      (P.sha256 (Attester.ga x.finish x.attester0.msg0 ++ Attester.gv x.finish x.verifier1.msg1))
      (Attester.handshaken x.finish x.verifier1.msg1 shared x.attester0) := by
  have hcalm := h.finishWorks
  have hworks : Attester.FinishWorks x.finish :=
    ⟨⟨hcalm.works _ _, fun _ => hcalm.works _ _⟩, hcalm.works _ _, hcalm.works _ _,
      hcalm.works _ _, hcalm.works _ _, hcalm.works _ _, hcalm.works _ _, hcalm.works _ _⟩
  exact Attester.raNetHandshakeFinish_reaches x.finish x.attester0 hworks
    (attester_accepts h hverifier hcrypto hattester)

section Quote

variable (hattester1 : x.attester1 = Attester.handshaken x.finish x.verifier1.msg1 shared x.attester0)

include hattester1

omit hverifier in
theorem raNetSendQuote_reaches : Prog.Reaches (Attester.raNetSendQuote x.quote) x.send x.attester1
    x.attester2.msg2 { x.attester1 with
      msg2 := Attester.preparedMsg2 x.send (Attester.macKey shared) x.quote x.attester1 } := by
  have hreaches := Attester.raNetSendQuote_reaches x.send x.attester1
    ⟨h.sendWorks.works _ _, h.sendWorks.works _ _⟩ (Attester.macKey shared)
    (by rw [hattester1]; rfl) x.quote
  have hstate : x.attester2 = _ := hreaches.2
  rw [hstate]
  exact hreaches

end Quote

end Keys

end Theorems

end Exchange

namespace Bytes.Sample

-- The bytes of `msg1` as the attester declares it, and of `msg2`.
def attesterMsg1 (m : Msg1 Coord (List UInt8)) : List UInt8 :=
  m.ecdhX.bytes 4 ++ m.ecdhY.bytes 4 ++ m.ecdsaX.bytes 4 ++ m.ecdsaY.bytes 4 ++
    fit RA_SIGNATURE_SIZE m.ecdhSignature ++ fit (RA_AES_CMAC_TAG_SIZE / 8) m.mac

def attesterMsg2 (m : Msg2 Coord (List UInt8) (List UInt8)) : List UInt8 :=
  m.ecdhX.bytes 8 ++ m.ecdhY.bytes 8 ++ m.quote ++ m.mac ++ List.replicate 4 0

def quoteOn (anchor : List UInt8) : List UInt8 :=
  let signed := anchor ++ List.replicate 100 5
  signed ++ mixed 64 (RA_IMX_TEST_PUBLIC_KEY_X ++ RA_IMX_TEST_PUBLIC_KEY_Y ++ mixed 32 signed)

-- An exchange whose four public coordinates have one byte each.
def exchange : Exchange (prims platform) :=
  let opening := calm 0 3 silent
  let start := calm 5 0 silent
  let keys := calm 7 0 silent
  let memory := Attester.RaContext.fresh (prims platform)
  let attester0 := (Attester.raNetHandshakeStart start memory).state
  let buffer0 := attester0.msg0.ecdhX.bytes 8 ++ attester0.msg0.ecdhY.bytes 8
  let buffer1 : List UInt8 := List.replicate 240 0
  let opened := (Verifier.openSessionEntryPoint 0 opening (Verifier.Ctx.zero (prims platform))).state
  let verifier0 := (Verifier.handleMsg0 buffer0 keys opened).state
  let verifier1 := (Verifier.prepareMsg1 buffer1 keys verifier0).state
  let finish := calm 0 0 ⟨attesterMsg1 verifier1.msg1, fun _ => 224, fun _ => 0⟩
  let pin : Attester.Pin (prims platform) :=
    ⟨verifier1.msg1.ecdsaX.raw, 32, verifier1.msg1.ecdsaY.raw, 32⟩
  let attester1 := (Attester.raNetHandshakeFinish pin RA_ANCHOR_SIZE finish attester0).state
  let quote := quoteOn (mixed 32 (power 6 5 ++ power 36 5 ++ power 6 7 ++ power 36 7))
  let attester2 := (Attester.raNetSendQuote quote start attester1).state
  { opening := opening
    start := start
    exchange := keys
    signing := keys
    finish := finish
    send := start
    check := keys
    memory := memory
    buffer0 := buffer0
    buffer1 := buffer1
    buffer2 := attesterMsg2 attester2.msg2
    pin := pin
    quote := quote }

end Bytes.Sample

end Watz
