import Watz.Attester

namespace Watz.Attester

open Base Tee

variable {P : Prims} (env : Env P) (s : RaContext P)

section Start

-- The context once the key pair is generated.
def started (key : P.Ecdh) : RaContext P :=
  { RaContext.fresh P with
    ecdhLocalKeypair := .key key
    msg0 := ⟨P.exportX key (P.resized P.zeroCoord), P.exportY key (P.resized P.zeroCoord)⟩ }

structure StartWorks (env : Env P) : Prop where
  generate : env.Works .generateEcdhKeypair 4
  connect : env.Works .establishTcpConnection 1
  send : env.Works .sendMsg0 1

theorem raNetHandshakeStart_reaches (h : StartWorks env) :
    Prog.Reaches raNetHandshakeStart env s (started env.ecdhKey).msg0 (started env.ecdhKey) := by
  obtain ⟨hg, hc, hs⟩ := h
  simp [Prog.Reaches, raNetHandshakeStart, allocRaContext, generateEcdhKeypair,
    establishTcpConnection, sendMsg0, allocate, dump, Prog.bind_run, Prog.andThen, tee_run, hg 0,
    hg 1, hg 2, hg 3, hc 0, hs 0, started, RaContext.fresh]

theorem raNetHandshakeStart_ok {msg0 : Msg0 P.Coord}
    (h : (raNetHandshakeStart env s).out = .ok msg0) : StartWorks env := by
  simp [raNetHandshakeStart, allocRaContext, generateEcdhKeypair, establishTcpConnection,
    sendMsg0, Prog.out_bind_ok] at h
  obtain ⟨⟨h0, h1, h2, h3⟩, hc, hs, -⟩ := h
  refine ⟨?_, ?_, ?_⟩
  · simp [Env.works_succ, Env.works_zero, h0, h1, h2, h3]
  · simpa [Env.works_succ, Env.works_zero] using hc
  · simpa [Env.works_succ, Env.works_zero] using hs

end Start

section ReceiveMsg1

def ReceiveWorks (env : Env P) : Prop :=
  env.Works .receiveMsg1 1 ∧ (env.debug = true → env.Works .receiveMsg1 3)

theorem dumpRemotePublicKey_ok (msg1 : Msg1 P.Coord P.Val) :
    (dumpRemotePublicKey msg1 env s).out = .ok () ↔
      (env.debug = true → env.faults .receiveMsg1 1 = none ∧ env.faults .receiveMsg1 2 = none) := by
  cases hd : env.debug <;> simp [dumpRemotePublicKey, Prog.out_bind_ok, hd]

theorem keeps_dumpRemotePublicKey (msg1 : Msg1 P.Coord P.Val) :
    Prog.Keeps id (dumpRemotePublicKey msg1 : AttesterM P Unit) := by
  unfold dumpRemotePublicKey
  refine Prog.Keeps.ask.bind fun env => Prog.Keeps.ite ?_ (Prog.Keeps.pure ())
  refine Prog.Keeps.bind (Prog.Keeps.onFail ?_) fun _ => Prog.Keeps.emit _
  refine (keeps_allocate _ _ _).bind fun _ => (keeps_readCoord _ _).bind fun _ => ?_
  refine (keeps_readCoord _ _).bind fun _ => (keeps_tee _ _).bind fun _ => ?_
  exact (keeps_dumpObjectAttribute _ _).bind fun _ => keeps_dumpObjectAttribute _ _

theorem receiveMsg1_reaches (h : ReceiveWorks env) {msg1 : Msg1 P.Coord P.Val}
    (hmsg1 : P.recvMsg1 env.wire = some msg1) :
    Prog.Reaches receiveMsg1 env s () { s with msg1 := msg1 } := by
  unfold receiveMsg1
  apply Prog.Reaches.bind ((Prog.Keeps.emit _).reaches rfl)
  apply Prog.Reaches.bind ((keeps_tee _ _).reaches ((tee_out_ok env s _ _).mpr (h.1 0 (by omega))))
  apply Prog.Reaches.bind (Prog.Reaches.ask env s)
  apply Prog.Reaches.bind ((keeps_stores _ _).reaches rfl)
  apply Prog.Reaches.bind ((Prog.Keeps.orFail _ _).reaches
    ((Prog.orFail_out_ok env s _ _ _).mpr hmsg1))
  apply Prog.Reaches.bind (Prog.Reaches.modify _ env s)
  apply Prog.Reaches.bind ((keeps_initRefAttribute _ _).reaches rfl)
  apply Prog.Reaches.bind ((keeps_initRefAttribute _ _).reaches rfl)
  exact (keeps_dumpRemotePublicKey msg1).reaches ((dumpRemotePublicKey_ok env _ msg1).mpr
    fun hdebug => ⟨h.2 hdebug 1 (by omega), h.2 hdebug 2 (by omega)⟩)

theorem receiveMsg1_ok (h : (receiveMsg1 env s).out = .ok ()) :
    ReceiveWorks env ∧ ∃ msg1, P.recvMsg1 env.wire = some msg1 := by
  unfold receiveMsg1 at h
  simp only [Prog.out_bind_ok, Prog.exists_unit, tee_out_ok, Prog.ask_run, Out.ok.injEq,
    exists_eq_left', Prog.orFail_out_ok, dumpRemotePublicKey_ok] at h
  obtain ⟨-, h0, -, msg1, hmsg1, -, -, -, hdump⟩ := h
  refine ⟨⟨?_, fun hdebug => ?_⟩, msg1, hmsg1⟩
  · simpa [Env.works_succ, Env.works_zero] using h0
  · simp [Env.works_succ, Env.works_zero, h0, hdump hdebug]

end ReceiveMsg1

section Checks

-- The key in `msg1` is the pinned one, or nothing is pinned.
def Pinned (pin : Pin P) (msg1 : Msg1 P.Coord P.Val) : Prop :=
  pin.xSize = 0 ∧ pin.ySize = 0 ∨
    (pin.xSize = RA_ECDSA_KEY_SIZE / 8 ∧ pin.ySize = RA_ECDSA_KEY_SIZE / 8) ∧
      P.rawEq pin.x msg1.ecdsaX = true ∧ P.rawEq pin.y msg1.ecdsaY = true

theorem verifyServicePublicKey_ok (pin : Pin P) :
    (verifyServicePublicKey pin env s).out = .ok () ↔ Pinned pin s.msg1 := by
  unfold verifyServicePublicKey Pinned
  by_cases hempty : pin.xSize = 0 ∧ pin.ySize = 0
  · simp [Prog.out_bind_ok, hempty]
  · simp [Prog.out_bind_ok, hempty]

theorem keeps_verifyServicePublicKey (pin : Pin P) :
    Prog.Keeps id (verifyServicePublicKey pin : AttesterM P Unit) := by
  unfold verifyServicePublicKey
  refine Prog.Keeps.get.bind fun s => Prog.Keeps.ite (Prog.Keeps.pure ()) ?_
  refine (Prog.Keeps.require _ _).bind fun _ => ?_
  exact (Prog.Keeps.require _ _).bind fun _ => Prog.Keeps.require _ _

-- The verifier's key as the TEE reads it from `msg1`.
def verifierKey (env : Env P) (msg1 : Msg1 P.Coord P.Val) : P.Val × P.Val :=
  (P.read msg1.ecdsaX (env.adjacent .msg1EcdsaX), P.read msg1.ecdsaY (env.adjacent .msg1EcdsaY))

theorem importVerifierAttestationKey_ok :
    (importVerifierAttestationKey env s).out = .ok () ↔
      env.Works .importVerifierAttestationKey 2 := by
  simp [importVerifierAttestationKey, Prog.out_bind_ok, Env.works_succ, Env.works_zero]

theorem importVerifierAttestationKey_reaches (h : env.Works .importVerifierAttestationKey 2) :
    Prog.Reaches importVerifierAttestationKey env s ()
      { s with ecdsaVerifierPublicKey := .key (verifierKey env s.msg1) } := by
  simp [Prog.Reaches, importVerifierAttestationKey, initRefAttribute, readCoord, allocate,
    Prog.bind_run, Prog.andThen, tee_run, h 0, h 1, verifierKey]

-- Gv of `msg1` and Ga of `msg0` as the TEE reads them.
def gv (env : Env P) (msg1 : Msg1 P.Coord P.Val) : List P.Val :=
  [P.read msg1.ecdhX (env.adjacent .msg1EcdhX), P.read msg1.ecdhY (env.adjacent .msg1EcdhY)]

def ga (env : Env P) (msg0 : Msg0 P.Coord) : List P.Val :=
  [P.read msg0.ecdhX (env.adjacent .msg0X), P.read msg0.ecdhY (env.adjacent .msg0Y)]

def SignatureVerified (env : Env P) (s : RaContext P) : Prop :=
  ∃ key, s.ecdsaVerifierPublicKey = .key key ∧
    P.verify key.1 key.2 (P.sha256 (gv env s.msg1 ++ ga env s.msg0)) s.msg1.ecdhSignature = true

theorem verifyEcdhPublicKeySignature_ok :
    (verifyEcdhPublicKeySignature env s).out = .ok () ↔
      env.Works .verifyEcdhPublicKeySignature 5 ∧ SignatureVerified env s := by
  simp [verifyEcdhPublicKeySignature, Prog.out_bind_ok, Env.works_succ, Env.works_zero, sha256Len,
    RA_HASH_SIZE, SignatureVerified, gv, ga]
  grind

theorem keeps_verifyEcdhPublicKeySignature :
    Prog.Keeps id (verifyEcdhPublicKeySignature : AttesterM P Unit) := by
  unfold verifyEcdhPublicKeySignature
  refine (Prog.Keeps.emit _).bind fun _ => Prog.Keeps.get.bind fun s => ?_
  refine Prog.Keeps.bind (Prog.Keeps.onFail ?_) fun _ => Prog.Keeps.emit _
  refine (keeps_allocate _ _ _).bind fun _ => ?_
  refine (keeps_readCoord _ _).bind fun gvX => (keeps_readCoord _ _).bind fun gvY => ?_
  refine (keeps_readCoord _ _).bind fun gaX => (keeps_readCoord _ _).bind fun gaY => ?_
  refine (keeps_tee _ _).bind fun _ => (Prog.Keeps.require _ _).bind fun _ => ?_
  refine (keeps_allocate _ _ _).bind fun _ => (keeps_setOperationKey _ _ _).bind fun key => ?_
  exact Prog.Keeps.onFailWith (keeps_teeCheck _ _ _ _)

def agreed (env : Env P) (key : P.Ecdh) (msg1 : Msg1 P.Coord P.Val) : Option P.Val :=
  P.ecdh key (P.read msg1.ecdhX (env.adjacent .msg1EcdhX))
    (P.read msg1.ecdhY (env.adjacent .msg1EcdhY))

def kdk (shared : P.Val) : P.Val := P.cmac (P.lit cmacZeroKey) [shared]

theorem deriveSharedKey_ok :
    (deriveSharedKey env s).out = .ok () ↔ env.Works .deriveSharedKey 11 ∧
      ∃ key shared, s.ecdhLocalKeypair = .key key ∧ agreed env key s.msg1 = some shared :=
  derivation.deriveSharedKey_ok env s

theorem deriveSharedKey_reaches (h : env.Works .deriveSharedKey 11) (key : P.Ecdh) (shared : P.Val)
    (hkey : s.ecdhLocalKeypair = .key key) (hshared : agreed env key s.msg1 = some shared) :
    Prog.Reaches deriveSharedKey env s () { s with sharedKeyDerivationKey := .key (kdk shared) } :=
  derivation.deriveSharedKey_reaches env s h hkey hshared

theorem deriveSharedMacKey_ok (fn : Fn) (data : List UInt8) (slot : Slot)
    (store : Obj P.Val → RaContext P → RaContext P) :
    (deriveSharedMacKey fn data slot store env s).out = .ok () ↔ env.Works fn 8 ∧
      ∃ key, s.sharedKeyDerivationKey = .key key :=
  derivation.deriveSharedMacKey_ok env s fn _ slot store

def label (data : List UInt8) : P.Val := P.lit (data.take (data.length % 2 ^ 8))

theorem deriveSharedMacKey_reaches (fn : Fn) (data : List UInt8) (slot : Slot)
    (store : Obj P.Val → RaContext P → RaContext P) (h : env.Works fn 8) {key : P.Val}
    (hkey : s.sharedKeyDerivationKey = .key key) :
    Prog.Reaches (deriveSharedMacKey fn data slot store) env s ()
      (store (.key (P.cmac key [label data])) (store .empty s)) :=
  derivation.deriveSharedMacKey_reaches env s fn _ slot store h hkey

def macKey (shared : P.Val) : P.Val := P.cmac (kdk shared) [label WASI_RA_SHARED_MAC_DATA]

def sessionKey (shared : P.Val) : P.Val := P.cmac (kdk shared) [label WASI_RA_SHARED_SESSION_DATA]

-- The transcript of the tag in `msg1`.
def msg1Transcript (env : Env P) (msg1 : Msg1 P.Coord P.Val) : List P.Val :=
  [P.read msg1.ecdhX (env.adjacent .msg1EcdhX), P.read msg1.ecdhY (env.adjacent .msg1EcdhY),
    P.read msg1.ecdsaX (env.adjacent .msg1EcdsaX), P.read msg1.ecdsaY (env.adjacent .msg1EcdsaY),
    msg1.ecdhSignature]

def MacVerified (env : Env P) (s : RaContext P) : Prop :=
  ∃ key, s.sharedMacKey = .key key ∧ P.cmac key (msg1Transcript env s.msg1) = s.msg1.mac

theorem verifyMsg1Mac_ok :
    (verifyMsg1Mac env s).out = .ok () ↔ env.Works .verifyMsg1Mac 3 ∧ MacVerified env s := by
  simp [verifyMsg1Mac, Prog.out_bind_ok, Env.works_succ, Env.works_zero, MacVerified,
    msg1Transcript]
  grind

theorem keeps_verifyMsg1Mac : Prog.Keeps id (verifyMsg1Mac : AttesterM P Unit) := by
  unfold verifyMsg1Mac
  refine (Prog.Keeps.emit _).bind fun _ => Prog.Keeps.get.bind fun s => ?_
  refine (keeps_allocate _ _ _).bind fun _ => (keeps_setOperationKey _ _ _).bind fun key => ?_
  refine Prog.Keeps.bind (Prog.Keeps.onFail ?_) fun _ => Prog.Keeps.emit _
  refine (keeps_readCoord _ _).bind fun gvX => (keeps_readCoord _ _).bind fun gvY => ?_
  refine (keeps_readCoord _ _).bind fun vkX => (keeps_readCoord _ _).bind fun vkY => ?_
  exact keeps_teeCheck _ _ _ _

theorem generateAnchor_ok (anchorSize : Nat) (anchor : P.Val) :
    (generateAnchor anchorSize env s).out = .ok anchor ↔ anchorSize = RA_ANCHOR_SIZE ∧
      env.Works .generateAnchor 2 ∧ anchor = P.sha256 (ga env s.msg0 ++ gv env s.msg1) := by
  simp [generateAnchor, Prog.out_bind_ok, Env.works_succ, Env.works_zero, sha256Len,
    RA_ANCHOR_SIZE, ga, gv]
  grind

theorem keeps_generateAnchor (anchorSize : Nat) :
    Prog.Keeps id (generateAnchor anchorSize : AttesterM P P.Val) := by
  unfold generateAnchor
  refine (Prog.Keeps.require _ _).bind fun _ => (Prog.Keeps.emit _).bind fun _ => ?_
  refine Prog.Keeps.get.bind fun s => ?_
  refine Prog.Keeps.bind (Prog.Keeps.onFail ?_) fun anchor => ?_
  · refine (keeps_allocate _ _ _).bind fun _ => ?_
    refine (keeps_readCoord _ _).bind fun gaX => (keeps_readCoord _ _).bind fun gaY => ?_
    refine (keeps_readCoord _ _).bind fun gvX => (keeps_readCoord _ _).bind fun gvY => ?_
    refine (keeps_tee _ _).bind fun _ => (Prog.Keeps.require _ _).bind fun _ => ?_
    exact Prog.Keeps.pure _
  · exact (Prog.Keeps.emit _).bind fun _ => Prog.Keeps.pure anchor

end Checks

section Handshake

structure FinishWorks (env : Env P) : Prop where
  receive : ReceiveWorks env
  importKey : env.Works .importVerifierAttestationKey 2
  signature : env.Works .verifyEcdhPublicKeySignature 5
  derive : env.Works .deriveSharedKey 11
  deriveMac : env.Works .deriveMacKey 8
  deriveSession : env.Works .deriveSessionKey 8
  mac : env.Works .verifyMsg1Mac 3
  anchor : env.Works .generateAnchor 2

-- The context after a handshake with this `msg1`.
def handshaken (env : Env P) (msg1 : Msg1 P.Coord P.Val) (shared : P.Val) (s : RaContext P) :
    RaContext P :=
  { s with
    msg1 := msg1
    ecdsaVerifierPublicKey := .key (verifierKey env msg1)
    sharedKeyDerivationKey := .key (kdk shared)
    sharedMacKey := .key (macKey shared)
    sharedSessionKey := .key (sessionKey shared) }

-- What the attester accepts: the six checks on one `msg1`.
structure Accepts (env : Env P) (pin : Pin P) (msg1 : Msg1 P.Coord P.Val) (key : P.Ecdh)
    (shared : P.Val) (s : RaContext P) : Prop where
  received : P.recvMsg1 env.wire = some msg1
  pinned : Pinned pin msg1
  keypair : s.ecdhLocalKeypair = .key key
  agreement : agreed env key msg1 = some shared
  signature : P.verify (verifierKey env msg1).1 (verifierKey env msg1).2
    (P.sha256 (gv env msg1 ++ ga env s.msg0)) msg1.ecdhSignature = true
  mac : P.cmac (macKey shared) (msg1Transcript env msg1) = msg1.mac

theorem raNetHandshakeFinish_reaches (hworks : FinishWorks env) {pin : Pin P}
    {msg1 : Msg1 P.Coord P.Val} {key : P.Ecdh} {shared : P.Val}
    (h : Accepts env pin msg1 key shared s) :
    Prog.Reaches (raNetHandshakeFinish pin RA_ANCHOR_SIZE) env s
      (P.sha256 (ga env s.msg0 ++ gv env msg1)) (handshaken env msg1 shared s) := by
  unfold raNetHandshakeFinish
  apply Prog.Reaches.bind (receiveMsg1_reaches env s hworks.receive h.received)
  apply Prog.Reaches.bind ((keeps_verifyServicePublicKey pin).reaches
    ((verifyServicePublicKey_ok env _ pin).mpr h.pinned))
  apply Prog.Reaches.bind (importVerifierAttestationKey_reaches env _ hworks.importKey)
  refine Prog.Reaches.bind (keeps_verifyEcdhPublicKeySignature.reaches
    ((verifyEcdhPublicKeySignature_ok env _).mpr ⟨hworks.signature, ?_⟩)) ?_
  · exact ⟨_, rfl, h.signature⟩
  refine Prog.Reaches.bind (deriveSharedKey_reaches env _ hworks.derive key shared ?_ ?_) ?_
  · exact h.keypair
  · exact h.agreement
  apply Prog.Reaches.bind (deriveSharedMacKey_reaches env _ _ _ _ _ hworks.deriveMac rfl)
  apply Prog.Reaches.bind (deriveSharedMacKey_reaches env _ _ _ _ _ hworks.deriveSession rfl)
  refine Prog.Reaches.bind (keeps_verifyMsg1Mac.reaches
    ((verifyMsg1Mac_ok env _).mpr ⟨hworks.mac, ?_⟩)) ?_
  · exact ⟨_, rfl, h.mac⟩
  exact (keeps_generateAnchor _).reaches ((generateAnchor_ok env _ _ _).mpr
    ⟨rfl, hworks.anchor, rfl⟩)

-- Every successful handshake went through all the checks.
theorem raNetHandshakeFinish_ok {pin : Pin P} {anchorSize : Nat} {anchor : P.Val}
    (h : (raNetHandshakeFinish pin anchorSize env s).out = .ok anchor) :
    anchorSize = RA_ANCHOR_SIZE ∧ FinishWorks env ∧
      ∃ msg1 key shared, Accepts env pin msg1 key shared s := by
  unfold raNetHandshakeFinish at h
  rw [Prog.out_bind_ok, Prog.exists_unit] at h
  obtain ⟨hreceive, h⟩ := h
  obtain ⟨hreceiveWorks, msg1, hmsg1⟩ := receiveMsg1_ok env s hreceive
  rw [(receiveMsg1_reaches env s hreceiveWorks hmsg1).2, Prog.out_bind_ok, Prog.exists_unit,
    verifyServicePublicKey_ok] at h
  obtain ⟨hpinned, h⟩ := h
  rw [Prog.state_of_keeps (keeps_verifyServicePublicKey pin), Prog.out_bind_ok, Prog.exists_unit,
    importVerifierAttestationKey_ok] at h
  obtain ⟨himport, h⟩ := h
  rw [(importVerifierAttestationKey_reaches env _ himport).2, Prog.out_bind_ok, Prog.exists_unit,
    verifyEcdhPublicKeySignature_ok] at h
  obtain ⟨⟨hsignWorks, _, hkey, hverify⟩, h⟩ := h
  cases hkey
  rw [Prog.state_of_keeps keeps_verifyEcdhPublicKeySignature, Prog.out_bind_ok, Prog.exists_unit,
    deriveSharedKey_ok] at h
  obtain ⟨⟨hderive, key, shared, hkeypair, hshared⟩, h⟩ := h
  rw [(deriveSharedKey_reaches env _ hderive key shared hkeypair hshared).2, Prog.out_bind_ok,
    Prog.exists_unit, deriveSharedMacKey_ok] at h
  obtain ⟨⟨hderiveMac, -⟩, h⟩ := h
  rw [(deriveSharedMacKey_reaches env _ _ _ _ _ hderiveMac rfl).2, Prog.out_bind_ok,
    Prog.exists_unit, deriveSharedMacKey_ok] at h
  obtain ⟨⟨hderiveSession, -⟩, h⟩ := h
  rw [(deriveSharedMacKey_reaches env _ _ _ _ _ hderiveSession rfl).2, Prog.out_bind_ok,
    Prog.exists_unit, verifyMsg1Mac_ok] at h
  obtain ⟨⟨hmacWorks, _, hmacKey, hmac⟩, h⟩ := h
  cases hmacKey
  rw [generateAnchor_ok] at h
  obtain ⟨hsize, hanchor, -⟩ := h
  exact ⟨hsize, ⟨hreceiveWorks, himport, hsignWorks, hderive, hderiveMac, hderiveSession,
    hmacWorks, hanchor⟩, msg1, key, shared, hmsg1, hpinned, hkeypair, hshared, hverify, hmac⟩

end Handshake

section Quote

structure SendWorks (env : Env P) : Prop where
  prepare : env.Works .prepareMsg2 3
  send : env.Works .sendMsg2 1

-- The transcript of the tag in `msg2`.
def msg2Transcript (env : Env P) (msg2 : Msg2 P.Coord P.Quote P.Val) : List P.Val :=
  [P.read msg2.ecdhX (env.adjacent .msg2X), P.read msg2.ecdhY (env.adjacent .msg2Y),
    P.quoteBytes msg2.quote]

def untaggedMsg2 (quote : P.Quote) (s : RaContext P) : Msg2 P.Coord P.Quote P.Val :=
  { s.msg2 with ecdhX := P.copy s.msg0.ecdhX, ecdhY := P.copy s.msg0.ecdhY, quote := quote }

-- The `msg2` of an attester with this key.
def preparedMsg2 (env : Env P) (key : P.Val) (quote : P.Quote) (s : RaContext P) :
    Msg2 P.Coord P.Quote P.Val :=
  { untaggedMsg2 quote s with mac := P.cmac key (msg2Transcript env (untaggedMsg2 quote s)) }

theorem computeMsg2Mac_ok :
    (computeMsg2Mac env s).out = .ok () ↔ env.Works .prepareMsg2 3 ∧
      ∃ key, s.sharedMacKey = .key key := by
  simp [computeMsg2Mac, Prog.out_bind_ok, Env.works_succ, Env.works_zero]
  grind

theorem computeMsg2Mac_reaches (h : env.Works .prepareMsg2 3) {key : P.Val}
    (hkey : s.sharedMacKey = .key key) :
    Prog.Reaches computeMsg2Mac env s ()
      { s with msg2 := { s.msg2 with mac := P.cmac key (msg2Transcript env s.msg2) } } := by
  simp [Prog.Reaches, computeMsg2Mac, setOperationKey, readCoord, allocate, Prog.bind_run,
    Prog.andThen, Prog.orPanic, Prog.ret, Obj.key?, tee_run, h 0, h 1, h 2, hkey, msg2Transcript]

theorem atomic_computeMsg2Mac : Prog.Atomic (computeMsg2Mac : AttesterM P Unit) := by
  unfold computeMsg2Mac
  repeat' first
    | exact Prog.Atomic.modify _
    | refine Prog.Atomic.after (by simp) fun _ => ?_

theorem raNetSendQuote_reaches (h : SendWorks env) (key : P.Val)
    (hkey : s.sharedMacKey = .key key) (quote : P.Quote) :
    Prog.Reaches (raNetSendQuote quote) env s (preparedMsg2 env key quote s)
      { s with msg2 := preparedMsg2 env key quote s } := by
  obtain ⟨hp, hs⟩ := h
  simp [Prog.Reaches, raNetSendQuote, prepareMsg2, computeMsg2Mac, sendMsg2, setOperationKey,
    readCoord, allocate, Prog.ignoreFail, Prog.bind_run, Prog.andThen, Prog.orPanic, Prog.ret,
    Obj.key?, tee_run, hp 0, hp 1, hp 2, hs 0, hkey, preparedMsg2, untaggedMsg2, msg2Transcript]

theorem prepareMsg2_state {quote : P.Quote} (h : (prepareMsg2 quote env s).out = .ok ()) :
    (prepareMsg2 quote env s).state =
      (computeMsg2Mac env { s with msg2 := untaggedMsg2 quote s }).state := by
  have hout : (Prog.ignoreFail computeMsg2Mac env { s with msg2 := untaggedMsg2 quote s }).out =
      .ok () := by
    simpa [prepareMsg2, Prog.out_bind_ok, untaggedMsg2] using h
  have hmac : Prog.Reaches (Prog.ignoreFail computeMsg2Mac) env
      { s with msg2 := untaggedMsg2 quote s } () _ :=
    ⟨hout, Prog.ignoreFail_state env _ computeMsg2Mac⟩
  have hemit : ∀ (events : List Event) (s : RaContext P),
      Prog.Reaches (Prog.emit events : AttesterM P Unit) env s () s := fun _ _ => ⟨rfl, rfl⟩
  exact ((hemit _ s).bind ((Prog.Reaches.modify _ env s).bind (hmac.bind (hemit _ _)))).2

-- The message that leaves carries the tag, or the one from before when the tag could not be
-- computed.
theorem raNetSendQuote_ok {quote : P.Quote} {msg2 : Msg2 P.Coord P.Quote P.Val}
    (h : (raNetSendQuote quote env s).out = .ok msg2) :
    msg2 = untaggedMsg2 quote s ∨
      ∃ key, s.sharedMacKey = .key key ∧ msg2 = preparedMsg2 env key quote s := by
  have hmsg2 : msg2 = (computeMsg2Mac env { s with msg2 := untaggedMsg2 quote s }).state.msg2 := by
    unfold raNetSendQuote at h
    rw [Prog.out_bind_ok, Prog.exists_unit] at h
    obtain ⟨hprepare, hsend⟩ := h
    rw [prepareMsg2_state env s hprepare] at hsend
    simp [sendMsg2, Prog.out_bind_ok] at hsend
    exact hsend.2.symm
  cases hout : (computeMsg2Mac env { s with msg2 := untaggedMsg2 quote s }).out.isOk with
  | false =>
      left
      rw [hmsg2, atomic_computeMsg2Mac env _ hout]
  | true =>
      right
      obtain ⟨hworks, key, hkey⟩ := (computeMsg2Mac_ok env _).mp ((Out.isOk_unit_iff _).mp hout)
      refine ⟨key, hkey, ?_⟩
      rw [hmsg2, (computeMsg2Mac_reaches env _ hworks hkey).2]
      rfl

-- The calls that send the quote change `msg2` only.
theorem keeps_computeMsg2Mac {γ : Type} {view : RaContext P → γ}
    (h : ∀ msg2 s, view { s with msg2 := msg2 } = view s) :
    Prog.Keeps view (computeMsg2Mac : AttesterM P Unit) := by
  unfold computeMsg2Mac
  refine Prog.Keeps.get.bind fun s => (keeps_allocate _ _ _).bind fun _ => ?_
  refine (keeps_setOperationKey _ _ _).bind fun key => (keeps_readCoord _ _).bind fun x => ?_
  refine (keeps_readCoord _ _).bind fun y => (keeps_tee _ _).bind fun _ => ?_
  exact Prog.Keeps.modify fun s => h _ s

theorem keeps_sendQuote_of {γ : Type} {view : RaContext P → γ} (quote : P.Quote)
    (h : ∀ msg2 s, view { s with msg2 := msg2 } = view s) :
    Prog.Keeps view (raNetSendQuote quote : AttesterM P _) := by
  unfold raNetSendQuote prepareMsg2 sendMsg2
  refine Prog.Keeps.bind ?_ fun _ => ?_
  · refine (Prog.Keeps.emit _).bind fun _ => ?_
    refine Prog.Keeps.bind (Prog.Keeps.modify fun s => h _ s) fun _ => ?_
    exact (keeps_computeMsg2Mac h).ignoreFail.bind fun _ => Prog.Keeps.emit _
  · exact (keeps_tee _ _).bind fun _ => Prog.Keeps.get.bind fun s => Prog.Keeps.pure _

-- What the calls after the handshake never touch.
def handshakeView (s : RaContext P) :=
  (s.ecdhLocalKeypair, s.sharedMacKey, s.sharedSessionKey, s.msg0, s.msg1)

theorem keeps_raNetSendQuote (quote : P.Quote) :
    Prog.Keeps handshakeView (raNetSendQuote quote : AttesterM P _) :=
  keeps_sendQuote_of quote fun _ _ => rfl

end Quote

section ReceiveData

-- The context once the block for `msg3` is there, and once it is filled.
def withBlock (size : Nat) (s : RaContext P) : RaContext P := { s with msg3Size := size }

def withMsg3 (env : Env P) (size : Nat) (s : RaContext P) : RaContext P :=
  { s with
    msg3 := some (P.recvMsg3 env.wire (size % 2 ^ 32))
    msg3Size := size / 2 ^ 32 * 2 ^ 32 + P.recvCount3 env.wire (size % 2 ^ 32) }

theorem allocateMsg3_run (dataSize : Nat) (h : env.faults .allocateMsg3 0 = none) :
    allocateMsg3 dataSize env s =
      ⟨.ok (), withBlock (msg3BlockSize P dataSize) s, [.alloc .msg3]⟩ := by
  simp [allocateMsg3, mallocUnchecked, Prog.bind_run, Prog.andThen, Prog.orPanic, Prog.ret, h,
    withBlock]

theorem allocateMsg3_panics (dataSize : Nat) (h : env.faults .allocateMsg3 0 ≠ none) :
    (allocateMsg3 dataSize env s).out = .panic := by
  simp [allocateMsg3, mallocUnchecked, Prog.bind_run, Prog.andThen, Prog.orPanic, h]

theorem keeps_allocateMsg3 (dataSize : Nat) :
    Prog.Keeps handshakeView (allocateMsg3 dataSize : AttesterM P Unit) := by
  unfold allocateMsg3
  exact (keeps_mallocUnchecked _ _ _).bind fun _ => Prog.Keeps.modify fun _ => rfl

def msg3Dumps (P : Prims) : List Event :=
  [.print .msg3 0 30, .print .msg3 0 RA_AES_GCM_IV_SIZE,
    .print .msg3 RA_AES_GCM_IV_SIZE (RA_AES_GCM_TAG_SIZE / 8),
    .read .msg3 (RA_AES_GCM_IV_SIZE + RA_AES_GCM_TAG_SIZE / 8) 8,
    .print .msg3 P.sizeofMsg3 50, .print .msg3 0 (P.sizeofMsg3 + 50)]

theorem dumpMsg3_run :
    (dumpMsg3 : AttesterM P Unit) env s = ⟨.ok (), s, if env.debug then msg3Dumps P else []⟩ := by
  cases hdebug : env.debug <;>
    simp [dumpMsg3, print, logRead, msg3Dumps, Prog.bind_run, Prog.andThen, hdebug]

theorem keeps_dumpMsg3 : Prog.Keeps id (dumpMsg3 : AttesterM P Unit) := by
  intro env s
  rw [dumpMsg3_run]

theorem keeps_receiveMsg3 : Prog.Keeps handshakeView (receiveMsg3 : AttesterM P Unit) := by
  unfold receiveMsg3
  refine (keeps_tee _ _).bind fun _ => Prog.Keeps.ask.bind fun env => ?_
  refine Prog.Keeps.get.bind fun s => (keeps_stores _ _).bind fun _ => ?_
  exact Prog.Keeps.bind (Prog.Keeps.modify fun _ => rfl) fun _ => keeps_dumpMsg3.of_id

theorem keeps_decryptMsg3 (dataSize : Nat) :
    Prog.Keeps id (decryptMsg3 dataSize : AttesterM P (P.Val × Nat)) := by
  unfold decryptMsg3
  refine (Prog.Keeps.emit _).bind fun _ => Prog.Keeps.get.bind fun s => ?_
  refine Prog.Keeps.bind (Prog.Keeps.onFail ?_) fun data => ?_
  · refine (keeps_allocate _ _ _).bind fun _ => (keeps_setOperationKey _ _ _).bind fun key => ?_
    refine (Prog.Keeps.orPanic _).bind fun msg3 => (keeps_tee _ _).bind fun _ => ?_
    exact (keeps_teeCheck _ _ _ _).bind fun _ => Prog.Keeps.orFail _ _
  · refine (keeps_stores _ _).bind fun _ => (keeps_print _ _ _).bind fun _ => ?_
    exact (Prog.Keeps.emit _).bind fun _ => Prog.Keeps.pure _

theorem keeps_raNetReceiveData (dataSize : Nat) :
    Prog.Keeps handshakeView (raNetReceiveData dataSize : AttesterM P (P.Val × Nat)) :=
  (keeps_allocateMsg3 dataSize).bind fun _ => keeps_receiveMsg3.bind fun _ =>
    (keeps_logRead _ _ _).bind fun _ => (keeps_decryptMsg3 dataSize).of_id

theorem receiveMsg3_run (h : env.faults .receiveMsg3 0 = none) :
    receiveMsg3 env s =
      ⟨.ok (), withMsg3 env s.msg3Size s,
        .call .receiveMsg3 0 none ::
          (P.recvStores3 env.wire (s.msg3Size % 2 ^ 32)).map
              (fun range => .store .msg3 range.1 range.2) ++
            if env.debug then msg3Dumps P else []⟩ := by
  simp [receiveMsg3, stores, Prog.bind_run, Prog.andThen, tee_run, h, withMsg3, dumpMsg3_run]

theorem receiveMsg3_msg3 (h : (receiveMsg3 env s).out = .ok ()) :
    (receiveMsg3 env s).state.msg3 = some (P.recvMsg3 env.wire (s.msg3Size % 2 ^ 32)) := by
  have hworks : env.faults .receiveMsg3 0 = none := by
    simp only [receiveMsg3, Prog.out_bind_ok, Prog.exists_unit, tee_out_ok] at h
    exact h.1
  rw [receiveMsg3_run env s hworks]
  rfl

-- Data comes back only when it decrypts under the session key.
theorem raNetReceiveData_ok {dataSize : Nat} {value : P.Val × Nat}
    (h : (raNetReceiveData dataSize env s).out = .ok value) :
    ∃ key size, s.sharedSessionKey = .key key ∧
      P.gcmDecrypt key (P.recvMsg3 env.wire size).iv (P.recvMsg3 env.wire size).encryptedContent
        (P.recvMsg3 env.wire size).tag = some value.1 := by
  unfold raNetReceiveData at h
  simp only [Prog.out_bind_ok, Prog.exists_unit] at h
  obtain ⟨-, hreceive, -, hdecrypt⟩ := h
  have hsession : (receiveMsg3 env (allocateMsg3 dataSize env s).state).state.sharedSessionKey =
      s.sharedSessionKey := by
    have hview := (keeps_receiveMsg3 env (allocateMsg3 dataSize env s).state).trans
      (keeps_allocateMsg3 dataSize env s)
    exact congrArg (fun view => view.2.2.1) hview
  simp [decryptMsg3, Prog.out_bind_ok, receiveMsg3_msg3 env _ hreceive, hsession] at hdecrypt
  obtain ⟨data, ⟨-, key, ⟨-, hkey⟩, -, -, hdata⟩, rfl⟩ := hdecrypt
  exact ⟨key, _, hkey, hdata⟩

end ReceiveData

end Watz.Attester
