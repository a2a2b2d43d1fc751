import Watz.Verifier.Session

namespace Watz.Verifier

open Base Tee

variable {P : Prims} (env : Env P) (s : Ctx P)

section OpenSession

def pinnedKey : P.Val × P.Val := (P.lit RA_IMX_TEST_PUBLIC_KEY_X, P.lit RA_IMX_TEST_PUBLIC_KEY_Y)

-- The context of a session that has just been opened.
def openedWith (key : P.Ecdsa) : Ctx P :=
  { Ctx.zero P with
    ecdsaAttesterPublicKey := .key pinnedKey
    ecdsaLocalKeypair := .key key
    msg1 := { (Ctx.zero P).msg1 with
      ecdsaX := P.exportVerifyX key (P.resized P.zeroCoord)
      ecdsaY := P.exportVerifyY key (P.resized P.zeroCoord) } }

theorem openSessionEntryPoint_reaches (himport : env.Works .importAttesterAttestationKey 2)
    (hgenerate : env.Works .generateEcdsaKeypair 4) :
    Prog.Reaches (openSessionEntryPoint 0) env (Ctx.zero P) () (openedWith env.ecdsaKey) := by
  simp [Prog.Reaches, openSessionEntryPoint, importAttesterAttestationKey, generateEcdsaKeypair,
    allocate, dump, Prog.require, Prog.ret, Prog.bind_run, Prog.andThen, tee_run, himport 0,
    himport 1, hgenerate 0, hgenerate 1, hgenerate 2, hgenerate 3, TEE_PARAM_TYPES,
    TEE_PARAM_TYPE_NONE, openedWith, pinnedKey, Ctx.zero]

theorem openSessionEntryPoint_ok {paramTypes : Nat}
    (h : (openSessionEntryPoint paramTypes env s).out = .ok ()) :
    paramTypes = 0 ∧ env.Works .importAttesterAttestationKey 2 ∧
      env.Works .generateEcdsaKeypair 4 := by
  simp [openSessionEntryPoint, importAttesterAttestationKey, generateEcdsaKeypair,
    Prog.out_bind_ok, TEE_PARAM_TYPES, TEE_PARAM_TYPE_NONE] at h
  simp [Env.works_succ, Env.works_zero, h]

theorem opened_eq {s : Ctx P} (h : Opened s) : ∃ key, s = openedWith key := by
  obtain ⟨paramTypes, env, hok, rfl⟩ := h
  obtain ⟨rfl, himport, hgenerate⟩ := openSessionEntryPoint_ok env _ hok
  exact ⟨env.ecdsaKey, (openSessionEntryPoint_reaches env himport hgenerate).2⟩

end OpenSession

section HandleMsg0

theorem generateEcdhKeypair_ok :
    (generateEcdhKeypair env s).out = .ok () ↔ env.Works .generateEcdhKeypair 4 := by
  simp [generateEcdhKeypair, Prog.out_bind_ok, Env.works_succ, Env.works_zero, and_assoc]

def withKeypair (key : P.Ecdh) (s : Ctx P) : Ctx P :=
  { s with
    ecdhLocalKeypair := .key key
    msg1 := { s.msg1 with
      ecdhX := P.exportX key (P.resized s.msg1.ecdhX)
      ecdhY := P.exportY key (P.resized s.msg1.ecdhY) } }

theorem generateEcdhKeypair_reaches (h : env.Works .generateEcdhKeypair 4) :
    Prog.Reaches generateEcdhKeypair env s () (withKeypair env.ecdhKey s) := by
  simp [Prog.Reaches, generateEcdhKeypair, allocate, dump, Prog.bind_run, Prog.andThen, tee_run,
    h 0, h 1, h 2, h 3, withKeypair]

theorem storeMsg0_ok (buffer : P.Buf) :
    (storeMsg0 buffer env s).out = .ok () ↔ P.sizeofMsg0 ≤ P.bufSize buffer := by
  simp [storeMsg0, Prog.out_bind_ok]

theorem storeMsg0_reaches (buffer : P.Buf) (h : P.sizeofMsg0 ≤ P.bufSize buffer) :
    Prog.Reaches (storeMsg0 buffer) env s () { s with msg0 := P.getMsg0 buffer } := by
  simp [Prog.Reaches, storeMsg0, dump, Prog.bind_run, Prog.andThen, Prog.require, Prog.ret, h]

theorem populateAttesterKey_ok :
    (populateAttesterKey env s).out = .ok () ↔ env.Works .populateAttesterKey 2 := by
  simp [populateAttesterKey, Prog.out_bind_ok, Env.works_succ, Env.works_zero]

-- The two values that the TEE reads through the attributes of the attester's key.
def attesterPublicKey (env : Env P) (msg0 : Msg0 P.Coord) : P.Val × P.Val :=
  (P.read msg0.ecdhX (env.adjacent .msg0X), P.read msg0.ecdhY (env.adjacent .msg0Y))

theorem populateAttesterKey_reaches (h : env.Works .populateAttesterKey 2) :
    Prog.Reaches populateAttesterKey env s ()
      { s with ecdhAttesterPublicKey := .key (attesterPublicKey env s.msg0) } := by
  simp [Prog.Reaches, populateAttesterKey, initRefAttribute, readCoord, allocate, Prog.bind_run,
    Prog.andThen, tee_run, h 0, h 1, attesterPublicKey]

-- The shared secret of a key pair and the public key in `msg0`.
def agreed (env : Env P) (key : P.Ecdh) (msg0 : Msg0 P.Coord) : Option P.Val :=
  P.ecdh key (attesterPublicKey env msg0).1 (attesterPublicKey env msg0).2

def kdk (shared : P.Val) : P.Val := P.cmac (P.lit cmacZeroKey) [shared]

theorem deriveSharedKey_ok :
    (deriveSharedKey env s).out = .ok () ↔ env.Works .deriveSharedKey 11 ∧
      ∃ key shared, s.ecdhLocalKeypair = .key key ∧ agreed env key s.msg0 = some shared :=
  derivation.deriveSharedKey_ok env s

theorem deriveSharedKey_reaches (h : env.Works .deriveSharedKey 11) {key : P.Ecdh} {shared : P.Val}
    (hkey : s.ecdhLocalKeypair = .key key) (hshared : agreed env key s.msg0 = some shared) :
    Prog.Reaches deriveSharedKey env s () { s with sharedKeyDerivationKey := .key (kdk shared) } :=
  derivation.deriveSharedKey_reaches env s h hkey hshared

theorem deriveSharedMacKey_ok (fn : Fn) (data : List UInt8) (slot : Slot)
    (store : Obj P.Val → Ctx P → Ctx P) :
    (deriveSharedMacKey fn data slot store env s).out = .ok () ↔ env.Works fn 8 ∧
      ∃ key, s.sharedKeyDerivationKey = .key key :=
  derivation.deriveSharedMacKey_ok env s fn data slot store

theorem deriveSharedMacKey_reaches (fn : Fn) (data : List UInt8) (slot : Slot)
    (store : Obj P.Val → Ctx P → Ctx P) (h : env.Works fn 8) {key : P.Val}
    (hkey : s.sharedKeyDerivationKey = .key key) :
    Prog.Reaches (deriveSharedMacKey fn data slot store) env s ()
      (store (.key (P.cmac key [P.lit data])) (store .empty s)) :=
  derivation.deriveSharedMacKey_reaches env s fn data slot store h hkey

def macKey (shared : P.Val) : P.Val := P.cmac (kdk shared) [P.lit RA_SHARED_MAC_DATA]

def sessionKey (shared : P.Val) : P.Val := P.cmac (kdk shared) [P.lit RA_SHARED_SESSION_DATA]

-- The TEE calls of `handle_msg0`.
structure HandleMsg0Works (env : Env P) : Prop where
  generate : env.Works .generateEcdhKeypair 4
  populate : env.Works .populateAttesterKey 2
  derive : env.Works .deriveSharedKey 11
  deriveMac : env.Works .deriveMacKey 8
  deriveSession : env.Works .deriveSessionKey 8

-- The context that a successful `handle_msg0` leaves.
def exchanged (env : Env P) (buffer : P.Buf) (shared : P.Val) (s : Ctx P) : Ctx P :=
  { withKeypair env.ecdhKey s with
    msg0 := P.getMsg0 buffer
    ecdhAttesterPublicKey := .key (attesterPublicKey env (P.getMsg0 buffer))
    sharedKeyDerivationKey := .key (kdk shared)
    sharedMacKey := .key (macKey shared)
    sharedSessionKey := .key (sessionKey shared) }

theorem handleMsg0_reaches (buffer : P.Buf) (hworks : HandleMsg0Works env)
    (hsize : P.sizeofMsg0 ≤ P.bufSize buffer) {shared : P.Val}
    (hshared : agreed env env.ecdhKey (P.getMsg0 buffer) = some shared) :
    Prog.Reaches (handleMsg0 buffer) env s () (exchanged env buffer shared s) := by
  unfold handleMsg0
  apply Prog.Reaches.bind (generateEcdhKeypair_reaches env s hworks.generate)
  apply Prog.Reaches.bind (storeMsg0_reaches env _ buffer hsize)
  apply Prog.Reaches.bind (populateAttesterKey_reaches env _ hworks.populate)
  apply Prog.Reaches.bind (deriveSharedKey_reaches env _ hworks.derive rfl hshared)
  apply Prog.Reaches.bind (deriveSharedMacKey_reaches env _ _ _ _ _ hworks.deriveMac rfl)
  exact deriveSharedMacKey_reaches env _ _ _ _ _ hworks.deriveSession rfl

theorem handleMsg0_ok (buffer : P.Buf) :
    (handleMsg0 buffer env s).out = .ok () ↔ HandleMsg0Works env ∧
      P.sizeofMsg0 ≤ P.bufSize buffer ∧
      ∃ shared, agreed env env.ecdhKey (P.getMsg0 buffer) = some shared := by
  constructor
  · intro h
    unfold handleMsg0 at h
    simp only [Prog.out_bind_ok, Prog.exists_unit, generateEcdhKeypair_ok, storeMsg0_ok,
      populateAttesterKey_ok, deriveSharedKey_ok, deriveSharedMacKey_ok] at h
    obtain ⟨hg, hsize, hp, ⟨hd, key, shared, hkey, hshared⟩, ⟨hm, -⟩, hs, -⟩ := h
    rw [(generateEcdhKeypair_reaches env s hg).2, (storeMsg0_reaches env _ buffer hsize).2,
      (populateAttesterKey_reaches env _ hp).2] at hkey hshared
    obtain rfl : env.ecdhKey = key := by simpa [withKeypair] using hkey
    exact ⟨⟨hg, hp, hd, hm, hs⟩, hsize, shared, hshared⟩
  · rintro ⟨hworks, hsize, shared, hshared⟩
    exact (handleMsg0_reaches env s buffer hworks hsize hshared).1

end HandleMsg0

section PrepareMsg1

-- Gv and Ga in the order in which the verifier signs them.
def signedKeys (env : Env P) (s : Ctx P) : List P.Val :=
  [P.read s.msg1.ecdhX (env.adjacent .msg1EcdhX), P.read s.msg1.ecdhY (env.adjacent .msg1EcdhY),
    P.read s.msg0.ecdhX (env.adjacent .msg0X), P.read s.msg0.ecdhY (env.adjacent .msg0Y)]

def withSignature (signature : P.Val) (s : Ctx P) : Ctx P :=
  { s with msg1 := { s.msg1 with ecdhSignature := signature } }

def withMac (mac : P.Val) (s : Ctx P) : Ctx P :=
  { s with msg1 := { s.msg1 with mac := mac } }

theorem appendEcdhPublicKeysSignature_ok :
    (appendEcdhPublicKeysSignature env s).out = .ok () ↔
      env.Works .appendEcdhPublicKeysSignature 5 ∧ ∃ key, s.ecdsaLocalKeypair = .key key := by
  simp [appendEcdhPublicKeysSignature, Prog.out_bind_ok, Env.works_succ, Env.works_zero,
    sha256Len, RA_HASH_SIZE, p256SignatureLen, RA_SIGNATURE_SIZE]
  grind

theorem appendEcdhPublicKeysSignature_reaches (h : env.Works .appendEcdhPublicKeysSignature 5)
    {key : P.Ecdsa} (hkey : s.ecdsaLocalKeypair = .key key) :
    Prog.Reaches appendEcdhPublicKeysSignature env s ()
      (withSignature (P.sign key env.random (P.sha256 (signedKeys env s))) s) := by
  simp [Prog.Reaches, appendEcdhPublicKeysSignature, setOperationKey, readCoord, allocate, dump,
    Prog.onFail, Prog.require, Prog.bind_run, Prog.andThen, Prog.orPanic, Prog.ret, Obj.key?,
    tee_run, h 0, h 1, h 2, h 3, h 4, hkey, sha256Len, RA_HASH_SIZE, p256SignatureLen,
    RA_SIGNATURE_SIZE, withSignature, signedKeys]

-- The transcript of the tag in `msg1`.
def msg1Transcript (env : Env P) (msg1 : Msg1 P.Coord P.Val) : List P.Val :=
  [P.read msg1.ecdhX (env.adjacent .msg1EcdhX), P.read msg1.ecdhY (env.adjacent .msg1EcdhY),
    P.read msg1.ecdsaX (env.adjacent .msg1EcdsaX), P.read msg1.ecdsaY (env.adjacent .msg1EcdsaY),
    msg1.ecdhSignature]

theorem appendMac_ok :
    (appendMac env s).out = .ok () ↔ env.Works .appendMac 3 ∧ ∃ key, s.sharedMacKey = .key key := by
  simp [appendMac, Prog.out_bind_ok, Env.works_succ, Env.works_zero, cmacLen,
    RA_AES_CMAC_TAG_SIZE]
  grind

theorem appendMac_reaches (h : env.Works .appendMac 3) {key : P.Val}
    (hkey : s.sharedMacKey = .key key) :
    Prog.Reaches appendMac env s () (withMac (P.cmac key (msg1Transcript env s.msg1)) s) := by
  simp [Prog.Reaches, appendMac, setOperationKey, readCoord, allocate, Prog.onFail, Prog.require,
    Prog.bind_run, Prog.andThen, Prog.orPanic, Prog.ret, Obj.key?, tee_run, h 0, h 1, h 2, hkey,
    cmacLen, RA_AES_CMAC_TAG_SIZE, withMac, msg1Transcript]

-- The context that a successful `prepare_msg1` leaves.
def signedAndTagged (env : Env P) (ecdsa : P.Ecdsa) (mac : P.Val) (s : Ctx P) : Ctx P :=
  let signed := withSignature (P.sign ecdsa env.random (P.sha256 (signedKeys env s))) s
  withMac (P.cmac mac (msg1Transcript env signed.msg1)) signed

theorem prepareMsg1_reaches (buffer : P.Buf) (hsize : P.sizeofMsg1 ≤ P.bufSize buffer)
    (hsign : env.Works .appendEcdhPublicKeysSignature 5) (hmac : env.Works .appendMac 3)
    (ecdsa : P.Ecdsa) (mac : P.Val) (hecdsa : s.ecdsaLocalKeypair = .key ecdsa)
    (hkey : s.sharedMacKey = .key mac) :
    Prog.Reaches (prepareMsg1 buffer) env s
      (P.putMsg1 (signedAndTagged env ecdsa mac s).msg1 buffer) (signedAndTagged env ecdsa mac s) := by
  unfold prepareMsg1
  apply Prog.Reaches.bind (Prog.Reaches.require (decide_eq_true hsize) _ env s)
  apply Prog.Reaches.bind (appendEcdhPublicKeysSignature_reaches env s hsign hecdsa)
  refine Prog.Reaches.bind (appendMac_reaches env _ hmac ?_) ⟨rfl, rfl⟩
  exact hkey

theorem prepareMsg1_ok (buffer sent : P.Buf) (h : (prepareMsg1 buffer env s).out = .ok sent) :
    P.sizeofMsg1 ≤ P.bufSize buffer ∧ env.Works .appendEcdhPublicKeysSignature 5 ∧
      env.Works .appendMac 3 ∧
      ∃ ecdsa mac, s.ecdsaLocalKeypair = .key ecdsa ∧ s.sharedMacKey = .key mac := by
  unfold prepareMsg1 at h
  simp only [Prog.out_bind_ok, Prog.exists_unit, Prog.require_out_ok, Prog.require_state,
    decide_eq_true_eq, appendEcdhPublicKeysSignature_ok, appendMac_ok] at h
  obtain ⟨hsize, ⟨hsign, ecdsa, hecdsa⟩, ⟨hmac, mac, hkey⟩, -⟩ := h
  rw [(appendEcdhPublicKeysSignature_reaches env s hsign hecdsa).2] at hkey
  exact ⟨hsize, hsign, hmac, ecdsa, mac, hecdsa, hkey⟩

end PrepareMsg1

section HandleMsg2

def msg2Transcript (env : Env P) (msg2 : Msg2 P.Coord P.Quote P.Val) : List P.Val :=
  [P.read msg2.ecdhX (env.adjacent .msg2X), P.read msg2.ecdhY (env.adjacent .msg2Y),
    P.quoteBytes msg2.quote]

-- The four things that `handle_msg2` checks, as predicates of the context.
def MacPassed (env : Env P) (s : Ctx P) : Prop :=
  ∃ key, s.sharedMacKey = .key key ∧ P.cmac key (msg2Transcript env s.msg2) = s.msg2.mac

def compares (env : Env P) (field : Field) (c d : P.Coord) : Bool :=
  if P.size c ≤ RA_ECDH_KEY_SIZE / 8 then P.same c d else env.overCompare field

def KeyMatches (env : Env P) (s : Ctx P) : Prop :=
  compares env .msg0X s.msg0.ecdhX s.msg2.ecdhX = true ∧
    compares env .msg0Y s.msg0.ecdhY s.msg2.ecdhY = true

def SignaturePassed (s : Ctx P) : Prop :=
  ∃ key, s.ecdsaAttesterPublicKey = .key key ∧
    P.verify key.1 key.2 (quoteDigest s.msg2.quote) (P.signature s.msg2.quote) = true

-- Ga and Gv in the order in which the anchor binds them.
def anchorKeys (env : Env P) (s : Ctx P) : List P.Val :=
  [P.read s.msg0.ecdhX (env.adjacent .msg0X), P.read s.msg0.ecdhY (env.adjacent .msg0Y),
    P.read s.msg1.ecdhX (env.adjacent .msg1EcdhX), P.read s.msg1.ecdhY (env.adjacent .msg1EcdhY)]

def AnchorPassed (env : Env P) (s : Ctx P) : Prop :=
  P.anchor s.msg2.quote = P.sha256 (anchorKeys env s)

theorem verifyMacMsg2_ok :
    (verifyMacMsg2 env s).out = .ok () ↔ env.Works .verifyMacMsg2 3 ∧ MacPassed env s := by
  simp [verifyMacMsg2, Prog.out_bind_ok, Env.works_succ, Env.works_zero, MacPassed, msg2Transcript]
  grind

theorem verifyPublicKeyMsg2MatchesMsg0_ok :
    (verifyPublicKeyMsg2MatchesMsg0 env s).out = .ok () ↔ KeyMatches env s := by
  simp [verifyPublicKeyMsg2MatchesMsg0, Prog.out_bind_ok, KeyMatches, compares]

theorem verifyQuoteSignature_ok :
    (verifyQuoteSignature env s).out = .ok () ↔
      env.Works .verifyQuoteSignature 5 ∧ SignaturePassed s := by
  simp [verifyQuoteSignature, Prog.out_bind_ok, Env.works_succ, Env.works_zero, sha256Len,
    RA_HASH_SIZE, SignaturePassed]
  grind

theorem verifyAnchor_ok :
    (verifyAnchor env s).out = .ok () ↔ env.Works .verifyAnchor 2 ∧ AnchorPassed env s := by
  simp [verifyAnchor, Prog.out_bind_ok, Env.works_succ, Env.works_zero, sha256Len, RA_ANCHOR_SIZE,
    AnchorPassed, anchorKeys, and_assoc]

theorem keeps_verifyMacMsg2 : Prog.Keeps id (verifyMacMsg2 : VerifierM P Unit) := by
  unfold verifyMacMsg2
  refine (Prog.Keeps.emit _).bind fun _ => Prog.Keeps.get.bind fun s => ?_
  refine Prog.Keeps.bind (Prog.Keeps.onFail ?_) fun _ => Prog.Keeps.emit _
  refine (keeps_allocate _ _ _).bind fun _ => (keeps_setOperationKey _ _ _).bind fun key => ?_
  refine (keeps_readCoord _ _).bind fun x => (keeps_readCoord _ _).bind fun y => ?_
  exact keeps_teeCheck _ _ _ _

theorem keeps_verifyPublicKeyMsg2MatchesMsg0 :
    Prog.Keeps id (verifyPublicKeyMsg2MatchesMsg0 : VerifierM P Unit) := by
  unfold verifyPublicKeyMsg2MatchesMsg0
  refine Prog.Keeps.get.bind fun s => (keeps_memCompare _ _ _ _).bind fun equalX => ?_
  refine (Prog.Keeps.require _ _).bind fun _ => ?_
  exact (keeps_memCompare _ _ _ _).bind fun equalY => Prog.Keeps.require _ _

theorem keeps_verifyAnchor : Prog.Keeps id (verifyAnchor : VerifierM P Unit) := by
  unfold verifyAnchor
  refine (Prog.Keeps.emit _).bind fun _ => Prog.Keeps.get.bind fun s => ?_
  refine Prog.Keeps.bind (Prog.Keeps.onFail ?_) fun digest => ?_
  · refine (keeps_allocate _ _ _).bind fun _ => ?_
    refine (keeps_readCoord _ _).bind fun gaX => (keeps_readCoord _ _).bind fun gaY => ?_
    refine (keeps_readCoord _ _).bind fun gvX => (keeps_readCoord _ _).bind fun gvY => ?_
    refine (keeps_tee _ _).bind fun _ => (Prog.Keeps.require _ _).bind fun _ => ?_
    exact Prog.Keeps.pure _
  · exact (Prog.Keeps.require _ _).bind fun _ => Prog.Keeps.emit _

theorem atomic_verifyQuoteSignature :
    Prog.Atomic (verifyQuoteSignature : VerifierM P Unit) := by
  unfold verifyQuoteSignature
  apply Prog.Atomic.after (by simp)
  intro _
  apply Prog.Atomic.after (by simp)
  intro s
  refine Prog.Atomic.before (Prog.Atomic.onFail ?_) (by simp)
  repeat' first
    | exact Prog.Atomic.modify _
    | refine Prog.Atomic.after (by simp) fun _ => ?_

theorem verifyQuoteSignature_reaches (h : env.Works .verifyQuoteSignature 5)
    (hpassed : SignaturePassed s) :
    Prog.Reaches verifyQuoteSignature env s () { s with isQuoteValid := true } := by
  obtain ⟨key, hkey, hverify⟩ := hpassed
  refine ⟨(verifyQuoteSignature_ok env s).mpr ⟨h, key, hkey, hverify⟩, ?_⟩
  simp [verifyQuoteSignature, setOperationKey, allocate, teeCheck, Prog.call, Prog.onFail,
    Prog.require, Prog.bind_run, Prog.andThen, Prog.orPanic, Prog.ret, Obj.key?, tee_run, h 0,
    h 1, h 2, h 3, h 4, hkey, hverify, sha256Len, RA_HASH_SIZE]

-- The context in which the checks of `handle_msg2` run.
def received (buffer : P.Buf) (s : Ctx P) : Ctx P :=
  { s with isQuoteValid := false, msg2 := P.getMsg2 buffer }

theorem storeMsg2_ok (buffer : P.Buf) :
    (storeMsg2 buffer env s).out = .ok () ↔ P.sizeofMsg2 ≤ P.bufSize buffer := by
  simp [storeMsg2, Prog.out_bind_ok]

theorem storeMsg2_reaches (buffer : P.Buf) (h : P.sizeofMsg2 ≤ P.bufSize buffer) :
    Prog.Reaches (storeMsg2 buffer) env s () { s with msg2 := P.getMsg2 buffer } := by
  simp [Prog.Reaches, storeMsg2, Prog.bind_run, Prog.andThen, Prog.require, Prog.ret, h]

theorem atomic_storeMsg2 (buffer : P.Buf) :
    Prog.Atomic (storeMsg2 buffer : VerifierM P Unit) :=
  Prog.Atomic.after (by simp) fun _ => Prog.Atomic.modify _

-- The checks that come before the flag is set, with their TEE calls.
structure Vetted (env : Env P) (s : Ctx P) : Prop where
  macWorks : env.Works .verifyMacMsg2 3
  mac : MacPassed env s
  key : KeyMatches env s
  signatureWorks : env.Works .verifyQuoteSignature 5
  signature : SignaturePassed s

theorem handleMsg2_vetted (buffer : P.Buf) (hsize : P.sizeofMsg2 ≤ P.bufSize buffer)
    (h : Vetted env (received buffer s)) :
    (handleMsg2 buffer env s).state = { received buffer s with isQuoteValid := true } ∧
      ((handleMsg2 buffer env s).out = .ok () ↔
        env.Works .verifyAnchor 2 ∧ AnchorPassed env (received buffer s)) := by
  have hstore : Prog.Reaches (storeMsg2 buffer) env { s with isQuoteValid := false } ()
      (received buffer s) := storeMsg2_reaches env _ buffer hsize
  have hmac := keeps_verifyMacMsg2.reaches
    ((verifyMacMsg2_ok env (received buffer s)).mpr ⟨h.macWorks, h.mac⟩)
  have hkey := keeps_verifyPublicKeyMsg2MatchesMsg0.reaches
    ((verifyPublicKeyMsg2MatchesMsg0_ok env (received buffer s)).mpr h.key)
  have hsignature := verifyQuoteSignature_reaches env _ h.signatureWorks h.signature
  unfold handleMsg2
  rw [(Prog.Reaches.modify _ env s).bind_state, (Prog.Reaches.modify _ env s).bind_out,
    hstore.bind_state, hstore.bind_out, hmac.bind_state, hmac.bind_out, hkey.bind_state,
    hkey.bind_out, hsignature.bind_state, hsignature.bind_out]
  exact ⟨keeps_verifyAnchor env _, verifyAnchor_ok env _⟩

-- Without these checks the command fails with the flag cleared.
theorem handleMsg2_not_vetted (buffer : P.Buf)
    (h : ¬ (P.sizeofMsg2 ≤ P.bufSize buffer ∧ Vetted env (received buffer s))) :
    (handleMsg2 buffer env s).out.isOk = false ∧
      (handleMsg2 buffer env s).state.isQuoteValid = false := by
  unfold handleMsg2
  rw [(Prog.Reaches.modify _ env s).bind_state, (Prog.Reaches.modify _ env s).bind_out]
  by_cases hsize : P.sizeofMsg2 ≤ P.bufSize buffer
  · have hstore : Prog.Reaches (storeMsg2 buffer) env { s with isQuoteValid := false } ()
        (received buffer s) := storeMsg2_reaches env _ buffer hsize
    rw [hstore.bind_state, hstore.bind_out]
    rcases keeps_verifyMacMsg2.bind_cases _ env (received buffer s) with
      ⟨_, hmac, hout, hstate⟩ | ⟨-, hout, hstate⟩
    · rw [hout, hstate]
      rcases keeps_verifyPublicKeyMsg2MatchesMsg0.bind_cases _ env (received buffer s) with
        ⟨_, hkey, hout, hstate⟩ | ⟨-, hout, hstate⟩
      · rw [hout, hstate]
        have hmac := (verifyMacMsg2_ok env _).mp hmac
        have hkey := (verifyPublicKeyMsg2MatchesMsg0_ok env _).mp hkey
        have hsignature : (verifyQuoteSignature env (received buffer s)).out.isOk = false := by
          by_contra hok
          have hok := (Out.isOk_unit_iff _).mp (by simpa using hok)
          obtain ⟨hworks, hpassed⟩ := (verifyQuoteSignature_ok env _).mp hok
          exact h ⟨hsize, hmac.1, hmac.2, hkey, hworks, hpassed⟩
        refine ⟨Prog.isOk_bind_of_not_ok _ _ _ _ hsignature, ?_⟩
        rw [Prog.state_bind_of_not_ok _ _ _ _ hsignature,
          atomic_verifyQuoteSignature env _ hsignature]
        rfl
      · rw [hout, hstate]
        exact ⟨rfl, rfl⟩
    · rw [hout, hstate]
      exact ⟨rfl, rfl⟩
  · have hstore : (storeMsg2 buffer env { s with isQuoteValid := false }).out.isOk = false := by
      by_contra hok
      exact hsize ((storeMsg2_ok env _ buffer).mp ((Out.isOk_unit_iff _).mp (by simpa using hok)))
    refine ⟨Prog.isOk_bind_of_not_ok _ _ _ _ hstore, ?_⟩
    rw [Prog.state_bind_of_not_ok _ _ _ _ hstore, atomic_storeMsg2 buffer env _ hstore]

-- The message in the buffer is accepted in this context.
structure Accepts (env : Env P) (buffer : P.Buf) (s : Ctx P) : Prop where
  size : P.sizeofMsg2 ≤ P.bufSize buffer
  vetted : Vetted env (received buffer s)
  anchorWorks : env.Works .verifyAnchor 2
  anchor : AnchorPassed env (received buffer s)

theorem handleMsg2_ok (buffer : P.Buf) :
    (handleMsg2 buffer env s).out = .ok () ↔ Accepts env buffer s := by
  by_cases h : P.sizeofMsg2 ≤ P.bufSize buffer ∧ Vetted env (received buffer s)
  · rw [(handleMsg2_vetted env s buffer h.1 h.2).2]
    exact ⟨fun ha => ⟨h.1, h.2, ha.1, ha.2⟩, fun ha => ⟨ha.anchorWorks, ha.anchor⟩⟩
  · have hout := (handleMsg2_not_vetted env s buffer h).1
    constructor
    · intro hok
      rw [hok] at hout
      cases hout
    · intro ha
      exact absurd ⟨ha.size, ha.vetted⟩ h

end HandleMsg2

section PrepareMsg3

-- The command can put the secret into the buffer.
structure Releasable (env : Env P) (buffer : P.Buf) (s : Ctx P) : Prop where
  size : P.sizeofMsg3 ≤ P.bufSize buffer
  malloc : env.Works .allocateMsg3 1
  works : env.Works .encryptMsg3 4
  fits : P.len s.secret ≤ P.bufSize buffer - P.sizeofMsg3
  key : ∃ key, s.sharedSessionKey = .key key

theorem keeps_allocateMsg3 (buffer : P.Buf) :
    Prog.Keeps id (allocateMsg3 buffer : VerifierM P Unit) := by
  simp [allocateMsg3]

def sealedMsg3 (env : Env P) (key data : P.Val) : Msg3 P.Val :=
  let sealed := P.gcmEncrypt key env.iv data
  ⟨env.iv, sealed.2, P.len data, sealed.1⟩

theorem prepareMsg3_ok (buffer sent : P.Buf) :
    (prepareMsg3 buffer s.secret env s).out = .ok sent ↔ Releasable env buffer s ∧
      ∃ key, s.sharedSessionKey = .key key ∧
        sent = P.putMsg3 (sealedMsg3 env key s.secret) buffer := by
  constructor
  · intro h
    have hsame : (allocateMsg3 buffer env s).state = s := keeps_allocateMsg3 buffer env s
    unfold prepareMsg3 at h
    simp only [Prog.out_bind_ok, Prog.exists_unit, hsame] at h
    simp [allocateMsg3, encryptMsg3, Prog.out_bind_ok] at h
    obtain ⟨⟨hsize, hmalloc⟩, key, ⟨h0, ⟨h1, hkey⟩, h2, h3, hfits⟩, rfl⟩ := h
    refine ⟨⟨hsize, ?_, ?_, hfits, key, hkey⟩, key, hkey, rfl⟩
    · simpa [Env.works_succ, Env.works_zero] using hmalloc
    · simp [Env.works_succ, Env.works_zero, h0, h1, h2, h3]
  · rintro ⟨⟨hsize, hmalloc, hworks, hfits, -⟩, key, hkey, rfl⟩
    simp [prepareMsg3, allocateMsg3, mallocUnchecked, encryptMsg3, setOperationKey, allocate,
      teeCheck, Prog.call, Prog.onFail, Prog.require, Prog.bind_run, Prog.andThen, Prog.orPanic,
      Prog.ret, Obj.key?, tee_run, hmalloc 0, hworks 0, hworks 1, hworks 2, hworks 3, hsize,
      hfits, hkey, sealedMsg3]

theorem keeps_encryptMsg3 (buffer : P.Buf) (data : P.Val) :
    Prog.Keeps id (encryptMsg3 buffer data : VerifierM P P.Buf) := by
  unfold encryptMsg3
  refine (Prog.Keeps.emit _).bind fun _ => Prog.Keeps.get.bind fun s => ?_
  refine Prog.Keeps.ask.bind fun env => ?_
  refine Prog.Keeps.bind (Prog.Keeps.onFail ?_) fun key => ?_
  · refine (keeps_allocate _ _ _).bind fun _ => (keeps_setOperationKey _ _ _).bind fun key => ?_
    refine (keeps_tee _ _).bind fun _ => (keeps_teeCheck _ _ _ _).bind fun _ => ?_
    exact Prog.Keeps.pure key
  · exact (keeps_stores _ _).bind fun _ => (Prog.Keeps.emit _).bind fun _ => Prog.Keeps.pure _

theorem keeps_prepareMsg3 (buffer : P.Buf) (data : P.Val) :
    Prog.Keeps id (prepareMsg3 buffer data : VerifierM P P.Buf) := by
  unfold prepareMsg3
  refine (keeps_allocateMsg3 buffer).bind fun _ => ?_
  refine (keeps_encryptMsg3 buffer data).bind fun sealed => ?_
  exact (Prog.Keeps.emit _).bind fun _ => (keeps_print _ _ _).bind fun _ => Prog.Keeps.pure sealed

end PrepareMsg3

section Frames

-- What `handle_msg0` never touches, whatever its outcome.
def outsideExchange (s : Ctx P) :=
  (s.secret, s.ecdsaAttesterPublicKey, s.ecdsaLocalKeypair, s.isQuoteValid, s.msg2,
    s.msg1.ecdsaX, s.msg1.ecdsaY, s.msg1.ecdhSignature, s.msg1.mac)

theorem keeps_generateEcdhKeypair :
    Prog.Keeps outsideExchange (generateEcdhKeypair : VerifierM P Unit) := by
  unfold generateEcdhKeypair
  refine (Prog.Keeps.emit _).bind fun _ => (keeps_allocate _ _ _).bind fun _ => ?_
  refine Prog.Keeps.bind (Prog.Keeps.modify fun _ => rfl) fun _ => (keeps_tee _ _).bind fun _ => ?_
  refine Prog.Keeps.ask.bind fun env => Prog.Keeps.bind (Prog.Keeps.modify fun _ => rfl) fun _ => ?_
  refine Prog.Keeps.bind (Prog.Keeps.modify fun _ => rfl) fun _ => (keeps_tee _ _).bind fun _ => ?_
  refine Prog.Keeps.bind (Prog.Keeps.modify fun _ => rfl) fun _ => (keeps_tee _ _).bind fun _ => ?_
  refine Prog.Keeps.bind (Prog.Keeps.modify fun _ => rfl) fun _ => ?_
  refine (keeps_dumpObjectAttribute _ _).bind fun _ => Prog.Keeps.get.bind fun s => ?_
  exact (keeps_dump _ _).bind fun _ => keeps_dump _ _

theorem keeps_storeMsg0 (buffer : P.Buf) :
    Prog.Keeps outsideExchange (storeMsg0 buffer : VerifierM P Unit) := by
  unfold storeMsg0
  refine (Prog.Keeps.require _ _).bind fun _ => ?_
  refine Prog.Keeps.bind (Prog.Keeps.modify fun _ => rfl) fun _ => ?_
  exact Prog.Keeps.get.bind fun s => (keeps_dump _ _).bind fun _ => keeps_dump _ _

theorem keeps_populateAttesterKey :
    Prog.Keeps outsideExchange (populateAttesterKey : VerifierM P Unit) := by
  unfold populateAttesterKey
  refine (Prog.Keeps.emit _).bind fun _ => Prog.Keeps.get.bind fun s => ?_
  refine (keeps_initRefAttribute _ _).bind fun _ => (keeps_initRefAttribute _ _).bind fun _ => ?_
  refine (keeps_allocate _ _ _).bind fun _ => ?_
  refine Prog.Keeps.bind (Prog.Keeps.modify fun _ => rfl) fun _ => ?_
  refine (keeps_readCoord _ _).bind fun x => (keeps_readCoord _ _).bind fun y => ?_
  exact (keeps_tee _ _).bind fun _ => Prog.Keeps.modify fun _ => rfl

theorem keeps_handleMsg0 (buffer : P.Buf) :
    Prog.Keeps outsideExchange (handleMsg0 buffer : VerifierM P Unit) := by
  unfold handleMsg0
  refine keeps_generateEcdhKeypair.bind fun _ => (keeps_storeMsg0 buffer).bind fun _ => ?_
  refine keeps_populateAttesterKey.bind fun _ => ?_
  refine Prog.Keeps.bind (derivation.keeps_deriveSharedKey fun _ _ => rfl) fun _ => ?_
  refine Prog.Keeps.bind (derivation.keeps_deriveSharedMacKey fun _ _ => rfl) fun _ => ?_
  exact derivation.keeps_deriveSharedMacKey fun _ _ => rfl

theorem keeps_appendEcdhPublicKeysSignature :
    Prog.Keeps (withSignature P.zeroVal) (appendEcdhPublicKeysSignature : VerifierM P Unit) := by
  unfold appendEcdhPublicKeysSignature
  refine (Prog.Keeps.emit _).bind fun _ => Prog.Keeps.get.bind fun s => ?_
  refine Prog.Keeps.bind (Prog.Keeps.onFail ?_) fun _ => Prog.Keeps.emit _
  refine (keeps_allocate _ _ _).bind fun _ => ?_
  refine (keeps_readCoord _ _).bind fun gvX => (keeps_readCoord _ _).bind fun gvY => ?_
  refine (keeps_readCoord _ _).bind fun gaX => (keeps_readCoord _ _).bind fun gaY => ?_
  refine (keeps_tee _ _).bind fun _ => (Prog.Keeps.require _ _).bind fun _ => ?_
  refine (keeps_dump _ _).bind fun _ => (keeps_dump _ _).bind fun _ => ?_
  refine (keeps_dump _ _).bind fun _ => (keeps_dump _ _).bind fun _ => ?_
  refine (keeps_allocate _ _ _).bind fun _ => (keeps_setOperationKey _ _ _).bind fun key => ?_
  refine (keeps_tee _ _).bind fun _ => Prog.Keeps.ask.bind fun env => ?_
  exact Prog.Keeps.bind (Prog.Keeps.modify fun _ => rfl) fun _ => Prog.Keeps.require _ _

theorem keeps_appendMac : Prog.Keeps (withMac P.zeroVal) (appendMac : VerifierM P Unit) := by
  unfold appendMac
  refine (Prog.Keeps.emit _).bind fun _ => Prog.Keeps.get.bind fun s => ?_
  refine (keeps_allocate _ _ _).bind fun _ => (keeps_setOperationKey _ _ _).bind fun key => ?_
  refine Prog.Keeps.bind (Prog.Keeps.onFail ?_) fun _ => Prog.Keeps.emit _
  refine (keeps_readCoord _ _).bind fun gvX => (keeps_readCoord _ _).bind fun gvY => ?_
  refine (keeps_readCoord _ _).bind fun vkX => (keeps_readCoord _ _).bind fun vkY => ?_
  refine (keeps_tee _ _).bind fun _ => Prog.Keeps.bind (Prog.Keeps.modify fun _ => rfl) fun _ => ?_
  exact Prog.Keeps.require _ _

theorem keeps_prepareMsg1 (buffer : P.Buf) :
    Prog.Keeps (fun s => withMac P.zeroVal (withSignature P.zeroVal s))
      (prepareMsg1 buffer : VerifierM P P.Buf) := by
  unfold prepareMsg1
  refine (Prog.Keeps.require _ _).bind fun _ => ?_
  refine Prog.Keeps.bind (keeps_appendEcdhPublicKeysSignature.map (withMac P.zeroVal) fun _ => rfl)
    fun _ => ?_
  refine Prog.Keeps.bind (keeps_appendMac.map (withSignature P.zeroVal) fun _ => rfl) fun _ => ?_
  refine Prog.Keeps.get.bind fun s => (keeps_stores _ _).bind fun _ => ?_
  exact (keeps_print _ _ _).bind fun _ => (keeps_print _ _ _).bind fun _ => Prog.Keeps.pure _

theorem keeps_verifyQuoteSignature :
    Prog.Keeps (fun s => { s with isQuoteValid := false })
      (verifyQuoteSignature : VerifierM P Unit) := by
  unfold verifyQuoteSignature
  refine (Prog.Keeps.emit _).bind fun _ => Prog.Keeps.get.bind fun s => ?_
  refine Prog.Keeps.bind (Prog.Keeps.onFail ?_) fun _ => Prog.Keeps.emit _
  refine (keeps_allocate _ _ _).bind fun _ => (keeps_tee _ _).bind fun _ => ?_
  refine (Prog.Keeps.require _ _).bind fun _ => (keeps_allocate _ _ _).bind fun _ => ?_
  refine (keeps_setOperationKey _ _ _).bind fun key => (keeps_teeCheck _ _ _ _).bind fun _ => ?_
  exact Prog.Keeps.modify fun _ => rfl

theorem keeps_handleMsg2 (buffer : P.Buf) :
    Prog.Keeps (fun s => { s with isQuoteValid := false, msg2 := (Ctx.zero P).msg2 })
      (handleMsg2 buffer : VerifierM P Unit) := by
  unfold handleMsg2 storeMsg2
  refine Prog.Keeps.bind (Prog.Keeps.modify fun _ => rfl) fun _ => Prog.Keeps.bind ?_ fun _ => ?_
  · exact (Prog.Keeps.require _ _).bind fun _ => Prog.Keeps.modify fun _ => rfl
  refine keeps_verifyMacMsg2.of_id.bind fun _ => ?_
  refine keeps_verifyPublicKeyMsg2MatchesMsg0.of_id.bind fun _ => ?_
  refine Prog.Keeps.bind ?_ fun _ => keeps_verifyAnchor.of_id
  exact keeps_verifyQuoteSignature.map (fun s => { s with msg2 := (Ctx.zero P).msg2 }) fun _ => rfl

theorem keeps_configureCustomSecret (buffer : P.Buf) :
    Prog.Keeps (fun s => { s with secret := P.zeroVal })
      (configureCustomSecret buffer : VerifierM P Unit) := by
  unfold configureCustomSecret
  refine Prog.Keeps.ask.bind fun env => (Prog.Keeps.orPanic _).bind fun _ => ?_
  exact (Prog.Keeps.emit _).bind fun _ => Prog.Keeps.modify fun _ => rfl

theorem configureCustomSecret_state (buffer : P.Buf)
    (h : (configureCustomSecret buffer env s).out = .ok ()) :
    (configureCustomSecret buffer env s).state = { s with secret := P.bufVal buffer } := by
  by_cases hgranted : env.faults .configureCustomSecret 0 = none ∨ P.bufSize buffer = 0
  · simp [configureCustomSecret, Prog.bind_run, Prog.andThen, Prog.orPanic, Prog.ret, hgranted]
  · simp only [configureCustomSecret, Prog.out_bind_ok, Prog.ask_run, Out.ok.injEq,
      exists_eq_left', hgranted, if_false, Prog.orPanic_out_ok] at h
    obtain ⟨_, hnone, -⟩ := h
    cases hnone

end Frames

section Session

-- The context that a command leaves.
def commandState (inv : Invocation P) (s : Ctx P) : Command → Ctx P
  | .bootstrapSecret => (configureCustomSecret inv.buffer inv.env s).state
  | .handleMsg0 => (handleMsg0 inv.buffer inv.env s).state
  | .prepareMsg1 => (prepareMsg1 inv.buffer inv.env s).state
  | .handleMsg2 => (handleMsg2 inv.buffer inv.env s).state
  | .prepareMsg3 => s

theorem conclude_live {α : Type} {effect : Effect (Ctx P) TeeError Event α} {buffer : P.Buf}
    {onOk : α → P.Buf × Option Nat} {onFail : Option Nat} {s' : Ctx P}
    (h : (conclude effect buffer onOk onFail).1 = .live s') : s' = effect.state := by
  unfold conclude at h
  cases ho : effect.out with
  | ok value => simpa [ho] using h.symm
  | fail code => simpa [ho] using h.symm
  | panic => simp [ho] at h

theorem conclude_result {α : Type} (effect : Effect (Ctx P) TeeError Event α) (buffer : P.Buf)
    (onOk : α → P.Buf × Option Nat) (onFail : Option Nat) :
    (conclude effect buffer onOk onFail).2.result = none ↔ effect.out.isOk = true := by
  unfold conclude
  cases ho : effect.out <;> simp

-- A command that succeeds leaves a live instance.
theorem conclude_ok {α : Type} {effect : Effect (Ctx P) TeeError Event α} {buffer : P.Buf}
    {onOk : α → P.Buf × Option Nat} {onFail : Option Nat}
    (h : (conclude effect buffer onOk onFail).2.result = none) :
    ∃ value, effect.out = .ok value ∧
      (conclude effect buffer onOk onFail).1 = .live effect.state ∧
      (conclude effect buffer onOk onFail).2.buffer = (onOk value).1 := by
  obtain ⟨value, hvalue⟩ := (Out.isOk_iff _).mp ((conclude_result effect buffer onOk onFail).mp h)
  refine ⟨value, hvalue, ?_, ?_⟩
  · simp only [conclude, hvalue]
  · simp only [conclude, hvalue]

theorem step_of_command {s : Ctx P} {inv : Invocation P} {command : Command}
    (h : inv.command = some command) : step (.live s) inv = dispatch inv s command := by
  simp only [step, invokeCommandEntryPoint, h]

-- A session that goes on has run one command, or none for a rejected invocation.
theorem step_live {inst : Instance P} {inv : Invocation P} {s' : Ctx P}
    (h : (step inst inv).1 = .live s') : ∃ s, inst = .live s ∧
      (inv.command = none ∧ s' = s ∨
        ∃ command, inv.command = some command ∧ s' = commandState inv s command) := by
  cases inst with
  | dead => simp [step] at h
  | live s =>
      refine ⟨s, rfl, ?_⟩
      simp only [step, invokeCommandEntryPoint] at h
      cases hc : inv.command with
      | none =>
          left
          simp only [hc, Instance.live.injEq] at h
          exact ⟨rfl, h.symm⟩
      | some command =>
          right
          refine ⟨command, rfl, ?_⟩
          simp only [hc] at h
          cases command with
          | prepareMsg3 => exact (conclude_live h).trans (keeps_prepareMsg3 _ _ _ _)
          | _ => exact conclude_live h

variable (inst : Instance P) (inv : Invocation P)

theorem result_handleMsg0 (h : inv.command = some .handleMsg0) :
    (step inst inv).2.result = none ↔
      ∃ s, inst = .live s ∧ (handleMsg0 inv.buffer inv.env s).out = .ok () := by
  cases inst with
  | dead => simp [step]
  | live s =>
      simp [step, invokeCommandEntryPoint, h, dispatch, conclude_result, Out.isOk_unit_iff]

theorem result_handleMsg2 (h : inv.command = some .handleMsg2) :
    (step inst inv).2.result = none ↔ ∃ s, inst = .live s ∧ Accepts inv.env inv.buffer s := by
  cases inst with
  | dead => simp [step]
  | live s =>
      simp [step, invokeCommandEntryPoint, h, dispatch, conclude_result, Out.isOk_unit_iff,
        handleMsg2_ok]

-- An accepted message is reported as valid.
theorem valueA_handleMsg2 {s : Ctx P} (h : inv.command = some .handleMsg2)
    (haccepts : Accepts inv.env inv.buffer s) : (step (.live s) inv).2.valueA = some 1 := by
  have hout := (handleMsg2_ok inv.env s inv.buffer).mpr haccepts
  have hstate := (handleMsg2_vetted inv.env s inv.buffer haccepts.size haccepts.vetted).1
  simp only [step, invokeCommandEntryPoint, h, dispatch, conclude, hout, hstate, ite_true]

theorem result_prepareMsg3 (h : inv.command = some .prepareMsg3) :
    (step inst inv).2.result = none ↔ ∃ s, inst = .live s ∧ Releasable inv.env inv.buffer s := by
  cases inst with
  | dead => simp [step]
  | live s =>
      simp only [step, invokeCommandEntryPoint, h, dispatch, conclude_result, Out.isOk_iff,
        prepareMsg3_ok]
      constructor
      · rintro ⟨_, hreleasable, -⟩
        exact ⟨s, rfl, hreleasable⟩
      · rintro ⟨_, hsame, hreleasable⟩
        obtain rfl := Instance.live.inj hsame
        obtain ⟨key, hkey⟩ := hreleasable.key
        exact ⟨_, hreleasable, key, hkey, rfl⟩

-- An unknown identifier or wrong parameter types never succeed.
theorem result_rejected (h : inv.command = none) : (step inst inv).2.result ≠ none := by
  cases inst with
  | dead => simp [step]
  | live s => simp [step, invokeCommandEntryPoint, h]

end Session

end Watz.Verifier
