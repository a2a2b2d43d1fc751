import Watz.Attester.Lemmas
import Watz.Bytes
import Watz.Verifier.Lemmas

namespace Watz

open Base Tee

-- A use of a coordinate reads inside its raw array.
def Event.InField : Event → Prop
  | .use _ size => size ≤ RA_ECDH_KEY_SIZE / 8
  | _ => True

instance Event.quiet_inField : Event.Quiet Event.InField :=
  ⟨fun _ _ _ => trivial, fun _ => trivial, fun _ => trivial, fun _ => trivial⟩

@[simp] theorem Event.inField_use (field : Field) (size : Nat) :
    (Event.use field size).InField ↔ size ≤ RA_ECDH_KEY_SIZE / 8 := Iff.rfl

@[simp] theorem Event.inField_alloc (slot : Slot) : (Event.alloc slot).InField := trivial

@[simp] theorem Event.inField_free (slot : Slot) : (Event.free slot).InField := trivial

def Prims.Fits (P : Prims) (x y : P.Coord) : Prop :=
  P.size x ≤ RA_ECDH_KEY_SIZE / 8 ∧ P.size y ≤ RA_ECDH_KEY_SIZE / 8

instance (P : Prims) (x y : P.Coord) : Decidable (P.Fits x y) :=
  inferInstanceAs (Decidable (_ ∧ _))

namespace Verifier

variable {P : Prims}

-- The coordinates that outlive a command fit their arrays. Those of `msg2` are only read by
-- the command that stores them.
structure Fits (s : Ctx P) : Prop where
  msg0 : P.Fits s.msg0.ecdhX s.msg0.ecdhY
  msg1Ecdh : P.Fits s.msg1.ecdhX s.msg1.ecdhY
  msg1Ecdsa : P.Fits s.msg1.ecdsaX s.msg1.ecdsaY

theorem Fits.congr {s t : Ctx P} (hs : Fits s) (h0 : t.msg0 = s.msg0) (h1 : t.msg1 = s.msg1) :
    Fits t := by
  obtain ⟨hmsg0, hecdh, hecdsa⟩ := hs
  exact ⟨h0 ▸ hmsg0, h1 ▸ hecdh, h1 ▸ hecdsa⟩

section Confined

theorem confined_generateEcdhKeypair :
    Prog.Confined Fits Event.InField (generateEcdhKeypair : VerifierM P Unit) := by
  unfold generateEcdhKeypair
  refine (confined_enter _).bind fun _ => (confined_allocate _ _ _).bind fun _ => ?_
  refine (Prog.Confined.modify fun s hs => hs.congr rfl rfl).bind fun _ => ?_
  refine (confined_tee _ _).bind fun _ => Prog.Confined.ask.bind fun env => ?_
  refine (Prog.Confined.modify fun s hs => hs.congr rfl rfl).bind fun _ => ?_
  refine Prog.Confined.bind (Prog.Confined.modify fun s hs =>
    ⟨hs.msg0, ⟨P.size_resized _, P.size_resized _⟩, hs.msg1Ecdsa⟩) fun _ => ?_
  refine (confined_tee _ _).bind fun _ => Prog.Confined.bind (Prog.Confined.modify fun s hs =>
    ⟨hs.msg0, ⟨P.size_exportX _ _, hs.msg1Ecdh.2⟩, hs.msg1Ecdsa⟩) fun _ => ?_
  refine (confined_tee _ _).bind fun _ => Prog.Confined.bind (Prog.Confined.modify fun s hs =>
    ⟨hs.msg0, ⟨hs.msg1Ecdh.1, P.size_exportY _ _⟩, hs.msg1Ecdsa⟩) fun _ => ?_
  refine (confined_dumpObjectAttribute _ _).bind fun _ => Prog.Confined.bind_get fun s hs => ?_
  exact (confined_dump hs.msg1Ecdh.1).bind fun _ => confined_dump hs.msg1Ecdh.2

theorem confined_storeMsg0 {buffer : P.Buf}
    (h : P.Fits (P.getMsg0 buffer).ecdhX (P.getMsg0 buffer).ecdhY) :
    Prog.Confined Fits Event.InField (storeMsg0 buffer : VerifierM P Unit) := by
  refine (Prog.Confined.require _ _).bind fun _ =>
    Prog.Confined.bind (Prog.Confined.modify fun s hs => ⟨h, hs.msg1Ecdh, hs.msg1Ecdsa⟩) fun _ =>
    Prog.Confined.bind_get fun s hs => ?_
  exact (confined_dump hs.msg0.1).bind fun _ => confined_dump hs.msg0.2

theorem confined_populateAttesterKey :
    Prog.Confined Fits Event.InField (populateAttesterKey : VerifierM P Unit) := by
  unfold populateAttesterKey
  refine (confined_enter _).bind fun _ => Prog.Confined.bind_get fun s hs => ?_
  refine (confined_initRefAttribute hs.msg0.1).bind fun _ => ?_
  refine (confined_initRefAttribute hs.msg0.2).bind fun _ => ?_
  refine (confined_allocate _ _ _).bind fun _ => ?_
  refine (Prog.Confined.modify fun s hs => hs.congr rfl rfl).bind fun _ => ?_
  refine (confined_readCoord hs.msg0.1).bind fun x => ?_
  refine (confined_readCoord hs.msg0.2).bind fun y => ?_
  exact (confined_tee _ _).bind fun _ => Prog.Confined.modify fun s hs => hs.congr rfl rfl

theorem confined_deriveSharedKey :
    Prog.Confined Fits Event.InField (deriveSharedKey : VerifierM P Unit) :=
  derivation.confined_deriveSharedKey (fun _ hs => hs.msg0.1) (fun _ hs => hs.msg0.2)
    fun _ _ hs => hs.congr rfl rfl

theorem confined_deriveSharedMacKey {fn : Fn} {data : List UInt8} {slot : Slot}
    {store : Obj P.Val → Ctx P → Ctx P} (hstore : ∀ obj s, Fits s → Fits (store obj s)) :
    Prog.Confined Fits Event.InField (deriveSharedMacKey fn data slot store) :=
  derivation.confined_deriveSharedMacKey hstore

-- What `handle_msg0` does once it has stored the message.
def deriveKeys : VerifierM P Unit := do
  populateAttesterKey
  deriveSharedKey
  deriveSharedMacKey .deriveMacKey RA_SHARED_MAC_DATA .sharedMacKey storeMacKey
  deriveSharedMacKey .deriveSessionKey RA_SHARED_SESSION_DATA .sharedSessionKey storeSessionKey

theorem confined_deriveKeys :
    Prog.Confined Fits Event.InField (deriveKeys : VerifierM P Unit) := by
  unfold deriveKeys
  refine confined_populateAttesterKey.bind fun _ => confined_deriveSharedKey.bind fun _ => ?_
  refine Prog.Confined.bind (confined_deriveSharedMacKey fun obj s hs => hs.congr rfl rfl)
    fun _ => ?_
  exact confined_deriveSharedMacKey fun obj s hs => hs.congr rfl rfl

theorem confined_appendEcdhPublicKeysSignature :
    Prog.Confined Fits Event.InField (appendEcdhPublicKeysSignature : VerifierM P Unit) := by
  have hcleanup : ∀ event ∈ [Event.free (.operation .appendEcdhPublicKeysSignature)],
      event.InField := by
    simp
  unfold appendEcdhPublicKeysSignature
  refine (confined_enter _).bind fun _ => Prog.Confined.bind_get fun s hs => ?_
  refine Prog.Confined.bind (Prog.Confined.onFail hcleanup ?_) fun _ => Prog.Confined.emit hcleanup
  refine (confined_allocate _ _ _).bind fun _ => ?_
  refine (confined_readCoord hs.msg1Ecdh.1).bind fun gvX => ?_
  refine (confined_readCoord hs.msg1Ecdh.2).bind fun gvY => ?_
  refine (confined_readCoord hs.msg0.1).bind fun gaX => ?_
  refine (confined_readCoord hs.msg0.2).bind fun gaY => ?_
  refine (confined_tee _ _).bind fun _ => (Prog.Confined.require _ _).bind fun _ => ?_
  refine (confined_dump hs.msg0.1).bind fun _ => (confined_dump hs.msg0.2).bind fun _ => ?_
  refine (confined_dump hs.msg1Ecdh.1).bind fun _ => (confined_dump hs.msg1Ecdh.2).bind fun _ => ?_
  refine (confined_allocate _ _ _).bind fun _ => (confined_setOperationKey _ _ _).bind fun key => ?_
  refine (confined_tee _ _).bind fun _ => Prog.Confined.ask.bind fun env => ?_
  refine Prog.Confined.bind (Prog.Confined.modify fun s hs =>
    ⟨hs.msg0, hs.msg1Ecdh, hs.msg1Ecdsa⟩) fun _ => ?_
  exact Prog.Confined.require _ _

theorem confined_appendMac :
    Prog.Confined Fits Event.InField (appendMac : VerifierM P Unit) := by
  have hcleanup : ∀ event ∈ [Event.free (.operation .appendMac)], event.InField := by
    simp
  unfold appendMac
  refine (confined_enter _).bind fun _ => Prog.Confined.bind_get fun s hs => ?_
  refine (confined_allocate _ _ _).bind fun _ => (confined_setOperationKey _ _ _).bind fun key => ?_
  refine Prog.Confined.bind (Prog.Confined.onFail hcleanup ?_) fun _ => Prog.Confined.emit hcleanup
  refine (confined_readCoord hs.msg1Ecdh.1).bind fun gvX => ?_
  refine (confined_readCoord hs.msg1Ecdh.2).bind fun gvY => ?_
  refine (confined_readCoord hs.msg1Ecdsa.1).bind fun vkX => ?_
  refine (confined_readCoord hs.msg1Ecdsa.2).bind fun vkY => (confined_tee _ _).bind fun _ => ?_
  refine Prog.Confined.bind (Prog.Confined.modify fun s hs =>
    ⟨hs.msg0, hs.msg1Ecdh, hs.msg1Ecdsa⟩) fun _ => ?_
  exact Prog.Confined.require _ _

theorem confined_prepareMsg1 (buffer : P.Buf) :
    Prog.Confined Fits Event.InField (prepareMsg1 buffer : VerifierM P P.Buf) := by
  unfold prepareMsg1
  refine (Prog.Confined.require _ _).bind fun _ => ?_
  refine confined_appendEcdhPublicKeysSignature.bind fun _ => confined_appendMac.bind fun _ => ?_
  refine Prog.Confined.get.bind fun s => ?_
  refine (confined_stores fun _ _ => trivial).bind fun _ => ?_
  refine (confined_print trivial).bind fun _ => ?_
  exact (confined_print trivial).bind fun _ => Prog.Confined.pure _

theorem confined_verifyMacMsg2 :
    Prog.Confined (fun s : Ctx P => Fits s ∧ P.Fits s.msg2.ecdhX s.msg2.ecdhY) Event.InField
      (verifyMacMsg2 : VerifierM P Unit) := by
  have hcleanup : ∀ event ∈ [Event.free (.operation .verifyMacMsg2)], event.InField := by
    simp
  unfold verifyMacMsg2
  refine (confined_enter _).bind fun _ => Prog.Confined.bind_get fun s hs => ?_
  refine Prog.Confined.bind (Prog.Confined.onFail hcleanup ?_) fun _ => Prog.Confined.emit hcleanup
  refine (confined_allocate _ _ _).bind fun _ => (confined_setOperationKey _ _ _).bind fun key => ?_
  refine (confined_readCoord hs.2.1).bind fun x => (confined_readCoord hs.2.2).bind fun y => ?_
  exact confined_teeCheck _ _ _ _

-- The comparison of the keys runs over the sizes of `msg0` on both sides.
theorem confined_verifyPublicKeyMsg2MatchesMsg0 :
    Prog.Confined Fits Event.InField (verifyPublicKeyMsg2MatchesMsg0 : VerifierM P Unit) := by
  unfold verifyPublicKeyMsg2MatchesMsg0
  refine Prog.Confined.bind_get fun s hs => ?_
  refine (confined_memCompare hs.msg0.1 hs.msg0.1).bind fun equalX => ?_
  refine (Prog.Confined.require _ _).bind fun _ => ?_
  exact (confined_memCompare hs.msg0.2 hs.msg0.2).bind fun equalY => Prog.Confined.require _ _

theorem confined_verifyQuoteSignature :
    Prog.Confined Fits Event.InField (verifyQuoteSignature : VerifierM P Unit) := by
  have hcleanup : ∀ event ∈ [Event.free (.operation .verifyQuoteSignature)], event.InField := by
    simp
  unfold verifyQuoteSignature
  refine (confined_enter _).bind fun _ => Prog.Confined.get.bind fun s => ?_
  refine Prog.Confined.bind (Prog.Confined.onFail hcleanup ?_) fun _ => Prog.Confined.emit hcleanup
  refine (confined_allocate _ _ _).bind fun _ => (confined_tee _ _).bind fun _ => ?_
  refine (Prog.Confined.require _ _).bind fun _ => (confined_allocate _ _ _).bind fun _ => ?_
  refine (confined_setOperationKey _ _ _).bind fun key => ?_
  exact (confined_teeCheck _ _ _ _).bind fun _ => Prog.Confined.modify fun s hs => hs.congr rfl rfl

theorem confined_verifyAnchor :
    Prog.Confined Fits Event.InField (verifyAnchor : VerifierM P Unit) := by
  have hcleanup : ∀ event ∈ [Event.free (.operation .verifyAnchor)], event.InField := by
    simp
  unfold verifyAnchor
  refine (confined_enter _).bind fun _ => Prog.Confined.bind_get fun s hs => ?_
  refine Prog.Confined.bind (Prog.Confined.onFail hcleanup ?_) fun digest => ?_
  · refine (confined_allocate _ _ _).bind fun _ => ?_
    refine (confined_readCoord hs.msg0.1).bind fun gaX => ?_
    refine (confined_readCoord hs.msg0.2).bind fun gaY => ?_
    refine (confined_readCoord hs.msg1Ecdh.1).bind fun gvX => ?_
    refine (confined_readCoord hs.msg1Ecdh.2).bind fun gvY => ?_
    refine (confined_tee _ _).bind fun _ => (Prog.Confined.require _ _).bind fun _ => ?_
    exact Prog.Confined.pure _
  · exact (Prog.Confined.require _ _).bind fun _ => Prog.Confined.emit hcleanup

-- What `handle_msg2` does once the tag has passed.
def verifyRest : VerifierM P Unit := do
  verifyPublicKeyMsg2MatchesMsg0
  verifyQuoteSignature
  verifyAnchor

theorem confined_verifyRest :
    Prog.Confined Fits Event.InField (verifyRest : VerifierM P Unit) := by
  unfold verifyRest
  refine confined_verifyPublicKeyMsg2MatchesMsg0.bind fun _ => ?_
  exact confined_verifyQuoteSignature.bind fun _ => confined_verifyAnchor

theorem confined_releaseSecret (buffer : P.Buf) (data : P.Val) :
    Prog.Confined Fits Event.InField (prepareMsg3 buffer data : VerifierM P P.Buf) := by
  have hcleanup : ∀ event ∈ [Event.free (.operation .encryptMsg3)], event.InField := by
    simp
  unfold prepareMsg3 allocateMsg3 encryptMsg3
  refine Prog.Confined.bind ?_ fun _ => Prog.Confined.bind ?_ fun sealed => ?_
  · exact (Prog.Confined.require _ _).bind fun _ => confined_mallocUnchecked _ _ _
  · refine (confined_enter _).bind fun _ => Prog.Confined.get.bind fun s => ?_
    refine Prog.Confined.ask.bind fun env => ?_
    refine Prog.Confined.bind (Prog.Confined.onFail hcleanup ?_) fun key => ?_
    · refine (confined_allocate _ _ _).bind fun _ => ?_
      refine (confined_setOperationKey _ _ _).bind fun key => (confined_tee _ _).bind fun _ => ?_
      exact (confined_teeCheck _ _ _ _).bind fun _ => Prog.Confined.pure key
    · refine (confined_stores fun _ _ => trivial).bind fun _ => ?_
      exact (Prog.Confined.emit hcleanup).bind fun _ => Prog.Confined.pure _
  · refine (Prog.Confined.emit (by simp)).bind fun _ => ?_
    exact (confined_print trivial).bind fun _ => Prog.Confined.pure sealed

theorem confined_configureCustomSecret (buffer : P.Buf) :
    Prog.Confined Fits Event.InField (configureCustomSecret buffer : VerifierM P Unit) := by
  unfold configureCustomSecret
  refine Prog.Confined.ask.bind fun env => (Prog.Confined.orPanic _).bind fun _ => ?_
  refine (Prog.Confined.emit (by simp)).bind fun _ => ?_
  exact Prog.Confined.modify fun s hs => hs.congr rfl rfl

end Confined

section HandleMsg0

-- The message is refused before its first use, or its coordinates fit.
def Msg0Guarded (env : Env P) (buffer : P.Buf) : Prop :=
  env.Works .generateEcdhKeypair 4 → P.sizeofMsg0 ≤ P.bufSize buffer →
    P.Fits (P.getMsg0 buffer).ecdhX (P.getMsg0 buffer).ecdhY

variable {env : Env P} {s : Ctx P} {buffer : P.Buf}

theorem handleMsg0_eq :
    (handleMsg0 buffer : VerifierM P Unit) = (do
      generateEcdhKeypair
      storeMsg0 buffer
      deriveKeys) := rfl

theorem mem_log_populateAttesterKey (env : Env P) (s : Ctx P) :
    Event.use .msg0X (P.size s.msg0.ecdhX) ∈ (populateAttesterKey env s).log ∧
      Event.use .msg0Y (P.size s.msg0.ecdhY) ∈ (populateAttesterKey env s).log := by
  constructor <;>
    simp [populateAttesterKey, initRefAttribute, Prog.bind_run, Prog.andThen]

-- A message that is stored is used at once.
theorem msg0Guarded_of_logs (h : Prog.Logs (handleMsg0 buffer) env s Event.InField) :
    Msg0Guarded env buffer := by
  intro hworks hsize
  have hgenerate := generateEcdhKeypair_reaches env s hworks
  have hstore := storeMsg0_reaches env (withKeypair env.ecdhKey s) buffer hsize
  have huses := mem_log_populateAttesterKey env
    { withKeypair env.ecdhKey s with msg0 := P.getMsg0 buffer }
  constructor
  · exact h _ (hgenerate.mem_log_bind (hstore.mem_log_bind (Prog.mem_log_bind _ _ _ _ huses.1)))
  · exact h _ (hgenerate.mem_log_bind (hstore.mem_log_bind (Prog.mem_log_bind _ _ _ _ huses.2)))

theorem handleMsg0_confined (hs : Fits s) (h : Msg0Guarded env buffer) :
    Fits (handleMsg0 buffer env s).state ∧ Prog.Logs (handleMsg0 buffer) env s Event.InField := by
  have hgenerate := confined_generateEcdhKeypair env s hs
  rw [handleMsg0_eq]
  by_cases hworks : env.Works .generateEcdhKeypair 4
  · by_cases hsize : P.sizeofMsg0 ≤ P.bufSize buffer
    · have hstore := confined_storeMsg0 (h hworks hsize)
      exact (confined_generateEcdhKeypair.bind fun _ =>
        hstore.bind fun _ => confined_deriveKeys) env s hs
    · have hrest : ∀ s' : Ctx P, ((storeMsg0 buffer >>= fun _ => deriveKeys) env s').state = s' ∧
          ((storeMsg0 buffer >>= fun _ => deriveKeys) env s').log = [] := by
        intro s'
        simp [storeMsg0, Prog.bind_run, Prog.andThen, Prog.require, hsize]
      have hreaches := generateEcdhKeypair_reaches env s hworks
      refine ⟨?_, hreaches.logs_bind hgenerate.2 (Prog.logs_of_nil (hrest _).2)⟩
      rw [hreaches.bind_state, (hrest _).1, ← hreaches.2]
      exact hgenerate.1
  · have hnot : (generateEcdhKeypair env s).out.isOk = false := by
      rw [← Bool.not_eq_true, Out.isOk_unit_iff, generateEcdhKeypair_ok]
      exact hworks
    refine ⟨?_, hgenerate.2.bind fun value hv => ?_⟩
    · rw [Prog.state_bind_of_not_ok _ _ _ _ hnot]
      exact hgenerate.1
    · rw [hv] at hnot
      cases hnot

end HandleMsg0

section HandleMsg2

-- The message is refused before its tag is computed, or its coordinates fit.
def Msg2Guarded (env : Env P) (buffer : P.Buf) (s : Ctx P) : Prop :=
  P.sizeofMsg2 ≤ P.bufSize buffer → env.Works .verifyMacMsg2 2 →
    (∃ key, s.sharedMacKey = .key key) →
      P.Fits (P.getMsg2 buffer).ecdhX (P.getMsg2 buffer).ecdhY

variable {env : Env P} {s : Ctx P} {buffer : P.Buf}

theorem handleMsg2_eq :
    (handleMsg2 buffer : VerifierM P Unit) = (do
      Prog.modify fun s => { s with isQuoteValid := false }
      storeMsg2 buffer
      verifyMacMsg2
      verifyRest) := rfl

theorem mem_log_verifyMacMsg2 {s : Ctx P} (hworks : env.Works .verifyMacMsg2 2) {key : P.Val}
    (hkey : s.sharedMacKey = .key key) :
    Event.use .msg2X (P.size s.msg2.ecdhX) ∈ (verifyMacMsg2 env s).log ∧
      Event.use .msg2Y (P.size s.msg2.ecdhY) ∈ (verifyMacMsg2 env s).log := by
  have hallocate := (keeps_allocate .verifyMacMsg2 0 (.operation .verifyMacMsg2)).reaches
    ((allocate_out_ok env s _ _ _).mpr (hworks 0 (by omega)))
  have hset := (keeps_setOperationKey .verifyMacMsg2 1 s.sharedMacKey).reaches
    ((setOperationKey_out_ok env s _ _ _ key).mpr ⟨hworks 1 (by omega), hkey⟩)
  have hx := (keeps_readCoord .msg2X s.msg2.ecdhX).reaches (readCoord_out env s _ _)
  constructor
  · refine Prog.Reaches.mem_log_bind ⟨rfl, rfl⟩ (Prog.Reaches.mem_log_bind (Prog.Reaches.get env s)
      (Prog.mem_log_bind _ _ _ _ (Prog.log_onFail_of_mem _ _ _ _ ?_)))
    exact hallocate.mem_log_bind (hset.mem_log_bind
      (Prog.mem_log_bind _ _ _ _ (by simp [readCoord, Prog.bind_run, Prog.andThen])))
  · refine Prog.Reaches.mem_log_bind ⟨rfl, rfl⟩ (Prog.Reaches.mem_log_bind (Prog.Reaches.get env s)
      (Prog.mem_log_bind _ _ _ _ (Prog.log_onFail_of_mem _ _ _ _ ?_)))
    exact hallocate.mem_log_bind (hset.mem_log_bind (hx.mem_log_bind
      (Prog.mem_log_bind _ _ _ _ (by simp [readCoord, Prog.bind_run, Prog.andThen]))))

-- Without a key, or with a failing call before the tag, nothing of the message is read.
theorem logs_verifyMacMsg2_of_unset {s : Ctx P}
    (h : ¬(env.Works .verifyMacMsg2 2 ∧ ∃ key, s.sharedMacKey = .key key)) :
    Prog.Logs verifyMacMsg2 env s Event.InField := by
  have hfree : ∀ event ∈ [Event.free (.operation .verifyMacMsg2)], event.InField := by simp
  refine ((confined_enter _).logs env s).bind fun _ _ => Prog.Logs.bind (Prog.Confined.get.logs _ _)
    fun s' hget => ?_
  obtain rfl : s = s' := by simpa using hget
  refine Prog.Logs.bind (Prog.Logs.onFail hfree ?_) fun _ _ => (Prog.Confined.emit hfree).logs _ _
  refine Prog.Logs.bind ((confined_allocate _ _ _).logs _ _) fun _ h0 =>
    Prog.Logs.bind ((confined_setOperationKey _ _ _).logs _ _) fun key h1 => absurd ?_ h
  rw [allocate_out_ok] at h0
  rw [setOperationKey_out_ok] at h1
  exact ⟨by simp [Env.works_succ, Env.works_zero, h0, h1.1], key, h1.2⟩

theorem clearFlag_reaches (env : Env P) (s : Ctx P) :
    Prog.Reaches (Prog.modify fun s => { s with isQuoteValid := false } : VerifierM P Unit) env s ()
      { s with isQuoteValid := false } := ⟨rfl, rfl⟩

theorem msg2Guarded_of_logs (h : Prog.Logs (handleMsg2 buffer) env s Event.InField) :
    Msg2Guarded env buffer s := by
  rintro hsize hworks ⟨key, hkey⟩
  have hflag := clearFlag_reaches env s
  have hstore := storeMsg2_reaches env { s with isQuoteValid := false } buffer hsize
  have hreceived : (received buffer s).sharedMacKey = .key key := hkey
  have huses := mem_log_verifyMacMsg2 hworks hreceived
  constructor
  · exact h _ (hflag.mem_log_bind (hstore.mem_log_bind (Prog.mem_log_bind _ _ _ _ huses.1)))
  · exact h _ (hflag.mem_log_bind (hstore.mem_log_bind (Prog.mem_log_bind _ _ _ _ huses.2)))

theorem handleMsg2_confined (hs : Fits s) (h : Msg2Guarded env buffer s) :
    Fits (handleMsg2 buffer env s).state ∧ Prog.Logs (handleMsg2 buffer) env s Event.InField := by
  have hflag := clearFlag_reaches env s
  have hmsg0 := (keeps_handleMsg2 buffer).map Ctx.msg0 (fun _ => rfl) env s
  have hmsg1 := (keeps_handleMsg2 buffer).map Ctx.msg1 (fun _ => rfl) env s
  refine ⟨hs.congr hmsg0 hmsg1, ?_⟩
  rw [handleMsg2_eq]
  refine hflag.logs_bind (Prog.logs_of_nil rfl) ?_
  by_cases hsize : P.sizeofMsg2 ≤ P.bufSize buffer
  · have hstore := storeMsg2_reaches env { s with isQuoteValid := false } buffer hsize
    have hreceived : Fits (received buffer s) := hs.congr rfl rfl
    have hmac : Prog.Logs verifyMacMsg2 env (received buffer s) Event.InField := by
      by_cases hused : env.Works .verifyMacMsg2 2 ∧ ∃ key, s.sharedMacKey = .key key
      · exact (confined_verifyMacMsg2 env _ ⟨hreceived, h hsize hused.1 hused.2⟩).2
      · exact logs_verifyMacMsg2_of_unset hused
    refine hstore.logs_bind (Prog.logs_of_nil ?_) (hmac.bind fun _ _ => ?_)
    · simp [storeMsg2, Prog.bind_run, Prog.andThen, Prog.require, Prog.ret, hsize]
    · rw [Prog.state_of_keeps keeps_verifyMacMsg2]
      exact (confined_verifyRest env _ hreceived).2
  · apply Prog.logs_of_nil
    simp [storeMsg2, Prog.bind_run, Prog.andThen, Prog.require, hsize]

end HandleMsg2

section Session

-- The condition on one invocation: only the two commands that take messages have one.
def Guarded (inst : Instance P) (inv : Invocation P) : Prop :=
  ∀ s, inst = .live s →
    (inv.command = some .handleMsg0 → Msg0Guarded inv.env inv.buffer) ∧
      (inv.command = some .handleMsg2 → Msg2Guarded inv.env inv.buffer s)

def Instance.Fits : Instance P → Prop
  | .live s => Verifier.Fits s
  | .dead => True

theorem conclude_events {α : Type} (effect : Effect (Ctx P) TeeError Event α) (buffer : P.Buf)
    (onOk : α → P.Buf × Option Nat) (onFail : Option Nat) :
    (conclude effect buffer onOk onFail).2.events = effect.log := by
  unfold conclude
  cases effect.out <;> rfl

theorem conclude_confined {α : Type} {effect : Effect (Ctx P) TeeError Event α} {buffer : P.Buf}
    {onOk : α → P.Buf × Option Nat} {onFail : Option Nat}
    (h : Fits effect.state ∧ ∀ event ∈ effect.log, event.InField) :
    (conclude effect buffer onOk onFail).1.Fits ∧
      ∀ event ∈ (conclude effect buffer onOk onFail).2.events, event.InField := by
  rw [conclude_events]
  refine ⟨?_, h.2⟩
  unfold conclude
  cases effect.out with
  | ok value => exact h.1
  | fail code => exact h.1
  | panic => trivial

theorem guarded_of_events {inst : Instance P} {inv : Invocation P}
    (h : ∀ event ∈ (step inst inv).2.events, event.InField) : Guarded inst inv := by
  rintro s rfl
  constructor
  · intro hcommand
    rw [step_of_command hcommand] at h
    simp only [dispatch, conclude_events] at h
    exact msg0Guarded_of_logs h
  · intro hcommand
    rw [step_of_command hcommand] at h
    simp only [dispatch, conclude_events] at h
    exact msg2Guarded_of_logs h

theorem step_confined {inst : Instance P} {inv : Invocation P} (hfits : inst.Fits)
    (h : Guarded inst inv) :
    (step inst inv).1.Fits ∧ ∀ event ∈ (step inst inv).2.events, event.InField := by
  cases inst with
  | dead => exact ⟨trivial, by simp [step]⟩
  | live s =>
      have hs : Fits s := hfits
      obtain ⟨h0, h2⟩ := h s rfl
      cases hcommand : inv.command with
      | none =>
          simp only [step, invokeCommandEntryPoint, hcommand]
          exact ⟨hs, by simp⟩
      | some command =>
          rw [step_of_command hcommand]
          cases command with
          | bootstrapSecret =>
              exact conclude_confined (confined_configureCustomSecret inv.buffer inv.env s hs)
          | handleMsg0 => exact conclude_confined (handleMsg0_confined hs (h0 hcommand))
          | prepareMsg1 => exact conclude_confined (confined_prepareMsg1 inv.buffer inv.env s hs)
          | handleMsg2 => exact conclude_confined (handleMsg2_confined hs (h2 hcommand))
          | prepareMsg3 =>
              exact conclude_confined (confined_releaseSecret inv.buffer s.secret inv.env s hs)

theorem fits_opened {s : Ctx P} (h : Opened s) : Fits s := by
  obtain ⟨key, rfl⟩ := opened_eq h
  exact ⟨⟨P.size_zeroCoord, P.size_zeroCoord⟩, ⟨P.size_zeroCoord, P.size_zeroCoord⟩,
    ⟨P.size_exportVerifyX key _, P.size_exportVerifyY key _⟩⟩

-- In a whole session the uses stay inside exactly when every step meets its condition: the
-- first step that does not is itself the one that reads too far.
theorem session_inField_iff {s : Ctx P} (h : Opened s) (inputs : List (Invocation P)) :
    (∀ t ∈ session s inputs, ∀ event ∈ t.output.events, event.InField) ↔
      ∀ t ∈ session s inputs, Guarded t.before t.input := by
  constructor
  · intro hevents t ht
    have hstep := hevents t ht
    rw [Run.output_eq ht] at hstep
    exact guarded_of_events hstep
  · intro hguarded t ht
    have hfits : ∀ u ∈ session s inputs, u.before.Fits ∧ u.after.Fits := by
      refine Run.invariant (fits_opened h) fun u hu hbefore => ?_
      rw [Run.after_eq hu]
      exact (step_confined hbefore (hguarded u hu)).1
    rw [Run.output_eq ht]
    exact (step_confined (hfits t ht).1 (hguarded t ht)).2

end Session

end Verifier

namespace Attester

variable {P : Prims}

structure Fits (s : RaContext P) : Prop where
  msg0 : P.Fits s.msg0.ecdhX s.msg0.ecdhY
  msg1Ecdh : P.Fits s.msg1.ecdhX s.msg1.ecdhY
  msg1Ecdsa : P.Fits s.msg1.ecdsaX s.msg1.ecdsaY

theorem Fits.congr {s t : RaContext P} (hs : Fits s) (h0 : t.msg0 = s.msg0)
    (h1 : t.msg1 = s.msg1) : Fits t := by
  obtain ⟨hmsg0, hecdh, hecdsa⟩ := hs
  exact ⟨h0 ▸ hmsg0, h1 ▸ hecdh, h1 ▸ hecdsa⟩

theorem fits_fresh : Fits (RaContext.fresh P) :=
  ⟨⟨P.size_resized _, P.size_resized _⟩, ⟨P.size_zeroCoord, P.size_zeroCoord⟩,
    ⟨P.size_zeroCoord, P.size_zeroCoord⟩⟩

theorem fits_started (key : P.Ecdh) {msg1 : Msg1 P.Coord P.Val}
    (hecdh : P.Fits msg1.ecdhX msg1.ecdhY) (hecdsa : P.Fits msg1.ecdsaX msg1.ecdsaY) :
    Fits { started key with msg1 := msg1 } :=
  ⟨⟨P.size_exportX _ _, P.size_exportY _ _⟩, hecdh, hecdsa⟩

section Confined

theorem confined_start : Prog.Confined Fits Event.InField (do
    generateEcdhKeypair
    establishTcpConnection
    sendMsg0 : AttesterM P (Msg0 P.Coord)) := by
  refine Prog.Confined.bind ?_ fun _ => ?_
  · unfold generateEcdhKeypair
    refine (confined_enter _).bind fun _ => (confined_allocate _ _ _).bind fun _ => ?_
    refine (Prog.Confined.modify fun s hs => hs.congr rfl rfl).bind fun _ => ?_
    refine (confined_tee _ _).bind fun _ => Prog.Confined.ask.bind fun env => ?_
    refine (Prog.Confined.modify fun s hs => hs.congr rfl rfl).bind fun _ => ?_
    refine (confined_tee _ _).bind fun _ => Prog.Confined.bind (Prog.Confined.modify fun s hs =>
      ⟨⟨P.size_exportX _ _, hs.msg0.2⟩, hs.msg1Ecdh, hs.msg1Ecdsa⟩) fun _ => ?_
    refine (confined_tee _ _).bind fun _ => Prog.Confined.bind (Prog.Confined.modify fun s hs =>
      ⟨⟨hs.msg0.1, P.size_exportY _ _⟩, hs.msg1Ecdh, hs.msg1Ecdsa⟩) fun _ => ?_
    refine (confined_dumpObjectAttribute _ _).bind fun _ => Prog.Confined.bind_get fun s hs => ?_
    exact (confined_dump hs.msg0.1).bind fun _ => confined_dump hs.msg0.2
  · refine (confined_allocate _ _ _).bind fun _ => (confined_tee _ _).bind fun _ => ?_
    exact Prog.Confined.get.bind fun s => Prog.Confined.pure _

theorem confined_dumpRemotePublicKey {inv : RaContext P → Prop} {msg1 : Msg1 P.Coord P.Val}
    (h : P.Fits msg1.ecdhX msg1.ecdhY) :
    Prog.Confined inv Event.InField (dumpRemotePublicKey msg1 : AttesterM P Unit) := by
  have hcleanup : ∀ event ∈ [Event.free (.ecdhRemotePublicKey .receiveMsg1)], event.InField := by
    simp
  unfold dumpRemotePublicKey
  refine Prog.Confined.ask.bind fun env => Prog.Confined.ite ?_ (Prog.Confined.pure ())
  refine Prog.Confined.bind (Prog.Confined.onFail hcleanup ?_) fun _ => Prog.Confined.emit hcleanup
  refine (confined_allocate _ _ _).bind fun _ => (confined_readCoord h.1).bind fun _ => ?_
  refine (confined_readCoord h.2).bind fun _ => (confined_tee _ _).bind fun _ => ?_
  exact (confined_dumpObjectAttribute _ _).bind fun _ => confined_dumpObjectAttribute _ _

theorem confined_verifyServicePublicKey {inv : RaContext P → Prop} (pin : Pin P) :
    Prog.Confined inv Event.InField (verifyServicePublicKey pin : AttesterM P Unit) := by
  unfold verifyServicePublicKey
  refine Prog.Confined.get.bind fun s => Prog.Confined.ite (Prog.Confined.pure ()) ?_
  refine (Prog.Confined.require _ _).bind fun _ => ?_
  exact (Prog.Confined.require _ _).bind fun _ => Prog.Confined.require _ _

theorem confined_importVerifierAttestationKey :
    Prog.Confined Fits Event.InField (importVerifierAttestationKey : AttesterM P Unit) := by
  unfold importVerifierAttestationKey
  refine (confined_enter _).bind fun _ => Prog.Confined.bind_get fun s hs => ?_
  refine (confined_allocate _ _ _).bind fun _ => ?_
  refine (Prog.Confined.modify fun s hs => hs.congr rfl rfl).bind fun _ => ?_
  refine (confined_initRefAttribute hs.msg1Ecdsa.1).bind fun _ => ?_
  refine (confined_initRefAttribute hs.msg1Ecdsa.2).bind fun _ => ?_
  refine (confined_readCoord hs.msg1Ecdsa.1).bind fun x => ?_
  refine (confined_readCoord hs.msg1Ecdsa.2).bind fun y => ?_
  exact (confined_tee _ _).bind fun _ => Prog.Confined.modify fun s hs => hs.congr rfl rfl

theorem inField_signatureReport {s : RaContext P} (hs : Fits s) (code : TeeError) :
    ∀ event ∈ signatureReport s code, event.InField := by
  cases code <;>
    simp [signatureReport, hs.msg0.1, hs.msg0.2, hs.msg1Ecdh.1, hs.msg1Ecdh.2, hs.msg1Ecdsa.1,
      hs.msg1Ecdsa.2]

theorem confined_verifyEcdhPublicKeySignature :
    Prog.Confined Fits Event.InField (verifyEcdhPublicKeySignature : AttesterM P Unit) := by
  have hcleanup : ∀ event ∈ [Event.free (.operation .verifyEcdhPublicKeySignature)],
      event.InField := by
    simp
  unfold verifyEcdhPublicKeySignature
  refine (confined_enter _).bind fun _ => Prog.Confined.bind_get fun s hs => ?_
  refine Prog.Confined.bind (Prog.Confined.onFail hcleanup ?_) fun _ => Prog.Confined.emit hcleanup
  refine (confined_allocate _ _ _).bind fun _ => ?_
  refine (confined_readCoord hs.msg1Ecdh.1).bind fun gvX => ?_
  refine (confined_readCoord hs.msg1Ecdh.2).bind fun gvY => ?_
  refine (confined_readCoord hs.msg0.1).bind fun gaX => ?_
  refine (confined_readCoord hs.msg0.2).bind fun gaY => ?_
  refine (confined_tee _ _).bind fun _ => (Prog.Confined.require _ _).bind fun _ => ?_
  refine (confined_allocate _ _ _).bind fun _ => (confined_setOperationKey _ _ _).bind fun key => ?_
  exact Prog.Confined.onFailWith (inField_signatureReport hs) (confined_teeCheck _ _ _ _)

theorem confined_deriveSharedKey :
    Prog.Confined Fits Event.InField (deriveSharedKey : AttesterM P Unit) :=
  derivation.confined_deriveSharedKey (fun _ hs => hs.msg1Ecdh.1) (fun _ hs => hs.msg1Ecdh.2)
    fun _ _ hs => hs.congr rfl rfl

theorem confined_deriveSharedMacKey {fn : Fn} {data : List UInt8} {slot : Slot}
    {store : Obj P.Val → RaContext P → RaContext P}
    (hstore : ∀ obj s, Fits s → Fits (store obj s)) :
    Prog.Confined Fits Event.InField (deriveSharedMacKey fn data slot store) :=
  derivation.confined_deriveSharedMacKey hstore

theorem confined_verifyMsg1Mac :
    Prog.Confined Fits Event.InField (verifyMsg1Mac : AttesterM P Unit) := by
  have hcleanup : ∀ event ∈ [Event.free (.operation .verifyMsg1Mac)], event.InField := by
    simp
  unfold verifyMsg1Mac
  refine (confined_enter _).bind fun _ => Prog.Confined.bind_get fun s hs => ?_
  refine (confined_allocate _ _ _).bind fun _ => (confined_setOperationKey _ _ _).bind fun key => ?_
  refine Prog.Confined.bind (Prog.Confined.onFail hcleanup ?_) fun _ => Prog.Confined.emit hcleanup
  refine (confined_readCoord hs.msg1Ecdh.1).bind fun gvX => ?_
  refine (confined_readCoord hs.msg1Ecdh.2).bind fun gvY => ?_
  refine (confined_readCoord hs.msg1Ecdsa.1).bind fun vkX => ?_
  refine (confined_readCoord hs.msg1Ecdsa.2).bind fun vkY => ?_
  exact confined_teeCheck _ _ _ _

theorem confined_generateAnchor (anchorSize : Nat) :
    Prog.Confined Fits Event.InField (generateAnchor anchorSize : AttesterM P P.Val) := by
  have hcleanup : ∀ event ∈ [Event.free (.operation .generateAnchor)], event.InField := by
    simp
  unfold generateAnchor
  refine (Prog.Confined.require _ _).bind fun _ => (confined_enter _).bind fun _ => ?_
  refine Prog.Confined.bind_get fun s hs => ?_
  refine Prog.Confined.bind (Prog.Confined.onFail hcleanup ?_) fun anchor => ?_
  · refine (confined_allocate _ _ _).bind fun _ => ?_
    refine (confined_readCoord hs.msg0.1).bind fun gaX => ?_
    refine (confined_readCoord hs.msg0.2).bind fun gaY => ?_
    refine (confined_readCoord hs.msg1Ecdh.1).bind fun gvX => ?_
    refine (confined_readCoord hs.msg1Ecdh.2).bind fun gvY => ?_
    refine (confined_tee _ _).bind fun _ => (Prog.Confined.require _ _).bind fun _ => ?_
    exact Prog.Confined.pure _
  · exact (Prog.Confined.emit hcleanup).bind fun _ => Prog.Confined.pure anchor

-- What `ra_net_handshake` does once the key of the verifier is imported.
def checkAndDerive (anchorSize : Nat) : AttesterM P P.Val := do
  verifyEcdhPublicKeySignature
  deriveSharedKey
  deriveSharedMacKey .deriveMacKey WASI_RA_SHARED_MAC_DATA .sharedMacKey storeMacKey
  deriveSharedMacKey .deriveSessionKey WASI_RA_SHARED_SESSION_DATA .sharedSessionKey
    storeSessionKey
  verifyMsg1Mac
  generateAnchor anchorSize

theorem confined_checkAndDerive (anchorSize : Nat) :
    Prog.Confined Fits Event.InField (checkAndDerive anchorSize : AttesterM P P.Val) := by
  unfold checkAndDerive
  refine confined_verifyEcdhPublicKeySignature.bind fun _ => ?_
  refine confined_deriveSharedKey.bind fun _ => ?_
  refine Prog.Confined.bind (confined_deriveSharedMacKey fun obj s hs => hs.congr rfl rfl)
    fun _ => ?_
  refine Prog.Confined.bind (confined_deriveSharedMacKey fun obj s hs => hs.congr rfl rfl)
    fun _ => ?_
  exact confined_verifyMsg1Mac.bind fun _ => confined_generateAnchor anchorSize

end Confined

section Handshake

-- The message is refused before the first use of each pair of coordinates, or they fit. Those
-- of the signing key are used when the comparison with the pinned key has passed.
def Msg1Guarded (env : Env P) (pin : Pin P) : Prop :=
  StartWorks env → env.Works .receiveMsg1 1 → ∀ msg1, P.recvMsg1 env.wire = some msg1 →
    P.Fits msg1.ecdhX msg1.ecdhY ∧
      (ReceiveWorks env → Pinned pin msg1 → env.Works .importVerifierAttestationKey 1 →
        P.Fits msg1.ecdsaX msg1.ecdsaY)

variable {env : Env P} {pin : Pin P} {anchorSize : Nat}

theorem raNetHandshakeFinish_eq :
    (raNetHandshakeFinish pin anchorSize : AttesterM P P.Val) = (do
      receiveMsg1
      verifyServicePublicKey pin
      importVerifierAttestationKey
      checkAndDerive anchorSize) := rfl

theorem mem_log_receiveMsg1 (s : RaContext P) (hworks : env.Works .receiveMsg1 1)
    {msg1 : Msg1 P.Coord P.Val} (hmsg1 : P.recvMsg1 env.wire = some msg1) :
    Event.use .msg1EcdhX (P.size msg1.ecdhX) ∈ (receiveMsg1 env s).log ∧
      Event.use .msg1EcdhY (P.size msg1.ecdhY) ∈ (receiveMsg1 env s).log := by
  simp [receiveMsg1, initRefAttribute, stores, Prog.bind_run, Prog.andThen, Prog.orFail, Prog.ret,
    tee_run, hworks 0, hmsg1]

theorem mem_log_importVerifierAttestationKey (s : RaContext P)
    (hworks : env.Works .importVerifierAttestationKey 1) :
    Event.use .msg1EcdsaX (P.size s.msg1.ecdsaX) ∈ (importVerifierAttestationKey env s).log ∧
      Event.use .msg1EcdsaY (P.size s.msg1.ecdsaY) ∈ (importVerifierAttestationKey env s).log := by
  simp [importVerifierAttestationKey, allocate, initRefAttribute, Prog.bind_run, Prog.andThen,
    tee_run, hworks 0]

theorem msg1Guarded_of_logs {s : RaContext P}
    (h : Prog.Logs (raNetHandshake pin anchorSize) env s Event.InField) : Msg1Guarded env pin := by
  intro hstart hreceive msg1 hmsg1
  have hstarted := raNetHandshakeStart_reaches env s hstart
  have hecdh := mem_log_receiveMsg1 (started env.ecdhKey) hreceive hmsg1
  refine ⟨⟨?_, ?_⟩, ?_⟩
  · exact h _ (hstarted.mem_log_bind (Prog.mem_log_bind _ _ _ _ hecdh.1))
  · exact h _ (hstarted.mem_log_bind (Prog.mem_log_bind _ _ _ _ hecdh.2))
  · intro hworks hpinned himport
    have hreceived := receiveMsg1_reaches env (started env.ecdhKey) hworks hmsg1
    have hpin := (keeps_verifyServicePublicKey pin).reaches
      ((verifyServicePublicKey_ok env { started env.ecdhKey with msg1 := msg1 } pin).mpr hpinned)
    have hecdsa := mem_log_importVerifierAttestationKey
      { started env.ecdhKey with msg1 := msg1 } himport
    constructor
    · exact h _ (hstarted.mem_log_bind (hreceived.mem_log_bind (hpin.mem_log_bind
        (Prog.mem_log_bind _ _ _ _ hecdsa.1))))
    · exact h _ (hstarted.mem_log_bind (hreceived.mem_log_bind (hpin.mem_log_bind
        (Prog.mem_log_bind _ _ _ _ hecdsa.2))))

theorem logs_receiveMsg1 (s : RaContext P)
    (h : ∀ msg1, env.Works .receiveMsg1 1 → P.recvMsg1 env.wire = some msg1 →
      P.Fits msg1.ecdhX msg1.ecdhY) :
    Prog.Logs receiveMsg1 env s Event.InField := by
  refine ((confined_enter _).logs _ _).bind fun _ _ => ?_
  refine ((confined_tee _ _).logs _ _).bind fun _ h0 => ?_
  refine (Prog.Confined.ask.logs _ _).bind fun env' hask => ?_
  obtain rfl : env = env' := by simpa using hask
  refine ((confined_stores fun _ _ => trivial).logs _ _).bind fun _ _ => ?_
  refine ((Prog.Confined.orFail _ _).logs _ _).bind fun msg1 hmsg1 => ?_
  have hworks : env.faults .receiveMsg1 0 = none := (tee_out_ok env s _ _).mp h0
  have hfits := h msg1 (by simpa [Env.works_succ, Env.works_zero] using hworks)
    (by simpa using hmsg1)
  refine Prog.Logs.bind (Prog.logs_of_nil rfl) fun _ _ => ?_
  refine ((confined_initRefAttribute hfits.1).logs _ _).bind fun _ _ => ?_
  refine ((confined_initRefAttribute hfits.2).logs _ _).bind fun _ _ => ?_
  exact (confined_dumpRemotePublicKey hfits).logs _ _

theorem logs_importVerifierAttestationKey_of_fault {s : RaContext P}
    (h : ¬env.Works .importVerifierAttestationKey 1) {f : Unit → AttesterM P P.Val} :
    Prog.Logs (importVerifierAttestationKey >>= f) env s Event.InField := by
  have hrefused : ∀ s', (allocate .importVerifierAttestationKey 0 .ecdsaVerifierPublicKey env s' :
      Effect (RaContext P) TeeError Event Unit).out ≠ .ok () := by
    intro s' hok
    rw [allocate_out_ok] at hok
    exact h (by simpa [Env.works_succ, Env.works_zero] using hok)
  refine Prog.Logs.bind ?_ fun _ hok => ?_
  · refine ((confined_enter _).logs _ _).bind fun _ _ => (Prog.Confined.get.logs _ _).bind fun _ _ =>
      ((confined_allocate _ _ _).logs _ _).bind fun _ hok => absurd hok (hrefused _)
  · rw [importVerifierAttestationKey_ok] at hok
    exact absurd (fun index hindex => hok index (by omega)) h

theorem logs_of_msg1Guarded (s : RaContext P) (h : Msg1Guarded env pin) :
    Prog.Logs (raNetHandshake pin anchorSize) env s Event.InField := by
  have hfresh : Prog.Reaches allocRaContext env s () (RaContext.fresh P) := ⟨rfl, rfl⟩
  refine Prog.Logs.bind ?_ fun msg0 hok => ?_
  · exact hfresh.logs_bind (Prog.logs_of_nil rfl) (confined_start env _ fits_fresh).2
  have hstart := raNetHandshakeStart_ok env s hok
  rw [(raNetHandshakeStart_reaches env s hstart).2, raNetHandshakeFinish_eq]
  refine (logs_receiveMsg1 _ fun msg1 hworks hmsg1 => (h hstart hworks msg1 hmsg1).1).bind
    fun _ hreceived => ?_
  obtain ⟨hworks, msg1, hmsg1⟩ := receiveMsg1_ok env _ hreceived
  obtain ⟨hecdh, hecdsa⟩ := h hstart hworks.1 msg1 hmsg1
  rw [(receiveMsg1_reaches env _ hworks hmsg1).2]
  refine ((confined_verifyServicePublicKey pin).logs _ _).bind fun _ hpin => ?_
  rw [Prog.state_of_keeps (keeps_verifyServicePublicKey pin)]
  have hpinned := (verifyServicePublicKey_ok env _ pin).mp hpin
  by_cases himport : env.Works .importVerifierAttestationKey 1
  · have hfits := fits_started env.ecdhKey hecdh (hecdsa hworks hpinned himport)
    exact ((confined_importVerifierAttestationKey.bind fun _ =>
      confined_checkAndDerive anchorSize) env _ hfits).2
  · exact logs_importVerifierAttestationKey_of_fault himport

end Handshake

end Attester

-- No size field is compared with the length of its array. The uses stay inside exactly when
-- the peer keeps every size in range, or an earlier check happens to refuse the message.
theorem uses_inField_iff {P : Prims} {s : Verifier.Ctx P} (h : Verifier.Opened s)
    (inputs : List (Verifier.Invocation P)) (env : Env P) (pin : Attester.Pin P) (anchorSize : Nat)
    (memory : Attester.RaContext P) :
    ((∀ t ∈ Verifier.session s inputs, ∀ event ∈ t.output.events, event.InField) ∧
        Prog.Logs (Attester.raNetHandshake pin anchorSize) env memory Event.InField) ↔
      (∀ t ∈ Verifier.session s inputs, Verifier.Guarded t.before t.input) ∧
        Attester.Msg1Guarded env pin := by
  constructor
  · rintro ⟨hverifier, hattester⟩
    exact ⟨(Verifier.session_inField_iff h inputs).mp hverifier,
      Attester.msg1Guarded_of_logs hattester⟩
  · rintro ⟨hverifier, hattester⟩
    exact ⟨(Verifier.session_inField_iff h inputs).mpr hverifier,
      Attester.logs_of_msg1Guarded memory hattester⟩

namespace Bytes.Sample

open Base.Layout

def opened : Verifier.Ctx (prims platform) :=
  (Verifier.openSessionEntryPoint 0 (calm 0 3 silent) (Verifier.Ctx.zero (prims platform))).state

theorem opened_opened : Verifier.Opened opened := ⟨0, calm 0 3 silent, rfl, rfl⟩

-- A `msg0` and the front of a `msg1` whose first size field has this value.
def msg0With (size : Nat) : List UInt8 :=
  List.replicate 32 1 ++ leBytes 8 size ++ List.replicate 32 2 ++ leBytes 8 32

def msg1With (size : Nat) : List UInt8 :=
  List.replicate 32 1 ++ leBytes 4 size ++ List.replicate 188 0

def exchangeWith (size : Nat) : List (Verifier.Invocation (prims platform)) :=
  [⟨1, Verifier.Command.expParamTypes .handleMsg0, msg0With size, calm 7 0 silent⟩]

def receiving (size : Nat) : Env (prims platform) :=
  calm 5 0 ⟨msg1With size, fun _ => 224, fun _ => 0⟩

def noPin : Attester.Pin (prims platform) := ⟨[], 0, [], 0⟩

theorem uses_overrun : Verifier.Opened opened ∧
    (¬∀ t ∈ Verifier.session opened (exchangeWith 33), ∀ event ∈ t.output.events,
      event.InField) ∧
    ¬Prog.Logs (Attester.raNetHandshake noPin RA_ANCHOR_SIZE) (receiving 33)
      (Attester.RaContext.fresh (prims platform)) Event.InField := by
  refine ⟨opened_opened, fun h => ?_, fun h => ?_⟩
  · have huse := h _ List.mem_cons_self (.use .msg0X 33) (by decide +kernel)
    rw [Event.inField_use] at huse
    exact absurd huse (by decide)
  · have huse := h (.use .msg1EcdhX 33) (by decide +kernel)
    rw [Event.inField_use] at huse
    exact absurd huse (by decide)

theorem uses_inside : Verifier.Opened opened ∧
    (∀ t ∈ Verifier.session opened (exchangeWith 32), ∀ event ∈ t.output.events,
      event.InField) ∧
    Prog.Logs (Attester.raNetHandshake noPin RA_ANCHOR_SIZE) (receiving 32)
      (Attester.RaContext.fresh (prims platform)) Event.InField := by
  refine ⟨opened_opened, (uses_inField_iff opened_opened _ _ _ _ _).mpr ⟨?_, ?_⟩⟩
  · intro t ht s _
    have hinput := Run.input_mem ht
    rw [exchangeWith, List.mem_singleton] at hinput
    rw [hinput]
    refine ⟨fun _ _ _ => by decide +kernel, fun hcommand => ?_⟩
    cases hcommand
  · have hfits : ((prims platform).recvMsg1 (receiving 32).wire).all (fun msg1 =>
        decide ((prims platform).Fits msg1.ecdhX msg1.ecdhY) &&
          decide ((prims platform).Fits msg1.ecdsaX msg1.ecdsaY)) = true := by decide +kernel
    intro _ _ msg1 hmsg1
    rw [hmsg1, Option.all_some, Bool.and_eq_true, decide_eq_true_eq, decide_eq_true_eq] at hfits
    exact ⟨hfits.1, fun _ _ _ => hfits.2⟩

end Bytes.Sample

end Watz
