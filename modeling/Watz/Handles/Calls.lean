import Watz.Base.Run
import Watz.Handles

namespace Watz.Attester

open Base Tee

def objectSlots : List Slot :=
  [.ecdhLocalKeypair, .sharedKeyDerivationKey, .sharedMacKey, .sharedSessionKey,
    .ecdsaVerifierPublicKey]

-- Everything that `alloc_ra_context` overwrites with zeros.
def contextSlots : List Slot := objectSlots ++ [.msg3, .socket]

variable {P : Prims}

-- `free_ra_context`, which is all that `ra_net_dispose` does.
def freeRaContext : AttesterM P Unit := do
  Prog.emit (objectSlots.map .free)
  let s ← Prog.get
  if 0 < s.msg3Size then
    Prog.modify fun s => { s with msg3Size := 0 }
    Prog.emit [.free .msg3]
  -- on a socket that was never opened this faults, with everything else released
  Prog.emit [.free .socket]

-- The variables of a context that it releases.
def released (s : RaContext P) : List Slot :=
  objectSlots ++ (if 0 < s.msg3Size then [.msg3] else []) ++ [.socket]

theorem handling_freeRaContext (env : Env P) (s : RaContext P) :
    handling (freeRaContext env s) = (released s).map .free := by
  by_cases hsize : 0 < s.msg3Size
  · simp [handling, freeRaContext, released, objectSlots, Prog.bind_run, Prog.andThen, hsize,
      Event.actions]
  · simp [handling, freeRaContext, released, objectSlots, Prog.bind_run, Prog.andThen, hsize,
      Event.actions]

-- The variables that are released when no message block was received.
def keySlots : List Slot := objectSlots ++ [.socket]

theorem mem_released_of_zero {s : RaContext P} (h : s.msg3Size = 0) (var : Slot) :
    var ∈ released s ↔ var ∈ keySlots := by
  simp [released, keySlots, h]

theorem mem_released_of_pos {s : RaContext P} (h : 0 < s.msg3Size) (var : Slot) :
    var ∈ released s ↔ var ∈ keySlots ∨ var = .msg3 := by
  simp only [released, keySlots, h, if_true, List.mem_append, List.mem_singleton]
  tauto

theorem mem_contextSlots_of_released {s : RaContext P} {var : Slot} (h : var ∈ released s) :
    var ∈ contextSlots := by
  have hkeys : ∀ var ∈ keySlots, var ∈ contextSlots := by decide
  by_cases hsize : 0 < s.msg3Size
  · rcases (mem_released_of_pos hsize var).mp h with hvar | rfl
    · exact hkeys var hvar
    · decide
  · exact hkeys var ((mem_released_of_zero (by omega) var).mp h)

section Traced

theorem traced_generateEcdhKeypair :
    TracedBy .generateEcdhKeypair (generateEcdhKeypair : AttesterM P Unit) fun env =>
      generation .generateEcdhKeypair .ecdhLocalKeypair (env.dump .generateEcdhKeypair 4) :=
  .of_eq
    (.bind .emit fun _ => .bind traced_allocate fun _ => .bind .modify fun _ =>
      .bind traced_tee fun _ => .bind .ask fun _ => .bind .modify fun _ => .bind traced_tee fun _ =>
      .bind .modify fun _ => .bind traced_tee fun _ => .bind .modify fun _ =>
      .bind (traced_dumpObjectAttribute rfl) fun _ => .bind .get fun _ =>
      .bind traced_dump fun _ => traced_dump) fun _ => rfl

theorem traced_sendMsg0 :
    Traced .sendMsg0 (sendMsg0 : AttesterM P (Msg0 P.Coord)) [fallible .sendMsg0 0] :=
  .of_eq (.bind traced_tee fun _ => .bind .get fun _ => .pure) fun _ => rfl

theorem traced_importVerifierAttestationKey :
    Traced .importVerifierAttestationKey (importVerifierAttestationKey : AttesterM P Unit)
      (allocation .importVerifierAttestationKey .ecdsaVerifierPublicKey [1]) :=
  .of_eq
    (.bind .emit fun _ => .bind .get fun _ => .bind traced_allocate fun _ => .bind .modify fun _ =>
      .bind traced_initRefAttribute fun _ => .bind traced_initRefAttribute fun _ =>
      .bind traced_readCoord fun _ => .bind traced_readCoord fun _ => .bind traced_tee fun _ =>
      .modify) fun _ => rfl

theorem releases_generateEcdhKeypair (env : Env P) (s : RaContext P) :
    ReleasesWhen .generateEcdhKeypair generateEcdhKeypair env s
      (env.Works .generateEcdhKeypair 4 → env.DumpReleases .generateEcdhKeypair 4) :=
  Follows.releasesWhen_generation (traced_generateEcdhKeypair env s) balanced_generateEcdhKeypair

end Traced

section ReceiveMsg1

variable {env : Env P} {s : RaContext P}

-- In a build with dumps, a whole `msg1` leads to two dumps of the key in it, once that is
-- imported. The label `out` frees the handle of the import even when there is none.
def KeyDumpReleases (env : Env P) : Prop :=
  env.debug = true → P.recvMsg1 env.wire ≠ none → env.Works .receiveMsg1 1 →
    env.Works .receiveMsg1 2 ∧ (env.Works .receiveMsg1 3 →
      env.DumpReleases .receiveMsg1 3 ∧ env.DumpReleases .receiveMsg1 5)

-- What `receive_msg1` does when it does not come to the dumps, and when it does.
def shortCalls : List (Call Slot) :=
  [did ((locals .receiveMsg1).map .declare), fallible .receiveMsg1 0, ⟨[], .either, []⟩]

def dumpedCalls (first second : Dump) : List (Call Slot) :=
  let key : Slot := .ecdhRemotePublicKey .receiveMsg1
  [did ((locals .receiveMsg1).map .declare), fallible .receiveMsg1 0] ++
    [fallible .receiveMsg1 1, did [.alloc key], fallible .receiveMsg1 2,
      did (first.actions .receiveMsg1 [.use key]),
      did (second.actions .receiveMsg1 [.use key])].map (Call.released [.free key]) ++
    [did [.free key]]

theorem follows_receiveMsg1_short (h : env.debug = false ∨ P.recvMsg1 env.wire = none) :
    Follows .receiveMsg1 receiveMsg1 env s shortCalls := by
  have hdump : ∀ msg1 t, P.recvMsg1 env.wire = some msg1 →
      Follows .receiveMsg1 (dumpRemotePublicKey msg1 : AttesterM P Unit) env t [] := by
    intro msg1 t hmsg1
    have hdebug : env.debug = false := h.resolve_right (by simp [hmsg1])
    have hrun : dumpRemotePublicKey msg1 env t = ⟨.ok (), t, []⟩ := by
      simp [dumpRemotePublicKey, Prog.bind_run, Prog.andThen, hdebug]
    exact .quiet (.inr (by rw [hrun]; rfl)) (by rw [hrun]; rfl)
  exact .of_eq
    (.bind (.emit _) fun _ _ => .bind (traced_tee env _) fun _ _ =>
      .bind_ask (.bind (traced_stores env _) fun _ _ => .bind (.orFail _ _) fun msg1 hmsg1 =>
      .bind (.modify _) fun _ _ => .bind (traced_initRefAttribute env _) fun _ _ =>
      .bind (traced_initRefAttribute env _) fun _ _ =>
      hdump msg1 _ ((Prog.orFail_out_ok env _ _ _ _).mp hmsg1))) rfl

theorem follows_dumpRemotePublicKey (hdebug : env.debug = true) (msg1 : Msg1 P.Coord P.Val) :
    Follows .receiveMsg1 (dumpRemotePublicKey msg1) env s
      ((dumpedCalls (env.dump .receiveMsg1 3) (env.dump .receiveMsg1 5)).drop 2) := by
  unfold dumpRemotePublicKey
  refine .bind_ask ?_
  rw [if_pos hdebug]
  exact .of_eq
    (.bind (.onFail _ (.bind (traced_allocate env _) fun _ _ =>
      .bind (traced_readCoord env _) fun _ _ => .bind (traced_readCoord env _) fun _ _ =>
      .bind (traced_tee env _) fun _ _ =>
      .bind (follows_dumpObjectAttribute (.inl hdebug)) fun _ _ =>
      follows_dumpObjectAttribute (.inl hdebug))) fun _ _ => .emit _) rfl

theorem follows_receiveMsg1_dumped (hdebug : env.debug = true)
    (hmsg1 : P.recvMsg1 env.wire ≠ none) :
    Follows .receiveMsg1 receiveMsg1 env s
      (dumpedCalls (env.dump .receiveMsg1 3) (env.dump .receiveMsg1 5)) := by
  obtain ⟨msg1, hmsg1⟩ := Option.ne_none_iff_exists'.mp hmsg1
  have hwhole : ∀ t, Follows .receiveMsg1
      (Prog.orFail (P.recvMsg1 env.wire) .generic : AttesterM P (Msg1 P.Coord P.Val)) env t [] := by
    intro t
    rw [hmsg1]
    exact .quiet (.inr rfl) rfl
  exact .of_eq
    (.bind (.emit _) fun _ _ => .bind (traced_tee env _) fun _ _ =>
      .bind_ask (.bind (traced_stores env _) fun _ _ => .bind (hwhole _) fun msg1 _ =>
      .bind (.modify _) fun _ _ => .bind (traced_initRefAttribute env _) fun _ _ =>
      .bind (traced_initRefAttribute env _) fun _ _ =>
      follows_dumpRemotePublicKey hdebug msg1)) rfl

theorem contained_shortCalls : ∀ fault ≤ 1, ∀ outcome ∈ Call.outcomesAt fault shortCalls,
    Contained .receiveMsg1 outcome.1 := by
  decide

-- The first of the calls that fails decides, once the block of a dump is there, what is left.
def DumpedReleases (first second : Dump) (fault : Nat) : Prop :=
  1 ≤ fault → 2 ≤ fault ∧ (3 ≤ fault → first ≠ .leaked ∧ second ≠ .leaked)

instance (first second : Dump) (fault : Nat) : Decidable (DumpedReleases first second fault) :=
  inferInstanceAs (Decidable (_ → _ ∧ (_ → _ ∧ _)))

theorem contained_dumpedCalls (first second : Dump) : ∀ fault ≤ 3,
    ∀ outcome ∈ Call.outcomesAt fault (dumpedCalls first second),
      DumpedReleases first second fault → Contained .receiveMsg1 outcome.1 := by
  cases first <;> cases second <;> decide

theorem balanced_dumpedCalls (first second : Dump) : ∀ fault ≤ 3,
    ∀ outcome ∈ Call.outcomesAt fault (dumpedCalls first second),
      Ledger.Balanced (locals .receiveMsg1) outcome.1 ↔ DumpedReleases first second fault := by
  cases first <;> cases second <;> decide

theorem keyDumpReleases_iff (hdebug : env.debug = true) (hmsg1 : P.recvMsg1 env.wire ≠ none) :
    KeyDumpReleases env ↔ DumpedReleases (env.dump .receiveMsg1 3) (env.dump .receiveMsg1 5)
      (Call.firstFault (env.worked .receiveMsg1) 3) := by
  rw [DumpedReleases, ← env.works_iff .receiveMsg1 (show 1 ≤ 3 by decide),
    ← env.works_iff .receiveMsg1 (show 2 ≤ 3 by decide),
    ← env.works_iff .receiveMsg1 (Nat.le_refl 3), env.dump_ne_leaked_iff, env.dump_ne_leaked_iff]
  exact ⟨fun h => h hdebug hmsg1, fun h _ _ => h⟩

theorem contained_receiveMsg1 (h : KeyDumpReleases env)
    (hreturns : (receiveMsg1 env s).out ≠ .panic) :
    Contained .receiveMsg1 (handling (receiveMsg1 env s)) := by
  by_cases hdumps : env.debug = true ∧ P.recvMsg1 env.wire ≠ none
  · exact contained_dumpedCalls _ _ _ (Call.firstFault_le _ _) _
      ((follows_receiveMsg1_dumped hdumps.1 hdumps.2).mem_firstFault hreturns rfl)
      ((keyDumpReleases_iff hdumps.1 hdumps.2).mp h)
  · have hshort : env.debug = false ∨ P.recvMsg1 env.wire = none := by
      simpa [imp_iff_not_or] using hdumps
    exact contained_shortCalls _ (Call.firstFault_le _ _) _
      ((follows_receiveMsg1_short hshort).mem_firstFault hreturns rfl)

theorem releases_receiveMsg1 (env : Env P) (s : RaContext P) :
    ReleasesWhen .receiveMsg1 receiveMsg1 env s (KeyDumpReleases env) := by
  intro hreturns
  refine ⟨fun hbalanced => ?_, fun h => (contained_receiveMsg1 h hreturns).balanced⟩
  intro hdebug hmsg1
  refine (keyDumpReleases_iff hdebug hmsg1).mpr ?_ hdebug hmsg1
  exact (balanced_dumpedCalls _ _ _ (Call.firstFault_le _ _) _
    ((follows_receiveMsg1_dumped hdebug hmsg1).mem_firstFault hreturns rfl)).mp hbalanced

end ReceiveMsg1

inductive NetCall (P : Prims) where
  | handshake (pin : Pin P) (anchorSize : Nat)
  | sendQuote (quote : P.Quote)
  | receiveData (dataSize : Nat)

def NetCall.program : NetCall P → AttesterM P Unit
  | handshake pin anchorSize => raNetHandshake pin anchorSize >>= fun _ => pure ()
  | sendQuote quote => raNetSendQuote quote >>= fun _ => pure ()
  | receiveData dataSize => raNetReceiveData dataSize >>= fun _ => pure ()

-- The variables that a call overwrites before it does anything else.
def NetCall.cleared : NetCall P → List Slot
  | handshake _ _ => contextSlots
  | sendQuote _ => []
  | receiveData _ => []

-- A call that keeps the ledger straight. Each condition is about the inputs and about what
-- the context holds before.
def Orderly (L : Ledger Slot) (env : Env P) : NetCall P → Prop
  | .handshake pin _ =>
      (∀ slot ∈ contextSlots, (L.held slot).isLive = false) ∧
      (env.Works .generateEcdhKeypair 4 → env.DumpReleases .generateEcdhKeypair 4) ∧
      (StartWorks env → KeyDumpReleases env ∧ (env.Works .receiveMsg1 1 →
        ∀ msg1, P.recvMsg1 env.wire = some msg1 → Pinned pin msg1 →
          env.Works .importVerifierAttestationKey 2 →
            env.Works .verifyEcdhPublicKeySignature 1 ∧
              ¬env.Works .verifyEcdhPublicKeySignature 3))
  | .sendQuote _ => env.Works .prepareMsg2 1
  | .receiveData dataSize =>
      (L.held .msg3).isLive = false ∧
      (env.Works .receiveMsg3 1 →
        (2 ^ 32 ≤ msg3BlockSize P dataSize ∨
          0 < P.recvCount3 env.wire (msg3BlockSize P dataSize % 2 ^ 32)) ∧
        env.Works .decryptMsg3 1)

section Handshake

variable {env : Env P} {s : RaContext P} {L : Ledger Slot}

theorem generateEcdhKeypair_settles (hL : L.Settled (· ∈ keySlots))
    (hidle : env.Works .generateEcdhKeypair 1 → (L.held .ecdhLocalKeypair).isLive = false)
    (hdump : env.Works .generateEcdhKeypair 4 → env.DumpReleases .generateEcdhKeypair 4) :
    Settles keySlots (Filled keySlots .ecdhLocalKeypair L) generateEcdhKeypair env s L :=
  Follows.settles_allocation _ (traced_generateEcdhKeypair env s) (locals .generateEcdhKeypair) rfl
    (show 1 ≤ 4 by decide) (allocates_generateEcdhKeypair _) (by decide) (by decide) (by decide) hL
    hidle fun hworks => (env.dump_ne_leaked_iff _ _).mpr (hdump hworks)

theorem establishTcpConnection_settles (hL : L.Settled (· ∈ keySlots))
    (hidle : env.Works .establishTcpConnection 1 → (L.held .socket).isLive = false) :
    Settles keySlots (Filled keySlots .socket L) establishTcpConnection env s L :=
  Follows.settles_allocation .none (traced_allocate.follows env s) [] rfl (show 1 ≤ 1 by decide)
    (by decide) (by decide) (by decide) (by decide) hL hidle fun _ => by decide

theorem importVerifierAttestationKey_settles (hL : L.Settled (· ∈ keySlots))
    (hidle : env.Works .importVerifierAttestationKey 1 →
      (L.held .ecdsaVerifierPublicKey).isLive = false) :
    Settles keySlots (Filled keySlots .ecdsaVerifierPublicKey L) importVerifierAttestationKey env
      s L :=
  Follows.settles_allocation .none (traced_importVerifierAttestationKey.follows env s)
    (locals .importVerifierAttestationKey) rfl (show 1 ≤ 2 by decide) (by decide) (by decide)
    (by decide) (by decide) hL hidle fun _ => by decide

theorem raNetHandshakeStart_settles (hL : L.Settled (· ∈ keySlots))
    (hidle : ∀ slot ∈ keySlots, (L.held slot).isLive = false)
    (hdump : env.Works .generateEcdhKeypair 4 → env.DumpReleases .generateEcdhKeypair 4) :
    Settles keySlots (fun M => M.Settled (· ∈ keySlots) ∧
      (M.held .ecdsaVerifierPublicKey).isLive = false) raNetHandshakeStart env s L := by
  have halloc : Settles keySlots (· = L) allocRaContext env s L := .silent rfl hL
  unfold raNetHandshakeStart
  refine halloc.bind fun _ _ _ hsame => ?_
  rw [hsame]
  refine (generateEcdhKeypair_settles hL (fun _ => hidle _ (by decide)) hdump).bind
    fun _ M _ ⟨hM, hframe⟩ => ?_
  have hsocket : (M.held .socket).isLive = false := by
    rw [hframe .socket (by decide) (by decide)]
    exact hidle _ (by decide)
  refine (establishTcpConnection_settles hM fun _ => hsocket).bind fun _ N _ ⟨hN, hframe'⟩ => ?_
  have hkey : (N.held .ecdsaVerifierPublicKey).isLive = false := by
    rw [hframe' _ (by decide) (by decide), hframe _ (by decide) (by decide)]
    exact hidle _ (by decide)
  refine Prog.Settles.mono (.quiet (traced_sendMsg0.follows env _) (by decide) hN) fun _ hsame => ?_
  rw [hsame]
  exact ⟨hN, hkey⟩

theorem receiveMsg1_settles (h : KeyDumpReleases env) (hL : L.Settled (· ∈ keySlots)) :
    Settles keySlots (Kept keySlots L) receiveMsg1 env s L :=
  settles_of_contained (by decide) hL (contained_receiveMsg1 h)

theorem verifyServicePublicKey_settles {pin : Pin P} (hL : L.Settled (· ∈ keySlots)) :
    Settles keySlots (· = L) (verifyServicePublicKey pin) env s L := by
  by_cases hempty : pin.xSize = 0 ∧ pin.ySize = 0
  · refine .silent ?_ hL
    simp [verifyServicePublicKey, Prog.bind_run, Prog.andThen, hempty]
  · have htraced : Traced .receiveMsg1 (verifyServicePublicKey pin : AttesterM P Unit)
        [⟨[], .either, []⟩, ⟨[], .either, []⟩, ⟨[], .either, []⟩] := by
      unfold verifyServicePublicKey
      simp only [if_neg hempty]
      exact .of_eq (.bind .get fun _ => .bind .require fun _ => .bind .require fun _ => .require)
        fun _ => rfl
    exact .quiet (htraced.follows env s) (by decide) hL

theorem raNetHandshake_settles {pin : Pin P} {anchorSize : Nat}
    (hL : L.Settled (· ∈ keySlots)) (hidle : ∀ slot ∈ keySlots, (L.held slot).isLive = false)
    (hdump : env.Works .generateEcdhKeypair 4 → env.DumpReleases .generateEcdhKeypair 4)
    (h : StartWorks env → KeyDumpReleases env ∧ (env.Works .receiveMsg1 1 →
      ∀ msg1, P.recvMsg1 env.wire = some msg1 → Pinned pin msg1 →
        env.Works .importVerifierAttestationKey 2 →
          env.Works .verifyEcdhPublicKeySignature 1 ∧
            ¬env.Works .verifyEcdhPublicKeySignature 3)) :
    Settles keySlots (·.Settled (· ∈ keySlots)) (raNetHandshake pin anchorSize) env s L := by
  unfold raNetHandshake
  refine (raNetHandshakeStart_settles hL hidle hdump).bind fun _ M hstarted ⟨hM, hkey⟩ => ?_
  have hstart := raNetHandshakeStart_ok env s hstarted
  rw [(raNetHandshakeStart_reaches env s hstart).2]
  obtain ⟨hreleases, hcheck⟩ := h hstart
  unfold raNetHandshakeFinish
  refine (receiveMsg1_settles hreleases hM).bind fun _ N hreceived hkept => ?_
  have hkey' : (N.held .ecdsaVerifierPublicKey).isLive = false := by
    rwa [hkept.held _ (by decide)]
  obtain ⟨hreceive, msg1, hmsg1⟩ := receiveMsg1_ok env _ hreceived
  rw [(receiveMsg1_reaches env _ hreceive hmsg1).2]
  refine (verifyServicePublicKey_settles hkept.settled).bind fun _ _ hverified hsame => ?_
  rw [hsame]
  have hpinned := (verifyServicePublicKey_ok env _ pin).mp hverified
  refine (importVerifierAttestationKey_settles hkept.settled fun _ => hkey').bind
    fun _ O himported ⟨hO, _⟩ => ?_
  have hcut := hcheck hreceive.1 msg1 hmsg1 hpinned
    ((importVerifierAttestationKey_ok env _).mp himported)
  exact (Follows.settles_between (traced_verifyEcdhPublicKeySignature.follows env _) rfl
    (show 1 ≤ 4 by decide) (by decide) (by decide) hcut (by decide) hO).never

theorem keeps_msg3Size_receiveMsg1 :
    Prog.Keeps RaContext.msg3Size (receiveMsg1 : AttesterM P Unit) := by
  unfold receiveMsg1
  refine (Prog.Keeps.emit _).bind fun _ => (keeps_tee _ _).bind fun _ => ?_
  refine Prog.Keeps.ask.bind fun env => (keeps_stores _ _).bind fun _ => ?_
  refine (Prog.Keeps.orFail _ _).bind fun msg1 => ?_
  refine Prog.Keeps.bind (Prog.Keeps.modify fun _ => rfl) fun _ => ?_
  refine (keeps_initRefAttribute _ _).bind fun _ => (keeps_initRefAttribute _ _).bind fun _ => ?_
  exact (keeps_dumpRemotePublicKey msg1).of_id

theorem keeps_msg3Size_import :
    Prog.Keeps RaContext.msg3Size (importVerifierAttestationKey : AttesterM P Unit) := by
  unfold importVerifierAttestationKey
  refine (Prog.Keeps.emit _).bind fun _ => Prog.Keeps.get.bind fun s => ?_
  refine (keeps_allocate _ _ _).bind fun _ => ?_
  refine Prog.Keeps.bind (Prog.Keeps.modify fun _ => rfl) fun _ => ?_
  refine (keeps_initRefAttribute _ _).bind fun _ => (keeps_initRefAttribute _ _).bind fun _ => ?_
  refine (keeps_readCoord _ _).bind fun x => (keeps_readCoord _ _).bind fun y => ?_
  exact (keeps_tee _ _).bind fun _ => Prog.Keeps.modify fun _ => rfl

theorem keeps_msg3Size_finish (pin : Pin P) (anchorSize : Nat) :
    Prog.Keeps RaContext.msg3Size (raNetHandshakeFinish pin anchorSize : AttesterM P P.Val) := by
  unfold raNetHandshakeFinish
  refine Prog.Keeps.bind keeps_msg3Size_receiveMsg1 fun _ => ?_
  refine Prog.Keeps.bind (keeps_verifyServicePublicKey pin).of_id fun _ => ?_
  refine Prog.Keeps.bind keeps_msg3Size_import fun _ => ?_
  refine Prog.Keeps.bind keeps_verifyEcdhPublicKeySignature.of_id fun _ => ?_
  refine Prog.Keeps.bind (derivation.keeps_deriveSharedKey fun _ _ => rfl) fun _ => ?_
  refine Prog.Keeps.bind (derivation.keeps_deriveSharedMacKey fun _ _ => rfl) fun _ => ?_
  refine Prog.Keeps.bind (derivation.keeps_deriveSharedMacKey fun _ _ => rfl) fun _ => ?_
  refine Prog.Keeps.bind keeps_verifyMsg1Mac.of_id fun _ => ?_
  exact (keeps_generateAnchor anchorSize).of_id

theorem keeps_msg3Size_start :
    Prog.Keeps RaContext.msg3Size (generateEcdhKeypair >>= fun _ => establishTcpConnection >>=
      fun _ => sendMsg0 : AttesterM P (Msg0 P.Coord)) := by
  refine Prog.Keeps.bind ?_ fun _ => ?_
  · unfold generateEcdhKeypair
    refine (Prog.Keeps.emit _).bind fun _ => (keeps_allocate _ _ _).bind fun _ => ?_
    refine Prog.Keeps.bind (Prog.Keeps.modify fun _ => rfl) fun _ => ?_
    refine (keeps_tee _ _).bind fun _ => Prog.Keeps.ask.bind fun env => ?_
    refine Prog.Keeps.bind (Prog.Keeps.modify fun _ => rfl) fun _ => ?_
    refine (keeps_tee _ _).bind fun _ => ?_
    refine Prog.Keeps.bind (Prog.Keeps.modify fun _ => rfl) fun _ => ?_
    refine (keeps_tee _ _).bind fun _ => ?_
    refine Prog.Keeps.bind (Prog.Keeps.modify fun _ => rfl) fun _ => ?_
    refine (keeps_dumpObjectAttribute _ _).bind fun _ => Prog.Keeps.get.bind fun s => ?_
    exact (keeps_dump _ _).bind fun _ => keeps_dump _ _
  · refine (keeps_allocate _ _ _).bind fun _ => (keeps_tee _ _).bind fun _ => ?_
    exact Prog.Keeps.get.bind fun s => Prog.Keeps.pure _

-- A handshake leaves no message block.
theorem raNetHandshake_msg3Size {pin : Pin P} {anchorSize : Nat} :
    (raNetHandshake pin anchorSize env s).state.msg3Size = 0 := by
  have hstart : (raNetHandshakeStart env s).state.msg3Size = 0 := by
    have hreaches : Prog.Reaches allocRaContext env s () (RaContext.fresh P) :=
      Prog.Reaches.modify _ env s
    unfold raNetHandshakeStart
    rw [hreaches.bind_state]
    exact keeps_msg3Size_start env (RaContext.fresh P)
  unfold raNetHandshake
  cases hout : (raNetHandshakeStart env s).out.isOk with
  | false => rw [Prog.state_bind_of_not_ok _ _ env s hout, hstart]
  | true =>
      obtain ⟨msg0, hok⟩ := (Out.isOk_iff _).mp hout
      rw [Prog.state_bind_of_ok _ _ env s hok]
      exact (keeps_msg3Size_finish pin anchorSize env _).trans hstart

end Handshake

section Quote

variable {env : Env P} {s : RaContext P} {L : Ledger Slot} {slots : List Slot}

theorem contained_prepareMsg2 : ∀ fault ≤ 3, 1 ≤ fault →
    ∀ outcome ∈ Call.outcomesAt fault
        [fallible .prepareMsg2 0, did [.alloc (.operation .prepareMsg2)], fallible .prepareMsg2 1,
          fallible .prepareMsg2 2],
      Contained .prepareMsg2 ((locals .prepareMsg2).map .declare ++ outcome.1 ++
        [.free (.operation .prepareMsg2)]) := by
  decide

theorem prepareMsg2_settles {quote : P.Quote} (hL : L.Settled (· ∈ slots))
    (hlocals : ∀ var ∈ locals .prepareMsg2, var ∉ slots) (h : env.Works .prepareMsg2 1) :
    Settles slots (Kept slots L) (prepareMsg2 quote) env s L := by
  refine settles_of_contained hlocals hL fun hreturns => ?_
  obtain ⟨htagged, hhandling⟩ := prepareMsg2_handling env hreturns
  rw [hhandling]
  exact contained_prepareMsg2 _ (Call.firstFault_le _ _)
    ((env.works_iff .prepareMsg2 (show 1 ≤ 3 by decide)).mp h) _
    ((traced_computeMsg2Mac env _).mem_firstFault htagged rfl)

theorem raNetSendQuote_settles {quote : P.Quote} (hL : L.Settled (· ∈ slots))
    (hlocals : ∀ var ∈ locals .prepareMsg2, var ∉ slots) (h : env.Works .prepareMsg2 1) :
    Settles slots (·.Settled (· ∈ slots)) (raNetSendQuote quote) env s L := by
  unfold raNetSendQuote
  refine (prepareMsg2_settles hL hlocals h).bind fun _ M _ ⟨hM, _⟩ => ?_
  have hsend : Traced .sendMsg2 (sendMsg2 : AttesterM P (Msg2 P.Coord P.Quote P.Val))
      [fallible .sendMsg2 0] :=
    .of_eq (.bind traced_tee fun _ => .bind .get fun _ => .pure) fun _ => rfl
  refine Prog.Settles.mono (.quiet (hsend.follows env _) (by decide) hM) fun _ hsame => ?_
  rw [hsame]
  exact hM

theorem keeps_msg3Size_sendQuote (quote : P.Quote) :
    Prog.Keeps RaContext.msg3Size (raNetSendQuote quote : AttesterM P _) :=
  keeps_sendQuote_of quote fun _ _ => rfl

end Quote

section ReceiveData

variable {env : Env P} {s : RaContext P} {L : Ledger Slot}

-- The variables that are released once there is a message block.
def blockSlots : List Slot := keySlots ++ [.msg3]

theorem mem_blockSlots_iff (s : RaContext P) (var : Slot) :
    var ∈ released s ∨ var = .msg3 ↔ var ∈ blockSlots := by
  have hblock : var ∈ blockSlots ↔ var ∈ keySlots ∨ var = .msg3 := by simp [blockSlots]
  rw [hblock]
  by_cases hsize : 0 < s.msg3Size
  · rw [mem_released_of_pos hsize, or_assoc, or_self]
  · rw [mem_released_of_zero (by omega)]

theorem allocateMsg3_settles {dataSize : Nat} (hL : L.Settled (· ∈ released s))
    (hidle : (L.held .msg3).isLive = false) :
    Settles blockSlots (·.Settled (· ∈ blockSlots)) (allocateMsg3 dataSize) env s L := by
  refine .of_both fun hreturns => ?_
  by_cases hgranted : env.faults .allocateMsg3 0 = none
  · rw [allocateMsg3_run env s dataSize hgranted]
    exact (hL.alloc hidle).of_iff (mem_blockSlots_iff s)
  · exact absurd (allocateMsg3_panics env s dataSize hgranted) hreturns

theorem receiveMsg3_settles (hL : L.Settled (· ∈ blockSlots)) :
    Settles blockSlots (· = L) receiveMsg3 env s L := by
  have htraced : Traced .receiveMsg3 (receiveMsg3 : AttesterM P Unit) [fallible .receiveMsg3 0] :=
    .of_eq
      (.bind traced_tee fun _ => .bind .ask fun _ => .bind .get fun _ =>
        .bind traced_stores fun _ => .bind .modify fun _ => .bind traced_print fun _ =>
        .bind traced_print fun _ => .bind traced_print fun _ => .bind traced_logRead fun _ =>
        .bind traced_print fun _ => traced_print) fun _ => rfl
  exact .quiet (htraced.follows env s) (by decide) hL

theorem receiveMsg3_works (h : (receiveMsg3 env s).out = .ok ()) : env.Works .receiveMsg3 1 := by
  have hout : env.faults .receiveMsg3 0 = none := by
    simp only [receiveMsg3, Prog.out_bind_ok, Prog.exists_unit, tee_out_ok] at h
    exact h.1
  simpa [Env.works_succ, Env.works_zero] using hout

theorem raNetReceiveData_settles {dataSize : Nat} (hL : L.Settled (· ∈ released s))
    (h : Orderly L env (.receiveData dataSize)) :
    Settles blockSlots (·.Settled (· ∈ blockSlots)) (raNetReceiveData dataSize) env s L := by
  obtain ⟨hidle, hreceive⟩ := h
  unfold raNetReceiveData
  refine (allocateMsg3_settles hL hidle).bind fun _ M _ hM => ?_
  refine (receiveMsg3_settles hM).bind fun _ _ hreceived hsame => ?_
  rw [hsame]
  refine Prog.Settles.bind (.silent (logRead_actions _ _ _ env _) hM) fun _ _ _ hsame => ?_
  rw [hsame]
  exact Prog.Settles.mono (Follows.settles (traced_decryptMsg3.follows env _) rfl
    (show 1 ≤ 3 by decide) (by decide) (hreceive (receiveMsg3_works hreceived)).2 (by decide) hM)
    fun _ hkept => hkept.settled

-- The block is remembered as long as something was received into it.
theorem receiveMsg3_msg3Size (hpos : 0 < s.msg3Size)
    (h : env.Works .receiveMsg3 1 →
      2 ^ 32 ≤ s.msg3Size ∨ 0 < P.recvCount3 env.wire (s.msg3Size % 2 ^ 32)) :
    0 < (receiveMsg3 env s).state.msg3Size := by
  cases hfault : env.faults .receiveMsg3 0 with
  | some code =>
      simpa [receiveMsg3, tee, Prog.call, Prog.bind_run, Prog.andThen, hfault] using hpos
  | none =>
      have hcount := h (by simpa [Env.works_succ, Env.works_zero] using hfault)
      rw [receiveMsg3_run env s hfault]
      change 0 < s.msg3Size / 2 ^ 32 * 2 ^ 32 + P.recvCount3 env.wire (s.msg3Size % 2 ^ 32)
      rcases hcount with hlarge | hcount
      · have hhalf : 0 < s.msg3Size / 2 ^ 32 := Nat.div_pos hlarge (by decide)
        omega
      · omega

theorem raNetReceiveData_msg3Size {dataSize : Nat} (h : Orderly L env (.receiveData dataSize))
    (hreturns : (raNetReceiveData dataSize env s).out ≠ .panic) :
    0 < (raNetReceiveData dataSize env s).state.msg3Size := by
  have hgranted : env.faults .allocateMsg3 0 = none := by
    by_contra hnull
    exact hreturns (Prog.out_bind_of_panic _ _ env s (allocateMsg3_panics env s dataSize hnull))
  let filled := withBlock (msg3BlockSize P dataSize) s
  have hpos : 0 < filled.msg3Size := by
    simp only [filled, withBlock, msg3BlockSize, RA_AES_GCM_CIPHERTEXT_OVERHEAD]
    omega
  have hreceived : 0 < (receiveMsg3 env filled).state.msg3Size :=
    receiveMsg3_msg3Size hpos fun hworks => (h.2 hworks).1
  have hreaches : Prog.Reaches (allocateMsg3 dataSize) env s () filled :=
    .of_run (allocateMsg3_run env s dataSize hgranted)
  unfold raNetReceiveData
  rw [hreaches.bind_state]
  cases hout : (receiveMsg3 env filled).out.isOk with
  | false => rwa [Prog.state_bind_of_not_ok _ _ env _ hout]
  | true =>
      obtain ⟨value, hok⟩ := (Out.isOk_iff _).mp hout
      have hkeeps : Prog.Keeps id
          (logRead .msg3 (RA_AES_GCM_IV_SIZE + RA_AES_GCM_TAG_SIZE / 8) 8 >>=
            fun _ => decryptMsg3 dataSize : AttesterM P (P.Val × Nat)) :=
        (keeps_logRead _ _ _).bind fun _ => keeps_decryptMsg3 dataSize
      rw [Prog.state_bind_of_ok _ _ env _ hok, Prog.state_of_keeps hkeeps env]
      exact hreceived

end ReceiveData

section Runs

-- A call with the environment it runs in.
structure NetInput (P : Prims) where
  call : NetCall P
  env : Env P

-- A context with its ledger, call by call.
def track (before : RaContext P × Ledger Slot) (input : NetInput P) :
    (RaContext P × Ledger Slot) × Out TeeError Unit :=
  let effect := input.call.program input.env before.1
  ((effect.state, (before.2.replay (input.call.cleared.map .clear)).replay (handling effect)),
    effect.out)

-- Before its first handshake a context holds nothing.
def unopened (P : Prims) : RaContext P × Ledger Slot := (RaContext.fresh P, Ledger.start Slot)

theorem program_run {α : Type} (p : AttesterM P α) (env : Env P) (s : RaContext P) :
    ((p >>= fun _ => pure () : AttesterM P Unit) env s).state = (p env s).state ∧
      ((p >>= fun _ => pure () : AttesterM P Unit) env s).log = (p env s).log ∧
      (((p >>= fun _ => pure () : AttesterM P Unit) env s).out = .panic ↔
        (p env s).out = .panic) := by
  cases hout : (p env s).out <;> simp [Prog.bind_run, Prog.andThen, hout]

theorem locals_not_released {fn : Fn} (h : ∀ var ∈ locals fn, var ∉ contextSlots)
    (s : RaContext P) : ∀ var ∈ locals fn, var ∉ released s :=
  fun var hvar hreleased => h var hvar (mem_contextSlots_of_released hreleased)

theorem track_settled {before : RaContext P × Ledger Slot} {input : NetInput P}
    (hbefore : before.2.Settled (· ∈ released before.1))
    (horderly : Orderly before.2 input.env input.call)
    (hreturns : (track before input).2 ≠ .panic) :
    (track before input).1.2.Settled (· ∈ released (track before input).1.1) := by
  obtain ⟨s, L⟩ := before
  obtain ⟨call, env⟩ := input
  cases call with
  | handshake pin anchorSize =>
      obtain ⟨hstate, hlog, hpanic⟩ := program_run (raNetHandshake pin anchorSize) env s
      have hcleared : (L.replay (contextSlots.map .clear)).Settled (· ∈ keySlots) :=
        hbefore.clear horderly.1 (fun _ => mem_contextSlots_of_released) (by decide)
      have hnull : ∀ slot ∈ keySlots,
          ((L.replay (contextSlots.map .clear)).held slot).isLive = false := by
        intro slot hslot
        have hmem : slot ∈ contextSlots := by revert slot; decide
        rw [Ledger.reset_held (fun _ _ => rfl) (fun _ => rfl) hmem]
        rfl
      have hsettled := (raNetHandshake_settles hcleared hnull horderly.2.1 horderly.2.2).settled
        fun h => hreturns (hpanic.mpr h)
      simp only [track, NetCall.program, NetCall.cleared, handling, hstate, hlog]
      exact hsettled.of_iff fun var => (mem_released_of_zero raNetHandshake_msg3Size var).symm
  | sendQuote quote =>
      obtain ⟨hstate, hlog, hpanic⟩ := program_run (raNetSendQuote quote) env s
      have hsettled := (raNetSendQuote_settles hbefore (locals_not_released (by decide) s)
        horderly).settled fun h => hreturns (hpanic.mpr h)
      have hsize : (raNetSendQuote quote env s).state.msg3Size = s.msg3Size :=
        keeps_msg3Size_sendQuote quote env s
      simp only [track, NetCall.program, NetCall.cleared, handling, hstate, hlog, released, hsize]
      exact hsettled
  | receiveData dataSize =>
      obtain ⟨hstate, hlog, hpanic⟩ := program_run (raNetReceiveData dataSize) env s
      have hback : (raNetReceiveData dataSize env s).out ≠ .panic :=
        fun h => hreturns (hpanic.mpr h)
      have hsettled := (raNetReceiveData_settles hbefore horderly).settled hback
      have hsize := raNetReceiveData_msg3Size horderly hback
      simp only [track, NetCall.program, NetCall.cleared, handling, hstate, hlog]
      refine hsettled.of_iff fun var => ?_
      rw [mem_released_of_pos hsize]
      simp [blockSlots]

-- Whatever the calls are, if each is orderly and none panics, `ra_net_dispose` releases
-- everything, and nothing twice.
theorem calls_clean {inputs : List (NetInput P)}
    (h : ∀ t ∈ Run.steps track (unopened P) inputs,
      t.output ≠ .panic ∧ Orderly t.before.2 t.input.env t.input.call) (closing : Env P) :
    ((Run.final track (unopened P) inputs).2.replay
      (handling (freeRaContext closing (Run.final track (unopened P) inputs).1))).Clean := by
  let settled : RaContext P × Ledger Slot → Prop := fun now =>
    now.2.Settled (· ∈ released now.1)
  have hstep : ∀ t ∈ Run.steps track (unopened P) inputs, settled t.before → settled t.after := by
    intro t ht hbefore
    obtain ⟨hreturns, horderly⟩ := h t ht
    rw [Run.output_eq ht] at hreturns
    rw [Run.after_eq ht]
    exact track_settled hbefore horderly hreturns
  have hsettled : settled (Run.final track (unopened P) inputs) :=
    Run.invariant_final (Ledger.start_settled _) hstep
  rw [handling_freeRaContext]
  have hnodup : (released (Run.final track (unopened P) inputs).1).Nodup := by
    unfold released
    split <;> decide
  refine (hsettled.release hnodup fun _ hvar => hvar).clean fun var hvar => ?_
  exact absurd hvar.1 hvar.2

end Runs

end Watz.Attester
