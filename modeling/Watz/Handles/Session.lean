import Watz.Handles
import Watz.Verifier.Session

namespace Watz.Verifier

open Base Tee

-- The variables of the context, in the order in which `dispose_ra_context` releases them.
def contextSlots : List Slot :=
  [.secret, .ecdsaAttesterPublicKey, .ecdhAttesterPublicKey, .ecdsaLocalKeypair,
    .ecdhLocalKeypair, .sharedKeyDerivationKey, .sharedMacKey, .sharedSessionKey]

variable {P : Prims}

-- `dispose_ra_context`, which is all that `TA_CloseSessionEntryPoint` does.
def disposeRaContext : VerifierM P Unit := Prog.emit (contextSlots.map .free)

section Traced

theorem traced_generateEcdhKeypair :
    TracedBy .generateEcdhKeypair (generateEcdhKeypair : VerifierM P Unit) fun env =>
      generation .generateEcdhKeypair .ecdhLocalKeypair (env.dump .generateEcdhKeypair 4) :=
  .of_eq
    (.bind .emit fun _ => .bind traced_allocate fun _ => .bind .modify fun _ =>
      .bind traced_tee fun _ => .bind .ask fun _ => .bind .modify fun _ => .bind .modify fun _ =>
      .bind traced_tee fun _ => .bind .modify fun _ => .bind traced_tee fun _ =>
      .bind .modify fun _ => .bind (traced_dumpObjectAttribute rfl) fun _ => .bind .get fun _ =>
      .bind traced_dump fun _ => traced_dump) fun _ => rfl

theorem traced_generateEcdsaKeypair :
    TracedBy .generateEcdsaKeypair (generateEcdsaKeypair : VerifierM P Unit) fun env =>
      generation .generateEcdsaKeypair .ecdsaLocalKeypair (env.dump .generateEcdsaKeypair 4) :=
  .of_eq
    (.bind .emit fun _ => .bind traced_allocate fun _ => .bind .modify fun _ =>
      .bind traced_tee fun _ => .bind .ask fun _ => .bind .modify fun _ => .bind .modify fun _ =>
      .bind traced_tee fun _ => .bind .modify fun _ => .bind traced_tee fun _ =>
      .bind .modify fun _ => .bind (traced_dumpObjectAttribute rfl) fun _ => .bind .get fun _ =>
      .bind traced_dump fun _ => traced_dump) fun _ => rfl

theorem traced_populateAttesterKey :
    Traced .populateAttesterKey (populateAttesterKey : VerifierM P Unit)
      (allocation .populateAttesterKey .ecdhAttesterPublicKey [1]) :=
  .of_eq
    (.bind .emit fun _ => .bind .get fun _ => .bind traced_initRefAttribute fun _ =>
      .bind traced_initRefAttribute fun _ => .bind traced_allocate fun _ => .bind .modify fun _ =>
      .bind traced_readCoord fun _ => .bind traced_readCoord fun _ => .bind traced_tee fun _ =>
      .modify) fun _ => rfl

theorem traced_importAttesterAttestationKey :
    Traced .importAttesterAttestationKey (importAttesterAttestationKey : VerifierM P Unit)
      (allocation .importAttesterAttestationKey .ecdsaAttesterPublicKey [1]) :=
  .of_eq
    (.bind .emit fun _ => .bind traced_allocate fun _ => .bind .modify fun _ =>
      .bind traced_tee fun _ => .modify) fun _ => rfl

theorem releases_generateEcdhKeypair (env : Env P) (s : Ctx P) :
    ReleasesWhen .generateEcdhKeypair generateEcdhKeypair env s
      (env.Works .generateEcdhKeypair 4 → env.DumpReleases .generateEcdhKeypair 4) :=
  Follows.releasesWhen_generation (traced_generateEcdhKeypair env s) balanced_generateEcdhKeypair

theorem releases_generateEcdsaKeypair (env : Env P) (s : Ctx P) :
    ReleasesWhen .generateEcdsaKeypair generateEcdsaKeypair env s
      (env.Works .generateEcdsaKeypair 4 → env.DumpReleases .generateEcdsaKeypair 4) :=
  Follows.releasesWhen_generation (traced_generateEcdsaKeypair env s)
    balanced_generateEcdsaKeypair

end Traced

section Commands

variable {env : Env P} {s : Ctx P} {L : Ledger Slot} {buffer : P.Buf}

-- An invocation of a command that keeps the ledger straight. Each condition is about the
-- inputs and about what the context holds before.
def Orderly (L : Ledger Slot) (s : Ctx P) (buffer : P.Buf) (env : Env P) : Command → Prop
  | .bootstrapSecret => (L.held .secret).isLive = false
  | .handleMsg0 =>
      (env.Works .generateEcdhKeypair 1 → (L.held .ecdhLocalKeypair).isLive = false) ∧
      (env.Works .generateEcdhKeypair 4 → env.DumpReleases .generateEcdhKeypair 4 ∧
        (P.sizeofMsg0 ≤ P.bufSize buffer →
          (env.Works .populateAttesterKey 1 → (L.held .ecdhAttesterPublicKey).isLive = false) ∧
          (env.Works .populateAttesterKey 2 →
            env.Works .deriveSharedKey 5 ∧ ¬env.Works .deriveSharedKey 7)))
  | .prepareMsg1 => P.sizeofMsg1 ≤ P.bufSize buffer →
      env.Works .appendEcdhPublicKeysSignature 1 ∧ ¬env.Works .appendEcdhPublicKeysSignature 3
  | .handleMsg2 => P.sizeofMsg2 ≤ P.bufSize buffer →
      env.Works .verifyMacMsg2 1 ∧
      (env.Works .verifyMacMsg2 3 → MacPassed env (received buffer s) →
        KeyMatches env (received buffer s) →
          env.Works .verifyQuoteSignature 1 ∧ ¬env.Works .verifyQuoteSignature 3)
  | .prepareMsg3 => P.sizeofMsg3 ≤ P.bufSize buffer →
      env.Works .encryptMsg3 4 ∧ P.len s.secret ≤ P.bufSize buffer - P.sizeofMsg3

theorem generateEcdhKeypair_settles (hL : L.Settled (· ∈ contextSlots))
    (hidle : env.Works .generateEcdhKeypair 1 → (L.held .ecdhLocalKeypair).isLive = false)
    (hdump : env.Works .generateEcdhKeypair 4 → env.DumpReleases .generateEcdhKeypair 4) :
    Settles contextSlots (Filled contextSlots .ecdhLocalKeypair L) generateEcdhKeypair env s L :=
  Follows.settles_allocation _ (traced_generateEcdhKeypair env s) (locals .generateEcdhKeypair) rfl
    (show 1 ≤ 4 by decide) (allocates_generateEcdhKeypair _) (by decide) (by decide) (by decide) hL
    hidle fun hworks => (env.dump_ne_leaked_iff _ _).mpr (hdump hworks)

theorem generateEcdsaKeypair_settles (hL : L.Settled (· ∈ contextSlots))
    (hidle : env.Works .generateEcdsaKeypair 1 → (L.held .ecdsaLocalKeypair).isLive = false)
    (hdump : env.Works .generateEcdsaKeypair 4 → env.DumpReleases .generateEcdsaKeypair 4) :
    Settles contextSlots (Filled contextSlots .ecdsaLocalKeypair L) generateEcdsaKeypair env s L :=
  Follows.settles_allocation _ (traced_generateEcdsaKeypair env s)
    (locals .generateEcdsaKeypair) rfl (show 1 ≤ 4 by decide) (allocates_generateEcdsaKeypair _)
    (by decide) (by decide) (by decide) hL
    hidle fun hworks => (env.dump_ne_leaked_iff _ _).mpr (hdump hworks)

theorem populateAttesterKey_settles (hL : L.Settled (· ∈ contextSlots))
    (hidle : env.Works .populateAttesterKey 1 → (L.held .ecdhAttesterPublicKey).isLive = false) :
    Settles contextSlots (Filled contextSlots .ecdhAttesterPublicKey L) populateAttesterKey env s
      L :=
  Follows.settles_allocation .none (traced_populateAttesterKey.follows env s)
    (locals .populateAttesterKey) rfl (show 1 ≤ 2 by decide) (by decide) (by decide) (by decide)
    (by decide) hL hidle fun _ => by decide

theorem importAttesterAttestationKey_settles (hL : L.Settled (· ∈ contextSlots))
    (hidle : env.Works .importAttesterAttestationKey 1 →
      (L.held .ecdsaAttesterPublicKey).isLive = false) :
    Settles contextSlots (Filled contextSlots .ecdsaAttesterPublicKey L)
      importAttesterAttestationKey env s L :=
  Follows.settles_allocation .none (traced_importAttesterAttestationKey.follows env s)
    (locals .importAttesterAttestationKey) rfl (show 1 ≤ 2 by decide) (by decide) (by decide)
    (by decide) (by decide) hL hidle fun _ => by decide

theorem deriveSharedKey_settles
    (hcut : env.Works .deriveSharedKey 5 ∧ ¬env.Works .deriveSharedKey 7)
    (hL : L.Settled (· ∈ contextSlots)) :
    Settles contextSlots (fun _ => False) deriveSharedKey env s L :=
  Follows.settles_between (Derivation.traced_deriveSharedKey env s) rfl (show 5 ≤ 11 by decide)
    (by decide) (contained_deriveSharedKeyCalls _) hcut (by decide) hL

theorem storeMsg0_settles (hL : L.Settled (· ∈ contextSlots)) :
    Settles contextSlots (· = L) (storeMsg0 buffer) env s L := by
  have htraced : Traced .populateAttesterKey (storeMsg0 buffer : VerifierM P Unit)
      [⟨[], .either, []⟩] :=
    .of_eq
      (.bind .require fun _ => .bind .modify fun _ => .bind .get fun _ =>
        .bind traced_dump fun _ => traced_dump) fun _ => rfl
  exact .quiet (htraced.follows env s) (by decide) hL

theorem storeMsg2_settles (hL : L.Settled (· ∈ contextSlots)) :
    Settles contextSlots (· = L) (storeMsg2 buffer) env s L := by
  have htraced : Traced .verifyMacMsg2 (storeMsg2 buffer : VerifierM P Unit)
      [⟨[], .either, []⟩] :=
    .of_eq (.bind .require fun _ => .modify) fun _ => rfl
  exact .quiet (htraced.follows env s) (by decide) hL

theorem verifyPublicKeyMsg2MatchesMsg0_settles (hL : L.Settled (· ∈ contextSlots)) :
    Settles contextSlots (· = L) verifyPublicKeyMsg2MatchesMsg0 env s L := by
  have htraced : Traced .verifyMacMsg2 (verifyPublicKeyMsg2MatchesMsg0 : VerifierM P Unit)
      [⟨[], .either, []⟩, ⟨[], .either, []⟩] :=
    .of_eq
      (.bind .get fun _ => .bind traced_memCompare fun _ => .bind .require fun _ =>
        .bind traced_memCompare fun _ => .require) fun _ => rfl
  exact .quiet (htraced.follows env s) (by decide) hL

theorem bootstrapSecret_settles (hL : L.Settled (· ∈ contextSlots))
    (h : Orderly L s buffer env .bootstrapSecret) :
    Settles contextSlots (·.Settled (· ∈ contextSlots)) (configureCustomSecret buffer) env s L := by
  refine .of_both fun hreturns => ?_
  by_cases hgranted : env.faults .configureCustomSecret 0 = none ∨ P.bufSize buffer = 0
  · have hlog : (configureCustomSecret buffer env s).log = [.alloc .secret] := by
      simp [configureCustomSecret, Prog.bind_run, Prog.andThen, Prog.orPanic, Prog.ret, hgranted]
    rw [hlog]
    exact hL.alloc_owned (by decide) h
  · refine absurd ?_ hreturns
    simp [configureCustomSecret, Prog.bind_run, Prog.andThen, Prog.orPanic, hgranted]

theorem handleMsg0_settles (hL : L.Settled (· ∈ contextSlots))
    (h : Orderly L s buffer env .handleMsg0) :
    Settles contextSlots (·.Settled (· ∈ contextSlots)) (handleMsg0 buffer) env s L := by
  obtain ⟨hkeypair, hrest⟩ := h
  have hdump := fun hworks => (hrest hworks).1
  unfold handleMsg0
  refine (generateEcdhKeypair_settles hL hkeypair hdump).bind fun _ M hgenerated hfilled => ?_
  obtain ⟨hM, hframe⟩ := hfilled
  have hworks := (generateEcdhKeypair_ok env s).mp hgenerated
  refine (storeMsg0_settles hM).bind fun _ _ hstored hsame => ?_
  rw [hsame]
  obtain ⟨hattester, hderive⟩ := (hrest hworks).2 ((storeMsg0_ok env _ buffer).mp hstored)
  rw [← hframe .ecdhAttesterPublicKey (by decide) (by decide)] at hattester
  refine (populateAttesterKey_settles hM hattester).bind fun _ M hpopulated ⟨hM, _⟩ => ?_
  have hcut := hderive ((populateAttesterKey_ok env _).mp hpopulated)
  exact (deriveSharedKey_settles hcut hM).never

theorem prepareMsg1_settles (hL : L.Settled (· ∈ contextSlots))
    (h : Orderly L s buffer env .prepareMsg1) :
    Settles contextSlots (·.Settled (· ∈ contextSlots)) (prepareMsg1 buffer) env s L := by
  unfold prepareMsg1
  have hcheck : Settles contextSlots (· = L)
      (Prog.require (decide (P.sizeofMsg1 ≤ P.bufSize buffer)) .shortBuffer) env s L :=
    .silent (by rw [Prog.require_log]; rfl) hL
  refine hcheck.bind fun _ M hpassed hsame => ?_
  rw [hsame]
  have hsize : P.sizeofMsg1 ≤ P.bufSize buffer :=
    of_decide_eq_true ((Prog.require_out_ok env s _ _).mp hpassed)
  exact (Follows.settles_between (traced_appendEcdhPublicKeysSignature.follows env _) rfl
    (show 1 ≤ 5 by decide) (by decide) (by decide) (h hsize) (by decide) hL).never

theorem handleMsg2_settles (hL : L.Settled (· ∈ contextSlots))
    (h : Orderly L s buffer env .handleMsg2) :
    Settles contextSlots (·.Settled (· ∈ contextSlots)) (handleMsg2 buffer) env s L := by
  unfold handleMsg2
  have hclear : Settles contextSlots (· = L)
      (Prog.modify fun s : Ctx P => { s with isQuoteValid := false }) env s L :=
    .silent rfl hL
  refine hclear.bind fun _ M _ hsame => ?_
  rw [hsame]
  refine (storeMsg2_settles hL).bind fun _ M hstored hsame => ?_
  rw [hsame]
  have hsize := (storeMsg2_ok env _ buffer).mp hstored
  obtain ⟨hmac, hquote⟩ := h hsize
  have hreceived : (storeMsg2 buffer env { s with isQuoteValid := false }).state =
      received buffer s :=
    (storeMsg2_reaches env _ buffer hsize).2
  rw [Prog.modify_run, hreceived]
  have hverify : Settles contextSlots (Kept contextSlots L) verifyMacMsg2 env (received buffer s)
      L :=
    Follows.settles (traced_verifyMacMsg2.follows env _) rfl (show 1 ≤ 2 by decide) (by decide) hmac
      (by decide) hL
  refine hverify.bind fun _ M hverified ⟨hM, _⟩ => ?_
  obtain ⟨hworks, hpassed⟩ := (verifyMacMsg2_ok env _).mp hverified
  rw [Prog.state_of_keeps keeps_verifyMacMsg2 env]
  refine (verifyPublicKeyMsg2MatchesMsg0_settles hM).bind fun _ _ hmatched hsame => ?_
  rw [hsame]
  have hcut := hquote hworks hpassed ((verifyPublicKeyMsg2MatchesMsg0_ok env _).mp hmatched)
  exact (Follows.settles_between (traced_verifyQuoteSignature.follows env _) rfl
    (show 1 ≤ 4 by decide) (by decide) (by decide) hcut (by decide) hM).never

-- With every call working and room for the secret, the encryption returns only if it works.
theorem encryptMsg3_works {data : P.Val} (hworks : env.Works .encryptMsg3 4)
    (hfits : P.len data ≤ P.bufSize buffer - P.sizeofMsg3)
    (hreturns : (encryptMsg3 buffer data env s).out ≠ .panic) :
    (encryptMsg3 buffer data env s).out.isOk = true := by
  cases hkey : s.sharedSessionKey with
  | key key =>
      simp [encryptMsg3, setOperationKey, allocate, teeCheck, Prog.call, Prog.onFail, Prog.bind_run,
        Prog.andThen, Prog.orPanic, Prog.ret, Obj.key?, tee_run, hworks 0, hworks 1, hworks 2,
        hworks 3, hfits, hkey]
  | _ =>
      refine absurd ?_ hreturns
      simp [encryptMsg3, setOperationKey, allocate, Prog.onFail, Prog.bind_run, Prog.andThen,
        Prog.orPanic, Obj.key?, tee_run, hworks 0, hworks 1, hkey]

-- The message block belongs to no variable that the end of the session releases.
theorem allocateMsg3_settles (hL : L.Settled (· ∈ contextSlots)) :
    Settles contextSlots (·.Settled (· ∈ Slot.msg3 :: contextSlots)) (allocateMsg3 buffer) env s
      L := by
  intro hreturns
  by_cases hsize : P.sizeofMsg3 ≤ P.bufSize buffer
  · by_cases hmalloc : env.faults .allocateMsg3 0 = none
    · have hrun : allocateMsg3 buffer env s = ⟨.ok (), s, [.alloc .msg3]⟩ := by
        simp [allocateMsg3, mallocUnchecked, Prog.require, Prog.bind_run, Prog.andThen,
          Prog.orPanic, Prog.ret, hsize, hmalloc]
      rw [hrun]
      refine (hL.alloc (hL.idle .msg3 (by decide))).of_iff fun var => ?_
      rw [List.mem_cons, or_comm]
    · refine absurd ?_ hreturns
      simp [allocateMsg3, mallocUnchecked, Prog.require, Prog.bind_run, Prog.andThen,
        Prog.orPanic, Prog.ret, hsize, hmalloc]
  · have hrun : allocateMsg3 buffer env s = ⟨.fail .shortBuffer, s, []⟩ := by
      simp [allocateMsg3, Prog.require, Prog.bind_run, Prog.andThen, hsize]
    rw [hrun]
    exact hL

theorem prepareMsg3_settles (hL : L.Settled (· ∈ contextSlots))
    (h : Orderly L s buffer env .prepareMsg3) :
    Settles contextSlots (·.Settled (· ∈ contextSlots)) (prepareMsg3 buffer s.secret) env s L := by
  unfold prepareMsg3
  refine (allocateMsg3_settles hL).bind fun _ M hallocated hM => ?_
  rw [Prog.state_of_keeps (keeps_allocateMsg3 buffer) env]
  have hsize : P.sizeofMsg3 ≤ P.bufSize buffer := by
    by_contra hshort
    simp [allocateMsg3, Prog.out_bind_ok, hshort] at hallocated
  obtain ⟨hworks, hfits⟩ := h hsize
  have hencrypt : Settles contextSlots (·.Settled (· ∈ Slot.msg3 :: contextSlots))
      (encryptMsg3 buffer s.secret) env s M := by
    intro hreturns
    have hfirst : env.Works .encryptMsg3 1 := fun index hindex => hworks index (by omega)
    have hsettled := Follows.settles (traced_encryptMsg3.follows env _) rfl (show 1 ≤ 3 by decide)
      (by decide) hfirst (by decide) hM hreturns
    simp only [encryptMsg3_works hworks hfits hreturns, if_true] at hsettled ⊢
    exact hsettled.settled
  refine hencrypt.bind fun sealed M hsealed hM => ?_
  have hfree : Settles contextSlots (·.Settled (· ∈ contextSlots))
      (Prog.emit [.free .msg3] : VerifierM P Unit) env
      (encryptMsg3 buffer s.secret env s).state M := by
    refine .of_both fun _ => ?_
    refine (hM.free List.mem_cons_self).of_iff fun var => ?_
    simp only [List.mem_cons]
    refine ⟨fun hvar => hvar.1.resolve_left hvar.2, fun hvar => ⟨.inr hvar, ?_⟩⟩
    rintro rfl
    exact absurd hvar (by decide)
  refine hfree.bind fun _ M _ hM => ?_
  have hprint : Traced .encryptMsg3
      (print .shared 0 30 >>= fun _ => pure sealed : VerifierM P P.Buf) [] :=
    .of_eq (.bind traced_print fun _ => .pure) fun _ => rfl
  refine Prog.Settles.mono (.quiet (hprint.follows env _) (by simp) hM) fun _ hsame => ?_
  rw [hsame]
  exact hM

end Commands

section Sessions

variable {L : Ledger Slot}

-- A session with its ledger, command by command.
def track (before : Instance P × Ledger Slot) (inv : Invocation P) :
    (Instance P × Ledger Slot) × Response P :=
  let result := step before.1 inv
  ((result.1, before.2.replay (result.2.events.flatMap Event.actions)), result.2)

-- The session once it is open: the context starts with all its variables null.
def opened (paramTypes : Nat) (env : Env P) : Instance P × Ledger Slot :=
  let effect := openSessionEntryPoint paramTypes env (Ctx.zero P)
  (.live effect.state, (Ledger.start Slot).replay (handling effect))

def OrderlyStep (before : Instance P × Ledger Slot) (inv : Invocation P) : Prop :=
  ∀ s command, before.1 = .live s → inv.command = some command →
    Orderly before.2 s inv.buffer inv.env command

theorem settled_of_conclude {α : Type} {p : VerifierM P α} {env : Env P} {s : Ctx P}
    {buffer : P.Buf} {onOk : α → P.Buf × Option Nat} {onFail : Option Nat}
    (h : Settles contextSlots (·.Settled (· ∈ contextSlots)) p env s L)
    (hlive : (conclude (p env s) buffer onOk onFail).1 ≠ .dead) :
    (L.replay ((conclude (p env s) buffer onOk onFail).2.events.flatMap
      Event.actions)).Settled (· ∈ contextSlots) := by
  unfold conclude at hlive ⊢
  cases hout : (p env s).out with
  | ok value => exact h.settled (by simp [hout])
  | fail code => exact h.settled (by simp [hout])
  | panic => simp [hout] at hlive

theorem track_settled {before : Instance P × Ledger Slot} {inv : Invocation P}
    (hbefore : before.2.Settled (· ∈ contextSlots)) (horderly : OrderlyStep before inv)
    (hlive : (track before inv).1.1 ≠ .dead) :
    (track before inv).1.2.Settled (· ∈ contextSlots) := by
  obtain ⟨instance', L⟩ := before
  cases instance' with
  | dead => exact hbefore
  | live s =>
      cases hcommand : inv.command with
      | none => simpa [track, step, invokeCommandEntryPoint, hcommand] using hbefore
      | some command =>
          have horder := horderly s command rfl hcommand
          simp only [track, step, invokeCommandEntryPoint, hcommand] at hlive ⊢
          cases command with
          | bootstrapSecret =>
              exact settled_of_conclude (bootstrapSecret_settles hbefore horder) hlive
          | handleMsg0 => exact settled_of_conclude (handleMsg0_settles hbefore horder) hlive
          | prepareMsg1 => exact settled_of_conclude (prepareMsg1_settles hbefore horder) hlive
          | handleMsg2 => exact settled_of_conclude (handleMsg2_settles hbefore horder) hlive
          | prepareMsg3 => exact settled_of_conclude (prepareMsg3_settles hbefore horder) hlive

theorem opened_settled {paramTypes : Nat} {env : Env P}
    (h : (openSessionEntryPoint paramTypes env (Ctx.zero P)).out = .ok ())
    (hdump : env.DumpReleases .generateEcdsaKeypair 4) :
    (opened paramTypes env).2.Settled (· ∈ contextSlots) := by
  have hstart : (Ledger.start Slot).Settled (· ∈ contextSlots) := Ledger.start_settled _
  have hcheck : Settles contextSlots (· = Ledger.start Slot)
      (Prog.require (paramTypes == TEE_PARAM_TYPES TEE_PARAM_TYPE_NONE TEE_PARAM_TYPE_NONE
        TEE_PARAM_TYPE_NONE TEE_PARAM_TYPE_NONE) .badParameters) env (Ctx.zero P)
      (Ledger.start Slot) :=
    .silent (by rw [Prog.require_log]; rfl) hstart
  have hopen : Settles contextSlots (·.Settled (· ∈ contextSlots))
      (openSessionEntryPoint paramTypes) env (Ctx.zero P) (Ledger.start Slot) := by
    refine hcheck.bind fun _ M _ hsame => ?_
    rw [hsame]
    refine (importAttesterAttestationKey_settles hstart fun _ => rfl).bind fun _ M _ hM => ?_
    have hidle : (M.held .ecdsaLocalKeypair).isLive = false := by
      rw [hM.2 .ecdsaLocalKeypair (by decide) (by decide)]
      rfl
    exact Prog.Settles.mono (generateEcdsaKeypair_settles hM.1 (fun _ => hidle) fun _ => hdump)
      fun _ hfilled => hfilled.1
  exact hopen.settled (by simp [h])

-- Whatever the commands are, if each is orderly and none panics, the end of the session
-- releases everything, and nothing twice.
theorem session_clean {paramTypes : Nat} {env : Env P}
    (hopen : (openSessionEntryPoint paramTypes env (Ctx.zero P)).out = .ok ())
    (hdump : env.DumpReleases .generateEcdsaKeypair 4) {inputs : List (Invocation P)}
    (h : ∀ t ∈ Run.steps track (opened paramTypes env) inputs,
      t.after.1 ≠ .dead ∧ OrderlyStep t.before t.input) (closing : Env P) (s : Ctx P) :
    ((Run.final track (opened paramTypes env) inputs).2.replay
      (handling (disposeRaContext closing s))).Clean := by
  let settled : Instance P × Ledger Slot → Prop := fun now => now.2.Settled (· ∈ contextSlots)
  have hstep : ∀ t ∈ Run.steps track (opened paramTypes env) inputs,
      settled t.before → settled t.after := by
    intro t ht hbefore
    obtain ⟨hlive, horderly⟩ := h t ht
    rw [Run.after_eq ht] at hlive ⊢
    exact track_settled hbefore horderly hlive
  have hsettled : settled (Run.final track (opened paramTypes env) inputs) :=
    Run.invariant_final (opened_settled hopen hdump) hstep
  have hfree : handling ((disposeRaContext : VerifierM P Unit) closing s) =
      contextSlots.map .free := rfl
  rw [hfree]
  refine (hsettled.release (by decide) fun _ hvar => hvar).clean fun var hvar => ?_
  exact absurd hvar.1 hvar.2

end Sessions

end Watz.Verifier
