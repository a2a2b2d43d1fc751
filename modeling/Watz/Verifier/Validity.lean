import Watz.Verifier.Gate

namespace Watz.Verifier

open Base Tee

variable {P : Prims}

-- The `msg2` in the context passes every check of `handle_msg2` for the keys in the context.
-- Of the environment only the memory behind oversized coordinates plays a part.
structure QuotePassed (env : Env P) (s : Ctx P) : Prop where
  mac : MacPassed env s
  key : KeyMatches env s
  signature : SignaturePassed s
  pinned : s.ecdsaAttesterPublicKey = .key pinnedKey
  anchor : AnchorPassed env s

-- What `is_quote_valid` is meant to say.
def FlagMeans (s : Ctx P) : Prop := s.isQuoteValid = true → ∃ env, QuotePassed env s

-- The two ways in which the flag goes wrong are not taken: HANDLE_MSG_0 replaces the keys
-- under a set flag, and HANDLE_MSG_2 sets the flag for a quote with another anchor.
structure KeepsFlag (t : SessionStep P) : Prop where
  exchange : ∀ s, t.before = .live s → t.input.command = some .handleMsg0 →
    s.isQuoteValid = false ∨ ¬ t.input.env.Works .generateEcdhKeypair 2
  anchor : ∀ s, t.before = .live s → t.input.command = some .handleMsg2 →
    P.sizeofMsg2 ≤ P.bufSize t.input.buffer →
    Vetted t.input.env (received t.input.buffer s) →
    AnchorPassed t.input.env (received t.input.buffer s)

section Lemmas

variable (env : Env P) (s : Ctx P)

-- Without a new key only the handle changes.
theorem handleMsg0_no_key (buffer : P.Buf) (h : ¬ env.Works .generateEcdhKeypair 2) :
    ∃ obj, (handleMsg0 buffer env s).state = { s with ecdhLocalKeypair := obj } := by
  have hno : (generateEcdhKeypair env s).out.isOk = false := by
    by_contra hok
    have hok := (generateEcdhKeypair_ok env s).mp ((Out.isOk_unit_iff _).mp (by simpa using hok))
    exact h fun index hindex => hok index (by omega)
  unfold handleMsg0
  rw [Prog.state_bind_of_not_ok _ _ _ _ hno]
  cases h0 : env.faults .generateEcdhKeypair 0 with
  | some code =>
      refine ⟨s.ecdhLocalKeypair, ?_⟩
      simp [generateEcdhKeypair, allocate, tee, Prog.call, Prog.bind_run, Prog.andThen, h0]
  | none =>
      cases h1 : env.faults .generateEcdhKeypair 1 with
      | some code =>
          refine ⟨.empty, ?_⟩
          simp [generateEcdhKeypair, allocate, tee, Prog.call, Prog.bind_run, Prog.andThen, h0, h1]
      | none =>
          exact absurd ((env.works_succ _ 1).mpr
            ⟨(env.works_succ _ 0).mpr ⟨env.works_zero _, h0⟩, h1⟩) h

end Lemmas

-- `QuotePassed` looks at no field outside this view.
def quoteView (s : Ctx P) : Ctx P :=
  withMac P.zeroVal (withSignature P.zeroVal
    { s with secret := P.zeroVal, ecdhLocalKeypair := .null })

theorem quotePassed_quoteView (env : Env P) (s : Ctx P) :
    QuotePassed env (quoteView s) ↔ QuotePassed env s :=
  ⟨fun h => ⟨h.mac, h.key, h.signature, h.pinned, h.anchor⟩,
    fun h => ⟨h.mac, h.key, h.signature, h.pinned, h.anchor⟩⟩

theorem flagMeans_of_view {s s' : Ctx P} (hview : quoteView s' = quoteView s)
    (hs : FlagMeans s) : FlagMeans s' := by
  intro hflag
  have hsame : (quoteView s').isQuoteValid = (quoteView s).isQuoteValid := by rw [hview]
  obtain ⟨env, hquote⟩ := hs (hsame.symm.trans hflag)
  refine ⟨env, (quotePassed_quoteView env s').mp ?_⟩
  rw [hview]
  exact (quotePassed_quoteView env s).mpr hquote

theorem configureCustomSecret_view (buffer : P.Buf) :
    Prog.Keeps quoteView (configureCustomSecret buffer : VerifierM P Unit) :=
  (keeps_configureCustomSecret buffer).map quoteView fun _ => rfl

theorem prepareMsg1_view (buffer : P.Buf) :
    Prog.Keeps quoteView (prepareMsg1 buffer : VerifierM P P.Buf) :=
  (keeps_prepareMsg1 buffer).map quoteView fun _ => rfl

theorem handleMsg0_flagMeans (buffer : P.Buf) (env : Env P) (s : Ctx P) (hs : FlagMeans s)
    (hkeeps : s.isQuoteValid = false ∨ ¬ env.Works .generateEcdhKeypair 2) :
    FlagMeans (handleMsg0 buffer env s).state := by
  rcases hkeeps with hclear | hno
  · intro hflag
    rw [handleMsg0_flag, hclear] at hflag
    cases hflag
  · obtain ⟨obj, hstate⟩ := handleMsg0_no_key env s buffer hno
    exact flagMeans_of_view (s := s) (by rw [hstate]; rfl) hs

theorem handleMsg2_flagMeans (buffer : P.Buf) (env : Env P) (s : Ctx P)
    (hpinned : s.ecdsaAttesterPublicKey = .key pinnedKey)
    (hanchor : P.sizeofMsg2 ≤ P.bufSize buffer → Vetted env (received buffer s) →
      AnchorPassed env (received buffer s)) :
    FlagMeans (handleMsg2 buffer env s).state := by
  intro hflag
  by_cases hvetted : P.sizeofMsg2 ≤ P.bufSize buffer ∧ Vetted env (received buffer s)
  · obtain ⟨hsize, hv⟩ := hvetted
    rw [(handleMsg2_vetted env s buffer hsize hv).1]
    exact ⟨env, hv.mac, hv.key, hv.signature, hpinned, hanchor hsize hv⟩
  · rw [(handleMsg2_not_vetted env s buffer hvetted).2] at hflag
    cases hflag

theorem commandState_pinned (inv : Invocation P) (s : Ctx P) (command : Command) :
    (commandState inv s command).ecdsaAttesterPublicKey = s.ecdsaAttesterPublicKey := by
  cases command with
  | bootstrapSecret =>
      exact (keeps_configureCustomSecret _).map Ctx.ecdsaAttesterPublicKey (fun _ => rfl) _ s
  | handleMsg0 => exact (keeps_handleMsg0 _).map (fun view => view.2.1) (fun _ => rfl) _ s
  | prepareMsg1 => exact (keeps_prepareMsg1 _).map Ctx.ecdsaAttesterPublicKey (fun _ => rfl) _ s
  | handleMsg2 => exact (keeps_handleMsg2 _).map Ctx.ecdsaAttesterPublicKey (fun _ => rfl) _ s
  | prepareMsg3 => rfl

def FlagInv (inst : Instance P) : Prop :=
  ∀ s, inst = .live s → s.ecdsaAttesterPublicKey = .key pinnedKey ∧ FlagMeans s

theorem flagInv_step {t : SessionStep P} (ht : t = Run.one step t.before t.input)
    (hkeeps : KeepsFlag t) (hinv : FlagInv t.before) : FlagInv t.after := by
  intro s' hlive
  rw [ht] at hlive
  obtain ⟨s, hbefore, hcases⟩ := step_live hlive
  obtain ⟨hpinned, hflag⟩ := hinv s hbefore
  rcases hcases with ⟨-, rfl⟩ | ⟨command, hcommand, rfl⟩
  · exact ⟨hpinned, hflag⟩
  · refine ⟨(commandState_pinned _ s command).trans hpinned, ?_⟩
    cases command with
    | bootstrapSecret => exact flagMeans_of_view (configureCustomSecret_view _ _ s) hflag
    | handleMsg0 => exact handleMsg0_flagMeans _ _ s hflag (hkeeps.exchange s hbefore hcommand)
    | prepareMsg1 => exact flagMeans_of_view (prepareMsg1_view _ _ s) hflag
    | handleMsg2 => exact handleMsg2_flagMeans _ _ s hpinned (hkeeps.anchor s hbefore hcommand)
    | prepareMsg3 => exact hflag

-- In every session in which neither happens, the flag means what it says in every state.
theorem flagMeans_of_keepsFlag {s : Ctx P} (hopened : Opened s) (inputs : List (Invocation P))
    (hkeeps : ∀ t ∈ session s inputs, KeepsFlag t) {s' : Ctx P}
    (hfinal : Run.final step (.live s) inputs = .live s') : FlagMeans s' := by
  have hstart : FlagInv (.live s) := by
    intro s0 h0
    obtain rfl := Instance.live.inj h0
    obtain ⟨key, rfl⟩ := opened_eq hopened
    exact ⟨rfl, fun hflag => by cases hflag⟩
  have hinv := Run.invariant_final hstart
    fun t ht hbefore => flagInv_step (Run.step_eq ht) (hkeeps t ht) hbefore
  exact (hinv s' hfinal).2

section Example

open Idealised Base.Symbolic

-- A key exchange, then a signed quote for some other anchor.
def foreignAnchorInputs : List (Invocation prims) :=
  [invoke .handleMsg0 1 [.pubX (.attacker 0), .pubY (.attacker 0)] 80,
    invoke .handleMsg2 3 (attackerMsg2 (signedQuote (.const [9]))) 296]

theorem flagMeans_fails : Opened openedCtx ∧
    ∃ s, Run.final step (.live openedCtx) foreignAnchorInputs = .live s ∧ ¬ FlagMeans s := by
  refine ⟨opened_openedCtx, _, rfl, fun hmeans => ?_⟩
  obtain ⟨env, hquote⟩ := hmeans rfl
  have hanchor := hquote.anchor
  unfold AnchorPassed at hanchor
  cases hanchor

theorem properInputs_keepsFlag : ∀ t ∈ session openedCtx properInputs, KeepsFlag t := by
  intro t ht
  rcases List.mem_cons.mp ht with rfl | ht
  · refine ⟨fun s hs _ => Or.inl ?_, fun s _ hcommand => by cases hcommand⟩
    obtain rfl := Instance.live.inj hs
    rfl
  · obtain rfl := List.mem_singleton.mp ht
    refine ⟨fun s _ hcommand => (by cases hcommand), fun s hs _ _ _ => ?_⟩
    obtain rfl := Instance.live.inj hs
    unfold AnchorPassed
    rfl

theorem properInputs_flagMeans : ∃ s, Run.final step (.live openedCtx) properInputs = .live s ∧
    s.isQuoteValid = true ∧ FlagMeans s :=
  ⟨_, rfl, rfl, flagMeans_of_keepsFlag opened_openedCtx properInputs properInputs_keepsFlag rfl⟩

end Example

end Watz.Verifier
