import Watz.Network.Invariant

namespace Watz.Network

open Base Base.Symbolic Idealised

variable {σ : State}

section Attester

theorem Inv.step_attester (h : Inv σ) (i : Nat) (published : List Term) {run : AttesterRun}
    (hanchor : ∀ anchor, (σ.attesters i).anchor = some anchor → run.anchor = some anchor)
    (hrun : AttesterOk σ run) (hpublished : ∀ t ∈ published, Safe (policy σ) t) :
    Inv { σ with
      known := published ++ σ.known
      attesters := Function.update σ.attesters i run } := by
  have hext : Extends σ { σ with
      known := published ++ σ.known
      attesters := Function.update σ.attesters i run } := by
    refine ⟨List.subset_append_right _ _, List.Subset.refl _, ?_, fun _ _ => rfl⟩
    intro i' anchor hi'
    by_cases heq : i' = i
    · subst heq
      simpa using hanchor anchor hi'
    · simpa [heq] using hi'
  refine h.of_extends hext ?_ (fun _ => Or.inl rfl) (fun g hg => Or.inl hg) ?_
  · intro i'
    by_cases heq : i' = i
    · subst heq
      right
      simpa using hrun.mono hext
    · left
      simp [heq]
  · intro t ht
    rcases List.mem_append.mp ht with hnew | hold
    · exact Or.inr (hext.safe (hpublished t hnew))
    · exact Or.inl hold

-- How a call of an attester run ends.
theorem AttesterRun.after_cases {α : Type}
    (effect : Effect (Attester.RaContext prims) TeeError Event α) (run : AttesterRun)
    (onOk : α → AttesterRun → AttesterRun) (fields : α → List Term) :
    (∃ value, effect.out = .ok value ∧ sent effect fields = fields value ∧
      run.after effect onOk = onOk value { run with ctx := effect.state }) ∨
    (sent effect fields = [] ∧
      run.after effect onOk = { run with ctx := effect.state, stage := .stopped }) := by
  unfold sent AttesterRun.after
  cases effect.out with
  | ok value => exact Or.inl ⟨value, rfl, rfl, rfl⟩
  | fail code => exact Or.inr ⟨rfl, rfl⟩
  | panic => exact Or.inr ⟨rfl, rfl⟩

theorem Bound.of_view {run : AttesterRun} {anchor : Term} (h : Bound σ run anchor)
    {ctx : Attester.RaContext prims} (stage : Stage) (data : Option Term)
    (hview : Attester.handshakeView ctx = Attester.handshakeView run.ctx) :
    Bound σ ⟨stage, run.pin, ctx, run.anchor, data⟩ anchor := by
  simp only [Attester.handshakeView, Prod.mk.injEq] at hview
  obtain ⟨-, hmac, hsession, hmsg0, hmsg1⟩ := hview
  obtain ⟨hagreed, hanchor, hsafe, hpinned⟩ := h
  rw [← hmac, ← hsession, ← hmsg0, ← hmsg1] at hagreed
  rw [← hmsg0, ← hmsg1] at hanchor hpinned
  exact ⟨hagreed, hanchor, hsafe, hpinned⟩

-- A run keeps its facts when it goes on with the keys of its handshake.
theorem AttesterOk.of_view {run : AttesterRun} (h : AttesterOk σ run)
    {ctx : Attester.RaContext prims} {stage : Stage}
    (hview : Attester.handshakeView ctx = Attester.handshakeView run.ctx)
    (hstage : stage = .quoteSent ∨ stage = .finished ∨ stage = .stopped) :
    AttesterOk σ { run with ctx := ctx, stage := stage } where
  early hearly := by
    rcases hstage with rfl | rfl | rfl <;> simp at hearly
  started hstarted := by
    rcases hstage with rfl | rfl | rfl <;> cases hstarted
  bound anchor hanchor := (h.bound anchor hanchor).of_view stage run.data hview
  untagged hanchored := by
    rcases hstage with rfl | rfl | rfl <;> cases hanchored
  data d hd := by
    simp only [Attester.handshakeView, Prod.mk.injEq] at hview
    rw [hview.2.2.1]
    exact h.data d hd

-- A run that ended before the handshake was over has nothing to show.
theorem AttesterOk.of_stopped (run : AttesterRun) (hanchor : run.anchor = none)
    (hdata : run.data = none) (ctx : Attester.RaContext prims) :
    AttesterOk σ { run with ctx := ctx, stage := .stopped } where
  early _ := ⟨hanchor, hdata⟩
  started hstarted := by cases hstarted
  bound anchor h := by simp [hanchor] at h
  untagged hanchored := by cases hanchored
  data d h := by simp [hdata] at h

theorem Inv.startHandshake (h : Inv σ) {i : Nat} {pin : Attester.Pin prims} {env : Env prims}
    (henabled : Enabled σ (.startHandshake i pin env)) :
    Inv (apply σ (.startHandshake i pin env)) := by
  obtain ⟨hstage, n, hkey⟩ := henabled
  obtain ⟨hanchor, hdata⟩ := (h.attesters i).early (Or.inl hstage)
  simp only [apply]
  rcases AttesterRun.after_cases
      (Attester.raNetHandshakeStart env (Attester.RaContext.fresh prims))
      { σ.attesters i with pin := pin } (fun _ run => { run with stage := .handshaking })
      msg0Fields with ⟨msg0, hout, hsent, hafter⟩ | ⟨hsent, hafter⟩
  · have hreaches := Attester.raNetHandshakeStart_reaches env (Attester.RaContext.fresh prims)
      (Attester.raNetHandshakeStart_ok env _ hout)
    have hmsg0 : msg0 = (Attester.started (P := prims) env.ecdhKey).msg0 := by
      simpa [hout] using hreaches.1
    rw [hsent, hafter, hreaches.2, hmsg0, hkey]
    refine h.step_attester i _ (by simp [hanchor]) ?_ ?_
    · exact
        { early := fun _ => ⟨hanchor, hdata⟩
          started := fun _ => ⟨n, rfl⟩
          bound := fun anchor hbound => by simp [hanchor] at hbound
          untagged := fun hanchored => by cases hanchored
          data := fun d hd => by simp [hdata] at hd }
    · intro t ht
      simp only [msg0Fields, List.mem_cons, List.not_mem_nil, or_false] at ht
      rcases ht with rfl | rfl <;> trivial
  · rw [hsent, hafter]
    refine h.step_attester i [] (by simp [hanchor]) ?_ (by simp)
    exact AttesterOk.of_stopped { σ.attesters i with pin := pin } hanchor hdata _

-- The six checks of the handshake, on what the attacker delivered.
theorem Inv.bound_of_accepts (h : Inv σ) {run : AttesterRun} {env : Env prims}
    (hdelivers : σ.Delivers env.wire) {n : Nat}
    (hctx : run.ctx = Attester.started (P := prims) (Name.honest attesterRole n))
    {msg1 : Msg1 Term Term} {key : Name} {shared : Term}
    (haccepts : Attester.Accepts env run.pin msg1 key shared run.ctx) (data : Option Term) :
    Bound σ ⟨.anchored, run.pin, Attester.handshaken env msg1 shared run.ctx,
        some (.hash (.tuple [run.ctx.msg0.ecdhX, run.ctx.msg0.ecdhY, msg1.ecdhX, msg1.ecdhY])),
        data⟩
      (.hash (.tuple [run.ctx.msg0.ecdhX, run.ctx.msg0.ecdhY, msg1.ecdhX, msg1.ecdhY])) where
  agreed := by
    obtain rfl : Name.honest attesterRole n = key := by
      have hkeypair := haccepts.keypair
      rw [hctx] at hkeypair
      exact Obj.key.inj hkeypair
    refine ⟨n, shared, ?_, haccepts.agreement, congrArg Obj.key (attester_macKey shared),
      congrArg Obj.key (attester_sessionKey shared)⟩
    show run.ctx.msg0 = _
    rw [hctx]
    rfl
  anchor_eq := rfl
  safe := by
    have hfields := recvMsg1_eq_some haccepts.received
    have hgvX : Safe (policy σ) msg1.ecdhX := by
      rw [hfields]
      exact h.safe_field hdelivers 0
    have hgvY : Safe (policy σ) msg1.ecdhY := by
      rw [hfields]
      exact h.safe_field hdelivers 1
    rw [hctx]
    exact ⟨trivial, trivial, hgvX, hgvY, trivial⟩
  pinned hpin := by
    rcases haccepts.pinned with hempty | ⟨-, hx, hy⟩
    · exact absurd hempty hpin
    · obtain ⟨k, hkx, hky, hsignature⟩ := verify_eq_true haccepts.signature
      refine ⟨k, (rawEq_iff.mp hx).trans hkx, (rawEq_iff.mp hy).trans hky, ?_⟩
      have hknows : σ.Knows msg1.ecdhSignature := by
        rw [recvMsg1_eq_some haccepts.received]
        exact hdelivers.knows_field 4
      rw [hsignature] at hknows
      exact hknows

theorem Inv.finishHandshake (h : Inv σ) {i anchorSize : Nat} {env : Env prims}
    (henabled : Enabled σ (.finishHandshake i anchorSize env)) :
    Inv (apply σ (.finishHandshake i anchorSize env)) := by
  obtain ⟨hstage, hdelivers⟩ := henabled
  obtain ⟨hanchor, hdata⟩ := (h.attesters i).early (Or.inr hstage)
  obtain ⟨n, hctx⟩ := (h.attesters i).started hstage
  simp only [apply]
  rcases AttesterRun.after_cases
      (Attester.raNetHandshakeFinish (σ.attesters i).pin anchorSize env (σ.attesters i).ctx)
      (σ.attesters i) (fun anchor run => { run with stage := .anchored, anchor := some anchor })
      (fun _ => []) with ⟨anchor, hout, -, hafter⟩ | ⟨-, hafter⟩
  · obtain ⟨rfl, hworks, msg1, key, shared, haccepts⟩ :=
      Attester.raNetHandshakeFinish_ok env _ hout
    have hreaches := Attester.raNetHandshakeFinish_reaches env _ hworks haccepts
    have hbound := h.bound_of_accepts hdelivers hctx haccepts none
    have hvalue : anchor = .hash (.tuple [(σ.attesters i).ctx.msg0.ecdhX,
        (σ.attesters i).ctx.msg0.ecdhY, msg1.ecdhX, msg1.ecdhY]) :=
      Out.ok.inj (hout.symm.trans hreaches.1)
    rw [hafter, hreaches.2, hvalue, hdata]
    refine h.step_attester i [] (by simp [hanchor]) ?_ (by simp)
    exact
      { early := fun hearly => by simp at hearly
        started := fun hstarted => by cases hstarted
        bound := fun anchor' hanchor' => by
          cases hanchor'
          exact hbound
        untagged := fun _ => by
          show (σ.attesters i).ctx.msg2.mac = blank
          rw [hctx]
          rfl
        data := fun d hd => by cases hd }
  · rw [hafter]
    refine h.step_attester i [] (by simp [hanchor]) ?_ (by simp)
    exact AttesterOk.of_stopped (σ.attesters i) hanchor hdata _

-- A quote of the attestation service may be seen by anyone.
theorem Inv.safe_quote (h : Inv σ) {quote : Quote} (hgenuine : Genuine quote)
    (hsigned : ⟨attestationKey, signedFields quote⟩ ∈ σ.signatures) :
    ∀ t ∈ quoteFields quote, Safe (policy σ) t := by
  have hfields := (h.signatures _ hsigned).safe
  intro t ht
  rcases List.mem_append.mp ht with hfield | hsignature
  · exact hfields t hfield
  · rw [List.mem_singleton.mp hsignature, hgenuine]
    exact ⟨safe_tuple.mpr hfields, Or.inr ⟨_, hsigned, rfl, rfl⟩⟩

theorem Inv.collectQuote (h : Inv σ) {i : Nat} {quote : Quote}
    (henabled : Enabled σ (.collectQuote i quote)) : Inv (apply σ (.collectQuote i quote)) := by
  obtain ⟨hanchor, hgenuine, hversion, hclaim, hkey⟩ := henabled
  have hext : Extends σ (apply σ (.collectQuote i quote)) :=
    ⟨List.subset_append_right _ _, fun g hg => List.mem_cons_of_mem _ hg, fun _ _ ha => ha,
      fun _ _ => rfl⟩
  have hfields : ∀ t ∈ signedFields quote, Safe (policy σ) t := by
    exact safe_tuple.mp ⟨((h.attesters i).bound _ hanchor).safe, h.safe hversion,
      h.safe hclaim, h.safe hkey, trivial⟩
  refine h.of_extends hext (fun _ => Or.inl rfl) (fun _ => Or.inl rfl) ?_ ?_
  · intro g hg
    rcases List.mem_cons.mp hg with rfl | hold
    · exact Or.inr ⟨fun t ht => hext.safe (hfields t ht), Or.inr ⟨rfl, i, _, _, rfl, hanchor⟩⟩
    · exact Or.inl hold
  · intro t ht
    rcases List.mem_append.mp ht with hnew | hold
    · right
      rcases List.mem_append.mp hnew with hfield | hsignature
      · exact hext.safe (hfields t hfield)
      · rw [List.mem_singleton.mp hsignature, hgenuine]
        refine ⟨safe_tuple.mpr fun u hu => hext.safe (hfields u hu), Or.inr ?_⟩
        exact ⟨_, List.mem_cons_self, rfl, rfl⟩
    · exact Or.inl hold

theorem Inv.sendQuote (h : Inv σ) {i : Nat} {quote : Quote} {env : Env prims}
    (henabled : Enabled σ (.sendQuote i quote env)) : Inv (apply σ (.sendQuote i quote env)) := by
  obtain ⟨hstage, hanchor, hgenuine, hsigned⟩ := henabled
  have hok := h.attesters i
  have hview := Attester.keeps_raNetSendQuote (P := prims) quote env (σ.attesters i).ctx
  simp only [apply]
  rcases AttesterRun.after_cases (Attester.raNetSendQuote quote env (σ.attesters i).ctx)
      (σ.attesters i) (fun _ run => { run with stage := .quoteSent }) msg2Fields with
    ⟨msg2, hout, hsent, hafter⟩ | ⟨hsent, hafter⟩
  · rw [hsent, hafter]
    refine h.step_attester i _ (fun _ ha => ha) (hok.of_view hview (Or.inl rfl)) ?_
    obtain ⟨⟨n, shared, hmsg0, -, hmac, -⟩, -, -, -⟩ := hok.bound _ hanchor
    have hx : Safe (policy σ) (σ.attesters i).ctx.msg0.ecdhX := by
      rw [hmsg0]
      trivial
    have hy : Safe (policy σ) (σ.attesters i).ctx.msg0.ecdhY := by
      rw [hmsg0]
      trivial
    have hquote := h.safe_quote hgenuine hsigned
    rcases Attester.raNetSendQuote_ok env _ hout with rfl | ⟨key, hkey, rfl⟩
    · have htag : Safe (policy σ) (σ.attesters i).ctx.msg2.mac := by
        rw [hok.untagged hstage]
        exact safe_blank
      exact List.forall_mem_append.mpr ⟨safe_tuple.mp ⟨hx, hy, htag, trivial⟩, hquote⟩
    · rw [hmac] at hkey
      cases hkey
      have htag : Safe (policy σ) (Attester.preparedMsg2 env (macKeyOf shared) quote
          (σ.attesters i).ctx).mac :=
        ⟨⟨hx, hy, safe_tuple.mpr hquote, trivial⟩, Or.inr ⟨shared, rfl⟩⟩
      exact List.forall_mem_append.mpr ⟨safe_tuple.mp ⟨hx, hy, htag, trivial⟩, hquote⟩
  · rw [hsent, hafter]
    refine h.step_attester i [] (fun _ ha => ha) ?_ (by simp)
    exact hok.of_view hview (Or.inr (Or.inr rfl))

theorem Inv.receiveData (h : Inv σ) {i dataSize : Nat} {env : Env prims}
    (henabled : Enabled σ (.receiveData i dataSize env)) :
    Inv (apply σ (.receiveData i dataSize env)) := by
  obtain ⟨-, hdelivers⟩ := henabled
  have hok := h.attesters i
  have hview := Attester.keeps_raNetReceiveData (P := prims) dataSize env (σ.attesters i).ctx
  simp only [apply]
  rcases AttesterRun.after_cases (Attester.raNetReceiveData dataSize env (σ.attesters i).ctx)
      (σ.attesters i) (fun value run => { run with stage := .finished, data := some value.1 })
      (fun _ => []) with ⟨value, hout, -, hafter⟩ | ⟨-, hafter⟩
  · obtain ⟨key, size, hkey, hdecrypt⟩ := Attester.raNetReceiveData_ok env _ hout
    have hsafe : Safe (policy σ) (.enc key (env.wire.field 0) value.1) := by
      have hcontent : env.wire.field 2 = .enc key (env.wire.field 0) value.1 :=
        gcmDecrypt_eq_some hdecrypt
      rw [← hcontent]
      exact h.safe_field hdelivers 2
    rw [hafter]
    refine h.step_attester i [] (fun _ ha => ha) ?_ (by simp)
    exact
      { early := fun hearly => by simp at hearly
        started := fun hstarted => by cases hstarted
        bound := fun anchor hanchor =>
          (hok.bound anchor hanchor).of_view .finished (some value.1) hview
        untagged := fun hanchored => by cases hanchored
        data := fun d hd => by
          cases hd
          simp only [Attester.handshakeView, Prod.mk.injEq] at hview
          exact ⟨key, _, hview.2.2.1.trans hkey, hsafe⟩ }
  · rw [hafter]
    refine h.step_attester i [] (fun _ ha => ha) ?_ (by simp)
    exact hok.of_view hview (Or.inr (Or.inr rfl))

end Attester

section Verifier

theorem Inv.step_verifier (h : Inv σ) (j : Nat) (published : List Term) (signed : List Signature)
    {run : VerifierRun} (hposition : (σ.verifiers j).position ≠ .completed) {σ' : State}
    (hσ' : σ' = { σ with
      known := published ++ σ.known
      signatures := signed ++ σ.signatures
      verifiers := Function.update σ.verifiers j run })
    (hrun : Extends σ σ' → VerifierOk σ' run)
    (hsigned : Extends σ σ' → ∀ g ∈ signed, SignatureOk σ' g)
    (hpublished : Extends σ σ' → ∀ t ∈ published, Safe (policy σ') t) : Inv σ' := by
  have hext : Extends σ σ' := by
    subst hσ'
    refine ⟨List.subset_append_right _ _, List.subset_append_right _ _, fun _ _ ha => ha, ?_⟩
    intro j' hj'
    have hne : j' ≠ j := by
      rintro rfl
      exact hposition hj'
    simp [hne]
  refine h.of_extends hext ?_ ?_ ?_ ?_
  · intro i
    left
    rw [hσ']
  · intro j'
    by_cases heq : j' = j
    · right
      have hrun' : σ'.verifiers j' = run := by
        rw [hσ', heq]
        simp
      rw [hrun']
      exact hrun hext
    · left
      rw [hσ']
      simp [heq]
  · intro g hg
    rw [hσ'] at hg
    rcases List.mem_append.mp hg with hnew | hold
    · exact Or.inr (hsigned hext g hnew)
    · exact Or.inl hold
  · intro t ht
    rw [hσ'] at ht
    rcases List.mem_append.mp ht with hnew | hold
    · exact Or.inr (hpublished hext t hnew)
    · exact Or.inl hold

variable {s : Verifier.Ctx prims} {env : Env prims} {buffer : Buf}

theorem provisioned_openSession {env : Env prims} {n : Nat} (hkey : env.ecdsaKey = serviceKey n)
    (hout : (Verifier.openSessionEntryPoint 0 env (Verifier.Ctx.zero prims)).out = .ok ())
    {bootstrap : Verifier.Invocation prims} (hcommand : bootstrap.command = some .bootstrapSecret)
    {m : Nat} (hsecret : prims.bufVal bootstrap.buffer = Term.secret m)
    (hresult : (bootstrapped env bootstrap).2.result = none) :
    ∃ s, (bootstrapped env bootstrap).1 = .live s ∧ Provisioned s := by
  obtain ⟨-, himport, hgenerate⟩ := Verifier.openSessionEntryPoint_ok env _ hout
  have hopened := (Verifier.openSessionEntryPoint_reaches env himport hgenerate).2
  simp only [bootstrapped, hopened, Verifier.step, Verifier.invokeCommandEntryPoint, hcommand,
    Verifier.dispatch] at hresult ⊢
  obtain ⟨_, hgranted, hinst, -⟩ := Verifier.conclude_ok hresult
  refine ⟨_, hinst, ?_⟩
  rw [Verifier.configureCustomSecret_state _ _ _ hgranted, hsecret, hkey]
  exact ⟨⟨n, rfl, rfl, rfl⟩, rfl, ⟨m, rfl⟩⟩

theorem Inv.after_handleMsg0 (h : Inv σ) (hdelivers : σ.Delivers buffer) {n : Nat}
    (hkey : env.ecdhKey = Name.honest verifierRole n) (hs : Provisioned s)
    (hout : (Verifier.handleMsg0 buffer env s).out = .ok ()) :
    Provisioned (Verifier.handleMsg0 buffer env s).state ∧
      Exchanged σ (Verifier.handleMsg0 buffer env s).state := by
  obtain ⟨hworks, hsize, shared, hshared⟩ := (Verifier.handleMsg0_ok env s buffer).mp hout
  rw [(Verifier.handleMsg0_reaches env s buffer hworks hsize hshared).2]
  rw [hkey] at hshared
  refine ⟨⟨hs.service, hs.attestation, hs.secret⟩, ⟨n, shared, ?_, ?_, hshared, ?_, ?_⟩,
    h.safe_field hdelivers 0, h.safe_field hdelivers 1⟩
  · exact congrArg Term.pubX hkey
  · exact congrArg Term.pubY hkey
  · exact congrArg Obj.key (verifier_macKey shared)
  · exact congrArg Obj.key (verifier_sessionKey shared)

theorem Inv.after_handleMsg2 (h : Inv σ) (hdelivers : σ.Delivers buffer) (hs : Provisioned s)
    (hexchanged : Exchanged σ s) (hout : (Verifier.handleMsg2 buffer env s).out = .ok ()) :
    Provisioned (Verifier.handleMsg2 buffer env s).state ∧
      Exchanged σ (Verifier.handleMsg2 buffer env s).state ∧
      Attested σ (Verifier.handleMsg2 buffer env s).state := by
  have haccepts := (Verifier.handleMsg2_ok env s buffer).mp hout
  rw [(Verifier.handleMsg2_vetted env s buffer haccepts.size haccepts.vetted).1]
  refine ⟨⟨hs.service, hs.attestation, hs.secret⟩, ⟨hexchanged.agreed, hexchanged.safeX,
    hexchanged.safeY⟩, ?_⟩
  -- the signature is one of the attestation service, so its anchor comes from an attester run
  obtain ⟨key, hkey, hverify⟩ := haccepts.vetted.signature
  obtain rfl : (Term.vkX attestationKey, Term.vkY attestationKey) = key :=
    Obj.key.inj (hs.attestation.symm.trans hkey)
  obtain ⟨k, hk, -, hsignature⟩ := verify_eq_true hverify
  cases hk
  have hsafe : Safe (policy σ) (buffer.field 6) := h.safe_field hdelivers 6
  have hfield : buffer.field 6 = _ := hsignature
  rw [hfield] at hsafe
  obtain ⟨-, hattacker | ⟨g, hg, hmaker, hdigest⟩⟩ := hsafe
  · exact absurd hattacker id
  · rcases (h.signatures g hg).maker with ⟨m, n, rest, hservice, -⟩ |
      ⟨-, i, anchor, rest, hmessage, hanchor⟩
    · rw [hservice] at hmaker
      cases hmaker
    · rw [hmessage] at hdigest
      have hsame : (buffer.field 2 : Term) = anchor := by
        have htuple := Term.tuple_injective (Term.hash.inj hdigest)
        exact (List.cons.inj htuple).1
      refine ⟨i, ?_⟩
      rw [hanchor, ← hsame]
      exact congrArg some haccepts.anchor

theorem after_prepareMsg1 (hs : Provisioned s) (hexchanged : Exchanged σ s) {message : Buf}
    (hout : (Verifier.prepareMsg1 buffer env s).out = .ok message) :
    Provisioned (Verifier.prepareMsg1 buffer env s).state ∧
      Exchanged σ (Verifier.prepareMsg1 buffer env s).state := by
  obtain ⟨hsize, hsign, hmac, ecdsa, mac, hecdsa, hkey⟩ :=
    Verifier.prepareMsg1_ok env s buffer message hout
  rw [(Verifier.prepareMsg1_reaches env s buffer hsize hsign hmac ecdsa mac hecdsa hkey).2]
  exact ⟨⟨hs.service, hs.attestation, hs.secret⟩, ⟨hexchanged.agreed, hexchanged.safeX,
    hexchanged.safeY⟩⟩

-- Both public keys, as a verifier signs them.
def offered (s : Verifier.Ctx prims) : List Term :=
  [s.msg1.ecdhX, s.msg1.ecdhY, s.msg0.ecdhX, s.msg0.ecdhY]

theorem signatureOk_offered (hs : Provisioned s) (hexchanged : Exchanged σ s)
    (inv : Verifier.Invocation prims) :
    ∃ m, s.ecdsaLocalKeypair = .key (serviceKey m) ∧
      made .msg1 (.live s) inv = [⟨serviceKey m, offered s⟩] ∧
      SignatureOk σ ⟨serviceKey m, offered s⟩ := by
  obtain ⟨m, hkey, -, -⟩ := hs.service
  obtain ⟨n, shared, hx, hy, -, -, -⟩ := hexchanged.agreed
  refine ⟨m, hkey, ?_, ?_, Or.inl ⟨m, n, [s.msg0.ecdhX, s.msg0.ecdhY], rfl, ?_⟩⟩
  · simp only [made, hkey]
    rfl
  · apply safe_tuple.mp
    unfold offered
    rw [hx, hy]
    exact ⟨trivial, trivial, hexchanged.safeX, hexchanged.safeY, trivial⟩
  · simp only [offered, hx, hy]

-- What `msg1` shows: public keys, a signature that is on record and a tag under the MAC key.
theorem safe_msg1 {m : Nat} (hs : Provisioned s) (hexchanged : Exchanged σ s)
    (hkey : s.ecdsaLocalKeypair = .key (serviceKey m))
    (hsigned : ⟨serviceKey m, offered s⟩ ∈ σ.signatures) {message : Buf}
    (hout : (Verifier.prepareMsg1 buffer env s).out = .ok message) :
    ∀ t ∈ message.fields, Safe (policy σ) t := by
  obtain ⟨hsize, hsign, hmac, ecdsa, mac, hecdsa, hmackey⟩ :=
    Verifier.prepareMsg1_ok env s buffer message hout
  have hreaches :=
    Verifier.prepareMsg1_reaches env s buffer hsize hsign hmac ecdsa mac hecdsa hmackey
  obtain ⟨n, shared, hx, hy, -, hmac', -⟩ := hexchanged.agreed
  obtain ⟨m', hkey', hvx, hvy⟩ := hs.service
  rw [hkey] at hecdsa hkey'
  cases hecdsa
  have hsame : serviceKey m = serviceKey m' := Obj.key.inj hkey'
  rw [hmac'] at hmackey
  cases hmackey
  have hsafeX : Safe (policy σ) s.msg1.ecdhX := by
    rw [hx]
    trivial
  have hsafeY : Safe (policy σ) s.msg1.ecdhY := by
    rw [hy]
    trivial
  have hsafeKX : Safe (policy σ) s.msg1.ecdsaX := by
    rw [hvx]
    trivial
  have hsafeKY : Safe (policy σ) s.msg1.ecdsaY := by
    rw [hvy]
    trivial
  have hsignature : Safe (policy σ) (.sig (serviceKey m) (.hash (.tuple (offered s)))) :=
    ⟨⟨hsafeX, hsafeY, hexchanged.safeX, hexchanged.safeY, trivial⟩, Or.inr ⟨_, hsigned, rfl, rfl⟩⟩
  have htag : Safe (policy σ) (.mac (macKeyOf shared) (.tuple [s.msg1.ecdhX, s.msg1.ecdhY,
      s.msg1.ecdsaX, s.msg1.ecdsaY, .sig (serviceKey m) (.hash (.tuple (offered s)))])) :=
    ⟨⟨hsafeX, hsafeY, hsafeKX, hsafeKY, hsignature, trivial⟩, Or.inr ⟨shared, rfl⟩⟩
  have hfields : message.fields = [s.msg1.ecdhX, s.msg1.ecdhY, s.msg1.ecdsaX, s.msg1.ecdsaY,
      .sig (serviceKey m) (.hash (.tuple (offered s))),
      .mac (macKeyOf shared) (.tuple [s.msg1.ecdhX, s.msg1.ecdhY, s.msg1.ecdsaX, s.msg1.ecdsaY,
        .sig (serviceKey m) (.hash (.tuple (offered s)))])] := by
    rw [Out.ok.inj (hout.symm.trans hreaches.1)]
    rfl
  rw [hfields]
  exact safe_tuple.mp ⟨hsafeX, hsafeY, hsafeKX, hsafeKY, hsignature, htag, trivial⟩

-- What `msg3` shows of a run that is over: the secret under the session key.
theorem safe_msg3 {j : Nat} (hcompleted : σ.verifiers j = ⟨.completed, .live s⟩)
    (hiv : Safe (policy σ) env.iv) {message : Buf}
    (hout : (Verifier.prepareMsg3 buffer s.secret env s).out = .ok message) :
    ∀ t ∈ message.fields, Safe (policy σ) t := by
  obtain ⟨-, key, hkey, rfl⟩ := (Verifier.prepareMsg3_ok env s buffer message).mp hout
  have hsealed : (policy σ).sealed key env.iv s.secret := ⟨j, s, hcompleted, hkey, rfl⟩
  exact safe_tuple.mp ⟨hiv, Or.inr hsealed, Or.inr hsealed, trivial⟩

end Verifier

section Invoke

variable {j : Nat} {inv : Verifier.Invocation prims}

theorem apply_invoke_ok (hresult : (Verifier.step (σ.verifiers j).inst inv).2.result = none) :
    apply σ (.invoke j inv) = { σ with
      known := outgoing (σ.verifiers j).position
        (Verifier.step (σ.verifiers j).inst inv).2.buffer ++ σ.known
      signatures := made (σ.verifiers j).position (σ.verifiers j).inst inv ++ σ.signatures
      verifiers := Function.update σ.verifiers j
        ⟨(σ.verifiers j).position.next, (Verifier.step (σ.verifiers j).inst inv).1⟩ } := by
  simp only [apply, hresult]

theorem apply_invoke_fail {code : TeeError}
    (hresult : (Verifier.step (σ.verifiers j).inst inv).2.result = some code) :
    apply σ (.invoke j inv) = { σ with
      verifiers := Function.update σ.verifiers j
        ⟨.stopped, (Verifier.step (σ.verifiers j).inst inv).1⟩ } := by
  simp only [apply, hresult]

variable (h : Inv σ) (henabled : Enabled σ (.invoke j inv))
  (hresult : (Verifier.step (σ.verifiers j).inst inv).2.result = none)
include h henabled hresult

theorem Inv.invoke_msg0 (hposition : (σ.verifiers j).position = .msg0)
    (hcommand : inv.command = some .handleMsg0) : Inv (apply σ (.invoke j inv)) := by
  obtain ⟨-, ⟨n, hkey⟩, hdelivers, -⟩ := henabled
  have hok := h.verifiers j
  simp only [VerifierOk, hposition] at hok
  obtain ⟨s, hs, hprovisioned⟩ := hok
  rw [apply_invoke_ok hresult]
  rw [hs, Verifier.step_of_command hcommand, Verifier.dispatch] at hresult ⊢
  obtain ⟨_, hout, hinst, -⟩ := Verifier.conclude_ok hresult
  obtain ⟨hprovisioned', hexchanged⟩ := h.after_handleMsg0 hdelivers hkey hprovisioned hout
  rw [hinst, hposition]
  refine h.step_verifier j [] [] (by simp [hposition]) rfl ?_ (by simp) (by simp)
  intro hext
  exact ⟨_, rfl, hprovisioned', hexchanged.mono hext⟩

omit henabled in
theorem Inv.invoke_msg1 (hposition : (σ.verifiers j).position = .msg1)
    (hcommand : inv.command = some .prepareMsg1) : Inv (apply σ (.invoke j inv)) := by
  have hok := h.verifiers j
  simp only [VerifierOk, hposition] at hok
  obtain ⟨s, hs, hprovisioned, hexchanged⟩ := hok
  obtain ⟨m, hkey, hmade, hsignature⟩ := signatureOk_offered hprovisioned hexchanged inv
  rw [apply_invoke_ok hresult]
  rw [hs, Verifier.step_of_command hcommand, Verifier.dispatch] at hresult ⊢
  obtain ⟨message, hout, hinst, hbuffer⟩ := Verifier.conclude_ok hresult
  obtain ⟨hprovisioned', hexchanged'⟩ := after_prepareMsg1 hprovisioned hexchanged hout
  rw [hinst, hbuffer, hposition, hmade]
  refine h.step_verifier j _ _ (by simp [hposition]) rfl ?_ ?_ ?_
  · intro hext
    exact ⟨_, rfl, hprovisioned', hexchanged'.mono hext⟩
  · intro hext g hg
    rw [List.mem_singleton.mp hg]
    exact hsignature.mono hext
  · intro hext
    exact safe_msg1 hprovisioned (hexchanged.mono hext) hkey List.mem_cons_self hout

theorem Inv.invoke_msg2 (hposition : (σ.verifiers j).position = .msg2)
    (hcommand : inv.command = some .handleMsg2) : Inv (apply σ (.invoke j inv)) := by
  obtain ⟨-, -, hdelivers, -⟩ := henabled
  have hok := h.verifiers j
  simp only [VerifierOk, hposition] at hok
  obtain ⟨s, hs, hprovisioned, hexchanged⟩ := hok
  rw [apply_invoke_ok hresult]
  rw [hs, Verifier.step_of_command hcommand, Verifier.dispatch] at hresult ⊢
  obtain ⟨_, hout, hinst, -⟩ := Verifier.conclude_ok hresult
  obtain ⟨hprovisioned', hexchanged', hattested⟩ :=
    h.after_handleMsg2 hdelivers hprovisioned hexchanged hout
  rw [hinst, hposition]
  refine h.step_verifier j [] [] (by simp [hposition]) rfl ?_ (by simp) (by simp)
  intro hext
  exact ⟨_, rfl, hprovisioned', hexchanged'.mono hext, hattested.mono hext⟩

theorem Inv.invoke_msg3 (hposition : (σ.verifiers j).position = .msg3)
    (hcommand : inv.command = some .prepareMsg3) : Inv (apply σ (.invoke j inv)) := by
  obtain ⟨-, -, -, hiv⟩ := henabled
  have hok := h.verifiers j
  simp only [VerifierOk, hposition] at hok
  obtain ⟨s, hs, hprovisioned, hexchanged, hattested⟩ := hok
  rw [apply_invoke_ok hresult]
  rw [hs, Verifier.step_of_command hcommand, Verifier.dispatch] at hresult ⊢
  obtain ⟨message, hout, hinst, hbuffer⟩ := Verifier.conclude_ok hresult
  have hsame : (Verifier.prepareMsg3 inv.buffer s.secret inv.env s).state = s :=
    Verifier.keeps_prepareMsg3 inv.buffer s.secret inv.env s
  rw [hinst, hbuffer, hposition, hsame]
  refine h.step_verifier j _ [] (by simp [hposition]) rfl ?_ (by simp) ?_
  · intro hext
    exact ⟨s, rfl, hprovisioned, hexchanged.mono hext, hattested.mono hext⟩
  · intro hext
    exact safe_msg3 (j := j) (by simp [Position.next]) (hext.safe (h.safe hiv)) hout

end Invoke

section Steps

theorem Inv.openSession (h : Inv σ) {j : Nat} {env : Env prims}
    {bootstrap : Verifier.Invocation prims} (henabled : Enabled σ (.openSession j env bootstrap)) :
    Inv (apply σ (.openSession j env bootstrap)) := by
  obtain ⟨hidle, ⟨n, hkey⟩, hopened, hcommand, ⟨m, hsecret⟩, hresult⟩ := henabled
  obtain ⟨s, hs, hprovisioned⟩ := provisioned_openSession hkey hopened hcommand hsecret hresult
  simp only [apply, hs]
  refine h.step_verifier j [] [] (by simp [hidle]) rfl ?_ (by simp) (by simp)
  intro _
  exact ⟨s, rfl, hprovisioned⟩

theorem Inv.keepSession (h : Inv σ) {j predecessor : Nat}
    (henabled : Enabled σ (.keepSession j predecessor)) :
    Inv (apply σ (.keepSession j predecessor)) := by
  obtain ⟨hidle, hcompleted⟩ := henabled
  obtain ⟨s, hs, hprovisioned, -⟩ := h.completed_session hcompleted
  simp only [apply, hs]
  refine h.step_verifier j [] [] (by simp [hidle]) rfl ?_ (by simp) (by simp)
  intro _
  exact ⟨s, rfl, hprovisioned⟩

theorem Inv.invoke (h : Inv σ) {j : Nat} {inv : Verifier.Invocation prims}
    (henabled : Enabled σ (.invoke j inv)) : Inv (apply σ (.invoke j inv)) := by
  obtain ⟨command, hposition, hcommand⟩ := henabled.1
  cases hresult : (Verifier.step (σ.verifiers j).inst inv).2.result with
  | some code =>
      rw [apply_invoke_fail hresult]
      have hopen : (σ.verifiers j).position ≠ .completed := by
        intro hcompleted
        simp [hcompleted, Position.command] at hposition
      exact h.step_verifier j [] [] hopen rfl (fun _ => trivial) (by simp) (by simp)
  | none =>
      cases hp : (σ.verifiers j).position with
      | idle | completed | stopped => simp [hp, Position.command] at hposition
      | msg0 =>
          simp only [hp, Position.command, Option.some.injEq] at hposition
          exact h.invoke_msg0 henabled hresult hp (hposition ▸ hcommand)
      | msg1 =>
          simp only [hp, Position.command, Option.some.injEq] at hposition
          exact h.invoke_msg1 hresult hp (hposition ▸ hcommand)
      | msg2 =>
          simp only [hp, Position.command, Option.some.injEq] at hposition
          exact h.invoke_msg2 henabled hresult hp (hposition ▸ hcommand)
      | msg3 =>
          simp only [hp, Position.command, Option.some.injEq] at hposition
          exact h.invoke_msg3 henabled hresult hp (hposition ▸ hcommand)

theorem Inv.step (h : Inv σ) {action : Action} (henabled : Enabled σ action) :
    Inv (apply σ action) := by
  cases action with
  | startHandshake i pin env => exact h.startHandshake henabled
  | finishHandshake i anchorSize env => exact h.finishHandshake henabled
  | collectQuote i quote => exact h.collectQuote henabled
  | sendQuote i quote env => exact h.sendQuote henabled
  | receiveData i dataSize env => exact h.receiveData henabled
  | openSession j env bootstrap => exact h.openSession henabled
  | keepSession j predecessor => exact h.keepSession henabled
  | invoke j inv => exact h.invoke henabled

theorem inv_init : Inv init where
  attesters i :=
    { early := fun _ => ⟨rfl, rfl⟩
      started := fun hstarted => by cases hstarted
      bound := fun anchor hanchor => by cases hanchor
      untagged := fun hanchored => by cases hanchored
      data := fun d hd => by cases hd }
  verifiers j := trivial
  signatures g hg := by cases hg
  known t ht := by cases ht

theorem inv_of_reachable (h : Reachable σ) : Inv σ := by
  induction h with
  | init => exact inv_init
  | step _ action henabled ih => exact ih.step henabled

end Steps

end Watz.Network
