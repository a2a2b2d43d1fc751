import Watz.Verifier.Validity

namespace Watz.Verifier

open Base Tee

variable {P : Prims}

-- The five pieces of state that `handle_msg0` builds up.
def exchangeView (s : Ctx P) :=
  (s.msg0, s.msg1.ecdhX, s.msg1.ecdhY, s.ecdhLocalKeypair, s.sharedMacKey, s.sharedSessionKey)

-- Gv in `msg1` is the public half of the key pair, and Km and Ks come from this key pair and
-- Ga in `msg0`.
def Coherent (s : Ctx P) : Prop :=
  ∃ env key shared, s.ecdhLocalKeypair = .key key ∧
    P.val s.msg1.ecdhX = P.pubX key ∧ P.val s.msg1.ecdhY = P.pubY key ∧
    agreed env key s.msg0 = some shared ∧
    s.sharedMacKey = .key (macKey shared) ∧ s.sharedSessionKey = .key (sessionKey shared)

structure KeyCoherence (run : List (SessionStep P)) : Prop where
  coherent : ∀ history t rest, run = history ++ t :: rest →
    (∃ e ∈ history ++ [t], Requests .handleMsg0 e ∧ e.output.result = none) →
    ∀ s, t.after = .live s → Coherent s
  unchanged : ∀ t ∈ run, Requests .handleMsg0 t → t.output.result ≠ none →
    ∀ s s', t.before = .live s → t.after = .live s' → exchangeView s' = exchangeView s

-- A HANDLE_MSG_0 fails at its first call, before it has touched the context, or it finds a
-- long enough buffer and TEE calls that work to the end.
def CleanExchange (t : SessionStep P) : Prop :=
  t.input.command = some .handleMsg0 →
    t.input.env.faults .generateEcdhKeypair 0 ≠ none ∨
      HandleMsg0Works t.input.env ∧ P.sizeofMsg0 ≤ P.bufSize t.input.buffer

theorem coherent_of_view {s s' : Ctx P} (hview : exchangeView s' = exchangeView s)
    (hs : Coherent s) : Coherent s' := by
  simp only [exchangeView, Prod.mk.injEq] at hview
  obtain ⟨h0, hx, hy, hkey, hmac, hsession⟩ := hview
  unfold Coherent
  rw [h0, hx, hy, hkey, hmac, hsession]
  exact hs

section Exchange

variable (env : Env P) (s : Ctx P) (buffer : P.Buf)

theorem handleMsg0_first_fault (h : env.faults .generateEcdhKeypair 0 ≠ none) :
    (handleMsg0 buffer env s).out.isOk = false ∧ (handleMsg0 buffer env s).state = s := by
  obtain ⟨code, hcode⟩ := Option.ne_none_iff_exists'.mp h
  have hgenerate : (generateEcdhKeypair env s).out = .fail code ∧
      (generateEcdhKeypair env s).state = s := by
    simp [generateEcdhKeypair, allocate, tee, Prog.call, Prog.bind_run, Prog.andThen, hcode]
  have hno : (generateEcdhKeypair env s).out.isOk = false := by rw [hgenerate.1]; rfl
  unfold handleMsg0
  exact ⟨Prog.isOk_bind_of_not_ok _ _ _ _ hno,
    (Prog.state_bind_of_not_ok _ _ _ _ hno).trans hgenerate.2⟩

-- A public key that the TEE cannot use ends the instance.
theorem handleMsg0_panics (hworks : HandleMsg0Works env) (hsize : P.sizeofMsg0 ≤ P.bufSize buffer)
    (hnone : agreed env env.ecdhKey (P.getMsg0 buffer) = none) :
    (handleMsg0 buffer env s).out = .panic := by
  unfold handleMsg0
  rw [(generateEcdhKeypair_reaches env s hworks.generate).bind_out,
    (storeMsg0_reaches env _ buffer hsize).bind_out,
    (populateAttesterKey_reaches env _ hworks.populate).bind_out]
  exact Prog.out_bind_of_panic _ _ _ _ (derivation.deriveSharedKey_panics env _ hworks.derive rfl hnone)

theorem coherent_exchanged {shared : P.Val}
    (hshared : agreed env env.ecdhKey (P.getMsg0 buffer) = some shared) :
    Coherent (exchanged env buffer shared s) :=
  ⟨env, env.ecdhKey, shared, rfl, P.val_exportX _ _, P.val_exportY _ _, hshared, rfl, rfl⟩

theorem coherent_of_handleMsg0_ok (h : (handleMsg0 buffer env s).out = .ok ()) :
    Coherent (handleMsg0 buffer env s).state := by
  obtain ⟨hworks, hsize, shared, hshared⟩ := (handleMsg0_ok env s buffer).mp h
  rw [(handleMsg0_reaches env s buffer hworks hsize hshared).2]
  exact coherent_exchanged env s buffer hshared

end Exchange

theorem exchangeView_of_other {inv : Invocation P} {s : Ctx P} {command : Command}
    (h : command ≠ .handleMsg0) : exchangeView (commandState inv s command) = exchangeView s := by
  have hboot : Prog.Keeps exchangeView (configureCustomSecret inv.buffer : VerifierM P Unit) :=
    (keeps_configureCustomSecret _).map exchangeView fun _ => rfl
  have hmsg1 : Prog.Keeps exchangeView (prepareMsg1 inv.buffer : VerifierM P P.Buf) :=
    (keeps_prepareMsg1 _).map exchangeView fun _ => rfl
  have hmsg2 : Prog.Keeps exchangeView (handleMsg2 inv.buffer : VerifierM P Unit) :=
    (keeps_handleMsg2 _).map exchangeView fun _ => rfl
  cases command with
  | bootstrapSecret => exact hboot inv.env s
  | handleMsg0 => exact absurd rfl h
  | prepareMsg1 => exact hmsg1 inv.env s
  | handleMsg2 => exact hmsg2 inv.env s
  | prepareMsg3 => rfl

-- A clean HANDLE_MSG_0 that the session survives changed nothing, or it succeeded.
theorem exchange_step {inv : Invocation P} {s s' : Ctx P} (hcommand : inv.command = some .handleMsg0)
    (hclean : inv.env.faults .generateEcdhKeypair 0 ≠ none ∨
      HandleMsg0Works inv.env ∧ P.sizeofMsg0 ≤ P.bufSize inv.buffer)
    (hafter : (step (.live s) inv).1 = .live s') :
    s' = s ∨ Coherent s' ∧ (step (.live s) inv).2.result = none := by
  have hstate : s' = (handleMsg0 inv.buffer inv.env s).state := by
    simp only [step, invokeCommandEntryPoint, hcommand] at hafter
    exact conclude_live hafter
  rcases hclean with hfault | ⟨hworks, hsize⟩
  · left
    rw [hstate]
    exact (handleMsg0_first_fault inv.env s inv.buffer hfault).2
  · right
    cases hshared : agreed inv.env inv.env.ecdhKey (P.getMsg0 inv.buffer) with
    | none =>
        have hpanic := handleMsg0_panics inv.env s inv.buffer hworks hsize hshared
        simp [step, invokeCommandEntryPoint, hcommand, dispatch, conclude, hpanic] at hafter
    | some shared =>
        have hok := (handleMsg0_ok inv.env s inv.buffer).mpr ⟨hworks, hsize, shared, hshared⟩
        refine ⟨?_, (result_handleMsg0 _ _ hcommand).mpr ⟨s, rfl, hok⟩⟩
        rw [hstate]
        exact coherent_of_handleMsg0_ok inv.env s inv.buffer hok

def CoherentInv (inst : Instance P) : Prop := ∀ s, inst = .live s → Coherent s

theorem coherentInv_step {inst : Instance P} {inv : Invocation P}
    (hclean : inv.command = some .handleMsg0 → inv.env.faults .generateEcdhKeypair 0 ≠ none ∨
      HandleMsg0Works inv.env ∧ P.sizeofMsg0 ≤ P.bufSize inv.buffer)
    (hinv : CoherentInv inst) : CoherentInv (step inst inv).1 := by
  intro s' hlive
  obtain ⟨s, rfl, hcases⟩ := step_live hlive
  have hs := hinv s rfl
  rcases hcases with ⟨-, rfl⟩ | ⟨command, hcommand, hstate⟩
  · exact hs
  · by_cases hexchange : command = .handleMsg0
    · subst hexchange
      rcases exchange_step hcommand (hclean hcommand) hlive with rfl | ⟨hcoherent, -⟩
      · exact hs
      · exact hcoherent
    · rw [hstate]
      exact coherent_of_view (exchangeView_of_other hexchange) hs

theorem coherentInv_of_success {inst : Instance P} {inv : Invocation P}
    (hcommand : inv.command = some .handleMsg0) (hok : (step inst inv).2.result = none) :
    CoherentInv (step inst inv).1 := by
  intro s' hlive
  obtain ⟨s, rfl, hout⟩ := (result_handleMsg0 _ _ hcommand).mp hok
  simp only [step, invokeCommandEntryPoint, hcommand] at hlive
  rw [conclude_live hlive]
  exact coherent_of_handleMsg0_ok inv.env s inv.buffer hout

theorem keyCoherence_of_clean (s : Ctx P) (inputs : List (Invocation P))
    (hclean : ∀ t ∈ session s inputs, CleanExchange t) : KeyCoherence (session s inputs) := by
  have hstep : ∀ t ∈ session s inputs, CoherentInv t.before → CoherentInv t.after := by
    intro t ht hbefore
    rw [Run.after_eq ht]
    exact coherentInv_step (hclean t ht) hbefore
  refine ⟨fun history t rest hrun ⟨e, he, hreq, hok⟩ s' hafter => ?_,
    fun t ht hreq hfail s0 s' hbefore hafter => ?_⟩
  · -- the keys are coherent after the success, and stay so up to `t`
    have hmem : e ∈ session s inputs := by
      rw [hrun]
      rcases List.mem_append.mp he with he | he
      · exact List.mem_append_left _ he
      · exact List.mem_append_right _ (by rw [List.mem_singleton.mp he]; exact List.mem_cons_self)
    have hestablished : CoherentInv e.after := by
      have hcommand := command_of_result (Run.step_eq hmem) hreq hok
      rw [Run.output_eq hmem] at hok
      rw [Run.after_eq hmem]
      exact coherentInv_of_success hcommand hok
    rcases List.mem_append.mp he with he | he
    · obtain ⟨first, between, rfl⟩ := List.append_of_mem he
      have hsplit : session s inputs = first ++ e :: (between ++ t :: rest) := by
        rw [hrun, List.append_assoc, List.cons_append]
      have hlater := Run.invariant_since hsplit hestablished
        fun u hu => hstep u (by
          rw [hsplit]
          exact List.mem_append_right _ (List.mem_cons_of_mem _ hu))
      exact hlater t (by simp) s' hafter
    · rw [← List.mem_singleton.mp he] at hafter
      exact hestablished s' hafter
  · rw [Run.after_eq ht, hbefore] at hafter
    cases hcommand : t.input.command with
    | none =>
        simp only [step, invokeCommandEntryPoint, hcommand, Instance.live.injEq] at hafter
        rw [hafter]
    | some command =>
        obtain rfl : command = .handleMsg0 := by
          have hother := requests_of_command hcommand
          unfold Requests at hreq hother
          rw [hreq] at hother
          exact (Option.some.inj hother).symm
        rcases exchange_step hcommand (hclean t ht hcommand) hafter with rfl | ⟨-, hok⟩
        · rfl
        · rw [Run.output_eq ht, hbefore] at hfail
          exact absurd hok hfail

section Example

open Idealised Base.Symbolic

-- A good exchange, then a HANDLE_MSG_0 with a short buffer. The second call draws a new key.
def shortExchangeInputs : List (Invocation prims) :=
  [invoke .handleMsg0 1 [.pubX (.attacker 0), .pubY (.attacker 0)] 80,
    ⟨1, Command.expParamTypes .handleMsg0, ⟨[], 8⟩,
      calm (.honest verifierRole 1) (.honest verifierRole 0)⟩]

theorem keyCoherence_fails :
    Opened openedCtx ∧ ¬ KeyCoherence (session openedCtx shortExchangeInputs) := by
  refine ⟨opened_openedCtx, fun hcoherence => ?_⟩
  have hexchange : Requests .handleMsg0 ((session openedCtx shortExchangeInputs)[0]) := by
    unfold Requests
    rfl
  obtain ⟨env, key, shared, hkey, -, -, hshared, hmac, -⟩ :=
    hcoherence.coherent [(session openedCtx shortExchangeInputs)[0]] _ [] rfl
      ⟨_, by simp, hexchange, rfl⟩ _ rfl
  cases hkey
  cases hshared
  have hkeys : macKey (P := prims) (.dh s(.honest verifierRole 0, .attacker 0)) =
      macKey (P := prims) (.dh s(.honest verifierRole 1, .attacker 0)) := Obj.key.inj hmac
  exact absurd hkeys (by decide)

theorem keyCoherence_properInputs : KeyCoherence (session openedCtx properInputs) := by
  refine keyCoherence_of_clean openedCtx properInputs fun t ht hcommand => Or.inr ?_
  rcases List.mem_cons.mp ht with rfl | ht
  · have hcalm : (calm (.honest verifierRole 0) (.honest verifierRole 0)).NoFaults :=
      fun _ _ => rfl
    exact ⟨⟨hcalm.works _ _, hcalm.works _ _, hcalm.works _ _, hcalm.works _ _, hcalm.works _ _⟩,
      by decide⟩
  · obtain rfl := List.mem_singleton.mp ht
    cases hcommand

end Example

end Watz.Verifier
