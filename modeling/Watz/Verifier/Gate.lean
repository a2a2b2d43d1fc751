import Watz.Verifier.Lemmas
import Watz.Idealised

namespace Watz.Verifier

open Base Tee

variable {P : Prims}

-- The step calls the entry point with the identifier of this command.
def Requests (command : Command) (t : SessionStep P) : Prop :=
  Command.ofId t.input.cmdId = some command

-- The last HANDLE_MSG_0 or HANDLE_MSG_2 of a history is a HANDLE_MSG_2 with this property.
def LastExchange (accepted : SessionStep P → Prop) (history : List (SessionStep P)) : Prop :=
  ∃ earlier e between, history = earlier ++ e :: between ∧ Requests .handleMsg2 e ∧ accepted e ∧
    ∀ u ∈ between, ¬ Requests .handleMsg2 u ∧ ¬ Requests .handleMsg0 u

-- No PREPARE_MSG_3 succeeds unless the most recent HANDLE_MSG_2 before it did, and no
-- HANDLE_MSG_0 came between the two.
def ReleaseGate (run : List (SessionStep P)) : Prop :=
  ∀ history t rest, run = history ++ t :: rest → Requests .prepareMsg3 t →
    t.output.result = none → LastExchange (fun e => e.output.result = none) history

-- `is_quote_valid` has been made the gate that it is meant to be: a PREPARE_MSG_3 that can put the
-- secret into the buffer finds it set, a HANDLE_MSG_0 and a rejected HANDLE_MSG_2 find it cleared,
-- and no HANDLE_MSG_2 sets it for a quote with another anchor.
structure KeepsGate (t : SessionStep P) : Prop where
  release : ∀ s, t.before = .live s → t.input.command = some .prepareMsg3 →
    Releasable t.input.env t.input.buffer s → s.isQuoteValid = true
  exchange : ∀ s, t.before = .live s → Requests .handleMsg0 t → s.isQuoteValid = false
  rejected : ∀ s, t.before = .live s → Requests .handleMsg2 t → t.input.command = none →
    s.isQuoteValid = false
  anchor : ∀ s, t.before = .live s → t.input.command = some .handleMsg2 →
    P.sizeofMsg2 ≤ P.bufSize t.input.buffer → Vetted t.input.env (received t.input.buffer s) →
    t.input.env.Works .verifyAnchor 2 ∧ AnchorPassed t.input.env (received t.input.buffer s)

theorem requests_of_command {t : SessionStep P} {command : Command}
    (h : t.input.command = some command) : Requests command t := by
  unfold Invocation.command at h
  exact (Option.filter_eq_some_iff.mp h).1

-- A step that succeeds had the parameter types of its command.
theorem command_of_result {t : SessionStep P} (ht : t = Run.one step t.before t.input)
    {command : Command} (hreq : Requests command t) (hok : t.output.result = none) :
    t.input.command = some command := by
  cases hc : t.input.command with
  | none =>
      rw [ht] at hok
      exact absurd hok (result_rejected _ _ hc)
  | some other =>
      have hother := requests_of_command hc
      unfold Requests at hreq hother
      rw [← hother, hreq]

theorem handleMsg0_flag (env : Env P) (s : Ctx P) (buffer : P.Buf) :
    (handleMsg0 buffer env s).state.isQuoteValid = s.isQuoteValid :=
  (keeps_handleMsg0 buffer).map (fun view => view.2.2.2.1) (fun _ => rfl) env s

def Succeeded (e : SessionStep P) : Prop := e.output.result = none

theorem LastExchange.of_accepted {history : List (SessionStep P)} {e : SessionStep P}
    (hreq : Requests .handleMsg2 e) (hok : Succeeded e) :
    LastExchange Succeeded (history ++ [e]) :=
  ⟨history, e, [], rfl, hreq, hok, by simp⟩

theorem LastExchange.extend {history : List (SessionStep P)} {t : SessionStep P}
    (h : LastExchange Succeeded history) (hmsg2 : ¬ Requests .handleMsg2 t)
    (hmsg0 : ¬ Requests .handleMsg0 t) : LastExchange Succeeded (history ++ [t]) := by
  obtain ⟨earlier, e, between, rfl, hreq, hok, hnone⟩ := h
  refine ⟨earlier, e, between ++ [t], by simp, hreq, hok, fun u hu => ?_⟩
  rcases List.mem_append.mp hu with hu | hu
  · exact hnone u hu
  · obtain rfl := List.mem_singleton.mp hu
    exact ⟨hmsg2, hmsg0⟩

-- A set flag stands for the last message of the exchange.
def GateInv (history : List (SessionStep P)) (inst : Instance P) : Prop :=
  ∀ s, inst = .live s → s.isQuoteValid = true → LastExchange Succeeded history

-- A HANDLE_MSG_2 that leaves the flag set has succeeded.
theorem handleMsg2_gate {t : SessionStep P} (ht : t = Run.one step t.before t.input)
    (hkeeps : KeepsGate t) {s : Ctx P} (hbefore : t.before = .live s)
    (hcommand : t.input.command = some .handleMsg2)
    (hflag : (handleMsg2 t.input.buffer t.input.env s).state.isQuoteValid = true) :
    Succeeded t := by
  by_cases hvetted : P.sizeofMsg2 ≤ P.bufSize t.input.buffer ∧
      Vetted t.input.env (received t.input.buffer s)
  · obtain ⟨hsize, hv⟩ := hvetted
    obtain ⟨hworks, hanchor⟩ := hkeeps.anchor s hbefore hcommand hsize hv
    rw [Succeeded, ht]
    exact (result_handleMsg2 _ _ hcommand).mpr ⟨s, hbefore, hsize, hv, hworks, hanchor⟩
  · rw [(handleMsg2_not_vetted _ s _ hvetted).2] at hflag
    cases hflag

theorem gateInv_step {history : List (SessionStep P)} {t : SessionStep P}
    (ht : t = Run.one step t.before t.input) (hkeeps : KeepsGate t)
    (hinv : GateInv history t.before) : GateInv (history ++ [t]) t.after := by
  intro s' hlive hflag
  rw [ht] at hlive
  obtain ⟨s, hbefore, hcases⟩ := step_live hlive
  have hsame : ∀ command, Requests command t → command ≠ .handleMsg0 → command ≠ .handleMsg2 →
      s.isQuoteValid = true → LastExchange Succeeded (history ++ [t]) := by
    intro command hreq hne0 hne2 hset
    refine (hinv s hbefore hset).extend (fun h => hne2 ?_) (fun h => hne0 ?_)
    · exact Option.some.inj (hreq.symm.trans h)
    · exact Option.some.inj (hreq.symm.trans h)
  rcases hcases with ⟨hnone, rfl⟩ | ⟨command, hcommand, rfl⟩
  · -- a rejected invocation changes nothing
    refine (hinv s' hbefore hflag).extend (fun hreq => ?_) (fun hreq => ?_)
    · rw [hkeeps.rejected s' hbefore hreq hnone] at hflag
      cases hflag
    · rw [hkeeps.exchange s' hbefore hreq] at hflag
      cases hflag
  · have hreq := requests_of_command hcommand
    cases command with
    | bootstrapSecret =>
        have hkept : (commandState t.input s .bootstrapSecret).isQuoteValid = s.isQuoteValid :=
          (keeps_configureCustomSecret _).map Ctx.isQuoteValid (fun _ => rfl) _ s
        exact hsame _ hreq (by decide) (by decide) (hkept.symm.trans hflag)
    | handleMsg0 =>
        have hkept : (commandState t.input s .handleMsg0).isQuoteValid = s.isQuoteValid :=
          handleMsg0_flag _ s _
        rw [hkept, hkeeps.exchange s hbefore hreq] at hflag
        cases hflag
    | prepareMsg1 =>
        have hkept : (commandState t.input s .prepareMsg1).isQuoteValid = s.isQuoteValid :=
          (keeps_prepareMsg1 _).map Ctx.isQuoteValid (fun _ => rfl) _ s
        exact hsame _ hreq (by decide) (by decide) (hkept.symm.trans hflag)
    | handleMsg2 => exact .of_accepted hreq (handleMsg2_gate ht hkeeps hbefore hcommand hflag)
    | prepareMsg3 => exact hsame _ hreq (by decide) (by decide) hflag

-- `prepare_msg3` does not look at the flag, so the gate is the callers' to keep: where every step
-- does so, no secret is released but after a `msg2` that was accepted in this exchange.
theorem releaseGate_of_keepsGate {s : Ctx P} (hopened : Opened s) (inputs : List (Invocation P))
    (hkeeps : ∀ t ∈ session s inputs, KeepsGate t) : ReleaseGate (session s inputs) := by
  have hstart : GateInv [] (.live s) := by
    intro s0 h0 hflag
    obtain rfl := Instance.live.inj h0
    obtain ⟨key, rfl⟩ := opened_eq hopened
    cases hflag
  intro history t rest hrun hreq hok
  have ht : t ∈ session s inputs := by
    rw [hrun]
    simp
  have hcommand := command_of_result (Run.step_eq ht) hreq hok
  have hresult : (step t.before t.input).2.result = none := by
    rw [← Run.output_eq ht]
    exact hok
  obtain ⟨s', hbefore, hreleasable⟩ := (result_prepareMsg3 _ _ hcommand).mp hresult
  exact Run.invariant_history hstart
    (fun past u hu => gateInv_step (Run.step_eq hu) (hkeeps u hu)) history t rest hrun s' hbefore
    ((hkeeps t ht).release s' hbefore hcommand hreleasable)

section Example

open Idealised Base.Symbolic

-- A session of an honest verifier, opened without incident.
def openedCtx : Ctx prims :=
  (openSessionEntryPoint 0 (calm (.honest verifierRole 0) (.honest verifierRole 0))
    (Ctx.zero prims)).state

theorem opened_openedCtx : Opened openedCtx :=
  ⟨0, calm (.honest verifierRole 0) (.honest verifierRole 0), rfl, rfl⟩

def invoke (command : Command) (cmdId : Nat) (fields : List Term) (size : Nat) :
    Invocation prims :=
  ⟨cmdId, command.expParamTypes, ⟨fields, size⟩,
    calm (.honest verifierRole 0) (.honest verifierRole 0)⟩

-- The secret, a key exchange with the attacker's own key, and at once PREPARE_MSG_3.
def hastyInputs : List (Invocation prims) :=
  [invoke .bootstrapSecret 0 [.secret 0] 8,
    invoke .handleMsg0 1 [.pubX (.attacker 0), .pubY (.attacker 0)] 80,
    invoke .prepareMsg3 4 [] 80]

theorem releaseGate_fails : Opened openedCtx ∧ ¬ ReleaseGate (session openedCtx hastyInputs) := by
  refine ⟨opened_openedCtx, fun hgate => ?_⟩
  have hrequests : Requests .prepareMsg3 ((session openedCtx hastyInputs)[2]) := by
    unfold Requests
    rfl
  obtain ⟨earlier, e, between, hhistory, hreq, -, -⟩ :=
    hgate ((session openedCtx hastyInputs).take 2) _ [] rfl hrequests rfl
  have he : e ∈ session openedCtx hastyInputs := List.mem_of_mem_take (by rw [hhistory]; simp)
  have hinput := Run.input_mem he
  simp only [hastyInputs, List.mem_cons, List.not_mem_nil, or_false] at hinput
  unfold Requests at hreq
  rcases hinput with h | h | h <;> rw [h] at hreq <;> cases hreq

-- The shared secret of the honest verifier and the attacker's key.
def attackerShared : Term := .dh s(.honest verifierRole 0, .attacker 0)

-- A quote that the attestation service signed for this anchor.
def signedQuote (anchor : Term) : Quote :=
  let version := Term.const [1]
  let claimHash := Term.const [2]
  let key := Term.const [3]
  ⟨anchor, version, claimHash, key,
    .sig attestationKey (.hash (.tuple [anchor, version, claimHash, key]))⟩

-- The `msg2` that the owner of the attacker's key builds around a quote.
def attackerMsg2 (quote : Quote) : List Term :=
  let x := Term.pubX (.attacker 0)
  let y := Term.pubY (.attacker 0)
  [x, y, quote.anchor, quote.version, quote.claimHash, quote.attestationKey, quote.signature,
    .mac (macKey (P := prims) attackerShared) (.tuple [x, y, prims.quoteBytes quote])]

-- A key exchange, then a signed quote for the anchor of this session.
def properInputs : List (Invocation prims) :=
  [invoke .handleMsg0 1 [.pubX (.attacker 0), .pubY (.attacker 0)] 80,
    invoke .handleMsg2 3 (attackerMsg2 (signedQuote (.hash (.tuple [.pubX (.attacker 0),
      .pubY (.attacker 0), .pubX (.honest verifierRole 0), .pubY (.honest verifierRole 0)])))) 296]

-- The secret comes first, and the release last.
def releasingInputs : List (Invocation prims) :=
  invoke .bootstrapSecret 0 [.secret 0] 8 :: properInputs ++ [invoke .prepareMsg3 4 [] 80]

theorem releasingInputs_keepsGate : ∀ t ∈ session openedCtx releasingInputs, KeepsGate t := by
  intro t ht
  have hcases : t = (session openedCtx releasingInputs)[0] ∨
      t = (session openedCtx releasingInputs)[1] ∨
      t = (session openedCtx releasingInputs)[2] ∨
      t = (session openedCtx releasingInputs)[3] := by
    simpa [releasingInputs, properInputs, session, Run.steps] using ht
  rcases hcases with rfl | rfl | rfl | rfl
  · exact ⟨fun s _ hc => (by cases hc), fun s _ hreq => (by cases hreq),
      fun s _ hreq => (by cases hreq), fun s _ hc => (by cases hc)⟩
  · refine ⟨fun s _ hc => (by cases hc), fun s hs _ => ?_, fun s _ hreq => (by cases hreq),
      fun s _ hc => (by cases hc)⟩
    obtain rfl := Instance.live.inj hs
    rfl
  · refine ⟨fun s _ hc => (by cases hc), fun s _ hreq => (by cases hreq),
      fun s _ _ hc => (by cases hc), fun s hs _ _ _ => ⟨fun _ _ => rfl, ?_⟩⟩
    obtain rfl := Instance.live.inj hs
    unfold AnchorPassed
    rfl
  · refine ⟨fun s hs _ _ => ?_, fun s _ hreq => (by cases hreq), fun s _ hreq => (by cases hreq),
      fun s _ hc => (by cases hc)⟩
    obtain rfl := Instance.live.inj hs
    rfl

theorem releaseGate_releasingInputs : ReleaseGate (session openedCtx releasingInputs) ∧
    ((session openedCtx releasingInputs)[3]).output.result = none :=
  ⟨releaseGate_of_keepsGate opened_openedCtx releasingInputs releasingInputs_keepsGate, rfl⟩

end Example

end Watz.Verifier
