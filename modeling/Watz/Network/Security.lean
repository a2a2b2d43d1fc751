import Watz.Network.Run

namespace Watz.Network

open Base Base.Symbolic Idealised

-- One exchange between an attester run that pins the key of the session and a verifier run.
namespace Sample

def ga : Name := .honest attesterRole 0
def gv : Name := .honest verifierRole 0
def shared : Term := .dh s(gv, ga)

def env (key : Name) (wire : Buf) : Env prims := { calm key (serviceKey 0) with wire := wire }

def request (command : Verifier.Command) (cmdId : Nat) (fields : List Term) (size : Nat) :
    Verifier.Invocation prims :=
  ⟨cmdId, command.expParamTypes, ⟨fields, size⟩, calm gv (serviceKey 0)⟩

def pin : Attester.Pin prims := ⟨Term.vkX (serviceKey 0), 32, Term.vkY (serviceKey 0), 32⟩

def signature : Term :=
  .sig (serviceKey 0) (.hash (.tuple [.pubX gv, .pubY gv, .pubX ga, .pubY ga]))

def msg1 : List Term :=
  [.pubX gv, .pubY gv, .vkX (serviceKey 0), .vkY (serviceKey 0), signature,
    .mac (macKeyOf shared) (.tuple [.pubX gv, .pubY gv, .vkX (serviceKey 0), .vkY (serviceKey 0),
      signature])]

def fields : List Term :=
  [.hash (.tuple [.pubX ga, .pubY ga, .pubX gv, .pubY gv]), .const [1], .const [2], .const [3]]

def quote : Quote :=
  ⟨.hash (.tuple [.pubX ga, .pubY ga, .pubX gv, .pubY gv]), .const [1], .const [2], .const [3],
    .sig attestationKey (.hash (.tuple fields))⟩

def msg2 : List Term :=
  [.pubX ga, .pubY ga] ++ quoteFields quote ++
    [.mac (macKeyOf shared) (.tuple [.pubX ga, .pubY ga, .tuple (quoteFields quote)])]

def msg3 : List Term :=
  [blank, .tag (sessionKeyOf shared) blank (.secret 0), .enc (sessionKeyOf shared) blank (.secret 0)]

-- The attacker passes every message on.
def action : Nat → Action
  | 0 => .openSession 0 (calm gv (serviceKey 0)) (request .bootstrapSecret 0 [.secret 0] 8)
  | 1 => .startHandshake 0 pin (env ga ⟨[], 0⟩)
  | 2 => .invoke 0 (request .handleMsg0 1 [.pubX ga, .pubY ga] 80)
  | 3 => .invoke 0 (request .prepareMsg1 2 [] 240)
  | 4 => .finishHandshake 0 32 (env ga ⟨msg1, 240⟩)
  | 5 => .collectQuote 0 quote
  | 6 => .sendQuote 0 quote (env ga ⟨[], 0⟩)
  | 7 => .invoke 0 (request .handleMsg2 3 msg2 296)
  | 8 => .invoke 0 (request .prepareMsg3 4 [] 110)
  | _ => .receiveData 0 64 (env ga ⟨msg3, 110⟩)

def state : Nat → State
  | 0 => init
  | n + 1 => apply (state n) (action n)

theorem delivers {n size : Nat} {fields : List Term} (h : ∀ t ∈ fields, t ∈ (state n).known) :
    (state n).Delivers ⟨fields, size⟩ :=
  fun t ht => .known (h t ht)

theorem reachable_state : Reachable (state 10) := by
  have hopened : Reachable (state 1) :=
    Reachable.init.step (action 0) ⟨rfl, ⟨0, rfl⟩, rfl, rfl, ⟨0, rfl⟩, rfl⟩
  have hstarted : Reachable (state 2) := hopened.step (action 1) ⟨rfl, 0, rfl⟩
  have hmsg0 : Reachable (state 3) :=
    hstarted.step (action 2) ⟨⟨_, rfl, rfl⟩, ⟨0, rfl⟩, delivers (by decide), .const []⟩
  have hmsg1 : Reachable (state 4) :=
    hmsg0.step (action 3) ⟨⟨_, rfl, rfl⟩, ⟨0, rfl⟩, delivers (by decide), .const []⟩
  have hanchored : Reachable (state 5) := hmsg1.step (action 4) ⟨rfl, delivers (by decide)⟩
  have hquoted : Reachable (state 6) :=
    hanchored.step (action 5) ⟨by decide +kernel, rfl, .const [1], .const [2], .const [3]⟩
  have hsent : Reachable (state 7) :=
    hquoted.step (action 6) ⟨by decide +kernel, by decide +kernel, rfl, List.mem_cons_self⟩
  have hmsg2 : Reachable (state 8) :=
    hsent.step (action 7) ⟨⟨_, rfl, rfl⟩, ⟨0, rfl⟩, delivers (by decide), .const []⟩
  have hmsg3 : Reachable (state 9) :=
    hmsg2.step (action 8) ⟨⟨_, rfl, rfl⟩, ⟨0, rfl⟩, delivers (by decide), .const []⟩
  exact hmsg3.step (action 9) ⟨rfl, delivers (by decide)⟩

end Sample

variable {σ : State}

-- A verifier run that has sent `msg3` shares its keys with an attester run that returned the
-- anchor of both public keys, and neither the session key nor the secret can be computed.
theorem verifier_agreement_and_secrecy (h : Reachable σ) {j : Nat}
    (hcompleted : (σ.verifiers j).position = .completed) :
    ∃ s km ks, (σ.verifiers j).inst = .live s ∧
      s.sharedMacKey = .key km ∧ s.sharedSessionKey = .key ks ∧
      (∃ i, (σ.attesters i).ctx.msg0 = s.msg0 ∧
        (σ.attesters i).ctx.msg1.ecdhX = s.msg1.ecdhX ∧
        (σ.attesters i).ctx.msg1.ecdhY = s.msg1.ecdhY ∧
        (σ.attesters i).anchor = some (prims.sha256 [s.msg0.ecdhX, s.msg0.ecdhY, s.msg1.ecdhX,
          s.msg1.ecdhY]) ∧
        (σ.attesters i).ctx.sharedMacKey = .key km ∧
        (σ.attesters i).ctx.sharedSessionKey = .key ks) ∧
      ¬ σ.Knows ks ∧ ¬ σ.Knows s.secret := by
  have hinv := inv_of_reachable h
  obtain ⟨s, hs, hprovisioned, hexchanged, hattested⟩ := hinv.completed_session hcompleted
  obtain ⟨i, n, m, hpaired⟩ := hinv.paired hexchanged hattested
  refine ⟨s, _, _, hs, hpaired.verifierMac, hpaired.verifierSession, ⟨i, hpaired.msg0,
    hpaired.msg1X, hpaired.msg1Y, hpaired.anchored, hpaired.attesterMac,
    hpaired.attesterSession⟩, ?_, ?_⟩
  · intro hknows
    exact not_safe_sessionKeyOf id id (hinv.safe hknows)
  · obtain ⟨index, hsecret⟩ := hprovisioned.secret
    rw [hsecret]
    intro hknows
    exact not_safe_secret index (hinv.safe hknows)

namespace Sample

theorem verifier_completed : ((state 10).verifiers 0).position = .completed ∧
    ∃ s km ks, ((state 10).verifiers 0).inst = .live s ∧
      s.sharedMacKey = .key km ∧ s.sharedSessionKey = .key ks ∧
      (∃ i, ((state 10).attesters i).ctx.msg0 = s.msg0 ∧
        ((state 10).attesters i).ctx.msg1.ecdhX = s.msg1.ecdhX ∧
        ((state 10).attesters i).ctx.msg1.ecdhY = s.msg1.ecdhY ∧
        ((state 10).attesters i).anchor = some (prims.sha256 [s.msg0.ecdhX, s.msg0.ecdhY,
          s.msg1.ecdhX, s.msg1.ecdhY]) ∧
        ((state 10).attesters i).ctx.sharedMacKey = .key km ∧
        ((state 10).attesters i).ctx.sharedSessionKey = .key ks) ∧
      ¬ (state 10).Knows ks ∧ ¬ (state 10).Knows s.secret := by
  have hcompleted : ((state 10).verifiers 0).position = .completed := by decide +kernel
  exact ⟨hcompleted, verifier_agreement_and_secrecy reachable_state hcompleted⟩

end Sample

-- The holder of a key has signed these fields. Of an honest holder it is on record, and the
-- attacker has the signature itself.
def State.HolderSigned (σ : State) (key : Name) (message : List Term) : Prop :=
  ⟨key, message⟩ ∈ σ.signatures ∨
    key.isAttacker ∧ σ.Knows (.sig key (prims.sha256 message))

theorem Inv.holderSigned (h : Inv σ) {key : Name} {message : List Term}
    (hknows : σ.Knows (.sig key (.hash (.tuple message)))) : σ.HolderSigned key message := by
  obtain ⟨-, hattacker | ⟨g, hg, rfl, hdigest⟩⟩ := h.safe hknows
  · exact Or.inr ⟨hattacker, hknows⟩
  · left
    have hmessage : message = g.message := Term.tuple_injective (Term.hash.inj hdigest)
    rw [hmessage]
    exact hg

-- A key that a verifier session has signed belongs to a verifier run.
theorem Inv.verifier_of_signed (h : Inv σ) {m : Nat} {gvX gvY : Term} {rest : List Term}
    (hsigned : ⟨serviceKey m, gvX :: gvY :: rest⟩ ∈ σ.signatures) :
    ∃ n, gvX = .pubX (.honest verifierRole n) ∧ gvY = .pubY (.honest verifierRole n) := by
  rcases (h.signatures _ hsigned).maker with ⟨-, n, rest', -, hmessage⟩ | ⟨hkey, -⟩
  · simp only [List.cons.injEq] at hmessage
    exact ⟨n, hmessage.1, hmessage.2.1⟩
  · cases hkey

-- Two completed exchanges with the same session key are between the same two parties.
theorem scalars_eq_of_sessionKeyOf_eq {a v a' v' : Nat}
    (h : sessionKeyOf (.dh s(.honest verifierRole v', .honest attesterRole a')) =
      sessionKeyOf (.dh s(.honest attesterRole a, .honest verifierRole v))) :
    a' = a ∧ v' = v := by
  have hscalars := Term.dh.inj (sessionKeyOf_injective h)
  rcases Sym2.eq_iff.mp hscalars with ⟨hrole, -⟩ | ⟨hv, ha⟩
  · cases hrole
  · cases hv
    cases ha
    exact ⟨rfl, rfl⟩

-- What an attester run that shares its keys with a verifier decrypts was encrypted by one.
theorem Inv.released_of_data (h : Inv σ) {i n m : Nat}
    (hmsg0 : (σ.attesters i).ctx.msg0 =
      ⟨Term.pubX (.honest attesterRole n), Term.pubY (.honest attesterRole n)⟩)
    (hgvX : (σ.attesters i).ctx.msg1.ecdhX = Term.pubX (.honest verifierRole m))
    (hgvY : (σ.attesters i).ctx.msg1.ecdhY = Term.pubY (.honest verifierRole m))
    (hsession : (σ.attesters i).ctx.sharedSessionKey =
      .key (sessionKeyOf (.dh s(.honest attesterRole n, .honest verifierRole m))))
    {d : Term} (hd : (σ.attesters i).data = some d) :
    ∃ j s, (σ.verifiers j).position = .completed ∧ (σ.verifiers j).inst = .live s ∧
      s.msg0 = (σ.attesters i).ctx.msg0 ∧
      s.msg1.ecdhX = (σ.attesters i).ctx.msg1.ecdhX ∧
      s.msg1.ecdhY = (σ.attesters i).ctx.msg1.ecdhY ∧ s.secret = d := by
  obtain ⟨key, iv, hkey, hsafe⟩ := (h.attesters i).data d hd
  rw [hsession] at hkey
  cases hkey
  rcases hsafe with ⟨hopen, -⟩ | ⟨j, s, hj, hsealed, hsecret⟩
  · exact absurd hopen (not_safe_sessionKeyOf id id)
  · have hcompleted : (σ.verifiers j).position = .completed := by rw [hj]
    obtain ⟨s', hs', -, hexchanged, hattested⟩ := h.completed_session hcompleted
    rw [hj] at hs'
    cases hs'
    obtain ⟨i', n', m', hpaired⟩ := h.paired hexchanged hattested
    obtain ⟨rfl, rfl⟩ := scalars_eq_of_sessionKeyOf_eq
      (Obj.key.inj (hpaired.verifierSession.symm.trans hsealed))
    refine ⟨j, s, hcompleted, by rw [hj], hpaired.ga.trans hmsg0.symm, hpaired.gvX.trans hgvX.symm,
      hpaired.gvY.trans hgvY.symm, hsecret⟩

-- An attester run with a pinned key that has returned an anchor met the holder of that key,
-- and the data it returns is the secret of a verifier run with the same two public keys.
theorem attester_authentication (h : Reachable σ) {i : Nat}
    (hpin : (σ.attesters i).pin.xSize = RA_ECDSA_KEY_SIZE / 8 ∧
      (σ.attesters i).pin.ySize = RA_ECDSA_KEY_SIZE / 8)
    {anchor : Term} (hanchor : (σ.attesters i).anchor = some anchor) :
    anchor = prims.sha256 [(σ.attesters i).ctx.msg0.ecdhX, (σ.attesters i).ctx.msg0.ecdhY,
      (σ.attesters i).ctx.msg1.ecdhX, (σ.attesters i).ctx.msg1.ecdhY] ∧
    ∃ key, (σ.attesters i).pin.x = Term.vkX key ∧ (σ.attesters i).pin.y = Term.vkY key ∧
      σ.HolderSigned key [(σ.attesters i).ctx.msg1.ecdhX, (σ.attesters i).ctx.msg1.ecdhY,
        (σ.attesters i).ctx.msg0.ecdhX, (σ.attesters i).ctx.msg0.ecdhY] ∧
      ∀ m, key = serviceKey m → ∀ d, (σ.attesters i).data = some d →
        ∃ j s, (σ.verifiers j).position = .completed ∧ (σ.verifiers j).inst = .live s ∧
          s.msg0 = (σ.attesters i).ctx.msg0 ∧
          s.msg1.ecdhX = (σ.attesters i).ctx.msg1.ecdhX ∧
          s.msg1.ecdhY = (σ.attesters i).ctx.msg1.ecdhY ∧ s.secret = d := by
  have hinv := inv_of_reachable h
  obtain ⟨⟨n, shared, hmsg0, hagreed, -, hsession⟩, hvalue, -, hpinned⟩ :=
    (hinv.attesters i).bound anchor hanchor
  have hnonempty : ¬ ((σ.attesters i).pin.xSize = 0 ∧ (σ.attesters i).pin.ySize = 0) := by
    rw [hpin.1]
    simp [RA_ECDSA_KEY_SIZE]
  obtain ⟨key, hx, hy, hknows⟩ := hpinned hnonempty
  have hsigned := hinv.holderSigned hknows
  refine ⟨hvalue, key, hx, hy, hsigned, ?_⟩
  rintro m rfl d hd
  rcases hsigned with hrecord | ⟨hattacker, -⟩
  · obtain ⟨v, hgvX, hgvY⟩ := hinv.verifier_of_signed hrecord
    rw [hgvX, hgvY] at hagreed
    simp only [ecdh, if_true, Option.some.injEq] at hagreed
    subst hagreed
    exact hinv.released_of_data hmsg0 hgvX hgvY hsession hd
  · exact absurd hattacker id

namespace Sample

theorem attester_authenticated : ((state 10).attesters 0).data = some (.secret 0) ∧
    ∃ j s, ((state 10).verifiers j).position = .completed ∧
      ((state 10).verifiers j).inst = .live s ∧ s.secret = Term.secret 0 := by
  have hdata : ((state 10).attesters 0).data = some (.secret 0) := by decide +kernel
  have hanchor : ((state 10).attesters 0).anchor = some quote.anchor := by decide +kernel
  have hpin : ((state 10).attesters 0).pin = pin := rfl
  have hsizes : ((state 10).attesters 0).pin.xSize = RA_ECDSA_KEY_SIZE / 8 ∧
      ((state 10).attesters 0).pin.ySize = RA_ECDSA_KEY_SIZE / 8 := by
    rw [hpin]
    exact ⟨rfl, rfl⟩
  obtain ⟨-, key, hx, -, -, hreleased⟩ := attester_authentication reachable_state hsizes hanchor
  have hkey : key = serviceKey 0 := by
    rw [hpin] at hx
    exact (Term.vkX.inj hx).symm
  obtain ⟨j, s, hcompleted, hs, -, -, -, hsecret⟩ := hreleased 0 hkey _ hdata
  exact ⟨hdata, j, s, hcompleted, hs, hsecret⟩

end Sample

end Watz.Network
