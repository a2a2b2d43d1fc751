import Mathlib.Data.List.GetD
import Watz.Attester.Lemmas
import Watz.Network
import Watz.Verifier.Lemmas

namespace Watz.Network

open Base Base.Symbolic Idealised

section Keys

-- The keys that both sides derive from a shared value.
def kdkOf (shared : Term) : Term := .mac (.const cmacZeroKey) (.tuple [shared])

def macKeyOf (shared : Term) : Term :=
  .mac (kdkOf shared) (.tuple [.const RA_SHARED_MAC_DATA])

def sessionKeyOf (shared : Term) : Term :=
  .mac (kdkOf shared) (.tuple [.const RA_SHARED_SESSION_DATA])

theorem verifier_macKey (shared : Term) :
    Verifier.macKey (P := prims) shared = macKeyOf shared := rfl

theorem verifier_sessionKey (shared : Term) :
    Verifier.sessionKey (P := prims) shared = sessionKeyOf shared := rfl

theorem attester_macKey (shared : Term) :
    Attester.macKey (P := prims) shared = macKeyOf shared := rfl

theorem attester_sessionKey (shared : Term) :
    Attester.sessionKey (P := prims) shared = sessionKeyOf shared := rfl

theorem sessionKeyOf_injective : Function.Injective sessionKeyOf := by
  intro a b h
  simpa [sessionKeyOf, kdkOf] using h

-- A digest of two public keys determines both.
theorem digest_inj {a b c d a' b' c' d' : Term} :
    Term.hash (.tuple [a, b, c, d]) = .hash (.tuple [a', b', c', d']) ↔
      a = a' ∧ b = b' ∧ c = c' ∧ d = d' := by
  simp

theorem verify_eq_true {x y digest signature : Term} (h : verify x y digest signature = true) :
    ∃ k, x = .vkX k ∧ y = .vkY k ∧ signature = .sig k digest := by
  unfold verify at h
  split at h
  · simp only [decide_eq_true_eq] at h
    obtain ⟨rfl, rfl, rfl⟩ := h
    exact ⟨_, rfl, rfl, rfl⟩
  · cases h

theorem recvMsg1_eq_some {wire : Buf} {msg1 : Msg1 Term Term}
    (h : prims.recvMsg1 wire = some msg1) :
    msg1 = ⟨wire.field 0, wire.field 1, wire.field 2, wire.field 3, wire.field 4,
      wire.field 5⟩ := by
  simp only [prims] at h
  split at h
  · cases h
  · exact (Option.some.inj h).symm

theorem rawEq_iff {v c : Term} : prims.rawEq v c = true ↔ v = c := decide_eq_true_iff

theorem gcmDecrypt_eq_some {key iv content tag data : Term}
    (h : gcmDecrypt key iv content tag = some data) : content = .enc key iv data := by
  unfold gcmDecrypt at h
  split at h
  · split at h
    case isTrue hmatch =>
      obtain ⟨rfl, rfl, -⟩ := hmatch
      cases h
      rfl
    case isFalse => cases h
  · cases h

theorem kdkOf_ne_macKeyOf (a b : Term) : kdkOf a ≠ macKeyOf b := by
  simp [kdkOf, macKeyOf]

end Keys

section Facts

-- What may be on the network: tags under the MAC keys of the parties, the signatures that
-- were made, and the secret under the session key of a run that is over.
def policy (σ : State) : Policy where
  tagKey k := ∃ shared, k = macKeyOf shared
  signed k t := ∃ g ∈ σ.signatures, g.key = k ∧ t = .hash (.tuple g.message)
  sealed k _ t := ∃ j s, σ.verifiers j = ⟨.completed, .live s⟩ ∧ s.sharedSessionKey = .key k ∧
    s.secret = t

-- An attester run that has returned this anchor.
structure Bound (σ : State) (run : AttesterRun) (anchor : Term) : Prop where
  agreed : ∃ n shared,
    run.ctx.msg0 = ⟨Term.pubX (.honest attesterRole n), Term.pubY (.honest attesterRole n)⟩ ∧
    ecdh (.honest attesterRole n) run.ctx.msg1.ecdhX run.ctx.msg1.ecdhY = some shared ∧
    run.ctx.sharedMacKey = .key (macKeyOf shared) ∧
    run.ctx.sharedSessionKey = .key (sessionKeyOf shared)
  anchor_eq : anchor = .hash (.tuple [run.ctx.msg0.ecdhX, run.ctx.msg0.ecdhY,
    run.ctx.msg1.ecdhX, run.ctx.msg1.ecdhY])
  safe : Safe (policy σ) anchor
  pinned : ¬ (run.pin.xSize = 0 ∧ run.pin.ySize = 0) →
    ∃ k, run.pin.x = Term.vkX k ∧ run.pin.y = Term.vkY k ∧
      σ.Knows (.sig k (.hash (.tuple [run.ctx.msg1.ecdhX, run.ctx.msg1.ecdhY,
        run.ctx.msg0.ecdhX, run.ctx.msg0.ecdhY])))

structure AttesterOk (σ : State) (run : AttesterRun) : Prop where
  early : run.stage = .idle ∨ run.stage = .handshaking → run.anchor = none ∧ run.data = none
  started : run.stage = .handshaking →
    ∃ n, run.ctx = Attester.started (P := prims) (Name.honest attesterRole n)
  bound : ∀ anchor, run.anchor = some anchor → Bound σ run anchor
  untagged : run.stage = .anchored → run.ctx.msg2.mac = blank
  data : ∀ d, run.data = some d →
    ∃ key iv, run.ctx.sharedSessionKey = .key key ∧ Safe (policy σ) (.enc key iv d)

-- A session whose keys and secret are in place.
structure Provisioned (s : Verifier.Ctx prims) : Prop where
  service : ∃ m, s.ecdsaLocalKeypair = .key (serviceKey m) ∧
    s.msg1.ecdsaX = Term.vkX (serviceKey m) ∧ s.msg1.ecdsaY = Term.vkY (serviceKey m)
  attestation : s.ecdsaAttesterPublicKey = .key (Term.vkX attestationKey, Term.vkY attestationKey)
  secret : ∃ n, s.secret = Term.secret n

-- A verifier run that has processed `msg0`.
structure Exchanged (σ : State) (s : Verifier.Ctx prims) : Prop where
  agreed : ∃ n shared,
    s.msg1.ecdhX = Term.pubX (.honest verifierRole n) ∧
    s.msg1.ecdhY = Term.pubY (.honest verifierRole n) ∧
    ecdh (.honest verifierRole n) s.msg0.ecdhX s.msg0.ecdhY = some shared ∧
    s.sharedMacKey = .key (macKeyOf shared) ∧
    s.sharedSessionKey = .key (sessionKeyOf shared)
  safeX : Safe (policy σ) s.msg0.ecdhX
  safeY : Safe (policy σ) s.msg0.ecdhY

-- Some attester run has returned the anchor of the keys of this verifier run.
def Attested (σ : State) (s : Verifier.Ctx prims) : Prop :=
  ∃ i, (σ.attesters i).anchor = some (.hash (.tuple [s.msg0.ecdhX, s.msg0.ecdhY,
    s.msg1.ecdhX, s.msg1.ecdhY]))

def VerifierOk (σ : State) (run : VerifierRun) : Prop :=
  match run.position with
  | .idle => True
  | .stopped => True
  | .msg0 => ∃ s, run.inst = .live s ∧ Provisioned s
  | .msg1 => ∃ s, run.inst = .live s ∧ Provisioned s ∧ Exchanged σ s
  | .msg2 => ∃ s, run.inst = .live s ∧ Provisioned s ∧ Exchanged σ s
  | .msg3 => ∃ s, run.inst = .live s ∧ Provisioned s ∧ Exchanged σ s ∧ Attested σ s
  | .completed => ∃ s, run.inst = .live s ∧ Provisioned s ∧ Exchanged σ s ∧ Attested σ s

-- The verifiers sign their own key before another one, the attestation service a returned
-- anchor before other data.
structure SignatureOk (σ : State) (g : Signature) : Prop where
  safe : ∀ t ∈ g.message, Safe (policy σ) t
  maker : (∃ m n rest, g.key = serviceKey m ∧
      g.message = .pubX (.honest verifierRole n) :: .pubY (.honest verifierRole n) :: rest) ∨
    g.key = attestationKey ∧
      ∃ i anchor rest, g.message = anchor :: rest ∧ (σ.attesters i).anchor = some anchor

structure Inv (σ : State) : Prop where
  attesters : ∀ i, AttesterOk σ (σ.attesters i)
  verifiers : ∀ j, VerifierOk σ (σ.verifiers j)
  signatures : ∀ g ∈ σ.signatures, SignatureOk σ g
  known : ∀ t ∈ σ.known, Safe (policy σ) t

end Facts

section Growth

-- Nothing that the facts refer to ever goes away.
structure Extends (σ σ' : State) : Prop where
  known : σ.known ⊆ σ'.known
  signatures : σ.signatures ⊆ σ'.signatures
  anchors : ∀ i anchor, (σ.attesters i).anchor = some anchor →
    (σ'.attesters i).anchor = some anchor
  completed : ∀ j, (σ.verifiers j).position = .completed → σ'.verifiers j = σ.verifiers j

variable {σ σ' : State} (hext : Extends σ σ')
include hext

theorem Extends.policy_le : (policy σ).le (policy σ') := by
  refine ⟨fun k hk => hk, ?_, ?_⟩
  · rintro k t ⟨g, hg, hkey, ht⟩
    exact ⟨g, hext.signatures hg, hkey, ht⟩
  · rintro k iv t ⟨j, s, hj, hkey, ht⟩
    exact ⟨j, s, (hext.completed j (by rw [hj])).trans hj, hkey, ht⟩

theorem Extends.safe {t : Term} (h : Safe (policy σ) t) : Safe (policy σ') t :=
  h.mono hext.policy_le

theorem Extends.knows {t : Term} (h : σ.Knows t) : σ'.Knows t :=
  Derives.mono (fun _ ht => hext.known ht) h

theorem Bound.mono {run : AttesterRun} {anchor : Term} (h : Bound σ run anchor) :
    Bound σ' run anchor where
  agreed := h.agreed
  anchor_eq := h.anchor_eq
  safe := hext.safe h.safe
  pinned hpin := by
    obtain ⟨k, hx, hy, hknows⟩ := h.pinned hpin
    exact ⟨k, hx, hy, hext.knows hknows⟩

theorem AttesterOk.mono {run : AttesterRun} (h : AttesterOk σ run) : AttesterOk σ' run where
  early := h.early
  started := h.started
  bound anchor hanchor := (h.bound anchor hanchor).mono hext
  untagged := h.untagged
  data d hd := by
    obtain ⟨key, iv, hkey, hsafe⟩ := h.data d hd
    exact ⟨key, iv, hkey, hext.safe hsafe⟩

theorem Exchanged.mono {s : Verifier.Ctx prims} (h : Exchanged σ s) : Exchanged σ' s where
  agreed := h.agreed
  safeX := hext.safe h.safeX
  safeY := hext.safe h.safeY

theorem Attested.mono {s : Verifier.Ctx prims} (h : Attested σ s) : Attested σ' s := by
  obtain ⟨i, hi⟩ := h
  exact ⟨i, hext.anchors i _ hi⟩

theorem VerifierOk.mono {run : VerifierRun} (h : VerifierOk σ run) : VerifierOk σ' run := by
  obtain ⟨position, inst⟩ := run
  cases position with
  | idle => trivial
  | stopped => trivial
  | msg0 => exact h
  | msg1 | msg2 =>
      obtain ⟨s, hs, hprovisioned, hexchanged⟩ := h
      exact ⟨s, hs, hprovisioned, hexchanged.mono hext⟩
  | msg3 | completed =>
      obtain ⟨s, hs, hprovisioned, hexchanged, hattested⟩ := h
      exact ⟨s, hs, hprovisioned, hexchanged.mono hext, hattested.mono hext⟩

theorem SignatureOk.mono {g : Signature} (h : SignatureOk σ g) : SignatureOk σ' g where
  safe t ht := hext.safe (h.safe t ht)
  maker := by
    rcases h.maker with hservice | ⟨hkey, i, anchor, rest, hmessage, hanchor⟩
    · exact Or.inl hservice
    · exact Or.inr ⟨hkey, i, anchor, rest, hmessage, hext.anchors i anchor hanchor⟩

-- It is enough to look at what a step has added or changed.
theorem Inv.of_extends (h : Inv σ)
    (hattesters : ∀ i, σ'.attesters i = σ.attesters i ∨ AttesterOk σ' (σ'.attesters i))
    (hverifiers : ∀ j, σ'.verifiers j = σ.verifiers j ∨ VerifierOk σ' (σ'.verifiers j))
    (hsignatures : ∀ g ∈ σ'.signatures, g ∈ σ.signatures ∨ SignatureOk σ' g)
    (hknown : ∀ t ∈ σ'.known, t ∈ σ.known ∨ Safe (policy σ') t) : Inv σ' where
  attesters i := by
    rcases hattesters i with heq | hok
    · rw [heq]
      exact (h.attesters i).mono hext
    · exact hok
  verifiers j := by
    rcases hverifiers j with heq | hok
    · rw [heq]
      exact (h.verifiers j).mono hext
    · exact hok
  signatures g hg := by
    rcases hsignatures g hg with hold | hok
    · exact (h.signatures g hold).mono hext
    · exact hok
  known t ht := by
    rcases hknown t ht with hold | hsafe
    · exact hext.safe (h.known t hold)
    · exact hsafe

end Growth

section Secrecy

variable {σ : State}

theorem not_safe_secret (n : Nat) : ¬ Safe (policy σ) (.secret n) := id

-- Without a private value of the attacker the session key stays out of reach.
theorem not_safe_sessionKeyOf {a b : Name} (ha : ¬ a.isAttacker) (hb : ¬ b.isAttacker) :
    ¬ Safe (policy σ) (sessionKeyOf (.dh s(a, b))) := by
  rintro ⟨-, hkdk | ⟨shared, htag⟩⟩
  · obtain ⟨⟨⟨index, hindex⟩, -⟩, -⟩ := hkdk
    rcases Sym2.mem_iff.mp hindex with rfl | rfl
    · exact ha trivial
    · exact hb trivial
  · exact kdkOf_ne_macKeyOf _ _ htag

-- A verifier run and an attester run that hold the same keys.
structure Paired (σ : State) (s : Verifier.Ctx prims) (i n m : Nat) : Prop where
  anchored : (σ.attesters i).anchor = some (.hash (.tuple [s.msg0.ecdhX, s.msg0.ecdhY,
    s.msg1.ecdhX, s.msg1.ecdhY]))
  msg0 : (σ.attesters i).ctx.msg0 = s.msg0
  msg1X : (σ.attesters i).ctx.msg1.ecdhX = s.msg1.ecdhX
  msg1Y : (σ.attesters i).ctx.msg1.ecdhY = s.msg1.ecdhY
  ga : s.msg0 = ⟨Term.pubX (.honest attesterRole n), Term.pubY (.honest attesterRole n)⟩
  gvX : s.msg1.ecdhX = Term.pubX (.honest verifierRole m)
  gvY : s.msg1.ecdhY = Term.pubY (.honest verifierRole m)
  attesterMac : (σ.attesters i).ctx.sharedMacKey =
    .key (macKeyOf (.dh s(.honest verifierRole m, .honest attesterRole n)))
  attesterSession : (σ.attesters i).ctx.sharedSessionKey =
    .key (sessionKeyOf (.dh s(.honest verifierRole m, .honest attesterRole n)))
  verifierMac : s.sharedMacKey =
    .key (macKeyOf (.dh s(.honest verifierRole m, .honest attesterRole n)))
  verifierSession : s.sharedSessionKey =
    .key (sessionKeyOf (.dh s(.honest verifierRole m, .honest attesterRole n)))

-- The anchor binds both public keys, and the shared value is the same from either side.
theorem Inv.paired (h : Inv σ) {s : Verifier.Ctx prims} (hexchanged : Exchanged σ s)
    (hattested : Attested σ s) : ∃ i n m, Paired σ s i n m := by
  obtain ⟨i, hanchor⟩ := hattested
  obtain ⟨⟨n, shared, hmsg0, hagreed, hmac, hsession⟩, hbound, -, -⟩ := (h.attesters i).bound _ hanchor
  obtain ⟨m, shared', hgvX, hgvY, hagreed', hmac', hsession'⟩ := hexchanged.agreed
  obtain ⟨hx, hy, hvx, hvy⟩ := digest_inj.mp hbound
  have hga : s.msg0 = (σ.attesters i).ctx.msg0 := Msg0.ext hx hy
  rw [hga, hmsg0] at hagreed'
  rw [← hvx, ← hvy, hgvX, hgvY] at hagreed
  simp only [ecdh, if_true, Option.some.injEq] at hagreed hagreed'
  subst hagreed hagreed'
  refine ⟨i, n, m, hanchor, hga.symm, hvx.symm, hvy.symm, hga.trans hmsg0, hgvX, hgvY, ?_, ?_, hmac',
    hsession'⟩
  · rw [hmac, Sym2.eq_swap]
  · rw [hsession, Sym2.eq_swap]

theorem Inv.completed_session (h : Inv σ) {j : Nat} (hj : (σ.verifiers j).position = .completed) :
    ∃ s, (σ.verifiers j).inst = .live s ∧ Provisioned s ∧ Exchanged σ s ∧ Attested σ s := by
  have hok := h.verifiers j
  simpa only [VerifierOk, hj] using hok

theorem Inv.sound (h : Inv σ) : (policy σ).Sound := by
  rintro k iv t ⟨j, s, hj, hkey, -⟩ hsafe
  obtain ⟨s', hs', -, hexchanged, hattested⟩ := h.completed_session (j := j) (by rw [hj])
  rw [hj] at hs'
  cases hs'
  obtain ⟨i, n, m, hpaired⟩ := h.paired hexchanged hattested
  rw [hpaired.verifierSession] at hkey
  cases hkey
  exact not_safe_sessionKeyOf id id hsafe

theorem Inv.safe (h : Inv σ) {t : Term} (ht : σ.Knows t) : Safe (policy σ) t :=
  safe_of_derives h.sound h.known ht

theorem safe_blank : Safe (policy σ) blank := trivial

theorem State.Delivers.knows_field {message : Buf} (hdelivers : σ.Delivers message) (index : Nat) :
    σ.Knows (message.field index) := by
  unfold Buf.field
  by_cases hindex : index < message.fields.length
  · rw [List.getD_eq_getElem _ _ hindex]
    exact hdelivers _ (List.getElem_mem hindex)
  · rw [List.getD_eq_default _ _ (Nat.le_of_not_lt hindex)]
    exact .const []

theorem Inv.safe_field (h : Inv σ) {message : Buf} (hdelivers : σ.Delivers message) (index : Nat) :
    Safe (policy σ) (message.field index) :=
  h.safe (hdelivers.knows_field index)

end Secrecy

end Watz.Network
