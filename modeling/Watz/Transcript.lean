import Watz.Attester.Lemmas
import Watz.Bytes
import Watz.Verifier.Lemmas

namespace Watz.Transcript

open Base Base.Layout Bytes

-- A public key as two byte strings.
structure Point where
  x : List UInt8
  y : List UInt8
  deriving DecidableEq

structure Exchange where
  ga : Point
  gv : Point
  deriving DecidableEq

-- The lengths that the size fields give the coordinates of two keys.
structure Lengths where
  x : Nat
  y : Nat
  x' : Nat
  y' : Nat
  deriving DecidableEq

def Lengths.total (lengths : Lengths) : Nat := lengths.x + lengths.y + lengths.x' + lengths.y'

def Exchange.lengths (e : Exchange) : Lengths :=
  ⟨e.ga.x.length, e.ga.y.length, e.gv.x.length, e.gv.y.length⟩

def Exchange.anchoredParts (e : Exchange) : List (List UInt8) := [e.ga.x, e.ga.y, e.gv.x, e.gv.y]

def Exchange.signedParts (e : Exchange) : List (List UInt8) := [e.gv.x, e.gv.y, e.ga.x, e.ga.y]

-- The lengths that the TEE and the message fields admit for a coordinate.
def AdmittedLength (n : Nat) : Prop := 1 ≤ n ∧ n ≤ RA_ECDH_KEY_SIZE / 8

instance (n : Nat) : Decidable (AdmittedLength n) :=
  inferInstanceAs (Decidable (1 ≤ n ∧ n ≤ RA_ECDH_KEY_SIZE / 8))

structure Exchange.Admitted (e : Exchange) : Prop where
  gaX : AdmittedLength e.ga.x.length
  gaY : AdmittedLength e.ga.y.length
  gvX : AdmittedLength e.gv.x.length
  gvY : AdmittedLength e.gv.y.length

-- The byte sequences that the code feeds to SHA-256 and to AES-CMAC: the parts in this order,
-- and nothing between them.
def Exchange.anchored (e : Exchange) : List UInt8 := e.anchoredParts.flatten

def Exchange.signed (e : Exchange) : List UInt8 := e.signedParts.flatten

-- What `msg1` tags: Gv, the verifier's key and the signature. Ga is in the signature only.
structure Tagged where
  gv : Point
  vk : Point
  signature : List UInt8
  deriving DecidableEq

def Tagged.lengths (m : Tagged) : Lengths :=
  ⟨m.gv.x.length, m.gv.y.length, m.vk.x.length, m.vk.y.length⟩

def Tagged.parts (m : Tagged) : List (List UInt8) :=
  [m.gv.x, m.gv.y, m.vk.x, m.vk.y, m.signature]

def Tagged.bytes (m : Tagged) : List UInt8 := m.parts.flatten

-- No two exchanges of these lengths share a sequence.
def Distinguishes (encode : Exchange → List UInt8) (lengths lengths' : Lengths) : Prop :=
  ∀ e e' : Exchange, e.lengths = lengths → e'.lengths = lengths' → encode e = encode e' → e = e'

def DistinguishesTagged (lengths lengths' : Lengths) : Prop :=
  ∀ m m' : Tagged, m.lengths = lengths → m'.lengths = lengths' →
    m.signature.length = RA_SIGNATURE_SIZE → m'.signature.length = RA_SIGNATURE_SIZE →
    m.bytes = m'.bytes → m = m'

section Encoding

-- Values that are lists of parts: the size fields give the lengths of the parts in some order, and
-- `Shaped` says which values have them.
structure Ordered {α : Type} (parts : α → List (List UInt8)) (order : Lengths → List Nat)
    (Shaped : α → Lengths → Prop) : Prop where
  injective : Function.Injective parts
  shaped : ∀ a lengths, Shaped a lengths ↔ (parts a).map List.length = order lengths
  onto : ∀ lengths ps, ps.map List.length = order lengths → ∃ a, parts a = ps
  order_injective : Function.Injective order
  sum_eq : ∀ lengths lengths', (order lengths).sum = (order lengths').sum ↔
    lengths.total = lengths'.total

theorem Ordered.distinguishes_iff {α : Type} {parts : α → List (List UInt8)}
    {order : Lengths → List Nat} {Shaped : α → Lengths → Prop}
    (hordered : Ordered parts order Shaped) (lengths lengths' : Lengths) :
    (∀ a a', Shaped a lengths → Shaped a' lengths' →
        (parts a).flatten = (parts a').flatten → a = a') ↔
      lengths = lengths' ∨ lengths.total ≠ lengths'.total := by
  have hlengths : order lengths = order lengths' ∨ (order lengths).sum ≠ (order lengths').sum ↔
      lengths = lengths' ∨ lengths.total ≠ lengths'.total := by
    rw [hordered.order_injective.eq_iff, ne_eq, hordered.sum_eq]
  rw [← hlengths, ← flatten_injective_iff (0 : UInt8)]
  constructor
  · intro h ps ps' hps hps' hflat
    obtain ⟨a, rfl⟩ := hordered.onto lengths ps hps
    obtain ⟨a', rfl⟩ := hordered.onto lengths' ps' hps'
    rw [h a a' ((hordered.shaped a _).mpr hps) ((hordered.shaped a' _).mpr hps') hflat]
  · intro h a a' ha ha' hflat
    have hps := (hordered.shaped a lengths).mp ha
    have hps' := (hordered.shaped a' lengths').mp ha'
    exact hordered.injective (h _ _ hps hps' hflat)

theorem length_of_lengths {ps : List (List UInt8)} {ns : List Nat}
    (h : ps.map List.length = ns) : ps.length = ns.length := by
  rw [← h, List.length_map]

theorem anchoredParts_injective : Function.Injective Exchange.anchoredParts := by
  rintro ⟨⟨x, y⟩, ⟨x', y'⟩⟩ ⟨⟨u, v⟩, ⟨u', v'⟩⟩ h
  simp only [Exchange.anchoredParts, List.cons.injEq, and_true] at h
  obtain ⟨rfl, rfl, rfl, rfl⟩ := h
  rfl

theorem signedParts_injective : Function.Injective Exchange.signedParts := by
  rintro ⟨⟨x, y⟩, ⟨x', y'⟩⟩ ⟨⟨u, v⟩, ⟨u', v'⟩⟩ h
  simp only [Exchange.signedParts, List.cons.injEq, and_true] at h
  obtain ⟨rfl, rfl, rfl, rfl⟩ := h
  rfl

theorem taggedParts_injective : Function.Injective Tagged.parts := by
  rintro ⟨⟨x, y⟩, ⟨x', y'⟩, signature⟩ ⟨⟨u, v⟩, ⟨u', v'⟩, signature'⟩ h
  simp only [Tagged.parts, List.cons.injEq, and_true] at h
  obtain ⟨rfl, rfl, rfl, rfl, rfl⟩ := h
  rfl

theorem ordered_anchored :
    Ordered Exchange.anchoredParts (fun l => [l.x, l.y, l.x', l.y']) (fun e l => e.lengths = l) where
  injective := anchoredParts_injective
  shaped e l := by
    obtain ⟨x, y, x', y'⟩ := l
    simp [Exchange.lengths, Exchange.anchoredParts]
  onto l ps hps := by
    obtain ⟨p, q, r, s, rfl⟩ := List.length_eq_four.mp (length_of_lengths hps)
    exact ⟨⟨⟨p, q⟩, ⟨r, s⟩⟩, rfl⟩
  order_injective := by
    rintro ⟨x, y, x', y'⟩ ⟨u, v, u', v'⟩ h
    simpa using h
  sum_eq l l' := by simp [Lengths.total, Nat.add_assoc]

theorem ordered_signed :
    Ordered Exchange.signedParts (fun l => [l.x', l.y', l.x, l.y]) (fun e l => e.lengths = l) where
  injective := signedParts_injective
  shaped e l := by
    obtain ⟨x, y, x', y'⟩ := l
    simp only [Exchange.lengths, Exchange.signedParts, Lengths.mk.injEq, List.map_cons,
      List.map_nil, List.cons.injEq, and_true]
    omega
  onto l ps hps := by
    obtain ⟨p, q, r, s, rfl⟩ := List.length_eq_four.mp (length_of_lengths hps)
    exact ⟨⟨⟨r, s⟩, ⟨p, q⟩⟩, rfl⟩
  order_injective := by
    rintro ⟨x, y, x', y'⟩ ⟨u, v, u', v'⟩ h
    simp only [List.cons.injEq, and_true] at h
    obtain ⟨rfl, rfl, rfl, rfl⟩ := h
    rfl
  sum_eq l l' := by
    simp only [Lengths.total, List.sum_cons, List.sum_nil]
    omega

theorem ordered_tagged :
    Ordered Tagged.parts (fun l => [l.x, l.y, l.x', l.y', RA_SIGNATURE_SIZE])
      (fun m l => m.lengths = l ∧ m.signature.length = RA_SIGNATURE_SIZE) where
  injective := taggedParts_injective
  shaped m l := by
    obtain ⟨x, y, x', y'⟩ := l
    simp [Tagged.lengths, Tagged.parts, and_assoc]
  onto l ps hps := by
    have hlength : ps.length = 4 + 1 := length_of_lengths hps
    obtain ⟨p, rest, rfl⟩ := List.exists_of_length_succ ps hlength
    obtain ⟨q, r, s, t, rfl⟩ := List.length_eq_four.mp (Nat.succ.inj hlength)
    exact ⟨⟨⟨p, q⟩, ⟨r, s⟩, t⟩, rfl⟩
  order_injective := by
    rintro ⟨x, y, x', y'⟩ ⟨u, v, u', v'⟩ h
    simpa using h
  sum_eq l l' := by
    simp only [Lengths.total, List.sum_cons, List.sum_nil]
    omega

theorem distinguishes_anchored_iff (lengths lengths' : Lengths) :
    Distinguishes Exchange.anchored lengths lengths' ↔
      lengths = lengths' ∨ lengths.total ≠ lengths'.total :=
  ordered_anchored.distinguishes_iff lengths lengths'

theorem distinguishes_signed_iff (lengths lengths' : Lengths) :
    Distinguishes Exchange.signed lengths lengths' ↔
      lengths = lengths' ∨ lengths.total ≠ lengths'.total :=
  ordered_signed.distinguishes_iff lengths lengths'

theorem distinguishes_tagged_iff (lengths lengths' : Lengths) :
    DistinguishesTagged lengths lengths' ↔
      lengths = lengths' ∨ lengths.total ≠ lengths'.total := by
  rw [← ordered_tagged.distinguishes_iff lengths lengths']
  constructor
  · intro h m m' hm hm'
    exact h m m' hm.1 hm'.1 hm.2 hm'.2
  · intro h m m' hm hm' hsignature hsignature'
    exact h m m' ⟨hm, hsignature⟩ ⟨hm', hsignature'⟩

end Encoding

section Code

variable {T : Platform}

def pointRead (env : Env (prims T)) (x y : Coord) (fieldX fieldY : Field) : Point :=
  ⟨(prims T).read x (env.adjacent fieldX), (prims T).read y (env.adjacent fieldY)⟩

-- The keys of `msg0` and `msg1` as the TEE reads them, on either side.
def attesterExchange (env : Env (prims T)) (s : Attester.RaContext (prims T)) : Exchange where
  ga := pointRead env s.msg0.ecdhX s.msg0.ecdhY .msg0X .msg0Y
  gv := pointRead env s.msg1.ecdhX s.msg1.ecdhY .msg1EcdhX .msg1EcdhY

def verifierExchange (env : Env (prims T)) (s : Verifier.Ctx (prims T)) : Exchange where
  ga := pointRead env s.msg0.ecdhX s.msg0.ecdhY .msg0X .msg0Y
  gv := pointRead env s.msg1.ecdhX s.msg1.ecdhY .msg1EcdhX .msg1EcdhY

def taggedMsg1 (env : Env (prims T)) (msg1 : Msg1 Coord (List UInt8)) : Tagged where
  gv := pointRead env msg1.ecdhX msg1.ecdhY .msg1EcdhX .msg1EcdhY
  vk := pointRead env msg1.ecdsaX msg1.ecdsaY .msg1EcdsaX .msg1EcdsaY
  signature := msg1.ecdhSignature

-- What the six functions hash, sign, tag or check is one of the three sequences.
structure FeedsTranscripts (T : Platform) : Prop where
  generateAnchor : ∀ env s size anchor,
    ((Attester.generateAnchor size : Attester.AttesterM (prims T) (List UInt8)) env s).out =
        .ok anchor →
      anchor = T.sha256 (attesterExchange env s).anchored
  verifyAnchor : ∀ env s,
    ((Verifier.verifyAnchor : Verifier.VerifierM (prims T) Unit) env s).out = .ok () →
      T.anchor s.msg2.quote = T.sha256 (verifierExchange env s).anchored
  appendEcdhPublicKeysSignature : ∀ env s,
    ((Verifier.appendEcdhPublicKeysSignature : Verifier.VerifierM (prims T) Unit) env s).out =
        .ok () →
      ∃ key, s.ecdsaLocalKeypair = .key key ∧
        ((Verifier.appendEcdhPublicKeysSignature : Verifier.VerifierM (prims T) Unit)
          env s).state.msg1.ecdhSignature =
            T.sign key env.random (T.sha256 (verifierExchange env s).signed)
  verifyEcdhPublicKeySignature : ∀ env s,
    ((Attester.verifyEcdhPublicKeySignature : Attester.AttesterM (prims T) Unit) env s).out =
        .ok () →
      ∃ key, s.ecdsaVerifierPublicKey = .key key ∧
        T.verify key.1 key.2 (T.sha256 (attesterExchange env s).signed)
          s.msg1.ecdhSignature = true
  appendMac : ∀ env s,
    ((Verifier.appendMac : Verifier.VerifierM (prims T) Unit) env s).out = .ok () →
      ∃ key, s.sharedMacKey = .key key ∧
        ((Verifier.appendMac : Verifier.VerifierM (prims T) Unit) env s).state.msg1.mac =
          T.cmac key (taggedMsg1 env s.msg1).bytes
  verifyMsg1Mac : ∀ env s,
    ((Attester.verifyMsg1Mac : Attester.AttesterM (prims T) Unit) env s).out = .ok () →
      ∃ key, s.sharedMacKey = .key key ∧
        T.cmac key (taggedMsg1 env s.msg1).bytes = s.msg1.mac

theorem feedsTranscripts (T : Platform) : FeedsTranscripts T where
  generateAnchor env s size anchor h := ((Attester.generateAnchor_ok env s size anchor).mp h).2.2
  verifyAnchor env s h := ((Verifier.verifyAnchor_ok env s).mp h).2
  appendEcdhPublicKeysSignature env s h := by
    obtain ⟨hworks, key, hkey⟩ := (Verifier.appendEcdhPublicKeysSignature_ok env s).mp h
    refine ⟨key, hkey, ?_⟩
    rw [(Verifier.appendEcdhPublicKeysSignature_reaches env s hworks hkey).2]
    rfl
  verifyEcdhPublicKeySignature env s h :=
    ((Attester.verifyEcdhPublicKeySignature_ok env s).mp h).2
  appendMac env s h := by
    obtain ⟨hworks, key, hkey⟩ := (Verifier.appendMac_ok env s).mp h
    refine ⟨key, hkey, ?_⟩
    rw [(Verifier.appendMac_reaches env s hworks hkey).2]
    rfl
  verifyMsg1Mac env s h := ((Attester.verifyMsg1Mac_ok env s).mp h).2

-- Every exchange that fits the messages is one that the code can hold.
def holding (value : List UInt8) (h : AdmittedLength value.length) : Coord :=
  .exported value h.2 .zero

theorem read_holding (value : List UInt8) (h : AdmittedLength value.length)
    (adjacent : List UInt8) : (prims T).read (holding value h) adjacent = value :=
  have hsize : (prims T).size (holding value h) ≤ RA_ECDH_KEY_SIZE / 8 := h.2
  ((prims T).read_of_le hsize adjacent).trans (Coord.val_exported value h.2 .zero)

theorem pointRead_holding (env : Env (prims T)) {x y : List UInt8} (hx : AdmittedLength x.length)
    (hy : AdmittedLength y.length) (fieldX fieldY : Field) :
    pointRead env (holding x hx) (holding y hy) fieldX fieldY = ⟨x, y⟩ :=
  congrArg₂ Point.mk (read_holding x hx _) (read_holding y hy _)

def heldMsg0 {e : Exchange} (h : e.Admitted) : Msg0 Coord :=
  ⟨holding e.ga.x h.gaX, holding e.ga.y h.gaY⟩

def heldMsg1 {e : Exchange} (h : e.Admitted) : Msg1 Coord (List UInt8) :=
  ⟨holding e.gv.x h.gvX, holding e.gv.y h.gvY, .zero, .zero, [], []⟩

def attesterHolding {e : Exchange} (h : e.Admitted) : Attester.RaContext (prims T) :=
  { Attester.RaContext.fresh (prims T) with msg0 := heldMsg0 h, msg1 := heldMsg1 h }

def verifierHolding {e : Exchange} (h : e.Admitted) : Verifier.Ctx (prims T) :=
  { Verifier.Ctx.zero (prims T) with msg0 := heldMsg0 h, msg1 := heldMsg1 h }

theorem attesterExchange_holding (env : Env (prims T)) {e : Exchange} (h : e.Admitted) :
    attesterExchange env (attesterHolding h) = e :=
  congrArg₂ Exchange.mk (pointRead_holding env h.gaX h.gaY .msg0X .msg0Y)
    (pointRead_holding env h.gvX h.gvY .msg1EcdhX .msg1EcdhY)

theorem verifierExchange_holding (env : Env (prims T)) {e : Exchange} (h : e.Admitted) :
    verifierExchange env (verifierHolding h) = e :=
  congrArg₂ Exchange.mk (pointRead_holding env h.gaX h.gaY .msg0X .msg0Y)
    (pointRead_holding env h.gvX h.gvY .msg1EcdhX .msg1EcdhY)

theorem generateAnchor_holding {env : Env (prims T)} (hworks : env.Works .generateAnchor 2)
    {e : Exchange} (h : e.Admitted) :
    (Attester.generateAnchor RA_ANCHOR_SIZE env (attesterHolding h)).out =
      .ok (T.sha256 e.anchored) := by
  have hheld : T.sha256 e.anchored =
      T.sha256 (attesterExchange env (attesterHolding h)).anchored := by
    rw [attesterExchange_holding]
  exact (Attester.generateAnchor_ok _ _ _ _).mpr ⟨rfl, hworks, hheld⟩

end Code

-- The three sequences tell two exchanges apart for all contents of their coordinates exactly
-- when the coordinates have the same lengths, or the whole sequences have different ones.
theorem transcripts_injective_iff (T : Platform) (lengths lengths' : Lengths) :
    FeedsTranscripts T ∧
      (∀ (env : Env (prims T)) (e : Exchange) (h : e.Admitted),
        attesterExchange env (attesterHolding h) = e ∧
          verifierExchange env (verifierHolding h) = e) ∧
      (Distinguishes Exchange.anchored lengths lengths' ↔
        lengths = lengths' ∨ lengths.total ≠ lengths'.total) ∧
      (Distinguishes Exchange.signed lengths lengths' ↔
        lengths = lengths' ∨ lengths.total ≠ lengths'.total) ∧
      (DistinguishesTagged lengths lengths' ↔
        lengths = lengths' ∨ lengths.total ≠ lengths'.total) :=
  ⟨feedsTranscripts T,
    fun env _ h => ⟨attesterExchange_holding env h, verifierExchange_holding env h⟩,
    distinguishes_anchored_iff lengths lengths', distinguishes_signed_iff lengths lengths',
    distinguishes_tagged_iff lengths lengths'⟩

-- The last byte of each x moved to the front of the y that follows it.
def early : Exchange := ⟨⟨[1], [2, 3]⟩, ⟨[4], [5, 6]⟩⟩

def late : Exchange := ⟨⟨[1, 2], [3]⟩, ⟨[4, 5], [6]⟩⟩

theorem early_admitted : early.Admitted := ⟨by decide, by decide, by decide, by decide⟩

theorem late_admitted : late.Admitted := ⟨by decide, by decide, by decide, by decide⟩

theorem moved_split_collides :
    early ≠ late ∧ early.anchored = late.anchored ∧ early.signed = late.signed ∧
      (Tagged.mk early.gv ⟨[7], [8]⟩ (List.replicate RA_SIGNATURE_SIZE 9)).bytes =
        (Tagged.mk late.gv ⟨[7], [8]⟩ (List.replicate RA_SIGNATURE_SIZE 9)).bytes ∧
      (Attester.generateAnchor RA_ANCHOR_SIZE (Sample.calm 1 1 Sample.silent)
          (attesterHolding early_admitted)).out =
        .ok (Sample.platform.sha256 early.anchored) ∧
      (Attester.generateAnchor RA_ANCHOR_SIZE (Sample.calm 1 1 Sample.silent)
          (attesterHolding late_admitted)).out =
        .ok (Sample.platform.sha256 early.anchored) := by
  have hworks : (Sample.calm 1 1 Sample.silent).Works .generateAnchor 2 := fun _ _ => rfl
  have hsame : early.anchored = late.anchored := by decide
  refine ⟨by decide, hsame, by decide, by decide, generateAnchor_holding hworks early_admitted, ?_⟩
  rw [hsame]
  exact generateAnchor_holding hworks late_admitted

end Watz.Transcript
