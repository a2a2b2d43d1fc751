import Watz.Agreement
import Watz.Verifier.Coherence

namespace Watz.Acceptance

open Base Tee Verifier

section Reached

variable {P : Prims}

-- Ga of a `msg0` lies within its arrays.
def SmallKey (msg0 : Msg0 P.Coord) : Prop :=
  P.size msg0.ecdhX ≤ RA_ECDH_KEY_SIZE / 8 ∧ P.size msg0.ecdhY ≤ RA_ECDH_KEY_SIZE / 8

-- The states that an opened session reaches from a successful HANDLE_MSG_0 on, up to the next
-- HANDLE_MSG_0.
def AfterExchange (s : Ctx P) : Prop :=
  ∃ start earlier exchange later, Opened start ∧
    exchange.command = some .handleMsg0 ∧
    (step (Run.final step (.live start) earlier) exchange).2.result = none ∧
    SmallKey (P.getMsg0 exchange.buffer) ∧
    (∀ inv ∈ later, inv.command ≠ some .handleMsg0) ∧
    Run.final step (step (Run.final step (.live start) earlier) exchange).1 later = .live s

-- What `handle_msg2` relies on in such a state.
structure Exchanged (s : Ctx P) : Prop where
  pinned : s.ecdsaAttesterPublicKey = .key pinnedKey
  mac : ∃ key, s.sharedMacKey = .key key
  ga : SmallKey s.msg0
  gv : P.size s.msg1.ecdhX ≤ RA_ECDH_KEY_SIZE / 8 ∧ P.size s.msg1.ecdhY ≤ RA_ECDH_KEY_SIZE / 8

def PinnedInv (inst : Instance P) : Prop :=
  ∀ s, inst = .live s → s.ecdsaAttesterPublicKey = .key pinnedKey

def ExchangedInv (inst : Instance P) : Prop := ∀ s, inst = .live s → Exchanged s

theorem pinnedInv_step {inst : Instance P} (inv : Invocation P) (h : PinnedInv inst) :
    PinnedInv (step inst inv).1 := by
  intro s' hlive
  obtain ⟨s, rfl, hcases⟩ := step_live hlive
  rcases hcases with ⟨-, rfl⟩ | ⟨command, -, rfl⟩
  · exact h s' rfl
  · exact (commandState_pinned inv s command).trans (h s rfl)

theorem pinnedInv_final {start : Ctx P} (hopened : Opened start) (inputs : List (Invocation P)) :
    PinnedInv (Run.final step (.live start) inputs) := by
  apply Run.invariant_final
  · intro s hs
    obtain rfl := Instance.live.inj hs
    obtain ⟨key, rfl⟩ := opened_eq hopened
    rfl
  · intro t ht hbefore
    rw [Run.after_eq ht]
    exact pinnedInv_step t.input hbefore

theorem exchanged_of_success {inst : Instance P} {inv : Invocation P} (hpinned : PinnedInv inst)
    (hcommand : inv.command = some .handleMsg0) (hok : (step inst inv).2.result = none)
    (hsmall : SmallKey (P.getMsg0 inv.buffer)) : ExchangedInv (step inst inv).1 := by
  intro s' hlive
  have hkept := pinnedInv_step inv hpinned s' hlive
  obtain ⟨s, rfl, hout⟩ := (result_handleMsg0 _ _ hcommand).mp hok
  obtain ⟨hworks, hsize, shared, hshared⟩ := (handleMsg0_ok inv.env s inv.buffer).mp hout
  rw [step_of_command hcommand] at hlive
  obtain rfl := (conclude_live hlive).trans
    (handleMsg0_reaches inv.env s inv.buffer hworks hsize hshared).2
  exact ⟨hkept, ⟨_, rfl⟩, hsmall, P.size_exportX _ _, P.size_exportY _ _⟩

theorem exchangedInv_step {inst : Instance P} {inv : Invocation P}
    (hother : inv.command ≠ some .handleMsg0) (h : ExchangedInv inst) :
    ExchangedInv (step inst inv).1 := by
  intro s' hlive
  obtain ⟨s, rfl, hcases⟩ := step_live hlive
  have hs := h s rfl
  rcases hcases with ⟨-, rfl⟩ | ⟨command, hcommand, rfl⟩
  · exact hs
  · have hview : exchangeView (commandState inv s command) = exchangeView s :=
      exchangeView_of_other fun heq => hother (heq ▸ hcommand)
    simp only [exchangeView, Prod.mk.injEq] at hview
    obtain ⟨h0, hx, hy, -, hmac, -⟩ := hview
    refine ⟨(commandState_pinned inv s command).trans hs.pinned, ?_, ?_, ?_⟩
    · rw [hmac]
      exact hs.mac
    · rw [h0]
      exact hs.ga
    · rw [hx, hy]
      exact hs.gv

theorem exchanged_of_afterExchange {s : Ctx P} (h : AfterExchange s) : Exchanged s := by
  obtain ⟨start, earlier, exchange, later, hopened, hcommand, hok, hsmall, hlater, hfinal⟩ := h
  have hfirst := exchanged_of_success (pinnedInv_final hopened earlier) hcommand hok hsmall
  have hinv := Run.invariant_final hfirst fun t ht hbefore => by
    rw [Run.after_eq ht]
    exact exchangedInv_step (hlater t.input (Run.input_mem ht)) hbefore
  exact hinv s hfinal

end Reached

section Returning

variable {P : Prims}

-- Both keys that the checks of `handle_msg2` set are there.
def HasKeys (s : Ctx P) : Prop :=
  (∃ key, s.sharedMacKey = .key key) ∧ ∃ key, s.ecdsaAttesterPublicKey = .key key

theorem returns_storeMsg2 (buffer : P.Buf) :
    Prog.Returns HasKeys (storeMsg2 buffer : VerifierM P Unit) :=
  (Prog.Returns.require _ _).bind fun _ => Prog.Returns.modify fun _ h => h

theorem returns_verifyMacMsg2 : Prog.Returns HasKeys (verifyMacMsg2 : VerifierM P Unit) := by
  unfold verifyMacMsg2
  refine (Prog.Returns.emit _).bind fun _ => Prog.Returns.bind_get fun s hs => ?_
  refine Prog.Returns.bind (Prog.Returns.onFail ?_) fun _ => Prog.Returns.emit _
  refine (returns_allocate _ _ _).bind fun _ => ?_
  refine (returns_setOperationKey _ _ hs.1).bind fun key => ?_
  refine (returns_readCoord _ _).bind fun x => (returns_readCoord _ _).bind fun y => ?_
  exact returns_teeCheck _ _ _ _

theorem returns_verifyPublicKeyMsg2MatchesMsg0 :
    Prog.Returns HasKeys (verifyPublicKeyMsg2MatchesMsg0 : VerifierM P Unit) := by
  unfold verifyPublicKeyMsg2MatchesMsg0
  refine Prog.Returns.bind_get fun s _ => (returns_memCompare _ _ _ _).bind fun equalX => ?_
  refine (Prog.Returns.require _ _).bind fun _ => ?_
  exact (returns_memCompare _ _ _ _).bind fun equalY => Prog.Returns.require _ _

theorem returns_verifyQuoteSignature :
    Prog.Returns HasKeys (verifyQuoteSignature : VerifierM P Unit) := by
  unfold verifyQuoteSignature
  refine (Prog.Returns.emit _).bind fun _ => Prog.Returns.bind_get fun s hs => ?_
  refine Prog.Returns.bind (Prog.Returns.onFail ?_) fun _ => Prog.Returns.emit _
  refine (returns_allocate _ _ _).bind fun _ => (returns_tee _ _).bind fun _ => ?_
  refine (Prog.Returns.require _ _).bind fun _ => (returns_allocate _ _ _).bind fun _ => ?_
  refine (returns_setOperationKey _ _ hs.2).bind fun key => ?_
  exact (returns_teeCheck _ _ _ _).bind fun _ => Prog.Returns.modify fun _ h => h

theorem returns_verifyAnchor : Prog.Returns HasKeys (verifyAnchor : VerifierM P Unit) := by
  unfold verifyAnchor
  refine (Prog.Returns.emit _).bind fun _ => Prog.Returns.bind_get fun s _ => ?_
  refine Prog.Returns.bind (Prog.Returns.onFail ?_) fun digest => ?_
  · refine (returns_allocate _ _ _).bind fun _ => ?_
    refine (returns_readCoord _ _).bind fun gaX => (returns_readCoord _ _).bind fun gaY => ?_
    refine (returns_readCoord _ _).bind fun gvX => (returns_readCoord _ _).bind fun gvY => ?_
    refine (returns_tee _ _).bind fun _ => (Prog.Returns.require _ _).bind fun _ => ?_
    exact Prog.Returns.pure _
  · exact (Prog.Returns.require _ _).bind fun _ => Prog.Returns.emit _

theorem returns_handleMsg2 (buffer : P.Buf) :
    Prog.Returns HasKeys (handleMsg2 buffer : VerifierM P Unit) := by
  unfold handleMsg2
  refine Prog.Returns.bind (Prog.Returns.modify fun _ h => h) fun _ => ?_
  refine (returns_storeMsg2 buffer).bind fun _ => returns_verifyMacMsg2.bind fun _ => ?_
  refine returns_verifyPublicKeyMsg2MatchesMsg0.bind fun _ => ?_
  exact returns_verifyQuoteSignature.bind fun _ => returns_verifyAnchor

-- What a refused HANDLE_MSG_2 leaves alone.
def sessionView (s : Ctx P) :=
  (s.msg0, s.msg1, s.sharedKeyDerivationKey, s.sharedMacKey, s.sharedSessionKey)

theorem sessionView_handleMsg2 (env : Env P) (s : Ctx P) (buffer : P.Buf) :
    sessionView (handleMsg2 buffer env s).state = sessionView s :=
  (keeps_handleMsg2 buffer).map sessionView (fun _ => rfl) env s

-- A message that is not accepted is answered with an error and a cleared value.
theorem handleMsg2_refused {s : Ctx P} (hkeys : HasKeys s) {inv : Invocation P}
    (hcommand : inv.command = some .handleMsg2) (h : ¬ Accepts inv.env inv.buffer s) :
    (step (.live s) inv).2.valueA = some 0 ∧ (step (.live s) inv).2.result ≠ none ∧
      ∃ s', (step (.live s) inv).1 = .live s' ∧ sessionView s' = sessionView s := by
  have hview := sessionView_handleMsg2 inv.env s inv.buffer
  rw [step_of_command hcommand]
  cases hout : (handleMsg2 inv.buffer inv.env s).out with
  | ok value => exact absurd ((handleMsg2_ok inv.env s inv.buffer).mp hout) h
  | fail code =>
      simp only [dispatch, conclude, hout]
      exact ⟨trivial, by simp, _, rfl, hview⟩
  | panic => exact absurd hout (returns_handleMsg2 inv.buffer inv.env s hkeys).2

end Returning

section Decision

open Bytes Base.Layout

variable {T : Platform}

-- The quote is signed under the pinned key and is bound to Ga and Gv of the session.
structure Attested (quote : List UInt8) (s : Ctx (prims T)) : Prop where
  signature : T.verify RA_IMX_TEST_PUBLIC_KEY_X RA_IMX_TEST_PUBLIC_KEY_Y
    (T.sha256 (T.anchor quote ++ T.version quote ++ T.claimHash quote ++ T.attestationKey quote))
    (T.signature quote) = true
  anchor : T.anchor quote = T.sha256 (s.msg0.ecdhX.val ++ s.msg0.ecdhY.val ++
    s.msg1.ecdhX.val ++ s.msg1.ecdhY.val)

-- A tag under Km over two coordinates and the quote.
def TagOver (x y : List UInt8) (buffer : List UInt8) (s : Ctx (prims T)) : Prop :=
  ∃ key, s.sharedMacKey = .key key ∧
    T.cmac key (x ++ y ++ (getMsg2 T buffer).quote) = (getMsg2 T buffer).mac

def SameLengths (buffer : List UInt8) (s : Ctx (prims T)) : Prop :=
  (getMsg2 T buffer).ecdhX.size = s.msg0.ecdhX.size ∧
    (getMsg2 T buffer).ecdhY.size = s.msg0.ecdhY.size

-- The acceptance predicate.
structure Genuine (buffer : List UInt8) (s : Ctx (prims T)) : Prop where
  size : sizeof (Wire.Verifier.msg2 T.raQuote) ≤ buffer.length
  mac : TagOver (getMsg2 T buffer).ecdhX.val (getMsg2 T buffer).ecdhY.val buffer s
  lengths : SameLengths buffer s
  bytes : (getMsg2 T buffer).ecdhX.val = s.msg0.ecdhX.val ∧
    (getMsg2 T buffer).ecdhY.val = s.msg0.ecdhY.val
  attested : Attested (getMsg2 T buffer).quote s

-- What the code checks: the tag goes over the sizes in `msg2`, the comparison over those in
-- `msg0`.
structure Passes (env : Env (prims T)) (buffer : List UInt8) (s : Ctx (prims T)) : Prop where
  size : sizeof (Wire.Verifier.msg2 T.raQuote) ≤ buffer.length
  mac : TagOver ((getMsg2 T buffer).ecdhX.range (env.adjacent .msg2X))
    ((getMsg2 T buffer).ecdhY.range (env.adjacent .msg2Y)) buffer s
  bytes : s.msg0.ecdhX.val = (getMsg2 T buffer).ecdhX.raw.take s.msg0.ecdhX.size ∧
    s.msg0.ecdhY.val = (getMsg2 T buffer).ecdhY.raw.take s.msg0.ecdhY.size
  attested : Attested (getMsg2 T buffer).quote s

-- HANDLE_MSG_2 answers with the acceptance predicate.
structure Decides (s : Ctx (prims T)) (inv : Invocation (prims T)) : Prop where
  result : (step (.live s) inv).2.result = none ↔ Genuine inv.buffer s
  value : (step (.live s) inv).2.valueA = some 1 ↔ Genuine inv.buffer s
  refused : ¬ Genuine inv.buffer s → (step (.live s) inv).2.valueA = some 0 ∧
    (step (.live s) inv).2.result ≠ none ∧
    ∃ s', (step (.live s) inv).1 = .live s' ∧ sessionView s' = sessionView s

theorem macPassed_iff (env : Env (prims T)) (buffer : List UInt8) (s : Ctx (prims T)) :
    MacPassed env (received (P := prims T) buffer s) ↔
      TagOver ((getMsg2 T buffer).ecdhX.range (env.adjacent .msg2X))
        ((getMsg2 T buffer).ecdhY.range (env.adjacent .msg2Y)) buffer s := by
  have hparts : ∀ (key : List UInt8) (m : Msg2 Coord (List UInt8) (List UInt8)),
      (prims T).cmac key (msg2Transcript (P := prims T) env m) =
        T.cmac key (m.ecdhX.range (env.adjacent .msg2X) ++ m.ecdhY.range (env.adjacent .msg2Y) ++
          m.quote) := by
    intro key m
    have hflat : ∀ x y quote : List UInt8, [x, y, quote].flatten = x ++ y ++ quote := by simp
    rw [← hflat]
    rfl
  refine exists_congr fun key => and_congr Iff.rfl ⟨fun htag => ?_, fun htag => ?_⟩
  · exact (hparts key (getMsg2 T buffer)).symm.trans htag
  · exact (hparts key (getMsg2 T buffer)).trans htag

theorem keyMatches_iff {s : Ctx (prims T)} (h : SmallKey s.msg0) (env : Env (prims T))
    (buffer : List UInt8) :
    KeyMatches env (received (P := prims T) buffer s) ↔
      s.msg0.ecdhX.val = (getMsg2 T buffer).ecdhX.raw.take s.msg0.ecdhX.size ∧
        s.msg0.ecdhY.val = (getMsg2 T buffer).ecdhY.raw.take s.msg0.ecdhY.size := by
  have hcompares : ∀ (field : Field) (c d : Coord), c.size ≤ RA_ECDH_KEY_SIZE / 8 →
      (compares (P := prims T) env field c d = true ↔ c.val = d.raw.take c.size) := by
    intro field c d hsize
    change (if c.size ≤ RA_ECDH_KEY_SIZE / 8 then c.same d else env.overCompare field) = true ↔ _
    rw [if_pos hsize]
    exact decide_eq_true_iff
  exact and_congr (hcompares .msg0X _ _ h.1) (hcompares .msg0Y _ _ h.2)

theorem attested_iff {s : Ctx (prims T)} (h : Exchanged s) (env : Env (prims T))
    (buffer : List UInt8) :
    SignaturePassed (received (P := prims T) buffer s) ∧
        AnchorPassed env (received (P := prims T) buffer s) ↔
      Attested (getMsg2 T buffer).quote s := by
  have hparts : ∀ a b c d : List UInt8, [a, b, c, d].flatten = a ++ b ++ c ++ d := by simp
  have hreads : anchorKeys env (received (P := prims T) buffer s) =
      [s.msg0.ecdhX.val, s.msg0.ecdhY.val, s.msg1.ecdhX.val, s.msg1.ecdhY.val] := by
    have hgaX := Prims.read_of_le _ h.ga.1 (env.adjacent .msg0X)
    have hgaY := Prims.read_of_le _ h.ga.2 (env.adjacent .msg0Y)
    have hgvX := Prims.read_of_le _ h.gv.1 (env.adjacent .msg1EcdhX)
    have hgvY := Prims.read_of_le _ h.gv.2 (env.adjacent .msg1EcdhY)
    simp only [anchorKeys, received, hgaX, hgaY, hgvX, hgvY]
    rfl
  constructor
  · rintro ⟨⟨key, hkey, hverify⟩, hanchor⟩
    obtain rfl := Obj.key.inj (h.pinned.symm.trans hkey)
    rw [AnchorPassed, hreads] at hanchor
    exact ⟨by rw [← hparts]; exact hverify, by rw [← hparts]; exact hanchor⟩
  · rintro ⟨hverify, hanchor⟩
    rw [← hparts] at hverify hanchor
    refine ⟨⟨_, h.pinned, hverify⟩, ?_⟩
    rw [AnchorPassed, hreads]
    exact hanchor

theorem accepts_iff {s : Ctx (prims T)} (h : Exchanged s) {env : Env (prims T)}
    (hworks : env.NoFaults) (buffer : List UInt8) :
    Verifier.Accepts (P := prims T) env buffer s ↔ Passes env buffer s := by
  constructor
  · rintro ⟨hsize, ⟨-, hmac, hkey, -, hsignature⟩, -, hanchor⟩
    exact ⟨hsize, (macPassed_iff env buffer s).mp hmac, (keyMatches_iff h.ga env buffer).mp hkey,
      (attested_iff h env buffer).mp ⟨hsignature, hanchor⟩⟩
  · rintro ⟨hsize, hmac, hbytes, hattested⟩
    obtain ⟨hsignature, hanchor⟩ := (attested_iff h env buffer).mpr hattested
    exact ⟨hsize, ⟨hworks.works _ _, (macPassed_iff env buffer s).mpr hmac,
      (keyMatches_iff h.ga env buffer).mpr hbytes, hworks.works _ _, hsignature⟩,
      hworks.works _ _, hanchor⟩

-- With the lengths of `msg0` the checks of the code are the acceptance predicate.
theorem genuine_iff {s : Ctx (prims T)} (h : Exchanged s) (env : Env (prims T))
    (buffer : List UInt8) :
    Genuine buffer s ↔ Passes env buffer s ∧ SameLengths buffer s := by
  have hranges : SameLengths buffer s →
      (getMsg2 T buffer).ecdhX.range (env.adjacent .msg2X) = (getMsg2 T buffer).ecdhX.val ∧
        (getMsg2 T buffer).ecdhY.range (env.adjacent .msg2Y) = (getMsg2 T buffer).ecdhY.val := by
    rintro ⟨hx, hy⟩
    exact ⟨Coord.range_of_le (hx.le.trans h.ga.1) _, Coord.range_of_le (hy.le.trans h.ga.2) _⟩
  constructor
  · rintro ⟨hsize, hmac, hlengths, hbytes, hattested⟩
    obtain ⟨hx, hy⟩ := hranges hlengths
    refine ⟨⟨hsize, by rwa [hx, hy], ⟨?_, ?_⟩, hattested⟩, hlengths⟩
    · rw [← hbytes.1, Coord.val, hlengths.1]
    · rw [← hbytes.2, Coord.val, hlengths.2]
  · rintro ⟨⟨hsize, hmac, hbytes, hattested⟩, hlengths⟩
    obtain ⟨hx, hy⟩ := hranges hlengths
    rw [hx, hy] at hmac
    refine ⟨hsize, hmac, hlengths, ⟨?_, ?_⟩, hattested⟩
    · rw [hbytes.1, Coord.val, hlengths.1]
    · rw [hbytes.2, Coord.val, hlengths.2]

-- HANDLE_MSG_2 decides the acceptance predicate exactly when no message passes the checks
-- with other lengths than those of `msg0`.
theorem decides_iff {s : Ctx (prims T)} (hreached : AfterExchange s) {inv : Invocation (prims T)}
    (hcommand : inv.command = some .handleMsg2) (hworks : inv.env.NoFaults) :
    Decides s inv ↔ (Passes inv.env inv.buffer s → SameLengths inv.buffer s) := by
  have h := exchanged_of_afterExchange hreached
  have hkeys : HasKeys s := ⟨h.mac, _, h.pinned⟩
  have haccepts := accepts_iff h hworks inv.buffer
  have hresult : (step (.live s) inv).2.result = none ↔ Passes inv.env inv.buffer s := by
    rw [result_handleMsg2 _ _ hcommand, ← haccepts]
    constructor
    · rintro ⟨other, hsame, hother⟩
      rwa [Instance.live.inj hsame]
    · exact fun hother => ⟨s, rfl, hother⟩
  constructor
  · intro hdecides hpasses
    exact ((genuine_iff h inv.env inv.buffer).mp
      (hdecides.result.mp (hresult.mpr hpasses))).2
  · intro hlengths
    have hgenuine : Genuine inv.buffer s ↔ Passes inv.env inv.buffer s := by
      rw [genuine_iff h inv.env inv.buffer]
      exact and_iff_left_of_imp hlengths
    have hrefused := fun hnot : ¬ Genuine inv.buffer s =>
      handleMsg2_refused hkeys hcommand (fun ha => hnot (hgenuine.mpr (haccepts.mp ha)))
    refine ⟨hresult.trans hgenuine.symm, ⟨fun hone => ?_, fun hg => ?_⟩, hrefused⟩
    · by_contra hnot
      rw [(hrefused hnot).1] at hone
      cases hone
    · exact valueA_handleMsg2 inv hcommand (haccepts.mpr (hgenuine.mp hg))

end Decision

section Example

open Bytes Sample

-- Ga of the attester's key under some size field.
def gaX (size : Nat) : Coord := ⟨power 6 5 ++ List.replicate 31 0, size, rfl⟩

def gaY (size : Nat) : Coord := ⟨power 36 5 ++ List.replicate 31 0, size, rfl⟩

def sessionStart : Ctx (prims platform) :=
  (openSessionEntryPoint 0 (calm 0 3 silent) (Ctx.zero (prims platform))).state

def exchangeInput : Invocation (prims platform) :=
  ⟨1, Command.expParamTypes .handleMsg0, (gaX 1).bytes 8 ++ (gaY 1).bytes 8, calm 7 0 silent⟩

def sessionExchanged : Ctx (prims platform) :=
  (handleMsg0 exchangeInput.buffer exchangeInput.env sessionStart).state

-- The `msg2` of the attester, tagged over coordinates of this size.
def attestInput (size : Nat) : Invocation (prims platform) :=
  let quote := quoteOn (mixed 32 (power 6 5 ++ power 36 5 ++ power 6 7 ++ power 36 7))
  let key : List UInt8 := macKey (P := prims platform) (power 6 35)
  let mac := mixed 16 (key ++ ((gaX size).val ++ (gaY size).val ++ quote))
  ⟨3, Command.expParamTypes .handleMsg2, attesterMsg2 ⟨gaX size, gaY size, quote, mac⟩,
    calm 0 0 silent⟩

theorem afterExchange_sessionExchanged : AfterExchange sessionExchanged := by
  have hok : (step (.live sessionStart) exchangeInput).2.result = none := by decide +kernel
  refine ⟨sessionStart, [], exchangeInput, [], ⟨0, calm 0 3 silent, by decide +kernel, rfl⟩, rfl,
    hok, ⟨by decide +kernel, by decide +kernel⟩, by simp, ?_⟩
  rw [Run.final, Run.final, step_of_command rfl]
  rw [step_of_command rfl] at hok
  obtain ⟨-, -, hlive, -⟩ := conclude_ok hok
  exact hlive

-- A second byte of each coordinate, with a tag over it, is never compared.
theorem longer_key_is_accepted :
    AfterExchange sessionExchanged ∧ (attestInput 2).env.NoFaults ∧
      (step (.live sessionExchanged) (attestInput 2)).2.result = none ∧
      (step (.live sessionExchanged) (attestInput 2)).2.valueA = some 1 ∧
      ¬ Genuine (attestInput 2).buffer sessionExchanged ∧
      ¬ Decides sessionExchanged (attestInput 2) := by
  have hresult : (step (.live sessionExchanged) (attestInput 2)).2.result = none := by
    decide +kernel
  have hforeign : ¬ Genuine (attestInput 2).buffer sessionExchanged := by
    intro hgenuine
    exact absurd hgenuine.lengths.1 (by decide +kernel)
  refine ⟨afterExchange_sessionExchanged, fun _ _ => rfl, hresult, by decide +kernel, hforeign, ?_⟩
  intro hdecides
  exact hforeign (hdecides.result.mp hresult)

theorem decides_same_size :
    (step (.live sessionExchanged) (attestInput 1)).2.result = none ∧
      Decides sessionExchanged (attestInput 1) := by
  refine ⟨by decide +kernel, ?_⟩
  apply (decides_iff afterExchange_sessionExchanged rfl (fun _ _ => rfl)).mpr
  intro _
  exact ⟨by decide +kernel, by decide +kernel⟩

end Example

end Watz.Acceptance
