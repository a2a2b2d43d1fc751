import Watz.Delivery
import Watz.Host

namespace Watz.Host

open Base Base.Layout Bytes Verifier

variable {T : Platform}

section Commands

variable {P : Prims}

-- Two invocations between which a command that takes a message makes no difference.
structure SameStep (inst : Instance P) (inv inv' : Invocation P) : Prop where
  next : (step inst inv).1 = (step inst inv').1
  result : (step inst inv).2.result = (step inst inv').2.result
  buffer : (step inst inv).2.buffer = inv.buffer

-- A command that hands its buffer back as it was. What it does may depend on the buffer, what it
-- answers besides on the state that it leaves.
theorem sameStep_of_dispatch (inst : Instance P) {inv inv' : Invocation P} {command : Command}
    (effect : Invocation P → Ctx P → Effect (Ctx P) TeeError Watz.Event Unit)
    (value : Ctx P → Option Nat) {onFail : Option Nat}
    (h : inv.command = some command) (h' : inv'.command = some command)
    (hdispatch : ∀ other s, dispatch other s command = conclude (effect other s) other.buffer
      (fun _ => (other.buffer, value (effect other s).state)) onFail)
    (hsame : ∀ s, effect inv s = effect inv' s) : SameStep inst inv inv' := by
  cases inst with
  | dead => exact ⟨rfl, rfl, rfl⟩
  | live s =>
      have hstep := step_of_command (s := s) h
      have hstep' := step_of_command (s := s) h'
      rw [hdispatch, conclude, hsame s] at hstep
      rw [hdispatch, conclude] at hstep'
      cases hout : (effect inv' s).out with
      | _ => constructor <;> simp only [hstep, hstep', hout]

theorem step_handleMsg0_of_reaches {s s' : Ctx P} {inv : Invocation P}
    (h : inv.command = some .handleMsg0)
    (hreaches : Prog.Reaches (handleMsg0 inv.buffer) inv.env s () s') :
    (step (.live s) inv).1 = .live s' ∧ (step (.live s) inv).2.result = none ∧
      (step (.live s) inv).2.buffer = inv.buffer := by
  have hstep := step_of_command (s := s) h
  simp only [dispatch, conclude, hreaches.1, hreaches.2] at hstep
  rw [hstep]
  exact ⟨rfl, rfl, rfl⟩

theorem step_handleMsg2_of_accepts {s : Ctx P} {inv : Invocation P}
    (h : inv.command = some .handleMsg2) (haccepts : Accepts inv.env inv.buffer s) :
    (step (.live s) inv).1 = .live { received inv.buffer s with isQuoteValid := true } := by
  have hstep := step_of_command (s := s) h
  have hout := (handleMsg2_ok inv.env s inv.buffer).mpr haccepts
  have hstate := (handleMsg2_vetted inv.env s inv.buffer haccepts.size haccepts.vetted).1
  simp only [dispatch, conclude, hout, hstate] at hstep
  rw [hstep]

theorem step_prepareMsg1_of_reaches {s s' : Ctx P} {inv : Invocation P} {sent : P.Buf}
    (h : inv.command = some .prepareMsg1)
    (hreaches : Prog.Reaches (prepareMsg1 inv.buffer) inv.env s sent s') :
    (step (.live s) inv).1 = .live s' ∧ (step (.live s) inv).2.result = none ∧
      (step (.live s) inv).2.buffer = sent ∧
      (step (.live s) inv).2.valueA = some P.sizeofMsg1 := by
  have hstep := step_of_command (s := s) h
  simp only [dispatch, conclude, hreaches.1, hreaches.2] at hstep
  rw [hstep]
  exact ⟨rfl, rfl, rfl, rfl⟩

-- What `PREPARE_MSG_1` writes and leaves does not depend on the buffer, if it is long enough.
theorem step_prepareMsg1_enlarge {inst : Instance P} {inv : Invocation P}
    (h : inv.command = some .prepareMsg1) (hok : (step inst inv).2.result = none) :
    ∃ m, (step inst inv).2.buffer = P.putMsg1 m inv.buffer ∧
      ∀ buffer, P.sizeofMsg1 ≤ P.bufSize buffer →
        (step inst { inv with buffer }).1 = (step inst inv).1 ∧
          (step inst { inv with buffer }).2.result = none ∧
          (step inst { inv with buffer }).2.buffer = P.putMsg1 m buffer ∧
          (step inst { inv with buffer }).2.valueA = some P.sizeofMsg1 := by
  cases inst with
  | dead => cases hok
  | live s =>
      have hdispatched := hok
      rw [step_of_command h] at hdispatched
      obtain ⟨sent, hsent, -⟩ := conclude_ok hdispatched
      obtain ⟨hsize, hsign, hmac, ecdsa, mac, hecdsa, hkey⟩ := prepareMsg1_ok _ _ _ _ hsent
      have hreaches := fun buffer hlong =>
        prepareMsg1_reaches inv.env s buffer hlong hsign hmac ecdsa mac hecdsa hkey
      obtain ⟨hnext, -, hbuffer, -⟩ := step_prepareMsg1_of_reaches h (hreaches inv.buffer hsize)
      refine ⟨(signedAndTagged inv.env ecdsa mac s).msg1, hbuffer, ?_⟩
      intro buffer hlong
      have hcommand : ({ inv with buffer } : Invocation P).command = some .prepareMsg1 := h
      obtain ⟨hnext', hlarge⟩ := step_prepareMsg1_of_reaches hcommand (hreaches buffer hlong)
      exact ⟨hnext'.trans hnext.symm, hlarge⟩

theorem step_prepareMsg3_enlarge {s : Ctx P} {inv : Invocation P}
    (h : inv.command = some .prepareMsg3) (hok : (step (.live s) inv).2.result = none) :
    ∃ key, (step (.live s) inv).2.buffer = P.putMsg3 (sealedMsg3 inv.env key s.secret) inv.buffer ∧
      ∀ buffer, P.bufSize inv.buffer ≤ P.bufSize buffer →
        (step (.live s) { inv with buffer }).2.result = none ∧
          (step (.live s) { inv with buffer }).2.buffer =
            P.putMsg3 (sealedMsg3 inv.env key s.secret) buffer := by
  have hstep := step_of_command (s := s) h
  rw [hstep] at hok
  obtain ⟨sent, hsent, -⟩ := conclude_ok hok
  obtain ⟨hreleasable, key, hkey, rfl⟩ := (prepareMsg3_ok _ _ _ _).mp hsent
  simp only [dispatch, conclude, hsent] at hstep
  refine ⟨key, by rw [hstep], ?_⟩
  intro buffer hlong
  have hlarge : (prepareMsg3 buffer s.secret inv.env s).out =
      .ok (P.putMsg3 (sealedMsg3 inv.env key s.secret) buffer) := by
    have hsize := hreleasable.size
    have hfits := hreleasable.fits
    refine (prepareMsg3_ok _ _ _ _).mpr ⟨⟨?_, hreleasable.malloc, hreleasable.works, ?_, key, hkey⟩,
      key, hkey, rfl⟩
    · omega
    · omega
  have hcommand : ({ inv with buffer } : Invocation P).command = some .prepareMsg3 := h
  have hnext := step_of_command (s := s) hcommand
  simp only [dispatch, conclude, hlarge] at hnext
  rw [hnext]
  exact ⟨rfl, rfl⟩

-- Only the bootstrap command changes the secret.
theorem commandState_secret (inv : Invocation P) (s : Ctx P) {command : Command}
    (h : command ≠ .bootstrapSecret) : (commandState inv s command).secret = s.secret := by
  cases command with
  | bootstrapSecret => exact absurd rfl h
  | handleMsg0 => exact congrArg Prod.fst (keeps_handleMsg0 inv.buffer inv.env s)
  | prepareMsg1 =>
      have hkept := congrArg Ctx.secret (keeps_prepareMsg1 inv.buffer inv.env s)
      exact hkept
  | handleMsg2 =>
      have hkept := congrArg Ctx.secret (keeps_handleMsg2 inv.buffer inv.env s)
      exact hkept
  | prepareMsg3 => rfl

theorem step_ok {inst : Instance P} {inv : Invocation P} {command : Command}
    (h : inv.command = some command) (hne : command ≠ .bootstrapSecret)
    (hok : (step inst inv).2.result = none) :
    ∃ s s', inst = .live s ∧ (step inst inv).1 = .live s' ∧ s'.secret = s.secret := by
  cases inst with
  | dead => cases hok
  | live s =>
      have hlive : ∃ s', (step (.live s) inv).1 = .live s' := by
        rw [step_of_command h] at hok ⊢
        cases command with
        | _ =>
            obtain ⟨_, -, hlive, -⟩ := conclude_ok hok
            exact ⟨_, hlive⟩
      obtain ⟨s', hs'⟩ := hlive
      obtain ⟨_, hsame, hnone | ⟨command', hcommand, hstate⟩⟩ := step_live hs'
      · rw [hnone.1] at h
        cases h
      · obtain rfl := Instance.live.inj hsame
        obtain rfl := Option.some.inj (h.symm.trans hcommand)
        exact ⟨s, s', rfl, hs', hstate ▸ commandState_secret inv s hne⟩

end Commands

section Buffers

theorem overwrite_whole {bytes : List UInt8} {count : Nat} (h : bytes.length ≤ count)
    (buff : List UInt8) :
    overwrite (bytes.take count) buff = bytes ++ buff.drop bytes.length := by
  rw [overwrite, List.take_of_length_le h]

theorem length_overwrite {bytes buff : List UInt8} (h : bytes.length ≤ buff.length) :
    (overwrite bytes buff).length = buff.length := by
  rw [overwrite, List.length_append, List.length_drop]
  omega

theorem carries_append (message rest : List UInt8) : Exchange.Carries (message ++ rest) message :=
  List.take_left

def msg1Bytes (m : Msg1 Coord (List UInt8)) : List UInt8 :=
  m.ecdhX.bytes 8 ++ m.ecdhY.bytes 8 ++ m.ecdsaX.bytes 8 ++ m.ecdsaY.bytes 8 ++
    fit RA_SIGNATURE_SIZE m.ecdhSignature ++ fit (RA_AES_CMAC_TAG_SIZE / 8) m.mac

theorem length_fit (length : Nat) (value : List UInt8) : (fit length value).length = length := by
  rw [fit, List.length_take, List.length_append, List.length_replicate]
  omega

theorem length_msg1Bytes (m : Msg1 Coord (List UInt8)) :
    (msg1Bytes m).length = sizeof Wire.Verifier.msg1 := by
  simp only [msg1Bytes, Coord.bytes, List.length_append, length_fit, leBytes_length,
    Coord.length_raw]
  rfl

theorem putMsg1_eq (m : Msg1 Coord (List UInt8)) (buffer : List UInt8) :
    putMsg1 m buffer = msg1Bytes m ++ buffer.drop (sizeof Wire.Verifier.msg1) := rfl

theorem putMsg1_exact (m : Msg1 Coord (List UInt8)) :
    putMsg1 m (List.replicate (sizeof Wire.Verifier.msg1) 0) = msg1Bytes m := by
  rw [putMsg1_eq, List.drop_of_length_le (by rw [List.length_replicate]), List.append_nil]

theorem take_putMsg1 (m : Msg1 Coord (List UInt8)) (buffer : List UInt8) :
    (putMsg1 m buffer).take (sizeof Wire.Verifier.msg1) = msg1Bytes m := by
  rw [putMsg1_eq, ← length_msg1Bytes m, List.take_left]

theorem length_putMsg1 (m : Msg1 Coord (List UInt8)) {buffer : List UInt8}
    (h : sizeof Wire.Verifier.msg1 ≤ buffer.length) :
    (putMsg1 m buffer).length = buffer.length := by
  rw [putMsg1_eq, List.length_append, length_msg1Bytes, List.length_drop]
  omega

-- A longer buffer begins with what a buffer of the exact size holds.
theorem carries_putMsg3 (m : Msg3 (List UInt8)) (buffer buffer' : List UInt8)
    (h : buffer'.length = sizeof Wire.Verifier.msg3 + m.encryptedContent.length) :
    Exchange.Carries (putMsg3 m buffer) (putMsg3 m buffer') := by
  have hexact : putMsg3 m buffer' = Bytes.msg3Header m ++ m.encryptedContent := by
    rw [putMsg3, List.drop_eq_nil_of_le (by omega), List.append_nil]
  rw [hexact]
  exact carries_append _ _

end Buffers

section TrustedApplication

variable (x : Exchange T)

-- More bytes behind a whole message pass the check of its size too.
theorem decide_le_append {size : Nat} {bytes : List UInt8} (h : size ≤ bytes.length)
    (rest : List UInt8) : decide (size ≤ (bytes ++ rest).length) = decide (size ≤ bytes.length) := by
  have hlong : size ≤ (bytes ++ rest).length := by
    rw [List.length_append]
    omega
  exact (decide_eq_true hlong).trans (decide_eq_true h).symm

theorem storeMsg0_append (bytes rest : List UInt8) (h : sizeof Wire.Verifier.msg0 ≤ bytes.length) :
    (storeMsg0 (bytes ++ rest) : VerifierM (prims T) Unit) = storeMsg0 bytes := by
  have hget : (prims T).getMsg0 (bytes ++ rest) = (prims T).getMsg0 bytes :=
    getMsg0_append bytes rest h
  have hsize : decide ((prims T).sizeofMsg0 ≤ (prims T).bufSize (bytes ++ rest)) =
      decide ((prims T).sizeofMsg0 ≤ (prims T).bufSize bytes) := decide_le_append h rest
  unfold storeMsg0
  rw [hget, hsize]

theorem storeMsg2_append (bytes rest : List UInt8)
    (h : sizeof (Wire.Verifier.msg2 T.raQuote) ≤ bytes.length) :
    (storeMsg2 (bytes ++ rest) : VerifierM (prims T) Unit) = storeMsg2 bytes := by
  have hget : (prims T).getMsg2 (bytes ++ rest) = (prims T).getMsg2 bytes :=
    getMsg2_append T bytes rest h
  have hsize : decide ((prims T).sizeofMsg2 ≤ (prims T).bufSize (bytes ++ rest)) =
      decide ((prims T).sizeofMsg2 ≤ (prims T).bufSize bytes) := decide_le_append h rest
  unfold storeMsg2
  rw [hget, hsize]

theorem step_handleMsg0_append (inst : Instance (prims T)) (bytes rest : List UInt8)
    (h : sizeof Wire.Verifier.msg0 ≤ bytes.length) :
    SameStep inst (x.invocation .handleMsg0 (bytes ++ rest)) (x.invocation .handleMsg0 bytes) := by
  refine sameStep_of_dispatch inst (fun inv s => handleMsg0 inv.buffer inv.env s) (fun _ => none)
    (x.invocation_command _ _) (x.invocation_command _ _) (fun _ _ => rfl) ?_
  intro s
  change handleMsg0 (bytes ++ rest) _ s = handleMsg0 bytes _ s
  unfold handleMsg0
  rw [storeMsg0_append bytes rest h]
  rfl

theorem step_handleMsg2_append (inst : Instance (prims T)) (bytes rest : List UInt8)
    (h : sizeof (Wire.Verifier.msg2 T.raQuote) ≤ bytes.length) :
    SameStep inst (x.invocation .handleMsg2 (bytes ++ rest)) (x.invocation .handleMsg2 bytes) := by
  refine sameStep_of_dispatch inst (fun inv s => handleMsg2 inv.buffer inv.env s)
    (fun s => some (if s.isQuoteValid then 1 else 0))
    (x.invocation_command _ _) (x.invocation_command _ _) (fun _ _ => rfl) ?_
  intro s
  change handleMsg2 (bytes ++ rest) _ s = handleMsg2 bytes _ s
  unfold handleMsg2
  rw [storeMsg2_append bytes rest h]
  rfl

theorem step_prepareMsg1 {inst : Instance (prims T)}
    (h : (step inst (x.invocation .prepareMsg1
      (List.replicate (sizeof Wire.Verifier.msg1) 0))).2.result = none) :
    ∃ m : Msg1 Coord (List UInt8),
      (step inst (x.invocation .prepareMsg1
        (List.replicate (sizeof Wire.Verifier.msg1) 0))).2.buffer = msg1Bytes m ∧
      ∀ buffer : List UInt8, sizeof Wire.Verifier.msg1 ≤ buffer.length →
        (step inst (x.invocation .prepareMsg1 buffer)).1 =
            (step inst (x.invocation .prepareMsg1
              (List.replicate (sizeof Wire.Verifier.msg1) 0))).1 ∧
          (step inst (x.invocation .prepareMsg1 buffer)).2.result = none ∧
          (step inst (x.invocation .prepareMsg1 buffer)).2.buffer = putMsg1 m buffer ∧
          (step inst (x.invocation .prepareMsg1 buffer)).2.valueA =
            some (sizeof Wire.Verifier.msg1) := by
  obtain ⟨m, hexact, hlarge⟩ := step_prepareMsg1_enlarge (x.invocation_command .prepareMsg1 _) h
  exact ⟨m, hexact.trans (putMsg1_exact m), hlarge⟩

theorem step_prepareMsg3 (hgcm : GcmCorrect T) {s : Ctx (prims T)} {size : Nat}
    (hsecret : List.length s.secret = size)
    (h : (step (.live s) (x.invocation .prepareMsg3
      (List.replicate (sizeof Wire.Verifier.msg3 + size) 0))).2.result = none) (buffer : List UInt8)
    (hsize : sizeof Wire.Verifier.msg3 + size ≤ buffer.length) :
    (step (.live s) (x.invocation .prepareMsg3 buffer)).2.result = none ∧
      Exchange.Carries (step (.live s) (x.invocation .prepareMsg3 buffer)).2.buffer
        (step (.live s) (x.invocation .prepareMsg3
          (List.replicate (sizeof Wire.Verifier.msg3 + size) 0))).2.buffer := by
  obtain ⟨key, hexact, hlarge⟩ := step_prepareMsg3_enlarge (x.invocation_command .prepareMsg3 _) h
  have hroom : (prims T).bufSize (List.replicate (sizeof Wire.Verifier.msg3 + size) (0 : UInt8)) ≤
      (prims T).bufSize buffer := by
    change (List.replicate (sizeof Wire.Verifier.msg3 + size) (0 : UInt8)).length ≤ buffer.length
    rw [List.length_replicate]
    exact hsize
  obtain ⟨hresult, hbuffer⟩ := hlarge buffer hroom
  refine ⟨hresult, ?_⟩
  have hcontent : List.length (T.gcmEncrypt key (x.tee .prepareMsg3).iv s.secret).1 = size :=
    (hgcm.length_content _ _ _).trans hsecret
  have hcarries := carries_putMsg3 (sealedMsg3 (x.tee .prepareMsg3) key s.secret) buffer
    (List.replicate (sizeof Wire.Verifier.msg3 + size) 0) (by
      rw [List.length_replicate]
      exact congrArg _ hcontent.symm)
  unfold Exchange.Carries at hcarries ⊢
  exact (congrArg₂ (fun (b m : List UInt8) => b.take m.length) hbuffer hexact).trans
    (hcarries.trans hexact.symm)

end TrustedApplication

end Watz.Host
