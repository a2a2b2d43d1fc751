import Watz.Host.Lemmas

namespace Watz.Host

open Base Base.Layout Bytes Verifier

variable {T : Platform}

section Sufficient

variable {x : Exchange T} {reads : Reads}

-- The server's buffer holds the two longest messages, and each read takes a whole message.
structure Roomy (secretSize msg2Size : Nat) (reads : Reads) : Prop where
  msg1 : sizeof Wire.Verifier.msg1 ≤ buffSize secretSize
  msg2 : msg2Size ≤ buffSize secretSize
  first : sizeof Wire.Verifier.msg0 ≤ reads.first
  second : msg2Size ≤ reads.second

variable (h : x.Honest)
  (hroomy : Roomy x.secretSize (sizeof (Wire.Verifier.msg2 T.raQuote)) reads)
include h hroomy

theorem count_msg0 : x.msg0.length ≤ min (reads.first : Nat) (buffSize x.secretSize) := by
  have hmsg0 := h.length_msg0
  have hfirst := hroomy.first
  have hroom : sizeof Wire.Verifier.msg0 ≤ buffSize x.secretSize :=
    Nat.le_trans (by decide) hroomy.msg1
  omega

theorem buff0_eq : x.buff0 reads =
    x.msg0 ++ (List.replicate (buffSize x.secretSize) 0).drop x.msg0.length :=
  overwrite_whole (count_msg0 h hroomy) _

theorem length_buff0 : (x.buff0 reads).length = buffSize x.secretSize := by
  have hcount := count_msg0 h hroomy
  rw [buff0_eq h hroomy, List.length_append, List.length_drop, List.length_replicate]
  omega

theorem run0_same : SameStep (.live x.ctx) (x.invocation .handleMsg0 (x.buff0 reads))
    (x.invocation .handleMsg0 x.msg0) := by
  rw [buff0_eq h hroomy]
  exact step_handleMsg0_append x _ _ _ (Nat.le_of_eq h.length_msg0.symm)

-- The server writes the message that a buffer of the exact size would have got.
theorem run1_same : ∃ m, (x.run1 reads).1 = x.afterMsg1.1 ∧ (x.run1 reads).2.result = none ∧
    x.buff1 reads = putMsg1 m (x.buff0 reads) ∧ x.sent1 reads = x.msg1 := by
  have hsame := run0_same h hroomy
  have hrun1 : x.run1 reads = step x.afterMsg0.1 (x.invocation .prepareMsg1 (x.buff0 reads)) :=
    congrArg₂ (fun inst buffer => step inst (x.invocation .prepareMsg1 buffer)) hsame.next
      hsame.buffer
  have hroom : sizeof Wire.Verifier.msg1 ≤ (x.buff0 reads).length := by
    rw [length_buff0 h hroomy]
    exact hroomy.msg1
  obtain ⟨m, hexact, hlarge⟩ := step_prepareMsg1 x h.prepares1
  obtain ⟨hrun, hresult, hbuff1, hvalue⟩ := hlarge (x.buff0 reads) hroom
  rw [← hrun1] at hrun hresult hbuff1 hvalue
  have hsent : x.sent1 reads = msg1Bytes m := by
    have hbuff : x.buff1 reads = putMsg1 m (x.buff0 reads) := hbuff1
    rw [Exchange.sent1, hvalue, hbuff]
    exact take_putMsg1 m _
  exact ⟨m, hrun, hresult, hbuff1, hsent.trans hexact.symm⟩

theorem length_buff1 : (x.buff1 reads).length = buffSize x.secretSize := by
  obtain ⟨m, -, -, hbuff1, -⟩ := run1_same h hroomy
  have hlength := length_buff0 h hroomy
  rw [hbuff1, length_putMsg1 m (hlength ▸ hroomy.msg1), hlength]

theorem buff2_eq : x.buff2 reads = x.msg2 ++ (x.buff1 reads).drop x.msg2.length := by
  obtain ⟨m, -, -, -, hsent⟩ := run1_same h hroomy
  have hincoming : x.incoming reads = x.msg2 := by
    rw [Exchange.incoming, List.drop_of_length_le (count_msg0 h hroomy), List.nil_append, hsent]
    rfl
  have hcount : x.msg2.length ≤ min (reads.second : Nat) (x.buff1 reads).length := by
    have hmsg2 := h.length_msg2
    have hroom := hroomy.msg2
    have hsecond := hroomy.second
    rw [length_buff1 h hroomy]
    omega
  rw [Exchange.buff2, hincoming, overwrite_whole hcount]

theorem length_buff2 : (x.buff2 reads).length = buffSize x.secretSize := by
  have hmsg2 := h.length_msg2
  have hroom := hroomy.msg2
  rw [buff2_eq h hroomy, List.length_append, List.length_drop, length_buff1 h hroomy]
  omega

theorem run2_same : (x.run2 reads).1 = x.afterMsg2.1 ∧ (x.run2 reads).2.result = none ∧
    (x.run2 reads).2.buffer = x.buff2 reads := by
  obtain ⟨m, hnext, -⟩ := run1_same h hroomy
  have hsame : SameStep x.afterMsg1.1 (x.invocation .handleMsg2 (x.buff2 reads))
      (x.invocation .handleMsg2 x.msg2) := by
    rw [buff2_eq h hroomy]
    exact step_handleMsg2_append x _ _ _ (Nat.le_of_eq h.length_msg2.symm)
  rw [Exchange.run2, hnext]
  exact ⟨hsame.next, hsame.result.trans h.accepts2, hsame.buffer⟩

omit hroomy in
-- The secret is still the one that the host bootstrapped.
theorem afterMsg2_secret :
    ∃ s, x.afterMsg2.1 = .live s ∧ List.length s.secret = x.secretSize := by
  obtain ⟨s0, s1, hs0, hs1, hsecret1⟩ :=
    step_ok (x.invocation_command .handleMsg0 _) nofun h.accepts0
  obtain ⟨_, s2, hs1', hs2, hsecret2⟩ :=
    step_ok (x.invocation_command .prepareMsg1 _) nofun h.prepares1
  obtain ⟨_, s3, hs2', hs3, hsecret3⟩ :=
    step_ok (x.invocation_command .handleMsg2 _) nofun h.accepts2
  obtain rfl := Instance.live.inj hs0
  obtain rfl := Instance.live.inj (hs1.symm.trans hs1')
  obtain rfl := Instance.live.inj (hs2.symm.trans hs2')
  exact ⟨s3, hs3, congrArg List.length (hsecret3.trans (hsecret2.trans hsecret1))⟩

theorem served_of_roomy (hgcm : GcmCorrect T) : x.Served reads := by
  have hsame0 := run0_same h hroomy
  obtain ⟨m, -, hresult1, -, hsent⟩ := run1_same h hroomy
  obtain ⟨hnext2, hresult2, hbuffer2⟩ := run2_same h hroomy
  obtain ⟨s, hs, hsecret⟩ := afterMsg2_secret h
  have hroom3 : sizeof Wire.Verifier.msg3 + x.secretSize ≤ (x.buff2 reads).length := by
    rw [length_buff2 h hroomy, buffSize, Nat.add_comm x.secretSize]
    exact Nat.le_add_right _ _
  have hrun3 : x.run3 reads = step (.live s) (x.invocation .prepareMsg3 (x.buff2 reads)) :=
    congrArg₂ (fun inst buffer => step inst (x.invocation .prepareMsg3 buffer))
      (hnext2.trans hs) hbuffer2
  have hexact : x.afterMsg3 = step (.live s) (x.invocation .prepareMsg3
      (List.replicate (sizeof Wire.Verifier.msg3 + x.secretSize) 0)) := by
    rw [Exchange.afterMsg3, hs]
  have hresult3 := h.prepares3
  rw [hexact] at hresult3
  obtain ⟨hprepared, hcarries⟩ :=
    step_prepareMsg3 x hgcm hsecret hresult3 (x.buff2 reads) hroom3
  rw [← hrun3, ← hexact] at hcarries
  rw [← hrun3] at hprepared
  refine (x.served_iff reads).mpr
    ⟨⟨hsame0.result.trans h.accepts0, hresult1, hresult2, hprepared⟩, hsent, ?_, ?_, ?_, ?_,
      hcarries⟩
  · rw [buff0_eq h hroomy]
    exact carries_append _ _
  · have hlength : List.length (x.run0 reads).2.buffer = buffSize x.secretSize :=
      (congrArg List.length hsame0.buffer).trans (length_buff0 h hroomy)
    rw [hlength]
    exact hroomy.msg1
  · rw [buff2_eq h hroomy]
    exact carries_append _ _
  · rw [hbuffer2]
    exact hroom3

end Sufficient

section Necessary

-- A platform that accepts every signature, and on which no message to the peer has a byte 7.
-- Its tags over a message that begins with a byte 9 consist of such bytes.
def permissive (quoteSize : Nat) (quoteAlign : ℕ+) : Platform where
  Ecdh := Unit
  Ecdsa := Unit
  quoteSize := quoteSize
  quoteAlign := quoteAlign
  anchor _ := []
  version _ := []
  claimHash _ := []
  attestationKey _ := []
  signature _ := []
  sha256 _ := []
  cmac _ bytes := List.replicate 16 (if bytes.head? = some 9 then 7 else 3)
  publicX _ := [1]
  publicY _ := [1]
  ecdh _ _ _ := some [1]
  verifyX _ := [1]
  verifyY _ := [1]
  sign _ _ _ := List.replicate RA_SIGNATURE_SIZE 5
  verify _ _ _ _ := true
  gcmEncrypt _ _ data := (data, List.replicate (RA_AES_GCM_TAG_SIZE / 8) 0)
  gcmDecrypt _ _ content _ := some content
  length_publicX _ := by decide
  length_publicY _ := by decide
  length_verifyX _ := by decide
  length_verifyY _ := by decide

theorem permissive_gcm (quoteSize : Nat) (quoteAlign : ℕ+) :
    GcmCorrect (permissive quoteSize quoteAlign) :=
  ⟨fun _ _ _ => rfl, fun _ _ _ => rfl, fun _ _ _ => rfl⟩

-- Only the first byte of `msg0` is a 9.
def sampleMsg0 : List UInt8 :=
  9 :: List.replicate 31 2 ++ leBytes 8 32 ++ List.replicate 32 2 ++ leBytes 8 32

variable (quoteSize : Nat) (quoteAlign : ℕ+) (secretSize : Nat)

def msg2Size : Nat := sizeof (Wire.Verifier.msg2 (.record quoteSize quoteAlign))

def calm : Env (prims (permissive quoteSize quoteAlign)) where
  faults _ _ := none
  ecdhKey := ()
  ecdsaKey := ()
  random := 0
  iv := []
  wire := Sample.silent
  adjacent _ := []
  overCompare _ := false
  debug := false

def sample : Exchange (permissive quoteSize quoteAlign) where
  ctx := { openedWith () with secret := List.replicate secretSize 0 }
  tee _ := calm quoteSize quoteAlign
  msg0 := sampleMsg0
  reply _ := sampleMsg0 ++ List.replicate (msg2Size quoteSize quoteAlign - 80) 7

def sampleMsg1 : Msg1 Coord (List UInt8) where
  ecdhX := .exported [1] (by decide) (.resized .zero)
  ecdhY := .exported [1] (by decide) (.resized .zero)
  ecdsaX := .exported [1] (by decide) (.resized .zero)
  ecdsaY := .exported [1] (by decide) (.resized .zero)
  ecdhSignature := List.replicate RA_SIGNATURE_SIZE 5
  mac := List.replicate 16 3

-- The contexts that the two first commands leave, whatever their buffers.
def sampleCtx0 (buffer : List UInt8) : Ctx (prims (permissive quoteSize quoteAlign)) :=
  exchanged (calm quoteSize quoteAlign) buffer [1] (sample quoteSize quoteAlign secretSize).ctx

def sampleCtx1 (buffer : List UInt8) : Ctx (prims (permissive quoteSize quoteAlign)) :=
  signedAndTagged (calm quoteSize quoteAlign) () (macKey [1])
    (sampleCtx0 quoteSize quoteAlign secretSize buffer)

theorem calm_works (fn : Fn) (count : Nat) : (calm quoteSize quoteAlign).Works fn count :=
  fun _ _ => rfl

theorem sample_handleMsg0 (buffer : List UInt8) (h : sizeof Wire.Verifier.msg0 ≤ buffer.length) :
    (step (.live (sample quoteSize quoteAlign secretSize).ctx)
        ((sample quoteSize quoteAlign secretSize).invocation .handleMsg0 buffer)).1 =
      .live (sampleCtx0 quoteSize quoteAlign secretSize buffer) ∧
    (step (.live (sample quoteSize quoteAlign secretSize).ctx)
        ((sample quoteSize quoteAlign secretSize).invocation .handleMsg0 buffer)).2.result = none ∧
    (step (.live (sample quoteSize quoteAlign secretSize).ctx)
        ((sample quoteSize quoteAlign secretSize).invocation .handleMsg0 buffer)).2.buffer =
      buffer :=
  step_handleMsg0_of_reaches (Exchange.invocation_command _ _ _)
    (handleMsg0_reaches (calm quoteSize quoteAlign) _ buffer
      ⟨calm_works _ _ _ _, calm_works _ _ _ _, calm_works _ _ _ _, calm_works _ _ _ _,
        calm_works _ _ _ _⟩ h rfl)

theorem sample_prepareMsg1 (message buffer : List UInt8)
    (h : sizeof Wire.Verifier.msg1 ≤ buffer.length) :
    (step (.live (sampleCtx0 quoteSize quoteAlign secretSize message))
        ((sample quoteSize quoteAlign secretSize).invocation .prepareMsg1 buffer)).1 =
      .live (sampleCtx1 quoteSize quoteAlign secretSize message) ∧
    (step (.live (sampleCtx0 quoteSize quoteAlign secretSize message))
        ((sample quoteSize quoteAlign secretSize).invocation .prepareMsg1 buffer)).2.result = none ∧
    (step (.live (sampleCtx0 quoteSize quoteAlign secretSize message))
        ((sample quoteSize quoteAlign secretSize).invocation .prepareMsg1 buffer)).2.buffer =
      putMsg1 sampleMsg1 buffer := by
  obtain ⟨hnext, hresult, hbuffer, -⟩ := step_prepareMsg1_of_reaches
    ((sample quoteSize quoteAlign secretSize).invocation_command .prepareMsg1 buffer)
    (prepareMsg1_reaches (calm quoteSize quoteAlign)
      (sampleCtx0 quoteSize quoteAlign secretSize message) buffer h (calm_works _ _ _ _)
      (calm_works _ _ _ _) () (macKey [1]) rfl rfl)
  exact ⟨hnext, hresult, hbuffer⟩

variable {quoteSize quoteAlign secretSize}

theorem length_sampleMsg0 : sampleMsg0.length = 80 := rfl

theorem le_msg2Size : 96 ≤ msg2Size quoteSize quoteAlign := by
  have hquote := le_quoteOffset (permissive quoteSize quoteAlign)
  have hmac : macOffset (permissive quoteSize quoteAlign) + 16 ≤ msg2Size quoteSize quoteAlign :=
    macOffset_le_sizeof (permissive quoteSize quoteAlign)
  have hoffset : macOffset (permissive quoteSize quoteAlign) =
      quoteOffset (permissive quoteSize quoteAlign) + quoteSize := rfl
  omega

variable (quoteSize quoteAlign) in
def sampleMsg2 : List UInt8 :=
  sampleMsg0 ++ List.replicate (msg2Size quoteSize quoteAlign - 80) 7

theorem length_sampleMsg2 :
    (sampleMsg2 quoteSize quoteAlign).length = msg2Size quoteSize quoteAlign := by
  have hsize : 96 ≤ msg2Size quoteSize quoteAlign := le_msg2Size
  rw [sampleMsg2, List.length_append, length_sampleMsg0, List.length_replicate]
  omega

theorem sampleMsg2_tail {i : Nat} (h : 80 ≤ i) (hi : i < msg2Size quoteSize quoteAlign) :
    (sampleMsg2 quoteSize quoteAlign)[i]? = some 7 := by
  rw [sampleMsg2, List.getElem?_append_right (by rw [length_sampleMsg0]; exact h),
    length_sampleMsg0, List.getElem?_replicate, if_pos (by omega)]

variable (quoteSize quoteAlign) in
-- The peer sends the key of `msg0` once more, and the tag that the platform expects.
theorem getMsg2_sample :
    (getMsg2 (permissive quoteSize quoteAlign) (sampleMsg2 quoteSize quoteAlign)).ecdhX =
        (getMsg0 sampleMsg0).ecdhX ∧
      (getMsg2 (permissive quoteSize quoteAlign) (sampleMsg2 quoteSize quoteAlign)).ecdhY =
        (getMsg0 sampleMsg0).ecdhY ∧
      (getMsg2 (permissive quoteSize quoteAlign) (sampleMsg2 quoteSize quoteAlign)).mac =
        List.replicate 16 7 := by
  have hsame : ∀ i < 80, ofList (sampleMsg2 quoteSize quoteAlign) i = ofList sampleMsg0 i :=
    fun i hi => ofList_append_left _ _ hi
  refine ⟨Coord.stored_congr hsame (by decide), Coord.stored_congr hsame (by decide), ?_⟩
  have hquote := le_quoteOffset (permissive quoteSize quoteAlign)
  have hmac : macOffset (permissive quoteSize quoteAlign) + 16 ≤ msg2Size quoteSize quoteAlign :=
    macOffset_le_sizeof (permissive quoteSize quoteAlign)
  have hoffset : macOffset (permissive quoteSize quoteAlign) =
      quoteOffset (permissive quoteSize quoteAlign) + quoteSize := rfl
  refine List.eq_replicate_iff.mpr ⟨slice_length _ _ _, ?_⟩
  intro b hb
  obtain ⟨i, hi, rfl⟩ := List.mem_map.mp hb
  have hlt : i < 16 := List.mem_range.mp hi
  rw [ofList, List.getD_eq_getElem?_getD, sampleMsg2_tail (by omega) (by omega)]
  rfl

theorem sample_cmac (key first second third : List UInt8) (h : first.head? = some 9) :
    (prims (permissive quoteSize quoteAlign)).cmac key [first, second, third] =
      List.replicate 16 (7 : UInt8) := by
  have hhead : [first, second, third].flatten.head? = some 9 := by
    rw [List.flatten_cons, List.head?_append, h]
    rfl
  change List.replicate 16 (if [first, second, third].flatten.head? = some 9 then 7 else 3) = _
  rw [if_pos hhead]

theorem sample_accepts :
    Accepts (calm quoteSize quoteAlign) (sampleMsg2 quoteSize quoteAlign)
      (sampleCtx1 quoteSize quoteAlign secretSize sampleMsg0) := by
  obtain ⟨hx, hy, hmac⟩ := getMsg2_sample quoteSize quoteAlign
  have hread : List.head? ((prims (permissive quoteSize quoteAlign)).read
      (getMsg2 (permissive quoteSize quoteAlign) (sampleMsg2 quoteSize quoteAlign)).ecdhX []) =
        some (9 : UInt8) := by
    rw [hx]
    rfl
  refine ⟨?_, ⟨calm_works _ _ _ _, ⟨macKey [1], rfl, ?_⟩, ⟨?_, ?_⟩, calm_works _ _ _ _,
    ⟨pinnedKey, rfl, rfl⟩⟩, calm_works _ _ _ _, rfl⟩
  · exact Nat.le_of_eq length_sampleMsg2.symm
  · exact (sample_cmac _ _ _ _ hread).trans hmac.symm
  · exact decide_eq_true (congrArg (fun c : Coord => c.raw.take 32) hx.symm)
  · exact decide_eq_true (congrArg (fun c : Coord => c.raw.take 32) hy.symm)

variable (quoteSize quoteAlign secretSize) in
def sampleCtx2 : Ctx (prims (permissive quoteSize quoteAlign)) :=
  { received (sampleMsg2 quoteSize quoteAlign)
      (sampleCtx1 quoteSize quoteAlign secretSize sampleMsg0) with isQuoteValid := true }

theorem sample_handleMsg2 :
    (step (.live (sampleCtx1 quoteSize quoteAlign secretSize sampleMsg0))
      ((sample quoteSize quoteAlign secretSize).invocation .handleMsg2
        (sampleMsg2 quoteSize quoteAlign))).1 =
      .live (sampleCtx2 quoteSize quoteAlign secretSize) := by
  refine step_handleMsg2_of_accepts (Exchange.invocation_command _ _ _) ?_
  exact sample_accepts

theorem sample_secretSize : (sample quoteSize quoteAlign secretSize).secretSize = secretSize :=
  List.length_replicate

theorem sample_releasable : Releasable (calm quoteSize quoteAlign)
    (List.replicate (sizeof Wire.Verifier.msg3 + secretSize) (0 : UInt8))
    (sampleCtx2 quoteSize quoteAlign secretSize) := by
  have hbuffer : (prims (permissive quoteSize quoteAlign)).bufSize
      (List.replicate (sizeof Wire.Verifier.msg3 + secretSize) (0 : UInt8)) =
        sizeof Wire.Verifier.msg3 + secretSize := List.length_replicate
  have hsecret : (prims (permissive quoteSize quoteAlign)).len
      (sampleCtx2 quoteSize quoteAlign secretSize).secret = secretSize := List.length_replicate
  have hheader : (prims (permissive quoteSize quoteAlign)).sizeofMsg3 =
      sizeof Wire.Verifier.msg3 := rfl
  refine ⟨?_, calm_works _ _ _ _, calm_works _ _ _ _, ?_, sessionKey [1], rfl⟩
  · rw [hbuffer, hheader]
    exact Nat.le_add_right _ _
  · rw [hbuffer, hheader, hsecret]
    omega

theorem sample_honest : (sample quoteSize quoteAlign secretSize).Honest := by
  obtain ⟨hnext0, hresult0, -⟩ :=
    sample_handleMsg0 quoteSize quoteAlign secretSize sampleMsg0 (Nat.le_refl 80)
  obtain ⟨hnext1, hresult1, -⟩ := sample_prepareMsg1 quoteSize quoteAlign secretSize sampleMsg0
    (List.replicate (sizeof Wire.Verifier.msg1) 0) (by rw [List.length_replicate])
  have hafter0 : (sample quoteSize quoteAlign secretSize).afterMsg0.1 =
      .live (sampleCtx0 quoteSize quoteAlign secretSize sampleMsg0) := hnext0
  have hrun1 : (sample quoteSize quoteAlign secretSize).afterMsg1 =
      step (.live (sampleCtx0 quoteSize quoteAlign secretSize sampleMsg0))
        ((sample quoteSize quoteAlign secretSize).invocation .prepareMsg1
          (List.replicate (sizeof Wire.Verifier.msg1) 0)) := by
    rw [Exchange.afterMsg1, hafter0]
  have hafter1 := (congrArg Prod.fst hrun1).trans hnext1
  have hprepares1 : (sample quoteSize quoteAlign secretSize).afterMsg1.2.result = none := by
    rw [hrun1]
    exact hresult1
  have hmsg2 : (sample quoteSize quoteAlign secretSize).msg2 = sampleMsg2 quoteSize quoteAlign := rfl
  have hrun2 : (sample quoteSize quoteAlign secretSize).afterMsg2 =
      step (.live (sampleCtx1 quoteSize quoteAlign secretSize sampleMsg0))
        ((sample quoteSize quoteAlign secretSize).invocation .handleMsg2
          (sampleMsg2 quoteSize quoteAlign)) := by
    rw [Exchange.afterMsg2, hmsg2, hafter1]
  have haccepts : (sample quoteSize quoteAlign secretSize).afterMsg2.2.result = none := by
    rw [hrun2]
    refine (result_handleMsg2 _ _ (Exchange.invocation_command _ _ _)).mpr ⟨_, rfl, ?_⟩
    exact sample_accepts
  have hafter2 : (sample quoteSize quoteAlign secretSize).afterMsg2.1 =
      .live (sampleCtx2 quoteSize quoteAlign secretSize) := by
    rw [hrun2]
    exact sample_handleMsg2
  refine ⟨rfl, ?_, hresult0, hprepares1, haccepts, ?_⟩
  · rw [hmsg2]
    exact length_sampleMsg2
  · rw [Exchange.afterMsg3, hafter2, sample_secretSize]
    refine (result_prepareMsg3 _ _ (Exchange.invocation_command _ _ _)).mpr ⟨_, rfl, ?_⟩
    exact sample_releasable

variable {reads : Reads}

theorem length_sampleBuff0 :
    ((sample quoteSize quoteAlign secretSize).buff0 reads).length = buffSize secretSize := by
  rw [Exchange.buff0, length_overwrite, List.length_replicate, sample_secretSize]
  rw [List.length_take, List.length_replicate]
  omega

theorem sampleBuff0_run0 : ((sample quoteSize quoteAlign secretSize).run0 reads).2.buffer =
    (sample quoteSize quoteAlign secretSize).buff0 reads :=
  (sameStep_of_dispatch _ (fun inv s => handleMsg0 inv.buffer inv.env s) (fun _ => none)
    (Exchange.invocation_command _ _ _) (Exchange.invocation_command _ _ _) (fun _ _ => rfl)
    fun _ => rfl).buffer

theorem sampleBuff1 (h : sizeof Wire.Verifier.msg1 ≤ buffSize secretSize) :
    (sample quoteSize quoteAlign secretSize).buff1 reads =
      putMsg1 sampleMsg1 ((sample quoteSize quoteAlign secretSize).buff0 reads) := by
  have hlength : ((sample quoteSize quoteAlign secretSize).buff0 reads).length =
      buffSize secretSize := length_sampleBuff0
  have hnext := (sample_handleMsg0 quoteSize quoteAlign secretSize
    ((sample quoteSize quoteAlign secretSize).buff0 reads)
    (hlength ▸ Nat.le_trans (by decide) h)).1
  have hrun1 : (sample quoteSize quoteAlign secretSize).run1 reads =
      step (.live (sampleCtx0 quoteSize quoteAlign secretSize
        ((sample quoteSize quoteAlign secretSize).buff0 reads)))
          ((sample quoteSize quoteAlign secretSize).invocation .prepareMsg1
            ((sample quoteSize quoteAlign secretSize).buff0 reads)) :=
    congrArg₂ (fun inst buffer => step inst
      ((sample quoteSize quoteAlign secretSize).invocation .prepareMsg1 buffer)) hnext
      sampleBuff0_run0
  rw [Exchange.buff1, hrun1]
  exact (sample_prepareMsg1 quoteSize quoteAlign secretSize _ _ (hlength ▸ h)).2.2

-- No byte of the buffer that takes `msg2` is a 7 before the read.
theorem seven_not_mem_sampleBuff1 (h : sizeof Wire.Verifier.msg1 ≤ buffSize secretSize) :
    7 ∉ (sample quoteSize quoteAlign secretSize).buff1 reads := by
  have hmsg0 : (7 : UInt8) ∉ sampleMsg0 := by decide
  have hmsg1 : (7 : UInt8) ∉ msg1Bytes sampleMsg1 := by decide
  rw [sampleBuff1 h, putMsg1_eq]
  intro hmem
  rcases List.mem_append.mp hmem with hmem | hmem
  · exact hmsg1 hmem
  · rcases List.mem_append.mp (List.mem_of_mem_drop hmem) with hmem | hmem
    · exact hmsg0 (List.mem_of_mem_take hmem)
    · cases List.eq_of_mem_replicate (List.mem_of_mem_drop hmem)

theorem carries_getElem? {buffer message : List UInt8} (h : Exchange.Carries buffer message)
    {i : Nat} (hi : i < message.length) : buffer[i]? = message[i]? := by
  have hsame := congrArg (fun bytes : List UInt8 => bytes[i]?) h
  simpa only [List.getElem?_take_of_lt hi] using hsame

-- The first bytes of the buffer are those that arrived, and the rest is as it was.
theorem overwrite_getElem?_left {bytes : List UInt8} {i : Nat} (h : i < bytes.length)
    (buff : List UInt8) : (overwrite bytes buff)[i]? = bytes[i]? :=
  List.getElem?_append_left h

theorem overwrite_getElem?_right {bytes : List UInt8} {i : Nat} (h : bytes.length ≤ i)
    (buff : List UInt8) : (overwrite bytes buff)[i]? = buff[i]? := by
  rw [overwrite, List.getElem?_append_right h, List.getElem?_drop]
  congr 1
  omega

theorem nine_first {i : Nat} (h : 0 < i) (hi : i < 80) : sampleMsg0[i]? ≠ some 9 := by
  have hall : ∀ i < 80, 0 < i → sampleMsg0[i]? ≠ some 9 := by decide
  exact hall i hi h

theorem length_sampleBuff1 (h : sizeof Wire.Verifier.msg1 ≤ buffSize secretSize) :
    ((sample quoteSize quoteAlign secretSize).buff1 reads).length = buffSize secretSize := by
  rw [sampleBuff1 h, length_putMsg1 _ (length_sampleBuff0 ▸ h), length_sampleBuff0]

theorem sample_incoming : (sample quoteSize quoteAlign secretSize).incoming reads =
    sampleMsg0.drop (min reads.first (buffSize secretSize)) ++ sampleMsg2 quoteSize quoteAlign := by
  rw [Exchange.incoming, sample_secretSize]
  rfl

theorem sample_buff2 (h : sizeof Wire.Verifier.msg1 ≤ buffSize secretSize) :
    (sample quoteSize quoteAlign secretSize).buff2 reads =
      overwrite ((sampleMsg0.drop (min reads.first (buffSize secretSize)) ++
        sampleMsg2 quoteSize quoteAlign).take (min reads.second (buffSize secretSize)))
        ((sample quoteSize quoteAlign secretSize).buff1 reads) := by
  rw [Exchange.buff2, sample_incoming, length_sampleBuff1 h]

-- Bytes of `msg0` that the first read leaves behind come before `msg2`.
theorem first_of_carries (hroom : sizeof Wire.Verifier.msg1 ≤ buffSize secretSize)
    (h : Exchange.Carries ((sample quoteSize quoteAlign secretSize).buff2 reads)
      (sampleMsg2 quoteSize quoteAlign)) : 80 ≤ (reads.first : Nat) := by
  by_contra hshort
  have hbig : 240 ≤ buffSize secretSize := hroom
  have hsize : 96 ≤ msg2Size quoteSize quoteAlign := le_msg2Size
  have hpos := reads.first.pos
  have hpos' := reads.second.pos
  have hmin : min (reads.first : Nat) (buffSize secretSize) = reads.first := by omega
  have hhead : ((sample quoteSize quoteAlign secretSize).buff2 reads)[0]? = some 9 :=
    carries_getElem? h (by rw [length_sampleMsg2]; omega)
  rw [sample_buff2 hroom, hmin, overwrite_getElem?_left, List.getElem?_take_of_lt (by omega),
    List.getElem?_append_left, List.getElem?_drop] at hhead
  · exact nine_first hpos (by omega) hhead
  · rw [List.length_drop, length_sampleMsg0]
    omega
  · rw [List.length_take, List.length_append, length_sampleMsg2]
    omega

-- Bytes of `msg2` that the second read leaves behind are missing in the buffer.
theorem second_of_carries (hroom : sizeof Wire.Verifier.msg1 ≤ buffSize secretSize)
    (h : Exchange.Carries ((sample quoteSize quoteAlign secretSize).buff2 reads)
      (sampleMsg2 quoteSize quoteAlign)) : msg2Size quoteSize quoteAlign ≤ reads.second := by
  by_contra hshort
  have hbig : 240 ≤ buffSize secretSize := hroom
  have hsize : 96 ≤ msg2Size quoteSize quoteAlign := le_msg2Size
  have hlast : ((sample quoteSize quoteAlign secretSize).buff2 reads)[
      msg2Size quoteSize quoteAlign - 1]? = some 7 := by
    rw [carries_getElem? h (by rw [length_sampleMsg2]; omega)]
    exact sampleMsg2_tail (by omega) (by omega)
  rw [sample_buff2 hroom, overwrite_getElem?_right] at hlast
  · exact seven_not_mem_sampleBuff1 hroom (List.mem_of_getElem? hlast)
  · rw [List.length_take]
    omega

-- The sample exchange is served only with room and whole messages.
theorem roomy_of_served (h : (sample quoteSize quoteAlign secretSize).Served reads) :
    Roomy secretSize (msg2Size quoteSize quoteAlign) reads := by
  obtain ⟨-, -, -, hroom1, hcarries, -⟩ := (Exchange.served_iff _ _).mp h
  have hlength : List.length ((sample quoteSize quoteAlign secretSize).run0 reads).2.buffer =
      buffSize secretSize := (congrArg List.length sampleBuff0_run0).trans length_sampleBuff0
  rw [hlength] at hroom1
  have hcarries : Exchange.Carries ((sample quoteSize quoteAlign secretSize).buff2 reads)
      (sampleMsg2 quoteSize quoteAlign) := hcarries
  have hfits : msg2Size quoteSize quoteAlign ≤ buffSize secretSize := by
    have hlength2 := congrArg List.length hcarries
    rw [List.length_take, length_sampleMsg2, sample_buff2 hroom1, length_overwrite,
      length_sampleBuff1 hroom1] at hlength2
    · omega
    · rw [List.length_take, length_sampleBuff1 hroom1]
      omega
  exact ⟨hroom1, hfits, first_of_carries hroom1 hcarries, second_of_carries hroom1 hcarries⟩

end Necessary

-- For a secret of this size and these reads, the server completes every honest exchange, on
-- every platform with this `ra_quote`, exactly when the buffer holds the two longest messages
-- and each read takes a whole message.
theorem connections_served_iff (quoteSize : Nat) (quoteAlign : ℕ+) (secretSize : Nat)
    (reads : Reads) :
    (∀ T : Platform, T.raQuote = .record quoteSize quoteAlign → GcmCorrect T →
      ∀ x : Exchange T, x.secretSize = secretSize → x.Honest → x.Served reads) ↔
    sizeof Wire.Verifier.msg1 ≤ buffSize secretSize ∧
      sizeof (Wire.Verifier.msg2 (.record quoteSize quoteAlign)) ≤ buffSize secretSize ∧
      sizeof Wire.Verifier.msg0 ≤ reads.first ∧
      sizeof (Wire.Verifier.msg2 (.record quoteSize quoteAlign)) ≤ reads.second := by
  constructor
  · intro h
    have hserved := h (permissive quoteSize quoteAlign) rfl (permissive_gcm quoteSize quoteAlign)
      (sample quoteSize quoteAlign secretSize) sample_secretSize sample_honest
    have hroomy := roomy_of_served hserved
    exact ⟨hroomy.msg1, hroomy.msg2, hroomy.first, hroomy.second⟩
  · intro hroom T hquote hgcm x hsecret hhonest
    subst hsecret
    rw [← hquote] at hroom
    exact served_of_roomy hhonest ⟨hroom.1, hroom.2.1, hroom.2.2.1, hroom.2.2.2⟩ hgcm

-- The built-in secret leaves no room for `msg1`, and with a large secret a read that returns
-- half of `msg0` is enough.
theorem honest_exchanges_not_served :
    ((sample 196 4 builtInSecretSize).Honest ∧
        (sample 196 4 builtInSecretSize).secretSize = builtInSecretSize ∧
        ¬(sample 196 4 builtInSecretSize).Served ⟨4096, 4096⟩) ∧
      (sample 196 4 1024).Honest ∧ ¬(sample 196 4 1024).Served ⟨40, 4096⟩ := by
  refine ⟨⟨sample_honest, sample_secretSize, ?_⟩, sample_honest, ?_⟩
  · intro h
    exact absurd (roomy_of_served h).msg1 (by decide)
  · intro h
    exact absurd (roomy_of_served h).first (by decide)

end Watz.Host
