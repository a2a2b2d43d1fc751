import Watz.Attester.Lemmas
import Watz.Bytes
import Watz.HexDump
import Watz.Verifier.Lemmas

namespace Watz

open Base Base.Layout Tee

-- A store stays inside its block. `text` says for which lengths the block that a dump gets for its
-- text takes the stores of the dump.
def Event.Inside (bound : Region → Nat) (text : Nat → Prop) : Event → Prop
  | .store region offset length => offset + length ≤ bound region
  | .print _ _ length => text length
  | _ => True

namespace Attester

variable {P : Prims} (env : Env P) (s : RaContext P)

theorem decryptMsg3_reaches (h : env.Works .decryptMsg3 4) {dataSize : Nat} {key data : P.Val}
    {msg3 : Msg3 P.Val} (hkey : s.sharedSessionKey = .key key) (hmsg3 : s.msg3 = some msg3)
    (hfits : msg3.encryptedContentSize % 2 ^ 32 ≤ dataSize)
    (hdata : P.gcmDecrypt key msg3.iv msg3.encryptedContent msg3.tag = some data) :
    Prog.Reaches (decryptMsg3 dataSize) env s (data, P.len data) s := by
  norm_num at hfits
  simp [Prog.Reaches, decryptMsg3, setOperationKey, allocate, stores, print, teeCheck, Prog.call,
    Prog.onFail, Prog.bind_run, Prog.andThen, Prog.orPanic, Prog.orFail, Prog.ret, Obj.key?,
    tee_run, h 0, h 1, h 2, h 3, hkey, hmsg3, hfits, hdata]

theorem decryptMsg3_inside (h : env.Works .decryptMsg3 4) (hdebug : env.debug = false)
    {dataSize : Nat} {key data : P.Val} {msg3 : Msg3 P.Val} (hkey : s.sharedSessionKey = .key key)
    (hmsg3 : s.msg3 = some msg3) (hfits : msg3.encryptedContentSize % 2 ^ 32 ≤ dataSize)
    (hdata : P.gcmDecrypt key msg3.iv msg3.encryptedContent msg3.tag = some data)
    {bound : Region → Nat} {text : Nat → Prop} (hstore : P.len data ≤ bound .data) :
    Prog.Logs (decryptMsg3 dataSize) env s (Event.Inside bound text) := by
  norm_num at hfits
  simp [Prog.Logs, decryptMsg3, setOperationKey, allocate, stores, print, teeCheck, Prog.call,
    Prog.onFail, Prog.bind_run, Prog.andThen, Prog.orPanic, Prog.orFail, Prog.ret, Obj.key?,
    tee_run, h 0, h 1, h 2, h 3, hkey, hmsg3, hfits, hdata, Event.Inside, hstore, hdebug]

end Attester

instance Event.quiet_inside (bound : Region → Nat) (text : Nat → Prop) :
    Event.Quiet (Event.Inside bound text) :=
  ⟨fun _ _ _ => trivial, fun _ => trivial, fun _ => trivial, fun _ => trivial⟩

namespace Verifier

variable {P : Prims} {bound : Region → Nat} {text : Nat → Prop}

theorem confined_encryptMsg3 (buffer : P.Buf) {data : P.Val}
    (h : P.sizeofMsg3 + P.len data ≤ bound .shared) :
    Prog.Confined (fun _ => True) (Event.Inside bound text)
      (encryptMsg3 buffer data : VerifierM P P.Buf) := by
  have hstores : ∀ range ∈ [(P.sizeofMsg3, P.len data), (0, P.sizeofMsg3)],
      (Event.store .shared range.1 range.2).Inside bound text := by
    intro range hrange
    simp only [List.mem_cons, List.not_mem_nil, or_false] at hrange
    rcases hrange with rfl | rfl
    · exact h
    · simp only [Event.Inside]
      omega
  have hcleanup : ∀ event ∈ [Event.free (.operation .encryptMsg3)], event.Inside bound text := by
    simp [Event.Inside]
  unfold encryptMsg3
  refine (confined_enter _).bind fun _ => Prog.Confined.get.bind fun s => ?_
  refine Prog.Confined.ask.bind fun env => Prog.Confined.bind ?_ fun key => ?_
  · refine Prog.Confined.onFail hcleanup ((confined_allocate _ _ _).bind fun _ => ?_)
    refine (confined_setOperationKey _ _ _).bind fun key => (confined_tee _ _).bind fun _ => ?_
    exact (confined_teeCheck _ _ _ _).bind fun _ => Prog.Confined.pure key
  · refine (confined_stores hstores).bind fun _ => ?_
    exact (Prog.Confined.emit hcleanup).bind fun _ => Prog.Confined.pure _

-- What a command with these arguments logs stays inside, if its dump of thirty bytes does.
theorem logs_prepareMsg3 {env : Env P} {s : Ctx P} (buffer : P.Buf) {data : P.Val}
    (h : P.sizeofMsg3 + P.len data ≤ bound .shared) (hdump : env.debug = true → text 30) :
    Prog.Logs (prepareMsg3 buffer data) env s (Event.Inside bound text) := by
  have hallocate : Prog.Confined (fun _ => True) (Event.Inside bound text)
      (allocateMsg3 buffer : VerifierM P Unit) :=
    (Prog.Confined.require _ _).bind fun _ => confined_mallocUnchecked _ _ _
  have hfree : ∀ event ∈ [Event.free .msg3], event.Inside bound text := by simp [Event.Inside]
  have hprint : ∀ s : Ctx P, Prog.Logs (print .shared 0 30) env s (Event.Inside bound text) := by
    intro s
    cases hdebug : env.debug <;>
      simp [Prog.Logs, print, Prog.bind_run, Prog.andThen, hdebug, Event.Inside, hdump]
  refine (hallocate.logs env s).bind fun _ _ => ?_
  refine ((confined_encryptMsg3 buffer h).logs env _).bind fun sealed _ => ?_
  refine ((Prog.Confined.emit hfree).logs env _).bind fun _ _ => ?_
  exact (hprint _).bind fun _ _ => (Prog.Confined.pure sealed).logs env _

-- With dumps, a command that succeeds prints the first thirty bytes of the message.
theorem prepareMsg3_prints {env : Env P} {s : Ctx P} (hdebug : env.debug = true) {buffer : P.Buf}
    {data : P.Val} {sent : P.Buf} (h : (prepareMsg3 buffer data env s).out = .ok sent) :
    .print .shared 0 30 ∈ (prepareMsg3 buffer data env s).log := by
  unfold prepareMsg3 at h ⊢
  simp only [Prog.out_bind_ok] at h
  obtain ⟨_, hallocate, sealed, hencrypt, -⟩ := h
  refine Prog.Reaches.mem_log_bind ⟨hallocate, rfl⟩ ?_
  refine Prog.Reaches.mem_log_bind ⟨hencrypt, rfl⟩ ?_
  simp [print, Prog.bind_run, Prog.andThen, hdebug]

end Verifier

namespace Bytes

-- What the theorems about `msg3` take from AES-GCM.
structure GcmCorrect (T : Platform) : Prop where
  decrypts : ∀ key iv data,
    T.gcmDecrypt key iv (T.gcmEncrypt key iv data).1 (T.gcmEncrypt key iv data).2 = some data
  length_content : ∀ key iv data, (T.gcmEncrypt key iv data).1.length = data.length
  length_tag : ∀ key iv data, (T.gcmEncrypt key iv data).2.length = RA_AES_GCM_TAG_SIZE / 8

theorem fit_of_length {length : Nat} {value : List UInt8} (h : value.length = length) :
    fit length value = value := by
  rw [fit, ← h, List.take_left]

-- A `msg3` whose members have the declared lengths.
structure WellFormed (m : Msg3 (List UInt8)) : Prop where
  iv : m.iv.length = RA_AES_GCM_IV_SIZE
  tag : m.tag.length = RA_AES_GCM_TAG_SIZE / 8
  content : m.encryptedContent.length = m.encryptedContentSize
  size : m.encryptedContentSize < 2 ^ 32

section Msg3

variable {m : Msg3 (List UInt8)} (h : WellFormed m) (buffer : List UInt8)
include h

theorem length_msg3Header : (msg3Header m).length = sizeof Wire.Verifier.msg3 := by
  rw [msg3Header, fit_of_length h.iv, fit_of_length h.tag]
  simp only [List.length_append, leBytes_length, h.iv, h.tag]
  rfl

theorem length_putMsg3
    (hroom : sizeof Wire.Verifier.msg3 + m.encryptedContentSize ≤ buffer.length) :
    (putMsg3 m buffer).length = buffer.length := by
  simp only [putMsg3, List.length_append, List.length_drop, length_msg3Header h, h.content]
  omega

-- The receiver finds the members of the header and the content where the sender put them.
theorem parseMsg3_putMsg3 {mem : Mem}
    (hmem : ∀ i < (putMsg3 m buffer).length, mem i = ofList (putMsg3 m buffer) i) :
    parseMsg3 mem = m := by
  have hiv := h.iv
  have htag := h.tag
  have hcontent := h.content
  have hmember : ∀ before middle after, putMsg3 m buffer = before ++ (middle ++ after) →
      slice mem before.length middle.length = middle := by
    intro before middle after hsplit
    have hlen := congrArg List.length hsplit
    simp only [List.length_append] at hlen
    calc slice mem before.length middle.length
        = slice (ofList (putMsg3 m buffer)) before.length middle.length :=
          (slice_eq_iff mem _ _ _ _).mpr fun i hi => hmem _ (by omega)
      _ = middle := by rw [hsplit, slice_middle before middle after rfl rfl]
  have hsent : putMsg3 m buffer = m.iv ++ (m.tag ++ (leBytes 8 m.encryptedContentSize ++
      (m.encryptedContent ++ buffer.drop
        (sizeof Wire.Verifier.msg3 + m.encryptedContent.length)))) := by
    simp only [putMsg3, msg3Header, fit_of_length h.iv, fit_of_length h.tag, List.append_assoc]
  have hivSlice : slice mem 0 RA_AES_GCM_IV_SIZE = m.iv := by
    rw [← hiv]
    exact hmember [] m.iv _ hsent
  have htagSlice : slice mem RA_AES_GCM_IV_SIZE (RA_AES_GCM_TAG_SIZE / 8) = m.tag := by
    rw [← hiv, ← htag]
    exact hmember m.iv m.tag _ hsent
  have hsizeSlice : slice mem 48 8 = leBytes 8 m.encryptedContentSize := by
    have hfound := hmember (m.iv ++ m.tag) (leBytes 8 m.encryptedContentSize) _
      (by rw [hsent, List.append_assoc])
    rwa [List.length_append, hiv, htag, leBytes_length] at hfound
  have hsize : leNat (slice mem 48 8) = m.encryptedContentSize := by
    rw [hsizeSlice]
    exact leNat_leBytes 8 _ (lt_trans h.size (by decide))
  have hcontentSlice :
      slice mem (sizeof Wire.Attester.msg3) m.encryptedContentSize = m.encryptedContent := by
    have hfound := hmember (m.iv ++ (m.tag ++ leBytes 8 m.encryptedContentSize))
      m.encryptedContent _ (by rw [hsent, List.append_assoc, List.append_assoc])
    rwa [List.length_append, List.length_append, hiv, htag, leBytes_length, hcontent] at hfound
  simp only [parseMsg3, hivSlice, htagSlice, hsize, Nat.mod_eq_of_lt h.size, hcontentSlice]

end Msg3

-- The last message of one exchange: what the two parties hold when it is due, and the buffer
-- of the verifier's host.
structure Transfer (T : Platform) where
  key : List UInt8
  dataSize : Nat
  buffer : List UInt8
  verifierEnv : Env (prims T)
  verifier : Verifier.Ctx (prims T)
  attesterEnv : Env (prims T)
  attester : Attester.RaContext (prims T)

namespace Transfer

variable {T : Platform} (x : Transfer T)

def secret : List UInt8 := x.verifier.secret

def blockSize : Nat := Attester.msg3BlockSize (prims T) x.dataSize

-- The blocks of the attester that take stores.
def room : Region → Nat
  | .msg3 => x.blockSize
  | .data => x.dataSize
  | _ => 0

-- The attester's side when this stream reaches it.
def receiver (wire : Attester.Wire) : Env (prims T) := { x.attesterEnv with wire := wire }

-- Both parties hold the session key, their TEE calls work, the block of the attester was
-- allocated (`TEE_Malloc` takes its size as a `uint32_t`), and the host's buffer has the size
-- that the host computes for it.
structure Ready : Prop where
  verifierKey : x.verifier.sharedSessionKey = .key x.key
  attesterKey : x.attester.sharedSessionKey = .key x.key
  verifierWorks : x.verifierEnv.NoFaults
  attesterWorks : x.attesterEnv.NoFaults
  iv : List.length x.verifierEnv.iv = RA_AES_GCM_IV_SIZE
  fits : x.secret.length ≤ x.dataSize
  allocated : x.blockSize < 2 ^ 32
  bufferSize : x.buffer.length =
    x.secret.length + sizeof Wire.Verifier.msg3 + RA_AES_GCM_CIPHERTEXT_OVERHEAD

-- The secret reaches the guest through the host's buffer and any transport, and neither party
-- stores outside its blocks.
def Delivered : Prop :=
  ∃ sent, (Verifier.prepareMsg3 x.buffer x.secret x.verifierEnv x.verifier).out = .ok sent ∧
    sent.length = x.buffer.length ∧
    Prog.Logs (Verifier.prepareMsg3 x.buffer x.secret) x.verifierEnv x.verifier
      (Event.Inside (fun _ => x.buffer.length) HexDump.Verifier.TextInside) ∧
    ∀ wire : Attester.Wire, wire.pending = sent →
      (Attester.raNetReceiveData x.dataSize (x.receiver wire) x.attester).out =
          .ok (x.secret, x.secret.length) ∧
        Prog.Logs (Attester.raNetReceiveData x.dataSize) (x.receiver wire) x.attester
          (Event.Inside x.room HexDump.TextInside)

def sealed : Msg3 (List UInt8) := Verifier.sealedMsg3 x.verifierEnv x.key x.verifier.secret

section Theorems

variable {x} (h : x.Ready)
include h

theorem prepareMsg3_out :
    (Verifier.prepareMsg3 x.buffer x.verifier.secret x.verifierEnv x.verifier).out =
      .ok (putMsg3 x.sealed x.buffer) := by
  have hbuffer := h.bufferSize
  refine (Verifier.prepareMsg3_ok _ _ _ _).mpr ⟨?_, x.key, h.verifierKey, rfl⟩
  refine ⟨?_, h.verifierWorks.works _ _, h.verifierWorks.works _ _, ?_, x.key, h.verifierKey⟩
  · change sizeof Wire.Verifier.msg3 ≤ x.buffer.length
    omega
  · change x.secret.length ≤ x.buffer.length - sizeof Wire.Verifier.msg3
    omega

theorem prepareMsg3_inside (hdebug : x.verifierEnv.debug = false) :
    Prog.Logs (Verifier.prepareMsg3 x.buffer x.verifier.secret) x.verifierEnv x.verifier
      (Event.Inside (fun _ => x.buffer.length) HexDump.Verifier.TextInside) := by
  have hbuffer := h.bufferSize
  have hfits : (prims T).sizeofMsg3 + (prims T).len x.verifier.secret ≤ x.buffer.length := by
    change sizeof Wire.Verifier.msg3 + x.secret.length ≤ x.buffer.length
    omega
  exact @Verifier.logs_prepareMsg3 (prims T) (fun _ => x.buffer.length) _ x.verifierEnv x.verifier
    x.buffer x.verifier.secret hfits (by simp [hdebug])

theorem blockSize_word : x.blockSize % 2 ^ 32 = x.blockSize := Nat.mod_eq_of_lt h.allocated

theorem secret_word : x.secret.length < 2 ^ 32 := by
  have hallocated := h.allocated
  have hfits := h.fits
  simp only [blockSize, Attester.msg3BlockSize] at hallocated
  omega

-- The block after the receive loop.
theorem receiveMsg3_after (wire : Attester.Wire) :
    Attester.receiveMsg3 (x.receiver wire) (Attester.withBlock x.blockSize x.attester) =
      ⟨.ok (), Attester.withMsg3 (x.receiver wire) x.blockSize
          (Attester.withBlock x.blockSize x.attester),
        .call .receiveMsg3 0 none ::
          (receivedMsg3 wire x.blockSize).stores.map (fun range => .store .msg3 range.1 range.2) ++
            if x.attesterEnv.debug then Attester.msg3Dumps (prims T) else []⟩ := by
  have hworks : (x.receiver wire).faults .receiveMsg3 0 = none := h.attesterWorks .receiveMsg3 0
  rw [Attester.receiveMsg3_run _ _ hworks]
  simp only [Attester.withBlock, blockSize_word h]
  rfl

variable (hgcm : GcmCorrect T)
include hgcm

theorem wellFormed : WellFormed x.sealed where
  iv := h.iv
  tag := hgcm.length_tag _ _ _
  content := hgcm.length_content _ _ _
  size := secret_word h

theorem length_sent : (putMsg3 x.sealed x.buffer).length = x.buffer.length := by
  have hbuffer := h.bufferSize
  refine length_putMsg3 (wellFormed h hgcm) x.buffer ?_
  change sizeof Wire.Verifier.msg3 + x.secret.length ≤ x.buffer.length
  omega

variable {wire : Attester.Wire} (hwire : wire.pending = putMsg3 x.sealed x.buffer)
include hwire

-- However the stream is cut, the loop fills the block with the whole message and no more.
theorem received :
    parseMsg3 (receivedMsg3 wire x.blockSize).data = x.sealed ∧
      ∀ range ∈ (receivedMsg3 wire x.blockSize).stores, range.1 + range.2 ≤ x.blockSize := by
  have hbuffer := h.bufferSize
  have hfits := h.fits
  have hstream : wire.pending.length ≤ x.blockSize := by
    rw [hwire, length_sent h hgcm, hbuffer]
    change _ ≤ sizeof Wire.Verifier.msg3 + x.dataSize + RA_AES_GCM_CIPHERTEXT_OVERHEAD
    omega
  have hchunk : 0 < 256 * 1024 := by omega
  have hdelivers : (receivedMsg3 wire x.blockSize).Delivers wire :=
    Attester.receive_delivers hchunk
  have hwhole : (receivedMsg3 wire x.blockSize).dataCursor = wire.pending.length :=
    Attester.receive_whole hchunk hstream h.allocated
  constructor
  · refine parseMsg3_putMsg3 (wellFormed h hgcm) x.buffer fun i hi => ?_
    rw [← hwire] at hi ⊢
    exact hdelivers.front_eq i (by omega)
  · intro range hrange
    have hstore := hdelivers.stores_le range hrange
    omega

-- The header says how much of the block is content, and the content decrypts to the secret.
theorem decryptMsg3_after :
    let mid := Attester.withMsg3 (x.receiver wire) x.blockSize
      (Attester.withBlock x.blockSize x.attester)
    Prog.Reaches (Attester.decryptMsg3 x.dataSize) (x.receiver wire) mid
        (x.secret, x.secret.length) mid ∧
      (x.attesterEnv.debug = false →
        Prog.Logs (Attester.decryptMsg3 x.dataSize) (x.receiver wire) mid
          (Event.Inside x.room HexDump.TextInside)) := by
  intro mid
  have hmsg3 : mid.msg3 = some x.sealed := by
    simp only [mid, Attester.withMsg3, blockSize_word h]
    exact congrArg some (received h hgcm hwire).1
  have hworks : (x.receiver wire).Works .decryptMsg3 4 := h.attesterWorks.works _ _
  have hfits : x.sealed.encryptedContentSize % 2 ^ 32 ≤ x.dataSize :=
    le_trans (Nat.mod_le _ _) h.fits
  have hdata : (prims T).gcmDecrypt x.key x.sealed.iv x.sealed.encryptedContent x.sealed.tag =
      some x.secret := hgcm.decrypts _ _ _
  have hkey : mid.sharedSessionKey = .key x.key := h.attesterKey
  refine ⟨Attester.decryptMsg3_reaches _ _ hworks hkey hmsg3 hfits hdata, fun hdebug => ?_⟩
  exact Attester.decryptMsg3_inside _ _ hworks hdebug hkey hmsg3 hfits hdata h.fits

theorem raNetReceiveData_out :
    (Attester.raNetReceiveData x.dataSize (x.receiver wire) x.attester).out =
      .ok (x.secret, x.secret.length) := by
  have hallocate := Attester.allocateMsg3_run (x.receiver wire) x.attester x.dataSize
    (h.attesterWorks .allocateMsg3 0)
  have hdecrypt := (decryptMsg3_after h hgcm hwire).1
  apply Prog.Reaches.bind_out (Prog.Reaches.of_run hallocate) |>.trans
  apply Prog.Reaches.bind_out (Prog.Reaches.of_run (receiveMsg3_after h wire)) |>.trans
  exact ((Prog.Keeps.reaches (keeps_logRead _ _ _) rfl).bind hdecrypt).1

theorem raNetReceiveData_inside (hdebug : x.attesterEnv.debug = false) :
    Prog.Logs (Attester.raNetReceiveData x.dataSize) (x.receiver wire) x.attester
      (Event.Inside x.room HexDump.TextInside) := by
  have hallocate := Attester.allocateMsg3_run (x.receiver wire) x.attester x.dataSize
    (h.attesterWorks .allocateMsg3 0)
  have hreceive := receiveMsg3_after h wire
  have hstores := (received h hgcm hwire).2
  refine (Prog.Reaches.of_run hallocate).logs_bind
    (Prog.logs_of_run hallocate (by simp [Event.Inside])) ?_
  refine (Prog.Reaches.of_run hreceive).logs_bind (Prog.logs_of_run hreceive ?_) ?_
  · simp only [hdebug, Bool.false_eq_true, ite_false, List.append_nil, List.mem_cons,
      List.mem_map]
    rintro event (rfl | ⟨range, hrange, rfl⟩)
    · trivial
    · exact hstores range hrange
  · refine (Prog.Keeps.reaches (keeps_logRead .msg3 48 8) rfl).logs_bind ?_ ?_
    · simp [Prog.Logs, logRead, Prog.bind_run, Prog.andThen, receiver, hdebug]
    · exact (decryptMsg3_after h hgcm hwire).2 hdebug

omit hgcm hwire in
-- With dumps, fifty bytes behind the header are printed, whatever was received.
theorem raNetReceiveData_prints (hdebug : x.attesterEnv.debug = true) (wire : Attester.Wire) :
    .print .msg3 (prims T).sizeofMsg3 50 ∈
      (Attester.raNetReceiveData x.dataSize (x.receiver wire) x.attester).log := by
  have hallocate := Attester.allocateMsg3_run (x.receiver wire) x.attester x.dataSize
    (h.attesterWorks .allocateMsg3 0)
  refine (Prog.Reaches.of_run hallocate).mem_log_bind (Prog.mem_log_bind _ _ _ _ ?_)
  have hreceive := receiveMsg3_after h wire
  change _ ∈ (Attester.receiveMsg3 (x.receiver wire)
    (Attester.withBlock x.blockSize x.attester)).log
  rw [hreceive, hdebug]
  exact List.mem_append_right _ (by simp [Attester.msg3Dumps])

omit hwire in
-- Everything arrives in every build, and nothing is stored outside exactly in builds without
-- dumps: the text blocks of the dumps are too short.
theorem delivered_iff :
    x.Delivered ↔ x.verifierEnv.debug = false ∧ x.attesterEnv.debug = false := by
  constructor
  · rintro ⟨sent, hsent, -, hverifier, hattester⟩
    constructor
    · by_contra hdebug
      have hprint := Verifier.prepareMsg3_prints (by simpa using hdebug) hsent
      exact HexDump.Verifier.not_textInside 30 (hverifier _ hprint)
    · by_contra hdebug
      have hprint := raNetReceiveData_prints h (by simpa using hdebug)
        ⟨sent, fun _ => 1, fun _ => 0⟩
      have hinside := (hattester ⟨sent, fun _ => 1, fun _ => 0⟩ rfl).2 _ hprint
      exact absurd ((HexDump.textInside_iff 50).mp hinside) (Nat.lt_irrefl 50)
  · rintro ⟨hverifier, hattester⟩
    refine ⟨putMsg3 x.sealed x.buffer, prepareMsg3_out h, length_sent h hgcm,
      prepareMsg3_inside h hverifier, fun wire hwire => ?_⟩
    exact ⟨raNetReceiveData_out h hgcm hwire, raNetReceiveData_inside h hgcm hwire hattester⟩

end Theorems

end Transfer

theorem Sample.gcmCorrect : GcmCorrect Sample.platform where
  decrypts key iv data := by
    simp only [Sample.platform, Sample.masked_masked, ite_true]
  length_content key iv data := by
    simp [Sample.platform, Sample.masked]
  length_tag key iv data := leBytes_length _ _

-- A secret of five bytes for a guest that has room for eight.
def sampleTransfer (debug : Bool) : Transfer Sample.platform :=
  let key := List.replicate 16 7
  { key := key
    dataSize := 8
    buffer := List.replicate 77 0
    verifierEnv := { Sample.calm 2 3 Sample.silent with debug := debug }
    verifier :=
      { Verifier.Ctx.zero _ with
        secret := [115, 101, 99, 114, 0]
        sharedSessionKey := .key key }
    attesterEnv := { Sample.calm 2 3 Sample.silent with debug := debug }
    attester := { Attester.RaContext.fresh _ with sharedSessionKey := .key key } }

theorem sampleTransfer_ready (debug : Bool) : (sampleTransfer debug).Ready where
  verifierKey := rfl
  attesterKey := rfl
  verifierWorks _ _ := rfl
  attesterWorks _ _ := rfl
  iv := rfl
  fits := Nat.le_of_ble_eq_true rfl
  allocated := Nat.lt_of_succ_le (Nat.le_of_ble_eq_true rfl)
  bufferSize := rfl

theorem sampleTransfer_delivered : (sampleTransfer false).Delivered :=
  (Transfer.delivered_iff (sampleTransfer_ready false) Sample.gcmCorrect).mpr ⟨rfl, rfl⟩

-- At the default log level the dump of the thirty first bytes leaves its text block.
theorem sampleTransfer_leaves_text :
    GcmCorrect Sample.platform ∧ (sampleTransfer true).Ready ∧
      ¬ (sampleTransfer true).Delivered := by
  refine ⟨Sample.gcmCorrect, sampleTransfer_ready true, ?_⟩
  rintro ⟨sent, hsent, -, hverifier, -⟩
  exact HexDump.Verifier.not_textInside 30 (hverifier _ (Verifier.prepareMsg3_prints rfl hsent))

end Bytes

end Watz
