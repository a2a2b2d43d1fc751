import Watz.Attester.Receive
import Watz.Tee
import Watz.Wire

namespace Watz.Bytes

open Base.Layout

-- A coordinate as it lies in a message: the raw array and the size field behind it.
structure Coord where
  raw : List UInt8
  size : Nat
  length_raw : raw.length = RA_ECDH_KEY_SIZE / 8
  deriving DecidableEq

-- The parts of the TEE that are not in the tree: its algorithms, and the type `ra_quote` with
-- the members that the verifier reads.
structure Platform where
  Ecdh : Type
  Ecdsa : Type
  quoteSize : Nat
  quoteAlign : ℕ+
  anchor : List UInt8 → List UInt8
  version : List UInt8 → List UInt8
  claimHash : List UInt8 → List UInt8
  attestationKey : List UInt8 → List UInt8
  signature : List UInt8 → List UInt8
  sha256 : List UInt8 → List UInt8
  cmac : List UInt8 → List UInt8 → List UInt8
  publicX : Ecdh → List UInt8
  publicY : Ecdh → List UInt8
  ecdh : Ecdh → List UInt8 → List UInt8 → Option (List UInt8)
  verifyX : Ecdsa → List UInt8
  verifyY : Ecdsa → List UInt8
  sign : Ecdsa → Nat → List UInt8 → List UInt8
  verify : List UInt8 → List UInt8 → List UInt8 → List UInt8 → Bool
  gcmEncrypt : List UInt8 → List UInt8 → List UInt8 → List UInt8 × List UInt8
  gcmDecrypt : List UInt8 → List UInt8 → List UInt8 → List UInt8 → Option (List UInt8)
  -- a coordinate of P-256 is a number below 2 ^ 256, exported without leading zeros
  length_publicX : ∀ key, (publicX key).length ≤ RA_ECDH_KEY_SIZE / 8
  length_publicY : ∀ key, (publicY key).length ≤ RA_ECDH_KEY_SIZE / 8
  length_verifyX : ∀ key, (verifyX key).length ≤ RA_ECDSA_KEY_SIZE / 8
  length_verifyY : ∀ key, (verifyY key).length ≤ RA_ECDSA_KEY_SIZE / 8

def Platform.raQuote (T : Platform) : CType := .record T.quoteSize T.quoteAlign

namespace Coord

def zero : Coord := ⟨List.replicate (RA_ECDH_KEY_SIZE / 8) 0, 0, List.length_replicate⟩

def resized (c : Coord) : Coord := { c with size := RA_ECDH_KEY_SIZE / 8 }

def val (c : Coord) : List UInt8 := c.raw.take c.size

def overrun (c : Coord) (adjacent : List UInt8) : List UInt8 := (c.raw ++ adjacent).take c.size

-- The bytes at a coordinate's address, over the length in its size field.
def range (c : Coord) (adjacent : List UInt8) : List UInt8 :=
  if c.size ≤ RA_ECDH_KEY_SIZE / 8 then c.val else c.overrun adjacent

-- Both arrays are read over the size of the first.
def same (c d : Coord) : Bool := decide (c.raw.take c.size = d.raw.take c.size)

-- `TEE_MemMove` of the used part into an array of zeros.
def copy (c : Coord) : Coord where
  raw := (c.raw.take c.size ++ List.replicate (RA_ECDH_KEY_SIZE / 8 - c.size) 0).take
    (RA_ECDH_KEY_SIZE / 8)
  size := c.size
  length_raw := by
    simp only [List.length_take, List.length_append, List.length_replicate, c.length_raw]
    omega

-- `TEE_GetObjectBufferAttribute` stores the value at the front and its length.
def exported (value : List UInt8) (h : value.length ≤ RA_ECDH_KEY_SIZE / 8) (old : Coord) :
    Coord where
  raw := value ++ old.raw.drop value.length
  size := value.length
  length_raw := by
    simp only [List.length_append, List.length_drop, old.length_raw]
    omega

-- A coordinate at an offset, with a size field of `width` bytes.
def stored (mem : Mem) (offset width : Nat) : Coord where
  raw := slice mem offset (RA_ECDH_KEY_SIZE / 8)
  size := leNat (slice mem (offset + RA_ECDH_KEY_SIZE / 8) width)
  length_raw := slice_length mem offset _

def bytes (c : Coord) (width : Nat) : List UInt8 := c.raw ++ leBytes width c.size

theorem val_exported (value : List UInt8) (h : value.length ≤ RA_ECDH_KEY_SIZE / 8)
    (old : Coord) : (exported value h old).val = value := by
  simp [val, exported]

theorem range_of_le {c : Coord} (h : c.size ≤ RA_ECDH_KEY_SIZE / 8) (adjacent : List UInt8) :
    c.range adjacent = c.val := if_pos h

theorem take_copy (c : Coord) (h : c.size ≤ RA_ECDH_KEY_SIZE / 8) :
    c.copy.raw.take c.size = c.raw.take c.size := by
  have hlen : (c.raw.take c.size).length = c.size := by
    rw [List.length_take, c.length_raw]
    omega
  rw [copy, List.take_take, Nat.min_eq_left h, List.take_append_of_le_length (by omega),
    List.take_take, Nat.min_self]

theorem stored_congr {mem other : Mem} {offset width bound : Nat}
    (h : ∀ i < bound, mem i = other i) (hbound : offset + RA_ECDH_KEY_SIZE / 8 + width ≤ bound) :
    stored mem offset width = stored other offset width := by
  have hraw : slice mem offset (RA_ECDH_KEY_SIZE / 8) = slice other offset (RA_ECDH_KEY_SIZE / 8) :=
    (slice_eq_iff mem other _ _ _).mpr fun i hi => h _ (by omega)
  have hsize : slice mem (offset + RA_ECDH_KEY_SIZE / 8) width =
      slice other (offset + RA_ECDH_KEY_SIZE / 8) width :=
    (slice_eq_iff mem other _ _ _).mpr fun i hi => h _ (by omega)
  simp only [stored, hraw, hsize]

end Coord

-- A value stored to an array member of `length` bytes.
def fit (length : Nat) (value : List UInt8) : List UInt8 :=
  (value ++ List.replicate length 0).take length

section Messages

variable (T : Platform)

def quoteOffset : Nat := alignUp 80 T.quoteAlign

def macOffset : Nat := quoteOffset T + T.quoteSize

def getMsg0 (buffer : List UInt8) : Msg0 Coord :=
  ⟨.stored (ofList buffer) 0 8, .stored (ofList buffer) 40 8⟩

def getMsg2 (buffer : List UInt8) : Msg2 Coord (List UInt8) (List UInt8) where
  ecdhX := .stored (ofList buffer) 0 8
  ecdhY := .stored (ofList buffer) 40 8
  quote := slice (ofList buffer) (quoteOffset T) T.quoteSize
  mac := slice (ofList buffer) (macOffset T) (RA_AES_CMAC_TAG_SIZE / 8)

def putMsg1 (m : Msg1 Coord (List UInt8)) (buffer : List UInt8) : List UInt8 :=
  m.ecdhX.bytes 8 ++ m.ecdhY.bytes 8 ++ m.ecdsaX.bytes 8 ++ m.ecdsaY.bytes 8 ++
    fit RA_SIGNATURE_SIZE m.ecdhSignature ++ fit (RA_AES_CMAC_TAG_SIZE / 8) m.mac ++
    buffer.drop (sizeof Wire.Verifier.msg1)

def msg3Header (m : Msg3 (List UInt8)) : List UInt8 :=
  fit RA_AES_GCM_IV_SIZE m.iv ++ fit (RA_AES_GCM_TAG_SIZE / 8) m.tag ++
    leBytes 8 m.encryptedContentSize

def putMsg3 (m : Msg3 (List UInt8)) (buffer : List UInt8) : List UInt8 :=
  msg3Header m ++ m.encryptedContent ++
    buffer.drop (sizeof Wire.Verifier.msg3 + m.encryptedContent.length)

def parseMsg1 (mem : Mem) : Msg1 Coord (List UInt8) where
  ecdhX := .stored mem 0 4
  ecdhY := .stored mem 36 4
  ecdsaX := .stored mem 72 4
  ecdsaY := .stored mem 108 4
  ecdhSignature := slice mem 144 RA_SIGNATURE_SIZE
  mac := slice mem 208 (RA_AES_CMAC_TAG_SIZE / 8)

def parseMsg3 (mem : Mem) : Msg3 (List UInt8) where
  iv := slice mem 0 RA_AES_GCM_IV_SIZE
  tag := slice mem RA_AES_GCM_IV_SIZE (RA_AES_GCM_TAG_SIZE / 8)
  encryptedContentSize := leNat (slice mem 48 8)
  encryptedContent := slice mem (sizeof Wire.Attester.msg3) (leNat (slice mem 48 8) % 2 ^ 32)

-- `receive_msg1` asks for the whole structure at once, `receive_msg3` for 256 KiB.
def receivedMsg1 (wire : Attester.Wire) : Attester.Receiving :=
  Attester.receiveSocketPerChunk wire (sizeof Wire.Attester.msg1) (sizeof Wire.Attester.msg1)

def receivedMsg3 (wire : Attester.Wire) (size : Nat) : Attester.Receiving :=
  Attester.receiveSocketPerChunk wire (256 * 1024) size

def recvMsg1 (wire : Attester.Wire) : Option (Msg1 Coord (List UInt8)) :=
  if (receivedMsg1 wire).transferedData < sizeof Wire.Attester.msg1 then none
  else some (parseMsg1 (receivedMsg1 wire).data)

-- The members that these functions read are those that the two headers declare.
theorem getMsg0_decode (buffer : List UInt8) :
    decode Wire.Verifier.msg0 (ofList buffer) =
      [.bytes (getMsg0 buffer).ecdhX.raw, .number (getMsg0 buffer).ecdhX.size,
        .bytes (getMsg0 buffer).ecdhY.raw, .number (getMsg0 buffer).ecdhY.size] := rfl

theorem getMsg2_decode (buffer : List UInt8) :
    decode (Wire.Verifier.msg2 T.raQuote) (ofList buffer) =
      [.bytes (getMsg2 T buffer).ecdhX.raw, .number (getMsg2 T buffer).ecdhX.size,
        .bytes (getMsg2 T buffer).ecdhY.raw, .number (getMsg2 T buffer).ecdhY.size,
        .bytes (getMsg2 T buffer).quote, .bytes (getMsg2 T buffer).mac] := by
  have hmac : offsets (Wire.Verifier.msg2 T.raQuote) =
      [0, 32, 40, 72, quoteOffset T, alignUp (macOffset T) 1] := rfl
  rw [decode, hmac, alignUp_one]
  rfl

theorem parseMsg1_decode (mem : Mem) :
    decode Wire.Attester.msg1 mem =
      [.bytes (parseMsg1 mem).ecdhX.raw, .number (parseMsg1 mem).ecdhX.size,
        .bytes (parseMsg1 mem).ecdhY.raw, .number (parseMsg1 mem).ecdhY.size,
        .bytes (parseMsg1 mem).ecdsaX.raw, .number (parseMsg1 mem).ecdsaX.size,
        .bytes (parseMsg1 mem).ecdsaY.raw, .number (parseMsg1 mem).ecdsaY.size,
        .bytes (parseMsg1 mem).ecdhSignature, .bytes (parseMsg1 mem).mac] := rfl

-- What follows a message in its buffer is not read.
theorem ofList_append_left (bytes rest : List UInt8) {i : Nat} (h : i < bytes.length) :
    ofList (bytes ++ rest) i = ofList bytes i := by
  simp only [ofList, List.getD_eq_getElem?_getD, List.getElem?_append_left h]

theorem getMsg0_append (bytes rest : List UInt8) (h : sizeof Wire.Verifier.msg0 ≤ bytes.length) :
    getMsg0 (bytes ++ rest) = getMsg0 bytes := by
  have hsame : ∀ i < sizeof Wire.Verifier.msg0, ofList (bytes ++ rest) i = ofList bytes i :=
    fun i hi => ofList_append_left bytes rest (by omega)
  simp only [getMsg0, Coord.stored_congr hsame (by decide : 0 + RA_ECDH_KEY_SIZE / 8 + 8 ≤ _),
    Coord.stored_congr hsame (by decide : 40 + RA_ECDH_KEY_SIZE / 8 + 8 ≤ _)]

theorem le_quoteOffset : 80 ≤ quoteOffset T := le_alignUp 80 T.quoteAlign.pos

theorem macOffset_le_sizeof :
    macOffset T + RA_AES_CMAC_TAG_SIZE / 8 ≤ sizeof (Wire.Verifier.msg2 T.raQuote) := by
  have hend : endFrom 0 (Wire.Verifier.msg2 T.raQuote) =
      alignUp (macOffset T) 1 + RA_AES_CMAC_TAG_SIZE / 8 := rfl
  rw [← alignUp_one (macOffset T), ← hend]
  exact endFrom_le_sizeof _

theorem getMsg2_append (bytes rest : List UInt8)
    (h : sizeof (Wire.Verifier.msg2 T.raQuote) ≤ bytes.length) :
    getMsg2 T (bytes ++ rest) = getMsg2 T bytes := by
  have hquote := le_quoteOffset T
  have hmac := macOffset_le_sizeof T
  have hoffset : macOffset T = quoteOffset T + T.quoteSize := rfl
  have hsame : ∀ i < sizeof (Wire.Verifier.msg2 T.raQuote),
      ofList (bytes ++ rest) i = ofList bytes i :=
    fun i hi => ofList_append_left bytes rest (by omega)
  have hx : Coord.stored (ofList (bytes ++ rest)) 0 8 = Coord.stored (ofList bytes) 0 8 :=
    Coord.stored_congr hsame (by simp only [RA_ECDH_KEY_SIZE]; omega)
  have hy : Coord.stored (ofList (bytes ++ rest)) 40 8 = Coord.stored (ofList bytes) 40 8 :=
    Coord.stored_congr hsame (by simp only [RA_ECDH_KEY_SIZE]; omega)
  have hslice : ∀ offset length, offset + length ≤ sizeof (Wire.Verifier.msg2 T.raQuote) →
      slice (ofList (bytes ++ rest)) offset length = slice (ofList bytes) offset length :=
    fun offset length hle => (slice_eq_iff _ _ _ _ _).mpr fun i hi => hsame _ (by omega)
  simp only [getMsg2, hx, hy, hslice _ _ hmac, hslice (quoteOffset T) T.quoteSize (by omega)]

end Messages

-- The machine's own values: messages are the bytes of C structures.
def prims (T : Platform) : Prims where
  Coord := Coord
  Val := List UInt8
  Quote := List UInt8
  Buf := List UInt8
  Wire := Attester.Wire
  Ecdh := T.Ecdh
  Ecdsa := T.Ecdsa
  decEqVal := inferInstance
  zeroCoord := .zero
  zeroVal := []
  zeroQuote := List.replicate T.quoteSize 0
  lit bytes := bytes
  len := List.length
  size := Coord.size
  resized := Coord.resized
  val := Coord.val
  overrun := Coord.overrun
  same := Coord.same
  copy := Coord.copy
  rawEq value c := decide (value.take (RA_ECDSA_KEY_SIZE / 8) = c.raw)
  anchor := T.anchor
  version := T.version
  claimHash := T.claimHash
  attestationKey := T.attestationKey
  signature := T.signature
  quoteBytes quote := quote
  bufSize := List.length
  bufVal buffer := buffer
  sizeofMsg0 := sizeof Wire.Verifier.msg0
  sizeofMsg1 := sizeof Wire.Verifier.msg1
  sizeofMsg2 := sizeof (Wire.Verifier.msg2 T.raQuote)
  sizeofMsg3 := sizeof Wire.Verifier.msg3
  getMsg0 := getMsg0
  getMsg2 := getMsg2 T
  putMsg1 := putMsg1
  putMsg3 := putMsg3
  recvMsg1 := recvMsg1
  recvMsg3 wire size := parseMsg3 (receivedMsg3 wire size).data
  recvCount3 wire size := (receivedMsg3 wire size).transferedData
  recvStores1 wire := (receivedMsg1 wire).stores
  recvStores3 wire size := (receivedMsg3 wire size).stores
  sha256 parts := T.sha256 parts.flatten
  cmac key parts := T.cmac key parts.flatten
  pubX := T.publicX
  pubY := T.publicY
  exportX key old := .exported (T.publicX key) (T.length_publicX key) old
  exportY key old := .exported (T.publicY key) (T.length_publicY key) old
  ecdh := T.ecdh
  exportVerifyX key old := .exported (T.verifyX key) (T.length_verifyX key) old
  exportVerifyY key old := .exported (T.verifyY key) (T.length_verifyY key) old
  sign := T.sign
  verify := T.verify
  gcmEncrypt := T.gcmEncrypt
  gcmDecrypt := T.gcmDecrypt
  size_exportX key _ := T.length_publicX key
  size_exportY key _ := T.length_publicY key
  val_exportX key old := Coord.val_exported _ (T.length_publicX key) old
  val_exportY key old := Coord.val_exported _ (T.length_publicY key) old
  size_exportVerifyX key _ := T.length_verifyX key
  size_exportVerifyY key _ := T.length_verifyY key
  size_zeroCoord := Nat.zero_le _
  size_resized _ := Nat.le_refl _
  size_copy _ := rfl
  val_copy c h := Coord.take_copy c h
  same_copy c h := decide_eq_true (Coord.take_copy c h).symm

-- A platform small enough to run: a group of prime order with generator 6 for the key
-- exchange, and sums of bytes for the hashes, tags and signatures.
namespace Sample

def mixed (width : Nat) (bytes : List UInt8) : List UInt8 :=
  leBytes width (bytes.foldl (fun sum b => (sum * 257 + b.toNat + 1) % 256 ^ width) 1)

def power (base exponent : Nat) : List UInt8 := [UInt8.ofNat (base ^ exponent % 251)]

theorem length_power (base exponent : Nat) :
    (power base exponent).length ≤ RA_ECDH_KEY_SIZE / 8 := Nat.le_add_left 1 31

def keystream (key iv : List UInt8) (i : Nat) : UInt8 :=
  (mixed 32 (key ++ iv)).getD (i % 32) 0 + UInt8.ofNat i

def masked (key iv data : List UInt8) : List UInt8 :=
  data.mapIdx fun i b => b ^^^ keystream key iv i

def platform : Platform where
  Ecdh := Nat
  Ecdsa := Nat
  quoteSize := 196
  quoteAlign := Nat.succPNat 3
  anchor quote := quote.take 32
  version quote := (quote.drop 32).take 4
  claimHash quote := (quote.drop 36).take 32
  attestationKey quote := (quote.drop 68).take 64
  signature quote := (quote.drop 132).take 64
  sha256 := mixed 32
  cmac key bytes := mixed 16 (key ++ bytes)
  publicX key := power 6 key
  publicY key := power 36 key
  ecdh key x _ := some (power (leNat x) key)
  verifyX key := power 6 key
  verifyY key := power 36 key
  sign key _ digest := mixed 64 (power 6 key ++ power 36 key ++ digest)
  verify x y digest signature := decide (signature = mixed 64 (x ++ y ++ digest))
  gcmEncrypt key iv data := (masked key iv data, mixed 16 (key ++ iv ++ data))
  gcmDecrypt key iv content tag :=
    if tag = mixed 16 (key ++ iv ++ masked key iv content) then some (masked key iv content)
    else none
  length_publicX _ := length_power _ _
  length_publicY _ := length_power _ _
  length_verifyX _ := length_power _ _
  length_verifyY _ := length_power _ _

def silent : Attester.Wire := ⟨[], fun _ => 0, fun _ => 0⟩

-- An environment in which every call works.
def calm (ecdhKey ecdsaKey : Nat) (wire : Attester.Wire) : Env (prims platform) where
  faults _ _ := none
  ecdhKey := ecdhKey
  ecdsaKey := ecdsaKey
  random := 0
  iv := List.replicate RA_AES_GCM_IV_SIZE 9
  wire := wire
  adjacent _ := []
  overCompare _ := false
  debug := false

theorem masked_masked (key iv data : List UInt8) : masked key iv (masked key iv data) = data := by
  apply List.ext_getElem
  · simp [masked]
  · intro i _ _
    simp only [masked, List.getElem_mapIdx]
    rw [UInt8.xor_assoc, UInt8.xor_self, UInt8.xor_zero]

end Sample

end Watz.Bytes
