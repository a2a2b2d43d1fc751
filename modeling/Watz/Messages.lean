import Mathlib.Algebra.Group.Nat.Defs
import Mathlib.Data.List.Basic

namespace Watz

-- Sizes that the two headers fix, in bits where the source counts bits.
def RA_ECDH_KEY_SIZE : Nat := 256
def RA_ECDSA_KEY_SIZE : Nat := 256
def RA_HASH_SIZE : Nat := 256
def RA_AES_CMAC_KEY_SIZE : Nat := 128
def RA_AES_CMAC_TAG_SIZE : Nat := 128
def RA_AES_GCM_TAG_SIZE : Nat := 128
def RA_AES_GCM_IV_SIZE : Nat := 32
def RA_AES_GCM_CIPHERTEXT_OVERHEAD : Nat := 16

-- `attestation.h` is not part of the tree. Guests hand over anchors of
-- `WASI_RA_ANCHOR_SIZE` = 32 bytes, and a P-256 signature has 64 bytes.
def RA_ANCHOR_SIZE : Nat := 32
def RA_SIGNATURE_SIZE : Nat := 64

-- Each initialiser is a C string literal, so its array ends with the terminator.
def RA_SHARED_MAC_DATA : List UInt8 := [0x01, 0x53, 0x4d, 0x4b, 0x00, 0x80, 0x00, 0x00]
def RA_SHARED_SESSION_DATA : List UInt8 := [0x01, 0x53, 0x4b, 0x00, 0x80, 0x00, 0x00]
def WASI_RA_SHARED_MAC_DATA : List UInt8 := [0x01, 0x53, 0x4d, 0x4b, 0x00, 0x80, 0x00, 0x00]
def WASI_RA_SHARED_SESSION_DATA : List UInt8 := [0x01, 0x53, 0x4b, 0x00, 0x80, 0x00, 0x00]

-- The attestation key that the verifier pins.
def RA_IMX_TEST_PUBLIC_KEY_X : List UInt8 :=
  [0x48, 0xee, 0xee, 0x81, 0xde, 0x28, 0xdb, 0x3e, 0x5d, 0x5a, 0xfc, 0x7d, 0x4b, 0x7e, 0xa4, 0xb1,
   0xac, 0x16, 0xa2, 0xd7, 0xa9, 0x97, 0x8c, 0x1f, 0x84, 0xb4, 0x35, 0x57, 0x30, 0x64, 0x38, 0x47]
def RA_IMX_TEST_PUBLIC_KEY_Y : List UInt8 :=
  [0xf7, 0xf2, 0xce, 0x32, 0x43, 0x4e, 0xab, 0x77, 0x93, 0x53, 0x74, 0x8e, 0xee, 0x64, 0xe7, 0x29,
   0x76, 0x34, 0x0e, 0x80, 0x5d, 0x87, 0xc2, 0xb6, 0x98, 0x4a, 0xa5, 0xd1, 0x2d, 0x30, 0x3f, 0xaf]

-- The four messages. `C` is a coordinate, the raw array together with its size field.
@[ext] structure Msg0 (C : Type) where
  ecdhX : C
  ecdhY : C
  deriving DecidableEq

structure Msg1 (C V : Type) where
  ecdhX : C
  ecdhY : C
  ecdsaX : C
  ecdsaY : C
  ecdhSignature : V
  mac : V
  deriving DecidableEq

structure Msg2 (C Q V : Type) where
  ecdhX : C
  ecdhY : C
  quote : Q
  mac : V
  deriving DecidableEq

-- `encryptedContent` is the content as it is handed to AES-GCM.
structure Msg3 (V : Type) where
  iv : V
  tag : V
  encryptedContentSize : Nat
  encryptedContent : V
  deriving DecidableEq

end Watz
