import Watz.Attester.Lemmas
import Watz.Base.BigEndian
import Watz.Bytes

namespace Watz.Pinning

open Base BigEndian Bytes

-- The key of a service: two big-endian coordinates of 32 bytes.
structure ServiceKey where
  x : List UInt8
  y : List UInt8
  length_x : x.length = RA_ECDSA_KEY_SIZE / 8
  length_y : y.length = RA_ECDSA_KEY_SIZE / 8

variable {T : Platform}

-- What the guest passes for it.
def ServiceKey.pin (key : ServiceKey) : Attester.Pin (prims T) where
  x := key.x
  xSize := RA_ECDSA_KEY_SIZE / 8
  y := key.y
  ySize := RA_ECDSA_KEY_SIZE / 8

def ServiceKey.point (key : ServiceKey) : Nat × Nat := (beNat key.x, beNat key.y)

-- The two calls of `ra_net_handshake` on the verifier's key.
def checkAndImport (key : ServiceKey) : Attester.AttesterM (prims T) Unit := do
  Attester.verifyServicePublicKey key.pin
  Attester.importVerifierAttestationKey

-- The point that the import alone leaves in the key object.
def importedPoint (env : Env (prims T)) (s : Attester.RaContext (prims T)) : Option (Nat × Nat) :=
  let effect := Attester.importVerifierAttestationKey env s
  if effect.out = .ok () then
    effect.state.ecdsaVerifierPublicKey.key?.map fun key => (beNat key.1, beNat key.2)
  else none

-- The pinned key passes, and no other does.
def PinsKey (key : ServiceKey) (env : Env (prims T)) (s : Attester.RaContext (prims T)) : Prop :=
  (checkAndImport key env s).out = .ok () ↔ importedPoint env s = some key.point

section Ranges

-- A range that is the whole raw array, or that only has zeros to add or to leave out.
def Covers (range raw : List UInt8) : Prop :=
  range.length = raw.length ∨ (∀ b ∈ raw, b = 0) ∧ ∀ b ∈ range, b = 0

-- A range starts where its array does, so one of them is a prefix of the other.
theorem range_prefix (c : Coord) (adjacent : List UInt8) :
    c.range adjacent <+: c.raw ∨ c.raw <+: c.range adjacent := by
  unfold Coord.range
  by_cases hsize : c.size ≤ RA_ECDH_KEY_SIZE / 8
  · left
    rw [if_pos hsize]
    exact List.take_prefix _ _
  · right
    rw [if_neg hsize, Coord.overrun, List.take_append,
      List.take_of_length_le (by rw [c.length_raw]; omega)]
    exact List.prefix_append _ _

theorem beNat_range_eq_iff (c : Coord) (adjacent : List UInt8) :
    beNat (c.range adjacent) = beNat c.raw ↔ Covers (c.range adjacent) c.raw := by
  unfold Covers
  rw [← beNat_eq_zero_iff, ← beNat_eq_zero_iff]
  rcases range_prefix c adjacent with h | h
  · rw [eq_comm, beNat_prefix_eq_iff h, eq_comm, and_comm]
  · exact beNat_prefix_eq_iff h

variable (env : Env (prims T)) (msg1 : Msg1 Coord (List UInt8))

-- The bytes that the two attributes refer to.
def rangeX : List UInt8 := msg1.ecdsaX.range (env.adjacent .msg1EcdsaX)

def rangeY : List UInt8 := msg1.ecdsaY.range (env.adjacent .msg1EcdsaY)

-- With the pinned arrays, both ranges cover them. With other arrays, the ranges are not the
-- pinned coordinates in another encoding.
def Canonical (key : ServiceKey) : Prop :=
  if msg1.ecdsaX.raw = key.x ∧ msg1.ecdsaY.raw = key.y then
    Covers (rangeX env msg1) key.x ∧ Covers (rangeY env msg1) key.y
  else
    ¬ (significant (rangeX env msg1) = significant key.x ∧
      significant (rangeY env msg1) = significant key.y)

end Ranges

section Calls

variable (env : Env (prims T)) (s : Attester.RaContext (prims T))

theorem pinned_iff (key : ServiceKey) (msg1 : Msg1 Coord (List UInt8)) :
    Attester.Pinned (key.pin : Attester.Pin (prims T)) msg1 ↔
      msg1.ecdsaX.raw = key.x ∧ msg1.ecdsaY.raw = key.y := by
  have hsize : RA_ECDSA_KEY_SIZE / 8 ≠ 0 := by decide
  have hx : key.x.take (RA_ECDSA_KEY_SIZE / 8) = key.x := List.take_of_length_le key.length_x.le
  have hy : key.y.take (RA_ECDSA_KEY_SIZE / 8) = key.y := List.take_of_length_le key.length_y.le
  simp only [Attester.Pinned, ServiceKey.pin, hsize, false_and, false_or, true_and, prims,
    decide_eq_true_eq, hx, hy]
  rw [eq_comm, eq_comm (a := key.y)]

theorem checkAndImport_ok (key : ServiceKey) :
    (checkAndImport key env s).out = .ok () ↔
      (s.msg1.ecdsaX.raw = key.x ∧ s.msg1.ecdsaY.raw = key.y) ∧
        env.Works .importVerifierAttestationKey 2 := by
  have hcheck := (Attester.verifyServicePublicKey_ok env s key.pin).trans (pinned_iff key s.msg1)
  unfold checkAndImport
  rw [Prog.out_bind_ok, Prog.exists_unit, hcheck, Attester.importVerifierAttestationKey_ok]

theorem importedPoint_eq_some_iff (point : Nat × Nat) :
    importedPoint env s = some point ↔ env.Works .importVerifierAttestationKey 2 ∧
      (beNat (rangeX env s.msg1), beNat (rangeY env s.msg1)) = point := by
  unfold importedPoint
  by_cases hworks : env.Works .importVerifierAttestationKey 2
  · have hreaches := Attester.importVerifierAttestationKey_reaches env s hworks
    simp only [hreaches.1, hreaches.2, ite_true, Obj.key?, Option.map_some, Option.some.injEq,
      hworks, true_and]
    rfl
  · rw [← Attester.importVerifierAttestationKey_ok env s] at hworks
    simp [hworks, ← Attester.importVerifierAttestationKey_ok env s]

-- The two calls pin the key they use exactly on the messages that have it in one encoding.
theorem pinsKey_iff (key : ServiceKey) :
    PinsKey key env s ↔
      (env.Works .importVerifierAttestationKey 2 → Canonical env s.msg1 key) := by
  unfold PinsKey Canonical
  rw [checkAndImport_ok, importedPoint_eq_some_iff, ServiceKey.point, Prod.mk.injEq]
  by_cases hworks : env.Works .importVerifierAttestationKey 2
  · simp only [hworks, and_true, true_and, forall_const]
    by_cases hraw : s.msg1.ecdsaX.raw = key.x ∧ s.msg1.ecdsaY.raw = key.y
    · have hx := beNat_range_eq_iff s.msg1.ecdsaX (env.adjacent .msg1EcdsaX)
      have hy := beNat_range_eq_iff s.msg1.ecdsaY (env.adjacent .msg1EcdsaY)
      rw [hraw.1] at hx
      rw [hraw.2] at hy
      simp only [hraw, and_self, true_iff, ite_true]
      exact and_congr hx hy
    · rw [if_neg hraw, ← beNat_eq_iff, ← beNat_eq_iff]
      simp only [hraw, false_iff]
  · simp [hworks]

end Calls

section Misread

open Sample

-- The raw arrays of a pinned key under size fields that are one byte short.
def servedKey : ServiceKey :=
  ⟨List.replicate 32 7, List.replicate 32 8, List.length_replicate, List.length_replicate⟩

def shortenedMsg1 : Msg1 Coord (List UInt8) :=
  { (Attester.RaContext.fresh (prims platform)).msg1 with
    ecdsaX := ⟨List.replicate 32 7, 31, List.length_replicate⟩
    ecdsaY := ⟨List.replicate 32 8, 31, List.length_replicate⟩ }

-- A key whose coordinates have leading zeros, and the export of an honest verifier.
def paddedKey : ServiceKey :=
  ⟨List.replicate 31 0 ++ [6], List.replicate 31 0 ++ [36], rfl, rfl⟩

def exportedMsg1 : Msg1 Coord (List UInt8) :=
  { (Attester.RaContext.fresh (prims platform)).msg1 with
    ecdsaX := (prims platform).exportVerifyX (1 : Nat) Coord.zero.resized
    ecdsaY := (prims platform).exportVerifyY (1 : Nat) Coord.zero.resized }

def receivedContext (msg1 : Msg1 Coord (List UInt8)) : Attester.RaContext (prims platform) :=
  { Attester.RaContext.fresh (prims platform) with msg1 := msg1 }

-- The first passes and another key is used. The second holds the pinned key and is refused.
theorem shortened_passes_and_exported_is_refused :
    let env := calm 1 1 silent
    ((checkAndImport servedKey env (receivedContext shortenedMsg1)).out = .ok () ∧
        importedPoint env (receivedContext shortenedMsg1) ≠ some servedKey.point) ∧
      ((checkAndImport paddedKey env (receivedContext exportedMsg1)).out ≠ .ok () ∧
        importedPoint env (receivedContext exportedMsg1) = some paddedKey.point) := by
  intro env
  have hworks : env.Works .importVerifierAttestationKey 2 := fun _ _ => rfl
  refine ⟨⟨?_, ?_⟩, ?_, ?_⟩
  · exact (checkAndImport_ok env _ servedKey).mpr ⟨⟨rfl, rfl⟩, hworks⟩
  · rw [ne_eq, importedPoint_eq_some_iff]
    rintro ⟨-, hpoint⟩
    exact absurd hpoint (by decide)
  · rw [ne_eq, checkAndImport_ok]
    rintro ⟨⟨hraw, -⟩, -⟩
    exact absurd hraw (by decide)
  · exact (importedPoint_eq_some_iff env _ _).mpr ⟨hworks, by decide⟩

end Misread

end Watz.Pinning
