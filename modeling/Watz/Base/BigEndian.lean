import Watz.Base.Layout

namespace Watz.Base.BigEndian

-- A big-endian number.
def beNat : List UInt8 → Nat
  | [] => 0
  | b :: rest => b.toNat * 256 ^ rest.length + beNat rest

-- The bytes without their leading zeros.
def significant (bytes : List UInt8) : List UInt8 := bytes.dropWhile (· == 0)

theorem beNat_append (first second : List UInt8) :
    beNat (first ++ second) = beNat first * 256 ^ second.length + beNat second := by
  induction first with
  | nil => simp [beNat]
  | cons b rest ih =>
      simp only [List.cons_append, beNat, ih, List.length_append, Nat.pow_add]
      ring

theorem beNat_lt (bytes : List UInt8) : beNat bytes < 256 ^ bytes.length := by
  induction bytes with
  | nil => simp [beNat]
  | cons b rest ih =>
      have hb : b.toNat + 1 ≤ 256 := b.toNat_lt
      calc b.toNat * 256 ^ rest.length + beNat rest
          < (b.toNat + 1) * 256 ^ rest.length := by
            rw [Nat.add_mul]
            omega
        _ ≤ 256 * 256 ^ rest.length := Nat.mul_le_mul_right _ hb
        _ = 256 ^ (b :: rest).length := by rw [List.length_cons, Nat.pow_succ, Nat.mul_comm]

theorem beNat_eq_zero_iff (bytes : List UInt8) : beNat bytes = 0 ↔ ∀ b ∈ bytes, b = 0 := by
  induction bytes with
  | nil => simp [beNat]
  | cons b rest ih =>
      have hb : b.toNat = 0 ↔ b = 0 := by
        rw [← UInt8.toNat_inj]
        rfl
      have hpow : 256 ^ rest.length ≠ 0 := (Nat.pow_pos (by omega)).ne'
      simp only [beNat, Nat.add_eq_zero_iff, Nat.mul_eq_zero, hpow, or_false, hb, ih,
        List.mem_cons, forall_eq_or_imp]

theorem beNat_injective {a b : List UInt8} (hlen : a.length = b.length) (h : beNat a = beNat b) :
    a = b := by
  induction a generalizing b with
  | nil => exact (List.length_eq_zero_iff.mp hlen.symm).symm
  | cons x xs ih =>
      cases b with
      | nil => simp at hlen
      | cons y ys =>
          have htail : xs.length = ys.length := by simpa using hlen
          have hxs := beNat_lt xs
          have hys := beNat_lt ys
          have hpos : 0 < 256 ^ ys.length := Nat.pow_pos (by omega)
          simp only [beNat, htail] at h hxs
          -- the two sides are the same division with remainder
          have hquot : x.toNat = y.toNat := by
            have hdiv := congrArg (· / 256 ^ ys.length) h
            simpa [Nat.mul_comm _ (256 ^ ys.length), hpos, Nat.mul_add_div, Nat.div_eq_of_lt hxs,
              Nat.div_eq_of_lt hys] using hdiv
          rw [hquot] at h
          rw [UInt8.toNat_inj.mp hquot, ih htail (Nat.add_left_cancel h)]

theorem beNat_significant (bytes : List UInt8) : beNat (significant bytes) = beNat bytes := by
  induction bytes with
  | nil => rfl
  | cons b rest ih =>
      by_cases hb : b = 0
      · subst hb
        rw [significant, List.dropWhile_cons_of_pos (by simp), ← significant, ih]
        simp [beNat]
      · rw [significant, List.dropWhile_cons_of_neg (by simpa using hb)]

-- A number without leading zeros needs all its bytes.
theorem length_significant_le_of_beNat_le {a b : List UInt8} (h : beNat a ≤ beNat b) :
    (significant a).length ≤ (significant b).length := by
  cases hsig : significant a with
  | nil => simp
  | cons x xs =>
      have hx : x ≠ 0 := by
        have hhead := List.head?_dropWhile_not (· == 0) a
        rw [← significant, hsig] at hhead
        simpa using hhead
      have hpos : 1 ≤ x.toNat := by
        by_contra hzero
        exact hx (UInt8.toNat_inj.mp (by simpa using hzero))
      by_contra hlt
      have hle : 256 ^ (significant b).length ≤ 256 ^ xs.length :=
        Nat.pow_le_pow_right (by omega) (by simp only [List.length_cons] at hlt; omega)
      have hlow : 256 ^ xs.length ≤ x.toNat * 256 ^ xs.length := Nat.le_mul_of_pos_left _ hpos
      have hvalue : beNat a = x.toNat * 256 ^ xs.length + beNat xs := by
        rw [← beNat_significant, hsig, beNat]
      have hbound := beNat_lt (significant b)
      rw [beNat_significant] at hbound
      omega

-- Two byte strings hold the same number exactly when they differ in leading zeros only.
theorem beNat_eq_iff (a b : List UInt8) : beNat a = beNat b ↔ significant a = significant b := by
  constructor
  · intro h
    have hlen : (significant a).length = (significant b).length :=
      Nat.le_antisymm (length_significant_le_of_beNat_le h.le)
        (length_significant_le_of_beNat_le h.ge)
    apply beNat_injective hlen
    rw [beNat_significant, beNat_significant, h]
  · intro h
    rw [← beNat_significant a, h, beNat_significant]

-- More bytes hold the same number only when all of them are zero.
theorem beNat_append_eq_iff (first second : List UInt8) :
    beNat (first ++ second) = beNat first ↔
      second = [] ∨ beNat first = 0 ∧ beNat (first ++ second) = 0 := by
  cases second with
  | nil => simp
  | cons b rest =>
      have hpow : 256 ≤ 256 ^ (b :: rest).length := by
        rw [List.length_cons, Nat.pow_succ]
        exact Nat.le_mul_of_pos_left _ (Nat.pow_pos (by omega))
      have hgrow : beNat first * 256 ≤ beNat first * 256 ^ (b :: rest).length :=
        Nat.mul_le_mul_left _ hpow
      rw [beNat_append]
      constructor
      · intro h
        right
        omega
      · rintro (h | ⟨hfirst, hall⟩)
        · cases h
        · omega

theorem beNat_prefix_eq_iff {first whole : List UInt8} (h : first <+: whole) :
    beNat whole = beNat first ↔
      whole.length = first.length ∨ beNat first = 0 ∧ beNat whole = 0 := by
  obtain ⟨second, rfl⟩ := h
  rw [beNat_append_eq_iff, List.length_append, ← List.length_eq_zero_iff]
  constructor
  · rintro (h | h)
    · left
      omega
    · right
      exact h
  · rintro (h | h)
    · left
      omega
    · right
      exact h

end Watz.Base.BigEndian
