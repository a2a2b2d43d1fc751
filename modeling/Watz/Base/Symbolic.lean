import Mathlib.Data.Sym.Sym2
import Mathlib.Data.Set.Basic

namespace Watz.Base.Symbolic

-- Private values: those drawn by a party of the protocol and those of the attacker.
inductive Name where
  | honest (role index : Nat)
  | attacker (index : Nat)
  deriving DecidableEq, Repr

def Name.isAttacker : Name → Prop
  | honest _ _ => False
  | attacker _ => True

-- The messages of a protocol with ideal primitives. `dh` is a set of two private values, so
-- that the two ways to compute a shared value agree.
inductive Term where
  | const (bytes : List UInt8)
  | secret (index : Nat)
  | pubX (scalar : Name)
  | pubY (scalar : Name)
  | dh (scalars : Sym2 Name)
  | vkX (key : Name)
  | vkY (key : Name)
  | sig (key : Name) (message : Term)
  | nil
  | pair (first rest : Term)
  | hash (message : Term)
  | mac (key message : Term)
  | enc (key iv message : Term)
  | tag (key iv message : Term)

namespace Term

-- A derived instance would carry casts along equalities of sets of scalars, which do not
-- evaluate.
def beq : Term → Term → Bool
  | const a, const b => decide (a = b)
  | secret a, secret b => decide (a = b)
  | pubX a, pubX b => decide (a = b)
  | pubY a, pubY b => decide (a = b)
  | dh a, dh b => decide (a = b)
  | vkX a, vkX b => decide (a = b)
  | vkY a, vkY b => decide (a = b)
  | sig k t, sig k' t' => decide (k = k') && beq t t'
  | nil, nil => true
  | pair a b, pair a' b' => beq a a' && beq b b'
  | hash t, hash t' => beq t t'
  | mac k t, mac k' t' => beq k k' && beq t t'
  | enc k i t, enc k' i' t' => beq k k' && beq i i' && beq t t'
  | tag k i t, tag k' i' t' => beq k k' && beq i i' && beq t t'
  | _, _ => false

theorem beq_iff (a b : Term) : beq a b = true ↔ a = b := by
  induction a generalizing b with
  | const | secret | pubX | pubY | dh | vkX | vkY => cases b <;> simp [beq]
  | nil => cases b <;> simp [beq]
  | sig k t ih | hash t ih => cases b <;> simp [beq, ih]
  | pair a c iha ihc | mac a c iha ihc => cases b <;> simp [beq, iha, ihc]
  | enc k i t ihk ihi iht | tag k i t ihk ihi iht =>
      cases b <;> simp [beq, ihk, ihi, iht, and_assoc]

instance : DecidableEq Term := fun a b => decidable_of_iff (beq a b = true) (beq_iff a b)

def tuple : List Term → Term
  | [] => nil
  | first :: rest => pair first (tuple rest)

theorem tuple_injective : Function.Injective tuple := by
  intro xs
  induction xs with
  | nil =>
      intro ys h
      cases ys with
      | nil => rfl
      | cons y ys => simp [tuple] at h
  | cons x xs ih =>
      intro ys h
      cases ys with
      | nil => simp [tuple] at h
      | cons y ys =>
          simp only [tuple, pair.injEq] at h
          rw [h.1, ih h.2]

@[simp] theorem tuple_inj (xs ys : List Term) : tuple xs = tuple ys ↔ xs = ys :=
  tuple_injective.eq_iff

end Term

open Term

-- What an attacker who owns the network can compute from the messages in `known`. Public
-- halves of keys and constants are free, and so is everything the attacker's own private
-- values give.
inductive Derives (known : Set Term) : Term → Prop where
  | known {t} : t ∈ known → Derives known t
  | const (bytes) : Derives known (const bytes)
  | pubX (scalar) : Derives known (pubX scalar)
  | pubY (scalar) : Derives known (pubY scalar)
  | dh (index : Nat) (scalar : Name) : Derives known (dh s(Name.attacker index, scalar))
  | vkX (key) : Derives known (vkX key)
  | vkY (key) : Derives known (vkY key)
  | sign (index : Nat) {t} : Derives known t → Derives known (sig (Name.attacker index) t)
  | unsign {key t} : Derives known (sig key t) → Derives known t
  | nil : Derives known nil
  | pair {a b} : Derives known a → Derives known b → Derives known (pair a b)
  | first {a b} : Derives known (Term.pair a b) → Derives known a
  | rest {a b} : Derives known (Term.pair a b) → Derives known b
  | hash {t} : Derives known t → Derives known (hash t)
  | mac {k t} : Derives known k → Derives known t → Derives known (mac k t)
  | enc {k iv t} : Derives known k → Derives known iv → Derives known t →
      Derives known (enc k iv t)
  | tag {k iv t} : Derives known k → Derives known iv → Derives known t →
      Derives known (tag k iv t)
  | decrypt {k iv t} : Derives known (Term.enc k iv t) → Derives known k → Derives known t

theorem Derives.mono {known more : Set Term} (hsub : known ⊆ more) {t : Term}
    (h : Derives known t) : Derives more t := by
  induction h with
  | known ht => exact .known (hsub ht)
  | const bytes => exact .const bytes
  | pubX scalar => exact .pubX scalar
  | pubY scalar => exact .pubY scalar
  | dh index scalar => exact .dh index scalar
  | vkX key => exact .vkX key
  | vkY key => exact .vkY key
  | sign index _ ih => exact .sign index ih
  | unsign _ ih => exact .unsign ih
  | nil => exact .nil
  | pair _ _ iha ihb => exact .pair iha ihb
  | first _ ih => exact .first ih
  | rest _ ih => exact .rest ih
  | hash _ ih => exact .hash ih
  | mac _ _ ihk iht => exact .mac ihk iht
  | enc _ _ _ ihk ihi iht => exact .enc ihk ihi iht
  | tag _ _ _ ihk ihi iht => exact .tag ihk ihi iht
  | decrypt _ _ ihc ihk => exact .decrypt ihc ihk

theorem Derives.tuple {known : Set Term} {ts : List Term} (h : ∀ t ∈ ts, Derives known t) :
    Derives known (Term.tuple ts) := by
  induction ts with
  | nil => exact .nil
  | cons t ts ih =>
      exact .pair (h t (by simp)) (ih fun u hu => h u (List.mem_cons_of_mem _ hu))

-- What honest parties have put on the network beyond plain data: the keys under which they
-- publish tags, the messages they signed and the messages they encrypted.
structure Policy where
  tagKey : Term → Prop
  signed : Name → Term → Prop
  sealed : Term → Term → Term → Prop

-- The terms that may reach the attacker under a policy. A set that is closed under `Derives`
-- and contains every published message contains all the attacker can ever know.
def Safe (policy : Policy) : Term → Prop
  | const _ => True
  | secret _ => False
  | pubX _ => True
  | pubY _ => True
  | dh scalars => ∃ index, Name.attacker index ∈ scalars
  | vkX _ => True
  | vkY _ => True
  | sig key t => Safe policy t ∧ (key.isAttacker ∨ policy.signed key t)
  | .nil => True
  | .pair a b => Safe policy a ∧ Safe policy b
  | .hash t => Safe policy t
  | .mac k t => Safe policy t ∧ (Safe policy k ∨ policy.tagKey k)
  | .enc k iv t => (Safe policy k ∧ Safe policy iv ∧ Safe policy t) ∨ policy.sealed k iv t
  | .tag k iv t => (Safe policy k ∧ Safe policy iv ∧ Safe policy t) ∨ policy.sealed k iv t

-- Honest parties encrypt under keys that stay out of the attacker's reach.
def Policy.Sound (policy : Policy) : Prop :=
  ∀ k iv t, policy.sealed k iv t → ¬ Safe policy k

-- Closure of the safe set under every rule of the attacker.
theorem safe_of_derives {policy : Policy} (hsound : policy.Sound) {known : Set Term}
    (hknown : ∀ t ∈ known, Safe policy t) {t : Term} (h : Derives known t) : Safe policy t := by
  induction h with
  | known ht => exact hknown _ ht
  | const | pubX | pubY | vkX | vkY | nil => trivial
  | dh index scalar => exact ⟨index, Sym2.mem_mk_left _ _⟩
  | sign index _ ih => exact ⟨ih, Or.inl trivial⟩
  | unsign _ ih => exact ih.1
  | pair _ _ iha ihb => exact ⟨iha, ihb⟩
  | first _ ih => exact ih.1
  | rest _ ih => exact ih.2
  | hash _ ih => exact ih
  | mac _ _ ihk iht => exact ⟨iht, Or.inl ihk⟩
  | enc _ _ _ ihk ihi iht => exact Or.inl ⟨ihk, ihi, iht⟩
  | tag _ _ _ ihk ihi iht => exact Or.inl ⟨ihk, ihi, iht⟩
  | decrypt _ _ ihc ihk =>
      rcases ihc with ⟨_, _, ht⟩ | hs
      · exact ht
      · exact absurd ihk (hsound _ _ _ hs)

def Policy.le (policy wider : Policy) : Prop :=
  (∀ k, policy.tagKey k → wider.tagKey k) ∧
  (∀ k t, policy.signed k t → wider.signed k t) ∧
  (∀ k iv t, policy.sealed k iv t → wider.sealed k iv t)

-- Publishing more never takes a term out of the safe set.
theorem Safe.mono {policy wider : Policy} (hle : policy.le wider) {t : Term}
    (h : Safe policy t) : Safe wider t := by
  obtain ⟨htag, hsigned, hsealed⟩ := hle
  induction t with
  | const | pubX | pubY | vkX | vkY | nil => trivial
  | secret => exact h
  | dh => exact h
  | sig key t ih => exact ⟨ih h.1, h.2.imp_right (hsigned _ _)⟩
  | pair a b iha ihb => exact ⟨iha h.1, ihb h.2⟩
  | hash t ih => exact ih h
  | mac k t ihk iht => exact ⟨iht h.1, h.2.imp ihk (htag _)⟩
  | enc k iv t ihk ihi iht =>
      exact h.imp (fun ⟨hk, hi, ht⟩ => ⟨ihk hk, ihi hi, iht ht⟩) (hsealed _ _ _)
  | tag k iv t ihk ihi iht =>
      exact h.imp (fun ⟨hk, hi, ht⟩ => ⟨ihk hk, ihi hi, iht ht⟩) (hsealed _ _ _)

theorem safe_tuple {policy : Policy} {ts : List Term} :
    Safe policy (Term.tuple ts) ↔ ∀ t ∈ ts, Safe policy t := by
  induction ts with
  | nil => simp [Term.tuple, Safe]
  | cons t ts ih => simp [Term.tuple, Safe, ih]

end Watz.Base.Symbolic
