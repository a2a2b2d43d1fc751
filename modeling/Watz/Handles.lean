import Watz.Attester.Lemmas
import Watz.Base.Routine
import Watz.Verifier.Lemmas

namespace Watz

open Base Tee

-- The local variables for handles and heap blocks of a function.
def locals (fn : Fn) : List Slot :=
  [.operation fn, .sharedSecret fn, .aesKey fn, .ecdhRemotePublicKey fn, .attribute fn]

-- The calls of a function, by their indices, that get one of its local handles.
def operationCalls : Fn → List Nat
  | .deriveSharedKey => [1, 7, 8]
  | .deriveMacKey => [4, 5]
  | .deriveSessionKey => [4, 5]
  | .appendEcdhPublicKeysSignature => [1, 3, 4]
  | .verifyQuoteSignature => [1, 3, 4]
  | .verifyEcdhPublicKeySignature => [1, 3, 4]
  | .appendMac => [1, 2]
  | .verifyMsg1Mac => [1, 2]
  | .verifyMacMsg2 => [1, 2]
  | .prepareMsg2 => [1, 2]
  | .verifyAnchor => [1]
  | .generateAnchor => [1]
  | .encryptMsg3 => [1, 2, 3]
  | .decryptMsg3 => [1, 2, 3]
  | _ => []

def sharedSecretCalls : Fn → List Nat
  | .deriveSharedKey => [3]
  | _ => []

def aesKeyCalls : Fn → List Nat
  | .deriveSharedKey => [5, 7]
  | .deriveMacKey => [2, 4]
  | .deriveSessionKey => [2, 4]
  | _ => []

-- The import of the other's key for a dump, and the two dumps of it.
def ecdhRemotePublicKeyCalls : Fn → List Nat
  | .receiveMsg1 => [2, 4, 6]
  | _ => []

def operands (fn : Fn) (index : Nat) : List Slot :=
  (if index ∈ operationCalls fn then [.operation fn] else []) ++
    (if index ∈ sharedSecretCalls fn then [.sharedSecret fn] else []) ++
    (if index ∈ aesKeyCalls fn then [.aesKey fn] else []) ++
    if index ∈ ecdhRemotePublicKeyCalls fn then [.ecdhRemotePublicKey fn] else []

-- A failed allocation leaves its variable as it was.
def Event.actions : Event → List (Action Slot)
  | .call fn index _ => (operands fn index).map .use
  | .use _ _ => []
  | .enter fn => (locals fn).map .declare
  | .alloc slot => [.alloc slot]
  | .free slot => [.free slot]
  | .store _ _ _ => []
  | .print _ _ _ => []
  | .read _ _ _ => []

-- Whether a call of a function works.
def Env.worked {P : Prims} (env : Env P) (fn : Fn) (index : Nat) : Bool :=
  (env.faults fn index).isNone

theorem Env.works_iff {P : Prims} (env : Env P) (fn : Fn) {count bound : Nat} (h : count ≤ bound) :
    env.Works fn count ↔ count ≤ Call.firstFault (env.worked fn) bound := by
  simp only [Call.le_firstFault_iff h, Env.worked, Option.isNone_iff_eq_none, Env.Works]

-- A program of the trusted application that follows calls, where the results are those of one
-- of its functions.
abbrev Follows {P : Prims} {σ α : Type} (fn : Fn) (p : TeeM P σ α) (env : Env P) (s : σ)
    (calls : List (Call Slot)) : Prop :=
  Prog.Follows Event.actions (env.worked fn) p env s calls

-- What a program calls may also depend on what becomes of its dumps.
abbrev TracedBy {P : Prims} {σ α : Type} (fn : Fn) (p : TeeM P σ α)
    (calls : Env P → List (Call Slot)) : Prop :=
  Prog.Traced Event.actions (fun env => env.worked fn) p calls

abbrev Traced {P : Prims} {σ α : Type} (fn : Fn) (p : TeeM P σ α)
    (calls : List (Call Slot)) : Prop :=
  TracedBy fn p fun _ => calls

theorem Traced.follows {P : Prims} {σ α : Type} {fn : Fn} {p : TeeM P σ α}
    {calls : List (Call Slot)} (hp : Traced fn p calls) (env : Env P) (s : σ) :
    Follows fn p env s calls :=
  hp env s

-- A call of the TEE that is decided by the environment, one that also depends on data, and
-- actions that cannot fail.
def fallible (fn : Fn) (index : Nat) : Call Slot :=
  ⟨(operands fn index).map .use, .result index, []⟩

def checked (fn : Fn) (index : Nat) : Call Slot := ⟨(operands fn index).map .use, .either, []⟩

def did (actions : List (Action Slot)) : Call Slot := ⟨actions, .always, []⟩

section Primitives

variable {P : Prims} {σ α : Type} {fn : Fn}

theorem traced_tee {index : Nat} :
    Traced fn (tee fn index : TeeM P σ Unit) [fallible fn index] :=
  fun _ _ => .call rfl _

theorem traced_teeCheck {index : Nat} {passes : Bool} {code : TeeError} :
    Traced fn (teeCheck fn index passes code : TeeM P σ Unit) [checked fn index] :=
  fun _ _ => .call_either _ _

theorem traced_allocate {index : Nat} {slot : Slot} :
    Traced fn (allocate fn index slot : TeeM P σ Unit) [fallible fn index, did [.alloc slot]] :=
  traced_tee.bind fun _ => .emit

theorem traced_setOperationKey {index : Nat} {obj : Obj α} :
    Traced fn (setOperationKey fn index obj : TeeM P σ α) [fallible fn index] :=
  traced_tee.bind fun _ => .orPanic

theorem traced_readCoord {field : Field} {c : P.Coord} :
    Traced fn (readCoord field c : TeeM P σ P.Val) [] :=
  fun _ _ => .quiet (.inr rfl) rfl

theorem traced_initRefAttribute {field : Field} {c : P.Coord} :
    Traced fn (initRefAttribute field c : TeeM P σ Unit) [] :=
  fun _ _ => .quiet (.inr rfl) rfl

theorem traced_memCompare {field other : Field} {c d : P.Coord} :
    Traced fn (memCompare field c other d : TeeM P σ Bool) [] :=
  fun _ _ => .quiet (.inr rfl) rfl

theorem dump_actions (field : Field) (c : P.Coord) (env : Env P) (s : σ) :
    ((dump field c : TeeM P σ Unit) env s).log.flatMap Event.actions = [] := by
  cases hdebug : env.debug <;>
    simp [dump, Prog.bind_run, Prog.andThen, hdebug, Event.actions]

theorem traced_dump {field : Field} {c : P.Coord} :
    Traced fn (dump field c : TeeM P σ Unit) [] :=
  fun env s => .quiet (.inr rfl) (dump_actions field c env s)

theorem print_actions (region : Region) (offset length : Nat) (env : Env P) (s : σ) :
    ((print region offset length : TeeM P σ Unit) env s).log.flatMap Event.actions = [] := by
  cases hdebug : env.debug <;>
    simp [print, Prog.bind_run, Prog.andThen, hdebug, Event.actions]

theorem traced_print {region : Region} {offset length : Nat} :
    Traced fn (print region offset length : TeeM P σ Unit) [] :=
  fun env s => .quiet (.inr rfl) (print_actions region offset length env s)

theorem logRead_actions (region : Region) (offset length : Nat) (env : Env P) (s : σ) :
    ((logRead region offset length : TeeM P σ Unit) env s).log.flatMap Event.actions = [] := by
  cases hdebug : env.debug <;>
    simp [logRead, Prog.bind_run, Prog.andThen, hdebug, Event.actions]

theorem traced_logRead {region : Region} {offset length : Nat} :
    Traced fn (logRead region offset length : TeeM P σ Unit) [] :=
  fun env s => .quiet (.inr rfl) (logRead_actions region offset length env s)

theorem stores_actions (region : Region) (ranges : List (Nat × Nat)) (env : Env P) (s : σ) :
    ((stores region ranges : TeeM P σ Unit) env s).log.flatMap Event.actions = [] := by
  simp only [stores, Prog.emit_run, List.flatMap_map]
  exact List.flatMap_eq_nil_iff.mpr fun _ _ => rfl

theorem traced_stores {region : Region} {ranges : List (Nat × Nat)} :
    Traced fn (stores region ranges : TeeM P σ Unit) [] :=
  fun env s => .quiet (.inr rfl) (stores_actions region ranges env s)

-- A check of a length that the TEE always reports.
theorem traced_require {condition : Bool} {code : TeeError} (h : condition = true) :
    Traced fn (Prog.require condition code : TeeM P σ Unit) [] := by
  subst h
  exact fun _ _ => .quiet (.inr rfl) rfl

end Primitives

section Dumps

variable {P : Prims} {σ : Type} {fn : Fn} {index : Nat}

-- What a dump does with its block, and in between with the object that it reads.
def Dump.actions (fn : Fn) (uses : List (Action Slot)) : Dump → List (Action Slot)
  | none => uses
  | released => .alloc (.attribute fn) :: uses ++ [.free (.attribute fn)]
  | leaked => .alloc (.attribute fn) :: uses

theorem dumpLog_actions {env : Env P} (h : env.debug = true ∨ operands fn (index + 1) = []) :
    (env.dumpLog fn index).flatMap Event.actions =
      (env.dump fn index).actions fn ((operands fn (index + 1)).map .use) := by
  cases hdebug : env.debug with
  | false =>
      have hnone : operands fn (index + 1) = [] := h.resolve_left (by simp [hdebug])
      simp [Env.dumpLog, Env.dump, Dump.actions, hdebug, hnone]
  | true =>
      cases hgranted : env.faults fn index <;> cases hread : env.faults fn (index + 1) <;>
        simp [Env.dumpLog, Env.dumpResult, Env.dump, Dump.actions, Event.actions, hdebug, hgranted,
          hread]

theorem follows_dumpObjectAttribute {env : Env P} {s : σ}
    (h : env.debug = true ∨ operands fn (index + 1) = []) :
    Follows fn (dumpObjectAttribute fn index : TeeM P σ Unit) env s
      [did ((env.dump fn index).actions fn ((operands fn (index + 1)).map .use))] := by
  have hrun := dumpObjectAttribute_run env s fn index
  refine .of_eq (.always (by rw [hrun]; rfl)) ?_
  rw [hrun, ← dumpLog_actions h]
  rfl

theorem traced_dumpObjectAttribute (h : operands fn (index + 1) = []) :
    TracedBy fn (dumpObjectAttribute fn index : TeeM P σ Unit)
      fun env => [did ((env.dump fn index).actions fn [])] := by
  intro env s
  refine (follows_dumpObjectAttribute (.inr h)).of_eq ?_
  rw [h]
  rfl

end Dumps

section Balance

variable {P : Prims} {σ α : Type}

-- What a run of a function does with handles.
def handling (effect : Effect σ TeeError Event α) : List (Action Slot) :=
  effect.log.flatMap Event.actions

-- The function releases what it puts into its own variables exactly under a condition. A run
-- that panics ends the trusted application, which releases everything.
def ReleasesWhen (fn : Fn) (p : TeeM P σ α) (env : Env P) (s : σ) (condition : Prop) : Prop :=
  (p env s).out ≠ .panic → (Ledger.Balanced (locals fn) (handling (p env s)) ↔ condition)

variable {fn : Fn} {p : TeeM P σ α} {calls : List (Call Slot)} {bound least most : Nat}
  {env : Env P} {s : σ}

-- A table over the first call that fails decides when a function releases everything.
theorem Follows.releasesWhen_at (hp : Follows fn p env s calls)
    (hindices : calls.filterMap (·.verdict.index?) = List.range bound) {condition : Nat → Prop}
    (htable : ∀ fault ≤ bound, ∀ outcome ∈ Call.outcomesAt fault calls,
      Ledger.Balanced (locals fn) outcome.1 ↔ condition fault) :
    ReleasesWhen fn p env s (condition (Call.firstFault (env.worked fn) bound)) :=
  fun hreturns => htable _ (Call.firstFault_le _ _) _ (hp.mem_firstFault hreturns hindices)

theorem Follows.releasesWhen (hp : Follows fn p env s calls)
    (hindices : calls.filterMap (·.verdict.index?) = List.range bound) (hleast : least ≤ bound)
    (htable : ∀ fault ≤ bound, ∀ outcome ∈ Call.outcomesAt fault calls,
      Ledger.Balanced (locals fn) outcome.1 ↔ least ≤ fault) :
    ReleasesWhen fn p env s (env.Works fn least) := by
  rw [env.works_iff fn hleast]
  exact hp.releasesWhen_at hindices htable

theorem Follows.releasesWhen_between (hp : Follows fn p env s calls)
    (hindices : calls.filterMap (·.verdict.index?) = List.range bound) (hleast : least ≤ bound)
    (hmost : most ≤ bound)
    (htable : ∀ fault ≤ bound, ∀ outcome ∈ Call.outcomesAt fault calls,
      Ledger.Balanced (locals fn) outcome.1 ↔ least ≤ fault ∧ ¬most ≤ fault) :
    ReleasesWhen fn p env s (env.Works fn least ∧ ¬env.Works fn most) := by
  rw [env.works_iff fn hleast, env.works_iff fn hmost]
  exact hp.releasesWhen_at hindices htable

theorem Follows.releasesWhen_past (hp : Follows fn p env s calls)
    (hindices : calls.filterMap (·.verdict.index?) = List.range bound) (hleast : least ≤ bound)
    (hmost : most ≤ bound)
    (htable : ∀ fault ≤ bound, ∀ outcome ∈ Call.outcomesAt fault calls,
      Ledger.Balanced (locals fn) outcome.1 ↔ (least ≤ fault → most ≤ fault)) :
    ReleasesWhen fn p env s (env.Works fn least → env.Works fn most) := by
  rw [env.works_iff fn hleast, env.works_iff fn hmost]
  exact hp.releasesWhen_at hindices htable

end Balance

section DeriveSharedKey

-- What `derive_shared_key` does on either side.
def deriveSharedKeyCalls (dump : Dump) : List (Call Slot) :=
  let call := fallible .deriveSharedKey
  let cleanup : List (Action Slot) := [.free (.aesKey .deriveSharedKey),
    .free (.operation .deriveSharedKey), .free (.sharedSecret .deriveSharedKey)]
  did ((locals .deriveSharedKey).map .declare) ::
    [call 0, did [.alloc (.operation .deriveSharedKey)], call 1, call 2,
      did [.alloc (.sharedSecret .deriveSharedKey)]].map (Call.released cleanup) ++
    [call 3] ++
    [call 4, did [.alloc (.aesKey .deriveSharedKey)], call 5, call 6,
      did [.alloc (.operation .deriveSharedKey)], call 7, call 8, call 9,
      did [.alloc .sharedKeyDerivationKey], call 10,
      did (dump.actions .deriveSharedKey [])].map (Call.released cleanup) ++
    [did cleanup]

-- Failures before the fifth call free handles that were never set, or return without the
-- cleanup, and the second operation takes the variable of the first.
theorem balanced_deriveSharedKeyCalls (dump : Dump) : ∀ fault ≤ 11,
    ∀ outcome ∈ Call.outcomesAt fault (deriveSharedKeyCalls dump),
      Ledger.Balanced (locals .deriveSharedKey) outcome.1 ↔ 5 ≤ fault ∧ ¬7 ≤ fault := by
  cases dump <;> decide

variable {P : Prims} {σ : Type} {d : Derivation P σ}

theorem Derivation.traced_deriveSharedKey :
    TracedBy .deriveSharedKey d.deriveSharedKey
      fun env => deriveSharedKeyCalls (env.dump .deriveSharedKey 11) :=
  .of_eq
    (.bind .emit fun _ => .bind .get fun _ =>
      .bind (.onFail (.bind traced_allocate fun _ => .bind traced_setOperationKey fun _ =>
        .bind traced_allocate fun _ => .pure)) fun _ =>
      .bind traced_readCoord fun _ => .bind traced_readCoord fun _ => .bind .orPanic fun _ =>
      .bind traced_tee fun _ =>
      .bind (.onFail (.bind traced_allocate fun _ => .bind traced_tee fun _ =>
        .bind traced_allocate fun _ => .bind traced_tee fun _ => .bind traced_tee fun _ =>
        .bind traced_allocate fun _ => .bind .modify fun _ => .bind traced_tee fun _ =>
        .bind .modify fun _ => traced_dumpObjectAttribute rfl)) fun _ =>
      .emit) fun _ => rfl

theorem Derivation.releases_deriveSharedKey (env : Env P) (s : σ) :
    ReleasesWhen .deriveSharedKey d.deriveSharedKey env s
      (env.Works .deriveSharedKey 5 ∧ ¬env.Works .deriveSharedKey 7) :=
  Follows.releasesWhen_between (traced_deriveSharedKey env s) rfl (show 5 ≤ 11 by decide)
    (by decide) (balanced_deriveSharedKeyCalls _)

end DeriveSharedKey

section DeriveSharedMacKey

def deriveSharedMacKeyCalls (fn : Fn) (slot : Slot) (dump : Dump) : List (Call Slot) :=
  let cleanup : List (Action Slot) := [.free (.operation fn), .free (.aesKey fn)]
  did ((locals fn).map .declare) ::
    [fallible fn 0, did [.alloc (.aesKey fn)], fallible fn 1, fallible fn 2, fallible fn 3,
      did [.alloc (.operation fn)], fallible fn 4, fallible fn 5, fallible fn 6,
      did [.alloc slot], fallible fn 7, did (dump.actions fn [])].map (Call.released cleanup) ++
    [did cleanup]

theorem balanced_deriveMacKeyCalls (dump : Dump) : ∀ fault ≤ 8,
    ∀ outcome ∈ Call.outcomesAt fault (deriveSharedMacKeyCalls .deriveMacKey .sharedMacKey dump),
      Ledger.Balanced (locals .deriveMacKey) outcome.1 ↔
        4 ≤ fault ∧ (8 ≤ fault → dump ≠ .leaked) := by
  cases dump <;> decide

theorem balanced_deriveSessionKeyCalls (dump : Dump) : ∀ fault ≤ 8,
    ∀ outcome ∈ Call.outcomesAt fault
        (deriveSharedMacKeyCalls .deriveSessionKey .sharedSessionKey dump),
      Ledger.Balanced (locals .deriveSessionKey) outcome.1 ↔
        4 ≤ fault ∧ (8 ≤ fault → dump ≠ .leaked) := by
  cases dump <;> decide

variable {P : Prims} {σ : Type} {d : Derivation P σ} {data : List UInt8}
  {store : Obj P.Val → σ → σ} {slot : Slot}

theorem Derivation.traced_deriveSharedMacKey {fn : Fn} (h : operands fn 9 = []) :
    TracedBy fn (d.deriveSharedMacKey fn data slot store)
      fun env => deriveSharedMacKeyCalls fn slot (env.dump fn 8) :=
  .of_eq
    (.bind .emit fun _ => .bind .get fun _ =>
      .bind (.onFail (.bind traced_allocate fun _ => .bind traced_tee fun _ =>
        .bind .orPanic fun _ => .bind traced_tee fun _ => .bind traced_allocate fun _ =>
        .bind traced_tee fun _ => .bind traced_tee fun _ => .bind traced_allocate fun _ =>
        .bind .modify fun _ => .bind traced_tee fun _ => .bind .modify fun _ =>
        traced_dumpObjectAttribute h)) fun _ =>
      .emit) fun _ => rfl

-- What the derivation leaves behind, when its table says so for its variables.
theorem Derivation.releases_deriveSharedMacKey {fn : Fn} (h : operands fn 9 = [])
    (hindices : ∀ dump, (deriveSharedMacKeyCalls fn slot dump).filterMap (·.verdict.index?) =
      List.range 8)
    (htable : ∀ dump, ∀ fault ≤ 8,
      ∀ outcome ∈ Call.outcomesAt fault (deriveSharedMacKeyCalls fn slot dump),
        Ledger.Balanced (locals fn) outcome.1 ↔ 4 ≤ fault ∧ (8 ≤ fault → dump ≠ .leaked))
    (env : Env P) (s : σ) :
    ReleasesWhen fn (d.deriveSharedMacKey fn data slot store) env s
      (env.Works fn 4 ∧ (env.Works fn 8 → env.DumpReleases fn 8)) := by
  rw [env.works_iff fn (show 4 ≤ 8 by decide), env.works_iff fn (Nat.le_refl 8),
    ← env.dump_ne_leaked_iff]
  exact Follows.releasesWhen_at (traced_deriveSharedMacKey h env s) (hindices _) (htable _)

theorem Derivation.releases_deriveMacKey (env : Env P) (s : σ) :
    ReleasesWhen .deriveMacKey (d.deriveSharedMacKey .deriveMacKey data .sharedMacKey store) env s
      (env.Works .deriveMacKey 4 ∧
        (env.Works .deriveMacKey 8 → env.DumpReleases .deriveMacKey 8)) :=
  releases_deriveSharedMacKey rfl (fun _ => rfl) balanced_deriveMacKeyCalls env s

theorem Derivation.releases_deriveSessionKey (env : Env P) (s : σ) :
    ReleasesWhen .deriveSessionKey
      (d.deriveSharedMacKey .deriveSessionKey data .sharedSessionKey store) env s
      (env.Works .deriveSessionKey 4 ∧
        (env.Works .deriveSessionKey 8 → env.DumpReleases .deriveSessionKey 8)) :=
  releases_deriveSharedMacKey rfl (fun _ => rfl) balanced_deriveSessionKeyCalls env s

end DeriveSharedMacKey

section Allocation

-- What a function does that puts a new object into a variable of the context.
def allocation (fn : Fn) (slot : Slot) (indices : List Nat) : List (Call Slot) :=
  did ((locals fn).map .declare) :: fallible fn 0 :: did [.alloc slot] ::
    indices.map (fallible fn)

-- Both applications generate their key pairs alike, and dump the private key last.
def generation (fn : Fn) (slot : Slot) (dump : Dump) : List (Call Slot) :=
  allocation fn slot [1, 2, 3] ++ [did (dump.actions fn [])]

theorem balanced_generateEcdhKeypair (dump : Dump) : ∀ fault ≤ 4,
    ∀ outcome ∈ Call.outcomesAt fault (generation .generateEcdhKeypair .ecdhLocalKeypair dump),
      Ledger.Balanced (locals .generateEcdhKeypair) outcome.1 ↔ (4 ≤ fault → dump ≠ .leaked) := by
  cases dump <;> decide

theorem balanced_generateEcdsaKeypair (dump : Dump) : ∀ fault ≤ 4,
    ∀ outcome ∈ Call.outcomesAt fault (generation .generateEcdsaKeypair .ecdsaLocalKeypair dump),
      Ledger.Balanced (locals .generateEcdsaKeypair) outcome.1 ↔ (4 ≤ fault → dump ≠ .leaked) := by
  cases dump <;> decide

theorem allocates_generateEcdhKeypair (dump : Dump) : ∀ fault ≤ 4,
    ∀ outcome ∈ Call.outcomesAt fault (generation .generateEcdhKeypair .ecdhLocalKeypair dump),
      outcome.1 = (locals .generateEcdhKeypair).map .declare ++
        (if 1 ≤ fault then [.alloc .ecdhLocalKeypair] else []) ++
        if 4 ≤ fault then dump.actions .generateEcdhKeypair [] else [] := by
  cases dump <;> decide

theorem allocates_generateEcdsaKeypair (dump : Dump) : ∀ fault ≤ 4,
    ∀ outcome ∈ Call.outcomesAt fault (generation .generateEcdsaKeypair .ecdsaLocalKeypair dump),
      outcome.1 = (locals .generateEcdsaKeypair).map .declare ++
        (if 1 ≤ fault then [.alloc .ecdsaLocalKeypair] else []) ++
        if 4 ≤ fault then dump.actions .generateEcdsaKeypair [] else [] := by
  cases dump <;> decide

theorem Follows.releasesWhen_generation {P : Prims} {σ : Type} {fn : Fn} {slot : Slot}
    {p : TeeM P σ Unit} {env : Env P} {s : σ}
    (hp : Follows fn p env s (generation fn slot (env.dump fn 4)))
    (htable : ∀ dump, ∀ fault ≤ 4, ∀ outcome ∈ Call.outcomesAt fault (generation fn slot dump),
      Ledger.Balanced (locals fn) outcome.1 ↔ (4 ≤ fault → dump ≠ .leaked)) :
    ReleasesWhen fn p env s (env.Works fn 4 → env.DumpReleases fn 4) := by
  rw [env.works_iff fn (Nat.le_refl 4), ← env.dump_ne_leaked_iff]
  exact hp.releasesWhen_at rfl (htable _)

end Allocation

section Operation

-- A helper with one operation, which its label `out` releases: `calls` are those after its
-- first allocation.
def operationHelper (fn : Fn) (calls : List (Call Slot)) : List (Call Slot) :=
  did ((locals fn).map .declare) ::
    ([fallible fn 0, did [.alloc (.operation fn)]] ++ calls).map
      (Call.released [.free (.operation fn)]) ++
    [did [.free (.operation fn)]]

-- The signature helpers put a second operation into the variable of the first.
def signatureHelper (fn : Fn) (last : Call Slot) : List (Call Slot) :=
  operationHelper fn
    [fallible fn 1, fallible fn 2, did [.alloc (.operation fn)], fallible fn 3, last]

-- The MAC helpers for `msg1` return from their first two failures without the cleanup.
def msg1MacHelper (fn : Fn) (last : Call Slot) : List (Call Slot) :=
  [did ((locals fn).map .declare), fallible fn 0, did [.alloc (.operation fn)], fallible fn 1] ++
    [last].map (Call.released [.free (.operation fn)]) ++ [did [.free (.operation fn)]]

variable {P : Prims}

theorem Verifier.traced_appendEcdhPublicKeysSignature :
    Traced .appendEcdhPublicKeysSignature
      (Verifier.appendEcdhPublicKeysSignature : Verifier.VerifierM P Unit)
      (signatureHelper .appendEcdhPublicKeysSignature
        (fallible .appendEcdhPublicKeysSignature 4)) :=
  .of_eq
    (.bind .emit fun _ => .bind .get fun _ =>
      .bind (.onFail (.bind traced_allocate fun _ => .bind traced_readCoord fun _ =>
        .bind traced_readCoord fun _ => .bind traced_readCoord fun _ =>
        .bind traced_readCoord fun _ => .bind traced_tee fun _ =>
        .bind (traced_require rfl) fun _ => .bind traced_dump fun _ => .bind traced_dump fun _ =>
        .bind traced_dump fun _ => .bind traced_dump fun _ => .bind traced_allocate fun _ =>
        .bind traced_setOperationKey fun _ => .bind traced_tee fun _ => .bind .ask fun _ =>
        .bind .modify fun _ => traced_require rfl)) fun _ =>
      .emit) fun _ => rfl

theorem Verifier.traced_appendMac :
    Traced .appendMac (Verifier.appendMac : Verifier.VerifierM P Unit)
      (msg1MacHelper .appendMac (fallible .appendMac 2)) :=
  .of_eq
    (.bind .emit fun _ => .bind .get fun _ => .bind traced_allocate fun _ =>
      .bind traced_setOperationKey fun _ =>
      .bind (.onFail (.bind traced_readCoord fun _ => .bind traced_readCoord fun _ =>
        .bind traced_readCoord fun _ => .bind traced_readCoord fun _ => .bind traced_tee fun _ =>
        .bind .modify fun _ => traced_require rfl)) fun _ =>
      .emit) fun _ => rfl

theorem Verifier.traced_verifyMacMsg2 :
    Traced .verifyMacMsg2 (Verifier.verifyMacMsg2 : Verifier.VerifierM P Unit)
      (operationHelper .verifyMacMsg2 [fallible .verifyMacMsg2 1, checked .verifyMacMsg2 2]) :=
  .of_eq
    (.bind .emit fun _ => .bind .get fun _ =>
      .bind (.onFail (.bind traced_allocate fun _ => .bind traced_setOperationKey fun _ =>
        .bind traced_readCoord fun _ => .bind traced_readCoord fun _ => traced_teeCheck)) fun _ =>
      .emit) fun _ => rfl

theorem Verifier.traced_verifyQuoteSignature :
    Traced .verifyQuoteSignature (Verifier.verifyQuoteSignature : Verifier.VerifierM P Unit)
      (signatureHelper .verifyQuoteSignature (checked .verifyQuoteSignature 4)) :=
  .of_eq
    (.bind .emit fun _ => .bind .get fun _ =>
      .bind (.onFail (.bind traced_allocate fun _ => .bind traced_tee fun _ =>
        .bind (traced_require rfl) fun _ => .bind traced_allocate fun _ =>
        .bind traced_setOperationKey fun _ => .bind traced_teeCheck fun _ => .modify)) fun _ =>
      .emit) fun _ => rfl

-- A mismatch of the anchor returns without the cleanup.
def verifyAnchorCalls : List (Call Slot) :=
  did ((locals .verifyAnchor).map .declare) ::
    [fallible .verifyAnchor 0, did [.alloc (.operation .verifyAnchor)],
      fallible .verifyAnchor 1].map (Call.released [.free (.operation .verifyAnchor)]) ++
    [⟨[], .either, []⟩, did [.free (.operation .verifyAnchor)]]

theorem Verifier.traced_verifyAnchor :
    Traced .verifyAnchor (Verifier.verifyAnchor : Verifier.VerifierM P Unit) verifyAnchorCalls :=
  .of_eq
    (.bind .emit fun _ => .bind .get fun _ =>
      .bind (.onFail (.bind traced_allocate fun _ => .bind traced_readCoord fun _ =>
        .bind traced_readCoord fun _ => .bind traced_readCoord fun _ =>
        .bind traced_readCoord fun _ => .bind traced_tee fun _ =>
        .bind (traced_require rfl) fun _ => .pure)) fun _ =>
      .bind .require fun _ => .emit) fun _ => rfl

theorem Verifier.traced_encryptMsg3 {buffer : P.Buf} {data : P.Val} :
    Traced .encryptMsg3 (Verifier.encryptMsg3 buffer data : Verifier.VerifierM P P.Buf)
      (operationHelper .encryptMsg3
        [fallible .encryptMsg3 1, fallible .encryptMsg3 2, checked .encryptMsg3 3]) :=
  .of_eq
    (.bind .emit fun _ => .bind .get fun _ => .bind .ask fun _ =>
      .bind (.onFail (.bind traced_allocate fun _ => .bind traced_setOperationKey fun _ =>
        .bind traced_tee fun _ => .bind traced_teeCheck fun _ => .pure)) fun _ =>
      .bind traced_stores fun _ => .bind .emit fun _ => .pure) fun _ => rfl

theorem signatureReport_actions (s : Attester.RaContext P) (code : TeeError) :
    (Attester.signatureReport s code).flatMap Event.actions = [] := by
  cases code <;> rfl

theorem Attester.traced_verifyEcdhPublicKeySignature :
    Traced .verifyEcdhPublicKeySignature
      (Attester.verifyEcdhPublicKeySignature : Attester.AttesterM P Unit)
      (signatureHelper .verifyEcdhPublicKeySignature
        (checked .verifyEcdhPublicKeySignature 4)) :=
  .of_eq
    (.bind .emit fun _ => .bind .get fun s =>
      .bind (.onFail (.bind traced_allocate fun _ => .bind traced_readCoord fun _ =>
        .bind traced_readCoord fun _ => .bind traced_readCoord fun _ =>
        .bind traced_readCoord fun _ => .bind traced_tee fun _ =>
        .bind (traced_require rfl) fun _ => .bind traced_allocate fun _ =>
        .bind traced_setOperationKey fun _ =>
        .onFailWith (signatureReport_actions s) traced_teeCheck)) fun _ =>
      .emit) fun _ => rfl

theorem Attester.traced_verifyMsg1Mac :
    Traced .verifyMsg1Mac (Attester.verifyMsg1Mac : Attester.AttesterM P Unit)
      (msg1MacHelper .verifyMsg1Mac (checked .verifyMsg1Mac 2)) :=
  .of_eq
    (.bind .emit fun _ => .bind .get fun _ => .bind traced_allocate fun _ =>
      .bind traced_setOperationKey fun _ =>
      .bind (.onFail (.bind traced_readCoord fun _ => .bind traced_readCoord fun _ =>
        .bind traced_readCoord fun _ => .bind traced_readCoord fun _ => traced_teeCheck)) fun _ =>
      .emit) fun _ => rfl

theorem Attester.traced_generateAnchor {anchorSize : Nat} (h : anchorSize = RA_ANCHOR_SIZE) :
    Traced .generateAnchor (Attester.generateAnchor anchorSize : Attester.AttesterM P P.Val)
      (operationHelper .generateAnchor [fallible .generateAnchor 1]) :=
  .of_eq
    (.bind (traced_require (beq_iff_eq.mpr h)) fun _ => .bind .emit fun _ => .bind .get fun _ =>
      .bind (.onFail (.bind traced_allocate fun _ => .bind traced_readCoord fun _ =>
        .bind traced_readCoord fun _ => .bind traced_readCoord fun _ =>
        .bind traced_readCoord fun _ => .bind traced_tee fun _ =>
        .bind (traced_require rfl) fun _ => .pure)) fun _ =>
      .bind .emit fun _ => .pure) fun _ => rfl

theorem Attester.traced_computeMsg2Mac :
    Traced .prepareMsg2 (Attester.computeMsg2Mac : Attester.AttesterM P Unit)
      [fallible .prepareMsg2 0, did [.alloc (.operation .prepareMsg2)], fallible .prepareMsg2 1,
        fallible .prepareMsg2 2] :=
  .of_eq
    (.bind .get fun _ => .bind traced_allocate fun _ => .bind traced_setOperationKey fun _ =>
      .bind traced_readCoord fun _ => .bind traced_readCoord fun _ => .bind traced_tee fun _ =>
      .modify) fun _ => rfl

theorem Attester.traced_decryptMsg3 {dataSize : Nat} :
    Traced .decryptMsg3 (Attester.decryptMsg3 dataSize : Attester.AttesterM P (P.Val × Nat))
      (operationHelper .decryptMsg3 [fallible .decryptMsg3 1, fallible .decryptMsg3 2,
        checked .decryptMsg3 3, ⟨[], .either, []⟩]) :=
  .of_eq
    (.bind .emit fun _ => .bind .get fun _ =>
      .bind (.onFail (.bind traced_allocate fun _ => .bind traced_setOperationKey fun _ =>
        .bind .orPanic fun _ => .bind traced_tee fun _ => .bind traced_teeCheck fun _ =>
        .orFail)) fun _ =>
      .bind traced_stores fun _ => .bind traced_print fun _ => .bind .emit fun _ => .pure)
    fun _ => rfl

end Operation

section Releases

variable {P : Prims} (env : Env P)

theorem Verifier.releases_appendEcdhPublicKeysSignature (s : Verifier.Ctx P) :
    ReleasesWhen .appendEcdhPublicKeysSignature Verifier.appendEcdhPublicKeysSignature env s
      (env.Works .appendEcdhPublicKeysSignature 1 ∧
        ¬env.Works .appendEcdhPublicKeysSignature 3) :=
  Follows.releasesWhen_between (Verifier.traced_appendEcdhPublicKeysSignature.follows env s) rfl
    (show 1 ≤ 5 by decide) (by decide) (by decide)

theorem Verifier.releases_verifyQuoteSignature (s : Verifier.Ctx P) :
    ReleasesWhen .verifyQuoteSignature Verifier.verifyQuoteSignature env s
      (env.Works .verifyQuoteSignature 1 ∧ ¬env.Works .verifyQuoteSignature 3) :=
  Follows.releasesWhen_between (Verifier.traced_verifyQuoteSignature.follows env s) rfl
    (show 1 ≤ 4 by decide) (by decide) (by decide)

theorem Attester.releases_verifyEcdhPublicKeySignature (s : Attester.RaContext P) :
    ReleasesWhen .verifyEcdhPublicKeySignature Attester.verifyEcdhPublicKeySignature env s
      (env.Works .verifyEcdhPublicKeySignature 1 ∧
        ¬env.Works .verifyEcdhPublicKeySignature 3) :=
  Follows.releasesWhen_between (Attester.traced_verifyEcdhPublicKeySignature.follows env s) rfl
    (show 1 ≤ 4 by decide) (by decide) (by decide)

theorem Verifier.releases_appendMac (s : Verifier.Ctx P) :
    ReleasesWhen .appendMac Verifier.appendMac env s
      (env.Works .appendMac 1 → env.Works .appendMac 2) :=
  Follows.releasesWhen_past (Verifier.traced_appendMac.follows env s) rfl (show 1 ≤ 3 by decide)
    (by decide) (by decide)

theorem Attester.releases_verifyMsg1Mac (s : Attester.RaContext P) :
    ReleasesWhen .verifyMsg1Mac Attester.verifyMsg1Mac env s
      (env.Works .verifyMsg1Mac 1 → env.Works .verifyMsg1Mac 2) :=
  Follows.releasesWhen_past (Attester.traced_verifyMsg1Mac.follows env s) rfl (show 1 ≤ 2 by decide)
    (by decide) (by decide)

theorem Verifier.releases_verifyMacMsg2 (s : Verifier.Ctx P) :
    ReleasesWhen .verifyMacMsg2 Verifier.verifyMacMsg2 env s (env.Works .verifyMacMsg2 1) :=
  Follows.releasesWhen (Verifier.traced_verifyMacMsg2.follows env s) rfl (show 1 ≤ 2 by decide)
    (by decide)

theorem Verifier.releases_encryptMsg3 (buffer : P.Buf) (data : P.Val) (s : Verifier.Ctx P) :
    ReleasesWhen .encryptMsg3 (Verifier.encryptMsg3 buffer data) env s
      (env.Works .encryptMsg3 1) :=
  Follows.releasesWhen (Verifier.traced_encryptMsg3.follows env s) rfl (show 1 ≤ 3 by decide)
    (by decide)

theorem Attester.releases_decryptMsg3 (dataSize : Nat) (s : Attester.RaContext P) :
    ReleasesWhen .decryptMsg3 (Attester.decryptMsg3 dataSize) env s (env.Works .decryptMsg3 1) :=
  Follows.releasesWhen (Attester.traced_decryptMsg3.follows env s) rfl (show 1 ≤ 3 by decide)
    (by decide)

-- A wrong size of the anchor is reported before anything is declared.
theorem Attester.releases_generateAnchor (anchorSize : Nat) (s : Attester.RaContext P) :
    ReleasesWhen .generateAnchor (Attester.generateAnchor anchorSize) env s
      (anchorSize = RA_ANCHOR_SIZE → env.Works .generateAnchor 1) := by
  by_cases hsize : anchorSize = RA_ANCHOR_SIZE
  · have hfollows := (Attester.traced_generateAnchor hsize).follows env s
    have hreleases := Follows.releasesWhen hfollows rfl (show 1 ≤ 2 by decide)
      (by decide)
    intro hreturns
    rw [hreleases hreturns]
    exact ⟨fun hworks _ => hworks, fun hworks => hworks hsize⟩
  · intro _
    have hlog : (Attester.generateAnchor anchorSize env s).log = [] := by
      simp [Attester.generateAnchor, Prog.bind_run, Prog.andThen, Prog.require, hsize]
    simp only [handling, hlog]
    exact iff_of_true (by decide) fun h => absurd h hsize

theorem balanced_verifyAnchorCalls : ∀ fault ≤ 2,
    ∀ outcome ∈ Call.outcomesAt fault verifyAnchorCalls,
      Ledger.Balanced (locals .verifyAnchor) outcome.1 ↔
        1 ≤ fault ∧ (2 ≤ fault → outcome.2 = true) := by
  decide

theorem Verifier.releases_verifyAnchor (s : Verifier.Ctx P) :
    ReleasesWhen .verifyAnchor Verifier.verifyAnchor env s
      (env.Works .verifyAnchor 1 ∧
        (env.Works .verifyAnchor 2 → Verifier.AnchorPassed env s)) := by
  intro hreturns
  have hbalanced := balanced_verifyAnchorCalls _ (Call.firstFault_le (env.worked .verifyAnchor) 2) _
    ((Verifier.traced_verifyAnchor env s).mem_firstFault hreturns rfl)
  have hpassed : (Verifier.verifyAnchor env s).out.isOk = true ↔
      env.Works .verifyAnchor 2 ∧ Verifier.AnchorPassed env s := by
    rw [← Verifier.verifyAnchor_ok]
    cases (Verifier.verifyAnchor env s).out <;> simp
  rw [handling, hbalanced, hpassed, ← env.works_iff .verifyAnchor (by decide),
    ← env.works_iff .verifyAnchor (by decide)]
  exact and_congr_right' ⟨fun h hworks => (h hworks).2, fun h hworks => ⟨hworks, h hworks⟩⟩

-- `prepare_msg2` frees its operation whatever happened to the tag.
theorem Attester.prepareMsg2_handling {quote : P.Quote} {s : Attester.RaContext P}
    (hreturns : (Attester.prepareMsg2 quote env s).out ≠ .panic) :
    let tagged := Attester.computeMsg2Mac env { s with msg2 := Attester.untaggedMsg2 quote s }
    tagged.out ≠ .panic ∧
      handling (Attester.prepareMsg2 quote env s) = (locals .prepareMsg2).map .declare ++
        handling tagged ++ [.free (.operation .prepareMsg2)] := by
  intro tagged
  have hrun : Attester.prepareMsg2 quote env s =
      (Prog.emit [.enter .prepareMsg2] >>= fun _ => Prog.modify (fun s => { s with
        msg2 := Attester.untaggedMsg2 quote s }) >>= fun _ =>
        Prog.ignoreFail Attester.computeMsg2Mac >>= fun _ =>
        Prog.emit [.free (.operation .prepareMsg2)]) env s := rfl
  rw [hrun] at hreturns ⊢
  cases hout : tagged.out with
  | panic =>
      refine absurd ?_ hreturns
      simp [Prog.bind_run, Prog.andThen, Prog.ignoreFail, tagged, hout]
  | ok value =>
      refine ⟨by simp, ?_⟩
      simp [handling, Prog.bind_run, Prog.andThen, Prog.ignoreFail, tagged, hout, Event.actions]
  | fail code =>
      refine ⟨by simp, ?_⟩
      simp [handling, Prog.bind_run, Prog.andThen, Prog.ignoreFail, tagged, hout, Event.actions]

theorem balanced_prepareMsg2 : ∀ fault ≤ 3,
    ∀ outcome ∈ Call.outcomesAt fault
        [fallible .prepareMsg2 0, did [.alloc (.operation .prepareMsg2)], fallible .prepareMsg2 1,
          fallible .prepareMsg2 2],
      Ledger.Balanced (locals .prepareMsg2) ((locals .prepareMsg2).map .declare ++ outcome.1 ++
        [.free (.operation .prepareMsg2)]) ↔ 1 ≤ fault := by
  decide

theorem Attester.releases_prepareMsg2 (quote : P.Quote) (s : Attester.RaContext P) :
    ReleasesWhen .prepareMsg2 (Attester.prepareMsg2 quote) env s (env.Works .prepareMsg2 1) := by
  intro hreturns
  obtain ⟨htagged, hhandling⟩ := Attester.prepareMsg2_handling env hreturns
  rw [hhandling, env.works_iff .prepareMsg2 (show 1 ≤ 3 by decide)]
  exact balanced_prepareMsg2 _ (Call.firstFault_le _ _) _
    ((Attester.traced_computeMsg2Mac env _).mem_firstFault htagged rfl)

end Releases

section Settles

variable {P : Prims} {σ α : Type} {fn : Fn} {p : TeeM P σ α} {calls : List (Call Slot)}
  {env : Env P} {s : σ} {slots : List Slot} {L : Ledger Slot}

-- A run that returns leaves a ledger in which the context holds every live handle.
abbrev Settles (slots : List Slot) (post : Ledger Slot → Prop) (p : TeeM P σ α) (env : Env P)
    (s : σ) (L : Ledger Slot) : Prop :=
  Prog.Settles Event.actions (·.Settled (· ∈ slots)) post p env s L

theorem Settles.settled (h : Settles slots (·.Settled (· ∈ slots)) p env s L)
    (hreturns : (p env s).out ≠ .panic) :
    (L.replay (handling (p env s))).Settled (· ∈ slots) := by
  have hend := h hreturns
  rwa [ite_self] at hend

-- A function that keeps to its own variables, which it declares first, and leaves nothing there.
structure Contained (fn : Fn) (actions : List (Action Slot)) : Prop where
  declares : (locals fn).map .declare <+: actions
  scope : ∀ action ∈ actions, action.var ∈ locals fn
  balanced : Ledger.Balanced (locals fn) actions

instance (fn : Fn) (actions : List (Action Slot)) : Decidable (Contained fn actions) :=
  decidable_of_iff ((locals fn).map .declare <+: actions ∧
      (∀ action ∈ actions, action.var ∈ locals fn) ∧ Ledger.Balanced (locals fn) actions)
    ⟨fun h => ⟨h.1, h.2.1, h.2.2⟩, fun h => ⟨h.declares, h.scope, h.balanced⟩⟩

-- The context holds what it held.
structure Kept (slots : List Slot) (L M : Ledger Slot) : Prop where
  settled : M.Settled (· ∈ slots)
  held : ∀ var ∈ slots, M.held var = L.held var

theorem settles_of_contained (hlocals : ∀ var ∈ locals fn, var ∉ slots)
    (hL : L.Settled (· ∈ slots))
    (h : (p env s).out ≠ .panic → Contained fn (handling (p env s))) :
    Settles slots (Kept slots L) p env s L := by
  intro hreturns
  obtain ⟨hdeclares, hscope, hbalanced⟩ := h hreturns
  obtain ⟨hsettled, hframe⟩ := hL.routine hlocals hdeclares hscope hbalanced
  split
  · exact ⟨hsettled, fun var hvar => hframe var fun hlocal => hlocals var hlocal hvar⟩
  · exact hsettled

-- Past its first call, a function of this kind is contained.
theorem Follows.settles {bound least : Nat} (hp : Follows fn p env s calls)
    (hindices : calls.filterMap (·.verdict.index?) = List.range bound) (hleast : least ≤ bound)
    (htable : ∀ fault ≤ bound, least ≤ fault →
      ∀ outcome ∈ Call.outcomesAt fault calls, Contained fn outcome.1)
    (hworks : env.Works fn least) (hlocals : ∀ var ∈ locals fn, var ∉ slots)
    (hL : L.Settled (· ∈ slots)) : Settles slots (Kept slots L) p env s L := by
  refine settles_of_contained hlocals hL fun hreturns => ?_
  exact htable _ (Call.firstFault_le _ _) ((env.works_iff fn hleast).mp hworks) _
    (hp.mem_firstFault hreturns hindices)

-- A function of this kind is contained when it fails between two of its calls.
theorem Follows.settles_between {bound least most : Nat} (hp : Follows fn p env s calls)
    (hindices : calls.filterMap (·.verdict.index?) = List.range bound) (hleast : least ≤ bound)
    (hmost : most ≤ bound)
    (htable : ∀ fault ≤ bound, least ≤ fault → ¬most ≤ fault →
      ∀ outcome ∈ Call.outcomesAt fault calls,
        Contained fn outcome.1 ∧ outcome.2 = false)
    (hworks : env.Works fn least ∧ ¬env.Works fn most) (hlocals : ∀ var ∈ locals fn, var ∉ slots)
    (hL : L.Settled (· ∈ slots)) : Settles slots (fun _ => False) p env s L := by
  intro hreturns
  rw [env.works_iff fn hleast, env.works_iff fn hmost] at hworks
  obtain ⟨hcontained, hfails⟩ := htable _ (Call.firstFault_le _ _) hworks.1 hworks.2 _
    (hp.mem_firstFault hreturns hindices)
  have hsettles := settles_of_contained hlocals hL (fun _ => hcontained) hreturns
  simp only [show (p env s).out.isOk = false from hfails] at hsettles ⊢
  exact hsettles

-- A variable of the context is filled, and the others stay as they were.
def Filled (slots : List Slot) (slot : Slot) (L M : Ledger Slot) : Prop :=
  M.Settled (· ∈ slots) ∧ ∀ var ∈ slots, var ≠ slot → M.held var = L.held var

-- A dump that keeps no block is one such part.
theorem kept_dump {dump : Dump} (hdump : dump ≠ .leaked) (hattribute : .attribute fn ∉ slots)
    (hL : L.Settled (· ∈ slots)) : Kept slots L (L.replay (dump.actions fn [])) := by
  cases dump with
  | none => exact ⟨hL, fun _ _ => rfl⟩
  | leaked => exact absurd rfl hdump
  | released =>
      refine ⟨hL.alloc_free hattribute, fun var hvar => ?_⟩
      have hne : var ≠ .attribute fn := by
        rintro rfl
        exact hattribute hvar
      refine Ledger.replay_held_of_not_mem L fun action haction => ?_
      rcases List.mem_pair.mp haction with rfl | rfl
      · exact hne
      · exact hne

theorem Follows.settles_allocation {bound : Nat} {slot : Slot} (dump : Dump)
    (hp : Follows fn p env s calls) (vars : List Slot)
    (hindices : calls.filterMap (·.verdict.index?) = List.range bound) (hbound : 1 ≤ bound)
    (htable : ∀ fault ≤ bound, ∀ outcome ∈ Call.outcomesAt fault calls,
      outcome.1 = vars.map .declare ++ (if 1 ≤ fault then [.alloc slot] else []) ++
        if bound ≤ fault then dump.actions fn [] else [])
    (hvars : ∀ var ∈ vars, var ∉ slots) (hattribute : .attribute fn ∉ slots)
    (hslot : slot ∈ slots) (hL : L.Settled (· ∈ slots))
    (hidle : env.Works fn 1 → (L.held slot).isLive = false)
    (hdump : env.Works fn bound → dump ≠ .leaked) :
    Settles slots (Filled slots slot L) p env s L := by
  intro hreturns
  let fault := Call.firstFault (env.worked fn) bound
  have hactions : handling (p env s) = vars.map .declare ++
      (if 1 ≤ fault then [.alloc slot] else []) ++
      if bound ≤ fault then dump.actions fn [] else [] :=
    htable _ (Call.firstFault_le _ _) _ (hp.mem_firstFault hreturns hindices)
  obtain ⟨hdeclared, hframe⟩ := hL.declare hvars
  have hheld : ∀ var ∈ slots, (L.replay (vars.map .declare)).held var = L.held var :=
    fun var hvar => hframe var fun hlocal => hvars var hlocal hvar
  have hfilled : Filled slots slot L ((L.replay (vars.map .declare)).replay
      (if 1 ≤ fault then [.alloc slot] else [])) := by
    split
    case isTrue hfault =>
      have hworks := (env.works_iff fn hbound).mpr hfault
      have hnull : ((L.replay (vars.map .declare)).held slot).isLive = false := by
        rw [hheld slot hslot]
        exact hidle hworks
      refine ⟨hdeclared.alloc_owned hslot hnull, fun var hvar hne => ?_⟩
      rw [Ledger.replay_cons, Ledger.replay_nil, Ledger.act_held_of_ne _ hne, hheld var hvar]
    case isFalse => exact ⟨hdeclared, fun var hvar _ => hheld var hvar⟩
  have hend : Filled slots slot L (L.replay (handling (p env s))) := by
    rw [hactions, Ledger.replay_append, Ledger.replay_append]
    by_cases hfault : bound ≤ fault
    · have hworks := (env.works_iff fn (Nat.le_refl bound)).mpr hfault
      obtain ⟨hsettled, hkept⟩ := kept_dump (hdump hworks) hattribute hfilled.1
      rw [if_pos hfault]
      exact ⟨hsettled, fun var hvar hne => (hkept var hvar).trans (hfilled.2 var hvar hne)⟩
    · rw [if_neg hfault]
      exact hfilled
  split
  · exact hend
  · exact hend.1

-- The derivation is contained when it fails in its sixth or seventh call.
theorem contained_deriveSharedKeyCalls (dump : Dump) : ∀ fault ≤ 11, 5 ≤ fault → ¬7 ≤ fault →
    ∀ outcome ∈ Call.outcomesAt fault (deriveSharedKeyCalls dump),
      Contained .deriveSharedKey outcome.1 ∧ outcome.2 = false := by
  cases dump <;> decide

end Settles

end Watz
