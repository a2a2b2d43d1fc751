import Watz.Attester.Lemmas
import Watz.Attester.Receive
import Watz.Idealised
import Watz.Verifier.Lemmas

namespace Watz

open Base Tee

-- A call that worked, or no call at all.
def Event.Works : Event → Prop
  | .call _ _ result => result = none
  | .use _ _ => True
  | .enter _ => True
  | .alloc _ => True
  | .free _ => True
  | .store _ _ _ => True
  | .print _ _ _ => True
  | .read _ _ _ => True

section Reports

variable {P : Prims} {σ α : Type}

theorem reports_tee (fn : Fn) (index : Nat) :
    Prog.Reports Event.Works (tee fn index : TeeM P σ Unit) :=
  Prog.Reports.call rfl

theorem reports_teeCheck (fn : Fn) (index : Nat) (passes : Bool) (code : TeeError) :
    Prog.Reports Event.Works (teeCheck fn index passes code : TeeM P σ Unit) :=
  Prog.Reports.call rfl

theorem reports_allocate (fn : Fn) (index : Nat) (slot : Slot) :
    Prog.Reports Event.Works (allocate fn index slot : TeeM P σ Unit) :=
  (reports_tee fn index).bind fun _ => Prog.Reports.emit (by simp [Event.Works])

theorem reports_setOperationKey (fn : Fn) (index : Nat) (obj : Obj α) :
    Prog.Reports Event.Works (setOperationKey fn index obj : TeeM P σ α) :=
  (reports_tee fn index).bind fun _ => Prog.Reports.orPanic _

theorem reports_mallocUnchecked (fn : Fn) (index : Nat) (slot : Slot) :
    Prog.Reports Event.Works (mallocUnchecked fn index slot : TeeM P σ Unit) :=
  Prog.Reports.ask.bind fun _ => (Prog.Reports.orPanic _).bind fun _ =>
    Prog.Reports.emit (by simp [Event.Works])

theorem reports_stores (region : Region) (ranges : List (Nat × Nat)) :
    Prog.Reports Event.Works (stores region ranges : TeeM P σ Unit) := by
  refine Prog.Reports.emit fun event he => ?_
  obtain ⟨range, _, rfl⟩ := List.mem_map.mp he
  trivial

-- Entering a function and releasing what it holds are no calls with a result.
theorem reports_enter (fn : Fn) :
    Prog.Reports Event.Works (Prog.emit [.enter fn] : TeeM P σ Unit) :=
  Prog.Reports.emit (by simp [Event.Works])

theorem reports_free (slot : Slot) :
    Prog.Reports Event.Works (Prog.emit [.free slot] : TeeM P σ Unit) :=
  Prog.Reports.emit (by simp [Event.Works])

theorem reports_free_both (slot other : Slot) :
    Prog.Reports Event.Works (Prog.emit [.free slot, .free other] : TeeM P σ Unit) :=
  Prog.Reports.emit (by simp [Event.Works])

theorem reports_readCoord (field : Field) (c : P.Coord) :
    Prog.Reports Event.Works (readCoord field c : TeeM P σ P.Val) :=
  Prog.Reports.ask.bind fun _ => (Prog.Reports.emit (by simp [Event.Works])).bind fun _ =>
    Prog.Reports.pure _

theorem reports_initRefAttribute (field : Field) (c : P.Coord) :
    Prog.Reports Event.Works (initRefAttribute field c : TeeM P σ Unit) :=
  Prog.Reports.emit (by simp [Event.Works])

theorem reports_memCompare (field : Field) (c : P.Coord) (other : Field) (d : P.Coord) :
    Prog.Reports Event.Works (memCompare field c other d : TeeM P σ Bool) :=
  Prog.Reports.ask.bind fun _ => (Prog.Reports.emit (by simp [Event.Works])).bind fun _ =>
    Prog.Reports.pure _

theorem reports_dump (field : Field) (c : P.Coord) :
    Prog.Reports Event.Works (dump field c : TeeM P σ Unit) := by
  refine Prog.Reports.ask.bind fun env => Prog.Reports.emit ?_
  cases env.debug <;> simp [Event.Works]

theorem reports_print (region : Region) (offset length : Nat) :
    Prog.Reports Event.Works (print region offset length : TeeM P σ Unit) := by
  refine Prog.Reports.ask.bind fun env => Prog.Reports.emit ?_
  cases env.debug <;> simp [Event.Works]

theorem reports_logRead (region : Region) (offset length : Nat) :
    Prog.Reports Event.Works (logRead region offset length : TeeM P σ Unit) := by
  refine Prog.Reports.ask.bind fun env => Prog.Reports.emit ?_
  cases env.debug <;> simp [Event.Works]

-- The dump of an attribute succeeds whatever its calls return.
theorem reportsWhen_dumpObjectAttribute (fn : Fn) (index : Nat) :
    Prog.ReportsWhen Event.Works (fun env => env.DumpWorks fn index)
      (dumpObjectAttribute fn index : TeeM P σ Unit) := by
  intro env s value _
  unfold Prog.Logs
  rw [dumpObjectAttribute_run]
  cases hdebug : env.debug <;> cases hblock : env.faults fn index <;>
    cases hread : env.faults fn (index + 1) <;>
    simp [Env.dumpLog, Env.dumpResult, Env.DumpWorks, Event.Works, hdebug, hblock, hread]

end Reports

namespace Derivation

variable {P : Prims} {σ : Type} (d : Derivation P σ)

theorem reports_deriveSharedKeyCleanup :
    Prog.Reports Event.Works (Prog.emit deriveSharedKeyCleanup : TeeM P σ Unit) :=
  Prog.Reports.emit (by simp [deriveSharedKeyCleanup, Event.Works])

theorem reportsWhen_deriveSharedKey :
    Prog.ReportsWhen Event.Works (fun env => env.DumpWorks .deriveSharedKey 11)
      d.deriveSharedKey := by
  unfold deriveSharedKey
  refine (reports_enter _).bind_when fun _ => Prog.Reports.get.bind_when fun s => ?_
  refine Prog.Reports.bind_when (Prog.Reports.onFail ?_) fun keypair => ?_
  · refine (reports_allocate _ _ _).bind fun _ => (reports_setOperationKey _ _ _).bind fun key => ?_
    exact (reports_allocate _ _ _).bind fun _ => Prog.Reports.pure key
  refine (reports_readCoord _ _).bind_when fun x => (reports_readCoord _ _).bind_when fun y => ?_
  refine (Prog.Reports.orPanic _).bind_when fun sharedSecret => ?_
  refine (reports_tee _ _).bind_when fun _ => ?_
  refine Prog.ReportsWhen.bind_reports (Prog.ReportsWhen.onFail ?_) fun _ =>
    reports_deriveSharedKeyCleanup
  refine (reports_allocate _ _ _).bind_when fun _ => (reports_tee _ _).bind_when fun _ => ?_
  refine (reports_allocate _ _ _).bind_when fun _ => (reports_tee _ _).bind_when fun _ => ?_
  refine (reports_tee _ _).bind_when fun _ => (reports_allocate _ _ _).bind_when fun _ => ?_
  refine (Prog.Reports.modify _).bind_when fun _ => (reports_tee _ _).bind_when fun _ => ?_
  exact (Prog.Reports.modify _).bind_when fun _ => reportsWhen_dumpObjectAttribute _ _

theorem reportsWhen_deriveSharedMacKey (fn : Fn) (data : List UInt8) (slot : Slot)
    (store : Obj P.Val → σ → σ) :
    Prog.ReportsWhen Event.Works (fun env => env.DumpWorks fn 8)
      (d.deriveSharedMacKey fn data slot store) := by
  unfold deriveSharedMacKey
  refine (reports_enter _).bind_when fun _ => Prog.Reports.get.bind_when fun s => ?_
  refine Prog.ReportsWhen.bind_reports (Prog.ReportsWhen.onFail ?_) fun _ => reports_free_both _ _
  refine (reports_allocate _ _ _).bind_when fun _ => (reports_tee _ _).bind_when fun _ => ?_
  refine (Prog.Reports.orPanic _).bind_when fun sharedSecret => ?_
  refine (reports_tee _ _).bind_when fun _ => (reports_allocate _ _ _).bind_when fun _ => ?_
  refine (reports_tee _ _).bind_when fun _ => (reports_tee _ _).bind_when fun _ => ?_
  refine (reports_allocate _ _ _).bind_when fun _ => (Prog.Reports.modify _).bind_when fun _ => ?_
  refine (reports_tee _ _).bind_when fun _ => (Prog.Reports.modify _).bind_when fun _ => ?_
  exact reportsWhen_dumpObjectAttribute _ _

end Derivation

section Verifier

open Verifier

variable {P : Prims}

theorem Verifier.reportsWhen_generateEcdhKeypair :
    Prog.ReportsWhen Event.Works (fun env => env.DumpWorks .generateEcdhKeypair 4)
      (generateEcdhKeypair : VerifierM P Unit) := by
  unfold generateEcdhKeypair
  refine (reports_enter _).bind_when fun _ => (reports_allocate _ _ _).bind_when fun _ => ?_
  refine (Prog.Reports.modify _).bind_when fun _ => (reports_tee _ _).bind_when fun _ => ?_
  refine Prog.Reports.ask.bind_when fun env => (Prog.Reports.modify _).bind_when fun _ => ?_
  refine (Prog.Reports.modify _).bind_when fun _ => (reports_tee _ _).bind_when fun _ => ?_
  refine (Prog.Reports.modify _).bind_when fun _ => (reports_tee _ _).bind_when fun _ => ?_
  refine (Prog.Reports.modify _).bind_when fun _ => ?_
  refine (reportsWhen_dumpObjectAttribute _ _).bind_reports fun _ => ?_
  refine Prog.Reports.get.bind fun s => ?_
  exact (reports_dump _ _).bind fun _ => reports_dump _ _

theorem Verifier.reports_storeMsg0 (buffer : P.Buf) :
    Prog.Reports Event.Works (storeMsg0 buffer) := by
  unfold storeMsg0
  refine (Prog.Reports.require _ _).bind fun _ => (Prog.Reports.modify _).bind fun _ => ?_
  exact Prog.Reports.get.bind fun s => (reports_dump _ _).bind fun _ => reports_dump _ _

theorem Verifier.reports_populateAttesterKey :
    Prog.Reports Event.Works (populateAttesterKey : VerifierM P Unit) := by
  unfold populateAttesterKey
  refine (reports_enter _).bind fun _ => Prog.Reports.get.bind fun s => ?_
  refine (reports_initRefAttribute _ _).bind fun _ => ?_
  refine (reports_initRefAttribute _ _).bind fun _ => ?_
  refine (reports_allocate _ _ _).bind fun _ => (Prog.Reports.modify _).bind fun _ => ?_
  refine (reports_readCoord _ _).bind fun x => (reports_readCoord _ _).bind fun y => ?_
  exact (reports_tee _ _).bind fun _ => Prog.Reports.modify _

-- The dumps of a whole `handle_msg0`.
def Verifier.HandleMsg0DumpsWork (env : Env P) : Prop :=
  env.DumpWorks .generateEcdhKeypair 4 ∧ env.DumpWorks .deriveSharedKey 11 ∧
    env.DumpWorks .deriveMacKey 8 ∧ env.DumpWorks .deriveSessionKey 8

theorem Verifier.reportsWhen_handleMsg0 (buffer : P.Buf) :
    Prog.ReportsWhen Event.Works HandleMsg0DumpsWork (handleMsg0 buffer) := by
  refine reportsWhen_generateEcdhKeypair.bind fun _ => ?_
  refine (reports_storeMsg0 buffer).bind_when fun _ => ?_
  refine reports_populateAttesterKey.bind_when fun _ => ?_
  refine (derivation.reportsWhen_deriveSharedKey).bind fun _ => ?_
  exact (derivation.reportsWhen_deriveSharedMacKey _ _ _ _).bind fun _ =>
    derivation.reportsWhen_deriveSharedMacKey _ _ _ _

theorem Verifier.reports_appendEcdhPublicKeysSignature :
    Prog.Reports Event.Works (appendEcdhPublicKeysSignature : VerifierM P Unit) := by
  unfold appendEcdhPublicKeysSignature
  refine (reports_enter _).bind fun _ => Prog.Reports.get.bind fun s => ?_
  refine Prog.Reports.bind (Prog.Reports.onFail ?_) fun _ => reports_free _
  refine (reports_allocate _ _ _).bind fun _ => ?_
  refine (reports_readCoord _ _).bind fun gvX => (reports_readCoord _ _).bind fun gvY => ?_
  refine (reports_readCoord _ _).bind fun gaX => (reports_readCoord _ _).bind fun gaY => ?_
  refine (reports_tee _ _).bind fun _ => (Prog.Reports.require _ _).bind fun _ => ?_
  refine (reports_dump _ _).bind fun _ => (reports_dump _ _).bind fun _ => ?_
  refine (reports_dump _ _).bind fun _ => (reports_dump _ _).bind fun _ => ?_
  refine (reports_allocate _ _ _).bind fun _ => (reports_setOperationKey _ _ _).bind fun key => ?_
  refine (reports_tee _ _).bind fun _ => Prog.Reports.ask.bind fun env => ?_
  exact (Prog.Reports.modify _).bind fun _ => Prog.Reports.require _ _

theorem Verifier.reports_appendMac :
    Prog.Reports Event.Works (appendMac : VerifierM P Unit) := by
  unfold appendMac
  refine (reports_enter _).bind fun _ => Prog.Reports.get.bind fun s => ?_
  refine (reports_allocate _ _ _).bind fun _ => (reports_setOperationKey _ _ _).bind fun key => ?_
  refine Prog.Reports.bind (Prog.Reports.onFail ?_) fun _ => reports_free _
  refine (reports_readCoord _ _).bind fun gvX => (reports_readCoord _ _).bind fun gvY => ?_
  refine (reports_readCoord _ _).bind fun vkX => (reports_readCoord _ _).bind fun vkY => ?_
  refine (reports_tee _ _).bind fun _ => (Prog.Reports.modify _).bind fun _ => ?_
  exact Prog.Reports.require _ _

theorem Verifier.reports_prepareMsg1 (buffer : P.Buf) :
    Prog.Reports Event.Works (prepareMsg1 buffer) := by
  unfold prepareMsg1
  refine (Prog.Reports.require _ _).bind fun _ => ?_
  refine reports_appendEcdhPublicKeysSignature.bind fun _ => reports_appendMac.bind fun _ => ?_
  refine Prog.Reports.get.bind fun s => (reports_stores _ _).bind fun _ => ?_
  refine (reports_print _ _ _).bind fun _ => (reports_print _ _ _).bind fun _ => ?_
  exact Prog.Reports.pure _

theorem Verifier.reports_storeMsg2 (buffer : P.Buf) :
    Prog.Reports Event.Works (storeMsg2 buffer) :=
  (Prog.Reports.require _ _).bind fun _ => Prog.Reports.modify _

theorem Verifier.reports_verifyMacMsg2 :
    Prog.Reports Event.Works (verifyMacMsg2 : VerifierM P Unit) := by
  unfold verifyMacMsg2
  refine (reports_enter _).bind fun _ => Prog.Reports.get.bind fun s => ?_
  refine Prog.Reports.bind (Prog.Reports.onFail ?_) fun _ => reports_free _
  refine (reports_allocate _ _ _).bind fun _ => (reports_setOperationKey _ _ _).bind fun key => ?_
  refine (reports_readCoord _ _).bind fun x => (reports_readCoord _ _).bind fun y => ?_
  exact reports_teeCheck _ _ _ _

theorem Verifier.reports_verifyPublicKeyMsg2MatchesMsg0 :
    Prog.Reports Event.Works (verifyPublicKeyMsg2MatchesMsg0 : VerifierM P Unit) := by
  unfold verifyPublicKeyMsg2MatchesMsg0
  refine Prog.Reports.get.bind fun s => (reports_memCompare _ _ _ _).bind fun equalX => ?_
  refine (Prog.Reports.require _ _).bind fun _ => ?_
  exact (reports_memCompare _ _ _ _).bind fun equalY => Prog.Reports.require _ _

theorem Verifier.reports_verifyQuoteSignature :
    Prog.Reports Event.Works (verifyQuoteSignature : VerifierM P Unit) := by
  unfold verifyQuoteSignature
  refine (reports_enter _).bind fun _ => Prog.Reports.get.bind fun s => ?_
  refine Prog.Reports.bind (Prog.Reports.onFail ?_) fun _ => reports_free _
  refine (reports_allocate _ _ _).bind fun _ => (reports_tee _ _).bind fun _ => ?_
  refine (Prog.Reports.require _ _).bind fun _ => (reports_allocate _ _ _).bind fun _ => ?_
  refine (reports_setOperationKey _ _ _).bind fun key => ?_
  exact (reports_teeCheck _ _ _ _).bind fun _ => Prog.Reports.modify _

theorem Verifier.reports_verifyAnchor :
    Prog.Reports Event.Works (verifyAnchor : VerifierM P Unit) := by
  unfold verifyAnchor
  refine (reports_enter _).bind fun _ => Prog.Reports.get.bind fun s => ?_
  refine Prog.Reports.bind (Prog.Reports.onFail ?_) fun digest => ?_
  · refine (reports_allocate _ _ _).bind fun _ => ?_
    refine (reports_readCoord _ _).bind fun gaX => (reports_readCoord _ _).bind fun gaY => ?_
    refine (reports_readCoord _ _).bind fun gvX => (reports_readCoord _ _).bind fun gvY => ?_
    refine (reports_tee _ _).bind fun _ => (Prog.Reports.require _ _).bind fun _ => ?_
    exact Prog.Reports.pure _
  · exact (Prog.Reports.require _ _).bind fun _ => reports_free _

theorem Verifier.reports_handleMsg2 (buffer : P.Buf) :
    Prog.Reports Event.Works (handleMsg2 buffer) := by
  unfold handleMsg2
  refine (Prog.Reports.modify _).bind fun _ => (reports_storeMsg2 buffer).bind fun _ => ?_
  refine reports_verifyMacMsg2.bind fun _ => ?_
  refine reports_verifyPublicKeyMsg2MatchesMsg0.bind fun _ => ?_
  exact reports_verifyQuoteSignature.bind fun _ => reports_verifyAnchor

theorem Verifier.reports_encryptMsg3 (buffer : P.Buf) (data : P.Val) :
    Prog.Reports Event.Works (encryptMsg3 buffer data) := by
  unfold encryptMsg3
  refine (reports_enter _).bind fun _ => Prog.Reports.get.bind fun s => ?_
  refine Prog.Reports.ask.bind fun env => ?_
  refine Prog.Reports.bind (Prog.Reports.onFail ?_) fun key => ?_
  · refine (reports_allocate _ _ _).bind fun _ => (reports_setOperationKey _ _ _).bind fun key => ?_
    refine (reports_tee _ _).bind fun _ => (reports_teeCheck _ _ _ _).bind fun _ => ?_
    exact Prog.Reports.pure key
  · refine (reports_stores _ _).bind fun _ => (reports_free _).bind fun _ => ?_
    exact Prog.Reports.pure _

theorem Verifier.reports_prepareMsg3 (buffer : P.Buf) (data : P.Val) :
    Prog.Reports Event.Works (prepareMsg3 buffer data) := by
  unfold prepareMsg3 allocateMsg3
  refine Prog.Reports.bind ?_ fun _ => (reports_encryptMsg3 buffer data).bind fun sealed => ?_
  · exact (Prog.Reports.require _ _).bind fun _ => reports_mallocUnchecked _ _ _
  · refine (reports_free _).bind fun _ => (reports_print _ _ _).bind fun _ => ?_
    exact Prog.Reports.pure sealed

end Verifier

section Attester

open Attester

variable {P : Prims}

theorem Attester.reportsWhen_generateEcdhKeypair :
    Prog.ReportsWhen Event.Works (fun env => env.DumpWorks .generateEcdhKeypair 4)
      (generateEcdhKeypair : AttesterM P Unit) := by
  unfold generateEcdhKeypair
  refine (reports_enter _).bind_when fun _ => (reports_allocate _ _ _).bind_when fun _ => ?_
  refine (Prog.Reports.modify _).bind_when fun _ => (reports_tee _ _).bind_when fun _ => ?_
  refine Prog.Reports.ask.bind_when fun env => (Prog.Reports.modify _).bind_when fun _ => ?_
  refine (reports_tee _ _).bind_when fun _ => (Prog.Reports.modify _).bind_when fun _ => ?_
  refine (reports_tee _ _).bind_when fun _ => (Prog.Reports.modify _).bind_when fun _ => ?_
  refine (reportsWhen_dumpObjectAttribute _ _).bind_reports fun _ => ?_
  refine Prog.Reports.get.bind fun s => ?_
  exact (reports_dump _ _).bind fun _ => reports_dump _ _

theorem Attester.reportsWhen_raNetHandshakeStart :
    Prog.ReportsWhen Event.Works (fun env => env.DumpWorks .generateEcdhKeypair 4)
      (raNetHandshakeStart : AttesterM P (Msg0 P.Coord)) := by
  unfold raNetHandshakeStart allocRaContext establishTcpConnection sendMsg0
  refine (Prog.Reports.modify _).bind_when fun _ => ?_
  refine reportsWhen_generateEcdhKeypair.bind_reports fun _ => ?_
  refine (reports_allocate _ _ _).bind fun _ => (reports_tee _ _).bind fun _ => ?_
  exact Prog.Reports.get.bind fun s => Prog.Reports.pure _

theorem Attester.reportsWhen_dumpRemotePublicKey (msg1 : Msg1 P.Coord P.Val) :
    Prog.ReportsWhen Event.Works
      (fun env => env.DumpWorks .receiveMsg1 3 ∧ env.DumpWorks .receiveMsg1 5)
      (dumpRemotePublicKey msg1) := by
  unfold dumpRemotePublicKey
  refine Prog.ReportsWhen.ask_bind fun env => ?_
  cases hdebug : env.debug with
  | false =>
      intro s value _
      have hnone : ∀ fn index, env.DumpWorks fn index := by simp [Env.DumpWorks, hdebug]
      exact iff_of_true (Prog.logs_of_nil rfl) ⟨hnone _ _, hnone _ _⟩
  | true =>
      simp only [ite_true]
      clear hdebug
      revert env
      change Prog.ReportsWhen Event.Works
        (fun env : Env P => env.DumpWorks .receiveMsg1 3 ∧ env.DumpWorks .receiveMsg1 5) _
      refine Prog.ReportsWhen.bind_reports (Prog.ReportsWhen.onFail ?_) fun _ => reports_free _
      refine (reports_allocate _ _ _).bind_when fun _ => ?_
      refine (reports_readCoord _ _).bind_when fun _ => ?_
      refine (reports_readCoord _ _).bind_when fun _ => (reports_tee _ _).bind_when fun _ => ?_
      exact (reportsWhen_dumpObjectAttribute _ _).bind fun _ => reportsWhen_dumpObjectAttribute _ _

theorem Attester.reportsWhen_receiveMsg1 :
    Prog.ReportsWhen Event.Works
      (fun env => env.DumpWorks .receiveMsg1 3 ∧ env.DumpWorks .receiveMsg1 5)
      (receiveMsg1 : AttesterM P Unit) := by
  unfold receiveMsg1
  refine (reports_enter _).bind_when fun _ => (reports_tee _ _).bind_when fun _ => ?_
  refine Prog.Reports.ask.bind_when fun env => (reports_stores _ _).bind_when fun _ => ?_
  refine (Prog.Reports.orFail _ _).bind_when fun msg1 => ?_
  refine (Prog.Reports.modify _).bind_when fun _ => ?_
  refine (reports_initRefAttribute _ _).bind_when fun _ => ?_
  exact (reports_initRefAttribute _ _).bind_when fun _ => reportsWhen_dumpRemotePublicKey msg1

theorem Attester.reports_verifyServicePublicKey (pin : Pin P) :
    Prog.Reports Event.Works (verifyServicePublicKey pin) := by
  unfold verifyServicePublicKey
  refine Prog.Reports.get.bind fun s => Prog.Reports.ite (Prog.Reports.pure ()) ?_
  refine (Prog.Reports.require _ _).bind fun _ => ?_
  exact (Prog.Reports.require _ _).bind fun _ => Prog.Reports.require _ _

theorem Attester.reports_importVerifierAttestationKey :
    Prog.Reports Event.Works (importVerifierAttestationKey : AttesterM P Unit) := by
  unfold importVerifierAttestationKey
  refine (reports_enter _).bind fun _ => Prog.Reports.get.bind fun s => ?_
  refine (reports_allocate _ _ _).bind fun _ => (Prog.Reports.modify _).bind fun _ => ?_
  refine (reports_initRefAttribute _ _).bind fun _ => ?_
  refine (reports_initRefAttribute _ _).bind fun _ => ?_
  refine (reports_readCoord _ _).bind fun x => (reports_readCoord _ _).bind fun y => ?_
  exact (reports_tee _ _).bind fun _ => Prog.Reports.modify _

theorem Attester.reports_verifyEcdhPublicKeySignature :
    Prog.Reports Event.Works (verifyEcdhPublicKeySignature : AttesterM P Unit) := by
  unfold verifyEcdhPublicKeySignature
  refine (reports_enter _).bind fun _ => Prog.Reports.get.bind fun s => ?_
  refine Prog.Reports.bind (Prog.Reports.onFail ?_) fun _ => reports_free _
  refine (reports_allocate _ _ _).bind fun _ => ?_
  refine (reports_readCoord _ _).bind fun gvX => (reports_readCoord _ _).bind fun gvY => ?_
  refine (reports_readCoord _ _).bind fun gaX => (reports_readCoord _ _).bind fun gaY => ?_
  refine (reports_tee _ _).bind fun _ => (Prog.Reports.require _ _).bind fun _ => ?_
  refine (reports_allocate _ _ _).bind fun _ => (reports_setOperationKey _ _ _).bind fun key => ?_
  exact Prog.Reports.onFailWith (reports_teeCheck _ _ _ _)

theorem Attester.reports_verifyMsg1Mac :
    Prog.Reports Event.Works (verifyMsg1Mac : AttesterM P Unit) := by
  unfold verifyMsg1Mac
  refine (reports_enter _).bind fun _ => Prog.Reports.get.bind fun s => ?_
  refine (reports_allocate _ _ _).bind fun _ => (reports_setOperationKey _ _ _).bind fun key => ?_
  refine Prog.Reports.bind (Prog.Reports.onFail ?_) fun _ => reports_free _
  refine (reports_readCoord _ _).bind fun gvX => (reports_readCoord _ _).bind fun gvY => ?_
  refine (reports_readCoord _ _).bind fun vkX => (reports_readCoord _ _).bind fun vkY => ?_
  exact reports_teeCheck _ _ _ _

theorem Attester.reports_generateAnchor (anchorSize : Nat) :
    Prog.Reports Event.Works (generateAnchor anchorSize : AttesterM P P.Val) := by
  unfold generateAnchor
  refine (Prog.Reports.require _ _).bind fun _ => (reports_enter _).bind fun _ => ?_
  refine Prog.Reports.get.bind fun s => ?_
  refine Prog.Reports.bind (Prog.Reports.onFail ?_) fun anchor => ?_
  · refine (reports_allocate _ _ _).bind fun _ => ?_
    refine (reports_readCoord _ _).bind fun gaX => (reports_readCoord _ _).bind fun gaY => ?_
    refine (reports_readCoord _ _).bind fun gvX => (reports_readCoord _ _).bind fun gvY => ?_
    refine (reports_tee _ _).bind fun _ => (Prog.Reports.require _ _).bind fun _ => ?_
    exact Prog.Reports.pure _
  · exact (reports_free _).bind fun _ => Prog.Reports.pure anchor

-- The dumps of a whole handshake.
def Attester.HandshakeDumpsWork (env : Env P) : Prop :=
  env.DumpWorks .generateEcdhKeypair 4 ∧
    (env.DumpWorks .receiveMsg1 3 ∧ env.DumpWorks .receiveMsg1 5) ∧
    env.DumpWorks .deriveSharedKey 11 ∧ env.DumpWorks .deriveMacKey 8 ∧
    env.DumpWorks .deriveSessionKey 8

theorem Attester.reportsWhen_raNetHandshake (pin : Pin P) (anchorSize : Nat) :
    Prog.ReportsWhen Event.Works HandshakeDumpsWork (raNetHandshake pin anchorSize) := by
  refine reportsWhen_raNetHandshakeStart.bind fun _ => reportsWhen_receiveMsg1.bind fun _ => ?_
  refine (reports_verifyServicePublicKey pin).bind_when fun _ => ?_
  refine reports_importVerifierAttestationKey.bind_when fun _ => ?_
  refine reports_verifyEcdhPublicKeySignature.bind_when fun _ => ?_
  refine (derivation.reportsWhen_deriveSharedKey).bind fun _ => ?_
  refine (derivation.reportsWhen_deriveSharedMacKey _ _ _ _).bind fun _ => ?_
  refine (derivation.reportsWhen_deriveSharedMacKey _ _ _ _).bind_reports fun _ => ?_
  exact reports_verifyMsg1Mac.bind fun _ => reports_generateAnchor anchorSize

theorem Attester.reports_decryptMsg3 (dataSize : Nat) :
    Prog.Reports Event.Works (decryptMsg3 dataSize : AttesterM P _) := by
  unfold decryptMsg3
  refine (reports_enter _).bind fun _ => Prog.Reports.get.bind fun s => ?_
  refine Prog.Reports.bind (Prog.Reports.onFail ?_) fun data => ?_
  · refine (reports_allocate _ _ _).bind fun _ => (reports_setOperationKey _ _ _).bind fun key => ?_
    refine (Prog.Reports.orPanic _).bind fun msg3 => (reports_tee _ _).bind fun _ => ?_
    exact (reports_teeCheck _ _ _ _).bind fun _ => Prog.Reports.orFail _ _
  · refine (reports_stores _ _).bind fun _ => (reports_print _ _ _).bind fun _ => ?_
    exact (reports_free _).bind fun _ => Prog.Reports.pure _

theorem Attester.reports_dumpMsg3 :
    Prog.Reports Event.Works (dumpMsg3 : AttesterM P Unit) := by
  unfold dumpMsg3
  refine (reports_print _ _ _).bind fun _ => (reports_print _ _ _).bind fun _ => ?_
  refine (reports_print _ _ _).bind fun _ => (reports_logRead _ _ _).bind fun _ => ?_
  exact (reports_print _ _ _).bind fun _ => reports_print _ _ _

theorem Attester.reports_raNetReceiveData (dataSize : Nat) :
    Prog.Reports Event.Works (raNetReceiveData dataSize : AttesterM P _) := by
  unfold raNetReceiveData allocateMsg3 receiveMsg3
  refine Prog.Reports.bind ?_ fun _ => Prog.Reports.bind ?_ fun _ => ?_
  · exact (reports_mallocUnchecked _ _ _).bind fun _ => Prog.Reports.modify _
  · refine (reports_tee _ _).bind fun _ => Prog.Reports.ask.bind fun env => ?_
    refine Prog.Reports.get.bind fun s => (reports_stores _ _).bind fun _ => ?_
    exact (Prog.Reports.modify _).bind fun _ => reports_dumpMsg3
  · exact (reports_logRead _ _ _).bind fun _ => reports_decryptMsg3 dataSize

theorem Attester.reports_computeMsg2Mac :
    Prog.Reports Event.Works (computeMsg2Mac : AttesterM P Unit) := by
  unfold computeMsg2Mac
  refine Prog.Reports.get.bind fun s => (reports_allocate _ _ _).bind fun _ => ?_
  refine (reports_setOperationKey _ _ _).bind fun key => (reports_readCoord _ _).bind fun x => ?_
  refine (reports_readCoord _ _).bind fun y => (reports_tee _ _).bind fun _ => ?_
  exact Prog.Reports.modify _

end Attester

section Loop

open Attester

-- `receive_socket_per_chunk` over a socket whose calls may fail: `none` while it still runs,
-- else its result and those of the calls of `recv` that it made. One `faults` of a function
-- that receives stands for this result.
def Attester.Receiving.outcome (faults : Nat → Option TeeError) (cuts : Nat → Nat)
    (dataSize : Nat) : Nat → Receiving → Option (Option TeeError × List (Option TeeError))
  | 0, _ => none
  | fuel + 1, r =>
      if r.goesOn dataSize then
        if dataSize < r.transferedData then some (some .shortBuffer, [])
        else
          match faults r.calls with
          | some code => some (some code, [some code])
          | none =>
              ((r.next cuts).outcome faults cuts dataSize fuel).map fun rest =>
                (rest.1, none :: rest.2)
      else some (none, [])

theorem Attester.outcome_works {faults : Nat → Option TeeError} {cuts : Nat → Nat}
    {dataSize fuel : Nat} {r : Receiving} {results : List (Option TeeError)}
    (h : r.outcome faults cuts dataSize fuel = some (none, results)) :
    ∀ result ∈ results, result = none := by
  induction fuel generalizing r results with
  | zero => simp [Receiving.outcome] at h
  | succ fuel ih =>
      rw [Receiving.outcome] at h
      split at h
      case isFalse =>
        cases h
        simp
      case isTrue =>
        split at h
        case isTrue => simp at h
        case isFalse =>
          cases hfault : faults r.calls with
          | some code => simp [hfault] at h
          | none =>
              simp only [hfault, Option.map_eq_some_iff] at h
              obtain ⟨rest, hrest, heq⟩ := h
              obtain ⟨hresult, rfl⟩ := Prod.mk.inj heq
              have hnone : rest = (none, rest.2) := Prod.ext hresult rfl
              rw [hnone] at hrest
              intro result hresult
              rcases List.mem_cons.mp hresult with rfl | hlater
              · rfl
              · exact ih hrest result hlater

end Loop

section Quote

open Attester

variable {P : Prims} {env : Env P} {s : RaContext P} {quote : P.Quote}

-- The tag is given up at the first call that fails, and an operation without a key panics.
theorem Attester.computeMsg2Mac_cases (env : Env P) (s : RaContext P) :
    (∃ code index, (computeMsg2Mac env s).out = .fail code ∧
        .call .prepareMsg2 index (some code) ∈ (computeMsg2Mac env s).log) ∨
      ((computeMsg2Mac env s).out = .panic ∧ env.Works .prepareMsg2 2 ∧
        ∀ key, s.sharedMacKey ≠ .key key) ∨
      (computeMsg2Mac env s).out = .ok () := by
  cases h0 : env.faults .prepareMsg2 0 with
  | some code =>
      refine .inl ⟨code, 0, ?_⟩
      simp [computeMsg2Mac, allocate, tee, Prog.call, Prog.bind_run, Prog.andThen, h0]
  | none =>
      cases h1 : env.faults .prepareMsg2 1 with
      | some code =>
          refine .inl ⟨code, 1, ?_⟩
          simp [computeMsg2Mac, allocate, setOperationKey, tee, Prog.call, Prog.bind_run,
            Prog.andThen, h0, h1]
      | none =>
          have hworks : env.Works .prepareMsg2 2 := by
            simp [Env.works_succ, Env.works_zero, h0, h1]
          cases hkey : s.sharedMacKey.key? with
          | none =>
              refine .inr (.inl ⟨?_, hworks, ?_⟩)
              · simp [computeMsg2Mac, allocate, setOperationKey, tee, Prog.call, Prog.bind_run,
                  Prog.andThen, Prog.orPanic, h0, h1, hkey]
              · intro key hsome
                rw [(Obj.key?_eq_some _ _).mpr hsome] at hkey
                cases hkey
          | some key =>
              cases h2 : env.faults .prepareMsg2 2 with
              | some code =>
                  refine .inl ⟨code, 2, ?_⟩
                  simp [computeMsg2Mac, allocate, setOperationKey, readCoord, tee, Prog.call,
                    Prog.bind_run, Prog.andThen, Prog.orPanic, Prog.ret, h0, h1, h2, hkey]
              | none =>
                  refine .inr (.inr ((computeMsg2Mac_ok env s).mpr ⟨?_, key, ?_⟩))
                  · exact (env.works_succ _ _).mpr ⟨hworks, h2⟩
                  · exact (Obj.key?_eq_some _ _).mp hkey

theorem Attester.computeMsg2Mac_panic (hworks : env.Works .prepareMsg2 2)
    (hkey : ∀ key, s.sharedMacKey ≠ .key key) : (computeMsg2Mac env s).out = .panic := by
  have hnone : s.sharedMacKey.key? = none := by
    cases hobj : s.sharedMacKey.key? with
    | none => rfl
    | some key => exact absurd ((Obj.key?_eq_some _ _).mp hobj) (hkey key)
  simp [computeMsg2Mac, allocate, setOperationKey, tee_run, Prog.bind_run, Prog.andThen,
    Prog.orPanic, hworks 0, hworks 1, hnone]

theorem Attester.raNetSendQuote_panic
    (h : (computeMsg2Mac env { s with msg2 := untaggedMsg2 quote s }).out = .panic) :
    (raNetSendQuote quote env s).out = .panic := by
  have hignored : (Prog.ignoreFail computeMsg2Mac env
      { s with msg2 := untaggedMsg2 quote s }).out = .panic := by
    simp only [Prog.ignoreFail, h]
  simp only [untaggedMsg2] at hignored
  simp [raNetSendQuote, prepareMsg2, Prog.bind_run, Prog.andThen, hignored]

-- `ra_net_send_quote` goes on whatever became of the tag, unless it panicked.
theorem Attester.raNetSendQuote_run
    (h : (computeMsg2Mac env { s with msg2 := untaggedMsg2 quote s }).out ≠ .panic) :
    (raNetSendQuote quote env s).out.isOk = (env.faults .sendMsg2 0).isNone ∧
      (raNetSendQuote quote env s).log =
        .enter .prepareMsg2 ::
          ((computeMsg2Mac env { s with msg2 := untaggedMsg2 quote s }).log ++
            [.free (.operation .prepareMsg2), .call .sendMsg2 0 (env.faults .sendMsg2 0)]) := by
  have hignored : Prog.ignoreFail computeMsg2Mac env { s with msg2 := untaggedMsg2 quote s } =
      ⟨.ok (), (computeMsg2Mac env { s with msg2 := untaggedMsg2 quote s }).state,
        (computeMsg2Mac env { s with msg2 := untaggedMsg2 quote s }).log⟩ := by
    unfold Prog.ignoreFail
    split
    · rfl
    · rename_i hout
      cases hcases : computeMsg2Mac env { s with msg2 := untaggedMsg2 quote s } with
      | mk out state log =>
          rw [hcases] at h hout
          cases out with
          | ok value => rfl
          | fail code => exact absurd rfl (hout code)
          | panic => exact absurd rfl h
  simp only [untaggedMsg2] at hignored ⊢
  cases hsend : env.faults .sendMsg2 0 <;>
    simp [raNetSendQuote, prepareMsg2, sendMsg2, tee, Prog.call, Prog.bind_run, Prog.andThen,
      hignored, hsend]

-- A quote that leaves carries the tag over `Ga` and itself, and every call worked.
def Attester.TagSent (quote : P.Quote) (env : Env P) (s : RaContext P) : Prop :=
  ∀ msg2, (raNetSendQuote quote env s).out = .ok msg2 →
    Prog.Logs (raNetSendQuote quote) env s Event.Works ∧
      ∃ key, s.sharedMacKey = .key key ∧ msg2 = preparedMsg2 env key quote s

theorem Attester.tagSent_iff (quote : P.Quote) (env : Env P) (s : RaContext P) :
    TagSent quote env s ↔
      env.faults .sendMsg2 0 ≠ none ∨ env.Works .prepareMsg2 2 ∧
        ((∀ key, s.sharedMacKey ≠ .key key) ∨ env.faults .prepareMsg2 2 = none) := by
  constructor
  · intro h
    by_contra hnot
    obtain ⟨hsend, hcalls⟩ := not_or.mp hnot
    rw [not_not] at hsend
    rcases computeMsg2Mac_cases env { s with msg2 := untaggedMsg2 quote s } with
      ⟨code, index, hfail, hevent⟩ | ⟨_, hworks, hkey⟩ | hok
    · have hgoes : (computeMsg2Mac env { s with msg2 := untaggedMsg2 quote s }).out ≠ .panic := by
        rw [hfail]
        simp
      obtain ⟨hsent, hlog⟩ := raNetSendQuote_run hgoes
      rw [hsend] at hsent
      obtain ⟨msg2, hmsg2⟩ := (Out.isOk_iff _).mp hsent
      have hclean := (h msg2 hmsg2).1 (.call .prepareMsg2 index (some code)) (by
        rw [hlog]
        exact List.mem_cons_of_mem _ (List.mem_append_left _ hevent))
      cases hclean
    · exact hcalls ⟨hworks, .inl hkey⟩
    · obtain ⟨hworks, _⟩ := (computeMsg2Mac_ok env _).mp hok
      obtain ⟨hfirst, hlast⟩ := (env.works_succ _ _).mp hworks
      exact hcalls ⟨hfirst, .inr hlast⟩
  · intro h msg2 hmsg2
    have hgoes : (computeMsg2Mac env { s with msg2 := untaggedMsg2 quote s }).out ≠ .panic := by
      intro hpanic
      rw [raNetSendQuote_panic hpanic] at hmsg2
      cases hmsg2
    obtain ⟨hsent, hlog⟩ := raNetSendQuote_run hgoes
    rw [hmsg2, Out.isOk_ok, eq_comm, Option.isNone_iff_eq_none] at hsent
    rcases h with hfault | ⟨hworks, hrest⟩
    · exact absurd hsent hfault
    have hlast : env.faults .prepareMsg2 2 = none := by
      rcases hrest with hkey | hlast
      · exact absurd (computeMsg2Mac_panic hworks (by exact hkey)) hgoes
      · exact hlast
    have hall : env.Works .prepareMsg2 3 := (env.works_succ _ _).mpr ⟨hworks, hlast⟩
    have hkey : ∃ key, s.sharedMacKey = .key key := by
      by_contra hnone
      exact hgoes (computeMsg2Mac_panic hworks (by exact fun key hsome => hnone ⟨key, hsome⟩))
    obtain ⟨key, hkey⟩ := hkey
    refine ⟨?_, key, hkey, ?_⟩
    · have hmac := reports_computeMsg2Mac env { s with msg2 := untaggedMsg2 quote s } ()
        ((computeMsg2Mac_ok env _).mpr ⟨hall, key, hkey⟩)
      intro event he
      rw [hlog, hsent] at he
      rcases List.mem_cons.mp he with rfl | he
      · trivial
      rcases List.mem_append.mp he with he | he
      · exact hmac event he
      · simp only [List.mem_cons, List.not_mem_nil, or_false] at he
        rcases he with rfl | rfl
        · trivial
        · rfl
    · have hsends : SendWorks env := ⟨hall, (env.works_succ _ _).mpr ⟨env.works_zero _, hsent⟩⟩
      have hreaches := (raNetSendQuote_reaches env s hsends key hkey quote).1
      rw [hmsg2] at hreaches
      exact Out.ok.inj hreaches

end Quote

-- The function returns success only when every call that it made worked.
def Reported {P : Prims} {σ α : Type} (p : TeeM P σ α) (env : Env P) (s : σ) : Prop :=
  ∀ value, (p env s).out = .ok value → Prog.Logs p env s Event.Works

section Reported

variable {P : Prims} (env : Env P)

-- What lets `handle_msg0` get to its end.
def Verifier.HandleMsg0Accepts (env : Env P) (buffer : P.Buf) : Prop :=
  Verifier.HandleMsg0Works env ∧ P.sizeofMsg0 ≤ P.bufSize buffer ∧
    ∃ shared, Verifier.agreed env env.ecdhKey (P.getMsg0 buffer) = some shared

theorem Verifier.reported_handleMsg0_iff (buffer : P.Buf) (s : Verifier.Ctx P) :
    Reported (Verifier.handleMsg0 buffer) env s ↔
      (HandleMsg0Accepts env buffer → HandleMsg0DumpsWork env) := by
  have hwhen := reportsWhen_handleMsg0 buffer env s
  constructor
  · intro h haccepts
    have hok := (Verifier.handleMsg0_ok env s buffer).mpr haccepts
    exact (hwhen () hok).mp (h () hok)
  · intro h value hok
    exact (hwhen value hok).mpr (h ((Verifier.handleMsg0_ok env s buffer).mp hok))

-- What lets `ra_net_handshake` get to its end.
def Attester.HandshakeAccepts (env : Env P) (pin : Attester.Pin P) (anchorSize : Nat) : Prop :=
  Attester.StartWorks env ∧ anchorSize = RA_ANCHOR_SIZE ∧ Attester.FinishWorks env ∧
    ∃ msg1 key shared,
      Attester.Accepts env pin msg1 key shared (Attester.started env.ecdhKey)

theorem Attester.reported_raNetHandshake_iff (pin : Attester.Pin P) (anchorSize : Nat)
    (s : Attester.RaContext P) :
    Reported (Attester.raNetHandshake pin anchorSize) env s ↔
      (HandshakeAccepts env pin anchorSize → HandshakeDumpsWork env) := by
  have hwhen := reportsWhen_raNetHandshake pin anchorSize env s
  constructor
  · rintro h ⟨hstart, rfl, hfinish, msg1, key, shared, haccepts⟩
    have hfinishes : (raNetHandshake pin RA_ANCHOR_SIZE env s).out =
        (raNetHandshakeFinish pin RA_ANCHOR_SIZE env (started env.ecdhKey)).out :=
      (raNetHandshakeStart_reaches env s hstart).bind_out
    have hok := hfinishes.trans (raNetHandshakeFinish_reaches env _ hfinish haccepts).1
    exact (hwhen _ hok).mp (h _ hok)
  · intro h value hok
    refine (hwhen value hok).mpr (h ?_)
    obtain ⟨msg0, hfirst, hsecond⟩ := (Prog.out_bind_ok _ _ _ _ _).mp hok
    have hstart := raNetHandshakeStart_ok env s hfirst
    rw [(raNetHandshakeStart_reaches env s hstart).2] at hsecond
    exact ⟨hstart, raNetHandshakeFinish_ok env _ hsecond⟩

end Reported

-- Two failures are not reported. `prepare_msg2` drops its result, and `ra_net_send_quote` sends
-- what it left. A dump of a key only prints that it got no block or could not read the key.
theorem failures_reported_iff {P : Prims} (env : Env P) :
    (∀ s pin anchorSize, Reported (Attester.raNetHandshake pin anchorSize) env s ↔
        (Attester.HandshakeAccepts env pin anchorSize → Attester.HandshakeDumpsWork env)) ∧
      (∀ s dataSize, Reported (Attester.raNetReceiveData dataSize) env s) ∧
      (∀ s buffer, Reported (Verifier.handleMsg0 buffer) env s ↔
        (Verifier.HandleMsg0Accepts env buffer → Verifier.HandleMsg0DumpsWork env)) ∧
      (∀ s buffer, Reported (Verifier.prepareMsg1 buffer) env s) ∧
      (∀ s buffer, Reported (Verifier.handleMsg2 buffer) env s) ∧
      (∀ s buffer data, Reported (Verifier.prepareMsg3 buffer data) env s) ∧
      (∀ faults cuts dataSize fuel r results,
        Attester.Receiving.outcome faults cuts dataSize fuel r = some (none, results) →
          ∀ result ∈ results, result = none) ∧
      ∀ s quote, Attester.TagSent quote env s ↔
        env.faults .sendMsg2 0 ≠ none ∨ env.Works .prepareMsg2 2 ∧
          ((∀ key, s.sharedMacKey ≠ .key key) ∨ env.faults .prepareMsg2 2 = none) := by
  refine ⟨?_, ?_, ?_, ?_, ?_, ?_, ?_, ?_⟩
  · intro s pin anchorSize
    exact Attester.reported_raNetHandshake_iff env pin anchorSize s
  · intro s dataSize
    exact Attester.reports_raNetReceiveData dataSize env s
  · intro s buffer
    exact Verifier.reported_handleMsg0_iff env buffer s
  · intro s buffer
    exact Verifier.reports_prepareMsg1 buffer env s
  · intro s buffer
    exact Verifier.reports_handleMsg2 buffer env s
  · intro s buffer data
    exact Verifier.reports_prepareMsg3 buffer data env s
  · intro faults cuts dataSize fuel r results h
    exact Attester.outcome_works h
  · intro s quote
    exact Attester.tagSent_iff quote env s

section Example

open Attester Idealised Base.Symbolic

-- The last call of `prepare_msg2` runs out of memory.
def tagless : Env prims :=
  { calm (.honest attesterRole 0) (.honest attesterRole 0) with
    faults := fun fn index => if fn = .prepareMsg2 ∧ index = 2 then some .outOfMemory else none }

-- An attester after its handshake, with an agreed key.
def agreed : RaContext prims :=
  { RaContext.fresh prims with sharedMacKey := .key (.const [1]) }

theorem quote_sent_untagged :
    .call .prepareMsg2 2 (some .outOfMemory) ∈
        (raNetSendQuote prims.zeroQuote tagless agreed).log ∧
      (raNetSendQuote prims.zeroQuote tagless agreed).out =
        .ok (untaggedMsg2 prims.zeroQuote agreed) ∧
      (untaggedMsg2 prims.zeroQuote agreed).mac = blank ∧
      ¬TagSent prims.zeroQuote tagless agreed := by
  have hcall : Event.call .prepareMsg2 2 (some .outOfMemory) ∈
      (raNetSendQuote prims.zeroQuote tagless agreed).log := by decide
  have hsent : (raNetSendQuote prims.zeroQuote tagless agreed).out =
      .ok (untaggedMsg2 prims.zeroQuote agreed) := rfl
  refine ⟨hcall, hsent, rfl, fun h => ?_⟩
  have hworks := (h _ hsent).1 _ hcall
  cases hworks

-- With dumps, the key derivation key that `handle_msg0` has just made cannot be read.
def unreadKey : Env prims :=
  { calm (.honest verifierRole 0) (.honest verifierRole 0) with
    faults := fun fn index => if fn = .deriveSharedKey ∧ index = 12 then some .generic else none
    debug := true }

def someMsg0 : prims.Buf := (⟨[], 80⟩ : Buf)

example : (Verifier.handleMsg0 someMsg0 unreadKey (Verifier.Ctx.zero prims)).out = .ok () ∧
    .call .deriveSharedKey 12 (some .generic) ∈
      (Verifier.handleMsg0 someMsg0 unreadKey (Verifier.Ctx.zero prims)).log :=
  ⟨rfl, by decide⟩

end Example

end Watz
