import Watz.Handles.Calls
import Watz.Handles.Session
import Watz.Idealised

namespace Watz

open Base Tee

-- When each helper releases what it allocated, and the runs that leave nothing behind. A helper
-- that panics, like a command or a call that does, ends the trusted application.
theorem handles_released_iff {P : Prims} :
    (∀ (env : Env P) (s : Verifier.Ctx P),
      ReleasesWhen .generateEcdsaKeypair Verifier.generateEcdsaKeypair env s
          (env.Works .generateEcdsaKeypair 4 → env.DumpReleases .generateEcdsaKeypair 4) ∧
        ReleasesWhen .generateEcdhKeypair Verifier.generateEcdhKeypair env s
          (env.Works .generateEcdhKeypair 4 → env.DumpReleases .generateEcdhKeypair 4) ∧
        ReleasesWhen .deriveSharedKey Verifier.deriveSharedKey env s
          (env.Works .deriveSharedKey 5 ∧ ¬env.Works .deriveSharedKey 7) ∧
        ReleasesWhen .deriveMacKey (Verifier.deriveSharedMacKey .deriveMacKey RA_SHARED_MAC_DATA
          .sharedMacKey Verifier.storeMacKey) env s
          (env.Works .deriveMacKey 4 ∧
            (env.Works .deriveMacKey 8 → env.DumpReleases .deriveMacKey 8)) ∧
        ReleasesWhen .deriveSessionKey (Verifier.deriveSharedMacKey .deriveSessionKey
          RA_SHARED_SESSION_DATA .sharedSessionKey Verifier.storeSessionKey) env s
          (env.Works .deriveSessionKey 4 ∧
            (env.Works .deriveSessionKey 8 → env.DumpReleases .deriveSessionKey 8)) ∧
        ReleasesWhen .appendEcdhPublicKeysSignature Verifier.appendEcdhPublicKeysSignature env s
          (env.Works .appendEcdhPublicKeysSignature 1 ∧
            ¬env.Works .appendEcdhPublicKeysSignature 3) ∧
        ReleasesWhen .appendMac Verifier.appendMac env s
          (env.Works .appendMac 1 → env.Works .appendMac 2) ∧
        ReleasesWhen .verifyMacMsg2 Verifier.verifyMacMsg2 env s (env.Works .verifyMacMsg2 1) ∧
        ReleasesWhen .verifyQuoteSignature Verifier.verifyQuoteSignature env s
          (env.Works .verifyQuoteSignature 1 ∧ ¬env.Works .verifyQuoteSignature 3) ∧
        ReleasesWhen .verifyAnchor Verifier.verifyAnchor env s
          (env.Works .verifyAnchor 1 ∧
            (env.Works .verifyAnchor 2 → Verifier.AnchorPassed env s)) ∧
        ∀ buffer data, ReleasesWhen .encryptMsg3 (Verifier.encryptMsg3 buffer data) env s
          (env.Works .encryptMsg3 1)) ∧
    (∀ (env : Env P) (s : Attester.RaContext P),
      ReleasesWhen .generateEcdhKeypair Attester.generateEcdhKeypair env s
          (env.Works .generateEcdhKeypair 4 → env.DumpReleases .generateEcdhKeypair 4) ∧
        ReleasesWhen .receiveMsg1 Attester.receiveMsg1 env s (Attester.KeyDumpReleases env) ∧
        ReleasesWhen .verifyEcdhPublicKeySignature Attester.verifyEcdhPublicKeySignature env s
          (env.Works .verifyEcdhPublicKeySignature 1 ∧
            ¬env.Works .verifyEcdhPublicKeySignature 3) ∧
        ReleasesWhen .deriveSharedKey Attester.deriveSharedKey env s
          (env.Works .deriveSharedKey 5 ∧ ¬env.Works .deriveSharedKey 7) ∧
        ReleasesWhen .deriveMacKey (Attester.deriveSharedMacKey .deriveMacKey
          WASI_RA_SHARED_MAC_DATA .sharedMacKey Attester.storeMacKey) env s
          (env.Works .deriveMacKey 4 ∧
            (env.Works .deriveMacKey 8 → env.DumpReleases .deriveMacKey 8)) ∧
        ReleasesWhen .deriveSessionKey (Attester.deriveSharedMacKey .deriveSessionKey
          WASI_RA_SHARED_SESSION_DATA .sharedSessionKey Attester.storeSessionKey) env s
          (env.Works .deriveSessionKey 4 ∧
            (env.Works .deriveSessionKey 8 → env.DumpReleases .deriveSessionKey 8)) ∧
        ReleasesWhen .verifyMsg1Mac Attester.verifyMsg1Mac env s
          (env.Works .verifyMsg1Mac 1 → env.Works .verifyMsg1Mac 2) ∧
        (∀ anchorSize, ReleasesWhen .generateAnchor (Attester.generateAnchor anchorSize) env s
          (anchorSize = RA_ANCHOR_SIZE → env.Works .generateAnchor 1)) ∧
        (∀ quote, ReleasesWhen .prepareMsg2 (Attester.prepareMsg2 quote) env s
          (env.Works .prepareMsg2 1)) ∧
        ∀ dataSize, ReleasesWhen .decryptMsg3 (Attester.decryptMsg3 dataSize) env s
          (env.Works .decryptMsg3 1)) ∧
    (∀ paramTypes (env closing : Env P) inputs s,
      (Verifier.openSessionEntryPoint paramTypes env (Verifier.Ctx.zero P)).out = .ok () →
      env.DumpReleases .generateEcdsaKeypair 4 →
      (∀ t ∈ Run.steps Verifier.track (Verifier.opened paramTypes env) inputs,
        t.after.1 ≠ .dead ∧ Verifier.OrderlyStep t.before t.input) →
      ((Run.final Verifier.track (Verifier.opened paramTypes env) inputs).2.replay
        (handling (Verifier.disposeRaContext closing s))).Clean) ∧
    ∀ (inputs : List (Attester.NetInput P)) (closing : Env P),
      (∀ t ∈ Run.steps Attester.track (Attester.unopened P) inputs,
        t.output ≠ .panic ∧
          Attester.Orderly t.before.2 t.input.env t.input.call) →
      ((Run.final Attester.track (Attester.unopened P) inputs).2.replay
        (handling (Attester.freeRaContext closing
          (Run.final Attester.track (Attester.unopened P) inputs).1))).Clean := by
  refine ⟨fun env s => ?_, fun env s => ?_, ?_, ?_⟩
  · exact ⟨Verifier.releases_generateEcdsaKeypair env s, Verifier.releases_generateEcdhKeypair env s,
      Derivation.releases_deriveSharedKey env s, Derivation.releases_deriveMacKey env s,
      Derivation.releases_deriveSessionKey env s,
      Verifier.releases_appendEcdhPublicKeysSignature env s, Verifier.releases_appendMac env s,
      Verifier.releases_verifyMacMsg2 env s, Verifier.releases_verifyQuoteSignature env s,
      Verifier.releases_verifyAnchor env s,
      fun buffer data => Verifier.releases_encryptMsg3 env buffer data s⟩
  · exact ⟨Attester.releases_generateEcdhKeypair env s, Attester.releases_receiveMsg1 env s,
      Attester.releases_verifyEcdhPublicKeySignature env s,
      Derivation.releases_deriveSharedKey env s, Derivation.releases_deriveMacKey env s,
      Derivation.releases_deriveSessionKey env s, Attester.releases_verifyMsg1Mac env s,
      fun anchorSize => Attester.releases_generateAnchor env anchorSize s,
      fun quote => Attester.releases_prepareMsg2 env quote s,
      fun dataSize => Attester.releases_decryptMsg3 env dataSize s⟩
  · exact fun _ _ closing _ s hopen hdump h => Verifier.session_clean hopen hdump h closing s
  · exact fun _ closing h => Attester.calls_clean h closing

section Sessions

open Idealised Base.Symbolic

def bystander : Env prims := calm (.honest verifierRole 0) (.honest verifierRole 0)

-- A secret, and then a key derivation that runs out of memory in its sixth call.
def interrupted : List (Verifier.Invocation prims) :=
  [⟨0, Verifier.Command.expParamTypes .bootstrapSecret, ⟨[.const [1]], 1⟩, bystander⟩,
    ⟨1, Verifier.Command.expParamTypes .handleMsg0,
      ⟨[.pubX (.honest attesterRole 0), .pubY (.honest attesterRole 0)], 80⟩,
      { bystander with faults := fun fn index =>
          if fn = .deriveSharedKey ∧ index = 5 then some .outOfMemory else none }⟩]

example : ∀ t ∈ Run.steps Verifier.track (Verifier.opened 0 bystander) interrupted,
    t.after.1 ≠ .dead ∧ Verifier.OrderlyStep t.before t.input := by
  intro t ht
  simp only [interrupted, Run.steps, List.mem_cons, List.not_mem_nil, or_false] at ht
  rcases ht with rfl | rfl
  · refine ⟨nofun, fun s command _ hcommand => ?_⟩
    obtain rfl : Verifier.Command.bootstrapSecret = command := Option.some.inj hcommand
    rfl
  · refine ⟨nofun, fun s command _ hcommand => ?_⟩
    obtain rfl : Verifier.Command.handleMsg0 = command := Option.some.inj hcommand
    refine ⟨fun _ => rfl, fun _ => ⟨fun _ _ => rfl, fun _ => ⟨fun _ => rfl, fun _ => ⟨?_, ?_⟩⟩⟩⟩
    · intro index hindex
      have hne : index ≠ 5 := by omega
      simp [Run.one, hne]
    · intro hworks
      have hsixth := hworks 5 (by decide)
      simp [Run.one] at hsixth

-- One `HANDLE_MSG_0` with a public key, in which every call works.
def keyExchange : List (Verifier.Invocation prims) :=
  [⟨1, Verifier.Command.expParamTypes .handleMsg0,
    ⟨[.pubX (.honest attesterRole 0), .pubY (.honest attesterRole 0)], 80⟩, bystander⟩]

-- The key derivation puts its second operation where the handle of the first one was.
theorem first_operation_lost :
    (Verifier.openSessionEntryPoint 0 bystander (Verifier.Ctx.zero prims)).out = .ok () ∧
      (∀ t ∈ Run.steps Verifier.track (Verifier.opened 0 bystander) keyExchange,
        t.output.result = none) ∧
      ¬((Run.final Verifier.track (Verifier.opened 0 bystander) keyExchange).2.replay
        (handling (Verifier.disposeRaContext bystander (Verifier.Ctx.zero prims)))).Clean := by
  refine ⟨rfl, by decide, fun hclean => ?_⟩
  have hlost := hclean.lost
  revert hlost
  decide

end Sessions

end Watz
