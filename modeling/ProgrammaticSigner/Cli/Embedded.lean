import ProgrammaticSigner.Cli.ExecuteAccounts
import ProgrammaticSigner.Cli.Reference

set_option autoImplicit false

/- The execution message inside an authorization message, as `transaction submit` takes it
and as the executor program will. -/
namespace ProgrammaticSigner

open Outcome

variable {P : Platform}

/-- What `transaction submit` takes from an authorization message is an execution message that
the executor accepts exactly where the message in the instruction's data is sane. -/
theorem embedded_executable_iff (K : Toolkit P) (message : P.Message)
    (execute : ExecuteAccounts P)
    (taken : ExecuteAccounts.tryNew K message = .ok execute) :
    ∃ ix embedded, message.instructions = [ix] ∧
      ExecutorInstruction.tryFromBytes ix.data = .ok (.execute embedded) ∧
      (validateExecutionMessage embedded = .ok execute.executionMessage ↔
        P.sanitize embedded = .ok ()) := by
  obtain ⟨ix, single, decoded, config⟩ := ExecuteAccounts.tryNew_decoded taken
  refine ⟨ix, _, single, decoded, ?_⟩
  rw [validateExecutionMessage_ok_iff]
  constructor
  · intro accepted
    exact accepted.2.1
  · intro sane
    exact ⟨rfl, sane, config⟩

namespace Reference

/-- The reference execution is sane, and so the executor accepts it. -/
theorem execution_executable :
    ∃ ix embedded, authorization.instructions = [ix] ∧
      ExecutorInstruction.tryFromBytes ix.data = .ok (.execute embedded) ∧
      (validateExecutionMessage embedded = .ok message ↔
        Platform.reference.sanitize embedded = .ok ()) := by
  have taken : ExecuteAccounts.tryNew Toolkit.reference authorization =
      .ok ⟨nonceAuthority, nonceAccount, state.nonce, message⟩ :=
    @ExecuteAccounts.tryNew_of_decoded _ Toolkit.reference authorization message _ _ _ _ _ rfl rfl
      (ExecutorInstruction.tryFromBytes_ok_iff.mpr ⟨messageWire_total _, rfl⟩) rfl rfl
  exact embedded_executable_iff Toolkit.reference authorization _ taken

/-- An execution message that lists one program twice. -/
def repeated : Platform.reference.Message where
  header := ⟨1, 0, 2⟩
  config := default
  lifetimeSpecifier := state.nonce
  accountKeys := [nonceAuthority, 40, 40]
  instructions := [⟨1, [0], [7]⟩]

/-- A valid authorization message over its execution. -/
def unchecked : Platform.reference.Message :=
  { authorization with
    instructions := [⟨3, [2, 1, 4, 2, 5, 5],
      (ExecutorClient.execute nonceAccount nonceAuthority repeated).data⟩] }

theorem unchecked_read : Decode.readAuthorizationMessage Toolkit.reference
    (encodeText (Platform.serializeV1 unchecked)) = .ok unchecked := by
  apply Decode.readAuthorizationMessage_encode Toolkit.reference messageLaws textLaws
  · apply validate_ok
    exact ⟨by decide, by decide, by decide, by decide, by decide,
      by simp [unchecked, authorization], by simp [unchecked, authorization]⟩
  · rfl

theorem unchecked_taken : ExecuteAccounts.tryNew Toolkit.reference unchecked =
    .ok ⟨nonceAuthority, nonceAccount, state.nonce, repeated⟩ := by
  have decoded : ExecutorInstruction.tryFromBytes
      (ExecutorClient.execute nonceAccount nonceAuthority repeated).data =
        .ok (.execute (.v1 repeated)) :=
    ExecutorInstruction.tryFromBytes_ok_iff.mpr ⟨messageWire_total _, rfl⟩
  exact @ExecuteAccounts.tryNew_of_decoded _ Toolkit.reference unchecked repeated _ _ _ _ _ rfl rfl
    decoded rfl rfl

/-- `transaction submit` takes a message that the executor can only reject. -/
theorem unchecked_not_executable :
    Decode.readAuthorizationMessage Toolkit.reference
        (encodeText (Platform.serializeV1 unchecked)) = .ok unchecked ∧
      ExecuteAccounts.tryNew Toolkit.reference unchecked =
        .ok ⟨nonceAuthority, nonceAccount, state.nonce, repeated⟩ ∧
      validateExecutionMessage (.v1 repeated : Platform.reference.VersionedMessage) =
        .error ExecutorError.invalidMessage.toProgramError :=
  ⟨unchecked_read, unchecked_taken, rfl⟩

end Reference

end ProgrammaticSigner
