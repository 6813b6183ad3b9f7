import ProgrammaticSigner.Cli.Decode

set_option autoImplicit false

/- What `transaction submit` reads off an authorization message: its single `Execute`
instruction, and from that the role of each signer. -/
namespace ProgrammaticSigner

open Outcome

variable {P : Platform}

/-- The accounts of an authorization message's single `Execute` instruction. -/
structure ExecuteAccounts (P : Platform) where
  nonceAuthority : P.Address
  nonceAccount : P.Address
  expectedNonce : P.Hash
  executionMessage : P.Message

namespace ExecuteAccounts

def tryNew (K : Toolkit P) (message : P.Message) : Except Failure (ExecuteAccounts P) :=
  match message.instructions with
  | [instruction] => do
      ensure (message.accountKeys[instruction.programIdIndex.toNat]? = some P.executorProgram)
        ["expected an Executor Execute instruction"]
      let decoded ← context "invalid Execute instruction"
        ((ExecutorInstruction.tryFromBytes instruction.data).mapError
          fun reason => [K.describeProgram reason])
      let executionMessage ← Decode.validateExecutionMessage decoded.message
      -- Every index is within the keys, as the message was sanitized.
      match instruction.accounts.map message.keyAt with
      | nonceAuthority :: nonceAccount :: _nonceProgram :: _ =>
          return ⟨nonceAuthority, nonceAccount, executionMessage.lifetimeSpecifier,
            executionMessage⟩
      | _ => .error ["expected the nonce authority, nonce account, and SPL Nonce program in " ++
          "Execute accounts"]
  | _ => .error ["expected an Executor Execute instruction"]

variable (execute : ExecuteAccounts P)

/-- Whether the executor uses the address as the nonce authority or a message signer. -/
def isExecutorSigner (address : P.Address) : Bool :=
  address == execute.nonceAuthority ||
    (execute.executionMessage.accountKeys.idxOf? address).any
      (P.isSigner execute.executionMessage)

/-- The executor uses the signer's derived PDA as a signer, which `Submit` promotes. -/
def isPdaAuthority (signer : P.Address) : Bool :=
  execute.isExecutorSigner (deriveAddress P.signerProgram signer)

/-- A signer that `Submit` only checks to have approved. -/
def isRequiredRelaySigner (signer : P.Address) : Bool :=
  !execute.isPdaAuthority signer && !execute.isExecutorSigner signer

theorem isExecutorSigner_iff (messages : P.MessageLaws)
    (formed : execute.executionMessage.WellFormed) (address : P.Address) :
    execute.isExecutorSigner address = true ↔
      UsesSigner execute.executionMessage execute.nonceAuthority address := by
  have position : (execute.executionMessage.accountKeys.idxOf? address).any
      (P.isSigner execute.executionMessage) = true ↔
        address ∈ execute.executionMessage.signerKeys := by
    rw [Option.any_eq_true]
    simp only [idxOf?_eq_some_of_nodup formed.distinct, messages.isSigner, decide_eq_true_eq]
    constructor
    · rintro ⟨index, found, below⟩
      obtain ⟨inside, same⟩ := List.getElem?_eq_some_iff.mp found
      rw [← same]
      exact (formed.getElem_mem_signerKeys inside).mpr below
    · intro member
      obtain ⟨index, below, same⟩ := List.mem_take_iff_getElem.mp member
      exact ⟨index, List.getElem?_eq_some_iff.mpr ⟨by omega, same⟩, by omega⟩
  rw [isExecutorSigner, Bool.or_eq_true, position, beq_iff_eq]
  rfl

theorem isRequiredRelaySigner_iff (signer : P.Address) :
    execute.isRequiredRelaySigner signer = true ↔
      ¬ execute.isPdaAuthority signer = true ∧ ¬ execute.isExecutorSigner signer = true := by
  rw [isRequiredRelaySigner, Bool.and_eq_true, Bool.not_eq_true', Bool.not_eq_true',
    Bool.not_eq_true, Bool.not_eq_true]

/-- The execution message is the one in the single instruction's data. -/
theorem tryNew_decoded {K : Toolkit P} {message : P.Message} {execute : ExecuteAccounts P}
    (taken : tryNew K message = .ok execute) :
    ∃ ix, message.instructions = [ix] ∧
      ExecutorInstruction.tryFromBytes ix.data = .ok (.execute (.v1 execute.executionMessage)) ∧
      execute.executionMessage.config = default := by
  unfold tryNew at taken
  split at taken
  · rename_i ix single
    simp only [bind_ok_iff, ensure_ok_iff, context_ok_iff, mapError_ok_iff] at taken
    obtain ⟨_, _, ⟨embedded⟩, decoded, executionMessage, checked, shape⟩ := taken
    split at shape
    · obtain rfl := pure_ok_iff.mp shape
      obtain ⟨same, config⟩ := Decode.validateExecutionMessage_ok_iff.mp checked
      have same : embedded = .v1 executionMessage := same
      exact ⟨ix, single, same ▸ decoded, config⟩
    · cases shape
  · cases taken

theorem tryNew_of_decoded (K : Toolkit P) {message executionMessage : P.Message}
    {ix : CompiledInstruction} {nonceAuthority nonceAccount nonceProgram : P.Address}
    {rest : List P.Address} (single : message.instructions = [ix])
    (called : message.accountKeys[ix.programIdIndex.toNat]? = some P.executorProgram)
    (decoded : ExecutorInstruction.tryFromBytes ix.data = .ok (.execute (.v1 executionMessage)))
    (config : executionMessage.config = default)
    (keys : ix.accounts.map message.keyAt =
      nonceAuthority :: nonceAccount :: nonceProgram :: rest) :
    tryNew K message = .ok ⟨nonceAuthority, nonceAccount, executionMessage.lifetimeSpecifier,
      executionMessage⟩ := by
  have checked : Decode.validateExecutionMessage (.v1 executionMessage) = .ok executionMessage :=
    Decode.validateExecutionMessage_ok_iff.mpr ⟨rfl, config⟩
  simp only [tryNew, single, called, ensure, if_true, decoded, Except.mapError, context, keys,
    ExecutorInstruction.message]
  exact bind_of_ok checked

/-- Off a message that authorizes an execution, the execution reads back. -/
theorem tryNew_ok (K : Toolkit P) (messages : P.MessageLaws)
    {nonceAccount nonceAuthority : P.Address} {executionMessage message : P.Message}
    {signers : List P.Address} (valid : P.validate executionMessage = .ok ())
    (config : executionMessage.config = default)
    (authorizes : Authorizes
      (ExecutorClient.execute nonceAccount nonceAuthority executionMessage) signers message) :
    tryNew K message = .ok ⟨nonceAuthority, nonceAccount, executionMessage.lifetimeSpecifier,
      executionMessage⟩ := by
  obtain ⟨ix, single, program, keys, data⟩ := authorizes.single
  have formed := messages.wellFormed message authorizes.valid
  have called : message.accountKeys[ix.programIdIndex.toNat]? = some P.executorProgram := by
    rw [Message.keyAt_eq (formed.programs ix (single ▸ List.mem_cons_self)), program]
    rfl
  have decoded : ExecutorInstruction.tryFromBytes ix.data =
      .ok (.execute (.v1 executionMessage)) :=
    ExecutorInstruction.tryFromBytes_ok_iff.mpr ⟨messages.serializes _ valid, data⟩
  rw [ExecutorClient.execute_addresses] at keys
  exact tryNew_of_decoded K single called decoded config keys

end ExecuteAccounts

end ProgrammaticSigner
