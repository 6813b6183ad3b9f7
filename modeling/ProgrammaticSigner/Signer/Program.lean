import ProgrammaticSigner.Executor.Instruction
import ProgrammaticSigner.Signer.Instruction

set_option autoImplicit false

/- The signer program: verify the authorities of a message, then invoke its single
executor instruction while signing for the PDAs they authorized. -/
namespace ProgrammaticSigner

open Outcome

variable {P : Platform}

namespace ExecutorPolicy

def executeDiscriminator : UInt8 := 0

/-- Executor entrypoints allowed to receive promoted signers. -/
def allowedExecutorInstructions (P : Platform) : List (P.Address × UInt8) :=
  [(P.executorProgram, executeDiscriminator)]

def validate (programId : P.Address) (instructionData : List UInt8) : Except SignerError Unit := do
  let discriminator ← okOr instructionData.head? .disallowedExecutorInstruction
  ensure ((programId, discriminator) ∈ allowedExecutorInstructions P)
    .disallowedExecutorInstruction

end ExecutorPolicy

/-- A verified authority whose PDA the executor instruction references. -/
structure AuthorizedSigner (P : Platform) where
  authority : P.Address
  programmaticSignerIndex : Nat
  bumpSeed : UInt8

/-- An executor account, resolved to its relay account and its message index. -/
structure ExecutorAccount (P : Platform) where
  account : P.AccountView
  index : Nat

/-- The executor instruction resolved against relay accounts that mirror the keys of
the authorization message. -/
structure CheckedExecutorInstruction (P : Platform) where
  programId : P.Address
  accounts : List (ExecutorAccount P)
  data : List UInt8

namespace CheckedExecutorInstruction

/-- The relayer must supply the message's keys in signed order. -/
def checkRelayAccounts (relayAccounts : List P.AccountView) (message : P.Message) :
    Except ProgramError Unit := do
  ensure (¬ relayAccounts.length < message.accountKeys.length) .notEnoughAccountKeys
  ensure (¬ message.accountKeys.length < relayAccounts.length)
    SignerError.accountKeyMismatch.toProgramError
  forM (relayAccounts.zip message.accountKeys) fun pair =>
    ensure (pair.1.address = pair.2) SignerError.accountKeyMismatch.toProgramError

def tryNew (relayAccounts : List P.AccountView) (message : P.Message)
    (executorInstruction : CompiledInstruction) :
    Except ProgramError (CheckedExecutorInstruction P) := do
  checkRelayAccounts relayAccounts message
  let programId ← okOr message.accountKeys[executorInstruction.programIdIndex.toNat]? .panicked
  (ExecutorPolicy.validate programId executorInstruction.data).mapError
    SignerError.toProgramError
  let accounts ← executorInstruction.accounts.mapM fun accountIndex => do
    let account ← okOr relayAccounts[accountIndex.toNat]? .panicked
    return (⟨account, accountIndex.toNat⟩ : ExecutorAccount P)
  return ⟨programId, accounts, executorInstruction.data⟩

end CheckedExecutorInstruction

/-- One required signer after another: a signature must verify, a missing one needs
the relay account's own signature and proves nothing about the PDA. -/
def verifyAuthoritySignaturesLoop (messageBytes : List UInt8) :
    List P.Address → List (Option P.Signature) → List P.AccountView →
      Except ProgramError (List P.Address)
  | signer :: signers, signature :: signatures, relayAccount :: relayAccounts =>
      match signature with
      | none => do
          ensure relayAccount.isSigner SignerError.missingSignature.toProgramError
          verifyAuthoritySignaturesLoop messageBytes signers signatures relayAccounts
      | some signature => do
          ensure (P.verifyStrict signer signature messageBytes)
            SignerError.invalidSignature.toProgramError
          let verified ← verifyAuthoritySignaturesLoop messageBytes signers signatures relayAccounts
          return signer :: verified
  | _, _, _ => .ok []

/-- Check each required signer's approval, and return those with a verified signature. -/
def verifyAuthoritySignatures (relayAccounts : List P.AccountView)
    (signatures : List (Option P.Signature)) (message : P.Message) :
    Except ProgramError (List P.Address) := do
  let requiredSignatures := message.header.numRequiredSignatures.toNat
  ensure (signatures.length = requiredSignatures)
    SignerError.invalidSignatureCount.toProgramError
  let signers ← okOr (if requiredSignatures ≤ message.accountKeys.length
    then some message.signerKeys else none) .panicked
  verifyAuthoritySignaturesLoop (Platform.serializeV1 message) signers signatures relayAccounts

/-- The PDAs of the authorities, wherever the executor's account list has them. -/
def collectAuthorizedSigners (programId : P.Address)
    (executorInstruction : CheckedExecutorInstruction P) (authorities : List P.Address) :
    List (AuthorizedSigner P) :=
  authorities.flatMap fun authority =>
    let (programmaticSigner, bump) := deriveAddressAndBump programId authority
    executorInstruction.accounts.filterMap fun executorAccount =>
      if executorAccount.account.address = programmaticSigner then
        some ⟨authority, executorAccount.index, bump⟩
      else none

/-- Relay privileges pass on only where the message's header allows them. As in the executor, a
call with more than 128 accounts is answered with an error. -/
def invokeExecutorInstruction (message : P.Message)
    (executorInstruction : CheckedExecutorInstruction P)
    (authorizedSigners : List (AuthorizedSigner P)) : P.Issues Unit :=
  let cpiSigners := authorizedSigners.map fun signer =>
    [seedPrefix, P.addressWire.encode signer.authority, [signer.bumpSeed]]
  let instructionAccounts := executorInstruction.accounts.map fun executorAccount =>
    let isPromoted := authorizedSigners.any fun signer =>
      signer.programmaticSignerIndex == executorAccount.index
    let isForwardedRelaySigner :=
      P.isSigner message executorAccount.index && executorAccount.account.isSigner
    let isWritable := P.isMaybeWritable message executorAccount.index
    (⟨executorAccount.account.address, isPromoted || isForwardedRelaySigner, isWritable⟩ :
      P.AccountMeta)
  Issued.call ⟨⟨executorInstruction.programId, instructionAccounts, executorInstruction.data⟩,
    cpiSigners⟩

def processSubmit (programId : P.Address) (accounts : List P.AccountView)
    (signatures : List (Option P.Signature)) (message : P.VersionedMessage) : P.Issues Unit :=
  match message with
  | .v1 message => do
      Issued.lift ((P.validate message).mapError
        fun _ => SignerError.invalidMessage.toProgramError)
      Issued.lift (ensure (message.config = default)
        SignerError.unsupportedTransactionConfig.toProgramError)
      match message.instructions with
      | [executorInstruction] => do
          let executorInstruction ← Issued.lift
            (CheckedExecutorInstruction.tryNew accounts message executorInstruction)
          let authorities ← Issued.lift (verifyAuthoritySignatures accounts signatures message)
          let authorizedSigners :=
            collectAuthorizedSigners programId executorInstruction authorities
          invokeExecutorInstruction message executorInstruction authorizedSigners
      | _ => Issued.fail SignerError.invalidExecutorInstructionCount.toProgramError
  | _ => Issued.fail SignerError.unsupportedMessageVersion.toProgramError

/-- The signer program's entrypoint. -/
def processSignerInstruction (programId : P.Address) (accounts : List P.AccountView)
    (instructionData : List UInt8) : P.Issues Unit := do
  match ← Issued.lift (SignerInstruction.tryFromBytes instructionData) with
  | .submit signatures message => processSubmit programId accounts signatures message

end ProgrammaticSigner
