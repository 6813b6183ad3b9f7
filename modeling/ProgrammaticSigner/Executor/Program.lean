import ProgrammaticSigner.Executor.Instruction
import ProgrammaticSigner.Nonce.Client

set_option autoImplicit false

/- The executor program: check an execution message against the nonce and the
accounts, advance the nonce, and invoke the message's instructions. -/
namespace ProgrammaticSigner

open Outcome

variable {P : Platform}

def validateExecutionMessage (executionMessage : P.VersionedMessage) :
    Except ProgramError P.Message :=
  match executionMessage with
  | .v1 message => do
      (P.sanitize (.v1 message)).mapError fun _ => ExecutorError.invalidMessage.toProgramError
      ensure (message.config = default)
        ExecutorError.unsupportedTransactionConfig.toProgramError
      return message
  | _ => .error ExecutorError.unsupportedMessageVersion.toProgramError

/-- The supplied accounts mirror the message's keys one to one. -/
def validateMessageAccounts (messageAccounts : List P.AccountView)
    (executionMessage : P.Message) : Except ProgramError Unit := do
  ensure (messageAccounts.length = executionMessage.accountKeys.length)
    ExecutorError.messageAccountsMismatch.toProgramError
  forM (messageAccounts.zip executionMessage.accountKeys) fun pair =>
    ensure (pair.1.address = pair.2) ExecutorError.messageAccountsMismatch.toProgramError

/-- One account of a CPI, with exactly the privileges the message requests. -/
def resolveAccount (messageAccounts : List P.AccountView) (executionMessage : P.Message)
    (index : UInt8) : Except ProgramError P.AccountMeta := do
  let messageAccount ← okOr messageAccounts[index.toNat]?
    ExecutorError.invalidMessage.toProgramError
  return ⟨messageAccount.address, P.isSigner executionMessage index.toNat,
    P.isMaybeWritable executionMessage index.toNat⟩

/-- The accounts of one CPI, pushed in turn onto the buffer the loop reuses. -/
def pushAccounts (messageAccounts : List P.AccountView) (executionMessage : P.Message) :
    List P.AccountMeta → List UInt8 → Except ProgramError (List P.AccountMeta)
  | instructionAccounts, [] => .ok instructionAccounts
  | instructionAccounts, index :: rest => do
      let account ← resolveAccount messageAccounts executionMessage index
      pushAccounts messageAccounts executionMessage (instructionAccounts ++ [account]) rest

/-- The loop over the message's instructions. Each starts by clearing the buffer the
one before it filled. The invocation itself refuses more than 128 accounts, which is one of the
answers that a call may get. -/
def invokeInstructionsLoop (messageAccounts : List P.AccountView) (executionMessage : P.Message) :
    List P.AccountMeta → List CompiledInstruction → P.Issues Unit
  | _, [] => pure ()
  | _, ix :: rest => do
      let cleared : List P.AccountMeta := []
      let programAccount ← Issued.lift (okOr messageAccounts[ix.programIdIndex.toNat]?
        ExecutorError.invalidMessage.toProgramError)
      let instructionAccounts ← Issued.lift
        (pushAccounts messageAccounts executionMessage cleared ix.accounts)
      Issued.call ⟨⟨programAccount.address, instructionAccounts, ix.data⟩, []⟩
      invokeInstructionsLoop messageAccounts executionMessage instructionAccounts rest

def invokeInstructions (messageAccounts : List P.AccountView) (executionMessage : P.Message) :
    P.Issues Unit :=
  invokeInstructionsLoop messageAccounts executionMessage [] executionMessage.instructions

/-- The nonce's guard is dropped before the first CPI, so nothing stays borrowed. -/
def processExecute (ledger : P.Ledger) (accounts : List P.AccountView)
    (executionMessage : P.VersionedMessage) : P.Issues Unit :=
  match accounts with
  | nonceAuthorityAccount :: nonceAccount :: nonceProgram :: messageAccounts => do
      Issued.lift (ensure (nonceProgram.address = P.nonceProgram) .incorrectProgramId)
      Issued.lift (ensure ((ledger nonceAccount.address).owner = P.nonceProgram) .illegalOwner)
      let state ← Issued.lift ((Nonce.view (ledger nonceAccount.address).data).mapError
        fun _ => ExecutorError.invalidNonceAccount.toProgramError)
      let message ← Issued.lift (validateExecutionMessage executionMessage)
      Issued.lift (ensure (message.lifetimeSpecifier = state.nonce)
        ExecutorError.nonceMismatch.toProgramError)
      Issued.lift (validateMessageAccounts messageAccounts message)
      -- The nonce is consumed before anything the message asks for runs.
      NonceCpi.advance nonceAuthorityAccount nonceAccount state.nonce
        (deriveTransitionCommitment executionMessage)
      invokeInstructions messageAccounts message
  | _ => Issued.fail .notEnoughAccountKeys

/-- The executor program's entrypoint. -/
def processExecutorInstruction (ledger : P.Ledger) (accounts : List P.AccountView)
    (instructionData : List UInt8) : P.Issues Unit := do
  match ← Issued.lift (ExecutorInstruction.tryFromBytes instructionData) with
  | .execute message => processExecute ledger accounts message

namespace ExecutorClient

/-- Create an `Execute` instruction for a v1 message: the accounts that consume the
nonce, then the message's own. -/
def execute (nonceAccount nonceAuthority : P.Address) (message : P.Message) : P.Instruction where
  programId := P.executorProgram
  accounts := .newReadonly nonceAuthority true :: .new nonceAccount false ::
    .newReadonly P.nonceProgram false ::
      message.accountKeys.mapIdx fun index address =>
        ⟨address, P.isSigner message index, P.isMaybeWritable message index⟩
  data := ExecutorInstruction.serialize (.execute (.v1 message))

end ExecutorClient

end ProgrammaticSigner
