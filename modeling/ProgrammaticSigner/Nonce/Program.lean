import ProgrammaticSigner.Nonce.Instruction
import ProgrammaticSigner.Solana.Memory

set_option autoImplicit false

/- The nonce program's instructions, check by check in the order of the code. -/
namespace ProgrammaticSigner

open Outcome ProgramM

variable {P : Platform}

/-- `u64::checked_sub` -/
def checkedSub (left right : UInt64) : Option UInt64 :=
  if right ≤ left then some (left - right) else none

/-- `u64::checked_add` -/
def checkedAdd (left right : UInt64) : Option UInt64 :=
  if left.toNat + right.toNat < 2 ^ 64 then some (left + right) else none

/-- The most recent entry of the `SlotHashes` sysvar account. -/
def recentSlotHash (sysvars : P.Sysvars) (slotHashesAccount : P.AccountView) :
    Except ProgramError P.Hash := do
  ensure (slotHashesAccount.address = P.slotHashes) .invalidArgument
  let entry ← okOr sysvars.slotHashes.head? .invalidArgument
  return entry.hash

/-- Turn a caller-created, program-owned account into a nonce bound to the authority. -/
def processInitialize (sysvars : P.Sysvars) (programId : P.Address)
    (accounts : List P.AccountView) : ProgramM P Unit :=
  match accounts with
  | nonceAccount :: authority :: slotHashesAccount :: _ => do
      check (ensure (← nonceAccount.ownedBy programId) .illegalOwner)
      let data ← nonceAccount.tryBorrowMut
      let state ← check
        ((Nonce.viewMaybeUninitializedMut data).mapError fun _ => .invalidAccountData)
      check (ensure (¬ state.isInitialized) .accountAlreadyInitialized)
      let rentRequired ← check (P.minimumBalance Nonce.len)
      check (ensure (rentRequired ≤ (← nonceAccount.lamports)) .accountNotRentExempt)
      let slotHash ← check (recentSlotHash sysvars slotHashesAccount)
      let initialNonce := Nonce.deriveInitialNonce programId nonceAccount.address slotHash
      nonceAccount.setData (.sized ⟨initialNonce, authority.address, sysvars.slot⟩)
      nonceAccount.release
  | _ => throw .notEnoughAccountKeys

/-- Consume the stored nonce and advance it to a fresh value. -/
def processAdvance (programId : P.Address) (accounts : List P.AccountView)
    (currentNonce transitionCommitment : P.Hash) : ProgramM P Unit :=
  match accounts with
  | authority :: nonceAccount :: _ => do
      check (ensure (← nonceAccount.ownedBy programId) .illegalOwner)
      let data ← nonceAccount.tryBorrowMut
      let state ← check
        ((Nonce.viewMut data).mapError fun _ => NonceError.invalidNonceAccount.toProgramError)
      check (ensure (authority.address = state.authority)
        NonceError.authorityMismatch.toProgramError)
      check (ensure authority.isSigner .missingRequiredSignature)
      check (ensure (currentNonce = state.nonce) NonceError.nonceMismatch.toProgramError)
      let next := state.deriveNextNonce programId nonceAccount.address transitionCommitment
      nonceAccount.setData (.sized { state with nonce := next })
      nonceAccount.release
  | _ => throw .notEnoughAccountKeys

/-- The initialization slot, or `none` for an account that is not an initialized
nonce, whose own key then stands for the authority. -/
def withdrawAuthority (authority nonceAccount : P.AccountView) (data : P.AccountData) :
    Except ProgramError (Option UInt64) :=
  match Nonce.view data with
  | .ok state => do
      ensure (authority.address = state.authority) NonceError.authorityMismatch.toProgramError
      return some state.initializeSlot
  | .error _ => do
      ensure (authority.address = nonceAccount.address)
        NonceError.invalidNonceAccount.toProgramError
      return none

/-- An initialized nonce may not close in the slot it was initialized in; what is
left behind by any other withdrawal must be rent exempt. -/
def checkRemaining (sysvars : P.Sysvars) (initializeSlot : Option UInt64) (remaining : UInt64)
    (data : P.AccountData) : Except ProgramError Unit :=
  if remaining = 0 then
    match initializeSlot with
    | some initializeSlot =>
        ensure (initializeSlot < sysvars.slot) NonceError.closeSameSlot.toProgramError
    | none => .ok ()
  else do
    let rentRequired ← P.minimumBalance data.len
    ensure (rentRequired ≤ remaining) .accountNotRentExempt

/-- Withdraw lamports, closing the account when its full balance is withdrawn. -/
def processWithdraw (sysvars : P.Sysvars) (programId : P.Address)
    (accounts : List P.AccountView) (lamports : UInt64) : ProgramM P Unit :=
  match accounts with
  | authority :: nonceAccount :: destination :: _ => do
      check (ensure (← nonceAccount.ownedBy programId) .illegalOwner)
      check (ensure (destination.address ≠ nonceAccount.address) .invalidArgument)
      let data ← nonceAccount.tryBorrow
      let initializeSlot ← check (withdrawAuthority authority nonceAccount data)
      check (ensure authority.isSigner .missingRequiredSignature)
      let remaining ← check (okOr (checkedSub (← nonceAccount.lamports) lamports)
        .insufficientFunds)
      check (checkRemaining sysvars initializeSlot remaining data)
      nonceAccount.release
      let newDestinationBalance ← check (okOr (checkedAdd (← destination.lamports) lamports)
        .arithmeticOverflow)
      destination.setLamports newDestinationBalance
      if remaining = 0 then nonceAccount.close else nonceAccount.setLamports remaining
  | _ => throw .notEnoughAccountKeys

/-- The nonce program's entrypoint. -/
def processNonceInstruction (sysvars : P.Sysvars) (programId : P.Address)
    (accounts : List P.AccountView) (instructionData : List UInt8) : ProgramM P Unit := do
  match ← check (NonceInstruction.tryFromBytes instructionData) with
  | .initializeNonce => processInitialize sysvars programId accounts
  | .advance currentNonce transitionCommitment =>
      processAdvance programId accounts currentNonce transitionCommitment
  | .withdraw lamports => processWithdraw sysvars programId accounts lamports

/-- The runtime's part of a nonce instruction: fresh borrows, and no change to an
account the instruction may not write. -/
def invokeNonce (sysvars : P.Sysvars) (ledger : P.Ledger) (instruction : P.Instruction) :
    Except ProgramError P.Ledger :=
  match processNonceInstruction sysvars instruction.programId instruction.views instruction.data
      (.start ledger) with
  | .ok _ memory => do
      ensure (∀ view ∈ instruction.views,
        view.isWritable = true ∨ memory.accounts view.address = ledger view.address)
        .readonlyAccountModified
      return memory.accounts
  | .error reason _ => .error reason

end ProgrammaticSigner
