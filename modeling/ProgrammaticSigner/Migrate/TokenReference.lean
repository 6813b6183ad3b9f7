import ProgrammaticSigner.Migrate.Reference
import ProgrammaticSigner.Migrate.TokenRules

set_option autoImplicit false

/- Token programs over the reference toolkit, which read the instructions that it builds and
keep the documented rules. Nothing costs a fee, and any account can be created. -/
namespace ProgrammaticSigner

open Outcome

instance {P : Platform} (environment : TokenEnvironment P) (previous : Option P.Address)
    (address : P.Address) (mint : P.Mint) (origin target : P.TokenAccount) (authority : P.Address)
    (amount : UInt64) (decimals : UInt8) : Decidable (environment.TransferRules previous address mint
      origin target authority amount decimals) :=
  decidable_of_iff
    (origin.mint = address ∧ target.mint = address ∧ mint.decimals = decimals ∧
      origin.isFrozen = false ∧ target.isFrozen = false ∧ amount ≤ origin.amount ∧
      mint.nonTransferable = false ∧ mint.paused = false ∧ mint.transferHook = none ∧
      origin.cpiGuard ≠ some true ∧
      (mint.permanentDelegate = some authority ∨
        (if origin.SpendsAllowance mint authority then amount ≤ origin.delegatedAmount
          else origin.owner = authority)) ∧
      environment.isMultisig authority = false ∧
      (target.memoTransfer = some true → ∃ program ∈ previous, environment.isMemo program = true) ∧
      (∀ confidential ∈ target.confidentialTransfer,
        confidential.allowNonConfidentialCredits = true) ∧
      target.amount.toNat + (amount - environment.fee address mint amount).toNat < 2 ^ 64 ∧
      (0 < environment.fee address mint amount → ∃ withheld ∈ target.transferFeeAmount,
        withheld.toNat + (environment.fee address mint amount).toNat < 2 ^ 64))
    ⟨fun ⟨originMint, targetMint, decimals, originThawed, targetThawed, enough, transferable,
        unpaused, unhooked, unguarded, authorized, single, memo, credits, fits, withholds⟩ =>
        ⟨originMint, targetMint, decimals, originThawed, targetThawed, enough, transferable,
          unpaused, unhooked, unguarded, authorized, single, memo, credits, fits, withholds⟩,
      fun ⟨originMint, targetMint, decimals, originThawed, targetThawed, enough, transferable,
        unpaused, unhooked, unguarded, authorized, single, memo, credits, fits, withholds⟩ =>
        ⟨originMint, targetMint, decimals, originThawed, targetThawed, enough, transferable,
          unpaused, unhooked, unguarded, authorized, single, memo, credits, fits, withholds⟩⟩

instance {P : Platform} (environment : TokenEnvironment P) (address : P.Address)
    (account : P.TokenAccount) (recipient authority : P.Address) :
    Decidable (environment.CloseRules address account recipient authority) :=
  decidable_of_iff
    (recipient ≠ address ∧
      (account.owner = default ∨ account.owner = environment.incinerator →
        recipient = environment.incinerator) ∧
      (account.owner ≠ default ∧ account.owner ≠ environment.incinerator →
        account.closeAuthority.getD account.owner = authority ∧
          environment.isMultisig authority = false ∧
          (account.cpiGuard = some true → recipient = account.owner)) ∧
      (∀ confidential ∈ account.confidentialTransfer, confidential.closable = true) ∧
      (∀ closable ∈ account.confidentialTransferFee, closable = true) ∧
      ∀ withheld ∈ account.transferFeeAmount, withheld = 0)
    ⟨fun ⟨different, burned, authorized, confidential, confidentialFee, fees⟩ =>
        ⟨different, burned, authorized, confidential, confidentialFee, fees⟩,
      fun ⟨different, burned, authorized, confidential, confidentialFee, fees⟩ =>
        ⟨different, burned, authorized, confidential, confidentialFee, fees⟩⟩

namespace Reference

theorem forTokenProgram_ok {tokenProgram : Nat} {instruction built : Instruction Nat}
    (forwarded : forTokenProgram tokenProgram instruction = .ok built) :
    tokenProgram ≠ 22 ∧ built = instruction := by
  unfold forTokenProgram at forwarded
  split at forwarded
  · rename_i known
    exact ⟨by omega, (Except.ok.inj forwarded).symm⟩
  · cases forwarded

section LedgerOf

variable {snapshot : List (Nat × RawAccount Nat)} {tokenProgram : Nat}

end LedgerOf

/-- A plain Token-2022 account. -/
def plainAccount (owner : Nat) (amount : UInt64) : TokenAccount Nat :=
  ⟨42, owner, amount, none, 0, .initialized, none, none, none, none, none, none⟩

/-- A mint, an owner's associated token account, and two accounts of the owner's programmatic
signer. The first of these takes transfers only with a memo. -/
def tokenSnapshot : List (Nat × RawAccount Nat) :=
  [(42, ⟨1, 20, mintData (some 12) none⟩), (185, ⟨1, 20, packTokenAccount (plainAccount 30 5)⟩),
    (70, ⟨1, 20, packTokenAccount { plainAccount 61 0 with memoTransfer := some true }⟩),
    (72, ⟨1, 20, packTokenAccount (plainAccount 61 0)⟩)]

/-- Moves all the owner's tokens to a destination. -/
def tokenCommand (destination : Nat) : TokenCommand Platform.reference where
  mint := (42 : Nat)
  owner := some (30 : Nat)
  source := none
  newAuthoritySigningPubkey := none
  destination := some destination
  amount := none
  funder := none
  noClose := false
  rentRecipient := none
  owner_source := .inr rfl
  destination_funder := .inr rfl
  noClose_rentRecipient := .inl rfl

end Reference

end ProgrammaticSigner
