import ProgrammaticSigner.Cli.SimulationOutput
import ProgrammaticSigner.Migrate.Authorities

set_option autoImplicit false

/- `migrate sol` and `migrate token`: execution messages that move balances to a programmatic
signer. -/
namespace ProgrammaticSigner

open Outcome

variable {P : Platform}

structure SolCommand (P : Platform) where
  owner : P.Address
  newAuthoritySigningPubkey : Option P.Address
  amount : Option UInt64

structure SolMigrationOutput extends MigrationOutput where
  owner : Text
  lamports : UInt64
  closesAccount : Bool
  deriving DecidableEq

/-- `u64::saturating_add` -/
def saturatingAddU64 (left right : UInt64) : UInt64 :=
  UInt64.ofNat (min (left.toNat + right.toNat) maxU64)

/-- `u64::saturating_sub` -/
def saturatingSubU64 (left right : UInt64) : UInt64 := UInt64.ofNat (left.toNat - right.toNat)

namespace MigrateSol

variable (K : MigrateToolkit P) (client : ChainClient P) (command : SolCommand P)

/-- Moving part of a balance must leave the owner rent exempt. -/
def checkAmount (lamports balance rent : UInt64) : Except Failure Unit :=
  if lamports ≠ balance then
    let maxPartial := saturatingSubU64 balance rent
    ensure (lamports ≤ maxPartial)
      [s!"account {K.display command.owner} holds {showSol balance}. Move all of it, or at most " ++
        s!"{showSol maxPartial} to leave it rent exempt"]
  else .ok ()

/-- The new owner must end up rent exempt, too. -/
def checkNewOwner (newOwner : P.Address) (lamports rent : UInt64) : Except Failure Unit := do
  let found ← client.optionalAccount newOwner
  let newOwnerBalance := found.elim 0 RawAccount.lamports
  ensure (rent ≤ saturatingAddU64 newOwnerBalance lamports)
    [s!"the new wallet's programmatic signer {K.display newOwner} must end up rent exempt, so " ++
      s!"move at least {showSol (saturatingSubU64 rent newOwnerBalance)}"]

def run : Except Failure SolMigrationOutput := do
  let newAuthoritySigningPubkey ← Migrate.signingPubkey command.newAuthoritySigningPubkey
    (Migrate.defaultNewAuthority K "the owner" command.owner)
  let newOwner ← Migrate.newOwnerProgrammaticSigner K newAuthoritySigningPubkey
  ensure (command.owner ≠ newOwner)
    ["funds must be migrated to a different account. The destination wallet " ++
      s!"{K.display newOwner} matches the current wallet {K.display command.owner}"]
  let account ← client.systemAccount K command.owner
  let balance := account.lamports
  let rent ← client.minimumBalanceForRentExemption 0
  let lamports := command.amount.getD balance
  ensure (0 < lamports) ["amount must be greater than zero"]
  checkAmount K command lamports balance rent
  checkNewOwner K client newOwner lamports rent
  -- The transfer does not need the new owner, so a memo makes it sign.
  let instructions := [K.transfer command.owner newOwner lamports,
    K.buildMemo K.memoProgram (asciiBytes "migrate sol") [newOwner]]
  let executionMessage ← Migrate.executionMessage K newOwner instructions
  return { Migrate.output K newOwner newAuthoritySigningPubkey executionMessage with
    owner := K.showAddress command.owner
    lamports := lamports
    closesAccount := decide (lamports = balance) }

end MigrateSol

/-- The argument parser takes no `owner` with a `source`, no `funder` with a `destination` and
no `rentRecipient` with `noClose`. -/
structure TokenCommand (P : Platform) where
  mint : P.Address
  owner : Option P.Address
  source : Option P.Address
  newAuthoritySigningPubkey : Option P.Address
  destination : Option P.Address
  amount : Option Text
  funder : Option P.Address
  noClose : Bool
  rentRecipient : Option P.Address
  owner_source : owner = none ∨ source = none
  destination_funder : destination = none ∨ funder = none
  noClose_rentRecipient : noClose = false ∨ rentRecipient = none

structure TokenMigrationOutput extends MigrationOutput where
  mint : Text
  tokenProgram : Text
  amount : Text
  source : Text
  destination : Text
  funder : Option Text
  transferFee : Bool
  rentRecipient : Option Text
  deriving DecidableEq

/-- The mint of a token migration. -/
structure TokenMint (P : Platform) where
  tokenProgram : P.Address
  mint : P.Mint

/-- Where the tokens move from: an account, its state, and whose it is. -/
structure TokenSource (P : Platform) where
  address : P.Address
  account : P.TokenAccount
  owner : P.Address
  newAuthoritySigningPubkey : P.Address
  newOwner : P.Address

/-- What a token migration settles on before it builds instructions. -/
structure TokenPlan (P : Platform) where
  token : TokenMint P
  source : TokenSource P
  amount : UInt64
  close : Bool
  rentRecipient : P.Address
  destination : P.Address
  /-- The destination's state, if it exists and is going to be used. -/
  destinationAccount : Option P.TokenAccount

structure TokenInstructions (P : Platform) where
  instructions : List P.Instruction
  funder : Option P.Address

namespace MigrateToken

variable (K : MigrateToolkit P) (client : ChainClient P) (command : TokenCommand P)

def readMint : Except Failure (TokenMint P) := do
  let mintAccount ← client.tokenProgramAccount K command.mint "mint"
  let mint ← context s!"account {K.display command.mint} is not a mint"
    (K.unpackMint mintAccount.data)
  return ⟨mintAccount.owner, mint⟩

/-- The new authority's signing pubkey and its programmatic signer, which must not own the
tokens already. -/
def resolveNewAuthority (owner : P.Address) : Except Failure (P.Address × P.Address) := do
  let newAuthoritySigningPubkey ← Migrate.signingPubkey command.newAuthoritySigningPubkey
    (Migrate.defaultNewAuthority K "the owner" owner)
  let newOwner ← Migrate.newOwnerProgrammaticSigner K newAuthoritySigningPubkey
  ensure (owner ≠ newOwner)
    [s!"owner {K.display owner} is already the new authority's programmatic signer"]
  return (newAuthoritySigningPubkey, newOwner)

/-- The account to move from, and its owner unless only the account itself says. -/
def sourceAddress (token : TokenMint P) :
    Except Failure (P.Address × Option P.Address × String) :=
  match command.source with
  | some source => .ok (source, none, "token account")
  | none => do
      let owner ← command.owner.elim client.configPubkey .ok
      return (K.getAssociatedTokenAddress owner command.mint token.tokenProgram, some owner,
        "associated token account")

/-- A token account of the mint. -/
def readTokenAccount (address : P.Address) (found : P.RawAccount) :
    Except Failure P.TokenAccount := do
  let account ← context s!"account {K.display address} is not a token account"
    (K.unpackTokenAccount found.data)
  ensure (account.mint = command.mint)
    [s!"token account {K.display address} holds mint {K.display account.mint}, not " ++
      s!"{K.display command.mint}"]
  return account

def checkProgram (token : TokenMint P) (address : P.Address) (found : P.RawAccount) :
    Except Failure Unit :=
  ensure (found.owner = token.tokenProgram)
    [s!"token account {K.display address} is owned by {K.display found.owner}, but mint " ++
      s!"{K.display command.mint} is owned by {K.display token.tokenProgram}"]

/-- The executor calls the token program through CPI, which the CPI guard blocks. -/
def checkGuard (source : P.Address) (account : P.TokenAccount) : Except Failure Unit :=
  ensure (account.cpiGuard ≠ some true)
    [s!"token account {K.display source} has the CPI guard enabled, which blocks transfers " ++
      "through the message executor. Disable it first"]

def readSource (token : TokenMint P) : Except Failure (TokenSource P) := do
  let found ← sourceAddress K client command token
  let source := found.1
  -- An owner that is known up front is checked before the source is fetched.
  let early ← found.2.1.mapM (resolveNewAuthority K command)
  let sourceAccount ← client.tokenProgramAccount K source found.2.2
  checkProgram K command token source sourceAccount
  let account ← readTokenAccount K command source sourceAccount
  let owner := found.2.1.getD account.owner
  ensure (account.owner = owner)
    [s!"token account {K.display source} is owned by {K.display account.owner}, not " ++
      s!"{K.display owner}. Pass --source {K.display source} to move its tokens as " ++
      s!"{K.display account.owner}"]
  let newAuthority ← early.elim (resolveNewAuthority K command owner) .ok
  checkGuard K source account
  return ⟨source, account, owner, newAuthority.1, newAuthority.2⟩

/-- The amount to move, at most the balance. -/
def readAmount (decimals : UInt8) (source : P.Address) (balance : UInt64) :
    Except Failure UInt64 :=
  match command.amount with
  | some amount => do
      let amount ← parseTokenAmount amount decimals
      ensure (0 < amount) ["amount must be greater than zero"]
      let held := String.ofList (realNumberStringTrimmed balance decimals)
      ensure (amount ≤ balance)
        [s!"token account {K.display source} holds {held}, less than the amount"]
      return amount
  | none => do
      ensure (0 < balance ∨ command.noClose = false)
        [s!"token account {K.display source} has no balance, remove --no-close to close it"]
      return balance

/-- The account to move to, if it exists and is used. -/
def findDestination (token : TokenMint P) (destination : P.Address) (amount : UInt64) :
    Except Failure (Option P.RawAccount) :=
  match command.destination with
  | some destination => do
      let account ← client.tokenProgramAccount K destination "token account"
      checkProgram K command token destination account
      return some account
  | none =>
      if 0 < amount then do
        let found ← client.optionalAccount destination
        return found.filter fun account => account.owner = token.tokenProgram
      else .ok none

/-- The destination must hold the same mint for the new owner. -/
def checkDestination (newOwner destination : P.Address) (amount : UInt64)
    (found : P.RawAccount) : Except Failure P.TokenAccount := do
  let account ← readTokenAccount K command destination found
  let hint := match command.destination with
    | some _ => ""
    | none => s!". Pass --destination with a token account owned by {K.display newOwner}"
  ensure (account.owner = newOwner)
    [s!"token account {K.display destination} is owned by {K.display account.owner}, not the " ++
      s!"new authority's programmatic signer {K.display newOwner}{hint}"]
  ensure (amount = 0 ∨ account.isFrozen = false)
    [s!"token account {K.display destination} is frozen"]
  return account

/-- Everything a migration settles on, with the checks of the accounts it reads. -/
def plan : Except Failure (TokenPlan P) := do
  let token ← readMint K client command
  let source ← readSource K client command token
  let balance := source.account.amount
  let amount ← readAmount K command token.mint.decimals source.address balance
  let close := decide (amount = balance) && !command.noClose
  let rentRecipient := command.rentRecipient.getD source.newAuthoritySigningPubkey
  let destination := command.destination.getD
    (K.getAssociatedTokenAddress source.newOwner command.mint token.tokenProgram)
  ensure (source.address ≠ destination)
    [s!"token account {K.display source.address} is both the source and the destination"]
  let found ← findDestination K client command token destination amount
  let destinationAccount ← found.mapM
    (checkDestination K command source.newOwner destination amount)
  return ⟨token, source, amount, close, rentRecipient, destination, destinationAccount⟩

/-- The rules of the mint and the source for a transfer. -/
def checkTransfer (plan : TokenPlan P) : Except Failure Unit := do
  ensure (plan.source.account.isFrozen = false)
    [s!"token account {K.display plan.source.address} is frozen"]
  ensure (plan.token.mint.nonTransferable = false)
    [s!"mint {K.display command.mint} is non-transferable"]
  match plan.token.mint.transferHook with
  | some hookProgram => throw [s!"mint {K.display command.mint} has a transfer hook " ++
      s!"({K.display hookProgram}), which is not supported"]
  | none => return ()

/-- Create the new owner's associated token account if it does not exist. -/
def createInstructions (plan : TokenPlan P) : Except Failure (TokenInstructions P) :=
  match plan.destinationAccount with
  | some _ => .ok ⟨[], none⟩
  | none => do
      ensure (plan.token.mint.defaultAccountState ≠ some AccountState.frozen.toByte)
        [s!"mint {K.display command.mint} creates token accounts frozen, so the new " ++
          s!"authority's token account {K.display plan.destination} would be frozen"]
      let payer := command.funder.getD plan.source.owner
      return ⟨[K.createAssociatedTokenAccountIdempotent payer plan.source.newOwner command.mint
        plan.token.tokenProgram], some payer⟩

def transferInstructions (plan : TokenPlan P) : Except Failure (TokenInstructions P) :=
  if 0 < plan.amount then do
    checkTransfer K command plan
    let created ← createInstructions K command plan
    let moved ← context "failed to build transfer instruction"
      ((K.transferChecked plan.token.tokenProgram plan.source.address command.mint
        plan.destination plan.source.owner [] plan.amount plan.token.mint.decimals).mapError
          fun reason => [K.describeProgram reason])
    return ⟨created.instructions ++ [moved], created.funder⟩
  else .ok ⟨[], none⟩

/-- The source account must be one that closing can close. -/
def checkClosable (plan : TokenPlan P) : Except Failure Unit := do
  let source := K.display plan.source.address
  let pass := "so it can't be closed. Pass --no-close to leave it open"
  ensure (plan.rentRecipient ≠ plan.source.address)
    [s!"token account {source} can't receive its own rent"]
  ensure (∀ confidential ∈ plan.source.account.confidentialTransfer, confidential.closable = true)
    [s!"token account {source} has a confidential balance, {pass}"]
  ensure (∀ closable ∈ plan.source.account.confidentialTransferFee, closable = true)
    [s!"token account {source} has withheld confidential transfer fees, {pass}"]

/-- Withheld transfer fees block closing, but anyone can harvest them to the mint. -/
def harvestInstructions (plan : TokenPlan P) : Except Failure (List P.Instruction) :=
  if ∃ withheld ∈ plan.source.account.transferFeeAmount, 0 < withheld then do
    let harvest ← context "failed to build harvest instruction"
      ((K.harvestWithheldTokensToMint plan.token.tokenProgram command.mint
        [plan.source.address]).mapError fun reason => [K.describeProgram reason])
    return [harvest]
  else .ok []

/-- Once set, only the close authority can close an account. -/
def closeInstructions (plan : TokenPlan P) : Except Failure (List P.Instruction) :=
  if plan.close then do
    checkClosable K plan
    let harvested ← harvestInstructions K command plan
    let closed ← context "failed to build close instruction"
      ((K.closeAccount plan.token.tokenProgram plan.source.address plan.rentRecipient
        (plan.source.account.closeAuthority.getD plan.source.owner) []).mapError
          fun reason => [K.describeProgram reason])
    return harvested ++ [closed]
  else .ok []

/-- The transfer, the close, and a memo that makes the new owner sign. -/
def instructions (plan : TokenPlan P) : Except Failure (TokenInstructions P) := do
  let transferred ← transferInstructions K command plan
  let closed ← closeInstructions K command plan
  let memo := K.buildMemo K.memoProgram (asciiBytes "migrate tokens") [plan.source.newOwner]
  return ⟨transferred.instructions ++ closed ++ [memo], transferred.funder⟩

def run : Except Failure TokenMigrationOutput := do
  let plan ← plan K client command
  let built ← instructions K command plan
  let source := plan.source
  let executionMessage ← Migrate.executionMessage K source.newOwner built.instructions
  return { Migrate.output K source.newOwner source.newAuthoritySigningPubkey executionMessage with
    mint := K.showAddress command.mint
    tokenProgram := K.showAddress plan.token.tokenProgram
    amount := realNumberStringTrimmed plan.amount plan.token.mint.decimals
    source := K.showAddress source.address
    destination := K.showAddress plan.destination
    funder := built.funder.map K.showAddress
    transferFee := decide (0 < plan.amount) && plan.token.mint.hasTransferFee
    rentRecipient := if plan.close then some (K.showAddress plan.rentRecipient) else none }

end MigrateToken

/-- The subcommands of `migrate` that build an execution message. -/
inductive MigrateCommand (P : Platform) where
  | mint (command : MintCommand P)
  | program (command : ProgramCommand P)
  | sol (command : SolCommand P)
  | stake (command : StakeCommand P)
  | token (command : TokenCommand P)
  | vote (command : VoteCommand P)

inductive MigrateOutput where
  | mint (output : MintMigrationOutput)
  | program (output : ProgramMigrationOutput)
  | sol (output : SolMigrationOutput)
  | stake (output : StakeMigrationOutput)
  | token (output : TokenMigrationOutput)
  | vote (output : VoteMigrationOutput)
  deriving DecidableEq

/-- What every output reports. -/
def MigrateOutput.migration : MigrateOutput → MigrationOutput
  | mint output => output.toMigrationOutput
  | program output => output.toMigrationOutput
  | sol output => output.toMigrationOutput
  | stake output => output.toMigrationOutput
  | token output => output.toMigrationOutput
  | vote output => output.toMigrationOutput

def Migrate.run (K : MigrateToolkit P) (client : ChainClient P) :
    MigrateCommand P → Except Failure MigrateOutput
  | .mint command => (MigrateMint.run K client command).map .mint
  | .program command => (MigrateProgram.run K client command).map .program
  | .sol command => (MigrateSol.run K client command).map .sol
  | .stake command => (MigrateStake.run K client command).map .stake
  | .token command => (MigrateToken.run K client command).map .token
  | .vote command => (MigrateVote.run K client command).map .vote

end ProgrammaticSigner
