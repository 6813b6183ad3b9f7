import ProgrammaticSigner.Migrate.Scan

set_option autoImplicit false

/- The other categories of `migrate scan`, vote accounts, programs, token accounts and SOL, and
how every migrate command reads back from a command line. -/
namespace ProgrammaticSigner

open Outcome

variable {P : Platform}

/-- `UiTokenAccount` as the RPC node parses it, with its `token_amount`. -/
structure UiTokenAccount where
  mint : Text
  amount : Text
  decimals : UInt8
  deriving DecidableEq

/-- The RPC node, with the token accounts it finds by their owner under a token program. -/
structure ScanClient (P : Platform) extends ChainClient P where
  tokenAccountsByOwner : P.Address → P.Address →
    Except Failure (List (P.Address × UiTokenAccount))

structure VoteScanItem where
  voteAccount : Text
  lamports : UInt64
  command : Text
  deriving DecidableEq

structure ProgramScanItem where
  program : Text
  programData : Text
  command : Text
  deriving DecidableEq

structure TokenScanItem where
  tokenAccount : Text
  mint : Text
  tokenProgram : Text
  amount : Text
  associated : Bool
  command : Text
  deriving DecidableEq

structure SolScanItem where
  lamports : UInt64
  command : Option Text
  deriving DecidableEq

/-- `ScanOutput`, with every category. -/
structure ScanReport extends ScanOutput where
  vote : Except String (List VoteScanItem)
  program : Except String (List ProgramScanItem)
  token : Except String (List TokenScanItem)
  sol : Except String SolScanItem

namespace MigrateScan

/-- A u32 version tag and the node identity, then the withdrawer. -/
def voteWithdrawerOffset : Nat := 36

/-- A u32 state tag and a u64 slot, then the upgrade authority as an option. -/
def programDataTag : List UInt8 := [3, 0, 0, 0]

def upgradeAuthorityOptionOffset : Nat := 12

def upgradeAuthorityOffset : Nat := 13

/-- A u32 state tag, then the program data address. -/
def programTag : List UInt8 := [2, 0, 0, 0]

def programDataAddressOffset : Nat := 4

/-- `UpgradeableLoaderState::size_of_programdata_metadata` -/
def programDataMetadataSize : Nat := 45

/-- `UpgradeableLoaderState::size_of_program` -/
def programSize : Nat := 36

variable (K : MigrateToolkit P)

section Chain

variable (client : ChainClient P) (owner : P.Address) (newAuthorityArgs : List Text)

def holdsVote (entry : P.Address × P.RawAccount) : Bool :=
  match ChainClient.decodeVoteAccount K entry.1 entry.2 >>= fun state =>
      MigrateVote.authorizedWithdrawer K state entry.1 with
  | .ok withdrawer => decide (withdrawer = owner)
  | .error _ => false

def voteItem (entry : P.Address × P.RawAccount) : VoteScanItem :=
  let address := K.showAddress entry.1
  { voteAccount := address
    lamports := entry.2.lamports
    command := migrateCommand (["vote".toList, address] ++ newAuthorityArgs) }

def scanVote : Except Failure (List VoteScanItem) := do
  let found ← client.programAccounts K.voteProgram
    [.memcmp voteWithdrawerOffset (P.addressWire.encode owner)] none
  return (found.filter (holdsVote K owner)).map (voteItem K newAuthorityArgs)

def holdsProgramData (entry : P.Address × P.RawAccount) : Bool :=
  match ChainClient.decodeUpgradeableLoaderAccount K entry.1 entry.2 with
  | .ok (.programData _ (some upgradeAuthority)) => decide (upgradeAuthority = owner)
  | _ => false

def programItem (programData : P.Address) (entry : P.Address × P.RawAccount) : ProgramScanItem :=
  let program := K.showAddress entry.1
  { program := program
    programData := K.showAddress programData
    command := migrateCommand (["program".toList, program] ++ newAuthorityArgs) }

/-- `migrate program` takes the program address, which can't be derived from the program data
address, so these are the programs that point to it. -/
def scanProgramsOf (programData : P.Address × P.RawAccount) :
    Except Failure (List ProgramScanItem) := do
  let programs ← client.programAccounts P.upgradeableLoader
    [.dataSize programSize, .memcmp 0 programTag,
      .memcmp programDataAddressOffset (P.addressWire.encode programData.1)] none
  return programs.map (programItem K newAuthorityArgs programData.1)

/-- Only the program data header is fetched, not the ELF that follows it. -/
def scanProgram : Except Failure (List ProgramScanItem) := do
  let programDataAccounts ← client.programAccounts P.upgradeableLoader
    [.memcmp 0 programDataTag, .memcmp upgradeAuthorityOptionOffset [1],
      .memcmp upgradeAuthorityOffset (P.addressWire.encode owner)]
    (some ⟨0, programDataMetadataSize⟩)
  let items ← (programDataAccounts.filter (holdsProgramData K owner)).mapM
    (scanProgramsOf K client newAuthorityArgs)
  return items.flatten

/-- The System Program can only transfer from its own accounts that hold no data. -/
def isMigratable (account : P.RawAccount) : Bool :=
  account.owner = default && account.data = [] && decide (0 < account.lamports)

def scanSol : Except Failure SolScanItem := do
  let found ← client.optionalAccount owner
  match found with
  | none => return ⟨0, none⟩
  | some account => return {
      lamports := account.lamports
      command := if isMigratable account then
          some (migrateCommand (["sol".toList, K.showAddress owner] ++ newAuthorityArgs))
        else none }

end Chain

section Tokens

variable (client : ScanClient P) (owner : P.Address) (newAuthorityArgs : List Text)

/-- An associated token account is found by its owner. Any other is passed as the source, which
names its owner. -/
def sourceArgs (associated : Bool) (address : P.Address) : List Text :=
  if associated then ["--owner".toList, K.showAddress owner]
  else ["--source".toList, K.showAddress address]

/-- The amount is the raw balance, which `migrate token --amount` takes. -/
def tokenItem (tokenProgram : P.Address) (entry : P.Address × UiTokenAccount) :
    Except Failure TokenScanItem := do
  let account := entry.2
  let amount ← context s!"token account {K.display entry.1} has an invalid amount"
    (parseU64 account.amount)
  let mint ← context s!"token account {K.display entry.1} has an invalid mint"
    (K.parseAddress account.mint)
  let associated := decide (K.getAssociatedTokenAddress owner mint tokenProgram = entry.1)
  return {
    tokenAccount := K.showAddress entry.1
    mint := account.mint
    tokenProgram := K.showAddress tokenProgram
    amount := realNumberStringTrimmed amount account.decimals
    associated
    command := migrateCommand (["token".toList, account.mint] ++
      sourceArgs K owner associated entry.1 ++ newAuthorityArgs) }

def scanTokensOf (tokenProgram : P.Address) : Except Failure (List TokenScanItem) := do
  let accounts ← client.tokenAccountsByOwner owner tokenProgram
  accounts.mapM (tokenItem K owner newAuthorityArgs tokenProgram)

def scanToken : Except Failure (List TokenScanItem) := do
  let items ← [K.tokenProgram, K.token2022Program].mapM
    (scanTokensOf K client owner newAuthorityArgs)
  return items.flatten

/-- `scan::run`, with every category. -/
def report (command : ScanCommand P) : Except Failure ScanReport := do
  let args ← MigrateScan.newAuthorityArgs K command
  let chain := client.toChainClient
  let owner := command.owner
  return {
    owner := K.showAddress owner
    stake := (scanStake K chain owner args).mapError K.describeFailure
    vote := (scanVote K chain owner args).mapError K.describeFailure
    program := (scanProgram K chain owner args).mapError K.describeFailure
    mint := (scanMint K chain owner args).mapError K.describeFailure
    token := (scanToken K client owner args).mapError K.describeFailure
    sol := (scanSol K chain owner args).mapError K.describeFailure }

theorem report_run (command : ScanCommand P) :
    (report K client command).map ScanReport.toScanOutput = run K client.toChainClient command := by
  unfold report run
  cases MigrateScan.newAuthorityArgs K command <;> rfl

end Tokens

end MigrateScan

namespace MigrateScan

variable (K : MigrateToolkit P)

def parseAddressValue (word : Text) : Option P.Address := (K.parseAddress word).toOption

/-- The arguments that `vote` and `program` take: an account and the new authority. -/
def parseAccount (arguments : Arguments) : Option (P.Address × Option P.Address) :=
  match arguments.positional with
  | [account] =>
      if arguments.Takes ["--new-authority-signing-pubkey"] then do
        let account ← parseAddressValue K account
        let newAuthoritySigningPubkey ←
          arguments.value "--new-authority-signing-pubkey" (parseAddressValue K)
        return (account, newAuthoritySigningPubkey)
      else none
  | _ => none

/-- The arguments of `sol`, its amount by `sol_str_to_lamports`. -/
def parseSol (solStrToLamports : Text → Option UInt64) (arguments : Arguments) :
    Option (SolCommand P) :=
  match arguments.positional with
  | [owner] =>
      if arguments.Takes ["--new-authority-signing-pubkey", "--amount"] then do
        let owner ← parseAddressValue K owner
        let newAuthoritySigningPubkey ←
          arguments.value "--new-authority-signing-pubkey" (parseAddressValue K)
        let amount ← arguments.value "--amount" solStrToLamports
        return ⟨owner, newAuthoritySigningPubkey, amount⟩
      else none
  | _ => none

/-- The arguments of `token`, with how often `--no-close` is given. -/
def parseToken (given : Nat × Arguments) : Option (TokenCommand P) :=
  match given.2.positional with
  | [mint] =>
      if given.1 ≤ 1 ∧ given.2.Takes ["--owner", "--source", "--new-authority-signing-pubkey",
          "--destination", "--amount", "--funder", "--rent-recipient"] then do
        let mint ← parseAddressValue K mint
        let owner ← given.2.value "--owner" (parseAddressValue K)
        let source ← given.2.value "--source" (parseAddressValue K)
        let newAuthoritySigningPubkey ←
          given.2.value "--new-authority-signing-pubkey" (parseAddressValue K)
        let destination ← given.2.value "--destination" (parseAddressValue K)
        let amount ← given.2.value "--amount" some
        let funder ← given.2.value "--funder" (parseAddressValue K)
        let rentRecipient ← given.2.value "--rent-recipient" (parseAddressValue K)
        let noClose := decide (given.1 = 1)
        if conflicts : (owner = none ∨ source = none) ∧ (destination = none ∨ funder = none) ∧
            (noClose = false ∨ rentRecipient = none) then
          some ⟨mint, owner, source, newAuthoritySigningPubkey, destination, amount, funder,
            noClose, rentRecipient, conflicts.1, conflicts.2.1, conflicts.2.2⟩
        else none
      else none
  | _ => none

/-- A command line as the shell and the argument parser take it, for every subcommand that builds
a message. -/
def readCommand (solStrToLamports : Text → Option UInt64) (line : Text) :
    Option (MigrateCommand P) :=
  match K.commandLine.words line with
  | program :: migrate :: subcommand :: words =>
      if program = "spl-programmatic-signer".toList ∧ migrate = "migrate".toList then
        if subcommand = "vote".toList then do
          let read ← (K.commandLine.read words).bind (parseAccount K)
          return .vote ⟨read.1, read.2⟩
        else if subcommand = "program".toList then do
          let read ← (K.commandLine.read words).bind (parseAccount K)
          return .program ⟨read.1, read.2⟩
        else if subcommand = "sol".toList then
          ((K.commandLine.read words).bind (parseSol K solStrToLamports)).map .sol
        else if subcommand = "token".toList then
          ((K.commandLine.readFlag "--no-close".toList words).bind (parseToken K)).map .token
        else parseCommand K line
      else none
  | _ => none

end MigrateScan

end ProgrammaticSigner
