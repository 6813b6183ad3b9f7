import ProgrammaticSigner.Library.Listing
import ProgrammaticSigner.Migrate.Transfers

set_option autoImplicit false

/- `migrate scan`: the stake accounts and mints that an address controls, with the migrate
command for each, and how such a command reads back. -/
namespace ProgrammaticSigner

open Outcome

variable {P : Platform}

structure ScanCommand (P : Platform) where
  owner : P.Address
  newAuthoritySigningPubkey : Option P.Address

structure StakeScanItem where
  stakeAccount : Text
  lamports : UInt64
  authorityTypes : List Text
  command : Text
  deriving DecidableEq

structure MintScanItem where
  mint : Text
  tokenProgram : Text
  authorityTypes : List Text
  command : Text
  deriving DecidableEq

/-- The categories that read authorities out of account data. Each is reported on its own. -/
structure ScanOutput where
  owner : Text
  stake : Except String (List StakeScanItem)
  mint : Except String (List MintScanItem)

namespace MigrateScan

/-- A u32 state tag and a u64 rent-exempt reserve, then the staker and the withdrawer. -/
def stakeOffset : StakeAuthorize → Nat
  | .staker => 12
  | .withdrawer => 44

/-- An option's u32 tag, then the mint authority; the supply, decimals and initialized flag
and another tag, then the freeze authority. -/
def mintOffset : MintAuthorityType → Nat
  | .mint => 4
  | .freeze => 50

/-- `AccountType::Mint` -/
def mintAccountType : UInt8 := 1

variable (K : MigrateToolkit P) (client : ChainClient P)

/-- The arguments that name the new authority. The migrate commands default to the owner,
which only works if it is on curve. -/
def newAuthorityArgs (command : ScanCommand P) : Except Failure (List Text) :=
  match command.newAuthoritySigningPubkey with
  | some newAuthoritySigningPubkey => do
      let newOwner ← Migrate.newOwnerProgrammaticSigner K newAuthoritySigningPubkey
      ensure (command.owner ≠ newOwner)
        [s!"owner {K.display command.owner} is already the new authority's programmatic signer"]
      return ["--new-authority-signing-pubkey".toList, K.showAddress newAuthoritySigningPubkey]
  | none =>
      if K.isOnCurve command.owner then .ok []
      else .ok ["--new-authority-signing-pubkey".toList, "<NEW_AUTHORITY_SIGNING_PUBKEY>".toList]

def migrateCommand (args : List Text) : Text :=
  "spl-programmatic-signer migrate ".toList ++ [' '].intercalate args

/-- The argument for a single role. Without it, a command moves every role. -/
def roleArgs {Role : Type} (name : Role → String) : List Role → List Text
  | [role] => ["--authority-type".toList, (name role).toList]
  | _ => []

variable (owner : P.Address) (newAuthorityArgs : List Text)

/-- What a matched account decodes to, and whose it is in a role. -/
def holdsStake (role : StakeAuthorize) (entry : P.Address × P.RawAccount) : Bool :=
  match (ChainClient.decodeStakeAccount K entry.1 entry.2).toOption.bind StakeState.stakeMeta with
  | some info => decide (MigrateStake.currentAuthority info.authorized role = owner)
  | none => false

abbrev StakeRoles (P : Platform) := Std.TreeMap P.Address (UInt64 × List StakeAuthorize)

def scanStakeRole (accounts : StakeRoles P) (role : StakeAuthorize) :
    Except Failure (StakeRoles P) := do
  let found ← client.programAccounts K.stakeProgram
    [.dataSize stakeStateSize, .memcmp (stakeOffset role) (P.addressWire.encode owner)] none
  return Listing.merge Prod.fst (Listing.push (fun entry => entry.2.lamports) role) accounts
    (found.filter (holdsStake K owner role))

def stakeItem (entry : P.Address × UInt64 × List StakeAuthorize) : StakeScanItem :=
  let address := K.showAddress entry.1
  let roles := entry.2.2
  { stakeAccount := address
    lamports := entry.2.1
    authorityTypes := roles.map fun role => (MigrateStake.roleName role).toList
    command := migrateCommand (["stake".toList, address] ++ newAuthorityArgs ++
      roleArgs MigrateStake.roleName roles) }

def scanStake : Except Failure (List StakeScanItem) := do
  let accounts ← [StakeAuthorize.staker, .withdrawer].foldlM (scanStakeRole K client owner) ∅
  return accounts.toList.map (stakeItem K newAuthorityArgs)

structure MintQuery (P : Platform) where
  tokenProgram : P.Address
  role : MintAuthorityType
  filters : List RpcFilter

/-- Where mints are kept: without extensions, or padded to the length of a token account and
followed by their account type. -/
def mintLayouts : List (P.Address × RpcFilter) :=
  [(K.tokenProgram, .dataSize mintLen), (K.token2022Program, .dataSize mintLen),
    (K.token2022Program, .memcmp tokenAccountLen [mintAccountType])]

def mintQueries : List (MintQuery P) :=
  (mintLayouts K).flatMap fun layout =>
    [MintAuthorityType.mint, .freeze].map fun role =>
      ⟨layout.1, role, [layout.2, .memcmp (mintOffset role) (P.addressWire.encode owner)]⟩

def holdsMint (role : MintAuthorityType) (entry : P.Address × P.RawAccount) : Bool :=
  match ChainClient.decodeMint K entry.1 entry.2 with
  | .ok found => decide (MigrateMint.currentAuthority found.2 role = some owner)
  | .error _ => false

abbrev MintRoles (P : Platform) := Std.TreeMap P.Address (P.Address × List MintAuthorityType)

/-- Any extensions are skipped, as only the base mint is needed. -/
def scanMintQuery (mints : MintRoles P) (query : MintQuery P) : Except Failure (MintRoles P) := do
  let found ← client.programAccounts query.tokenProgram query.filters (some ⟨0, mintLen⟩)
  return Listing.merge Prod.fst (Listing.push (fun _ => query.tokenProgram) query.role) mints
    (found.filter (holdsMint K owner query.role))

def mintItem (entry : P.Address × P.Address × List MintAuthorityType) : MintScanItem :=
  let address := K.showAddress entry.1
  let roles := entry.2.2
  { mint := address
    tokenProgram := K.showAddress entry.2.1
    authorityTypes := roles.map fun role => role.name.toList
    command := migrateCommand (["mint".toList, address] ++ newAuthorityArgs ++
      roleArgs MintAuthorityType.name roles) }

def scanMint : Except Failure (List MintScanItem) := do
  let mints ← (mintQueries K owner).foldlM (scanMintQuery K client owner) ∅
  return mints.toList.map (mintItem K newAuthorityArgs)

/-- A failed category does not keep the others from being reported. -/
def run (command : ScanCommand P) : Except Failure ScanOutput := do
  let args ← MigrateScan.newAuthorityArgs K command
  return ⟨K.showAddress command.owner,
    (scanStake K client command.owner args).mapError K.describeFailure,
    (scanMint K client command.owner args).mapError K.describeFailure⟩

end MigrateScan

namespace Arguments

/-- Only these options are given, each at most once. -/
def Takes (arguments : Arguments) (names : List String) : Prop :=
  (arguments.options.map Prod.fst).Nodup ∧
    ∀ option ∈ arguments.options, option.1 ∈ names.map String.toList

instance (arguments : Arguments) (names : List String) : Decidable (arguments.Takes names) := by
  unfold Takes
  infer_instance

/-- An option that may be left out. -/
def value {α : Type} (arguments : Arguments) (name : String) (parse : Text → Option α) :
    Option (Option α) :=
  (arguments.options.lookup name.toList).mapM parse

end Arguments

def StakeAuthorityType.parse (word : Text) : Option StakeAuthorityType :=
  if word = "staker".toList then some staker
  else if word = "withdrawer".toList then some withdrawer
  else none

def MintAuthorityType.parse (word : Text) : Option MintAuthorityType :=
  if word = "mint".toList then some mint
  else if word = "freeze".toList then some freeze
  else none

namespace MigrateScan

variable (K : MigrateToolkit P)

/-- The arguments that `stake` and `mint` share: an account, the new authority and a role. -/
def parseArguments {Role : Type} (parseRole : Text → Option Role) (arguments : Arguments) :
    Option (P.Address × Option P.Address × Option Role) :=
  match arguments.positional with
  | [account] =>
      if arguments.Takes ["--new-authority-signing-pubkey", "--authority-type"] then do
        let account ← (K.parseAddress account).toOption
        let newAuthoritySigningPubkey ← arguments.value "--new-authority-signing-pubkey"
          fun word => (K.parseAddress word).toOption
        let authorityType ← arguments.value "--authority-type" parseRole
        return (account, newAuthoritySigningPubkey, authorityType)
      else none
  | _ => none

/-- A command line as the shell and the argument parser take it, for the two subcommands that
take a role. -/
def parseCommand (line : Text) : Option (MigrateCommand P) :=
  match K.commandLine.words line with
  | program :: migrate :: subcommand :: words =>
      if program = "spl-programmatic-signer".toList ∧ migrate = "migrate".toList then do
        let arguments ← K.commandLine.read words
        if subcommand = "stake".toList then
          let read ← parseArguments K StakeAuthorityType.parse arguments
          return .stake ⟨read.1, read.2.1, read.2.2⟩
        else if subcommand = "mint".toList then
          let read ← parseArguments K MintAuthorityType.parse arguments
          return .mint ⟨read.1, read.2.1, read.2.2⟩
        else none
      else none
  | _ => none

end MigrateScan

end ProgrammaticSigner
