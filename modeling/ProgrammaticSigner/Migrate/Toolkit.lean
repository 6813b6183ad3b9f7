import ProgrammaticSigner.Cli.Toolkit

set_option autoImplicit false

/- What the `migrate` commands take from outside the repository: the accounts an RPC node
returns, the state other programs keep in them, and those programs' instructions. -/
namespace ProgrammaticSigner

open Outcome

/-- `solana_account::Account`, its data as bytes. -/
structure RawAccount (Address : Type) where
  lamports : UInt64
  owner : Address
  data : List UInt8
  deriving DecidableEq

structure Clock where
  unixTimestamp : Int
  epoch : UInt64
  deriving DecidableEq

structure StakeAuthorized (Address : Type) where
  staker : Address
  withdrawer : Address
  deriving DecidableEq

structure StakeLockup (Address : Type) where
  unixTimestamp : Int
  epoch : UInt64
  custodian : Address
  deriving DecidableEq

structure StakeMeta (Address : Type) where
  authorized : StakeAuthorized Address
  lockup : StakeLockup Address
  deriving DecidableEq

/-- `StakeStateV2`, less the delegation. -/
inductive StakeState (Address : Type) where
  | uninitialized
  | initialized (info : StakeMeta Address)
  | stake (info : StakeMeta Address)
  | rewardsPool
  deriving DecidableEq

/-- `StakeStateV2::meta` -/
def StakeState.stakeMeta {Address : Type} : StakeState Address → Option (StakeMeta Address)
  | initialized info => some info
  | stake info => some info
  | _ => none

inductive StakeAuthorize where
  | staker
  | withdrawer
  deriving DecidableEq

structure VoteState (Address : Type) where
  authorizedWithdrawer : Address
  hasAuthorizedVoters : Bool
  deriving DecidableEq

inductive VoteStateVersions (Address : Type) where
  | uninitialized
  | v1_14_11 (state : VoteState Address)
  | v3 (state : VoteState Address)
  | v4 (state : VoteState Address)
  deriving DecidableEq

inductive VoteAuthorize where
  | voter
  | withdrawer
  deriving DecidableEq

inductive LoaderState (Address : Type) where
  | uninitialized
  | buffer (authority : Option Address)
  | program (programdataAddress : Address)
  | programData (slot : UInt64) (upgradeAuthorityAddress : Option Address)
  deriving DecidableEq

/-- The authorities of a mint that `SetAuthority` can move here. -/
inductive TokenAuthorityType where
  | mintTokens
  | freezeAccount
  deriving DecidableEq

/-- A mint and those of its extensions that transfers depend on. -/
structure Mint (Address : Type) where
  mintAuthority : Option Address
  freezeAuthority : Option Address
  decimals : UInt8
  nonTransferable : Bool
  /-- `transfer_hook::get_program_id` -/
  transferHook : Option Address
  /-- `DefaultAccountState`, as the byte it stores. -/
  defaultAccountState : Option UInt8
  hasTransferFee : Bool
  paused : Bool
  permanentDelegate : Option Address
  deriving DecidableEq

inductive AccountState where
  | uninitialized
  | initialized
  | frozen
  deriving DecidableEq

/-- `u8::from(AccountState)` -/
def AccountState.toByte : AccountState → UInt8
  | uninitialized => 0
  | initialized => 1
  | frozen => 2

structure ConfidentialTransferAccount where
  closable : Bool
  allowNonConfidentialCredits : Bool
  deriving DecidableEq

/-- A token account and those of its extensions that transfers and closing depend on. -/
structure TokenAccount (Address : Type) where
  mint : Address
  owner : Address
  amount : UInt64
  delegate : Option Address
  delegatedAmount : UInt64
  state : AccountState
  closeAuthority : Option Address
  /-- `CpiGuard::lock_cpi` -/
  cpiGuard : Option Bool
  /-- `TransferFeeAmount::withheld_amount` -/
  transferFeeAmount : Option UInt64
  confidentialTransfer : Option ConfidentialTransferAccount
  /-- `ConfidentialTransferFeeAmount::closable` -/
  confidentialTransferFee : Option Bool
  /-- `MemoTransfer::require_incoming_transfer_memos` -/
  memoTransfer : Option Bool
  deriving DecidableEq

def TokenAccount.isFrozen {Address : Type} (account : TokenAccount Address) : Bool :=
  account.state = .frozen

inductive RpcFilter where
  | dataSize (size : Nat)
  | memcmp (offset : Nat) (bytes : List UInt8)
  deriving DecidableEq

structure DataSlice where
  offset : Nat
  length : Nat
  deriving DecidableEq

/-- `StakeStateV2::size_of` -/
def stakeStateSize : Nat := 200

/-- `Mint::LEN` -/
def mintLen : Nat := 82

/-- `TokenAccount::LEN`. A mint with extensions has its `AccountType` there. -/
def tokenAccountLen : Nat := 165

section Abbreviations

variable (P : Platform)

abbrev Platform.RawAccount := ProgrammaticSigner.RawAccount P.Address
abbrev Platform.StakeState := ProgrammaticSigner.StakeState P.Address
abbrev Platform.StakeMeta := ProgrammaticSigner.StakeMeta P.Address
abbrev Platform.Mint := ProgrammaticSigner.Mint P.Address
abbrev Platform.TokenAccount := ProgrammaticSigner.TokenAccount P.Address

end Abbreviations

/-- Words as an argument parser sorts them: options with their values, and the rest. -/
structure Arguments where
  positional : List Text
  options : List (Text × Text)
  deriving DecidableEq

namespace Arguments

def isOption (word : Text) : Bool := word.head? = some '-'

/-- Options with their values, as words. -/
def optionWords (options : List (Text × Text)) : List Text :=
  options.flatMap fun option => [option.1, option.2]

/-- No name or value of an option is taken for the other. -/
def WellSorted (options : List (Text × Text)) : Prop :=
  ∀ option ∈ options, isOption option.1 = true ∧ isOption option.2 = false

/-- A letter or a digit, a dash, or a character beyond ASCII. -/
def isPlain (character : Char) : Bool :=
  character.isAlphanum || character = '-' || 128 ≤ character.toNat

/-- A word that a shell takes as it stands. -/
def IsWord (word : Text) : Prop := word ≠ [] ∧ word.all isPlain = true

instance (word : Text) : Decidable (IsWord word) :=
  inferInstanceAs (Decidable (word ≠ [] ∧ word.all isPlain = true))

end Arguments

/-- The shell, which splits a line into words, and the argument parser, which sorts the words
after a subcommand. -/
structure CommandLine where
  words : Text → List Text
  read : List Text → Option Arguments
  /-- As `read`, with a flag that takes no value, and how often it is given. -/
  readFlag : Text → List Text → Option (Nat × Arguments)

/-- Documented behavior of the shell and of the argument parser: blanks part the words, and an
option takes the word behind it. -/
structure CommandLine.Laws (line : CommandLine) : Prop where
  words : ∀ words, words ≠ [] → (∀ word ∈ words, Arguments.IsWord word) →
    line.words ([' '].intercalate words) = words
  read : ∀ argument options, Arguments.isOption argument = false →
    Arguments.WellSorted options →
    line.read (argument :: Arguments.optionWords options) = some ⟨[argument], options⟩
  readFlag : ∀ flag argument options, Arguments.isOption argument = false →
    Arguments.WellSorted options → flag ∉ argument :: Arguments.optionWords options →
    line.readFlag flag (argument :: Arguments.optionWords options) =
      some (0, ⟨[argument], options⟩)

structure MigrateToolkit (P : Platform) extends Toolkit P where
  commandLine : CommandLine
  /-- `Address::is_on_curve` -/
  isOnCurve : P.Address → Bool
  stakeProgram : P.Address
  voteProgram : P.Address
  tokenProgram : P.Address
  token2022Program : P.Address
  memoProgram : P.Address
  deserializeStake : List UInt8 → Except Failure P.StakeState
  deserializeVote : List UInt8 → Except Failure (VoteStateVersions P.Address)
  deserializeLoader : List UInt8 → Except Failure (LoaderState P.Address)
  /-- `StateWithExtensions::<Mint>::unpack` -/
  unpackMint : List UInt8 → Except Failure P.Mint
  /-- `StateWithExtensions::<Account>::unpack` -/
  unpackTokenAccount : List UInt8 → Except Failure P.TokenAccount
  /-- `Lockup::is_in_force` -/
  isInForce : StakeLockup P.Address → Clock → Option P.Address → Bool
  /-- `VoteStateVersions::is_uninitialized` -/
  isUninitialized : VoteStateVersions P.Address → Bool
  buildMemo : P.Address → List UInt8 → List P.Address → P.Instruction
  setAuthority : P.Address → P.Address → Option P.Address → TokenAuthorityType → P.Address →
    List P.Address → Except ProgramError P.Instruction
  /-- `authorize_checked` of the Stake Program. -/
  authorizeStake : P.Address → P.Address → P.Address → StakeAuthorize → Option P.Address →
    P.Instruction
  /-- `authorize_checked` of the Vote Program. -/
  authorizeVote : P.Address → P.Address → P.Address → VoteAuthorize → P.Instruction
  setUpgradeAuthorityChecked : P.Address → P.Address → P.Address → P.Instruction
  /-- The System Program's `transfer`. -/
  transfer : P.Address → P.Address → UInt64 → P.Instruction
  getAssociatedTokenAddress : P.Address → P.Address → P.Address → P.Address
  createAssociatedTokenAccountIdempotent : P.Address → P.Address → P.Address → P.Address →
    P.Instruction
  transferChecked : P.Address → P.Address → P.Address → P.Address → P.Address → List P.Address →
    UInt64 → UInt8 → Except ProgramError P.Instruction
  harvestWithheldTokensToMint : P.Address → P.Address → List P.Address →
    Except ProgramError P.Instruction
  closeAccount : P.Address → P.Address → P.Address → P.Address → List P.Address →
    Except ProgramError P.Instruction

/-- The configured keypair and the RPC node, as the `migrate` commands use them. -/
structure ChainClient (P : Platform) where
  configPubkey : Except Failure P.Address
  optionalAccount : P.Address → Except Failure (Option P.RawAccount)
  minimumBalanceForRentExemption : Nat → Except Failure UInt64
  clock : Except Failure Clock
  programAccounts : P.Address → List RpcFilter → Option DataSlice →
    Except Failure (List (P.Address × P.RawAccount))

variable {P : Platform}

namespace MigrateToolkit

variable (K : MigrateToolkit P)

/-- Documented behavior of the builders: the new authority, and whoever a memo names, must
sign. -/
structure ApprovalLaws : Prop where
  memo : ∀ program data signers, ∀ address ∈ signers,
    (K.buildMemo program data signers).grantsSigner address = true
  stake : ∀ account current new role custodian,
    (K.authorizeStake account current new role custodian).grantsSigner new = true
  vote : ∀ account current new role,
    (K.authorizeVote account current new role).grantsSigner new = true
  program : ∀ program current new,
    (K.setUpgradeAuthorityChecked program current new).grantsSigner new = true

/-- Documented behavior of compiling a v1 message: the fee payer is the first key, and every
instruction keeps its program, accounts and data. -/
structure CompileLaws : Prop where
  feePayer : ∀ feePayer instructions blockhash config message,
    K.tryCompileWithConfig feePayer instructions blockhash config = .ok message →
    message.accountKeys.head? = some feePayer
  instructions : ∀ feePayer instructions blockhash config message,
    K.tryCompileWithConfig feePayer instructions blockhash config = .ok message →
    List.Forall₂ (fun instruction entry =>
      message.accountKeys[entry.programIdIndex.toNat]? = some instruction.programId ∧
      entry.accounts.map (fun index => message.accountKeys[index.toNat]?) =
        instruction.accounts.map (fun account => some account.pubkey) ∧
      entry.data = instruction.data) instructions message.instructions

/-- Derived addresses are off the curve. -/
def DerivesOffCurve : Prop :=
  ∀ authority, K.isOnCurve (deriveAddress P.signerProgram authority) = false

end MigrateToolkit

namespace ChainClient

variable (K : MigrateToolkit P) (client : ChainClient P)

/-- Fetch an account that must exist. -/
def account (address : P.Address) (kind : String) : Except Failure P.RawAccount := do
  let found ← client.optionalAccount address
  okOr found [s!"{kind} {K.display address} was not found"]

def decodeStakeAccount (address : P.Address) (account : P.RawAccount) :
    Except Failure P.StakeState := do
  ensure (account.owner = K.stakeProgram)
    [s!"account {K.display address} is owned by {K.display account.owner}, not the Stake Program"]
  context s!"account {K.display address} contains invalid stake data"
    (K.deserializeStake account.data)

def decodeVoteAccount (address : P.Address) (account : P.RawAccount) :
    Except Failure (VoteStateVersions P.Address) := do
  ensure (account.owner = K.voteProgram)
    [s!"account {K.display address} is owned by {K.display account.owner}, not the Vote Program"]
  context s!"account {K.display address} contains invalid vote data"
    (K.deserializeVote account.data)

def decodeUpgradeableLoaderAccount (address : P.Address) (account : P.RawAccount) :
    Except Failure (LoaderState P.Address) := do
  ensure (account.owner = P.upgradeableLoader)
    [s!"account {K.display address} is owned by {K.display account.owner}, not the BPF " ++
      "Upgradeable Loader"]
  context s!"account {K.display address} contains invalid upgradeable loader data"
    (K.deserializeLoader account.data)

/-- A Token or Token-2022 mint, with the token program that owns it. -/
def decodeMint (address : P.Address) (account : P.RawAccount) :
    Except Failure (P.Address × P.Mint) := do
  let mint ← context s!"account {K.display address} is not a mint" (K.unpackMint account.data)
  return (account.owner, mint)

def stakeAccount (address : P.Address) : Except Failure P.StakeState := do
  let account ← client.account K address "stake account"
  decodeStakeAccount K address account

def voteAccount (address : P.Address) : Except Failure (VoteStateVersions P.Address) := do
  let account ← client.account K address "vote account"
  decodeVoteAccount K address account

def upgradeableLoaderAccount (address : P.Address) (kind : String) :
    Except Failure (LoaderState P.Address) := do
  let account ← client.account K address kind
  decodeUpgradeableLoaderAccount K address account

/-- An account that the System Program can transfer from. -/
def systemAccount (address : P.Address) : Except Failure P.RawAccount := do
  let account ← client.account K address "account"
  ensure (account.owner = default)
    [s!"account {K.display address} is owned by {K.display account.owner}, not the System Program"]
  ensure (account.data = [])
    [s!"account {K.display address} holds data, so the System Program can't transfer from it"]
  return account

/-- Owned by the Token or Token-2022 Program. -/
def tokenProgramAccount (address : P.Address) (kind : String) : Except Failure P.RawAccount := do
  let account ← client.account K address kind
  ensure (account.owner = K.tokenProgram ∨ account.owner = K.token2022Program)
    [s!"account {K.display address} is owned by {K.display account.owner}, not the Token or " ++
      "Token-2022 Program"]
  return account

def mint (address : P.Address) : Except Failure (P.Address × P.Mint) := do
  let account ← client.tokenProgramAccount K address "mint"
  decodeMint K address account

end ChainClient

end ProgrammaticSigner
