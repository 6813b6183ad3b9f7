import ProgrammaticSigner.Migrate.Toolkit

set_option autoImplicit false

/- `migrate mint`, `stake`, `vote` and `program`: execution messages that move authorities
to a programmatic signer. -/
namespace ProgrammaticSigner

open Outcome

variable {P : Platform}

/-- An off-curve signer, which a signing pubkey promotes. -/
structure PromotedSigner where
  programmaticSigner : Text
  signerPubkey : Option Text
  deriving DecidableEq

structure RequiredSigners where
  authorizations : List PromotedSigner
  forwardedSigners : List Text
  deriving DecidableEq

/-- What every migration reports. -/
structure MigrationOutput where
  newAuthority : Text
  newAuthoritySigningPubkey : Text
  requiredSigners : RequiredSigners
  executionMessage : Text
  deriving DecidableEq

namespace Migrate

variable (K : MigrateToolkit P)

/-- The programmatic signer that becomes the new authority. -/
def newOwnerProgrammaticSigner (newAuthoritySigningPubkey : P.Address) :
    Except Failure P.Address := do
  ensure (K.isOnCurve newAuthoritySigningPubkey = true)
    [s!"new authority signing pubkey {K.display newAuthoritySigningPubkey} is not an on-curve " ++
      "address. Pass the signing pubkey, not its programmatic signer"]
  return deriveAddress P.signerProgram newAuthoritySigningPubkey

/-- The current authority, as the new one's signing pubkey. -/
def defaultNewAuthority (currentName : String) (current : P.Address) :
    Except Failure P.Address := do
  ensure (K.isOnCurve current = true)
    [s!"{currentName} is {K.display current}, which is not an on-curve address, so it can't be " ++
      "the default new authority signing pubkey. Pass --new-authority-signing-pubkey"]
  return current

/-- The signing pubkey that was given, or else the default. -/
def signingPubkey (given : Option P.Address) (fallback : Except Failure P.Address) :
    Except Failure P.Address :=
  match given with
  | some newAuthoritySigningPubkey => .ok newAuthoritySigningPubkey
  | none => fallback

/-- Compile the execution message of a migration to a programmatic signer, which pays no fee
but is its first signer. -/
def executionMessage (newOwner : P.Address) (instructions : List P.Instruction) :
    Except Failure P.Message := do
  let message ← context "failed to compile execution message"
    ((K.tryCompileWithConfig newOwner instructions default default).mapError
      fun reason => [K.describeCompile reason])
  context "invalid execution message"
    ((P.validate message).mapError fun reason => [K.describeMessage reason])
  return message

/-- `RequiredSigners::new` -/
def requiredSigners (executionMessage : P.Message) (knownSignerPubkeys : List P.Address) :
    RequiredSigners :=
  let signers := executionMessage.signerKeys
  { authorizations := (signers.filter fun address => !K.isOnCurve address).map
      fun programmaticSigner =>
        ⟨K.showAddress programmaticSigner, (knownSignerPubkeys.find? fun signerPubkey =>
          deriveAddress P.signerProgram signerPubkey = programmaticSigner).map K.showAddress⟩
    forwardedSigners := (signers.filter fun address => K.isOnCurve address).map K.showAddress }

def output (newOwner newAuthoritySigningPubkey : P.Address) (executionMessage : P.Message) :
    MigrationOutput :=
  ⟨K.showAddress newOwner, K.showAddress newAuthoritySigningPubkey,
    requiredSigners K executionMessage [newAuthoritySigningPubkey],
    K.encodeBase64 (Platform.serializeV1 executionMessage)⟩

variable {K}

theorem newOwnerProgrammaticSigner_ok_iff {signingPubkey newOwner : P.Address} :
    newOwnerProgrammaticSigner K signingPubkey = .ok newOwner ↔
      K.isOnCurve signingPubkey = true ∧ deriveAddress P.signerProgram signingPubkey = newOwner := by
  simp only [newOwnerProgrammaticSigner, bind_unit_ok_iff, ensure_ok_iff, pure_ok_iff]

theorem executionMessage_ok_iff {newOwner : P.Address} {instructions : List P.Instruction}
    {message : P.Message} :
    executionMessage K newOwner instructions = .ok message ↔
      K.tryCompileWithConfig newOwner instructions default default = .ok message ∧
        P.validate message = .ok () := by
  simp only [executionMessage, bind_ok_iff, context_ok_iff, mapError_ok_iff, pure_ok_iff]
  constructor
  · intro built
    obtain ⟨found, compiled, _, valid, same⟩ := built
    subst same
    exact ⟨compiled, valid⟩
  · intro built
    exact ⟨message, built.1, (), built.2, rfl⟩

end Migrate

/-- An authority that `migrate mint` can move. -/
inductive MintAuthorityType where
  | mint
  | freeze
  deriving DecidableEq

structure MintCommand (P : Platform) where
  mint : P.Address
  newAuthoritySigningPubkey : Option P.Address
  authorityType : Option MintAuthorityType

structure MintMigrationOutput extends MigrationOutput where
  mint : Text
  tokenProgram : Text
  authorityTypes : List Text
  unsetAuthorityTypes : List Text
  deriving DecidableEq

def MintAuthorityType.name : MintAuthorityType → String
  | mint => "mint"
  | freeze => "freeze"

namespace MigrateMint

def tokenAuthorityType : MintAuthorityType → TokenAuthorityType
  | .mint => .mintTokens
  | .freeze => .freezeAccount

def currentAuthority (mint : P.Mint) : MintAuthorityType → Option P.Address
  | .mint => mint.mintAuthority
  | .freeze => mint.freezeAuthority

/-- The roles to move, and those that are not set and so can never be. -/
def roles (mint : P.Mint) : Option MintAuthorityType →
    List MintAuthorityType × List MintAuthorityType
  | none => [MintAuthorityType.mint, .freeze].partition
      fun role => (currentAuthority mint role).isSome
  | some role => ([role], [])

variable (K : MigrateToolkit P) (client : ChainClient P) (command : MintCommand P)

def currentAuthorities (mint : P.Mint) (roles : List MintAuthorityType) :
    Except Failure (List P.Address) :=
  roles.mapM fun role => okOr (currentAuthority mint role)
    [s!"mint {K.display command.mint} has no {role.name} authority"]

/-- The authorities being moved must share one to default to it. -/
def defaultMintAuthority (currentAuthorities : List P.Address) : Except Failure P.Address := do
  -- There is a role, so there is a first authority.
  let current := currentAuthorities.headD default
  ensure (∀ authority ∈ currentAuthorities, authority = current)
    [s!"the mint authority {K.display current} and freeze authority " ++
      s!"{K.display (currentAuthorities.getD 1 default)} of mint {K.display command.mint} " ++
      "differ, so neither can be the default new authority signing pubkey. Pass " ++
      "--new-authority-signing-pubkey, or move one with --authority-type"]
  Migrate.defaultNewAuthority K s!"the current authority of mint {K.display command.mint}" current

/-- `SetAuthority` for one role. -/
def setAuthority (tokenProgram newOwner : P.Address) (role : MintAuthorityType)
    (current : P.Address) : Except Failure P.Instruction := do
  ensure (current ≠ newOwner)
    [s!"the {role.name} authority of mint {K.display command.mint} is already " ++
      s!"{K.display newOwner}"]
  context "failed to build set authority instruction"
    ((K.setAuthority tokenProgram command.mint (some newOwner) (tokenAuthorityType role) current
      []).mapError fun reason => [K.describeProgram reason])

def memo (roles : List MintAuthorityType) (newOwner : P.Address) : String :=
  let names := " and ".intercalate (roles.map MintAuthorityType.name)
  s!"migrate {names} authority to {K.display newOwner}"

/-- The authorities are moved without the new one, so a memo makes it sign. -/
def instructions (tokenProgram newOwner : P.Address) (roles : List MintAuthorityType)
    (currentAuthorities : List P.Address) : Except Failure (List P.Instruction) := do
  let moves ← (roles.zip currentAuthorities).mapM fun entry =>
    setAuthority K command tokenProgram newOwner entry.1 entry.2
  return moves ++ [K.buildMemo K.memoProgram (asciiBytes (memo K roles newOwner)) [newOwner]]

/-- The run once the authorities and the new owner are settled. -/
def finish (tokenProgram : P.Address) (roles unset : List MintAuthorityType)
    (currentAuthorities : List P.Address) (newAuthoritySigningPubkey newOwner : P.Address) :
    Except Failure MintMigrationOutput := do
  let instructions ← instructions K command tokenProgram newOwner roles currentAuthorities
  let executionMessage ← Migrate.executionMessage K newOwner instructions
  return { Migrate.output K newOwner newAuthoritySigningPubkey executionMessage with
    mint := K.showAddress command.mint
    tokenProgram := K.showAddress tokenProgram
    authorityTypes := roles.map fun role => role.name.toList
    unsetAuthorityTypes := unset.map fun role => role.name.toList }

def run : Except Failure MintMigrationOutput := do
  let found ← client.mint K command.mint
  let tokenProgram := found.1
  let mint := found.2
  let roles := (MigrateMint.roles mint command.authorityType).1
  let unset := (MigrateMint.roles mint command.authorityType).2
  ensure (roles ≠ []) [s!"mint {K.display command.mint} has no mint or freeze authority"]
  let currentAuthorities ← currentAuthorities K command mint roles
  let newAuthoritySigningPubkey ← Migrate.signingPubkey command.newAuthoritySigningPubkey
    (defaultMintAuthority K command currentAuthorities)
  let newOwner ← Migrate.newOwnerProgrammaticSigner K newAuthoritySigningPubkey
  finish K command tokenProgram roles unset currentAuthorities newAuthoritySigningPubkey newOwner

end MigrateMint

/-- An authority that `migrate stake` can move. -/
inductive StakeAuthorityType where
  | staker
  | withdrawer
  deriving DecidableEq

structure StakeCommand (P : Platform) where
  stakeAccount : P.Address
  newAuthoritySigningPubkey : Option P.Address
  authorityType : Option StakeAuthorityType

structure StakeMigrationOutput extends MigrationOutput where
  stakeAccount : Text
  authorityTypes : List Text
  custodian : Option Text
  deriving DecidableEq

namespace MigrateStake

def currentAuthority (authorized : StakeAuthorized P.Address) : StakeAuthorize → P.Address
  | .staker => authorized.staker
  | .withdrawer => authorized.withdrawer

def roleName : StakeAuthorize → String
  | .staker => "staker"
  | .withdrawer => "withdrawer"

def roles : Option StakeAuthorityType → List StakeAuthorize
  | none => [.staker, .withdrawer]
  | some .staker => [.staker]
  | some .withdrawer => [.withdrawer]

variable (K : MigrateToolkit P) (client : ChainClient P) (command : StakeCommand P)

/-- The roles being moved must share their authority to default to it. -/
def defaultStakeAuthority (authorized : StakeAuthorized P.Address) (roles : List StakeAuthorize) :
    Except Failure P.Address := do
  let current := currentAuthority authorized (roles.headD .staker)
  ensure (∀ role ∈ roles, currentAuthority authorized role = current)
    [s!"the staker {K.display authorized.staker} and withdrawer " ++
      s!"{K.display authorized.withdrawer} of stake account {K.display command.stakeAccount} " ++
      "differ, so neither can be the default new authority signing pubkey. Pass " ++
      "--new-authority-signing-pubkey, or move one with --authority-type"]
  Migrate.defaultNewAuthority K
    s!"the current authority of stake account {K.display command.stakeAccount}" current

/-- Changing the withdrawer during a lockup also needs the custodian. -/
def custodian (lockup : StakeLockup P.Address) (roles : List StakeAuthorize) :
    Except Failure (Option P.Address) :=
  if StakeAuthorize.withdrawer ∈ roles then do
    let clock ← client.clock
    return if K.isInForce lockup clock none then some lockup.custodian else none
  else .ok none

/-- `AuthorizeChecked` for one role. -/
def authorize (authorized : StakeAuthorized P.Address) (custodian : Option P.Address)
    (newOwner : P.Address) (role : StakeAuthorize) : Except Failure P.Instruction := do
  let current := currentAuthority authorized role
  let custodian := match role with
    | .staker => none
    | .withdrawer => custodian
  ensure (current ≠ newOwner)
    [s!"the {roleName role} of stake account {K.display command.stakeAccount} is already " ++
      s!"{K.display newOwner}"]
  return K.authorizeStake command.stakeAccount current newOwner role custodian

/-- The run once the authorities and the new owner are settled. -/
def finish (info : P.StakeMeta) (roles : List StakeAuthorize)
    (newAuthoritySigningPubkey newOwner : P.Address) : Except Failure StakeMigrationOutput := do
  let custodian ← custodian K client info.lockup roles
  let instructions ← roles.mapM (authorize K command info.authorized custodian newOwner)
  let executionMessage ← Migrate.executionMessage K newOwner instructions
  return { Migrate.output K newOwner newAuthoritySigningPubkey executionMessage with
    stakeAccount := K.showAddress command.stakeAccount
    authorityTypes := roles.map fun role => (roleName role).toList
    custodian := custodian.map K.showAddress }

def run : Except Failure StakeMigrationOutput := do
  let state ← client.stakeAccount K command.stakeAccount
  let info ← okOr state.stakeMeta
    [s!"stake account {K.display command.stakeAccount} is not initialized"]
  let roles := MigrateStake.roles command.authorityType
  let newAuthoritySigningPubkey ← Migrate.signingPubkey command.newAuthoritySigningPubkey
    (defaultStakeAuthority K command info.authorized roles)
  let newOwner ← Migrate.newOwnerProgrammaticSigner K newAuthoritySigningPubkey
  finish K client command info roles newAuthoritySigningPubkey newOwner

end MigrateStake

structure VoteCommand (P : Platform) where
  voteAccount : P.Address
  newAuthoritySigningPubkey : Option P.Address

structure VoteMigrationOutput extends MigrationOutput where
  voteAccount : Text
  deriving DecidableEq

namespace MigrateVote

variable (K : MigrateToolkit P) (client : ChainClient P) (command : VoteCommand P)

def authorizedWithdrawer (state : VoteStateVersions P.Address) (voteAccount : P.Address) :
    Except Failure P.Address :=
  if K.isUninitialized state then
    .error [s!"vote account {K.display voteAccount} is not initialized"]
  else
    match state with
    -- `unreachable!`, which ends the run.
    | .uninitialized => .error ["internal error: entered unreachable code: checked above"]
    | .v1_14_11 state => .ok state.authorizedWithdrawer
    | .v3 state => .ok state.authorizedWithdrawer
    | .v4 state => .ok state.authorizedWithdrawer

def run : Except Failure VoteMigrationOutput := do
  let state ← client.voteAccount K command.voteAccount
  let withdrawer ← authorizedWithdrawer K state command.voteAccount
  let newAuthoritySigningPubkey ← Migrate.signingPubkey command.newAuthoritySigningPubkey
    (Migrate.defaultNewAuthority K
      s!"the withdrawer of vote account {K.display command.voteAccount}" withdrawer)
  let newOwner ← Migrate.newOwnerProgrammaticSigner K newAuthoritySigningPubkey
  ensure (withdrawer ≠ newOwner)
    [s!"the withdrawer of vote account {K.display command.voteAccount} is already " ++
      s!"{K.display newOwner}"]
  let instruction := K.authorizeVote command.voteAccount withdrawer newOwner .withdrawer
  let executionMessage ← Migrate.executionMessage K newOwner [instruction]
  return { Migrate.output K newOwner newAuthoritySigningPubkey executionMessage with
    voteAccount := K.showAddress command.voteAccount }

end MigrateVote

structure ProgramCommand (P : Platform) where
  program : P.Address
  newAuthoritySigningPubkey : Option P.Address

structure ProgramMigrationOutput extends MigrationOutput where
  program : Text
  programData : Text
  deriving DecidableEq

namespace MigrateProgram

variable (K : MigrateToolkit P) (client : ChainClient P) (command : ProgramCommand P)

/-- The program data account that a program points to. -/
def programdataAddress : Except Failure P.Address := do
  let state ← client.upgradeableLoaderAccount K command.program "program"
  match state with
  | .program programdataAddress => return programdataAddress
  | _ => throw [s!"account {K.display command.program} is not a program. Pass the program " ++
      "address, not its program data or a buffer"]

def upgradeAuthority (programdataAddress : P.Address) : Except Failure P.Address := do
  let state ← client.upgradeableLoaderAccount K programdataAddress "program data account"
  let immutable := s!"program {K.display command.program} is immutable, it has no upgrade authority"
  match state with
  | .programData _ upgradeAuthorityAddress => okOr upgradeAuthorityAddress [immutable]
  | _ => throw [s!"account {K.display programdataAddress} is not program data"]

def run : Except Failure ProgramMigrationOutput := do
  let programdataAddress ← MigrateProgram.programdataAddress K client command
  let upgradeAuthority ← MigrateProgram.upgradeAuthority K client command programdataAddress
  let newAuthoritySigningPubkey ← Migrate.signingPubkey command.newAuthoritySigningPubkey
    (Migrate.defaultNewAuthority K
      s!"the upgrade authority of program {K.display command.program}" upgradeAuthority)
  let newOwner ← Migrate.newOwnerProgrammaticSigner K newAuthoritySigningPubkey
  ensure (upgradeAuthority ≠ newOwner)
    [s!"the upgrade authority of program {K.display command.program} is already " ++
      s!"{K.display newOwner}"]
  let instruction := K.setUpgradeAuthorityChecked command.program upgradeAuthority newOwner
  let executionMessage ← Migrate.executionMessage K newOwner [instruction]
  return { Migrate.output K newOwner newAuthoritySigningPubkey executionMessage with
    program := K.showAddress command.program
    programData := K.showAddress programdataAddress }

end MigrateProgram

end ProgrammaticSigner
