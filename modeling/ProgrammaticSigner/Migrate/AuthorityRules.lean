import ProgrammaticSigner.Library.Handover
import ProgrammaticSigner.Migrate.Transfers

set_option autoImplicit false

/- What the programs that a migration calls keep of authorities and balances, and their rules for
the instructions that move them. -/
namespace ProgrammaticSigner

variable {P : Platform}

/-- An authority over an account. One address holds it. -/
inductive AuthoritySeat (Address : Type) where
  | stake (account : Address) (role : StakeAuthorize)
  /-- The withdrawer of a vote account. -/
  | vote (account : Address)
  | mint (tokenProgram address : Address) (role : MintAuthorityType)
  /-- The upgrade authority of a program. -/
  | program (program : Address)
  deriving DecidableEq

structure AuthorityLedger (P : Platform) where
  /-- Initialized stake accounts. -/
  stake : P.Address → Option P.StakeMeta
  /-- The withdrawers of initialized vote accounts. -/
  vote : P.Address → Option P.Address
  /-- The mints of a token program. -/
  mint : P.Address → P.Address → Option P.Mint
  /-- The upgrade authorities of programs, by the program data that each program derives. -/
  program : P.Address → Option P.Address
  /-- Multisig accounts of a token program. -/
  isMultisig : P.Address → Bool
  lamports : P.Address → UInt64
  /-- System Program accounts without data. -/
  isPlain : P.Address → Bool

abbrev Platform.AuthoritySeat (P : Platform) := ProgrammaticSigner.AuthoritySeat P.Address

def StakeAuthorized.set (authorized : StakeAuthorized P.Address) (role : StakeAuthorize)
    (authority : P.Address) : StakeAuthorized P.Address :=
  match role with
  | .staker => { authorized with staker := authority }
  | .withdrawer => { authorized with withdrawer := authority }

def Mint.set (mint : P.Mint) (role : MintAuthorityType) (authority : P.Address) : P.Mint :=
  match role with
  | .mint => { mint with mintAuthority := some authority }
  | .freeze => { mint with freezeAuthority := some authority }

namespace AuthorityLedger

variable (ledger : AuthorityLedger P)

def holder : P.AuthoritySeat → Option P.Address
  | .stake account role =>
      (ledger.stake account).map fun info => MigrateStake.currentAuthority info.authorized role
  | .vote account => ledger.vote account
  | .mint tokenProgram address role =>
      (ledger.mint tokenProgram address).bind fun mint => MigrateMint.currentAuthority mint role
  | .program program => ledger.program program

def pass (seat : P.AuthoritySeat) (authority : P.Address) : AuthorityLedger P :=
  match seat with
  | .stake account role =>
      { ledger with stake := Function.update ledger.stake account ((ledger.stake account).map
          fun info => { info with authorized := info.authorized.set role authority }) }
  | .vote account => { ledger with vote := Function.update ledger.vote account (some authority) }
  | .mint tokenProgram address role =>
      let mints := Function.update (ledger.mint tokenProgram) address
        ((ledger.mint tokenProgram address).map fun mint => mint.set role authority)
      { ledger with mint := Function.update ledger.mint tokenProgram mints }
  | .program program =>
      { ledger with program := Function.update ledger.program program (some authority) }

/-- The System Program's transfer. -/
def transfer (source destination : P.Address) (lamports : UInt64) : AuthorityLedger P :=
  { ledger with lamports := Function.update (Function.update ledger.lamports source
      (ledger.lamports source - lamports)) destination (ledger.lamports destination + lamports) }

/-- A client reads a ledger: the authorities and balances it reads are there. -/
structure ReadBy (K : MigrateToolkit P) (client : ChainClient P) : Prop where
  stake : ∀ address state info, client.stakeAccount K address = .ok state →
    state.stakeMeta = some info → ledger.stake address = some info
  vote : ∀ address state withdrawer, client.voteAccount K address = .ok state →
    MigrateVote.authorizedWithdrawer K state address = .ok withdrawer →
    ledger.vote address = some withdrawer
  mint : ∀ address tokenProgram mint, client.mint K address = .ok (tokenProgram, mint) →
    ledger.mint tokenProgram address = some mint ∧
      ∀ other, other ≠ tokenProgram → ledger.mint other address = none
  program : ∀ program programdataAddress slot authority,
    client.upgradeableLoaderAccount K program "program" = .ok (.program programdataAddress) →
    client.upgradeableLoaderAccount K programdataAddress "program data account" =
      .ok (.programData slot (some authority)) →
    ledger.program program = some authority
  plain : ∀ address account, client.systemAccount K address = .ok account →
    ledger.isPlain address = true
  lamports : ∀ address found, client.optionalAccount address = .ok found →
    ledger.lamports address = found.elim 0 RawAccount.lamports

/-- No two accounts hold more than the supply. -/
def Bounded : Prop :=
  ∀ first second, first ≠ second →
    (ledger.lamports first).toNat + (ledger.lamports second).toNat < 2 ^ 64

end AuthorityLedger

/-- What a client reads, where no account is a multisig. -/
def ChainClient.authorities (K : MigrateToolkit P) (client : ChainClient P) :
    AuthorityLedger P where
  stake address := (client.stakeAccount K address).toOption.bind StakeState.stakeMeta
  vote address := (client.voteAccount K address).toOption.bind fun state =>
    (MigrateVote.authorizedWithdrawer K state address).toOption
  mint tokenProgram address := (client.mint K address).toOption.bind fun found =>
    if found.1 = tokenProgram then some found.2 else none
  program program := match client.upgradeableLoaderAccount K program "program" with
    | .ok (.program programdataAddress) =>
        match client.upgradeableLoaderAccount K programdataAddress "program data account" with
        | .ok (.programData _ authority) => authority
        | _ => none
    | _ => none
  isMultisig _ := false
  lamports address := (client.optionalAccount address).toOption.elim 0
    fun found => found.elim 0 RawAccount.lamports
  isPlain address := (client.systemAccount K address).isOk

theorem ChainClient.authorities_readBy (K : MigrateToolkit P) (client : ChainClient P) :
    (client.authorities K).ReadBy K client where
  stake address state info read initialized := by
    simp only [authorities, read]
    exact initialized
  vote address state withdrawer read authorized := by
    simp only [authorities, read]
    exact congrArg Except.toOption authorized
  mint address tokenProgram mint read := by
    simp only [authorities, read]
    exact ⟨if_pos rfl, fun other differ => if_neg differ.symm⟩
  program program programdataAddress slot authority points holds := by
    simp only [authorities, points, holds]
  plain address account read := by
    simp only [authorities, read]
    rfl
  lamports address found read := by
    simp only [authorities, read]
    rfl

/-- When instructions run: what the clock shows, and whether rewards of the last epoch are still
being distributed. -/
structure Moment where
  clock : Clock
  epochRewardsActive : Bool
  deriving DecidableEq

/-- No later in time and in epochs. -/
structure Clock.Before (clock later : Clock) : Prop where
  unixTimestamp : clock.unixTimestamp ≤ later.unixTimestamp
  epoch : clock.epoch ≤ later.epoch

/-- `Lockup::is_in_force`, as documented: both its time and its epoch must have come, unless the
custodian signs. -/
def MigrateToolkit.LocksUp (K : MigrateToolkit P) : Prop :=
  ∀ (lockup : StakeLockup P.Address) clock custodian,
    K.isInForce lockup clock custodian = true ↔ custodian ≠ some lockup.custodian ∧
      (clock.unixTimestamp < lockup.unixTimestamp ∨ clock.epoch < lockup.epoch)

/-- How authorities are handed over at some time, with a lockup custodian or without: a
withdrawer in force of a lockup needs its custodian, and a multisig cannot sign alone. The Stake
Program takes no instruction while rewards are distributed. -/
def authoritySeating (K : MigrateToolkit P) (now : Moment) (custodian : Option P.Address) :
    Seating (AuthorityLedger P) P.AuthoritySeat P.Address where
  holder := AuthorityLedger.holder
  pass := AuthorityLedger.pass
  allows ledger
    | .stake _ .staker => now.epochRewardsActive = false
    | .stake account .withdrawer => now.epochRewardsActive = false ∧
        ∀ info ∈ ledger.stake account, K.isInForce info.lockup now.clock none = true →
          ∃ signer ∈ custodian, K.isInForce info.lockup now.clock (some signer) = false
    | .mint tokenProgram address role =>
        ∀ current ∈ ledger.holder (.mint tokenProgram address role),
          ledger.isMultisig current = false
    | _ => True

instance (K : MigrateToolkit P) (now : Moment) (custodian : Option P.Address)
    (ledger : AuthorityLedger P) (seat : P.AuthoritySeat) :
    Decidable ((authoritySeating K now custodian).allows ledger seat) :=
  match seat with
  | .stake _ .staker => inferInstanceAs (Decidable (now.epochRewardsActive = false))
  | .stake account .withdrawer => inferInstanceAs (Decidable (now.epochRewardsActive = false ∧
      ∀ info ∈ ledger.stake account, K.isInForce info.lockup now.clock none = true →
        ∃ signer ∈ custodian, K.isInForce info.lockup now.clock (some signer) = false))
  | .vote _ => .isTrue trivial
  | .mint tokenProgram address role => inferInstanceAs (Decidable (∀ current ∈
      ledger.holder (.mint tokenProgram address role), ledger.isMultisig current = false))
  | .program _ => .isTrue trivial

/-- The programs that run a migration's instructions, at some time. -/
structure AuthorityRuntime (P : Platform) where
  invoke : Moment → AuthorityLedger P → P.Instruction → Except ProgramError (AuthorityLedger P)

namespace AuthorityRuntime

variable (runtime : AuthorityRuntime P)

def runAll (now : Moment) (ledger : AuthorityLedger P) (instructions : List P.Instruction) :
    Except ProgramError (AuthorityLedger P) :=
  instructions.foldlM (runtime.invoke now) ledger

/-- Documented behavior of the Stake, Vote, Token, BPF Loader, System and Memo Programs, where
everyone who must sign does. -/
structure Laws (K : MigrateToolkit P) : Prop where
  stake : ∀ now account current authority role custodian,
    (authoritySeating K now custodian).Carries (runtime.invoke now) authority
      (.stake account role, current) (K.authorizeStake account current authority role custodian)
  vote : ∀ now account current authority,
    (authoritySeating K now none).Carries (runtime.invoke now) authority (.vote account, current)
      (K.authorizeVote account current authority .withdrawer)
  mint : ∀ now tokenProgram address current authority role instruction,
    K.setAuthority tokenProgram address (some authority) (MigrateMint.tokenAuthorityType role)
      current [] = .ok instruction →
    (authoritySeating K now none).Carries (runtime.invoke now) authority
      (.mint tokenProgram address role, current) instruction
  program : ∀ now program current authority,
    (authoritySeating K now none).Carries (runtime.invoke now) authority
      (.program program, current) (K.setUpgradeAuthorityChecked program current authority)
  transfer : ∀ now (ledger : AuthorityLedger P) source destination lamports after,
    source ≠ destination →
    (runtime.invoke now ledger (K.transfer source destination lamports) = .ok after ↔
      ledger.isPlain source = true ∧ lamports ≤ ledger.lamports source ∧
        (ledger.lamports destination).toNat + lamports.toNat < 2 ^ 64 ∧
        after = ledger.transfer source destination lamports)
  memo : ∀ now (ledger : AuthorityLedger P) text signers after,
    runtime.invoke now ledger (K.buildMemo K.memoProgram (asciiBytes text) signers) =
      .ok after ↔ after = ledger

end AuthorityRuntime

section Seats

@[simp] theorem StakeAuthorized.currentAuthority_set (authorized : StakeAuthorized P.Address)
    (role other : StakeAuthorize) (authority : P.Address) :
    MigrateStake.currentAuthority (authorized.set role authority) other =
      if other = role then authority else MigrateStake.currentAuthority authorized other := by
  cases role <;> cases other <;> rfl

@[simp] theorem Mint.currentAuthority_set (mint : P.Mint) (role other : MintAuthorityType)
    (authority : P.Address) : MigrateMint.currentAuthority (mint.set role authority) other =
      if other = role then some authority else MigrateMint.currentAuthority mint other := by
  cases role <;> cases other <;> rfl

theorem AuthorityLedger.holder_pass_self {ledger : AuthorityLedger P} {seat : P.AuthoritySeat}
    {authority : P.Address} (held : (ledger.holder seat).isSome = true) :
    (ledger.pass seat authority).holder seat = some authority := by
  cases seat with
  | stake account role =>
      obtain ⟨info, here⟩ := Option.isSome_iff_exists.mp (Option.isSome_map ▸ held)
      simp [holder, pass, here]
  | vote account => simp [holder, pass]
  | mint tokenProgram address role =>
      obtain ⟨current, held⟩ := Option.isSome_iff_exists.mp held
      obtain ⟨mint, here, -⟩ := Option.bind_eq_some_iff.mp held
      simp [holder, pass, here]
  | program program => simp [holder, pass]

theorem AuthorityLedger.holder_pass_other {ledger : AuthorityLedger P}
    {seat other : P.AuthoritySeat} {authority : P.Address} (differ : other ≠ seat) :
    (ledger.pass seat authority).holder other = ledger.holder other := by
  cases seat with
  | stake account role =>
      cases other with
      | stake account' role' =>
          by_cases same : account' = account
          · obtain rfl := same
            have apart : role' ≠ role := fun same => differ (by rw [same])
            simp [holder, pass, apart, Function.comp_def]
          · simp [holder, pass, same]
      | vote | mint | program => rfl
  | vote account =>
      cases other with
      | vote account' =>
          have apart : account' ≠ account := fun same => differ (by rw [same])
          simp [holder, pass, apart]
      | stake | mint | program => rfl
  | mint tokenProgram address role =>
      cases other with
      | mint tokenProgram' address' role' =>
          by_cases program : tokenProgram' = tokenProgram
          · obtain rfl := program
            by_cases same : address' = address
            · obtain rfl := same
              have apart : role' ≠ role := fun same => differ (by rw [same])
              cases found : ledger.mint tokenProgram' address' with
              | none => simp [holder, pass, found]
              | some mint => simp [holder, pass, found, apart]
            · simp [holder, pass, same]
          · simp [holder, pass, program]
      | stake | vote | program => rfl
  | program program =>
      cases other with
      | program program' =>
          have apart : program' ≠ program := fun same => differ (by rw [same])
          simp [holder, pass, apart]
      | stake | vote | mint => rfl

/-- A handover keeps the lockup of every stake account. -/
theorem AuthorityLedger.lockup_pass (ledger : AuthorityLedger P) (seat : P.AuthoritySeat)
    (authority account : P.Address) :
    ((ledger.pass seat authority).stake account).map StakeMeta.lockup =
      (ledger.stake account).map StakeMeta.lockup := by
  cases seat with
  | stake account' role =>
      by_cases same : account = account'
      · simp [pass, same, Function.comp_def]
      · simp [pass, same]
  | vote | mint | program => rfl

@[simp] theorem AuthorityLedger.isMultisig_pass (ledger : AuthorityLedger P)
    (seat : P.AuthoritySeat) (authority : P.Address) :
    (ledger.pass seat authority).isMultisig = ledger.isMultisig := by
  cases seat <;> rfl

theorem authoritySeating_lawful (K : MigrateToolkit P) (now : Moment)
    (custodian : Option P.Address) : (authoritySeating K now custodian).Lawful where
  pass_self _ _ _ held := AuthorityLedger.holder_pass_self held
  pass_other _ _ _ _ differ := AuthorityLedger.holder_pass_other differ
  allows_other ledger seat other authority differ := by
    cases other with
    | stake account role =>
        cases role with
        | staker => exact Iff.rfl
        | withdrawer =>
            have kept := ledger.lockup_pass seat authority account
            simp only [authoritySeating]
            cases before : ledger.stake account <;>
              cases after : (ledger.pass seat authority).stake account <;>
              simp_all
    | vote | program => exact Iff.rfl
    | mint tokenProgram address role =>
        simp only [authoritySeating, AuthorityLedger.holder_pass_other differ,
          AuthorityLedger.isMultisig_pass]

end Seats

end ProgrammaticSigner
