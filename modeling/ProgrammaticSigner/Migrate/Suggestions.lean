import ProgrammaticSigner.Migrate.Reference
import ProgrammaticSigner.Migrate.ScanLists
import ProgrammaticSigner.Signer.Submission

set_option autoImplicit false

/- The commands that `migrate scan` suggests read back as they were meant, and run up to the
instructions for just the roles that were listed. -/
namespace ProgrammaticSigner

open Outcome

variable {P : Platform}

/-- An address is a word on a command line, and not an option. The line is read as documented. -/
structure MigrateToolkit.WordLaws (K : MigrateToolkit P) : Prop where
  address : ∀ address, Arguments.IsWord (K.showAddress address) ∧ '-' ∉ K.showAddress address
  commandLine : K.commandLine.Laws

namespace MigrateScan

variable {K : MigrateToolkit P} {client : ChainClient P} {snapshot : P.Snapshot}

section Words

theorem isOption_showAddress (words : K.WordLaws) (address : P.Address) :
    Arguments.isOption (K.showAddress address) = false := by
  refine decide_eq_false fun starts => (words.address address).2 ?_
  exact List.mem_of_mem_head? starts

/-- The options of a suggestion. -/
def suggestedOptions (K : MigrateToolkit P) (signingPubkey : Option P.Address)
    (role : Option String) : List (Text × Text) :=
  (signingPubkey.map fun address =>
      ("--new-authority-signing-pubkey".toList, K.showAddress address)).toList ++
    (role.map fun name => ("--authority-type".toList, name.toList)).toList

/-- A single role, which a suggestion names. -/
def singleRole {Role : Type} : List Role → Option Role
  | [role] => some role
  | _ => none

theorem roleArgs_eq {Role : Type} (name : Role → String) (roles : List Role) :
    roleArgs name roles = Arguments.optionWords
      (((singleRole roles).map name).map fun name =>
        ("--authority-type".toList, name.toList)).toList := by
  rcases roles with _ | ⟨role, _ | ⟨next, rest⟩⟩ <;> rfl

/-- An explicit new authority is named. An on-curve owner is the default. -/
theorem newAuthorityArgs_ok {command : ScanCommand P} {args : List Text}
    (known : command.newAuthoritySigningPubkey ≠ none ∨ K.isOnCurve command.owner = true)
    (named : newAuthorityArgs K command = .ok args) :
    args = Arguments.optionWords (command.newAuthoritySigningPubkey.map fun address =>
      ("--new-authority-signing-pubkey".toList, K.showAddress address)).toList := by
  unfold newAuthorityArgs at named
  split at named
  · rename_i signingPubkey given
    simp only [bind_ok_iff, pure_ok_iff] at named
    obtain ⟨newOwner, -, _, -, rfl⟩ := named
    rw [given]
    rfl
  · rename_i absent
    have curve : K.isOnCurve command.owner = true := known.resolve_left fun given => given absent
    rw [if_pos curve] at named
    obtain rfl := Except.ok.inj named
    rw [absent]
    rfl

theorem suggestedOptions_well (words : K.WordLaws) {signingPubkey : Option P.Address}
    {role : Option String} (plain : ∀ name ∈ role, Arguments.isOption name.toList = false) :
    Arguments.WellSorted (suggestedOptions K signingPubkey role) := by
  simp only [Arguments.WellSorted, suggestedOptions, List.mem_append, Option.mem_toList,
    Option.map_eq_some_iff]
  intro option among
  rcases among with named | named
  · obtain ⟨address, -, rfl⟩ := named
    exact ⟨rfl, isOption_showAddress words address⟩
  · obtain ⟨name, given, rfl⟩ := named
    exact ⟨rfl, plain name given⟩

theorem suggestedOptions_takes (account : Text) (signingPubkey : Option P.Address)
    (role : Option String) : (⟨[account], suggestedOptions K signingPubkey role⟩ : Arguments).Takes
      ["--new-authority-signing-pubkey", "--authority-type"] := by
  cases signingPubkey <;> cases role <;> simp [Arguments.Takes, suggestedOptions]

theorem lookup_signingPubkey (signingPubkey : Option P.Address) (role : Option String) :
    (suggestedOptions K signingPubkey role).lookup "--new-authority-signing-pubkey".toList =
      signingPubkey.map K.showAddress := by
  cases signingPubkey <;> cases role <;> simp [suggestedOptions]

theorem lookup_authorityType (signingPubkey : Option P.Address) (role : Option String) :
    (suggestedOptions K signingPubkey role).lookup "--authority-type".toList =
      role.map String.toList := by
  cases signingPubkey <;> cases role <;> simp [suggestedOptions, List.lookup]

/-- The options of a suggestion read back as the new authority and the role. -/
theorem parseArguments_suggested (text : K.TextLaws) {Role : Type} {parseRole : Text → Option Role}
    {role : Option String} {parsed : Option Role}
    (named : (role.map String.toList).mapM parseRole = some parsed) (account : P.Address)
    (signingPubkey : Option P.Address) :
    parseArguments K parseRole ⟨[K.showAddress account], suggestedOptions K signingPubkey role⟩ =
      some (account, signingPubkey, parsed) := by
  have addressed (address : P.Address) :
      (K.parseAddress (K.showAddress address)).toOption = some address := by
    rw [text.address]
    rfl
  have signing : (signingPubkey.map K.showAddress).mapM
      (fun word => (K.parseAddress word).toOption) = some signingPubkey := by
    cases signingPubkey with
    | none => rfl
    | some address => simp [addressed]
  simp only [parseArguments, if_pos (suggestedOptions_takes _ signingPubkey role), addressed,
    Arguments.value, lookup_signingPubkey, lookup_authorityType, signing, named]
  rfl

theorem intercalate_words (program migrate first : Text) (args : List Text) :
    program ++ ([' '] ++ (migrate ++ [' '])) ++ [' '].intercalate (first :: args) =
      [' '].intercalate (program :: migrate :: first :: args) := by
  rw [List.intercalate_cons_cons, List.intercalate_cons_cons]
  simp only [List.append_assoc]

/-- A suggestion is a program, its subcommand and their arguments, as words. -/
theorem migrateCommand_eq (first : Text) (args : List Text) :
    migrateCommand (first :: args) = [' '].intercalate
      ("spl-programmatic-signer".toList :: "migrate".toList :: first :: args) := by
  have start : "spl-programmatic-signer migrate ".toList =
      "spl-programmatic-signer".toList ++ ([' '] ++ ("migrate".toList ++ [' '])) := by
    decide +kernel
  exact (congrArg (· ++ [' '].intercalate (first :: args)) start).trans
    (intercalate_words _ _ first args)

/-- The shell takes the words of a suggestion as they stand. -/
theorem suggestedOptions_words (words : K.WordLaws) {signingPubkey : Option P.Address}
    {role : Option String} (plain : ∀ name ∈ role, Arguments.IsWord name.toList) :
    ∀ word ∈ Arguments.optionWords (suggestedOptions K signingPubkey role),
      Arguments.IsWord word := by
  simp only [Arguments.optionWords, suggestedOptions, List.mem_flatMap, List.mem_append,
    Option.mem_toList, Option.map_eq_some_iff, List.mem_cons, List.not_mem_nil, or_false]
  intro word among
  obtain ⟨option, named | named, same⟩ := among
  · obtain ⟨address, -, rfl⟩ := named
    rcases same with rfl | rfl
    · show Arguments.IsWord "--new-authority-signing-pubkey".toList
      decide +kernel
    · exact (words.address address).1
  · obtain ⟨name, given, rfl⟩ := named
    rcases same with rfl | rfl
    · show Arguments.IsWord "--authority-type".toList
      decide +kernel
    · exact plain name given

/-- A suggestion is split into its words, and these into an account and options. -/
theorem suggestion_read (words : K.WordLaws) {subcommand : Text}
    (plain : Arguments.IsWord subcommand)
    (account : P.Address) (signingPubkey : Option P.Address) {role : Option String}
    (named : ∀ name ∈ role,
      Arguments.IsWord name.toList ∧ Arguments.isOption name.toList = false) :
    K.commandLine.words (migrateCommand (subcommand :: K.showAddress account ::
        Arguments.optionWords (suggestedOptions K signingPubkey role))) =
      "spl-programmatic-signer".toList :: "migrate".toList :: subcommand ::
        K.showAddress account :: Arguments.optionWords (suggestedOptions K signingPubkey role) ∧
    K.commandLine.read (K.showAddress account ::
        Arguments.optionWords (suggestedOptions K signingPubkey role)) =
      some ⟨[K.showAddress account], suggestedOptions K signingPubkey role⟩ := by
  constructor
  · rw [migrateCommand_eq]
    refine words.commandLine.words _ (List.cons_ne_nil _ _) fun word among => ?_
    simp only [List.mem_cons] at among
    rcases among with rfl | rfl | rfl | rfl | option
    · decide +kernel
    · decide +kernel
    · exact plain
    · exact (words.address account).1
    · exact suggestedOptions_words words (fun name given => (named name given).1) word option
  · exact words.commandLine.read _ _ (isOption_showAddress words account)
      (suggestedOptions_well words fun name given => (named name given).2)

/-- A suggestion for a stake account reads back as a command for it. -/
theorem parseCommand_stake (text : K.TextLaws) (words : K.WordLaws) (account : P.Address)
    (signingPubkey : Option P.Address) {role : Option StakeAuthorize}
    {parsed : Option StakeAuthorityType} (named : ((role.map MigrateStake.roleName).map
      String.toList).mapM StakeAuthorityType.parse = some parsed) :
    parseCommand K (migrateCommand ("stake".toList :: K.showAddress account ::
        Arguments.optionWords (suggestedOptions K signingPubkey
          (role.map MigrateStake.roleName)))) =
      some (.stake ⟨account, signingPubkey, parsed⟩) := by
  have plain : ∀ name ∈ role.map MigrateStake.roleName,
      Arguments.IsWord name.toList ∧ Arguments.isOption name.toList = false := by
    intro name given
    obtain ⟨role, -, rfl⟩ := Option.map_eq_some_iff.mp given
    cases role <;> decide +kernel
  obtain ⟨split, read⟩ := suggestion_read words
    (by decide +kernel : Arguments.IsWord "stake".toList) account signingPubkey plain
  have arguments := parseArguments_suggested text named account signingPubkey
  unfold parseCommand
  rw [split]
  simp only [read, and_self, if_true, Option.bind_eq_bind, Option.bind_some, arguments]
  rfl

/-- A suggestion for a mint reads back as a command for it. -/
theorem parseCommand_mint (text : K.TextLaws) (words : K.WordLaws) (mint : P.Address)
    (signingPubkey : Option P.Address) {role : Option MintAuthorityType}
    {parsed : Option MintAuthorityType} (named : ((role.map MintAuthorityType.name).map
      String.toList).mapM MintAuthorityType.parse = some parsed) :
    parseCommand K (migrateCommand ("mint".toList :: K.showAddress mint ::
        Arguments.optionWords (suggestedOptions K signingPubkey
          (role.map MintAuthorityType.name)))) =
      some (.mint ⟨mint, signingPubkey, parsed⟩) := by
  have plain : ∀ name ∈ role.map MintAuthorityType.name,
      Arguments.IsWord name.toList ∧ Arguments.isOption name.toList = false := by
    intro name given
    obtain ⟨role, -, rfl⟩ := Option.map_eq_some_iff.mp given
    cases role <;> decide +kernel
  obtain ⟨split, read⟩ := suggestion_read words
    (by decide +kernel : Arguments.IsWord "mint".toList) mint signingPubkey plain
  have arguments := parseArguments_suggested text named mint signingPubkey
  have other : "mint".toList ≠ "stake".toList := by decide +kernel
  unfold parseCommand
  rw [split]
  simp only [read, and_self, if_true, if_neg other, Option.bind_eq_bind, Option.bind_some,
    arguments]
  rfl

end Words

/-- The new authority of a scan, settled for every command that it suggests. -/
structure NewAuthority (K : MigrateToolkit P) (command : ScanCommand P)
    (signingPubkey newOwner : P.Address) : Prop where
  chosen : signingPubkey = command.newAuthoritySigningPubkey.getD command.owner
  onCurve : K.isOnCurve signingPubkey = true
  derived : newOwner = deriveAddress P.signerProgram signingPubkey
  differs : command.owner ≠ newOwner

/-- What the scan checked of a given authority, and what an on-curve owner comes with. -/
theorem newAuthority_settled (offCurve : K.DerivesOffCurve) {command : ScanCommand P}
    {args : List Text}
    (known : command.newAuthoritySigningPubkey ≠ none ∨ K.isOnCurve command.owner = true)
    (named : newAuthorityArgs K command = .ok args) :
    ∃ signingPubkey newOwner, NewAuthority K command signingPubkey newOwner := by
  unfold newAuthorityArgs at named
  split at named
  · rename_i signingPubkey given
    simp only [bind_ok_iff, ensure_ok_iff, pure_ok_iff, Migrate.newOwnerProgrammaticSigner]
      at named
    obtain ⟨newOwner, ⟨_, onCurve, derived⟩, _, differs, -⟩ := named
    exact ⟨signingPubkey, newOwner, by rw [given]; rfl, onCurve, derived.symm, differs⟩
  · rename_i absent
    have onCurve : K.isOnCurve command.owner = true := known.resolve_left fun given => given absent
    refine ⟨command.owner, _, by rw [absent]; rfl, onCurve, rfl, fun same => ?_⟩
    have off := offCurve command.owner
    rw [← same, onCurve] at off
    cases off

theorem NewAuthority.newOwner {command : ScanCommand P} {signingPubkey newOwner : P.Address}
    (settled : NewAuthority K command signingPubkey newOwner) :
    Migrate.newOwnerProgrammaticSigner K signingPubkey = .ok newOwner := by
  simp only [Migrate.newOwnerProgrammaticSigner, bind_unit_ok_iff, ensure_ok_iff, pure_ok_iff]
  exact ⟨settled.onCurve, settled.derived.symm⟩

/-- The default, the owner of every role moved, gives the new authority of the scan. -/
theorem NewAuthority.signing {command : ScanCommand P} {signingPubkey newOwner : P.Address}
    (settled : NewAuthority K command signingPubkey newOwner) {fallback : Except Failure P.Address}
    (default : K.isOnCurve command.owner = true → fallback = .ok command.owner) :
    Migrate.signingPubkey command.newAuthoritySigningPubkey fallback = .ok signingPubkey := by
  have chosen := settled.chosen
  have onCurve := settled.onCurve
  cases given : command.newAuthoritySigningPubkey with
  | none =>
      rw [given, Option.getD_none] at chosen
      rw [chosen] at onCurve ⊢
      exact default onCurve
  | some signingPubkey =>
      rw [given, Option.getD_some] at chosen
      rw [chosen]
      rfl

/-- Two roles are filtered to neither, one or both. -/
theorem filter_pair {Role : Type} (keep : Role → Bool) (first second : Role) :
    [first, second].filter keep = [] ∨ [first, second].filter keep = [first] ∨
      [first, second].filter keep = [second] ∨ [first, second].filter keep = [first, second] := by
  cases here : keep first <;> cases there : keep second <;> simp [here, there]

section Stake

/-- The argument for a role of a stake account. -/
def stakeArgument : StakeAuthorize → StakeAuthorityType
  | .staker => .staker
  | .withdrawer => .withdrawer

theorem stake_argument {owner : P.Address} {info : P.StakeMeta} (nonempty : heldStake owner info ≠ []) :
    let role := singleRole (heldStake owner info)
    ((role.map MigrateStake.roleName).map String.toList).mapM StakeAuthorityType.parse =
      some (role.map stakeArgument) ∧
    MigrateStake.roles (role.map stakeArgument) = heldStake owner info := by
  rcases filter_pair (fun role => decide (MigrateStake.currentAuthority info.authorized role = owner))
    StakeAuthorize.staker .withdrawer with held | held | held | held
  · exact absurd held nonempty
  · rw [heldStake, held]
    exact ⟨by decide +kernel, rfl⟩
  · rw [heldStake, held]
    exact ⟨by decide +kernel, rfl⟩
  · rw [heldStake, held]
    exact ⟨rfl, rfl⟩

theorem StakeAt.reads (serves : client.Serves snapshot) {address : P.Address}
    {account : P.RawAccount} {info : P.StakeMeta}
    (here : StakeAt K snapshot address account info) :
    ∃ state, client.stakeAccount K address = .ok state ∧ state.stakeMeta = some info := by
  obtain ⟨state, deserialized, initialized⟩ := here.initialized
  refine ⟨state, ?_, initialized⟩
  have found : client.optionalAccount address = .ok (some account) := by
    rw [serves.account, here.stored]
    rfl
  simp only [ChainClient.stakeAccount, ChainClient.account, ChainClient.decodeStakeAccount,
    bind_ok_iff, okOr_ok_iff, ensure_ok_iff, context_ok_iff]
  exact ⟨account, ⟨some account, found, rfl⟩, (), here.owned, deserialized⟩

/-- A suggested command moves just the listed roles of a stake account, and passes every check
on them. -/
structure StakeSuggested (K : MigrateToolkit P) (client : ChainClient P) (owner address : P.Address)
    (info : P.StakeMeta) (line : Text) (suggested : StakeCommand P)
    (signingPubkey newOwner : P.Address) : Prop where
  command : parseCommand K line = some (.stake suggested)
  account : suggested.stakeAccount = address
  roles : MigrateStake.roles suggested.authorityType = heldStake owner info
  default : Migrate.signingPubkey suggested.newAuthoritySigningPubkey
    (MigrateStake.defaultStakeAuthority K suggested info.authorized (heldStake owner info)) =
      .ok signingPubkey
  derived : Migrate.newOwnerProgrammaticSigner K signingPubkey = .ok newOwner
  runs : MigrateStake.run K client suggested =
    MigrateStake.finish K client suggested info (heldStake owner info) signingPubkey newOwner
  unmoved : ∀ custodian, ∃ instructions, (heldStake owner info).mapM
    (MigrateStake.authorize K suggested info.authorized custodian newOwner) = .ok instructions

theorem mem_heldStake {owner : P.Address} {info : P.StakeMeta} {role : StakeAuthorize}
    (held : role ∈ heldStake owner info) :
    MigrateStake.currentAuthority info.authorized role = owner :=
  of_decide_eq_true (List.mem_filter.mp held).2

theorem defaultStakeAuthority_held {command : StakeCommand P} {owner : P.Address}
    {info : P.StakeMeta} (nonempty : heldStake owner info ≠ [])
    (onCurve : K.isOnCurve owner = true) :
    MigrateStake.defaultStakeAuthority K command info.authorized (heldStake owner info) =
      .ok owner := by
  have current : MigrateStake.currentAuthority info.authorized
      ((heldStake owner info).headD .staker) = owner := by
    cases held : heldStake owner info with
    | nil => exact absurd held nonempty
    | cons role rest =>
        have first : role ∈ heldStake owner info := by
          rw [held]
          exact List.mem_cons_self
        exact mem_heldStake first
  simp only [MigrateStake.defaultStakeAuthority, Migrate.defaultNewAuthority, bind_unit_ok_iff,
    ensure_ok_iff, pure_ok_iff, current]
  exact ⟨fun role held => mem_heldStake held, onCurve, trivial⟩

/-- What a scan suggests for a stake account. -/
theorem stakeItem_suggested (text : K.TextLaws) (words : K.WordLaws)
    (serves : client.Serves snapshot) {command : ScanCommand P} {signingPubkey newOwner : P.Address}
    (settled : NewAuthority K command signingPubkey newOwner) {args : List Text}
    (named : args = Arguments.optionWords (command.newAuthoritySigningPubkey.map fun address =>
      ("--new-authority-signing-pubkey".toList, K.showAddress address)).toList)
    {address : P.Address} {account : P.RawAccount} {info : P.StakeMeta}
    (here : StakeAt K snapshot address account info) (nonempty : heldStake command.owner info ≠ []) :
    ∃ suggested, StakeSuggested K client command.owner address info
      (stakeItem K args (address, account.lamports, heldStake command.owner info)).command
      suggested signingPubkey newOwner := by
  obtain ⟨parsed, roles⟩ := stake_argument nonempty
  let suggested : StakeCommand P := ⟨address, command.newAuthoritySigningPubkey,
    (singleRole (heldStake command.owner info)).map stakeArgument⟩
  have default : Migrate.signingPubkey suggested.newAuthoritySigningPubkey
      (MigrateStake.defaultStakeAuthority K suggested info.authorized
        (heldStake command.owner info)) = .ok signingPubkey :=
    settled.signing fun onCurve => defaultStakeAuthority_held nonempty onCurve
  obtain ⟨state, read, initialized⟩ := here.reads serves
  refine ⟨suggested, ?_, rfl, roles, default, settled.newOwner, ?_, fun custodian => ?_⟩
  · have line : (stakeItem K args (address, account.lamports, heldStake command.owner info)).command =
        migrateCommand ("stake".toList :: K.showAddress address :: Arguments.optionWords
          (suggestedOptions K command.newAuthoritySigningPubkey
            ((singleRole (heldStake command.owner info)).map MigrateStake.roleName))) := by
      rw [stakeItem, roleArgs_eq, named, suggestedOptions, Arguments.optionWords,
        Arguments.optionWords, Arguments.optionWords, List.flatMap_append]
      rfl
    rw [line]
    exact parseCommand_stake text words address command.newAuthoritySigningPubkey parsed
  · rw [MigrateStake.run, bind_of_ok read, initialized, roles]
    exact (bind_of_ok default).trans (bind_of_ok settled.newOwner)
  · refine (mapM_exists fun role held => ?_).imp fun _ collected => collected.1
    refine ⟨_, bind_unit_ok_iff.mpr ⟨ensure_ok_iff.mpr ?_, rfl⟩⟩
    rw [mem_heldStake held]
    exact settled.differs

end Stake

section Mint

theorem mem_heldMint {owner : P.Address} {mint : P.Mint} {role : MintAuthorityType} :
    role ∈ heldMint owner mint ↔ MigrateMint.currentAuthority mint role = some owner := by
  rw [heldMint, List.mem_filter, decide_eq_true_eq]
  cases role <;> simp

/-- Without an argument, `migrate mint` moves the roles that are set, which are both held. -/
theorem mint_argument {owner : P.Address} {mint : P.Mint} (nonempty : heldMint owner mint ≠ []) :
    let role := singleRole (heldMint owner mint)
    ((role.map MintAuthorityType.name).map String.toList).mapM MintAuthorityType.parse = some role ∧
    MigrateMint.roles mint role = (heldMint owner mint, []) := by
  rcases filter_pair (fun role => decide (MigrateMint.currentAuthority mint role = some owner))
    MintAuthorityType.mint .freeze with held | held | held | held
  · exact absurd held nonempty
  · rw [heldMint, held]
    exact ⟨by decide +kernel, rfl⟩
  · rw [heldMint, held]
    exact ⟨by decide +kernel, rfl⟩
  · have isSet (role : MintAuthorityType) : (MigrateMint.currentAuthority mint role).isSome = true := by
      have among : role ∈ heldMint owner mint := by
        rw [heldMint, held]
        cases role <;> simp
      rw [mem_heldMint.mp among]
      rfl
    rw [heldMint, held]
    refine ⟨rfl, ?_⟩
    simp only [singleRole, MigrateMint.roles, List.partition_eq_filter_filter, isSet,
      List.filter_true, Function.comp_def, Bool.not_true, List.filter_false]

theorem MintAt.reads (serves : client.Serves snapshot) {address : P.Address}
    {account : P.RawAccount} {mint : P.Mint} (here : MintAt K snapshot address account mint) :
    client.mint K address = .ok (account.owner, mint) := by
  have found : client.optionalAccount address = .ok (some account) := by
    rw [serves.account, here.stored]
    rfl
  simp only [ChainClient.mint, ChainClient.tokenProgramAccount, ChainClient.account,
    ChainClient.decodeMint, bind_ok_iff, okOr_ok_iff, ensure_ok_iff, context_ok_iff, pure_ok_iff]
  exact ⟨account, ⟨account, ⟨some account, found, rfl⟩, (), here.owned, rfl⟩, mint,
    here.unpacked, rfl⟩

/-- A suggested command moves just the listed roles of a mint, and passes every check on
them. -/
structure MintSuggested (K : MigrateToolkit P) (client : ChainClient P)
    (owner address tokenProgram : P.Address) (mint : P.Mint) (line : Text)
    (suggested : MintCommand P) (signingPubkey newOwner : P.Address) : Prop where
  command : parseCommand K line = some (.mint suggested)
  account : suggested.mint = address
  roles : MigrateMint.roles mint suggested.authorityType = (heldMint owner mint, [])
  current : MigrateMint.currentAuthorities K suggested mint (heldMint owner mint) =
    .ok ((heldMint owner mint).map fun _ => owner)
  default : Migrate.signingPubkey suggested.newAuthoritySigningPubkey
    (MigrateMint.defaultMintAuthority K suggested ((heldMint owner mint).map fun _ => owner)) =
      .ok signingPubkey
  derived : Migrate.newOwnerProgrammaticSigner K signingPubkey = .ok newOwner
  runs : MigrateMint.run K client suggested =
    MigrateMint.finish K suggested tokenProgram (heldMint owner mint) []
      ((heldMint owner mint).map fun _ => owner) signingPubkey newOwner
  unmoved : ∀ role ∈ heldMint owner mint,
    MigrateMint.setAuthority K suggested tokenProgram newOwner role owner =
      context "failed to build set authority instruction"
        ((K.setAuthority tokenProgram address (some newOwner) (MigrateMint.tokenAuthorityType role)
          owner []).mapError fun reason => [K.describeProgram reason])

theorem currentAuthorities_held {command : MintCommand P} {owner : P.Address} {mint : P.Mint} :
    MigrateMint.currentAuthorities K command mint (heldMint owner mint) =
      .ok ((heldMint owner mint).map fun _ => owner) := by
  refine mapM_ok_iff.mpr (List.forall₂_map_right_iff.mpr (List.forall₂_same.mpr fun role held => ?_))
  exact okOr_ok_iff.mpr (mem_heldMint.mp held)

theorem defaultMintAuthority_held {Role : Type} {command : MintCommand P} {owner : P.Address}
    {roles : List Role} (nonempty : roles ≠ []) (onCurve : K.isOnCurve owner = true) :
    MigrateMint.defaultMintAuthority K command (roles.map fun _ => owner) = .ok owner := by
  have current : (roles.map fun _ => owner).headD default = owner := by
    cases roles with
    | nil => exact absurd rfl nonempty
    | cons role rest => rfl
  simp only [MigrateMint.defaultMintAuthority, Migrate.defaultNewAuthority, bind_unit_ok_iff,
    ensure_ok_iff, pure_ok_iff, current]
  refine ⟨fun authority among => ?_, onCurve, trivial⟩
  obtain ⟨role, -, rfl⟩ := List.mem_map.mp among
  rfl

/-- What a scan suggests for a mint. -/
theorem mintItem_suggested (text : K.TextLaws) (words : K.WordLaws)
    (serves : client.Serves snapshot) {command : ScanCommand P} {signingPubkey newOwner : P.Address}
    (settled : NewAuthority K command signingPubkey newOwner) {args : List Text}
    (named : args = Arguments.optionWords (command.newAuthoritySigningPubkey.map fun address =>
      ("--new-authority-signing-pubkey".toList, K.showAddress address)).toList)
    {address : P.Address} {account : P.RawAccount} {mint : P.Mint}
    (here : MintAt K snapshot address account mint) (nonempty : heldMint command.owner mint ≠ []) :
    ∃ suggested, MintSuggested K client command.owner address account.owner mint
      (mintItem K args (address, account.owner, heldMint command.owner mint)).command
      suggested signingPubkey newOwner := by
  obtain ⟨parsed, roles⟩ := mint_argument nonempty
  let suggested : MintCommand P := ⟨address, command.newAuthoritySigningPubkey,
    singleRole (heldMint command.owner mint)⟩
  have default : Migrate.signingPubkey suggested.newAuthoritySigningPubkey
      (MigrateMint.defaultMintAuthority K suggested
        ((heldMint command.owner mint).map fun _ => command.owner)) = .ok signingPubkey :=
    settled.signing fun onCurve => defaultMintAuthority_held nonempty onCurve
  have current : MigrateMint.currentAuthorities K suggested mint (heldMint command.owner mint) =
      .ok ((heldMint command.owner mint).map fun _ => command.owner) := currentAuthorities_held
  refine ⟨suggested, ?_, rfl, roles, current, default, settled.newOwner, ?_, fun role held => ?_⟩
  · have line : (mintItem K args (address, account.owner, heldMint command.owner mint)).command =
        migrateCommand ("mint".toList :: K.showAddress address :: Arguments.optionWords
          (suggestedOptions K command.newAuthoritySigningPubkey
            ((singleRole (heldMint command.owner mint)).map MintAuthorityType.name))) := by
      rw [mintItem, roleArgs_eq, named, suggestedOptions, Arguments.optionWords,
        Arguments.optionWords, Arguments.optionWords, List.flatMap_append]
      rfl
    rw [line]
    exact parseCommand_mint text words address command.newAuthoritySigningPubkey parsed
  · have chosen : MigrateMint.roles mint suggested.authorityType =
        (heldMint command.owner mint, []) := roles
    rw [MigrateMint.run, bind_of_ok (here.reads serves)]
    simp only [chosen]
    refine (bind_of_ok (if_pos nonempty)).trans ?_
    exact (bind_of_ok current).trans ((bind_of_ok default).trans (bind_of_ok settled.newOwner))
  · exact bind_of_ok (if_pos settled.differs)

end Mint

/-- The stake accounts that a scan lists: those that the owner has a role of. -/
def ListsStake (K : MigrateToolkit P) (client : ChainClient P) (snapshot : P.Snapshot)
    (command : ScanCommand P) (items : List StakeScanItem) : Prop :=
  Listing.Lists
    (fun address => ∃ account info, StakeAt K snapshot address account info ∧
      heldStake command.owner info ≠ [])
    (fun address item => ∃ account info, StakeAt K snapshot address account info ∧
      item.stakeAccount = K.showAddress address ∧ item.lamports = account.lamports ∧
      item.authorityTypes =
        (heldStake command.owner info).map (fun role => (MigrateStake.roleName role).toList) ∧
      ∃ suggested signingPubkey newOwner, StakeSuggested K client command.owner address info
        item.command suggested signingPubkey newOwner) items

/-- The mints that a scan lists: those that the owner has a role of. -/
def ListsMints (K : MigrateToolkit P) (client : ChainClient P) (snapshot : P.Snapshot)
    (command : ScanCommand P) (items : List MintScanItem) : Prop :=
  Listing.Lists
    (fun address => ∃ account mint, MintAt K snapshot address account mint ∧
      heldMint command.owner mint ≠ [])
    (fun address item => ∃ account mint, MintAt K snapshot address account mint ∧
      item.mint = K.showAddress address ∧ item.tokenProgram = K.showAddress account.owner ∧
      item.authorityTypes =
        (heldMint command.owner mint).map (fun role => role.name.toList) ∧
      ∃ suggested signingPubkey newOwner, MintSuggested K client command.owner address
        account.owner mint item.command suggested signingPubkey newOwner) items

end MigrateScan

namespace Reference

theorem wordLaws : MigrateToolkit.reference.WordLaws where
  address address := by
    have far (character : Char)
        (listed : character ∈ MigrateToolkit.reference.showAddress address) :
        256 ≤ character.toNat := by
      obtain ⟨byte, -, rfl⟩ := List.mem_map.mp listed
      rw [spell_toNat]
      omega
    refine ⟨⟨fun empty => ?_, List.all_eq_true.mpr fun character listed => ?_⟩, fun dash => ?_⟩
    · have decoded := textLaws.address address
      have none : Toolkit.reference.parseAddress [] = .error ["invalid"] := rfl
      rw [show Toolkit.reference.showAddress address = [] from empty] at decoded
      cases decoded
    · have beyond : 128 ≤ character.toNat := Nat.le_trans (by decide) (far character listed)
      simp [Arguments.isPlain, beyond]
    · exact absurd (far '-' dash) (by decide)
  commandLine := commandLine_laws

theorem allows_addressAt {data : Bytes} {offset address : Nat}
    (found : addressAt data offset = .ok address) :
    RpcFilter.allows data (.memcmp offset (Wire.tally.encode address)) = true := by
  obtain ⟨read, decoded, rfl⟩ := Option.map_eq_some_iff.mp (okOr_ok_iff.mp found)
  obtain ⟨-, same⟩ := Wire.tally.decode_inv _ read.1 read.2 decoded
  exact List.isPrefixOf_iff_prefix.mpr ⟨read.2, same.symm⟩

theorem optionAt_ok {data : Bytes} {offset : Nat} {found : Option Nat}
    (read : optionAt data offset = .ok found) :
    (data.drop offset)[2]? = some 0 ∧
      ∀ address ∈ found, addressAt data (offset + 4) = .ok address := by
  have tagged {tag : Bytes} (same : (data.drop offset).take 4 = tag) :
      (data.drop offset)[2]? = tag[2]? := by
    rw [← same, List.getElem?_take_of_lt (by decide)]
  unfold optionAt at read
  split at read
  · rename_i unset
    obtain rfl := Except.ok.inj read
    exact ⟨tagged unset, fun address among => by cases among⟩
  · split at read
    · rename_i set
      obtain ⟨address, held, rfl⟩ := map_ok_iff.mp read
      refine ⟨tagged set, fun other among => ?_⟩
      rw [held, Option.some.inj among]
    · cases read

theorem deserializeStake_ok {data : Bytes} {state : StakeState Nat} {info : StakeMeta Nat}
    (deserialized : deserializeStake data = .ok state) (held : state.stakeMeta = some info) :
    stakeMetaAt data = .ok info := by
  unfold deserializeStake at deserialized
  split at deserialized
  · obtain rfl := Except.ok.inj deserialized
    cases held
  · obtain ⟨found, read, rfl⟩ := map_ok_iff.mp deserialized
    exact read.trans (congrArg Except.ok (Option.some.inj held))
  · obtain ⟨found, read, rfl⟩ := map_ok_iff.mp deserialized
    exact read.trans (congrArg Except.ok (Option.some.inj held))
  · obtain rfl := Except.ok.inj deserialized
    cases held
  · cases deserialized

theorem allows_of_take {data bytes : Bytes} {length offset : Nat}
    (allowed : RpcFilter.allows (data.take length) (.memcmp offset bytes) = true) :
    RpcFilter.allows data (.memcmp offset bytes) = true := by
  rw [RpcFilter.allows, List.isPrefixOf_iff_prefix] at allowed ⊢
  rw [List.drop_take] at allowed
  exact allowed.trans (List.take_prefix _ _)

theorem unpackMint_ok {data : Bytes} {mint : Mint Nat} (unpacked : unpackMint data = .ok mint) :
    (data.length = 82 ∨ 165 < data.length ∧ data.length ≠ 355 ∧ data[165]? = some 1) ∧
      optionAt (data.take 82) 0 = .ok mint.mintAuthority ∧
      optionAt (data.take 82) 46 = .ok mint.freezeAuthority ∧
      unpackMint (data.take 82) = .ok mint := by
  have long : (data.length = 82 ∨ 165 < data.length ∧ data.length ≠ 355 ∧ data[165]? = some 1) →
      (data.take 82).length = 82 := by
    intro sized
    rw [List.length_take]
    omega
  have again := unpacked
  simp only [unpackMint, bind_ok_iff, ensure_ok_iff, pure_ok_iff] at unpacked
  obtain ⟨_, sized, _, initialized, mintAuthority, read, freezeAuthority, read', rfl⟩ := unpacked
  refine ⟨sized, read, read', ?_⟩
  simp only [unpackMint, bind_ok_iff, ensure_ok_iff, pure_ok_iff, List.take_take, Nat.min_self]
  exact ⟨(), .inl (long sized), (), initialized, _, read, _, read', rfl⟩

theorem layoutLaws : MigrateToolkit.reference.LayoutLaws where
  programs := by decide
  stake data state info role deserialized held := by
    have found := deserializeStake_ok deserialized held
    simp only [stakeMetaAt, bind_ok_iff, pure_ok_iff] at found
    obtain ⟨staker, read, withdrawer, read', _, -, rfl⟩ := found
    cases role with
    | staker => exact allows_addressAt read
    | withdrawer => exact allows_addressAt read'
  mint data mint role authority unpacked held := by
    obtain ⟨-, mintAuthority, freezeAuthority, -⟩ := unpackMint_ok unpacked
    cases role with
    | mint => exact allows_of_take (allows_addressAt ((optionAt_ok mintAuthority).2 _ held))
    | freeze => exact allows_of_take (allows_addressAt ((optionAt_ok freezeAuthority).2 _ held))
  mintType data mint unpacked := (unpackMint_ok unpacked).1.imp_right fun sized => sized.2.2
  mintBase data mint unpacked := ⟨mint, (unpackMint_ok unpacked).2.2.2, fun _ => rfl⟩
  mintTag data mint unpacked := by
    have tag := (optionAt_ok (unpackMint_ok unpacked).2.1).1
    rw [List.drop_zero, List.getElem?_take_of_lt (by decide)] at tag
    exact tag

/-- A node that answers from a snapshot. -/
def servingClient (snapshot : Platform.reference.Snapshot) : ChainClient Platform.reference where
  configPubkey := .error ["no keypair"]
  optionalAccount address := .ok ((entryAt snapshot address).map Prod.snd)
  minimumBalanceForRentExemption size := .ok (UInt64.ofNat (size + 1))
  clock := .ok ⟨0, 0⟩
  programAccounts program filters slice :=
    .ok ((snapshot.filter fun entry => asksFor program filters entry.2).map
      fun entry => (entry.1, entry.2.sliced slice))

theorem servingClient_serves {snapshot : Platform.reference.Snapshot}
    (distinct : (snapshot.map Prod.fst).Nodup) : (servingClient snapshot).Serves snapshot :=
  ⟨distinct, fun _ => rfl, fun _ _ _ => ⟨_, rfl, .refl _⟩⟩

/-- A stake account and two mints of one owner. -/
def ownedSnapshot : Platform.reference.Snapshot :=
  [(40, ⟨7, 14, stakeData 30 12⟩), (42, ⟨1, 18, mintData (some 30) none⟩),
    (44, ⟨1, 20, extendedMintData (some 30) (some 30)⟩)]

theorem ownedSnapshot_keeps : KeepsLayouts MigrateToolkit.reference ownedSnapshot where
  stake entry listed owned _ _ _ _ := by
    have sized : ∀ entry ∈ ownedSnapshot, entry.2.owner = (14 : Nat) →
        entry.2.data.length = stakeStateSize := by decide +kernel
    exact sized entry listed owned
  token entry listed owned _ _ := by
    have sized : ∀ entry ∈ ownedSnapshot, entry.2.owner = (18 : Nat) →
        entry.2.data.length = mintLen := by decide +kernel
    exact sized entry listed owned
  token2022 entry listed owned := by
    have mints : ∀ entry ∈ ownedSnapshot, entry.2.owner = (20 : Nat) →
        (unpackMint entry.2.data).isOk = true := by decide +kernel
    obtain ⟨mint, unpacked⟩ := exists_of_isOk (mints entry listed owned)
    exact .mint mint unpacked

end Reference

namespace MigrateScan

variable {K : MigrateToolkit P} {client : ChainClient P} {snapshot : P.Snapshot}

/-- A scan lists the stake accounts and the mints that its owner has a role of, each once and
with just those roles, and suggests a command for each that moves just them. -/
theorem run_suggests (text : K.TextLaws) (words : K.WordLaws) (layouts : K.LayoutLaws)
    (offCurve : K.DerivesOffCurve) (serves : client.Serves snapshot)
    (keeps : KeepsLayouts K snapshot) {command : ScanCommand P} {output : ScanOutput}
    (known : command.newAuthoritySigningPubkey ≠ none ∨ K.isOnCurve command.owner = true)
    (ran : run K client command = .ok output) :
    (∃ items, output.stake = .ok items ∧ ListsStake K client snapshot command items) ∧
    ∃ items, output.mint = .ok items ∧ ListsMints K client snapshot command items := by
  obtain ⟨args, named, same⟩ := bind_ok_iff.mp ran
  obtain rfl := pure_ok_iff.mp same
  obtain ⟨signingPubkey, newOwner, settled⟩ := newAuthority_settled offCurve known named
  have words' := newAuthorityArgs_ok known named
  obtain ⟨stake, scannedStake, stakeListed⟩ :=
    scanStake_lists serves layouts keeps command.owner args
  obtain ⟨mints, scannedMints, mintsListed⟩ :=
    scanMint_lists serves layouts keeps command.owner args
  refine ⟨⟨stake, congrArg (Except.mapError K.describeFailure) scannedStake, ?_⟩,
    mints, congrArg (Except.mapError K.describeFailure) scannedMints, ?_⟩
  · refine stakeListed.imp (fun _ => Iff.rfl) fun address item _ described => ?_
    obtain ⟨account, info, here, nonempty, rfl⟩ := described
    obtain ⟨suggested, moves⟩ := stakeItem_suggested text words serves settled words' here nonempty
    exact ⟨account, info, here, rfl, rfl, rfl, suggested, signingPubkey, newOwner, moves⟩
  · refine mintsListed.imp (fun _ => Iff.rfl) fun address item _ described => ?_
    obtain ⟨account, mint, here, nonempty, rfl⟩ := described
    obtain ⟨suggested, moves⟩ := mintItem_suggested text words serves settled words' here nonempty
    exact ⟨account, mint, here, rfl, rfl, rfl, suggested, signingPubkey, newOwner, moves⟩

/-- An on-curve owner scans what it owns. -/
theorem run_suggests_owned : ∃ output,
    run MigrateToolkit.reference (Reference.servingClient Reference.ownedSnapshot) ⟨30, none⟩ =
      .ok output ∧
    (∃ items, output.stake = .ok items ∧ ListsStake MigrateToolkit.reference
      (Reference.servingClient Reference.ownedSnapshot) Reference.ownedSnapshot ⟨30, none⟩ items) ∧
    ∃ items, output.mint = .ok items ∧ ListsMints MigrateToolkit.reference
      (Reference.servingClient Reference.ownedSnapshot) Reference.ownedSnapshot ⟨30, none⟩ items := by
  have ran : run MigrateToolkit.reference (Reference.servingClient Reference.ownedSnapshot)
      ⟨30, none⟩ = .ok _ := rfl
  exact ⟨_, ran, run_suggests Reference.textLaws Reference.wordLaws Reference.layoutLaws
    Reference.derivesOffCurve (Reference.servingClient_serves (by decide +kernel))
    Reference.ownedSnapshot_keeps (.inr rfl) ran⟩

end MigrateScan

end ProgrammaticSigner
