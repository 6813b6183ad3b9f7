import ProgrammaticSigner.Migrate.ReportLists
import ProgrammaticSigner.Migrate.Suggestions
import ProgrammaticSigner.Migrate.TokenReference

set_option autoImplicit false

/- The commands that `migrate scan` suggests in its other categories read back as they were
meant, and run on what was scanned. -/
namespace ProgrammaticSigner

open Outcome

variable {P : Platform}

namespace MigrateScan

variable {K : MigrateToolkit P} {client : ChainClient P} {snapshot : P.Snapshot}

section Lines

/-- The option for a given new authority. -/
def signingOptions (K : MigrateToolkit P) (signingPubkey : Option P.Address) :
    List (Text × Text) :=
  (signingPubkey.map fun address =>
    ("--new-authority-signing-pubkey".toList, K.showAddress address)).toList

/-- The option for a token account's owner or the account itself. -/
def sourceOption (K : MigrateToolkit P) (owner : P.Address) (associated : Bool)
    (address : P.Address) : Text × Text :=
  if associated then ("--owner".toList, K.showAddress owner)
  else ("--source".toList, K.showAddress address)

/-- An option and its value, as words of a line. -/
def IsPlain (option : Text × Text) : Prop :=
  (Arguments.IsWord option.1 ∧ Arguments.isOption option.1 = true) ∧
    Arguments.IsWord option.2 ∧ Arguments.isOption option.2 = false

theorem isPlain_address (words : K.WordLaws) {name : Text}
    (named : Arguments.IsWord name ∧ Arguments.isOption name = true) (address : P.Address) :
    IsPlain (name, K.showAddress address) :=
  ⟨named, (words.address address).1, isOption_showAddress words address⟩

theorem isPlain_signing (words : K.WordLaws) (signingPubkey : Option P.Address) :
    ∀ option ∈ signingOptions K signingPubkey, IsPlain option := by
  intro option among
  obtain ⟨address, -, rfl⟩ := Option.map_eq_some_iff.mp (Option.mem_toList.mp among)
  exact isPlain_address words (by decide +kernel) address

theorem isPlain_source (words : K.WordLaws) (owner : P.Address) (associated : Bool)
    (address : P.Address) : IsPlain (sourceOption K owner associated address) := by
  cases associated with
  | true => exact isPlain_address words (by decide +kernel) owner
  | false => exact isPlain_address words (by decide +kernel) address

/-- A line is split into its words. -/
theorem line_split (words : K.WordLaws) {subcommand : Text}
    (plain : Arguments.IsWord subcommand)
    (account : P.Address) {options : List (Text × Text)}
    (well : ∀ option ∈ options, IsPlain option) :
    K.commandLine.words (migrateCommand (subcommand :: K.showAddress account ::
        Arguments.optionWords options)) =
      "spl-programmatic-signer".toList :: "migrate".toList :: subcommand ::
        K.showAddress account :: Arguments.optionWords options := by
  rw [migrateCommand_eq]
  refine words.commandLine.words _ (List.cons_ne_nil _ _) fun word among => ?_
  simp only [Arguments.optionWords, List.mem_cons, List.mem_flatMap, List.not_mem_nil, or_false]
    at among
  rcases among with rfl | rfl | rfl | rfl | ⟨option, listed, rfl | rfl⟩
  · decide +kernel
  · decide +kernel
  · exact plain
  · exact (words.address account).1
  · exact (well option listed).1.1
  · exact (well option listed).2.1

/-- The options of a line are not taken for their values. -/
theorem isPlain_well {options : List (Text × Text)} (well : ∀ option ∈ options, IsPlain option) :
    Arguments.WellSorted options :=
  fun option listed => ⟨(well option listed).1.2, (well option listed).2.2⟩

/-- The words of a line are an account and options. -/
theorem line_read (words : K.WordLaws) (account : P.Address) {options : List (Text × Text)}
    (well : ∀ option ∈ options, IsPlain option) :
    K.commandLine.read (K.showAddress account :: Arguments.optionWords options) =
      some ⟨[K.showAddress account], options⟩ :=
  words.commandLine.read _ _ (isOption_showAddress words account) (isPlain_well well)

theorem parseAddressValue_show (text : K.TextLaws) (address : P.Address) :
    parseAddressValue K (K.showAddress address) = some address := by
  rw [parseAddressValue, text.address]
  rfl

theorem value_signing (text : K.TextLaws) (account : Text) (signingPubkey : Option P.Address) :
    (⟨[account], signingOptions K signingPubkey⟩ : Arguments).value
      "--new-authority-signing-pubkey" (parseAddressValue K) = some signingPubkey := by
  cases signingPubkey with
  | none => rfl
  | some address =>
      simp [Arguments.value, signingOptions, parseAddressValue_show text]

/-- An account and the new authority are read back. -/
theorem parseAccount_signing (text : K.TextLaws) (account : P.Address)
    (signingPubkey : Option P.Address) :
    parseAccount K ⟨[K.showAddress account], signingOptions K signingPubkey⟩ =
      some (account, signingPubkey) := by
  have takes : (⟨[K.showAddress account], signingOptions K signingPubkey⟩ : Arguments).Takes
      ["--new-authority-signing-pubkey"] := by
    cases signingPubkey <;> simp [Arguments.Takes, signingOptions]
  simp only [parseAccount, if_pos takes, parseAddressValue_show text, value_signing text]
  rfl

variable (solStrToLamports : Text → Option UInt64)

theorem readCommand_vote (text : K.TextLaws) (words : K.WordLaws) (account : P.Address)
    (signingPubkey : Option P.Address) :
    readCommand K solStrToLamports (migrateCommand ("vote".toList :: K.showAddress account ::
        Arguments.optionWords (signingOptions K signingPubkey))) =
      some (.vote ⟨account, signingPubkey⟩) := by
  have well := isPlain_signing words signingPubkey
  unfold readCommand
  rw [line_split words (by decide +kernel) account well]
  simp only [and_self, if_true, line_read words account well, Option.bind_some,
    parseAccount_signing text]
  rfl

theorem readCommand_program (text : K.TextLaws) (words : K.WordLaws) (account : P.Address)
    (signingPubkey : Option P.Address) :
    readCommand K solStrToLamports (migrateCommand ("program".toList :: K.showAddress account ::
        Arguments.optionWords (signingOptions K signingPubkey))) =
      some (.program ⟨account, signingPubkey⟩) := by
  have well := isPlain_signing words signingPubkey
  have other : "program".toList ≠ "vote".toList := by simp
  unfold readCommand
  rw [line_split words (by decide +kernel) account well]
  simp only [and_self, if_true, if_neg other, line_read words account well, Option.bind_some,
    parseAccount_signing text]
  rfl

theorem readCommand_sol (text : K.TextLaws) (words : K.WordLaws) (owner : P.Address)
    (signingPubkey : Option P.Address) :
    readCommand K solStrToLamports (migrateCommand ("sol".toList :: K.showAddress owner ::
        Arguments.optionWords (signingOptions K signingPubkey))) =
      some (.sol ⟨owner, signingPubkey, none⟩) := by
  have well := isPlain_signing words signingPubkey
  have takes : (⟨[K.showAddress owner], signingOptions K signingPubkey⟩ : Arguments).Takes
      ["--new-authority-signing-pubkey", "--amount"] := by
    cases signingPubkey <;> simp [Arguments.Takes, signingOptions]
  have amount : (⟨[K.showAddress owner], signingOptions K signingPubkey⟩ : Arguments).value
      "--amount" solStrToLamports = some none := by
    cases signingPubkey <;> simp [Arguments.value, signingOptions]
  have first : "sol".toList ≠ "vote".toList := by simp
  have second : "sol".toList ≠ "program".toList := by simp
  unfold readCommand
  rw [line_split words (by decide +kernel) owner well]
  simp only [and_self, if_true, if_neg first, if_neg second, line_read words owner well,
    Option.bind_some, parseSol, if_pos takes, parseAddressValue_show text, value_signing text,
    amount]
  rfl

/-- The command that is suggested for a token account. -/
def suggestedToken (mint owner : P.Address) (associated : Bool) (address : P.Address)
    (signingPubkey : Option P.Address) : TokenCommand P where
  mint := mint
  owner := if associated then some owner else none
  source := if associated then none else some address
  newAuthoritySigningPubkey := signingPubkey
  destination := none
  amount := none
  funder := none
  noClose := false
  rentRecipient := none
  owner_source := by cases associated <;> simp
  destination_funder := .inl rfl
  noClose_rentRecipient := .inl rfl

theorem parseToken_suggested (text : K.TextLaws) (mint owner : P.Address) (associated : Bool)
    (address : P.Address) (signingPubkey : Option P.Address) :
    parseToken K (0, ⟨[K.showAddress mint],
        sourceOption K owner associated address :: signingOptions K signingPubkey⟩) =
      some (suggestedToken mint owner associated address signingPubkey) := by
  cases associated <;> cases signingPubkey <;>
    simp [parseToken, Arguments.Takes, Arguments.value, sourceOption, signingOptions,
      parseAddressValue_show text, suggestedToken, List.lookup]

theorem flag_not_named (owner : P.Address) (associated : Bool) (address : P.Address)
    (signingPubkey : Option P.Address) : ∀ option ∈ sourceOption K owner associated address ::
      signingOptions K signingPubkey, option.1 ≠ "--no-close".toList := by
  refine List.forall_mem_cons.mpr ⟨?_, fun option among => ?_⟩
  · cases associated with
    | true => exact (by simp : "--owner".toList ≠ "--no-close".toList)
    | false => exact (by simp : "--source".toList ≠ "--no-close".toList)
  · obtain ⟨address, -, rfl⟩ := Option.map_eq_some_iff.mp (Option.mem_toList.mp among)
    exact (by simp : "--new-authority-signing-pubkey".toList ≠ "--no-close".toList)

theorem readCommand_token (text : K.TextLaws) (words : K.WordLaws) (mint owner : P.Address)
    (associated : Bool) (address : P.Address) (signingPubkey : Option P.Address) :
    readCommand K solStrToLamports (migrateCommand ("token".toList :: K.showAddress mint ::
        Arguments.optionWords
          (sourceOption K owner associated address :: signingOptions K signingPubkey))) =
      some (.token (suggestedToken mint owner associated address signingPubkey)) := by
  have well : ∀ option ∈ sourceOption K owner associated address :: signingOptions K signingPubkey,
      IsPlain option :=
    List.forall_mem_cons.mpr
      ⟨isPlain_source words owner associated address, isPlain_signing words signingPubkey⟩
  have unflagged : "--no-close".toList ∉ K.showAddress mint :: Arguments.optionWords
      (sourceOption K owner associated address :: signingOptions K signingPubkey) := by
    refine List.not_mem_cons_of_ne_of_not_mem (fun same => ?_) fun flagged => ?_
    · cases (congrArg Arguments.isOption same).trans (isOption_showAddress words mint)
    · obtain ⟨option, listed, named⟩ := List.mem_flatMap.mp flagged
      simp only [List.mem_cons, List.not_mem_nil, or_false] at named
      rcases named with name | value
      · exact flag_not_named owner associated address signingPubkey option listed name.symm
      · cases (congrArg Arguments.isOption value).trans (well option listed).2.2
  have first : "token".toList ≠ "vote".toList := by simp
  have second : "token".toList ≠ "program".toList := by simp
  have third : "token".toList ≠ "sol".toList := by simp
  unfold readCommand
  rw [line_split words (by decide +kernel) mint well]
  have read := words.commandLine.readFlag _ _ _ (isOption_showAddress words mint)
    (isPlain_well well) unflagged
  simp only [and_self, if_true, if_neg first, if_neg second, if_neg third, read,
    Option.map_some, Option.bind_some, parseToken_suggested text]

end Lines

section Runs

variable (solStrToLamports : Text → Option UInt64)

/-- A suggested command moves the withdrawer of a vote account, and stops at nothing but the
compiler. -/
structure VoteSuggested (K : MigrateToolkit P) (client : ChainClient P)
    (solStrToLamports : Text → Option UInt64) (owner address : P.Address) (line : Text)
    (suggested : VoteCommand P) (signingPubkey newOwner : P.Address) : Prop where
  command : readCommand K solStrToLamports line = some (.vote suggested)
  account : suggested.voteAccount = address
  runs : MigrateVote.run K client suggested =
    (Migrate.executionMessage K newOwner [K.authorizeVote address owner newOwner .withdrawer]).map
      fun message => { Migrate.output K newOwner signingPubkey message with
        voteAccount := K.showAddress address }

theorem VoteAt.reads (serves : client.Serves snapshot) {address : P.Address}
    {account : P.RawAccount} {withdrawer : P.Address}
    (here : VoteAt K snapshot address account withdrawer) :
    ∃ state, client.voteAccount K address = .ok state ∧
      MigrateVote.authorizedWithdrawer K state address = .ok withdrawer := by
  obtain ⟨state, deserialized, authorized⟩ := here.authorized
  refine ⟨state, ?_, authorized⟩
  have found : client.optionalAccount address = .ok (some account) := by
    rw [serves.account, here.stored]
    rfl
  simp only [ChainClient.voteAccount, ChainClient.account, ChainClient.decodeVoteAccount,
    bind_ok_iff, okOr_ok_iff, ensure_ok_iff, context_ok_iff]
  exact ⟨account, ⟨some account, found, rfl⟩, (), here.owned, deserialized⟩

/-- The current owner of what is moved is the default. -/
theorem defaultNewAuthority_owner {currentName : String} {owner : P.Address}
    (onCurve : K.isOnCurve owner = true) :
    Migrate.defaultNewAuthority K currentName owner = .ok owner := by
  simp only [Migrate.defaultNewAuthority, bind_unit_ok_iff, ensure_ok_iff, pure_ok_iff]
  exact ⟨onCurve, trivial⟩

theorem NewAuthority.unmoved {command : ScanCommand P} {signingPubkey newOwner : P.Address}
    (settled : NewAuthority K command signingPubkey newOwner) (reason : Failure) :
    ensure (command.owner ≠ newOwner) reason = .ok () := if_pos settled.differs

theorem line_signing {command : ScanCommand P} {args : List Text}
    (named : args = Arguments.optionWords (signingOptions K command.newAuthoritySigningPubkey))
    (subcommand : Text) (address : P.Address) :
    migrateCommand ([subcommand, K.showAddress address] ++ args) =
      migrateCommand (subcommand :: K.showAddress address ::
        Arguments.optionWords (signingOptions K command.newAuthoritySigningPubkey)) := by
  rw [named]
  rfl

/-- What a scan suggests for a vote account. -/
theorem voteItem_suggested (text : K.TextLaws) (words : K.WordLaws)
    (serves : client.Serves snapshot) {command : ScanCommand P} {signingPubkey newOwner : P.Address}
    (settled : NewAuthority K command signingPubkey newOwner) {args : List Text}
    (named : args = Arguments.optionWords (signingOptions K command.newAuthoritySigningPubkey))
    {address : P.Address} {account : P.RawAccount}
    (here : VoteAt K snapshot address account command.owner) :
    VoteSuggested K client solStrToLamports command.owner address
      (voteItem K args (address, account)).command
      ⟨address, command.newAuthoritySigningPubkey⟩ signingPubkey newOwner := by
  obtain ⟨state, read, authorized⟩ := here.reads serves
  have signing : Migrate.signingPubkey command.newAuthoritySigningPubkey
      (Migrate.defaultNewAuthority K
        s!"the withdrawer of vote account {K.display address}" command.owner) =
      .ok signingPubkey := settled.signing defaultNewAuthority_owner
  refine ⟨?_, rfl, ?_⟩
  · rw [voteItem, line_signing named]
    exact readCommand_vote solStrToLamports text words address command.newAuthoritySigningPubkey
  · rw [MigrateVote.run, bind_of_ok read, bind_of_ok authorized, bind_of_ok signing,
      bind_of_ok settled.newOwner, bind_of_ok (settled.unmoved _)]
    exact bind_pure_eq_map _ _

/-- A suggested command moves the upgrade authority of a program, and stops at nothing but the
compiler. -/
structure ProgramSuggested (K : MigrateToolkit P) (client : ChainClient P)
    (solStrToLamports : Text → Option UInt64) (owner address programData : P.Address) (line : Text)
    (suggested : ProgramCommand P) (signingPubkey newOwner : P.Address) : Prop where
  command : readCommand K solStrToLamports line = some (.program suggested)
  account : suggested.program = address
  runs : MigrateProgram.run K client suggested =
    (Migrate.executionMessage K newOwner
        [K.setUpgradeAuthorityChecked address owner newOwner]).map
      fun message => { Migrate.output K newOwner signingPubkey message with
        program := K.showAddress address
        programData := K.showAddress programData }

theorem loaderAccount_reads (serves : client.Serves snapshot) {address : P.Address}
    {account : P.RawAccount} {state : LoaderState P.Address} (kind : String)
    (stored : entryAt snapshot address = some (address, account))
    (owned : account.owner = P.upgradeableLoader)
    (deserialized : K.deserializeLoader account.data = .ok state) :
    client.upgradeableLoaderAccount K address kind = .ok state := by
  have found : client.optionalAccount address = .ok (some account) := by
    rw [serves.account, stored]
    rfl
  simp only [ChainClient.upgradeableLoaderAccount, ChainClient.account,
    ChainClient.decodeUpgradeableLoaderAccount, bind_ok_iff, okOr_ok_iff, ensure_ok_iff,
    context_ok_iff]
  exact ⟨account, ⟨some account, found, rfl⟩, (), owned, deserialized⟩

/-- What a scan suggests for a program. -/
theorem programItem_suggested (text : K.TextLaws) (words : K.WordLaws)
    (serves : client.Serves snapshot) {command : ScanCommand P} {signingPubkey newOwner : P.Address}
    (settled : NewAuthority K command signingPubkey newOwner) {args : List Text}
    (named : args = Arguments.optionWords (signingOptions K command.newAuthoritySigningPubkey))
    {address programData : P.Address} (account : P.RawAccount)
    (here : Upgrades K snapshot command.owner address programData) :
    ProgramSuggested K client solStrToLamports command.owner address programData
      (programItem K args programData (address, account)).command
      ⟨address, command.newAuthoritySigningPubkey⟩ signingPubkey newOwner := by
  obtain ⟨⟨_, program⟩, _, data⟩ := here
  obtain ⟨slot, upgradeable⟩ := data.upgradeable
  have points : MigrateProgram.programdataAddress K client
      ⟨address, command.newAuthoritySigningPubkey⟩ = .ok programData :=
    bind_of_ok (loaderAccount_reads serves "program" program.stored program.owned program.points)
  have upgrades : MigrateProgram.upgradeAuthority K client
      ⟨address, command.newAuthoritySigningPubkey⟩ programData = .ok command.owner :=
    bind_of_ok (loaderAccount_reads serves "program data account" data.stored data.owned
      upgradeable)
  have signing : Migrate.signingPubkey command.newAuthoritySigningPubkey
      (Migrate.defaultNewAuthority K
        s!"the upgrade authority of program {K.display address}" command.owner) =
      .ok signingPubkey := settled.signing defaultNewAuthority_owner
  refine ⟨?_, rfl, ?_⟩
  · rw [programItem, line_signing named]
    exact readCommand_program solStrToLamports text words address command.newAuthoritySigningPubkey
  · rw [MigrateProgram.run, bind_of_ok points, bind_of_ok upgrades, bind_of_ok signing,
      bind_of_ok settled.newOwner, bind_of_ok (settled.unmoved _)]
    exact bind_pure_eq_map _ _

/-- A suggested command moves all of a balance, if that leaves the new owner rent exempt. -/
structure SolSuggested (K : MigrateToolkit P) (client : ChainClient P)
    (solStrToLamports : Text → Option UInt64) (owner : P.Address) (balance : UInt64) (line : Text)
    (suggested : SolCommand P) (signingPubkey newOwner : P.Address) : Prop where
  command : readCommand K solStrToLamports line = some (.sol suggested)
  owned : suggested.owner = owner
  runs : MigrateSol.run K client suggested = do
    let rent ← client.minimumBalanceForRentExemption 0
    MigrateSol.checkNewOwner K client newOwner balance rent
    let message ← Migrate.executionMessage K newOwner [K.transfer owner newOwner balance,
      K.buildMemo K.memoProgram (asciiBytes "migrate sol") [newOwner]]
    return { Migrate.output K newOwner signingPubkey message with
      owner := K.showAddress owner
      lamports := balance
      closesAccount := true }

theorem systemAccount_ok_iff (serves : client.Serves snapshot) {address : P.Address}
    {account : P.RawAccount} : client.systemAccount K address = .ok account ↔
      entryAt snapshot address = some (address, account) ∧ account.owner = default ∧
        account.data = [] := by
  have present : (∃ found, client.optionalAccount address = .ok found ∧ found = some account) ↔
      entryAt snapshot address = some (address, account) := by
    rw [serves.account]
    simp only [Except.ok.injEq, exists_eq_left', Option.map_eq_some_iff]
    constructor
    · intro found
      obtain ⟨⟨address', account'⟩, here, rfl⟩ := found
      obtain ⟨-, rfl⟩ := (entryAt_eq_some_iff serves.distinct).mp here
      exact here
    · intro here
      exact ⟨_, here, rfl⟩
  simp only [ChainClient.systemAccount, ChainClient.account, bind_ok_iff, okOr_ok_iff,
    ensure_ok_iff, pure_ok_iff, exists_const]
  constructor
  · intro read
    obtain ⟨account', here, owned, empty, rfl⟩ := read
    exact ⟨present.mp here, owned, empty⟩
  · intro read
    obtain ⟨here, owned, empty⟩ := read
    exact ⟨account, present.mpr here, owned, empty, rfl⟩

/-- What a scan suggests for a balance. -/
theorem solItem_suggested (text : K.TextLaws) (words : K.WordLaws)
    {command : ScanCommand P} {signingPubkey newOwner : P.Address}
    (settled : NewAuthority K command signingPubkey newOwner) {args : List Text}
    (named : args = Arguments.optionWords (signingOptions K command.newAuthoritySigningPubkey))
    {account : P.RawAccount} (here : client.systemAccount K command.owner = .ok account)
    (positive : 0 < account.lamports) :
    SolSuggested K client solStrToLamports command.owner account.lamports
      (migrateCommand (["sol".toList, K.showAddress command.owner] ++ args))
      ⟨command.owner, command.newAuthoritySigningPubkey, none⟩ signingPubkey newOwner := by
  have signing : Migrate.signingPubkey command.newAuthoritySigningPubkey
      (Migrate.defaultNewAuthority K "the owner" command.owner) = .ok signingPubkey :=
    settled.signing defaultNewAuthority_owner
  refine ⟨?_, rfl, ?_⟩
  · rw [line_signing named]
    exact readCommand_sol solStrToLamports text words command.owner
      command.newAuthoritySigningPubkey
  · rw [MigrateSol.run, bind_of_ok signing, bind_of_ok settled.newOwner,
      bind_of_ok (settled.unmoved _), bind_of_ok here]
    refine bind_congr fun rent => ?_
    have whole : MigrateSol.checkAmount K
        ⟨command.owner, command.newAuthoritySigningPubkey, none⟩ account.lamports account.lamports
        rent = .ok () := if_neg (not_not_intro rfl)
    have enough : ensure (0 < account.lamports) ["amount must be greater than zero"] = .ok () :=
      if_pos positive
    refine (bind_of_ok enough).trans ((bind_of_ok whole).trans ?_)
    simp only [Option.getD_none, decide_true]

/-- The new owner's associated token account, if tokens are to move and it exists: it must hold
the mint, thawed. -/
def GoesTo (K : MigrateToolkit P) (client : ChainClient P) (plan : TokenPlan P) : Prop :=
  if 0 < plan.amount then
    ∃ found, client.optionalAccount plan.destination = .ok found ∧
      Option.Rel (fun raw account => K.unpackTokenAccount raw.data = .ok account ∧
          account.mint = plan.source.account.mint ∧ account.owner = plan.source.newOwner ∧
          account.isFrozen = false)
        (found.filter fun raw => raw.owner = plan.token.tokenProgram) plan.destinationAccount
  else plan.destinationAccount = none

/-- What the command for a token account is still checked for. -/
structure TokenGoesThrough (K : MigrateToolkit P) (client : ChainClient P)
    (command : TokenCommand P) (plan : TokenPlan P) : Prop where
  unguarded : plan.source.account.cpiGuard ≠ some true
  different : plan.source.address ≠ plan.destination
  destination : GoesTo K client plan
  sound : plan.Sound
  compiles : ∃ instructions message,
    MigrateToken.Builds K (plan.operations command) instructions ∧
      Migrate.executionMessage K plan.source.newOwner instructions = .ok message

/-- All of a token account to the new owner's associated token account, and its close. -/
def wholeAccount (K : MigrateToolkit P) (owner tokenProgram address : P.Address)
    (account : P.TokenAccount) (mint : P.Mint) (signingPubkey newOwner : P.Address)
    (destinationAccount : Option P.TokenAccount) : TokenPlan P :=
  ⟨⟨tokenProgram, mint⟩, ⟨address, account, owner, signingPubkey, newOwner⟩, account.amount, true,
    signingPubkey, K.getAssociatedTokenAddress newOwner account.mint tokenProgram,
    destinationAccount⟩

/-- A suggested command moves all of a token account to the new owner and closes it, or stops at
exactly one of the named checks. -/
structure TokenSuggested (K : MigrateToolkit P) (client : ChainClient P)
    (solStrToLamports : Text → Option UInt64) (owner tokenProgram address : P.Address)
    (account : P.TokenAccount) (mint : P.Mint) (line : Text) (suggested : TokenCommand P)
    (signingPubkey newOwner : P.Address) : Prop where
  command : readCommand K solStrToLamports line = some (.token suggested)
  plans : ∀ plan, MigrateToken.plan K client suggested = .ok plan →
    plan = wholeAccount K owner tokenProgram address account mint signingPubkey newOwner
      plan.destinationAccount
  runs : (∃ output, MigrateToken.run K client suggested = .ok output) ↔
    ∃ destinationAccount, TokenGoesThrough K client suggested (wholeAccount K owner tokenProgram
      address account mint signingPubkey newOwner destinationAccount)

theorem tokenProgramAccount_reads (serves : client.Serves snapshot) {address : P.Address}
    {account : P.RawAccount} (kind : String)
    (stored : entryAt snapshot address = some (address, account))
    (owned : account.owner = K.tokenProgram ∨ account.owner = K.token2022Program) :
    client.tokenProgramAccount K address kind = .ok account := by
  have found : client.optionalAccount address = .ok (some account) := by
    rw [serves.account, stored]
    rfl
  simp only [ChainClient.tokenProgramAccount, ChainClient.account, bind_ok_iff, okOr_ok_iff,
    ensure_ok_iff, pure_ok_iff]
  exact ⟨account, ⟨some account, found, rfl⟩, (), owned, rfl⟩

theorem readMint_ok (serves : client.Serves snapshot) {tokenProgram : P.Address}
    {account : P.TokenAccount} {mint : P.Mint}
    (minted : TokenMintAt K snapshot tokenProgram account mint) {command : TokenCommand P}
    (same : command.mint = account.mint) :
    MigrateToken.readMint K client command = .ok ⟨tokenProgram, mint⟩ := by
  obtain ⟨found, here, rfl⟩ := minted.stored
  rw [MigrateToken.readMint, same,
    bind_of_ok (tokenProgramAccount_reads serves "mint" here.stored here.owned),
    bind_of_ok (context_ok_iff.mpr here.unpacked)]
  rfl

theorem resolveNewAuthority_ok {command : ScanCommand P} {signingPubkey newOwner : P.Address}
    (settled : NewAuthority K command signingPubkey newOwner) {suggested : TokenCommand P}
    (same : suggested.newAuthoritySigningPubkey = command.newAuthoritySigningPubkey) :
    MigrateToken.resolveNewAuthority K suggested command.owner = .ok (signingPubkey, newOwner) := by
  have signing : Migrate.signingPubkey command.newAuthoritySigningPubkey
      (Migrate.defaultNewAuthority K "the owner" command.owner) = .ok signingPubkey :=
    settled.signing defaultNewAuthority_owner
  rw [MigrateToken.resolveNewAuthority, same, bind_of_ok signing, bind_of_ok settled.newOwner,
    bind_of_ok (settled.unmoved _)]
  rfl

/-- The suggested source is the account that was scanned. -/
theorem readSource_suggested (serves : client.Serves snapshot) {command : ScanCommand P}
    {signingPubkey newOwner : P.Address}
    (settled : NewAuthority K command signingPubkey newOwner) {tokenProgram address : P.Address}
    {account : P.TokenAccount} {mint : P.Mint}
    (owns : OwnsTokens K snapshot command.owner address tokenProgram account mint) :
    MigrateToken.readSource K client
        (suggestedToken account.mint command.owner
          (decide (K.getAssociatedTokenAddress command.owner account.mint tokenProgram = address))
          address command.newAuthoritySigningPubkey) ⟨tokenProgram, mint⟩ =
      (MigrateToken.checkGuard K address account).map
        fun _ => ⟨address, account, command.owner, signingPubkey, newOwner⟩ := by
  obtain ⟨found, stored, rfl, unpacked⟩ := owns.stored.stored
  have owned : found.owner = K.tokenProgram ∨ found.owner = K.token2022Program := by
    simpa using owns.program
  have held := owns.owned
  have resolved (associated : Bool) :=
    @resolveNewAuthority_ok _ _ _ _ _ settled
      (suggestedToken account.mint command.owner associated address
        command.newAuthoritySigningPubkey) rfl
  have read (associated : Bool) : MigrateToken.readTokenAccount K
      (suggestedToken account.mint command.owner associated address
        command.newAuthoritySigningPubkey) address found = .ok account := by
    rw [MigrateToken.readTokenAccount, bind_of_ok (context_ok_iff.mpr unpacked)]
    exact bind_of_ok (if_pos rfl)
  have program (associated : Bool) : MigrateToken.checkProgram K
      (suggestedToken account.mint command.owner associated address
        command.newAuthoritySigningPubkey) ⟨found.owner, mint⟩ address found = .ok () := if_pos rfl
  have fetched (kind : String) := tokenProgramAccount_reads serves kind stored owned
  by_cases associated :
      K.getAssociatedTokenAddress command.owner account.mint found.owner = address
  · have placed : MigrateToken.sourceAddress K client (suggestedToken account.mint command.owner
        true address command.newAuthoritySigningPubkey) ⟨found.owner, mint⟩ =
        .ok (address, some command.owner, "associated token account") := by
      rw [← associated]
      rfl
    have early : (some command.owner).mapM (MigrateToken.resolveNewAuthority K
        (suggestedToken account.mint command.owner true address
          command.newAuthoritySigningPubkey)) = .ok (some (signingPubkey, newOwner)) := by
      simp [resolved true, Functor.map, Except.map]
    have kept (reason : Failure) :
        ensure (account.owner = (some command.owner).getD account.owner) reason = .ok () :=
      if_pos held
    rw [decide_eq_true associated, MigrateToken.readSource, bind_of_ok placed]
    refine (bind_of_ok early).trans ((bind_of_ok (fetched _)).trans ((bind_of_ok
      (program true)).trans ((bind_of_ok (read true)).trans ((bind_of_ok (kept _)).trans ?_))))
    exact bind_pure_eq_map _ _
  · have placed : MigrateToken.sourceAddress K client (suggestedToken account.mint command.owner
        false address command.newAuthoritySigningPubkey) ⟨found.owner, mint⟩ =
        .ok (address, none, "token account") := rfl
    have kept (reason : Failure) :
        ensure (account.owner = (none : Option P.Address).getD account.owner) reason = .ok () :=
      if_pos rfl
    have late : (none : Option (P.Address × P.Address)).elim (MigrateToken.resolveNewAuthority K
        (suggestedToken account.mint command.owner false address
          command.newAuthoritySigningPubkey) account.owner) .ok =
          .ok (signingPubkey, newOwner) := by
      rw [held]
      exact resolved false
    rw [decide_eq_false associated, MigrateToken.readSource, bind_of_ok placed]
    refine (bind_of_ok rfl).trans ((bind_of_ok (fetched _)).trans ((bind_of_ok
      (program false)).trans ((bind_of_ok (read false)).trans ((bind_of_ok (kept _)).trans
        ((bind_of_ok late).trans ?_)))))
    rw [← held]
    exact bind_pure_eq_map _ _

/-- A command without a destination goes to the account that is checked, or to a new one. -/
theorem goesTo_iff {command : TokenCommand P} {plan : TokenPlan P}
    (absent : command.destination = none) (same : command.mint = plan.source.account.mint) :
    (∃ found, MigrateToken.findDestination K client command plan.token plan.destination
        plan.amount = .ok found ∧
      found.mapM (MigrateToken.checkDestination K command plan.source.newOwner plan.destination
        plan.amount) = .ok plan.destinationAccount) ↔ GoesTo K client plan := by
  have checks (positive : 0 < plan.amount) (raw : P.RawAccount) (account : P.TokenAccount) :
      MigrateToken.checkDestination K command plan.source.newOwner plan.destination plan.amount
          raw = .ok account ↔
        K.unpackTokenAccount raw.data = .ok account ∧
          account.mint = plan.source.account.mint ∧ account.owner = plan.source.newOwner ∧
          account.isFrozen = false := by
    have some_ : plan.amount ≠ 0 := (UInt64.ne_of_lt positive).symm
    simp only [MigrateToken.checkDestination, bind_ok_iff, ensure_ok_iff, pure_ok_iff,
      MigrateToken.readTokenAccount_ok_iff, same, some_, false_or]
    constructor
    · rintro ⟨found, ⟨unpacked, mint⟩, _, owned, _, thawed, rfl⟩
      exact ⟨unpacked, mint, owned, thawed⟩
    · rintro ⟨unpacked, mint, owned, thawed⟩
      exact ⟨account, ⟨unpacked, mint⟩, (), owned, (), thawed, rfl⟩
  unfold GoesTo MigrateToken.findDestination
  simp only [absent]
  split
  · rename_i positive
    simp only [bind_ok_iff, pure_ok_iff, option_mapM_ok_iff, checks positive]
    constructor
    · rintro ⟨_, ⟨found, fetched, rfl⟩, related⟩
      exact ⟨found, fetched, related⟩
    · rintro ⟨found, fetched, related⟩
      exact ⟨_, ⟨found, fetched, rfl⟩, related⟩
  · simp only [Except.ok.injEq, exists_eq_left', option_mapM_ok_iff]
    constructor
    · intro related
      generalize plan.destinationAccount = kept at related
      cases related
      rfl
    · intro missing
      rw [missing]
      exact .none

/-- What the command for a token account plans, and what it checks first. -/
theorem plan_suggested (serves : client.Serves snapshot) {command : ScanCommand P}
    {signingPubkey newOwner : P.Address}
    (settled : NewAuthority K command signingPubkey newOwner) {tokenProgram address : P.Address}
    {account : P.TokenAccount} {mint : P.Mint}
    (owns : OwnsTokens K snapshot command.owner address tokenProgram account mint)
    {plan : TokenPlan P} :
    MigrateToken.plan K client (suggestedToken account.mint command.owner
        (decide (K.getAssociatedTokenAddress command.owner account.mint tokenProgram = address))
        address command.newAuthoritySigningPubkey) = .ok plan ↔
      plan = wholeAccount K command.owner tokenProgram address account mint signingPubkey newOwner
          plan.destinationAccount ∧
        plan.source.account.cpiGuard ≠ some true ∧ plan.source.address ≠ plan.destination ∧
        GoesTo K client plan := by
  have minted : MigrateToken.readMint K client (suggestedToken account.mint command.owner
      (decide (K.getAssociatedTokenAddress command.owner account.mint tokenProgram = address))
      address command.newAuthoritySigningPubkey) = .ok ⟨tokenProgram, mint⟩ :=
    readMint_ok serves owns.minted rfl
  have sized : MigrateToken.readAmount K (suggestedToken account.mint command.owner
      (decide (K.getAssociatedTokenAddress command.owner account.mint tokenProgram = address))
      address command.newAuthoritySigningPubkey) mint.decimals address account.amount =
        .ok account.amount := bind_of_ok (if_pos (.inr rfl))
  rw [MigrateToken.plan, bind_of_ok minted, readSource_suggested serves settled owns]
  simp only [bind_ok_iff, map_ok_iff]
  constructor
  · rintro ⟨source, ⟨⟨⟩, unguarded, rfl⟩, amount, read, _, different, found, located,
      destinationAccount, checked, same⟩
    obtain rfl := Except.ok.inj (sized.symm.trans read)
    obtain rfl := pure_ok_iff.mp same
    exact ⟨by simp [wholeAccount, suggestedToken], ensure_ok_iff.mp unguarded,
      ensure_ok_iff.mp different, (goesTo_iff rfl rfl).mp ⟨found, located, checked⟩⟩
  · rintro ⟨same, unguarded, different, goes⟩
    rw [same] at unguarded different goes
    obtain ⟨found, located, checked⟩ := (@goesTo_iff _ K client (suggestedToken account.mint
      command.owner (decide (K.getAssociatedTokenAddress command.owner account.mint
        tokenProgram = address)) address command.newAuthoritySigningPubkey) _ rfl rfl).mpr goes
    refine ⟨_, ⟨(), ensure_ok_iff.mpr unguarded, rfl⟩, _, sized, (), ensure_ok_iff.mpr different,
      found, located, _, checked, ?_⟩
    rw [same]
    simp [wholeAccount, suggestedToken]

/-- What a scan suggests for a token account. -/
theorem tokenItem_suggested (text : K.TextLaws) (words : K.WordLaws)
    (serves : client.Serves snapshot) {command : ScanCommand P} {signingPubkey newOwner : P.Address}
    (settled : NewAuthority K command signingPubkey newOwner) {args : List Text}
    (named : args = Arguments.optionWords (signingOptions K command.newAuthoritySigningPubkey))
    {tokenProgram address : P.Address} {account : P.TokenAccount} {mint : P.Mint}
    (owns : OwnsTokens K snapshot command.owner address tokenProgram account mint) :
    ∃ suggested, TokenSuggested K client solStrToLamports command.owner tokenProgram address
      account mint (tokenItemOf K command.owner args tokenProgram address account mint).command
      suggested signingPubkey newOwner := by
  have plans (plan : TokenPlan P) := @plan_suggested _ _ _ _ serves _ _ _ settled _ _ _ _ owns plan
  refine ⟨suggestedToken account.mint command.owner
    (decide (K.getAssociatedTokenAddress command.owner account.mint tokenProgram = address))
    address command.newAuthoritySigningPubkey, ?_, fun plan planned => ((plans plan).mp planned).1, ?_⟩
  · have line : (tokenItemOf K command.owner args tokenProgram address account mint).command =
        migrateCommand ("token".toList :: K.showAddress account.mint :: Arguments.optionWords
          (sourceOption K command.owner (decide (K.getAssociatedTokenAddress command.owner
              account.mint tokenProgram = address)) address ::
            signingOptions K command.newAuthoritySigningPubkey)) := by
      rw [tokenItemOf, named]
      cases decide (K.getAssociatedTokenAddress command.owner account.mint tokenProgram = address)
        <;> rfl
    rw [line]
    exact readCommand_token solStrToLamports text words account.mint command.owner _ address
      command.newAuthoritySigningPubkey
  · simp only [MigrateToken.run_iff, plans]
    constructor
    · rintro ⟨plan, ⟨same, unguarded, different, destination⟩, sound, compiles⟩
      rw [same] at unguarded different destination sound compiles
      exact ⟨plan.destinationAccount, unguarded, different, destination, sound, compiles⟩
    · rintro ⟨destinationAccount, moves⟩
      exact ⟨_, ⟨rfl, moves.unguarded, moves.different, moves.destination⟩, moves.sound,
        moves.compiles⟩

end Runs

section Report

variable (K : MigrateToolkit P) (client : ChainClient P) (snapshot : P.Snapshot)
  (solStrToLamports : Text → Option UInt64) (command : ScanCommand P)
  (signingPubkey newOwner : P.Address)

/-- The vote accounts that a scan reports: those whose withdrawer is the owner. -/
def ReportsVotes (items : List VoteScanItem) : Prop :=
  Listing.Reports (fun address => ∃ account, VoteAt K snapshot address account command.owner)
    (fun address item => ∃ account, VoteAt K snapshot address account command.owner ∧
      item.voteAccount = K.showAddress address ∧ item.lamports = account.lamports ∧
      ∃ suggested, VoteSuggested K client solStrToLamports command.owner address item.command
        suggested signingPubkey newOwner) items

/-- The programs that a scan reports: those that the owner can upgrade. -/
def ReportsPrograms (items : List ProgramScanItem) : Prop :=
  Listing.Reports
    (fun address => ∃ programData, Upgrades K snapshot command.owner address programData)
    (fun address item => ∃ programData, Upgrades K snapshot command.owner address programData ∧
      item.program = K.showAddress address ∧ item.programData = K.showAddress programData ∧
      ∃ suggested, ProgramSuggested K client solStrToLamports command.owner address programData
        item.command suggested signingPubkey newOwner) items

/-- The token accounts that a scan reports: those of the owner, with a raw balance that reads
back. -/
def ReportsTokens (items : List TokenScanItem) : Prop :=
  Listing.Reports
    (fun address => ∃ tokenProgram ∈ [K.tokenProgram, K.token2022Program], ∃ account,
      TokenAt K snapshot tokenProgram address account ∧ account.owner = command.owner)
    (fun address item => ∃ tokenProgram account mint,
      OwnsTokens K snapshot command.owner address tokenProgram account mint ∧
      item.tokenAccount = K.showAddress address ∧ item.mint = K.showAddress account.mint ∧
      item.tokenProgram = K.showAddress tokenProgram ∧
      parseTokenAmount item.amount mint.decimals = .ok account.amount ∧
      (item.associated = true ↔
        K.getAssociatedTokenAddress command.owner account.mint tokenProgram = address) ∧
      ∃ suggested, TokenSuggested K client solStrToLamports command.owner tokenProgram address
        account mint item.command suggested signingPubkey newOwner) items

/-- The balance that a scan reports, with a command if the System Program can transfer it. -/
structure ReportsSol (item : SolScanItem) : Prop where
  balance : item.lamports =
    ((entryAt snapshot command.owner).map Prod.snd).elim 0 RawAccount.lamports
  migratable : item.command.isSome = true ↔
    ∃ account, client.systemAccount K command.owner = .ok account ∧ 0 < account.lamports
  suggests : ∀ line ∈ item.command, ∃ suggested, SolSuggested K client solStrToLamports
    command.owner item.lamports line suggested signingPubkey newOwner

variable {K client snapshot command signingPubkey newOwner}

theorem isMigratable_iff {account : P.RawAccount} : isMigratable account = true ↔
    account.owner = default ∧ account.data = [] ∧ 0 < account.lamports := by
  simp only [isMigratable, Bool.and_eq_true, decide_eq_true_eq, and_assoc]

theorem scanSol_reports (text : K.TextLaws) (words : K.WordLaws)
    (serves : client.Serves snapshot)
    (settled : NewAuthority K command signingPubkey newOwner) {args : List Text}
    (named : args = Arguments.optionWords (signingOptions K command.newAuthoritySigningPubkey)) :
    ∃ item, scanSol K client command.owner args = .ok item ∧
      ReportsSol K client snapshot solStrToLamports command signingPubkey newOwner item := by
  have found := serves.account command.owner
  rw [scanSol, bind_of_ok found]
  cases present : entryAt snapshot command.owner with
  | none =>
      refine ⟨⟨0, none⟩, rfl, by rw [present]; rfl, ?_, fun _ absent => by cases absent⟩
      refine iff_of_false Bool.false_ne_true fun read => ?_
      obtain ⟨account, read, -⟩ := read
      have here := ((systemAccount_ok_iff serves).mp read).1
      cases present.symm.trans here
  | some stored =>
      obtain ⟨-, same⟩ := (entryAt_eq_some_iff serves.distinct).mp present
      obtain ⟨address, account⟩ := stored
      obtain rfl : address = command.owner := same
      have reads : isMigratable account = true ↔
          ∃ account, client.systemAccount K command.owner = .ok account ∧ 0 < account.lamports := by
        rw [isMigratable_iff]
        constructor
        · intro migratable
          obtain ⟨owned, empty, positive⟩ := migratable
          exact ⟨account, (systemAccount_ok_iff serves).mpr ⟨present, owned, empty⟩, positive⟩
        · intro read
          obtain ⟨account', read, positive⟩ := read
          obtain ⟨here, owned, empty⟩ := (systemAccount_ok_iff serves).mp read
          obtain ⟨-, rfl⟩ := Prod.mk.inj (Option.some.inj (present.symm.trans here))
          exact ⟨owned, empty, positive⟩
      refine ⟨_, rfl, by rw [present]; rfl, ?_, fun line among => ?_⟩
      · rw [← reads]
        cases isMigratable account <;> simp
      · obtain ⟨migratable, same⟩ := Option.ite_none_right_eq_some.mp among
        obtain rfl := Option.some.inj same
        obtain ⟨owned, empty, positive⟩ := isMigratable_iff.mp migratable
        have read : client.systemAccount K command.owner = .ok account :=
          (systemAccount_ok_iff serves).mpr ⟨present, owned, empty⟩
        exact ⟨_, solItem_suggested solStrToLamports text words settled named read positive⟩

end Report

end MigrateScan

namespace Reference

theorem addressAt_of_allows {data : Bytes} {offset address : Nat}
    (allowed : RpcFilter.allows data (.memcmp offset (Wire.tally.encode address)) = true) :
    addressAt data offset = .ok address := by
  obtain ⟨rest, same⟩ := List.isPrefixOf_iff_prefix.mp allowed
  rw [addressAt, ← same, Wire.tally.decode_encode address trivial rest]
  rfl

theorem deserializeVote_ok {data : Bytes} {state : VoteStateVersions Nat} {address withdrawer : Nat}
    (deserialized : deserializeVote data = .ok state)
    (authorized : MigrateVote.authorizedWithdrawer MigrateToolkit.reference state address =
      .ok withdrawer) : addressAt data 36 = .ok withdrawer := by
  obtain ⟨stored, read, same⟩ := Outcome.bind_ok_iff.mp deserialized
  split at same
  all_goals first
    | obtain rfl := Outcome.pure_ok_iff.mp same
      exact read.trans authorized
    | cases same

/-- A loader account that is a program, and one that is program data with an authority. -/
def isProgram (data : Bytes) : Bool := data.length = 36 && data.take 4 = [2, 0, 0, 0]

def isProgramData (data : Bytes) : Bool :=
  data.length ≠ 36 && data.take 4 = [3, 0, 0, 0] && data[12]? = some 1

theorem allows_take {data bytes : Bytes} (same : data.take bytes.length = bytes) :
    RpcFilter.allows data (.memcmp 0 bytes) = true := by
  rw [RpcFilter.allows, List.drop_zero, List.isPrefixOf_iff_prefix]
  exact same ▸ List.take_prefix _ _

theorem head_of_take {data : Bytes} {first : UInt8} {rest : Bytes} {count : Nat}
    (same : data.take count = first :: rest) : data.head? = some first := by
  cases data with
  | nil => simp at same
  | cons byte later =>
      cases count with
      | zero => cases same
      | succ count => exact congrArg some (List.cons.inj same).1

theorem isProgram_deserializes {data : Bytes} (program : isProgram data = true) :
    data.length = 36 ∧ data.take 4 = [2, 0, 0, 0] ∧
      deserializeLoader data = (addressAt data 4).map LoaderState.program := by
  simp only [isProgram, Bool.and_eq_true, decide_eq_true_eq] at program
  refine ⟨program.1, program.2, ?_⟩
  rw [deserializeLoader, head_of_take program.2]
  rfl

theorem isProgramData_deserializes {data : Bytes} (held : isProgramData data = true) :
    data.length ≠ 36 ∧ data.take 4 = [3, 0, 0, 0] ∧ data[12]? = some 1 ∧
      deserializeLoader data = (addressAt data 13).map
        fun authority => .programData (uint64At data 4) (some authority) := by
  simp only [isProgramData, Bool.and_eq_true, decide_eq_true_eq] at held
  obtain ⟨⟨sized, tag⟩, isSome⟩ := held
  have set : data[12]? ≠ some 0 := by
    rw [isSome]
    decide
  refine ⟨sized, tag, isSome, ?_⟩
  rw [deserializeLoader, head_of_take tag]
  exact if_neg set

theorem keepsPrograms {snapshot : Platform.reference.Snapshot}
    (kinds : ∀ entry ∈ snapshot, entry.2.owner = (10 : Nat) →
      isProgram entry.2.data = true ∨ isProgramData entry.2.data = true)
    (headers : ∀ entry ∈ snapshot, entry.2.owner = (10 : Nat) →
      deserializeLoader (entry.2.data.take 45) = deserializeLoader entry.2.data) :
    KeepsPrograms MigrateToolkit.reference snapshot where
  vote _ _ _ _ _ deserialized authorized :=
    allows_addressAt (deserializeVote_ok deserialized authorized)
  programData entry listed owned slot authority deserialized := by
    rcases kinds entry listed owned with program | held
    · obtain ⟨-, -, stored⟩ := isProgram_deserializes program
      obtain ⟨_, -, other⟩ := Outcome.map_ok_iff.mp (stored.symm.trans deserialized)
      cases other
    · obtain ⟨-, tag, isSome, stored⟩ := isProgramData_deserializes held
      obtain ⟨_, read, same⟩ := Outcome.map_ok_iff.mp (stored.symm.trans deserialized)
      obtain ⟨-, same⟩ := LoaderState.programData.inj same
      obtain rfl := Option.some.inj same
      exact ⟨allows_take tag, MigrateScan.allows_byte.mpr isSome, allows_addressAt read⟩
  header entry listed owned slot authority := by
    have same := headers entry listed owned
    exact iff_of_eq (congrArg (· = Except.ok (LoaderState.programData slot authority)) same)
  program entry listed owned sized programData := by
    rcases kinds entry listed owned with program | held
    · obtain ⟨-, tag, stored⟩ := isProgram_deserializes program
      constructor
      · intro deserialized
        obtain ⟨_, read, same⟩ := Outcome.map_ok_iff.mp (stored.symm.trans deserialized)
        obtain rfl := LoaderState.program.inj same
        exact ⟨allows_take tag, allows_addressAt read⟩
      · intro asked
        exact stored.trans (Outcome.map_ok_iff.mpr ⟨_, addressAt_of_allows asked.2, rfl⟩)
    · obtain ⟨other, -⟩ := isProgramData_deserializes held
      exact absurd sized other

/-- A token account as the node shows it, if its mint is there. -/
def shownToken (snapshot : Platform.reference.Snapshot) (tokenProgram : Nat)
    (account : TokenAccount Nat) : Option UiTokenAccount :=
  (entryAt snapshot account.mint).bind fun found =>
    if found.2.owner = tokenProgram ∧ (tokenProgram = 18 ∨ tokenProgram = 20) then
      (unpackMint found.2.data).toOption.map fun mint =>
        ⟨MigrateToolkit.reference.showAddress account.mint, Nat.toDigits 10 account.amount.toNat,
          mint.decimals⟩
    else none

def ownedToken (snapshot : Platform.reference.Snapshot) (owner tokenProgram : Nat)
    (entry : Nat × RawAccount Nat) : Option (Nat × UiTokenAccount) :=
  (unpackTokenAccount entry.2.data).toOption.bind fun account =>
    if entry.2.owner = tokenProgram ∧ account.owner = owner then
      (shownToken snapshot tokenProgram account).map fun shown => (entry.1, shown)
    else none

/-- A node that answers from a snapshot, token accounts included. -/
def scanClient (snapshot : Platform.reference.Snapshot) : ScanClient Platform.reference where
  toChainClient := servingClient snapshot
  tokenAccountsByOwner owner tokenProgram :=
    .ok (snapshot.filterMap (ownedToken snapshot owner tokenProgram))

theorem toOption_eq_some_iff {α : Type} {outcome : Except Failure α} {value : α} :
    outcome.toOption = some value ↔ outcome = .ok value := by
  cases outcome <;> simp [Except.toOption]

theorem ownedToken_eq_some_iff {snapshot : Platform.reference.Snapshot}
    {owner tokenProgram address : Nat} {entry : Nat × RawAccount Nat} {shown : UiTokenAccount} :
    ownedToken snapshot owner tokenProgram entry = some (address, shown) ↔
      entry.1 = address ∧ ∃ account, unpackTokenAccount entry.2.data = .ok account ∧
        entry.2.owner = tokenProgram ∧ account.owner = owner ∧
        shownToken snapshot tokenProgram account = some shown := by
  simp only [ownedToken, Option.bind_eq_some_iff, toOption_eq_some_iff,
    Option.ite_none_right_eq_some, Option.map_eq_some_iff, Prod.mk.injEq]
  constructor
  · intro owned
    obtain ⟨account, unpacked, ⟨program, held⟩, _, kept, here, rfl⟩ := owned
    exact ⟨here, account, unpacked, program, held, kept⟩
  · intro owned
    obtain ⟨here, account, unpacked, program, held, kept⟩ := owned
    exact ⟨account, unpacked, ⟨program, held⟩, shown, kept, here, rfl⟩

theorem keys_filterMap {Entry Shown : Type} (show? : Nat × Entry → Option (Nat × Shown))
    (keeps : ∀ entry shown, show? entry = some shown → shown.1 = entry.1)
    (entries : List (Nat × Entry)) :
    ((entries.filterMap show?).map Prod.fst).Sublist (entries.map Prod.fst) := by
  induction entries with
  | nil => exact List.Sublist.refl _
  | cons entry rest ih =>
      cases kept : show? entry with
      | none =>
          rw [List.filterMap_cons_none kept]
          exact ih.cons entry.1
      | some shown =>
          rw [List.filterMap_cons_some kept, List.map_cons, keeps entry shown kept]
          exact ih.cons_cons entry.1

theorem scanClient_serves {snapshot : Platform.reference.Snapshot}
    (distinct : (snapshot.map Prod.fst).Nodup)
    (minted : ∀ entry ∈ snapshot, ∀ account ∈ (unpackTokenAccount entry.2.data).toOption,
      (shownToken snapshot entry.2.owner account).isSome = true) :
    (scanClient snapshot).Serves MigrateToolkit.reference snapshot where
  chain := servingClient_serves distinct
  distinct owner tokenProgram found answered := by
    obtain rfl := Except.ok.inj answered
    refine distinct.sublist (keys_filterMap _ (fun entry shown kept => ?_) snapshot)
    exact (ownedToken_eq_some_iff.mp kept).1.symm
  parsed owner tokenProgram found answered address shown among := by
    obtain rfl := Except.ok.inj answered
    obtain ⟨entry, listed, kept⟩ := List.mem_filterMap.mp among
    obtain ⟨rfl, account, unpacked, program, held, seen⟩ := ownedToken_eq_some_iff.mp kept
    obtain ⟨stored, present, seen⟩ := Option.bind_eq_some_iff.mp seen
    obtain ⟨⟨under, known⟩, seen⟩ := Option.ite_none_right_eq_some.mp seen
    obtain ⟨mint, read, rfl⟩ := Option.map_eq_some_iff.mp seen
    obtain ⟨-, same⟩ := (entryAt_eq_some_iff distinct).mp present
    have here : entryAt snapshot account.mint = some (account.mint, stored.2) := by
      rw [present, ← same]
    have token : entryAt snapshot entry.1 = some (entry.1, entry.2) :=
      (entryAt_eq_some_iff distinct).mpr ⟨listed, rfl⟩
    refine ⟨account, mint, ⟨entry.2, token, program, unpacked⟩, held,
      ⟨stored.2, ⟨here, ?_, toOption_eq_some_iff.mp read⟩, under⟩, rfl⟩
    rw [under]
    exact known
  complete owner tokenProgram found answered address account stored held := by
    obtain rfl := Except.ok.inj answered
    obtain ⟨raw, present, program, unpacked⟩ := stored.stored
    obtain ⟨listed, -⟩ := (entryAt_eq_some_iff distinct).mp present
    have seen := minted _ listed account (toOption_eq_some_iff.mpr unpacked)
    obtain ⟨shown, seen⟩ := Option.isSome_iff_exists.mp seen
    rw [program] at seen
    exact ⟨shown, List.mem_filterMap.mpr ⟨_, listed,
      ownedToken_eq_some_iff.mpr ⟨rfl, account, unpacked, program, held, seen⟩⟩⟩

/-- A vote account, a program with its data, a mint, an associated and another token account, and
the SOL of one owner. -/
def controlledSnapshot : Platform.reference.Snapshot :=
  [(30, ⟨50, 0, []⟩), (46, ⟨9, 16, field 36 [3] ++ field 32 (Wire.tally.encode 30)⟩),
    (2, ⟨3, 10, [2, 0, 0, 0] ++ field 32 (Wire.tally.encode 4)⟩),
    (4, ⟨5, 10, field 12 [3] ++ [1] ++ field 40 (Wire.tally.encode 30)⟩),
    (42, ⟨1, 20, mintData (some 12) none⟩), (185, ⟨1, 20, packTokenAccount (plainAccount 30 5)⟩),
    (70, ⟨1, 20, packTokenAccount (plainAccount 30 7)⟩)]

end Reference

namespace MigrateScan

/-- A scan reports, each once, the vote accounts, programs and token accounts that its owner
controls, and its SOL. Every command it suggests reads back as one that moves just what is
reported to one new owner, and passes every check on it. Its stake accounts and mints are those
of the scan of these alone. -/
theorem report_suggests {K : MigrateToolkit P} {client : ScanClient P} {snapshot : P.Snapshot}
    (solStrToLamports : Text → Option UInt64) (text : K.TextLaws) (words : K.WordLaws)
    (offCurve : K.DerivesOffCurve) (programs : K.tokenProgram ≠ K.token2022Program)
    (serves : client.Serves K snapshot) (keeps : KeepsPrograms K snapshot)
    {command : ScanCommand P} {output : ScanReport}
    (known : command.newAuthoritySigningPubkey ≠ none ∨ K.isOnCurve command.owner = true)
    (ran : report K client command = .ok output) :
    ∃ signingPubkey newOwner, NewAuthority K command signingPubkey newOwner ∧
      (∃ items, output.vote = .ok items ∧ ReportsVotes K client.toChainClient snapshot
        solStrToLamports command signingPubkey newOwner items) ∧
      (∃ items, output.program = .ok items ∧ ReportsPrograms K client.toChainClient snapshot
        solStrToLamports command signingPubkey newOwner items) ∧
      (∀ items, output.token = .ok items → ReportsTokens K client.toChainClient snapshot
        solStrToLamports command signingPubkey newOwner items) ∧
      (∃ item, output.sol = .ok item ∧ ReportsSol K client.toChainClient snapshot
        solStrToLamports command signingPubkey newOwner item) ∧
      run K client.toChainClient command = .ok output.toScanOutput := by
  have alone : run K client.toChainClient command = .ok output.toScanOutput := by
    rw [← report_run, ran]
    rfl
  obtain ⟨args, named, same⟩ := bind_ok_iff.mp ran
  obtain rfl := pure_ok_iff.mp same
  obtain ⟨signingPubkey, newOwner, settled⟩ := newAuthority_settled offCurve known named
  have words' : args = Arguments.optionWords
      (signingOptions K command.newAuthoritySigningPubkey) := newAuthorityArgs_ok known named
  obtain ⟨votes, scannedVotes, votesListed⟩ :=
    scanVote_reports serves.chain keeps command.owner args
  obtain ⟨listed, scannedPrograms, programsListed⟩ :=
    scanProgram_reports serves.chain keeps command.owner args
  obtain ⟨sol, scannedSol, solListed⟩ :=
    scanSol_reports solStrToLamports text words serves.chain settled words'
  refine ⟨signingPubkey, newOwner, settled,
    ⟨votes, congrArg (Except.mapError K.describeFailure) scannedVotes, ?_⟩,
    ⟨listed, congrArg (Except.mapError K.describeFailure) scannedPrograms, ?_⟩, ?_,
    ⟨sol, congrArg (Except.mapError K.describeFailure) scannedSol, solListed⟩, alone⟩
  · refine votesListed.imp (fun _ => Iff.rfl) fun address item _ described => ?_
    obtain ⟨account, here, rfl⟩ := described
    exact ⟨account, here, rfl, rfl, _,
      voteItem_suggested solStrToLamports text words serves.chain settled words' here⟩
  · refine programsListed.imp (fun _ => Iff.rfl) fun address item _ described => ?_
    obtain ⟨programData, account, here, rfl⟩ := described
    exact ⟨programData, here, rfl, rfl, _,
      programItem_suggested solStrToLamports text words serves.chain settled words' account here⟩
  · intro tokens scanned
    have tokensListed := scanToken_reports text programs serves (mapError_ok_iff.mp scanned)
    refine tokensListed.imp (fun _ => Iff.rfl) fun address item _ described => ?_
    obtain ⟨tokenProgram, account, mint, owns, rfl⟩ := described
    have amount : parseTokenAmount (realNumberStringTrimmed account.amount mint.decimals)
        mint.decimals = .ok account.amount :=
      parseTokenAmount_ok_iff.mpr (realNumberStringTrimmed_inBaseUnits _ _)
    exact ⟨tokenProgram, account, mint, owns, rfl, rfl, rfl, amount, decide_eq_true_iff,
      tokenItem_suggested solStrToLamports text words serves.chain settled words' owns⟩

/-- An on-curve owner of one of each, and of two token accounts. -/
theorem report_suggests_controlled :
    let client := Reference.scanClient Reference.controlledSnapshot
    let command : ScanCommand Platform.reference := ⟨(30 : Nat), none⟩
    ∃ output items signingPubkey newOwner,
      report MigrateToolkit.reference client command = .ok output ∧
      output.token = .ok items ∧ items.length = 2 ∧
      ReportsTokens MigrateToolkit.reference client.toChainClient Reference.controlledSnapshot
        (fun _ => none) command signingPubkey newOwner items ∧
      (∃ votes, output.vote = .ok votes ∧ ReportsVotes MigrateToolkit.reference
        client.toChainClient Reference.controlledSnapshot (fun _ => none) command signingPubkey
        newOwner votes) ∧
      (∃ programs, output.program = .ok programs ∧ ReportsPrograms MigrateToolkit.reference
        client.toChainClient Reference.controlledSnapshot (fun _ => none) command signingPubkey
        newOwner programs) ∧
      ∃ sol, output.sol = .ok sol ∧ ReportsSol MigrateToolkit.reference client.toChainClient
        Reference.controlledSnapshot (fun _ => none) command signingPubkey newOwner sol := by
  intro client command
  have ran : report MigrateToolkit.reference (Reference.scanClient Reference.controlledSnapshot)
      ⟨30, none⟩ = .ok _ := rfl
  have serves : client.Serves MigrateToolkit.reference Reference.controlledSnapshot :=
    Reference.scanClient_serves (by decide +kernel) (by decide +kernel)
  have keeps : KeepsPrograms MigrateToolkit.reference Reference.controlledSnapshot :=
    Reference.keepsPrograms (by decide +kernel) (by decide +kernel)
  have listed : (scanToken MigrateToolkit.reference client (30 : Nat) []).toOption.map
      List.length = some 2 := by decide +kernel
  obtain ⟨items, scanned, two⟩ := Option.map_eq_some_iff.mp listed
  have returned := congrArg (Except.mapError MigrateToolkit.reference.describeFailure)
    (Reference.toOption_eq_some_iff.mp scanned)
  obtain ⟨signingPubkey, newOwner, -, votes, programs, tokens, sol, -⟩ :=
    report_suggests (fun _ => none) Reference.textLaws Reference.wordLaws
      Reference.derivesOffCurve (by decide) serves keeps (.inr rfl) ran
  exact ⟨_, items, signingPubkey, newOwner, ran, returned, two, tokens items returned, votes,
    programs, sol⟩

end MigrateScan

end ProgrammaticSigner
