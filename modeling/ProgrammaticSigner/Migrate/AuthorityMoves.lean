import ProgrammaticSigner.Migrate.Approval
import ProgrammaticSigner.Migrate.AuthorityReference

set_option autoImplicit false

/- A migration of authorities or SOL goes through whenever it is run, and moves just what it
reports. -/
namespace ProgrammaticSigner

open Outcome

variable {P : Platform}

/-- The authorities that a command is asked to move. -/
def MigrateCommand.Asks (ledger : AuthorityLedger P) : MigrateCommand P → P.AuthoritySeat → Prop
  | .mint command, .mint tokenProgram address role => address = command.mint ∧
      (ledger.mint tokenProgram address).isSome = true ∧
      (command.authorityType = none ∨ command.authorityType = some role)
  | .stake command, .stake account role => account = command.stakeAccount ∧
      role ∈ MigrateStake.roles command.authorityType
  | .vote command, .vote account => account = command.voteAccount
  | .program command, .program address => address = command.program
  | _, _ => False

/-- The authorities that an output says are moved. A vote account's withdrawer and a program's
upgrade authority go without saying. -/
def MigrateOutput.Names : MigrateOutput → P.AuthoritySeat → Prop
  | .mint output, .mint _ _ role => role.name.toList ∈ output.authorityTypes
  | .stake output, .stake _ role => (MigrateStake.roleName role).toList ∈ output.authorityTypes
  | _, _ => True

/-- What a command leaves to the programs: an authority of a mint may be a multisig, and rewards
may be being distributed when a stake account's authorities are to move. -/
structure MigrateCommand.Unimpeded (now : Moment) (ledger : AuthorityLedger P)
    (command : MigrateCommand P) : Prop where
  single : ∀ tokenProgram address role current,
    command.Asks ledger (.mint tokenProgram address role) →
    ledger.holder (.mint tokenProgram address role) = some current →
    ledger.isMultisig current = false
  distributed : ∀ account role, command.Asks ledger (.stake account role) →
    now.epochRewardsActive = false

theorem MigrateStake.roles_nonempty (authorityType : Option StakeAuthorityType) :
    ∃ role, role ∈ MigrateStake.roles authorityType := by
  cases authorityType with
  | none => exact ⟨.staker, List.mem_cons_self⟩
  | some chosen => cases chosen <;> exact ⟨_, List.mem_cons_self⟩

theorem StakeCommand.unimpeded_iff {now : Moment} {command : StakeCommand P}
    {ledger : AuthorityLedger P} :
    (MigrateCommand.stake command).Unimpeded now ledger ↔ now.epochRewardsActive = false := by
  refine ⟨fun unimpeded => ?_, fun settled => ⟨fun _ _ _ _ asked => asked.elim, fun _ _ _ => settled⟩⟩
  obtain ⟨role, asked⟩ := MigrateStake.roles_nonempty command.authorityType
  exact unimpeded.distributed command.stakeAccount role ⟨rfl, asked⟩

/-- The authorities that were asked for and are set have moved, as reported, and nothing else
has. -/
structure HandsOver (command : MigrateCommand P) (output : MigrateOutput) (newOwner : P.Address)
    (ledger final : AuthorityLedger P) : Prop where
  moved : ∀ seat, command.Asks ledger seat → (ledger.holder seat).isSome = true →
    final.holder seat = some newOwner
  kept : ∀ seat, ¬(command.Asks ledger seat ∧ (ledger.holder seat).isSome = true) →
    final.holder seat = ledger.holder seat
  named : ∀ seat, command.Asks ledger seat →
    (output.Names seat ↔ (ledger.holder seat).isSome = true)
  rest : ∃ seats : List P.AuthoritySeat,
    final = seats.foldl (fun ledger seat => ledger.pass seat newOwner) ledger

/-- The reported lamports have moved, and leave two accounts that the runtime accepts. -/
structure MovesLamports (owner newOwner : P.Address) (output : SolMigrationOutput) (rent : UInt64)
    (ledger final : AuthorityLedger P) : Prop where
  moved : 0 < output.lamports ∧ output.lamports ≤ ledger.lamports owner
  transferred : final = ledger.transfer owner newOwner output.lamports
  conserved : (final.lamports owner).toNat + (final.lamports newOwner).toNat =
    (ledger.lamports owner).toNat + (ledger.lamports newOwner).toNat
  exempt : final.lamports owner = 0 ∨ rent ≤ final.lamports owner
  newExempt : rent ≤ final.lamports newOwner
  closes : output.closesAccount = true ↔ final.lamports owner = 0

/-- What a migration other than a token migration does. -/
def Settles (client : ChainClient P) (newOwner : P.Address) (ledger final : AuthorityLedger P) :
    MigrateCommand P → MigrateOutput → Prop
  | .sol command, .sol output => ∃ rent, client.minimumBalanceForRentExemption 0 = .ok rent ∧
      MovesLamports command.owner newOwner output rent ledger final
  | .token _, _ => False
  | command, output => HandsOver command output newOwner ledger final

/-- The instructions of an output, as compiled into its message. -/
structure Migrates (K : MigrateToolkit P) (output : MigrateOutput) (newOwner : P.Address)
    (message : P.Message) (instructions : List P.Instruction) : Prop where
  compiled : K.tryCompileWithConfig newOwner instructions default default = .ok message
  valid : P.validate message = .ok ()
  executionMessage : output.migration.executionMessage =
    K.encodeBase64 (Platform.serializeV1 message)
  newAuthority : output.migration.newAuthority = K.showAddress newOwner

section Handovers

variable {K : MigrateToolkit P} {client : ChainClient P} {runtime : AuthorityRuntime P}
  {ledger : AuthorityLedger P} {now : Moment}

/-- Handovers of what a command is asked for, and then instructions that only make someone
sign. -/
structure Handovers (K : MigrateToolkit P) (runtime : AuthorityRuntime P) (now : Moment)
    (command : MigrateCommand P) (output : MigrateOutput) (newOwner : P.Address)
    (ledger : AuthorityLedger P) (instructions : List P.Instruction)
    (seats : List (P.AuthoritySeat × P.Address)) (custodian : Option P.Address) : Prop where
  distinct : (seats.map Prod.fst).Nodup
  held : ∀ seat ∈ seats, ledger.holder seat.1 = some seat.2
  asked : ∀ seat, seat ∈ seats.map Prod.fst ↔
    command.Asks ledger seat ∧ (ledger.holder seat).isSome = true
  named : ∀ seat, command.Asks ledger seat →
    (output.Names seat ↔ (ledger.holder seat).isSome = true)
  allowed : (∀ seat ∈ seats, (authoritySeating K now custodian).allows ledger seat.1) ↔
    command.Unimpeded now ledger
  runs : ∃ moves silent, instructions = moves ++ silent ∧
    List.Forall₂ ((authoritySeating K now custodian).Carries (runtime.invoke now) newOwner)
      seats moves ∧
    ∀ instruction ∈ silent, ∀ ledger after,
      runtime.invoke now ledger instruction = .ok after ↔ after = ledger

theorem runAll_silent {silent : List P.Instruction}
    (quiet : ∀ instruction ∈ silent, ∀ ledger after,
      runtime.invoke now ledger instruction = .ok after ↔ after = ledger)
    {final : AuthorityLedger P} :
    runtime.runAll now ledger silent = .ok final ↔ final = ledger := by
  induction silent with
  | nil => exact ⟨fun ran => (Except.ok.inj ran).symm, fun same => congrArg Except.ok same.symm⟩
  | cons instruction rest ih =>
      have here := quiet instruction List.mem_cons_self
      have later := ih fun other listed => quiet other (List.mem_cons_of_mem _ listed)
      rw [AuthorityRuntime.runAll, List.foldlM_cons, bind_of_ok ((here ledger ledger).mpr rfl)]
      exact later

variable {command : MigrateCommand P} {output : MigrateOutput} {newOwner : P.Address}
  {instructions : List P.Instruction} {seats : List (P.AuthoritySeat × P.Address)}
  {custodian : Option P.Address}
  (handovers : Handovers K runtime now command output newOwner ledger instructions seats custodian)
include handovers

theorem Handovers.runAll_iff {final : AuthorityLedger P} :
    runtime.runAll now ledger instructions = .ok final ↔ command.Unimpeded now ledger ∧
      final = (authoritySeating K now custodian).passAll ledger (seats.map Prod.fst) newOwner := by
  obtain ⟨moves, silent, rfl, carries, quiet⟩ := handovers.runs
  rw [AuthorityRuntime.runAll, List.foldlM_append, bind_ok_iff, ← handovers.allowed]
  have moved := @Seating.Lawful.foldlM_iff _ _ _ _ _ _
    (authoritySeating_lawful K now custodian) _ _ _ _ carries handovers.distinct _ handovers.held
  constructor
  · intro ran
    obtain ⟨middle, first, last⟩ := ran
    obtain ⟨allowed, rfl⟩ := moved.mp first
    exact ⟨allowed, (runAll_silent quiet).mp last⟩
  · intro ran
    obtain ⟨allowed, rfl⟩ := ran
    exact ⟨_, moved.mpr ⟨allowed, rfl⟩, (runAll_silent quiet).mpr rfl⟩

theorem Handovers.handsOver {final : AuthorityLedger P}
    (ran : runtime.runAll now ledger instructions = .ok final) :
    HandsOver command output newOwner ledger final := by
  obtain ⟨-, rfl⟩ := handovers.runAll_iff.mp ran
  have listed : ∀ seat ∈ seats.map Prod.fst, (ledger.holder seat).isSome = true :=
    fun seat among => ((handovers.asked seat).mp among).2
  have holds := (authoritySeating_lawful K now custodian).holder_passAll listed newOwner
  refine ⟨fun seat asks here => ?_, fun seat other => ?_, handovers.named, _, rfl⟩
  · exact (holds seat).trans (if_pos ((handovers.asked seat).mpr ⟨asks, here⟩))
  · exact (holds seat).trans (if_neg fun among => other ((handovers.asked seat).mp among))

end Handovers

section Commands

variable {K : MigrateToolkit P} {client : ChainClient P} {runtime : AuthorityRuntime P}
  {ledger : AuthorityLedger P} {now : Moment}

/-- What a run of a command comes down to. -/
def HandsOverBy (K : MigrateToolkit P) (runtime : AuthorityRuntime P) (now : Moment)
    (ledger : AuthorityLedger P) (command : MigrateCommand P) (output : MigrateOutput) : Prop :=
  ∃ newOwner message instructions seats custodian,
    Migrates K output newOwner message instructions ∧
    Handovers K runtime now command output newOwner ledger instructions seats custodian

/-- A command that moves one authority, which is set. -/
theorem Handovers.single {command : MigrateCommand P} {output : MigrateOutput}
    {newOwner : P.Address} {seat : P.AuthoritySeat} {current : P.Address}
    {instruction : P.Instruction} (held : ledger.holder seat = some current)
    (asks : ∀ other, command.Asks ledger other ↔ other = seat) (names : output.Names seat)
    (allowed : (authoritySeating K now none).allows ledger seat)
    (unminted : ∀ tokenProgram address role, seat ≠ .mint tokenProgram address role)
    (unstaked : ∀ account role, seat ≠ .stake account role)
    (carries : (authoritySeating K now none).Carries (runtime.invoke now) newOwner (seat, current)
      instruction) :
    Handovers K runtime now command output newOwner ledger [instruction] [(seat, current)]
      none where
  distinct := List.nodup_singleton _
  held other listed := by
    rw [List.mem_singleton.mp listed]
    exact held
  asked other := by
    rw [asks, List.map_singleton, List.mem_singleton]
    exact ⟨fun same => ⟨same, by rw [same, held]; rfl⟩, And.left⟩
  named other asked := by
    rw [(asks other).mp asked, held]
    exact iff_of_true names rfl
  allowed := by
    refine iff_of_true (fun other listed => ?_)
      ⟨fun tokenProgram address role current' asked => ?_, fun account role asked => ?_⟩
    · rw [List.mem_singleton.mp listed]
      exact allowed
    · exact absurd ((asks _).mp asked).symm (unminted tokenProgram address role)
    · exact absurd ((asks _).mp asked).symm (unstaked account role)
  runs := ⟨[instruction], [], rfl, .cons carries .nil, fun _ listed => nomatch listed⟩

theorem MigrateVote.run_handsOver (rules : runtime.Laws K) (read : ledger.ReadBy K client)
    {command : VoteCommand P} {output : VoteMigrationOutput}
    (ran : MigrateVote.run K client command = .ok output) :
    HandsOverBy K runtime now ledger (.vote command) (.vote output) := by
  simp only [MigrateVote.run, bind_ok_iff, pure_ok_iff] at ran
  obtain ⟨state, found, withdrawer, authorized, _, -, newOwner, -, _, -, message, compiled, rfl⟩ :=
    ran
  obtain ⟨compiled, valid⟩ := Migrate.executionMessage_ok_iff.mp compiled
  have holds : ledger.holder (.vote command.voteAccount) = some withdrawer :=
    read.vote _ _ _ found authorized
  refine ⟨newOwner, message, _, _, none, ⟨compiled, valid, rfl, rfl⟩,
    .single holds (fun other => ?_) trivial trivial (by simp) (by simp) (rules.vote now _ _ _)⟩
  cases other <;> simp [MigrateCommand.Asks]

theorem MigrateProgram.run_handsOver (rules : runtime.Laws K) (read : ledger.ReadBy K client)
    {command : ProgramCommand P} {output : ProgramMigrationOutput}
    (ran : MigrateProgram.run K client command = .ok output) :
    HandsOverBy K runtime now ledger (.program command) (.program output) := by
  simp only [MigrateProgram.run, bind_ok_iff, pure_ok_iff] at ran
  obtain ⟨data, pointed, authority, held, _, -, newOwner, -, _, -, message, compiled, rfl⟩ := ran
  obtain ⟨compiled, valid⟩ := Migrate.executionMessage_ok_iff.mp compiled
  have points := MigrateProgram.programdataAddress_ok pointed
  obtain ⟨slot, named⟩ := MigrateProgram.upgradeAuthority_ok held
  have holds : ledger.holder (.program command.program) = some authority :=
    read.program _ _ slot _ points named
  refine ⟨newOwner, message, _, _, none, ⟨compiled, valid, rfl, rfl⟩,
    .single holds (fun other => ?_) trivial trivial (by simp) (by simp) (rules.program now _ _ _)⟩
  cases other <;> simp [MigrateCommand.Asks]

/-- The custodian that was read to be needed is the one that is needed later, if any is. -/
theorem MigrateStake.custodian_serves (locks : K.LocksUp)
    (later : ∀ clock, client.clock = .ok clock → clock.Before now.clock)
    {lockup : StakeLockup P.Address} {roles : List StakeAuthorize} {custodian : Option P.Address}
    (settled : MigrateStake.custodian K client lockup roles = .ok custodian)
    (moved : StakeAuthorize.withdrawer ∈ roles) (locked : K.isInForce lockup now.clock none = true) :
    ∃ signer ∈ custodian, K.isInForce lockup now.clock (some signer) = false := by
  rw [MigrateStake.custodian, if_pos moved] at settled
  obtain ⟨clock, ticks, named⟩ := bind_ok_iff.mp settled
  have before := later clock ticks
  have force := ((locks _ _ _).mp locked).2
  -- A lockup that holds now held when the command was run.
  have held : K.isInForce lockup clock none = true := by
    refine (locks _ _ _).mpr ⟨nofun, force.imp (fun time => ?_) fun epoch => ?_⟩
    · exact lt_of_le_of_lt before.unixTimestamp time
    · exact UInt64.lt_of_le_of_lt before.epoch epoch
  rw [held, if_pos rfl] at named
  obtain rfl := pure_ok_iff.mp named
  refine ⟨lockup.custodian, rfl, ?_⟩
  rw [Bool.eq_false_iff, ne_eq, locks]
  exact fun forced => forced.1 rfl

theorem MigrateStake.roles_nodup (authorityType : Option StakeAuthorityType) :
    (MigrateStake.roles authorityType).Nodup := by
  cases authorityType with
  | none => decide
  | some chosen => cases chosen <;> decide

theorem MigrateStake.run_handsOver (rules : runtime.Laws K) (locks : K.LocksUp)
    (read : ledger.ReadBy K client) (later : ∀ clock, client.clock = .ok clock → clock.Before now.clock)
    {command : StakeCommand P} {output : StakeMigrationOutput}
    (ran : MigrateStake.run K client command = .ok output) :
    HandsOverBy K runtime now ledger (.stake command) (.stake output) := by
  simp only [MigrateStake.run, MigrateStake.finish, bind_ok_iff, pure_ok_iff] at ran
  obtain ⟨state, found, info, initialized, signingPubkey, -, newOwner, -, custodian, settled,
    instructions, each, message, compiled, rfl⟩ := ran
  obtain ⟨compiled, valid⟩ := Migrate.executionMessage_ok_iff.mp compiled
  have stored := read.stake _ _ _ found (okOr_ok_iff.mp initialized)
  have holds (role : StakeAuthorize) : ledger.holder (.stake command.stakeAccount role) =
      some (MigrateStake.currentAuthority info.authorized role) := by
    rw [AuthorityLedger.holder, stored]
    rfl
  let seats := (MigrateStake.roles command.authorityType).map fun role =>
    (AuthoritySeat.stake command.stakeAccount role,
      MigrateStake.currentAuthority info.authorized role)
  have listed (seat : P.AuthoritySeat) : seat ∈ seats.map Prod.fst ↔
      ∃ role ∈ MigrateStake.roles command.authorityType,
        AuthoritySeat.stake command.stakeAccount role = seat := by
    rw [List.map_map, List.mem_map]
    rfl
  refine ⟨newOwner, message, instructions, seats, custodian, ⟨compiled, valid, rfl, rfl⟩,
    ⟨?_, ?_, fun seat => ?_, fun seat asked => ?_, ?_, instructions, [], (List.append_nil _).symm,
      ?_, fun _ none => by cases none⟩⟩
  · rw [List.map_map]
    exact (MigrateStake.roles_nodup _).map fun _ _ same => (AuthoritySeat.stake.inj same).2
  · intro seat among
    obtain ⟨role, -, rfl⟩ := List.mem_map.mp among
    exact holds role
  · rw [listed]
    constructor
    · rintro ⟨role, among, rfl⟩
      exact ⟨⟨rfl, among⟩, by rw [holds]; rfl⟩
    · rintro ⟨asked, -⟩
      cases seat with
      | stake account role =>
          obtain ⟨rfl, among⟩ := asked
          exact ⟨role, among, rfl⟩
      | vote | mint | program => exact asked.elim
  · cases seat with
    | stake account role =>
        obtain ⟨rfl, among⟩ := asked
        refine iff_of_true (List.mem_map_of_mem among) ?_
        rw [holds]
        rfl
    | vote | mint | program => exact asked.elim
  · rw [StakeCommand.unimpeded_iff]
    constructor
    · intro allowed
      obtain ⟨role, moved⟩ := MigrateStake.roles_nonempty command.authorityType
      have first := allowed _ (List.mem_map_of_mem moved)
      cases role with
      | staker => exact first
      | withdrawer => exact first.1
    · intro distributed seat among
      obtain ⟨role, moved, rfl⟩ := List.mem_map.mp among
      cases role with
      | staker => exact distributed
      | withdrawer =>
          refine ⟨distributed, fun info' here locked => ?_⟩
          obtain rfl := Option.some.inj (stored.symm.trans here)
          exact MigrateStake.custodian_serves locks later settled moved locked
  · refine List.forall₂_map_left_iff.mpr
      ((mapM_ok_iff.mp each).imp fun role instruction built => ?_)
    simp only [MigrateStake.authorize, bind_unit_ok_iff, pure_ok_iff] at built
    obtain ⟨-, rfl⟩ := built
    cases role with
    -- The staker's handover asks for no custodian.
    | staker => exact rules.stake now _ _ _ .staker none
    | withdrawer => exact rules.stake now _ _ _ .withdrawer custodian

theorem MigrateMint.roles_nodup (mint : P.Mint) (authorityType : Option MintAuthorityType) :
    (MigrateMint.roles mint authorityType).1.Nodup := by
  cases authorityType with
  | none =>
      rw [MigrateMint.roles, List.partition_eq_filter_filter]
      exact List.Nodup.filter _ (by decide)
  | some role => exact List.nodup_singleton role

/-- The roles that a command moves are those it asks for that are set. -/
theorem MigrateMint.mem_roles_iff {mint : P.Mint} {authorityType : Option MintAuthorityType}
    (set : ∀ role ∈ (MigrateMint.roles mint authorityType).1,
      (MigrateMint.currentAuthority mint role).isSome = true) (role : MintAuthorityType) :
    role ∈ (MigrateMint.roles mint authorityType).1 ↔
      (authorityType = none ∨ authorityType = some role) ∧
        (MigrateMint.currentAuthority mint role).isSome = true := by
  refine ⟨fun listed => ⟨MigrateMint.chosen_of_mem listed, set role listed⟩, fun asked => ?_⟩
  obtain ⟨none | one, here⟩ := asked
  · rw [none, MigrateMint.roles, List.partition_eq_filter_filter, List.mem_filter]
    exact ⟨by cases role <;> decide, here⟩
  · rw [one]
    exact List.mem_singleton_self role

theorem MigrateMint.name_inj {first second : MintAuthorityType}
    (same : first.name.toList = second.name.toList) : first = second := by
  revert same
  cases first <;> cases second <;> decide

/-- Each role is paired with the authority that holds it. -/
theorem MigrateMint.currentAuthorities_ok {command : MintCommand P} {mint : P.Mint}
    {roles : List MintAuthorityType} {currents : List P.Address}
    (owned : MigrateMint.currentAuthorities K command mint roles = .ok currents) :
    (roles.zip currents).map Prod.fst = roles ∧
      (∀ entry ∈ roles.zip currents, MigrateMint.currentAuthority mint entry.1 = some entry.2) ∧
      ∀ role ∈ roles, (MigrateMint.currentAuthority mint role).isSome = true := by
  have related : List.Forall₂ (fun role current =>
      MigrateMint.currentAuthority mint role = some current) roles currents :=
    (mapM_ok_iff.mp owned).imp fun _ _ here => okOr_ok_iff.mp here
  obtain ⟨length, held⟩ := List.forall₂_iff_zip.mp related
  refine ⟨List.map_fst_zip length.le, fun entry listed => held listed, fun role listed => ?_⟩
  obtain ⟨current, -, here⟩ := exists_of_forall₂ related.flip listed
  rw [here]
  rfl

theorem MigrateMint.run_handsOver (rules : runtime.Laws K) (read : ledger.ReadBy K client)
    {command : MintCommand P} {output : MintMigrationOutput}
    (ran : MigrateMint.run K client command = .ok output) :
    HandsOverBy K runtime now ledger (.mint command) (.mint output) := by
  simp only [MigrateMint.run, MigrateMint.finish, MigrateMint.instructions, bind_ok_iff,
    pure_ok_iff] at ran
  obtain ⟨⟨tokenProgram, mint⟩, found, _, -, currents, owned, signingPubkey, -, newOwner, -,
    instructions, ⟨moves, each, rfl⟩, message, compiled, rfl⟩ := ran
  obtain ⟨compiled, valid⟩ := Migrate.executionMessage_ok_iff.mp compiled
  obtain ⟨stored, elsewhere⟩ := read.mint _ _ _ found
  have holds (role : MintAuthorityType) : ledger.holder (.mint tokenProgram command.mint role) =
      MigrateMint.currentAuthority mint role := by
    rw [AuthorityLedger.holder, stored]
    rfl
  let roles := (MigrateMint.roles mint command.authorityType).1
  have owned : MigrateMint.currentAuthorities K command mint roles = .ok currents := owned
  obtain ⟨paired, held, set⟩ := MigrateMint.currentAuthorities_ok owned
  let seats := (roles.zip currents).map fun entry =>
    (AuthoritySeat.mint tokenProgram command.mint entry.1, entry.2)
  have keys : seats.map Prod.fst = roles.map (AuthoritySeat.mint tokenProgram command.mint) := by
    rw [← paired, List.map_map, List.map_map]
    rfl
  -- A mint that is asked for is the one that was read.
  have asks {program address : P.Address} {role : MintAuthorityType}
      (asked : (MigrateCommand.mint command).Asks ledger (.mint program address role)) :
      program = tokenProgram ∧ address = command.mint ∧
        (command.authorityType = none ∨ command.authorityType = some role) := by
    obtain ⟨rfl, there, chosen⟩ := asked
    refine ⟨?_, rfl, chosen⟩
    by_contra other
    rw [elsewhere program other] at there
    cases there
  refine ⟨newOwner, message, _, seats, none, ⟨compiled, valid, rfl, rfl⟩,
    ⟨?_, ?_, fun seat => ?_, fun seat asked => ?_, ?_, moves, _, rfl, ?_, ?_⟩⟩
  · rw [keys]
    exact (MigrateMint.roles_nodup mint _).map fun _ _ same => (AuthoritySeat.mint.inj same).2.2
  · intro seat among
    obtain ⟨entry, listed, rfl⟩ := List.mem_map.mp among
    exact (holds entry.1).trans (held entry listed)
  · rw [keys, List.mem_map]
    constructor
    · rintro ⟨role, listed, rfl⟩
      obtain ⟨chosen, here⟩ := (MigrateMint.mem_roles_iff set role).mp listed
      exact ⟨⟨rfl, by rw [stored]; rfl, chosen⟩, by rw [holds]; exact here⟩
    · rintro ⟨asked, here⟩
      cases seat with
      | mint program address role =>
          obtain ⟨rfl, rfl, chosen⟩ := asks asked
          rw [holds] at here
          exact ⟨role, (MigrateMint.mem_roles_iff set role).mpr ⟨chosen, here⟩, rfl⟩
      | stake | vote | program => exact asked.elim
  · cases seat with
    | mint program address role =>
        obtain ⟨rfl, rfl, chosen⟩ := asks asked
        rw [holds]
        constructor
        · intro named
          obtain ⟨role', listed, same⟩ := List.mem_map.mp named
          obtain rfl := MigrateMint.name_inj same
          exact set role' listed
        · intro here
          exact List.mem_map_of_mem ((MigrateMint.mem_roles_iff set role).mpr ⟨chosen, here⟩)
    | stake | vote | program => exact asked.elim
  · constructor
    · refine fun allowed => ⟨fun program address role current asked here => ?_,
        fun _ _ asked => asked.elim⟩
      obtain ⟨rfl, rfl, chosen⟩ := asks asked
      have present := here
      rw [holds] at present
      have listed : role ∈ roles :=
        (MigrateMint.mem_roles_iff set role).mpr ⟨chosen, by rw [present]; rfl⟩
      rw [← paired] at listed
      obtain ⟨entry, among, rfl⟩ := List.mem_map.mp listed
      exact allowed _ (List.mem_map_of_mem among) current here
    · intro unimpeded seat among
      obtain ⟨entry, listed, rfl⟩ := List.mem_map.mp among
      intro current here
      have role := List.mem_map_of_mem (f := Prod.fst) listed
      rw [paired] at role
      obtain ⟨chosen, -⟩ := (MigrateMint.mem_roles_iff set entry.1).mp role
      exact unimpeded.single _ _ _ current ⟨rfl, by rw [stored]; rfl, chosen⟩ here
  · refine List.forall₂_map_left_iff.mpr
      ((mapM_ok_iff.mp each).imp fun entry instruction built => ?_)
    simp only [MigrateMint.setAuthority, bind_unit_ok_iff, context_ok_iff, mapError_ok_iff] at built
    exact rules.mint now _ _ _ _ _ _ built.2
  · intro instruction listed
    rw [List.mem_singleton.mp listed]
    exact fun ledger after => rules.memo now ledger _ _ after

theorem toNat_saturatingSubU64 (left right : UInt64) :
    (saturatingSubU64 left right).toNat = left.toNat - right.toNat := by
  have := left.toNat_lt
  rw [saturatingSubU64, UInt64.toNat_ofNat']
  omega

theorem toNat_saturatingAddU64 (left right : UInt64) :
    (saturatingAddU64 left right).toNat = min (left.toNat + right.toNat) maxU64 := by
  rw [saturatingAddU64, UInt64.toNat_ofNat', maxU64]
  omega

/-- What the checks of an amount leave: enough to move, and a rent-exempt rest or none. -/
theorem MigrateSol.checkAmount_ok {command : SolCommand P} {lamports balance rent : UInt64}
    {value : Unit} (checked : MigrateSol.checkAmount K command lamports balance rent = .ok value)
    (positive : 0 < lamports) :
    lamports ≤ balance ∧ (lamports = balance ∨ rent.toNat + lamports.toNat ≤ balance.toNat) := by
  unfold MigrateSol.checkAmount at checked
  split at checked
  · have within := UInt64.le_iff_toNat_le.mp (ensure_ok_iff.mp checked)
    rw [toNat_saturatingSubU64] at within
    have := UInt64.lt_iff_toNat_lt.mp positive
    rw [UInt64.le_iff_toNat_le]
    simp only [UInt64.toNat_zero] at this
    omega
  · rename_i whole
    have whole : lamports = balance := not_not.mp whole
    exact ⟨whole ▸ UInt64.le_refl _, .inl whole⟩

theorem AuthorityLedger.transfer_moves {owner newOwner : P.Address} (apart : owner ≠ newOwner)
    (bounded : ledger.Bounded) {output : SolMigrationOutput} {rent balance existing : UInt64}
    (held : ledger.lamports owner = balance) (found : ledger.lamports newOwner = existing)
    (positive : 0 < output.lamports) (within : output.lamports ≤ balance)
    (rest : output.lamports = balance ∨ rent.toNat + output.lamports.toNat ≤ balance.toNat)
    (enough : rent ≤ saturatingAddU64 existing output.lamports)
    (closes : output.closesAccount = decide (output.lamports = balance)) :
    MovesLamports owner newOwner output rent ledger
      (ledger.transfer owner newOwner output.lamports) := by
  subst held found
  have source : (ledger.transfer owner newOwner output.lamports).lamports owner =
      ledger.lamports owner - output.lamports := by simp [transfer, apart]
  have target : (ledger.transfer owner newOwner output.lamports).lamports newOwner =
      ledger.lamports newOwner + output.lamports := by simp [transfer]
  have less := UInt64.le_iff_toNat_le.mp within
  have supply := bounded owner newOwner apart
  have left := UInt64.toNat_sub_of_le _ _ within
  have gained : (ledger.lamports newOwner + output.lamports).toNat =
      (ledger.lamports newOwner).toNat + output.lamports.toNat := by
    rw [UInt64.toNat_add]
    omega
  have emptied : ledger.lamports owner - output.lamports = 0 ↔
      output.lamports = ledger.lamports owner := by
    rw [← UInt64.toNat_inj, ← UInt64.toNat_inj, left, UInt64.toNat_zero]
    omega
  refine ⟨⟨positive, within⟩, rfl, ?_, ?_, ?_, ?_⟩
  · rw [source, target, left, gained]
    omega
  · rw [source, emptied, UInt64.le_iff_toNat_le, left]
    exact rest.imp_right fun exempt => by omega
  · rw [target, UInt64.le_iff_toNat_le, gained]
    rw [UInt64.le_iff_toNat_le, toNat_saturatingAddU64] at enough
    exact le_trans enough (min_le_left _ _)
  · rw [source, emptied, closes, decide_eq_true_iff]

theorem ChainClient.systemAccount_found {address : P.Address} {account : P.RawAccount}
    (read : client.systemAccount K address = .ok account) :
    client.optionalAccount address = .ok (some account) := by
  simp only [systemAccount, ChainClient.account, bind_ok_iff, okOr_ok_iff, pure_ok_iff] at read
  obtain ⟨_, ⟨_, found, rfl⟩, _, -, _, -, rfl⟩ := read
  exact found

theorem MigrateSol.run_moves (rules : runtime.Laws K) (read : ledger.ReadBy K client)
    (bounded : ledger.Bounded) {command : SolCommand P} {output : SolMigrationOutput}
    (ran : MigrateSol.run K client command = .ok output) :
    ∃ newOwner message instructions rent final,
      Migrates K (.sol output) newOwner message instructions ∧
      client.minimumBalanceForRentExemption 0 = .ok rent ∧
      runtime.runAll now ledger instructions = .ok final ∧
      MovesLamports command.owner newOwner output rent ledger final := by
  simp only [MigrateSol.run, MigrateSol.checkNewOwner, bind_ok_iff, pure_ok_iff, ensure_ok_iff,
    exists_const] at ran
  obtain ⟨signingPubkey, -, newOwner, -, apart, account, found, rent, exempt, positive,
    _, amount, ⟨existing, looked, enough⟩, message, compiled, rfl⟩ := ran
  obtain ⟨compiled, valid⟩ := Migrate.executionMessage_ok_iff.mp compiled
  have balance : ledger.lamports command.owner = account.lamports :=
    read.lamports _ _ (ChainClient.systemAccount_found found)
  have plain := read.plain _ _ found
  obtain ⟨within, rest⟩ := MigrateSol.checkAmount_ok amount positive
  have supply := bounded command.owner newOwner apart
  have held : command.amount.getD account.lamports ≤ ledger.lamports command.owner := by
    rw [balance]
    exact within
  have fits := UInt64.le_iff_toNat_le.mp held
  refine ⟨newOwner, message, _, rent, _, ⟨compiled, valid, rfl, rfl⟩, exempt, ?_,
    ledger.transfer_moves apart bounded balance (read.lamports _ _ looked) positive within rest
      enough rfl⟩
  simp only [AuthorityRuntime.runAll, List.foldlM_cons, List.foldlM_nil, bind_ok_iff, pure_ok_iff,
    rules.memo, rules.transfer now _ _ _ _ _ apart]
  exact ⟨_, ⟨plain, held, by omega, rfl⟩, _, rfl, rfl⟩

end Commands

/-- The message of a migration of authorities or SOL goes through whenever it is run on what was
read, however much later, unless an authority of a mint is a multisig, or it is a stake account's
and rewards are being distributed. Then it moves exactly what it was asked for and reports: the
authorities that are set, or the lamports, to the new owner. -/
theorem migrations_move_exactly {K : MigrateToolkit P} {client : ChainClient P}
    {runtime : AuthorityRuntime P} {ledger : AuthorityLedger P} {now : Moment}
    (rules : runtime.Laws K) (locks : K.LocksUp) (read : ledger.ReadBy K client)
    (bounded : ledger.Bounded) (later : ∀ clock, client.clock = .ok clock → clock.Before now.clock)
    {command : MigrateCommand P} {output : MigrateOutput}
    (ran : Migrate.run K client command = .ok output)
    (authorities : ∀ tokens, command ≠ .token tokens) :
    ∃ newOwner message instructions, Migrates K output newOwner message instructions ∧
      ((∃ final, runtime.runAll now ledger instructions = .ok final) ↔
        command.Unimpeded now ledger) ∧
      ∀ final, runtime.runAll now ledger instructions = .ok final →
        Settles client newOwner ledger final command output := by
  have hands {command : MigrateCommand P} {output : MigrateOutput}
      (handsOver : HandsOverBy K runtime now ledger command output) :
      ∃ newOwner message instructions, Migrates K output newOwner message instructions ∧
        ((∃ final, runtime.runAll now ledger instructions = .ok final) ↔
          command.Unimpeded now ledger) ∧
        ∀ final, runtime.runAll now ledger instructions = .ok final →
          HandsOver command output newOwner ledger final := by
    obtain ⟨newOwner, message, instructions, seats, custodian, migrates, handovers⟩ := handsOver
    refine ⟨newOwner, message, instructions, migrates, ?_, fun final => handovers.handsOver⟩
    exact ⟨fun ⟨final, ran⟩ => (handovers.runAll_iff.mp ran).1,
      fun unimpeded => ⟨_, handovers.runAll_iff.mpr ⟨unimpeded, rfl⟩⟩⟩
  cases command with
  | mint command =>
      obtain ⟨_, returned, rfl⟩ := map_ok_iff.mp ran
      exact hands (MigrateMint.run_handsOver rules read returned)
  | program command =>
      obtain ⟨_, returned, rfl⟩ := map_ok_iff.mp ran
      exact hands (MigrateProgram.run_handsOver rules read returned)
  | sol command =>
      obtain ⟨_, returned, rfl⟩ := map_ok_iff.mp ran
      obtain ⟨newOwner, message, instructions, rent, final, migrates, exempt, goes, moves⟩ :=
        MigrateSol.run_moves rules read bounded returned
      refine ⟨newOwner, message, instructions, migrates,
        iff_of_true ⟨final, goes⟩ ⟨fun _ _ _ _ asked => asked.elim, fun _ _ asked => asked.elim⟩,
        fun final' ran' => ?_⟩
      obtain rfl := Except.ok.inj (goes.symm.trans ran')
      exact ⟨rent, exempt, moves⟩
  | stake command =>
      obtain ⟨_, returned, rfl⟩ := map_ok_iff.mp ran
      exact hands (MigrateStake.run_handsOver rules locks read later returned)
  | token tokens => exact absurd rfl (authorities tokens)
  | vote command =>
      obtain ⟨_, returned, rfl⟩ := map_ok_iff.mp ran
      exact hands (MigrateVote.run_handsOver rules read returned)

namespace Reference

/-- A stake account whose lockup lasts until some time. -/
def lockedStakeData (authority custodian : Nat) (unixTimestamp : UInt64) : Bytes :=
  field 12 [1] ++ field 32 (Wire.tally.encode authority) ++ field 32 (Wire.tally.encode authority) ++
    Wire.uint64.encode unixTimestamp ++ field 8 [] ++ field 108 (Wire.tally.encode custodian)

def lockedClient : ChainClient Platform.reference :=
  chainClient [(60, ⟨100, 14, lockedStakeData 30 32 100⟩)]

theorem lockedClient_bounded :
    (lockedClient.authorities MigrateToolkit.reference).Bounded := by
  have few (address : Nat) :
      ((lockedClient.authorities MigrateToolkit.reference).lamports address).toNat ≤ 100 := by
    by_cases same : (60 : Nat) = address
    · simp [ChainClient.authorities, lockedClient, chainClient, same, Except.toOption]
    · simp [ChainClient.authorities, lockedClient, chainClient, same, Except.toOption]
  intro first second _
  have := few first
  have := few second
  omega

/-- Half way into the lockup, with last epoch's rewards paid out. -/
def halfway : Moment := ⟨⟨50, 0⟩, false⟩

theorem lockedClient_later (clock : Clock) (ticks : lockedClient.clock = .ok clock) :
    clock.Before halfway.clock := by
  obtain rfl := Except.ok.inj ticks
  exact ⟨by decide, by decide⟩

theorem lockedClient_holds (role : StakeAuthorize) :
    ((lockedClient.authorities MigrateToolkit.reference).holder (.stake 60 role)).isSome =
      true := by
  cases role <;> decide +kernel

end Reference

/-- Both authorities of a locked stake account move with its custodian, half way into the
lockup. -/
theorem migrations_move_exactly_locked :
    ∃ output newOwner instructions final,
      Migrate.run MigrateToolkit.reference Reference.lockedClient (.stake ⟨60, none, none⟩) =
        .ok output ∧
      Reference.authorityRuntime.runAll Reference.halfway
        (Reference.lockedClient.authorities MigrateToolkit.reference) instructions = .ok final ∧
      final.holder (.stake 60 .staker) = some newOwner ∧
      final.holder (.stake 60 .withdrawer) = some newOwner := by
  obtain ⟨output, returned⟩ : ∃ output, MigrateStake.run MigrateToolkit.reference
      Reference.lockedClient ⟨60, none, none⟩ = .ok output :=
    Reference.exists_of_isOk (by decide +kernel)
  have ran : Migrate.run MigrateToolkit.reference Reference.lockedClient
      (.stake ⟨60, none, none⟩) = .ok (.stake output) := by
    rw [Migrate.run, returned]
    rfl
  obtain ⟨newOwner, message, instructions, -, completes, settles⟩ :=
    migrations_move_exactly Reference.authorityRuntime_laws Reference.locksUp
      (Reference.lockedClient.authorities_readBy MigrateToolkit.reference)
      Reference.lockedClient_bounded
      Reference.lockedClient_later ran (fun _ => nofun)
  obtain ⟨final, ran'⟩ := completes.mpr (StakeCommand.unimpeded_iff.mpr rfl)
  have moved := HandsOver.moved (settles final ran')
  have staker := moved (.stake 60 .staker) ⟨rfl, by decide⟩ (Reference.lockedClient_holds _)
  have withdrawer := moved (.stake 60 .withdrawer) ⟨rfl, by decide⟩ (Reference.lockedClient_holds _)
  exact ⟨_, newOwner, instructions, final, ran, ran', staker, withdrawer⟩

end ProgrammaticSigner
