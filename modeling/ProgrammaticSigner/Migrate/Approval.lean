import ProgrammaticSigner.Migrate.TokenReference
import ProgrammaticSigner.Signer.Authorization

set_option autoImplicit false

/- Every migration needs the new authority: its message has an instruction that the new
authority's programmatic signer signs, which the executor can only pass on if it was
promoted. -/
namespace ProgrammaticSigner

open Outcome

variable {P : Platform}

/-- The authorities, or the owner, that a command moves from, as the chain has them. -/
def MigrateCommand.MovesFrom (K : MigrateToolkit P) (client : ChainClient P) (current : P.Address) :
    MigrateCommand P → Prop
  | mint command => ∃ tokenProgram mint role,
      client.mint K command.mint = .ok (tokenProgram, mint) ∧
      (command.authorityType = none ∨ command.authorityType = some role) ∧
      MigrateMint.currentAuthority mint role = some current
  | program command => ∃ programdataAddress slot,
      client.upgradeableLoaderAccount K command.program "program" =
        .ok (.program programdataAddress) ∧
      client.upgradeableLoaderAccount K programdataAddress "program data account" =
        .ok (.programData slot (some current))
  | sol command => current = command.owner
  | stake command => ∃ state info, ∃ role ∈ MigrateStake.roles command.authorityType,
      client.stakeAccount K command.stakeAccount = .ok state ∧ state.stakeMeta = some info ∧
      current = MigrateStake.currentAuthority info.authorized role
  | token command => ∃ token found raw account,
      MigrateToken.readMint K client command = .ok token ∧
      MigrateToken.sourceAddress K client command token = .ok found ∧
      client.optionalAccount found.1 = .ok (some raw) ∧
      K.unpackTokenAccount raw.data = .ok account ∧ current = account.owner
  | vote command => ∃ state, client.voteAccount K command.voteAccount = .ok state ∧
      MigrateVote.authorizedWithdrawer K state command.voteAccount = .ok current

/-- A migration's output, the message it was built from, and one of that message's
instructions, which the new owner must sign. -/
structure Approvable (K : MigrateToolkit P) (output : MigrationOutput) (signingPubkey : P.Address)
    (message : P.Message) (instructions : List P.Instruction) : Prop where
  reported : output =
    Migrate.output K (deriveAddress P.signerProgram signingPubkey) signingPubkey message
  compiled : K.tryCompileWithConfig (deriveAddress P.signerProgram signingPubkey) instructions
    default default = .ok message
  valid : P.validate message = .ok ()
  approves : ∃ instruction ∈ instructions,
    instruction.grantsSigner (deriveAddress P.signerProgram signingPubkey) = true

section Runs

variable {K : MigrateToolkit P} {client : ChainClient P}

/-- The last two steps of every command, from the instructions it built. -/
theorem Approvable.intro {signingPubkey newOwner : P.Address} {message : P.Message}
    {instructions : List P.Instruction}
    (derived : Migrate.newOwnerProgrammaticSigner K signingPubkey = .ok newOwner)
    (built : Migrate.executionMessage K newOwner instructions = .ok message)
    (approves : ∃ instruction ∈ instructions, instruction.grantsSigner newOwner = true) :
    Approvable K (Migrate.output K newOwner signingPubkey message) signingPubkey message
      instructions := by
  obtain ⟨-, rfl⟩ := Migrate.newOwnerProgrammaticSigner_ok_iff.mp derived
  obtain ⟨compiled, valid⟩ := Migrate.executionMessage_ok_iff.mp built
  exact ⟨rfl, compiled, valid, approves⟩

theorem MigrateMint.instructions_ok {command : MintCommand P} {tokenProgram newOwner : P.Address}
    {roles : List MintAuthorityType} {currents : List P.Address} {built : List P.Instruction}
    (returned : MigrateMint.instructions K command tokenProgram newOwner roles currents = .ok built) :
    (∀ entry ∈ roles.zip currents, entry.2 ≠ newOwner) ∧
      ∃ moves, built = moves ++ [K.buildMemo K.memoProgram (asciiBytes (memo K roles newOwner))
        [newOwner]] := by
  simp only [MigrateMint.instructions, bind_ok_iff, pure_ok_iff] at returned
  obtain ⟨moves, each, rfl⟩ := returned
  refine ⟨fun entry listed => ?_, moves, rfl⟩
  obtain ⟨_, -, moved⟩ := mapM_ok_of_mem each listed
  exact ensure_ok_iff.mp (bind_unit_ok_iff.mp moved).1

/-- Whatever a mint command moves, it lists among the current authorities. -/
theorem MigrateMint.mem_currents {command : MintCommand P} {mint : P.Mint}
    {currents : List P.Address}
    (owned : currentAuthorities K command mint (roles mint command.authorityType).1 =
      .ok currents) {role : MintAuthorityType} {current : P.Address}
    (chosen : command.authorityType = none ∨ command.authorityType = some role)
    (held : currentAuthority mint role = some current) :
    ∃ entry ∈ (roles mint command.authorityType).1.zip currents, entry.2 = current := by
  have listed : role ∈ (roles mint command.authorityType).1 := by
    rcases chosen with all | one
    · rw [all, roles, List.partition_eq_filter_filter, List.mem_filter, held]
      exact ⟨by cases role <;> decide, rfl⟩
    · rw [one, roles]
      exact List.mem_cons_self
  have related := mapM_ok_iff.mp owned
  obtain ⟨position, inside, here⟩ := List.getElem_of_mem listed
  have below : position < currents.length := related.length_eq ▸ inside
  refine ⟨((roles mint command.authorityType).1[position], currents[position]),
    List.mem_iff_getElem.mpr ⟨position, by rw [List.length_zip]; omega, List.getElem_zip⟩, ?_⟩
  have found := okOr_ok_iff.mp ((List.forall₂_iff_get.mp related).2 position inside below)
  rw [List.get_eq_getElem, here, held] at found
  exact (Option.some.inj found).symm

theorem MigrateMint.chosen_of_mem {mint : P.Mint} {authorityType : Option MintAuthorityType}
    {role : MintAuthorityType} (listed : role ∈ (roles mint authorityType).1) :
    authorityType = none ∨ authorityType = some role := by
  cases authorityType with
  | none => exact .inl rfl
  | some chosen => exact .inr (congrArg some (List.mem_singleton.mp listed).symm)

theorem MigrateMint.run_approvable (approval : K.ApprovalLaws) {command : MintCommand P}
    {output : MintMigrationOutput} (ran : MigrateMint.run K client command = .ok output) :
    ∃ signingPubkey message instructions,
      Approvable K output.toMigrationOutput signingPubkey message instructions ∧
      (∃ current, (MigrateCommand.mint command).MovesFrom K client current) ∧
      ∀ current, (MigrateCommand.mint command).MovesFrom K client current →
        current ≠ deriveAddress P.signerProgram signingPubkey := by
  simp only [MigrateMint.run, MigrateMint.finish, bind_ok_iff, pure_ok_iff] at ran
  obtain ⟨found, read, _, any, currents, owned, signingPubkey, -, newOwner, derived, instructions,
    built, message, compiled, rfl⟩ := ran
  obtain ⟨differ, moves, rfl⟩ := MigrateMint.instructions_ok built
  refine ⟨signingPubkey, message, _, .intro derived compiled ?_, ?_, fun current moved => ?_⟩
  · exact ⟨_, List.mem_append_right _ List.mem_cons_self,
      approval.memo _ _ _ _ List.mem_cons_self⟩
  · obtain ⟨role, listed⟩ := List.exists_mem_of_ne_nil _ (ensure_ok_iff.mp any)
    obtain ⟨current, -, held⟩ := mapM_ok_of_mem owned listed
    exact ⟨current, found.1, found.2, role, read, MigrateMint.chosen_of_mem listed,
      okOr_ok_iff.mp held⟩
  · obtain ⟨tokenProgram, mint, role, again, chosen, held⟩ := moved
    obtain rfl := Except.ok.inj (read.symm.trans again)
    obtain ⟨entry, listed, rfl⟩ := MigrateMint.mem_currents owned chosen held
    rw [(Migrate.newOwnerProgrammaticSigner_ok_iff.mp derived).2]
    exact differ entry listed

theorem MigrateStake.run_approvable (approval : K.ApprovalLaws) {command : StakeCommand P}
    {output : StakeMigrationOutput} (ran : MigrateStake.run K client command = .ok output) :
    ∃ signingPubkey message instructions,
      Approvable K output.toMigrationOutput signingPubkey message instructions ∧
      (∃ current, (MigrateCommand.stake command).MovesFrom K client current) ∧
      ∀ current, (MigrateCommand.stake command).MovesFrom K client current →
        current ≠ deriveAddress P.signerProgram signingPubkey := by
  simp only [MigrateStake.run, MigrateStake.finish, bind_ok_iff, okOr_ok_iff, pure_ok_iff] at ran
  obtain ⟨state, read, info, held, signingPubkey, -, newOwner, derived, custodian, -, instructions,
    each, message, compiled, rfl⟩ := ran
  have authorized (role : StakeAuthorize) (listed : role ∈ MigrateStake.roles command.authorityType) :
      ∃ instruction ∈ instructions, MigrateStake.currentAuthority info.authorized role ≠ newOwner ∧
        instruction.grantsSigner newOwner = true := by
    obtain ⟨instruction, among, built⟩ := mapM_ok_of_mem each listed
    obtain ⟨differs, same⟩ := bind_unit_ok_iff.mp built
    rw [pure_ok_iff] at same
    exact ⟨instruction, among, ensure_ok_iff.mp differs, same ▸ approval.stake _ _ _ _ _⟩
  obtain ⟨role, listed⟩ : ∃ role, role ∈ MigrateStake.roles command.authorityType := by
    rcases command.authorityType with - | - | -
    · exact ⟨_, List.mem_cons_self⟩
    · exact ⟨_, List.mem_cons_self⟩
    · exact ⟨_, List.mem_cons_self⟩
  refine ⟨signingPubkey, message, instructions, .intro derived compiled ?_,
    ⟨_, state, info, role, listed, read, held, rfl⟩, fun current moved => ?_⟩
  · obtain ⟨instruction, among, -, signs⟩ := authorized role listed
    exact ⟨instruction, among, signs⟩
  · obtain ⟨state, info, role, listed, again, held', rfl⟩ := moved
    obtain rfl := Except.ok.inj (read.symm.trans again)
    obtain rfl := Option.some.inj (held.symm.trans held')
    obtain ⟨-, -, differs, -⟩ := authorized role listed
    rw [(Migrate.newOwnerProgrammaticSigner_ok_iff.mp derived).2]
    exact differs

theorem MigrateVote.run_approvable (approval : K.ApprovalLaws) {command : VoteCommand P}
    {output : VoteMigrationOutput} (ran : MigrateVote.run K client command = .ok output) :
    ∃ signingPubkey message instructions,
      Approvable K output.toMigrationOutput signingPubkey message instructions ∧
      (∃ current, (MigrateCommand.vote command).MovesFrom K client current) ∧
      ∀ current, (MigrateCommand.vote command).MovesFrom K client current →
        current ≠ deriveAddress P.signerProgram signingPubkey := by
  simp only [MigrateVote.run, bind_ok_iff, ensure_ok_iff, pure_ok_iff] at ran
  obtain ⟨state, read, withdrawer, authorized, signingPubkey, -, newOwner, derived, _, differs,
    message, compiled, rfl⟩ := ran
  refine ⟨signingPubkey, message, _, .intro derived compiled ?_,
    ⟨withdrawer, state, read, authorized⟩, fun current moved => ?_⟩
  · exact ⟨_, List.mem_cons_self, approval.vote _ _ _ _⟩
  · obtain ⟨state, again, held⟩ := moved
    obtain rfl := Except.ok.inj (read.symm.trans again)
    obtain rfl := Except.ok.inj (authorized.symm.trans held)
    rw [(Migrate.newOwnerProgrammaticSigner_ok_iff.mp derived).2]
    exact differs

theorem MigrateProgram.programdataAddress_ok {command : ProgramCommand P} {address : P.Address}
    (pointed : MigrateProgram.programdataAddress K client command = .ok address) :
    client.upgradeableLoaderAccount K command.program "program" = .ok (.program address) := by
  obtain ⟨state, read, found⟩ := bind_ok_iff.mp pointed
  cases state with
  | program programdataAddress =>
      obtain rfl := pure_ok_iff.mp found
      exact read
  | uninitialized => cases found
  | buffer authority => cases found
  | programData slot upgradeAuthorityAddress => cases found

theorem MigrateProgram.upgradeAuthority_ok {command : ProgramCommand P} {data : P.Address}
    {current : P.Address}
    (authorized : MigrateProgram.upgradeAuthority K client command data = .ok current) :
    ∃ slot, client.upgradeableLoaderAccount K data "program data account" =
      .ok (.programData slot (some current)) := by
  obtain ⟨state, read, found⟩ := bind_ok_iff.mp authorized
  cases state with
  | programData slot upgradeAuthorityAddress =>
      obtain rfl := okOr_ok_iff.mp found
      exact ⟨slot, read⟩
  | uninitialized => cases found
  | buffer authority => cases found
  | program programdataAddress => cases found

theorem MigrateProgram.run_approvable (approval : K.ApprovalLaws) {command : ProgramCommand P}
    {output : ProgramMigrationOutput} (ran : MigrateProgram.run K client command = .ok output) :
    ∃ signingPubkey message instructions,
      Approvable K output.toMigrationOutput signingPubkey message instructions ∧
      (∃ current, (MigrateCommand.program command).MovesFrom K client current) ∧
      ∀ current, (MigrateCommand.program command).MovesFrom K client current →
        current ≠ deriveAddress P.signerProgram signingPubkey := by
  simp only [MigrateProgram.run, bind_ok_iff, ensure_ok_iff, pure_ok_iff] at ran
  obtain ⟨programdata, pointed, upgradeAuthority, authorized, signingPubkey, -, newOwner, derived, _,
    differs, message, compiled, rfl⟩ := ran
  refine ⟨signingPubkey, message, _, .intro derived compiled ?_,
    ⟨upgradeAuthority, programdata, ?_⟩, fun current moved => ?_⟩
  · exact ⟨_, List.mem_cons_self, approval.program _ _ _⟩
  · obtain ⟨slot, held⟩ := MigrateProgram.upgradeAuthority_ok authorized
    exact ⟨slot, MigrateProgram.programdataAddress_ok pointed, held⟩
  · obtain ⟨data, slot, again, held⟩ := moved
    have pointed' := MigrateProgram.programdataAddress_ok pointed
    obtain rfl := LoaderState.program.inj (Except.ok.inj (again.symm.trans pointed'))
    obtain ⟨slot', held'⟩ := MigrateProgram.upgradeAuthority_ok authorized
    obtain ⟨-, same⟩ := LoaderState.programData.inj (Except.ok.inj (held.symm.trans held'))
    obtain rfl := Option.some.inj same
    rw [(Migrate.newOwnerProgrammaticSigner_ok_iff.mp derived).2]
    exact differs

theorem MigrateSol.run_approvable (approval : K.ApprovalLaws) {command : SolCommand P}
    {output : SolMigrationOutput} (ran : MigrateSol.run K client command = .ok output) :
    ∃ signingPubkey message instructions,
      Approvable K output.toMigrationOutput signingPubkey message instructions ∧
      (∃ current, (MigrateCommand.sol command).MovesFrom K client current) ∧
      ∀ current, (MigrateCommand.sol command).MovesFrom K client current →
        current ≠ deriveAddress P.signerProgram signingPubkey := by
  simp only [MigrateSol.run, bind_ok_iff, ensure_ok_iff, pure_ok_iff] at ran
  obtain ⟨signingPubkey, -, newOwner, derived, _, differs, account, -, rent, -, _, -, _, -, _, -,
    message, compiled, rfl⟩ := ran
  refine ⟨signingPubkey, message, _, .intro derived compiled ?_, ⟨command.owner, rfl⟩,
    fun current moved => ?_⟩
  · exact ⟨_, List.mem_cons_of_mem _ List.mem_cons_self,
      approval.memo _ _ _ _ List.mem_cons_self⟩
  · obtain rfl := moved
    rw [(Migrate.newOwnerProgrammaticSigner_ok_iff.mp derived).2]
    exact differs

theorem MigrateToken.run_approvable (approval : K.ApprovalLaws) {command : TokenCommand P}
    {output : TokenMigrationOutput} (ran : MigrateToken.run K client command = .ok output) :
    ∃ signingPubkey message instructions,
      Approvable K output.toMigrationOutput signingPubkey message instructions ∧
      (∃ current, (MigrateCommand.token command).MovesFrom K client current) ∧
      ∀ current, (MigrateCommand.token command).MovesFrom K client current →
        current ≠ deriveAddress P.signerProgram signingPubkey := by
  obtain ⟨plan, built, message, planned, builds, compiled, rfl⟩ := MigrateToken.run_ok ran
  have checked := MigrateToken.plan_ok planned
  have related := (MigrateToken.instructions_ok builds).1
  refine ⟨_, message, _, .intro checked.newOwner compiled ?_, ?_, fun current moved => ?_⟩
  · have memo : TokenOperation.memo plan.source.newOwner ∈ plan.operations command :=
      List.mem_append_right _ List.mem_cons_self
    obtain ⟨instruction, listed, carried⟩ := exists_of_forall₂ related.flip memo
    refine ⟨instruction, listed, ?_⟩
    rw [← Except.ok.inj carried]
    exact approval.memo _ _ _ _ List.mem_cons_self
  · obtain ⟨owner, kind, addressed⟩ := checked.sourceAddress
    obtain ⟨raw, stored, -, unpacked⟩ := checked.source
    exact ⟨_, plan.token, _, raw, _, checked.readMint, addressed, stored, unpacked, rfl⟩
  · obtain ⟨token, found, raw, account, minted, addressed, stored, unpacked, rfl⟩ := moved
    obtain rfl := Except.ok.inj (checked.readMint.symm.trans minted)
    obtain ⟨owner, kind, again⟩ := checked.sourceAddress
    obtain rfl := Except.ok.inj (again.symm.trans addressed)
    obtain ⟨raw', stored', -, unpacked'⟩ := checked.source
    obtain rfl := Option.some.inj (Except.ok.inj (stored.symm.trans stored'))
    obtain rfl := Except.ok.inj (unpacked.symm.trans unpacked')
    rw [(Migrate.newOwnerProgrammaticSigner_ok_iff.mp checked.newOwner).2, checked.sourceOwner]
    exact checked.differs

/-- Whatever the command, its output can be approved. -/
theorem Migrate.run_approvable (approval : K.ApprovalLaws) {command : MigrateCommand P}
    {output : MigrateOutput} (ran : Migrate.run K client command = .ok output) :
    ∃ signingPubkey message instructions,
      Approvable K output.migration signingPubkey message instructions ∧
      (∃ current, command.MovesFrom K client current) ∧
      ∀ current, command.MovesFrom K client current →
        current ≠ deriveAddress P.signerProgram signingPubkey := by
  cases command with
  | mint command =>
      obtain ⟨_, returned, rfl⟩ := map_ok_iff.mp ran
      exact MigrateMint.run_approvable approval returned
  | program command =>
      obtain ⟨_, returned, rfl⟩ := map_ok_iff.mp ran
      exact MigrateProgram.run_approvable approval returned
  | sol command =>
      obtain ⟨_, returned, rfl⟩ := map_ok_iff.mp ran
      exact MigrateSol.run_approvable approval returned
  | stake command =>
      obtain ⟨_, returned, rfl⟩ := map_ok_iff.mp ran
      exact MigrateStake.run_approvable approval returned
  | token command =>
      obtain ⟨_, returned, rfl⟩ := map_ok_iff.mp ran
      exact MigrateToken.run_approvable approval returned
  | vote command =>
      obtain ⟨_, returned, rfl⟩ := map_ok_iff.mp ran
      exact MigrateVote.run_approvable approval returned

end Runs

/-- An `Execute` of a migration's message that returned, under the nonce it was signed for. -/
structure ExecutesMigration (message : P.Message) (ledger : P.Ledger) (execute : P.Instruction) :
    Prop where
  decoded : ∃ nonce, ExecutorInstruction.tryFromBytes execute.data =
    .ok (.execute (.v1 { message with lifetimeSpecifier := nonce }))
  returned : (processExecutorInstruction ledger execute.views execute.data).result = .ok ()

section Approvals

variable {K : MigrateToolkit P} {output : MigrationOutput} {signingPubkey : P.Address}
  {message : P.Message} {instructions : List P.Instruction}
  (approvable : Approvable K output signingPubkey message instructions)
include approvable

theorem Approvable.first (messages : P.MessageLaws) (compile : K.CompileLaws) :
    message.signerKeys.head? = some (deriveAddress P.signerProgram signingPubkey) := by
  have formed := messages.wellFormed message approvable.valid
  have payer := compile.feePayer _ _ _ _ _ approvable.compiled
  have signed : message.header.numRequiredSignatures.toNat ≠ 0 := by
    have := formed.readonlySigned
    omega
  rw [Message.signerKeys, List.head?_take, if_neg signed, payer]

/-- The message keeps the account that makes the new owner sign. -/
theorem Approvable.listed (messages : P.MessageLaws) (compile : K.CompileLaws) :
    ∃ ix ∈ message.instructions, ∃ index ∈ ix.accounts,
      index.toNat < message.header.numRequiredSignatures.toNat ∧
      message.accountKeys[index.toNat]? = some (deriveAddress P.signerProgram signingPubkey) := by
  have formed := messages.wellFormed message approvable.valid
  obtain ⟨instruction, listed, signs⟩ := approvable.approves
  obtain ⟨account, among, named, -⟩ := Instruction.grantsSigner_iff.mp signs
  obtain ⟨ix, kept, -, accounts, -⟩ := exists_of_forall₂
    (compile.instructions _ _ _ _ _ approvable.compiled).flip listed
  have found : some account.pubkey ∈ ix.accounts.map fun index => message.accountKeys[index.toNat]? := by
    rw [accounts]
    exact List.mem_map_of_mem among
  obtain ⟨index, position, here⟩ := List.mem_map.mp found
  rw [named] at here
  refine ⟨ix, kept, index, position, ?_, here⟩
  -- Keys are distinct, so the account is the fee payer's.
  obtain ⟨inside, at_index⟩ := List.getElem?_eq_some_iff.mp here
  have payer := compile.feePayer _ _ _ _ _ approvable.compiled
  rw [List.head?_eq_getElem?] at payer
  obtain ⟨nonempty, at_zero⟩ := List.getElem?_eq_some_iff.mp payer
  have zero := (formed.distinct.getElem_inj_iff).mp (at_index.trans at_zero.symm)
  have := formed.readonlySigned
  omega

/-- An execution passes the new owner on as a signer, without seeds of its own. -/
theorem Approvable.issues (messages : P.MessageLaws) (compile : K.CompileLaws) {ledger : P.Ledger}
    {execute : P.Instruction} (executes : ExecutesMigration message ledger execute) :
    ∃ cpi ∈ (processExecutorInstruction ledger execute.views execute.data).calls,
      cpi.signers = [] ∧
      cpi.instruction.grantsSigner (deriveAddress P.signerProgram signingPubkey) = true := by
  obtain ⟨ix, listed, index, position, signs, here⟩ := approvable.listed messages compile
  obtain ⟨nonce, decoded⟩ := executes.decoded
  obtain ⟨nonceAuthority, nonceAccount, executed, state, decoded', -, calls⟩ :=
    processExecutorInstruction_accepts messages (Issued.not_refused_of_ok executes.returned)
  obtain rfl : executed = { message with lifetimeSpecifier := nonce } := by
    rw [decoded] at decoded'
    exact (VersionedMessage.v1.inj (ExecutorInstruction.execute.inj
      (Except.ok.inj decoded'))).symm
  refine ⟨executionCpi { message with lifetimeSpecifier := nonce } ix, ?_, rfl, ?_⟩
  · rw [calls]
    exact List.mem_cons_of_mem _ (List.mem_map_of_mem listed)
  · refine Instruction.grantsSigner_iff.mpr ⟨_, List.mem_map_of_mem position, ?_, ?_⟩
    · have inside := (List.getElem?_eq_some_iff.mp here).1
      exact Option.some.inj ((Message.keyAt_eq inside).symm.trans here)
    · show P.isSigner { message with lifetimeSpecifier := nonce } index.toNat = true
      rw [messages.isSigner]
      exact decide_eq_true signs

/-- The runtime lets an execution pass only if it was given the new owner as a signer. -/
theorem Approvable.granted (messages : P.MessageLaws) (compile : K.CompileLaws) {ledger : P.Ledger}
    {execute : P.Instruction} (executes : ExecutesMigration message ledger execute)
    (permitted : ∀ cpi ∈ (processExecutorInstruction ledger execute.views execute.data).calls,
      cpi.Permitted execute) :
    execute.grantsSigner (deriveAddress P.signerProgram signingPubkey) = true := by
  obtain ⟨cpi, issued, unsigned, signs⟩ := approvable.issues messages compile executes
  rcases (permitted cpi issued).signer signs with granted | seeded
  · exact granted
  · obtain ⟨seeds, given, -⟩ := seeded
    rw [unsigned] at given
    cases given

end Approvals

/-- A message that a migration outputs validates, has the new authority's programmatic signer
first, and uses it as a signer. Its execution needs that signer, so below a submission it only
completes if the reported signing pubkey signed the authorization message. -/
theorem migrations_need_approval {K : MigrateToolkit P} {client : ChainClient P}
    (messages : P.MessageLaws) (derivation : P.DerivationLaws) (compile : K.CompileLaws)
    (approval : K.ApprovalLaws) {command : MigrateCommand P} {output : MigrateOutput}
    (ran : Migrate.run K client command = .ok output) :
    ∃ signingPubkey message newOwner, newOwner = deriveAddress P.signerProgram signingPubkey ∧
      output.migration.newAuthoritySigningPubkey = K.showAddress signingPubkey ∧
      output.migration.newAuthority = K.showAddress newOwner ∧
      output.migration.executionMessage = K.encodeBase64 (Platform.serializeV1 message) ∧
      P.validate message = .ok () ∧
      message.signerKeys.head? = some newOwner ∧
      (∃ current, command.MovesFrom K client current) ∧
      (∀ current, command.MovesFrom K client current → current ≠ newOwner) ∧
      (∃ ix ∈ message.instructions, ∃ index ∈ ix.accounts,
        index.toNat < message.header.numRequiredSignatures.toNat ∧
        message.accountKeys[index.toNat]? = some newOwner) ∧
      ∀ ledger execute, ExecutesMigration message ledger execute →
        (∃ cpi ∈ (processExecutorInstruction ledger execute.views execute.data).calls,
          cpi.signers = [] ∧ cpi.instruction.grantsSigner newOwner = true) ∧
        ((∀ cpi ∈ (processExecutorInstruction ledger execute.views execute.data).calls,
            cpi.Permitted execute) →
          execute.grantsSigner newOwner = true ∧
          ∀ relay, ExecutorCall relay execute → relay.grantsSigner newOwner = false →
            ∃ (signatures : List (Option P.Signature)) (authorization : P.Message) (index : Nat)
              (signature : P.Signature),
              SignerInstruction.tryFromBytes relay.data =
                .ok (.submit signatures (.v1 authorization)) ∧
              authorization.signerKeys[index]? = some signingPubkey ∧
              signatures[index]? = some (some signature) ∧
              P.verifyStrict signingPubkey signature (Platform.serializeV1 authorization) =
                true) := by
  obtain ⟨signingPubkey, message, instructions, approvable, moves, differs⟩ :=
    Migrate.run_approvable approval ran
  refine ⟨signingPubkey, message, _, rfl, ?_, ?_, ?_, approvable.valid,
    approvable.first messages compile, moves, differs, approvable.listed messages compile,
    fun ledger execute executes => ⟨approvable.issues messages compile executes,
      fun permitted => ?_⟩⟩
  · rw [approvable.reported]
    rfl
  · rw [approvable.reported]
    rfl
  · rw [approvable.reported]
    rfl
  · have granted := approvable.granted messages compile executes permitted
    refine ⟨granted, fun relay call unsigned => ?_⟩
    obtain ⟨signatures, authorization, decoded, -, -⟩ := call.decoded messages
    rcases call.authorized messages decoded granted with signed | promoted
    · rw [unsigned] at signed
      cases signed.1
    · obtain ⟨index, authority, signature, key, given, verified, same⟩ := promoted
      obtain rfl := derivation.injective _ _ same
      exact ⟨signatures, authorization, index, signature, decoded, key, given, verified⟩

namespace Reference

/-- SOL, a stake account, a vote account and a program, beside a mint and token accounts. -/
def migratable : List (Nat × RawAccount Nat) :=
  [(30, ⟨100, 0, []⟩), (60, ⟨7, 14, stakeData 30 30⟩),
    (46, ⟨9, 16, field 36 [3] ++ field 32 (Wire.tally.encode 30)⟩),
    (2, ⟨3, 10, [2, 0, 0, 0] ++ field 32 (Wire.tally.encode 4)⟩),
    (4, ⟨5, 10, field 12 [3] ++ [1] ++ field 40 (Wire.tally.encode 30)⟩)] ++ tokenSnapshot

/-- One command of each kind. -/
def migrations : List (MigrateCommand Platform.reference) :=
  [.sol ⟨30, none, none⟩, .stake ⟨60, none, none⟩, .vote ⟨46, none⟩, .program ⟨2, none⟩,
    .mint ⟨42, none, none⟩, .token (tokenCommand 72)]

theorem migrations_return : ∀ command ∈ migrations,
    (Migrate.run MigrateToolkit.reference (chainClient migratable) command).isOk = true := by
  decide +kernel

theorem compiled_config {feePayer : Nat} {instructions : List Platform.reference.Instruction}
    {blockhash : Bytes} {config : TransactionConfig} {message : Platform.reference.Message}
    (compiled : MigrateToolkit.reference.tryCompileWithConfig feePayer instructions blockhash
      config = .ok message) : message.config = config := by
  obtain ⟨_, _, same⟩ := bind_ok_iff.mp compiled
  obtain ⟨_, _, same⟩ := bind_ok_iff.mp same
  obtain rfl := pure_ok_iff.mp same
  rfl

theorem encoded_inj {first second : Platform.reference.Message}
    (same : MigrateToolkit.reference.encodeBase64 (Platform.serializeV1 first) =
      MigrateToolkit.reference.encodeBase64 (Platform.serializeV1 second)) : first = second := by
  have decoded := congrArg MigrateToolkit.reference.decodeBase64 same
  have bytes : Platform.serializeV1 first = Platform.serializeV1 second :=
    Except.ok.inj ((textLaws.base64 _).symm.trans (decoded.trans (textLaws.base64 _)))
  exact VersionedMessage.v1.inj (Platform.reference.messageWire.encode_inj (messageWire_total _)
    (messageWire_total _) bytes)

/-- The message's execution on the open nonce account. -/
def executeOf (message : Platform.reference.Message) : Platform.reference.Instruction :=
  ExecutorClient.execute nonceAccount nonceAuthority
    { message with lifetimeSpecifier := state.nonce }

theorem executeOf_executes {message : Platform.reference.Message}
    (valid : Platform.reference.validate message = .ok ()) (config : message.config = default) :
    ExecutesMigration message opened (executeOf message) ∧
      ∀ cpi ∈ (processExecutorInstruction opened (executeOf message).views
        (executeOf message).data).calls, cpi.Permitted (executeOf message) := by
  have same : ({ message with lifetimeSpecifier := state.nonce } : Platform.reference.Message) =
      { message with lifetimeSpecifier := state.nonce, config := default } := by
    rw [← config]
  have reset : Platform.reference.validate
      { message with lifetimeSpecifier := state.nonce } = .ok () := by
    rw [same]
    exact messageLaws.resets message state.nonce valid
  have carries := ExecutorClient.execute_carries nonceAccount nonceAuthority
    (messageLaws.wellFormed _ reset)
  have issued := carries.issues messageLaws reset config held rfl
  refine ⟨⟨⟨_, carries.decoded (messageLaws.serializes _ reset)⟩, congrArg Issued.result issued⟩,
    fun cpi among => carries.covers cpi ?_⟩
  rwa [executeOf, issued] at among

end Reference

/-- A migration of each kind goes to the owner's own programmatic signer, and its execution takes
that signer from a submission that the owner approved. -/
theorem migrations_need_approval_each : Reference.migrations.Forall fun command =>
    ∃ output signingPubkey message execute, Migrate.run MigrateToolkit.reference
        (Reference.chainClient Reference.migratable) command = .ok output ∧
      output.migration.newAuthoritySigningPubkey =
        MigrateToolkit.reference.showAddress signingPubkey ∧
      Platform.reference.validate message = .ok () ∧
      message.signerKeys.head? =
        some (deriveAddress Platform.reference.signerProgram signingPubkey) ∧
      ExecutesMigration message Reference.opened execute ∧
      execute.grantsSigner (deriveAddress Platform.reference.signerProgram signingPubkey) = true ∧
      ∀ relay, ExecutorCall relay execute → relay.grantsSigner
          (deriveAddress Platform.reference.signerProgram signingPubkey) = false →
        ∃ (signatures : List (Option Platform.reference.Signature))
          (authorization : Platform.reference.Message) (index : Nat)
          (signature : Platform.reference.Signature),
          SignerInstruction.tryFromBytes relay.data =
            .ok (.submit signatures (.v1 authorization)) ∧
          authorization.signerKeys[index]? = some signingPubkey ∧
          signatures[index]? = some (some signature) ∧
          Platform.reference.verifyStrict signingPubkey signature
            (Platform.serializeV1 authorization) = true := by
  refine List.forall_iff_forall_mem.mpr fun command listed => ?_
  obtain ⟨output, ran⟩ := Reference.exists_of_isOk (Reference.migrations_return command listed)
  obtain ⟨signingPubkey, message, newOwner, rfl, reported, -, encoded, valid, first, -, -, -,
    executions⟩ := migrations_need_approval Reference.messageLaws Reference.derivationLaws
      Reference.compileLaws Reference.approvalLaws ran
  obtain ⟨_, compiled, _, approvable, -⟩ := Migrate.run_approvable Reference.approvalLaws ran
  obtain rfl : compiled = message := Reference.encoded_inj
    ((congrArg MigrationOutput.executionMessage approvable.reported).symm.trans encoded)
  obtain ⟨executes, permitted⟩ := Reference.executeOf_executes valid
    (Reference.compiled_config approvable.compiled)
  obtain ⟨granted, submitted⟩ := (executions _ _ executes).2 permitted
  exact ⟨output, signingPubkey, compiled, _, ran, reported, valid, first, executes, granted,
    submitted⟩

end ProgrammaticSigner
