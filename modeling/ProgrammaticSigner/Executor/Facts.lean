import ProgrammaticSigner.Executor.Program

set_option autoImplicit false

/- Everything an `Execute` instruction can issue, read off its code once. -/
namespace ProgrammaticSigner

open Outcome

variable {P : Platform}

/-- The message's own account at an index. -/
def Message.accountAt (message : P.Message) (index : UInt8) : P.AccountMeta :=
  ⟨message.keyAt index, P.isSigner message index.toNat, P.isMaybeWritable message index.toNat⟩

/-- The CPI of one message instruction. -/
def executionCpi (message : P.Message) (ix : CompiledInstruction) : P.Cpi :=
  ⟨⟨message.keyAt ix.programIdIndex, ix.accounts.map message.accountAt, ix.data⟩, []⟩

theorem validateMessageAccounts_ok_iff {messageAccounts : List P.AccountView}
    {message : P.Message} {value : Unit} :
    validateMessageAccounts messageAccounts message = .ok value ↔
      messageAccounts.map AccountView.address = message.accountKeys := by
  simp only [validateMessageAccounts, bind_ok_iff, ensure_ok_iff, forM_ok_iff,
    exists_and_left, exists_const]
  constructor
  · rintro ⟨length, agree⟩
    exact (zip_agree_iff length).mp agree
  · intro same
    have length : messageAccounts.length = message.accountKeys.length := by
      rw [← same, List.length_map]
    exact ⟨length, (zip_agree_iff length).mpr same⟩

theorem validateExecutionMessage_ok_iff {executionMessage : P.VersionedMessage}
    {message : P.Message} :
    validateExecutionMessage executionMessage = .ok message ↔
      executionMessage = .v1 message ∧ P.sanitize (.v1 message) = .ok () ∧
        message.config = default := by
  cases executionMessage with
  | v1 found =>
      simp only [validateExecutionMessage, bind_ok_iff, mapError_ok_iff, ensure_ok_iff,
        pure_ok_iff, VersionedMessage.v1.injEq]
      constructor
      · rintro ⟨⟨⟩, sane, -, config, rfl⟩
        exact ⟨rfl, sane, config⟩
      · rintro ⟨rfl, sane, config⟩
        exact ⟨(), sane, (), config, rfl⟩
  | legacy bytes => simp [validateExecutionMessage]
  | v0 bytes => simp [validateExecutionMessage]

section Loop

variable {messageAccounts : List P.AccountView} {message : P.Message}
  (same : messageAccounts.map AccountView.address = message.accountKeys)
include same

theorem messageAccounts_getElem? {index : UInt8}
    (inside : index.toNat < message.accountKeys.length) :
    ∃ account, messageAccounts[index.toNat]? = some account ∧
      account.address = message.keyAt index := by
  have found := Message.keyAt_eq inside
  rw [← same, List.getElem?_map] at found
  exact Option.map_eq_some_iff.mp found

theorem pushAccounts_eq (indexes : List UInt8)
    (inside : ∀ index ∈ indexes, index.toNat < message.accountKeys.length)
    (instructionAccounts : List P.AccountMeta) :
    pushAccounts messageAccounts message instructionAccounts indexes =
      .ok (instructionAccounts ++ indexes.map message.accountAt) := by
  induction indexes generalizing instructionAccounts with
  | nil => simp [pushAccounts]
  | cons index rest ih =>
      obtain ⟨account, found, address⟩ :=
        messageAccounts_getElem? same (inside index List.mem_cons_self)
      have resolved : resolveAccount messageAccounts message index =
          .ok (message.accountAt index) := by
        simp only [resolveAccount, found, okOr, Message.accountAt, ← address]
        rfl
      rw [pushAccounts, bind_of_ok resolved,
        ih (fun later member => inside later (List.mem_cons_of_mem _ member)),
        List.map_cons, List.append_assoc, List.singleton_append]

/-- What an earlier instruction left in the buffer does not show in a later CPI. -/
theorem invokeInstructionsLoop_eq (instructions : List CompiledInstruction)
    (programs : ∀ ix ∈ instructions, ix.programIdIndex.toNat < message.accountKeys.length)
    (inside : ∀ ix ∈ instructions, ∀ index ∈ ix.accounts,
      index.toNat < message.accountKeys.length)
    (leftover : List P.AccountMeta) :
    invokeInstructionsLoop messageAccounts message leftover instructions =
      ⟨instructions.map (executionCpi message), .ok ()⟩ := by
  induction instructions generalizing leftover with
  | nil => rfl
  | cons ix rest ih =>
      obtain ⟨account, found, address⟩ := messageAccounts_getElem? same
        (programs ix List.mem_cons_self)
      have filled := pushAccounts_eq same ix.accounts (inside ix List.mem_cons_self) []
      have tail := ih (fun later member => programs later (List.mem_cons_of_mem _ member))
        (fun later member => inside later (List.mem_cons_of_mem _ member))
      simp only [invokeInstructionsLoop, found, okOr, filled, Issued.lift_ok_bind,
        Issued.call_bind, tail, List.map_cons, executionCpi, address, List.nil_append]

end Loop

theorem invokeInstructions_eq (messages : P.MessageLaws) {messageAccounts : List P.AccountView}
    {message : P.Message} (valid : P.validate message = .ok ())
    (same : messageAccounts.map AccountView.address = message.accountKeys) :
    invokeInstructions messageAccounts message =
      ⟨message.instructions.map (executionCpi message), .ok ()⟩ :=
  have formed := messages.wellFormed message valid
  invokeInstructionsLoop_eq same message.instructions formed.programs formed.indexes []

/-- The inputs an `Execute` accepts: the accounts it reads by position, the message
and the nonce it consumes. -/
structure Executes (ledger : P.Ledger) (accounts : List P.AccountView)
    (executionMessage : P.VersionedMessage) (nonceAuthority nonceAccount : P.AccountView)
    (message : P.Message) (state : P.Nonce) : Prop where
  shape : ∃ nonceProgram messageAccounts,
    accounts = nonceAuthority :: nonceAccount :: nonceProgram :: messageAccounts ∧
    nonceProgram.address = P.nonceProgram ∧
    messageAccounts.map AccountView.address = message.accountKeys
  version : executionMessage = .v1 message
  sane : P.sanitize (.v1 message) = .ok ()
  config : message.config = default
  stored : Initialized (ledger nonceAccount.address) state
  current : message.lifetimeSpecifier = state.nonce

/-- The CPIs of an accepted message: the advance, then each instruction in order. -/
def executionCpis (nonceAuthority nonceAccount : P.Address) (message : P.Message) :
    List P.Cpi :=
  ⟨NonceClient.advance nonceAuthority nonceAccount message.lifetimeSpecifier
    (deriveTransitionCommitment (.v1 message)), []⟩ ::
    message.instructions.map (executionCpi message)

theorem Executes.processExecute_eq (messages : P.MessageLaws) {ledger : P.Ledger}
    {accounts : List P.AccountView} {executionMessage : P.VersionedMessage}
    {nonceAuthority nonceAccount : P.AccountView} {message : P.Message} {state : P.Nonce}
    (executes : Executes ledger accounts executionMessage nonceAuthority nonceAccount message
      state) :
    processExecute ledger accounts executionMessage =
      ⟨executionCpis nonceAuthority.address nonceAccount.address message, .ok ()⟩ := by
  obtain ⟨⟨nonceProgram, messageAccounts, rfl, program, same⟩, rfl, sane, config, ⟨owned, viewed⟩,
    current⟩ := executes
  have validated := validateExecutionMessage_ok_iff.mpr ⟨rfl, sane, config⟩
  have mirrored : validateMessageAccounts messageAccounts message = .ok () :=
    validateMessageAccounts_ok_iff.mpr same
  have invoked := invokeInstructions_eq messages ((messages.sanitize_iff message).mp sane) same
  simp only [processExecute, program, owned, viewed, validated, current, mirrored, ensure,
    if_true, Except.mapError, Issued.lift_ok_bind, NonceCpi.advance_eq, Issued.call_bind, invoked,
    executionCpis]

/-- Any other input is refused before the first CPI. -/
theorem processExecute_accepts {ledger : P.Ledger} {accounts : List P.AccountView}
    {executionMessage : P.VersionedMessage}
    (accepted : ¬ (processExecute ledger accounts executionMessage).Refused) :
    ∃ nonceAuthority nonceAccount message state,
      Executes ledger accounts executionMessage nonceAuthority nonceAccount message state := by
  unfold processExecute at accepted
  split at accepted
  · rename_i nonceAuthority nonceAccount nonceProgram messageAccounts
    simp only [Issued.not_refused_bind_iff, ensure_ok_iff, mapError_ok_iff,
      validateMessageAccounts_ok_iff, validateExecutionMessage_ok_iff] at accepted
    obtain ⟨-, program, -, owned, state, viewed, message, ⟨rfl, sane, config⟩, -, current, -, same,
      -⟩ := accepted
    exact ⟨nonceAuthority, nonceAccount, message, state, ⟨nonceProgram, messageAccounts, rfl,
      program, same⟩, rfl, sane, config, ⟨owned, viewed⟩, current⟩
  · exact absurd (Issued.refused_fail _) accepted

/-- An `Execute` instruction that is not refused issues an accepted message's CPIs. -/
theorem processExecutorInstruction_accepts (messages : P.MessageLaws) {ledger : P.Ledger}
    {accounts : List P.AccountView} {data : List UInt8}
    (accepted : ¬ (processExecutorInstruction ledger accounts data).Refused) :
    ∃ nonceAuthority nonceAccount message state,
      ExecutorInstruction.tryFromBytes data = .ok (.execute (.v1 message)) ∧
      Executes ledger accounts (.v1 message) nonceAuthority nonceAccount message state ∧
      processExecutorInstruction ledger accounts data =
        ⟨executionCpis nonceAuthority.address nonceAccount.address message, .ok ()⟩ := by
  have reached := accepted
  simp only [processExecutorInstruction, Issued.not_refused_bind_iff] at reached
  obtain ⟨⟨executionMessage⟩, decoded, reached⟩ := reached
  obtain ⟨nonceAuthority, nonceAccount, message, state, executes⟩ :=
    processExecute_accepts reached
  obtain rfl := executes.version
  refine ⟨nonceAuthority, nonceAccount, message, state, decoded, executes, ?_⟩
  rw [processExecutorInstruction, decoded, Issued.lift_ok_bind]
  exact executes.processExecute_eq messages

/-- The executor signs with no seeds. -/
theorem executionCpis_unsigned {nonceAuthority nonceAccount : P.Address} {message : P.Message}
    {cpi : P.Cpi} (listed : cpi ∈ executionCpis nonceAuthority nonceAccount message) :
    cpi.signers = [] := by
  rcases List.mem_cons.mp listed with rfl | listed
  · rfl
  · obtain ⟨ix, -, rfl⟩ := List.mem_map.mp listed
    rfl

/-- An instruction that carries a message to the executor: the client's accounts and
data, with privileges that cover every CPI of the message. -/
structure Carries (instruction : P.Instruction) (nonceAccount nonceAuthority : P.Address)
    (message : P.Message) : Prop where
  program : instruction.programId = P.executorProgram
  addresses : instruction.accounts.map AccountMeta.pubkey =
    (ExecutorClient.execute nonceAccount nonceAuthority message).accounts.map AccountMeta.pubkey
  data : instruction.data = (ExecutorClient.execute nonceAccount nonceAuthority message).data
  covers : ∀ cpi ∈ executionCpis nonceAuthority nonceAccount message, cpi.Permitted instruction

theorem ExecutorClient.execute_addresses (nonceAccount nonceAuthority : P.Address)
    (message : P.Message) :
    (ExecutorClient.execute nonceAccount nonceAuthority message).accounts.map
        AccountMeta.pubkey =
      nonceAuthority :: nonceAccount :: P.nonceProgram :: message.accountKeys := by
  have keys : (message.accountKeys.mapIdx fun index address =>
      (⟨address, P.isSigner message index, P.isMaybeWritable message index⟩ :
        P.AccountMeta)).map AccountMeta.pubkey = message.accountKeys :=
    List.ext_getElem (by simp) (by simp)
  simp only [ExecutorClient.execute, List.map_cons, keys]
  rfl

theorem Message.accountAt_mem {message : P.Message} {index : UInt8}
    (inside : index.toNat < message.accountKeys.length) :
    message.accountAt index ∈ message.accountKeys.mapIdx fun position address =>
      ⟨address, P.isSigner message position, P.isMaybeWritable message position⟩ := by
  refine List.mem_iff_getElem?.mpr ⟨index.toNat, ?_⟩
  rw [List.getElem?_mapIdx, Message.keyAt_eq inside]
  rfl

/-- Every account of a CPI is one of the client's, with the same privileges. -/
theorem executionCpis_accounts {nonceAccount nonceAuthority : P.Address} {message : P.Message}
    (formed : message.WellFormed) {cpi : P.Cpi}
    (listed : cpi ∈ executionCpis nonceAuthority nonceAccount message) {account : P.AccountMeta}
    (member : account ∈ cpi.instruction.accounts) :
    account ∈ (ExecutorClient.execute nonceAccount nonceAuthority message).accounts := by
  rcases List.mem_cons.mp listed with rfl | listed
  · rcases List.mem_cons.mp member with rfl | member
    · exact List.mem_cons_self
    · obtain rfl := List.mem_singleton.mp member
      exact List.mem_cons_of_mem _ List.mem_cons_self
  · obtain ⟨ix, among, rfl⟩ := List.mem_map.mp listed
    obtain ⟨index, named, rfl⟩ := List.mem_map.mp member
    refine List.mem_cons_of_mem _ (List.mem_cons_of_mem _ (List.mem_cons_of_mem _ ?_))
    exact Message.accountAt_mem (formed.indexes ix among index named)

/-- The client's own instruction carries its message. -/
theorem ExecutorClient.execute_carries (nonceAccount nonceAuthority : P.Address)
    {message : P.Message} (formed : message.WellFormed) :
    Carries (ExecutorClient.execute nonceAccount nonceAuthority message) nonceAccount
      nonceAuthority message := by
  refine ⟨rfl, rfl, rfl, ?_⟩
  intro cpi listed account member
  have own := executionCpis_accounts formed listed member
  refine ⟨⟨account, own, rfl⟩, fun signs => .inl ?_, fun writes => ?_⟩
  · exact Instruction.grantsSigner_iff.mpr ⟨account, own, rfl, signs⟩
  · exact Instruction.grantsWritable_iff.mpr ⟨account, own, rfl, writes⟩

section Carried

variable {instruction : P.Instruction} {nonceAccount nonceAuthority : P.Address}
  {message : P.Message} (carries : Carries instruction nonceAccount nonceAuthority message)
include carries

theorem Carries.decoded (fits : P.messageWire.Fits (.v1 message)) :
    ExecutorInstruction.tryFromBytes instruction.data = .ok (.execute (.v1 message)) :=
  ExecutorInstruction.tryFromBytes_ok_iff.mpr ⟨fits, carries.data⟩

/-- The accounts an executor reads off a carrying instruction. -/
theorem Carries.shape : ∃ authority account program messageAccounts,
    instruction.views = authority :: account :: program :: messageAccounts ∧
    authority.address = nonceAuthority ∧ account.address = nonceAccount ∧
    program.address = P.nonceProgram ∧
    messageAccounts.map AccountView.address = message.accountKeys := by
  have addresses := carries.addresses
  rw [ExecutorClient.execute_addresses, ← Instruction.views_addresses] at addresses
  obtain ⟨authority, rest, shape, same, addresses⟩ := List.map_eq_cons_iff.mp addresses
  obtain ⟨account, rest', rfl, same', addresses⟩ := List.map_eq_cons_iff.mp addresses
  obtain ⟨program, rest'', rfl, same'', addresses⟩ := List.map_eq_cons_iff.mp addresses
  exact ⟨authority, account, program, rest'', shape, same, same', same'', addresses⟩

/-- On the nonce it names, a carried message issues its CPIs. -/
theorem Carries.issues (messages : P.MessageLaws) (valid : P.validate message = .ok ())
    (config : message.config = default) {ledger : P.Ledger} {state : P.Nonce}
    (held : Initialized (ledger nonceAccount) state)
    (current : message.lifetimeSpecifier = state.nonce) :
    processExecutorInstruction ledger instruction.views instruction.data =
      ⟨executionCpis nonceAuthority nonceAccount message, .ok ()⟩ := by
  obtain ⟨authority, account, program, messageAccounts, shape, rfl, rfl, same, mirrors⟩ :=
    carries.shape
  have executes : Executes ledger instruction.views (.v1 message) authority account message
      state :=
    ⟨⟨program, messageAccounts, shape, same, mirrors⟩, rfl,
      (messages.sanitize_iff message).mpr valid, config, held, current⟩
  rw [processExecutorInstruction,
    carries.decoded (messages.serializes message valid),
    Issued.lift_ok_bind]
  exact executes.processExecute_eq messages

end Carried

/-- On any other value of the nonce account, an execution is refused. -/
theorem processExecutorInstruction_stale (messages : P.MessageLaws) {ledger : P.Ledger}
    {accounts : List P.AccountView} {data : List UInt8} {message : P.Message}
    {nonceAuthority nonceAccount : P.AccountView} {rest : List P.AccountView}
    (decoded : ExecutorInstruction.tryFromBytes data = .ok (.execute (.v1 message)))
    (shape : accounts = nonceAuthority :: nonceAccount :: rest)
    (stale : ∀ state, Initialized (ledger nonceAccount.address) state →
      message.lifetimeSpecifier ≠ state.nonce) :
    (processExecutorInstruction ledger accounts data).Refused := by
  by_contra accepted
  obtain ⟨authority, account, found, state, decoded', executes, -⟩ :=
    processExecutorInstruction_accepts messages accepted
  obtain ⟨program, messageAccounts, shape', -⟩ := executes.shape
  obtain ⟨rfl, tail⟩ := List.cons.inj (shape.symm.trans shape')
  obtain ⟨rfl, -⟩ := List.cons.inj tail
  rw [decoded] at decoded'
  obtain rfl := VersionedMessage.v1.inj (ExecutorInstruction.execute.inj (Except.ok.inj decoded'))
  exact stale state executes.stored executes.current

namespace Reference

/-- A message for the open nonce account: its authority signs for one call of program 40. -/
def message : Platform.reference.Message where
  header := ⟨1, 0, 1⟩
  config := default
  lifetimeSpecifier := state.nonce
  accountKeys := [nonceAuthority, 40]
  instructions := [⟨1, [0], [7]⟩]

theorem message_formed : message.WellFormed where
  signatures := by decide
  readonlySigned := by decide
  addresses := by decide
  header := by decide
  distinct := by decide
  programs := by simp [message]
  indexes := by simp [message]

theorem message_valid : Platform.reference.validate message = .ok () := validate_ok message_formed

def execute : Platform.reference.Instruction :=
  ExecutorClient.execute nonceAccount nonceAuthority message

theorem message_carried : Carries execute nonceAccount nonceAuthority message :=
  ExecutorClient.execute_carries nonceAccount nonceAuthority message_formed

/-- The same call once more, on the nonce that the message leaves. -/
def following : Platform.reference.Message :=
  { message with
    lifetimeSpecifier := state.deriveNextNonce Platform.reference.nonceProgram nonceAccount
      (deriveTransitionCommitment (.v1 message)) }

theorem following_valid : Platform.reference.validate following = .ok () :=
  messageLaws.resets message following.lifetimeSpecifier message_valid

theorem following_carried :
    Carries (ExecutorClient.execute nonceAccount nonceAuthority following) nonceAccount
      nonceAuthority following :=
  ExecutorClient.execute_carries nonceAccount nonceAuthority
    (messageLaws.wellFormed following following_valid)

end Reference

end ProgrammaticSigner
