import ProgrammaticSigner.Executor.Facts

set_option autoImplicit false

/- An execution performs the message it was given and nothing else. -/
namespace ProgrammaticSigner

variable {P : Platform}

/-- The call of one message instruction: its program and its accounts are looked up index by
index, repeats kept, and each account has the privileges the message states at its index. -/
structure Invokes (messageAccounts : List P.AccountView) (message : P.Message)
    (ix : CompiledInstruction) (call : P.Cpi) : Prop where
  unsigned : call.signers = []
  program : ∃ program, messageAccounts[ix.programIdIndex.toNat]? = some program ∧
    message.accountKeys[ix.programIdIndex.toNat]? = some program.address ∧
    call.instruction.programId = program.address
  data : call.instruction.data = ix.data
  count : call.instruction.accounts.length = ix.accounts.length
  accounts : ∀ (slot : Nat) index, ix.accounts[slot]? = some index → ∃ account,
    messageAccounts[index.toNat]? = some account ∧
    message.accountKeys[index.toNat]? = some account.address ∧
    call.instruction.accounts[slot]? = some ⟨account.address,
      P.isSigner message index.toNat, P.isMaybeWritable message index.toNat⟩

/-- The calls that perform a message: the nonce advances from the message's lifetime to its
commitment, and then each instruction is invoked in order. -/
structure Performs (nonceAuthority nonceAccount : P.AccountView)
    (messageAccounts : List P.AccountView) (message : P.Message) (calls : List P.Cpi) :
    Prop where
  advance : calls[0]? = some ⟨⟨P.nonceProgram,
    [⟨nonceAuthority.address, true, false⟩, ⟨nonceAccount.address, false, true⟩],
    NonceInstruction.serialize (.advance message.lifetimeSpecifier
      (deriveTransitionCommitment (.v1 message)))⟩, []⟩
  count : calls.length = message.instructions.length + 1
  invokes : ∀ (position : Nat) ix, message.instructions[position]? = some ix →
    ∃ call, calls[position + 1]? = some call ∧ Invokes messageAccounts message ix call

section Exact

variable {messageAccounts : List P.AccountView} {message : P.Message}
  (same : messageAccounts.map AccountView.address = message.accountKeys)
include same

theorem messageAccounts_lookup {index : UInt8}
    (inside : index.toNat < message.accountKeys.length) :
    ∃ account, messageAccounts[index.toNat]? = some account ∧
      message.accountKeys[index.toNat]? = some account.address ∧
      account.address = message.keyAt index := by
  obtain ⟨account, found, address⟩ := messageAccounts_getElem? same inside
  refine ⟨account, found, ?_, address⟩
  rw [address]
  exact Message.keyAt_eq inside

/-- The executor's CPI for an instruction whose indexes are all in range. -/
theorem executionCpi_invokes {ix : CompiledInstruction}
    (program : ix.programIdIndex.toNat < message.accountKeys.length)
    (inside : ∀ index ∈ ix.accounts, index.toNat < message.accountKeys.length) :
    Invokes messageAccounts message ix (executionCpi message ix) where
  unsigned := rfl
  program := by
    obtain ⟨account, found, key, address⟩ := messageAccounts_lookup same program
    exact ⟨account, found, key, address.symm⟩
  data := rfl
  count := List.length_map _
  accounts := by
    intro slot index named
    obtain ⟨account, found, key, address⟩ :=
      messageAccounts_lookup same (inside index (List.mem_of_getElem? named))
    refine ⟨account, found, key, ?_⟩
    show (ix.accounts.map message.accountAt)[slot]? = _
    rw [List.getElem?_map, named, address]
    rfl

theorem executionCpis_performs (formed : message.WellFormed)
    (nonceAuthority nonceAccount : P.AccountView) :
    Performs nonceAuthority nonceAccount messageAccounts message
      (executionCpis nonceAuthority.address nonceAccount.address message) where
  advance := rfl
  count := by simp [executionCpis]
  invokes := by
    intro position ix here
    have listed := List.mem_of_getElem? here
    refine ⟨executionCpi message ix, ?_, ?_⟩
    · rw [executionCpis, List.getElem?_cons_succ, List.getElem?_map, here]
      rfl
    · apply executionCpi_invokes same
      · exact formed.programs ix listed
      · exact formed.indexes ix listed

end Exact

/-- An input that passes every check of `Execute` is performed to the end. -/
theorem Executes.performs (messages : P.MessageLaws) {ledger : P.Ledger}
    {accounts : List P.AccountView} {executionMessage : P.VersionedMessage}
    {nonceAuthority nonceAccount : P.AccountView} {message : P.Message} {state : P.Nonce}
    (executes : Executes ledger accounts executionMessage nonceAuthority nonceAccount message
      state) :
    (processExecute ledger accounts executionMessage).result = .ok () ∧
      Performs nonceAuthority nonceAccount (accounts.drop 3) message
        (processExecute ledger accounts executionMessage).calls := by
  have performed := executes.processExecute_eq messages
  obtain ⟨nonceProgram, messageAccounts, shape, -, same⟩ := executes.shape
  have formed := messages.wellFormed message ((messages.sanitize_iff message).mp executes.sane)
  rw [performed, shape]
  exact ⟨rfl, executionCpis_performs same formed nonceAuthority nonceAccount⟩

/-- `Execute` performs exactly its message: what it accepts passed every check and issues the
message's calls in order, and what it rejects failed a check and issues no call at all. -/
theorem execution_exact (messages : P.MessageLaws) (ledger : P.Ledger)
    (accounts : List P.AccountView) (executionMessage : P.VersionedMessage) :
    ((processExecute ledger accounts executionMessage).result = .ok () →
      ∃ nonceAuthority nonceAccount message state,
        Executes ledger accounts executionMessage nonceAuthority nonceAccount message state ∧
        Performs nonceAuthority nonceAccount (accounts.drop 3) message
          (processExecute ledger accounts executionMessage).calls) ∧
    ∀ reason, (processExecute ledger accounts executionMessage).result = .error reason →
      (processExecute ledger accounts executionMessage).calls = [] ∧
      ¬ ∃ nonceAuthority nonceAccount message state,
        Executes ledger accounts executionMessage nonceAuthority nonceAccount message state := by
  constructor
  · intro accepted
    obtain ⟨nonceAuthority, nonceAccount, message, state, executes⟩ :=
      processExecute_accepts (Issued.not_refused_of_ok accepted)
    exact ⟨nonceAuthority, nonceAccount, message, state, executes,
      (executes.performs messages).2⟩
  · intro reason rejected
    have failed : ¬ ∃ nonceAuthority nonceAccount message state,
        Executes ledger accounts executionMessage nonceAuthority nonceAccount message state := by
      rintro ⟨nonceAuthority, nonceAccount, message, state, executes⟩
      have accepted := (executes.performs messages).1
      rw [rejected] at accepted
      cases accepted
    refine ⟨?_, failed⟩
    by_cases refused : (processExecute ledger accounts executionMessage).Refused
    · obtain ⟨found, same⟩ := refused
      rw [same]
      rfl
    · exact absurd (processExecute_accepts refused) failed

/-- The reference execution advances its nonce and makes its one call. -/
theorem execution_exact_reference : ∃ nonceAuthority nonceAccount message state,
    Executes Reference.opened Reference.execute.views (.v1 Reference.message) nonceAuthority
      nonceAccount message state ∧
    Performs nonceAuthority nonceAccount (Reference.execute.views.drop 3) message
      (processExecute Reference.opened Reference.execute.views (.v1 Reference.message)).calls := by
  have executes : Executes Reference.opened Reference.execute.views (.v1 Reference.message)
      ⟨Reference.nonceAuthority, true, true⟩ ⟨Reference.nonceAccount, false, true⟩
      Reference.message Reference.state :=
    ⟨⟨_, _, rfl, rfl, rfl⟩, rfl, Reference.message_valid, rfl, Reference.held, rfl⟩
  exact (execution_exact Reference.messageLaws _ _ _).1
    (executes.performs Reference.messageLaws).1

end ProgrammaticSigner
