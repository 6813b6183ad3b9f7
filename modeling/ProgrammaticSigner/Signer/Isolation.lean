import ProgrammaticSigner.Signer.Facts

set_option autoImplicit false

/- Two runs on the same addresses: which of the caller's privileges the programs'
CPIs can depend on. -/
namespace ProgrammaticSigner

open Outcome

variable {P : Platform}

section Execute

variable {accounts accounts' : List P.AccountView} {message : P.Message}

theorem resolveAccount_congr
    (same : accounts.map AccountView.address = accounts'.map AccountView.address)
    (index : UInt8) :
    resolveAccount accounts message index = resolveAccount accounts' message index := by
  have here := congrArg (fun addresses => addresses[index.toNat]?) same
  simp only [List.getElem?_map] at here
  unfold resolveAccount
  cases one : accounts[index.toNat]? <;> cases two : accounts'[index.toNat]? <;>
    simp_all [okOr]

theorem pushAccounts_congr
    (same : accounts.map AccountView.address = accounts'.map AccountView.address)
    (indexes : List UInt8) (instructionAccounts : List P.AccountMeta) :
    pushAccounts accounts message instructionAccounts indexes =
      pushAccounts accounts' message instructionAccounts indexes := by
  induction indexes generalizing instructionAccounts with
  | nil => rfl
  | cons index rest ih => simp only [pushAccounts, resolveAccount_congr same, ih]

theorem invokeInstructionsLoop_congr
    (same : accounts.map AccountView.address = accounts'.map AccountView.address)
    (instructions : List CompiledInstruction) (leftover : List P.AccountMeta) :
    invokeInstructionsLoop accounts message leftover instructions =
      invokeInstructionsLoop accounts' message leftover instructions := by
  induction instructions generalizing leftover with
  | nil => rfl
  | cons ix rest ih =>
      have here := congrArg (fun addresses => addresses[ix.programIdIndex.toNat]?) same
      simp only [List.getElem?_map] at here
      simp only [invokeInstructionsLoop, pushAccounts_congr same, ih]
      cases one : accounts[ix.programIdIndex.toNat]? <;>
        cases two : accounts'[ix.programIdIndex.toNat]? <;> simp_all [okOr]

theorem validateMessageAccounts_congr
    (same : accounts.map AccountView.address = accounts'.map AccountView.address) :
    validateMessageAccounts accounts message = validateMessageAccounts accounts' message := by
  have length : accounts.length = accounts'.length := by
    simpa only [List.length_map] using congrArg List.length same
  simp only [validateMessageAccounts, length, forM_zip_ensure, same]

/-- `Execute` never reads a privilege of its accounts. -/
theorem processExecute_congr (ledger : P.Ledger)
    (same : accounts.map AccountView.address = accounts'.map AccountView.address)
    (executionMessage : P.VersionedMessage) :
    processExecute ledger accounts executionMessage =
      processExecute ledger accounts' executionMessage := by
  rcases accounts with _ | ⟨nonceAuthority, _ | ⟨nonceAccount, _ | ⟨nonceProgram, rest⟩⟩⟩ <;>
    rcases accounts' with _ | ⟨nonceAuthority', _ | ⟨nonceAccount', _ | ⟨nonceProgram', rest'⟩⟩⟩ <;>
    simp only [List.map_cons, List.map_nil, List.cons.injEq, reduceCtorEq, and_false] at same <;>
    try rfl
  obtain ⟨authority, account, program, rest⟩ := same
  simp only [processExecute, account, program, NonceCpi.advance, authority,
    validateMessageAccounts_congr rest, invokeInstructions, invokeInstructionsLoop_congr rest]

end Execute

section Submit

variable {accounts accounts' : List P.AccountView} {message : P.Message}

theorem checkRelayAccounts_congr
    (same : accounts.map AccountView.address = accounts'.map AccountView.address) :
    CheckedExecutorInstruction.checkRelayAccounts accounts message =
      CheckedExecutorInstruction.checkRelayAccounts accounts' message := by
  have length : accounts.length = accounts'.length := by
    simpa only [List.length_map] using congrArg List.length same
  simp only [CheckedExecutorInstruction.checkRelayAccounts, length, forM_zip_ensure, same]

/-- Both runs fail to resolve the executor instruction for one reason, or both do. -/
theorem tryNew_congr (formed : message.WellFormed) {ix : CompiledInstruction}
    (listed : ix ∈ message.instructions)
    (same : accounts.map AccountView.address = accounts'.map AccountView.address) :
    (∃ reason, CheckedExecutorInstruction.tryNew accounts message ix = .error reason ∧
      CheckedExecutorInstruction.tryNew accounts' message ix = .error reason) ∨
    accounts.map AccountView.address = message.accountKeys ∧
      ExecutorPolicy.validate (message.keyAt ix.programIdIndex) ix.data = .ok () := by
  cases checked : CheckedExecutorInstruction.checkRelayAccounts accounts message with
  | error reason =>
      have checked' := checkRelayAccounts_congr same ▸ checked
      exact .inl ⟨reason, bind_error checked, bind_error checked'⟩
  | ok value =>
      have checked' := checkRelayAccounts_congr same ▸ checked
      have mirrors := CheckedExecutorInstruction.checkRelayAccounts_ok_iff.mp checked
      have program := Message.keyAt_eq (formed.programs ix listed)
      cases allowed : ExecutorPolicy.validate (message.keyAt ix.programIdIndex) ix.data with
      | ok value => exact .inr ⟨mirrors, rfl⟩
      | error reason =>
          have renamed : (ExecutorPolicy.validate (message.keyAt ix.programIdIndex) ix.data).mapError
              SignerError.toProgramError = .error reason.toProgramError := by
            rw [allowed]
            rfl
          refine .inl ⟨reason.toProgramError, ?_, ?_⟩
          · rw [CheckedExecutorInstruction.tryNew, bind_of_ok checked, program, okOr]
            exact (bind_of_ok rfl).trans (bind_error renamed)
          · rw [CheckedExecutorInstruction.tryNew, bind_of_ok checked', program, okOr]
            exact (bind_of_ok rfl).trans (bind_error renamed)

/-- The loop reads the signer flag of a relay account only at a required signer. -/
theorem verifyAuthoritySignaturesLoop_congr (messageBytes : List UInt8) {signers : List P.Address}
    {signatures : List (Option P.Signature)} (length : accounts.length = accounts'.length)
    (signs : ∀ (index : Nat) account account', index < signers.length →
      accounts[index]? = some account → accounts'[index]? = some account' →
      account.isSigner = account'.isSigner) :
    verifyAuthoritySignaturesLoop messageBytes signers signatures accounts =
      verifyAuthoritySignaturesLoop messageBytes signers signatures accounts' := by
  induction signers generalizing signatures accounts accounts' with
  | nil => rfl
  | cons signer signers ih =>
      rcases signatures with _ | ⟨signature, signatures⟩
      · rfl
      · rcases accounts with _ | ⟨account, accounts⟩
        · obtain rfl := List.eq_nil_of_length_eq_zero length.symm
          rfl
        · obtain ⟨account', accounts', rfl⟩ :=
            List.exists_cons_of_length_eq_add_one length.symm
          have head : account.isSigner = account'.isSigner :=
            signs 0 account account' (Nat.succ_pos _) rfl rfl
          have tail := @ih accounts accounts' signatures (Nat.succ.inj length)
            fun index one two inside => signs (index + 1) one two (Nat.succ_lt_succ inside)
          cases signature <;> simp only [verifyAuthoritySignaturesLoop, head, tail]

theorem verifyAuthoritySignatures_congr (length : accounts.length = accounts'.length)
    (signs : ∀ (index : Nat) account account', index < message.signerKeys.length →
      accounts[index]? = some account → accounts'[index]? = some account' →
      account.isSigner = account'.isSigner) (signatures : List (Option P.Signature)) :
    verifyAuthoritySignatures accounts signatures message =
      verifyAuthoritySignatures accounts' signatures message := by
  unfold verifyAuthoritySignatures
  by_cases fits : message.header.numRequiredSignatures.toNat ≤ message.accountKeys.length
  · simp only [if_pos fits, okOr]
    refine congrArg _ (funext fun _ => ?_)
    exact verifyAuthoritySignaturesLoop_congr _ length signs
  · simp only [if_neg fits]
    rfl

/-- The CPI reads it only there too. -/
theorem submitCpi_congr (messages : P.MessageLaws) (length : accounts.length = accounts'.length)
    (signs : ∀ (index : Nat) account account',
      index < message.header.numRequiredSignatures.toNat →
      accounts[index]? = some account → accounts'[index]? = some account' →
      account.isSigner = account'.isSigner)
    (programId : P.Address) (signatures : List (Option P.Signature)) (ix : CompiledInstruction) :
    submitCpi programId accounts signatures message ix =
      submitCpi programId accounts' signatures message ix := by
  have forwarded (index : UInt8) :
      (P.isSigner message index.toNat && relaySigns accounts index.toNat) =
        (P.isSigner message index.toNat && relaySigns accounts' index.toNat) := by
    rw [messages.isSigner]
    by_cases inside : index.toNat < message.header.numRequiredSignatures.toNat
    · by_cases short : index.toNat < accounts.length
      · have short' := length ▸ short
        have one := List.getElem?_eq_getElem short
        have two := List.getElem?_eq_getElem short'
        simp only [relaySigns, one, two, Option.any_some, signs _ _ _ inside one two]
      · have none := List.getElem?_eq_none (Nat.not_lt.mp short)
        have none' := List.getElem?_eq_none (Nat.not_lt.mp (length ▸ short))
        simp only [relaySigns, none, none']
    · simp only [inside, decide_false, Bool.false_and]
  simp only [submitCpi, forwarded]

/-- What follows the checks of the executor instruction. -/
theorem submit_congr_of_mirrors (messages : P.MessageLaws) (formed : message.WellFormed)
    {ix : CompiledInstruction} (listed : ix ∈ message.instructions)
    (same : accounts.map AccountView.address = accounts'.map AccountView.address)
    (mirrors : accounts.map AccountView.address = message.accountKeys)
    (allowed : ExecutorPolicy.validate (message.keyAt ix.programIdIndex) ix.data = .ok ())
    (signs : ∀ (index : Nat) account account', accounts[index]? = some account →
      accounts'[index]? = some account' → account.address ∈ message.signerKeys →
      account.isSigner = account'.isSigner)
    (programId : P.Address) (signatures : List (Option P.Signature)) :
    (do
      let checked ← Issued.lift (CheckedExecutorInstruction.tryNew accounts message ix)
      let verified ← Issued.lift (verifyAuthoritySignatures accounts signatures message)
      invokeExecutorInstruction message checked
        (collectAuthorizedSigners programId checked verified) : P.Issues Unit) =
    (do
      let checked ← Issued.lift (CheckedExecutorInstruction.tryNew accounts' message ix)
      let verified ← Issued.lift (verifyAuthoritySignatures accounts' signatures message)
      invokeExecutorInstruction message checked
        (collectAuthorizedSigners programId checked verified) : P.Issues Unit) := by
  have inside := formed.indexes ix listed
  have mirrors' : accounts'.map AccountView.address = message.accountKeys := same ▸ mirrors
  have length : accounts.length = accounts'.length := by
    simpa only [List.length_map] using congrArg List.length same
  have keys : accounts.length = message.accountKeys.length := by
    rw [← mirrors, List.length_map]
  have required (index : Nat) (account account' : P.AccountView)
      (below : index < message.header.numRequiredSignatures.toNat)
      (one : accounts[index]? = some account) (two : accounts'[index]? = some account') :
      account.isSigner = account'.isSigner := by
    refine signs index account account' one two ?_
    have present : message.accountKeys[index]? = some account.address := by
      rw [← mirrors, List.getElem?_map, one, Option.map_some]
    obtain ⟨short, here⟩ := List.getElem?_eq_some_iff.mp present
    exact here ▸ (formed.getElem_mem_signerKeys short).mpr below
  obtain ⟨resolved, found⟩ := exists_resolves ix.accounts (keys.symm ▸ inside)
  obtain ⟨resolved', found'⟩ := exists_resolves ix.accounts (length ▸ keys.symm ▸ inside)
  have one : CheckedExecutorInstruction.tryNew accounts message ix =
      .ok ⟨message.keyAt ix.programIdIndex, resolved, ix.data⟩ :=
    (CheckedExecutorInstruction.tryNew_ok_iff formed listed).mpr
      ⟨mirrors, allowed, rfl, rfl, found⟩
  have two : CheckedExecutorInstruction.tryNew accounts' message ix =
      .ok ⟨message.keyAt ix.programIdIndex, resolved', ix.data⟩ :=
    (CheckedExecutorInstruction.tryNew_ok_iff formed listed).mpr
      ⟨mirrors', allowed, rfl, rfl, found'⟩
  have verifies := @verifyAuthoritySignatures_congr _ _ _ message length
    (fun index account account' below => required index account account'
      (formed.signerKeys_length ▸ below)) signatures
  rw [one, two, ← verifies, Issued.lift_ok_bind, Issued.lift_ok_bind]
  cases outcome : verifyAuthoritySignatures accounts signatures message with
  | error reason => rfl
  | ok verified =>
      obtain ⟨-, -, rfl⟩ := (verifyAuthoritySignatures_ok_iff formed mirrors).mp outcome
      rw [Issued.lift_ok_bind, Issued.lift_ok_bind,
        invokeExecutorInstruction_eq rfl rfl found mirrors inside,
        invokeExecutorInstruction_eq rfl rfl found' mirrors' inside,
        submitCpi_congr messages length required]

/-- `Submit` depends on its accounts' addresses and, at required signers alone, on
their signer flags. -/
theorem processSubmit_congr (messages : P.MessageLaws) (programId : P.Address)
    (same : accounts.map AccountView.address = accounts'.map AccountView.address)
    (signatures : List (Option P.Signature)) (versioned : P.VersionedMessage)
    (signs : ∀ message, versioned = .v1 message → ∀ (index : Nat) account account',
      accounts[index]? = some account → accounts'[index]? = some account' →
      account.address ∈ message.signerKeys → account.isSigner = account'.isSigner) :
    processSubmit programId accounts signatures versioned =
      processSubmit programId accounts' signatures versioned := by
  match versioned with
  | .legacy _ => rfl
  | .v0 _ => rfl
  | .v1 message =>
      unfold processSubmit
      dsimp only
      cases valid : P.validate message with
      | error reason => rfl
      | ok value =>
          have formed := messages.wellFormed message valid
          refine congrArg _ (funext fun _ => congrArg _ (funext fun _ => ?_))
          split
          · rename_i ix single
            have listed : ix ∈ message.instructions := single ▸ List.mem_cons_self
            rcases tryNew_congr formed listed same with ⟨reason, one, two⟩ | ⟨mirrors, allowed⟩
            · rw [one, two]
              rfl
            · exact submit_congr_of_mirrors messages formed listed same mirrors allowed
                (signs message rfl) programId signatures
          · rfl

end Submit

/-- Relay privileges do not leak: the flags of relay accounts show in a submission
only through the signer flags of required signers, and in an execution not at all. -/
theorem relay_privileges_isolated (messages : P.MessageLaws) :
    (∀ (programId : P.Address) (accounts accounts' : List P.AccountView)
      (signatures : List (Option P.Signature)) (versioned : P.VersionedMessage),
      accounts.map AccountView.address = accounts'.map AccountView.address →
      (∀ message, versioned = .v1 message → ∀ (index : Nat) account account',
        accounts[index]? = some account → accounts'[index]? = some account' →
        account.address ∈ message.signerKeys → account.isSigner = account'.isSigner) →
      processSubmit programId accounts signatures versioned =
        processSubmit programId accounts' signatures versioned) ∧
    ∀ (ledger : P.Ledger) (accounts accounts' : List P.AccountView)
      (executionMessage : P.VersionedMessage),
      accounts.map AccountView.address = accounts'.map AccountView.address →
      processExecute ledger accounts executionMessage =
        processExecute ledger accounts' executionMessage :=
  ⟨fun programId _ _ signatures versioned same signs =>
    processSubmit_congr messages programId same signatures versioned signs,
    fun ledger _ _ executionMessage same => processExecute_congr ledger same executionMessage⟩

namespace Reference

/-- The relay's accounts, all writable, and all signing but the one that the message requires to
sign. -/
def widened : List Platform.reference.AccountView :=
  relay.views.map fun view =>
    { view with isSigner := view.isSigner || view.address != (30 : Nat), isWritable := true }

theorem widened_signs {index : Nat} {account account' : Platform.reference.AccountView}
    (listed : relay.views[index]? = some account) (listed' : widened[index]? = some account')
    (required : account.address = (30 : Nat)) : account.isSigner = account'.isSigner := by
  rw [widened, List.getElem?_map, listed] at listed'
  obtain rfl := Option.some.inj listed'
  simp [required]

end Reference

/-- Relay accounts that sign and are writable beyond what the message says change neither the
submission's CPI nor the execution. -/
theorem relay_privileges_isolated_reference :
    processSubmit Platform.reference.signerProgram Reference.widened [some Reference.signature]
        (.v1 Reference.authorization) = ⟨[Reference.submission], .ok ()⟩ ∧
    processExecute Reference.opened Reference.execute.views (.v1 Reference.message) =
      processExecute Reference.opened
        (Reference.execute.views.map fun view => { view with isSigner := true, isWritable := true })
        (.v1 Reference.message) := by
  obtain ⟨submit, execution⟩ := relay_privileges_isolated Reference.messageLaws
  have isolated := submit Platform.reference.signerProgram Reference.relay.views
    Reference.widened [some Reference.signature] (.v1 Reference.authorization) rfl
    fun message same index account account' listed listed' required => by
      obtain rfl := VersionedMessage.v1.inj same
      exact Reference.widened_signs listed listed' (List.mem_singleton.mp required)
  have issued := Reference.relay_submits.processSubmit_eq Reference.messageLaws
    Platform.reference.signerProgram
  exact ⟨isolated.symm.trans issued, execution _ _ _ _ rfl⟩

end ProgrammaticSigner
