import ProgrammaticSigner.Signer.Exact

set_option autoImplicit false

/- How many signer seeds a `Submit` passes to its CPI. Its own loop has no bound; the accounts
that the executor goes on to accept give one. -/
namespace ProgrammaticSigner

open Outcome

/-- The runtime's limit on the signer seeds of one CPI. -/
def maxCpiSigners : Nat := 16

/-- Filters that never agree split what either of them keeps. -/
theorem length_filter_or {β : Type} {left right : β → Bool}
    (apart : ∀ item, left item = true → right item = false) (items : List β) :
    (items.filter fun item => left item || right item).length =
      (items.filter left).length + (items.filter right).length := by
  induction items with
  | nil => rfl
  | cons item items ih =>
      have here := apart item
      cases one : left item with
      | true => simp [one, here one, ih, Nat.add_right_comm]
      | false =>
          cases other : right item with
          | true => simp [one, other, ih, Nat.add_assoc]
          | false => simp [one, other, ih]

/-- Each item is found for the one key it belongs to. -/
theorem length_flatMap_filter {α β : Type} [DecidableEq β] {derive : α → β}
    (injective : ∀ first second, derive first = derive second → first = second)
    {keys : List α} (distinct : keys.Nodup) (items : List β) :
    (keys.flatMap fun key => items.filter (· = derive key)).length =
      (items.filter (· ∈ keys.map derive)).length := by
  induction keys with
  | nil => simp
  | cons key keys ih =>
      obtain ⟨fresh, rest⟩ := List.nodup_cons.mp distinct
      have apart : ∀ item, decide (item = derive key) = true →
          decide (item ∈ keys.map derive) = false := by
        intro item same
        rw [decide_eq_true_eq] at same
        rw [decide_eq_false_iff_not]
        intro listed
        obtain ⟨other, among, image⟩ := List.mem_map.mp listed
        exact fresh (injective other key (image.trans same) ▸ among)
      rw [List.flatMap_cons, List.length_append, ih rest, ← length_filter_or apart]
      simp only [List.map_cons, List.mem_cons, Bool.decide_or]

/-- Items without repetition past the first three, the third of them no key's, give at most
two more than there are keys. -/
theorem length_occurrences_le {α β : Type} [DecidableEq β] {derive : α → β}
    (injective : ∀ first second, derive first = derive second → first = second)
    {keys : List α} (distinct : keys.Nodup) {first second third : β} {items : List β}
    (foreign : third ∉ keys.map derive) (once : items.Nodup) :
    (keys.flatMap fun key =>
      (first :: second :: third :: items).filter (· = derive key)).length ≤ keys.length + 2 := by
  have within : (items.filter (· ∈ keys.map derive)).length ≤ (keys.map derive).length := by
    apply ((once.filter _).subperm _).length_le
    intro item kept
    exact of_decide_eq_true (List.mem_filter.mp kept).2
  have more (item : β) (rest : List β) : ((item :: rest).filter (· ∈ keys.map derive)).length ≤
      (rest.filter (· ∈ keys.map derive)).length + 1 := by
    rw [List.filter_cons]
    split
    · exact Nat.le_refl _
    · exact Nat.le_succ _
  have one := more first (second :: third :: items)
  have two := more second (third :: items)
  have none : (third :: items).filter (· ∈ keys.map derive) =
      items.filter (· ∈ keys.map derive) :=
    List.filter_cons_of_neg (by rw [decide_eq_true_eq]; exact foreign)
  rw [none] at two
  rw [List.length_map] at within
  rw [length_flatMap_filter injective distinct]
  omega

variable {P : Platform}

/-- `Execute`'s own checks of the accounts it is given. -/
def PassesAccountChecks (accounts : List P.AccountView) (executionMessage : P.VersionedMessage) :
    Prop :=
  ∃ nonceAuthority nonceAccount nonceProgram messageAccounts message,
    accounts = nonceAuthority :: nonceAccount :: nonceProgram :: messageAccounts ∧
    nonceProgram.address = P.nonceProgram ∧
    validateExecutionMessage executionMessage = .ok message ∧
    validateMessageAccounts messageAccounts message = .ok ()

/-- Whatever `Execute` accepts has passed them. -/
theorem Executes.passesAccountChecks {ledger : P.Ledger} {accounts : List P.AccountView}
    {executionMessage : P.VersionedMessage} {nonceAuthority nonceAccount : P.AccountView}
    {message : P.Message} {state : P.Nonce}
    (executes : Executes ledger accounts executionMessage nonceAuthority nonceAccount message
      state) : PassesAccountChecks accounts executionMessage := by
  obtain ⟨nonceProgram, messageAccounts, same, program, mirrors⟩ := executes.shape
  exact ⟨_, _, nonceProgram, messageAccounts, message, same, program,
    validateExecutionMessage_ok_iff.mpr ⟨executes.version, executes.sane, executes.config⟩,
    validateMessageAccounts_ok_iff.mpr mirrors⟩

/-- Looking only at which addresses occur, the collected signers are the occurrences of PDAs. -/
theorem collectAuthorizedSigners_length (programId : P.Address)
    (checked : CheckedExecutorInstruction P) (authorities : List P.Address) :
    (collectAuthorizedSigners programId checked authorities).length =
      (authorities.flatMap fun authority =>
        (checked.accounts.map fun entry => entry.account.address).filter
          (· = deriveAddress programId authority)).length := by
  rw [collectAuthorizedSigners, List.length_flatMap, List.length_flatMap]
  apply congrArg List.sum
  apply List.map_congr_left
  intro authority _
  generalize checked.accounts = entries
  induction entries with
  | nil => rfl
  | cons entry entries ih =>
      by_cases same : entry.account.address = (deriveAddressAndBump programId authority).1
      · simp only [List.filterMap_cons, List.length_cons, ih, List.map_cons,
          deriveAddress, List.filter_cons, same, decide_true, if_true]
      · simp only [List.filterMap_cons, ih, List.map_cons, deriveAddress,
          List.filter_cons, same, decide_false, Bool.false_eq_true, if_false]

theorem signersWithSignature_nodup {signers : List P.Address}
    {signatures : List (Option P.Signature)} (distinct : signers.Nodup) :
    (signersWithSignature signers signatures).Nodup ∧
      (signersWithSignature signers signatures).length ≤ signers.length := by
  have sublist : (signersWithSignature signers signatures).Sublist signers := by
    induction signers generalizing signatures with
    | nil => exact List.Sublist.refl _
    | cons signer signers ih =>
        cases signatures with
        | nil => exact List.nil_sublist _
        | cons signature signatures =>
            have rest := @ih signatures (List.nodup_cons.mp distinct).2
            cases signature with
            | none => exact rest.cons signer
            | some signature => exact rest.cons_cons signer
  exact ⟨distinct.sublist sublist, sublist.length_le⟩

/-- What an accepted `Submit` collects: its authorities are among the message's signers, and it
searches the accounts that the executor will see. -/
theorem Submits.collects (messages : P.MessageLaws) (programId : P.Address)
    {accounts : List P.AccountView} {signatures : List (Option P.Signature)}
    {versioned : P.VersionedMessage} {message : P.Message} {ix : CompiledInstruction}
    (submits : Submits accounts signatures versioned message ix) :
    ∃ executorInstruction authorities,
      CheckedExecutorInstruction.tryNew accounts message ix = .ok executorInstruction ∧
      verifyAuthoritySignatures accounts signatures message = .ok authorities ∧
      authorities.Nodup ∧ authorities.length ≤ message.header.numRequiredSignatures.toNat ∧
      executorInstruction.accounts.map (fun entry => entry.account.address) =
        (submitCpi programId accounts signatures message ix).instruction.views.map
          AccountView.address ∧
      (submitCpi programId accounts signatures message ix).signers.length =
        (collectAuthorizedSigners programId executorInstruction authorities).length := by
  have formed := messages.wellFormed message submits.valid
  have listed : ix ∈ message.instructions := submits.single ▸ List.mem_cons_self
  have inside := formed.indexes ix listed
  have length : accounts.length = message.accountKeys.length := by
    rw [← submits.mirrors, List.length_map]
  obtain ⟨resolved, found⟩ := exists_resolves ix.accounts (length.symm ▸ inside)
  have keysDistinct : message.signerKeys.Nodup := formed.distinct.sublist (List.take_sublist _ _)
  obtain ⟨distinct, count⟩ :=
    @signersWithSignature_nodup P message.signerKeys signatures keysDistinct
  rw [formed.signerKeys_length] at count
  refine ⟨⟨message.keyAt ix.programIdIndex, resolved, ix.data⟩, _,
    (CheckedExecutorInstruction.tryNew_ok_iff formed listed).mpr
      ⟨submits.mirrors, submits.allowed, rfl, rfl, found⟩,
    (verifyAuthoritySignatures_ok_iff formed submits.mirrors).mpr
      ⟨submits.count, submits.approved, rfl⟩, distinct, count, ?_, ?_⟩
  · have keys := congrArg (List.map fun entry : Nat × P.Address × Bool => entry.2.1)
      (found.map_eq submits.mirrors inside)
    rw [List.map_map, List.map_map] at keys
    rw [Instruction.views_addresses, submitCpi, List.map_map]
    exact keys
  · have seeds := @collectAuthorizedSigners_seeds P programId accounts message ix
      ⟨message.keyAt ix.programIdIndex, resolved, ix.data⟩ found submits.mirrors inside
      (signersWithSignature message.signerKeys signatures)
    rw [submitCpi, ← seeds, List.length_map]

/-- The first two accounts can be anyone's PDA, and those of the message are distinct. -/
theorem PassesAccountChecks.occurrences_le (messages : P.MessageLaws)
    (derivation : P.DerivationLaws)
    (foreign : ∀ authority : P.Address, deriveAddress P.signerProgram authority ≠ P.nonceProgram)
    {accounts : List P.AccountView} {executionMessage : P.VersionedMessage}
    (checked : PassesAccountChecks accounts executionMessage) {authorities : List P.Address}
    (distinct : authorities.Nodup) :
    (authorities.flatMap fun authority => (accounts.map AccountView.address).filter
      (· = deriveAddress P.signerProgram authority)).length ≤ authorities.length + 2 := by
  obtain ⟨nonceAuthority, nonceAccount, nonceProgram, messageAccounts, message, rfl, program,
    validated, mirrors⟩ := checked
  obtain ⟨_, sane, _⟩ := validateExecutionMessage_ok_iff.mp validated
  have formed := messages.wellFormed message ((messages.sanitize_iff message).mp sane)
  rw [List.map_cons, List.map_cons, List.map_cons, validateMessageAccounts_ok_iff.mp mirrors]
  apply length_occurrences_le derivation.injective distinct _ formed.distinct
  intro derived
  obtain ⟨authority, _, image⟩ := List.mem_map.mp derived
  exact foreign authority (image.trans program)

/-- An accepted `Submit` whose CPI passes `Execute`'s account checks collects at most two signers
more than the message has required signatures, which stays within the runtime's limit. -/
theorem promotion_within_seed_limit (messages : P.MessageLaws) (derivation : P.DerivationLaws)
    (foreign : ∀ authority : P.Address, deriveAddress P.signerProgram authority ≠ P.nonceProgram)
    (accounts : List P.AccountView) (signatures : List (Option P.Signature))
    (versioned executionMessage : P.VersionedMessage) (cpi : P.Cpi)
    (accepted : processSubmit P.signerProgram accounts signatures versioned = ⟨[cpi], .ok ()⟩)
    (checked : PassesAccountChecks cpi.instruction.views executionMessage) :
    ∃ message ix executorInstruction authorities, versioned = .v1 message ∧
      message.instructions = [ix] ∧
      CheckedExecutorInstruction.tryNew accounts message ix = .ok executorInstruction ∧
      verifyAuthoritySignatures accounts signatures message = .ok authorities ∧
      cpi.signers.length =
        (collectAuthorizedSigners P.signerProgram executorInstruction authorities).length ∧
      cpi.signers.length ≤ message.header.numRequiredSignatures.toNat + 2 ∧
      cpi.signers.length ≤ 14 ∧ cpi.signers.length ≤ maxCpiSigners := by
  have reached : ¬ (processSubmit P.signerProgram accounts signatures versioned).Refused := by
    rw [accepted]
    exact Issued.not_refused_of_ok rfl
  obtain ⟨message, ix, submits⟩ := processSubmit_accepts messages reached
  have issued := (submits.processSubmit_eq messages P.signerProgram).symm.trans accepted
  obtain rfl : submitCpi P.signerProgram accounts signatures message ix = cpi := by
    cases issued
    rfl
  obtain ⟨executorInstruction, authorities, tried, verified, distinct, count, addresses, signers⟩ :=
    submits.collects messages P.signerProgram
  have few := (messages.wellFormed message submits.valid).signatures
  have bound := checked.occurrences_le messages derivation foreign distinct
  rw [← addresses, ← collectAuthorizedSigners_length, ← signers] at bound
  refine ⟨message, ix, executorInstruction, authorities, submits.version, submits.single, tried,
    verified, signers, ?_, ?_, ?_⟩
  · omega
  · rw [maxSignatures] at few
    omega
  · rw [maxSignatures] at few
    rw [maxCpiSigners]
    omega

/-- No PDA of the reference platform is a program. -/
theorem Reference.deriveAddress_ne_nonceProgram (authority : Nat) :
    @deriveAddress .reference Platform.reference.signerProgram authority ≠
      Platform.reference.nonceProgram := by
  intro same
  have derived : 2 * authority + 1 = 2 := (Reference.derived_authority authority []).symm.trans same
  omega

/-- The reference submission signs for its one PDA. -/
theorem promotion_within_seed_limit_reference :
    Reference.submission.signers.length ≤ maxCpiSigners := by
  obtain ⟨_, _, message, _, _, executes, _⟩ :=
    processExecutorInstruction_accepts Reference.messageLaws
      (Issued.not_refused_of_ok (congrArg Issued.result Reference.submission_issues))
  obtain ⟨_, _, _, _, _, _, _, _, _, _, _, within⟩ :=
    promotion_within_seed_limit Reference.messageLaws Reference.derivationLaws
      Reference.deriveAddress_ne_nonceProgram Reference.relay.views [some Reference.signature]
      (.v1 Reference.authorization) (.v1 message) Reference.submission
      (Reference.relay_submits.processSubmit_eq Reference.messageLaws _)
      executes.passesAccountChecks
  exact within

end ProgrammaticSigner
