import ProgrammaticSigner.Signer.Layout

set_option autoImplicit false

/- Submitting an authorization message that was built over an execution: once everyone
approved, the executor gets the instruction its client built. -/
namespace ProgrammaticSigner

open Outcome SignerClient

variable {P : Platform}

/-- The executor uses the address as a signer: the nonce authority, or one of the message's. -/
def UsesSigner (executionMessage : P.Message) (nonceAuthority address : P.Address) : Prop :=
  address = nonceAuthority ∨ address ∈ executionMessage.signerKeys

/-- The accounts a relay gives to a `Submit`, and the signatures in it, approve it for
every required signer of the message. -/
structure Approved (accounts : List P.AccountView) (signatures : List (Option P.Signature))
    (message : P.Message) : Prop where
  mirrors : accounts.map AccountView.address = message.accountKeys
  count : signatures.length = message.header.numRequiredSignatures.toNat
  approved : ∀ (index : Nat) signer signature account,
    message.signerKeys[index]? = some signer → signatures[index]? = some signature →
    accounts[index]? = some account →
    Approves (Platform.serializeV1 message) signer signature account

/-- The accounts a program gets for an instruction: at least the signers it marks. -/
structure GrantedFor (instruction : P.Instruction) (accounts : List P.AccountView) : Prop where
  addresses : accounts.map AccountView.address = instruction.accounts.map AccountMeta.pubkey
  signers : ∀ (index : Nat) account original, accounts[index]? = some account →
    instruction.accounts[index]? = some original → original.isSigner = true →
    account.isSigner = true

theorem Instruction.views_granted (instruction : P.Instruction) :
    GrantedFor instruction instruction.views := by
  refine ⟨instruction.views_addresses, ?_⟩
  intro index account original present listed signs
  rw [Instruction.views, List.getElem?_map, listed, Option.map_some, Option.some.injEq] at present
  rw [← present]
  exact Instruction.grantsSigner_iff.mpr ⟨original, List.mem_of_getElem? listed, rfl, signs⟩

/-- The relay account of a required signer signs. -/
def RelaySigned (accounts : List P.AccountView) (message : P.Message) (signer : P.Address) :
    Prop :=
  signer ∈ message.signerKeys ∧ ∀ (index : Nat) account,
    message.signerKeys[index]? = some signer → accounts[index]? = some account →
    account.isSigner = true

/-- An account keeps the privileges of the original, apart from the one that the executor
program's own address can never have. -/
structure Covers (account original : P.AccountMeta) : Prop where
  pubkey : account.pubkey = original.pubkey
  signer : original.isSigner = true → account.isSigner = true
  writable : original.isWritable = true → original.pubkey ≠ P.executorProgram →
    account.isWritable = true
  program : original.pubkey = P.executorProgram → account.isWritable = false

/-- An instruction is the original one, with its privileges. -/
structure Delivers (instruction original : P.Instruction) : Prop where
  programId : instruction.programId = original.programId
  data : instruction.data = original.data
  accounts : List.Forall₂ Covers instruction.accounts original.accounts

theorem forall₂_key_eq_iff {α β γ : Type} {left : List α} {right : List β} {key : α → γ}
    {value : β → γ} :
    List.Forall₂ (fun first second => key first = value second) left right ↔
      left.map key = right.map value := by
  rw [← List.forall₂_eq_eq_eq, List.forall₂_map_left_iff, List.forall₂_map_right_iff]

theorem Delivers.addresses {instruction original : P.Instruction}
    (delivers : Delivers instruction original) :
    instruction.accounts.map AccountMeta.pubkey = original.accounts.map AccountMeta.pubkey :=
  forall₂_key_eq_iff.mp (delivers.accounts.imp fun _ _ covers => covers.pubkey)

theorem exists_of_forall₂ {α β : Type} {R : α → β → Prop} {left : List α} {right : List β}
    (related : List.Forall₂ R left right) {second : β} (member : second ∈ right) :
    ∃ first ∈ left, R first second := by
  induction related with
  | nil => cases member
  | cons here rest ih =>
      rcases List.mem_cons.mp member with same | member
      · exact ⟨_, List.mem_cons_self, same ▸ here⟩
      · obtain ⟨first, listed, holds⟩ := ih member
        exact ⟨first, List.mem_cons_of_mem _ listed, holds⟩

/-- The privileges that the executor's own CPIs ask for were delivered. -/
theorem Delivers.grants {instruction : P.Instruction} {nonceAccount nonceAuthority : P.Address}
    {message : P.Message} (formed : message.WellFormed)
    (delivers : Delivers instruction
      (ExecutorClient.execute nonceAccount nonceAuthority message))
    {cpi : P.Cpi} (listed : cpi ∈ executionCpis nonceAuthority nonceAccount message)
    {account : P.AccountMeta} (member : account ∈ cpi.instruction.accounts) :
    (account.isSigner = true → instruction.grantsSigner account.pubkey = true) ∧
      (account.isWritable = true → account.pubkey ≠ P.executorProgram →
        instruction.grantsWritable account.pubkey = true) := by
  have own := executionCpis_accounts formed listed member
  obtain ⟨given, among, covers⟩ := exists_of_forall₂ delivers.accounts own
  constructor
  · intro signs
    exact Instruction.grantsSigner_iff.mpr ⟨given, among, covers.pubkey, covers.signer signs⟩
  · intro writes other
    exact Instruction.grantsWritable_iff.mpr
      ⟨given, among, covers.pubkey, covers.writable writes other⟩

/-- The accounts that the client marks as signers. -/
theorem ExecutorClient.execute_signer_iff (messages : P.MessageLaws)
    {nonceAccount nonceAuthority : P.Address} {message : P.Message}
    (formed : message.WellFormed) (address : P.Address) :
    (∃ account ∈ (ExecutorClient.execute nonceAccount nonceAuthority message).accounts,
      account.pubkey = address ∧ account.isSigner = true) ↔
      UsesSigner message nonceAuthority address := by
  have keys : (∃ account ∈ message.accountKeys.mapIdx fun index key =>
      (⟨key, P.isSigner message index, P.isMaybeWritable message index⟩ : P.AccountMeta),
      account.pubkey = address ∧ account.isSigner = true) ↔ address ∈ message.signerKeys := by
    constructor
    · rintro ⟨account, member, same, signs⟩
      obtain ⟨index, inside, equal⟩ := List.mem_mapIdx.mp member
      rw [← equal] at same signs
      simp only [messages.isSigner, decide_eq_true_eq] at signs
      rw [← same]
      exact (formed.getElem_mem_signerKeys inside).mpr signs
    · intro member
      obtain ⟨index, below, same⟩ := List.mem_take_iff_getElem.mp member
      have inside : index < message.accountKeys.length := by omega
      refine ⟨_, List.mem_mapIdx.mpr ⟨index, inside, rfl⟩, same, ?_⟩
      rw [messages.isSigner, decide_eq_true_eq]
      omega
  unfold UsesSigner
  rw [← keys]
  simp only [ExecutorClient.execute, List.exists_mem_cons_iff, AccountMeta.new,
    AccountMeta.newReadonly, Bool.false_eq_true, and_false, and_true, false_or, eq_comm]

/-- The accounts of a `Submit` mirror the message's keys. -/
theorem SignerClient.submit_addresses (signatures : List (Option P.Signature))
    (message : P.Message) :
    (SignerClient.submit signatures message).accounts.map AccountMeta.pubkey =
      message.accountKeys :=
  List.ext_getElem (by simp [SignerClient.submit]) (by simp [SignerClient.submit])

section Submission

variable {nonceAccount nonceAuthority : P.Address} {executionMessage message : P.Message}
  {signers : List P.Address} {accounts : List P.AccountView}
  {signatures : List (Option P.Signature)}
  (authorizes : Authorizes
    (ExecutorClient.execute nonceAccount nonceAuthority executionMessage) signers message)
  (approved : Approved accounts signatures message)
include authorizes approved

/-- An approved submission passes every check of the signer program. -/
theorem Authorizes.submits : ∃ ix, Submits accounts signatures (.v1 message) message ix ∧
    message.keyAt ix.programIdIndex = P.executorProgram ∧
    ix.accounts.map message.keyAt = (ExecutorClient.execute nonceAccount nonceAuthority
      executionMessage).accounts.map AccountMeta.pubkey ∧
    ix.data = (ExecutorClient.execute nonceAccount nonceAuthority executionMessage).data := by
  obtain ⟨ix, single, program, keys, data⟩ := authorizes.single
  have allowed : ExecutorPolicy.validate (message.keyAt ix.programIdIndex) ix.data = .ok () := by
    rw [ExecutorPolicy.validate_ok_iff, data]
    exact ⟨program, _, rfl⟩
  exact ⟨ix, ⟨rfl, authorizes.valid, authorizes.config, single, approved.mirrors, allowed,
    approved.count, approved.approved⟩, program, keys, data⟩

/-- Every privilege of an account that the executor was promised reaches its CPI. -/
theorem Authorizes.covers (messages : P.MessageLaws)
    (executionFormed : executionMessage.WellFormed)
    (provided : ∀ address, UsesSigner executionMessage nonceAuthority address →
      address ∈ (signersWithSignature message.signerKeys signatures).map
        (deriveAddress P.signerProgram) ∨ RelaySigned accounts message address)
    {index : UInt8} (inside : index.toNat < message.accountKeys.length)
    {original : P.AccountMeta} (member : original ∈
      (ExecutorClient.execute nonceAccount nonceAuthority executionMessage).accounts)
    (same : message.keyAt index = original.pubkey) :
    Covers ⟨message.keyAt index,
      decide (message.keyAt index ∈ (signersWithSignature message.signerKeys signatures).map
        (deriveAddress P.signerProgram)) ||
        P.isSigner message index.toNat && relaySigns accounts index.toNat,
      P.isMaybeWritable message index.toNat⟩ original := by
  have formed := messages.wellFormed message authorizes.valid
  have here := Message.keyAt_eq inside
  refine ⟨same, ?_, ?_, ?_⟩
  · intro signs
    have used := (ExecutorClient.execute_signer_iff messages executionFormed _).mp
      ⟨original, member, same.symm, signs⟩
    rw [Bool.or_eq_true, decide_eq_true_eq]
    rcases provided _ used with promoted | ⟨required, signed⟩
    · exact .inl promoted
    · refine .inr ?_
      rw [List.getElem?_eq_getElem inside, Option.some.injEq] at here
      have below : index.toNat < message.header.numRequiredSignatures.toNat := by
        rw [← here] at required
        exact (formed.getElem_mem_signerKeys inside).mp required
      have count : accounts.length = message.accountKeys.length := by
        rw [← approved.mirrors, List.length_map]
      have room : index.toNat < accounts.length := by omega
      have present : accounts[index.toNat]? = some accounts[index.toNat] :=
        List.getElem?_eq_getElem room
      have slot : message.signerKeys[index.toNat]? = some (message.keyAt index) := by
        rw [Message.signerKeys, List.getElem?_take_of_lt below]
        exact Message.keyAt_eq inside
      rw [messages.isSigner, Bool.and_eq_true, decide_eq_true_eq, relaySigns, present]
      exact ⟨below, signed index.toNat _ slot present⟩
  · intro writes other
    refine authorizes.writable index inside (same ▸ other) ?_
    rw [writesTo, List.any_eq_true]
    exact ⟨original, member, by simp [writes, same]⟩
  · intro program
    exact authorizes.program index inside (same.trans program)

/-- Once approved, a submission makes one CPI: the instruction the executor's client built. -/
theorem Authorizes.delivers (messages : P.MessageLaws)
    (signaturesFit : P.signatureWire.Total) (executionFormed : executionMessage.WellFormed)
    (provided : ∀ address, UsesSigner executionMessage nonceAuthority address →
      address ∈ (signersWithSignature message.signerKeys signatures).map
        (deriveAddress P.signerProgram) ∨ RelaySigned accounts message address) :
    ∃ ix, processSignerInstruction P.signerProgram accounts
        (SignerClient.submit signatures message).data =
          ⟨[submitCpi P.signerProgram accounts signatures message ix], .ok ()⟩ ∧
      Delivers (submitCpi P.signerProgram accounts signatures message ix).instruction
        (ExecutorClient.execute nonceAccount nonceAuthority executionMessage) := by
  have formed := messages.wellFormed message authorizes.valid
  obtain ⟨ix, submits, program, keys, data⟩ := authorizes.submits approved
  have listed : ix ∈ message.instructions := submits.single ▸ List.mem_cons_self
  have few := formed.signatures
  rw [maxSignatures] at few
  have decoded : SignerInstruction.tryFromBytes (SignerClient.submit signatures message).data =
      .ok (.submit signatures (.v1 message)) :=
    SignerInstruction.tryFromBytes_ok_iff.mpr ⟨SignerInstruction.wire_fits signaturesFit
      (by rw [approved.count]; omega) (messages.serializes message authorizes.valid), rfl⟩
  refine ⟨ix, ?_, program, data, ?_⟩
  · rw [processSignerInstruction, decoded, Issued.lift_ok_bind]
    exact submits.processSubmit_eq messages P.signerProgram
  · have count := congrArg List.length keys
    rw [List.length_map, List.length_map] at count
    rw [submitCpi, List.forall₂_map_left_iff, List.forall₂_iff_zip]
    refine ⟨count, fun {index original} pair => ?_⟩
    have members := List.of_mem_zip pair
    have same := (List.forall₂_iff_zip.mp (forall₂_key_eq_iff.mpr keys)).2 pair
    exact authorizes.covers approved messages executionFormed provided
      (formed.indexes ix listed index members.1) members.2 same

end Submission

end ProgrammaticSigner
