import ProgrammaticSigner.Cli.Relay

set_option autoImplicit false

/- How large a relay transaction is, by what it is built from. -/
namespace ProgrammaticSigner

open Outcome V1Transaction

variable {P : Platform}

/-- The keys of a message that compiles from instructions. -/
def compiledAddresses (feePayer : P.Address) (instructions : List P.Instruction) :
    Finset P.Address :=
  insert feePayer (instructions.flatMap fun instruction =>
    instruction.programId :: instruction.accounts.map AccountMeta.pubkey).toFinset

/-- Those of its keys that sign. -/
def compiledSigners (feePayer : P.Address) (instructions : List P.Instruction) :
    Finset P.Address :=
  (compiledAddresses feePayer instructions).filter fun address =>
    address = feePayer ∨ ∃ instruction ∈ instructions, instruction.grantsSigner address = true

/-- What a v1 message takes besides its keys and instructions. -/
def fixedSize (config : TransactionConfig) : Nat :=
  42 + (config.priorityFee.elim 0 fun _ => 8) + (config.computeUnitLimit.elim 0 fun _ => 4) +
    (config.loadedAccountsDataSizeLimit.elim 0 fun _ => 4) + config.heapSize.elim 0 fun _ => 4

/-- Documented behavior of the message compiler, and the layout of a v1 transaction. -/
structure Toolkit.LayoutLaws (K : Toolkit P) : Prop where
  compiles : ∀ feePayer instructions blockhash config message,
    K.tryCompileWithConfig feePayer instructions blockhash config = .ok message →
    message.config = config ∧
    message.accountKeys.toFinset = compiledAddresses feePayer instructions ∧
    List.Forall₂ (fun instruction entry => entry.accounts.length = instruction.accounts.length ∧
      entry.data = instruction.data) instructions message.instructions
  /-- A program cannot be the fee payer. -/
  payer : ∀ feePayer instructions blockhash config message,
    K.tryCompileWithConfig feePayer instructions blockhash config = .ok message →
    P.validate message = .ok () → ∀ instruction ∈ instructions, instruction.programId ≠ feePayer
  /-- Nothing within the limits is turned down. -/
  accepts : ∀ feePayer instructions blockhash,
    (compiledAddresses feePayer instructions).card ≤ maxAddresses →
    (compiledSigners feePayer instructions).card ≤ maxSignatures →
    instructions.length ≤ 64 →
    (∀ instruction ∈ instructions, instruction.programId ≠ feePayer ∧
      instruction.accounts.length ≤ 255 ∧ instruction.data.length ≤ 65535) →
    ∃ message, K.tryCompileWithConfig feePayer instructions blockhash limits = .ok message ∧
      P.validate message = .ok ()
  size : ∀ transaction : P.Transaction, P.validate transaction.message = .ok () →
    ∃ bytes, K.serializeTransaction transaction = .ok bytes ∧
      bytes.length = fixedSize transaction.message.config +
        32 * transaction.message.accountKeys.length +
        (transaction.message.instructions.map fun entry =>
          4 + entry.accounts.length + entry.data.length).sum +
        64 * transaction.signatures.length
  signature : ∀ signature, (P.signatureWire.encode signature).length = 64

/-- The bytes of a signature slot in `Submit`'s data. -/
def slotSize (slot : Option P.Signature) : Nat := slot.elim 1 fun _ => 65

/-- The size of a relay transaction without a durable nonce. -/
def relaySize (message : P.Message) (signatures : List (Option P.Signature))
    (submitSigners : List P.Address) (feePayer : P.Address) : Nat :=
  fixedSize limits +
    32 * (insert feePayer (insert P.signerProgram message.accountKeys.toFinset)).card +
    (4 + message.accountKeys.length +
      (2 + (signatures.map slotSize).sum + (Platform.serializeV1 message).length)) +
    64 * (insert feePayer submitSigners.toFinset).card

section Among

variable {instruction : P.Instruction} {instructions : List P.Instruction}
  (among : instruction ∈ instructions) (feePayer : P.Address)
include among

/-- Compiled with other instructions, an instruction brings its keys and its signers. -/
theorem compiledAddresses_subset :
    compiledAddresses feePayer [instruction] ⊆ compiledAddresses feePayer instructions := by
  unfold compiledAddresses
  apply Finset.insert_subset_insert
  intro address member
  rw [List.flatMap_singleton, List.mem_toFinset] at member
  exact List.mem_toFinset.mpr (List.mem_flatMap.mpr ⟨instruction, among, member⟩)

theorem compiledSigners_subset :
    compiledSigners feePayer [instruction] ⊆ compiledSigners feePayer instructions := by
  intro address member
  obtain ⟨listed, role⟩ := Finset.mem_filter.mp member
  simp only [List.mem_singleton, exists_eq_left] at role
  apply Finset.mem_filter.mpr
  exact ⟨compiledAddresses_subset among feePayer listed,
    role.imp_right fun granted => ⟨instruction, among, granted⟩⟩

end Among

section Compiled

variable {K : Toolkit P} {feePayer : P.Address} {instructions : List P.Instruction}
  {blockhash : P.Hash} {config : TransactionConfig} {message : P.Message}

/-- Every key is counted once. -/
theorem accountKeys_length (layout : K.LayoutLaws) (formed : message.WellFormed)
    (compiled : K.tryCompileWithConfig feePayer instructions blockhash config = .ok message) :
    message.accountKeys.length = (compiledAddresses feePayer instructions).card := by
  rw [← (layout.compiles _ _ _ _ _ compiled).2.1]
  exact (List.toFinset_card_of_nodup formed.distinct).symm

theorem signerKeys_toFinset (transactions : K.TransactionLaws)
    (compiled : K.tryCompileWithConfig feePayer instructions blockhash config = .ok message)
    (layout : K.LayoutLaws) :
    message.signerKeys.toFinset = compiledSigners feePayer instructions := by
  ext address
  have signs := transactions.compiles _ _ _ _ _ compiled address
  rw [List.mem_toFinset, compiledSigners, Finset.mem_filter, signs,
    ← (layout.compiles _ _ _ _ _ compiled).2.1, List.mem_toFinset]
  constructor
  · intro role
    exact ⟨List.mem_of_mem_take (signs.mpr role), role⟩
  · exact And.right

/-- So is every signature. -/
theorem numRequiredSignatures_eq (transactions : K.TransactionLaws) (layout : K.LayoutLaws)
    (formed : message.WellFormed)
    (compiled : K.tryCompileWithConfig feePayer instructions blockhash config = .ok message) :
    message.header.numRequiredSignatures.toNat = (compiledSigners feePayer instructions).card := by
  rw [← signerKeys_toFinset transactions compiled layout, ← formed.signerKeys_length]
  exact (List.toFinset_card_of_nodup (formed.distinct.sublist (List.take_sublist _ _))).symm

theorem entries_size (layout : K.LayoutLaws)
    (compiled : K.tryCompileWithConfig feePayer instructions blockhash config = .ok message) :
    (message.instructions.map fun entry => 4 + entry.accounts.length + entry.data.length) =
      instructions.map fun instruction =>
        4 + instruction.accounts.length + instruction.data.length := by
  have related := (layout.compiles _ _ _ _ _ compiled).2.2
  clear compiled
  generalize message.instructions = entries at related
  induction related with
  | nil => rfl
  | cons same _ ih => rw [List.map_cons, List.map_cons, ih, same.1, same.2]

end Compiled

section Marked

variable {K : Toolkit P} {message : P.Message} {signatures : List (Option P.Signature)}
  {submitSigners : List P.Address} {feePayer : P.Address}

/-- A slot's size depends on whether it holds a signature alone. -/
theorem submit_data_length (layout : K.LayoutLaws) :
    (markedSubmit message signatures submitSigners).data.length =
      2 + (signatures.map slotSize).sum + (Platform.serializeV1 message).length := by
  have slots : (signatures.flatMap P.signatureWire.option.encode).length =
      (signatures.map slotSize).sum := by
    rw [List.length_flatMap]
    apply congrArg List.sum
    apply List.map_congr_left
    intro slot _
    cases slot with
    | none => rfl
    | some signature =>
        show (1 :: P.signatureWire.encode signature).length = 65
        rw [List.length_cons, layout.signature]
  have count : (Wire.leBytes 1 signatures.length).length = 1 := Wire.leBytes_length _ _
  show (0 :: (Wire.leBytes 1 signatures.length ++
    signatures.flatMap P.signatureWire.option.encode ++ Platform.serializeV1 message)).length = _
  rw [List.length_cons, List.length_append, List.length_append, slots, count]
  omega

theorem markedSubmit_length :
    (markedSubmit message signatures submitSigners).accounts.length =
      message.accountKeys.length := by
  rw [← markedSubmit_addresses message signatures submitSigners, List.length_map]

theorem compiledAddresses_submit :
    compiledAddresses feePayer [markedSubmit message signatures submitSigners] =
      insert feePayer (insert P.signerProgram message.accountKeys.toFinset) := by
  rw [compiledAddresses, List.flatMap_singleton, markedSubmit_addresses, List.toFinset_cons]
  rfl

theorem compiledSigners_submit (known : submitSigners ⊆ message.accountKeys) :
    compiledSigners feePayer [markedSubmit message signatures submitSigners] =
      insert feePayer submitSigners.toFinset := by
  ext address
  rw [compiledSigners, compiledAddresses_submit, Finset.mem_filter, Finset.mem_insert,
    Finset.mem_insert, Finset.mem_insert, List.mem_toFinset, List.mem_toFinset]
  simp only [List.mem_singleton, exists_eq_left, markedSubmit_signer known]
  constructor
  · exact And.right
  · intro role
    exact ⟨role.imp_right fun listed => .inr (known listed), role⟩

end Marked

section Relay

variable {K : Toolkit P} {message : P.Message} {signatures : List (Option P.Signature)}
  {submitSigners : List P.Address} {feePayer : P.Address}
  {durableNonce : Option (P.Address × P.Address)} {blockhash : P.Hash}
  {transaction : P.Transaction}

/-- The instructions of a relay transaction. -/
def relayInstructions (K : Toolkit P) (message : P.Message)
    (signatures : List (Option P.Signature)) (submitSigners : List P.Address)
    (durableNonce : Option (P.Address × P.Address)) : List P.Instruction :=
  match durableNonce with
  | some (address, authority) => [K.advanceNonceAccount address authority,
      markedSubmit message signatures submitSigners]
  | none => [markedSubmit message signatures submitSigners]

theorem relayTransaction_ok_iff :
    relayTransaction K message signatures submitSigners feePayer durableNonce blockhash =
        .ok transaction ↔
      ∃ compiled, K.tryCompileWithConfig feePayer (relayInstructions K message signatures
          submitSigners durableNonce) blockhash limits = .ok compiled ∧
        P.validate compiled = .ok () ∧ unsigned compiled = transaction := by
  simp only [relayTransaction, bind_ok_iff, compileMessage_ok_iff, pure_ok_iff, and_assoc]
  rfl

theorem mem_relayInstructions : markedSubmit message signatures submitSigners ∈
    relayInstructions K message signatures submitSigners durableNonce := by
  unfold relayInstructions
  split <;> simp

/-- The size of any message that compiles and is valid, with room for its signatures. -/
theorem unsigned_size (messages : P.MessageLaws) (transactions : K.TransactionLaws)
    (layout : K.LayoutLaws) {instructions : List P.Instruction} {compiled : P.Message}
    (compiles : K.tryCompileWithConfig feePayer instructions blockhash limits = .ok compiled)
    (valid : P.validate compiled = .ok ()) :
    ∃ bytes, K.serializeTransaction (unsigned compiled) = .ok bytes ∧
      bytes.length = fixedSize limits + 32 * (compiledAddresses feePayer instructions).card +
        (instructions.map fun instruction =>
          4 + instruction.accounts.length + instruction.data.length).sum +
        64 * (compiledSigners feePayer instructions).card := by
  have formed := messages.wellFormed compiled valid
  obtain ⟨bytes, serializes, size⟩ := layout.size (unsigned compiled) valid
  refine ⟨bytes, serializes, ?_⟩
  simp only [unsigned, List.length_replicate] at size
  rw [size, (layout.compiles _ _ _ _ _ compiles).1, accountKeys_length layout formed compiles,
    numRequiredSignatures_eq transactions layout formed compiles, entries_size layout compiles]

/-- A relay transaction is as large as what it is built from says, or larger by what a durable
nonce adds. -/
theorem relayTransaction_size (messages : P.MessageLaws) (transactions : K.TransactionLaws)
    (layout : K.LayoutLaws) (known : submitSigners ⊆ message.accountKeys)
    (built : relayTransaction K message signatures submitSigners feePayer durableNonce blockhash =
      .ok transaction) :
    ∃ bytes, K.serializeTransaction transaction = .ok bytes ∧
      relaySize message signatures submitSigners feePayer ≤ bytes.length ∧
      (durableNonce = none →
        bytes.length = relaySize message signatures submitSigners feePayer) := by
  obtain ⟨compiled, compiles, valid, same⟩ := relayTransaction_ok_iff.mp built
  obtain ⟨bytes, serializes, size⟩ :=
    unsigned_size messages transactions layout compiles valid
  rw [same] at serializes
  have data := @submit_data_length P K message signatures submitSigners layout
  have accounts := @markedSubmit_length P message signatures submitSigners
  have addresses := @compiledAddresses_submit P message signatures submitSigners feePayer
  have signers := @compiledSigners_submit P message signatures submitSigners feePayer known
  have among := @mem_relayInstructions P K message signatures submitSigners durableNonce
  have keys := Finset.card_le_card (compiledAddresses_subset among feePayer)
  have signing := Finset.card_le_card (compiledSigners_subset among feePayer)
  have part := List.single_le_sum (fun _ _ => Nat.zero_le _) _ (List.mem_map_of_mem
    (f := fun instruction : P.Instruction =>
      4 + instruction.accounts.length + instruction.data.length) among)
  rw [addresses] at keys
  rw [signers] at signing
  rw [data, accounts] at part
  refine ⟨bytes, serializes, ?_, ?_⟩
  · rw [size, relaySize]
    omega
  · intro none
    rw [size, none, relayInstructions, addresses, signers, relaySize]
    simp only [List.map_cons, List.map_nil, List.sum_cons, List.sum_nil, data, accounts]
    omega

/-- What any relay transaction of the message shows of it and of the fee payer. -/
theorem relayTransaction_limits (messages : P.MessageLaws) (layout : K.LayoutLaws)
    (built : relayTransaction K message signatures submitSigners feePayer durableNonce blockhash =
      .ok transaction) :
    feePayer ≠ P.signerProgram ∧
      (insert feePayer (insert P.signerProgram message.accountKeys.toFinset)).card ≤
        maxAddresses := by
  obtain ⟨compiled, compiles, valid, -⟩ := relayTransaction_ok_iff.mp built
  have among := @mem_relayInstructions P K message signatures submitSigners durableNonce
  have formed := messages.wellFormed compiled valid
  constructor
  · intro same
    exact layout.payer _ _ _ _ _ compiles valid _ among same.symm
  · rw [← @compiledAddresses_submit P message signatures submitSigners feePayer]
    apply (Finset.card_le_card (compiledAddresses_subset among feePayer)).trans
    rw [← accountKeys_length layout formed compiles]
    exact formed.addresses

/-- Within the limits, the relay transaction without a durable nonce is there. -/
theorem relayTransaction_exists (layout : K.LayoutLaws)
    (known : submitSigners ⊆ message.accountKeys) (payer : feePayer ≠ P.signerProgram)
    (keys : (insert feePayer (insert P.signerProgram message.accountKeys.toFinset)).card ≤
      maxAddresses)
    (signers : (insert feePayer submitSigners.toFinset).card ≤ maxSignatures)
    (accounts : message.accountKeys.length ≤ 255)
    (data : 2 + (signatures.map slotSize).sum + (Platform.serializeV1 message).length ≤ 65535) :
    ∃ transaction, relayTransaction K message signatures submitSigners feePayer none blockhash =
      .ok transaction := by
  rw [← @compiledSigners_submit P message signatures submitSigners feePayer known] at signers
  rw [← @compiledAddresses_submit P message signatures submitSigners feePayer] at keys
  obtain ⟨compiled, compiles, valid⟩ := layout.accepts feePayer
    [markedSubmit message signatures submitSigners] blockhash keys signers
    (Nat.le_of_ble_eq_true rfl) (by
      intro instruction among
      rw [List.mem_singleton.mp among, markedSubmit_length, submit_data_length layout]
      exact ⟨payer.symm, accounts, data⟩)
  exact ⟨_, relayTransaction_ok_iff.mpr ⟨compiled, compiles, valid, rfl⟩⟩

end Relay

end ProgrammaticSigner
