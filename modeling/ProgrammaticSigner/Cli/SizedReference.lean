import ProgrammaticSigner.Cli.Reference
import ProgrammaticSigner.Cli.RelaySize
import ProgrammaticSigner.Signer.Complete

set_option autoImplicit false

/- The reference toolkit with signatures of 64 bytes, so that its transactions have the sizes of
the v1 layout. -/
namespace ProgrammaticSigner

open Outcome

namespace Reference

theorem field_length (width : Nat) (bytes : Bytes) : (field width bytes).length = width := by
  rw [field, List.length_take, List.length_append, List.length_replicate]
  omega

abbrev SignatureBytes := { bytes : Bytes // bytes.length = 64 }

instance : Inhabited SignatureBytes := ⟨⟨List.replicate 64 0, List.length_replicate⟩⟩

/-- The first bytes of the signer and the message. -/
def fixedSignature (address : Nat) (message : Bytes) : SignatureBytes :=
  ⟨field 64 (Wire.tally.encode address ++ message), field_length _ _⟩

def signatureBytesWire : Wire SignatureBytes where
  encode := Subtype.val
  decode bytes :=
    if long : 64 ≤ bytes.length then
      some (⟨bytes.take 64, List.length_take_of_le long⟩, bytes.drop 64)
    else none
  Fits _ := True
  decode_encode value _ rest := by
    have long : 64 ≤ (value.val ++ rest).length := by
      rw [List.length_append, value.property]
      omega
    simp only [dif_pos long, List.take_left' value.property, List.drop_left' value.property]
  decode_inv bytes value rest decoded := by
    split at decoded
    · obtain ⟨rfl, rfl⟩ := Prod.mk.inj (Option.some.inj decoded)
      exact ⟨trivial, (List.take_append_drop 64 bytes).symm⟩
    · cases decoded

end Reference

abbrev Platform.sized : Platform :=
  { Platform.limited with
    Signature := Reference.SignatureBytes
    signatureEq := inferInstance
    signatureDefault := inferInstance
    signatureWire := Reference.signatureBytesWire
    verifyStrict := fun address signature message =>
      signature == Reference.fixedSignature address message }

abbrev Toolkit.sized : Toolkit Platform.sized where
  showAddress := Toolkit.reference.showAddress
  parseAddress := Toolkit.reference.parseAddress
  showSignature signature := Reference.encodeText (Reference.signatureBytesWire.encode signature)
  parseSignature := Reference.parse Reference.signatureBytesWire
  showHash := Toolkit.reference.showHash
  encodeBase64 := Toolkit.reference.encodeBase64
  decodeBase64 := Toolkit.reference.decodeBase64
  malformed := Toolkit.reference.malformed
  describeMessage := Toolkit.reference.describeMessage
  describeCompile := Toolkit.reference.describeCompile
  describeProgram := Toolkit.reference.describeProgram
  describeFailure := Toolkit.reference.describeFailure
  hashRawMessage := Toolkit.reference.hashRawMessage
  tryCompileWithConfig := Reference.tryCompileWithConfig
  serializeTransaction transaction :=
    .ok (Reference.transactionBytes (Option.elim · [] Prod.snd)
      ⟨transaction.signatures.map fun signature => some (0, signature.val), transaction.message⟩)
  verify := Platform.sized.verifyStrict
  verifyWithResults transaction :=
    (transaction.signatures.zip transaction.message.accountKeys).map fun slot =>
      Platform.sized.verifyStrict slot.2 slot.1 (Platform.serializeV1 transaction.message)
  advanceNonceAccount := Toolkit.reference.advanceNonceAccount

namespace Reference

theorem sized_messageLaws : Platform.sized.MessageLaws where
  wellFormed := limited_messageLaws.wellFormed
  sanitize_iff := limited_messageLaws.sanitize_iff
  serializes := limited_messageLaws.serializes
  resets := limited_messageLaws.resets
  isSigner := limited_messageLaws.isSigner
  isMaybeWritable := limited_messageLaws.isMaybeWritable
  compiles := limited_messageLaws.compiles

theorem sized_transactionLaws : Toolkit.sized.TransactionLaws where
  compiles := transactionLaws.compiles
  advances := transactionLaws.advances
  verifies _ := rfl

section Compile

variable {feePayer : Nat} {instructions : List (Instruction Nat)} {blockhash : Bytes}
  {config : TransactionConfig} {message : Message Nat Bytes}

theorem tryCompileWithConfig_ok_iff :
    tryCompileWithConfig feePayer instructions blockhash config = .ok message ↔
      (compiledKeys feePayer instructions).length < 256 ∧ ∃ compiled,
        instructions.mapM (compileInstruction (compiledKeys feePayer instructions)) =
          .ok compiled ∧
        ⟨compiledHeader feePayer instructions, config, blockhash,
          compiledKeys feePayer instructions, compiled⟩ = message := by
  simp only [tryCompileWithConfig, bind_ok_iff, ensure_ok_iff, pure_ok_iff, exists_and_left,
    exists_const]

/-- Splitting the keys by their roles keeps each of them once. -/
theorem compiledKeys_perm :
    (compiledKeys feePayer instructions).Perm (feePayer :: otherKeys feePayer instructions) := by
  unfold compiledKeys
  apply List.Perm.cons
  apply (List.Perm.append (List.filter_append_perm _ _) (List.filter_append_perm _ _)).trans
  exact List.filter_append_perm _ _

theorem compiledKeys_toFinset : (compiledKeys feePayer instructions).toFinset =
    @compiledAddresses Platform.sized feePayer instructions := by
  ext address
  rw [List.mem_toFinset, compiledKeys_perm.mem_iff, List.mem_cons, mem_otherKeys,
    compiledAddresses, Finset.mem_insert, List.mem_toFinset, List.mem_flatMap]
  simp only [List.mem_cons]
  exact ⟨fun listed => listed.imp_right And.right, fun listed => by
    by_cases same : address = feePayer
    · exact .inl same
    · exact .inr ⟨same, listed.resolve_left same⟩⟩

theorem compiledKeys_nodup : (compiledKeys feePayer instructions).Nodup := by
  apply compiledKeys_perm.nodup_iff.mpr
  apply List.nodup_cons.mpr
  refine ⟨?_, ?_⟩
  · intro listed
    exact ((mem_otherKeys feePayer instructions feePayer).mp listed).1 rfl
  · exact (List.perm_insertionSort _ _).nodup_iff.mpr (List.nodup_dedup _)

/-- The signers of the compiled keys, by how many there are. -/
theorem compiledSigners_card : (@compiledSigners Platform.sized feePayer instructions).card =
    1 + ((otherKeys feePayer instructions).filter (signs feePayer instructions)).length := by
  have distinct : ((otherKeys feePayer instructions).filter
      (signs feePayer instructions)).Nodup :=
    ((List.perm_insertionSort _ _).nodup_iff.mpr (List.nodup_dedup _)).filter _
  have payer : feePayer ∉ (otherKeys feePayer instructions).filter
      (signs feePayer instructions) := fun listed =>
    ((mem_signing feePayer instructions feePayer).mp listed).1 rfl
  have same : @compiledSigners Platform.sized feePayer instructions =
      (feePayer :: (otherKeys feePayer instructions).filter
        (signs feePayer instructions)).toFinset := by
    ext address
    rw [compiledSigners, Finset.mem_filter, ← compiledKeys_toFinset, List.mem_toFinset,
      List.mem_toFinset, compiledKeys_perm.mem_iff, List.mem_cons, List.mem_cons, mem_signing]
    constructor
    · intro listed
      obtain ⟨_, role⟩ := listed
      by_cases payer : address = feePayer
      · exact .inl payer
      · exact .inr ⟨payer, role.resolve_left payer⟩
    · intro role
      rcases role with payer | ⟨other, granted⟩
      · exact ⟨.inl payer, .inl payer⟩
      · have listed := (mem_signing feePayer instructions address).mpr ⟨other, granted⟩
        exact ⟨.inr (List.mem_filter.mp listed).1, .inr granted⟩
  rw [same, List.toFinset_card_of_nodup (List.nodup_cons.mpr ⟨payer, distinct⟩),
    List.length_cons, Nat.add_comm]

/-- The header counts the keys it splits. -/
theorem compiledKeys_length : (compiledKeys feePayer instructions).length =
    1 + ((otherKeys feePayer instructions).filter (signs feePayer instructions)).length +
      ((otherKeys feePayer instructions).filter fun address =>
        !signs feePayer instructions address).length := by
  rw [compiledKeys_perm.length_eq, List.length_cons,
    List.length_eq_length_filter_add (signs feePayer instructions)]
  omega

theorem filter_reading_le (addresses : List Nat) :
    (addresses.filter fun address => !writes feePayer instructions address).length ≤
      addresses.length := List.length_filter_le _ _

/-- Within the limits no count of the header is cut off. -/
theorem compiledHeader_counts
    (keys : (compiledKeys feePayer instructions).length ≤ maxAddresses) :
    (compiledHeader feePayer instructions).numRequiredSignatures.toNat =
      1 + ((otherKeys feePayer instructions).filter (signs feePayer instructions)).length ∧
    (compiledHeader feePayer instructions).numReadonlySignedAccounts.toNat =
      (((otherKeys feePayer instructions).filter (signs feePayer instructions)).filter
        fun address => !writes feePayer instructions address).length ∧
    (compiledHeader feePayer instructions).numReadonlyUnsignedAccounts.toNat =
      (((otherKeys feePayer instructions).filter fun address =>
        !signs feePayer instructions address).filter
          fun address => !writes feePayer instructions address).length := by
  have total := @compiledKeys_length feePayer instructions
  have signed := @filter_reading_le feePayer instructions
    ((otherKeys feePayer instructions).filter (signs feePayer instructions))
  have silent := @filter_reading_le feePayer instructions
    ((otherKeys feePayer instructions).filter fun address =>
      !signs feePayer instructions address)
  rw [maxAddresses] at keys
  refine ⟨?_, ?_, ?_⟩
  · exact toNat_ofNat_of_le (by omega)
  · exact toNat_ofNat_of_le (by omega)
  · exact toNat_ofNat_of_le (by omega)

/-- Compiling within the limits gives a valid message. -/
theorem tryCompileWithConfig_valid
    (compiled : tryCompileWithConfig feePayer instructions blockhash config = .ok message)
    (keys : (compiledKeys feePayer instructions).length ≤ maxAddresses)
    (signers : (@compiledSigners Platform.sized feePayer instructions).card ≤ maxSignatures)
    (bounds : ∀ instruction ∈ instructions, instruction.programId ≠ feePayer ∧
      instruction.accounts.length ≤ 255 ∧ instruction.data.length ≤ 65535) :
    validateLimits message = .ok () := by
  obtain ⟨_, entries, found, rfl⟩ := tryCompileWithConfig_ok_iff.mp compiled
  have resolved := messageLaws.compiles _ _ _ found
  rw [compiledSigners_card] at signers
  have total := @compiledKeys_length feePayer instructions
  have signed := @filter_reading_le feePayer instructions
    ((otherKeys feePayer instructions).filter (signs feePayer instructions))
  have silent := @filter_reading_le feePayer instructions
    ((otherKeys feePayer instructions).filter fun address =>
      !signs feePayer instructions address)
  obtain ⟨required, readonlySigned, readonlyUnsigned⟩ := compiledHeader_counts keys
  apply validateLimits_ok_iff.mpr
  refine ⟨⟨?_, ?_, keys, ?_, compiledKeys_nodup, ?_, ?_⟩, ?_⟩
  · rw [required]
    exact signers
  · rw [required, readonlySigned]
    omega
  · rw [required, readonlyUnsigned]
    show _ ≤ (compiledKeys feePayer instructions).length
    omega
  · intro entry among
    obtain ⟨instruction, _, program, _⟩ := exists_of_forall₂ resolved among
    exact (List.getElem?_eq_some_iff.mp program).1
  · intro entry among index named
    obtain ⟨instruction, _, _, accounts, _⟩ := exists_of_forall₂ resolved among
    have present := List.mem_map_of_mem (f := fun index : UInt8 =>
      (compiledKeys feePayer instructions)[index.toNat]?) named
    rw [accounts] at present
    obtain ⟨account, _, here⟩ := List.mem_map.mp present
    exact (List.getElem?_eq_some_iff.mp here.symm).1
  · intro entry among
    obtain ⟨instruction, listed, program, accounts, data⟩ := exists_of_forall₂ resolved among
    obtain ⟨other, few, short⟩ := bounds instruction listed
    have count := congrArg List.length accounts
    rw [List.length_map, List.length_map] at count
    refine ⟨?_, count.le.trans few, data ▸ short⟩
    apply Nat.pos_of_ne_zero
    intro zero
    rw [zero] at program
    exact other (Option.some.inj program).symm

end Compile

theorem configBytes_length (config : TransactionConfig) :
    42 + (configBytes config).length = fixedSize config := by
  obtain ⟨priorityFee, computeUnitLimit, loadedAccountsDataSizeLimit, heapSize⟩ := config
  cases priorityFee <;> cases computeUnitLimit <;> cases loadedAccountsDataSizeLimit <;>
    cases heapSize <;> rfl

theorem sized_layoutLaws : Toolkit.sized.LayoutLaws where
  compiles feePayer instructions blockhash config message compiled := by
    obtain ⟨_, entries, found, rfl⟩ := tryCompileWithConfig_ok_iff.mp compiled
    refine ⟨rfl, compiledKeys_toFinset, ?_⟩
    apply (messageLaws.compiles _ _ _ found).imp
    intro instruction entry resolved
    have count := congrArg List.length resolved.2.1
    rw [List.length_map, List.length_map] at count
    exact ⟨count, resolved.2.2⟩
  payer feePayer instructions blockhash config message compiled valid instruction listed same := by
    obtain ⟨_, entries, found, rfl⟩ := tryCompileWithConfig_ok_iff.mp compiled
    obtain ⟨formed, rules⟩ := validateLimits_ok_iff.mp valid
    obtain ⟨entry, among, program, _⟩ :=
      exists_of_forall₂ (messageLaws.compiles _ _ _ found).flip listed
    obtain ⟨inside, here⟩ := List.getElem?_eq_some_iff.mp program
    have payer : (compiledKeys feePayer instructions)[0]? = some feePayer := rfl
    rw [same, ← payer] at program
    have first := (List.getElem?_inj inside formed.distinct).mp program
    have positive := (rules entry among).1
    omega
  accepts feePayer instructions blockhash keys signers few bounds := by
    rw [← compiledKeys_toFinset, List.toFinset_card_of_nodup compiledKeys_nodup] at keys
    have bounded : maxAddresses = 64 := rfl
    obtain ⟨entries, found⟩ := limited_limitLaws.compiles (compiledKeys feePayer instructions)
      instructions (by omega) (by
        intro instruction listed
        have among (address : Nat) (named : address = instruction.programId ∨
            address ∈ instruction.accounts.map AccountMeta.pubkey) :
            address ∈ compiledKeys feePayer instructions := by
          rw [compiledKeys_perm.mem_iff, List.mem_cons, mem_otherKeys]
          by_cases payer : address = feePayer
          · exact .inl payer
          · exact .inr ⟨payer, instruction, listed, named⟩
        exact ⟨among _ (.inl rfl), fun account member =>
          among _ (.inr (List.mem_map_of_mem member))⟩)
    have compiled : tryCompileWithConfig feePayer instructions blockhash V1Transaction.limits =
        .ok _ := tryCompileWithConfig_ok_iff.mpr ⟨by omega, entries, found, rfl⟩
    exact ⟨_, compiled, tryCompileWithConfig_valid compiled keys signers bounds⟩
  size transaction valid := by
    refine ⟨_, rfl, ?_⟩
    have fixed := configBytes_length transaction.message.config
    have split : (transaction.message.instructions.map fun _ => 2 + 1 + 1).sum +
        (transaction.message.instructions.map fun entry =>
          entry.accounts.length + entry.data.length).sum =
        (transaction.message.instructions.map fun entry =>
          4 + entry.accounts.length + entry.data.length).sum := by
      rw [← List.sum_map_add]
      simp only [Nat.add_assoc, Nat.reduceAdd]
    simp only [transactionBytes, List.length_append, List.length_cons, List.length_flatMap,
      field_length, Wire.leBytes_length, List.length_nil, List.map_map, Function.comp_def]
    simp only [List.map_const', List.sum_replicate, smul_eq_mul] at split ⊢
    omega
  signature signature := signature.property

theorem sized_textLaws : Toolkit.sized.TextLaws where
  base64 := textLaws.base64
  base64_plain := textLaws.base64_plain
  address := textLaws.address
  address_plain := textLaws.address_plain
  signature := parse_encodeText fun _ => trivial

theorem sized_readExecutionMessage {given : Platform.sized.Message}
    (valid : Platform.sized.validate given = .ok ()) (config : given.config = default) :
    Decode.readExecutionMessage Toolkit.sized
      (encodeText (Platform.serializeV1 (P := .sized) given)) false = .ok given := by
  have read := @Decode.readMessage_encode _ Toolkit.sized sized_textLaws "execution message" _
    (sized_messageLaws.serializes given valid) valid
  rw [Decode.readExecutionMessage, Platform.serializeV1]
  refine (bind_of_ok read).trans ?_
  exact Decode.validateExecutionMessage_ok_iff.mpr ⟨rfl, config⟩

end Reference

end ProgrammaticSigner
