import ProgrammaticSigner.Cli.V1Transaction
import ProgrammaticSigner.Solana.Reference

set_option autoImplicit false

/- A toolkit over the reference platform that computes and has every law. Text spells bytes
in characters past the ASCII range. -/
namespace ProgrammaticSigner

namespace Reference

def spell (byte : UInt8) : Char := Char.ofNat (byte.toNat + 256)

def encodeText (bytes : Bytes) : Text := bytes.map spell

def decodeText (text : Text) : Bytes :=
  text.map fun character => UInt8.ofNat (character.toNat - 256)

theorem spell_toNat (byte : UInt8) : (spell byte).toNat = byte.toNat + 256 := by
  have small := byte.toNat_lt
  have valid : (byte.toNat + 256).isValidChar := Or.inl (by omega)
  rw [spell, Char.toNat_ofNat, if_pos valid]

theorem decodeText_encodeText (bytes : Bytes) : decodeText (encodeText bytes) = bytes := by
  rw [decodeText, encodeText, List.map_map]
  refine Eq.trans (List.map_congr_left fun byte _ => ?_) (List.map_id bytes)
  show UInt8.ofNat ((spell byte).toNat - 256) = byte
  rw [spell_toNat, Nat.add_sub_cancel, UInt8.ofNat_toNat]

/-- The spelling stays clear of white space and of the separators of the command line. -/
theorem encodeText_plain {bytes : Bytes} {character : Char}
    (listed : character ∈ encodeText bytes) :
    isWhitespace character = false ∧ character ≠ '=' := by
  obtain ⟨byte, -, rfl⟩ := List.mem_map.mp listed
  have small := byte.toNat_lt
  have value := spell_toNat byte
  constructor
  · simp only [isWhitespace, value, List.mem_cons, List.not_mem_nil, or_false,
      Bool.or_eq_false_iff, decide_eq_false_iff_not, Bool.and_eq_false_iff]
    omega
  · intro same
    have codes := congrArg Char.toNat same
    rw [value] at codes
    have : ('=' : Char).toNat = 61 := rfl
    omega

/-- Every field of a value's text that does not read back is an error. -/
def parse {α : Type} (wire : Wire α) (text : Text) : Except Failure α :=
  Outcome.okOr (wire.deserializeExact (decodeText text)) ["invalid"]

theorem parse_encodeText {α : Type} {wire : Wire α} (total : wire.Total) (value : α) :
    parse wire (encodeText (wire.encode value)) = .ok value := by
  rw [parse, decodeText_encodeText, wire.deserializeExact_encode (total value)]
  rfl

section Compile

variable (feePayer : Nat) (instructions : List (Instruction Nat))

def signs (address : Nat) : Bool :=
  address = feePayer || instructions.any fun instruction => instruction.grantsSigner address

def writes (address : Nat) : Bool :=
  address = feePayer || instructions.any fun instruction => instruction.grantsWritable address

/-- The keys besides the fee payer, each once and in order. -/
def otherKeys : List Nat :=
  (((instructions.flatMap fun instruction =>
    instruction.programId :: instruction.accounts.map AccountMeta.pubkey).filter
      fun address => address ≠ feePayer).dedup).insertionSort (· ≤ ·)

/-- Writable signers, readonly signers, and the same of the accounts that do not sign. The
fee payer is the first. -/
def compiledKeys : List Nat :=
  let others := otherKeys feePayer instructions
  let signing := others.filter (signs feePayer instructions)
  let silent := others.filter fun address => !signs feePayer instructions address
  feePayer :: (signing.filter (writes feePayer instructions) ++
    signing.filter fun address => !writes feePayer instructions address) ++
    (silent.filter (writes feePayer instructions) ++
      silent.filter fun address => !writes feePayer instructions address)

def compiledHeader : MessageHeader :=
  let others := otherKeys feePayer instructions
  let signing := others.filter (signs feePayer instructions)
  let silent := others.filter fun address => !signs feePayer instructions address
  let reading := fun address => !writes feePayer instructions address
  ⟨UInt8.ofNat (1 + signing.length), UInt8.ofNat (signing.filter reading).length,
    UInt8.ofNat (silent.filter reading).length⟩

def tryCompileWithConfig (blockhash : Bytes) (config : TransactionConfig) :
    Except (CompileError Nat) (Message Nat Bytes) := do
  let keys := compiledKeys feePayer instructions
  Outcome.ensure (keys.length < 256) .accountIndexOverflow
  let compiled ← instructions.mapM (compileInstruction keys)
  return ⟨compiledHeader feePayer instructions, config, blockhash, keys, compiled⟩

theorem mem_otherKeys (address : Nat) : address ∈ otherKeys feePayer instructions ↔
    address ≠ feePayer ∧ ∃ instruction ∈ instructions,
      address = instruction.programId ∨
        address ∈ instruction.accounts.map AccountMeta.pubkey := by
  simp only [otherKeys, List.mem_insertionSort, List.mem_dedup, List.mem_filter,
    List.mem_flatMap, List.mem_cons, decide_eq_true_eq, and_comm]

/-- A key that signs is the fee payer or an account of an instruction, so it has a slot. -/
theorem mem_signing (address : Nat) :
    address ∈ (otherKeys feePayer instructions).filter (signs feePayer instructions) ↔
      address ≠ feePayer ∧ ∃ instruction ∈ instructions,
        instruction.grantsSigner address = true := by
  rw [List.mem_filter, mem_otherKeys, signs, Bool.or_eq_true, decide_eq_true_eq,
    List.any_eq_true]
  constructor
  · rintro ⟨⟨other, _⟩, role⟩
    exact ⟨other, role.resolve_left other⟩
  · rintro ⟨other, instruction, listed, granted⟩
    obtain ⟨account, among, same, -⟩ := Instruction.grantsSigner_iff.mp granted
    exact ⟨⟨other, instruction, listed, .inr (List.mem_map.mpr ⟨account, among, same⟩)⟩,
      .inr ⟨instruction, listed, granted⟩⟩

theorem signers_compile {blockhash : Bytes} {config : TransactionConfig}
    {message : Message Nat Bytes}
    (compiled : tryCompileWithConfig feePayer instructions blockhash config = .ok message)
    (address : Nat) : address ∈ message.signerKeys ↔ address = feePayer ∨
      ∃ instruction ∈ instructions, instruction.grantsSigner address = true := by
  simp only [tryCompileWithConfig, Outcome.bind_ok_iff, Outcome.ensure_ok_iff,
    Outcome.pure_ok_iff, exists_and_left, exists_const] at compiled
  obtain ⟨short, _, -, same⟩ := compiled
  rw [← same]
  have parts (role : Nat → Bool) (keys : List Nat) (key : Nat) :
      key ∈ keys.filter role ++ keys.filter (fun other => !role other) ↔ key ∈ keys := by
    rw [List.mem_append, List.mem_filter, List.mem_filter]
    cases role key <;> simp
  have split (role : Nat → Bool) (keys : List Nat) :
      (keys.filter role ++ keys.filter fun other => !role other).length = keys.length := by
    rw [List.length_append]
    exact (List.length_eq_length_filter_add _).symm
  have signing := split (writes feePayer instructions)
    ((otherKeys feePayer instructions).filter (signs feePayer instructions))
  simp only [compiledKeys, List.length_append, List.length_cons] at short signing
  have count : (compiledHeader feePayer instructions).numRequiredSignatures.toNat =
      1 + ((otherKeys feePayer instructions).filter (signs feePayer instructions)).length := by
    rw [compiledHeader, UInt8.toNat_ofNat']
    exact Nat.mod_eq_of_lt (by omega)
  rw [Message.signerKeys, count]
  show address ∈ (compiledKeys feePayer instructions).take _ ↔ _
  rw [compiledKeys, List.take_left' (by
      rw [List.length_cons, split]
      omega), List.mem_cons, parts, mem_signing]
  constructor
  · intro listed
    exact listed.imp_right And.right
  · intro listed
    by_cases payer : address = feePayer
    · exact .inl payer
    · exact .inr ⟨payer, listed.resolve_left payer⟩

end Compile

section Layout

/-- A field of some width, zero padded. -/
def field (width : Nat) (bytes : Bytes) : Bytes := (bytes ++ List.replicate width 0).take width

def configBytes (config : TransactionConfig) : Bytes :=
  config.priorityFee.elim [] Wire.uint64.encode ++
    config.computeUnitLimit.elim [] Wire.uint32.encode ++
    config.loadedAccountsDataSizeLimit.elim [] Wire.uint32.encode ++
    config.heapSize.elim [] Wire.uint32.encode

/-- The layout of a v1 transaction: the message with its fixed-width fields, and after it a
signature for each slot. -/
def transactionBytes (signatureBytes : Option (Nat × Bytes) → Bytes)
    (transaction : VersionedTransaction Nat Bytes (Option (Nat × Bytes))) : Bytes :=
  let message := transaction.message
  129 :: message.header.numRequiredSignatures :: message.header.numReadonlySignedAccounts ::
    message.header.numReadonlyUnsignedAccounts :: field 4 [] ++
    field 32 message.lifetimeSpecifier ++
    [UInt8.ofNat message.instructions.length, UInt8.ofNat message.accountKeys.length] ++
    message.accountKeys.flatMap (Wire.leBytes 32) ++ configBytes message.config ++
    message.instructions.flatMap (fun entry => entry.programIdIndex ::
      UInt8.ofNat entry.accounts.length :: Wire.leBytes 2 entry.data.length) ++
    message.instructions.flatMap (fun entry => entry.accounts ++ entry.data) ++
    transaction.signatures.flatMap fun signature => field 64 (signatureBytes signature)

end Layout

end Reference

abbrev Toolkit.reference : Toolkit Platform.reference where
  showAddress address := Reference.encodeText (Wire.tally.encode address)
  parseAddress := Reference.parse Wire.tally
  showSignature signature :=
    Reference.encodeText (Platform.reference.signatureWire.encode signature)
  parseSignature := Reference.parse Platform.reference.signatureWire
  showHash hash := Reference.encodeText hash
  encodeBase64 := Reference.encodeText
  decodeBase64 text := .ok (Reference.decodeText text)
  malformed := ["malformed"]
  describeMessage _ := "invalid message"
  describeCompile _ := "cannot compile"
  describeProgram _ := "invalid instruction"
  describeFailure failure := failure.headD ""
  hashRawMessage bytes := bytes
  tryCompileWithConfig := Reference.tryCompileWithConfig
  serializeTransaction transaction :=
    .ok (Reference.transactionBytes Platform.reference.signatureWire.encode transaction)
  verify := Platform.reference.verifyStrict
  verifyWithResults transaction :=
    (transaction.signatures.zip transaction.message.accountKeys).map fun slot =>
      Platform.reference.verifyStrict slot.2 slot.1 (Platform.serializeV1 transaction.message)
  advanceNonceAccount nonceAccount authority :=
    ⟨0, [.new nonceAccount false, .newReadonly 12 false, .newReadonly authority true],
      [4, 0, 0, 0]⟩

namespace Reference

theorem textLaws : Toolkit.reference.TextLaws where
  base64 bytes := congrArg Except.ok (decodeText_encodeText bytes)
  base64_plain _ _ listed := (encodeText_plain listed).1
  address := parse_encodeText Wire.tally_total
  address_plain _ listed := (encodeText_plain listed).2 rfl
  signature := parse_encodeText signature_total

theorem transactionLaws : Toolkit.reference.TransactionLaws where
  compiles feePayer instructions _ _ _ compiled address :=
    signers_compile feePayer instructions compiled address
  advances nonceAccount authority address := by
    rw [Instruction.grantsSigner_iff]
    simp only [List.exists_mem_cons_iff, List.not_mem_nil, false_and, exists_false, or_false,
      AccountMeta.new, AccountMeta.newReadonly, Bool.false_eq_true, and_false, and_true, false_or]
    exact eq_comm
  verifies _ := rfl

/-- A key at hand signs for its own address. -/
def keypair (address : Nat) : Platform.reference.LocalSigner where
  tryPubkey := .ok address
  isInteractive := true
  trySignMessage messageData := .ok (some (address, messageData))

theorem keypair_signs (address : Nat) :
    V1Transaction.Signs Toolkit.reference (keypair address) address :=
  ⟨rfl, fun _ => ⟨_, rfl, beq_self_eq_true _⟩⟩

/-- An address alone, which cannot sign. -/
def nullSigner (address : Nat) : Platform.reference.LocalSigner where
  tryPubkey := .ok address
  isInteractive := false
  trySignMessage _ := .error ["no key"]

/-- A machine whose key files spell the addresses they sign for. -/
def client (feePayer : Platform.reference.SignerSource)
    (nonce : Except Failure Platform.reference.Nonce) : Client Platform.reference where
  feePayerSource := .ok feePayer
  loadSigner source _ allowNullSigner := match source with
    | .pubkey address => if allowNullSigner then .ok (nullSigner address) else .error ["no key"]
    | .other path => (parse Wire.tally path).map keypair
  readLine := .ok ['y']
  nonceAccount _ := nonce
  durableNonceAccount _ := .error ["no nonce account"]
  latestBlockhash := .ok []
  sendAndConfirmTransaction _ := .ok []

/-- The key file of an address. -/
def keyFile (address : Nat) : Platform.reference.SignerSource :=
  .other (encodeText (Wire.tally.encode address))

theorem client_loads (feePayer : Platform.reference.SignerSource)
    (nonce : Except Failure Platform.reference.Nonce) (address : Nat) (name : String)
    (allowNullSigner : Bool) :
    (client feePayer nonce).loadSigner (keyFile address) name allowNullSigner =
      .ok (keypair address) := by
  show (parse Wire.tally (encodeText (Wire.tally.encode address))).map keypair = _
  rw [parse_encodeText Wire.tally_total]
  rfl

end Reference

end ProgrammaticSigner
