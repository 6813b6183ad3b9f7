import ProgrammaticSigner.Solana.Message

set_option autoImplicit false

/- What the programs and the clients take from outside the repository: key and
hash types, the message library, hashing, address derivation, signature checks
and the rent parameters. Nothing here is assumed to hold of them; the documented
behavior a result relies on is one of the named laws below. -/
namespace ProgrammaticSigner

/-- The errors the programs return, and below them the runtime's own. -/
inductive ProgramError where
  | custom (code : UInt32)
  | invalidArgument
  | invalidInstructionData
  | invalidAccountData
  | insufficientFunds
  | incorrectProgramId
  | missingRequiredSignature
  | accountAlreadyInitialized
  | notEnoughAccountKeys
  | accountBorrowFailed
  | illegalOwner
  | accountNotRentExempt
  | arithmeticOverflow
  /-- A failed `unwrap`. -/
  | panicked
  | privilegeEscalation
  | readonlyAccountModified
  deriving DecidableEq

structure Platform where
  Address : Type
  Hash : Type
  Signature : Type
  [addressOrder : LinearOrder Address]
  /-- `Address::default()`, which is also the System Program's id. -/
  [addressDefault : Inhabited Address]
  [hashEq : DecidableEq Hash]
  [hashDefault : Inhabited Hash]
  [signatureEq : DecidableEq Signature]
  [signatureDefault : Inhabited Signature]
  addressWire : Wire Address
  hashWire : Wire Hash
  signatureWire : Wire Signature
  messageWire : Wire (VersionedMessage Address Hash)
  nonceProgram : Address
  executorProgram : Address
  signerProgram : Address
  slotHashes : Address
  upgradeableLoader : Address
  /-- `v1::Message::validate` -/
  validate : Message Address Hash → Except MessageError Unit
  /-- `VersionedMessage::sanitize`, which on a v1 message is that message's own. -/
  sanitize : VersionedMessage Address Hash → Except MessageError Unit
  /-- `v1::Message::is_signer` -/
  isSigner : Message Address Hash → Nat → Bool
  /-- `is_maybe_writable_with_reserved_addresses` with no reserved addresses. -/
  isMaybeWritable : Message Address Hash → Nat → Bool
  /-- `AccountKeys::try_compile_instructions` -/
  compileInstructions : List Address → List (Instruction Address) →
    Except (CompileError Address) (List CompiledInstruction)
  /-- SHA-256 -/
  sha256 : List UInt8 → Hash
  /-- `Address::derive_program_address`, total as the code expects a bump to exist. -/
  deriveProgramAddress : List (List UInt8) → Address → Address × UInt8
  /-- The address a program signs for when it passes these seeds to a CPI. -/
  createProgramAddress : List (List UInt8) → Address → Option Address
  /-- Strict Ed25519 verification inside the signer program. -/
  verifyStrict : Address → Signature → List UInt8 → Bool
  /-- `Rent::try_minimum_balance` for the fixed rent parameters. -/
  minimumBalance : Nat → Except ProgramError UInt64

namespace Platform

attribute [instance] addressOrder addressDefault hashEq hashDefault signatureEq signatureDefault

variable (P : Platform)

/-- Comparing addresses agrees with their equality. -/
instance addressLawful : LawfulBEq P.Address := inferInstance

abbrev Message := ProgrammaticSigner.Message P.Address P.Hash
abbrev VersionedMessage := ProgrammaticSigner.VersionedMessage P.Address P.Hash
abbrev Instruction := ProgrammaticSigner.Instruction P.Address
abbrev AccountMeta := ProgrammaticSigner.AccountMeta P.Address

variable {P}

/-- `VersionedMessage::serialize` -/
def serialize (message : P.VersionedMessage) : List UInt8 := P.messageWire.encode message

/-- `v1::Message::serialize`, which writes the version prefix too. -/
def serializeV1 (message : P.Message) : List UInt8 := P.serialize (.v1 message)

/-- `solana_sha256_hasher::hashv` hashes its parts as one buffer. -/
def hashv (parts : List (List UInt8)) : P.Hash := P.sha256 parts.flatten

variable (P)

/-- Addresses and hashes always serialize, and at one width when concatenated. -/
structure KeyLaws : Prop where
  address : P.addressWire.Total
  hash : P.hashWire.Total

/-- The three programs have different ids, none of them the System Program's. -/
structure ProgramLaws : Prop where
  nonce_executor : P.nonceProgram ≠ P.executorProgram
  nonce_signer : P.nonceProgram ≠ P.signerProgram
  executor_signer : P.executorProgram ≠ P.signerProgram
  nonce_system : P.nonceProgram ≠ default
  executor_system : P.executorProgram ≠ default
  signer_system : P.signerProgram ≠ default

/-- Documented behavior of the message library. -/
structure MessageLaws : Prop where
  wellFormed : ∀ message, P.validate message = .ok () → message.WellFormed
  sanitize_iff : ∀ message : P.Message,
    P.sanitize (.v1 message) = .ok () ↔ P.validate message = .ok ()
  serializes : ∀ message : P.Message, P.validate message = .ok () →
    P.messageWire.Fits (.v1 message)
  /-- No rule reads the lifetime, and an unset config breaks none. -/
  resets : ∀ (message : P.Message) lifetime, P.validate message = .ok () →
    P.validate { message with config := default, lifetimeSpecifier := lifetime } = .ok ()
  isSigner : ∀ (message : P.Message) index,
    P.isSigner message index = decide (index < message.header.numRequiredSignatures.toNat)
  /-- An invoked program is not writable, unless the upgradeable loader is a key. -/
  isMaybeWritable : ∀ (message : P.Message) index,
    P.isMaybeWritable message index =
      (message.isWritableIndex index && !(message.isCalledAsProgram index &&
        !decide (P.upgradeableLoader ∈ message.accountKeys)))
  /-- Compiling replaces each key by its index, in the given order of keys. -/
  compiles : ∀ keys instructions compiled, P.compileInstructions keys instructions = .ok compiled →
    List.Forall₂ (fun instruction entry =>
      keys[entry.programIdIndex.toNat]? = some instruction.programId ∧
      entry.accounts.map (fun index => keys[index.toNat]?) =
        instruction.accounts.map (fun account => some account.pubkey) ∧
      entry.data = instruction.data) instructions compiled

/-- Documented limits of a message's instructions, and that the library takes and compiles
whatever keeps its rules. -/
structure LimitLaws : Prop where
  /-- An instruction counts its accounts in one byte and its data in two. -/
  limits : ∀ message, P.validate message = .ok () → ∀ ix ∈ message.instructions,
    ix.accounts.length ≤ 255 ∧ ix.data.length ≤ 65535
  /-- No other rule is about a message without a config, whose programs are not its fee payer. -/
  accepts : ∀ message : P.Message, message.WellFormed → message.config = default →
    message.instructions.length ≤ 64 →
    (∀ ix ∈ message.instructions, 0 < ix.programIdIndex.toNat ∧
      ix.accounts.length ≤ 255 ∧ ix.data.length ≤ 65535) →
    P.validate message = .ok ()
  compiles : ∀ keys instructions, keys.length ≤ 256 →
    (∀ instruction ∈ instructions, instruction.programId ∈ keys ∧
      ∀ account ∈ instruction.accounts, account.pubkey ∈ keys) →
    ∃ compiled, P.compileInstructions keys instructions = .ok compiled

/-- No two inputs share a digest, and no digest goes into its own making. -/
structure HashLaws : Prop where
  collision_free : Function.Injective P.sha256
  acyclic : ∀ hash : P.Hash, ¬ Relation.TransGen
    (fun inner outer => ∃ before after,
      outer = P.sha256 (before ++ P.hashWire.encode inner ++ after)) hash hash

end Platform

end ProgrammaticSigner
