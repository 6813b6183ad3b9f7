import ProgrammaticSigner.Library.Wire

set_option autoImplicit false

/- Instructions and messages, generic in the address and hash types. Counts and
compiled indexes are bytes, as on the wire. -/
namespace ProgrammaticSigner

/-- One account of an instruction with the privileges the instruction asks for.
A CPI's `InstructionAccount` carries the same three values. -/
structure AccountMeta (Address : Type) where
  pubkey : Address
  isSigner : Bool
  isWritable : Bool
  deriving DecidableEq

structure Instruction (Address : Type) where
  programId : Address
  accounts : List (AccountMeta Address)
  data : List UInt8
  deriving DecidableEq

/-- `AccountMeta::new` -/
def AccountMeta.new {Address : Type} (pubkey : Address) (isSigner : Bool) : AccountMeta Address :=
  ⟨pubkey, isSigner, true⟩

/-- `AccountMeta::new_readonly` -/
def AccountMeta.newReadonly {Address : Type} (pubkey : Address) (isSigner : Bool) :
    AccountMeta Address :=
  ⟨pubkey, isSigner, false⟩

structure MessageHeader where
  numRequiredSignatures : UInt8
  numReadonlySignedAccounts : UInt8
  numReadonlyUnsignedAccounts : UInt8
  deriving DecidableEq

/-- `v1::TransactionConfig`. The default leaves every field unset. -/
structure TransactionConfig where
  priorityFee : Option UInt64
  computeUnitLimit : Option UInt32
  loadedAccountsDataSizeLimit : Option UInt32
  heapSize : Option UInt32
  deriving DecidableEq

instance : Inhabited TransactionConfig := ⟨⟨none, none, none, none⟩⟩

structure CompiledInstruction where
  programIdIndex : UInt8
  accounts : List UInt8
  data : List UInt8
  deriving DecidableEq

/-- `v1::Message` -/
structure Message (Address Hash : Type) where
  header : MessageHeader
  config : TransactionConfig
  lifetimeSpecifier : Hash
  accountKeys : List Address
  instructions : List CompiledInstruction
  deriving DecidableEq

/-- The programs only ever reject the older versions, so their bytes stay opaque. -/
inductive VersionedMessage (Address Hash : Type) where
  | legacy (bytes : List UInt8)
  | v0 (bytes : List UInt8)
  | v1 (message : Message Address Hash)
  deriving DecidableEq

structure VersionedTransaction (Address Hash Signature : Type) where
  signatures : List Signature
  message : Message Address Hash
  deriving DecidableEq

/-- `v1::MAX_SIGNATURES` -/
def maxSignatures : Nat := 12

/-- `v1::MAX_ADDRESSES` -/
def maxAddresses : Nat := 64

inductive MessageError where
  | zeroSigners
  | tooManySignatures
  | tooManyAddresses
  | duplicateAddresses
  | other (code : Nat)
  deriving DecidableEq

inductive CompileError (Address : Type) where
  | accountIndexOverflow
  | addressTableLookupIndexOverflow
  | unknownInstructionKey (key : Address)
  deriving DecidableEq

namespace Message

variable {Address Hash : Type}

/-- The leading account keys, one for each required signature. -/
def signerKeys (message : Message Address Hash) : List Address :=
  message.accountKeys.take message.header.numRequiredSignatures.toNat

/-- The key a compiled index stands for. -/
def keyAt [Inhabited Address] (message : Message Address Hash) (index : UInt8) : Address :=
  message.accountKeys.getD index.toNat default

/-- The header ranges: writable signers, readonly signers, writable and then
readonly accounts that do not sign. -/
def isWritableIndex (message : Message Address Hash) (index : Nat) : Bool :=
  index < message.header.numRequiredSignatures.toNat -
      message.header.numReadonlySignedAccounts.toNat ||
    message.header.numRequiredSignatures.toNat ≤ index &&
      index < message.accountKeys.length - message.header.numReadonlyUnsignedAccounts.toNat

def isCalledAsProgram (message : Message Address Hash) (index : Nat) : Bool :=
  message.instructions.any fun instruction => instruction.programIdIndex.toNat == index

/-- The rules message validation documents. -/
structure WellFormed (message : Message Address Hash) : Prop where
  signatures : message.header.numRequiredSignatures.toNat ≤ maxSignatures
  readonlySigned : message.header.numReadonlySignedAccounts.toNat <
    message.header.numRequiredSignatures.toNat
  addresses : message.accountKeys.length ≤ maxAddresses
  header : message.header.numRequiredSignatures.toNat +
    message.header.numReadonlyUnsignedAccounts.toNat ≤ message.accountKeys.length
  distinct : message.accountKeys.Nodup
  programs : ∀ instruction ∈ message.instructions,
    instruction.programIdIndex.toNat < message.accountKeys.length
  indexes : ∀ instruction ∈ message.instructions, ∀ index ∈ instruction.accounts,
    index.toNat < message.accountKeys.length

/-- No rule mentions the lifetime, so replacing it keeps a message well formed. -/
theorem WellFormed.withLifetime {message : Message Address Hash} (valid : message.WellFormed)
    (lifetime : Hash) : { message with lifetimeSpecifier := lifetime }.WellFormed :=
  ⟨valid.signatures, valid.readonlySigned, valid.addresses, valid.header, valid.distinct,
    valid.programs, valid.indexes⟩

theorem WellFormed.withConfig {message : Message Address Hash} (valid : message.WellFormed)
    (config : TransactionConfig) : { message with config := config }.WellFormed :=
  ⟨valid.signatures, valid.readonlySigned, valid.addresses, valid.header, valid.distinct,
    valid.programs, valid.indexes⟩

theorem WellFormed.signers_le {message : Message Address Hash} (valid : message.WellFormed) :
    message.header.numRequiredSignatures.toNat ≤ message.accountKeys.length := by
  have := valid.header
  omega

theorem keyAt_eq [Inhabited Address] {message : Message Address Hash} {index : UInt8}
    (inside : index.toNat < message.accountKeys.length) :
    message.accountKeys[index.toNat]? = some (message.keyAt index) := by
  rw [keyAt, List.getD_eq_getElem?_getD, List.getElem?_eq_getElem inside]
  rfl

theorem WellFormed.signerKeys_length {message : Message Address Hash}
    (valid : message.WellFormed) :
    message.signerKeys.length = message.header.numRequiredSignatures.toNat :=
  List.length_take_of_le valid.signers_le

/-- Keys are distinct, so a key signs exactly when its own index does. -/
theorem WellFormed.getElem_mem_signerKeys {message : Message Address Hash}
    (valid : message.WellFormed) {index : Nat} (inside : index < message.accountKeys.length) :
    message.accountKeys[index] ∈ message.signerKeys ↔
      index < message.header.numRequiredSignatures.toNat := by
  constructor
  · intro member
    obtain ⟨other, below, same⟩ := List.getElem_of_mem member
    have short := below
    rw [valid.signerKeys_length] at short
    simp only [signerKeys, List.getElem_take] at same
    have equal := (valid.distinct.getElem_inj_iff).mp same
    omega
  · intro below
    exact List.mem_take_iff_getElem.mpr ⟨index, by omega, rfl⟩

end Message

end ProgrammaticSigner
