import ProgrammaticSigner.Solana.Ledger
import ProgrammaticSigner.Solana.Reference

set_option autoImplicit false

namespace ProgrammaticSigner

/-- Custom errors of the Ed25519 signer program. -/
inductive SignerError where
  | invalidMessage
  | invalidExecutorInstructionCount
  | accountKeyMismatch
  | invalidSignature
  | disallowedExecutorInstruction
  | invalidSignatureCount
  | unsupportedMessageVersion
  | unsupportedTransactionConfig
  | missingSignature
  deriving DecidableEq

def SignerError.code : SignerError → UInt32
  | invalidMessage => 0
  | invalidExecutorInstructionCount => 1
  | accountKeyMismatch => 2
  | invalidSignature => 3
  | disallowedExecutorInstruction => 4
  | invalidSignatureCount => 5
  | unsupportedMessageVersion => 6
  | unsupportedTransactionConfig => 7
  | missingSignature => 8

def SignerError.toProgramError (reason : SignerError) : ProgramError := .custom reason.code

inductive SignerInstruction (Address Hash Signature : Type) where
  | submit (signatures : List (Option Signature)) (message : VersionedMessage Address Hash)
  deriving DecidableEq

variable {P : Platform}

abbrev Platform.SignerInstruction (P : Platform) :=
  ProgrammaticSigner.SignerInstruction P.Address P.Hash P.Signature

namespace SignerInstruction

/-- The fields of `Submit`, in wire order. -/
def fields {Address Hash Signature : Type} :
    SignerInstruction Address Hash Signature →
      List (Option Signature) × VersionedMessage Address Hash
  | submit signatures message => (signatures, message)

/-- The discriminator, the signatures behind a one-byte count, and the message. -/
def wire (P : Platform) : Wire P.SignerInstruction :=
  (((Wire.list (Wire.le 1) P.signatureWire.option).pair P.messageWire).tagged 0).iso
    (fun read => submit read.1 read.2) fields (fun _ => rfl) (fun _ _ => rfl)

def serialize (instruction : P.SignerInstruction) : List UInt8 := (wire P).encode instruction

def tryFromBytes (instructionData : List UInt8) : Except ProgramError P.SignerInstruction :=
  Outcome.okOr ((wire P).deserializeExact instructionData) .invalidInstructionData

/-- Decoding undoes encoding, and nothing else decodes. -/
theorem tryFromBytes_ok_iff {data : List UInt8} {instruction : P.SignerInstruction} :
    tryFromBytes data = .ok instruction ↔
      (wire P).Fits instruction ∧ data = serialize instruction := by
  simp only [tryFromBytes, Outcome.okOr_ok_iff, Wire.deserializeExact_iff, serialize]

/-- Up to 255 signatures fit the count. -/
theorem wire_fits (signaturesFit : P.signatureWire.Total)
    {signatures : List (Option P.Signature)} {message : P.VersionedMessage}
    (few : signatures.length < 256) (fits : P.messageWire.Fits message) :
    (wire P).Fits (.submit signatures message) :=
  ⟨⟨few, fun _ _ inner _ => signaturesFit inner⟩, fits⟩

end SignerInstruction

/-- `ProgrammaticSigner::SEED_PREFIX` -/
def seedPrefix : List UInt8 := asciiBytes "programmatic-signer"

/-- The PDA that stands for an authority as a runtime signer, with its bump. -/
def deriveAddressAndBump (programId authority : P.Address) : P.Address × UInt8 :=
  P.deriveProgramAddress [seedPrefix, P.addressWire.encode authority] programId

def deriveAddress (programId authority : P.Address) : P.Address :=
  (deriveAddressAndBump programId authority).1

namespace Platform

/-- Derivation is injective in the authority, and the derived address is the one the
program signs for with the same seeds and the bump. -/
structure DerivationLaws (P : Platform) : Prop where
  injective : ∀ first second : P.Address,
    deriveAddress P.signerProgram first = deriveAddress P.signerProgram second → first = second
  created : ∀ authority : P.Address,
    P.createProgramAddress [seedPrefix, P.addressWire.encode authority,
      [(deriveAddressAndBump P.signerProgram authority).2]] P.signerProgram =
        some (deriveAddress P.signerProgram authority)

end Platform

theorem Reference.derived_authority (authority : Nat) (bump : List Reference.Bytes) :
    Reference.derived (seedPrefix :: Wire.tally.encode authority :: bump) =
      2 * authority + 1 := by
  have read := Wire.tally.decode_encode authority trivial []
  rw [List.append_nil] at read
  simp only [Reference.derived, read, Option.elim_some]

theorem Reference.derivationLaws : Platform.reference.DerivationLaws where
  injective (first second : Nat) same := by
    have doubled : 2 * first + 1 = 2 * second + 1 := by
      rw [← Reference.derived_authority first [], ← Reference.derived_authority second []]
      exact same
    have equal : first = second := by omega
    exact equal
  created authority := by
    refine congrArg some ?_
    rw [Reference.derived_authority]
    exact (Reference.derived_authority authority []).symm

end ProgrammaticSigner
