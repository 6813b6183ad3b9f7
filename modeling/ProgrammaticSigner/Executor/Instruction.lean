import ProgrammaticSigner.Solana.Ledger

set_option autoImplicit false

namespace ProgrammaticSigner

/-- Custom errors of the executor program. -/
inductive ExecutorError where
  | invalidNonceAccount
  | invalidMessage
  | messageAccountsMismatch
  | nonceMismatch
  | unsupportedMessageVersion
  | unsupportedTransactionConfig
  deriving DecidableEq

def ExecutorError.code : ExecutorError → UInt32
  | invalidNonceAccount => 0
  | invalidMessage => 1
  | messageAccountsMismatch => 2
  | nonceMismatch => 3
  | unsupportedMessageVersion => 4
  | unsupportedTransactionConfig => 5

def ExecutorError.toProgramError (reason : ExecutorError) : ProgramError := .custom reason.code

inductive ExecutorInstruction (Address Hash : Type) where
  | execute (message : VersionedMessage Address Hash)
  deriving DecidableEq

variable {P : Platform}

abbrev Platform.ExecutorInstruction (P : Platform) :=
  ProgrammaticSigner.ExecutorInstruction P.Address P.Hash

/-- The message an executor instruction carries. -/
def ExecutorInstruction.message {Address Hash : Type} :
    ExecutorInstruction Address Hash → VersionedMessage Address Hash
  | execute message => message

namespace ExecutorInstruction

/-- The discriminator and the message with its version prefix. -/
def wire (P : Platform) : Wire P.ExecutorInstruction :=
  (P.messageWire.tagged 0).iso execute message (fun _ => rfl) (fun _ _ => rfl)

def serialize (instruction : P.ExecutorInstruction) : List UInt8 := (wire P).encode instruction

def tryFromBytes (instructionData : List UInt8) : Except ProgramError P.ExecutorInstruction :=
  Outcome.okOr ((wire P).deserializeExact instructionData) .invalidInstructionData

/-- Decoding undoes encoding, and nothing else decodes. -/
theorem tryFromBytes_ok_iff {data : List UInt8} {message : P.VersionedMessage} :
    tryFromBytes data = .ok (.execute message) ↔
      P.messageWire.Fits message ∧ data = serialize (.execute message) := by
  simp only [tryFromBytes, Outcome.okOr_ok_iff, Wire.deserializeExact_iff, serialize]
  rfl

end ExecutorInstruction

/-- SHA-256 of the message's wire encoding: an advance commits to what it executes. -/
def deriveTransitionCommitment (message : P.VersionedMessage) : P.Hash :=
  P.sha256 (Platform.serialize message)

/-- Messages that serialize have their own commitments. -/
theorem deriveTransitionCommitment_inj (hashes : P.HashLaws) {first second : P.VersionedMessage}
    (one : P.messageWire.Fits first) (two : P.messageWire.Fits second)
    (same : deriveTransitionCommitment first = deriveTransitionCommitment second) :
    first = second :=
  P.messageWire.encode_inj one two (hashes.collision_free same)

end ProgrammaticSigner
