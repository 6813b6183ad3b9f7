import ProgrammaticSigner.Solana.Ledger

set_option autoImplicit false

namespace ProgrammaticSigner

/-- Custom errors of the nonce program. -/
inductive NonceError where
  | invalidNonceAccount
  | authorityMismatch
  | nonceMismatch
  | closeSameSlot
  deriving DecidableEq

def NonceError.code : NonceError → UInt32
  | invalidNonceAccount => 0
  | authorityMismatch => 1
  | nonceMismatch => 2
  | closeSameSlot => 3

def NonceError.toProgramError (reason : NonceError) : ProgramError := .custom reason.code

inductive NonceInstruction (Hash : Type) where
  | initializeNonce
  | advance (currentNonce transitionCommitment : Hash)
  | withdraw (lamports : UInt64)
  deriving DecidableEq

namespace NonceInstruction

variable {P : Platform}

/-- A one-byte discriminator followed by the fields. -/
def wire (P : Platform) : Wire (NonceInstruction P.Hash) where
  encode
    | initializeNonce => [0]
    | advance currentNonce transitionCommitment =>
        1 :: (P.hashWire.pair P.hashWire).encode (currentNonce, transitionCommitment)
    | withdraw lamports => 2 :: Wire.uint64.encode lamports
  decode
    | [] => none
    | tag :: bytes =>
        if tag = 0 then some (initializeNonce, bytes)
        else if tag = 1 then
          ((P.hashWire.pair P.hashWire).decode bytes).map fun read =>
            (advance read.1.1 read.1.2, read.2)
        else if tag = 2 then
          (Wire.uint64.decode bytes).map fun read => (withdraw read.1, read.2)
        else none
  Fits
    | advance currentNonce transitionCommitment =>
        (P.hashWire.pair P.hashWire).Fits (currentNonce, transitionCommitment)
    | _ => True
  decode_encode instruction fits rest := by
    cases instruction with
    | initializeNonce => rfl
    | advance currentNonce transitionCommitment =>
        simp [(P.hashWire.pair P.hashWire).decode_encode _ fits rest]
    | withdraw lamports =>
        simp [Wire.uint64.decode_encode lamports (Wire.uint64_total lamports) rest]
  decode_inv bytes instruction rest decoded := by
    cases bytes with
    | nil => cases decoded
    | cons tag bytes =>
        simp only at decoded
        split at decoded
        · rename_i zero
          obtain ⟨rfl, rfl⟩ := Prod.mk.inj (Option.some.inj decoded)
          exact ⟨trivial, by rw [zero, List.singleton_append]⟩
        · split at decoded
          · rename_i one
            obtain ⟨read, found, same⟩ := Option.map_eq_some_iff.mp decoded
            obtain ⟨rfl, rfl⟩ := Prod.mk.inj same
            obtain ⟨fits, exact⟩ := (P.hashWire.pair P.hashWire).decode_inv _ _ _ found
            exact ⟨fits, by rw [one, exact, List.cons_append]⟩
          · split at decoded
            · rename_i two
              obtain ⟨read, found, same⟩ := Option.map_eq_some_iff.mp decoded
              obtain ⟨rfl, rfl⟩ := Prod.mk.inj same
              obtain ⟨-, exact⟩ := Wire.uint64.decode_inv _ _ _ found
              exact ⟨trivial, by rw [two, exact, List.cons_append]⟩
            · cases decoded

theorem wire_total (keys : P.KeyLaws) : (wire P).Total := by
  intro instruction
  cases instruction with
  | advance currentNonce transitionCommitment => exact ⟨keys.hash _, keys.hash _⟩
  | initializeNonce => trivial
  | withdraw lamports => trivial

def serialize (instruction : NonceInstruction P.Hash) : List UInt8 := (wire P).encode instruction

def tryFromBytes (instructionData : List UInt8) :
    Except ProgramError (NonceInstruction P.Hash) :=
  Outcome.okOr ((wire P).deserializeExact instructionData) .invalidInstructionData

/-- Decoding undoes encoding, and nothing else decodes. -/
theorem tryFromBytes_ok_iff (keys : P.KeyLaws) {data : List UInt8}
    {instruction : NonceInstruction P.Hash} :
    tryFromBytes data = .ok instruction ↔ data = serialize instruction := by
  simp only [tryFromBytes, Outcome.okOr_ok_iff, Wire.deserializeExact_iff, serialize,
    wire_total keys instruction, true_and]

end NonceInstruction

end ProgrammaticSigner
