import ProgrammaticSigner.Executor.Instruction
import ProgrammaticSigner.Nonce.Instruction
import ProgrammaticSigner.Signer.Instruction

set_option autoImplicit false

/- The instruction data of the three programs: one encoding for each instruction, and nothing
else decodes. -/
namespace ProgrammaticSigner

open Outcome

variable {P : Platform}

theorem NonceInstruction.tryFromBytes_unknown {tag : UInt8} (unknown : 2 < tag)
    (rest : List UInt8) : NonceInstruction.tryFromBytes (P := P) (tag :: rest) =
      .error .invalidInstructionData := by
  have zero : tag ≠ 0 := fun same => absurd (same ▸ unknown) (by decide)
  have one : tag ≠ 1 := fun same => absurd (same ▸ unknown) (by decide)
  have two : tag ≠ 2 := fun same => absurd (same ▸ unknown) (by decide)
  have bad : (NonceInstruction.wire P).decode (tag :: rest) = none := by
    simp only [NonceInstruction.wire, if_neg zero, if_neg one, if_neg two]
  rw [NonceInstruction.tryFromBytes, Wire.deserializeExact_none bad]
  rfl

theorem ExecutorInstruction.tryFromBytes_unknown {tag : UInt8} (unknown : tag ≠ 0)
    (rest : List UInt8) : ExecutorInstruction.tryFromBytes (P := P) (tag :: rest) =
      .error .invalidInstructionData := by
  have bad : (ExecutorInstruction.wire P).decode (tag :: rest) = none := by
    simp only [ExecutorInstruction.wire, Wire.iso, P.messageWire.tagged_unknown unknown,
      Option.map_none]
  rw [ExecutorInstruction.tryFromBytes, Wire.deserializeExact_none bad]
  rfl

theorem SignerInstruction.tryFromBytes_unknown {tag : UInt8} (unknown : tag ≠ 0)
    (rest : List UInt8) : SignerInstruction.tryFromBytes (P := P) (tag :: rest) =
      .error .invalidInstructionData := by
  have bad : (SignerInstruction.wire P).decode (tag :: rest) = none := by
    simp only [SignerInstruction.wire, Wire.iso, Wire.tagged_unknown _ unknown, Option.map_none]
  rw [SignerInstruction.tryFromBytes, Wire.deserializeExact_none bad]
  rfl

/-- A signature slot whose tag is neither of the two is rejected, wherever it stands. -/
theorem SignerInstruction.tryFromBytes_unknown_slot (signaturesFit : P.signatureWire.Total)
    {count tag : UInt8} {before : List (Option P.Signature)} (more : before.length < count.toNat)
    (zero : tag ≠ 0) (one : tag ≠ 1) (rest : List UInt8) :
    SignerInstruction.tryFromBytes (P := P)
      (0 :: count :: (before.flatMap P.signatureWire.option.encode ++ tag :: rest)) =
        .error .invalidInstructionData := by
  have slots := P.signatureWire.option.decodeMany_none
    (fun item _ => Wire.option_total signaturesFit item) more
    (P.signatureWire.option_unknown zero one rest)
  have counted : (Wire.le 1).decode (count ::
      (before.flatMap P.signatureWire.option.encode ++ tag :: rest)) =
        some (count.toNat, before.flatMap P.signatureWire.option.encode ++ tag :: rest) := by
    simp [Wire.le, Wire.leValue]
  have bad : (SignerInstruction.wire P).decode
      (0 :: count :: (before.flatMap P.signatureWire.option.encode ++ tag :: rest)) = none := by
    simp only [SignerInstruction.wire, Wire.iso, Wire.tagged, if_true, Wire.pair, Wire.list,
      counted, slots, Option.map_none]
  rw [SignerInstruction.tryFromBytes, Wire.deserializeExact_none bad]
  rfl

/-- Nothing decodes besides the encodings. -/
structure RejectsOthers (P : Platform) : Prop where
  nonce : ∀ (tag : UInt8) rest, 2 < tag →
    NonceInstruction.tryFromBytes (P := P) (tag :: rest) = .error .invalidInstructionData
  executor : ∀ (tag : UInt8) rest, tag ≠ 0 →
    ExecutorInstruction.tryFromBytes (P := P) (tag :: rest) = .error .invalidInstructionData
  signer : ∀ (tag : UInt8) rest, tag ≠ 0 →
    SignerInstruction.tryFromBytes (P := P) (tag :: rest) = .error .invalidInstructionData
  slot : ∀ (count tag : UInt8) (before : List (Option P.Signature)) rest,
    before.length < count.toNat → tag ≠ 0 → tag ≠ 1 →
    SignerInstruction.tryFromBytes (P := P)
      (0 :: count :: (before.flatMap P.signatureWire.option.encode ++ tag :: rest)) =
        .error .invalidInstructionData

/-- Each program reads back exactly what its instructions serialize to. A `Submit` serializes
when its count of signatures fits a byte. -/
theorem instruction_codecs_exact (keys : P.KeyLaws) (signaturesFit : P.signatureWire.Total) :
    (NonceInstruction.wire P).ReadExactly NonceInstruction.tryFromBytes ∧
    (ExecutorInstruction.wire P).ReadExactly ExecutorInstruction.tryFromBytes ∧
    (SignerInstruction.wire P).ReadExactly SignerInstruction.tryFromBytes ∧
    (∀ instruction, (NonceInstruction.wire P).Serializes instruction instruction.serialize) ∧
    (∀ message bytes, (ExecutorInstruction.wire P).Serializes (.execute (.v1 message)) bytes ↔
      P.messageWire.Fits (.v1 message) ∧
        bytes = ExecutorInstruction.serialize (.execute (.v1 message))) ∧
    (∀ signatures message bytes,
      (SignerInstruction.wire P).Serializes (.submit signatures (.v1 message)) bytes ↔
        signatures.length ≤ 255 ∧ P.messageWire.Fits (.v1 message) ∧
          bytes = SignerInstruction.serialize (.submit signatures (.v1 message))) ∧
    RejectsOthers P := by
  have exact {α : Type} (wire : Wire α) : wire.ReadExactly fun bytes =>
      (okOr (wire.deserializeExact bytes) .invalidInstructionData : Except ProgramError α) := by
    apply Wire.readExactly_of_accepts
    intro bytes value
    rw [okOr_ok_iff, Wire.deserializeExact_iff]
    exact Iff.rfl
  refine ⟨exact _, exact _, exact _, ?_, ?_, ?_, ?_⟩
  · intro instruction
    exact ⟨NonceInstruction.wire_total keys instruction, rfl⟩
  · intro message bytes
    exact Iff.rfl
  · intro signatures message bytes
    rw [← and_assoc]
    apply and_congr_left'
    constructor
    · intro fits
      exact ⟨Nat.le_of_lt_succ fits.1.1, fits.2⟩
    · intro fits
      exact SignerInstruction.wire_fits signaturesFit (Nat.lt_succ_of_le fits.1) fits.2
  · exact ⟨fun tag rest unknown => NonceInstruction.tryFromBytes_unknown unknown rest,
      fun tag rest unknown => ExecutorInstruction.tryFromBytes_unknown unknown rest,
      fun tag rest unknown => SignerInstruction.tryFromBytes_unknown unknown rest,
      fun count tag before rest more zero one =>
        SignerInstruction.tryFromBytes_unknown_slot signaturesFit more zero one rest⟩

/-- The formats of the reference platform. -/
theorem instruction_codecs_exact_reference : RejectsOthers .reference := by
  obtain ⟨_, _, _, _, _, _, rejects⟩ :=
    instruction_codecs_exact (P := .reference) Reference.keyLaws Reference.signature_total
  exact rejects

end ProgrammaticSigner
