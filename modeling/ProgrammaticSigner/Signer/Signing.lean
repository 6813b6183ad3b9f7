import ProgrammaticSigner.Signer.Submission

set_option autoImplicit false

/- Signing an authorization message with keys at hand, and the `Submit` that carries it. -/
namespace ProgrammaticSigner

open Outcome

variable {P : Platform}

/-- Reasons a set of signers cannot sign. -/
inductive SigningError where
  | invalidInput (reason : String)
  | other (reason : String)
  deriving DecidableEq

/-- A set of keys at hand, which sign together. -/
structure Signers (Address Signature : Type) where
  tryPubkeys : Except SigningError (List Address)
  trySignMessage : List UInt8 → Except SigningError (List Signature)

abbrev Platform.Signers (P : Platform) := ProgrammaticSigner.Signers P.Address P.Signature

/-- What signing takes from the transaction library. -/
structure Signing (P : Platform) where
  describeCompile : CompileError P.Address → String
  describeMessage : MessageError → String
  /-- `VersionedTransaction::try_new` -/
  tryNew : P.Message → P.Signers →
    Except SigningError (VersionedTransaction P.Address P.Hash P.Signature)

/-- The keys of the set sign for themselves. -/
def Signers.Sound (signers : P.Signers) : Prop :=
  ∀ pubkeys bytes signatures, signers.tryPubkeys = .ok pubkeys →
    signers.trySignMessage bytes = .ok signatures →
    ∀ (position : Nat) pubkey signature, pubkeys[position]? = some pubkey →
      signatures[position]? = some signature → P.verifyStrict pubkey signature bytes = true

namespace Signing

/-- A new transaction has the signature of each required signer in its slot. -/
structure Laws (signing : Signing P) : Prop where
  message : ∀ message signers transaction, signing.tryNew message signers = .ok transaction →
    transaction.message = message
  count : ∀ message signers transaction, signing.tryNew message signers = .ok transaction →
    transaction.signatures.length = message.header.numRequiredSignatures.toNat
  slots : ∀ message signers transaction, signing.tryNew message signers = .ok transaction →
    ∀ (index : Nat) signer signature, message.signerKeys[index]? = some signer →
      transaction.signatures[index]? = some signature →
      ∃ pubkeys signatures, signers.tryPubkeys = .ok pubkeys ∧
        signers.trySignMessage (Platform.serializeV1 message) = .ok signatures ∧
        ∃ position : Nat, pubkeys[position]? = some signer ∧
          signatures[position]? = some signature

end Signing

namespace SignerClient

end SignerClient

/-- A `Submit` that its own authorities signed. -/
structure SignedSubmit (executorInstruction : P.Instruction) (authorities : List P.Address)
    (message : P.Message) (signatures : List P.Signature) : Prop where
  authorizes : Authorizes executorInstruction authorities message
  count : signatures.length = message.header.numRequiredSignatures.toNat
  verifies : ∀ (index : Nat) signer signature, message.signerKeys[index]? = some signer →
    signatures[index]? = some signature →
    P.verifyStrict signer signature (Platform.serializeV1 message) = true

section Signed

variable {executorInstruction : P.Instruction} {authorities : List P.Address}
  {message : P.Message} {signatures : List P.Signature}

/-- Every authority's signature is there, and none is asked of the relay. -/
theorem SignedSubmit.approved (signed : SignedSubmit executorInstruction authorities message
    signatures) {accounts : List P.AccountView}
    (mirrors : accounts.map AccountView.address = message.accountKeys) :
    Approved accounts (signatures.map some) message := by
  refine ⟨mirrors, (List.length_map _).trans signed.count, ?_⟩
  intro index signer signature account key given present
  rw [List.getElem?_map] at given
  obtain ⟨own, here, rfl⟩ := Option.map_eq_some_iff.mp given
  exact signed.verifies index signer own key here

theorem SignedSubmit.verified (messages : P.MessageLaws)
    (signed : SignedSubmit executorInstruction authorities message signatures)
    {authority : P.Address} (listed : authority ∈ authorities) :
    authority ∈ signersWithSignature message.signerKeys (signatures.map some) := by
  have formed := messages.wellFormed _ signed.authorizes.valid
  obtain ⟨index, key⟩ := List.mem_iff_getElem?.mp ((signed.authorizes.signers authority).mpr listed)
  obtain ⟨inside, -⟩ := List.getElem?_eq_some_iff.mp key
  rw [formed.signerKeys_length, ← signed.count] at inside
  refine mem_signersWithSignature.mpr ⟨index, signatures[index], key, ?_⟩
  rw [List.getElem?_map, List.getElem?_eq_getElem inside]
  rfl

/-- A single authority's signature. -/
theorem SignedSubmit.single {authority : P.Address} {signature : P.Signature}
    (authorizes : Authorizes executorInstruction [authority] message)
    (verifies : P.verifyStrict authority signature (Platform.serializeV1 message) = true) :
    SignedSubmit executorInstruction [authority] message [signature] := by
  refine ⟨authorizes, authorizes.count.symm, fun index signer given key here => ?_⟩
  have one := (authorizes.signers signer).mp (List.mem_of_getElem? key)
  rw [List.mem_singleton.mp one, List.mem_singleton.mp (List.mem_of_getElem? here)]
  exact verifies

end Signed

namespace Reference

def tryNew (message : Platform.reference.Message) (signers : Platform.reference.Signers) :
    Except SigningError (VersionedTransaction Nat Bytes Platform.reference.Signature) := do
  ensure (message.header.numRequiredSignatures.toNat ≤ message.accountKeys.length)
    (.invalidInput "invalid message")
  let pubkeys ← signers.tryPubkeys
  let signatures ← signers.trySignMessage (Platform.serializeV1 message)
  let slots ← message.signerKeys.mapM fun signer => do
    let position ← okOr (pubkeys.idxOf? signer) (.other "keypair-pubkey mismatch")
    okOr signatures[position]? (.invalidInput "invalid keypairs")
  return ⟨slots, message⟩

def signing : Signing Platform.reference := ⟨fun _ => "", fun _ => "", tryNew⟩

theorem tryNew_ok {message : Platform.reference.Message} {signers : Platform.reference.Signers}
    {transaction : VersionedTransaction Nat Bytes Platform.reference.Signature}
    (signed : tryNew message signers = .ok transaction) :
    ∃ pubkeys signatures slots,
      message.header.numRequiredSignatures.toNat ≤ message.accountKeys.length ∧
      signers.tryPubkeys = .ok pubkeys ∧
      signers.trySignMessage (Platform.serializeV1 message) = .ok signatures ∧
      List.Forall₂ (fun signer slot => ∃ position, pubkeys.idxOf? signer = some position ∧
        signatures[position]? = some slot) message.signerKeys slots ∧
      transaction = ⟨slots, message⟩ := by
  simp only [tryNew, bind_ok_iff, ensure_ok_iff, mapM_ok_iff, okOr_ok_iff, pure_ok_iff] at signed
  obtain ⟨-, room, pubkeys, known, signatures, given, slots, found, rfl⟩ := signed
  exact ⟨pubkeys, signatures, slots, room, known, given, found, rfl⟩

/-- The key behind the PDA of the nonce authority. -/
def signers : Platform.reference.Signers :=
  ⟨.ok [30], fun bytes => .ok [some (30, bytes)]⟩

end Reference

end ProgrammaticSigner
