import ProgrammaticSigner.Cli.Reference
import ProgrammaticSigner.Cli.Sign

set_option autoImplicit false

/- What `transaction sign` builds can execute: no role that a key plays in the message
costs it a privilege on the way to the executor. -/
namespace ProgrammaticSigner

open Outcome

variable {P : Platform}

/-- What a required signer owes at submission, by its role on the command line. -/
structure SlotFilled (command : SignCommand P) (plan : SignPlan P) (signer : P.Address)
    (signature : Option P.Signature) (account : P.AccountView) : Prop where
  valid : ∀ given, signature = some given →
    P.verifyStrict signer given (Platform.serializeV1 plan.authorizationMessage) = true
  authority : signer ∈ command.authority → signature.isSome = true
  forwarded : signer ∈ plan.forwardedSigners → account.isSigner = true
  requiredRelay : signer ∈ command.requiredRelaySigner →
    signature.isSome = true ∨ account.isSigner = true

/-- A `Submit` with the client's accounts, in which every required signer did its part. -/
structure Relayed (command : SignCommand P) (plan : SignPlan P) (accounts : List P.AccountView)
    (signatures : List (Option P.Signature)) : Prop where
  mirrors : accounts.map AccountView.address =
    (SignerClient.submit signatures plan.authorizationMessage).accounts.map AccountMeta.pubkey
  count : signatures.length = plan.authorizationMessage.header.numRequiredSignatures.toNat
  slots : ∀ (index : Nat) signer signature account,
    plan.authorizationMessage.signerKeys[index]? = some signer →
    signatures[index]? = some signature → accounts[index]? = some account →
    SlotFilled command plan signer signature account

section Relayed

variable {command : SignCommand P} {plan : SignPlan P} {accounts : List P.AccountView}
  {signatures : List (Option P.Signature)} (planned : Planned command plan)
  (relayed : Relayed command plan accounts signatures)
include planned relayed

theorem Relayed.approved : Approved accounts signatures plan.authorizationMessage := by
  have mirrors := relayed.mirrors
  rw [SignerClient.submit_addresses] at mirrors
  refine ⟨mirrors, relayed.count, ?_⟩
  intro index signer signature account slot given present
  have filled := relayed.slots index signer signature account slot given present
  cases signature with
  | some signature => exact filled.valid signature rfl
  | none =>
      show account.isSigner = true
      have absent : ¬ (none : Option P.Signature).isSome = true := Bool.false_ne_true
      rcases (planned.mem_signerKeys signer).mp (List.mem_of_getElem? slot) with role | role | role
      · exact absurd (filled.authority role) absent
      · exact filled.forwarded role
      · exact (filled.requiredRelay role).resolve_left absent

/-- The relay account and the signature slot of a required signer are both there. -/
theorem Relayed.slot (messages : P.MessageLaws) {index : Nat} {signer : P.Address}
    (slot : plan.authorizationMessage.signerKeys[index]? = some signer) :
    ∃ signature account, signatures[index]? = some signature ∧
      accounts[index]? = some account ∧ SlotFilled command plan signer signature account := by
  have formed := messages.wellFormed _ planned.authorizes.valid
  have mirrors := (relayed.approved planned).mirrors
  have length : accounts.length = plan.authorizationMessage.accountKeys.length := by
    rw [← mirrors, List.length_map]
  have count := relayed.count
  have signers := formed.signerKeys_length
  have room := formed.signers_le
  obtain ⟨inside, -⟩ := List.getElem?_eq_some_iff.mp slot
  have entered : index < signatures.length := by omega
  have mirrored : index < accounts.length := by omega
  have given : signatures[index]? = some signatures[index] := List.getElem?_eq_getElem entered
  have present : accounts[index]? = some accounts[index] := List.getElem?_eq_getElem mirrored
  exact ⟨_, _, given, present, relayed.slots index signer _ _ slot given present⟩

/-- Authorities gave a signature that promotes their PDA, and forwarded signers sign. -/
theorem Relayed.provided (messages : P.MessageLaws) {address : P.Address}
    (used : UsesSigner plan.executionMessage command.nonceAuthority address) :
    address ∈ (signersWithSignature plan.authorizationMessage.signerKeys signatures).map
        (deriveAddress P.signerProgram) ∨
      RelaySigned accounts plan.authorizationMessage address := by
  rcases planned.promoted_or_forwarded used with promoted | forwarded
  · obtain ⟨authority, listed, derived⟩ := List.mem_map.mp promoted
    have required := (planned.mem_signerKeys authority).mpr (.inl listed)
    obtain ⟨index, slot⟩ := List.mem_iff_getElem?.mp required
    obtain ⟨signature, account, given, -, filled⟩ := relayed.slot planned messages slot
    obtain ⟨signature, rfl⟩ := Option.isSome_iff_exists.mp (filled.authority listed)
    exact .inl (List.mem_map.mpr
      ⟨authority, mem_signersWithSignature.mpr ⟨index, signature, slot, given⟩, derived⟩)
  · have required := (planned.mem_signerKeys address).mpr (.inr (.inl forwarded))
    refine .inr ⟨required, fun index account slot present => ?_⟩
    obtain ⟨signature, found, -, present', filled⟩ := relayed.slot planned messages slot
    obtain rfl := Option.some.inj (present.symm.trans present')
    exact filled.forwarded forwarded

end Relayed

/-- What is signed can execute: once every required signer does its part, `Submit` passes its
checks and hands the executor the client's own `Execute` instruction, with every
privilege that the executor's later CPIs ask for. -/
theorem signed_message_executes (messages : P.MessageLaws)
    (signaturesFit : P.signatureWire.Total) (K : Toolkit P) (command : SignCommand P)
    (plan : SignPlan P) (built : Sign.authorize K command = .ok plan)
    (accounts : List P.AccountView) (signatures : List (Option P.Signature))
    (relayed : Relayed command plan accounts signatures) :
    ∃ cpi : P.Cpi,
      processSignerInstruction P.signerProgram accounts
        (SignerClient.submit signatures plan.authorizationMessage).data = ⟨[cpi], .ok ()⟩ ∧
      Delivers cpi.instruction (ExecutorClient.execute command.nonceAccount
        command.nonceAuthority plan.executionMessage) ∧
      ∀ later ∈ executionCpis command.nonceAuthority command.nonceAccount plan.executionMessage,
        ∀ account ∈ later.instruction.accounts,
          (account.isSigner = true → cpi.instruction.grantsSigner account.pubkey = true) ∧
          (account.isWritable = true → account.pubkey ≠ P.executorProgram →
            cpi.instruction.grantsWritable account.pubkey = true) := by
  have planned := Sign.authorize_planned messages built
  have formed := messages.wellFormed _ planned.valid
  obtain ⟨ix, issued, delivers⟩ := planned.authorizes.delivers (relayed.approved planned)
    messages signaturesFit formed fun _ used => relayed.provided planned messages used
  refine ⟨_, issued, delivers, ?_⟩
  intro later listed account member
  exact delivers.grants formed listed member

namespace Reference

/-- The arguments that key 30 signs for the reference execution with. -/
def signCommand : SignCommand .reference where
  executionMessage := encodeText (Platform.serializeV1 message)
  nonceAccount := nonceAccount
  nonceAuthority := nonceAuthority
  nonceHash := state.nonce
  authority := [30]
  requiredRelaySigner := []
  stripTransactionConfig := false
  signer := []
  yes := true
  authority_required := by decide

def signPlan : SignPlan .reference := ⟨message, [30], [], [], authorization⟩

theorem readExecutionMessage_encode {given : Platform.reference.Message}
    (valid : Platform.reference.validate given = .ok ()) (config : given.config = default) :
    Decode.readExecutionMessage Toolkit.reference (encodeText (Platform.serializeV1 given))
      false = .ok given := by
  have read := @Decode.readMessage_encode _ Toolkit.reference textLaws "execution message" _
    (messageLaws.serializes given valid) valid
  rw [Decode.readExecutionMessage, Platform.serializeV1]
  refine (bind_of_ok read).trans ?_
  exact Decode.validateExecutionMessage_ok_iff.mpr ⟨rfl, config⟩

set_option maxRecDepth 4000 in
theorem signCommand_authorizes :
    Sign.authorize Toolkit.reference signCommand = .ok signPlan := by
  rw [Sign.authorize]
  refine (bind_of_ok (readExecutionMessage_encode message_valid rfl)).trans ?_
  rfl

theorem relay_filled : Relayed signCommand signPlan relay.views [some signature] := by
  refine ⟨rfl, rfl, ?_⟩
  intro index signer given account slot entry present
  match index with
  | 0 =>
      obtain rfl := Option.some.inj slot
      obtain rfl := Option.some.inj entry
      refine ⟨?_, fun _ => rfl, fun listed => ?_, fun listed => ?_⟩
      · intro found same
        obtain rfl := Option.some.inj same
        exact beq_self_eq_true _
      · cases listed
      · cases listed
  | index + 1 => cases entry

end Reference

theorem signed_message_executes_reference :
    ∃ cpi : Platform.reference.Cpi,
      processSignerInstruction Platform.reference.signerProgram Reference.relay.views
        (SignerClient.submit [some Reference.signature] Reference.authorization).data =
          ⟨[cpi], .ok ()⟩ ∧
      Delivers cpi.instruction Reference.execute ∧
      ∀ later ∈ executionCpis Reference.nonceAuthority Reference.nonceAccount Reference.message,
        ∀ account ∈ later.instruction.accounts,
          (account.isSigner = true → cpi.instruction.grantsSigner account.pubkey = true) ∧
          (account.isWritable = true → account.pubkey ≠ Platform.reference.executorProgram →
            cpi.instruction.grantsWritable account.pubkey = true) :=
  signed_message_executes Reference.messageLaws Reference.signature_total Toolkit.reference
    Reference.signCommand Reference.signPlan Reference.signCommand_authorizes
    Reference.relay.views [some Reference.signature] Reference.relay_filled

end ProgrammaticSigner
