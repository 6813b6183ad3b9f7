import ProgrammaticSigner.Cli.ExecuteAccounts
import ProgrammaticSigner.Cli.Signed

set_option autoImplicit false

/- The roles of the signers, as `transaction sign` assigns them and as `transaction submit`
reads them back. -/
namespace ProgrammaticSigner

open Outcome

variable {P : Platform}

/-- `transaction submit` recovers what `transaction sign` was given, and every signer has the
same roles in both. -/
def RolesAgree (K : Toolkit P) (command : SignCommand P) (plan : SignPlan P) : Prop :=
  ∃ message execute,
    Decode.readAuthorizationMessage K
      (K.encodeBase64 (Platform.serializeV1 plan.authorizationMessage)) = .ok message ∧
    ExecuteAccounts.tryNew K message = .ok execute ∧
    execute.nonceAccount = command.nonceAccount ∧
    execute.nonceAuthority = command.nonceAuthority ∧
    execute.expectedNonce = command.nonceHash ∧
    execute.executionMessage = plan.executionMessage ∧
    ∀ signer ∈ message.signerKeys,
      (execute.isPdaAuthority signer = true ↔ signer ∈ command.authority) ∧
      (execute.isExecutorSigner signer = true ↔ signer ∈ plan.forwardedSigners) ∧
      (execute.isRequiredRelaySigner signer = true ↔ signer ∈ command.requiredRelaySigner)

/-- No signer that the executor uses directly has a PDA that it uses too, unless the signer is
itself promoted or listed, and no listed authority is promoted by another. -/
structure RolesSeparate (command : SignCommand P) (executionMessage : P.Message) : Prop where
  forwarded : ∀ signer, UsesSigner executionMessage command.nonceAuthority signer →
    signer ∉ command.authority.map (deriveAddress P.signerProgram) →
    signer ∉ command.authority →
    ¬ UsesSigner executionMessage command.nonceAuthority (deriveAddress P.signerProgram signer)
  authority : ∀ signer ∈ command.authority,
    signer ∉ command.authority.map (deriveAddress P.signerProgram)

section Roles

variable {command : SignCommand P} {plan : SignPlan P} (planned : Planned command plan)
  {execute : ExecuteAccounts P}
  (uses : ∀ address, execute.isExecutorSigner address = true ↔
    UsesSigner plan.executionMessage command.nonceAuthority address)
include planned uses

/-- The required relay signers are the same in both, whatever the other roles. -/
theorem Planned.requiredRelay_agrees {signer : P.Address}
    (required : signer ∈ plan.authorizationMessage.signerKeys) :
    execute.isRequiredRelaySigner signer = true ↔ signer ∈ command.requiredRelaySigner := by
  rw [execute.isRequiredRelaySigner_iff, ExecuteAccounts.isPdaAuthority, uses, uses]
  constructor
  · rintro ⟨unpromoting, unused⟩
    rcases (planned.mem_signerKeys signer).mp required with role | role | role
    · exact absurd (planned.derived signer role) unpromoting
    · exact absurd ((planned.forwarded signer).mp role).1 unused
    · exact role
  · intro listed
    have separate := planned.separate signer listed
    exact ⟨separate.2.2, separate.2.1⟩

/-- The PDA authorities are the listed ones when no forwarded signer has a PDA in use. -/
theorem Planned.authority_agrees :
    (∀ signer ∈ plan.authorizationMessage.signerKeys,
      (execute.isPdaAuthority signer = true ↔ signer ∈ command.authority)) ↔
    ∀ signer, UsesSigner plan.executionMessage command.nonceAuthority signer →
      signer ∉ command.authority.map (deriveAddress P.signerProgram) →
      signer ∉ command.authority →
      ¬ UsesSigner plan.executionMessage command.nonceAuthority
        (deriveAddress P.signerProgram signer) := by
  simp only [ExecuteAccounts.isPdaAuthority, uses]
  constructor
  · intro agree signer used unpromoted unlisted promoting
    have forwarded := (planned.forwarded signer).mpr ⟨used, unpromoted⟩
    have required := (planned.mem_signerKeys signer).mpr (.inr (.inl forwarded))
    exact unlisted ((agree signer required).mp promoting)
  · intro separate signer required
    constructor
    · intro promoting
      by_contra unlisted
      rcases (planned.mem_signerKeys signer).mp required with role | role | role
      · exact unlisted role
      · have forwarded := (planned.forwarded signer).mp role
        exact separate signer forwarded.1 forwarded.2 unlisted promoting
      · exact (planned.separate signer role).2.2 promoting
    · intro listed
      exact planned.derived signer listed

/-- The forwarded signers are the same when no listed authority is promoted by another. -/
theorem Planned.forwarded_agrees :
    (∀ signer ∈ plan.authorizationMessage.signerKeys,
      (execute.isExecutorSigner signer = true ↔ signer ∈ plan.forwardedSigners)) ↔
    ∀ signer ∈ command.authority,
      signer ∉ command.authority.map (deriveAddress P.signerProgram) := by
  simp only [uses]
  constructor
  · intro agree signer listed promoted
    obtain ⟨authority, among, derived⟩ := List.mem_map.mp promoted
    have used := planned.derived authority among
    rw [derived] at used
    have required := (planned.mem_signerKeys signer).mpr (.inl listed)
    have forwarded := (agree signer required).mp used
    exact ((planned.forwarded signer).mp forwarded).2 promoted
  · intro separate signer required
    constructor
    · intro used
      rcases (planned.mem_signerKeys signer).mp required with role | role | role
      · exact (planned.forwarded signer).mpr ⟨used, separate signer role⟩
      · exact role
      · exact absurd used (planned.separate signer role).2.1
    · intro forwarded
      exact ((planned.forwarded signer).mp forwarded).1

end Roles

/-- `transaction sign` and `transaction submit` agree on what they read and on every role exactly
when no role of one signer runs into a role of its PDA. -/
theorem roles_agree_iff (messages : P.MessageLaws) (K : Toolkit P) (text : K.TextLaws)
    (command : SignCommand P) (read : P.Message) (plan : SignPlan P)
    (given : Decode.readExecutionMessage K command.executionMessage
      command.stripTransactionConfig = .ok read)
    (built : Sign.authorize K command = .ok plan) :
    RolesAgree K command plan ↔ RolesSeparate command read := by
  have planned := Sign.authorize_planned messages built
  obtain ⟨read', given', same⟩ := Sign.authorize_read built
  obtain rfl := Except.ok.inj (given.symm.trans given')
  have keys : ∀ address, UsesSigner plan.executionMessage command.nonceAuthority address ↔
      UsesSigner read command.nonceAuthority address := by
    intro address
    rw [same]
    rfl
  have decoded := Decode.readAuthorizationMessage_encode K messages text
    planned.authorizes.valid planned.authorizes.config
  have recovered := ExecuteAccounts.tryNew_ok K messages planned.valid planned.config
    planned.authorizes
  rw [planned.lifetime] at recovered
  have uses := fun address => ExecuteAccounts.isExecutorSigner_iff
    ⟨command.nonceAuthority, command.nonceAccount, command.nonceHash, plan.executionMessage⟩
    messages (messages.wellFormed _ planned.valid) address
  have authorities := planned.authority_agrees uses
  have forwarded := planned.forwarded_agrees uses
  simp only [keys] at authorities
  constructor
  · rintro ⟨message, execute, found, taken, _, _, _, _, agree⟩
    obtain rfl := Except.ok.inj (decoded.symm.trans found)
    obtain rfl := Except.ok.inj (recovered.symm.trans taken)
    exact ⟨authorities.mp fun signer required => (agree signer required).1,
      forwarded.mp fun signer required => (agree signer required).2.1⟩
  · intro separate
    refine ⟨_, _, decoded, recovered, rfl, rfl, rfl, rfl, fun signer required => ?_⟩
    exact ⟨authorities.mpr separate.forwarded signer required,
      forwarded.mpr separate.authority signer required,
      planned.requiredRelay_agrees uses required⟩

theorem roles_agree_iff_reference :
    RolesAgree Toolkit.reference Reference.signCommand Reference.signPlan ↔
      RolesSeparate Reference.signCommand Reference.message :=
  roles_agree_iff Reference.messageLaws Toolkit.reference Reference.textLaws
    Reference.signCommand Reference.message Reference.signPlan
    (Reference.readExecutionMessage_encode Reference.message_valid rfl)
    Reference.signCommand_authorizes

namespace Reference

/-- An execution that key 32 signs for, and its PDA 65 with it. -/
def mixed : Platform.reference.Message where
  header := ⟨3, 0, 1⟩
  config := default
  lifetimeSpecifier := [7]
  accountKeys := [nonceAuthority, 32, 65, 40]
  instructions := [⟨3, [0, 1, 2], [7]⟩]

theorem mixed_valid : Platform.reference.validate mixed = .ok () :=
  validate_ok ⟨by decide, by decide, by decide, by decide, by decide, by simp [mixed],
    by simp [mixed]⟩

/-- Key 32 is not listed with the authorities. -/
def mixedCommand : SignCommand .reference :=
  { signCommand with
    executionMessage := encodeText (Platform.serializeV1 mixed)
    nonceHash := [7] }

def mixedPlan : SignPlan .reference where
  executionMessage := mixed
  authorities := [30]
  requiredRelaySigners := []
  forwardedSigners := [32, 65]
  authorizationMessage := ⟨⟨3, 1, 3⟩, default, default, [32, 65, 30, 20, 61, 4, 2, 40],
    [⟨5, [4, 3, 6, 4, 0, 1, 7],
      (ExecutorClient.execute (P := .reference) nonceAccount nonceAuthority mixed).data⟩]⟩

set_option maxRecDepth 4000 in
theorem mixedCommand_authorizes :
    Sign.authorize Toolkit.reference mixedCommand = .ok mixedPlan := by
  rw [Sign.authorize]
  refine (bind_of_ok (readExecutionMessage_encode mixed_valid rfl)).trans ?_
  rfl

/-- `transaction sign` forwards key 32, and `transaction submit` takes it for an authority. -/
theorem mixedCommand_disagrees :
    ∃ (command : SignCommand .reference) (plan : SignPlan .reference),
      Sign.authorize Toolkit.reference command = .ok plan ∧
        ¬ RolesAgree Toolkit.reference command plan := by
  refine ⟨mixedCommand, mixedPlan, mixedCommand_authorizes, ?_⟩
  have planned := Sign.authorize_planned messageLaws mixedCommand_authorizes
  have decoded := Decode.readAuthorizationMessage_encode Toolkit.reference messageLaws textLaws
    planned.authorizes.valid planned.authorizes.config
  have recovered := ExecuteAccounts.tryNew_ok Toolkit.reference messageLaws planned.valid
    planned.config planned.authorizes
  rintro ⟨message, execute, found, taken, _, _, _, _, agree⟩
  obtain rfl := Except.ok.inj (decoded.symm.trans found)
  obtain rfl := Except.ok.inj (recovered.symm.trans taken)
  have listed := ((agree (32 : Nat) (by decide)).1).mp (by decide)
  exact absurd listed (by decide)

end Reference

end ProgrammaticSigner
