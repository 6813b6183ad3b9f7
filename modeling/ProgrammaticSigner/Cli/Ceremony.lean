import ProgrammaticSigner.Cli.Participants
import ProgrammaticSigner.Cli.Roles
import ProgrammaticSigner.Cli.SentCompletion

set_option autoImplicit false

/- A whole ceremony: the authorities sign on machines of their own, and whoever was handed what
they printed submits it. -/
namespace ProgrammaticSigner

open Outcome V1Transaction

variable {P : Platform}

/-- What participants printed, and what a submission was given of it: a printed message, and
printed signatures, with one of each authority. -/
structure Ceremony (K : Toolkit P) (signing : SignCommand P) (outputs : List SignOutput)
    (shared : Submission P) : Prop where
  ran : ∀ output ∈ outputs, ∃ command client, SameExecution K signing command ∧
    Client.SignerLaws K client ∧ Sign.run K command client = .ok output
  message : ∃ output ∈ outputs, shared.authorizationMessage = output.authorizationMessage
  entries : ∀ entry ∈ shared.signers, ∃ output ∈ outputs, ∃ signed ∈ output.signatures,
    entry = signed.1 ++ '=' :: signed.2
  complete : ∀ authority ∈ signing.authority, ∃ signature,
    signatureEntry K authority signature ∈ shared.signers

section Printed

variable {K : Toolkit P}

/-- Every signer that is kept is a key of an authority, under its own address. -/
theorem Sign.uniqueSigners_ok {authorities : List P.Address} {signers : List P.LocalSigner}
    {before after : List (P.Address × P.LocalSigner)}
    (held : ∀ entry ∈ before, Local K entry ∧ entry.1 ∈ authorities)
    (verifying : ∀ signer ∈ signers, Verifies K signer)
    (unique : Sign.uniqueSigners K authorities signers before = .ok after) :
    ∀ entry ∈ after, Local K entry ∧ entry.1 ∈ authorities := by
  induction signers generalizing before with
  | nil =>
      obtain rfl := Except.ok.inj unique
      exact held
  | cons signer rest ih =>
      simp only [Sign.uniqueSigners, bind_ok_iff, ensure_ok_iff, exists_const] at unique
      obtain ⟨address, named, listed, later⟩ := unique
      refine ih (fun entry member => ?_)
        (fun other among => verifying other (List.mem_cons_of_mem _ among)) later
      rcases Sign.mem_addSigner member with kept | added
      · exact held entry kept
      · rw [added]
        exact ⟨⟨named, verifying signer List.mem_cons_self⟩, listed⟩

/-- What a run prints next to an address is a signature of an authority over the message that
it planned. -/
theorem Sign.run_signatures {command : SignCommand P} {client : Client P}
    (laws : Client.SignerLaws K client) {output : SignOutput}
    (ran : Sign.run K command client = .ok output) {plan : SignPlan P}
    (built : Sign.authorize K command = .ok plan) {signed : Text × Text}
    (printed : signed ∈ output.signatures) :
    ∃ address signature, signed = (K.showAddress address, K.showSignature signature) ∧
      address ∈ plan.authorities ∧
      K.verify address signature (Platform.serializeV1 plan.authorizationMessage) = true := by
  simp only [Sign.run, Sign.plan, bind_ok_iff, pure_ok_iff] at ran
  obtain ⟨plan', ⟨plan'', built', _, _, rfl⟩, signers, loaded, unique, kept, _, _, signatures,
    signing, rfl⟩ := ran
  obtain rfl := Except.ok.inj (built.symm.trans built')
  obtain ⟨⟨address, signature⟩, among, rfl⟩ := List.mem_map.mp printed
  have verifying : ∀ signer ∈ signers, Verifies K signer := by
    intro signer listed
    obtain ⟨source, -, loads⟩ := exists_of_forall₂ (mapM_ok_iff.mp loaded) listed
    exact laws.verifies source _ false signer loads (.inl rfl)
  obtain ⟨⟨authority, signer⟩, held, signs⟩ :=
    exists_of_forall₂ (mapM_ok_iff.mp signing) among
  obtain ⟨own, listed⟩ :=
    Sign.uniqueSigners_ok (fun _ listed => absurd listed List.not_mem_nil) verifying kept _ held
  simp only [bind_ok_iff, context_ok_iff, pure_ok_iff, Prod.mk.injEq] at signs
  obtain ⟨_, signs, rfl, rfl⟩ := signs
  exact ⟨_, _, rfl, listed, own.2 _ _ _ own.1 signs⟩

/-- Entries of authorities that verify are all taken. -/
theorem verifyAuthoritySignatures_exists (text : K.TextLaws) {message : P.Message}
    {execute : ExecuteAccounts P} {entries : List Text}
    (good : ∀ entry ∈ entries, ∃ address signature, entry = signatureEntry K address signature ∧
      address ∈ message.signerKeys ∧ execute.isPdaAuthority address = true ∧
      K.verify address signature (Platform.serializeV1 message) = true)
    (before : List (P.Address × P.Signature)) :
    ∃ after, Submit.verifyAuthoritySignatures K message execute entries before = .ok after := by
  induction entries generalizing before with
  | nil => exact ⟨before, rfl⟩
  | cons entry rest ih =>
      obtain ⟨address, signature, rfl, required, authority, verified⟩ :=
        good entry List.mem_cons_self
      obtain ⟨after, later⟩ := ih (fun other among => good other (List.mem_cons_of_mem _ among))
        (Submit.insertEntry address signature before)
      refine ⟨after, ?_⟩
      rw [Submit.verifyAuthoritySignatures,
        bind_of_ok (parseSignatureEntry_entry text address signature "authority")]
      simp only [bind_unit_ok_iff, ensure_ok_iff]
      exact ⟨required, by rw [authority, Bool.true_or], verified, later⟩

end Printed

/-- The accounts and the message that the executor gets of what was signed. -/
def SignPlan.execution (plan : SignPlan P) (signing : SignCommand P) : ExecuteAccounts P :=
  ⟨signing.nonceAuthority, signing.nonceAccount, signing.nonceHash, plan.executionMessage⟩

/-- The relay transaction of the signatures that were handed over compiles and fits. -/
def RelayBuilds (K : Toolkit P) (signing : SignCommand P) (plan : SignPlan P)
    (shared : Submission P) : Prop :=
  ∀ signatures, Submit.verifyAuthoritySignatures K plan.authorizationMessage
      (plan.execution signing) shared.signers [] = .ok signatures →
    ∃ transaction, Submit.buildRelay K plan.authorizationMessage (plan.execution signing)
      signatures shared.feePayer shared.durableNonce shared.blockhash = .ok transaction

section Accepted

variable {K : Toolkit P} {signing : SignCommand P} {plan : SignPlan P}
  {outputs : List SignOutput} {shared : Submission P}

theorem Planned.uses (messages : P.MessageLaws) (planned : Planned signing plan)
    (address : P.Address) : (plan.execution signing).isExecutorSigner address = true ↔
      UsesSigner plan.executionMessage signing.nonceAuthority address :=
  ExecuteAccounts.isExecutorSigner_iff _ messages (messages.wellFormed _ planned.valid) address

/-- A printed message is the planned one. -/
theorem Ceremony.submits (ceremony : Ceremony K signing outputs shared)
    (built : Sign.authorize K signing = .ok plan) :
    shared.authorizationMessage =
      K.encodeBase64 (Platform.serializeV1 plan.authorizationMessage) := by
  obtain ⟨output, listed, same⟩ := ceremony.message
  obtain ⟨command, client, agrees, -, ran⟩ := ceremony.ran output listed
  obtain ⟨planned, signatures, plans, rfl⟩ := Sign.run_planned ran
  simp only [Sign.plan, bind_ok_iff, pure_ok_iff] at plans
  obtain ⟨planned', built', _, _, rfl⟩ := plans
  rw [← Sign.authorize_congr agrees] at built'
  obtain rfl := Except.ok.inj (built.symm.trans built')
  exact same

/-- All the entries that were handed over are taken, and they are the authorities'. -/
theorem Ceremony.verifies (messages : P.MessageLaws) (text : K.TextLaws)
    (ceremony : Ceremony K signing outputs shared) (built : Sign.authorize K signing = .ok plan) :
    ∃ signatures, Submit.verifyAuthoritySignatures K plan.authorizationMessage
        (plan.execution signing) shared.signers [] = .ok signatures ∧
      ∀ address, (signatures.lookup address).isSome = true ↔ address ∈ signing.authority := by
  have planned := Sign.authorize_planned messages built
  have printed : ∀ entry ∈ shared.signers, ∃ address signature,
      entry = signatureEntry K address signature ∧ address ∈ signing.authority ∧
      K.verify address signature (Platform.serializeV1 plan.authorizationMessage) = true := by
    intro entry listed
    obtain ⟨output, among, signed, printed, rfl⟩ := ceremony.entries entry listed
    obtain ⟨command, client, agrees, laws, ran⟩ := ceremony.ran output among
    obtain ⟨address, signature, rfl, authority, verified⟩ := Sign.run_signatures laws ran
      ((Sign.authorize_congr agrees).symm.trans built) printed
    exact ⟨address, signature, rfl, (planned.authorities address).mp authority, verified⟩
  have good : ∀ entry ∈ shared.signers, ∃ address signature,
      entry = signatureEntry K address signature ∧
      address ∈ plan.authorizationMessage.signerKeys ∧
      (plan.execution signing).isPdaAuthority address = true ∧
      K.verify address signature (Platform.serializeV1 plan.authorizationMessage) = true := by
    intro entry listed
    obtain ⟨address, signature, same, authority, verified⟩ := printed entry listed
    exact ⟨address, signature, same, (planned.mem_signerKeys address).mpr (.inl authority),
      (planned.uses messages _).mpr (planned.derived address authority), verified⟩
  obtain ⟨signatures, taken⟩ := verifyAuthoritySignatures_exists text good []
  refine ⟨signatures, taken, fun address => ?_⟩
  rw [verifyAuthoritySignatures_lookup taken]
  constructor
  · rintro (none | ⟨entry, listed, signature, parsed⟩)
    · cases none
    · obtain ⟨own, given, rfl, authority, -⟩ := printed entry listed
      rw [parseSignatureEntry_entry text] at parsed
      obtain ⟨rfl, -⟩ := Prod.mk.inj (Except.ok.inj parsed)
      exact authority
  · intro authority
    obtain ⟨signature, listed⟩ := ceremony.complete address authority
    exact .inr ⟨_, listed, signature, parseSignatureEntry_entry text _ _ _⟩

/-- Whoever is left to sign the relay are the signers that `transaction sign` names for it. -/
theorem Planned.mem_submitSigners (messages : P.MessageLaws) (planned : Planned signing plan)
    (separate : RolesSeparate signing plan.executionMessage)
    {signatures : List (P.Address × P.Signature)}
    (held : ∀ address, (signatures.lookup address).isSome = true ↔ address ∈ signing.authority)
    (address : P.Address) :
    address ∈ Submit.submitSigners (plan.execution signing) plan.authorizationMessage.signerKeys
        signatures ↔
      address ∈ plan.forwardedSigners ∨ address ∈ signing.requiredRelaySigner := by
  have uses := planned.uses messages
  have forwards := (planned.forwarded_agrees uses).mpr separate.authority
  rw [Submit.submitSigners, List.mem_filter, Bool.or_eq_true, Bool.and_eq_true,
    Option.isNone_iff_eq_none]
  constructor
  · rintro ⟨required, executes | ⟨relays, -⟩⟩
    · exact .inl ((forwards address required).mp executes)
    · exact .inr ((planned.requiredRelay_agrees uses required).mp relays)
  · rintro (forwarded | relays)
    · have required := (planned.mem_signerKeys address).mpr (.inr (.inl forwarded))
      exact ⟨required, .inl ((forwards address required).mpr forwarded)⟩
    · have required := (planned.mem_signerKeys address).mpr (.inr (.inr relays))
      refine ⟨required, .inr ⟨(planned.requiredRelay_agrees uses required).mpr relays, ?_⟩⟩
      rw [← Option.not_isSome_iff_eq_none, held]
      exact (planned.separate address relays).1

/-- Only the relay transaction itself can stand in the way of what was handed over. -/
theorem Ceremony.accepted (messages : P.MessageLaws) (text : K.TextLaws)
    (ceremony : Ceremony K signing outputs shared) (built : Sign.authorize K signing = .ok plan)
    (separate : RolesSeparate signing plan.executionMessage)
    (builds : RelayBuilds K signing plan shared) :
    ∃ relayPlan, shared.Accepted K relayPlan ∧
      relayPlan.execute = plan.execution signing ∧
      ∀ address, address ∈ relayPlan.submitSigners ↔
        address ∈ plan.forwardedSigners ∨ address ∈ signing.requiredRelaySigner := by
  have planned := Sign.authorize_planned messages built
  obtain ⟨signatures, taken, held⟩ := ceremony.verifies messages text built
  obtain ⟨transaction, relayed⟩ := builds signatures taken
  refine ⟨⟨plan.authorizationMessage, plan.execution signing, signatures, transaction⟩,
    ⟨plan_ok_iff.mpr ⟨?_, ?_, taken, relayed⟩, ?_⟩, rfl,
    planned.mem_submitSigners messages separate held⟩
  · rw [ceremony.submits built]
    exact Decode.readAuthorizationMessage_encode K messages text planned.authorizes.valid
      planned.authorizes.config
  · show ExecuteAccounts.tryNew K plan.authorizationMessage = _
    rw [ExecuteAccounts.tryNew_ok K messages planned.valid planned.config planned.authorizes,
      planned.lifetime]
    rfl
  · intro address required authority
    refine (held address).mpr ?_
    exact ((planned.authority_agrees (planned.uses messages)).mpr separate.forwarded address
      required).mp authority

end Accepted

namespace Reference

end Reference

end ProgrammaticSigner
