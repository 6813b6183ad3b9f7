import ProgrammaticSigner.Signer.Facts

set_option autoImplicit false

/- Exactly which inputs a `Submit` accepts, and exactly what it then asks the executor for. -/
namespace ProgrammaticSigner

open Outcome

variable {P : Platform}

/-- A required signer that approved with a signature of its own. -/
def VerifiedSigner (signatures : List (Option P.Signature)) (message : P.Message)
    (authority : P.Address) : Prop :=
  ∃ (index : Nat) (signature : P.Signature), message.signerKeys[index]? = some authority ∧
    signatures[index]? = some (some signature) ∧
    P.verifyStrict authority signature (Platform.serializeV1 message) = true

/-- The conditions for a `Submit`, one by one. -/
structure Submittable (accounts : List P.AccountView) (signatures : List (Option P.Signature))
    (versioned : P.VersionedMessage) (message : P.Message) (ix : CompiledInstruction) :
    Prop where
  version : versioned = .v1 message
  valid : P.validate message = .ok ()
  config : message.config = default
  single : message.instructions = [ix]
  allowed : ∃ program discriminator, message.accountKeys[ix.programIdIndex.toNat]? = some program ∧
    ix.data[0]? = some discriminator ∧
    (program, discriminator) ∈ ExecutorPolicy.allowedExecutorInstructions P
  mirrors : accounts.map AccountView.address = message.accountKeys
  count : signatures.length = message.header.numRequiredSignatures.toNat
  verified : ∀ (index : Nat) signer signature, message.accountKeys[index]? = some signer →
    signatures[index]? = some (some signature) →
    P.verifyStrict signer signature (Platform.serializeV1 message) = true
  signed : ∀ (index : Nat) relayAccount, signatures[index]? = some none →
    accounts[index]? = some relayAccount → relayAccount.isSigner = true

/-- The CPI of an accepted `Submit`, account by account. -/
structure SubmissionCpi (programId : P.Address) (accounts : List P.AccountView)
    (signatures : List (Option P.Signature)) (message : P.Message) (ix : CompiledInstruction)
    (cpi : P.Cpi) : Prop where
  program : message.accountKeys[ix.programIdIndex.toNat]? = some cpi.instruction.programId
  data : cpi.instruction.data = ix.data
  count : cpi.instruction.accounts.length = ix.accounts.length
  accounts : ∀ (slot : Nat) index, ix.accounts[slot]? = some index → ∃ relayAccount account,
    accounts[index.toNat]? = some relayAccount ∧
    cpi.instruction.accounts[slot]? = some account ∧
    message.accountKeys[index.toNat]? = some account.pubkey ∧
    account.isWritable = P.isMaybeWritable message index.toNat ∧
    (account.isSigner = true ↔
      (∃ authority, VerifiedSigner signatures message authority ∧
        account.pubkey = deriveAddress programId authority) ∨
      index.toNat < message.header.numRequiredSignatures.toNat ∧ relayAccount.isSigner = true)
  seeds : ∀ seeds, seeds ∈ cpi.signers ↔ ∃ authority,
    VerifiedSigner signatures message authority ∧ seeds = authoritySeeds programId authority ∧
    ∃ account ∈ cpi.instruction.accounts, account.pubkey = deriveAddress programId authority

section Accepts

variable {accounts : List P.AccountView} {signatures : List (Option P.Signature)}
  {versioned : P.VersionedMessage} {message : P.Message} {ix : CompiledInstruction}

theorem allowed_iff (formed : message.WellFormed) (listed : ix ∈ message.instructions) :
    ExecutorPolicy.validate (message.keyAt ix.programIdIndex) ix.data = .ok () ↔
      ∃ program discriminator, message.accountKeys[ix.programIdIndex.toNat]? = some program ∧
        ix.data[0]? = some discriminator ∧
        (program, discriminator) ∈ ExecutorPolicy.allowedExecutorInstructions P := by
  rw [Message.keyAt_eq (formed.programs ix listed)]
  simp only [ExecutorPolicy.validate, bind_ok_iff, okOr_ok_iff, ensure_ok_iff,
    List.head?_eq_getElem?]
  constructor
  · intro accepted
    obtain ⟨discriminator, first, member⟩ := accepted
    exact ⟨_, discriminator, rfl, first, member⟩
  · intro accepted
    obtain ⟨program, discriminator, same, first, member⟩ := accepted
    rw [Option.some.inj same]
    exact ⟨discriminator, first, member⟩

/-- A signature decides a required signer's approval, and a relay account where it is missing. -/
theorem approves_iff (formed : message.WellFormed)
    (mirrors : accounts.map AccountView.address = message.accountKeys)
    (count : signatures.length = message.header.numRequiredSignatures.toNat) :
    (∀ (index : Nat) signer signature relayAccount, message.signerKeys[index]? = some signer →
      signatures[index]? = some signature → accounts[index]? = some relayAccount →
      Approves (Platform.serializeV1 message) signer signature relayAccount) ↔
    (∀ (index : Nat) signer signature, message.accountKeys[index]? = some signer →
      signatures[index]? = some (some signature) →
      P.verifyStrict signer signature (Platform.serializeV1 message) = true) ∧
    ∀ (index : Nat) relayAccount, signatures[index]? = some none →
      accounts[index]? = some relayAccount → relayAccount.isSigner = true := by
  have length : accounts.length = message.accountKeys.length := by
    rw [← mirrors, List.length_map]
  have short := formed.signers_le
  have required (index : Nat) (given : Option P.Signature)
      (entry : signatures[index]? = some given) :
      message.signerKeys[index]? = message.accountKeys[index]? := by
    obtain ⟨below, _⟩ := List.getElem?_eq_some_iff.mp entry
    exact List.getElem?_take_of_lt (by omega)
  constructor
  · intro approves
    constructor
    · intro index signer signature key entry
      obtain ⟨inside, _⟩ := List.getElem?_eq_some_iff.mp key
      have present : accounts[index]? = some (accounts.get ⟨index, by omega⟩) :=
        List.getElem?_eq_getElem (by omega)
      exact approves index signer (some signature) _ ((required index _ entry).trans key) entry
        present
    · intro index relayAccount entry present
      obtain ⟨inside, _⟩ := List.getElem?_eq_some_iff.mp present
      have key : message.accountKeys[index]? = some (message.accountKeys.get ⟨index, by omega⟩) :=
        List.getElem?_eq_getElem (by omega)
      exact approves index _ none relayAccount ((required index _ entry).trans key) entry present
  · intro accepted index signer signature relayAccount key entry present
    rw [required index signature entry] at key
    cases signature with
    | none => exact accepted.2 index relayAccount entry present
    | some signature => exact accepted.1 index signer signature key entry

theorem submits_iff (messages : P.MessageLaws) :
    Submits accounts signatures versioned message ix ↔
      Submittable accounts signatures versioned message ix := by
  constructor
  · intro submits
    have formed := messages.wellFormed message submits.valid
    have listed : ix ∈ message.instructions := submits.single ▸ List.mem_cons_self
    have approved := (approves_iff formed submits.mirrors submits.count).mp submits.approved
    exact ⟨submits.version, submits.valid, submits.config, submits.single,
      (allowed_iff formed listed).mp submits.allowed, submits.mirrors, submits.count,
      approved.1, approved.2⟩
  · intro accepted
    have formed := messages.wellFormed message accepted.valid
    have listed : ix ∈ message.instructions := accepted.single ▸ List.mem_cons_self
    exact ⟨accepted.version, accepted.valid, accepted.config, accepted.single, accepted.mirrors,
      (allowed_iff formed listed).mpr accepted.allowed, accepted.count,
      (approves_iff formed accepted.mirrors accepted.count).mpr
        ⟨accepted.verified, accepted.signed⟩⟩

/-- The signers whose signatures an accepted submission verified. -/
theorem Submittable.mem_verified
    (accepted : Submittable accounts signatures versioned message ix) (authority : P.Address) :
    authority ∈ signersWithSignature message.signerKeys signatures ↔
      VerifiedSigner signatures message authority := by
  rw [mem_signersWithSignature]
  constructor
  · intro given
    obtain ⟨index, signature, key, entry⟩ := given
    have key' := List.mem_of_getElem? key
    refine ⟨index, signature, key, entry, accepted.verified index authority signature ?_ entry⟩
    rw [Message.signerKeys, List.getElem?_take] at key
    split at key
    · exact key
    · cases key
  · intro verified
    obtain ⟨index, signature, key, entry, _⟩ := verified
    exact ⟨index, signature, key, entry⟩

theorem Submittable.submissionCpi (messages : P.MessageLaws)
    (accepted : Submittable accounts signatures versioned message ix) (programId : P.Address) :
    SubmissionCpi programId accounts signatures message ix
      (submitCpi programId accounts signatures message ix) := by
  have formed := messages.wellFormed message accepted.valid
  have listed : ix ∈ message.instructions := accepted.single ▸ List.mem_cons_self
  have length : accounts.length = message.accountKeys.length := by
    rw [← accepted.mirrors, List.length_map]
  have derived (key : P.Address) :
      key ∈ (signersWithSignature message.signerKeys signatures).map (deriveAddress programId) ↔
        ∃ authority, VerifiedSigner signatures message authority ∧
          key = deriveAddress programId authority := by
    rw [List.mem_map]
    apply exists_congr
    intro authority
    rw [accepted.mem_verified, eq_comm]
  refine ⟨Message.keyAt_eq (formed.programs ix listed), rfl, List.length_map _, ?_, ?_⟩
  · intro slot index named
    have inside := formed.indexes ix listed index (List.mem_of_getElem? named)
    have present := List.getElem?_eq_getElem (length.symm ▸ inside)
    have account : (submitCpi programId accounts signatures message ix).instruction.accounts[
        slot]? = some ⟨message.keyAt index, _, P.isMaybeWritable message index.toNat⟩ :=
      List.getElem?_map.trans (congrArg _ named)
    refine ⟨_, _, present, account, Message.keyAt_eq inside, rfl, ?_⟩
    show (_ || _) = true ↔ _
    rw [Bool.or_eq_true, Bool.and_eq_true, decide_eq_true_iff, messages.isSigner,
      decide_eq_true_eq, relaySigns, present, Option.any_some]
    exact or_congr_left (derived _)
  · intro seeds
    simp only [submitCpi, List.mem_flatMap, accepted.mem_verified, List.mem_map,
      List.mem_filter, decide_eq_true_eq]
    apply exists_congr
    intro authority
    apply and_congr_right
    intro _
    constructor
    · intro given
      obtain ⟨index, ⟨named, same⟩, rfl⟩ := given
      exact ⟨rfl, _, ⟨index, named, rfl⟩, same⟩
    · intro given
      obtain ⟨rfl, _, ⟨index, named, rfl⟩, same⟩ := given
      exact ⟨index, ⟨named, same⟩, rfl⟩

end Accepts

/-- An error that no failed lookup raised. -/
def ProgramError.Returned (reason : ProgramError) : Prop := reason ≠ .panicked

/-- No lookup on the way can fail. -/
abbrev NoPanic {α : Type} (code : Except ProgramError α) : Prop :=
  Raises ProgramError.Returned code

theorem SignerError.toProgramError_returned (reason : SignerError) :
    reason.toProgramError.Returned := by
  intro same
  cases same

theorem notEnoughAccountKeys_returned : ProgramError.notEnoughAccountKeys.Returned := by
  intro same
  cases same

section NoPanic

variable {accounts : List P.AccountView} {message : P.Message}

theorem checkRelayAccounts_noPanic :
    NoPanic (CheckedExecutorInstruction.checkRelayAccounts accounts message) := by
  unfold CheckedExecutorInstruction.checkRelayAccounts
  apply raises_bind (raises_ensure notEnoughAccountKeys_returned)
  intro _ _
  apply raises_bind (raises_ensure (SignerError.toProgramError_returned _))
  intro _ _
  apply raises_forM
  intro pair _
  exact raises_ensure (SignerError.toProgramError_returned _)

theorem tryNew_noPanic (formed : message.WellFormed) {ix : CompiledInstruction}
    (listed : ix ∈ message.instructions) :
    NoPanic (CheckedExecutorInstruction.tryNew accounts message ix) := by
  unfold CheckedExecutorInstruction.tryNew
  apply raises_bind checkRelayAccounts_noPanic
  intro _ checked
  have mirrors := CheckedExecutorInstruction.checkRelayAccounts_ok_iff.mp checked
  have length : accounts.length = message.accountKeys.length := by
    rw [← mirrors, List.length_map]
  apply raises_bind (raises_okOr_some (Message.keyAt_eq (formed.programs ix listed)))
  intro _ _
  apply raises_bind (raises_mapError SignerError.toProgramError_returned)
  intro _ _
  refine raises_bind (raises_mapM ?_) ?_
  · intro index named
    have inside := formed.indexes ix listed index named
    apply raises_bind (raises_okOr_some (List.getElem?_eq_getElem (length.symm ▸ inside)))
    intro _ _
    exact raises_ok
  · intro _ _
    exact raises_ok

theorem verifyAuthoritySignaturesLoop_noPanic (messageBytes : List UInt8)
    (signers : List P.Address) (signatures : List (Option P.Signature)) :
    NoPanic (verifyAuthoritySignaturesLoop messageBytes signers signatures accounts) := by
  induction signers generalizing signatures accounts with
  | nil => exact raises_ok
  | cons signer signers ih =>
      cases signatures with
      | nil => exact raises_ok
      | cons signature signatures =>
          cases accounts with
          | nil => exact raises_ok
          | cons account accounts =>
              unfold verifyAuthoritySignaturesLoop
              cases signature with
              | none =>
                  apply raises_bind (raises_ensure (SignerError.toProgramError_returned _))
                  intro _ _
                  exact ih signatures
              | some signature =>
                  apply raises_bind (raises_ensure (SignerError.toProgramError_returned _))
                  intro _ _
                  apply raises_bind (ih signatures)
                  intro _ _
                  exact raises_ok

theorem verifyAuthoritySignatures_noPanic (formed : message.WellFormed)
    (signatures : List (Option P.Signature)) :
    NoPanic (verifyAuthoritySignatures accounts signatures message) := by
  unfold verifyAuthoritySignatures
  apply raises_bind (raises_ensure (SignerError.toProgramError_returned _))
  intro _ _
  apply raises_bind (raises_okOr_some (if_pos formed.signers_le))
  intro _ _
  exact verifyAuthoritySignaturesLoop_noPanic _ _ _

end NoPanic

theorem processSubmit_noPanic (messages : P.MessageLaws) (programId : P.Address)
    (accounts : List P.AccountView) (signatures : List (Option P.Signature))
    (versioned : P.VersionedMessage) :
    NoPanic (processSubmit programId accounts signatures versioned).result := by
  cases versioned with
  | legacy bytes =>
      constructor
      intro reason failed
      cases failed
      exact SignerError.toProgramError_returned _
  | v0 bytes =>
      constructor
      intro reason failed
      cases failed
      exact SignerError.toProgramError_returned _
  | v1 message =>
      unfold processSubmit
      dsimp only
      rw [Issued.lift_bind_result]
      apply raises_bind (raises_mapError fun _ => SignerError.toProgramError_returned _)
      intro _ validated
      rw [mapError_ok_iff] at validated
      have formed := messages.wellFormed message validated
      rw [Issued.lift_bind_result]
      apply raises_bind (raises_ensure (SignerError.toProgramError_returned _))
      intro _ _
      split
      · rename_i ix single
        have listed : ix ∈ message.instructions := single ▸ List.mem_cons_self
        rw [Issued.lift_bind_result]
        apply raises_bind (tryNew_noPanic formed listed)
        intro _ _
        rw [Issued.lift_bind_result]
        apply raises_bind (verifyAuthoritySignatures_noPanic formed signatures)
        intro _ _
        exact raises_ok
      · constructor
        intro reason failed
        cases failed
        exact SignerError.toProgramError_returned _

/-- A `Submit` reaches its CPI exactly on the inputs that meet every condition, then makes that
one CPI with exactly the accounts, privileges and seeds its message and signatures give, and
never fails a lookup. -/
theorem submission_exact (messages : P.MessageLaws) (programId : P.Address)
    (accounts : List P.AccountView) (signatures : List (Option P.Signature))
    (versioned : P.VersionedMessage) :
    ((processSubmit programId accounts signatures versioned).calls ≠ [] ↔
      ∃ message ix, Submittable accounts signatures versioned message ix) ∧
    (∀ message ix, Submittable accounts signatures versioned message ix →
      ∃ cpi, processSubmit programId accounts signatures versioned = ⟨[cpi], .ok ()⟩ ∧
        SubmissionCpi programId accounts signatures message ix cpi) ∧
    (processSubmit programId accounts signatures versioned).result ≠ .error .panicked := by
  have issues (message : P.Message) (ix : CompiledInstruction)
      (accepted : Submittable accounts signatures versioned message ix) :
      ∃ cpi, processSubmit programId accounts signatures versioned = ⟨[cpi], .ok ()⟩ ∧
        SubmissionCpi programId accounts signatures message ix cpi :=
    ⟨_, ((submits_iff messages).mpr accepted).processSubmit_eq messages programId,
      accepted.submissionCpi messages programId⟩
  refine ⟨?_, issues, ?_⟩
  · constructor
    · intro reached
      have accepted : ¬ (processSubmit programId accounts signatures versioned).Refused := by
        intro refused
        obtain ⟨reason, same⟩ := refused
        rw [same] at reached
        exact reached rfl
      obtain ⟨message, ix, submits⟩ := processSubmit_accepts messages accepted
      exact ⟨message, ix, (submits_iff messages).mp submits⟩
    · intro accepted
      obtain ⟨message, ix, accepted⟩ := accepted
      obtain ⟨cpi, made, _⟩ := issues message ix accepted
      rw [made]
      exact List.cons_ne_nil _ _
  · intro panics
    have safe := processSubmit_noPanic messages programId accounts signatures versioned
    exact safe.of_error _ panics rfl

/-- The reference relay's submission reaches its CPI. -/
theorem submission_exact_reference :
    (processSubmit Platform.reference.signerProgram Reference.relay.views
      [some Reference.signature] (.v1 Reference.authorization)).calls ≠ [] :=
  (submission_exact Reference.messageLaws _ _ _ _).1.mpr
    ⟨_, _, (submits_iff Reference.messageLaws).mp Reference.relay_submits⟩

end ProgrammaticSigner
