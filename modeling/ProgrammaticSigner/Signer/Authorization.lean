import ProgrammaticSigner.Signer.Facts

set_option autoImplicit false

/- Where signer privilege comes from, from the relay transaction down to the CPIs of
nested executions. -/
namespace ProgrammaticSigner

open Outcome

variable {P : Platform}

/-- The executor invocations below a relay transaction's `Submit` that the runtime
permits: the submission's own, and those the executor makes of itself. Each may run
on another ledger. -/
inductive ExecutorCall (relay : P.Instruction) : P.Instruction → Prop where
  | submitted {cpi : P.Cpi}
      (issued : cpi ∈ (processSignerInstruction P.signerProgram relay.views relay.data).calls)
      (permitted : cpi.Permitted relay) : ExecutorCall relay cpi.instruction
  | nested {execute : P.Instruction} {ledger : P.Ledger} {cpi : P.Cpi}
      (outer : ExecutorCall relay execute)
      (issued : cpi ∈ (processExecutorInstruction ledger execute.views execute.data).calls)
      (permitted : cpi.Permitted execute)
      (itself : cpi.instruction.programId = P.executorProgram) :
      ExecutorCall relay cpi.instruction

/-- A CPI the executor issues below a submission and the runtime permits. -/
def IssuedBelow (relay : P.Instruction) (cpi : P.Cpi) : Prop :=
  ∃ execute ledger, ExecutorCall relay execute ∧
    cpi ∈ (processExecutorInstruction ledger execute.views execute.data).calls ∧
    cpi.Permitted execute

/-- What may stand behind a signer privilege: the relay transaction's own signature at
a required-signer index, or a verified signature of the authority the address is the
PDA of. -/
def Authorized (relay : P.Instruction) (signatures : List (Option P.Signature))
    (message : P.Message) (address : P.Address) : Prop :=
  (relay.grantsSigner address = true ∧ address ∈ message.signerKeys) ∨
  ∃ (index : Nat) (authority : P.Address) (signature : P.Signature),
    message.signerKeys[index]? = some authority ∧ signatures[index]? = some (some signature) ∧
    P.verifyStrict authority signature (Platform.serializeV1 message) = true ∧
    address = deriveAddress P.signerProgram authority

/-- A verified signer's signature at its own index. -/
theorem Submits.verified {accounts : List P.AccountView}
    {signatures : List (Option P.Signature)} {message : P.Message} {ix : CompiledInstruction}
    (messages : P.MessageLaws)
    (submits : Submits accounts signatures (.v1 message) message ix) {index : Nat}
    {authority : P.Address} {signature : P.Signature}
    (key : message.signerKeys[index]? = some authority)
    (entry : signatures[index]? = some (some signature)) :
    P.verifyStrict authority signature (Platform.serializeV1 message) = true := by
  have formed := messages.wellFormed message submits.valid
  obtain ⟨inside, -⟩ := List.getElem?_eq_some_iff.mp key
  have short : index < accounts.length := by
    rw [← List.length_map AccountView.address, submits.mirrors]
    exact Nat.lt_of_lt_of_le (formed.signerKeys_length ▸ inside) formed.signers_le
  exact submits.approved index authority (some signature) accounts[index] key entry
    (List.getElem?_eq_getElem short)

/-- The submission's CPI marks a signer only with authorization. -/
theorem Submits.authorized (messages : P.MessageLaws) {relay : P.Instruction}
    {signatures : List (Option P.Signature)} {message : P.Message} {ix : CompiledInstruction}
    (submits : Submits relay.views signatures (.v1 message) message ix) {address : P.Address}
    (signs : (submitCpi P.signerProgram relay.views signatures message ix).instruction.grantsSigner
      address = true) :
    Authorized relay signatures message address := by
  have formed := messages.wellFormed message submits.valid
  have listed : ix ∈ message.instructions := submits.single ▸ List.mem_cons_self
  obtain ⟨account, member, rfl, flagged⟩ := Instruction.grantsSigner_iff.mp signs
  obtain ⟨index, named, rfl⟩ := List.mem_map.mp member
  simp only [Bool.or_eq_true, decide_eq_true_eq, Bool.and_eq_true] at flagged
  rcases flagged with promoted | ⟨required, relayed⟩
  · obtain ⟨authority, verified, derived⟩ := List.mem_map.mp promoted
    obtain ⟨position, signature, key, entry⟩ := mem_signersWithSignature.mp verified
    exact .inr ⟨position, authority, signature, key, entry,
      submits.verified messages key entry, derived.symm⟩
  · have inside := formed.indexes ix listed index named
    have key := Message.keyAt_eq inside
    obtain ⟨view, present, signer⟩ := (Option.any_eq_true _ _).mp relayed
    rw [← submits.mirrors, List.getElem?_map, present, Option.map_some, Option.some.injEq] at key
    obtain ⟨-, merged, -⟩ := Instruction.mem_views (List.mem_of_getElem? present)
    refine .inl ⟨by rw [← key, ← merged]; exact signer, ?_⟩
    rw [messages.isSigner, decide_eq_true_eq] at required
    have member := (formed.getElem_mem_signerKeys inside).mpr required
    obtain ⟨_, here⟩ := List.getElem?_eq_some_iff.mp (Message.keyAt_eq inside)
    exact here ▸ member

/-- The executor signs with no seeds, so what it passes on it was given. -/
theorem executor_unsigned (messages : P.MessageLaws) {ledger : P.Ledger}
    {accounts : List P.AccountView} {data : List UInt8} {cpi : P.Cpi}
    (issued : cpi ∈ (processExecutorInstruction ledger accounts data).calls) :
    cpi.signers = [] := by
  obtain ⟨_, _, _, _, -, -, calls⟩ :=
    processExecutorInstruction_accepts messages (Issued.not_refused_of_mem issued)
  rw [calls] at issued
  exact executionCpis_unsigned issued

/-- Signer privilege only shrinks from one executor invocation to the next. -/
theorem ExecutorCall.authorized (messages : P.MessageLaws) {relay execute : P.Instruction}
    {signatures : List (Option P.Signature)} {message : P.Message}
    (decoded : SignerInstruction.tryFromBytes relay.data = .ok (.submit signatures (.v1 message)))
    (call : ExecutorCall relay execute) {address : P.Address}
    (signs : execute.grantsSigner address = true) :
    Authorized relay signatures message address := by
  induction call generalizing address with
  | submitted issued permitted =>
      obtain ⟨signatures', message', ix, decoded', submits, calls⟩ :=
        processSignerInstruction_accepts messages (Issued.not_refused_of_mem issued)
      rw [calls] at issued
      obtain rfl := List.mem_singleton.mp issued
      rw [decoded] at decoded'
      obtain ⟨rfl, same⟩ := SignerInstruction.submit.inj (Except.ok.inj decoded')
      obtain rfl := VersionedMessage.v1.inj same
      exact submits.authorized messages signs
  | nested outer issued permitted itself ih =>
      have listed := executor_unsigned messages issued
      rcases permitted.signer signs with granted | ⟨seeds, given, -⟩
      · exact ih granted
      · rw [listed] at given
        cases given

theorem IssuedBelow.authorized (messages : P.MessageLaws) {relay : P.Instruction}
    {signatures : List (Option P.Signature)} {message : P.Message}
    (decoded : SignerInstruction.tryFromBytes relay.data = .ok (.submit signatures (.v1 message)))
    {cpi : P.Cpi} (below : IssuedBelow relay cpi) {address : P.Address}
    (signs : cpi.instruction.grantsSigner address = true) :
    Authorized relay signatures message address := by
  obtain ⟨execute, ledger, call, issued, permitted⟩ := below
  have listed := executor_unsigned messages issued
  rcases permitted.signer signs with granted | ⟨seeds, given, -⟩
  · exact call.authorized messages decoded granted
  · rw [listed] at given
    cases given

/-- A submission below which something ran decodes to a v1 message. -/
theorem ExecutorCall.decoded (messages : P.MessageLaws) {relay execute : P.Instruction}
    (call : ExecutorCall relay execute) :
    ∃ signatures message, SignerInstruction.tryFromBytes relay.data =
      .ok (.submit signatures (.v1 message)) ∧ P.validate message = .ok () ∧
      relay.accounts.map AccountMeta.pubkey = message.accountKeys := by
  induction call with
  | submitted issued permitted =>
      obtain ⟨signatures, message, ix, decoded, submits, -⟩ :=
        processSignerInstruction_accepts messages (Issued.not_refused_of_mem issued)
      refine ⟨signatures, message, decoded, submits.valid, ?_⟩
      rw [← submits.mirrors, Instruction.views_addresses]
  | nested outer issued permitted itself ih => exact ih

/-- Below a relay transaction's `Submit`, the executor passes an account on as a signer
only if the relay transaction signed for it at a required-signer index of the message,
or it is the PDA of a required signer whose signature over exactly that message
verified. A required signer without a signature never yields its PDA. -/
theorem executor_signers_authorized (messages : P.MessageLaws) (derivation : P.DerivationLaws)
    {relay : P.Instruction}
    (offCurve : ∀ address, relay.grantsSigner address = true →
      ∀ authority, address ≠ deriveAddress P.signerProgram authority)
    {cpi : P.Cpi} (below : IssuedBelow relay cpi) :
    ∃ signatures message,
      SignerInstruction.tryFromBytes relay.data = .ok (.submit signatures (.v1 message)) ∧
      (∀ address, cpi.instruction.grantsSigner address = true →
        (relay.grantsSigner address = true ∧ address ∈ message.signerKeys) ∨
        ∃ (index : Nat) (authority : P.Address) (signature : P.Signature),
          message.signerKeys[index]? = some authority ∧
          signatures[index]? = some (some signature) ∧
          P.verifyStrict authority signature (Platform.serializeV1 message) = true ∧
          address = deriveAddress P.signerProgram authority) ∧
      ∀ (index : Nat) (signer : P.Address), message.signerKeys[index]? = some signer →
        signatures[index]? = some none →
        cpi.instruction.grantsSigner (deriveAddress P.signerProgram signer) = false := by
  obtain ⟨execute, ledger, call, issued, permitted⟩ := below
  obtain ⟨signatures, message, decoded, valid, -⟩ := call.decoded messages
  have formed := messages.wellFormed message valid
  have authorized (address : P.Address) (signs : cpi.instruction.grantsSigner address = true) :=
    IssuedBelow.authorized messages decoded ⟨execute, ledger, call, issued, permitted⟩ signs
  refine ⟨signatures, message, decoded, authorized, ?_⟩
  intro index signer key missing
  rw [Bool.eq_false_iff]
  intro signs
  rcases authorized _ signs with ⟨granted, -⟩ | ⟨other, authority, signature, key', given, -, same⟩
  · exact offCurve _ granted signer rfl
  · obtain rfl := derivation.injective _ _ same
    -- Signer keys are distinct, so both entries sit at one index.
    obtain ⟨inside, here⟩ := List.getElem?_eq_some_iff.mp key
    obtain ⟨inside', here'⟩ := List.getElem?_eq_some_iff.mp key'
    have distinct : message.signerKeys.Nodup := formed.distinct.sublist (List.take_sublist _ _)
    obtain rfl := (distinct.getElem_inj_iff).mp (here.trans here'.symm)
    rw [missing] at given
    cases given

/-- The nonce authority is advanced with as the PDA of the key that signed. -/
theorem executor_signers_authorized_reference :
    Authorized Reference.relay [some Reference.signature] Reference.authorization
      Reference.nonceAuthority := by
  have unsigned (address : Platform.reference.Address) :
      Reference.relay.grantsSigner address = false := by
    rw [Bool.eq_false_iff]
    intro signs
    obtain ⟨account, listed, -, flagged⟩ := Instruction.grantsSigner_iff.mp signs
    have none : ∀ account ∈ Reference.relay.accounts, account.isSigner = false := by decide
    rw [none account listed] at flagged
    cases flagged
  have below : IssuedBelow Reference.relay ⟨NonceClient.advance Reference.nonceAuthority
      Reference.nonceAccount Reference.message.lifetimeSpecifier
      (deriveTransitionCommitment (.v1 Reference.message)), []⟩ := by
    refine ⟨Reference.submission.instruction, Reference.opened, .submitted ?_
      Reference.submission_permitted, ?_, Reference.submission_carries.covers _ List.mem_cons_self⟩
    · rw [Reference.relay_issues]
      exact List.mem_cons_self
    · rw [Reference.submission_issues]
      exact List.mem_cons_self
  obtain ⟨signatures, message, decoded, signers, -⟩ := executor_signers_authorized
    Reference.messageLaws Reference.derivationLaws
    (fun address signs => absurd signs (by simp [unsigned address])) below
  rw [Reference.relay_decoded] at decoded
  obtain ⟨rfl, same⟩ := SignerInstruction.submit.inj (Except.ok.inj decoded)
  obtain rfl := VersionedMessage.v1.inj same
  exact signers _ (Instruction.grantsSigner_iff.mpr ⟨_, List.mem_cons_self, rfl, rfl⟩)

end ProgrammaticSigner
