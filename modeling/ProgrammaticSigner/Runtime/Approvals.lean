import ProgrammaticSigner.Runtime.Calls

set_option autoImplicit false

/- The PDA of a key signs only below a submission that the key approved, whatever programs
a transaction calls, and each message the key signed serves one submission. -/
namespace ProgrammaticSigner

open Outcome

variable {P : Platform}

/-- A `Submit` of a message that the key signed. -/
structure ApprovedBy (authority : P.Address) (submit : P.Instruction) (message : P.Message) :
    Prop where
  program : submit.programId = P.signerProgram
  signed : ∃ signatures, SignerInstruction.tryFromBytes submit.data =
    .ok (.submit signatures (.v1 message)) ∧ ∃ (index : Nat) (signature : P.Signature),
      message.signerKeys[index]? = some authority ∧
      signatures[index]? = some (some signature) ∧
      P.verifyStrict authority signature (Platform.serializeV1 message) = true

/-- The signer privileges of a transaction's invocations. -/
def signing (P : Platform) : Delegation P.Instruction P.Address where
  grants instruction address := instruction.grantsSigner address = true
  adds caller address := ∃ cpi, Makes caller cpi ∧ cpi.signsFor caller.programId address

theorem Makes.permitted {caller : P.Instruction} {cpi : P.Cpi} (makes : Makes caller cpi) :
    cpi.Permitted caller := by
  cases makes <;> assumption

/-- The runtime keeps every CPI within its caller's privileges and PDAs. -/
theorem MadeBy.within {callee caller : P.Instruction} (made : MadeBy callee caller) :
    (signing P).Within callee caller := by
  obtain ⟨cpi, makes, rfl⟩ := made
  intro address signs
  rcases makes.permitted.signer signs with given | own
  · exact .inl given
  · exact .inr ⟨cpi, makes, own⟩

/-- What a made CPI of the signer program comes from. -/
theorem Makes.submission (messages : P.MessageLaws) (programs : P.ProgramLaws)
    {caller : P.Instruction} {cpi : P.Cpi} (makes : Makes caller cpi)
    (program : caller.programId = P.signerProgram) :
    ∃ signatures message ix, SignerInstruction.tryFromBytes caller.data =
        .ok (.submit signatures (.v1 message)) ∧
      Submits caller.views signatures (.v1 message) message ix ∧
      cpi = submitCpi P.signerProgram caller.views signatures message ix := by
  cases makes with
  | executed executor issued permitted =>
      exact absurd (executor.symm.trans program) programs.executor_signer
  | submitted program issued permitted =>
      obtain ⟨signatures, message, ix, decoded, submits, calls⟩ :=
        processSignerInstruction_accepts messages (Issued.not_refused_of_mem issued)
      rw [calls] at issued
      exact ⟨signatures, message, ix, decoded, submits, List.mem_singleton.mp issued⟩
  | other executor signer permitted => exact absurd program signer

/-- A submission signs for the PDAs of the keys whose signature it verified. -/
theorem Submits.signsFor (derivation : P.DerivationLaws) {programAccounts : List P.AccountView}
    {signatures : List (Option P.Signature)} {message : P.Message} {ix : CompiledInstruction}
    {address : P.Address}
    (signs : (submitCpi P.signerProgram programAccounts signatures message ix).signsFor
      P.signerProgram address) :
    ∃ authority ∈ signersWithSignature message.signerKeys signatures,
      address = deriveAddress P.signerProgram authority := by
  obtain ⟨seeds, listed, created⟩ := signs
  obtain ⟨authority, verified, here⟩ := List.mem_flatMap.mp listed
  obtain ⟨index, -, rfl⟩ := List.mem_map.mp here
  refine ⟨authority, verified, ?_⟩
  rw [authoritySeeds, derivation.created authority, Option.some.injEq] at created
  exact created.symm

/-- Only an approved submission signs for the PDA of a key. -/
theorem signing_adds (messages : P.MessageLaws) (programs : P.ProgramLaws)
    (derivation : P.DerivationLaws) (apart : P.DerivesApart) {caller : P.Instruction}
    {authority : P.Address}
    (adds : (signing P).adds caller (deriveAddress P.signerProgram authority)) :
    ∃ message, ApprovedBy authority caller message := by
  obtain ⟨cpi, makes, signs⟩ := adds
  obtain ⟨seeds, listed, created⟩ := id signs
  have program := apart _ _ _ created
  obtain ⟨signatures, message, ix, decoded, submits, rfl⟩ :=
    makes.submission messages programs program
  rw [program] at signs
  obtain ⟨other, verified, same⟩ := Submits.signsFor derivation signs
  obtain rfl := derivation.injective _ _ same
  obtain ⟨index, signature, key, entry⟩ := mem_signersWithSignature.mp verified
  exact ⟨message, program, signatures, decoded, index, signature, key, entry,
    submits.verified messages key entry⟩

/-- What a message's submission invokes: the executor, on the accounts and the data of the
message's one instruction. -/
structure Carried (message : P.Message) (execute : P.Instruction) : Prop where
  program : execute.programId = P.executorProgram
  instruction : ∃ ix, message.instructions = [ix] ∧
    execute.accounts.map AccountMeta.pubkey = ix.accounts.map message.keyAt ∧
    execute.data = ix.data

theorem MadeBy.carried (messages : P.MessageLaws) (programs : P.ProgramLaws)
    {callee submit : P.Instruction} (made : MadeBy callee submit) {authority : P.Address}
    {message : P.Message} (approved : ApprovedBy authority submit message) :
    Carried message callee := by
  obtain ⟨cpi, makes, rfl⟩ := made
  obtain ⟨signatures, found, ix, decoded, submits, rfl⟩ :=
    makes.submission messages programs approved.program
  obtain ⟨signatures', decoded', -⟩ := approved.signed
  rw [decoded] at decoded'
  obtain ⟨rfl, same⟩ := SignerInstruction.submit.inj (Except.ok.inj decoded')
  obtain rfl := VersionedMessage.v1.inj same
  refine ⟨(ExecutorPolicy.validate_ok_iff.mp submits.allowed).1, ix, submits.single, ?_, rfl⟩
  simp only [submitCpi, List.map_map]
  rfl

/-- How an invocation comes to have a key's PDA for a signer: below a submission that the key
approved, whose execution and everything from it down to the invocation has it too. -/
structure Delegated (authority : P.Address) (call : Call P) (submit : P.Instruction)
    (message : P.Message) : Prop where
  approved : ApprovedBy authority submit message
  below : ∃ execute between above,
    call.instruction :: call.callers = between ++ execute :: submit :: above ∧
    Carried message execute ∧ ∀ each ∈ between ++ [execute],
      each.grantsSigner (deriveAddress P.signerProgram authority) = true

/-- A PDA for which an invocation signs is traced back to the submission that promoted it. -/
theorem Rooted.delegated (messages : P.MessageLaws) (programs : P.ProgramLaws)
    (derivation : P.DerivationLaws) (apart : P.DerivesApart) {instructions : List P.Instruction}
    (keyed : ∀ instruction ∈ instructions, ∀ authority,
      instruction.grantsSigner (deriveAddress P.signerProgram authority) = false)
    {call : Call P} (rooted : Rooted instructions (call.instruction :: call.callers))
    {authority : P.Address}
    (signs : call.instruction.grantsSigner (deriveAddress P.signerProgram authority) = true) :
    ∃ submit message, Delegated authority call submit message := by
  have chain := rooted.made.imp fun _ _ made => made.within
  rcases Delegation.traced chain signs with all | ⟨submit, below, above, found⟩
  · -- The outermost invocation is a top-level instruction, for which no PDA signs.
    obtain ⟨outermost, last⟩ : ∃ root, (call.instruction :: call.callers).getLast? = some root :=
      ⟨_, List.getLast?_eq_some_getLast (List.cons_ne_nil _ _)⟩
    have granted := all outermost (List.mem_of_getLast? last)
    have listed := rooted.outermost outermost last
    have none : outermost.grantsSigner (deriveAddress P.signerProgram authority) = false :=
      keyed outermost listed authority
    exact absurd granted (by simp [signing, none])
  · obtain ⟨message, approved⟩ := signing_adds messages programs derivation apart found.adds
    obtain ⟨between, execute, front⟩ := List.eq_nil_or_concat'
      (call.instruction :: below) |>.resolve_left (List.cons_ne_nil _ _)
    have split : call.instruction :: call.callers =
        between ++ execute :: submit :: above := by
      rw [found.callers, ← List.cons_append, front, List.append_assoc]
      rfl
    have made : MadeBy execute submit := by
      have whole := rooted.made
      rw [split] at whole
      exact (List.isChain_append_cons_cons.mp whole).2.1
    exact ⟨submit, message, approved, execute, between, above, split,
      made.carried messages programs approved, front ▸ found.grants⟩

/-- In any transaction, whatever programs call each other in it, the PDA of a key is a signer
of an invocation only below a submission of a message that the key signed, and only of that
message's execution and what is called from there. -/
theorem programmatic_signer_delegated (messages : P.MessageLaws) (programs : P.ProgramLaws)
    (derivation : P.DerivationLaws) (apart : P.DerivesApart) {sysvars : P.Sysvars}
    {ledger : P.Ledger} {instructions : List P.Instruction} {marks : List (Mark P)}
    {calls : List (Call P)} {final : CallStack P}
    (keyed : ∀ instruction ∈ instructions, ∀ authority,
      instruction.grantsSigner (deriveAddress P.signerProgram authority) = false)
    (run : CallRun sysvars ⟨ledger, instructions.map Frame.root⟩ marks calls final)
    {call : Call P} (member : call ∈ calls) {authority : P.Address}
    (signs : call.instruction.grantsSigner (deriveAddress P.signerProgram authority) = true) :
    ∃ submit message, Delegated authority call submit message := by
  have rooted := run.rooted (CallStack.rooted_roots ledger instructions) call member
  exact rooted.delegated messages programs derivation apart keyed signs

/-- The PDA signs the nonce's advance below the submission of the message its key signed. -/
theorem programmatic_signer_delegated_relay : ∃ submit message,
    Delegated (30 : Nat) (⟨[Apart.submission.instruction, Apart.relay], Apart.advance⟩ :
      Call .apart) submit message := by
  refine programmatic_signer_delegated Apart.messageLaws Apart.programLaws Apart.derivationLaws
    Apart.derivesApart ?_ Apart.submitting (List.mem_cons_of_mem _ (List.mem_cons_of_mem _
      List.mem_cons_self)) ?_
  · intro instruction member authority
    obtain rfl := List.mem_singleton.mp member
    exact Apart.instructions_keyed (by decide) _
  · exact Instruction.grantsSigner_iff.mpr ⟨_, List.mem_cons_self, rfl, rfl⟩

/-- A required signer of the message whose given signature verifies. -/
def approves (authority : P.Address) (signatures : List (Option P.Signature))
    (message : P.Message) : Bool :=
  (message.signerKeys.zip signatures).any fun pair => pair.1 = authority &&
    pair.2.any fun signature => P.verifyStrict authority signature (Platform.serializeV1 message)

/-- The message that an instruction submits with the key's approval. -/
def approvedMessage (authority : P.Address) (instruction : P.Instruction) : Option P.Message :=
  if instruction.programId = P.signerProgram then
    match SignerInstruction.tryFromBytes (P := P) instruction.data with
    | .ok (.submit signatures (.v1 message)) =>
        if approves authority signatures message then some message else none
    | _ => none
  else none

/-- The messages that a key approved among some calls. -/
def approvedMessages (authority : P.Address) (calls : List (Call P)) : List P.Message :=
  calls.filterMap fun call => approvedMessage authority call.instruction

theorem approves_eq_true_iff {authority : P.Address} {signatures : List (Option P.Signature)}
    {message : P.Message} :
    approves authority signatures message = true ↔
      ∃ (index : Nat) (signature : P.Signature), message.signerKeys[index]? = some authority ∧
        signatures[index]? = some (some signature) ∧
        P.verifyStrict authority signature (Platform.serializeV1 message) = true := by
  simp only [approves, List.any_eq_true, Bool.and_eq_true, decide_eq_true_eq, Option.any_eq_true,
    List.mem_iff_getElem?, Prod.exists, List.getElem?_zip_eq_some]
  constructor
  · rintro ⟨key, entry, ⟨index, found, given⟩, rfl, signature, rfl, verified⟩
    exact ⟨index, signature, found, given, verified⟩
  · rintro ⟨index, signature, found, given, verified⟩
    exact ⟨authority, some signature, ⟨index, found, given⟩, rfl, signature, rfl, verified⟩

theorem approvedMessage_eq_some_iff {authority : P.Address} {instruction : P.Instruction}
    {message : P.Message} :
    approvedMessage authority instruction = some message ↔
      ApprovedBy authority instruction message := by
  unfold approvedMessage
  constructor
  · intro found
    split at found
    · rename_i program
      split at found
      · rename_i signatures submitted decoded
        obtain ⟨approved, same⟩ := Option.ite_none_right_eq_some.mp found
        obtain rfl := Option.some.inj same
        exact ⟨program, signatures, decoded, approves_eq_true_iff.mp approved⟩
      · cases found
    · cases found
  · rintro ⟨program, signatures, decoded, signed⟩
    simp only [program, decoded, if_true, approves_eq_true_iff.mpr signed]

/-- An approved message of a step is on its record. -/
theorem CallStep.approved_submitted (programs : P.ProgramLaws) {sysvars : P.Sysvars}
    {stack next : CallStack P} {marks : List (Mark P)} {calls : List (Call P)}
    (step : CallStep sysvars stack marks calls next) (authority : P.Address) :
    ((approvedMessages authority calls).map VersionedMessage.v1).Sublist (submittedBy marks) := by
  cases step with
  | @step ledger final frame rest body marks machine permitted =>
      unfold approvedMessages Frame.calls
      split
      · rename_i instruction same
        rw [List.filterMap_cons]
        split
        · exact List.nil_sublist _
        · rename_i message found
          obtain ⟨program, signatures, decoded, -⟩ := approvedMessage_eq_some_iff.mp found
          rw [same] at machine
          generalize body ++ rest.map Frame.task = tasks at machine
          cases machine with
          | nonce other => exact absurd (other.symm.trans program) programs.nonce_signer
          | execute other => exact absurd (other.symm.trans program) programs.executor_signer
          | submit own returned allowed =>
              simp only [submittedMarks, decoded, submittedBy, List.filterMap_cons,
                List.filterMap_nil, List.map_cons, List.map_nil]
              exact List.Sublist.refl _
          | other others => exact absurd program others.2.2
      · exact List.nil_sublist _

theorem approvedMessages_append (authority : P.Address) (early late : List (Call P)) :
    approvedMessages authority (early ++ late) =
      approvedMessages authority early ++ approvedMessages authority late :=
  List.filterMap_append

theorem CallRun.approved_submitted (programs : P.ProgramLaws) {sysvars : P.Sysvars}
    {stack final : CallStack P} {marks : List (Mark P)} {calls : List (Call P)}
    (run : CallRun sysvars stack marks calls final) (authority : P.Address) :
    ((approvedMessages authority calls).map VersionedMessage.v1).Sublist (submittedBy marks) := by
  induction run with
  | nil => exact List.nil_sublist _
  | cons step rest ih =>
      rw [approvedMessages_append, List.map_append, submittedBy_append]
      exact (step.approved_submitted programs authority).append ih

theorem History.approved_submitted (programs : P.ProgramLaws) {timeline : Timeline P}
    {start final : World P} {marks : List (Mark P)} {calls : List (Call P)}
    (history : History timeline start marks calls final) (authority : P.Address) :
    ((approvedMessages authority calls).map VersionedMessage.v1).Sublist (submittedBy marks) := by
  induction history with
  | nil => exact List.nil_sublist _
  | cons step rest ih =>
      rw [approvedMessages_append, List.map_append, submittedBy_append]
      refine List.Sublist.append ?_ ih
      cases step with
      | committed keyed run => exact run.approved_submitted programs authority
      | aborted => exact List.nil_sublist _
      | others => exact List.nil_sublist _
      | later => exact List.nil_sublist _

/-- Every caller on a stack has been called. -/
def CallStack.Called (stack : CallStack P) (instructions : List P.Instruction) : Prop :=
  ∀ frame ∈ stack.frames, ∀ caller ∈ frame.callers, caller ∈ instructions

theorem CallStep.called {sysvars : P.Sysvars} {stack next : CallStack P} {marks : List (Mark P)}
    {calls : List (Call P)} (step : CallStep sysvars stack marks calls next)
    {instructions : List P.Instruction} (called : stack.Called instructions) :
    next.Called (instructions ++ calls.map Call.instruction) ∧
      ∀ call ∈ calls, ∀ caller ∈ call.callers, caller ∈ instructions := by
  cases step with
  | @step ledger final frame rest body marks machine permitted =>
      have here := called frame List.mem_cons_self
      constructor
      · intro other member caller listed
        rcases List.mem_append.mp member with new | old
        · obtain ⟨task, -, rfl⟩ := List.mem_map.mp new
          unfold Frame.below Frame.calls at *
          split at listed
          · rename_i instruction same
            rcases List.mem_cons.mp listed with rfl | outer
            · simp
            · exact List.mem_append_left _ (here caller outer)
          · exact List.mem_append_left _ (here caller listed)
        · exact List.mem_append_left _ (called other (List.mem_cons_of_mem _ old) caller listed)
      · intro call member
        unfold Frame.calls at member
        split at member
        · obtain rfl := List.mem_singleton.mp member
          exact here
        · cases member

theorem CallRun.called {sysvars : P.Sysvars} {stack final : CallStack P} {marks : List (Mark P)}
    {calls : List (Call P)} (run : CallRun sysvars stack marks calls final)
    {instructions : List P.Instruction} (called : stack.Called instructions) :
    ∀ call ∈ calls, ∀ caller ∈ call.callers,
      caller ∈ instructions ++ calls.map Call.instruction := by
  induction run generalizing instructions with
  | nil => simp
  | cons step rest ih =>
      obtain ⟨next, here⟩ := step.called called
      intro call member caller listed
      rcases List.mem_append.mp member with first | later
      · exact List.mem_append_left _ (here call first caller listed)
      · rw [List.map_append, ← List.append_assoc]
        exact ih next call later caller listed

/-- The submission stands among the callers. -/
theorem Delegated.caller {authority : P.Address} {call : Call P} {submit : P.Instruction}
    {message : P.Message} (delegated : Delegated authority call submit message) :
    submit ∈ call.callers := by
  obtain ⟨execute, between, above, split, -⟩ := delegated.below
  have tail := congrArg List.tail split
  rw [List.tail_cons] at tail
  rw [tail]
  cases between with
  | nil => exact List.mem_cons_self
  | cons first others =>
      exact List.mem_append_right _ (List.mem_cons_of_mem _ List.mem_cons_self)

section Approved

variable (messages : P.MessageLaws) (programs : P.ProgramLaws) (derivation : P.DerivationLaws)
  (apart : P.DerivesApart)
include messages programs derivation apart

/-- In a transaction, the submission a PDA signs below is one of its calls. -/
theorem CallRun.delegated {sysvars : P.Sysvars} {ledger : P.Ledger}
    {instructions : List P.Instruction} {marks : List (Mark P)} {calls : List (Call P)}
    {final : CallStack P}
    (keyed : ∀ instruction ∈ instructions, ∀ authority,
      instruction.grantsSigner (deriveAddress P.signerProgram authority) = false)
    (run : CallRun sysvars ⟨ledger, instructions.map Frame.root⟩ marks calls final)
    {call : Call P} (member : call ∈ calls) {authority : P.Address}
    (signs : call.instruction.grantsSigner (deriveAddress P.signerProgram authority) = true) :
    ∃ submit message, Delegated authority call submit message ∧
      message ∈ approvedMessages authority calls := by
  obtain ⟨submit, message, delegated⟩ :=
    (run.rooted (CallStack.rooted_roots _ _) call member).delegated messages programs derivation
      apart keyed signs
  have roots : CallStack.Called ⟨ledger, instructions.map Frame.root⟩ [] := by
    intro frame listed caller member
    obtain ⟨instruction, -, rfl⟩ := List.mem_map.mp listed
    cases member
  have called := run.called roots call member submit delegated.caller
  rw [List.nil_append] at called
  obtain ⟨other, listed, rfl⟩ := List.mem_map.mp called
  exact ⟨_, message, delegated, List.mem_filterMap.mpr ⟨other, listed,
    approvedMessage_eq_some_iff.mpr delegated.approved⟩⟩

theorem History.delegated {timeline : Timeline P} {start final : World P} {marks : List (Mark P)}
    {calls : List (Call P)} (history : History timeline start marks calls final) {call : Call P}
    (member : call ∈ calls) {authority : P.Address}
    (signs : call.instruction.grantsSigner (deriveAddress P.signerProgram authority) = true) :
    ∃ submit message, Delegated authority call submit message ∧
      message ∈ approvedMessages authority calls := by
  induction history with
  | nil => cases member
  | cons step rest ih =>
      rw [approvedMessages_append]
      rcases List.mem_append.mp member with now | later
      · cases step with
        | committed keyed run =>
            obtain ⟨submit, message, delegated, listed⟩ :=
              run.delegated messages programs derivation apart keyed now signs
            exact ⟨submit, message, delegated, List.mem_append_left _ listed⟩
        | aborted => cases now
        | others => cases now
        | later => cases now
      · obtain ⟨submit, message, delegated, listed⟩ := ih later
        exact ⟨submit, message, delegated, List.mem_append_right _ listed⟩

end Approved

/-- The chain from genesis, as the invariant of its runs starts. -/
theorem Genesis.settled (keys : P.KeyLaws) (hashes : P.HashLaws) (timeline : Timeline P)
    {world : World P} (genesis : Genesis world.ledger) :
    Settled keys hashes timeline world [] [] [] [] :=
  ⟨genesis.fresh keys hashes timeline, genesis.allFunded, List.nodup_nil, by simp, by simp,
    [], List.nodup_nil, by simp, .inl rfl⟩

/-- Between transactions, no message has been submitted twice. -/
theorem Settled.submitted_nodup {keys : P.KeyLaws} {hashes : P.HashLaws} {timeline : Timeline P}
    {world : World P} {stored consumed : List (P.Address × P.Hash)}
    {submitted : List P.VersionedMessage}
    (settled : Settled keys hashes timeline world [] stored consumed submitted) :
    submitted.Nodup := by
  obtain ⟨done, once, -, finished | ⟨message, -, instruction, others, none, -⟩⟩ :=
    settled.messages
  · exact finished ▸ once
  · cases none

/-- Over the whole life of the chain, each message that a key signed lets its PDA sign below
one submission at most: the PDA signs only below such submissions, no two are of the same
message, and so they are no more than the messages the key signed. -/
theorem approvals_bounded (keys : P.KeyLaws) (hashes : P.HashLaws) (messages : P.MessageLaws)
    (programs : P.ProgramLaws) (derivation : P.DerivationLaws) (apart : P.DerivesApart)
    {timeline : Timeline P} (distinct : timeline.Distinct) {start final : World P}
    {marks : List (Mark P)} {calls : List (Call P)} (genesis : Genesis start.ledger)
    (history : History timeline start marks calls final) (authority : P.Address) :
    (approvedMessages authority calls).Nodup ∧
    (∀ signed : List P.Message, (∀ message signature,
        P.verifyStrict authority signature (Platform.serializeV1 message) = true →
          message ∈ signed) → (approvedMessages authority calls).length ≤ signed.length) ∧
    ∀ call ∈ calls, call.instruction.grantsSigner (deriveAddress P.signerProgram authority) =
        true → ∃ submit message, Delegated authority call submit message ∧
      message ∈ approvedMessages authority calls := by
  have once : (approvedMessages authority calls).Nodup := by
    obtain ⟨stored, settled⟩ := history.chain.settled messages programs distinct
      (genesis.settled keys hashes timeline)
    have submitted := settled.submitted_nodup
    rw [List.nil_append] at submitted
    exact (submitted.sublist (history.approved_submitted programs authority)).of_map
  refine ⟨once, ?_, ?_⟩
  · intro signed every
    refine (once.subperm fun message member => ?_).length_le
    obtain ⟨call, -, found⟩ := List.mem_filterMap.mp member
    obtain ⟨-, signatures, -, index, signature, -, -, verified⟩ :=
      approvedMessage_eq_some_iff.mp found
    exact every message signature verified
  · intro call member signs
    exact history.delegated messages programs derivation apart member signs

/-- The nonce's advance stands below the one submission that the key approved. -/
theorem approvals_bounded_relay : ∃ submit message,
    Delegated (30 : Nat) (⟨[Apart.submission.instruction, Apart.relay], Apart.advance⟩ :
      Call .apart) submit message ∧
    message ∈ approvedMessages (P := .apart) (30 : Nat)
      (⟨[], NonceClient.initializeNonce Apart.nonceAccount Apart.nonceAuthority⟩ ::
        (Apart.submissionCalls ++ [])) := by
  refine (approvals_bounded Apart.keyLaws Apart.hashLaws Apart.messageLaws Apart.programLaws
    Apart.derivationLaws Apart.derivesApart Apart.timeline_distinct Apart.genesis Apart.history
    (30 : Nat)).2.2 _ ?_ ?_
  · exact List.mem_cons_of_mem _ (List.mem_cons_of_mem _ (List.mem_cons_of_mem _
      List.mem_cons_self))
  · exact Instruction.grantsSigner_iff.mpr ⟨_, List.mem_cons_self, rfl, rfl⟩

end ProgrammaticSigner
