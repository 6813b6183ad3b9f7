import ProgrammaticSigner.Runtime.Machine

set_option autoImplicit false

/- No execution is replayed. An execution consumes a value its nonce account holds and
advances it at once; the account never holds that value again. -/
namespace ProgrammaticSigner

open Outcome

variable {P : Platform}

/-- The account at the address no longer holds the value. -/
def Spent (ledger : P.Ledger) (pair : P.Address × P.Hash) : Prop :=
  ∀ state, Initialized (ledger pair.1) state → state.nonce ≠ pair.2

section Spending

variable {keys : P.KeyLaws} {hashes : P.HashLaws} {timeline : Timeline P}

/-- What is stored next is none of the values stored before. -/
theorem Fresh.new_value (distinct : timeline.Distinct) {transition : Transition P}
    {stored : List (P.Address × P.Hash)}
    (fresh : Fresh keys hashes timeline transition.before stored)
    (effect : StoreEffect timeline transition) {old new : P.Address × P.Hash}
    (listed : old ∈ stored) (added : new ∈ transition.stored) : old.2 ≠ new.2 := by
  have unique := (fresh.step distinct effect).unique
  rw [List.map_append, List.nodup_append] at unique
  exact unique.2.2 _ (List.mem_map_of_mem listed) _ (List.mem_map_of_mem added)

/-- A spent value stays spent. -/
theorem Spent.step (distinct : timeline.Distinct) {transition : Transition P}
    {stored : List (P.Address × P.Hash)}
    (fresh : Fresh keys hashes timeline transition.before stored)
    (effect : StoreEffect timeline transition) {pair : P.Address × P.Hash}
    (listed : pair ∈ stored) (spent : Spent transition.before.ledger pair) :
    Spent transition.after.ledger pair := by
  have new {state : P.Nonce} {address : P.Address}
      (added : (address, state.nonce) ∈ transition.stored) : state.nonce ≠ pair.2 :=
    (fresh.new_value distinct effect listed added).symm
  intro state held
  cases effect with
  | nothing _ _ fewer => exact spent state (fewer pair.1 state held)
  | @initialized address found _ stored _ others _ now =>
      by_cases here : pair.1 = address
      · rw [here] at held
        rw [held.unique now]
        exact new (stored ▸ List.mem_cons_self)
      · rw [others pair.1 here] at held
        exact spent state held
  | @advanced address _ found _ stored _ others _ now =>
      by_cases here : pair.1 = address
      · rw [here] at held
        rw [held.unique now]
        exact new (stored ▸ List.mem_cons_self)
      · rw [others pair.1 here] at held
        exact spent state held

end Spending

/-- A committed `Advance` spends the value it presents. -/
theorem advance_spends (keys : P.KeyLaws) (hashes : P.HashLaws) {sysvars : P.Sysvars}
    {ledger final : P.Ledger} {authority nonceAccount : P.Address} {nonce commitment : P.Hash}
    (committed : invokeNonce sysvars ledger
      (NonceClient.advance authority nonceAccount nonce commitment) = .ok final) :
    Spent final (nonceAccount, nonce) := by
  obtain ⟨state, held, rfl, rfl, rfl⟩ := (invokeNonce_advance_ok_iff keys).mp committed
  intro next advanced
  rw [advanceLedger, Function.update_self] at advanced
  obtain ⟨rfl, -⟩ := view_sized advanced.2
  exact deriveNextNonce_ne keys hashes state nonceAccount commitment

/-- The next task advances this account from this value. -/
def AdvancePending (tasks : List (Task P)) (pair : P.Address × P.Hash) : Prop :=
  ∃ authority commitment rest,
    tasks = .invoke (NonceClient.advance authority pair.1 pair.2 commitment) :: rest

/-- What the execution of an authorization message consumes. -/
def messageTarget (message : P.VersionedMessage) : Option (P.Address × P.Hash) :=
  match message with
  | .v1 message =>
      match message.instructions with
      | [ix] => executeTarget (ix.accounts.map message.keyAt) ix.data
      | _ => none
  | _ => none

/-- The next task is the execution of this authorization message. -/
def ExecutePending (tasks : List (Task P)) (message : P.VersionedMessage) : Prop :=
  ∃ instruction rest, tasks = .invoke instruction :: rest ∧
    instruction.programId = P.executorProgram ∧
    executeTarget (instruction.accounts.map AccountMeta.pubkey) instruction.data =
      messageTarget message

/-- Between two steps: what was consumed is spent, up to the advance that comes next,
and what was submitted was consumed, up to the execution that comes next. -/
structure Settled (keys : P.KeyLaws) (hashes : P.HashLaws) (timeline : Timeline P)
    (world : World P) (tasks : List (Task P)) (stored consumed : List (P.Address × P.Hash))
    (submitted : List P.VersionedMessage) : Prop where
  fresh : Fresh keys hashes timeline world stored
  funded : AllFunded world.ledger
  once : consumed.Nodup
  listed : ∀ pair ∈ consumed, pair ∈ stored
  spent : ∀ pair ∈ consumed, Spent world.ledger pair ∨ AdvancePending tasks pair
  messages : ∃ settled, settled.Nodup ∧
    (∀ message ∈ settled, ∃ pair ∈ consumed, messageTarget message = some pair) ∧
    (submitted = settled ∨ ∃ message, submitted = settled ++ [message] ∧
      ExecutePending tasks message)

section Step

variable {keys : P.KeyLaws} {hashes : P.HashLaws} {timeline : Timeline P} {world : World P}
  {tasks : List (Task P)} {stored consumed : List (P.Address × P.Hash)}
  {submitted : List P.VersionedMessage}

/-- A transition that leaves nothing pending behind the one pending task. -/
theorem Settled.transition (distinct : timeline.Distinct)
    (settled : Settled keys hashes timeline world tasks stored consumed submitted)
    {event : NonceEvent P} {next : World P}
    (valid : Transition.Valid timeline ⟨world, event, next⟩)
    (advances : ∀ pair, AdvancePending tasks pair → Spent next.ledger pair)
    (idle : ∀ message, ¬ ExecutePending tasks message) (rest : List (Task P)) :
    ∃ stored', Settled keys hashes timeline next rest stored' consumed submitted := by
  have effect := valid.storeEffect settled.funded
  refine ⟨stored ++ Transition.stored ⟨world, event, next⟩, settled.fresh.step distinct effect,
    valid.allFunded settled.funded, settled.once,
    fun pair member => List.mem_append_left _ (settled.listed pair member), ?_, ?_⟩
  · intro pair member
    rcases settled.spent pair member with spent | pending
    · exact .inl (spent.step distinct settled.fresh effect (settled.listed pair member))
    · exact .inl (advances pair pending)
  · obtain ⟨done, once, targets, finished | ⟨message, -, pending⟩⟩ := settled.messages
    · exact ⟨done, once, targets, .inl finished⟩
    · exact absurd pending (idle message)

/-- Other tasks on the stack change nothing that has settled. -/
theorem Settled.replace (settled : Settled keys hashes timeline world tasks stored consumed
      submitted) (noAdvance : ∀ pair, ¬ AdvancePending tasks pair)
    (idle : ∀ message, ¬ ExecutePending tasks message) (fresh : List (Task P)) :
    Settled keys hashes timeline world fresh stored consumed submitted := by
  refine ⟨settled.fresh, settled.funded, settled.once, settled.listed, ?_, ?_⟩
  · intro pair member
    exact .inl ((settled.spent pair member).resolve_right (noAdvance pair))
  · obtain ⟨done, once, targets, finished | ⟨message, -, pending⟩⟩ := settled.messages
    · exact ⟨done, once, targets, .inl finished⟩
    · exact absurd pending (idle message)

theorem not_advancePending {instruction : P.Instruction} {rest : List (Task P)}
    (program : instruction.programId ≠ P.nonceProgram) (pair : P.Address × P.Hash) :
    ¬ AdvancePending (.invoke instruction :: rest) pair := by
  rintro ⟨authority, commitment, others, same⟩
  obtain ⟨head, -⟩ := List.cons.inj same
  exact program (congrArg Instruction.programId (Task.invoke.inj head))

theorem not_executePending {instruction : P.Instruction} {rest : List (Task P)}
    (program : instruction.programId ≠ P.executorProgram) (message : P.VersionedMessage) :
    ¬ ExecutePending (.invoke instruction :: rest) message := by
  rintro ⟨other, others, same, executor, -⟩
  obtain ⟨head, -⟩ := List.cons.inj same
  exact program (Task.invoke.inj head ▸ executor)

/-- An accepted execution consumes a value its nonce account holds, and advances next. -/
theorem execute_consumes (messages : P.MessageLaws) {ledger : P.Ledger}
    {instruction : P.Instruction}
    (returned : (processExecutorInstruction ledger instruction.views instruction.data).result =
      .ok ()) :
    ∃ nonceAccount state, Initialized (ledger nonceAccount) state ∧
      executeTarget (instruction.accounts.map AccountMeta.pubkey) instruction.data =
        some (nonceAccount, state.nonce) ∧
      ∀ rest, AdvancePending (callTasks (processExecutorInstruction ledger instruction.views
        instruction.data).calls ++ rest) (nonceAccount, state.nonce) := by
  obtain ⟨authority, nonceAccount, message, state, decoded, executes, calls⟩ :=
    processExecutorInstruction_accepts messages (Issued.not_refused_of_ok returned)
  refine ⟨nonceAccount.address, state, executes.stored, ?_, ?_⟩
  · obtain ⟨program, others, shape, -, -⟩ := executes.shape
    have addresses := congrArg (List.map AccountView.address) shape
    rw [Instruction.views_addresses] at addresses
    simp only [addresses, List.map_cons, executeTarget, decoded, executes.current]
  · intro rest
    rw [calls, ← executes.current]
    exact ⟨authority.address, deriveTransitionCommitment (.v1 message), _, rfl⟩

/-- An accepted submission executes its own message next. -/
theorem submit_executes (messages : P.MessageLaws) {instruction : P.Instruction}
    (returned : (processSignerInstruction P.signerProgram instruction.views
      instruction.data).result = .ok ()) :
    ∃ message, submittedMarks instruction = [.submitted message] ∧
      ∀ rest, ExecutePending (callTasks (processSignerInstruction P.signerProgram
        instruction.views instruction.data).calls ++ rest) message := by
  obtain ⟨signatures, message, ix, decoded, submits, calls⟩ :=
    processSignerInstruction_accepts messages (Issued.not_refused_of_ok returned)
  refine ⟨.v1 message, by simp only [submittedMarks, decoded], ?_⟩
  intro rest
  rw [calls]
  refine ⟨_, _, rfl, (ExecutorPolicy.validate_ok_iff.mp submits.allowed).1, ?_⟩
  simp only [messageTarget, submits.single, submitCpi, List.map_map]
  rfl

end Step

section Run

variable {keys : P.KeyLaws} {hashes : P.HashLaws} {timeline : Timeline P}

theorem Settled.execute (messages : P.MessageLaws) (programs : P.ProgramLaws) {world : World P}
    {instruction : P.Instruction} {rest : List (Task P)}
    {stored consumed : List (P.Address × P.Hash)} {submitted : List P.VersionedMessage}
    (settled : Settled keys hashes timeline world (.invoke instruction :: rest) stored consumed
      submitted)
    (program : instruction.programId = P.executorProgram)
    (returned : (processExecutorInstruction world.ledger instruction.views
      instruction.data).result = .ok ()) :
    Settled keys hashes timeline world
      (callTasks (processExecutorInstruction world.ledger instruction.views
        instruction.data).calls ++ rest)
      stored (consumed ++ consumedBy (executedMarks instruction))
      (submitted ++ submittedBy (executedMarks instruction)) := by
  obtain ⟨nonceAccount, state, held, target, advances⟩ := execute_consumes messages returned
  have marks : executedMarks instruction = [.executed nonceAccount state.nonce] := by
    simp only [executedMarks, target]
  have unspent (pair : P.Address × P.Hash) (member : pair ∈ consumed) :
      Spent world.ledger pair :=
    (settled.spent pair member).resolve_right
      (not_advancePending (program ▸ programs.nonce_executor.symm) pair)
  have unconsumed : (nonceAccount, state.nonce) ∉ consumed := by
    intro member
    exact unspent _ member state held rfl
  rw [marks]
  simp only [consumedBy, submittedBy, List.filterMap_cons, List.filterMap_nil, List.append_nil]
  refine ⟨settled.fresh, settled.funded, ?_, ?_, ?_, ?_⟩
  · exact List.nodup_append.mpr ⟨settled.once, List.nodup_singleton _, by
      rintro pair member other new rfl
      obtain rfl := List.mem_singleton.mp new
      exact unconsumed member⟩
  · intro pair member
    rcases List.mem_append.mp member with old | new
    · exact settled.listed pair old
    · obtain rfl := List.mem_singleton.mp new
      exact (settled.fresh.current nonceAccount state held).1
  · intro pair member
    rcases List.mem_append.mp member with old | new
    · exact .inl (unspent pair old)
    · obtain rfl := List.mem_singleton.mp new
      exact .inr (advances rest)
  · obtain ⟨done, once, targets, finished | ⟨message, last, pending⟩⟩ := settled.messages
    · refine ⟨done, once, ?_, .inl finished⟩
      intro message member
      obtain ⟨pair, listed, same⟩ := targets message member
      exact ⟨pair, List.mem_append_left _ listed, same⟩
    · obtain ⟨other, others, same, -, named⟩ := pending
      obtain ⟨head, -⟩ := List.cons.inj same
      obtain rfl := Task.invoke.inj head
      rw [target] at named
      refine ⟨done ++ [message], ?_, ?_, .inl last⟩
      · refine List.nodup_append.mpr ⟨once, List.nodup_singleton _, ?_⟩
        rintro old member new added rfl
        obtain rfl := List.mem_singleton.mp added
        obtain ⟨pair, listed, same⟩ := targets old member
        rw [← named, Option.some.injEq] at same
        exact unconsumed (same ▸ listed)
      · intro found member
        rcases List.mem_append.mp member with old | new
        · obtain ⟨pair, listed, same⟩ := targets found old
          exact ⟨pair, List.mem_append_left _ listed, same⟩
        · obtain rfl := List.mem_singleton.mp new
          exact ⟨_, List.mem_append_right _ List.mem_cons_self, named.symm⟩

theorem Settled.submit (messages : P.MessageLaws) (programs : P.ProgramLaws) {world : World P}
    {instruction : P.Instruction} {rest : List (Task P)}
    {stored consumed : List (P.Address × P.Hash)} {submitted : List P.VersionedMessage}
    (settled : Settled keys hashes timeline world (.invoke instruction :: rest) stored consumed
      submitted)
    (program : instruction.programId = P.signerProgram)
    (returned : (processSignerInstruction P.signerProgram instruction.views
      instruction.data).result = .ok ()) :
    Settled keys hashes timeline world
      (callTasks (processSignerInstruction P.signerProgram instruction.views
        instruction.data).calls ++ rest)
      stored (consumed ++ consumedBy (submittedMarks instruction))
      (submitted ++ submittedBy (submittedMarks instruction)) := by
  obtain ⟨message, marks, executes⟩ := submit_executes messages returned
  have quiet := settled.replace
    (not_advancePending (program ▸ programs.nonce_signer.symm))
    (not_executePending (program ▸ programs.executor_signer.symm)) []
  rw [marks]
  simp only [consumedBy, submittedBy, List.filterMap_cons, List.filterMap_nil, List.append_nil]
  have unspent (pair : P.Address × P.Hash) (member : pair ∈ consumed) :
      Spent world.ledger pair := by
    refine (quiet.spent pair member).resolve_right ?_
    rintro ⟨authority, commitment, others, none⟩
    cases none
  refine ⟨settled.fresh, settled.funded, settled.once, settled.listed,
    fun pair member => .inl (unspent pair member), ?_⟩
  obtain ⟨done, once, targets, finished | ⟨other, -, pending⟩⟩ := quiet.messages
  · exact ⟨done, once, targets, .inr ⟨message, by rw [finished], executes rest⟩⟩
  · obtain ⟨_, _, none, -⟩ := pending
    cases none

/-- One step keeps everything settled. -/
theorem Settled.step (messages : P.MessageLaws) (programs : P.ProgramLaws)
    (distinct : timeline.Distinct) {slot : UInt64} {machine next : Machine P}
    {marks : List (Mark P)} {stored consumed : List (P.Address × P.Hash)}
    {submitted : List P.VersionedMessage}
    (settled : Settled keys hashes timeline ⟨slot, machine.ledger⟩ machine.tasks stored consumed
      submitted)
    (step : MachineStep (timeline.sysvars slot) machine marks next) :
    ∃ stored', Settled keys hashes timeline ⟨slot, next.ledger⟩ next.tasks stored'
      (consumed ++ consumedBy marks) (submitted ++ submittedBy marks) := by
  cases step with
  | @nonce ledger final instruction rest program committed =>
      simp only [consumedBy, submittedBy, List.filterMap_nil, List.append_nil]
      refine settled.transition distinct (.invoked program committed) ?_ ?_ rest
      · rintro pair ⟨authority, commitment, others, same⟩
        obtain ⟨head, -⟩ := List.cons.inj same
        obtain rfl := Task.invoke.inj head
        exact advance_spends keys hashes committed
      · exact not_executePending (program ▸ programs.nonce_executor)
  | execute program returned permitted =>
      exact ⟨stored, settled.execute messages programs program returned⟩
  | submit program returned permitted =>
      exact ⟨stored, settled.submit messages programs program returned⟩
  | other program =>
      simp only [consumedBy, submittedBy, List.filterMap_nil, List.append_nil]
      exact ⟨stored, settled.replace (not_advancePending program.1)
        (not_executePending program.2.1) _⟩
  | @effects ledger final rest foreign =>
      simp only [consumedBy, submittedBy, List.filterMap_nil, List.append_nil]
      refine settled.transition distinct (.others foreign) ?_ ?_ rest
      · rintro pair ⟨authority, commitment, others, same⟩
        cases (List.cons.inj same).1
      · rintro message ⟨instruction, others, same, -⟩
        cases (List.cons.inj same).1

theorem consumedBy_append (early late : List (Mark P)) :
    consumedBy (early ++ late) = consumedBy early ++ consumedBy late :=
  List.filterMap_append

theorem submittedBy_append (early late : List (Mark P)) :
    submittedBy (early ++ late) = submittedBy early ++ submittedBy late :=
  List.filterMap_append

theorem MachineRun.settled (messages : P.MessageLaws) (programs : P.ProgramLaws)
    (distinct : timeline.Distinct) {slot : UInt64} {machine final : Machine P}
    {marks : List (Mark P)} (run : MachineRun (timeline.sysvars slot) machine marks final)
    {stored consumed : List (P.Address × P.Hash)} {submitted : List P.VersionedMessage}
    (settled : Settled keys hashes timeline ⟨slot, machine.ledger⟩ machine.tasks stored consumed
      submitted) :
    ∃ stored', Settled keys hashes timeline ⟨slot, final.ledger⟩ final.tasks stored'
      (consumed ++ consumedBy marks) (submitted ++ submittedBy marks) := by
  induction run generalizing stored consumed submitted with
  | nil => exact ⟨stored, by simpa [consumedBy, submittedBy] using settled⟩
  | cons step rest ih =>
      obtain ⟨next, reached⟩ := settled.step messages programs distinct step
      rw [consumedBy_append, submittedBy_append, ← List.append_assoc, ← List.append_assoc]
      exact ih reached

/-- Between transactions nothing is pending. -/
theorem ChainStep.settled (messages : P.MessageLaws) (programs : P.ProgramLaws)
    (distinct : timeline.Distinct) {world next : World P} {marks : List (Mark P)}
    (step : ChainStep timeline world marks next)
    {stored consumed : List (P.Address × P.Hash)} {submitted : List P.VersionedMessage}
    (settled : Settled keys hashes timeline world [] stored consumed submitted) :
    ∃ stored', Settled keys hashes timeline next [] stored' (consumed ++ consumedBy marks)
      (submitted ++ submittedBy marks) := by
  have noAdvance (pair : P.Address × P.Hash) : ¬ AdvancePending [] pair := by
    rintro ⟨authority, commitment, others, none⟩
    cases none
  have idle (message : P.VersionedMessage) : ¬ ExecutePending [] message := by
    rintro ⟨instruction, others, none, -⟩
    cases none
  cases step with
  | committed run => exact run.settled messages programs distinct (settled.replace noAdvance idle _)
  | aborted => exact ⟨stored, by simpa [consumedBy, submittedBy] using settled⟩
  | others foreign =>
      simp only [consumedBy, submittedBy, List.filterMap_nil, List.append_nil]
      exact settled.transition distinct (.others foreign)
        (fun pair pending => absurd pending (noAdvance pair)) idle []
  | later forward =>
      simp only [consumedBy, submittedBy, List.filterMap_nil, List.append_nil]
      exact settled.transition distinct (.later forward)
        (fun pair pending => absurd pending (noAdvance pair)) idle []

theorem ChainRun.settled (messages : P.MessageLaws) (programs : P.ProgramLaws)
    (distinct : timeline.Distinct) {start final : World P} {marks : List (Mark P)}
    (run : ChainRun timeline start marks final) {stored consumed : List (P.Address × P.Hash)}
    {submitted : List P.VersionedMessage}
    (settled : Settled keys hashes timeline start [] stored consumed submitted) :
    ∃ stored', Settled keys hashes timeline final [] stored' (consumed ++ consumedBy marks)
      (submitted ++ submittedBy marks) := by
  induction run generalizing stored consumed submitted with
  | nil => exact ⟨stored, by simpa [consumedBy, submittedBy] using settled⟩
  | cons step rest ih =>
      obtain ⟨next, reached⟩ := step.settled messages programs distinct settled
      rw [consumedBy_append, submittedBy_append, ← List.append_assoc, ← List.append_assoc]
      exact ih reached

end Run

/-- Over any run of the chain, no nonce value of an account is consumed by two committed
executions, and no authorization message is submitted twice. -/
theorem execution_at_most_once (keys : P.KeyLaws) (hashes : P.HashLaws)
    (messages : P.MessageLaws) (programs : P.ProgramLaws) {timeline : Timeline P}
    (distinct : timeline.Distinct) {start final : World P} {marks : List (Mark P)}
    (genesis : Genesis start.ledger) (run : ChainRun timeline start marks final) :
    (consumedBy marks).Nodup ∧ (submittedBy marks).Nodup := by
  have settled : Settled keys hashes timeline start [] [] [] [] :=
    ⟨genesis.fresh keys hashes timeline, genesis.allFunded, List.nodup_nil, by simp, by simp,
      [], List.nodup_nil, by simp, .inl rfl⟩
  obtain ⟨stored, reached⟩ := run.settled messages programs distinct settled
  refine ⟨by simpa using reached.once, ?_⟩
  obtain ⟨done, once, -, finished | ⟨message, -, instruction, others, none, -⟩⟩ :=
    reached.messages
  · rw [List.nil_append] at finished
    exact finished ▸ once
  · cases none

/-- A nonce account is opened, and a submission executes with it. -/
theorem execution_at_most_once_reference :
    ∃ marks final, ChainRun Timeline.reference ⟨1, Reference.ledger⟩ marks final ∧
      consumedBy marks = [(Reference.nonceAccount, Reference.state.nonce)] ∧
      submittedBy marks = [.v1 Reference.authorization] ∧
      (consumedBy marks).Nodup ∧ (submittedBy marks).Nodup := by
  have opens : ChainStep Timeline.reference ⟨1, Reference.ledger⟩ ([] ++ []) ⟨1, Reference.opened⟩ :=
    @ChainStep.committed _ _ ⟨1, Reference.ledger⟩ _
      [NonceClient.initializeNonce Reference.nonceAccount Reference.nonceAuthority] _
      (.cons (.nonce rfl Reference.opens) .nil)
  have submits : MachineStep (Timeline.reference.sysvars 1)
      ⟨Reference.opened, [.invoke Reference.relay]⟩ (submittedMarks Reference.relay)
      ⟨Reference.opened, callTasks [Reference.submission] ++ []⟩ := by
    have step := @MachineStep.submit _ (Timeline.reference.sysvars 1) Reference.opened
      Reference.relay [] rfl
    rw [Reference.relay_issues] at step
    exact step rfl (by simpa using Reference.submission_permitted)
  have executes : MachineStep (Timeline.reference.sysvars 1)
      ⟨Reference.opened, [.invoke Reference.submission.instruction]⟩
      (executedMarks Reference.submission.instruction)
      ⟨Reference.opened, callTasks (executionCpis Reference.nonceAuthority Reference.nonceAccount
        Reference.message) ++ []⟩ := by
    have step := @MachineStep.execute _ (Timeline.reference.sysvars 1) Reference.opened
      Reference.submission.instruction [] rfl
    rw [Reference.submission_issues] at step
    exact step rfl Reference.submission_carries.covers
  have advances : invokeNonce (Timeline.reference.sysvars 1) Reference.opened
      (NonceClient.advance Reference.nonceAuthority Reference.nonceAccount
        Reference.message.lifetimeSpecifier (deriveTransitionCommitment (.v1 Reference.message))) =
      .ok (advanceLedger Reference.opened Reference.nonceAccount Reference.state
        (deriveTransitionCommitment (.v1 Reference.message))) :=
    (invokeNonce_advance_ok_iff Reference.keyLaws).mpr
      ⟨Reference.state, Reference.held, rfl, rfl, rfl⟩
  have run : ChainRun Timeline.reference ⟨1, Reference.ledger⟩ _ _ :=
    .cons opens (.cons (@ChainStep.committed _ _ ⟨1, Reference.opened⟩ _ [Reference.relay] _
      (.cons submits (.cons executes (.cons (.nonce rfl advances)
        (.cons (@MachineStep.other _ _ _ _ [] _ (by decide)) .nil))))) .nil)
  have once := execution_at_most_once Reference.keyLaws Reference.hashLaws Reference.messageLaws
    Reference.programLaws Timeline.reference_distinct Reference.genesis run
  have submitted : submittedMarks Reference.relay = [.submitted (.v1 Reference.authorization)] := by
    simp only [submittedMarks, Reference.relay_decoded]
  have executed : executedMarks Reference.submission.instruction =
      [.executed Reference.nonceAccount Reference.state.nonce] := by
    have decoded := Reference.submission_carries.decoded (Reference.messageWire_total _)
    have addresses : Reference.submission.instruction.accounts.map AccountMeta.pubkey =
      [Reference.nonceAuthority, Reference.nonceAccount, 2, Reference.nonceAuthority, 40] := rfl
    simp only [executedMarks, executeTarget, addresses, decoded]
    rfl
  refine ⟨_, _, run, ?_, ?_, once⟩ <;> rw [submitted, executed] <;> rfl

end ProgrammaticSigner
