import ProgrammaticSigner.Library.Register
import ProgrammaticSigner.Runtime.Calls
import ProgrammaticSigner.Runtime.Completion

set_option autoImplicit false

/- The nonce accounts of the chain as a register of one-time values: every nonce instruction
is an action of the register, and every committed execution redeems what it consumes. -/
namespace ProgrammaticSigner

variable {P : Platform}

/-- The value an account holds as an initialized nonce. -/
def heldNonce (account : P.Account) : Option P.Hash :=
  if account.owner = P.nonceProgram then (Nonce.view account.data).toOption.map Nonce.nonce
  else none

/-- The accounts of a ledger as holders of the values stored so far. -/
def registerOf (ledger : P.Ledger) (stored : List (P.Address × P.Hash)) :
    Register P.Address P.Hash :=
  ⟨fun address => heldNonce (ledger address), {value | value ∈ stored.map Prod.snd}⟩

theorem heldNonce_eq_some_iff {account : P.Account} {value : P.Hash} :
    heldNonce account = some value ↔ ∃ state, Initialized account state ∧ state.nonce = value := by
  unfold heldNonce Initialized
  split
  · rename_i owned
    cases viewed : Nonce.view account.data <;> simp [Except.toOption, owned]
  · rename_i other
    simp [other]

theorem heldNonce_eq_none_iff {account : P.Account} :
    heldNonce account = none ↔ ∀ state, ¬ Initialized account state := by
  rw [Option.eq_none_iff_forall_ne_some]
  constructor
  · exact fun none state held => none state.nonce (heldNonce_eq_some_iff.mpr ⟨state, held, rfl⟩)
  · intro none value held
    obtain ⟨state, found, -⟩ := heldNonce_eq_some_iff.mp held
    exact none state found

/-- A ledger that differs at one address, where a value is now held. -/
theorem registerOf_issue {before after : P.Ledger} {stored : List (P.Address × P.Hash)}
    {address : P.Address} {state : P.Nonce}
    (others : ∀ other, other ≠ address → after other = before other)
    (held : Initialized (after address) state) :
    registerOf after (stored ++ [(address, state.nonce)]) =
      (registerOf before stored).issue address state.nonce := by
  unfold registerOf Register.issue
  congr 1
  · funext other
    by_cases here : other = address
    · subst here
      rw [Function.update_self]
      exact heldNonce_eq_some_iff.mpr ⟨state, held, rfl⟩
    · rw [Function.update_of_ne here, others other here]
  · ext value
    simp [or_comm]

/-- The instruction a transition commits, if it is the nonce program's. -/
def Transition.instruction (transition : Transition P) : Option P.Instruction :=
  match transition.event with
  | .invoked instruction => some instruction
  | _ => none

/-- What a transition does to the register. A withdrawal of everything closes its account. -/
def Transition.action (transition : Transition P) : Register.Action P.Address P.Hash :=
  match transition.event with
  | .invoked instruction =>
      match NonceInstruction.tryFromBytes (P := P) instruction.data, instruction.views with
      | .ok .initializeNonce, nonceAccount :: _ =>
          .issue nonceAccount.address (left nonceAccount.address)
      | .ok (.advance currentNonce _), _ :: nonceAccount :: _ =>
          .redeem nonceAccount.address currentNonce (left nonceAccount.address)
      | .ok (.withdraw lamports), _ :: nonceAccount :: _ =>
          if (transition.before.ledger nonceAccount.address).lamports - lamports = 0 then
            .release nonceAccount.address
          else .idle
      | _, _ => .idle
  | _ => .idle
where
  left (address : P.Address) : P.Hash :=
    match Nonce.view (transition.after.ledger address).data with
    | .ok state => state.nonce
    | .error _ => default

theorem Transition.left_of_held (transition : Transition P) {address : P.Address}
    {state : P.Nonce} (held : Initialized (transition.after.ledger address) state) :
    Transition.action.left transition address = state.nonce := by
  simp only [Transition.action.left, held.2]

/-- What a run of the nonce accounts redeems, in order. -/
def redeemedBy (transitions : List (Transition P)) : List (P.Address × P.Hash) :=
  Register.redemptions (transitions.map Transition.action)

theorem redeemedBy_append (early late : List (Transition P)) :
    redeemedBy (early ++ late) = redeemedBy early ++ redeemedBy late := by
  rw [redeemedBy, List.map_append, Register.redemptions_append]
  rfl

/-- After a withdrawal, the holders hold what they held, but for a closed account. -/
theorem registerOf_withdraw {before : P.Ledger} {stored : List (P.Address × P.Hash)}
    {nonceAccount destination : P.Address} {credited remaining : UInt64} :
    registerOf (Function.update
        (Function.update before destination { before destination with lamports := credited })
        nonceAccount (if remaining = 0 then ⟨0, default, .empty⟩
          else { before nonceAccount with lamports := remaining })) stored =
      if remaining = 0 then (registerOf before stored).release nonceAccount
      else registerOf before stored := by
  have credit (other : P.Address) : heldNonce (Function.update before destination
      { before destination with lamports := credited } other) = heldNonce (before other) := by
    by_cases there : other = destination
    · subst there
      rw [Function.update_self]
      rfl
    · rw [Function.update_of_ne there]
  split
  · unfold registerOf Register.release
    congr 1
    funext other
    by_cases here : other = nonceAccount
    · subst here
      rw [Function.update_self, Function.update_self]
      exact heldNonce_eq_none_iff.mpr not_initialized_closed
    · rw [Function.update_of_ne here, Function.update_of_ne here]
      exact credit other
  · unfold registerOf
    congr 1
    funext other
    by_cases here : other = nonceAccount
    · subst here
      rw [Function.update_self]
      rfl
    · rw [Function.update_of_ne here]
      exact credit other

section Transitions

variable {keys : P.KeyLaws} {hashes : P.HashLaws} {timeline : Timeline P}

/-- A transition that stores a value issues it fresh. -/
theorem Transition.Valid.stores (distinct : timeline.Distinct) {transition : Transition P}
    (valid : transition.Valid timeline) (funded : AllFunded transition.before.ledger)
    {stored : List (P.Address × P.Hash)}
    (fresh : Fresh keys hashes timeline transition.before stored) {address : P.Address}
    {state : P.Nonce} (added : transition.stored = [(address, state.nonce)])
    (held : Initialized (transition.after.ledger address) state)
    (others : ∀ other, other ≠ address →
      transition.after.ledger other = transition.before.ledger other) :
    state.nonce ∉ (registerOf transition.before.ledger stored).issued ∧
      registerOf transition.after.ledger (stored ++ transition.stored) =
        (registerOf transition.before.ledger stored).issue address state.nonce := by
  constructor
  · intro member
    obtain ⟨old, listed, same⟩ := List.mem_map.mp member
    have new : (address, state.nonce) ∈ transition.stored := by
      rw [added]
      exact List.mem_cons_self
    exact fresh.new_value distinct (valid.storeEffect funded) listed new same
  · rw [added, registerOf_issue others held]

/-- Every transition of the nonce accounts is the step of the register that it says. -/
theorem Transition.Valid.registers (distinct : timeline.Distinct) {transition : Transition P}
    (valid : transition.Valid timeline) (funded : AllFunded transition.before.ledger)
    {stored : List (P.Address × P.Hash)}
    (fresh : Fresh keys hashes timeline transition.before stored) :
    Register.Step (registerOf transition.before.ledger stored) transition.action
      (registerOf transition.after.ledger (stored ++ transition.stored)) := by
  have stores := @Transition.Valid.stores _ keys hashes timeline distinct _ valid funded _ fresh
  cases valid with
  | @invoked world instruction final program committed =>
      obtain ⟨⟨decoded, accepted, step⟩, -⟩ := invokeNonce_ok_iff.mp committed
      rw [program] at step
      generalize shape : instruction.views = accounts at step
      obtain ⟨result, written, step⟩ : ∃ result, final = result ∧ NonceStep _ _ _ _ _ result :=
        ⟨final, rfl, step⟩
      dsimp only at stores ⊢
      cases step with
      | @initializes nonceAccount authority _ _ _ slotHash owned blank rent enough recent =>
          have held : Initialized (final nonceAccount.address)
              ⟨Nonce.deriveInitialNonce P.nonceProgram nonceAccount.address slotHash,
                authority.address, (timeline.sysvars world.slot).slot⟩ := by
            rw [written, Function.update_self]
            exact initialized_sized owned (recentSlotHash_ok recent).2
          have unheld : (registerOf world.ledger stored).held nonceAccount.address = none := by
            refine heldNonce_eq_none_iff.mpr fun old before => ?_
            rw [Initialized, blank] at before
            exact absurd rfl (view_sized before.2).2
          obtain ⟨new, after⟩ := stores (by
            simp only [Transition.stored, accepted, shape]
            exact Transition.stored_of_written ⟨world, _, ⟨world.slot, final⟩⟩ held) held
            (fun other differs => by rw [written, Function.update_of_ne differs])
          rw [after]
          simp only [Transition.action, accepted, shape,
            Transition.left_of_held ⟨world, _, ⟨world.slot, final⟩⟩ held]
          exact .issued unheld new
      | @advances authority nonceAccount _ state commitment owned current authorized signed =>
          have held : Initialized (final nonceAccount.address) { state with
              nonce := state.deriveNextNonce P.nonceProgram nonceAccount.address commitment } := by
            rw [written, Function.update_self]
            exact initialized_sized owned (funded _ _ ⟨owned, current⟩).slot
          obtain ⟨new, after⟩ := stores (by
            simp only [Transition.stored, accepted, shape]
            exact Transition.stored_of_written ⟨world, _, ⟨world.slot, final⟩⟩ held) held
            (fun other differs => by rw [written, Function.update_of_ne differs])
          rw [after]
          simp only [Transition.action, accepted, shape,
            Transition.left_of_held ⟨world, _, ⟨world.slot, final⟩⟩ held]
          exact .redeemed (heldNonce_eq_some_iff.mpr ⟨state, ⟨owned, current⟩, rfl⟩) new
      | withdraws =>
          simp only [Transition.stored, Transition.action, accepted, shape, List.append_nil,
            written, registerOf_withdraw]
          split
          · exact .released
          · exact .idle
  | @others world final foreign =>
      have same : registerOf final stored = registerOf world.ledger stored := by
        unfold registerOf
        congr 1
        funext address
        rw [Option.ext_iff]
        intro value
        simp only [heldNonce_eq_some_iff, (foreign address).initialized_iff]
      simp only [Transition.stored, Transition.action, List.append_nil, same]
      exact .idle
  | later forward =>
      simp only [Transition.stored, Transition.action, List.append_nil]
      exact .idle

/-- The steps of a run of the nonce accounts, as the register takes them. -/
theorem NonceRun.registers (distinct : timeline.Distinct) {start final : World P}
    {transitions : List (Transition P)} (run : NonceRun timeline start transitions final)
    (funded : AllFunded start.ledger) {stored : List (P.Address × P.Hash)}
    (fresh : Fresh keys hashes timeline start stored) :
    Register.Run (registerOf start.ledger stored) (transitions.map Transition.action)
      (registerOf final.ledger (stored ++ storedBy transitions)) := by
  induction run generalizing stored with
  | nil =>
      rw [storedBy_nil, List.append_nil]
      exact .nil
  | cons valid rest ih =>
      have next := ih (valid.allFunded funded) (fresh.step distinct (valid.storeEffect funded))
      rw [List.append_assoc, ← storedBy_cons] at next
      exact .cons (valid.registers distinct funded fresh) next

/-- A run up to one of its transitions, and that transition. -/
theorem NonceRun.upTo {start final : World P} {early late : List (Transition P)}
    {transition : Transition P}
    (run : NonceRun timeline start (early ++ transition :: late) final) :
    NonceRun timeline start early transition.before ∧ transition.Valid timeline := by
  induction early generalizing start with
  | nil =>
      cases run with
      | cons valid rest => exact ⟨.nil, valid⟩
  | cons first early ih =>
      cases run with
      | cons valid rest =>
          obtain ⟨before, here⟩ := ih rest
          exact ⟨.cons valid before, here⟩

end Transitions

/-- With no nonce accounts, nothing is held or issued. -/
theorem Genesis.registerOf {ledger : P.Ledger} (genesis : Genesis ledger) :
    registerOf ledger [] = .empty := by
  unfold ProgrammaticSigner.registerOf Register.empty
  congr 1
  · funext address
    exact heldNonce_eq_none_iff.mpr (genesis.not_initialized address)
  · simp

section Runs

variable {keys : P.KeyLaws} {timeline : Timeline P} {origin : World P}

/-- What has been consumed was redeemed, up to the advance that comes next. -/
def Accounted (tasks : List (Task P)) (consumed redeemed : List (P.Address × P.Hash)) : Prop :=
  consumed.Sublist redeemed ∨
    ∃ pair done, consumed = done ++ [pair] ∧ done.Sublist redeemed ∧ AdvancePending tasks pair

theorem Accounted.settled {tasks : List (Task P)} {consumed redeemed : List (P.Address × P.Hash)}
    (accounted : Accounted tasks consumed redeemed)
    (quiet : ∀ pair, ¬ AdvancePending tasks pair) : consumed.Sublist redeemed := by
  rcases accounted with all | ⟨pair, done, -, -, pending⟩
  · exact all
  · exact absurd pending (quiet pair)

theorem not_advancePending_nil (pair : P.Address × P.Hash) : ¬ AdvancePending [] pair := by
  rintro ⟨authority, commitment, others, none⟩
  cases none

/-- Between two steps of the chain: the nonce accounts went through these transitions, and
what was consumed was redeemed by them. -/
structure Traced (timeline : Timeline P) (origin world : World P) (tasks : List (Task P))
    (transitions : List (Transition P)) (consumed : List (P.Address × P.Hash)) : Prop where
  run : NonceRun timeline origin transitions world
  accounted : Accounted tasks consumed (redeemedBy transitions)

/-- The nonce instruction that the next task is, if it is one. -/
def nextNonceInstruction (tasks : List (Task P)) : List P.Instruction :=
  match tasks with
  | .invoke instruction :: _ => [instruction].filter (·.programId = P.nonceProgram)
  | _ => []

/-- A transition redeems what was pending. -/
theorem Traced.transition {world next : World P} {tasks : List (Task P)}
    {transitions : List (Transition P)} {consumed : List (P.Address × P.Hash)}
    (traced : Traced timeline origin world tasks transitions consumed) {event : NonceEvent P}
    (valid : Transition.Valid timeline ⟨world, event, next⟩)
    (redeems : ∀ pair, AdvancePending tasks pair → redeemedBy [⟨world, event, next⟩] = [pair])
    (rest : List (Task P)) :
    Traced timeline origin next rest (transitions ++ [⟨world, event, next⟩]) consumed := by
  refine ⟨traced.run.append (.cons valid .nil), .inl ?_⟩
  rw [redeemedBy_append]
  rcases traced.accounted with all | ⟨pair, done, rfl, before, pending⟩
  · exact all.trans (List.sublist_append_left _ _)
  · rw [redeems pair pending]
    exact before.append (List.Sublist.refl _)

/-- Other tasks on the stack leave the accounts alone. -/
theorem Traced.replace {world : World P} {tasks : List (Task P)}
    {transitions : List (Transition P)} {consumed : List (P.Address × P.Hash)}
    (traced : Traced timeline origin world tasks transitions consumed)
    (quiet : ∀ pair, ¬ AdvancePending tasks pair) (rest : List (Task P)) :
    Traced timeline origin world rest transitions consumed :=
  ⟨traced.run, .inl (traced.accounted.settled quiet)⟩

/-- An advance that the executor asked for redeems what the execution consumed. -/
theorem redeemedBy_advance (keys : P.KeyLaws) {before after : World P}
    {authority nonceAccount : P.Address} {nonce commitment : P.Hash} :
    redeemedBy [⟨before, .invoked (NonceClient.advance authority nonceAccount nonce commitment),
      after⟩] = [(nonceAccount, nonce)] := by
  have decoded : NonceInstruction.tryFromBytes
      (NonceClient.advance authority nonceAccount nonce commitment).data =
        .ok (.advance nonce commitment) := (NonceInstruction.tryFromBytes_ok_iff keys).mpr rfl
  simp only [redeemedBy, List.map_cons, List.map_nil, Transition.action, decoded]
  rfl

theorem Traced.step (keys : P.KeyLaws) (messages : P.MessageLaws) (programs : P.ProgramLaws)
    {slot : UInt64} {machine next : Machine P} {marks : List (Mark P)}
    {transitions : List (Transition P)} {consumed : List (P.Address × P.Hash)}
    (traced : Traced timeline origin ⟨slot, machine.ledger⟩ machine.tasks transitions consumed)
    (step : MachineStep (timeline.sysvars slot) machine marks next) :
    ∃ added, Traced timeline origin ⟨slot, next.ledger⟩ next.tasks (transitions ++ added)
        (consumed ++ consumedBy marks) ∧
      added.filterMap Transition.instruction = nextNonceInstruction machine.tasks := by
  have unmarked (rest : List (Task P)) (ledger : P.Ledger) {after : List (Transition P)}
      (reached : Traced timeline origin ⟨slot, ledger⟩ rest after consumed) :
      Traced timeline origin ⟨slot, ledger⟩ rest after (consumed ++ consumedBy []) := by
    rw [consumedBy, List.filterMap_nil, List.append_nil]
    exact reached
  cases step with
  | @nonce ledger final instruction rest program committed =>
      refine ⟨[⟨⟨slot, ledger⟩, .invoked instruction, ⟨slot, final⟩⟩], unmarked _ _ ?_, ?_⟩
      · refine traced.transition (.invoked program committed) ?_ rest
        rintro pair ⟨authority, commitment, others, same⟩
        obtain ⟨head, -⟩ := List.cons.inj same
        obtain rfl := Task.invoke.inj head
        exact redeemedBy_advance keys
      · simp [nextNonceInstruction, Transition.instruction, program]
  | @execute ledger instruction rest program returned permitted =>
      obtain ⟨nonceAccount, state, held, target, advances⟩ := execute_consumes messages returned
      have other : instruction.programId ≠ P.nonceProgram :=
        program ▸ programs.nonce_executor.symm
      refine ⟨[], ⟨?_, .inr ⟨_, consumed, ?_, ?_, advances rest⟩⟩, ?_⟩
      · rw [List.append_nil]
        exact traced.run
      · simp only [executedMarks, target, consumedBy, List.filterMap_cons, List.filterMap_nil]
      · rw [List.append_nil]
        exact traced.accounted.settled (not_advancePending other)
      · simp [nextNonceInstruction, other]
  | @submit ledger instruction rest program returned permitted =>
      have none : consumedBy (submittedMarks instruction) = [] := by
        unfold submittedMarks
        split <;> rfl
      have other : instruction.programId ≠ P.nonceProgram := program ▸ programs.nonce_signer.symm
      refine ⟨[], ?_, ?_⟩
      · rw [none, List.append_nil, List.append_nil]
        exact traced.replace (not_advancePending other) _
      · simp [nextNonceInstruction, other]
  | other program =>
      refine ⟨[], unmarked _ _ ?_, ?_⟩
      · rw [List.append_nil]
        exact traced.replace (not_advancePending program.1) _
      · simp [nextNonceInstruction, program.1]
  | @effects ledger final rest foreign =>
      refine ⟨[⟨⟨slot, ledger⟩, .others, ⟨slot, final⟩⟩], unmarked _ _ ?_, rfl⟩
      refine traced.transition (.others foreign) ?_ rest
      rintro pair ⟨authority, commitment, others, same⟩
      cases (List.cons.inj same).1

theorem MachineRun.traced (keys : P.KeyLaws) (messages : P.MessageLaws)
    (programs : P.ProgramLaws) {slot : UInt64} {machine final : Machine P}
    {marks : List (Mark P)} (run : MachineRun (timeline.sysvars slot) machine marks final)
    {transitions : List (Transition P)} {consumed : List (P.Address × P.Hash)}
    (traced : Traced timeline origin ⟨slot, machine.ledger⟩ machine.tasks transitions consumed) :
    ∃ after, Traced timeline origin ⟨slot, final.ledger⟩ final.tasks after
      (consumed ++ consumedBy marks) := by
  induction run generalizing transitions consumed with
  | nil => exact ⟨transitions, by simpa [consumedBy] using traced⟩
  | cons step rest ih =>
      obtain ⟨added, reached, -⟩ := traced.step keys messages programs step
      rw [consumedBy_append, ← List.append_assoc]
      exact ih reached

/-- The nonce instructions among some calls. -/
def nonceInstructions (calls : List (Call P)) : List P.Instruction :=
  (calls.map Call.instruction).filter (·.programId = P.nonceProgram)

theorem nonceInstructions_append (early late : List (Call P)) :
    nonceInstructions (early ++ late) = nonceInstructions early ++ nonceInstructions late := by
  simp [nonceInstructions]

theorem CallRun.traced (keys : P.KeyLaws) (messages : P.MessageLaws) (programs : P.ProgramLaws)
    {slot : UInt64} {stack final : CallStack P} {marks : List (Mark P)} {calls : List (Call P)}
    (run : CallRun (timeline.sysvars slot) stack marks calls final)
    {transitions : List (Transition P)} {consumed : List (P.Address × P.Hash)}
    (traced : Traced timeline origin ⟨slot, stack.ledger⟩ stack.machine.tasks transitions
      consumed) :
    ∃ added, Traced timeline origin ⟨slot, final.ledger⟩ final.machine.tasks
        (transitions ++ added) (consumed ++ consumedBy marks) ∧
      added.filterMap Transition.instruction = nonceInstructions calls := by
  induction run generalizing transitions consumed with
  | nil => exact ⟨[], by simpa [consumedBy] using traced, rfl⟩
  | cons step rest ih =>
      cases step with
      | @step ledger next frame others body marks machine permitted =>
          obtain ⟨added, reached, instructions⟩ := traced.step keys messages programs machine
          have tasks : (CallStack.mk next
              (body.map (Frame.mk frame.below) ++ others)).machine.tasks =
                body ++ others.map Frame.task := by
            simp [CallStack.machine, Function.comp_def]
          rw [← tasks] at reached
          obtain ⟨more, final, later⟩ := ih reached
          refine ⟨added ++ more, ?_, ?_⟩
          · rw [consumedBy_append, ← List.append_assoc, ← List.append_assoc]
            exact final
          · rw [List.filterMap_append, instructions, later, nonceInstructions_append]
            congr 1
            cases same : frame.task <;>
              simp [nextNonceInstruction, nonceInstructions, Frame.calls, same]

theorem ChainRun.traced (keys : P.KeyLaws) (messages : P.MessageLaws) (programs : P.ProgramLaws)
    {start final : World P} {marks : List (Mark P)}
    (run : ChainRun timeline start marks final) {transitions : List (Transition P)}
    {consumed : List (P.Address × P.Hash)}
    (traced : Traced timeline origin start [] transitions consumed) :
    ∃ after, Traced timeline origin final [] after (consumed ++ consumedBy marks) := by
  induction run generalizing transitions consumed with
  | nil => exact ⟨transitions, by simpa [consumedBy] using traced⟩
  | cons step rest ih =>
      rw [consumedBy_append, ← List.append_assoc]
      have quiet {next : World P} {event : NonceEvent P}
          (valid : Transition.Valid timeline ⟨_, event, next⟩) :=
        traced.transition valid (fun pair pending => absurd pending (not_advancePending_nil pair)) []
      cases step with
      | committed run =>
          obtain ⟨after, reached⟩ := run.traced keys messages programs
            (traced.replace not_advancePending_nil _)
          exact ih reached
      | aborted => exact ih (by simpa [consumedBy] using traced)
      | others foreign => exact ih (by simpa [consumedBy] using quiet (.others foreign))
      | later forward => exact ih (by simpa [consumedBy] using quiet (.later forward))

theorem HistoryStep.traced (keys : P.KeyLaws) (messages : P.MessageLaws)
    (programs : P.ProgramLaws) {world next : World P} {marks : List (Mark P)}
    {calls : List (Call P)} (step : HistoryStep timeline world marks calls next)
    {transitions : List (Transition P)} {consumed : List (P.Address × P.Hash)}
    (traced : Traced timeline origin world [] transitions consumed) :
    ∃ added, Traced timeline origin next [] (transitions ++ added)
        (consumed ++ consumedBy marks) ∧
      added.filterMap Transition.instruction = nonceInstructions calls := by
  have quiet {event : NonceEvent P} (valid : Transition.Valid timeline ⟨world, event, next⟩) :
      Traced timeline origin next [] (transitions ++ [⟨world, event, next⟩])
        (consumed ++ consumedBy []) := by
    rw [consumedBy, List.filterMap_nil, List.append_nil]
    exact traced.transition valid
      (fun pair pending => absurd pending (not_advancePending_nil pair)) []
  cases step with
  | committed keyed run =>
      exact run.traced keys messages programs (traced.replace not_advancePending_nil _)
  | aborted => exact ⟨[], by simpa [consumedBy] using traced, rfl⟩
  | others foreign => exact ⟨_, quiet (.others foreign), rfl⟩
  | later forward => exact ⟨_, quiet (.later forward), rfl⟩

theorem History.traced (keys : P.KeyLaws) (messages : P.MessageLaws) (programs : P.ProgramLaws)
    {start final : World P} {marks : List (Mark P)} {calls : List (Call P)}
    (history : History timeline start marks calls final) {transitions : List (Transition P)}
    {consumed : List (P.Address × P.Hash)}
    (traced : Traced timeline origin start [] transitions consumed) :
    ∃ added, Traced timeline origin final [] (transitions ++ added)
        (consumed ++ consumedBy marks) ∧
      added.filterMap Transition.instruction = nonceInstructions calls := by
  induction history generalizing transitions consumed with
  | nil => exact ⟨[], by simpa [consumedBy] using traced, rfl⟩
  | cons step rest ih =>
      obtain ⟨added, reached, instructions⟩ := step.traced keys messages programs traced
      obtain ⟨more, final, later⟩ := ih reached
      refine ⟨added ++ more, ?_, ?_⟩
      · rw [consumedBy_append, ← List.append_assoc, ← List.append_assoc]
        exact final
      · rw [List.filterMap_append, instructions, later, nonceInstructions_append]

end Runs

/-- Over any history of the chain from genesis the nonce accounts go through the register of
one-time values. Its transitions commit the nonce instructions among the calls, in order; each
is the step it says of what the accounts hold, from an empty register on; and what executions
consume is, in order, among what those steps redeem: no value twice, at one account or at two. -/
theorem chain_refines_register (keys : P.KeyLaws) (hashes : P.HashLaws)
    (messages : P.MessageLaws) (programs : P.ProgramLaws) {timeline : Timeline P}
    (distinct : timeline.Distinct) {start final : World P} {marks : List (Mark P)}
    {calls : List (Call P)} (genesis : Genesis start.ledger)
    (history : History timeline start marks calls final) :
    ∃ transitions, NonceRun timeline start transitions final ∧
      transitions.filterMap Transition.instruction = nonceInstructions calls ∧
      registerOf start.ledger [] = .empty ∧
      (∀ early transition late, transitions = early ++ transition :: late →
        Register.Step (registerOf transition.before.ledger (storedBy early)) transition.action
          (registerOf transition.after.ledger (storedBy (early ++ [transition])))) ∧
      Register.Run .empty (transitions.map Transition.action)
        (registerOf final.ledger (storedBy transitions)) ∧
      (consumedBy marks).Sublist (redeemedBy transitions) ∧
      ((consumedBy marks).map Prod.snd).Nodup := by
  have begun : Traced timeline start start [] [] [] := ⟨.nil, .inl (List.nil_sublist _)⟩
  obtain ⟨transitions, traced, instructions⟩ := history.traced keys messages programs begun
  rw [List.nil_append] at traced
  have fresh := genesis.fresh keys hashes timeline
  have run := traced.run.registers distinct genesis.allFunded fresh
  rw [genesis.registerOf, List.nil_append] at run
  have consumed := traced.accounted.settled not_advancePending_nil
  rw [List.nil_append] at consumed
  refine ⟨transitions, traced.run, instructions, genesis.registerOf, ?_, run, consumed, ?_⟩
  · rintro early transition late rfl
    obtain ⟨before, valid⟩ := traced.run.upTo
    have step := valid.registers distinct (before.allFunded genesis.allFunded).1
      (before.fresh distinct genesis.allFunded fresh)
    rw [List.nil_append] at step
    rw [storedBy_append, storedBy_cons, storedBy_nil, List.append_nil]
    exact step
  · exact (run.redeemed_nodup Register.empty_sound).sublist (consumed.map Prod.snd)

/-- An account is opened and a submission consumes its first value: an issue and a
redemption. -/
theorem chain_refines_register_reference : ∃ transitions : List (Transition .apart),
    transitions.filterMap Transition.instruction =
      [NonceClient.initializeNonce Apart.nonceAccount Apart.nonceAuthority, Apart.advance] ∧
    Register.Run .empty (transitions.map Transition.action)
      (registerOf Apart.advanced (storedBy transitions)) ∧
    [(Apart.nonceAccount, Apart.state.nonce)].Sublist (redeemedBy transitions) := by
  obtain ⟨transitions, -, instructions, -, -, run, consumed, -⟩ :=
    chain_refines_register Apart.keyLaws Apart.hashLaws Apart.messageLaws Apart.programLaws
      Apart.timeline_distinct Apart.genesis Apart.history
  have executed := Apart.submission_carries.recorded
    (Apart.messageLaws.serializes _ (Apart.validate_ok Reference.message_formed))
  have submitted : submittedMarks Apart.relay = [.submitted (.v1 Reference.authorization)] := by
    simp only [submittedMarks, Apart.relay_decoded]
  rw [executed, submitted] at consumed
  exact ⟨transitions, instructions.trans rfl, run, consumed⟩

/-- Once a nonce account no longer holds a value it held, whether it was advanced or closed,
no execution ever consumes that value there again, and no submission executes with it. -/
theorem revocation_permanent (keys : P.KeyLaws) (hashes : P.HashLaws)
    (messages : P.MessageLaws) (programs : P.ProgramLaws) {timeline : Timeline P}
    (distinct : timeline.Distinct) {start one two three : World P}
    {early middle late : List (Mark P)} (genesis : Genesis start.ledger)
    (first : ChainRun timeline start early one) {address : P.Address} {state : P.Nonce}
    (held : Initialized (one.ledger address) state)
    (second : ChainRun timeline one middle two)
    (revoked : ∀ current, Initialized (two.ledger address) current →
      current.nonce ≠ state.nonce)
    (third : ChainRun timeline two late three) :
    (address, state.nonce) ∉ consumedBy late ∧
      ∀ message ∈ submittedBy late, messageTarget message ≠ some (address, state.nonce) := by
  have funded := first.traced keys messages programs ⟨.nil, .inl (List.nil_sublist _)⟩
  obtain ⟨transitions, one_traced⟩ := funded
  have fresh := one_traced.run.fresh distinct genesis.allFunded (genesis.fresh keys hashes timeline)
  have one_run := one_traced.run.registers distinct genesis.allFunded
    (genesis.fresh keys hashes timeline)
  have one_funded := (one_traced.run.allFunded genesis.allFunded).1
  rw [genesis.registerOf] at one_run
  obtain ⟨transitions', two_traced⟩ := second.traced keys messages programs
    ⟨.nil, .inl (List.nil_sublist _)⟩
  have two_fresh := two_traced.run.fresh distinct one_funded fresh
  have two_run := two_traced.run.registers distinct one_funded fresh
  have two_funded := (two_traced.run.allFunded one_funded).1
  obtain ⟨transitions'', three_traced⟩ := third.traced keys messages programs
    ⟨.nil, .inl (List.nil_sublist _)⟩
  have three_run := three_traced.run.registers distinct two_funded two_fresh
  have gone := two_run.lost (one_run.sound Register.empty_sound)
    (heldNonce_eq_some_iff.mpr ⟨state, held, rfl⟩) (by
      intro still
      obtain ⟨current, now, same⟩ := heldNonce_eq_some_iff.mp still
      exact revoked current now same)
  have consumed := three_traced.accounted.settled not_advancePending_nil
  rw [List.nil_append] at consumed
  have unconsumed : (address, state.nonce) ∉ consumedBy late := fun member =>
    (three_run.gone gone).2 address (consumed.subset member)
  refine ⟨unconsumed, ?_⟩
  have settled : Settled keys hashes timeline two [] _ [] [] :=
    ⟨two_fresh, two_funded, List.nodup_nil, by simp, by simp,
      [], List.nodup_nil, by simp, .inl rfl⟩
  obtain ⟨_, reached⟩ := third.settled messages programs distinct settled
  obtain ⟨done, -, targets, finished | ⟨message, -, instruction, others, none, -⟩⟩ :=
    reached.messages
  · intro message member target
    rw [List.nil_append] at finished
    obtain ⟨pair, listed, same⟩ := targets message (finished ▸ member)
    obtain rfl := Option.some.inj (target.symm.trans same)
    exact unconsumed (by simpa using listed)
  · cases none

namespace Reference

/-- A transaction that executes such a message alone, as its authority. -/
theorem executing {ledger : Platform.reference.Ledger} {state : Platform.reference.Nonce}
    {executionMessage : Platform.reference.Message}
    (valid : Platform.reference.validate executionMessage = .ok ())
    (config : executionMessage.config = default)
    (instructions : executionMessage.instructions = [⟨1, [0], [7]⟩])
    (programId : executionMessage.keyAt 1 = (40 : Nat))
    (held : Initialized (ledger nonceAccount) state) (authority : nonceAuthority = state.authority)
    (current : executionMessage.lifetimeSpecifier = state.nonce) :
    ChainRun Timeline.reference ⟨1, ledger⟩ [.executed nonceAccount state.nonce]
      ⟨1, advanceLedger ledger nonceAccount state
        (deriveTransitionCommitment (.v1 executionMessage))⟩ := by
  have carried : Carries (ExecutorClient.execute nonceAccount nonceAuthority executionMessage)
      nonceAccount nonceAuthority executionMessage :=
    ExecutorClient.execute_carries nonceAccount nonceAuthority
      (messageLaws.wellFormed executionMessage valid)
  have calls : MachineRun (Timeline.reference.sysvars 1)
      (afterAdvance ledger nonceAccount state executionMessage []) []
      ⟨advanceLedger ledger nonceAccount state
        (deriveTransitionCommitment (.v1 executionMessage)), []⟩ := by
    rw [afterAdvance, instructions]
    show MachineRun _ _ ([] ++ []) _
    refine .cons (@MachineStep.other _ _ _ _ [] _ ?_) .nil
    have other : (40 : Nat) ≠ Platform.reference.nonceProgram ∧
        (40 : Nat) ≠ Platform.reference.executorProgram ∧
        (40 : Nat) ≠ Platform.reference.signerProgram := by decide
    rw [executionCpi, programId]
    exact other
  have run := (carried.run_iff keyLaws messageLaws programLaws valid config held authority
    current).mpr ⟨[], rfl, calls⟩
  exact .cons (@ChainStep.committed _ _ ⟨1, ledger⟩ _
    [ExecutorClient.execute nonceAccount nonceAuthority executionMessage] _ run) .nil

end Reference

/-- A first message consumes the first value of an account, which no later execution does:
the next message consumes the value after it. -/
theorem revocation_permanent_reference :
    ChainRun Timeline.reference
      ⟨1, advanceLedger Reference.opened Reference.nonceAccount Reference.state
        (deriveTransitionCommitment (.v1 Reference.message))⟩
      [.executed Reference.nonceAccount Reference.following.lifetimeSpecifier]
      ⟨1, advanceLedger (advanceLedger Reference.opened Reference.nonceAccount Reference.state
          (deriveTransitionCommitment (.v1 Reference.message))) Reference.nonceAccount
        { Reference.state with nonce := Reference.following.lifetimeSpecifier }
        (deriveTransitionCommitment (.v1 Reference.following))⟩ ∧
    (Reference.nonceAccount, Reference.state.nonce) ∉ consumedBy (P := .reference)
      [.executed Reference.nonceAccount Reference.following.lifetimeSpecifier] := by
  have opening : ChainRun Timeline.reference ⟨1, Reference.ledger⟩ [] ⟨1, Reference.opened⟩ :=
    .cons (@ChainStep.committed _ _ ⟨1, Reference.ledger⟩ _ [_] _
      (.cons (.nonce rfl Reference.opens) .nil)) .nil
  have first := Reference.executing Reference.message_valid rfl rfl rfl Reference.held rfl rfl
  have advanced : Initialized (advanceLedger Reference.opened Reference.nonceAccount
      Reference.state (deriveTransitionCommitment (.v1 Reference.message)) Reference.nonceAccount)
      { Reference.state with nonce := Reference.following.lifetimeSpecifier } := by
    rw [advanceLedger, Function.update_self]
    exact initialized_sized Reference.held.1 (by decide)
  have late := Reference.executing Reference.following_valid rfl rfl rfl advanced rfl rfl
  refine ⟨late, (revocation_permanent Reference.keyLaws Reference.hashLaws
    Reference.messageLaws Reference.programLaws Timeline.reference_distinct Reference.genesis
    opening Reference.held first ?_ late).1⟩
  intro current now
  rw [now.unique advanced]
  exact deriveNextNonce_ne Reference.keyLaws Reference.hashLaws Reference.state
    Reference.nonceAccount (deriveTransitionCommitment (.v1 Reference.message))

end ProgrammaticSigner
