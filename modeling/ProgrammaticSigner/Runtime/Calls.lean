import ProgrammaticSigner.Library.Delegation
import ProgrammaticSigner.Runtime.AtMostOnce
import ProgrammaticSigner.Signer.Authorization

set_option autoImplicit false

/- Transactions with their call tree. Every pending task keeps the invocations it runs
below, and a program outside this repository makes any CPI that the runtime permits. -/
namespace ProgrammaticSigner

variable {P : Platform}

/-- No other program signs for an address derived for the signer program. -/
def Platform.DerivesApart (P : Platform) : Prop :=
  ∀ program seeds authority, P.createProgramAddress seeds program =
    some (deriveAddress P.signerProgram authority) → program = P.signerProgram

/-- The CPIs an invocation may make: the three programs those of their code, any other
program whatever its privileges and its own PDAs allow. -/
inductive Makes (caller : P.Instruction) : P.Cpi → Prop where
  | executed {ledger : P.Ledger} {cpi : P.Cpi} (program : caller.programId = P.executorProgram)
      (issued : cpi ∈ (processExecutorInstruction ledger caller.views caller.data).calls)
      (permitted : cpi.Permitted caller) : Makes caller cpi
  | submitted {cpi : P.Cpi} (program : caller.programId = P.signerProgram)
      (issued : cpi ∈ (processSignerInstruction P.signerProgram caller.views caller.data).calls)
      (permitted : cpi.Permitted caller) : Makes caller cpi
  | other {cpi : P.Cpi} (executor : caller.programId ≠ P.executorProgram)
      (signer : caller.programId ≠ P.signerProgram) (permitted : cpi.Permitted caller) :
      Makes caller cpi

def MadeBy (callee caller : P.Instruction) : Prop :=
  ∃ cpi, Makes caller cpi ∧ cpi.instruction = callee

/-- A task with the invocations it runs below, innermost first. -/
structure Frame (P : Platform) where
  callers : List P.Instruction
  task : Task P

/-- An invocation with its callers, innermost first. -/
structure Call (P : Platform) where
  callers : List P.Instruction
  instruction : P.Instruction

namespace Frame

/-- What the tasks of this frame's own task run below. -/
def below (frame : Frame P) : List P.Instruction :=
  match frame.task with
  | .invoke instruction => instruction :: frame.callers
  | .effects => frame.callers

def calls (frame : Frame P) : List (Call P) :=
  match frame.task with
  | .invoke instruction => [⟨frame.callers, instruction⟩]
  | .effects => []

/-- A top-level instruction of a transaction. -/
def root (instruction : P.Instruction) : Frame P := ⟨[], .invoke instruction⟩

end Frame

structure CallStack (P : Platform) where
  ledger : P.Ledger
  frames : List (Frame P)

/-- The machine without the callers. -/
def CallStack.machine (stack : CallStack P) : Machine P :=
  ⟨stack.ledger, stack.frames.map Frame.task⟩

/-- A step of the machine on the first frame, whose new tasks run below it. -/
inductive CallStep (sysvars : P.Sysvars) :
    CallStack P → List (Mark P) → List (Call P) → CallStack P → Prop where
  | step {ledger final : P.Ledger} {frame : Frame P} {rest : List (Frame P)}
      {body : List (Task P)} {marks : List (Mark P)}
      (machine : MachineStep sysvars ⟨ledger, frame.task :: rest.map Frame.task⟩ marks
        ⟨final, body ++ rest.map Frame.task⟩)
      (permitted : ∀ caller callee, frame.task = .invoke caller →
        caller.programId ≠ P.executorProgram → caller.programId ≠ P.signerProgram →
        .invoke callee ∈ body → ∃ cpi : P.Cpi, cpi.Permitted caller ∧ cpi.instruction = callee) :
      CallStep sysvars ⟨ledger, frame :: rest⟩ marks frame.calls
        ⟨final, body.map (Frame.mk frame.below) ++ rest⟩

inductive CallRun (sysvars : P.Sysvars) :
    CallStack P → List (Mark P) → List (Call P) → CallStack P → Prop where
  | nil {stack : CallStack P} : CallRun sysvars stack [] [] stack
  | cons {stack next final : CallStack P} {marks later : List (Mark P)}
      {calls others : List (Call P)} (step : CallStep sysvars stack marks calls next)
      (rest : CallRun sysvars next later others final) :
      CallRun sysvars stack (marks ++ later) (calls ++ others) final

/-- The chain with the calls of its transactions. Keys sign transactions, so no top-level
instruction has a PDA for a signer. -/
inductive HistoryStep (timeline : Timeline P) :
    World P → List (Mark P) → List (Call P) → World P → Prop where
  | committed {world : World P} {final : P.Ledger} {instructions : List P.Instruction}
      {marks : List (Mark P)} {calls : List (Call P)}
      (keyed : ∀ instruction ∈ instructions, ∀ authority,
        instruction.grantsSigner (deriveAddress P.signerProgram authority) = false)
      (run : CallRun (timeline.sysvars world.slot)
        ⟨world.ledger, instructions.map Frame.root⟩ marks calls ⟨final, []⟩) :
      HistoryStep timeline world marks calls ⟨world.slot, final⟩
  | aborted {world : World P} : HistoryStep timeline world [] [] world
  | others {world : World P} {final : P.Ledger}
      (foreign : Foreign P.nonceProgram world.ledger final) :
      HistoryStep timeline world [] [] ⟨world.slot, final⟩
  | later {world : World P} {slot : UInt64} (forward : world.slot ≤ slot) :
      HistoryStep timeline world [] [] ⟨slot, world.ledger⟩

inductive History (timeline : Timeline P) :
    World P → List (Mark P) → List (Call P) → World P → Prop where
  | nil {world : World P} : History timeline world [] [] world
  | cons {world next final : World P} {marks later : List (Mark P)}
      {calls others : List (Call P)} (step : HistoryStep timeline world marks calls next)
      (rest : History timeline next later others final) :
      History timeline world (marks ++ later) (calls ++ others) final

/-- The step of an invocation whose CPIs its own code decides, or that makes none. -/
theorem CallStep.invoke {sysvars : P.Sysvars} {ledger final : P.Ledger}
    {instruction : P.Instruction} {callers : List P.Instruction} {rest : List (Frame P)}
    {body : List (Task P)} {marks : List (Mark P)}
    (machine : MachineStep sysvars ⟨ledger, .invoke instruction :: rest.map Frame.task⟩ marks
      ⟨final, body ++ rest.map Frame.task⟩)
    (known : instruction.programId = P.executorProgram ∨
      instruction.programId = P.signerProgram ∨ body = []) :
    CallStep sysvars ⟨ledger, ⟨callers, .invoke instruction⟩ :: rest⟩ marks
      [⟨callers, instruction⟩]
      ⟨final, body.map (Frame.mk (instruction :: callers)) ++ rest⟩ := by
  refine @CallStep.step _ _ _ _ ⟨callers, .invoke instruction⟩ _ _ _ machine ?_
  intro caller callee same executor signer listed
  obtain rfl := Task.invoke.inj same
  rcases known with known | known | rfl
  · exact absurd known executor
  · exact absurd known signer
  · cases listed

section Erasure

theorem CallRun.machine {sysvars : P.Sysvars} {stack final : CallStack P} {marks : List (Mark P)}
    {calls : List (Call P)} (run : CallRun sysvars stack marks calls final) :
    MachineRun sysvars stack.machine marks final.machine := by
  induction run with
  | nil => exact .nil
  | cons step rest ih =>
      refine .cons ?_ ih
      cases step with
      | step machine permitted =>
          simpa only [CallStack.machine, List.map_cons, List.map_append, List.map_map,
            Function.comp_def, List.map_id'] using machine

variable {timeline : Timeline P}

/-- The record of a history is one of the chain. -/
theorem History.chain {start final : World P} {marks : List (Mark P)} {calls : List (Call P)}
    (history : History timeline start marks calls final) : ChainRun timeline start marks final := by
  induction history with
  | nil => exact .nil
  | cons step rest ih =>
      refine .cons ?_ ih
      cases step with
      | committed keyed run =>
          have machine := run.machine
          simp only [CallStack.machine, List.map_map, List.map_nil] at machine
          exact .committed machine
      | aborted => exact .aborted
      | others foreign => exact .others foreign
      | later forward => exact .later forward

end Erasure

section Chains

/-- Every new task of a step comes from a CPI of the invocation that took it. -/
theorem MachineStep.made {sysvars : P.Sysvars} {ledger final : P.Ledger} {task : Task P}
    {rest body : List (Task P)} {marks : List (Mark P)}
    (step : MachineStep sysvars ⟨ledger, task :: rest⟩ marks ⟨final, body ++ rest⟩)
    (permitted : ∀ caller callee, task = .invoke caller →
      caller.programId ≠ P.executorProgram → caller.programId ≠ P.signerProgram →
      .invoke callee ∈ body → ∃ cpi : P.Cpi, cpi.Permitted caller ∧ cpi.instruction = callee)
    {callee : P.Instruction} (listed : .invoke callee ∈ body) :
    ∃ caller, task = .invoke caller ∧ MadeBy callee caller := by
  generalize same : body ++ rest = tasks at step
  have issued {calls : List P.Cpi} (all : body = callTasks calls) :
      ∃ cpi ∈ calls, cpi.instruction = callee := by
    rw [all, callTasks] at listed
    obtain ⟨cpi, made, one⟩ := List.mem_map.mp listed
    exact ⟨cpi, made, Task.invoke.inj one⟩
  cases step with
  | nonce program committed =>
      rw [List.append_left_eq_self.mp same] at listed
      cases listed
  | execute program returned allowed =>
      obtain ⟨cpi, made, rfl⟩ := issued (List.append_cancel_right same)
      exact ⟨_, rfl, cpi, .executed program made (allowed cpi made), rfl⟩
  | submit program returned allowed =>
      obtain ⟨cpi, made, rfl⟩ := issued (List.append_cancel_right same)
      exact ⟨_, rfl, cpi, .submitted program made (allowed cpi made), rfl⟩
  | other program =>
      obtain ⟨cpi, allowed, rfl⟩ := permitted _ callee rfl program.2.1 program.2.2 listed
      exact ⟨_, rfl, cpi, .other program.2.1 program.2.2 allowed, rfl⟩
  | effects foreign =>
      rw [List.append_left_eq_self.mp same] at listed
      cases listed

/-- Invocations, innermost first, each made by the next, up to one of the roots. -/
structure Rooted (roots : List P.Instruction) (chain : List P.Instruction) : Prop where
  made : chain.IsChain MadeBy
  outermost : ∀ root ∈ chain.getLast?, root ∈ roots

theorem Rooted.push {roots chain : List P.Instruction} {caller callee : P.Instruction}
    (rooted : Rooted roots (caller :: chain)) (made : MadeBy callee caller) :
    Rooted roots (callee :: caller :: chain) :=
  ⟨List.isChain_cons_cons.mpr ⟨made, rooted.made⟩, by
    simpa only [List.getLast?_cons_cons] using rooted.outermost⟩

def CallStack.Rooted (roots : List P.Instruction) (stack : CallStack P) : Prop :=
  ∀ frame ∈ stack.frames, ProgrammaticSigner.Rooted roots frame.below

theorem CallStep.rooted {sysvars : P.Sysvars}
    {roots : List P.Instruction} {stack next : CallStack P} {marks : List (Mark P)}
    {calls : List (Call P)} (step : CallStep sysvars stack marks calls next)
    (rooted : stack.Rooted roots) :
    next.Rooted roots ∧ ∀ call ∈ calls, Rooted roots (call.instruction :: call.callers) := by
  cases step with
  | @step ledger final frame rest body marks machine permitted =>
      have here := rooted frame List.mem_cons_self
      constructor
      · intro other member
        rcases List.mem_append.mp member with new | old
        · obtain ⟨task, listed, rfl⟩ := List.mem_map.mp new
          cases task with
          | invoke callee =>
              obtain ⟨caller, same, made⟩ := machine.made permitted listed
              simp only [Frame.below, same] at here ⊢
              exact here.push made
          | effects => exact here
        · exact rooted other (List.mem_cons_of_mem _ old)
      · intro call member
        unfold Frame.calls at member
        split at member
        · rename_i instruction same
          obtain rfl := List.mem_singleton.mp member
          simpa only [Frame.below, same] using here
        · cases member

theorem CallRun.rooted {sysvars : P.Sysvars}
    {roots : List P.Instruction} {stack final : CallStack P} {marks : List (Mark P)}
    {calls : List (Call P)} (run : CallRun sysvars stack marks calls final)
    (rooted : stack.Rooted roots) :
    ∀ call ∈ calls, Rooted roots (call.instruction :: call.callers) := by
  induction run with
  | nil => simp
  | cons step rest ih =>
      obtain ⟨next, here⟩ := step.rooted rooted
      intro call member
      rcases List.mem_append.mp member with first | later
      · exact here call first
      · exact ih next call later

theorem CallStack.rooted_roots (ledger : P.Ledger) (instructions : List P.Instruction) :
    CallStack.Rooted instructions ⟨ledger, instructions.map Frame.root⟩ := by
  intro frame member
  obtain ⟨instruction, listed, rfl⟩ := List.mem_map.mp member
  refine ⟨List.isChain_singleton _, ?_⟩
  intro root last
  obtain rfl := Option.some.inj last
  exact listed

end Chains

/-- A platform where only the signer program derives addresses. -/
abbrev Platform.apart : Platform := { Platform.reference with
  createProgramAddress := fun seeds program =>
    if program = Platform.reference.signerProgram then some (Reference.derived seeds) else none }

namespace Apart

open Reference (authorization signature)

abbrev nonceAccount : Platform.apart.Address := Reference.nonceAccount

abbrev nonceAuthority : Platform.apart.Address := Reference.nonceAuthority

theorem keyLaws : Platform.apart.KeyLaws := ⟨Wire.tally_total, Reference.bytesWire_total⟩

theorem hashLaws : Platform.apart.HashLaws :=
  ⟨Reference.hashLaws.collision_free, Reference.hashLaws.acyclic⟩

theorem programLaws : Platform.apart.ProgramLaws :=
  ⟨by decide, by decide, by decide, by decide, by decide, by decide⟩

theorem messageLaws : Platform.apart.MessageLaws where
  wellFormed := Reference.messageLaws.wellFormed
  sanitize_iff := Reference.messageLaws.sanitize_iff
  serializes := Reference.messageLaws.serializes
  resets := Reference.messageLaws.resets
  isSigner := Reference.messageLaws.isSigner
  isMaybeWritable := Reference.messageLaws.isMaybeWritable
  compiles := Reference.messageLaws.compiles

theorem derivationLaws : Platform.apart.DerivationLaws where
  injective := Reference.derivationLaws.injective
  created := Reference.derivationLaws.created

theorem validate_ok {message : Platform.apart.Message} (formed : message.WellFormed) :
    Platform.apart.validate message = .ok () :=
  Reference.validate_ok_iff.mpr formed

def timeline : Timeline .apart := ⟨Timeline.reference.sysvars, Timeline.reference.slot_eq⟩

theorem timeline_distinct : timeline.Distinct := Timeline.reference_distinct

def ledger : Platform.apart.Ledger := Reference.ledger

theorem genesis : Genesis ledger := Reference.genesis

def state : Platform.apart.Nonce := Reference.state

def opened : Platform.apart.Ledger := Reference.opened

theorem opens : invokeNonce (timeline.sysvars 1) ledger
    (NonceClient.initializeNonce nonceAccount nonceAuthority) = .ok opened :=
  @invokeNonce_initializeNonce_ok .apart keyLaws _ ledger nonceAccount nonceAuthority 72
    ⟨0, Wire.uint64.encode 1⟩ rfl rfl rfl (by decide) rfl

theorem held : Initialized (opened nonceAccount) state :=
  ⟨rfl, Nonce.view_ok_iff.mpr ⟨rfl, by decide⟩⟩

def message : Platform.apart.Message := Reference.message

def relay : Platform.apart.Instruction := Reference.relay

theorem relay_decoded : SignerInstruction.tryFromBytes relay.data =
    .ok (.submit [some signature] (.v1 authorization) : Platform.apart.SignerInstruction) :=
  Reference.relay_decoded

theorem relay_submits : Submits relay.views [some signature] (.v1 authorization) authorization
    ⟨3, [2, 1, 4, 2, 5], Reference.execute.data⟩ where
  version := rfl
  valid := validate_ok Reference.authorization_formed
  config := rfl
  single := rfl
  mirrors := rfl
  allowed := ExecutorPolicy.validate_ok_iff.mpr ⟨rfl, _, rfl⟩
  count := rfl
  approved := by
    intro index signer given relayAccount key entry present
    match index with
    | 0 =>
        obtain rfl := Option.some.inj key
        obtain rfl := Option.some.inj entry
        exact beq_self_eq_true _
    | index + 1 => cases entry

def submission : Platform.apart.Cpi :=
  submitCpi Platform.apart.signerProgram relay.views [some signature] authorization
    ⟨3, [2, 1, 4, 2, 5], Reference.execute.data⟩

theorem relay_issues : processSignerInstruction Platform.apart.signerProgram relay.views
    relay.data = ⟨[submission], .ok ()⟩ := by
  rw [processSignerInstruction, relay_decoded, Issued.lift_ok_bind]
  exact relay_submits.processSubmit_eq messageLaws _

theorem submission_permitted : submission.Permitted relay := by decide

theorem submission_carries : Carries submission.instruction nonceAccount nonceAuthority message :=
  ⟨rfl, rfl, rfl, by decide⟩

theorem submission_issues : processExecutorInstruction opened submission.instruction.views
    submission.instruction.data = ⟨executionCpis nonceAuthority nonceAccount message, .ok ()⟩ :=
  submission_carries.issues messageLaws (validate_ok Reference.message_formed) rfl held rfl

/-- The nonce account is opened in a transaction of its own. -/
theorem opening : CallRun (timeline.sysvars 1)
    ⟨ledger, [NonceClient.initializeNonce nonceAccount nonceAuthority].map Frame.root⟩ []
    [⟨[], NonceClient.initializeNonce nonceAccount nonceAuthority⟩] ⟨opened, []⟩ :=
  .cons (@CallStep.step _ _ _ _ (.root _) [] [] _ (.nonce rfl opens)
    (fun _ _ _ _ _ member => by cases member)) .nil

/-- The steps of the submission and of what it calls. -/
theorem submits : MachineStep (timeline.sysvars 1) ⟨opened, [.invoke relay]⟩
    (submittedMarks relay) ⟨opened, callTasks [submission]⟩ := by
  have step := @MachineStep.submit .apart (timeline.sysvars 1) opened relay [] rfl
  rw [relay_issues, List.append_nil] at step
  exact step rfl (by simpa using submission_permitted)

theorem executes : MachineStep (timeline.sysvars 1) ⟨opened, [.invoke submission.instruction]⟩
    (executedMarks submission.instruction)
    ⟨opened, callTasks (executionCpis nonceAuthority nonceAccount message)⟩ := by
  have step := @MachineStep.execute .apart (timeline.sysvars 1) opened
    submission.instruction [] rfl
  rw [submission_issues, List.append_nil] at step
  exact step rfl submission_carries.covers

def advanced : Platform.apart.Ledger :=
  advanceLedger opened nonceAccount state (deriveTransitionCommitment (.v1 message))

def advance : Platform.apart.Instruction :=
  NonceClient.advance nonceAuthority nonceAccount message.lifetimeSpecifier
    (deriveTransitionCommitment (.v1 message))

theorem advances : invokeNonce (timeline.sysvars 1) opened advance = .ok advanced :=
  (invokeNonce_advance_ok_iff keyLaws).mpr ⟨state, held, rfl, rfl, rfl⟩

/-- The call of program 40 that the message asks for. -/
def called : Platform.apart.Instruction := (executionCpi message ⟨1, [0], [7]⟩).instruction

def submissionCalls : List (Call .apart) :=
  [⟨[], relay⟩, ⟨[relay], submission.instruction⟩,
    ⟨[submission.instruction, relay], advance⟩, ⟨[submission.instruction, relay], called⟩]

/-- The submission executes its message, which calls program 40. -/
theorem submitting : CallRun (timeline.sysvars 1) ⟨opened, [relay].map Frame.root⟩
    (submittedMarks relay ++ (executedMarks submission.instruction ++ []))
    submissionCalls ⟨advanced, []⟩ := by
  have first : CallStep (timeline.sysvars 1) ⟨opened, [Frame.root relay]⟩
      (submittedMarks relay) [⟨[], relay⟩]
      ⟨opened, (callTasks [submission]).map (Frame.mk [relay]) ++ []⟩ :=
    .invoke (by simpa using submits) (.inr (.inl rfl))
  have second : CallStep (timeline.sysvars 1)
      ⟨opened, [⟨[relay], .invoke submission.instruction⟩]⟩ (executedMarks submission.instruction)
      [⟨[relay], submission.instruction⟩]
      ⟨opened, (callTasks (executionCpis nonceAuthority nonceAccount message)).map
        (Frame.mk [submission.instruction, relay]) ++ []⟩ :=
    .invoke (by simpa using executes) (.inl rfl)
  have last : CallStep (timeline.sysvars 1)
      ⟨advanced, [⟨[submission.instruction, relay], .invoke called⟩]⟩ []
      [⟨[submission.instruction, relay], called⟩] ⟨advanced, [].map (Frame.mk _) ++ []⟩ :=
    .invoke (.other (by decide)) (.inr (.inr rfl))
  have third : CallStep (timeline.sysvars 1)
      ⟨opened, [⟨[submission.instruction, relay], .invoke advance⟩,
        ⟨[submission.instruction, relay], .invoke called⟩]⟩ []
      [⟨[submission.instruction, relay], advance⟩]
      ⟨advanced, [].map (Frame.mk _) ++ [⟨[submission.instruction, relay], .invoke called⟩]⟩ :=
    .invoke (.nonce rfl advances) (.inr (.inr rfl))
  exact .cons first (.cons second (.cons third (.cons last .nil)))

theorem instructions_keyed {instruction : Platform.apart.Instruction}
    (unsigned : ∀ account ∈ instruction.accounts, account.isSigner = false)
    (address : Platform.apart.Address) : instruction.grantsSigner address = false := by
  rw [Bool.eq_false_iff]
  intro signs
  obtain ⟨account, listed, -, flagged⟩ := Instruction.grantsSigner_iff.mp signs
  rw [unsigned account listed] at flagged
  cases flagged

theorem opened_step : HistoryStep timeline ⟨1, ledger⟩ []
    [⟨[], NonceClient.initializeNonce nonceAccount nonceAuthority⟩] ⟨1, opened⟩ := by
  refine @HistoryStep.committed _ _ ⟨1, ledger⟩ _ _ _ _ ?_ opening
  intro instruction member authority
  obtain rfl := List.mem_singleton.mp member
  exact instructions_keyed (by decide) _

theorem submitted_step : HistoryStep timeline ⟨1, opened⟩
    (submittedMarks relay ++ (executedMarks submission.instruction ++ [])) submissionCalls
    ⟨1, advanced⟩ := by
  refine @HistoryStep.committed _ _ ⟨1, opened⟩ _ _ _ _ ?_ submitting
  intro instruction member authority
  obtain rfl := List.mem_singleton.mp member
  exact instructions_keyed (by decide) _

theorem history : History timeline ⟨1, ledger⟩
    ([] ++ (submittedMarks relay ++ (executedMarks submission.instruction ++ []) ++ []))
    ([⟨[], NonceClient.initializeNonce nonceAccount nonceAuthority⟩] ++ (submissionCalls ++ []))
    ⟨1, advanced⟩ :=
  .cons opened_step (.cons submitted_step .nil)

theorem derivesApart : Platform.apart.DerivesApart := by
  intro program seeds authority created
  by_contra other
  have none : Platform.apart.createProgramAddress seeds program = none := if_neg other
  rw [none] at created
  cases created

end Apart

end ProgrammaticSigner
