import ProgrammaticSigner.Runtime.Calls
import ProgrammaticSigner.Runtime.Completion

set_option autoImplicit false

/- The calls of a submission's transaction. They are those of the instructions that it executes,
two levels deeper, and it is there that the runtime's limits on calls see them. -/
namespace ProgrammaticSigner

open Outcome SignerClient

variable {P : Platform}

namespace Frame

/-- The same task further down. -/
def under (outer : List P.Instruction) (frame : Frame P) : Frame P :=
  ⟨frame.callers ++ outer, frame.task⟩

end Frame

/-- The same invocation further down. -/
def Call.under (outer : List P.Instruction) (call : Call P) : Call P :=
  ⟨call.callers ++ outer, call.instruction⟩

/-- A transaction that completes with these calls, which the runtime allows: how deep they go,
which programs they enter again, how many accounts each of them passes. -/
structure Completes (limits : List (Call P) → Prop) (sysvars : P.Sysvars) (ledger : P.Ledger)
    (frames : List (Frame P)) (marks : List (Mark P)) (calls : List (Call P)) (final : P.Ledger) :
    Prop where
  run : CallRun sysvars ⟨ledger, frames⟩ marks calls ⟨final, []⟩
  allowed : limits calls

section Frames

variable {sysvars : P.Sysvars} {ledger final : P.Ledger} {marks : List (Mark P)}
  {calls : List (Call P)}

/-- A step does not look at what waits behind it. -/
theorem MachineStep.reframe {task : Task P} {rest body : List (Task P)}
    (step : MachineStep sysvars ⟨ledger, task :: rest⟩ marks ⟨final, body ++ rest⟩)
    (others : List (Task P)) :
    MachineStep sysvars ⟨ledger, task :: others⟩ marks ⟨final, body ++ others⟩ := by
  generalize same : body ++ rest = tasks at step
  cases step with
  | nonce program committed =>
      rw [List.append_left_eq_self.mp same]
      exact .nonce program committed
  | execute program returned permitted =>
      rw [List.append_cancel_right same]
      exact .execute program returned permitted
  | submit program returned permitted =>
      rw [List.append_cancel_right same]
      exact .submit program returned permitted
  | other program =>
      rw [List.append_cancel_right same]
      exact .other program
  | effects foreign =>
      rw [List.append_left_eq_self.mp same]
      exact .effects foreign

theorem CallStep.reframe {frame : Frame P} {rest : List (Frame P)} {next : CallStack P}
    (step : CallStep sysvars ⟨ledger, frame :: rest⟩ marks calls next) :
    ∃ body final, next = ⟨final, body ++ rest⟩ ∧ ∀ others,
      CallStep sysvars ⟨ledger, frame :: others⟩ marks calls ⟨final, body ++ others⟩ := by
  cases step with
  | step machine permitted =>
      exact ⟨_, _, rfl, fun others => .step (machine.reframe _) permitted⟩

/-- A run of one part of a stack, and then of what waits behind it. -/
theorem CallRun.extend {first : CallStack P} {middle : P.Ledger}
    (run : CallRun sysvars first marks calls ⟨middle, []⟩) {rest : List (Frame P)}
    {late : List (Mark P)} {after : List (Call P)} {last : CallStack P}
    (behind : CallRun sysvars ⟨middle, rest⟩ late after last) :
    CallRun sysvars ⟨first.ledger, first.frames ++ rest⟩ (marks ++ late) (calls ++ after) last := by
  generalize reached : (⟨middle, []⟩ : CallStack P) = stop at run
  induction run with
  | nil =>
      subst reached
      exact behind
  | @cons stack next stop marks later calls others step ran ih =>
      obtain ⟨ledger, frames⟩ := stack
      cases frames with
      | nil => cases step
      | cons frame frames =>
          obtain ⟨body, moved, rfl, extended⟩ := step.reframe
          have goes := ih reached
          rw [List.append_assoc] at goes
          rw [List.append_assoc, List.append_assoc]
          exact .cons (extended (frames ++ rest)) goes

theorem CallRun.split {first rest : List (Frame P)}
    (run : CallRun sysvars ⟨ledger, first ++ rest⟩ marks calls ⟨final, []⟩) :
    ∃ middle early late before after, marks = early ++ late ∧ calls = before ++ after ∧
      CallRun sysvars ⟨ledger, first⟩ early before ⟨middle, []⟩ ∧
      CallRun sysvars ⟨middle, rest⟩ late after ⟨final, []⟩ := by
  generalize begun : (⟨ledger, first ++ rest⟩ : CallStack P) = start at run
  generalize reached : (⟨final, []⟩ : CallStack P) = stop at run
  induction run generalizing ledger first with
  | nil =>
      subst reached
      obtain ⟨rfl, none⟩ := CallStack.mk.inj begun
      obtain ⟨rfl, rfl⟩ := List.append_eq_nil_iff.mp none
      exact ⟨ledger, [], [], [], [], rfl, rfl, .nil, .nil⟩
  | @cons stack next stop marks later calls others step ran ih =>
      subst begun
      cases first with
      | nil => exact ⟨ledger, [], _, [], _, rfl, rfl, .nil, .cons step ran⟩
      | cons frame first =>
          obtain ⟨body, moved, rfl, extended⟩ := step.reframe
          obtain ⟨middle, early, late, before, after, rfl, rfl, one, two⟩ :=
            @ih moved (body ++ first) (by rw [List.append_assoc]; rfl) reached
          exact ⟨middle, marks ++ early, late, calls ++ before, after,
            (List.append_assoc ..).symm, (List.append_assoc ..).symm, .cons (extended first) one,
            two⟩

/-- What runs further down runs the same, with its calls further down. -/
theorem CallStep.under (outer : List P.Instruction) {stack next : CallStack P}
    (step : CallStep sysvars stack marks calls next) :
    CallStep sysvars ⟨stack.ledger, stack.frames.map (Frame.under outer)⟩ marks
      (calls.map (Call.under outer)) ⟨next.ledger, next.frames.map (Frame.under outer)⟩ := by
  cases step with
  | @step ledger final frame rest body marks machine permitted =>
      have tasks : (rest.map (Frame.under outer)).map Frame.task = rest.map Frame.task := by
        simp [Frame.under, Function.comp_def]
      have below : (frame.under outer).below = frame.below ++ outer := by
        unfold Frame.below Frame.under
        cases frame.task <;> rfl
      have called : (frame.under outer).calls = frame.calls.map (Call.under outer) := by
        unfold Frame.calls Frame.under
        cases frame.task <;> rfl
      have moved := @CallStep.step _ sysvars ledger final (frame.under outer)
        (rest.map (Frame.under outer)) body marks (by rw [tasks]; exact machine) permitted
      rw [below, called] at moved
      simpa [Frame.under, Function.comp_def] using moved

theorem CallRun.under (outer : List P.Instruction) {stack last : CallStack P}
    (run : CallRun sysvars stack marks calls last) :
    CallRun sysvars ⟨stack.ledger, stack.frames.map (Frame.under outer)⟩ marks
      (calls.map (Call.under outer)) ⟨last.ledger, last.frames.map (Frame.under outer)⟩ := by
  induction run with
  | nil => exact .nil
  | cons step rest ih =>
      rw [List.map_append]
      exact .cons (step.under outer) ih

end Frames

/-- A relay's transaction completes as some instructions do on a nonce that advanced. Behind the
relay, the execution and the advance, its calls are theirs below the relay and the execution;
whatever limits the runtime has on calls, they apply to these. -/
def RunsBelow (relay : P.Instruction) (nonceAccount nonceAuthority : P.Address)
    (message executionMessage : P.Message) (ledger : P.Ledger) (state : P.Nonce)
    (direct : List P.Instruction) : Prop :=
  ∃ execute, Carries execute nonceAccount nonceAuthority executionMessage ∧
    ∀ (limits : List (Call P) → Prop) (sysvars : P.Sysvars) rest marks calls final,
      Completes limits sysvars ledger (.root relay :: rest) marks calls final ↔
      ∃ middle early late own others,
        marks = .submitted (.v1 message) :: .executed nonceAccount state.nonce ::
          (early ++ late) ∧
        calls = ⟨[], relay⟩ :: ⟨[relay], execute⟩ ::
          ⟨[execute, relay], advanceOf nonceAccount nonceAuthority executionMessage⟩ ::
            (own.map (Call.under [execute, relay]) ++ others) ∧
        limits calls ∧
        CallRun sysvars ⟨advanceLedger ledger nonceAccount state
          (deriveTransitionCommitment (.v1 executionMessage)), direct.map .root⟩ early own
          ⟨middle, []⟩ ∧
        CallRun sysvars ⟨middle, rest⟩ late others ⟨final, []⟩

section Submission

variable {relay : P.Instruction} {signatures : List (Option P.Signature)} {message : P.Message}
  {ledger : P.Ledger} {nonceAccount nonceAuthority : P.Address} {executionMessage : P.Message}
  {signers : List P.Address} {state : P.Nonce}

end Submission

namespace Reference

/-- No more than five levels of calls. -/
def shallow (calls : List (Call .reference)) : Prop := ∀ call ∈ calls, call.callers.length < 5

end Reference

end ProgrammaticSigner
