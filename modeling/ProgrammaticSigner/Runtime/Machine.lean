import ProgrammaticSigner.Nonce.Freshness
import ProgrammaticSigner.Signer.Facts

set_option autoImplicit false

/- Transactions as the runtime runs them: a tree of invocations, taken depth first.
The tasks that remain stand on a stack, and a CPI's tasks go on top. -/
namespace ProgrammaticSigner

variable {P : Platform}

/-- What remains to be done: an invocation, or changes of another program's own. -/
inductive Task (P : Platform) where
  | invoke (instruction : P.Instruction)
  | effects

/-- What a committed transaction leaves on record. -/
inductive Mark (P : Platform) where
  | executed (nonceAccount : P.Address) (nonce : P.Hash)
  | submitted (message : P.VersionedMessage)

/-- The nonce account an `Execute` names and the value it consumes. -/
def executeTarget (accounts : List P.Address) (data : List UInt8) : Option (P.Address × P.Hash) :=
  match accounts, ExecutorInstruction.tryFromBytes (P := P) data with
  | _ :: nonceAccount :: _, .ok (.execute (.v1 message)) =>
      some (nonceAccount, message.lifetimeSpecifier)
  | _, _ => none

/-- What an execution that completes goes on record as. -/
def executedMarks (instruction : P.Instruction) : List (Mark P) :=
  match executeTarget (instruction.accounts.map AccountMeta.pubkey) instruction.data with
  | some (nonceAccount, nonce) => [.executed nonceAccount nonce]
  | none => []

def submittedMarks (instruction : P.Instruction) : List (Mark P) :=
  match SignerInstruction.tryFromBytes (P := P) instruction.data with
  | .ok (.submit _ message) => [.submitted message]
  | .error _ => []

structure Machine (P : Platform) where
  ledger : P.Ledger
  tasks : List (Task P)

/-- The invocations of some CPIs. -/
def callTasks (calls : List P.Cpi) : List (Task P) := calls.map fun cpi => .invoke cpi.instruction

/-- One step of a transaction in a slot, with what it puts on record. A program that
returns an error has no step, so its whole transaction never completes. The runtime also limits
how deep calls go, which programs they enter again and how many accounts each passes (128 from
these programs). No step depends on these limits, so every transaction of the chain is a run, and
what completes is told under them where it matters. -/
inductive MachineStep (sysvars : P.Sysvars) : Machine P → List (Mark P) → Machine P → Prop where
  | nonce {ledger final : P.Ledger} {instruction : P.Instruction} {rest : List (Task P)}
      (program : instruction.programId = P.nonceProgram)
      (committed : invokeNonce sysvars ledger instruction = .ok final) :
      MachineStep sysvars ⟨ledger, .invoke instruction :: rest⟩ [] ⟨final, rest⟩
  | execute {ledger : P.Ledger} {instruction : P.Instruction} {rest : List (Task P)}
      (program : instruction.programId = P.executorProgram)
      (returned : (processExecutorInstruction ledger instruction.views instruction.data).result =
        .ok ())
      (permitted : ∀ cpi ∈ (processExecutorInstruction ledger instruction.views
        instruction.data).calls, cpi.Permitted instruction) :
      MachineStep sysvars ⟨ledger, .invoke instruction :: rest⟩ (executedMarks instruction)
        ⟨ledger, callTasks (processExecutorInstruction ledger instruction.views
          instruction.data).calls ++ rest⟩
  | submit {ledger : P.Ledger} {instruction : P.Instruction} {rest : List (Task P)}
      (program : instruction.programId = P.signerProgram)
      (returned : (processSignerInstruction P.signerProgram instruction.views
        instruction.data).result = .ok ())
      (permitted : ∀ cpi ∈ (processSignerInstruction P.signerProgram instruction.views
        instruction.data).calls, cpi.Permitted instruction) :
      MachineStep sysvars ⟨ledger, .invoke instruction :: rest⟩ (submittedMarks instruction)
        ⟨ledger, callTasks (processSignerInstruction P.signerProgram instruction.views
          instruction.data).calls ++ rest⟩
  | other {ledger : P.Ledger} {instruction : P.Instruction} {body rest : List (Task P)}
      (program : instruction.programId ≠ P.nonceProgram ∧
        instruction.programId ≠ P.executorProgram ∧ instruction.programId ≠ P.signerProgram) :
      MachineStep sysvars ⟨ledger, .invoke instruction :: rest⟩ [] ⟨ledger, body ++ rest⟩
  | effects {ledger final : P.Ledger} {rest : List (Task P)}
      (foreign : Foreign P.nonceProgram ledger final) :
      MachineStep sysvars ⟨ledger, .effects :: rest⟩ [] ⟨final, rest⟩

/-- Steps in a row, with their record in order. -/
inductive MachineRun (sysvars : P.Sysvars) : Machine P → List (Mark P) → Machine P → Prop where
  | nil {machine : Machine P} : MachineRun sysvars machine [] machine
  | cons {machine next final : Machine P} {marks later : List (Mark P)}
      (step : MachineStep sysvars machine marks next)
      (rest : MachineRun sysvars next later final) :
      MachineRun sysvars machine (marks ++ later) final

/-- The chain takes transactions whole: one that does not complete changes nothing and
leaves no record. -/
inductive ChainStep (timeline : Timeline P) : World P → List (Mark P) → World P → Prop where
  | committed {world : World P} {final : P.Ledger} {instructions : List P.Instruction}
      {marks : List (Mark P)}
      (run : MachineRun (timeline.sysvars world.slot)
        ⟨world.ledger, instructions.map .invoke⟩ marks ⟨final, []⟩) :
      ChainStep timeline world marks ⟨world.slot, final⟩
  | aborted {world : World P} : ChainStep timeline world [] world
  | others {world : World P} {final : P.Ledger}
      (foreign : Foreign P.nonceProgram world.ledger final) :
      ChainStep timeline world [] ⟨world.slot, final⟩
  | later {world : World P} {slot : UInt64} (forward : world.slot ≤ slot) :
      ChainStep timeline world [] ⟨slot, world.ledger⟩

inductive ChainRun (timeline : Timeline P) : World P → List (Mark P) → World P → Prop where
  | nil {world : World P} : ChainRun timeline world [] world
  | cons {world next final : World P} {marks later : List (Mark P)}
      (step : ChainStep timeline world marks next)
      (rest : ChainRun timeline next later final) :
      ChainRun timeline world (marks ++ later) final

/-- The committed executions of a record, by what they consumed. -/
def consumedBy (marks : List (Mark P)) : List (P.Address × P.Hash) :=
  marks.filterMap fun
    | .executed nonceAccount nonce => some (nonceAccount, nonce)
    | .submitted _ => none

/-- The committed submissions of a record, by authorization message. -/
def submittedBy (marks : List (Mark P)) : List P.VersionedMessage :=
  marks.filterMap fun
    | .executed _ _ => none
    | .submitted message => some message

end ProgrammaticSigner
