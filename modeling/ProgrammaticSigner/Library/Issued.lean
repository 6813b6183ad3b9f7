import Mathlib

set_option autoImplicit false

/- Code whose only effect is a sequence of outgoing calls. A failing call aborts
everything around it, so what the code does after a call never depends on what
the call did, and the code is its calls in order together with its own result. -/

/-- The calls some code issues in order, and how it then returns. -/
@[ext] structure Issued (Call Error α : Type) where
  calls : List Call
  result : Except Error α

namespace Issued

variable {Call Error State α β : Type}

def bind (first : Issued Call Error α) (next : α → Issued Call Error β) : Issued Call Error β :=
  match first.result with
  | .ok value => ⟨first.calls ++ (next value).calls, (next value).result⟩
  | .error reason => ⟨first.calls, .error reason⟩

instance : Monad (Issued Call Error) where
  pure value := ⟨[], .ok value⟩
  bind := bind

/-- A computation that issues nothing. -/
def lift (outcome : Except Error α) : Issued Call Error α := ⟨[], outcome⟩

/-- Issue one call. -/
def call (outgoing : Call) : Issued Call Error Unit := ⟨[outgoing], .ok ()⟩

/-- Return early with an error. -/
def fail (reason : Error) : Issued Call Error α := ⟨[], .error reason⟩

theorem bind_def (first : Issued Call Error α) (next : α → Issued Call Error β) :
    first >>= next = bind first next := rfl

@[simp] theorem lift_ok_bind (value : α) (next : α → Issued Call Error β) :
    lift (.ok value) >>= next = next value := by
  ext <;> simp [bind_def, bind, lift]

@[simp] theorem lift_error_bind (reason : Error) (next : α → Issued Call Error β) :
    lift (.error reason) >>= next = fail reason := rfl

@[simp] theorem fail_bind (reason : Error) (next : α → Issued Call Error β) :
    fail reason >>= next = fail reason := rfl

@[simp] theorem pure_bind (value : α) (next : α → Issued Call Error β) :
    (pure value : Issued Call Error α) >>= next = next value := lift_ok_bind value next

@[simp] theorem call_bind (outgoing : Call) (next : Unit → Issued Call Error β) :
    call outgoing >>= next = ⟨outgoing :: (next ()).calls, (next ()).result⟩ := rfl

/-- After a step that issues nothing, the rest decides how the code returns. -/
@[simp] theorem lift_bind_result (outcome : Except Error α) (next : α → Issued Call Error β) :
    (lift outcome >>= next).result = outcome >>= fun value => (next value).result := by
  cases outcome <;> simp [bind, lift, Bind.bind, Except.bind]

@[simp] theorem fail_calls (reason : Error) :
    (fail reason : Issued Call Error α).calls = [] := rfl

@[simp] theorem fail_result (reason : Error) :
    (fail reason : Issued Call Error α).result = .error reason := rfl

/-- The code returned an error before it issued anything. -/
def Refused (code : Issued Call Error α) : Prop := ∃ reason, code = fail reason

@[simp] theorem refused_fail (reason : Error) :
    (fail reason : Issued Call Error α).Refused := ⟨reason, rfl⟩

@[simp] theorem not_refused_call (outgoing : Call) (rest : List Call) (result : Except Error α) :
    ¬ (⟨outgoing :: rest, result⟩ : Issued Call Error α).Refused := by
  rintro ⟨reason, same⟩
  cases congrArg calls same

@[simp] theorem refused_pure (value : α) : ¬ (pure value : Issued Call Error α).Refused := by
  rintro ⟨reason, same⟩
  cases congrArg result same

theorem not_refused_of_mem {code : Issued Call Error α} {outgoing : Call}
    (issued : outgoing ∈ code.calls) : ¬ code.Refused := by
  rintro ⟨reason, rfl⟩
  cases issued

theorem not_refused_of_ok {code : Issued Call Error α} {value : α}
    (returned : code.result = .ok value) : ¬ code.Refused := by
  rintro ⟨reason, rfl⟩
  cases returned

/-- A check that passed leaves the rest to decide. -/
theorem not_refused_bind_iff {outcome : Except Error α} {next : α → Issued Call Error β} :
    ¬ (lift outcome >>= next).Refused ↔ ∃ value, outcome = .ok value ∧ ¬ (next value).Refused := by
  cases outcome with
  | ok value => simp
  | error reason => simp

/-- Answer the calls in order, each from the state the last one left. A refused
call or an error of the code itself aborts with no new state. -/
def run (answer : State → Call → Except Error State) (state : State)
    (code : Issued Call Error α) : Except Error (α × State) := do
  let final ← code.calls.foldlM answer state
  let value ← code.result
  return (value, final)

theorem run_fail (answer : State → Call → Except Error State) (state : State) (reason : Error) :
    run answer state (fail reason : Issued Call Error α) = .error reason := rfl

theorem run_call (answer : State → Call → Except Error State) (state : State) (outgoing : Call)
    (rest : List Call) (result : Except Error α) :
    run answer state ⟨outgoing :: rest, result⟩ =
      (answer state outgoing).bind fun next => run answer next ⟨rest, result⟩ := by
  simp only [run, List.foldlM_cons]
  cases answer state outgoing <;> rfl

end Issued
