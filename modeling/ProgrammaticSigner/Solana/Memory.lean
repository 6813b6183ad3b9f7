import ProgrammaticSigner.Solana.Ledger

set_option autoImplicit false

/- The accounts of one running instruction: the shared state behind the views and
the guards on borrowed data. An error keeps the state it was raised in. -/
namespace ProgrammaticSigner

/-- Data is either free, read through some guards, or written through one. -/
inductive BorrowState where
  | free
  | shared (guards : Nat)
  | exclusive
  deriving DecidableEq

structure Memory (P : Platform) where
  accounts : P.Ledger
  borrows : P.Address → BorrowState

/-- A program body that changes accounts. -/
abbrev ProgramM (P : Platform) := EStateM ProgramError (Memory P)

/-- No guard is live when an instruction starts. -/
def Memory.start {P : Platform} (ledger : P.Ledger) : Memory P := ⟨ledger, fun _ => .free⟩

namespace AccountView

variable {P : Platform}

def account (view : P.AccountView) : ProgramM P P.Account :=
  return (← get).accounts view.address

def lamports (view : P.AccountView) : ProgramM P UInt64 := return (← view.account).lamports

def ownedBy (view : P.AccountView) (program : P.Address) : ProgramM P Bool :=
  return (← view.account).owner == program

def tryBorrow (view : P.AccountView) : ProgramM P P.AccountData := do
  let memory ← get
  match memory.borrows view.address with
  | .free => set { memory with borrows := Function.update memory.borrows view.address (.shared 1) }
  | .shared guards =>
      set { memory with
        borrows := Function.update memory.borrows view.address (.shared (guards + 1)) }
  | .exclusive => throw .accountBorrowFailed
  return (memory.accounts view.address).data

def tryBorrowMut (view : P.AccountView) : ProgramM P P.AccountData := do
  let memory ← get
  match memory.borrows view.address with
  | .free => set { memory with borrows := Function.update memory.borrows view.address .exclusive }
  | _ => throw .accountBorrowFailed
  return (memory.accounts view.address).data

/-- Drop one guard. -/
def release (view : P.AccountView) : ProgramM P Unit := do
  let memory ← get
  let next := match memory.borrows view.address with
    | .shared (guards + 2) => .shared (guards + 1)
    | _ => .free
  set { memory with borrows := Function.update memory.borrows view.address next }

def modifyAccount (view : P.AccountView) (change : P.Account → P.Account) : ProgramM P Unit := do
  let memory ← get
  set { memory with
    accounts := Function.update memory.accounts view.address
      (change (memory.accounts view.address)) }

def setLamports (view : P.AccountView) (amount : UInt64) : ProgramM P Unit :=
  view.modifyAccount fun account => { account with lamports := amount }

def setData (view : P.AccountView) (data : P.AccountData) : ProgramM P Unit :=
  view.modifyAccount fun account => { account with data := data }

/-- Drop the data and the lamports and assign the account to the System Program,
unless the data is borrowed. -/
def close (view : P.AccountView) : ProgramM P Unit := do
  if (← get).borrows view.address ≠ .free then throw .accountBorrowFailed
  view.modifyAccount fun _ => ⟨0, default, .empty⟩

end AccountView

/-- Run a check inside a program body. -/
def ProgramM.check {P : Platform} {α : Type} (outcome : Except ProgramError α) : ProgramM P α :=
  match outcome with
  | .ok value => return value
  | .error reason => throw reason

namespace ProgramM

variable {P : Platform} {α β : Type}

theorem run_bind_ok_iff {first : ProgramM P α} {next : α → ProgramM P β} {start final : Memory P}
    {value : β} :
    (first >>= next) start = .ok value final ↔
      ∃ middle memory, first start = .ok middle memory ∧ next middle memory = .ok value final := by
  simp only [bind, EStateM.bind]
  cases first start <;> simp

theorem run_check_ok_iff {outcome : Except ProgramError α} {value : α} {start final : Memory P} :
    check outcome start = .ok value final ↔ outcome = .ok value ∧ start = final := by
  cases outcome with
  | ok found => simp [check, pure, EStateM.pure]
  | error reason => simp [check, throw, throwThe, MonadExceptOf.throw, EStateM.throw]

@[simp] theorem run_throw {reason : ProgramError} {start : Memory P} :
    (throw reason : ProgramM P α) start = .error reason start := rfl

end ProgramM

end ProgrammaticSigner
