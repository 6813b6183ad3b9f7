import ProgrammaticSigner.Library.Issued
import ProgrammaticSigner.Nonce.State

set_option autoImplicit false

/- Accounts, and how the runtime hands them to a program and checks its CPIs. -/
namespace ProgrammaticSigner

structure Account (Address Hash : Type) where
  lamports : UInt64
  owner : Address
  data : AccountData Address Hash
  deriving DecidableEq

/-- An account as an instruction sees it. Its state stays in the ledger, which
every view of one address shares. -/
structure AccountView (Address : Type) where
  address : Address
  isSigner : Bool
  isWritable : Bool
  deriving DecidableEq

/-- An outgoing invocation with the seeds the caller signs with. -/
structure Cpi (Address : Type) where
  instruction : Instruction Address
  signers : List (List (List UInt8))
  deriving DecidableEq

structure SlotHashEntry (Hash : Type) where
  slot : UInt64
  hash : Hash

/-- The sysvars of one slot. Slot hashes are those of earlier slots. -/
structure Sysvars (Hash : Type) where
  slot : UInt64
  slotHashes : List (SlotHashEntry Hash)
  earlier : ∀ entry ∈ slotHashes, entry.slot < slot

namespace Platform

variable (P : Platform)

abbrev Account := ProgrammaticSigner.Account P.Address P.Hash
abbrev AccountView := ProgrammaticSigner.AccountView P.Address
abbrev Cpi := ProgrammaticSigner.Cpi P.Address
abbrev Sysvars := ProgrammaticSigner.Sysvars P.Hash
abbrev Ledger := P.Address → P.Account

/-- What a program that only reads accounts does. -/
abbrev Issues := Issued P.Cpi ProgramError

end Platform

namespace Instruction

variable {Address : Type} [DecidableEq Address]

def grantsSigner (instruction : Instruction Address) (address : Address) : Bool :=
  instruction.accounts.any fun account => account.pubkey = address && account.isSigner

def grantsWritable (instruction : Instruction Address) (address : Address) : Bool :=
  instruction.accounts.any fun account => account.pubkey = address && account.isWritable

/-- The runtime merges the privileges of every occurrence of an address. -/
def views (instruction : Instruction Address) : List (AccountView Address) :=
  instruction.accounts.map fun account =>
    ⟨account.pubkey, instruction.grantsSigner account.pubkey,
      instruction.grantsWritable account.pubkey⟩

@[simp] theorem views_addresses (instruction : Instruction Address) :
    instruction.views.map AccountView.address =
      instruction.accounts.map AccountMeta.pubkey := by
  simp only [views, List.map_map]
  rfl

@[simp] theorem views_length (instruction : Instruction Address) :
    instruction.views.length = instruction.accounts.length :=
  List.length_map _

theorem grantsSigner_iff {instruction : Instruction Address} {address : Address} :
    instruction.grantsSigner address = true ↔
      ∃ account ∈ instruction.accounts, account.pubkey = address ∧ account.isSigner = true := by
  simp [grantsSigner]

theorem grantsWritable_iff {instruction : Instruction Address} {address : Address} :
    instruction.grantsWritable address = true ↔
      ∃ account ∈ instruction.accounts, account.pubkey = address ∧ account.isWritable = true := by
  simp [grantsWritable]

theorem mem_views {instruction : Instruction Address} {view : AccountView Address}
    (member : view ∈ instruction.views) :
    (∃ account ∈ instruction.accounts, account.pubkey = view.address) ∧
      view.isSigner = instruction.grantsSigner view.address ∧
      view.isWritable = instruction.grantsWritable view.address := by
  obtain ⟨account, listed, rfl⟩ := List.mem_map.mp member
  exact ⟨⟨account, listed, rfl⟩, rfl, rfl⟩

end Instruction

section Privileges

variable {P : Platform}

/-- The PDAs a caller signs for. -/
def Cpi.signsFor (caller : P.Address) (cpi : P.Cpi) (address : P.Address) : Prop :=
  ∃ seeds ∈ cpi.signers, P.createProgramAddress seeds caller = some address

/-- The runtime passes a CPI on only if it names accounts the caller was given and
asks for no privilege beyond the caller's own and the PDAs it signs for. -/
def Cpi.Permitted (caller : P.Instruction) (cpi : P.Cpi) : Prop :=
  ∀ account ∈ cpi.instruction.accounts,
    (∃ own ∈ caller.accounts, own.pubkey = account.pubkey) ∧
    (account.isSigner = true →
      caller.grantsSigner account.pubkey = true ∨ cpi.signsFor caller.programId account.pubkey) ∧
    (account.isWritable = true → caller.grantsWritable account.pubkey = true)

instance (caller : P.Address) (cpi : P.Cpi) (address : P.Address) :
    Decidable (cpi.signsFor caller address) := by
  unfold Cpi.signsFor
  infer_instance

instance (caller : P.Instruction) (cpi : P.Cpi) : Decidable (cpi.Permitted caller) := by
  unfold Cpi.Permitted
  infer_instance

/-- A permitted CPI's signers come from the caller or from the seeds. -/
theorem Cpi.Permitted.signer {caller : P.Instruction} {cpi : P.Cpi}
    (permitted : cpi.Permitted caller) {address : P.Address}
    (signs : cpi.instruction.grantsSigner address = true) :
    caller.grantsSigner address = true ∨ cpi.signsFor caller.programId address := by
  obtain ⟨account, listed, rfl, flagged⟩ := Instruction.grantsSigner_iff.mp signs
  exact (permitted account listed).2.1 flagged

end Privileges

end ProgrammaticSigner
