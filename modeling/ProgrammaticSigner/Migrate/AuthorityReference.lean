import ProgrammaticSigner.Migrate.AuthorityRules
import ProgrammaticSigner.Migrate.TokenReference

set_option autoImplicit false

/- Programs over the reference toolkit, which read the instructions that it builds and keep the
documented rules for authorities and balances. -/
namespace ProgrammaticSigner

open Outcome

namespace Reference

abbrev Authorities := AuthorityLedger Platform.reference

def handOver (now : Moment) (custodian : Option Nat) (ledger : Authorities)
    (seat : Platform.reference.AuthoritySeat) (current authority : Nat) :
    Except ProgramError Authorities :=
  if ledger.holder seat = some current ∧
      (authoritySeating MigrateToolkit.reference now custodian).allows ledger seat then
    .ok (ledger.pass seat authority)
  else .error .invalidArgument

def transferSol (ledger : Authorities) (source destination : Nat) (lamports : UInt64) :
    Except ProgramError Authorities :=
  if ledger.isPlain source = true ∧ lamports ≤ ledger.lamports source ∧
      (ledger.lamports destination).toNat + lamports.toNat < 2 ^ 64 then
    .ok (ledger.transfer source destination lamports)
  else .error .insufficientFunds

/-- What the data of an instruction says, with its accounts. -/
def invokeAuthority (now : Moment) (ledger : Authorities) (instruction : Instruction Nat) :
    Except ProgramError Authorities :=
  match instruction.accounts.map AccountMeta.pubkey, instruction.data with
  | account :: current :: authority :: custodian, [10, role] =>
      handOver now custodian.head? ledger
        (.stake account (if role = 0 then .staker else .withdrawer)) current authority
  | [account, current, authority], [7, 1] => handOver now none ledger (.vote account) current authority
  | [program, current, authority], [7] => handOver now none ledger (.program program) current authority
  | [address, current], 6 :: role :: rest =>
      match Wire.tally.option.decode rest with
      | some (some authority, []) => handOver now none ledger
          (.mint instruction.programId address (if role = 0 then .mint else .freeze)) current
          authority
      | _ => .error .invalidInstructionData
  | [source, destination], 2 :: rest =>
      match Wire.uint64.decode rest with
      | some (lamports, []) => transferSol ledger source destination lamports
      | _ => .error .invalidInstructionData
  | _, _ => .error .invalidInstructionData

def authorityRuntime : AuthorityRuntime Platform.reference where
  invoke now ledger instruction :=
    if instruction.programId = (22 : Nat) then .ok ledger
    else invokeAuthority now ledger instruction

theorem invokeAuthority_of_other {now : Moment} {ledger : Authorities}
    {instruction : Instruction Nat} (other : instruction.programId ≠ 22) :
    authorityRuntime.invoke now ledger instruction = invokeAuthority now ledger instruction :=
  if_neg other

theorem locksUp : MigrateToolkit.reference.LocksUp := by
  intro lockup clock custodian
  simp [lockupInForce]

theorem handOver_carries {now : Moment} {custodian : Option Nat}
    {seat : Platform.reference.AuthoritySeat} {current authority : Nat}
    {instruction : Instruction Nat}
    (reads : ∀ ledger, authorityRuntime.invoke now ledger instruction =
      handOver now custodian ledger seat current authority) :
    (authoritySeating MigrateToolkit.reference now custodian).Carries (authorityRuntime.invoke now)
      authority (seat, current) instruction := by
  intro ledger after held
  rw [reads, handOver]
  split
  · rename_i permitted
    rw [Except.ok.injEq, eq_comm]
    exact (and_iff_right permitted.2).symm
  · rename_i refused
    refine iff_of_false (fun same => nomatch same) fun permitted => refused ⟨held, permitted.1⟩

theorem authorityRuntime_laws : authorityRuntime.Laws MigrateToolkit.reference where
  stake now account current authority role custodian := by
    refine handOver_carries fun ledger => ?_
    cases role <;> cases custodian <;> rfl
  vote now account current authority := handOver_carries fun ledger => rfl
  mint now tokenProgram address current authority role instruction built := by
    refine handOver_carries fun ledger => ?_
    obtain ⟨program, rfl⟩ := forTokenProgram_ok built
    have decoded := Wire.tally.option.decode_encode (some authority)
      (Wire.option_total Wire.tally_total _) []
    rw [List.append_nil] at decoded
    rw [invokeAuthority_of_other program]
    cases role <;>
      simp only [invokeAuthority, List.map_cons, signersOf, List.map_nil, decoded] <;> rfl
  program now program current authority := handOver_carries fun ledger => rfl
  transfer now ledger source destination lamports after apart := by
    have decoded := Wire.uint64.decode_encode lamports (Wire.uint64_total lamports) []
    rw [List.append_nil] at decoded
    have reads : authorityRuntime.invoke now ledger
        (MigrateToolkit.reference.transfer source destination lamports) =
          transferSol ledger source destination lamports := by
      have other : (MigrateToolkit.reference.transfer source destination lamports).programId ≠ 22 :=
        show (0 : Nat) ≠ 22 by decide
      rw [invokeAuthority_of_other other]
      simp only [invokeAuthority, List.map_cons, List.map_nil, decoded]
      rfl
    rw [reads, transferSol]
    split
    · rename_i permitted
      rw [Except.ok.injEq]
      exact ⟨fun same => ⟨permitted.1, permitted.2.1, permitted.2.2, same.symm⟩,
        fun all => all.2.2.2.symm⟩
    · rename_i refused
      refine iff_of_false (fun same => nomatch same) fun permitted => refused ?_
      exact ⟨permitted.1, permitted.2.1, permitted.2.2.1⟩
  memo now ledger text signers after := by
    show Except.ok ledger = .ok after ↔ _
    rw [Except.ok.injEq]
    exact eq_comm

end Reference

end ProgrammaticSigner
