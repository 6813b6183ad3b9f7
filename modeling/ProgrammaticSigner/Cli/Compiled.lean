import ProgrammaticSigner.Cli.Signed
import ProgrammaticSigner.Cli.SizedReference
import ProgrammaticSigner.Runtime.Relayed

set_option autoImplicit false

/- Instructions on their way through a message: compiled, signed, relayed, and run by the
executor. They arrive as a transaction of them would load them. -/
namespace ProgrammaticSigner

open Outcome

variable {P : Platform}

/-- What compiling gives: the instructions share one list of keys with the fee payer, and a
key signs, or is writable, if any of them asks for it. -/
structure Compiled (feePayer : P.Address) (instructions : List P.Instruction) (blockhash : P.Hash)
    (config : TransactionConfig) (message : P.Message) : Prop where
  config : message.config = config
  lifetime : message.lifetimeSpecifier = blockhash
  keys : ∀ address, address ∈ message.accountKeys ↔ address = feePayer ∨
    ∃ instruction ∈ instructions, address = instruction.programId ∨
      address ∈ instruction.accounts.map AccountMeta.pubkey
  signers : ∀ address, address ∈ message.signerKeys ↔ address = feePayer ∨
    ∃ instruction ∈ instructions, instruction.grantsSigner address = true
  writable : ∀ (index : Nat) address, message.accountKeys[index]? = some address →
    (message.isWritableIndex index = true ↔ address = feePayer ∨
      ∃ instruction ∈ instructions, instruction.grantsWritable address = true)
  instructions : List.Forall₂ (fun instruction entry =>
    message.accountKeys[entry.programIdIndex.toNat]? = some instruction.programId ∧
    entry.accounts.map (fun index => message.accountKeys[index.toNat]?) =
      instruction.accounts.map (fun account => some account.pubkey) ∧
    entry.data = instruction.data) instructions message.instructions

/-- A transaction of some instructions, with its fee payer first. -/
structure Payment (P : Platform) where
  feePayer : P.Address
  instructions : List P.Instruction

namespace Payment

variable (payment : Payment P)

/-- An account of the transaction, or one of its programs. -/
def lists (address : P.Address) : Bool :=
  address = payment.feePayer || payment.instructions.any fun instruction =>
    address = instruction.programId || address ∈ instruction.accounts.map AccountMeta.pubkey

def signs (address : P.Address) : Bool :=
  address = payment.feePayer || payment.instructions.any (·.grantsSigner address)

def calls (address : P.Address) : Bool :=
  payment.instructions.any fun instruction => instruction.programId = address

/-- A program that is called is not written, unless the loader is there to upgrade it. -/
def writes (address : P.Address) : Bool :=
  (address = payment.feePayer || payment.instructions.any (·.grantsWritable address)) &&
    !(payment.calls address && !payment.lists P.upgradeableLoader)

/-- An instruction as the transaction loads it. -/
def load (instruction : P.Instruction) : P.Instruction where
  programId := instruction.programId
  accounts := instruction.accounts.map fun account =>
    ⟨account.pubkey, payment.signs account.pubkey, payment.writes account.pubkey⟩
  data := instruction.data

def tasks : List (Task P) := payment.instructions.map fun instruction =>
  .invoke (payment.load instruction)

variable {payment}

theorem lists_iff {address : P.Address} : payment.lists address = true ↔
    address = payment.feePayer ∨ ∃ instruction ∈ payment.instructions,
      address = instruction.programId ∨
        address ∈ instruction.accounts.map AccountMeta.pubkey := by
  simp [lists]

theorem signs_iff {address : P.Address} : payment.signs address = true ↔
    address = payment.feePayer ∨
      ∃ instruction ∈ payment.instructions, instruction.grantsSigner address = true := by
  simp [signs]

theorem calls_iff {address : P.Address} : payment.calls address = true ↔
    ∃ instruction ∈ payment.instructions, instruction.programId = address := by
  simp [calls]

/-- A loaded instruction asks for no less than the instruction itself, apart from writing to
programs that are called. -/
theorem loadedAs_of_uncalled {instruction : P.Instruction}
    (listed : instruction ∈ payment.instructions)
    (uncalled : ∀ account ∈ instruction.accounts, account.isWritable = true →
      payment.calls account.pubkey = false) : LoadedAs (payment.load instruction) instruction := by
  refine ⟨rfl, rfl, List.forall₂_map_left_iff.mpr (List.forall₂_same.mpr fun account among => ?_)⟩
  refine ⟨rfl, fun marked => ?_, fun marked => ?_⟩
  · exact signs_iff.mpr (.inr ⟨instruction, listed,
      Instruction.grantsSigner_iff.mpr ⟨account, among, rfl, marked⟩⟩)
  · have asked : payment.instructions.any (·.grantsWritable account.pubkey) = true :=
      List.any_eq_true.mpr ⟨instruction, listed,
        Instruction.grantsWritable_iff.mpr ⟨account, among, rfl, marked⟩⟩
    simp [writes, uncalled account among marked, asked]

end Payment

section Compiled

variable {feePayer : P.Address} {instructions : List P.Instruction} {blockhash : P.Hash}
  {config : TransactionConfig} {message : P.Message}

theorem Compiled.withLifetime
    (compiled : Compiled feePayer instructions blockhash config message) (lifetime : P.Hash) :
    Compiled feePayer instructions lifetime config
      { message with lifetimeSpecifier := lifetime } :=
  ⟨compiled.config, rfl, compiled.keys, compiled.signers, compiled.writable,
    compiled.instructions⟩

variable (messages : P.MessageLaws) (formed : message.WellFormed)
  (compiled : Compiled feePayer instructions blockhash config message)
include formed compiled

theorem Compiled.called_iff {index : Nat} {address : P.Address}
    (key : message.accountKeys[index]? = some address) :
    message.isCalledAsProgram index = Payment.calls ⟨feePayer, instructions⟩ address := by
  obtain ⟨inside, -⟩ := List.getElem?_eq_some_iff.mp key
  rw [Bool.eq_iff_iff, Payment.calls_iff, Message.isCalledAsProgram, List.any_eq_true]
  constructor
  · intro called
    obtain ⟨entry, among, same⟩ := called
    obtain ⟨instruction, listed, program, -⟩ := exists_of_forall₂ compiled.instructions among
    rw [eq_of_beq same, key] at program
    exact ⟨instruction, listed, (Option.some.inj program).symm⟩
  · intro called
    obtain ⟨instruction, listed, rfl⟩ := called
    obtain ⟨entry, among, program, -⟩ := exists_of_forall₂ compiled.instructions.flip listed
    refine ⟨entry, among, beq_iff_eq.mpr ?_⟩
    have room := (List.getElem?_eq_some_iff.mp program).1
    exact (List.getElem?_inj room formed.distinct).mp (program.trans key.symm)

include messages in
/-- The executor gives a key the privileges that the transaction gives it. -/
theorem Compiled.accountAt {index : UInt8} {address : P.Address}
    (key : message.accountKeys[index.toNat]? = some address) :
    message.accountAt index = ⟨address, Payment.signs ⟨feePayer, instructions⟩ address,
      Payment.writes ⟨feePayer, instructions⟩ address⟩ := by
  obtain ⟨inside, here⟩ := List.getElem?_eq_some_iff.mp key
  have same : message.keyAt index = address :=
    Option.some.inj ((Message.keyAt_eq inside).symm.trans key)
  have signer : P.isSigner message index.toNat =
      Payment.signs ⟨feePayer, instructions⟩ address := by
    rw [messages.isSigner, Bool.eq_iff_iff, decide_eq_true_eq, Payment.signs_iff,
      ← compiled.signers address, ← here, formed.getElem_mem_signerKeys inside]
  have loader : decide (P.upgradeableLoader ∈ message.accountKeys) =
      Payment.lists ⟨feePayer, instructions⟩ P.upgradeableLoader := by
    rw [Bool.eq_iff_iff, decide_eq_true_eq, Payment.lists_iff, compiled.keys]
  have asked : message.isWritableIndex index.toNat =
      (decide (address = feePayer) || instructions.any (·.grantsWritable address)) := by
    rw [Bool.eq_iff_iff, compiled.writable index.toNat address key, Bool.or_eq_true,
      decide_eq_true_eq, List.any_eq_true]
  have writer : P.isMaybeWritable message index.toNat =
      Payment.writes ⟨feePayer, instructions⟩ address := by
    rw [messages.isMaybeWritable, Compiled.called_iff formed compiled key, loader, asked]
    rfl
  rw [Message.accountAt, same, signer, writer]

include messages in
/-- The executor's calls for a compiled message are the instructions, as a transaction of them
loads them. -/
theorem Compiled.calls_eq :
    message.instructions.map (fun entry => (executionCpi message entry).instruction) =
      instructions.map (Payment.load ⟨feePayer, instructions⟩) := by
  refine (forall₂_key_eq_iff.mp
    (compiled.instructions.imp fun instruction entry resolved => ?_)).symm
  obtain ⟨program, accounts, data⟩ := resolved
  have inside := (List.getElem?_eq_some_iff.mp program).1
  have named : message.keyAt entry.programIdIndex = instruction.programId :=
    Option.some.inj ((Message.keyAt_eq inside).symm.trans program)
  have loaded : entry.accounts.map message.accountAt = instruction.accounts.map fun account =>
      ⟨account.pubkey, Payment.signs ⟨feePayer, instructions⟩ account.pubkey,
        Payment.writes ⟨feePayer, instructions⟩ account.pubkey⟩ := by
    refine forall₂_key_eq_iff.mp ((forall₂_key_eq_iff.mpr accounts).imp fun index account key => ?_)
    exact Compiled.accountAt messages formed compiled key
  rw [executionCpi, named, loaded, data]
  rfl

end Compiled

section Relay

variable {K : Toolkit P} {command : SignCommand P} {plan : SignPlan P}

/-- The calls of a compiled message leave the executor's own account readonly. -/
theorem Compiled.readonly (messages : P.MessageLaws) {feePayer : P.Address}
    {instructions : List P.Instruction} {blockhash : P.Hash} {config : TransactionConfig}
    {message : P.Message} (formed : message.WellFormed)
    (compiled : Compiled feePayer instructions blockhash config message)
    {nonceAccount nonceAuthority : P.Address} (different : nonceAccount ≠ P.executorProgram)
    (unwritten : Payment.writes ⟨feePayer, instructions⟩ P.executorProgram = false) :
    ∀ cpi ∈ executionCpis nonceAuthority nonceAccount message,
      cpi.instruction.grantsWritable P.executorProgram = false := by
  intro cpi listed
  rcases List.mem_cons.mp listed with rfl | listed
  · exact advance_readonly different
  · have loaded : cpi.instruction ∈ instructions.map (Payment.load ⟨feePayer, instructions⟩) := by
      rw [← Compiled.calls_eq messages formed compiled]
      obtain ⟨entry, among, rfl⟩ := List.mem_map.mp listed
      exact List.mem_map_of_mem among
    obtain ⟨instruction, -, same⟩ := List.mem_map.mp loaded
    rw [← same, Bool.eq_false_iff]
    intro writes
    obtain ⟨account, among, own, marked⟩ := Instruction.grantsWritable_iff.mp writes
    obtain ⟨original, -, rfl⟩ := List.mem_map.mp among
    rw [← own] at unwritten
    exact Bool.false_ne_true (unwritten.symm.trans marked)

end Relay

namespace Reference

section Compile

variable {feePayer : Nat} {instructions : List (Instruction Nat)} {blockhash : Bytes}
  {config : TransactionConfig} {message : Message Nat Bytes}

/-- Keys in four runs behind the first: which run an index falls in. -/
theorem segment {first address index : Nat} {signed signedRead silent silentRead : List Nat}
    (key : (first :: (signed ++ signedRead) ++ (silent ++ silentRead))[index]? = some address) :
    (index = 0 ∧ address = first) ∨
    (0 < index ∧ index < 1 + signed.length ∧ address ∈ signed) ∨
    (1 + signed.length ≤ index ∧ index < 1 + signed.length + signedRead.length ∧
      address ∈ signedRead) ∨
    (1 + signed.length + signedRead.length ≤ index ∧
      index < 1 + signed.length + signedRead.length + silent.length ∧ address ∈ silent) ∨
    (1 + signed.length + signedRead.length + silent.length ≤ index ∧ address ∈ silentRead) := by
  cases index with
  | zero => exact .inl ⟨rfl, (Option.some.inj key).symm⟩
  | succ index =>
      rw [List.cons_append, List.getElem?_cons_succ, List.append_assoc] at key
      simp only [List.getElem?_append] at key
      split at key
      · exact .inr (.inl ⟨by omega, by omega, List.mem_of_getElem? key⟩)
      · split at key
        · exact .inr (.inr (.inl ⟨by omega, by omega, List.mem_of_getElem? key⟩))
        · split at key
          · exact .inr (.inr (.inr (.inl ⟨by omega, by omega, List.mem_of_getElem? key⟩)))
          · exact .inr (.inr (.inr (.inr ⟨by omega, List.mem_of_getElem? key⟩)))

end Compile

/-- A call to program 40 that the nonce authority signs. -/
def call : Platform.reference.Instruction := ⟨(40 : Nat), [⟨nonceAuthority, true, true⟩], [7]⟩

/-- The call as a transaction of its own loads it. -/
def calling : List Platform.reference.Instruction :=
  [call].map (Payment.load ⟨nonceAuthority, [call]⟩)

/-- The call does nothing here. -/
theorem call_runs : CallRun (Timeline.reference.sysvars 1) ⟨advanceLedger opened nonceAccount
    state (deriveTransitionCommitment (.v1 message)), calling.map Frame.root⟩ ([] ++ [])
      (calling.map (Call.mk []) ++ [])
    ⟨advanceLedger opened nonceAccount state (deriveTransitionCommitment (.v1 message)), []⟩ :=
  .cons (.invoke (@MachineStep.other _ _ _ _ [] _ (by decide)) (.inr (.inr rfl))) .nil

/-- A relay of the signed call completes within five levels of calls, the call on the third. -/
theorem RunsBelow.completes {relay : Platform.reference.Instruction}
    {authorization : Platform.reference.Message}
    (runs : RunsBelow relay nonceAccount nonceAuthority authorization message opened state
      calling) :
    ∃ calls final, Completes shallow (Timeline.reference.sysvars 1) opened [.root relay]
      [.submitted (.v1 authorization), .executed nonceAccount state.nonce] calls final ∧
      ∃ execute, calls.drop 3 = calling.map (Call.mk [execute, relay]) := by
  obtain ⟨execute, -, runs⟩ := runs
  refine ⟨_, _, (runs _ _ [] _ _ _).mpr ⟨_, [], [], _, [], rfl, rfl, ?_, call_runs, .nil⟩,
    execute, ?_⟩
  · simp [shallow, calling, Call.under]
  · simp [calling, Call.under]

end Reference

end ProgrammaticSigner
