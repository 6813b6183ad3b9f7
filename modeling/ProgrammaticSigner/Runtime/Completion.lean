import ProgrammaticSigner.Runtime.Machine
import ProgrammaticSigner.Signer.Signing

set_option autoImplicit false

/- The transactions of a submission that complete. They are those of the message that it
executes, after one advance of the nonce. -/
namespace ProgrammaticSigner

open Outcome SignerClient

variable {P : Platform}

/-- An account that keeps what is marked, and may have more. -/
structure AtLeast (account original : P.AccountMeta) : Prop where
  pubkey : account.pubkey = original.pubkey
  signer : original.isSigner = true → account.isSigner = true
  writable : original.isWritable = true → account.isWritable = true

/-- An instruction as its transaction delivers it. Other instructions and the fee payer add
privileges to its accounts. -/
structure LoadedAs (received built : P.Instruction) : Prop where
  programId : received.programId = built.programId
  data : received.data = built.data
  accounts : List.Forall₂ AtLeast received.accounts built.accounts

section Loading

variable {received built : P.Instruction} (loads : LoadedAs received built)
include loads

theorem LoadedAs.addresses :
    received.accounts.map AccountMeta.pubkey = built.accounts.map AccountMeta.pubkey :=
  forall₂_key_eq_iff.mp (loads.accounts.imp fun _ _ kept => kept.pubkey)

theorem LoadedAs.grantsSigner {address : P.Address} (signs : built.grantsSigner address = true) :
    received.grantsSigner address = true := by
  obtain ⟨account, listed, same, marked⟩ := Instruction.grantsSigner_iff.mp signs
  obtain ⟨given, among, kept⟩ := exists_of_forall₂ loads.accounts listed
  exact Instruction.grantsSigner_iff.mpr ⟨given, among, kept.pubkey.trans same, kept.signer marked⟩

theorem LoadedAs.grantsWritable {address : P.Address}
    (writes : built.grantsWritable address = true) : received.grantsWritable address = true := by
  obtain ⟨account, listed, same, marked⟩ := Instruction.grantsWritable_iff.mp writes
  obtain ⟨given, among, kept⟩ := exists_of_forall₂ loads.accounts listed
  exact Instruction.grantsWritable_iff.mpr
    ⟨given, among, kept.pubkey.trans same, kept.writable marked⟩

theorem LoadedAs.permitted {cpi : P.Cpi} (permitted : cpi.Permitted built) :
    cpi.Permitted received := by
  intro account member
  obtain ⟨⟨own, listed, same⟩, signer, writable⟩ := permitted account member
  obtain ⟨given, among, kept⟩ := exists_of_forall₂ loads.accounts listed
  refine ⟨⟨given, among, kept.pubkey.trans same⟩, fun signs => ?_,
    fun writes => loads.grantsWritable (writable writes)⟩
  rw [loads.programId]
  exact (signer signs).imp_left loads.grantsSigner

theorem LoadedAs.carries {nonceAccount nonceAuthority : P.Address} {message : P.Message}
    (carries : Carries built nonceAccount nonceAuthority message) :
    Carries received nonceAccount nonceAuthority message :=
  ⟨loads.programId.trans carries.program, loads.addresses.trans carries.addresses,
    loads.data.trans carries.data, fun cpi listed => loads.permitted (carries.covers cpi listed)⟩

end Loading

theorem LoadedAs.refl (instruction : P.Instruction) : LoadedAs instruction instruction :=
  ⟨rfl, rfl, List.forall₂_same.mpr fun _ _ => ⟨rfl, id, id⟩⟩

section Steps

variable {sysvars : P.Sysvars} {machine next other : Machine P} {marks : List (Mark P)}

/-- What the three programs do next is decided. -/
theorem MachineStep.unique (programs : P.ProgramLaws) {instruction : P.Instruction}
    {rest : List (Task P)} (here : machine.tasks = .invoke instruction :: rest)
    (own : instruction.programId = P.nonceProgram ∨ instruction.programId = P.executorProgram ∨
      instruction.programId = P.signerProgram) {later : List (Mark P)}
    (one : MachineStep sysvars machine marks next)
    (two : MachineStep sysvars machine later other) : marks = later ∧ next = other := by
  have apart := programs.nonce_executor
  have apart' := programs.nonce_signer
  have apart'' := programs.executor_signer
  cases one with
  | nonce program committed =>
      cases two with
      | nonce _ again =>
          obtain rfl := Except.ok.inj (committed.symm.trans again)
          exact ⟨rfl, rfl⟩
      | execute program' => exact absurd (program.symm.trans program') apart
      | submit program' => exact absurd (program.symm.trans program') apart'
      | other program' => exact absurd program program'.1
  | execute program =>
      cases two with
      | nonce program' => exact absurd (program'.symm.trans program) apart
      | execute => exact ⟨rfl, rfl⟩
      | submit program' => exact absurd (program.symm.trans program') apart''
      | other program' => exact absurd program program'.2.1
  | submit program =>
      cases two with
      | nonce program' => exact absurd (program'.symm.trans program) apart'
      | execute program' => exact absurd (program'.symm.trans program) apart''
      | submit => exact ⟨rfl, rfl⟩
      | other program' => exact absurd program program'.2.2
  | other program =>
      obtain ⟨same, -⟩ := List.cons.inj here
      obtain rfl := Task.invoke.inj same
      rcases own with own | own | own
      · exact absurd own program.1
      · exact absurd own program.2.1
      · exact absurd own program.2.2
  | effects => cases here

/-- A run that completes goes on from a decided step. -/
theorem MachineStep.run_iff (programs : P.ProgramLaws) {instruction : P.Instruction}
    {rest : List (Task P)} (here : machine.tasks = .invoke instruction :: rest)
    (own : instruction.programId = P.nonceProgram ∨ instruction.programId = P.executorProgram ∨
      instruction.programId = P.signerProgram) (step : MachineStep sysvars machine marks next)
    {all : List (Mark P)} {final : P.Ledger} :
    MachineRun sysvars machine all ⟨final, []⟩ ↔
      ∃ later, all = marks ++ later ∧ MachineRun sysvars next later ⟨final, []⟩ := by
  constructor
  · intro run
    cases run with
    | nil => cases here
    | cons first rest =>
        obtain ⟨rfl, rfl⟩ := step.unique programs here own first
        exact ⟨_, rfl, rest⟩
  · intro run
    obtain ⟨later, rfl, rest⟩ := run
    exact .cons step rest

/-- Without a task left, nothing runs. -/
theorem run_nil_iff {ledger final : P.Ledger} :
    MachineRun sysvars ⟨ledger, []⟩ marks ⟨final, []⟩ ↔ marks = [] ∧ final = ledger := by
  constructor
  · intro run
    cases run with
    | nil => exact ⟨rfl, rfl⟩
    | cons step => cases step
  · intro same
    obtain ⟨rfl, rfl⟩ := same
    exact .nil

end Steps

theorem advance_readonly {nonceAccount nonceAuthority other : P.Address} {nonce commitment : P.Hash}
    (different : nonceAccount ≠ other) :
    (NonceClient.advance nonceAuthority nonceAccount nonce commitment).grantsWritable other =
      false := by
  rw [Bool.eq_false_iff]
  intro writes
  obtain ⟨account, listed, same, marked⟩ := Instruction.grantsWritable_iff.mp writes
  rcases List.mem_cons.mp listed with rfl | listed
  · cases marked
  · obtain rfl := List.mem_singleton.mp listed
    exact different same

section Completion

variable {sysvars : P.Sysvars} {ledger : P.Ledger} {nonceAccount nonceAuthority : P.Address}
  {executionMessage : P.Message} {state : P.Nonce} {rest : List (Task P)}
  {marks : List (Mark P)} {final : P.Ledger}

/-- What is left of an execution once its nonce advanced. -/
def afterAdvance (ledger : P.Ledger) (nonceAccount : P.Address) (state : P.Nonce)
    (executionMessage : P.Message) (rest : List (Task P)) : Machine P :=
  ⟨advanceLedger ledger nonceAccount state (deriveTransitionCommitment (.v1 executionMessage)),
    callTasks (executionMessage.instructions.map (executionCpi executionMessage)) ++ rest⟩

theorem Carries.recorded {instruction : P.Instruction}
    (carries : Carries instruction nonceAccount nonceAuthority executionMessage)
    (fits : P.messageWire.Fits (.v1 executionMessage)) :
    executedMarks instruction = [.executed nonceAccount executionMessage.lifetimeSpecifier] := by
  have addresses := carries.addresses
  rw [ExecutorClient.execute_addresses] at addresses
  simp only [executedMarks, executeTarget, addresses, carries.decoded fits]

/-- An execution is accepted, and goes on with its advance and its message. -/
theorem Carries.executes (messages : P.MessageLaws) {instruction : P.Instruction}
    (carries : Carries instruction nonceAccount nonceAuthority executionMessage)
    (valid : P.validate executionMessage = .ok ()) (config : executionMessage.config = default)
    (held : Initialized (ledger nonceAccount) state)
    (current : executionMessage.lifetimeSpecifier = state.nonce) :
    MachineStep sysvars ⟨ledger, .invoke instruction :: rest⟩
      [.executed nonceAccount state.nonce]
      ⟨ledger, callTasks (executionCpis nonceAuthority nonceAccount executionMessage) ++ rest⟩ := by
  have step := @MachineStep.execute P sysvars ledger instruction rest carries.program
  rw [carries.issues messages valid config held current,
    carries.recorded (messages.serializes _ valid), current] at step
  exact step rfl carries.covers

/-- The advance that an execution asks for. -/
def advanceOf (nonceAccount nonceAuthority : P.Address) (executionMessage : P.Message) :
    P.Instruction :=
  NonceClient.advance nonceAuthority nonceAccount executionMessage.lifetimeSpecifier
    (deriveTransitionCommitment (.v1 executionMessage))

theorem advanceOf_runs (keys : P.KeyLaws) (held : Initialized (ledger nonceAccount) state)
    (authority : nonceAuthority = state.authority)
    (current : executionMessage.lifetimeSpecifier = state.nonce) :
    MachineStep sysvars
      ⟨ledger, .invoke (advanceOf nonceAccount nonceAuthority executionMessage) :: rest⟩ []
      ⟨advanceLedger ledger nonceAccount state
        (deriveTransitionCommitment (.v1 executionMessage)), rest⟩ :=
  .nonce rfl ((invokeNonce_advance_ok_iff keys).mpr ⟨state, held, authority, current, rfl⟩)

/-- The runs of an execution are those of its message, on a nonce that advanced. -/
theorem Carries.run_iff (keys : P.KeyLaws) (messages : P.MessageLaws)
    (programs : P.ProgramLaws) {instruction : P.Instruction}
    (carries : Carries instruction nonceAccount nonceAuthority executionMessage)
    (valid : P.validate executionMessage = .ok ()) (config : executionMessage.config = default)
    (held : Initialized (ledger nonceAccount) state) (authority : nonceAuthority = state.authority)
    (current : executionMessage.lifetimeSpecifier = state.nonce) :
    MachineRun sysvars ⟨ledger, .invoke instruction :: rest⟩ marks ⟨final, []⟩ ↔
      ∃ later, marks = .executed nonceAccount state.nonce :: later ∧
        MachineRun sysvars (afterAdvance ledger nonceAccount state executionMessage rest) later
          ⟨final, []⟩ := by
  have executes := @Carries.executes _ sysvars _ _ _ _ _ rest messages _ carries valid config held
    current
  have advances : MachineStep sysvars
      ⟨ledger, callTasks (executionCpis nonceAuthority nonceAccount executionMessage) ++ rest⟩ []
      (afterAdvance ledger nonceAccount state executionMessage rest) :=
    advanceOf_runs keys held authority current
  rw [executes.run_iff programs rfl (.inr (.inl carries.program))]
  refine exists_congr fun later => and_congr_right fun _ => ?_
  rw [advances.run_iff programs rfl (.inl rfl)]
  simp

/-- What was delivered carries the message, unless a call is to write to the executor itself. -/
theorem Delivers.carries {instruction : P.Instruction} (formed : executionMessage.WellFormed)
    (delivers : Delivers instruction
      (ExecutorClient.execute nonceAccount nonceAuthority executionMessage))
    (readonly : ∀ cpi ∈ executionCpis nonceAuthority nonceAccount executionMessage,
      cpi.instruction.grantsWritable P.executorProgram = false) :
    Carries instruction nonceAccount nonceAuthority executionMessage := by
  refine ⟨delivers.programId, delivers.addresses, delivers.data, ?_⟩
  intro cpi listed account member
  have own := executionCpis_accounts formed listed member
  have granted := delivers.grants formed listed member
  obtain ⟨given, among, covers⟩ := exists_of_forall₂ delivers.accounts own
  refine ⟨⟨given, among, covers.pubkey⟩, fun signs => .inl (granted.1 signs),
    fun writes => granted.2 writes fun executor => ?_⟩
  exact Bool.false_ne_true ((readonly cpi listed).symm.trans
    (Instruction.grantsWritable_iff.mpr ⟨account, member, executor, writes⟩))

end Completion

section Submission

variable {relay : P.Instruction} {signatures : List (Option P.Signature)} {message : P.Message}

/-- The runtime lets a submission make its CPI: each account is one of the relay's, writable
where the client's own `Submit` is, and a signer by the relay's signature or the PDA's seeds. -/
theorem Submits.permitted (messages : P.MessageLaws) (derivation : P.DerivationLaws)
    {ix : CompiledInstruction}
    (submits : Submits relay.views signatures (.v1 message) message ix)
    (loads : LoadedAs relay (SignerClient.submit signatures message)) :
    (submitCpi P.signerProgram relay.views signatures message ix).Permitted relay := by
  have formed := messages.wellFormed message submits.valid
  have listed : ix ∈ message.instructions := submits.single ▸ List.mem_cons_self
  have mirrors := submits.mirrors
  intro account member
  obtain ⟨index, named, rfl⟩ := List.mem_map.mp member
  have inside := formed.indexes ix listed index named
  have key := Message.keyAt_eq inside
  have given : message.keyAt index ∈ relay.accounts.map AccountMeta.pubkey := by
    rw [← Instruction.views_addresses, mirrors]
    exact List.mem_of_getElem? key
  refine ⟨List.mem_map.mp given, fun signs => ?_, fun writes => ?_⟩
  · rcases (Bool.or_eq_true _ _).mp signs with promoted | forwarded
    · obtain ⟨authority, verified, derived⟩ := List.mem_map.mp (decide_eq_true_eq.mp promoted)
      refine .inr ⟨authoritySeeds P.signerProgram authority, ?_, ?_⟩
      · refine List.mem_flatMap.mpr ⟨authority, verified, List.mem_map.mpr ⟨index, ?_, rfl⟩⟩
        exact List.mem_filter.mpr ⟨named, decide_eq_true derived.symm⟩
      · rw [loads.programId]
        exact (derivation.created authority).trans (congrArg some derived)
    · left
      obtain ⟨-, relayed⟩ := (Bool.and_eq_true _ _).mp forwarded
      obtain ⟨view, present, signer⟩ := (Option.any_eq_true _ _).mp relayed
      rw [← mirrors, List.getElem?_map, present, Option.map_some, Option.some.injEq] at key
      rw [← key, ← (Instruction.mem_views (List.mem_of_getElem? present)).2.1]
      exact signer
  · refine loads.grantsWritable (Instruction.grantsWritable_iff.mpr ?_)
    refine ⟨⟨message.keyAt index, false, P.isMaybeWritable message index.toNat⟩, ?_, rfl, writes⟩
    refine List.mem_iff_getElem?.mpr ⟨index.toNat, ?_⟩
    rw [SignerClient.submit, List.getElem?_mapIdx, key]
    rfl

variable {sysvars : P.Sysvars} {ledger : P.Ledger} {nonceAccount nonceAuthority : P.Address}
  {executionMessage : P.Message} {signers : List P.Address} {state : P.Nonce}
  {rest : List (Task P)} {marks : List (Mark P)} {final : P.Ledger}

/-- An approved submission is accepted, and goes on with an execution of its message. -/
theorem Authorizes.submission (messages : P.MessageLaws) (derivation : P.DerivationLaws)
    (signaturesFit : P.signatureWire.Total)
    (authorizes : Authorizes
      (ExecutorClient.execute nonceAccount nonceAuthority executionMessage) signers message)
    (loads : LoadedAs relay (SignerClient.submit signatures message))
    (approved : Approved relay.views signatures message)
    (provided : ∀ address, UsesSigner executionMessage nonceAuthority address →
      address ∈ (signersWithSignature message.signerKeys signatures).map
        (deriveAddress P.signerProgram) ∨ RelaySigned relay.views message address)
    (readonly : ∀ cpi ∈ executionCpis nonceAuthority nonceAccount executionMessage,
      cpi.instruction.grantsWritable P.executorProgram = false)
    (valid : P.validate executionMessage = .ok ()) :
    ∃ execute, Carries execute nonceAccount nonceAuthority executionMessage ∧
      ∀ (sysvars : P.Sysvars) ledger rest, MachineStep sysvars ⟨ledger, .invoke relay :: rest⟩
        [.submitted (.v1 message)] ⟨ledger, .invoke execute :: rest⟩ := by
  have executed := messages.wellFormed _ valid
  have formed := messages.wellFormed _ authorizes.valid
  obtain ⟨ix, submits, -, -, -⟩ := authorizes.submits approved
  obtain ⟨ix', issued, delivers⟩ :=
    authorizes.delivers approved messages signaturesFit executed provided
  have few := formed.signatures
  rw [maxSignatures] at few
  have decoded : SignerInstruction.tryFromBytes relay.data =
      .ok (.submit signatures (.v1 message)) := by
    rw [loads.data]
    exact SignerInstruction.tryFromBytes_ok_iff.mpr ⟨SignerInstruction.wire_fits signaturesFit
      (by rw [approved.count]; omega) (messages.serializes message authorizes.valid), rfl⟩
  have recorded : submittedMarks relay = [Mark.submitted (.v1 message)] := by
    simp only [submittedMarks, decoded]
  have makes : processSignerInstruction P.signerProgram relay.views relay.data =
      ⟨[submitCpi P.signerProgram relay.views signatures message ix], .ok ()⟩ := by
    rw [processSignerInstruction, decoded, Issued.lift_ok_bind]
    exact submits.processSubmit_eq messages P.signerProgram
  rw [loads.data, issued] at makes
  rw [(List.cons.inj (congrArg Issued.calls makes)).1] at issued delivers
  refine ⟨_, delivers.carries executed readonly, fun sysvars ledger rest => ?_⟩
  have step := @MachineStep.submit P sysvars ledger relay rest loads.programId
  rw [loads.data, issued, recorded] at step
  refine step rfl fun cpi listed => ?_
  obtain rfl := List.mem_singleton.mp listed
  exact submits.permitted messages derivation loads

/-- The runs of an approved submission are those of the message, on a nonce that advanced. -/
theorem Authorizes.run_iff (keys : P.KeyLaws) (messages : P.MessageLaws)
    (programs : P.ProgramLaws) (derivation : P.DerivationLaws)
    (signaturesFit : P.signatureWire.Total)
    (authorizes : Authorizes
      (ExecutorClient.execute nonceAccount nonceAuthority executionMessage) signers message)
    (loads : LoadedAs relay (SignerClient.submit signatures message))
    (approved : Approved relay.views signatures message)
    (provided : ∀ address, UsesSigner executionMessage nonceAuthority address →
      address ∈ (signersWithSignature message.signerKeys signatures).map
        (deriveAddress P.signerProgram) ∨ RelaySigned relay.views message address)
    (readonly : ∀ cpi ∈ executionCpis nonceAuthority nonceAccount executionMessage,
      cpi.instruction.grantsWritable P.executorProgram = false)
    (valid : P.validate executionMessage = .ok ()) (config : executionMessage.config = default)
    (held : Initialized (ledger nonceAccount) state) (authority : nonceAuthority = state.authority)
    (current : executionMessage.lifetimeSpecifier = state.nonce) :
    MachineRun sysvars ⟨ledger, .invoke relay :: rest⟩ marks ⟨final, []⟩ ↔
      ∃ later, marks = .submitted (.v1 message) :: .executed nonceAccount state.nonce :: later ∧
        MachineRun sysvars (afterAdvance ledger nonceAccount state executionMessage rest) later
          ⟨final, []⟩ := by
  obtain ⟨execute, carries, submits⟩ := authorizes.submission messages derivation signaturesFit
    loads approved provided readonly valid
  rw [(submits sysvars ledger rest).run_iff programs rfl (.inr (.inr loads.programId))]
  constructor
  · intro run
    obtain ⟨marks, rfl, executing⟩ := run
    obtain ⟨later, rfl, runs⟩ := (carries.run_iff keys messages programs valid config held
      authority current).mp executing
    exact ⟨later, rfl, runs⟩
  · intro run
    obtain ⟨later, rfl, runs⟩ := run
    exact ⟨_, rfl, (carries.run_iff keys messages programs valid config held authority
      current).mpr ⟨later, rfl, runs⟩⟩

/-- A submission that its own authorities signed runs without any signer on the relay. -/
theorem SignedSubmit.run_iff (keys : P.KeyLaws) (messages : P.MessageLaws)
    (programs : P.ProgramLaws) (derivation : P.DerivationLaws)
    (signaturesFit : P.signatureWire.Total) {signatures : List P.Signature}
    (signed : SignedSubmit
      (ExecutorClient.execute nonceAccount nonceAuthority executionMessage) signers message
      signatures)
    (loads : LoadedAs relay (SignerClient.submit (signatures.map some) message))
    (promoted : ∀ address, UsesSigner executionMessage nonceAuthority address →
      address ∈ signers.map (deriveAddress P.signerProgram))
    (readonly : ∀ cpi ∈ executionCpis nonceAuthority nonceAccount executionMessage,
      cpi.instruction.grantsWritable P.executorProgram = false)
    (valid : P.validate executionMessage = .ok ()) (config : executionMessage.config = default)
    (held : Initialized (ledger nonceAccount) state) (authority : nonceAuthority = state.authority)
    (current : executionMessage.lifetimeSpecifier = state.nonce) :
    MachineRun sysvars ⟨ledger, .invoke relay :: rest⟩ marks ⟨final, []⟩ ↔
      ∃ later, marks = .submitted (.v1 message) :: .executed nonceAccount state.nonce :: later ∧
        MachineRun sysvars (afterAdvance ledger nonceAccount state executionMessage rest) later
          ⟨final, []⟩ := by
  have mirrors : relay.views.map AccountView.address = message.accountKeys := by
    rw [Instruction.views_addresses, loads.addresses, SignerClient.submit_addresses]
  refine signed.authorizes.run_iff keys messages programs derivation signaturesFit loads
    (signed.approved mirrors) (fun address used => .inl ?_) readonly valid config held authority
    current
  obtain ⟨signer, listed, derived⟩ := List.mem_map.mp (promoted address used)
  exact List.mem_map.mpr ⟨signer, signed.verified messages listed, derived⟩

end Submission

end ProgrammaticSigner
