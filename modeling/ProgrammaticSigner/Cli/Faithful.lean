import ProgrammaticSigner.Cli.Collected
import ProgrammaticSigner.Cli.Simulate
import ProgrammaticSigner.Signer.Isolation

set_option autoImplicit false

/- A simulation and a submission of one execution: different required signers, one call of
the executor. -/
namespace ProgrammaticSigner

open Outcome V1Transaction

variable {P : Platform}

/-- `Execute` reads the ledger at its nonce account alone. -/
theorem processExecute_ledger {ledger ledger' : P.Ledger} {accounts : List P.AccountView}
    (same : ∀ account, accounts[1]? = some account →
      ledger account.address = ledger' account.address)
    (executionMessage : P.VersionedMessage) :
    processExecute ledger accounts executionMessage =
      processExecute ledger' accounts executionMessage := by
  unfold processExecute
  split
  · rename_i nonceAuthority nonceAccount nonceProgram messageAccounts
    rw [same nonceAccount rfl]
  · rfl

/-- Two instructions that deliver one original are the same to the executor. -/
theorem Delivers.processExecutorInstruction_eq {first second : P.Instruction}
    {nonceAccount nonceAuthority : P.Address} {message : P.Message} {ledger ledger' : P.Ledger}
    (one : Delivers first (ExecutorClient.execute nonceAccount nonceAuthority message))
    (two : Delivers second (ExecutorClient.execute nonceAccount nonceAuthority message))
    (same : ledger nonceAccount = ledger' nonceAccount) :
    processExecutorInstruction ledger first.views first.data =
      processExecutorInstruction ledger' second.views second.data := by
  have addresses : first.views.map AccountView.address =
      second.views.map AccountView.address := by
    rw [Instruction.views_addresses, Instruction.views_addresses, one.addresses, two.addresses]
  have second_ : ∀ account, second.views[1]? = some account → account.address = nonceAccount := by
    intro account present
    have mapped := congrArg (fun keys => keys[1]?) two.addresses
    rw [← Instruction.views_addresses, ExecutorClient.execute_addresses] at mapped
    simp only [List.getElem?_map, present] at mapped
    exact Option.some.inj mapped
  unfold processExecutorInstruction
  rw [one.data, two.data]
  congr 1
  funext instruction
  cases instruction with
  | execute executionMessage =>
      show processExecute ledger _ _ = processExecute ledger' _ _
      rw [processExecute_congr ledger addresses]
      refine processExecute_ledger (fun account present => ?_) executionMessage
      rw [second_ account present]
      exact same

theorem Delivers.signs (messages : P.MessageLaws) {instruction : P.Instruction}
    {nonceAccount nonceAuthority : P.Address} {message : P.Message}
    (formed : message.WellFormed)
    (delivers : Delivers instruction
      (ExecutorClient.execute nonceAccount nonceAuthority message))
    {address : P.Address} (used : UsesSigner message nonceAuthority address) :
    instruction.grantsSigner address = true := by
  obtain ⟨original, listed, same, signs⟩ :=
    (ExecutorClient.execute_signer_iff messages formed address).mpr used
  obtain ⟨account, among, covers⟩ := exists_of_forall₂ delivers.accounts listed
  exact Instruction.grantsSigner_iff.mpr
    ⟨account, among, covers.pubkey.trans same, covers.signer signs⟩

/-- The original itself is delivered as it is, so what is delivered runs the same way. -/
theorem Delivers.issues (messages : P.MessageLaws) {instruction : P.Instruction}
    {nonceAccount nonceAuthority : P.Address} {message : P.Message}
    (valid : P.validate message = .ok ()) (config : message.config = default)
    (delivers : Delivers instruction
      (ExecutorClient.execute nonceAccount nonceAuthority message))
    {ledger : P.Ledger} {state : P.Nonce} (held : Initialized (ledger nonceAccount) state)
    (current : message.lifetimeSpecifier = state.nonce) :
    processExecutorInstruction ledger instruction.views instruction.data =
      ⟨executionCpis nonceAuthority nonceAccount message, .ok ()⟩ := by
  have formed := messages.wellFormed message valid
  have carries := ExecutorClient.execute_carries nonceAccount nonceAuthority formed
  have own := carries.issues messages valid config held current
  have addresses : instruction.views.map AccountView.address = (ExecutorClient.execute
      nonceAccount nonceAuthority message).views.map AccountView.address := by
    rw [Instruction.views_addresses, Instruction.views_addresses, delivers.addresses]
  rw [← own]
  unfold processExecutorInstruction
  rw [delivers.data]
  congr 1
  funext instruction
  cases instruction with
  | execute executionMessage => exact processExecute_congr ledger addresses executionMessage

theorem signersWithSignature_none (signers : List P.Address) (count : Nat) :
    signersWithSignature signers (List.replicate count none) = [] := by
  rw [List.eq_nil_iff_forall_not_mem]
  intro signer listed
  obtain ⟨index, signature, -, given⟩ := mem_signersWithSignature.mp listed
  cases List.eq_of_mem_replicate (List.mem_of_getElem? given)

section Real

variable {K : Toolkit P} {sign : SignCommand P} {plan : SignPlan P}
  {submit : SubmitCommand P} {prepared : PreparedRelay P}

/-- Submitting what was signed recovers it. -/
theorem Checked.recovers (messages : P.MessageLaws) (text : K.TextLaws)
    (planned : Planned sign plan) (checked : Checked K submit prepared)
    (passed : submit.authorizationMessage =
      K.encodeBase64 (Platform.serializeV1 plan.authorizationMessage)) :
    prepared.message = plan.authorizationMessage ∧ prepared.execute =
      ⟨sign.nonceAuthority, sign.nonceAccount, sign.nonceHash, plan.executionMessage⟩ := by
  have read := checked.read
  rw [passed, Decode.readAuthorizationMessage_encode K messages text planned.authorizes.valid
    planned.authorizes.config] at read
  have same := (Except.ok.inj read).symm
  have taken := checked.taken
  rw [same, ExecuteAccounts.tryNew_ok K messages planned.valid planned.config planned.authorizes,
    planned.lifetime] at taken
  exact ⟨same, (Except.ok.inj taken).symm⟩

/-- Every signer that the executor uses is promoted by a signature, or signs the relay. -/
theorem Checked.provided (messages : P.MessageLaws) (planned : Planned sign plan)
    (checked : Checked K submit prepared) (message : prepared.message = plan.authorizationMessage)
    (execute : prepared.execute =
      ⟨sign.nonceAuthority, sign.nonceAccount, sign.nonceHash, plan.executionMessage⟩)
    {accounts : List P.AccountView} (granted : GrantedFor prepared.submit accounts)
    {address : P.Address} (used : UsesSigner plan.executionMessage sign.nonceAuthority address) :
    address ∈ (signersWithSignature prepared.message.signerKeys
        (authoritySlots prepared.message prepared.authoritySignatures)).map
          (deriveAddress P.signerProgram) ∨
      RelaySigned accounts prepared.message address := by
  have formed := messages.wellFormed _ planned.valid
  have uses (key : P.Address) : prepared.execute.isExecutorSigner key = true ↔
      UsesSigner plan.executionMessage sign.nonceAuthority key := by
    rw [execute]
    exact ExecuteAccounts.isExecutorSigner_iff _ messages formed key
  have required {key : P.Address} (listed : key ∈ plan.authorizationMessage.signerKeys) :
      key ∈ prepared.message.signerKeys := message ▸ listed
  rcases planned.promoted_or_forwarded used with promoted | forwarded
  · obtain ⟨authority, listed, derived⟩ := List.mem_map.mp promoted
    have member := required ((planned.mem_signerKeys authority).mpr (.inl listed))
    have promotes : prepared.execute.isPdaAuthority authority = true :=
      (uses _).mpr (derived ▸ used)
    obtain ⟨signature, given⟩ :=
      Option.isSome_iff_exists.mp (checked.authorities authority member promotes)
    obtain ⟨index, slot⟩ := List.mem_iff_getElem?.mp member
    refine .inl (List.mem_map.mpr
      ⟨authority, mem_signersWithSignature.mpr ⟨index, signature, slot, ?_⟩, derived⟩)
    rw [authoritySlots, List.getElem?_map, slot, Option.map_some, given]
  · have member := required ((planned.mem_signerKeys address).mpr (.inr (.inl forwarded)))
    refine .inr (granted.relaySigned member (List.mem_filter.mpr ⟨member, ?_⟩))
    rw [(uses address).mpr used, Bool.true_or]

end Real

/-- Simulation is faithful: `Submit` accepts the simulated transaction without a signature, and
calls the executor as the real `Submit` of what was signed does. -/
theorem simulation_faithful (messages : P.MessageLaws) (signaturesFit : P.signatureWire.Total)
    (K : Toolkit P) (text : K.TextLaws)
    (strict : ∀ address signature bytes, K.verify address signature bytes = true →
      P.verifyStrict address signature bytes = true)
    (simulate : SimulateCommand P) (sign : SignCommand P) (submit : SubmitCommand P)
    (simulator submitter : Client P) (simulation : Simulation P) (plan : SignPlan P)
    (prepared : PreparedRelay P) (simAccounts realAccounts : List P.AccountView)
    (sameMessage : Decode.readExecutionMessage K simulate.executionMessage
      simulate.stripTransactionConfig = Decode.readExecutionMessage K sign.executionMessage
        sign.stripTransactionConfig)
    (sameAccount : simulate.nonceAccount = sign.nonceAccount)
    (current : ∀ nonce, simulator.nonceAccount simulate.nonceAccount = .ok nonce →
      nonce.authority = sign.nonceAuthority ∧ nonce.nonce = sign.nonceHash)
    (simulates : Simulate.build K simulate simulator = .ok simulation)
    (signs : Sign.authorize K sign = .ok plan)
    (passed : submit.authorizationMessage =
      K.encodeBase64 (Platform.serializeV1 plan.authorizationMessage))
    (submits : Submit.prepare K submit submitter = .ok prepared)
    (simGranted : GrantedFor simulation.submit simAccounts)
    (realGranted : GrantedFor prepared.submit realAccounts) :
    CompiledFrom K simulation.transaction.message simulation.submit ∧
    CompiledFrom K prepared.transaction.message prepared.submit ∧
    ∃ simulated real : P.Cpi,
      SignerInstruction.tryFromBytes simulation.submit.data =
        .ok (.submit (List.replicate simulation.relaySigners.length none)
          (.v1 simulation.authorizationMessage)) ∧
      processSignerInstruction P.signerProgram simAccounts simulation.submit.data =
        ⟨[simulated], .ok ()⟩ ∧
      simulated.signers = [] ∧
      processSignerInstruction P.signerProgram realAccounts prepared.submit.data =
        ⟨[real], .ok ()⟩ ∧
      simulated.instruction.programId = real.instruction.programId ∧
      simulated.instruction.accounts.map AccountMeta.pubkey =
        real.instruction.accounts.map AccountMeta.pubkey ∧
      simulated.instruction.data = real.instruction.data ∧
      (∀ address, UsesSigner plan.executionMessage sign.nonceAuthority address →
        simulated.instruction.grantsSigner address = true ∧
          real.instruction.grantsSigner address = true) ∧
      ∀ ledger ledger' : P.Ledger, ledger sign.nonceAccount = ledger' sign.nonceAccount →
        processExecutorInstruction ledger simulated.instruction.views
            simulated.instruction.data =
          processExecutorInstruction ledger' real.instruction.views real.instruction.data ∧
        ∀ state, Initialized (ledger' sign.nonceAccount) state → sign.nonceHash = state.nonce →
          processExecutorInstruction ledger' real.instruction.views real.instruction.data =
            ⟨executionCpis sign.nonceAuthority sign.nonceAccount plan.executionMessage,
              .ok ()⟩ := by
  have planned := Sign.authorize_planned messages signs
  have checked := prepare_checked submits
  have built := Simulate.build_simulated messages simulates
  have formed := messages.wellFormed _ planned.valid
  obtain ⟨nonce, read, live, found, authority, simulatedMessage⟩ := Simulate.build_nonce simulates
  obtain ⟨read', found', signedMessage⟩ := Sign.authorize_read signs
  obtain rfl := Except.ok.inj (found.symm.trans (sameMessage.trans found'))
  obtain ⟨liveAuthority, liveNonce⟩ := current nonce live
  rw [liveNonce, ← signedMessage] at simulatedMessage
  rw [liveAuthority] at authority
  obtain ⟨message, execute⟩ := checked.recovers messages text planned passed
  have simAuthorizes := built.authorizes
  rw [authority, sameAccount, simulatedMessage] at simAuthorizes
  have realAuthorizes := planned.authorizes
  rw [← message] at realAuthorizes
  have simApproved := built.approved simGranted messages
  obtain ⟨simIx, simIssued, simDelivers⟩ := simAuthorizes.delivers simApproved messages
    signaturesFit formed fun address used =>
      .inr (built.provided simGranted messages (by rw [authority, simulatedMessage]; exact used))
  obtain ⟨realIx, realIssued, realDelivers⟩ := realAuthorizes.delivers
    (checked.approved messages strict realGranted) messages signaturesFit formed
    fun address used => checked.provided messages planned message execute realGranted used
  have simData : simulation.submit.data = (SignerClient.submit (List.replicate
      simulation.relaySigners.length none) simulation.authorizationMessage).data := by
    rw [built.submit]
    rfl
  have few := (messages.wellFormed _ built.authorizes.valid).signatures
  rw [built.authorizes.count, maxSignatures] at few
  refine ⟨built.compiled, checked.compiled, _, _, ?_, by rw [simData]; exact simIssued, ?_,
    realIssued, ?_, ?_, ?_, ?_, ?_⟩
  · rw [simData]
    exact SignerInstruction.tryFromBytes_ok_iff.mpr ⟨SignerInstruction.wire_fits signaturesFit
      (by rw [List.length_replicate]; omega)
      (messages.serializes _ built.authorizes.valid), rfl⟩
  · simp only [submitCpi, signersWithSignature_none, List.flatMap_nil]
  · rw [simDelivers.programId, realDelivers.programId]
  · rw [simDelivers.addresses, realDelivers.addresses]
  · rw [simDelivers.data, realDelivers.data]
  · intro address used
    exact ⟨simDelivers.signs messages formed used, realDelivers.signs messages formed used⟩
  · intro ledger ledger' same
    refine ⟨simDelivers.processExecutorInstruction_eq realDelivers same, ?_⟩
    intro state held fresh
    exact realDelivers.issues messages planned.valid planned.config held
      (planned.lifetime.trans fresh)

namespace Reference

/-- The same execution, simulated by a machine that holds the fee payer's key alone. -/
def simulateCommand : SimulateCommand .reference where
  executionMessage := encodeText (Platform.serializeV1 message)
  nonceAccount := nonceAccount
  nonceAuthority := none
  nonceHash := none
  stripTransactionConfig := false

def simulator : Client .reference := client (keyFile (50 : Nat)) (.ok state)

/-- The PDA itself is the required signer here. -/
def simulatedAuthorization : Platform.reference.Message where
  header := ⟨1, 0, 3⟩
  config := default
  lifetimeSpecifier := default
  accountKeys := [nonceAuthority, nonceAccount, 4, 2, 40]
  instructions := [⟨2, [0, 1, 3, 0, 4], execute.data⟩]

def simulatedSubmit : Platform.reference.Instruction :=
  Simulate.markLeading 1 (SignerClient.submit [none] simulatedAuthorization)

def simulation : Simulation .reference where
  executionMessage := message
  nonceAuthority := nonceAuthority
  relaySigners := [nonceAuthority]
  authorizationMessage := simulatedAuthorization
  submit := simulatedSubmit
  transaction := unsigned
    { header := ⟨2, 0, 4⟩
      config := limits
      lifetimeSpecifier := default
      accountKeys := [50, nonceAuthority, nonceAccount, 2, 4, 6, 40]
      instructions := [⟨5, [1, 2, 4, 3, 6], simulatedSubmit.data⟩] }

theorem simulation_built :
    Simulate.build Toolkit.reference simulateCommand simulator = .ok simulation := by
  simp only [Simulate.build, bind_ok_iff, ensure_ok_iff, context_ok_iff, mapError_ok_iff,
    compileMessage_ok_iff, ensureTransactionSize, pure_ok_iff]
  refine ⟨state, rfl, message, readExecutionMessage_encode message_valid rfl, (), rfl, (), rfl,
    keyFile (50 : Nat), rfl, keypair 50, client_loads _ _ _ _ _, (50 : Nat), rfl, (), ?_,
    simulatedAuthorization, ?_, simulation.transaction.message, ⟨?_, ?_⟩, (), ⟨_, rfl, ?_⟩, rfl⟩
  · decide +kernel
  · decide +kernel
  · decide +kernel
  · decide +kernel
  · decide +kernel

end Reference

theorem simulation_faithful_reference :
    ∃ simulated real : Platform.reference.Cpi,
      processSignerInstruction Platform.reference.signerProgram
        Reference.simulatedSubmit.views Reference.simulatedSubmit.data =
          ⟨[simulated], .ok ()⟩ ∧
      processSignerInstruction Platform.reference.signerProgram
        Reference.sharedRelay.submit.views Reference.sharedRelay.submit.data =
          ⟨[real], .ok ()⟩ ∧
      processExecutorInstruction Reference.opened real.instruction.views real.instruction.data =
        ⟨executionCpis Reference.nonceAuthority Reference.nonceAccount Reference.message,
          .ok ()⟩ := by
  obtain ⟨-, -, simulated, real, -, issued, -, issued', -, -, -, -, runs⟩ :=
    simulation_faithful Reference.messageLaws Reference.signature_total Toolkit.reference
      Reference.textLaws (fun _ _ _ verified => verified) Reference.simulateCommand
      Reference.signCommand (Reference.submitCommand [] true) Reference.simulator
      Reference.airgapped Reference.simulation Reference.signPlan Reference.sharedRelay
      Reference.simulatedSubmit.views Reference.sharedRelay.submit.views rfl rfl
      (fun nonce live => Except.ok.inj live ▸ ⟨rfl, rfl⟩) Reference.simulation_built
      Reference.signCommand_authorizes rfl Reference.shared_prepared
      (Instruction.views_granted _) (Instruction.views_granted _)
  exact ⟨simulated, real, issued, issued',
    (runs Reference.opened Reference.opened rfl).2 Reference.state Reference.held rfl⟩

end ProgrammaticSigner
