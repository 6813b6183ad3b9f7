import ProgrammaticSigner.Cli.NonceWithdraw
import ProgrammaticSigner.Cli.Reference
import ProgrammaticSigner.Runtime.Completion

set_option autoImplicit false

/- `nonce advance`: the empty execution that it builds over the nonce it read, who signs it,
and what it reports. -/
namespace ProgrammaticSigner

open Outcome

variable {P : Platform}

def DecodeError.describe : DecodeError → String
  | .uninitialized =>
      "The account data is correctly sized but contains the all-zero, uninitialized state."
  | .invalidData => "The account data is malformed or contains trailing bytes."

/-- A nonce account as the client reads it. -/
structure NonceAccount (P : Platform) where
  state : P.Nonce
  lamports : UInt64

def decodeNonceAccount (K : Toolkit P) (address : P.Address) (account : P.Account) :
    Except Failure (NonceAccount P) := do
  let state ← context s!"account {K.display address} contains invalid SPL Nonce data"
    ((Nonce.view account.data).mapError fun reason => [reason.describe])
  return ⟨state, account.lamports⟩

/-- `Client::nonce_account` -/
def fetchNonceAccount (K : Toolkit P) (client : AccountClient P) (address : P.Address) :
    Except Failure (NonceAccount P) := do
  let account ← NonceWithdraw.nonceProgramAccount K client address
  decodeNonceAccount K address account

structure AdvanceCommand (P : Platform) where
  nonceAccount : P.Address
  nonceAuthority : Option P.SignerSource
  salt : Option P.Address

structure NonceAdvanceOutput where
  signature : Text
  nonceAccount : Text
  previousNonce : Text
  nonce : Text
  deriving DecidableEq

structure NonceAdvanceAuthorizationOutput where
  nonceAccount : Text
  currentNonce : Text
  authorizationMessage : Text
  nextNonce : Text
  signer : Text
  deriving DecidableEq

inductive NonceAdvanceResult where
  | sent (output : NonceAdvanceOutput)
  | authorization (output : NonceAdvanceAuthorizationOutput)
  deriving DecidableEq

/-- The nonce that is reported as the one before the advance. -/
def NonceAdvanceResult.previous : NonceAdvanceResult → Text
  | sent output => output.previousNonce
  | authorization output => output.currentNonce

/-- The nonce that is reported as the one after the advance. -/
def NonceAdvanceResult.next : NonceAdvanceResult → Text
  | sent output => output.nonce
  | authorization output => output.nextNonce

/-- Who the built `Execute` is signed by: the stored authority, or the PDA that an
authorization message promotes. -/
inductive AdvanceRoute (P : Platform) where
  | direct
  | promoted (authorizationMessage : P.Message)

structure AdvancePlan (P : Platform) where
  previous : P.Nonce
  executionMessage : P.Message
  route : AdvanceRoute P

namespace NonceAdvance

variable (K : Toolkit P)

/-- A message without instructions, whose writable signer is the nonce authority. -/
def emptyMessage (nonceAuthority salt : P.Address) (currentNonce : P.Hash) : P.Message where
  header := ⟨1, 0, 1⟩
  config := default
  lifetimeSpecifier := currentNonce
  accountKeys := [nonceAuthority, salt]
  instructions := []

def emptyExecutionMessage (nonceAuthority salt : P.Address) (currentNonce : P.Hash) :
    Except Failure P.Message := do
  let message := emptyMessage nonceAuthority salt currentNonce
  context "invalid execution message"
    ((P.validate message).mapError fun reason => [K.describeMessage reason])
  return message

/-- The run up to the execution message, and the authorization message if it needs one. -/
def plan (command : AdvanceCommand P) (client : AccountClient P) (authority : NonceAuthority P)
    (random : P.Address) : Except Failure (AdvancePlan P) := do
  let account ← fetchNonceAccount K client command.nonceAccount
  let previous := account.state
  let pda := deriveAddress P.signerProgram authority.address
  let salt := command.salt.getD random
  if previous.authority = authority.address then
    NonceWithdraw.ensureCanSign K authority
    let executionMessage ← emptyExecutionMessage K authority.address salt previous.nonce
    return ⟨previous, executionMessage, .direct⟩
  else if previous.authority = pda then
    let executionMessage ← emptyExecutionMessage K pda salt previous.nonce
    let execute := ExecutorClient.execute command.nonceAccount pda executionMessage
    let authorizationMessage ← context "invalid authorization message"
      ((SignerClient.authorizationMessage execute [authority.address]).mapError
        fun reason => [Sign.describeAuthorization K reason])
    return ⟨previous, executionMessage, .promoted authorizationMessage⟩
  else
    throw [s!"nonce account {K.display command.nonceAccount} has authority " ++
      s!"{K.display previous.authority}, but the nonce authority given is " ++
      s!"{K.display authority.address} and its derived signer is {K.display pda}"]

def sentOutput (command : AdvanceCommand P) (plan : AdvancePlan P) (signature : Text) :
    NonceAdvanceResult :=
  .sent ⟨signature, K.showAddress command.nonceAccount, K.showHash plan.previous.nonce,
    K.showHash (nextNonce command.nonceAccount plan.executionMessage)⟩

/-- The rest of the run: sign and send what was built, or print what is to be signed. -/
def complete (command : AdvanceCommand P) (client : AccountClient P)
    (authority : NonceAuthority P) (plan : AdvancePlan P) : Except Failure NonceAdvanceResult :=
  match plan.route with
  | .direct => do
      let execute := ExecutorClient.execute command.nonceAccount authority.address
        plan.executionMessage
      let signature ← NonceWithdraw.sendRelayTransaction K client execute (some authority.signer)
      return sentOutput K command plan signature
  | .promoted authorizationMessage => do
      let bytes := Platform.serializeV1 authorizationMessage
      if authority.canSign = false then
        return .authorization ⟨K.showAddress command.nonceAccount,
          K.showHash plan.previous.nonce, K.encodeBase64 bytes,
          K.showHash (nextNonce command.nonceAccount plan.executionMessage),
          K.showAddress authority.address⟩
      else
        let signature ← context
          s!"failed to sign authorization message with {K.display authority.address}"
          (authority.signer.trySignMessage bytes)
        let submit := SignerClient.submit [some signature] authorizationMessage
        let signature ← NonceWithdraw.sendRelayTransaction K client submit none
        return sentOutput K command plan signature

/-- `random` is the address that stands in for a salt that is not given. -/
def run (command : AdvanceCommand P) (client : AccountClient P) (random : P.Address) :
    Except Failure NonceAdvanceResult := do
  let authority ← NonceWithdraw.loadAuthority client command.nonceAuthority
  let plan ← plan K command client authority random
  complete K command client authority plan

end NonceAdvance

theorem fetchNonceAccount_ok_iff {K : Toolkit P} {client : AccountClient P} {address : P.Address}
    {found : NonceAccount P} :
    fetchNonceAccount K client address = .ok found ↔ ∃ account,
      client.optionalAccount address = .ok (some account) ∧
      Initialized account found.state ∧ found.lamports = account.lamports := by
  simp only [fetchNonceAccount, decodeNonceAccount, NonceWithdraw.nonceProgramAccount,
    bind_ok_iff, okOr_ok_iff, ensure_ok_iff, context_ok_iff, mapError_ok_iff, pure_ok_iff]
  constructor
  · intro fetched
    obtain ⟨account, ⟨answer, answered, same, present, -, owned, rfl⟩, state, viewed, rfl⟩ :=
      fetched
    exact ⟨same, present ▸ answered, ⟨owned, viewed⟩, rfl⟩
  · intro given
    obtain ⟨account, answered, held, lamports⟩ := given
    refine ⟨account, ⟨some account, answered, account, rfl, (), held.1, rfl⟩, found.state,
      held.2, ?_⟩
    rw [← lamports]

namespace NonceAdvance

variable {K : Toolkit P} {command : AdvanceCommand P} {client : AccountClient P}
  {authority : NonceAuthority P} {random : P.Address} {plan : AdvancePlan P}

/-- An instruction that advances as planned, and the record that it leaves. -/
inductive Relays (command : AdvanceCommand P) (authority : P.Address) (plan : AdvancePlan P) :
    P.Instruction → List (Mark P) → Prop where
  | direct (route : plan.route = .direct) :
      Relays command authority plan
        (ExecutorClient.execute command.nonceAccount authority plan.executionMessage)
        [.executed command.nonceAccount plan.previous.nonce]
  | promoted {message : P.Message} {signature : P.Signature}
      (route : plan.route = .promoted message)
      (signed : P.verifyStrict authority signature (Platform.serializeV1 message) = true) :
      Relays command authority plan (SignerClient.submit [some signature] message)
        [.submitted (.v1 message), .executed command.nonceAccount plan.previous.nonce]

/-- What a plan was built from, on the account that was read. -/
structure Planned (command : AdvanceCommand P) (authority random : P.Address)
    (account : P.Account) (plan : AdvancePlan P) : Prop where
  held : Initialized account plan.previous
  message : plan.executionMessage =
    emptyMessage plan.previous.authority (command.salt.getD random) plan.previous.nonce
  valid : P.validate plan.executionMessage = .ok ()
  direct : plan.route = .direct → plan.previous.authority = authority
  promoted : ∀ message, plan.route = .promoted message →
    plan.previous.authority = deriveAddress P.signerProgram authority ∧
    SignerClient.authorizationMessage (ExecutorClient.execute command.nonceAccount
      plan.previous.authority plan.executionMessage) [authority] = .ok message

theorem emptyExecutionMessage_ok_iff {nonceAuthority salt : P.Address} {currentNonce : P.Hash}
    {message : P.Message} :
    emptyExecutionMessage K nonceAuthority salt currentNonce = .ok message ↔
      P.validate message = .ok () ∧ message = emptyMessage nonceAuthority salt currentNonce := by
  simp only [emptyExecutionMessage, bind_unit_ok_iff, context_ok_iff, mapError_ok_iff,
    pure_ok_iff]
  constructor
  · intro built
    obtain ⟨valid, rfl⟩ := built
    exact ⟨valid, rfl⟩
  · intro built
    obtain ⟨valid, rfl⟩ := built
    exact ⟨valid, rfl⟩

theorem plan_read (planned : NonceAdvance.plan K command client authority random = .ok plan) :
    ∃ account, client.optionalAccount command.nonceAccount = .ok (some account) ∧
      Planned command authority.address random account plan ∧
      (plan.route = .direct → authority.canSign = true) := by
  simp only [NonceAdvance.plan, bind_ok_iff] at planned
  obtain ⟨found, fetched, rest⟩ := planned
  obtain ⟨account, answered, held, -⟩ := fetchNonceAccount_ok_iff.mp fetched
  refine ⟨account, answered, ?_⟩
  split at rest
  · rename_i direct
    obtain ⟨able, rest⟩ := bind_unit_ok_iff.mp rest
    simp only [bind_ok_iff, emptyExecutionMessage_ok_iff, pure_ok_iff] at rest
    obtain ⟨message, ⟨valid, rfl⟩, rfl⟩ := rest
    exact ⟨⟨held, by rw [direct], valid, fun _ => direct, fun _ other => by cases other⟩,
      fun _ => ensure_ok_iff.mp able⟩
  · split at rest
    · rename_i pda
      simp only [bind_ok_iff, emptyExecutionMessage_ok_iff, context_ok_iff, mapError_ok_iff,
        pure_ok_iff] at rest
      obtain ⟨message, ⟨valid, rfl⟩, authorization, built, rfl⟩ := rest
      refine ⟨⟨held, by rw [pda], valid, fun other => (by cases other), fun message same => ?_⟩,
        fun other => by cases other⟩
      obtain rfl := AdvanceRoute.promoted.inj same
      exact ⟨pda, by rw [pda]; exact built⟩
    · cases rest

theorem plan_planned {account : P.Account}
    (snapshot : client.optionalAccount command.nonceAccount = .ok (some account))
    (planned : NonceAdvance.plan K command client authority random = .ok plan) :
    Planned command authority.address random account plan := by
  obtain ⟨read, answered, facts, -⟩ := plan_read planned
  obtain rfl := Option.some.inj (Except.ok.inj (snapshot.symm.trans answered))
  exact facts

/-- The executor only advances the nonce for an empty message. -/
theorem executionCpis_empty (nonceAccount nonceAuthority salt : P.Address) (nonce : P.Hash) :
    executionCpis nonceAuthority nonceAccount (emptyMessage nonceAuthority salt nonce) =
      [⟨NonceClient.advance nonceAuthority nonceAccount nonce
        (deriveTransitionCommitment (.v1 (emptyMessage nonceAuthority salt nonce))), []⟩] := rfl

/-- Whichever way it is signed, the planned advance is all that a transaction of it does. -/
theorem Relays.run_iff (keys : P.KeyLaws) (messages : P.MessageLaws) (programs : P.ProgramLaws)
    (derivation : P.DerivationLaws) (signaturesFit : P.signatureWire.Total) {ledger : P.Ledger}
    (apart : (ledger P.executorProgram).owner ≠ P.nonceProgram) {key : P.Address}
    (planned : Planned command key random (ledger command.nonceAccount) plan)
    {built relay : P.Instruction} {marks : List (Mark P)}
    (relays : Relays command key plan built marks) (loads : LoadedAs relay built)
    {sysvars : P.Sysvars} {all : List (Mark P)} {final : P.Ledger} :
    MachineRun sysvars ⟨ledger, [.invoke relay]⟩ all ⟨final, []⟩ ↔
      all = marks ∧ final = advanceLedger ledger command.nonceAccount plan.previous
        (deriveTransitionCommitment (.v1 plan.executionMessage)) := by
  have message := planned.message
  have config : plan.executionMessage.config = default := by rw [message]; rfl
  have current : plan.executionMessage.lifetimeSpecifier = plan.previous.nonce := by
    rw [message]
    rfl
  have rest : afterAdvance ledger command.nonceAccount plan.previous plan.executionMessage [] =
      ⟨advanceLedger ledger command.nonceAccount plan.previous
        (deriveTransitionCommitment (.v1 plan.executionMessage)), []⟩ := by
    rw [message]
    rfl
  cases relays with
  | direct route =>
      have formed := messages.wellFormed _ planned.valid
      have authority := (planned.direct route).symm
      rw [(loads.carries (ExecutorClient.execute_carries command.nonceAccount key formed)).run_iff
        keys messages programs planned.valid config planned.held authority current, rest]
      simp only [run_nil_iff]
      grind
  | @promoted authorization signature route signed =>
      obtain ⟨pda, built⟩ := planned.promoted _ route
      have single := SignedSubmit.single (authorizationMessage_authorizes messages built) signed
      have different : command.nonceAccount ≠ P.executorProgram := fun same =>
        apart (same ▸ planned.held.1)
      rw [single.run_iff keys messages programs derivation signaturesFit loads ?_ ?_ planned.valid
        config planned.held rfl current, rest]
      · simp only [run_nil_iff]
        grind
      · intro address used
        rw [message] at used
        rcases used with rfl | listed
        · exact List.mem_singleton.mpr pda
        · rw [List.mem_singleton.mp listed]
          exact List.mem_singleton.mpr pda
      · intro cpi listed
        rw [message, executionCpis_empty] at listed
        rw [List.mem_singleton.mp listed]
        exact advance_readonly different

/-- Every salt leads to a nonce of its own. -/
theorem emptyMessage_nonce_inj (keys : P.KeyLaws) (hashes : P.HashLaws) (messages : P.MessageLaws)
    {nonceAccount nonceAuthority salt other : P.Address} {nonce : P.Hash}
    (one : P.validate (emptyMessage nonceAuthority salt nonce) = .ok ())
    (two : P.validate (emptyMessage nonceAuthority other nonce) = .ok ())
    (same : nextNonce nonceAccount (emptyMessage nonceAuthority salt nonce) =
      nextNonce nonceAccount (emptyMessage nonceAuthority other nonce)) : salt = other := by
  have commitments := (Nonce.deriveNextNonce_inj keys hashes same).2.2.2
  have whole := VersionedMessage.v1.inj (deriveTransitionCommitment_inj hashes
    (messages.serializes _ one) (messages.serializes _ two) commitments)
  have listed := congrArg Message.accountKeys whole
  exact (List.cons.inj (List.cons.inj listed).2).1

theorem sentOutput_reports (signature : Text) :
    (sentOutput K command plan signature).previous = K.showHash plan.previous.nonce ∧
      (sentOutput K command plan signature).next =
        K.showHash (nextNonce command.nonceAccount plan.executionMessage) := ⟨rfl, rfl⟩

/-- How a run of the plan may end. -/
inductive Ends (K : Toolkit P) (command : AdvanceCommand P) (client : AccountClient P)
    (authority : NonceAuthority P) (plan : AdvancePlan P) : NonceAdvanceResult → Prop where
  | sent {built : P.Instruction} {marks : List (Mark P)} {signer : Option P.LocalSigner}
      {signature : Text} (relays : Relays command authority.address plan built marks)
      (sends : NonceWithdraw.sendRelayTransaction K client built signer = .ok signature) :
      Ends K command client authority plan (sentOutput K command plan signature)
  | authorization {message : P.Message} (route : plan.route = .promoted message)
      (unsigned : authority.canSign = false) :
      Ends K command client authority plan (.authorization ⟨K.showAddress command.nonceAccount,
        K.showHash plan.previous.nonce, K.encodeBase64 (Platform.serializeV1 message),
        K.showHash (nextNonce command.nonceAccount plan.executionMessage),
        K.showAddress authority.address⟩)

theorem complete_ends
    (sound : authority.canSign = true → ∀ bytes signature,
      authority.signer.trySignMessage bytes = .ok signature →
      P.verifyStrict authority.address signature bytes = true)
    {result : NonceAdvanceResult}
    (completed : complete K command client authority plan = .ok result) :
    Ends K command client authority plan result := by
  unfold complete at completed
  cases route : plan.route with
  | direct =>
      simp only [route, bind_ok_iff, pure_ok_iff] at completed
      obtain ⟨signature, sends, rfl⟩ := completed
      exact .sent (.direct route) sends
  | promoted message =>
      simp only [route] at completed
      split at completed
      · rename_i unsigned
        rw [← pure_ok_iff.mp completed]
        exact .authorization route unsigned
      · rename_i able
        simp only [bind_ok_iff, context_ok_iff, pure_ok_iff] at completed
        obtain ⟨signature, signs, text, sends, rfl⟩ := completed
        exact .sent (.promoted route (sound (Bool.not_eq_false _ ▸ able) _ _ signs)) sends

theorem loadAuthority_named {source : Option P.SignerSource}
    (loaded : NonceWithdraw.loadAuthority client source = .ok authority) :
    authority.signer.tryPubkey = .ok authority.address := by
  cases source <;>
  · simp only [NonceWithdraw.loadAuthority, bind_ok_iff, context_ok_iff, pure_ok_iff] at loaded
    obtain ⟨-, -, signer, -, address, named, rfl⟩ := loaded
    exact named

end NonceAdvance

/-- `nonce advance` advances. Whatever it sends or has signed, in any transaction of its own,
takes the account to the nonce that it reports and changes nothing else. No execution presigned
on the nonce before is accepted there, and another random salt would lead to another nonce. -/
theorem nonce_advance_advances (keys : P.KeyLaws) (hashes : P.HashLaws) (messages : P.MessageLaws)
    (programs : P.ProgramLaws) (derivation : P.DerivationLaws)
    (signaturesFit : P.signatureWire.Total) {K : Toolkit P} {command : AdvanceCommand P}
    {client : AccountClient P} {random : P.Address} {ledger : P.Ledger}
    (apart : (ledger P.executorProgram).owner ≠ P.nonceProgram)
    (snapshot : client.optionalAccount command.nonceAccount =
      .ok (some (ledger command.nonceAccount)))
    {authority : NonceAuthority P}
    (loaded : NonceWithdraw.loadAuthority client command.nonceAuthority = .ok authority)
    (sound : authority.canSign = true → ∀ bytes signature,
      authority.signer.trySignMessage bytes = .ok signature →
      P.verifyStrict authority.address signature bytes = true)
    {plan : AdvancePlan P}
    (planned : NonceAdvance.plan K command client authority random = .ok plan) :
    ∃ final : P.Ledger,
      final = Function.update ledger command.nonceAccount { ledger command.nonceAccount with
        data := .sized { plan.previous with
          nonce := nextNonce command.nonceAccount plan.executionMessage } } ∧
      (∀ built relay marks (sysvars : P.Sysvars) all last,
        NonceAdvance.Relays command authority.address plan built marks → LoadedAs relay built →
        (MachineRun sysvars ⟨ledger, [.invoke relay]⟩ all ⟨last, []⟩ ↔ all = marks ∧ last = final)) ∧
      (∀ nonceAuthority nonceAccount rest data message,
        nonceAccount.address = command.nonceAccount →
        ExecutorInstruction.tryFromBytes data = .ok (.execute (.v1 message)) →
        message.lifetimeSpecifier = plan.previous.nonce →
        (processExecutorInstruction final (nonceAuthority :: nonceAccount :: rest) data).Refused) ∧
      (command.salt = none → ∀ random' plan',
        NonceAdvance.plan K command client authority random' = .ok plan' →
        nextNonce command.nonceAccount plan'.executionMessage =
          nextNonce command.nonceAccount plan.executionMessage → random' = random) ∧
      ∀ result, NonceAdvance.run K command client random = .ok result →
        NonceAdvance.Ends K command client authority plan result ∧
        result.previous = K.showHash plan.previous.nonce ∧
        result.next = K.showHash (nextNonce command.nonceAccount plan.executionMessage) := by
  have facts := NonceAdvance.plan_planned snapshot planned
  have current : plan.executionMessage.lifetimeSpecifier = plan.previous.nonce := by
    rw [facts.message]
    rfl
  have next := @nextNonce_eq _ command.nonceAccount _ _ current
  refine ⟨_, rfl, ?_, ?_, ?_, ?_⟩
  · intro built relay marks sysvars all last relays loads
    rw [next]
    exact relays.run_iff keys messages programs derivation signaturesFit apart facts loads
  · intro nonceAuthority nonceAccount rest data message same decoded stale
    refine processExecutorInstruction_stale messages decoded rfl fun state held => ?_
    rw [same, Function.update_self] at held
    obtain ⟨rfl, -⟩ := view_sized held.2
    rw [stale, next]
    exact (deriveNextNonce_ne keys hashes _ _ _).symm
  · intro unset random' plan' planned' same
    have facts' := NonceAdvance.plan_planned snapshot planned'
    have one := facts.valid
    have two := facts'.valid
    rw [facts.message, facts'.message, unset, facts'.held.unique facts.held] at same
    rw [facts.message, unset] at one
    rw [facts'.message, unset, facts'.held.unique facts.held] at two
    exact NonceAdvance.emptyMessage_nonce_inj keys hashes messages two one same
  · intro result ran
    simp only [NonceAdvance.run, bind_ok_iff] at ran
    obtain ⟨given, again, other, plannedAgain, completed⟩ := ran
    obtain rfl := Except.ok.inj (loaded.symm.trans again)
    obtain rfl := Except.ok.inj (planned.symm.trans plannedAgain)
    have ends := NonceAdvance.complete_ends sound completed
    refine ⟨ends, ?_⟩
    cases ends with
    | sent => exact NonceAdvance.sentOutput_reports _
    | authorization => exact ⟨rfl, rfl⟩

namespace Reference

/-- A machine that has the key behind the PDA and reads the opened nonce account. -/
def advanceClient : AccountClient Platform.reference where
  toClient := client (keyFile 7) (.ok state)
  configKeypairSource := .ok (keyFile 30)
  optionalAccount address := .ok (some (opened address))
  minimumBalanceForRentExemption _ := .ok 72

def advanceCommand : AdvanceCommand Platform.reference := ⟨nonceAccount, none, some (77 : Nat)⟩

def advanceAuthority : NonceAuthority Platform.reference := ⟨keypair 30, (30 : Nat), true⟩

def emptyExecution : Platform.reference.Message :=
  NonceAdvance.emptyMessage nonceAuthority (77 : Nat) state.nonce

def advanceAuthorization : Platform.reference.Message where
  header := ⟨1, 0, 3⟩
  config := default
  lifetimeSpecifier := default
  accountKeys := [30, nonceAccount, nonceAuthority, 4, 2, 77]
  instructions := [⟨3, [2, 1, 4, 2, 5],
    (ExecutorClient.execute nonceAccount nonceAuthority emptyExecution).data⟩]

def advancePlan : AdvancePlan Platform.reference :=
  ⟨state, emptyExecution, .promoted advanceAuthorization⟩

theorem advance_loaded :
    NonceWithdraw.loadAuthority advanceClient advanceCommand.nonceAuthority =
      .ok advanceAuthority := rfl

theorem advance_planned : NonceAdvance.plan Toolkit.reference advanceCommand advanceClient
    advanceAuthority (0 : Nat) = .ok advancePlan := by
  have fetched : fetchNonceAccount Toolkit.reference advanceClient nonceAccount =
      .ok ⟨state, 100⟩ := fetchNonceAccount_ok_iff.mpr ⟨_, rfl, held, rfl⟩
  have built : SignerClient.authorizationMessage
      (ExecutorClient.execute nonceAccount nonceAuthority emptyExecution) [(30 : Nat)] =
        .ok advanceAuthorization := by decide +kernel
  have message : NonceAdvance.emptyExecutionMessage Toolkit.reference nonceAuthority (77 : Nat)
      state.nonce = .ok emptyExecution :=
    NonceAdvance.emptyExecutionMessage_ok_iff.mpr ⟨validate_ok (by decide +kernel), rfl⟩
  refine (bind_of_ok fetched).trans ((if_neg (by decide)).trans ((if_pos (by decide)).trans ?_))
  exact (bind_of_ok message).trans
    (bind_of_ok (context_ok_iff.mpr (mapError_ok_iff.mpr built)))

end Reference

/-- The key behind the PDA signs, and the relay advances the account to the reported nonce. -/
theorem nonce_advance_advances_promoted : ∃ final : Platform.reference.Ledger,
    MachineRun (Timeline.reference.sysvars 1) ⟨Reference.opened,
      [.invoke (SignerClient.submit [some (some (30, Platform.serializeV1
        Reference.advanceAuthorization))] Reference.advanceAuthorization)]⟩
      [.submitted (.v1 Reference.advanceAuthorization),
        .executed Reference.nonceAccount Reference.state.nonce] ⟨final, []⟩ := by
  obtain ⟨final, -, runs, -⟩ := nonce_advance_advances Reference.keyLaws Reference.hashLaws
    Reference.messageLaws Reference.programLaws Reference.derivationLaws Reference.signature_total
    (by decide) rfl Reference.advance_loaded
    (fun _ bytes signature signs => by
      obtain rfl := Except.ok.inj signs
      exact beq_self_eq_true _)
    Reference.advance_planned
  exact ⟨final, (runs _ _ _ _ _ _ (.promoted rfl (beq_self_eq_true _)) (.refl _)).mpr ⟨rfl, rfl⟩⟩

end ProgrammaticSigner
