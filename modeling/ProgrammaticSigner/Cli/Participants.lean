import ProgrammaticSigner.Cli.Signed

set_option autoImplicit false

/- Participants who run `transaction sign` apart from each other sign the same bytes. -/
namespace ProgrammaticSigner

open Outcome

variable {P : Platform}

namespace Sign

/-- Dropping neighboring repetitions of a sorted list leaves no repetition at all. -/
theorem dedup_pairwise {addresses : List P.Address}
    (sorted : addresses.Pairwise (· ≤ ·)) : (dedup addresses).Pairwise (· < ·) := by
  fun_induction dedup addresses with
  | case1 second rest ih => exact ih (List.pairwise_cons.mp sorted).2
  | case2 first second rest other ih =>
      obtain ⟨least, tail⟩ := List.pairwise_cons.mp sorted
      apply List.pairwise_cons.mpr
      refine ⟨?_, ih tail⟩
      intro address member
      have below : first < second := lt_of_le_of_ne (least second List.mem_cons_self) other
      rcases List.mem_cons.mp ((mem_dedup _ address).mp member) with same | later
      · rw [same]
        exact below
      · exact lt_of_lt_of_le below ((List.pairwise_cons.mp tail).1 address later)
  | case3 short few =>
      -- No two neighbors are left to compare.
      cases short with
      | nil => exact List.Pairwise.nil
      | cons first rest =>
          cases rest with
          | nil => exact List.pairwise_singleton _ _
          | cons second rest => exact absurd rfl (few first second rest)

/-- Sorting without repetitions depends on the set of the addresses alone. -/
theorem sortDedup_congr {first second : List P.Address}
    (same : ∀ address, address ∈ first ↔ address ∈ second) :
    sortDedup first = sortDedup second := by
  have strict (addresses : List P.Address) : (sortDedup addresses).Pairwise (· < ·) :=
    dedup_pairwise (List.pairwise_insertionSort _ addresses)
  apply List.Pairwise.eq_of_mem_iff (strict first) (strict second)
  intro address
  rw [mem_sortDedup, mem_sortDedup]
  exact same address

end Sign

/-- Two invocations on the same execution and nonce, for the same participants. How the
participants are listed and what each invocation holds locally is its own. -/
structure SameExecution (K : Toolkit P) (first second : SignCommand P) : Prop where
  executionMessage :
    Decode.readExecutionMessage K first.executionMessage first.stripTransactionConfig =
      Decode.readExecutionMessage K second.executionMessage second.stripTransactionConfig
  nonceAccount : first.nonceAccount = second.nonceAccount
  nonceAuthority : first.nonceAuthority = second.nonceAuthority
  nonceHash : first.nonceHash = second.nonceHash
  authority : ∀ address, address ∈ first.authority ↔ address ∈ second.authority
  requiredRelaySigner : ∀ address,
    address ∈ first.requiredRelaySigner ↔ address ∈ second.requiredRelaySigner

/-- What a run prints that does not depend on its local signers. -/
structure SamePrint (first second : SignOutput) : Prop where
  authorizationMessage : first.authorizationMessage = second.authorizationMessage
  authorizationMessageHash : first.authorizationMessageHash = second.authorizationMessageHash
  executionMessageHash : first.executionMessageHash = second.executionMessageHash
  consumedNonce : first.consumedNonce = second.consumedNonce
  nextNonce : first.nextNonce = second.nextNonce
  forwardedSigners : first.forwardedSigners = second.forwardedSigners
  requiredRelaySigners : first.requiredRelaySigners = second.requiredRelaySigners

namespace Sign

section Local

variable (command : SignCommand P) (client : Client P)

/-- What the invocation loads of its own. -/
def Loads (signers : List P.LocalSigner) : Prop :=
  command.signer.mapM (fun source => client.loadSigner source "message authority" false) =
    .ok signers

/-- The first signer of an address. Later ones of the same address are dropped. -/
def firstSigner (signers : List P.LocalSigner) (address : P.Address) : Option P.LocalSigner :=
  signers.find? fun signer => signer.tryPubkey.toOption = some address

/-- Somebody confirms, where a signer cannot ask on its own. -/
def Confirmed (signers : List P.LocalSigner) : Prop :=
  command.yes = true ∨
    (∀ address signer, firstSigner signers address = some signer →
      signer.isInteractive = true) ∨
    ∃ line, client.readLine = .ok line ∧
      (Summary.eqIgnoreAsciiCase (trim line) ['y'] = true ∨
        Summary.eqIgnoreAsciiCase (trim line) ['y', 'e', 's'] = true)

/-- What can still reject an invocation past its plan: its own keys, and its own answer. -/
inductive RejectedLocally (plan : SignPlan P) : Prop where
  | unloaded {source : P.SignerSource} {reason : Failure} (given : source ∈ command.signer)
      (failed : client.loadSigner source "message authority" false = .error reason)
  | unnamed {signers : List P.LocalSigner} {signer : P.LocalSigner} {reason : Failure}
      (loaded : Loads command client signers) (listed : signer ∈ signers)
      (failed : signer.tryPubkey = .error reason)
  | stranger {signers : List P.LocalSigner} {signer : P.LocalSigner} {address : P.Address}
      (loaded : Loads command client signers) (listed : signer ∈ signers)
      (named : signer.tryPubkey = .ok address) (unlisted : address ∉ command.authority)
  | declined {signers : List P.LocalSigner} (loaded : Loads command client signers)
      (unconfirmed : ¬Confirmed command client signers)
  | unsigned {signers : List P.LocalSigner} {address : P.Address} {signer : P.LocalSigner}
      {reason : Failure} (loaded : Loads command client signers)
      (kept : firstSigner signers address = some signer)
      (failed : signer.trySignMessage (Platform.serializeV1 plan.authorizationMessage) =
        .error reason)

end Local

end Sign

namespace Sign

variable {K : Toolkit P} {first second : SignCommand P}

theorem authorize_congr (same : SameExecution K first second) :
    authorize K first = authorize K second := by
  unfold authorize
  rw [same.executionMessage, same.nonceAccount, same.nonceAuthority, same.nonceHash,
    sortDedup_congr same.authority, sortDedup_congr same.requiredRelaySigner]

theorem plan_congr (same : SameExecution K first second) : plan K first = plan K second := by
  unfold plan
  rw [authorize_congr same]

/-- A run that prints got past its plan, and prints it. -/
theorem run_planned {command : SignCommand P} {client : Client P} {output : SignOutput}
    (ran : run K command client = .ok output) :
    ∃ planned signatures, plan K command = .ok planned ∧
      output = render K command planned signatures := by
  simp only [run, bind_ok_iff, pure_ok_iff] at ran
  obtain ⟨planned, plans, _, _, _, _, _, _, signatures, _, same⟩ := ran
  exact ⟨planned, signatures, plans, same.symm⟩

/-- With the same local signers and answers, the whole run is the same. -/
theorem run_congr (same : SameExecution K first second) (signer : first.signer = second.signer)
    (yes : first.yes = second.yes) (client : Client P) :
    run K first client = run K second client := by
  unfold run
  rw [plan_congr same, signer, yes]
  simp only [render, same.nonceAccount, same.nonceHash]

theorem run_samePrint (same : SameExecution K first second) {client client' : Client P}
    {output output' : SignOutput} (one : run K first client = .ok output)
    (two : run K second client' = .ok output') : SamePrint output output' := by
  obtain ⟨planned, signatures, plans, rfl⟩ := run_planned one
  obtain ⟨planned', signatures', plans', rfl⟩ := run_planned two
  rw [plan_congr same, plans'] at plans
  obtain rfl := Except.ok.inj plans
  refine ⟨rfl, rfl, rfl, ?_, ?_, rfl, rfl⟩
  · simp only [render, same.nonceHash]
  · simp only [render, same.nonceAccount]

/-- One signer is kept for each address, the first. -/
theorem mem_uniqueSigners {authorities : List P.Address} {signers : List P.LocalSigner}
    {before after : List (P.Address × P.LocalSigner)}
    (unique : uniqueSigners K authorities signers before = .ok after)
    (entry : P.Address × P.LocalSigner) :
    entry ∈ after ↔ entry ∈ before ∨
      entry.1 ∉ before.map Prod.fst ∧ firstSigner signers entry.1 = some entry.2 := by
  induction signers generalizing before with
  | nil =>
      obtain rfl := Except.ok.inj unique
      simp [firstSigner]
  | cons signer rest ih =>
      simp only [uniqueSigners, bind_ok_iff, ensure_ok_iff, exists_const] at unique
      obtain ⟨address, named, -, later⟩ := unique
      have front (other : P.Address) : firstSigner (signer :: rest) other =
          if address = other then some signer else firstSigner rest other := by
        by_cases same : address = other <;>
          simp [firstSigner, named, Except.toOption, same]
      rw [ih later, front]
      by_cases present : address ∈ before.map Prod.fst
      · have kept : addSigner before address signer = before :=
          if_pos (by simpa using present)
        rw [kept]
        refine or_congr_right (and_congr_right fun absent => ?_)
        rw [if_neg fun same : address = entry.1 => absent (same ▸ present)]
      · have added : addSigner before address signer = before ++ [(address, signer)] :=
          if_neg (by simpa using present)
        obtain ⟨own, held⟩ := entry
        rw [added, List.map_append, List.mem_append, List.mem_append, List.mem_singleton]
        by_cases same : address = own
        · subst same
          simp [present, eq_comm]
        · simp [same, Ne.symm same, eq_comm]

theorem uniqueSigners_exists {authorities : List P.Address} {signers : List P.LocalSigner}
    (own : ∀ signer ∈ signers, ∃ address ∈ authorities, signer.tryPubkey = .ok address)
    (before : List (P.Address × P.LocalSigner)) :
    ∃ after, uniqueSigners K authorities signers before = .ok after := by
  induction signers generalizing before with
  | nil => exact ⟨before, rfl⟩
  | cons signer rest ih =>
      obtain ⟨address, listed, named⟩ := own signer List.mem_cons_self
      obtain ⟨after, later⟩ := ih (fun other among => own other (List.mem_cons_of_mem _ among))
        (addSigner before address signer)
      refine ⟨after, ?_⟩
      rw [uniqueSigners, bind_of_ok named]
      exact bind_unit_ok_iff.mpr ⟨ensure_ok_iff.mpr listed, later⟩

theorem uniqueSigners_own {authorities : List P.Address} {signers : List P.LocalSigner}
    {before after : List (P.Address × P.LocalSigner)}
    (unique : uniqueSigners K authorities signers before = .ok after) :
    ∀ signer ∈ signers, ∃ address ∈ authorities, signer.tryPubkey = .ok address := by
  induction signers generalizing before with
  | nil => exact fun _ listed => absurd listed List.not_mem_nil
  | cons signer rest ih =>
      simp only [uniqueSigners, bind_ok_iff, ensure_ok_iff, exists_const] at unique
      obtain ⟨address, named, listed, later⟩ := unique
      exact List.forall_mem_cons.mpr ⟨⟨address, listed, named⟩, ih later⟩

theorem confirmSigning_ok_iff {command : SignCommand P} {client : Client P}
    {signers : List P.LocalSigner} {unique : List (P.Address × P.LocalSigner)}
    (kept : ∀ entry, entry ∈ unique ↔ firstSigner signers entry.1 = some entry.2) :
    Summary.confirmSigning client unique command.yes = .ok () ↔
      Confirmed command client signers := by
  have interactive : (unique.all fun entry => entry.2.isInteractive) = true ↔
      ∀ address signer, firstSigner signers address = some signer →
        signer.isInteractive = true := by
    rw [List.all_eq_true]
    exact ⟨fun all address signer first => all (address, signer) ((kept _).mpr first),
      fun all entry listed => all _ _ ((kept entry).mp listed)⟩
  unfold Summary.confirmSigning Confirmed
  split
  · rename_i skipped
    rw [Bool.or_eq_true, interactive] at skipped
    exact iff_of_true rfl (skipped.imp_right .inl)
  · rename_i asked
    rw [Bool.or_eq_true, interactive, not_or] at asked
    simp only [bind_ok_iff, context_ok_iff, ensure_ok_iff, Bool.or_eq_true, asked.1, asked.2,
      false_or, Bool.false_eq_true]

theorem signAuthorizationMessage_exists {message : P.Message}
    {unique : List (P.Address × P.LocalSigner)} :
    (∃ signatures, Summary.signAuthorizationMessage K message unique = .ok signatures) ↔
      ∀ entry ∈ unique, ∃ signature,
        entry.2.trySignMessage (Platform.serializeV1 message) = .ok signature := by
  constructor
  · intro signed entry listed
    obtain ⟨signatures, collected⟩ := signed
    obtain ⟨given, -, signs⟩ := mapM_ok_of_mem collected listed
    obtain ⟨signature, signed, -⟩ := bind_ok_iff.mp signs
    exact ⟨signature, context_ok_iff.mp signed⟩
  · intro each
    refine (mapM_exists fun entry listed => ?_).imp fun _ both => both.1
    obtain ⟨signature, signs⟩ := each entry listed
    exact ⟨(entry.1, signature), by simp only [bind_ok_iff, context_ok_iff]; exact ⟨_, signs, rfl⟩⟩

theorem plan_planned (messages : P.MessageLaws) {command : SignCommand P} {plan : SignPlan P}
    (plans : Sign.plan K command = .ok plan) : Planned command plan := by
  simp only [Sign.plan, bind_ok_iff, pure_ok_iff] at plans
  obtain ⟨_, built, _, _, rfl⟩ := plans
  exact authorize_planned messages built

/-- Past its plan, a run prints exactly if its own keys and answers let it. -/
theorem run_prints_iff (messages : P.MessageLaws) {command : SignCommand P} {client : Client P}
    {plan : SignPlan P} (plans : Sign.plan K command = .ok plan) :
    (∃ output, run K command client = .ok output) ↔
      ∃ signers, Loads command client signers ∧
        (∀ signer ∈ signers, ∃ address ∈ command.authority, signer.tryPubkey = .ok address) ∧
        Confirmed command client signers ∧
        ∀ address signer, firstSigner signers address = some signer → ∃ signature,
          signer.trySignMessage (Platform.serializeV1 plan.authorizationMessage) =
            .ok signature := by
  have authorities := (plan_planned messages plans).authorities
  have first {signers : List P.LocalSigner} {unique : List (P.Address × P.LocalSigner)}
      (kept : uniqueSigners K plan.authorities signers [] = .ok unique)
      (entry : P.Address × P.LocalSigner) :
      entry ∈ unique ↔ firstSigner signers entry.1 = some entry.2 := by
    simpa using mem_uniqueSigners kept entry
  simp only [run, bind_of_ok plans, bind_ok_iff, pure_ok_iff]
  constructor
  · intro ran
    obtain ⟨_, signers, loaded, unique, kept, _, confirmed, signatures, signed, -⟩ := ran
    refine ⟨signers, loaded, fun signer listed => ?_,
      (confirmSigning_ok_iff (first kept)).mp confirmed, fun address signer here => ?_⟩
    · obtain ⟨address, among, named⟩ := uniqueSigners_own kept signer listed
      exact ⟨address, (authorities address).mp among, named⟩
    · exact signAuthorizationMessage_exists.mp ⟨signatures, signed⟩ (address, signer)
        ((first kept _).mpr here)
  · intro ready
    obtain ⟨signers, loaded, own, confirmed, signs⟩ := ready
    obtain ⟨unique, kept⟩ := @uniqueSigners_exists P K plan.authorities signers
      (fun signer listed => (own signer listed).imp fun address both =>
        ⟨(authorities address).mpr both.1, both.2⟩) []
    obtain ⟨signatures, signed⟩ := signAuthorizationMessage_exists.mpr
      fun entry listed => signs _ _ ((first kept entry).mp listed)
    exact ⟨_, signers, loaded, unique, kept, (), (confirmSigning_ok_iff (first kept)).mpr confirmed,
      signatures, signed, rfl⟩

/-- Past its plan, a run is rejected only on its own keys and answers, and for any of them. -/
theorem run_rejected_iff (messages : P.MessageLaws) {command : SignCommand P} {client : Client P}
    {plan : SignPlan P} (plans : Sign.plan K command = .ok plan) :
    (∃ failure, run K command client = .error failure) ↔ RejectedLocally command client plan := by
  have prints := @run_prints_iff P K messages command client plan plans
  constructor
  · intro rejected
    obtain ⟨failure, rejected⟩ := rejected
    by_contra fine
    have loads : ∃ signers, Loads command client signers := by
      refine (mapM_exists fun source given => ?_).imp fun _ both => both.1
      cases loaded : client.loadSigner source "message authority" false with
      | ok signer => exact ⟨signer, rfl⟩
      | error reason => exact absurd (.unloaded given loaded) fine
    obtain ⟨signers, loaded⟩ := loads
    have printed : ∃ output, run K command client = .ok output := by
      refine prints.mpr ⟨signers, loaded, fun signer listed => ?_, ?_, fun address signer kept => ?_⟩
      · cases named : signer.tryPubkey with
        | error reason => exact absurd (.unnamed loaded listed named) fine
        | ok address =>
            by_contra unlisted
            refine fine (.stranger loaded listed named fun among => unlisted ⟨address, among, rfl⟩)
      · by_contra unconfirmed
        exact fine (.declined loaded unconfirmed)
      · cases signed : signer.trySignMessage (Platform.serializeV1 plan.authorizationMessage) with
        | error reason => exact absurd (.unsigned loaded kept signed) fine
        | ok signature => exact ⟨signature, rfl⟩
    obtain ⟨output, ran⟩ := printed
    cases ran.symm.trans rejected
  · intro rejected
    cases ran : run K command client with
    | error failure => exact ⟨failure, rfl⟩
    | ok output =>
        exfalso
        obtain ⟨signers, loaded, own, confirmed, signs⟩ := prints.mp ⟨output, ran⟩
        have same {other : List P.LocalSigner} (again : Loads command client other) :
            other = signers := Except.ok.inj (again.symm.trans loaded)
        cases rejected with
        | unloaded given failed =>
            obtain ⟨_, -, loads⟩ := mapM_ok_of_mem loaded given
            cases loads.symm.trans failed
        | unnamed again listed failed =>
            obtain ⟨_, -, named⟩ := own _ (same again ▸ listed)
            cases named.symm.trans failed
        | stranger again listed named unlisted =>
            obtain ⟨address, among, found⟩ := own _ (same again ▸ listed)
            obtain rfl := Except.ok.inj (found.symm.trans named)
            exact unlisted among
        | declined again unconfirmed => exact unconfirmed (same again ▸ confirmed)
        | unsigned again kept failed =>
            obtain ⟨_, signed⟩ := signs _ _ (same again ▸ kept)
            cases signed.symm.trans failed

end Sign

section Strip

variable (K : Toolkit P)

/-- The text holds the message. -/
def Decode.Holds (input : Text) (message : P.VersionedMessage) : Prop :=
  ∃ bytes, K.decodeBase64 (trim input) = .ok bytes ∧
    P.messageWire.deserializeExact bytes = some message

variable {K}

/-- Clearing the config of a sane message leaves what the message without it reads as. -/
theorem Decode.readExecutionMessage_strip (messages : P.MessageLaws) {message : P.Message}
    {input cleared : Text} (holds : Decode.Holds K input (.v1 message))
    (sane : P.sanitize (.v1 message) = .ok ())
    (without : Decode.Holds K cleared (.v1 { message with config := default })) (strip : Bool) :
    Decode.readExecutionMessage K input true = Decode.readExecutionMessage K cleared strip := by
  have reset := messages.resets message message.lifetimeSpecifier
    ((messages.sanitize_iff message).mp sane)
  have read : Decode.readMessage K input "execution message" = .ok (.v1 message) := by
    obtain ⟨bytes, decoded, found⟩ := holds
    exact (Decode.readMessage_ok_iff K).mpr ⟨bytes, decoded, found, sane⟩
  have read' : Decode.readMessage K cleared "execution message" =
      .ok (.v1 { message with config := default }) := by
    obtain ⟨bytes, decoded, found⟩ := without
    exact (Decode.readMessage_ok_iff K).mpr
      ⟨bytes, decoded, found, (messages.sanitize_iff _).mpr reset⟩
  rw [Decode.readExecutionMessage, Decode.readExecutionMessage, bind_of_ok read, bind_of_ok read']
  cases strip with
  | false => rfl
  | true => rfl

end Strip

/-- Participants sign the same bytes: what `transaction sign` settles before it loads a key
depends on the set of participants alone, so two invocations are both rejected there or both
get past it with one authorization message, whatever keys they hold. Past that, an invocation is
rejected exactly on its own keys and answers, and any that print print the same. Stripping the
config of a sane message makes no difference to supplying the message without it. -/
theorem participants_sign_same (messages : P.MessageLaws) (K : Toolkit P) :
    (∀ first second, SameExecution K first second →
      Sign.plan K first = Sign.plan K second ∧
      (∀ client client' failure, Sign.plan K first = .error failure →
        Sign.run K first client = .error failure ∧ Sign.run K second client' = .error failure) ∧
      (∀ plan, Sign.plan K first = .ok plan → ∀ client,
        ((∃ failure, Sign.run K first client = .error failure) ↔
          Sign.RejectedLocally first client plan) ∧
        ((∃ failure, Sign.run K second client = .error failure) ↔
          Sign.RejectedLocally second client plan)) ∧
      (∀ client client' output output', Sign.run K first client = .ok output →
        Sign.run K second client' = .ok output' → SamePrint output output') ∧
      (first.signer = second.signer → first.yes = second.yes → ∀ client,
        Sign.run K first client = Sign.run K second client)) ∧
    ∀ (command : SignCommand P) (message : P.Message) (input cleared : Text) (strip : Bool)
      (client : Client P), Decode.Holds K input (.v1 message) →
      P.sanitize (.v1 message) = .ok () →
      Decode.Holds K cleared (.v1 { message with config := default }) →
      Sign.run K { command with executionMessage := input, stripTransactionConfig := true }
          client =
        Sign.run K { command with executionMessage := cleared, stripTransactionConfig := strip }
          client := by
  constructor
  · intro first second same
    have plans := Sign.plan_congr same
    refine ⟨plans, ?_, ?_, ?_, ?_⟩
    · intro client client' failure rejected
      exact ⟨bind_error rejected, bind_error (plans ▸ rejected)⟩
    · intro plan planned client
      exact ⟨Sign.run_rejected_iff messages planned,
        Sign.run_rejected_iff messages (plans.symm.trans planned)⟩
    · intro client client' output output' one two
      exact Sign.run_samePrint same one two
    · intro signer yes client
      exact Sign.run_congr same signer yes client
  · intro command message input cleared strip client holds sane without
    have read := Decode.readExecutionMessage_strip messages holds sane without strip
    have same : SameExecution K
        { command with executionMessage := input, stripTransactionConfig := true }
        { command with executionMessage := cleared, stripTransactionConfig := strip } :=
      ⟨read, rfl, rfl, rfl, fun _ => Iff.rfl, fun _ => Iff.rfl⟩
    exact Sign.run_congr same rfl rfl client

namespace Reference

/-- The same arguments, with the authority listed twice and a key that is not its own. -/
def strangerCommand : SignCommand .reference :=
  { signCommand with
    authority := [30, 30]
    signer := [keyFile (14 : Nat)]
    authority_required := by decide }

theorem strangerCommand_same :
    SameExecution Toolkit.reference signCommand strangerCommand :=
  ⟨rfl, rfl, rfl, rfl, by simp [signCommand, strangerCommand], fun _ => Iff.rfl⟩

theorem signPlan_fits : Sign.ensureRelayTransactionFits Toolkit.reference authorization
    signPlan.authorities signPlan.forwardedSigners = .ok () := by decide +kernel

theorem signCommand_plans : Sign.plan Toolkit.reference signCommand = .ok signPlan := by
  rw [Sign.plan]
  refine (bind_of_ok signCommand_authorizes).trans ?_
  exact bind_of_ok signPlan_fits

theorem signCommand_prints : ∃ output, Sign.run Toolkit.reference signCommand
    (client (keyFile (50 : Nat)) (.ok state)) = .ok output := by
  refine ⟨Sign.render Toolkit.reference signCommand signPlan [], ?_⟩
  rw [Sign.run]
  exact bind_of_ok signCommand_plans

/-- One invocation prints its message, and the other is rejected for its local key. -/
theorem strangerCommand_rejected :
    SameExecution Toolkit.reference signCommand strangerCommand ∧
      (∃ output, Sign.run Toolkit.reference signCommand
        (client (keyFile (50 : Nat)) (.ok state)) = .ok output) ∧
      Sign.run Toolkit.reference strangerCommand (client (keyFile (50 : Nat)) (.ok state)) =
        .error [s!"Signer {Toolkit.reference.display (14 : Nat)} is not in the supplied " ++
          "--authority list"] := by
  have plans := (Sign.plan_congr strangerCommand_same).symm.trans signCommand_plans
  refine ⟨strangerCommand_same, signCommand_prints, ?_⟩
  rw [Sign.run]
  refine (bind_of_ok plans).trans ?_
  rfl

theorem strangerCommand_stranger : Sign.RejectedLocally strangerCommand
    (client (keyFile (50 : Nat)) (.ok state)) signPlan :=
  .stranger rfl List.mem_cons_self rfl (by decide)

end Reference

/-- The two invocations plan the same authorization message all the same. One has nothing to be
rejected for, and the other is. -/
theorem participants_sign_same_reference :
    Sign.plan Toolkit.reference Reference.signCommand =
        Sign.plan Toolkit.reference Reference.strangerCommand ∧
      ¬Sign.RejectedLocally Reference.signCommand
        (Reference.client (Reference.keyFile (50 : Nat)) (.ok Reference.state))
        Reference.signPlan ∧
      ∃ failure, Sign.run Toolkit.reference Reference.strangerCommand
        (Reference.client (Reference.keyFile (50 : Nat)) (.ok Reference.state)) =
          .error failure := by
  obtain ⟨plans, -, locally, -⟩ :=
    (participants_sign_same Reference.messageLaws Toolkit.reference).1 _ _
      Reference.strangerCommand_same
  obtain ⟨first, second⟩ := locally _ Reference.signCommand_plans
    (Reference.client (Reference.keyFile (50 : Nat)) (.ok Reference.state))
  refine ⟨plans, fun refused => ?_, second.mpr Reference.strangerCommand_stranger⟩
  obtain ⟨output, prints⟩ := Reference.signCommand_prints
  obtain ⟨failure, failed⟩ := first.mpr refused
  cases prints.symm.trans failed

end ProgrammaticSigner
