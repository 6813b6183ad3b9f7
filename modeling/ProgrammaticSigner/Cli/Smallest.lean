import ProgrammaticSigner.Cli.Choices
import ProgrammaticSigner.Cli.Roles
import ProgrammaticSigner.Cli.SizedReference

set_option autoImplicit false

/- Whether the relay transaction that `transaction sign` measures is the smallest one that
`transaction submit` can build for the same authorization message. -/
namespace ProgrammaticSigner

open Outcome V1Transaction

variable {P : Platform}

namespace Sign

/-- The slots that are measured: only forwarded signers that are no authorities leave theirs
empty. -/
def measuredSlot (authorities forwarded : List P.Address) (address : P.Address) :
    Option P.Signature :=
  if address ∈ authorities ∨ address ∉ forwarded then some default else none

def measuredPayer (authorizationMessage : P.Message) (forwarded : List P.Address) : P.Address :=
  forwarded.head?.getD (authorizationMessage.signerKeys.headD default)

/-- The transaction that is measured. -/
def measuredRelay (K : Toolkit P) (authorizationMessage : P.Message)
    (authorities forwarded : List P.Address) : Except Failure P.Transaction :=
  relayTransaction K authorizationMessage
    (authorizationMessage.signerKeys.map (measuredSlot authorities forwarded)) forwarded
    (measuredPayer authorizationMessage forwarded) none default

end Sign

/-- One transaction serializes to no more bytes than another. -/
def NoLarger (K : Toolkit P) (small large : P.Transaction) : Prop :=
  ∃ smallBytes largeBytes, K.serializeTransaction small = .ok smallBytes ∧
    K.serializeTransaction large = .ok largeBytes ∧ smallBytes.length ≤ largeBytes.length

/-- The size check measures a transaction no larger than any that can be submitted, so where one
can be, the check passes. -/
def MeasuresSmallest (K : Toolkit P) (plan : SignPlan P) : Prop :=
  ∀ relay, CanSubmit K plan.authorizationMessage relay →
    (∃ measured, Sign.measuredRelay K plan.authorizationMessage plan.authorities
        plan.forwardedSigners = .ok measured ∧ NoLarger K measured relay) ∧
      Sign.ensureRelayTransactionFits K plan.authorizationMessage plan.authorities
        plan.forwardedSigners = .ok ()

/-- The measured fee payer can pay, and nobody would pay for less: someone on the message signs
the relay transaction in any case, or no required relay signer can pay. -/
structure PicksSmallest (command : SignCommand P) (plan : SignPlan P) : Prop where
  payer : Sign.measuredPayer plan.authorizationMessage plan.forwardedSigners ≠ P.signerProgram
  cheapest : (∃ signer ∈ plan.authorizationMessage.signerKeys,
      UsesSigner plan.executionMessage command.nonceAuthority signer) ∨
    ∀ signer ∈ command.requiredRelaySigner, signer = P.signerProgram

section Roles

variable {command : SignCommand P} {plan : SignPlan P} (planned : Planned command plan)
  {execute : ExecuteAccounts P}
  (uses : ∀ address, execute.isExecutorSigner address = true ↔
    UsesSigner plan.executionMessage command.nonceAuthority address)
  {authoritySignatures : List (P.Address × P.Signature)}
  (authorities : ∀ address ∈ plan.authorizationMessage.signerKeys,
    execute.isPdaAuthority address = true →
      (authoritySignatures.lookup address).isSome = true)
include planned uses authorities

theorem Planned.authority_signed {signer : P.Address}
    (required : signer ∈ plan.authorizationMessage.signerKeys)
    (listed : signer ∈ command.authority) :
    (authoritySignatures.lookup signer).isSome = true := by
  apply authorities signer required
  rw [ExecuteAccounts.isPdaAuthority, uses]
  exact planned.derived signer listed

/-- No choice makes a signer cost less than it is measured at. -/
theorem Planned.signer_cost {signer : P.Address}
    (required : signer ∈ plan.authorizationMessage.signerKeys) :
    slotSize (Sign.measuredSlot (P := P) plan.authorities plan.forwardedSigners signer) +
        (if signer ∈ plan.forwardedSigners then 64 else 0) ≤
      slotSize (authoritySignatures.lookup signer) +
        if signer ∈ Submit.submitSigners execute plan.authorizationMessage.signerKeys
          authoritySignatures then 64 else 0 := by
  have forwarded : signer ∈ plan.forwardedSigners →
      signer ∈ Submit.submitSigners execute plan.authorizationMessage.signerKeys
        authoritySignatures :=
    fun listed => Submit.mem_submitSigners_of_uses required
      ((uses signer).mpr ((planned.forwarded signer).mp listed).1)
  have positive := slotSize_pos (authoritySignatures.lookup signer)
  by_cases authority : signer ∈ command.authority
  · rw [Sign.measuredSlot, if_pos (.inl ((planned.authorities signer).mpr authority)),
      slotSize_some (planned.authority_signed uses authorities required authority)]
    show 65 + _ ≤ _
    split
    · rw [if_pos (forwarded ‹_›)]
    · omega
  · have unlisted : signer ∉ plan.authorities := fun listed =>
      authority ((planned.authorities signer).mp listed)
    by_cases forwards : signer ∈ plan.forwardedSigners
    · rw [Sign.measuredSlot, if_neg (by tauto), if_pos forwards, if_pos (forwarded forwards)]
      show 1 + 64 ≤ _
      omega
    · have relay : signer ∈ command.requiredRelaySigner :=
        (((planned.mem_signerKeys signer).mp required).resolve_left authority).resolve_left forwards
      rw [Sign.measuredSlot, if_pos (.inr forwards), if_neg forwards]
      show 65 + 0 ≤ _
      cases signed : authoritySignatures.lookup signer with
      | some signature =>
          show 65 + 0 ≤ 65 + _
          omega
      | none =>
          rw [if_pos]
          · show 65 + 0 ≤ 1 + 64
            omega
          · apply List.mem_filter.mpr
            rw [signed, (planned.requiredRelay_agrees uses required).mpr relay]
            exact ⟨required, by simp⟩

theorem Planned.signingCost_le :
    signingCost plan.authorizationMessage
        (Sign.measuredSlot plan.authorities plan.forwardedSigners) plan.forwardedSigners ≤
      signingCost plan.authorizationMessage (fun address => authoritySignatures.lookup address)
        (Submit.submitSigners execute plan.authorizationMessage.signerKeys authoritySignatures) :=
  Finset.sum_le_sum fun _ member =>
    planned.signer_cost uses authorities (List.mem_toFinset.mp member)

/-- An authority that the executor uses directly signs twice, but is measured once. -/
theorem Planned.signingCost_used {signer : P.Address}
    (required : signer ∈ plan.authorizationMessage.signerKeys)
    (used : UsesSigner plan.executionMessage command.nonceAuthority signer)
    (unforwarded : signer ∉ plan.forwardedSigners) :
    signingCost plan.authorizationMessage
        (Sign.measuredSlot plan.authorities plan.forwardedSigners) plan.forwardedSigners + 64 ≤
      signingCost plan.authorizationMessage (fun address => authoritySignatures.lookup address)
        (Submit.submitSigners execute plan.authorizationMessage.signerKeys
          authoritySignatures) := by
  have listed : signer ∈ command.authority := by
    rcases (planned.mem_signerKeys signer).mp required with role | role | role
    · exact role
    · exact absurd role unforwarded
    · exact absurd used (planned.separate signer role).2.1
  have extra : ∑ other ∈ plan.authorizationMessage.signerKeys.toFinset,
      (if other = signer then 64 else 0) = 64 := by
    rw [Finset.sum_ite_eq', if_pos (List.mem_toFinset.mpr required)]
  calc signingCost plan.authorizationMessage
          (Sign.measuredSlot plan.authorities plan.forwardedSigners) plan.forwardedSigners + 64
      = ∑ other ∈ plan.authorizationMessage.signerKeys.toFinset,
          (slotSize (Sign.measuredSlot (P := P) plan.authorities plan.forwardedSigners other) +
            (if other ∈ plan.forwardedSigners then 64 else 0) +
            if other = signer then 64 else 0) := by
        rw [Finset.sum_add_distrib, extra]
        rfl
    _ ≤ signingCost plan.authorizationMessage
          (fun address => authoritySignatures.lookup address)
          (Submit.submitSigners execute plan.authorizationMessage.signerKeys
            authoritySignatures) := by
        apply Finset.sum_le_sum
        intro other member
        by_cases same : other = signer
        · rw [same, Sign.measuredSlot, if_pos (.inr unforwarded), if_neg unforwarded, if_pos rfl,
            slotSize_some (planned.authority_signed uses authorities required listed),
            if_pos (Submit.mem_submitSigners_of_uses required ((uses signer).mpr used))]
          exact Nat.le_refl _
        · rw [if_neg same]
          exact planned.signer_cost uses authorities (List.mem_toFinset.mp member)

end Roles

section Measured

variable {K : Toolkit P} {command : SignCommand P} {plan : SignPlan P}
  (planned : Planned command plan) {execute : ExecuteAccounts P}
  {authoritySignatures : List (P.Address × P.Signature)} {feePayer : P.Address}
  {relay : P.Transaction}

theorem signerKeys_ne_nil {message : P.Message} (formed : message.WellFormed) :
    message.signerKeys ≠ [] := by
  have positive := formed.readonlySigned
  have length := formed.signerKeys_length
  intro none
  rw [none, List.length_nil] at length
  omega

include planned

/-- The fee payer that is measured is a forwarded signer where there is one, and on the message
in any case. -/
theorem Planned.measuredPayer_mem (formed : plan.authorizationMessage.WellFormed) :
    Sign.measuredPayer plan.authorizationMessage plan.forwardedSigners ∈
        plan.authorizationMessage.signerKeys ∧
      (plan.forwardedSigners ≠ [] →
        Sign.measuredPayer plan.authorizationMessage plan.forwardedSigners ∈
          plan.forwardedSigners) := by
  unfold Sign.measuredPayer
  cases forwards : plan.forwardedSigners with
  | cons first rest =>
      have listed : first ∈ plan.forwardedSigners := forwards ▸ List.mem_cons_self
      exact ⟨(planned.mem_signerKeys first).mpr (.inr (.inl listed)), fun _ => List.mem_cons_self⟩
  | nil =>
      cases keys : plan.authorizationMessage.signerKeys with
      | nil => exact absurd keys (signerKeys_ne_nil formed)
      | cons first rest => exact ⟨List.mem_cons_self, fun some => absurd rfl some⟩

theorem Planned.forwarded_subset :
    plan.forwardedSigners ⊆ plan.authorizationMessage.signerKeys := by
  intro signer listed
  exact (planned.mem_signerKeys signer).mpr (.inr (.inl listed))

variable (uses : ∀ address, execute.isExecutorSigner address = true ↔
    UsesSigner plan.executionMessage command.nonceAuthority address)
  (authorities : ∀ address ∈ plan.authorizationMessage.signerKeys,
    execute.isPdaAuthority address = true →
      (authoritySignatures.lookup address).isSome = true)
include uses authorities

/-- Under the condition, what is measured is no larger than any choice of slots and fee payer. -/
theorem Planned.measured_le (formed : plan.authorizationMessage.WellFormed)
    (cheapest : (∃ signer ∈ plan.authorizationMessage.signerKeys,
        UsesSigner plan.executionMessage command.nonceAuthority signer) ∨
      ∀ signer ∈ command.requiredRelaySigner, signer = P.signerProgram)
    (payer : feePayer ≠ P.signerProgram) :
    relaySize plan.authorizationMessage (plan.authorizationMessage.signerKeys.map
        (Sign.measuredSlot plan.authorities plan.forwardedSigners)) plan.forwardedSigners
        (Sign.measuredPayer plan.authorizationMessage plan.forwardedSigners) ≤
      relaySize plan.authorizationMessage
        (authoritySlots plan.authorizationMessage authoritySignatures)
        (Submit.submitSigners execute plan.authorizationMessage.signerKeys authoritySignatures)
        feePayer := by
  have required := Submit.submitSigners_subset execute plan.authorizationMessage.signerKeys
    authoritySignatures
  have least := @relaySize_ge P plan.authorizationMessage
    (fun address => authoritySignatures.lookup address) _ feePayer formed required
  have cost := planned.signingCost_le uses authorities
  have mine := planned.measuredPayer_mem formed
  by_cases none : plan.forwardedSigners = []
  · have listed := @relaySize_listed P plan.authorizationMessage
      (Sign.measuredSlot plan.authorities plan.forwardedSigners) _ _ formed
      planned.forwarded_subset mine.1
    refine listed.trans ?_
    by_cases used : ∃ signer ∈ plan.authorizationMessage.signerKeys,
        UsesSigner plan.executionMessage command.nonceAuthority signer
    · obtain ⟨signer, listed, used⟩ := used
      have twice := planned.signingCost_used uses authorities listed used
        (none ▸ List.not_mem_nil)
      apply le_trans _ least
      rw [Nat.add_assoc]
      exact Nat.add_le_add_left twice _
    · have unpaid : feePayer ∉ Submit.submitSigners execute
          plan.authorizationMessage.signerKeys authoritySignatures := by
        intro listed
        obtain ⟨required, role⟩ := List.mem_filter.mp listed
        rw [Bool.or_eq_true, Bool.and_eq_true] at role
        rcases role with uses' | relays
        · exact used ⟨feePayer, required, (uses feePayer).mp uses'⟩
        · have relay := (planned.requiredRelay_agrees uses required).mp relays.1
          exact payer (cheapest.resolve_left used feePayer relay)
      have more := @relaySize_unpaid P plan.authorizationMessage
        (fun address => authoritySignatures.lookup address) _ feePayer formed required unpaid
      show _ ≤ relaySize plan.authorizationMessage (plan.authorizationMessage.signerKeys.map
        fun address => authoritySignatures.lookup address) _ feePayer
      omega
  · rw [relaySize_paid formed planned.forwarded_subset (mine.2 none)]
    exact (Nat.add_le_add_left cost _).trans least

end Measured

/-- Where nobody on the message signs the relay transaction anyway, each signer costs one
signature, and a required relay signer that pays costs nothing more. -/
theorem Planned.signingCost_relayed {command : SignCommand P} {plan : SignPlan P}
    (planned : Planned command plan) {execute : ExecuteAccounts P}
    (uses : ∀ address, execute.isExecutorSigner address = true ↔
      UsesSigner plan.executionMessage command.nonceAuthority address)
    (unused : ∀ signer ∈ plan.authorizationMessage.signerKeys,
      ¬ UsesSigner plan.executionMessage command.nonceAuthority signer)
    (others : List (P.Address × P.Signature)) :
    signingCost plan.authorizationMessage (fun address => others.lookup address)
        (Submit.submitSigners execute plan.authorizationMessage.signerKeys others) ≤
      signingCost plan.authorizationMessage
        (Sign.measuredSlot plan.authorities plan.forwardedSigners) plan.forwardedSigners := by
  apply Finset.sum_le_sum
  intro signer member
  have required := List.mem_toFinset.mp member
  have unforwarded : signer ∉ plan.forwardedSigners := fun listed =>
    unused signer required ((planned.forwarded signer).mp listed).1
  have measured : slotSize (Sign.measuredSlot (P := P) plan.authorities plan.forwardedSigners
      signer) + (if signer ∈ plan.forwardedSigners then 64 else 0) = 65 := by
    rw [Sign.measuredSlot, if_pos (Or.inr unforwarded), if_neg unforwarded]
    rfl
  rw [measured]
  show slotSize (others.lookup signer) + _ ≤ 65
  cases signed : others.lookup signer with
  | none =>
      rw [show slotSize (none : Option P.Signature) = 1 from rfl]
      split <;> omega
  | some signature =>
      rw [if_neg]
      · exact Nat.le_refl _
      · intro listed
        have role := (List.mem_filter.mp listed).2
        rw [signed, Bool.or_eq_true, Bool.and_eq_true] at role
        rcases role with uses' | ⟨-, none⟩
        · exact unused signer required ((uses signer).mp uses')
        · cases none

section Smallest

variable {K : Toolkit P} {command : SignCommand P} {plan : SignPlan P}
  (planned : Planned command plan) (messages : P.MessageLaws)
include planned messages

/-- `transaction submit` reads the executor's signers off the message as they were signed for. -/
theorem Planned.executor_uses {execute : ExecuteAccounts P}
    (taken : ExecuteAccounts.tryNew K plan.authorizationMessage = .ok execute)
    (address : P.Address) : execute.isExecutorSigner address = true ↔
      UsesSigner plan.executionMessage command.nonceAuthority address := by
  have recovered := ExecuteAccounts.tryNew_ok K messages planned.valid planned.config
    planned.authorizes
  obtain rfl := Except.ok.inj (recovered.symm.trans taken)
  exact ExecuteAccounts.isExecutorSigner_iff _ messages (messages.wellFormed _ planned.valid)
    address

variable (transactions : K.TransactionLaws) (layout : K.LayoutLaws)
include transactions layout

/-- The measured transaction is there when its fee payer can pay, and has the size of its
parts. -/
theorem Planned.measured_exists {execute : ExecuteAccounts P}
    {authoritySignatures : List (P.Address × P.Signature)} {feePayer : P.Address}
    {relay : P.Transaction}
    (chosen : Chosen K plan.authorizationMessage execute authoritySignatures feePayer relay)
    (payer : Sign.measuredPayer plan.authorizationMessage plan.forwardedSigners ≠
      P.signerProgram) :
    ∃ measured bytes, Sign.measuredRelay K plan.authorizationMessage plan.authorities
        plan.forwardedSigners = .ok measured ∧
      K.serializeTransaction measured = .ok bytes ∧
      bytes.length = relaySize plan.authorizationMessage
        (plan.authorizationMessage.signerKeys.map
          (Sign.measuredSlot plan.authorities plan.forwardedSigners)) plan.forwardedSigners
        (Sign.measuredPayer plan.authorizationMessage plan.forwardedSigners) := by
  have formed := messages.wellFormed _ planned.authorizes.valid
  exact chosen.other messages transactions layout formed _ planned.forwarded_subset
    (planned.measuredPayer_mem formed).1 payer default

theorem PicksSmallest.measures (picks : PicksSmallest command plan) : MeasuresSmallest K plan := by
  rintro relay ⟨submit, client, prepared, found, same, rfl⟩
  have formed := messages.wellFormed _ planned.authorizes.valid
  obtain ⟨feePayer, chosen⟩ := Submit.prepare_chosen found
  rw [same] at chosen
  have uses := planned.executor_uses messages chosen.taken
  have payer := (chosen.limits messages layout).1
  obtain ⟨bytes, serializes, fits, size⟩ := chosen.serialized messages transactions layout
  obtain ⟨measured, small, exists_, written, length⟩ :=
    planned.measured_exists messages transactions layout chosen picks.payer
  have least := planned.measured_le uses chosen.authorities formed picks.cheapest payer
  have smaller : small.length ≤ bytes.length := length ▸ least.trans size
  refine ⟨⟨measured, exists_, small, bytes, written, serializes, smaller⟩, ?_⟩
  refine (bind_of_ok exists_).trans ?_
  exact ensureTransactionSize_ok_iff.mpr ⟨small, written, smaller.trans fits⟩

/-- The size check of `transaction submit` leaves room for the signers as they are measured. -/
theorem Planned.fits_measured {execute : ExecuteAccounts P}
    (uses : ∀ address, execute.isExecutorSigner address = true ↔
      UsesSigner plan.executionMessage command.nonceAuthority address)
    {authoritySignatures : List (P.Address × P.Signature)} {feePayer : P.Address}
    {relay : P.Transaction}
    (chosen : Chosen K plan.authorizationMessage execute authoritySignatures feePayer relay) :
    sharedSize plan.authorizationMessage + signingCost plan.authorizationMessage
        (Sign.measuredSlot plan.authorities plan.forwardedSigners) plan.forwardedSigners ≤
      maxTransactionSize := by
  have formed := messages.wellFormed _ planned.authorizes.valid
  have submits := Submit.submitSigners_subset execute plan.authorizationMessage.signerKeys
    authoritySignatures
  obtain ⟨bytes, serializes, fits, size⟩ := chosen.serialized messages transactions layout
  have least := @relaySize_ge P plan.authorizationMessage
    (fun address => authoritySignatures.lookup address) _ feePayer formed submits
  have cost := planned.signingCost_le uses chosen.authorities
  exact (Nat.add_le_add_left cost _).trans (least.trans (size.trans fits))

/-- Where the executor uses no signer of the message itself, a required relay signer can pay
without adding a signature to the measured ones. -/
theorem Planned.relayed_exists (unused : ∀ signer ∈ plan.authorizationMessage.signerKeys,
      ¬ UsesSigner plan.executionMessage command.nonceAuthority signer) {signer : P.Address}
    (listed : signer ∈ command.requiredRelaySigner) (able : signer ≠ P.signerProgram)
    {relay : P.Transaction} (submittable : CanSubmit K plan.authorizationMessage relay) :
    ∃ cheap bytes, CanSubmit K plan.authorizationMessage cheap ∧
      K.serializeTransaction cheap = .ok bytes ∧
      bytes.length ≤ sharedSize plan.authorizationMessage +
        signingCost plan.authorizationMessage
          (Sign.measuredSlot plan.authorities plan.forwardedSigners) plan.forwardedSigners := by
  have formed := messages.wellFormed _ planned.authorizes.valid
  have required := (planned.mem_signerKeys signer).mpr (.inr (.inr listed))
  obtain ⟨submit, client, prepared, found, same, rfl⟩ := submittable
  obtain ⟨feePayer, chosen⟩ := Submit.prepare_chosen found
  obtain ⟨_, loaded, blockhash, builds⟩ := (Submit.prepare_ok_iff K).mp found
  have uses := planned.executor_uses messages (same ▸ chosen.taken)
  have role := (planned.requiredRelay_agrees uses required).mpr listed
  -- The signer pays, and signs the relay transaction alone.
  obtain ⟨others, verifies, lookups⟩ := @verifyAuthoritySignatures_others P K prepared.message
    prepared.execute signer submit.signers [] _ [] (fun address => by simp) builds.verified
  have paid : signer ∈ Submit.submitSigners prepared.execute
      plan.authorizationMessage.signerKeys others := by
    apply List.mem_filter.mpr
    rw [role, lookups, if_pos rfl]
    exact ⟨required, by simp⟩
  have submits := Submit.submitSigners_subset prepared.execute
    plan.authorizationMessage.signerKeys others
  have total := @relaySize_paid P plan.authorizationMessage (fun address => others.lookup address)
    _ _ formed submits paid
  have cost := planned.signingCost_relayed uses unused others
  have fits := planned.fits_measured messages transactions layout uses (same ▸ chosen)
  have size := total.le.trans (Nat.add_le_add_left cost _)
  obtain ⟨cheap, bytes, submittable, serializes, length⟩ := Submit.prepare_paid messages
    transactions layout found (same ▸ required) role able verifies lookups
    (by rw [same]; exact size.trans fits)
  rw [same] at submittable length
  exact ⟨cheap, bytes, submittable, serializes, length.le.trans size⟩

theorem MeasuresSmallest.picks (measures : MeasuresSmallest K plan) {relay : P.Transaction}
    (submittable : CanSubmit K plan.authorizationMessage relay) :
    PicksSmallest command plan := by
  have formed := messages.wellFormed _ planned.authorizes.valid
  obtain ⟨measured, exists_, -⟩ := (measures relay submittable).1
  have payer := (relayTransaction_limits messages layout exists_).1
  refine ⟨payer, ?_⟩
  by_contra cheaper
  rw [not_or] at cheaper
  obtain ⟨unused, relays⟩ := cheaper
  push Not at unused relays
  obtain ⟨signer, listed, able⟩ := relays
  obtain ⟨cheap, bytes, submits, serializes, small⟩ :=
    planned.relayed_exists messages transactions layout unused listed able submittable
  obtain ⟨_, exists', _, bytes', written, serializes', smaller⟩ := (measures cheap submits).1
  obtain ⟨submit, client, prepared, found, same, rfl⟩ := submits
  obtain ⟨feePayer, chosen⟩ := Submit.prepare_chosen found
  obtain ⟨measured', large, exists_', written', length⟩ :=
    planned.measured_exists messages transactions layout (same ▸ chosen) payer
  obtain rfl := Except.ok.inj (exists'.symm.trans exists_')
  obtain rfl := Except.ok.inj (written.symm.trans written')
  obtain rfl := Except.ok.inj (serializes.symm.trans serializes')
  -- With no forwarded signer, the measured fee payer adds its signature.
  have unpaid : Sign.measuredPayer plan.authorizationMessage plan.forwardedSigners ∉
      plan.forwardedSigners := fun forwards =>
    unused _ (planned.forwarded_subset forwards) ((planned.forwarded _).mp forwards).1
  have more := @relaySize_unpaid P plan.authorizationMessage
    (Sign.measuredSlot plan.authorities plan.forwardedSigners) _ _ formed planned.forwarded_subset
    unpaid
  omega

end Smallest

/-- What is measured is the smallest relay transaction exactly when the measured fee payer can
pay, and no required relay signer would do so for less. -/
theorem measures_smallest_iff (messages : P.MessageLaws) (K : Toolkit P)
    (transactions : K.TransactionLaws) (layout : K.LayoutLaws) (command : SignCommand P)
    (plan : SignPlan P) (built : Sign.authorize K command = .ok plan) :
    MeasuresSmallest K plan ↔
      (∀ relay, ¬ CanSubmit K plan.authorizationMessage relay) ∨ PicksSmallest command plan := by
  have planned := Sign.authorize_planned messages built
  constructor
  · intro measures
    by_cases none : ∀ relay, ¬ CanSubmit K plan.authorizationMessage relay
    · exact .inl none
    · push Not at none
      obtain ⟨relay, submittable⟩ := none
      exact .inr (measures.picks planned messages transactions layout submittable)
  · intro condition
    rcases condition with none | picks
    · intro relay submittable
      exact absurd submittable (none relay)
    · exact picks.measures planned messages transactions layout

namespace Reference

/-- An execution with 730 bytes of data. The check measures a signature slot, 64 bytes, more than
the smallest relay, and the limit lies between the two. With the bytes of a v1 message and its
transaction, which this encoding does not write, it does so for 3197 to 3260 bytes of data. -/
def large : Platform.sized.Message :=
  { message with instructions := [⟨1, [0], List.replicate 730 7⟩] }

/-- Key 30 signs for the execution, and no key is forwarded. -/
def largeCommand (requiredRelaySigner : List Nat) : SignCommand .sized where
  executionMessage := encodeText (Platform.serializeV1 (P := .sized) large)
  nonceAccount := nonceAccount
  nonceAuthority := nonceAuthority
  nonceHash := state.nonce
  authority := [(30 : Nat)]
  requiredRelaySigner := requiredRelaySigner
  stripTransactionConfig := false
  signer := []
  yes := true
  authority_required := by decide

def largeExecute : Platform.sized.Instruction :=
  ExecutorClient.execute (P := .sized) nonceAccount nonceAuthority large

def largeAuthorization : Platform.sized.Message where
  header := ⟨2, 1, 3⟩
  config := default
  lifetimeSpecifier := default
  accountKeys := [14, 30, nonceAccount, nonceAuthority, 4, 2, 40]
  instructions := [⟨4, [3, 2, 5, 3, 6], largeExecute.data⟩]

def largePlan : SignPlan .sized := ⟨large, [(30 : Nat)], [(14 : Nat)], [], largeAuthorization⟩

theorem large_valid : Platform.sized.validate large = .ok () := by decide +kernel

theorem largeCommand_authorizes :
    Sign.authorize Toolkit.sized (largeCommand [14]) = .ok largePlan := by
  have built : SignerClient.authorizationMessage largeExecute [(14 : Nat), (30 : Nat)] =
      .ok largeAuthorization := by decide +kernel
  rw [Sign.authorize]
  refine (bind_of_ok (sized_readExecutionMessage large_valid rfl)).trans ?_
  refine (bind_of_ok (by decide +kernel : _ = Except.ok ())).trans ?_
  refine (bind_of_ok (by decide +kernel : _ = Except.ok ())).trans ?_
  refine (bind_of_ok (by decide +kernel : _ = Except.ok ())).trans ?_
  refine (bind_of_ok (context_ok_iff.mpr (mapError_ok_iff.mpr built))).trans ?_
  rfl

def aloneAuthorization : Platform.sized.Message where
  header := ⟨1, 0, 3⟩
  config := default
  lifetimeSpecifier := default
  accountKeys := [30, nonceAccount, nonceAuthority, 4, 2, 40]
  instructions := [⟨3, [2, 1, 4, 2, 5], largeExecute.data⟩]

def alonePlan : SignPlan .sized := ⟨large, [(30 : Nat)], [], [], aloneAuthorization⟩

theorem aloneCommand_authorizes :
    Sign.authorize Toolkit.sized (largeCommand []) = .ok alonePlan := by
  have built : SignerClient.authorizationMessage largeExecute [(30 : Nat)] =
      .ok aloneAuthorization := by decide +kernel
  rw [Sign.authorize]
  refine (bind_of_ok (sized_readExecutionMessage large_valid rfl)).trans ?_
  refine (bind_of_ok (by decide +kernel : _ = Except.ok ())).trans ?_
  refine (bind_of_ok (by decide +kernel : _ = Except.ok ())).trans ?_
  refine (bind_of_ok (by decide +kernel : _ = Except.ok ())).trans ?_
  refine (bind_of_ok (context_ok_iff.mpr (mapError_ok_iff.mpr built))).trans ?_
  rfl

end Reference

/-- Without a required relay signer, the reference check measures the smallest one. -/
theorem measures_smallest_iff_reference :
    MeasuresSmallest Toolkit.sized Reference.alonePlan :=
  (measures_smallest_iff Reference.sized_messageLaws Toolkit.sized Reference.sized_transactionLaws
    Reference.sized_layoutLaws (Reference.largeCommand []) Reference.alonePlan
    Reference.aloneCommand_authorizes).mpr
      (.inr ⟨by decide +kernel, .inr (by simp [Reference.largeCommand])⟩)

namespace Reference

def largeSignature : Platform.sized.Signature :=
  fixedSignature (30 : Nat) (Platform.serializeV1 (P := .sized) largeAuthorization)

/-- The relay transaction that key 14 pays for, with what `Submit` carries. -/
def largeRelay (slots : List (Option Platform.sized.Signature)) : Platform.sized.Message where
  header := ⟨1, 0, 5⟩
  config := limits
  lifetimeSpecifier := default
  accountKeys := [14, 20, 61, 2, 4, 6, 30, 40]
  instructions := [⟨5, [0, 6, 1, 2, 4, 3, 7], SignerInstruction.serialize (P := .sized)
    (.submit slots (.v1 largeAuthorization))⟩]

theorem large_rejected : Sign.ensureRelayTransactionFits Toolkit.sized largeAuthorization
    [(30 : Nat)] [] = .error
      ["the smallest relay transaction for this authorization message is 4129 bytes, which " ++
        "exceeds the v1 transaction size limit of 4096 bytes"] := by
  decide +kernel

/-- Key 30 signed, and key 14 pays. -/
def largeSubmit : SubmitCommand .sized :=
  signOnlyCommand (encodeText (Platform.serializeV1 (P := .sized) largeAuthorization))
    [signatureEntry Toolkit.sized (30 : Nat) largeSignature]

def largeExecution : ExecuteAccounts .sized :=
  ⟨nonceAuthority, nonceAccount, large.lifetimeSpecifier, large⟩

theorem large_relayed : Submit.buildRelay Toolkit.sized largeAuthorization largeExecution
    [((30 : Nat), largeSignature)] (14 : Nat) none (default : Bytes) =
      .ok (unsigned (P := .sized) (largeRelay [none, some largeSignature])) := by
  decide +kernel

theorem large_canSubmit : CanSubmit Toolkit.sized largeAuthorization
    (unsigned (P := .sized) (largeRelay [none, some largeSignature])) := by
  have valid : Platform.sized.validate largeAuthorization = .ok () := by decide +kernel
  have decoded : ExecutorInstruction.tryFromBytes (P := .sized) largeExecute.data =
      .ok (.execute (.v1 large)) :=
    ExecutorInstruction.tryFromBytes_ok_iff.mpr ⟨messageWire_total _, rfl⟩
  refine ⟨largeSubmit, addressClient (P := .sized) (14 : Nat), ⟨largeAuthorization,
    largeExecution, [((30 : Nat), largeSignature)], [], _, []⟩, ?_, rfl, rfl⟩
  apply (Submit.prepare_ok_iff Toolkit.sized).mpr
  refine ⟨[], ⟨(14 : Nat), none, []⟩, (default : Bytes), ⟨?_, ?_, ?_, ⟨[], rfl, rfl⟩, rfl, rfl,
    ?_, rfl, large_relayed⟩, rfl⟩
  · exact Decode.readAuthorizationMessage_encode Toolkit.sized sized_messageLaws sized_textLaws
      valid rfl
  · exact @ExecuteAccounts.tryNew_of_decoded _ Toolkit.sized largeAuthorization large
      ⟨4, [3, 2, 5, 3, 6], largeExecute.data⟩ _ _ _ _ rfl rfl decoded rfl rfl
  · decide +kernel
  · decide +kernel

/-- With key 14 as a required relay signer the check fails, and the message can be submitted all
the same: key 14 pays, and its signature takes no slot of its own. -/
theorem large_not_smallest :
    Sign.authorize Toolkit.sized (largeCommand [14]) = .ok largePlan ∧
      Sign.ensureRelayTransactionFits Toolkit.sized largePlan.authorizationMessage
        largePlan.authorities largePlan.forwardedSigners = .error
          ["the smallest relay transaction for this authorization message is 4129 bytes, which " ++
            "exceeds the v1 transaction size limit of 4096 bytes"] ∧
      (∃ relay, CanSubmit Toolkit.sized largePlan.authorizationMessage relay) ∧
      ¬ MeasuresSmallest Toolkit.sized largePlan := by
  refine ⟨largeCommand_authorizes, large_rejected, ⟨_, large_canSubmit⟩, ?_⟩
  intro measures
  have passes := (measures _ large_canSubmit).2
  cases large_rejected.symm.trans passes

end Reference

end ProgrammaticSigner
