import ProgrammaticSigner.Runtime.Approvals

set_option autoImplicit false

/- What nobody but the authority can take away: while the key behind a nonce authority
approves nothing, the nonce account stands and every message signed for it can execute. -/
namespace ProgrammaticSigner

variable {P : Platform}

/-- The account is still this nonce, and has not been debited. -/
structure Stands (before after : P.Account) (state : P.Nonce) : Prop where
  held : Initialized after state
  lamports : before.lamports ≤ after.lamports

theorem Stands.refl {account : P.Account} {state : P.Nonce} (held : Initialized account state) :
    Stands account account state :=
  ⟨held, UInt64.le_refl _⟩

theorem Stands.trans {first second third : P.Account} {state : P.Nonce}
    (one : Stands first second state) (two : Stands second third state) :
    Stands first third state :=
  ⟨two.held, UInt64.le_trans one.lamports two.lamports⟩

/-- A transition that the nonce's authority does not sign leaves the nonce standing. -/
theorem Transition.Valid.stands {timeline : Timeline P} {transition : Transition P}
    (valid : transition.Valid timeline) {address : P.Address} {state : P.Nonce}
    (held : Initialized (transition.before.ledger address) state)
    (slot : 0 < state.initializeSlot)
    (unsigned : ∀ instruction, transition.event = .invoked instruction →
      instruction.grantsSigner state.authority = false) :
    Stands (transition.before.ledger address) (transition.after.ledger address) state := by
  rcases valid.change address with ⟨instruction, decoded, event, -, change⟩ | foreign
  · have without {authority : P.AccountView} (listed : authority ∈ instruction.views)
        (authorized : authority.address = state.authority) (signed : authority.isSigner = true) :
        False := by
      have none := unsigned instruction event
      rw [← authorized, ← (Instruction.mem_views listed).2.1, signed] at none
      cases none
    cases change.fate held slot with
    | kept still lamports => exact ⟨still, lamports⟩
    | advanced shape here authorized signed still lamports =>
        exact (without (shape ▸ List.mem_cons_self) authorized signed).elim
    | withdrawn shape here authorized signed still =>
        exact (without (shape ▸ List.mem_cons_self) authorized signed).elim
  · exact ⟨foreign.initialized_iff.mpr held, (foreign.owned held.1).2.2⟩

section Steps

variable {timeline : Timeline P} {address : P.Address} {state : P.Nonce}

/-- The step of a call is a transition of the nonce accounts, or changes none. -/
theorem CallStep.transition {slot : UInt64} {stack next : CallStack P} {marks : List (Mark P)}
    {calls : List (Call P)} (step : CallStep (timeline.sysvars slot) stack marks calls next) :
    next.ledger = stack.ledger ∨ ∃ event,
      Transition.Valid timeline ⟨⟨slot, stack.ledger⟩, event, ⟨slot, next.ledger⟩⟩ ∧
      ∀ instruction, event = .invoked instruction →
        ∃ call ∈ calls, call.instruction = instruction := by
  cases step with
  | @step ledger final frame rest body marks machine permitted =>
      generalize same : frame.task = task at machine
      generalize body ++ rest.map Frame.task = tasks at machine
      cases machine with
      | @nonce _ _ instruction _ program committed =>
          refine .inr ⟨.invoked instruction, .invoked program committed, ?_⟩
          intro other event
          obtain rfl := NonceEvent.invoked.inj event
          refine ⟨⟨frame.callers, instruction⟩, ?_, rfl⟩
          rw [Frame.calls, same]
          exact List.mem_singleton_self _
      | execute => exact .inl rfl
      | submit => exact .inl rfl
      | other => exact .inl rfl
      | effects foreign =>
          exact .inr ⟨.others, .others foreign, fun instruction event => by cases event⟩

theorem CallStep.allFunded {slot : UInt64} {stack next : CallStack P} {marks : List (Mark P)}
    {calls : List (Call P)} (step : CallStep (timeline.sysvars slot) stack marks calls next)
    (funded : AllFunded stack.ledger) : AllFunded next.ledger := by
  rcases step.transition with same | ⟨event, valid, -⟩
  · exact same ▸ funded
  · exact valid.allFunded funded

theorem CallRun.allFunded {slot : UInt64} {stack final : CallStack P} {marks : List (Mark P)}
    {calls : List (Call P)} (run : CallRun (timeline.sysvars slot) stack marks calls final)
    (funded : AllFunded stack.ledger) : AllFunded final.ledger := by
  induction run with
  | nil => exact funded
  | cons step rest ih => exact ih (step.allFunded funded)

theorem CallRun.stands {slot : UInt64} {stack final : CallStack P} {marks : List (Mark P)}
    {calls : List (Call P)} (run : CallRun (timeline.sysvars slot) stack marks calls final)
    (funded : AllFunded stack.ledger) (held : Initialized (stack.ledger address) state)
    (unsigned : ∀ call ∈ calls, call.instruction.grantsSigner state.authority = false) :
    Stands (stack.ledger address) (final.ledger address) state := by
  induction run with
  | nil => exact .refl held
  | cons step rest ih =>
      have later := fun call member => unsigned call (List.mem_append_right _ member)
      rcases step.transition with same | ⟨event, valid, called⟩
      · rw [same] at ih
        exact ih funded held later
      · have here := valid.stands held (funded _ _ held).slot fun instruction invoked => by
          obtain ⟨call, listed, rfl⟩ := called instruction invoked
          exact unsigned call (List.mem_append_left _ listed)
        exact here.trans (ih (valid.allFunded funded) here.held later)

theorem HistoryStep.allFunded {world next : World P} {marks : List (Mark P)}
    {calls : List (Call P)} (step : HistoryStep timeline world marks calls next)
    (funded : AllFunded world.ledger) : AllFunded next.ledger := by
  cases step with
  | committed keyed run => exact run.allFunded funded
  | aborted => exact funded
  | @others final foreign =>
      have valid : Transition.Valid timeline ⟨world, .others, ⟨world.slot, final⟩⟩ :=
        .others foreign
      exact valid.allFunded funded
  | later forward => exact funded

theorem History.allFunded {start final : World P} {marks : List (Mark P)} {calls : List (Call P)}
    (history : History timeline start marks calls final) (funded : AllFunded start.ledger) :
    AllFunded final.ledger := by
  induction history with
  | nil => exact funded
  | cons step rest ih => exact ih (step.allFunded funded)

theorem HistoryStep.stands {world next : World P} {marks : List (Mark P)}
    {calls : List (Call P)} (step : HistoryStep timeline world marks calls next)
    (funded : AllFunded world.ledger) (held : Initialized (world.ledger address) state)
    (unsigned : ∀ call ∈ calls, call.instruction.grantsSigner state.authority = false) :
    Stands (world.ledger address) (next.ledger address) state := by
  cases step with
  | committed keyed run => exact run.stands funded held unsigned
  | aborted => exact .refl held
  | @others final foreign =>
      have valid : Transition.Valid timeline ⟨world, .others, ⟨world.slot, final⟩⟩ :=
        .others foreign
      exact valid.stands held (funded _ _ held).slot fun instruction event => by cases event
  | later forward => exact .refl held

theorem History.stands {start final : World P} {marks : List (Mark P)} {calls : List (Call P)}
    (history : History timeline start marks calls final) (funded : AllFunded start.ledger)
    (held : Initialized (start.ledger address) state)
    (unsigned : ∀ call ∈ calls, call.instruction.grantsSigner state.authority = false) :
    Stands (start.ledger address) (final.ledger address) state := by
  induction history with
  | nil => exact .refl held
  | cons step rest ih =>
      have here := step.stands funded held fun call member =>
        unsigned call (List.mem_append_left _ member)
      exact here.trans (ih (step.allFunded funded) here.held fun call member =>
        unsigned call (List.mem_append_right _ member))

end Steps

/-- An execution reads of the ledger only its nonce. -/
theorem Stands.processExecute {before after : P.Ledger}
    {nonceAuthority nonceAccount : P.AccountView}
    {state : P.Nonce} (held : Initialized (before nonceAccount.address) state)
    (stands : Stands (before nonceAccount.address) (after nonceAccount.address) state)
    (accounts : List P.AccountView) (message : P.VersionedMessage) :
    processExecute after (nonceAuthority :: nonceAccount :: accounts) message =
      processExecute before (nonceAuthority :: nonceAccount :: accounts) message := by
  cases accounts with
  | nil => rfl
  | cons nonceProgram messageAccounts =>
      simp only [ProgrammaticSigner.processExecute, held.1, held.2, stands.held.1, stands.held.2]

/-- From any world of the chain on, while no committed submission carries the key's approval, a
nonce account under the key's PDA keeps its value, its authority and its lamports, and an
`Execute` naming it is accepted or refused as before, with the same CPIs. -/
theorem presigned_stays_executable (messages : P.MessageLaws) (programs : P.ProgramLaws)
    (derivation : P.DerivationLaws) (apart : P.DerivesApart) {timeline : Timeline P}
    {origin start final : World P} {early late : List (Mark P)} {before calls : List (Call P)}
    (genesis : Genesis origin.ledger) (first : History timeline origin early before start)
    {address authority : P.Address} {state : P.Nonce}
    (held : Initialized (start.ledger address) state)
    (pda : state.authority = deriveAddress P.signerProgram authority)
    (second : History timeline start late calls final)
    (silent : approvedMessages authority calls = []) :
    Stands (start.ledger address) (final.ledger address) state ∧
    ∀ nonceAuthority nonceAccount accounts message, nonceAccount.address = address →
      processExecute final.ledger (nonceAuthority :: nonceAccount :: accounts) message =
        processExecute start.ledger (nonceAuthority :: nonceAccount :: accounts) message := by
  have unsigned (call : Call P) (member : call ∈ calls) :
      call.instruction.grantsSigner state.authority = false := by
    rw [Bool.eq_false_iff, pda]
    intro signs
    obtain ⟨submit, message, -, listed⟩ :=
      second.delegated messages programs derivation apart member signs
    rw [silent] at listed
    cases listed
  have stands := second.stands (first.allFunded genesis.allFunded) held unsigned
  refine ⟨stands, ?_⟩
  rintro nonceAuthority nonceAccount accounts message rfl
  exact stands.processExecute held accounts message

namespace Apart

/-- A call that may write to the nonce account, and the call it makes in turn. -/
def busy : Platform.apart.Instruction :=
  ⟨(50 : Nat), [⟨nonceAccount, false, true⟩, ⟨(34 : Nat), true, false⟩], [1]⟩

def inner : Platform.apart.Instruction := ⟨(51 : Nat), [⟨nonceAccount, false, true⟩], [2]⟩

/-- The open account with one more lamport. -/
def credited : Platform.apart.Ledger :=
  Function.update opened nonceAccount { opened nonceAccount with lamports := 101 }

theorem credits : Foreign Platform.apart.nonceProgram opened credited := by
  intro address
  by_cases here : address = nonceAccount
  · subst here
    exact ⟨fun owned => ⟨owned, rfl, by decide⟩, fun other => absurd rfl other⟩
  · rw [credited, Function.update_of_ne here]
    exact .refl _

/-- Others credit the account from within a transaction that the key approved nothing of. -/
theorem crediting : HistoryStep timeline ⟨1, opened⟩ [] [⟨[], busy⟩, ⟨[busy], inner⟩]
    ⟨1, credited⟩ := by
  have first : CallStep (timeline.sysvars 1) ⟨opened, [Frame.root busy]⟩ [] [⟨[], busy⟩]
      ⟨opened, [.invoke inner, .effects].map (Frame.mk [busy]) ++ []⟩ := by
    refine @CallStep.step _ _ _ _ (.root busy) [] _ _ (.other (by decide)) ?_
    intro caller callee same _ _ listed
    obtain rfl := Task.invoke.inj same
    obtain rfl : callee = inner := by simpa using listed
    exact ⟨⟨inner, []⟩, by decide, rfl⟩
  have second : CallStep (timeline.sysvars 1)
      ⟨opened, [⟨[busy], .invoke inner⟩, ⟨[busy], .effects⟩]⟩ [] [⟨[busy], inner⟩]
      ⟨opened, [].map (Frame.mk _) ++ [⟨[busy], .effects⟩]⟩ :=
    .invoke (.other (by decide)) (.inr (.inr rfl))
  have last : CallStep (timeline.sysvars 1) ⟨opened, [⟨[busy], .effects⟩]⟩ [] []
      ⟨credited, [].map (Frame.mk _) ++ []⟩ :=
    @CallStep.step _ _ _ _ ⟨[busy], .effects⟩ [] [] _ (.effects credits)
      (fun _ _ same => by cases same)
  refine @HistoryStep.committed _ _ ⟨1, opened⟩ _ [busy] _ _ ?_
    (.cons first (.cons second (.cons last .nil)))
  intro instruction member authority
  obtain rfl := List.mem_singleton.mp member
  rw [Bool.eq_false_iff]
  intro signs
  obtain ⟨account, listed, same, flagged⟩ := Instruction.grantsSigner_iff.mp signs
  have key : account.pubkey = (34 : Nat) := by
    rcases List.mem_cons.mp listed with rfl | listed
    · cases flagged
    · obtain rfl := List.mem_singleton.mp listed
      rfl
  have odd : (34 : Nat) = 2 * authority + 1 :=
    (key.symm.trans same).trans (Reference.derived_authority authority [])
  omega

end Apart

/-- The open account, while a transaction that another key signs calls two programs with it
and credits it: its presigned message is answered as before. -/
theorem presigned_stays_executable_opened :
    Stands (Apart.opened Apart.nonceAccount) (Apart.credited Apart.nonceAccount) Apart.state ∧
    processExecute Apart.credited Apart.submission.instruction.views (.v1 Apart.message) =
      processExecute Apart.opened Apart.submission.instruction.views (.v1 Apart.message) := by
  have stays := presigned_stays_executable Apart.messageLaws Apart.programLaws
    Apart.derivationLaws Apart.derivesApart Apart.genesis (.cons Apart.opened_step .nil) Apart.held
    (show Apart.state.authority = deriveAddress Platform.apart.signerProgram (30 : Nat) by decide)
    (.cons Apart.crediting (.cons (.later (by decide : (1 : UInt64) ≤ 2)) .nil)) (by decide)
  exact ⟨stays.1, stays.2 _ _ _ _ rfl⟩

end ProgrammaticSigner
