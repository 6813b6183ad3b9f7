import ProgrammaticSigner.Cli.NonceWithdraw
import ProgrammaticSigner.Cli.Reference

set_option autoImplicit false

/- The checks of `nonce withdraw` against those of the program: what the command builds, the
program carries out. -/
namespace ProgrammaticSigner

open Outcome

variable {P : Platform}

/-- What a built `Withdraw` was checked against, on the account that was read. -/
structure BuiltWithdraw (client : AccountClient P) (command : WithdrawCommand P)
    (account : P.Account) (plan : WithdrawPlan P) : Prop where
  owned : account.owner = P.nonceProgram
  different : command.destination ≠ command.nonceAccount
  enough : plan.lamports ≤ account.lamports
  closes : plan.closes = true ↔ account.lamports - plan.lamports = 0
  /-- The account signs for itself unless it is an initialized nonce. -/
  withdraw : ∃ signer, plan.withdraw =
      NonceClient.withdraw signer command.nonceAccount command.destination plan.lamports ∧
    ((∃ state, Nonce.view account.data = .ok state ∧ signer = state.authority ∧
        (plan.closes = false → ∃ required,
          client.minimumBalanceForRentExemption Nonce.len = .ok required ∧
            required ≤ account.lamports - plan.lamports)) ∨
      (∀ state, Nonce.view account.data ≠ .ok state) ∧ signer = command.nonceAccount ∧
        plan.closes = true)

namespace NonceWithdraw

variable {K : Toolkit P} {command : WithdrawCommand P} {client : AccountClient P}
  {authority : NonceAuthority P} {plan : WithdrawPlan P} {lamports remaining : UInt64}

theorem planRecovery_ok (planned : planRecovery K command authority lamports remaining = .ok plan) :
    remaining = 0 ∧ plan.lamports = lamports ∧ plan.closes = true ∧
      plan.withdraw = NonceClient.withdraw command.nonceAccount command.nonceAccount
        command.destination lamports := by
  simp only [planRecovery, bind_ok_iff, ensure_ok_iff, pure_ok_iff] at planned
  obtain ⟨-, -, -, emptied, -, -, same⟩ := planned
  subst same
  exact ⟨emptied, rfl, rfl, rfl⟩

theorem checkRent_ok (checked : checkRent K client command lamports remaining = .ok ())
    (left : remaining ≠ 0) :
    ∃ required, client.minimumBalanceForRentExemption Nonce.len = .ok required ∧
      required ≤ remaining := by
  unfold checkRent at checked
  rw [if_neg left] at checked
  obtain ⟨required, rent, fits⟩ := bind_ok_iff.mp checked
  exact ⟨required, rent, ensure_ok_iff.mp fits⟩

/-- Both routes sign with the stored authority. -/
theorem planInitialized_ok {previous : P.Nonce}
    (planned : planInitialized K client command authority previous lamports remaining = .ok plan) :
    checkRent K client command lamports remaining = .ok () ∧ plan.lamports = lamports ∧
      plan.closes = decide (remaining = 0) ∧
      plan.withdraw = NonceClient.withdraw previous.authority command.nonceAccount
        command.destination lamports := by
  simp only [planInitialized, bind_unit_ok_iff] at planned
  refine ⟨planned.1, ?_⟩
  have rest := planned.2
  split at rest
  · rename_i direct
    obtain ⟨-, same⟩ := bind_unit_ok_iff.mp rest
    rw [← pure_ok_iff.mp same, direct]
    exact ⟨rfl, rfl, rfl⟩
  · split at rest
    · rename_i promoted
      rw [← pure_ok_iff.mp rest, promoted]
      exact ⟨rfl, rfl, rfl⟩
    · cases rest

theorem plan_built {account : P.Account}
    (snapshot : client.optionalAccount command.nonceAccount = .ok (some account))
    (planned : NonceWithdraw.plan K command client authority = .ok plan) :
    BuiltWithdraw client command account plan := by
  simp only [NonceWithdraw.plan, bind_ok_iff, ensure_ok_iff, okOr_ok_iff] at planned
  obtain ⟨-, different, read, found, -, -, remaining, rest, planned⟩ := planned
  simp only [nonceProgramAccount, bind_ok_iff, ensure_ok_iff, okOr_ok_iff, pure_ok_iff] at found
  obtain ⟨some, answered, given, here, -, owned, same⟩ := found
  obtain rfl : account = read := by
    rw [snapshot] at answered
    have whole := Except.ok.inj answered
    rw [here] at whole
    rw [← same, Option.some.inj whole]
  obtain ⟨enough, left⟩ := checkedSub_eq_some_iff.mp rest
  rw [same] at owned
  split at planned
  · rename_i blank
    obtain ⟨emptied, amount, closes, built⟩ := planRecovery_ok planned
    rw [← amount] at enough left built
    rw [left] at emptied
    refine ⟨owned, different, enough, ⟨fun _ => emptied, fun _ => closes⟩, _, built, .inr
      ⟨fun state viewed => ?_, rfl, closes⟩⟩
    rw [blank] at viewed
    cases viewed
  · rename_i previous stored
    obtain ⟨rent, amount, closes, built⟩ := planInitialized_ok planned
    rw [← amount] at enough left built
    refine ⟨owned, different, enough, ?_, _, built, .inl ⟨previous, stored, rfl, fun stays => ?_⟩⟩
    · rw [closes, left, decide_eq_true_eq]
    · rw [← left]
      refine checkRent_ok rent fun emptied => ?_
      rw [closes, decide_eq_false_iff_not] at stays
      exact stays emptied

theorem sentOutput_reports (signature : Text) (nonce : P.Hash) :
    (sentOutput K command plan signature nonce).lamports = plan.lamports ∧
      (sentOutput K command plan signature nonce).closed = plan.closes := by
  refine ⟨rfl, ?_⟩
  unfold sentOutput NonceWithdrawResult.closed
  cases plan.closes <;> rfl

/-- Whichever way the run ends, it reports what it built. -/
theorem complete_reports {result : NonceWithdrawResult}
    (completed : complete K command client authority plan = .ok result) :
    result.lamports = plan.lamports ∧ result.closed = plan.closes := by
  unfold complete at completed
  cases route : plan.route with
  | recover =>
      simp only [route, bind_ok_iff, pure_ok_iff] at completed
      obtain ⟨signature, -, rfl⟩ := completed
      exact sentOutput_reports signature _
  | direct previous =>
      simp only [route, bind_ok_iff, pure_ok_iff] at completed
      obtain ⟨signature, -, rfl⟩ := completed
      exact sentOutput_reports signature _
  | promoted previous pda =>
      simp only [route, bind_ok_iff] at completed
      obtain ⟨authorized, -, rest⟩ := completed
      split at rest
      · rw [← pure_ok_iff.mp rest]
        refine ⟨rfl, ?_⟩
        unfold NonceWithdrawResult.closed
        cases plan.closes <;> rfl
      · simp only [bind_ok_iff, pure_ok_iff] at rest
        obtain ⟨-, -, signature, -, rfl⟩ := rest
        exact sentOutput_reports signature _

end NonceWithdraw

/-- What the command cannot see or does not check: an initialized nonce closing too early, and
a destination that would overflow. -/
def WithdrawBlocked (sysvars : P.Sysvars) (ledger : P.Ledger) (command : WithdrawCommand P)
    (plan : WithdrawPlan P) : Prop :=
  (plan.closes = true ∧ ∃ state, Nonce.view (ledger command.nonceAccount).data = .ok state ∧
    sysvars.slot ≤ state.initializeSlot) ∨
  2 ^ 64 ≤ (ledger command.destination).lamports.toNat + plan.lamports.toNat

section Agreement

variable {K : Toolkit P} {command : WithdrawCommand P} {client : AccountClient P}
  {plan : WithdrawPlan P} {sysvars : P.Sysvars} {ledger : P.Ledger}

/-- The close of an initialized nonce waits a slot, and rent is the node's answer. -/
theorem BuiltWithdraw.allowed {state : P.Nonce}
    (built : BuiltWithdraw client command (ledger command.nonceAccount) plan)
    (stored : Nonce.view (ledger command.nonceAccount).data = .ok state)
    (later : plan.closes = true → state.initializeSlot < sysvars.slot)
    (exempt : plan.closes = false → ∃ required, P.minimumBalance Nonce.len = .ok required ∧
      required ≤ (ledger command.nonceAccount).lamports - plan.lamports) :
    checkRemaining sysvars (some state.initializeSlot)
      ((ledger command.nonceAccount).lamports - plan.lamports)
      (ledger command.nonceAccount).data = .ok () := by
  have length : (ledger command.nonceAccount).data.len = Nonce.len := by
    rw [(Nonce.view_ok_iff.mp stored).1]
    rfl
  unfold checkRemaining
  by_cases closes : plan.closes = true
  · rw [if_pos (built.closes.mp closes)]
    exact ensure_ok_iff.mpr (later closes)
  · obtain ⟨required, rent, funded⟩ := exempt (Bool.not_eq_true _ ▸ closes)
    rw [if_neg fun emptied => closes (built.closes.mpr emptied), length]
    exact bind_ok_iff.mpr ⟨required, rent, ensure_ok_iff.mpr funded⟩

/-- The program's checks pass on what was built, unless the withdrawal is blocked. -/
theorem BuiltWithdraw.step (built : BuiltWithdraw client command (ledger command.nonceAccount) plan)
    (rent : ∀ required, client.minimumBalanceForRentExemption Nonce.len = .ok required →
      P.minimumBalance Nonce.len = .ok required)
    (free : ¬WithdrawBlocked sysvars ledger command plan) :
    ∃ final, NonceStep sysvars P.nonceProgram ledger plan.withdraw.views
      (.withdraw plan.lamports) final := by
  obtain ⟨signer, shape, kind⟩ := built.withdraw
  have signs : plan.withdraw.grantsSigner signer = true := by
    rw [shape]
    exact Instruction.grantsSigner_iff.mpr ⟨_, List.mem_cons_self, rfl, rfl⟩
  have views : plan.withdraw.views =
      [⟨signer, plan.withdraw.grantsSigner signer, plan.withdraw.grantsWritable signer⟩,
        ⟨command.nonceAccount, plan.withdraw.grantsSigner command.nonceAccount,
          plan.withdraw.grantsWritable command.nonceAccount⟩,
        ⟨command.destination, plan.withdraw.grantsSigner command.destination,
          plan.withdraw.grantsWritable command.destination⟩] := by
    rw [shape]
    rfl
  have room : (ledger command.destination).lamports.toNat + plan.lamports.toNat < 2 ^ 64 := by
    by_contra full
    exact free (.inr (Nat.le_of_not_lt full))
  rw [views]
  rcases kind with ⟨state, stored, authorized, exempt⟩ | ⟨blank, own, closes⟩
  · refine ⟨_, .withdraws built.owned built.different
      (withdrawAuthority_ok_iff.mpr (.inl ⟨state, stored, authorized, rfl⟩)) signs built.enough
      ?_ room⟩
    refine built.allowed stored (fun closes => ?_) fun stays => ?_
    · by_contra early
      exact free (.inl ⟨closes, state, stored, UInt64.not_lt.mp early⟩)
    · obtain ⟨required, answered, funded⟩ := exempt stays
      exact ⟨required, rent required answered, funded⟩
  · refine ⟨_, .withdraws built.owned built.different
      (withdrawAuthority_ok_iff.mpr (.inr ⟨blank, own, rfl⟩)) signs built.enough ?_ room⟩
    show checkRemaining sysvars none _ _ = _
    rw [built.closes.mp closes]
    rfl

/-- The step moves the amount between the two accounts that the command names. -/
theorem BuiltWithdraw.moved {account : P.Account}
    (built : BuiltWithdraw client command account plan) {final : P.Ledger}
    (step : NonceStep sysvars P.nonceProgram ledger plan.withdraw.views (.withdraw plan.lamports)
      final) :
    Withdrawn sysvars ledger command.nonceAccount command.destination plan.lamports final := by
  obtain ⟨signer, shape, -⟩ := built.withdraw
  obtain ⟨authority, nonceAccount, destination, rest, accounts, -, moved⟩ := step.withdrawn
  have addresses : plan.withdraw.views.map AccountView.address =
      [signer, command.nonceAccount, command.destination] := by
    rw [shape]
    rfl
  rw [accounts] at addresses
  simp only [List.map_cons, List.cons.injEq] at addresses
  rw [addresses.2.1, addresses.2.2.1] at moved
  exact moved

/-- The privileges that the instruction asks for are all that the withdrawal uses. -/
theorem BuiltWithdraw.invokes (keys : P.KeyLaws) {account : P.Account}
    (built : BuiltWithdraw client command account plan) {final : P.Ledger} :
    invokeNonce sysvars ledger plan.withdraw = .ok final ↔
      NonceStep sysvars P.nonceProgram ledger plan.withdraw.views (.withdraw plan.lamports)
        final := by
  obtain ⟨signer, shape, -⟩ := built.withdraw
  have program : plan.withdraw.programId = P.nonceProgram := by rw [shape]; rfl
  have decodes : NonceInstruction.tryFromBytes plan.withdraw.data =
      .ok (.withdraw plan.lamports : NonceInstruction P.Hash) := by
    rw [shape]
    exact (NonceInstruction.tryFromBytes_ok_iff keys).mpr rfl
  rw [invokeNonce_ok_iff, program]
  constructor
  · intro invoked
    obtain ⟨⟨decoded, accepted, step⟩, -⟩ := invoked
    obtain rfl := Except.ok.inj (decodes.symm.trans accepted)
    exact step
  · intro step
    refine ⟨⟨_, decodes, step⟩, fun view listed => ?_⟩
    rw [(Instruction.mem_views listed).2.2]
    by_cases source : view.address = command.nonceAccount
    · left
      rw [shape]
      exact Instruction.grantsWritable_iff.mpr
        ⟨_, List.mem_cons_of_mem _ List.mem_cons_self, source.symm, rfl⟩
    · by_cases target : view.address = command.destination
      · left
        rw [shape]
        exact Instruction.grantsWritable_iff.mpr ⟨_, List.mem_cons_of_mem _
          (List.mem_cons_of_mem _ List.mem_cons_self), target.symm, rfl⟩
      · exact .inr ((built.moved step).others view.address source target)

/-- What the command builds, the program carries out on the state that was read, with the
reported amount and the reported close, unless it is blocked. -/
theorem nonce_withdraw_agrees (keys : P.KeyLaws) (sysvars : P.Sysvars) (ledger : P.Ledger)
    (snapshot : client.optionalAccount command.nonceAccount =
      .ok (some (ledger command.nonceAccount)))
    (rent : ∀ required, client.minimumBalanceForRentExemption Nonce.len = .ok required →
      P.minimumBalance Nonce.len = .ok required)
    {authority : NonceAuthority P}
    (loaded : NonceWithdraw.loadAuthority client command.nonceAuthority = .ok authority)
    (planned : NonceWithdraw.plan K command client authority = .ok plan) :
    ((∃ final, invokeNonce sysvars ledger plan.withdraw = .ok final) ↔
      ¬WithdrawBlocked sysvars ledger command plan) ∧
    (∀ final, invokeNonce sysvars ledger plan.withdraw = .ok final →
      processWithdraw sysvars P.nonceProgram plan.withdraw.views plan.lamports (.start ledger) =
        .ok () (.start final) ∧
      Withdrawn sysvars ledger command.nonceAccount command.destination plan.lamports final ∧
      (final command.nonceAccount = ⟨0, default, .empty⟩ ↔ plan.closes = true)) ∧
    ∀ result, NonceWithdraw.run K command client = .ok result →
      result.lamports = plan.lamports ∧ result.closed = plan.closes := by
  have built := NonceWithdraw.plan_built snapshot planned
  have emptied := sub_eq_zero_iff_of_le built.enough
  have moves {final : P.Ledger} (invoked : invokeNonce sysvars ledger plan.withdraw = .ok final) :
      Withdrawn sysvars ledger command.nonceAccount command.destination plan.lamports final :=
    built.moved ((built.invokes keys).mp invoked)
  refine ⟨⟨?_, fun free => ?_⟩, fun final invoked => ⟨?_, moves invoked, ?_⟩, fun result ran => ?_⟩
  · intro invoked blocked
    obtain ⟨final, invoked⟩ := invoked
    have moved := moves invoked
    rcases blocked with ⟨closes, state, stored, early⟩ | full
    · exact absurd (moved.later (emptied.mp (built.closes.mp closes)) state stored)
        (UInt64.not_lt.mpr early)
    · have credited := moved.credited
      have small := (final command.destination).lamports.toNat_lt
      omega
  · obtain ⟨final, step⟩ := built.step rent free
    exact ⟨final, (built.invokes keys).mpr step⟩
  · exact processWithdraw_ok_iff.mpr ⟨final, (built.invokes keys).mp invoked, rfl⟩
  · rw [(moves invoked).closes, built.closes, emptied]
  · simp only [NonceWithdraw.run, bind_ok_iff] at ran
    obtain ⟨given, again, other, plannedAgain, completed⟩ := ran
    obtain rfl := Except.ok.inj (loaded.symm.trans again)
    obtain rfl := Except.ok.inj (planned.symm.trans plannedAgain)
    exact NonceWithdraw.complete_reports completed

end Agreement

namespace Reference

/-- A machine that has the nonce authority's key and reads the opened nonce account. -/
def withdrawClient : AccountClient Platform.reference where
  toClient := client (keyFile 7) (.ok state)
  configKeypairSource := .ok (keyFile nonceAuthority)
  optionalAccount address := .ok (some (opened address))
  minimumBalanceForRentExemption _ := .ok 72

def withdrawCommand : WithdrawCommand Platform.reference :=
  ⟨nonceAccount, (99 : Nat), .lamports 10, none⟩

def withdrawAuthority : NonceAuthority Platform.reference :=
  ⟨keypair nonceAuthority, nonceAuthority, true⟩

def withdrawPlan : WithdrawPlan Platform.reference :=
  ⟨10, false, .direct state, NonceClient.withdraw nonceAuthority nonceAccount (99 : Nat) 10⟩

/-- The same withdrawal by the key behind the PDA that is the authority. -/
def promotedClient : AccountClient Platform.reference :=
  { withdrawClient with configKeypairSource := .ok (keyFile 30) }

def promotedPlan : WithdrawPlan Platform.reference :=
  ⟨10, false, .promoted state nonceAuthority,
    NonceClient.withdraw nonceAuthority nonceAccount (99 : Nat) 10⟩

/-- The account before it is initialized, closed by its own key. -/
def recoverClient : AccountClient Platform.reference :=
  { withdrawClient with optionalAccount := fun address => .ok (some (ledger address)) }

def recoverCommand : WithdrawCommand Platform.reference :=
  ⟨nonceAccount, (99 : Nat), .all, some (keyFile nonceAccount)⟩

def recoverPlan : WithdrawPlan Platform.reference :=
  ⟨100, true, .recover, NonceClient.withdraw nonceAccount nonceAccount (99 : Nat) 100⟩

theorem withdraw_rent (required : UInt64)
    (answered : (.ok 72 : Except Failure UInt64) = .ok required) :
    Platform.reference.minimumBalance Nonce.len = .ok required := by
  rw [← Except.ok.inj answered]
  rfl

/-- Nothing blocks a withdrawal that leaves the account open. -/
theorem withdraw_free {plan : WithdrawPlan Platform.reference} (closes : plan.closes = false)
    (lamports : plan.lamports = 10) :
    ¬WithdrawBlocked (Timeline.reference.sysvars 1) opened withdrawCommand plan := by
  intro blocked
  rcases blocked with early | full
  · exact absurd (closes.symm.trans early.1) (by decide)
  · rw [lamports] at full
    exact absurd full (by decide)

theorem recover_free :
    ¬WithdrawBlocked (Timeline.reference.sysvars 1) ledger recoverCommand recoverPlan := by
  intro blocked
  rcases blocked with ⟨-, state, stored, -⟩ | full
  · cases stored
  · exact absurd full (by decide)

theorem recover_planned : NonceWithdraw.plan Toolkit.reference recoverCommand recoverClient
    ⟨keypair nonceAccount, nonceAccount, true⟩ = .ok recoverPlan := by
  have found : NonceWithdraw.nonceProgramAccount Toolkit.reference recoverClient nonceAccount =
      .ok ⟨100, 2, .sized default⟩ := rfl
  have remaining (reason : Failure) : okOr (checkedSub 100 100) reason = .ok 0 := rfl
  have recovers : NonceWithdraw.planRecovery Toolkit.reference recoverCommand
      ⟨keypair nonceAccount, nonceAccount, true⟩ 100 0 = .ok recoverPlan := rfl
  exact (bind_of_ok rfl).trans ((bind_of_ok found).trans ((bind_of_ok rfl).trans
    ((bind_of_ok (remaining _)).trans recovers)))

end Reference

/-- Part of a nonce account's balance, withdrawn by its authority and by the key behind it, and
all of the balance of an account that is not initialized, by the account's own key. -/
theorem nonce_withdraw_agrees_reference :
    (∃ final, invokeNonce (Timeline.reference.sysvars 1) Reference.opened
      Reference.withdrawPlan.withdraw = .ok final) ∧
    (∃ final, invokeNonce (Timeline.reference.sysvars 1) Reference.opened
      Reference.promotedPlan.withdraw = .ok final) ∧
    ∃ final : Platform.reference.Ledger, invokeNonce (Timeline.reference.sysvars 1)
        Reference.ledger Reference.recoverPlan.withdraw = .ok final ∧
      final Reference.nonceAccount = ⟨0, default, .empty⟩ := by
  refine ⟨?_, ?_, ?_⟩
  · have planned : NonceWithdraw.plan Toolkit.reference Reference.withdrawCommand
        Reference.withdrawClient Reference.withdrawAuthority = .ok Reference.withdrawPlan := rfl
    exact (nonce_withdraw_agrees Reference.keyLaws (Timeline.reference.sysvars 1)
      Reference.opened rfl Reference.withdraw_rent rfl planned).1.mpr
      (Reference.withdraw_free rfl rfl)
  · have planned : NonceWithdraw.plan Toolkit.reference Reference.withdrawCommand
        Reference.promotedClient ⟨Reference.keypair 30, (30 : Nat), true⟩ =
          .ok Reference.promotedPlan := rfl
    exact (nonce_withdraw_agrees Reference.keyLaws (Timeline.reference.sysvars 1)
      Reference.opened rfl Reference.withdraw_rent rfl planned).1.mpr
      (Reference.withdraw_free rfl rfl)
  · obtain ⟨runs, effect, -⟩ := nonce_withdraw_agrees Reference.keyLaws
      (Timeline.reference.sysvars 1) Reference.ledger rfl Reference.withdraw_rent rfl
      Reference.recover_planned
    obtain ⟨final, invoked⟩ := runs.mpr Reference.recover_free
    exact ⟨final, invoked, (effect final invoked).2.2.mpr rfl⟩

end ProgrammaticSigner
