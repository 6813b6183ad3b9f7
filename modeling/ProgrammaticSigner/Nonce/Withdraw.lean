import ProgrammaticSigner.Nonce.Client
import ProgrammaticSigner.Nonce.Steps

set_option autoImplicit false

/- A withdrawal moves its lamports exactly, or changes nothing at all. -/
namespace ProgrammaticSigner

open Outcome ProgramM

variable {P : Platform}

namespace ProgramM

variable {α β : Type}

theorem run_bind_error_iff {first : ProgramM P α} {next : α → ProgramM P β}
    {start final : Memory P} {reason : ProgramError} :
    (first >>= next) start = .error reason final ↔ first start = .error reason final ∨
      ∃ middle memory, first start = .ok middle memory ∧
        next middle memory = .error reason final := by
  simp only [bind, EStateM.bind]
  cases first start <;> simp

theorem run_check_error_iff {outcome : Except ProgramError α} {start final : Memory P}
    {reason : ProgramError} :
    check outcome start = .error reason final ↔ outcome = .error reason ∧ start = final := by
  cases outcome with
  | ok found => simp [check, pure, EStateM.pure]
  | error given => simp [check, throw, throwThe, MonadExceptOf.throw, EStateM.throw]

/-- A failing run leaves the accounts as they were. -/
def KeepsOnError (code : ProgramM P α) (start : Memory P) : Prop :=
  ∀ reason final, code start = .error reason final → final.accounts = start.accounts

/-- A check raises its error before anything else runs. -/
theorem KeepsOnError.check {outcome : Except ProgramError α} {next : α → ProgramM P β}
    {start : Memory P} (rest : ∀ value, outcome = .ok value → KeepsOnError (next value) start) :
    KeepsOnError (ProgramM.check outcome >>= next) start := by
  intro reason final failed
  rcases run_bind_error_iff.mp failed with here | ⟨value, memory, passed, later⟩
  · rw [(run_check_error_iff.mp here).2]
  · obtain ⟨returned, same⟩ := run_check_ok_iff.mp passed
    rw [← same] at later
    exact rest value returned reason final later

/-- A step that returns and moves no account hands its guarantee on. -/
theorem KeepsOnError.step {first : ProgramM P α} {next : α → ProgramM P β}
    {start middle : Memory P} {value : α} (returned : first start = .ok value middle)
    (same : middle.accounts = start.accounts) (rest : KeepsOnError (next value) middle) :
    KeepsOnError (first >>= next) start := by
  intro reason final failed
  rcases run_bind_error_iff.mp failed with here | ⟨found, memory, passed, later⟩
  · rw [returned] at here
    cases here
  · rw [returned] at passed
    cases passed
    rw [← same]
    exact rest reason final later

theorem KeepsOnError.of_ok {code : ProgramM P α} {start final : Memory P} {value : α}
    (returned : code start = .ok value final) : KeepsOnError code start := by
  intro reason memory failed
  rw [returned] at failed
  cases failed

end ProgramM

/-- Every check of a withdrawal comes before its first write, and closing cannot fail. -/
theorem processWithdraw_keepsOnError (sysvars : P.Sysvars) (programId : P.Address)
    (ledger : P.Ledger) (accounts : List P.AccountView) (lamports : UInt64) :
    KeepsOnError (processWithdraw sysvars programId accounts lamports) (.start ledger) := by
  unfold processWithdraw
  split
  · rename_i authority nonceAccount destination rest
    apply KeepsOnError.step (nonceAccount.ownedBy_start programId ledger) rfl
    apply KeepsOnError.check
    intro _ _
    apply KeepsOnError.check
    intro _ _
    apply KeepsOnError.step (nonceAccount.tryBorrow_start ledger) rfl
    apply KeepsOnError.check
    intro initializeSlot _
    apply KeepsOnError.check
    intro _ _
    apply KeepsOnError.step (nonceAccount.lamports_run _) rfl
    apply KeepsOnError.check
    intro remaining _
    apply KeepsOnError.check
    intro _ _
    apply KeepsOnError.step (nonceAccount.release_last ledger _ (.inl rfl)) rfl
    apply KeepsOnError.step (destination.lamports_run _) rfl
    apply KeepsOnError.check
    intro newDestinationBalance _
    -- From here on nothing is checked, and no guard is live.
    apply KeepsOnError.of_ok
    exact run_bind_ok_iff.mpr ⟨(), _, destination.setLamports_start ledger newDestinationBalance,
      nonceAccount.settle_start _ remaining⟩
  · intro reason final failed
    cases failed
    rfl

/-- What a successful withdrawal leaves of the three accounts and of all others. -/
structure Withdrawn (sysvars : P.Sysvars) (ledger : P.Ledger)
    (nonceAccount destination : P.Address) (lamports : UInt64) (final : P.Ledger) : Prop where
  credited : (final destination).lamports.toNat =
    (ledger destination).lamports.toNat + lamports.toNat
  debited : (final nonceAccount).lamports.toNat + lamports.toNat =
    (ledger nonceAccount).lamports.toNat
  conserved : ∀ addresses : Finset P.Address, nonceAccount ∈ addresses →
    destination ∈ addresses →
    ∑ address ∈ addresses, (final address).lamports.toNat =
      ∑ address ∈ addresses, (ledger address).lamports.toNat
  recipient : (final destination).owner = (ledger destination).owner ∧
    (final destination).data = (ledger destination).data
  others : ∀ address, address ≠ nonceAccount → address ≠ destination →
    final address = ledger address
  closes : final nonceAccount = ⟨0, default, .empty⟩ ↔
    (ledger nonceAccount).lamports = lamports
  later : (ledger nonceAccount).lamports = lamports → ∀ state,
    Nonce.view (ledger nonceAccount).data = .ok state → state.initializeSlot < sysvars.slot
  kept : (ledger nonceAccount).lamports ≠ lamports →
    (final nonceAccount).owner = (ledger nonceAccount).owner ∧
    (final nonceAccount).data = (ledger nonceAccount).data ∧
    ∃ rentRequired, P.minimumBalance (ledger nonceAccount).data.len = .ok rentRequired ∧
      rentRequired ≤ (final nonceAccount).lamports

/-- Two changes that cancel out leave a sum as it was. -/
theorem sum_eq_of_moved {α : Type} [DecidableEq α] {before after : α → Nat} {source target : α}
    (different : source ≠ target) (elsewhere : ∀ key, key ≠ source → key ≠ target →
      after key = before key)
    (moved : after source + after target = before source + before target) {keys : Finset α}
    (sourceIn : source ∈ keys) (targetIn : target ∈ keys) :
    ∑ key ∈ keys, after key = ∑ key ∈ keys, before key := by
  have targetLeft : target ∈ keys.erase source := Finset.mem_erase.mpr ⟨different.symm, targetIn⟩
  have split (value : α → Nat) : ∑ key ∈ keys, value key = value source + (value target +
      ∑ key ∈ (keys.erase source).erase target, value key) := by
    rw [Finset.add_sum_erase _ value targetLeft, Finset.add_sum_erase _ value sourceIn]
  have rest : ∑ key ∈ (keys.erase source).erase target, after key =
      ∑ key ∈ (keys.erase source).erase target, before key := by
    apply Finset.sum_congr rfl
    intro key left
    rw [Finset.mem_erase, Finset.mem_erase] at left
    exact elsewhere key left.2.1 left.1
  rw [split after, split before, rest]
  omega

theorem checkRemaining_closes {sysvars : P.Sysvars} {initializeSlot : UInt64}
    {data : P.AccountData}
    (allowed : checkRemaining sysvars (some initializeSlot) 0 data = .ok ()) :
    initializeSlot < sysvars.slot := by
  unfold checkRemaining at allowed
  rw [if_pos rfl] at allowed
  exact ensure_ok_iff.mp allowed

theorem checkRemaining_keeps {sysvars : P.Sysvars} {initializeSlot : Option UInt64}
    {remaining : UInt64} {data : P.AccountData} (left : remaining ≠ 0)
    (allowed : checkRemaining sysvars initializeSlot remaining data = .ok ()) :
    ∃ rentRequired, P.minimumBalance data.len = .ok rentRequired ∧ rentRequired ≤ remaining := by
  unfold checkRemaining at allowed
  rw [if_neg left] at allowed
  obtain ⟨rentRequired, rent, funded⟩ := bind_ok_iff.mp allowed
  exact ⟨rentRequired, rent, ensure_ok_iff.mp funded⟩

/-- The slot that the checks go by is the one an initialized nonce records. -/
theorem withdrawAuthority_slot {authority nonceAccount : P.AccountView} {data : P.AccountData}
    {initializeSlot : Option UInt64} {state : P.Nonce}
    (authorized : withdrawAuthority authority nonceAccount data = .ok initializeSlot)
    (viewed : Nonce.view data = .ok state) : initializeSlot = some state.initializeSlot := by
  rcases withdrawAuthority_ok_iff.mp authorized with ⟨found, stored, -, slot⟩ | ⟨blank, -, -⟩
  · rw [stored] at viewed
    rw [slot, Except.ok.inj viewed]
  · exact absurd viewed (blank state)

/-- Taking an amount that is there leaves nothing exactly when it is all there is. -/
theorem sub_eq_zero_iff_of_le {balance lamports : UInt64} (enough : lamports ≤ balance) :
    balance - lamports = 0 ↔ balance = lamports := by
  have below := UInt64.le_iff_toNat_le.mp enough
  rw [← UInt64.toNat_inj, ← UInt64.toNat_inj, UInt64.toNat_sub_of_le _ _ enough]
  show _ = 0 ↔ _
  omega

/-- A withdrawal's step moves its amount from one account to the other. -/
theorem NonceStep.withdrawn {sysvars : P.Sysvars} {programId : P.Address}
    {ledger final : P.Ledger} {accounts : List P.AccountView} {lamports : UInt64}
    (step : NonceStep sysvars programId ledger accounts (.withdraw lamports) final) :
    ∃ authority nonceAccount destination rest,
      accounts = authority :: nonceAccount :: destination :: rest ∧
      destination.address ≠ nonceAccount.address ∧
      Withdrawn sysvars ledger nonceAccount.address destination.address lamports final := by
  cases step with
  | @withdraws authority nonceAccount destination rest _ initializeSlot owned different authorized
      signed enough allowed room =>
      refine ⟨authority, nonceAccount, destination, rest, rfl, different, ?_⟩
      generalize shape : Function.update (Function.update ledger destination.address _)
        nonceAccount.address _ = final
      have source : final nonceAccount.address =
          if (ledger nonceAccount.address).lamports - lamports = 0 then ⟨0, default, .empty⟩
          else { ledger nonceAccount.address with
            lamports := (ledger nonceAccount.address).lamports - lamports } := by
        rw [← shape, Function.update_self]
      have target : final destination.address = { ledger destination.address with
          lamports := (ledger destination.address).lamports + lamports } := by
        rw [← shape, Function.update_of_ne different, Function.update_self]
      have others : ∀ address, address ≠ nonceAccount.address → address ≠ destination.address →
          final address = ledger address := by
        intro address one two
        rw [← shape, Function.update_of_ne one, Function.update_of_ne two]
      have emptied := sub_eq_zero_iff_of_le enough
      have credited : (final destination.address).lamports.toNat =
          (ledger destination.address).lamports.toNat + lamports.toNat := by
        rw [target, UInt64.toNat_add, Nat.mod_eq_of_lt room]
      have balance : (final nonceAccount.address).lamports =
          (ledger nonceAccount.address).lamports - lamports := by
        rw [source]
        split
        · rename_i none
          exact none.symm
        · rfl
      have debited : (final nonceAccount.address).lamports.toNat + lamports.toNat =
          (ledger nonceAccount.address).lamports.toNat := by
        rw [balance, UInt64.toNat_sub_of_le _ _ enough]
        exact Nat.sub_add_cancel (UInt64.le_iff_toNat_le.mp enough)
      refine ⟨credited, debited, ?_, ?_, others, ?_, ?_, ?_⟩
      · intro addresses sourceIn targetIn
        apply sum_eq_of_moved different.symm _ _ sourceIn targetIn
        · intro address one two
          rw [others address one two]
        · omega
      · rw [target]
        exact ⟨rfl, rfl⟩
      · constructor
        · intro closed
          rw [closed] at balance
          exact emptied.mp balance.symm
        · intro whole
          rw [source, if_pos (emptied.mpr whole)]
      · intro whole state viewed
        rw [withdrawAuthority_slot authorized viewed, emptied.mpr whole] at allowed
        exact checkRemaining_closes allowed
      · intro part
        have remains := fun none => part (emptied.mp none)
        rw [balance]
        rw [source, if_neg remains]
        exact ⟨rfl, rfl, checkRemaining_keeps remains allowed⟩

/-- A withdrawal either fails and changes no account, or moves exactly its amount: the nonce
account closes when nothing remains and stays rent exempt otherwise. -/
theorem withdraw_exact_and_atomic (sysvars : P.Sysvars) (programId : P.Address)
    (ledger : P.Ledger) (accounts : List P.AccountView) (lamports : UInt64) :
    (∃ reason memory, processWithdraw sysvars programId accounts lamports (.start ledger) =
        .error reason memory ∧ memory.accounts = ledger) ∨
    ∃ final, processWithdraw sysvars programId accounts lamports (.start ledger) =
        .ok () (.start final) ∧
      ∃ authority nonceAccount destination rest,
        accounts = authority :: nonceAccount :: destination :: rest ∧
        destination.address ≠ nonceAccount.address ∧
        Withdrawn sysvars ledger nonceAccount.address destination.address lamports final := by
  cases outcome : processWithdraw sysvars programId accounts lamports (.start ledger) with
  | error reason memory =>
      have kept := processWithdraw_keepsOnError sysvars programId ledger accounts lamports
      exact .inl ⟨reason, memory, rfl, kept reason memory outcome⟩
  | ok value memory =>
      obtain ⟨final, step, rfl⟩ := processWithdraw_ok_iff.mp outcome
      exact .inr ⟨final, rfl, step.withdrawn⟩

/-- The authority of an open account withdraws part of its balance. -/
example : (match processWithdraw (Timeline.reference.sysvars 1) Platform.reference.nonceProgram
      (NonceClient.withdraw Reference.nonceAuthority Reference.nonceAccount (99 : Nat) 10).views 10
      (.start Reference.opened) with
    | .ok _ memory => some ((memory.accounts Reference.nonceAccount).lamports,
        (memory.accounts (99 : Nat)).lamports)
    | .error _ _ => none) = some (90, 10) := rfl

end ProgrammaticSigner
