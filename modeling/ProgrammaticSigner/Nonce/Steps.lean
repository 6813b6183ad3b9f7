import ProgrammaticSigner.Nonce.Program

set_option autoImplicit false

/- Everything a nonce instruction can do, read off its code once. -/
namespace ProgrammaticSigner

open Outcome ProgramM

variable {P : Platform}

namespace AccountView

variable (view : P.AccountView) (memory : Memory P)

theorem ownedBy_start (program : P.Address) (ledger : P.Ledger) :
    view.ownedBy program (.start ledger) =
      .ok ((ledger view.address).owner == program) (.start ledger) := rfl

theorem lamports_run :
    view.lamports memory = .ok (memory.accounts view.address).lamports memory := rfl

theorem setLamports_start (ledger : P.Ledger) (amount : UInt64) :
    view.setLamports amount (.start ledger) = .ok ()
      (.start (Function.update ledger view.address
        { ledger view.address with lamports := amount })) := rfl

theorem setData_run (data : P.AccountData) :
    view.setData data memory = .ok ()
      ⟨Function.update memory.accounts view.address
        { memory.accounts view.address with data := data }, memory.borrows⟩ := rfl

theorem tryBorrow_start (ledger : P.Ledger) :
    view.tryBorrow (.start ledger) = .ok (ledger view.address).data
      ⟨ledger, Function.update (fun _ => .free) view.address (.shared 1)⟩ := rfl

theorem tryBorrowMut_start (ledger : P.Ledger) :
    view.tryBorrowMut (.start ledger) = .ok (ledger view.address).data
      ⟨ledger, Function.update (fun _ => .free) view.address .exclusive⟩ := rfl

/-- Releasing the one live guard frees every account. -/
theorem release_last (ledger : P.Ledger) (guard : BorrowState)
    (single : guard = .shared 1 ∨ guard = .exclusive) :
    view.release ⟨ledger, Function.update (fun _ => .free) view.address guard⟩ =
      .ok () (.start ledger) := by
  have freed : Function.update (Function.update (fun _ => BorrowState.free) view.address guard)
      view.address .free = fun _ => .free := by
    rw [Function.update_idem]
    exact Function.update_eq_self view.address _
  rcases single with rfl | rfl <;>
    simp [release, bind, EStateM.bind, get, getThe, MonadStateOf.get, EStateM.get, set,
      EStateM.set, Memory.start, freed]

/-- With every guard released, closing cannot fail. -/
theorem settle_start (ledger : P.Ledger) (remaining : UInt64) :
    (if remaining = 0 then view.close else view.setLamports remaining) (.start ledger) =
      .ok () (.start (Function.update ledger view.address
        (if remaining = 0 then ⟨0, default, .empty⟩
          else { ledger view.address with lamports := remaining }))) := by
  split <;> rfl

end AccountView

/-- Who may withdraw: the stored authority of an initialized nonce, and the account
itself when it is not one. The slot is the one an initialized nonce records. -/
theorem withdrawAuthority_ok_iff {authority nonceAccount : P.AccountView} {data : P.AccountData}
    {initializeSlot : Option UInt64} :
    withdrawAuthority authority nonceAccount data = .ok initializeSlot ↔
      (∃ state, Nonce.view data = .ok state ∧ authority.address = state.authority ∧
        initializeSlot = some state.initializeSlot) ∨
      ((∀ state, Nonce.view data ≠ .ok state) ∧ authority.address = nonceAccount.address ∧
        initializeSlot = none) := by
  unfold withdrawAuthority
  cases Nonce.view data with
  | ok state =>
      simp only [bind_unit_ok_iff, ensure_ok_iff, pure_ok_iff]
      grind
  | error reason =>
      simp only [bind_unit_ok_iff, ensure_ok_iff, pure_ok_iff]
      grind

theorem checkedSub_eq_some_iff {left right remaining : UInt64} :
    checkedSub left right = some remaining ↔ right ≤ left ∧ remaining = left - right := by
  simp [checkedSub, eq_comm]

theorem checkedAdd_eq_some_iff {left right sum : UInt64} :
    checkedAdd left right = some sum ↔ left.toNat + right.toNat < 2 ^ 64 ∧ sum = left + right := by
  simp [checkedAdd, eq_comm]

/-- What a successful nonce instruction checked and wrote. -/
inductive NonceStep (sysvars : P.Sysvars) (programId : P.Address) (ledger : P.Ledger) :
    List P.AccountView → NonceInstruction P.Hash → P.Ledger → Prop where
  | initializes {nonceAccount authority slotHashesAccount : P.AccountView}
      {rest : List P.AccountView} {rentRequired : UInt64} {slotHash : P.Hash}
      (owned : (ledger nonceAccount.address).owner = programId)
      (blank : (ledger nonceAccount.address).data = .sized default)
      (rent : P.minimumBalance Nonce.len = .ok rentRequired)
      (funded : rentRequired ≤ (ledger nonceAccount.address).lamports)
      (recent : recentSlotHash sysvars slotHashesAccount = .ok slotHash) :
      NonceStep sysvars programId ledger (nonceAccount :: authority :: slotHashesAccount :: rest)
        .initializeNonce
        (Function.update ledger nonceAccount.address
          { ledger nonceAccount.address with
            data := .sized ⟨Nonce.deriveInitialNonce programId nonceAccount.address slotHash,
              authority.address, sysvars.slot⟩ })
  | advances {authority nonceAccount : P.AccountView} {rest : List P.AccountView}
      {state : P.Nonce} {transitionCommitment : P.Hash}
      (owned : (ledger nonceAccount.address).owner = programId)
      (stored : Nonce.view (ledger nonceAccount.address).data = .ok state)
      (authorized : authority.address = state.authority)
      (signed : authority.isSigner = true) :
      NonceStep sysvars programId ledger (authority :: nonceAccount :: rest)
        (.advance state.nonce transitionCommitment)
        (Function.update ledger nonceAccount.address
          { ledger nonceAccount.address with
            data := .sized { state with
              nonce := state.deriveNextNonce programId nonceAccount.address
                transitionCommitment } })
  | withdraws {authority nonceAccount destination : P.AccountView} {rest : List P.AccountView}
      {lamports : UInt64} {initializeSlot : Option UInt64}
      (owned : (ledger nonceAccount.address).owner = programId)
      (different : destination.address ≠ nonceAccount.address)
      (authorized : withdrawAuthority authority nonceAccount
        (ledger nonceAccount.address).data = .ok initializeSlot)
      (signed : authority.isSigner = true)
      (enough : lamports ≤ (ledger nonceAccount.address).lamports)
      (allowed : checkRemaining sysvars initializeSlot
        ((ledger nonceAccount.address).lamports - lamports)
        (ledger nonceAccount.address).data = .ok ())
      (room : (ledger destination.address).lamports.toNat + lamports.toNat < 2 ^ 64) :
      NonceStep sysvars programId ledger (authority :: nonceAccount :: destination :: rest)
        (.withdraw lamports)
        (Function.update
          (Function.update ledger destination.address
            { ledger destination.address with
              lamports := (ledger destination.address).lamports + lamports })
          nonceAccount.address
          (if (ledger nonceAccount.address).lamports - lamports = 0 then ⟨0, default, .empty⟩
            else { ledger nonceAccount.address with
              lamports := (ledger nonceAccount.address).lamports - lamports }))

theorem processInitialize_ok_iff {sysvars : P.Sysvars} {programId : P.Address}
    {ledger : P.Ledger} {accounts : List P.AccountView} {memory : Memory P} :
    processInitialize sysvars programId accounts (.start ledger) = .ok () memory ↔
      ∃ final, NonceStep sysvars programId ledger accounts .initializeNonce final ∧
        memory = .start final := by
  unfold processInitialize
  split
  · simp only [run_bind_ok_iff, run_check_ok_iff, ensure_ok_iff, mapError_ok_iff,
      AccountView.ownedBy_start, AccountView.tryBorrowMut_start, AccountView.lamports_run,
      AccountView.setData_run, AccountView.release_last, EStateM.Result.ok.injEq, and_assoc,
      exists_eq_left', exists_and_left, exists_const, true_and, or_true, beq_iff_eq]
    constructor
    · rintro ⟨owned, state, viewed, blank, rentRequired, rent, funded, slotHash, recent, rfl⟩
      obtain rfl : state = default := by simpa [Nonce.isInitialized] using blank
      exact ⟨_, .initializes owned (Nonce.viewMaybeUninitialized_ok_iff.mp viewed) rent funded
        recent, rfl⟩
    · rintro ⟨final, ⟨owned, blank, rent, funded, recent⟩, rfl⟩
      exact ⟨owned, default, Nonce.viewMaybeUninitialized_ok_iff.mpr blank,
        by simp [Nonce.isInitialized], _, rent, funded, _, recent, rfl⟩
  · rename_i short
    constructor
    · intro returned
      cases returned
    · rintro ⟨final, step, -⟩
      cases step
      exact absurd rfl (short _ _ _ _)

theorem processAdvance_ok_iff (sysvars : P.Sysvars) {programId : P.Address} {ledger : P.Ledger}
    {accounts : List P.AccountView} {currentNonce transitionCommitment : P.Hash}
    {memory : Memory P} :
    processAdvance programId accounts currentNonce transitionCommitment (.start ledger) =
        .ok () memory ↔
      ∃ final, NonceStep sysvars programId ledger accounts
        (.advance currentNonce transitionCommitment) final ∧ memory = .start final := by
  unfold processAdvance
  split
  · simp only [run_bind_ok_iff, run_check_ok_iff, ensure_ok_iff, mapError_ok_iff,
      AccountView.ownedBy_start, AccountView.tryBorrowMut_start,
      AccountView.setData_run, AccountView.release_last, EStateM.Result.ok.injEq, and_assoc,
      exists_eq_left', exists_and_left, exists_const, true_and, or_true, beq_iff_eq]
    constructor
    · rintro ⟨owned, state, stored, authorized, signed, rfl, rfl⟩
      exact ⟨_, .advances owned stored authorized signed, rfl⟩
    · rintro ⟨final, ⟨⟩ | ⟨owned, stored, authorized, signed⟩, rfl⟩
      exact ⟨owned, _, stored, authorized, signed, rfl, rfl⟩
  · rename_i short
    constructor
    · intro returned
      cases returned
    · rintro ⟨final, step, -⟩
      cases step
      exact absurd rfl (short _ _ _)

theorem processWithdraw_ok_iff {sysvars : P.Sysvars} {programId : P.Address} {ledger : P.Ledger}
    {accounts : List P.AccountView} {lamports : UInt64} {memory : Memory P} :
    processWithdraw sysvars programId accounts lamports (.start ledger) = .ok () memory ↔
      ∃ final, NonceStep sysvars programId ledger accounts (.withdraw lamports) final ∧
        memory = .start final := by
  unfold processWithdraw
  split
  · simp only [run_bind_ok_iff, run_check_ok_iff, ensure_ok_iff, okOr_ok_iff,
      checkedSub_eq_some_iff, checkedAdd_eq_some_iff,
      AccountView.ownedBy_start, AccountView.tryBorrow_start, AccountView.lamports_run,
      AccountView.setLamports_start, AccountView.settle_start, AccountView.release_last,
      EStateM.Result.ok.injEq, and_assoc, exists_eq_left', exists_eq_left, exists_and_left,
      exists_const, true_and, true_or, beq_iff_eq]
    constructor
    · rintro ⟨owned, different, slot, authorized, signed, enough, ⟨⟩, allowed, room, rfl⟩
      refine ⟨_, .withdraws owned different authorized signed enough allowed room, ?_⟩
      rw [Function.update_of_ne (Ne.symm different)]
      rfl
    · rintro ⟨final, ⟨⟩ | ⟨⟩ | ⟨owned, different, authorized, signed, enough, allowed, room⟩, rfl⟩
      refine ⟨owned, different, _, authorized, signed, enough, (), allowed, room, ?_⟩
      rw [Function.update_of_ne (Ne.symm different)]
      rfl
  · rename_i short
    constructor
    · intro returned
      cases returned
    · rintro ⟨final, step, -⟩
      cases step
      exact absurd rfl (short _ _ _ _)

/-- The entrypoint decodes the instruction and then takes one of the steps. -/
theorem processNonceInstruction_ok_iff {sysvars : P.Sysvars} {programId : P.Address}
    {ledger : P.Ledger} {accounts : List P.AccountView} {data : List UInt8} {memory : Memory P} :
    processNonceInstruction sysvars programId accounts data (.start ledger) = .ok () memory ↔
      ∃ instruction final, NonceInstruction.tryFromBytes data = .ok instruction ∧
        NonceStep sysvars programId ledger accounts instruction final ∧ memory = .start final := by
  simp only [processNonceInstruction, run_bind_ok_iff, run_check_ok_iff]
  constructor
  · rintro ⟨instruction, memory', ⟨decoded, rfl⟩, returned⟩
    cases instruction with
    | initializeNonce =>
        obtain ⟨final, step, same⟩ := processInitialize_ok_iff.mp returned
        exact ⟨_, final, decoded, step, same⟩
    | advance currentNonce transitionCommitment =>
        obtain ⟨final, step, same⟩ := (processAdvance_ok_iff sysvars).mp returned
        exact ⟨_, final, decoded, step, same⟩
    | withdraw lamports =>
        obtain ⟨final, step, same⟩ := processWithdraw_ok_iff.mp returned
        exact ⟨_, final, decoded, step, same⟩
  · rintro ⟨instruction, final, decoded, step, same⟩
    refine ⟨instruction, _, ⟨decoded, rfl⟩, ?_⟩
    cases instruction with
    | initializeNonce => exact processInitialize_ok_iff.mpr ⟨final, step, same⟩
    | advance currentNonce transitionCommitment =>
        exact (processAdvance_ok_iff sysvars).mpr ⟨final, step, same⟩
    | withdraw lamports => exact processWithdraw_ok_iff.mpr ⟨final, step, same⟩

/-- A nonce instruction commits exactly the steps that write only what it may. -/
theorem invokeNonce_ok_iff {sysvars : P.Sysvars} {ledger final : P.Ledger}
    {instruction : P.Instruction} :
    invokeNonce sysvars ledger instruction = .ok final ↔
      (∃ decoded, NonceInstruction.tryFromBytes instruction.data = .ok decoded ∧
        NonceStep sysvars instruction.programId ledger instruction.views decoded final) ∧
      ∀ view ∈ instruction.views,
        view.isWritable = true ∨ final view.address = ledger view.address := by
  unfold invokeNonce
  split
  · rename_i memory returned
    obtain ⟨decoded, written, accepted, step, rfl⟩ := processNonceInstruction_ok_iff.mp returned
    simp only [bind_unit_ok_iff, ensure_ok_iff, pure_ok_iff]
    constructor
    · rintro ⟨inside, rfl⟩
      exact ⟨⟨decoded, accepted, step⟩, inside⟩
    · rintro ⟨⟨other, accepted', step'⟩, inside⟩
      have again := processNonceInstruction_ok_iff.mpr ⟨other, final, accepted', step', rfl⟩
      obtain rfl : written = final := by
        have same := returned.symm.trans again
        simpa [Memory.start] using same
      exact ⟨inside, rfl⟩
  · rename_i reason memory failed
    simp only [reduceCtorEq, false_iff]
    rintro ⟨⟨decoded, accepted, step⟩, -⟩
    have returned := processNonceInstruction_ok_iff.mpr ⟨decoded, final, accepted, step, rfl⟩
    rw [failed] at returned
    cases returned

end ProgrammaticSigner
