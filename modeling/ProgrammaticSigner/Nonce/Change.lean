import ProgrammaticSigner.Nonce.Steps

set_option autoImplicit false

/- A nonce instruction seen from one address. The positional accounts may name any
address, also the same one twice, so this is where aliasing is settled. -/
namespace ProgrammaticSigner

variable {P : Platform}

/-- What a step does to the account at one address. -/
inductive AccountChange (sysvars : P.Sysvars) (programId : P.Address)
    (accounts : List P.AccountView) (address : P.Address) (before : P.Account) :
    NonceInstruction P.Hash → P.Account → Prop where
  | kept {instruction : NonceInstruction P.Hash} :
      AccountChange sysvars programId accounts address before instruction before
  | credited {lamports : UInt64}
      (room : before.lamports.toNat + lamports.toNat < 2 ^ 64) :
      AccountChange sysvars programId accounts address before (.withdraw lamports)
        { before with lamports := before.lamports + lamports }
  | initialized {nonceAccount authority slotHashesAccount : P.AccountView}
      {rest : List P.AccountView} {rentRequired : UInt64} {slotHash : P.Hash}
      (shape : accounts = nonceAccount :: authority :: slotHashesAccount :: rest)
      (here : nonceAccount.address = address)
      (owned : before.owner = programId)
      (blank : before.data = .sized default)
      (rent : P.minimumBalance Nonce.len = .ok rentRequired)
      (funded : rentRequired ≤ before.lamports)
      (recent : recentSlotHash sysvars slotHashesAccount = .ok slotHash) :
      AccountChange sysvars programId accounts address before .initializeNonce
        { before with
          data := .sized ⟨Nonce.deriveInitialNonce programId address slotHash,
            authority.address, sysvars.slot⟩ }
  | advanced {authority nonceAccount : P.AccountView} {rest : List P.AccountView}
      {state : P.Nonce} {transitionCommitment : P.Hash}
      (shape : accounts = authority :: nonceAccount :: rest)
      (here : nonceAccount.address = address)
      (owned : before.owner = programId)
      (stored : Nonce.view before.data = .ok state)
      (authorized : authority.address = state.authority)
      (signed : authority.isSigner = true) :
      AccountChange sysvars programId accounts address before
        (.advance state.nonce transitionCommitment)
        { before with
          data := .sized { state with
            nonce := state.deriveNextNonce programId address transitionCommitment } }
  | withdrawn {authority nonceAccount destination : P.AccountView} {rest : List P.AccountView}
      {lamports : UInt64} {initializeSlot : Option UInt64}
      (shape : accounts = authority :: nonceAccount :: destination :: rest)
      (here : nonceAccount.address = address)
      (owned : before.owner = programId)
      (authorized : withdrawAuthority authority nonceAccount before.data = .ok initializeSlot)
      (signed : authority.isSigner = true)
      (enough : lamports ≤ before.lamports)
      (allowed : checkRemaining sysvars initializeSlot (before.lamports - lamports)
        before.data = .ok ()) :
      AccountChange sysvars programId accounts address before (.withdraw lamports)
        (if before.lamports - lamports = 0 then ⟨0, default, .empty⟩
          else { before with lamports := before.lamports - lamports })

/-- Whatever the accounts name, every address goes through one of the changes. -/
theorem NonceStep.change {sysvars : P.Sysvars} {programId : P.Address}
    {ledger final : P.Ledger} {accounts : List P.AccountView}
    {instruction : NonceInstruction P.Hash}
    (step : NonceStep sysvars programId ledger accounts instruction final)
    (address : P.Address) :
    AccountChange sysvars programId accounts address (ledger address) instruction
      (final address) := by
  cases step with
  | @initializes nonceAccount authority slotHashesAccount rest rentRequired slotHash
      owned blank rent funded recent =>
      by_cases here : nonceAccount.address = address
      · subst here
        rw [Function.update_self]
        exact .initialized rfl rfl owned blank rent funded recent
      · rw [Function.update_of_ne (Ne.symm here)]
        exact .kept
  | @advances authority nonceAccount rest state transitionCommitment owned stored authorized
      signed =>
      by_cases here : nonceAccount.address = address
      · subst here
        rw [Function.update_self]
        exact .advanced rfl rfl owned stored authorized signed
      · rw [Function.update_of_ne (Ne.symm here)]
        exact .kept
  | @withdraws authority nonceAccount destination rest lamports initializeSlot owned different
      authorized signed enough allowed room =>
      by_cases here : nonceAccount.address = address
      · subst here
        rw [Function.update_self]
        exact .withdrawn rfl rfl owned authorized signed enough allowed
      · rw [Function.update_of_ne (Ne.symm here)]
        by_cases there : destination.address = address
        · subst there
          rw [Function.update_self]
          exact .credited room
        · rw [Function.update_of_ne (Ne.symm there)]
          exact .kept

end ProgrammaticSigner
