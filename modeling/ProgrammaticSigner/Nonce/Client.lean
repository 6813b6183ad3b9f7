import ProgrammaticSigner.Nonce.Run

set_option autoImplicit false

/- The nonce program's instruction builders, off chain and for CPI. -/
namespace ProgrammaticSigner

variable {P : Platform}

namespace NonceClient

def initializeNonce (nonceAccount authority : P.Address) : P.Instruction where
  programId := P.nonceProgram
  accounts := [.new nonceAccount false, .newReadonly authority false,
    .newReadonly P.slotHashes false]
  data := NonceInstruction.serialize (P := P) .initializeNonce

def advance (authority nonceAccount : P.Address) (currentNonce transitionCommitment : P.Hash) :
    P.Instruction where
  programId := P.nonceProgram
  accounts := [.newReadonly authority true, .new nonceAccount false]
  data := NonceInstruction.serialize (.advance currentNonce transitionCommitment)

def withdraw (authority nonceAccount destination : P.Address) (lamports : UInt64) :
    P.Instruction where
  programId := P.nonceProgram
  accounts := [.newReadonly authority true, .new nonceAccount false, .new destination false]
  data := NonceInstruction.serialize (P := P) (.withdraw lamports)

end NonceClient

namespace NonceCpi

/-- `spl_nonce_client::cpi::advance`: the same two accounts, signing with no seeds. -/
def advance (authority nonceAccount : P.AccountView)
    (currentNonce transitionCommitment : P.Hash) : P.Issues Unit :=
  let instructionAccounts : List P.AccountMeta :=
    [⟨authority.address, true, false⟩, ⟨nonceAccount.address, false, true⟩]
  let data := NonceInstruction.serialize (.advance currentNonce transitionCommitment)
  Issued.call ⟨⟨P.nonceProgram, instructionAccounts, data⟩, []⟩

end NonceCpi

/-- The CPI builder issues the client's instruction. -/
theorem NonceCpi.advance_eq (authority nonceAccount : P.AccountView)
    (currentNonce transitionCommitment : P.Hash) :
    NonceCpi.advance authority nonceAccount currentNonce transitionCommitment =
      Issued.call ⟨NonceClient.advance authority.address nonceAccount.address currentNonce
        transitionCommitment, []⟩ := rfl

/-- A blank account with rent initializes to the value of the latest slot hash. -/
theorem invokeNonce_initializeNonce_ok (keys : P.KeyLaws) {sysvars : P.Sysvars}
    {ledger : P.Ledger} {nonceAccount authority : P.Address} {rentRequired : UInt64}
    {entry : SlotHashEntry P.Hash} (owned : (ledger nonceAccount).owner = P.nonceProgram)
    (blank : (ledger nonceAccount).data = .sized default)
    (rent : P.minimumBalance Nonce.len = .ok rentRequired)
    (funded : rentRequired ≤ (ledger nonceAccount).lamports)
    (latest : sysvars.slotHashes.head? = some entry) :
    invokeNonce sysvars ledger (NonceClient.initializeNonce nonceAccount authority) =
      .ok (Function.update ledger nonceAccount
        { ledger nonceAccount with
          data := .sized ⟨Nonce.deriveInitialNonce P.nonceProgram nonceAccount entry.hash,
            authority, sysvars.slot⟩ }) := by
  have decodes : NonceInstruction.tryFromBytes
      (NonceClient.initializeNonce nonceAccount authority).data =
        .ok (.initializeNonce : NonceInstruction P.Hash) :=
    (NonceInstruction.tryFromBytes_ok_iff keys).mpr rfl
  refine invokeNonce_ok_iff.mpr ⟨⟨_, decodes, .initializes owned blank rent funded ?_⟩, ?_⟩
  · simp [recentSlotHash, latest, Outcome.okOr, AccountMeta.newReadonly, Outcome.ensure]
  · intro view member
    by_cases here : view.address = nonceAccount
    · refine .inl ?_
      rw [(Instruction.mem_views member).2.2, here]
      exact Instruction.grantsWritable_iff.mpr ⟨_, List.mem_cons_self, rfl, rfl⟩
    · exact .inr (Function.update_of_ne here _ _)

namespace Reference

/-- What the blank account holds once it is initialized in slot 1. -/
def state : Platform.reference.Nonce :=
  ⟨Nonce.deriveInitialNonce Platform.reference.nonceProgram nonceAccount (Wire.uint64.encode 1),
    nonceAuthority, 1⟩

def opened : Platform.reference.Ledger :=
  Function.update ledger nonceAccount { ledger nonceAccount with data := .sized state }

theorem opens : invokeNonce (Timeline.reference.sysvars 1) ledger
    (NonceClient.initializeNonce nonceAccount nonceAuthority) = .ok opened :=
  @invokeNonce_initializeNonce_ok .reference keyLaws _ ledger nonceAccount nonceAuthority 72
    ⟨0, Wire.uint64.encode 1⟩ rfl rfl rfl (by decide) rfl

theorem held : Initialized (opened nonceAccount) state :=
  ⟨rfl, Nonce.view_ok_iff.mpr ⟨rfl, by decide⟩⟩

/-- The run that initialized it. -/
def opening : Transition .reference :=
  ⟨⟨1, ledger⟩, .invoked (NonceClient.initializeNonce nonceAccount nonceAuthority), ⟨1, opened⟩⟩

theorem opening_run : NonceRun Timeline.reference ⟨1, ledger⟩ [opening] ⟨1, opened⟩ :=
  .cons (.invoked rfl opens) .nil

end Reference

/-- The ledger after an account advanced with a commitment. -/
def advanceLedger (ledger : P.Ledger) (nonceAccount : P.Address) (state : P.Nonce)
    (transitionCommitment : P.Hash) : P.Ledger :=
  Function.update ledger nonceAccount
    { ledger nonceAccount with
      data := .sized { state with
        nonce := state.deriveNextNonce P.nonceProgram nonceAccount transitionCommitment } }

/-- Exactly when the client's `Advance` commits, and to what. -/
theorem invokeNonce_advance_ok_iff (keys : P.KeyLaws) {sysvars : P.Sysvars}
    {ledger final : P.Ledger} {authority nonceAccount : P.Address}
    {currentNonce transitionCommitment : P.Hash} :
    invokeNonce sysvars ledger
        (NonceClient.advance authority nonceAccount currentNonce transitionCommitment) =
      .ok final ↔
      ∃ state, Initialized (ledger nonceAccount) state ∧ authority = state.authority ∧
        currentNonce = state.nonce ∧
        final = advanceLedger ledger nonceAccount state transitionCommitment := by
  have decodes : NonceInstruction.tryFromBytes
      (NonceClient.advance authority nonceAccount currentNonce transitionCommitment).data =
        .ok (.advance currentNonce transitionCommitment) :=
    (NonceInstruction.tryFromBytes_ok_iff keys).mpr rfl
  rw [invokeNonce_ok_iff]
  constructor
  · rintro ⟨⟨decoded, accepted, step⟩, -⟩
    obtain rfl := Except.ok.inj (decodes.symm.trans accepted)
    cases step with
    | @advances _ _ _ state _ owned stored authorized signed =>
        exact ⟨state, ⟨owned, stored⟩, authorized, rfl, rfl⟩
  · rintro ⟨state, ⟨owned, stored⟩, rfl, rfl, rfl⟩
    refine ⟨⟨_, decodes, .advances owned stored rfl ?_⟩, ?_⟩
    · exact Instruction.grantsSigner_iff.mpr ⟨_, List.mem_cons_self, rfl, rfl⟩
    · intro view member
      by_cases here : view.address = nonceAccount
      · refine .inl ?_
        rw [(Instruction.mem_views member).2.2, here]
        exact Instruction.grantsWritable_iff.mpr
          ⟨_, List.mem_cons_of_mem _ List.mem_cons_self, rfl, rfl⟩
      · exact .inr (Function.update_of_ne here _ _)

namespace Reference

def advanced : Platform.reference.Ledger := advanceLedger opened nonceAccount state [7]

theorem advances : invokeNonce (Timeline.reference.sysvars 1) opened
    (NonceClient.advance nonceAuthority nonceAccount state.nonce [7]) = .ok advanced :=
  (invokeNonce_advance_ok_iff keyLaws).mpr ⟨state, held, rfl, rfl, rfl⟩

def advancing : Transition .reference :=
  ⟨⟨1, opened⟩, .invoked (NonceClient.advance nonceAuthority nonceAccount state.nonce [7]),
    ⟨1, advanced⟩⟩

theorem advancing_run : NonceRun Timeline.reference ⟨1, opened⟩ [advancing] ⟨1, advanced⟩ :=
  .cons (.invoked rfl advances) .nil

end Reference

end ProgrammaticSigner
