import ProgrammaticSigner.Nonce.Client

set_option autoImplicit false

/- Who may change a nonce account, and what it always keeps. -/
namespace ProgrammaticSigner

open Outcome

variable {P : Platform}

/-- What an initialized nonce account carries from its initialization on. -/
structure Funded (account : P.Account) (state : P.Nonce) : Prop where
  slot : 0 < state.initializeSlot
  rent : ∃ rentRequired, P.minimumBalance Nonce.len = .ok rentRequired ∧
    rentRequired ≤ account.lamports

/-- A committed withdrawal from the address that its first account signed for. -/
def WithdrawnBy (transition : Transition P) (address signer : P.Address) : Prop :=
  ∃ instruction authority nonceAccount destination rest lamports,
    transition.event = .invoked instruction ∧
    NonceInstruction.tryFromBytes (P := P) instruction.data = .ok (.withdraw lamports) ∧
    instruction.views = authority :: nonceAccount :: destination :: rest ∧
    nonceAccount.address = address ∧ authority.address = signer ∧ authority.isSigner = true

/-- A committed advance of the address that presents the nonce of the state and that
the authority of the state signed. -/
def AdvancedBy (transition : Transition P) (address : P.Address) (state : P.Nonce) : Prop :=
  ∃ instruction authority nonceAccount rest transitionCommitment,
    transition.event = .invoked instruction ∧
    NonceInstruction.tryFromBytes instruction.data =
      .ok (.advance state.nonce transitionCommitment) ∧
    instruction.views = authority :: nonceAccount :: rest ∧
    nonceAccount.address = address ∧ authority.address = state.authority ∧
    authority.isSigner = true

theorem lamports_le_add {held added : UInt64} (room : held.toNat + added.toNat < 2 ^ 64) :
    held ≤ held + added := by
  rw [UInt64.le_iff_toNat_le, UInt64.toNat_add, Nat.mod_eq_of_lt room]
  exact Nat.le_add_right _ _

/-- What stays behind pays its rent. -/
theorem checkRemaining_rent {sysvars : P.Sysvars} {initializeSlot : Option UInt64}
    {remaining : UInt64} {data : P.AccountData}
    (allowed : checkRemaining sysvars initializeSlot remaining data = .ok ())
    (partly : remaining ≠ 0) :
    ∃ rentRequired, P.minimumBalance data.len = .ok rentRequired ∧ rentRequired ≤ remaining := by
  unfold checkRemaining at allowed
  rw [if_neg partly, bind_ok_iff] at allowed
  simpa only [ensure_ok_iff] using allowed

theorem view_sized {state found : P.Nonce} (viewed : Nonce.view (.sized state) = .ok found) :
    found = state ∧ state ≠ default := by
  obtain ⟨same, initialized⟩ := Nonce.view_ok_iff.mp viewed
  cases same
  exact ⟨rfl, initialized⟩

/-- A closed account is no nonce. -/
theorem not_initialized_closed (state : P.Nonce) :
    ¬ Initialized (⟨0, default, .empty⟩ : P.Account) state := by
  rintro ⟨-, viewed⟩
  cases (Nonce.view_ok_iff.mp viewed).1

/-- One change keeps every initialized nonce funded. -/
theorem AccountChange.funded {sysvars : P.Sysvars} {accounts : List P.AccountView}
    {address : P.Address} {before after : P.Account} {instruction : NonceInstruction P.Hash}
    (change : AccountChange sysvars P.nonceProgram accounts address before instruction after)
    (funded : ∀ state, Initialized before state → Funded before state) :
    ∀ state, Initialized after state → Funded after state := by
  intro state held
  cases change with
  | kept => exact funded state held
  | credited room =>
      obtain ⟨slot, rentRequired, rent, enough⟩ := funded state held
      exact ⟨slot, rentRequired, rent, UInt64.le_trans enough (lamports_le_add room)⟩
  | initialized shape here owned blank rent enough recent =>
      obtain ⟨rfl, -⟩ := view_sized held.2
      exact ⟨(recentSlotHash_ok recent).2, _, rent, enough⟩
  | advanced shape here owned stored authorized signed =>
      obtain ⟨rfl, -⟩ := view_sized held.2
      obtain ⟨slot, rent⟩ := funded _ ⟨owned, stored⟩
      exact ⟨slot, rent⟩
  | withdrawn shape here owned authorized signed enough allowed =>
      split at held
      · exact absurd held (not_initialized_closed state)
      · rename_i partly
        rw [if_neg partly]
        obtain ⟨rentRequired, rent, left⟩ := checkRemaining_rent allowed partly
        rw [(Nonce.view_ok_iff.mp held.2).1] at rent
        exact ⟨(funded state held).slot, rentRequired, rent, left⟩

/-- What one change does to an initialized nonce: it stays one under the same
authority and slot, or the authority closed it. -/
inductive NonceFate (accounts : List P.AccountView) (address : P.Address) (before : P.Account)
    (state : P.Nonce) : NonceInstruction P.Hash → P.Account → Prop where
  | kept {instruction : NonceInstruction P.Hash} {after : P.Account}
      (held : Initialized after state) (lamports : before.lamports ≤ after.lamports) :
      NonceFate accounts address before state instruction after
  | advanced {authority nonceAccount : P.AccountView} {rest : List P.AccountView}
      {transitionCommitment : P.Hash} {after : P.Account}
      (shape : accounts = authority :: nonceAccount :: rest)
      (here : nonceAccount.address = address) (authorized : authority.address = state.authority)
      (signed : authority.isSigner = true)
      (held : Initialized after { state with
        nonce := state.deriveNextNonce P.nonceProgram address transitionCommitment })
      (lamports : after.lamports = before.lamports) :
      NonceFate accounts address before state (.advance state.nonce transitionCommitment) after
  | withdrawn {authority nonceAccount destination : P.AccountView} {rest : List P.AccountView}
      {lamports : UInt64} {after : P.Account}
      (shape : accounts = authority :: nonceAccount :: destination :: rest)
      (here : nonceAccount.address = address) (authorized : authority.address = state.authority)
      (signed : authority.isSigner = true)
      (held : Initialized after state ∨ after = ⟨0, default, .empty⟩) :
      NonceFate accounts address before state (.withdraw lamports) after

theorem AccountChange.fate {sysvars : P.Sysvars} {accounts : List P.AccountView}
    {address : P.Address} {before after : P.Account} {instruction : NonceInstruction P.Hash}
    (change : AccountChange sysvars P.nonceProgram accounts address before instruction after)
    {state : P.Nonce} (held : Initialized before state) (slot : 0 < state.initializeSlot) :
    NonceFate accounts address before state instruction after := by
  cases change with
  | kept => exact .kept held (UInt64.le_refl _)
  | credited room => exact .kept held (lamports_le_add room)
  | initialized shape here owned blank rent enough recent =>
      rw [Initialized, blank] at held
      exact absurd rfl (view_sized held.2).2
  | advanced shape here owned stored authorized signed =>
      obtain rfl := held.unique ⟨owned, stored⟩
      refine .advanced shape here authorized signed ⟨owned, ?_⟩ rfl
      refine Nonce.view_ok_iff.mpr ⟨rfl, ?_⟩
      intro blank
      have zero : state.initializeSlot = 0 := congrArg Nonce.initializeSlot blank
      exact absurd slot (zero ▸ UInt64.lt_irrefl 0)
  | withdrawn shape here owned authorized signed enough allowed =>
      rcases withdrawAuthority_ok_iff.mp authorized with ⟨found, viewed, same, -⟩ | ⟨none, -⟩
      · obtain rfl := held.unique ⟨owned, viewed⟩
        refine .withdrawn shape here same signed ?_
        split
        · exact .inr rfl
        · exact .inl held
      · exact absurd held.2 (none state)

/-- Anything else of the program only loses lamports or goes away with its own
signature. -/
theorem AccountChange.recovered {sysvars : P.Sysvars} {accounts : List P.AccountView}
    {address : P.Address} {before after : P.Account} {instruction : NonceInstruction P.Hash}
    (change : AccountChange sysvars P.nonceProgram accounts address before instruction after)
    (owned : before.owner = P.nonceProgram) (unheld : ∀ state, ¬ Initialized before state)
    (taken : after.lamports < before.lamports ∨ after.owner ≠ P.nonceProgram) :
    ∃ authority nonceAccount destination rest lamports, instruction = .withdraw lamports ∧
      accounts = authority :: nonceAccount :: destination :: rest ∧
      nonceAccount.address = address ∧ authority.address = address ∧
      authority.isSigner = true := by
  have untouched (account : P.Account) (kept : before.lamports ≤ account.lamports)
      (same : account.owner = before.owner)
      (lost : account.lamports < before.lamports ∨ account.owner ≠ P.nonceProgram) : False := by
    rcases lost with less | other
    · exact absurd less (UInt64.not_lt.mpr kept)
    · exact other (same.trans owned)
  cases change with
  | kept => exact (untouched _ (UInt64.le_refl _) rfl taken).elim
  | @credited lamports room =>
      exact (untouched { before with lamports := before.lamports + lamports }
        (lamports_le_add room) rfl taken).elim
  | initialized => exact (untouched _ (UInt64.le_refl _) rfl taken).elim
  | advanced => exact (untouched _ (UInt64.le_refl _) rfl taken).elim
  | withdrawn shape here _ authorized signed enough allowed =>
      rcases withdrawAuthority_ok_iff.mp authorized with ⟨found, viewed, -⟩ | ⟨-, own, -⟩
      · exact absurd ⟨owned, viewed⟩ (unheld found)
      · exact ⟨_, _, _, _, _, rfl, shape, here, own.trans here, signed⟩

/-- Every initialized nonce of a ledger is funded. -/
def AllFunded (ledger : P.Ledger) : Prop :=
  ∀ address state, Initialized (ledger address) state → Funded (ledger address) state

theorem Genesis.allFunded {ledger : P.Ledger} (genesis : Genesis ledger) : AllFunded ledger :=
  fun address state held => absurd held (genesis.not_initialized address state)

theorem Transition.Valid.allFunded {timeline : Timeline P} {transition : Transition P}
    (valid : transition.Valid timeline) (funded : AllFunded transition.before.ledger) :
    AllFunded transition.after.ledger := by
  intro address
  rcases valid.change address with ⟨instruction, decoded, -, -, change⟩ | foreign
  · exact change.funded (funded address)
  · intro state held
    have before := foreign.initialized_iff.mp held
    obtain ⟨slot, rentRequired, rent, enough⟩ := funded address state before
    exact ⟨slot, rentRequired, rent, UInt64.le_trans enough (foreign.owned before.1).2.2⟩

theorem NonceRun.allFunded {timeline : Timeline P} {start final : World P}
    {transitions : List (Transition P)} (run : NonceRun timeline start transitions final)
    (funded : AllFunded start.ledger) :
    AllFunded final.ledger ∧ ∀ transition ∈ transitions,
      transition.Valid timeline ∧ AllFunded transition.before.ledger :=
  run.invariant (fun world => AllFunded world.ledger)
    (fun _ valid held => valid.allFunded held) funded

/-- What one transition may do to an initialized nonce. -/
structure Guarded (transition : Transition P) (address : P.Address) (state : P.Nonce) : Prop where
  steady : ∀ current, Initialized (transition.after.ledger address) current →
    current.authority = state.authority ∧ current.initializeSlot = state.initializeSlot
  advance : ∀ current, Initialized (transition.after.ledger address) current →
    current.nonce ≠ state.nonce → AdvancedBy transition address state
  withdraw : (transition.after.ledger address).lamports <
        (transition.before.ledger address).lamports ∨
      (∀ current, ¬ Initialized (transition.after.ledger address) current) →
    WithdrawnBy transition address state.authority

theorem Transition.Valid.guarded {timeline : Timeline P} {transition : Transition P}
    (valid : transition.Valid timeline) {address : P.Address} {state : P.Nonce}
    (held : Initialized (transition.before.ledger address) state)
    (slot : 0 < state.initializeSlot) : Guarded transition address state := by
  have unchanged (still : Initialized (transition.after.ledger address) state)
      (more : (transition.before.ledger address).lamports ≤
        (transition.after.ledger address).lamports) : Guarded transition address state := by
    refine ⟨?_, ?_, ?_⟩
    · intro current now
      rw [now.unique still]
      exact ⟨rfl, rfl⟩
    · intro current now differs
      exact absurd (congrArg Nonce.nonce (now.unique still)) differs
    · rintro (less | gone)
      · exact absurd less (UInt64.not_lt.mpr more)
      · exact absurd still (gone state)
  rcases valid.change address with ⟨instruction, decoded, event, accepted, change⟩ | foreign
  · cases change.fate held slot with
    | kept still lamports => exact unchanged still lamports
    | advanced shape here authorized signed still lamports =>
        refine ⟨?_, ?_, ?_⟩
        · intro current now
          rw [now.unique still]
          exact ⟨rfl, rfl⟩
        · intro current now differs
          exact ⟨instruction, _, _, _, _, event, accepted, shape, here, authorized, signed⟩
        · rintro (less | gone)
          · exact absurd less (lamports ▸ UInt64.lt_irrefl _)
          · exact absurd still (gone _)
    | withdrawn shape here authorized signed still =>
        have taken : WithdrawnBy transition address state.authority :=
          ⟨instruction, _, _, _, _, _, event, accepted, shape, here, authorized, signed⟩
        rcases still with still | closed
        · refine ⟨?_, ?_, fun _ => taken⟩
          · intro current now
            rw [now.unique still]
            exact ⟨rfl, rfl⟩
          · intro current now differs
            exact absurd (congrArg Nonce.nonce (now.unique still)) differs
        · refine ⟨?_, ?_, fun _ => taken⟩ <;>
            exact fun current now => absurd (closed ▸ now) (not_initialized_closed current)
  · exact unchanged (foreign.initialized_iff.mpr held) (foreign.owned held.1).2.2

/-- While a nonce stays open its authority and slot stay the same. -/
theorem NonceRun.steady {timeline : Timeline P} {start final : World P}
    {transitions : List (Transition P)} (run : NonceRun timeline start transitions final)
    (funded : AllFunded start.ledger) {address : P.Address} {state : P.Nonce}
    (held : Initialized (start.ledger address) state)
    (openThroughout : ∀ transition ∈ transitions, ∃ current,
      Initialized (transition.after.ledger address) current) :
    ∃ current, Initialized (final.ledger address) current ∧
      current.authority = state.authority ∧ current.initializeSlot = state.initializeSlot := by
  induction run generalizing state with
  | nil => exact ⟨state, held, rfl, rfl⟩
  | cons valid rest ih =>
      obtain ⟨next, opened⟩ := openThroughout _ List.mem_cons_self
      obtain ⟨sameAuthority, sameSlot⟩ :=
        (valid.guarded held (funded address state held).slot).steady next opened
      obtain ⟨current, finally_, authority, slot⟩ := ih (valid.allFunded funded) opened
        fun transition member => openThroughout transition (List.mem_cons_of_mem _ member)
      exact ⟨current, finally_, authority.trans sameAuthority, slot.trans sameSlot⟩

/-- Accounts of the nonce program stay funded and steady, and only their authority
advances, debits or closes them, or their own key while they hold no nonce. -/
theorem nonce_custody {timeline : Timeline P} {start middle final : World P}
    {early late : List (Transition P)} (genesis : Genesis start.ledger)
    (history : NonceRun timeline start early middle)
    (run : NonceRun timeline middle late final) :
    (∀ address state, Initialized (middle.ledger address) state →
      ∃ rentRequired, P.minimumBalance Nonce.len = .ok rentRequired ∧
        rentRequired ≤ (middle.ledger address).lamports) ∧
    (∀ address state, Initialized (middle.ledger address) state →
      (∀ transition ∈ late, ∃ current,
        Initialized (transition.after.ledger address) current) →
      ∃ current, Initialized (final.ledger address) current ∧
        current.authority = state.authority ∧ current.initializeSlot = state.initializeSlot) ∧
    (∀ transition ∈ late, ∀ address state,
      Initialized (transition.before.ledger address) state →
      (∀ current, Initialized (transition.after.ledger address) current →
        current.nonce ≠ state.nonce → AdvancedBy transition address state) ∧
      ((transition.after.ledger address).lamports <
            (transition.before.ledger address).lamports ∨
          (∀ current, ¬ Initialized (transition.after.ledger address) current) →
        WithdrawnBy transition address state.authority)) ∧
    ∀ transition ∈ late, ∀ address,
      (transition.before.ledger address).owner = P.nonceProgram →
      (∀ state, ¬ Initialized (transition.before.ledger address) state) →
      (transition.after.ledger address).lamports <
          (transition.before.ledger address).lamports ∨
        (transition.after.ledger address).owner ≠ P.nonceProgram →
      WithdrawnBy transition address address := by
  have reached := (history.allFunded genesis.allFunded).1
  have later := (run.allFunded reached).2
  refine ⟨?_, ?_, ?_, ?_⟩
  · exact fun address state held => (reached address state held).rent
  · exact fun address state held opened => run.steady reached held opened
  · intro transition member address state held
    obtain ⟨valid, funded⟩ := later transition member
    have guarded := valid.guarded held (funded address state held).slot
    exact ⟨guarded.advance, guarded.withdraw⟩
  · intro transition member address owned unheld taken
    obtain ⟨valid, -⟩ := later transition member
    rcases valid.change address with ⟨instruction, decoded, event, accepted, change⟩ | foreign
    · obtain ⟨authority, nonceAccount, destination, rest, lamports, rfl, shape, here, own,
        signed⟩ := change.recovered owned unheld taken
      exact ⟨instruction, authority, nonceAccount, destination, rest, lamports, event, accepted,
        shape, here, own, signed⟩
    · obtain ⟨owner, -, more⟩ := foreign.owned owned
      rcases taken with less | other
      · exact absurd less (UInt64.not_lt.mpr more)
      · exact absurd owner other

/-- An account that was opened and advanced. -/
theorem nonce_custody_reference :
    (∃ rentRequired, Platform.reference.minimumBalance Nonce.len = .ok rentRequired ∧
      rentRequired ≤ (Reference.opened Reference.nonceAccount).lamports) ∧
    AdvancedBy Reference.advancing Reference.nonceAccount Reference.state := by
  obtain ⟨rent, -, guarded, -⟩ :=
    nonce_custody Reference.genesis Reference.opening_run Reference.advancing_run
  have advance := (guarded _ List.mem_cons_self _ _ Reference.held).1
  refine ⟨rent _ _ Reference.held, ?_⟩
  exact advance { Reference.state with
      nonce := Reference.state.deriveNextNonce Platform.reference.nonceProgram
        Reference.nonceAccount [7] }
    ⟨rfl, Nonce.view_ok_iff.mpr ⟨rfl, by decide⟩⟩ (by decide)

end ProgrammaticSigner
