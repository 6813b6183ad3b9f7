import ProgrammaticSigner.Nonce.Change
import ProgrammaticSigner.Solana.Reference

set_option autoImplicit false

/- Runs of the nonce program next to everything else on the chain: time passing,
and other programs changing accounts within what ownership lets them. -/
namespace ProgrammaticSigner

/-- The sysvars of each slot of one chain. -/
structure Timeline (P : Platform) where
  sysvars : UInt64 → P.Sysvars
  slot_eq : ∀ slot, (sysvars slot).slot = slot

/-- The latest slot hash differs between different slots. -/
def Timeline.Distinct {P : Platform} (timeline : Timeline P) : Prop :=
  ∀ first second one two, (timeline.sysvars first).slotHashes.head? = some one →
    (timeline.sysvars second).slotHashes.head? = some two → one.hash = two.hash → first = second

/-- Each slot's latest hash spells that slot. -/
def Timeline.reference : Timeline .reference where
  sysvars slot :=
    { slot := slot
      slotHashes := if slot = 0 then [] else [⟨slot - 1, Wire.uint64.encode slot⟩]
      earlier := by
        intro entry listed
        split at listed
        · cases listed
        · rename_i positive
          obtain rfl := List.mem_singleton.mp listed
          have before : slot - 1 < slot := by grind
          exact before }
  slot_eq _ := rfl

theorem Timeline.reference_distinct : Timeline.reference.Distinct := by
  intro first second one two latest latest' same
  have spelled {slot : UInt64} {entry : SlotHashEntry Reference.Bytes}
      (head : (Timeline.reference.sysvars slot).slotHashes.head? = some entry) :
      entry.hash = Wire.uint64.encode slot := by
    simp only [Timeline.reference] at head
    split at head
    · cases head
    · exact congrArg SlotHashEntry.hash (Option.some.inj head).symm
  rw [spelled latest, spelled latest'] at same
  exact Wire.uint64.encode_inj (Wire.uint64_total _) (Wire.uint64_total _) same

structure World (P : Platform) where
  slot : UInt64
  ledger : P.Ledger

/-- What other programs may do to an account: credit the program's own, and hand it
one whose data is zero. Only the owner debits, writes or reassigns an account. -/
structure ForeignChange {P : Platform} (program : P.Address) (before after : P.Account) :
    Prop where
  owned : before.owner = program →
    after.owner = program ∧ after.data = before.data ∧ before.lamports ≤ after.lamports
  assigned : before.owner ≠ program → after.owner = program → after.data.Zeroed

def Foreign {P : Platform} (program : P.Address) (before after : P.Ledger) : Prop :=
  ∀ address, ForeignChange program (before address) (after address)

inductive NonceEvent (P : Platform) where
  | invoked (instruction : P.Instruction)
  | others
  | later

structure Transition (P : Platform) where
  before : World P
  event : NonceEvent P
  after : World P

variable {P : Platform}

/-- A nonce account that is initialized, with its state. -/
def Initialized (account : P.Account) (state : P.Nonce) : Prop :=
  account.owner = P.nonceProgram ∧ Nonce.view account.data = .ok state

/-- One committed nonce instruction, or one thing that happens around it. -/
inductive Transition.Valid (timeline : Timeline P) : Transition P → Prop where
  | invoked {world : World P} {instruction : P.Instruction} {final : P.Ledger}
      (program : instruction.programId = P.nonceProgram)
      (committed : invokeNonce (timeline.sysvars world.slot) world.ledger instruction = .ok final) :
      Transition.Valid timeline ⟨world, .invoked instruction, ⟨world.slot, final⟩⟩
  | others {world : World P} {final : P.Ledger}
      (foreign : Foreign P.nonceProgram world.ledger final) :
      Transition.Valid timeline ⟨world, .others, ⟨world.slot, final⟩⟩
  | later {world : World P} {slot : UInt64} (forward : world.slot ≤ slot) :
      Transition.Valid timeline ⟨world, .later, ⟨slot, world.ledger⟩⟩

/-- The transitions of a run, in order. -/
inductive NonceRun (timeline : Timeline P) : World P → List (Transition P) → World P → Prop where
  | nil {world : World P} : NonceRun timeline world [] world
  | cons {world next final : World P} {event : NonceEvent P} {later : List (Transition P)}
      (valid : Transition.Valid timeline ⟨world, event, next⟩)
      (rest : NonceRun timeline next later final) :
      NonceRun timeline world (⟨world, event, next⟩ :: later) final

/-- Before the nonce program first runs, its accounts are blank. -/
def Genesis (ledger : P.Ledger) : Prop :=
  ∀ address, (ledger address).owner = P.nonceProgram → (ledger address).data.Zeroed

theorem NonceRun.append {timeline : Timeline P} {start middle final : World P}
    {early late : List (Transition P)} (first : NonceRun timeline start early middle)
    (second : NonceRun timeline middle late final) :
    NonceRun timeline start (early ++ late) final := by
  induction first with
  | nil => exact second
  | cons valid rest ih => exact .cons valid (ih second)

/-- What held at the start and every transition preserves holds at the end, and
before each transition on the way. -/
theorem NonceRun.invariant {timeline : Timeline P} {start final : World P}
    {transitions : List (Transition P)} (run : NonceRun timeline start transitions final)
    (holds : World P → Prop)
    (preserved : ∀ transition, Transition.Valid timeline transition → holds transition.before →
      holds transition.after)
    (initially : holds start) :
    holds final ∧ ∀ transition ∈ transitions,
      Transition.Valid timeline transition ∧ holds transition.before := by
  induction run with
  | nil => exact ⟨initially, by simp⟩
  | cons valid rest ih =>
      obtain ⟨finally_, before⟩ := ih (preserved _ valid initially)
      refine ⟨finally_, ?_⟩
      intro transition member
      rcases List.mem_cons.mp member with rfl | member
      · exact ⟨valid, initially⟩
      · exact before transition member

theorem view_zeroed {data : P.AccountData} (zeroed : data.Zeroed) (state : P.Nonce) :
    Nonce.view data ≠ .ok state := by
  intro viewed
  obtain ⟨rfl, initialized⟩ := Nonce.view_ok_iff.mp viewed
  exact initialized zeroed

/-- A blank account stands for no nonce. -/
theorem Genesis.not_initialized {ledger : P.Ledger} (genesis : Genesis ledger)
    (address : P.Address) (state : P.Nonce) : ¬ Initialized (ledger address) state :=
  fun held => view_zeroed (genesis address held.1) state held.2

namespace Reference

abbrev nonceAccount : Platform.reference.Address := (20 : Nat)

/-- The PDA of key 30. -/
abbrev nonceAuthority : Platform.reference.Address := (61 : Nat)

/-- One funded blank account of the nonce program, and nothing else. -/
def ledger : Platform.reference.Ledger := fun address =>
  if address = nonceAccount then ⟨100, 2, .sized default⟩ else ⟨0, 0, .empty⟩

theorem genesis : Genesis ledger := by
  intro address owned
  unfold ledger at owned ⊢
  split
  · rfl
  · rename_i other
    rw [if_neg other] at owned
    cases owned

end Reference

theorem ForeignChange.refl {program : P.Address} (account : P.Account) :
    ForeignChange program account account :=
  ⟨fun owned => ⟨owned, rfl, UInt64.le_refl _⟩, fun other same => absurd same other⟩

/-- Others neither make nor change an initialized nonce. -/
theorem ForeignChange.initialized_iff {before after : P.Account}
    (foreign : ForeignChange P.nonceProgram before after) {state : P.Nonce} :
    Initialized after state ↔ Initialized before state := by
  by_cases owned : before.owner = P.nonceProgram
  · obtain ⟨owner, data, -⟩ := foreign.owned owned
    simp only [Initialized, owner, data, owned]
  · constructor
    · intro held
      exact absurd held.2 (view_zeroed (foreign.assigned owned held.1) state)
    · intro held
      exact absurd held.1 owned

/-- The state of an initialized nonce is unique. -/
theorem Initialized.unique {account : P.Account} {state state' : P.Nonce}
    (one : Initialized account state) (two : Initialized account state') : state = state' := by
  have same := one.2.symm.trans two.2
  exact Except.ok.inj same

/-- Every account sees a transition as one change of the nonce program or of others. -/
theorem Transition.Valid.change {timeline : Timeline P} {transition : Transition P}
    (valid : transition.Valid timeline) (address : P.Address) :
    (∃ instruction decoded, transition.event = .invoked instruction ∧
      NonceInstruction.tryFromBytes instruction.data = .ok decoded ∧
      AccountChange (timeline.sysvars transition.before.slot) P.nonceProgram instruction.views
        address (transition.before.ledger address) decoded (transition.after.ledger address)) ∨
    ForeignChange P.nonceProgram (transition.before.ledger address)
      (transition.after.ledger address) := by
  cases valid with
  | invoked program committed =>
      obtain ⟨⟨decoded, accepted, step⟩, -⟩ := invokeNonce_ok_iff.mp committed
      rw [program] at step
      exact .inl ⟨_, decoded, rfl, accepted, step.change address⟩
  | others foreign => exact .inr (foreign address)
  | later forward => exact .inr (.refl _)

/-- A recent slot hash is the latest one, and comes from an earlier slot. -/
theorem recentSlotHash_ok {sysvars : P.Sysvars} {slotHashesAccount : P.AccountView}
    {slotHash : P.Hash} (recent : recentSlotHash sysvars slotHashesAccount = .ok slotHash) :
    (∃ entry, sysvars.slotHashes.head? = some entry ∧ entry.hash = slotHash) ∧
      0 < sysvars.slot := by
  simp only [recentSlotHash, Outcome.ensure_ok_iff, Outcome.bind_ok_iff, Outcome.okOr_ok_iff,
    Outcome.pure_ok_iff] at recent
  obtain ⟨_, -, entry, latest, same⟩ := recent
  refine ⟨⟨entry, latest, same⟩, ?_⟩
  have listed : entry ∈ sysvars.slotHashes := List.mem_of_mem_head? latest
  exact UInt64.lt_of_le_of_lt (UInt64.zero_le) (sysvars.earlier entry listed)

end ProgrammaticSigner
