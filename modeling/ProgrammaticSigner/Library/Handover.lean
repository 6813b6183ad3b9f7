import ProgrammaticSigner.Library.Outcome

set_option autoImplicit false

/- Seats that are handed over one after another. A program hands over one seat at a time, and a
row of handovers leaves what was held before, but for those seats. -/

open Outcome

/-- A state in which seats may be held, and what it is to hand one over. -/
structure Seating (State Seat Holder : Type) where
  holder : State → Seat → Option Holder
  pass : State → Seat → Holder → State
  /-- What a handover of a seat asks for, besides its holder. -/
  allows : State → Seat → Prop

namespace Seating

variable {State Seat Holder Instruction Error : Type}

/-- Handing over a seat that is held changes who holds it, and nothing about other seats. -/
structure Lawful (seating : Seating State Seat Holder) : Prop where
  pass_self : ∀ state seat next, (seating.holder state seat).isSome = true →
    seating.holder (seating.pass state seat next) seat = some next
  pass_other : ∀ state seat other next, other ≠ seat →
    seating.holder (seating.pass state seat next) other = seating.holder state other
  allows_other : ∀ state seat other next, other ≠ seat →
    (seating.allows (seating.pass state seat next) other ↔ seating.allows state other)

variable (seating : Seating State Seat Holder)

/-- All seats of a list go to one holder. -/
def passAll (state : State) (seats : List Seat) (next : Holder) : State :=
  seats.foldl (fun state seat => seating.pass state seat next) state

/-- An instruction that hands over a seat from its holder, wherever it runs. -/
def Carries (step : State → Instruction → Except Error State) (next : Holder)
    (seat : Seat × Holder) (instruction : Instruction) : Prop :=
  ∀ state after, seating.holder state seat.1 = some seat.2 →
    (step state instruction = .ok after ↔
      seating.allows state seat.1 ∧ after = seating.pass state seat.1 next)

variable {seating}

theorem Lawful.holder_passAll [DecidableEq Seat] (lawful : seating.Lawful) {state : State}
    {seats : List Seat} (held : ∀ seat ∈ seats, (seating.holder state seat).isSome = true) (next : Holder)
    (other : Seat) :
    seating.holder (seating.passAll state seats next) other =
      if other ∈ seats then some next else seating.holder state other := by
  induction seats generalizing state with
  | nil => simp [passAll]
  | cons seat rest ih =>
      have here := held seat List.mem_cons_self
      have kept : ∀ later ∈ rest,
          (seating.holder (seating.pass state seat next) later).isSome = true := by
        intro later listed
        by_cases same : later = seat
        · rw [same, lawful.pass_self state seat next here]
          rfl
        · rw [lawful.pass_other state seat later next same]
          exact held later (List.mem_cons_of_mem _ listed)
      show seating.holder (seating.passAll (seating.pass state seat next) rest next) other = _
      rw [ih kept]
      by_cases same : other = seat
      · rw [same, lawful.pass_self state seat next here]
        simp
      · simp [same, lawful.pass_other state seat other next same]

/-- A run of handovers of different seats, from those who hold them, goes through exactly if each
of them is allowed at the start. -/
theorem Lawful.foldlM_iff (lawful : seating.Lawful)
    {step : State → Instruction → Except Error State} {next : Holder} {seats : List (Seat × Holder)} {instructions : List Instruction}
    (carries : List.Forall₂ (seating.Carries step next) seats instructions)
    (distinct : (seats.map Prod.fst).Nodup) {state : State}
    (held : ∀ seat ∈ seats, seating.holder state seat.1 = some seat.2) {after : State} :
    instructions.foldlM step state = .ok after ↔
      (∀ seat ∈ seats, seating.allows state seat.1) ∧
        after = seating.passAll state (seats.map Prod.fst) next := by
  induction carries generalizing state with
  | nil => simp [passAll, eq_comm, pure, Except.pure]
  | @cons seat instruction seats instructions carried _ ih =>
      obtain ⟨fresh, distinct⟩ := List.nodup_cons.mp distinct
      have here := held seat List.mem_cons_self
      -- The seats that are left are others, so they are held and allowed as they were.
      have differ : ∀ other ∈ seats, other.1 ≠ seat.1 :=
        fun other listed same => fresh (same ▸ List.mem_map_of_mem listed)
      have later : ∀ other ∈ seats,
          seating.holder (seating.pass state seat.1 next) other.1 = some other.2 := by
        intro other listed
        rw [lawful.pass_other state seat.1 other.1 next (differ other listed)]
        exact held other (List.mem_cons_of_mem _ listed)
      have allowed_iff : (∀ other ∈ seats,
          seating.allows (seating.pass state seat.1 next) other.1) ↔
          ∀ other ∈ seats, seating.allows state other.1 :=
        forall₂_congr fun other listed => lawful.allows_other _ _ _ _ (differ other listed)
      simp only [List.foldlM_cons, bind_ok_iff, carried state _ here, List.forall_mem_cons]
      constructor
      · intro ran
        obtain ⟨middle, ⟨allowed, rfl⟩, rest⟩ := ran
        obtain ⟨all, rfl⟩ := (ih distinct later).mp rest
        exact ⟨⟨allowed, allowed_iff.mp all⟩, rfl⟩
      · intro ran
        obtain ⟨⟨allowed, all⟩, rfl⟩ := ran
        exact ⟨_, ⟨allowed, rfl⟩, (ih distinct later).mpr ⟨allowed_iff.mpr all, rfl⟩⟩

end Seating
