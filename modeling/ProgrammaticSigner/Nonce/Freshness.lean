import ProgrammaticSigner.Library.OneWay
import ProgrammaticSigner.Nonce.Custody

set_option autoImplicit false

/- No nonce value is ever stored twice. A value carries its address, the slot hash
of its incarnation and every commitment since; the close guard keeps incarnations
of one address in different slots. -/
namespace ProgrammaticSigner

open Outcome

variable {P : Platform}

/-- The nonce derivations as a chain: an account and a slot hash begin it, and an
account and a commitment extend it. -/
def nonceChain (keys : P.KeyLaws) (hashes : P.HashLaws) :
    OneWay (P.Address × P.Hash) (P.Address × P.Hash) P.Hash where
  root start := Nonce.deriveInitialNonce P.nonceProgram start.1 start.2
  extend value link := Nonce.deriveNextNonce ⟨value, default, 0⟩ P.nonceProgram link.1 link.2
  root_inj same := by
    obtain ⟨-, account, slotHash⟩ := Nonce.deriveInitialNonce_inj keys hashes same
    exact Prod.ext account slotHash
  extend_inj same := by
    obtain ⟨-, account, value, commitment⟩ := Nonce.deriveNextNonce_inj keys hashes same
    exact ⟨value, Prod.ext account commitment⟩
  root_ne_extend := Nonce.deriveInitialNonce_ne_deriveNextNonce hashes

/-- Every advance goes through the hash, so a chain never comes back. -/
theorem nonceChain_acyclic (keys : P.KeyLaws) (hashes : P.HashLaws) :
    (nonceChain keys hashes).Acyclic := by
  have reaches (value : P.Hash) (links : List (P.Address × P.Hash)) (some_ : links ≠ []) :
      Relation.TransGen (fun inner outer => ∃ before after,
        outer = P.sha256 (before ++ P.hashWire.encode inner ++ after)) value
          ((nonceChain keys hashes).after value links) := by
    induction links using List.reverseRecOn with
    | nil => exact absurd rfl some_
    | append_singleton links link ih =>
        rw [OneWay.after_concat]
        have last : ∃ before after, (nonceChain keys hashes).extend
            ((nonceChain keys hashes).after value links) link = P.sha256 (before ++
              P.hashWire.encode ((nonceChain keys hashes).after value links) ++ after) := by
          refine ⟨nonceStepTag ++ (P.addressWire.encode P.nonceProgram ++
            P.addressWire.encode link.1), P.hashWire.encode link.2, ?_⟩
          simp only [nonceChain, Nonce.deriveNextNonce, Platform.hashv, List.flatten_cons,
            List.flatten_nil, List.append_assoc, List.append_nil]
        by_cases first : links = []
        · subst first
          exact .single last
        · exact .tail (ih first) last
  intro value links back
  by_contra some_
  have cycle := reaches value links some_
  rw [back] at cycle
  exact hashes.acyclic value cycle

/-- An advance changes the value. -/
theorem deriveNextNonce_ne (keys : P.KeyLaws) (hashes : P.HashLaws) (state : P.Nonce)
    (account : P.Address) (commitment : P.Hash) :
    state.deriveNextNonce P.nonceProgram account commitment ≠ state.nonce := by
  intro same
  have cycle := nonceChain_acyclic keys hashes state.nonce [(account, commitment)] same
  cases cycle

/-- The address and value a transition stored, if it initialized or advanced one. -/
def Transition.stored (transition : Transition P) : List (P.Address × P.Hash) :=
  match transition.event with
  | .invoked instruction =>
      match NonceInstruction.tryFromBytes (P := P) instruction.data, instruction.views with
      | .ok .initializeNonce, nonceAccount :: _ => written nonceAccount.address
      | .ok (.advance _ _), _ :: nonceAccount :: _ => written nonceAccount.address
      | _, _ => []
  | _ => []
where
  written (address : P.Address) : List (P.Address × P.Hash) :=
    match Nonce.view (transition.after.ledger address).data with
    | .ok state => [(address, state.nonce)]
    | .error _ => []

/-- Everything the transitions of a run stored, in order. -/
def storedBy (transitions : List (Transition P)) : List (P.Address × P.Hash) :=
  transitions.flatMap Transition.stored

@[simp] theorem storedBy_nil : storedBy ([] : List (Transition P)) = [] := rfl

@[simp] theorem storedBy_cons (transition : Transition P) (transitions : List (Transition P)) :
    storedBy (transition :: transitions) = transition.stored ++ storedBy transitions := rfl

@[simp] theorem storedBy_append (early late : List (Transition P)) :
    storedBy (early ++ late) = storedBy early ++ storedBy late :=
  List.flatMap_append

/-- How a transition changes which nonces are held. -/
inductive StoreEffect (timeline : Timeline P) (transition : Transition P) : Prop where
  | nothing (stored : transition.stored = [])
      (forward : transition.before.slot ≤ transition.after.slot)
      (fewer : ∀ address state, Initialized (transition.after.ledger address) state →
        Initialized (transition.before.ledger address) state)
      (closed : ∀ address state, Initialized (transition.before.ledger address) state →
        Initialized (transition.after.ledger address) state ∨
          state.initializeSlot < transition.before.slot)
  | initialized {address : P.Address} {state : P.Nonce} {entry : SlotHashEntry P.Hash}
      (stored : transition.stored = [(address, state.nonce)])
      (same : transition.after.slot = transition.before.slot)
      (others : ∀ other, other ≠ address →
        transition.after.ledger other = transition.before.ledger other)
      (blank : ∀ old, ¬ Initialized (transition.before.ledger address) old)
      (held : Initialized (transition.after.ledger address) state)
      (slot : state.initializeSlot = transition.before.slot)
      (latest : (timeline.sysvars transition.before.slot).slotHashes.head? = some entry)
      (value : state.nonce = Nonce.deriveInitialNonce P.nonceProgram address entry.hash)
  | advanced {address : P.Address} {old state : P.Nonce} {transitionCommitment : P.Hash}
      (stored : transition.stored = [(address, state.nonce)])
      (same : transition.after.slot = transition.before.slot)
      (others : ∀ other, other ≠ address →
        transition.after.ledger other = transition.before.ledger other)
      (before : Initialized (transition.before.ledger address) old)
      (held : Initialized (transition.after.ledger address) state)
      (slot : state.initializeSlot = old.initializeSlot)
      (value : state.nonce =
        old.deriveNextNonce P.nonceProgram address transitionCommitment)

theorem Transition.stored_of_written (transition : Transition P) {address : P.Address}
    {state : P.Nonce} (held : Initialized (transition.after.ledger address) state) :
    Transition.stored.written transition address = [(address, state.nonce)] := by
  simp only [Transition.stored.written, held.2]

/-- An initialized nonce may only close in a slot after its own. -/
theorem closed_later {sysvars : P.Sysvars} {authority nonceAccount : P.AccountView}
    {initializeSlot : Option UInt64} {data : P.AccountData} {state : P.Nonce}
    (viewed : Nonce.view data = .ok state)
    (authorized : withdrawAuthority authority nonceAccount data = .ok initializeSlot)
    (allowed : checkRemaining sysvars initializeSlot 0 data = .ok ()) :
    state.initializeSlot < sysvars.slot := by
  rcases withdrawAuthority_ok_iff.mp authorized with ⟨found, same, -, rfl⟩ | ⟨none, -⟩
  · obtain rfl : state = found := Except.ok.inj (viewed.symm.trans same)
    simpa [checkRemaining] using allowed
  · exact absurd viewed (none state)

theorem initialized_sized {account : P.Account} {state : P.Nonce}
    (owned : account.owner = P.nonceProgram) (positive : 0 < state.initializeSlot) :
    Initialized { account with data := .sized state } state := by
  refine ⟨owned, Nonce.view_ok_iff.mpr ⟨rfl, ?_⟩⟩
  intro zeroed
  have zero : state.initializeSlot = 0 := congrArg Nonce.initializeSlot zeroed
  exact absurd positive (zero ▸ UInt64.lt_irrefl 0)

section Invoked

variable {timeline : Timeline P} {world : World P} {instruction : P.Instruction}
  {final : P.Ledger}

theorem storeEffect_initializes {nonceAccount authority slotHashesAccount : P.AccountView}
    {rest : List P.AccountView} {slotHash : P.Hash}
    (accepted : NonceInstruction.tryFromBytes (P := P) instruction.data = .ok .initializeNonce)
    (shape : instruction.views = nonceAccount :: authority :: slotHashesAccount :: rest)
    (owned : (world.ledger nonceAccount.address).owner = P.nonceProgram)
    (blank : (world.ledger nonceAccount.address).data = .sized default)
    (recent : recentSlotHash (timeline.sysvars world.slot) slotHashesAccount = .ok slotHash)
    (written : final = Function.update world.ledger nonceAccount.address
      { world.ledger nonceAccount.address with
        data := .sized ⟨Nonce.deriveInitialNonce P.nonceProgram nonceAccount.address slotHash,
          authority.address, (timeline.sysvars world.slot).slot⟩ }) :
    StoreEffect timeline ⟨world, .invoked instruction, ⟨world.slot, final⟩⟩ := by
  obtain ⟨⟨entry, latest, rfl⟩, positive⟩ := recentSlotHash_ok recent
  have held : Initialized (final nonceAccount.address)
      ⟨Nonce.deriveInitialNonce P.nonceProgram nonceAccount.address entry.hash,
        authority.address, (timeline.sysvars world.slot).slot⟩ := by
    rw [written, Function.update_self]
    exact initialized_sized owned positive
  refine .initialized ?_ rfl ?_ ?_ held (timeline.slot_eq _) latest rfl
  · simp only [Transition.stored, accepted, shape]
    exact Transition.stored_of_written ⟨world, _, ⟨world.slot, final⟩⟩ held
  · intro other differs
    rw [written]
    exact Function.update_of_ne differs _ _
  · intro old before
    rw [Initialized, blank] at before
    exact absurd rfl (view_sized before.2).2

theorem storeEffect_advances {authority nonceAccount : P.AccountView}
    {rest : List P.AccountView} {state : P.Nonce} {transitionCommitment : P.Hash}
    (accepted : NonceInstruction.tryFromBytes instruction.data =
      .ok (.advance state.nonce transitionCommitment))
    (shape : instruction.views = authority :: nonceAccount :: rest)
    (before : Initialized (world.ledger nonceAccount.address) state)
    (positive : 0 < state.initializeSlot)
    (written : final = Function.update world.ledger nonceAccount.address
      { world.ledger nonceAccount.address with
        data := .sized { state with
          nonce := state.deriveNextNonce P.nonceProgram nonceAccount.address
            transitionCommitment } }) :
    StoreEffect timeline ⟨world, .invoked instruction, ⟨world.slot, final⟩⟩ := by
  have held : Initialized (final nonceAccount.address)
      ⟨state.deriveNextNonce P.nonceProgram nonceAccount.address transitionCommitment,
        state.authority, state.initializeSlot⟩ := by
    rw [written, Function.update_self]
    exact initialized_sized before.1 positive
  refine .advanced ?_ rfl ?_ before held rfl rfl
  · simp only [Transition.stored, accepted, shape]
    exact Transition.stored_of_written ⟨world, _, ⟨world.slot, final⟩⟩ held
  · intro other differs
    rw [written]
    exact Function.update_of_ne differs _ _

theorem storeEffect_withdraws {lamports : UInt64}
    (accepted : NonceInstruction.tryFromBytes (P := P) instruction.data = .ok (.withdraw lamports))
    (change : ∀ address, AccountChange (timeline.sysvars world.slot) P.nonceProgram
      instruction.views address (world.ledger address) (.withdraw lamports) (final address)) :
    StoreEffect timeline ⟨world, .invoked instruction, ⟨world.slot, final⟩⟩ := by
  refine .nothing ?_ (UInt64.le_refl _) ?_ ?_
  · simp only [Transition.stored, accepted]
  · intro address state held
    have changed := change address
    dsimp only at held ⊢
    generalize world.ledger address = before at changed ⊢
    generalize final address = after at changed held
    cases changed with
    | kept => exact held
    | credited room => exact held
    | withdrawn shape here owned authorized signed enough allowed =>
        split at held
        · exact absurd held (not_initialized_closed state)
        · exact held
  · intro address state held
    have changed := change address
    dsimp only at held ⊢
    generalize world.ledger address = before at changed held
    generalize final address = after at changed ⊢
    cases changed with
    | kept => exact .inl held
    | credited room => exact .inl held
    | withdrawn shape here owned authorized signed enough allowed =>
        split
        · rename_i emptied
          rw [emptied] at allowed
          have less := closed_later held.2 authorized allowed
          rw [timeline.slot_eq] at less
          exact .inr less
        · exact .inl held

end Invoked

/-- Each transition stores at most one value. -/
theorem Transition.Valid.storeEffect {timeline : Timeline P} {transition : Transition P}
    (valid : transition.Valid timeline) (funded : AllFunded transition.before.ledger) :
    StoreEffect timeline transition := by
  cases valid with
  | @invoked world instruction final program committed =>
      obtain ⟨⟨decoded, accepted, step⟩, -⟩ := invokeNonce_ok_iff.mp committed
      rw [program] at step
      have change := step.change
      generalize shape : instruction.views = accounts at step
      obtain ⟨result, written, step⟩ : ∃ result, final = result ∧ NonceStep _ _ _ _ _ result :=
        ⟨final, rfl, step⟩
      cases step with
      | initializes owned blank rent enough recent =>
          exact storeEffect_initializes accepted shape owned blank recent written
      | advances owned stored authorized signed =>
          exact storeEffect_advances accepted shape ⟨owned, stored⟩
            (funded _ _ ⟨owned, stored⟩).slot written
      | withdraws => exact storeEffect_withdraws accepted change
  | @others world final foreign =>
      refine .nothing rfl (UInt64.le_refl _) ?_ ?_
      · exact fun address state held => (foreign address).initialized_iff.mp held
      · exact fun address state held => .inl ((foreign address).initialized_iff.mpr held)
  | later forward =>
      exact .nothing rfl forward (fun _ _ held => held) (fun _ _ held => .inl held)

section Chain

variable (keys : P.KeyLaws) (hashes : P.HashLaws) (timeline : Timeline P)

/-- A value that one incarnation of an address reaches over some links. -/
def Stamped (address : P.Address) (slot : UInt64) (links : List (P.Address × P.Hash))
    (value : P.Hash) : Prop :=
  ∃ entry, (timeline.sysvars slot).slotHashes.head? = some entry ∧
    value = (nonceChain keys hashes).value (address, entry.hash) links

variable {keys hashes timeline}

theorem Stamped.root {address : P.Address} {slot : UInt64} {entry : SlotHashEntry P.Hash}
    (latest : (timeline.sysvars slot).slotHashes.head? = some entry) :
    Stamped keys hashes timeline address slot []
      (Nonce.deriveInitialNonce P.nonceProgram address entry.hash) :=
  ⟨entry, latest, rfl⟩

theorem Stamped.after {address : P.Address} {slot : UInt64}
    {links : List (P.Address × P.Hash)} {value : P.Hash}
    (stamped : Stamped keys hashes timeline address slot links value)
    (more : List (P.Address × P.Hash)) :
    Stamped keys hashes timeline address slot (links ++ more)
      ((nonceChain keys hashes).after value more) := by
  obtain ⟨entry, latest, rfl⟩ := stamped
  exact ⟨entry, latest, (OneWay.after_append _ _ links more).symm⟩

/-- A value tells its address, its incarnation and its links. -/
theorem Stamped.unique (distinct : timeline.Distinct) {address address' : P.Address}
    {slot slot' : UInt64} {links links' : List (P.Address × P.Hash)} {value : P.Hash}
    (one : Stamped keys hashes timeline address slot links value)
    (two : Stamped keys hashes timeline address' slot' links' value) :
    address = address' ∧ slot = slot' ∧ links = links' := by
  obtain ⟨entry, latest, value⟩ := one
  obtain ⟨entry', latest', value'⟩ := two
  obtain ⟨start, rfl⟩ := (nonceChain keys hashes).value_inj (value.symm.trans value')
  obtain ⟨sameAddress, sameHash⟩ := Prod.mk.inj start
  exact ⟨sameAddress, distinct slot slot' entry entry' latest latest' sameHash, rfl⟩

variable (keys hashes timeline)

/-- An old value of an address lies behind what the address holds now: in an earlier
incarnation, or on the way to it in this one. -/
structure Behind (world : World P) (address : P.Address) (slot : UInt64)
    (links : List (P.Address × P.Hash)) : Prop where
  held : ∀ state current, Initialized (world.ledger address) state →
    Stamped keys hashes timeline address state.initializeSlot current state.nonce →
    slot < state.initializeSlot ∨ slot = state.initializeSlot ∧ links <+: current
  free : (∀ state, ¬ Initialized (world.ledger address) state) → slot < world.slot

/-- The values stored so far are all different, and what accounts hold is among them
with everything else behind it. Those of one incarnation lie on one path. -/
structure Fresh (world : World P) (stored : List (P.Address × P.Hash)) : Prop where
  unique : (stored.map Prod.snd).Nodup
  current : ∀ address state, Initialized (world.ledger address) state →
    (address, state.nonce) ∈ stored ∧ state.initializeSlot ≤ world.slot ∧
      ∃ links, Stamped keys hashes timeline address state.initializeSlot links state.nonce
  past : ∀ address value, (address, value) ∈ stored → ∃ slot links,
    Stamped keys hashes timeline address slot links value ∧
      Behind keys hashes timeline world address slot links
  path : ∀ address value value' slot links links', (address, value) ∈ stored →
    (address, value') ∈ stored → Stamped keys hashes timeline address slot links value →
    Stamped keys hashes timeline address slot links' value' → links <+: links' ∨ links' <+: links

theorem Genesis.fresh {world : World P} (genesis : Genesis world.ledger) :
    Fresh keys hashes timeline world [] :=
  ⟨List.nodup_nil, fun address state held => absurd held (genesis.not_initialized address state),
    (fun _ _ member => by cases member), fun _ _ _ _ _ _ member => by cases member⟩

variable {keys hashes timeline}

theorem Behind.of_same {before after : World P} {address : P.Address} {slot : UInt64}
    {links : List (P.Address × P.Hash)}
    (behind : Behind keys hashes timeline before address slot links)
    (account : after.ledger address = before.ledger address) (forward : after.slot = before.slot) :
    Behind keys hashes timeline after address slot links := by
  constructor
  · rw [account]
    exact behind.held
  · rw [account, forward]
    exact behind.free

/-- A stored value is not one that the address has yet to reach. -/
theorem Fresh.unstored (distinct : timeline.Distinct) {world : World P}
    {stored : List (P.Address × P.Hash)} (fresh : Fresh keys hashes timeline world stored)
    {address : P.Address} {slot : UInt64} {links : List (P.Address × P.Hash)} {value : P.Hash}
    (stamped : Stamped keys hashes timeline address slot links value)
    (ahead : ¬ Behind keys hashes timeline world address slot links) :
    value ∉ stored.map Prod.snd := by
  intro member
  obtain ⟨⟨other, found⟩, listed, rfl⟩ := List.mem_map.mp member
  obtain ⟨slot', links', stamped', behind⟩ := fresh.past other found listed
  obtain ⟨rfl, rfl, rfl⟩ := stamped'.unique distinct stamped
  exact ahead behind

/-- Recording one new value at an address whose other values stay behind it. -/
theorem Fresh.store (distinct : timeline.Distinct) {before after : World P}
    {stored : List (P.Address × P.Hash)} (fresh : Fresh keys hashes timeline before stored)
    {address : P.Address} {state : P.Nonce} {links : List (P.Address × P.Hash)}
    (same : after.slot = before.slot)
    (others : ∀ other, other ≠ address → after.ledger other = before.ledger other)
    (held : Initialized (after.ledger address) state)
    (slot : state.initializeSlot ≤ before.slot)
    (stamped : Stamped keys hashes timeline address state.initializeSlot links state.nonce)
    (ahead : ¬ Behind keys hashes timeline before address state.initializeSlot links)
    (overtakes : ∀ slot' links', Behind keys hashes timeline before address slot' links' →
      slot' < state.initializeSlot ∨ slot' = state.initializeSlot ∧ links' <+: links) :
    Fresh keys hashes timeline after (stored ++ [(address, state.nonce)]) := by
  have lands {slot' : UInt64} {links' : List (P.Address × P.Hash)}
      (below : slot' < state.initializeSlot ∨ slot' = state.initializeSlot ∧ links' <+: links) :
      Behind keys hashes timeline after address slot' links' := by
    constructor
    · intro found current now reached
      obtain rfl := now.unique held
      obtain ⟨-, -, rfl⟩ := reached.unique distinct stamped
      exact below
    · exact fun none => absurd held (none state)
  -- Any older value of this incarnation is a prefix of the new one.
  have shorter {value : P.Hash} {links' : List (P.Address × P.Hash)}
      (old : (address, value) ∈ stored)
      (reached : Stamped keys hashes timeline address state.initializeSlot links' value) :
      links' <+: links := by
    obtain ⟨slot'', links'', reached', behind⟩ := fresh.past address value old
    obtain ⟨-, rfl, rfl⟩ := reached.unique distinct reached'
    rcases overtakes _ _ behind with less | ⟨-, below⟩
    · exact absurd less (UInt64.lt_irrefl _)
    · exact below
  refine ⟨?_, ?_, ?_, ?_⟩
  · rw [List.map_append, List.nodup_append]
    refine ⟨fresh.unique, List.nodup_singleton _, ?_⟩
    rintro value old fresh' new rfl
    obtain rfl := List.mem_singleton.mp new
    exact fresh.unstored distinct stamped ahead old
  · intro other found now
    by_cases here : other = address
    · subst here
      obtain rfl := now.unique held
      exact ⟨List.mem_append_right _ List.mem_cons_self, same ▸ slot, links, stamped⟩
    · rw [others other here] at now
      obtain ⟨listed, early, reached⟩ := fresh.current other found now
      exact ⟨List.mem_append_left _ listed, same ▸ early, reached⟩
  · intro other value member
    rcases List.mem_append.mp member with old | new
    · obtain ⟨slot', links', reached, behind⟩ := fresh.past other value old
      refine ⟨slot', links', reached, ?_⟩
      by_cases here : other = address
      · subst here
        exact lands (overtakes slot' links' behind)
      · exact behind.of_same (others other here) same
    · obtain ⟨rfl, rfl⟩ := Prod.mk.inj (List.mem_singleton.mp new)
      exact ⟨_, links, stamped, lands (.inr ⟨rfl, List.prefix_refl _⟩)⟩
  · intro other value value' slot' left right one two reached reached'
    rcases List.mem_append.mp one with old | new <;>
      rcases List.mem_append.mp two with old' | new'
    · exact fresh.path other value value' slot' left right old old' reached reached'
    · obtain ⟨rfl, rfl⟩ := Prod.mk.inj (List.mem_singleton.mp new')
      obtain ⟨-, rfl, rfl⟩ := reached'.unique distinct stamped
      exact .inl (shorter old reached)
    · obtain ⟨rfl, rfl⟩ := Prod.mk.inj (List.mem_singleton.mp new)
      obtain ⟨-, rfl, rfl⟩ := reached.unique distinct stamped
      exact .inr (shorter old' reached')
    · obtain ⟨rfl, rfl⟩ := Prod.mk.inj (List.mem_singleton.mp new)
      obtain ⟨-, rfl⟩ := Prod.mk.inj (List.mem_singleton.mp new')
      obtain ⟨-, -, rfl⟩ := reached.unique distinct reached'
      exact .inl (List.prefix_refl _)

theorem Fresh.step (distinct : timeline.Distinct) {transition : Transition P}
    {stored : List (P.Address × P.Hash)}
    (fresh : Fresh keys hashes timeline transition.before stored)
    (effect : StoreEffect timeline transition) :
    Fresh keys hashes timeline transition.after (stored ++ transition.stored) := by
  cases effect with
  | nothing nothing forward fewer closed =>
      rw [nothing, List.append_nil]
      refine ⟨fresh.unique, ?_, ?_, fresh.path⟩
      · intro address state held
        obtain ⟨listed, early, reached⟩ := fresh.current address state (fewer address state held)
        exact ⟨listed, UInt64.le_trans early forward, reached⟩
      · intro address value member
        obtain ⟨slot, links, stamped, behind⟩ := fresh.past address value member
        refine ⟨slot, links, stamped, ?_, ?_⟩
        · intro state current held reached
          exact behind.held state current (fewer address state held) reached
        · intro none
          refine UInt64.lt_of_lt_of_le ?_ forward
          by_cases was : ∃ state, Initialized (transition.before.ledger address) state
          · obtain ⟨state, held⟩ := was
            obtain ⟨-, -, current, reached⟩ := fresh.current address state held
            rcases closed address state held with still | less
            · exact absurd still (none state)
            · rcases behind.held state current held reached with earlier | ⟨same, -⟩
              · exact UInt64.lt_trans earlier less
              · exact same ▸ less
          · exact behind.free (not_exists.mp was)
  | @initialized address state entry new same others blank held slot latest value =>
      rw [new]
      have stamped : Stamped keys hashes timeline address state.initializeSlot [] state.nonce := by
        rw [value, slot]
        exact .root latest
      refine fresh.store distinct same others held (slot ▸ UInt64.le_refl _) stamped ?_ ?_
      · intro behind
        exact absurd (behind.free blank) (slot ▸ UInt64.lt_irrefl _)
      · intro slot' links' behind
        exact .inl (slot ▸ behind.free blank)
  | @advanced address old state transitionCommitment new same others before held slot value =>
      rw [new]
      obtain ⟨-, early, links, reached⟩ := fresh.current address old before
      have stamped : Stamped keys hashes timeline address state.initializeSlot
          (links ++ [(address, transitionCommitment)]) state.nonce := by
        rw [value, slot]
        exact reached.after [(address, transitionCommitment)]
      refine fresh.store distinct same others held (slot ▸ early) stamped ?_ ?_
      · intro behind
        rcases behind.held old links before reached with less | ⟨-, deep⟩
        · exact absurd less (slot ▸ UInt64.lt_irrefl _)
        · have length := deep.length_le
          rw [List.length_append, List.length_singleton] at length
          omega
      · intro slot' links' behind
        rcases behind.held old links before reached with less | ⟨same, below⟩
        · exact .inl (slot ▸ less)
        · exact .inr ⟨slot ▸ same, below.trans (List.prefix_append _ _)⟩

theorem NonceRun.fresh (distinct : timeline.Distinct) {start final : World P}
    {transitions : List (Transition P)} {stored : List (P.Address × P.Hash)}
    (run : NonceRun timeline start transitions final) (funded : AllFunded start.ledger)
    (fresh : Fresh keys hashes timeline start stored) :
    Fresh keys hashes timeline final (stored ++ storedBy transitions) := by
  induction run generalizing stored with
  | nil => simpa using fresh
  | cons valid rest ih =>
      have next := ih (valid.allFunded funded) (fresh.step distinct (valid.storeEffect funded))
      simpa only [storedBy_cons, List.append_assoc] using next

end Chain

/-- What an account holds after a run it held before, or the run stored it. -/
theorem NonceRun.held_or_stored {timeline : Timeline P} {start final : World P}
    {transitions : List (Transition P)} (run : NonceRun timeline start transitions final)
    (funded : AllFunded start.ledger) {address : P.Address} {state : P.Nonce}
    (held : Initialized (final.ledger address) state) :
    Initialized (start.ledger address) state ∨ (address, state.nonce) ∈ storedBy transitions := by
  induction run with
  | nil => exact .inl held
  | @cons world next final event later valid rest ih =>
      rw [storedBy_cons]
      rcases ih (valid.allFunded funded) held with opened | listed
      · cases valid.storeEffect funded with
        | nothing _ _ fewer => exact .inl (fewer address state opened)
        | @initialized there found _ new _ others _ fresh =>
            by_cases here : address = there
            · subst here
              rw [opened.unique fresh, new]
              exact .inr (List.mem_append_left _ List.mem_cons_self)
            · exact .inl (others address here ▸ opened)
        | @advanced there _ found _ new _ others _ fresh =>
            by_cases here : address = there
            · subst here
              rw [opened.unique fresh, new]
              exact .inr (List.mem_append_left _ List.mem_cons_self)
            · exact .inl (others address here ▸ opened)
      · exact .inr (List.mem_append_right _ listed)

/-- No nonce value is stored twice: not at two addresses, and not again at one that
no longer held it, whatever closes and re-creates the account in between. -/
theorem nonce_freshness (keys : P.KeyLaws) (hashes : P.HashLaws) {timeline : Timeline P}
    (distinct : timeline.Distinct) {start one two three : World P}
    {early middle late : List (Transition P)} (genesis : Genesis start.ledger)
    (first : NonceRun timeline start early one) (second : NonceRun timeline one middle two)
    (third : NonceRun timeline two late three) :
    ((storedBy (early ++ middle ++ late)).map Prod.snd).Nodup ∧
    (∀ address other state state', Initialized (one.ledger address) state →
      Initialized (two.ledger other) state' → state.nonce = state'.nonce → address = other) ∧
    ∀ address state state', Initialized (one.ledger address) state →
      (∀ between, Initialized (two.ledger address) between → between.nonce ≠ state.nonce) →
      Initialized (three.ledger address) state' → state'.nonce ≠ state.nonce := by
  have start_fresh : Fresh keys hashes timeline start [] := genesis.fresh _ _ _
  have one_fresh := first.fresh distinct genesis.allFunded start_fresh
  have one_funded := (first.allFunded genesis.allFunded).1
  have two_fresh := second.fresh distinct one_funded one_fresh
  have two_funded := (second.allFunded one_funded).1
  have three_fresh := third.fresh distinct two_funded two_fresh
  refine ⟨?_, ?_, ?_⟩
  · simpa only [List.nil_append, storedBy_append] using three_fresh.unique
  · intro address other state state' held held' same
    have listed := List.mem_append_left (storedBy middle) (one_fresh.current address state held).1
    have listed' := (two_fresh.current other state' held').1
    rw [← same] at listed'
    have equal := List.inj_on_of_nodup_map two_fresh.unique listed listed' rfl
    exact congrArg Prod.fst equal
  · intro address state state' held gone held' same
    rcases third.held_or_stored two_funded held' with still | again
    · exact gone state' still same
    · have listed := List.mem_append_left (storedBy middle) (one_fresh.current address state held).1
      have unique := three_fresh.unique
      rw [List.map_append, List.nodup_append] at unique
      refine unique.2.2 _ (List.mem_map_of_mem listed) _ (List.mem_map_of_mem again) ?_
      exact same.symm

/-- The values an account opened and advanced once has held. -/
theorem nonce_freshness_reference :
    ((storedBy [Reference.opening, Reference.advancing]).map Prod.snd).Nodup :=
  (nonce_freshness Reference.keyLaws Reference.hashLaws Timeline.reference_distinct
    Reference.genesis Reference.opening_run Reference.advancing_run .nil).1

end ProgrammaticSigner
