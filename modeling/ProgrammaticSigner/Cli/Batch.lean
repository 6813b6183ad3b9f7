import ProgrammaticSigner.Cli.Summary

set_option autoImplicit false

/- Presigned messages run only in order. Each commits to the one before it through the
nonce it expects, so an attempt out of turn presents a value the account does not hold. -/
namespace ProgrammaticSigner

variable {P : Platform}

/-- The runtime's answer to a CPI of the executor: check the privileges, then run the
nonce program or whatever program is called. -/
def answerCpi (sysvars : P.Sysvars)
    (others : P.Ledger → P.Instruction → Except ProgramError P.Ledger)
    (caller : P.Instruction) (ledger : P.Ledger) (cpi : P.Cpi) :
    Except ProgramError P.Ledger := do
  Outcome.ensure (cpi.Permitted caller) .privilegeEscalation
  if cpi.instruction.programId = P.nonceProgram then invokeNonce sysvars ledger cpi.instruction
  else others ledger cpi.instruction

/-- One `Execute` instruction, with its CPIs answered in order. -/
def attemptExecute (sysvars : P.Sysvars)
    (others : P.Ledger → P.Instruction → Except ProgramError P.Ledger)
    (instruction : P.Instruction) (ledger : P.Ledger) : Except ProgramError P.Ledger :=
  ((processExecutorInstruction ledger instruction.views instruction.data).run
    (answerCpi sysvars others instruction) ledger).map Prod.snd

/-- The nonce account has the owner and the data it had. -/
def KeepsNonce (nonceAccount : P.Address) (before after : P.Ledger) : Prop :=
  (after nonceAccount).owner = (before nonceAccount).owner ∧
    (after nonceAccount).data = (before nonceAccount).data

/-- The message's own instructions succeed here and leave the nonce account alone. -/
def Benign (nonceAccount : P.Address) (answer : P.Ledger → P.Cpi → Except ProgramError P.Ledger)
    (message : P.Message) (ledger : P.Ledger) : Prop :=
  ∃ final, (message.instructions.map (executionCpi message)).foldlM answer ledger = .ok final ∧
    KeepsNonce nonceAccount ledger final

/-- Attempts in a row, with whether each succeeded. One that fails changes nothing, and
nothing around the attempts touches the nonce account. -/
inductive Attempts (nonceAccount nonceAuthority : P.Address) :
    P.Ledger → List (P.Message × Bool) → P.Ledger → Prop where
  | nil {ledger : P.Ledger} : Attempts nonceAccount nonceAuthority ledger [] ledger
  | meanwhile {ledger next final : P.Ledger} {tried : List (P.Message × Bool)}
      (kept : KeepsNonce nonceAccount ledger next)
      (rest : Attempts nonceAccount nonceAuthority next tried final) :
      Attempts nonceAccount nonceAuthority ledger tried final
  | succeeded {ledger next final : P.Ledger} {tried : List (P.Message × Bool)}
      {sysvars : P.Sysvars} {others : P.Ledger → P.Instruction → Except ProgramError P.Ledger}
      {instruction : P.Instruction} {message : P.Message}
      (carries : Carries instruction nonceAccount nonceAuthority message)
      (benign : ∀ state, Initialized (ledger nonceAccount) state →
        Benign nonceAccount (answerCpi sysvars others instruction) message
          (advanceLedger ledger nonceAccount state (deriveTransitionCommitment (.v1 message))))
      (returned : attemptExecute sysvars others instruction ledger = .ok next)
      (rest : Attempts nonceAccount nonceAuthority next tried final) :
      Attempts nonceAccount nonceAuthority ledger ((message, true) :: tried) final
  | failed {ledger final : P.Ledger} {tried : List (P.Message × Bool)}
      {sysvars : P.Sysvars} {others : P.Ledger → P.Instruction → Except ProgramError P.Ledger}
      {instruction : P.Instruction} {message : P.Message} {reason : ProgramError}
      (carries : Carries instruction nonceAccount nonceAuthority message)
      (benign : ∀ state, Initialized (ledger nonceAccount) state →
        Benign nonceAccount (answerCpi sysvars others instruction) message
          (advanceLedger ledger nonceAccount state (deriveTransitionCommitment (.v1 message))))
      (aborted : attemptExecute sysvars others instruction ledger = .error reason)
      (rest : Attempts nonceAccount nonceAuthority ledger tried final) :
      Attempts nonceAccount nonceAuthority ledger ((message, false) :: tried) final

/-- The attempts that succeeded, in order. -/
def succeededOf (tried : List (P.Message × Bool)) : List P.Message :=
  (tried.filter Prod.snd).map Prod.fst

/-- What should succeed: the messages of the batch, each once its turn has come. -/
def inOrder : List P.Message → List P.Message → List P.Message
  | [], _ => []
  | _, [] => []
  | next :: batch, message :: tried =>
      if message = next then next :: inOrder batch tried else inOrder (next :: batch) tried

/-- A message that may execute: valid, and without a transaction config. -/
def Executable (message : P.Message) : Prop := P.validate message = .ok () ∧ message.config = default

theorem KeepsNonce.initialized {nonceAccount : P.Address} {before after : P.Ledger}
    (kept : KeepsNonce nonceAccount before after) {state : P.Nonce}
    (held : Initialized (before nonceAccount) state) : Initialized (after nonceAccount) state :=
  ⟨kept.1.trans held.1, by rw [kept.2]; exact held.2⟩

section Attempt

variable {sysvars : P.Sysvars} {others : P.Ledger → P.Instruction → Except ProgramError P.Ledger}
  {instruction : P.Instruction} {nonceAccount : P.Address} {message : P.Message}
  {ledger : P.Ledger} {state : P.Nonce}

/-- In its turn an attempt advances the nonce to the predicted value. -/
theorem attemptExecute_current (keys : P.KeyLaws) (messages : P.MessageLaws)
    (carries : Carries instruction nonceAccount state.authority message)
    (executable : Executable message) (held : Initialized (ledger nonceAccount) state)
    (positive : 0 < state.initializeSlot) (current : message.lifetimeSpecifier = state.nonce)
    (benign : Benign nonceAccount (answerCpi sysvars others instruction) message
      (advanceLedger ledger nonceAccount state (deriveTransitionCommitment (.v1 message)))) :
    ∃ final, attemptExecute sysvars others instruction ledger = .ok final ∧
      Initialized (final nonceAccount) { state with nonce := nextNonce nonceAccount message } := by
  obtain ⟨final, ran, kept⟩ := benign
  have advance := carries.covers _ List.mem_cons_self
  have committed : invokeNonce sysvars ledger (NonceClient.advance state.authority nonceAccount
      message.lifetimeSpecifier (deriveTransitionCommitment (.v1 message))) =
        .ok (advanceLedger ledger nonceAccount state (deriveTransitionCommitment (.v1 message))) :=
    (invokeNonce_advance_ok_iff keys).mpr ⟨state, held, rfl, current, rfl⟩
  have answered : answerCpi sysvars others instruction ledger
      ⟨NonceClient.advance state.authority nonceAccount message.lifetimeSpecifier
        (deriveTransitionCommitment (.v1 message)), []⟩ =
        .ok (advanceLedger ledger nonceAccount state (deriveTransitionCommitment (.v1 message))) := by
    have program : (NonceClient.advance state.authority nonceAccount message.lifetimeSpecifier
      (deriveTransitionCommitment (.v1 message))).programId = P.nonceProgram := rfl
    simp only [answerCpi, Outcome.ensure, if_pos advance, if_pos program, committed]
    rfl
  refine ⟨final, ?_, kept.initialized ?_⟩
  · rw [attemptExecute, carries.issues messages executable.1 executable.2 held current,
      executionCpis, Issued.run_call, answered]
    simp only [Except.bind, Issued.run, ran]
    rfl
  · rw [advanceLedger, Function.update_self, nextNonce_eq current]
    exact initialized_sized held.1 positive

variable (sysvars others) in
/-- Out of turn it is refused. -/
theorem attemptExecute_stale (messages : P.MessageLaws) {nonceAuthority : P.Address}
    (carries : Carries instruction nonceAccount nonceAuthority message)
    (executable : Executable message) (held : Initialized (ledger nonceAccount) state)
    (stale : message.lifetimeSpecifier ≠ state.nonce) :
    ∃ reason, attemptExecute sysvars others instruction ledger = .error reason := by
  obtain ⟨authority, account, program, rest, shape, -, rfl, -⟩ := carries.shape
  have fits := messages.serializes message executable.1
  obtain ⟨reason, refused⟩ := processExecutorInstruction_stale messages (carries.decoded fits)
    shape fun other now => now.unique held ▸ stale
  exact ⟨reason, by rw [attemptExecute, refused, Issued.run_fail]; rfl⟩

end Attempt

theorem inOrder_nil (tried : List P.Message) : inOrder [] tried = [] := by
  cases tried <;> rfl

theorem nonceAfter_succ {nonceAccount : P.Address} {nonce : P.Hash} {batch : List P.Message}
    {count : Nat} {message : P.Message} (here : batch[count]? = some message) :
    nonceAfter nonceAccount nonce (batch.take (count + 1)) = nextNonce nonceAccount message := by
  rw [List.take_add_one, here, nonceAfter, Option.toList_some, List.getLast?_concat,
    Option.elim_some]

/-- From any point of a batch, the attempts that succeed go on with it in order. -/
theorem Attempts.in_order (keys : P.KeyLaws) (hashes : P.HashLaws) (messages : P.MessageLaws)
    {nonceAccount nonceAuthority : P.Address} {nonce : P.Hash} {batch : List P.Message}
    (presigned : Presigned nonceAccount nonce batch)
    (executable : ∀ message ∈ batch, Executable message) {ledger final : P.Ledger}
    {tried : List (P.Message × Bool)}
    (attempts : Attempts nonceAccount nonceAuthority ledger tried final)
    (drawn : ∀ attempt ∈ tried, attempt.1 ∈ batch) {count : Nat} (short : count ≤ batch.length)
    {state : P.Nonce} (authorized : state.authority = nonceAuthority)
    (positive : 0 < state.initializeSlot) (held : Initialized (ledger nonceAccount) state)
    (reached : state.nonce = nonceAfter nonceAccount nonce (batch.take count)) :
    succeededOf tried = inOrder (batch.drop count) (tried.map Prod.fst) ∧
    ∃ more, count + more ≤ batch.length ∧ succeededOf tried = (batch.drop count).take more ∧
      Initialized (final nonceAccount)
        { state with nonce := nonceAfter nonceAccount nonce (batch.take (count + more)) } := by
  induction attempts generalizing count state with
  | nil =>
      refine ⟨?_, 0, short, rfl, reached ▸ held⟩
      cases batch.drop count <;> rfl
  | meanwhile kept rest ih =>
      exact ih drawn short authorized positive (kept.initialized held) reached
  | @succeeded ledger next final tried sysvars others instruction message carries benign returned
      rest ih =>
      have member := drawn _ List.mem_cons_self
      obtain ⟨index, listed⟩ := List.mem_iff_getElem?.mp member
      obtain rfl := authorized
      have current : message.lifetimeSpecifier = state.nonce := by
        by_contra stale
        obtain ⟨reason, aborted⟩ := attemptExecute_stale sysvars others messages carries
          (executable _ member) held stale
        rw [returned] at aborted
        cases aborted
      obtain rfl := presigned.turn keys hashes listed short (current.trans reached)
      obtain ⟨inside, here⟩ := List.getElem?_eq_some_iff.mp listed
      obtain ⟨found, returned', advanced⟩ := attemptExecute_current keys messages carries
        (executable _ member) held positive current (benign state held)
      obtain rfl := Except.ok.inj (returned'.symm.trans returned)
      obtain ⟨ordered, more, room, taken, last⟩ := @ih
        (fun attempt later => drawn attempt (List.mem_cons_of_mem _ later)) (index + 1) inside
        { state with nonce := nextNonce nonceAccount message } rfl positive advanced
        (nonceAfter_succ listed).symm
      have drop : batch.drop index = message :: batch.drop (index + 1) := by
        rw [List.drop_eq_getElem_cons inside, here]
      have head : succeededOf ((message, true) :: tried) = message :: succeededOf tried := rfl
      refine ⟨?_, more + 1, by omega, ?_, ?_⟩
      · rw [head, ordered, drop, List.map_cons, inOrder, if_pos rfl]
      · rw [head, taken, drop, List.take_succ_cons]
      · rw [show index + (more + 1) = index + 1 + more by omega]
        exact last
  | @failed ledger final tried sysvars others instruction message reason carries benign aborted
      rest ih =>
      have member := drawn _ List.mem_cons_self
      obtain ⟨index, listed⟩ := List.mem_iff_getElem?.mp member
      obtain rfl := authorized
      obtain ⟨ordered, found⟩ := ih
        (fun attempt later => drawn attempt (List.mem_cons_of_mem _ later)) short rfl positive
        held reached
      refine ⟨?_, found⟩
      have head : succeededOf ((message, false) :: tried) = succeededOf tried := rfl
      rw [head, ordered, List.map_cons]
      by_cases more : count < batch.length
      · rw [List.drop_eq_getElem_cons more, inOrder, if_neg]
        rintro rfl
        -- The batch's next message would have succeeded.
        have here : batch[count]? = some batch[count] := List.getElem?_eq_getElem more
        have current : batch[count].lifetimeSpecifier = state.nonce := by
          rw [presigned.lifetime keys hashes here, reached, presigned.nonceAfter_eq keys hashes]
        obtain ⟨next, returned, -⟩ := attemptExecute_current keys messages carries
          (executable _ member) held positive current (benign state held)
        rw [returned] at aborted
        cases aborted
      · rw [List.drop_eq_nil_of_le (by omega), inOrder_nil, inOrder_nil]

/-- An `Execute` of the message on the nonce account. -/
def ExecutesOn (instruction : P.Instruction) (nonceAccount : P.Address) (message : P.Message) :
    Prop :=
  ∃ authority account rest, instruction.views = authority :: account :: rest ∧
    account.address = nonceAccount ∧
    ExecutorInstruction.tryFromBytes instruction.data = .ok (.execute (.v1 message))

/-- An execution of the message has begun: its advance is done, and its own instructions
come next. -/
def Begun (sysvars : P.Sysvars) (ledger : P.Ledger) (nonceAccount : P.Address)
    (message : P.Message) (advanced : P.Ledger) : Prop :=
  ∃ instruction cpi calls, ExecutesOn instruction nonceAccount message ∧
    (processExecutorInstruction ledger instruction.views instruction.data).calls = cpi :: calls ∧
    invokeNonce sysvars ledger cpi.instruction = .ok advanced

/-- An execution begins by advancing the account it names to the predicted value. -/
theorem Begun.advances (keys : P.KeyLaws) (messages : P.MessageLaws) {sysvars : P.Sysvars}
    {ledger advanced : P.Ledger} {nonceAccount : P.Address} {message : P.Message}
    (begun : Begun sysvars ledger nonceAccount message advanced) :
    ∃ authority state, Initialized (ledger nonceAccount) state ∧
      message.lifetimeSpecifier = state.nonce ∧ P.messageWire.Fits (.v1 message) ∧
      invokeNonce sysvars ledger (NonceClient.advance authority nonceAccount state.nonce
        (deriveTransitionCommitment (.v1 message))) = .ok advanced ∧
      advanced = advanceLedger ledger nonceAccount state
        (deriveTransitionCommitment (.v1 message)) := by
  obtain ⟨instruction, cpi, calls, ⟨authority, account, rest, shape, rfl, decoded⟩, issued,
    committed⟩ := begun
  obtain ⟨authority', account', found, state, decoded', executes, all⟩ :=
    processExecutorInstruction_accepts messages (Issued.not_refused_of_mem
      (issued ▸ List.mem_cons_self))
  obtain ⟨program, messageAccounts, shape', -⟩ := executes.shape
  obtain ⟨rfl, tail⟩ := List.cons.inj (shape.symm.trans shape')
  obtain ⟨rfl, -⟩ := List.cons.inj tail
  rw [decoded] at decoded'
  obtain rfl := VersionedMessage.v1.inj (ExecutorInstruction.execute.inj (Except.ok.inj decoded'))
  rw [all] at issued
  obtain ⟨rfl, -⟩ := List.cons.inj issued
  obtain ⟨now, held, -, current, written⟩ := (invokeNonce_advance_ok_iff keys).mp committed
  rw [current] at committed
  exact ⟨authority.address, now, held, current,
    (ExecutorInstruction.tryFromBytes_ok_iff.mp decoded).1, committed, written⟩

section Diverged

variable {keys : P.KeyLaws} {hashes : P.HashLaws} {timeline : Timeline P}

/-- While an account stays open, its values go down one chain. -/
theorem StoreEffect.reaches {transition : Transition P} (effect : StoreEffect timeline transition)
    {address : P.Address} {state state' : P.Nonce}
    (held : Initialized (transition.before.ledger address) state)
    (held' : Initialized (transition.after.ledger address) state') :
    ∃ links, state'.nonce = (nonceChain keys hashes).after state.nonce links := by
  cases effect with
  | nothing _ _ fewer =>
      obtain rfl := (fewer address state' held').unique held
      exact ⟨[], rfl⟩
  | @initialized there found _ _ _ others blank _ =>
      by_cases here : address = there
      · exact absurd (here ▸ held) (blank state)
      · rw [others address here] at held'
        exact ⟨[], by rw [held'.unique held]; rfl⟩
  | @advanced there old found commitment _ _ others before now _ value =>
      by_cases here : address = there
      · subst here
        obtain rfl := held.unique before
        obtain rfl := held'.unique now
        exact ⟨[(address, commitment)], value⟩
      · rw [others address here] at held'
        exact ⟨[], by rw [held'.unique held]; rfl⟩

theorem NonceRun.reaches {start final : World P} {transitions : List (Transition P)}
    (run : NonceRun timeline start transitions final) (funded : AllFunded start.ledger)
    {address : P.Address}
    (stays : ∀ transition ∈ transitions, ∃ state, Initialized (transition.after.ledger address) state)
    {state state' : P.Nonce} (held : Initialized (start.ledger address) state)
    (held' : Initialized (final.ledger address) state') :
    ∃ links, state'.nonce = (nonceChain keys hashes).after state.nonce links := by
  induction run generalizing state with
  | nil => exact ⟨[], by rw [held.unique held']; rfl⟩
  | cons valid rest ih =>
      obtain ⟨middle, opened⟩ := stays _ List.mem_cons_self
      obtain ⟨first, reached⟩ := @StoreEffect.reaches _ keys hashes _ _
        (valid.storeEffect funded) _ _ _ held opened
      obtain ⟨links, last⟩ := ih (valid.allFunded funded)
        (fun transition member => stays transition (List.mem_cons_of_mem _ member)) opened held'
      exact ⟨first ++ links, by rw [OneWay.after_append, ← reached, last]⟩

/-- Once another message took its turn, what was presigned behind a message is never
current again: while the account stays open, and with distinct slot hashes ever. -/
theorem Begun.overtakes (keys : P.KeyLaws) (hashes : P.HashLaws) (messages : P.MessageLaws)
    {start here later : World P} {early transitions : List (Transition P)}
    {nonceAccount : P.Address} {message other successor : P.Message} {advanced : P.Ledger}
    (genesis : Genesis start.ledger) (history : NonceRun timeline start early here)
    (begun : Begun (timeline.sysvars here.slot) here.ledger nonceAccount other advanced)
    (turn : other.lifetimeSpecifier = message.lifetimeSpecifier)
    (fits : P.messageWire.Fits (.v1 message)) (differs : other ≠ message)
    (run : NonceRun timeline ⟨here.slot, advanced⟩ transitions later)
    (lasting : (∀ transition ∈ transitions, ∃ state,
      Initialized (transition.after.ledger nonceAccount) state) ∨ timeline.Distinct)
    {links : List (P.Address × P.Hash)}
    (behind : successor.lifetimeSpecifier = (nonceChain keys hashes).after
      message.lifetimeSpecifier (executionLink nonceAccount message :: links))
    {state : P.Nonce} (held : Initialized (later.ledger nonceAccount) state) :
    successor.lifetimeSpecifier ≠ state.nonce := by
  intro current
  have here_funded := (history.allFunded genesis.allFunded).1
  obtain ⟨authority, now, opened, expected, fits', committed, written⟩ :=
    begun.advances keys messages
  have moved : Transition.Valid timeline ⟨here, .invoked (NonceClient.advance authority
      nonceAccount now.nonce (deriveTransitionCommitment (.v1 other))), ⟨here.slot, advanced⟩⟩ :=
    .invoked rfl committed
  have opened' : Initialized (advanced nonceAccount)
      ⟨(nonceChain keys hashes).after now.nonce [executionLink nonceAccount other],
        now.authority, now.initializeSlot⟩ := by
    rw [written, advanceLedger, Function.update_self]
    exact initialized_sized opened.1 (here_funded nonceAccount now opened).slot
  have clash : executionLink nonceAccount other ≠ executionLink nonceAccount message :=
    fun same => differs (executionLink_inj hashes fits' fits same)
  rw [← turn, expected] at behind
  rcases lasting with stays | distinct
  · obtain ⟨more, reached⟩ := @NonceRun.reaches _ keys hashes _ _ _ _ run
      (moved.allFunded here_funded) _ stays _ _ opened' held
    rw [← OneWay.after_append, ← current, behind] at reached
    exact clash (List.cons.inj ((nonceChain keys hashes).after_inj
      (nonceChain_acyclic keys hashes) reached)).1.symm
  · have whole := history.append (.cons moved run)
    have fresh := whole.fresh distinct genesis.allFunded (genesis.fresh keys hashes timeline)
    have fresh' := (history.append (.cons moved .nil)).fresh distinct genesis.allFunded
      (genesis.fresh keys hashes timeline)
    obtain ⟨-, -, path, stamped⟩ := (history.fresh distinct genesis.allFunded
      (genesis.fresh keys hashes timeline)).current nonceAccount now opened
    have taken := stamped.after [executionLink nonceAccount other]
    have presigned := stamped.after (executionLink nonceAccount message :: links)
    rw [← behind, current] at presigned
    -- Both values were stored in one incarnation, so one leads to the other.
    have first := (fresh'.current nonceAccount _ opened').1
    have second := (fresh.current nonceAccount state held).1
    have first' := List.mem_append_left (storedBy transitions) first
    simp only [List.nil_append, storedBy_append, storedBy_cons, storedBy_nil, List.append_nil,
      List.append_assoc] at first' second
    rcases fresh.path nonceAccount _ _ _ _ _ (by simpa using first') (by simpa using second) taken
      presigned with below | below
    · rw [List.prefix_append_right_inj, List.cons_prefix_cons] at below
      exact clash below.1
    · rw [List.prefix_append_right_inj, List.cons_prefix_cons] at below
      exact clash below.1.symm

end Diverged

/-- A presigned batch runs only in order. Of any attempts, in any order and with any
repeats, those succeed whose turn has come, and they leave the predicted nonce; and once
another message took a turn, nothing behind that turn executes again. -/
theorem presigned_batch_in_order (keys : P.KeyLaws) (hashes : P.HashLaws)
    (messages : P.MessageLaws) {timeline : Timeline P} {start world : World P}
    {early : List (Transition P)} (genesis : Genesis start.ledger)
    (history : NonceRun timeline start early world) {nonceAccount : P.Address} {state : P.Nonce}
    (held : Initialized (world.ledger nonceAccount) state) {batch : List P.Message}
    (presigned : Presigned nonceAccount state.nonce batch)
    (executable : ∀ message ∈ batch, Executable message) :
    (∀ tried final, Attempts nonceAccount state.authority world.ledger tried final →
      (∀ attempt ∈ tried, attempt.1 ∈ batch) →
      succeededOf tried = inOrder batch (tried.map Prod.fst) ∧ succeededOf tried <+: batch ∧
        batch.Nodup ∧ Initialized (final nonceAccount)
          { state with nonce := nonceAfter nonceAccount state.nonce (succeededOf tried) }) ∧
    ∀ index message other position successor, batch[index]? = some message →
      other ≠ message → index < position → batch[position]? = some successor →
      ∀ middle here advanced transitions later, NonceRun timeline world middle here →
      Begun (timeline.sysvars here.slot) here.ledger nonceAccount other advanced →
      other.lifetimeSpecifier = nonceAfter nonceAccount state.nonce (batch.take index) →
      NonceRun timeline ⟨here.slot, advanced⟩ transitions later →
      ((∀ transition ∈ transitions, ∃ open_,
        Initialized (transition.after.ledger nonceAccount) open_) ∨ timeline.Distinct) →
      ∀ instruction, ExecutesOn instruction nonceAccount successor →
        (processExecutorInstruction later.ledger instruction.views instruction.data).Refused := by
  have funded := (history.allFunded genesis.allFunded).1
  refine ⟨?_, ?_⟩
  · intro tried final attempts drawn
    obtain ⟨ordered, more, -, taken, last⟩ := attempts.in_order keys hashes messages presigned
      executable drawn (Nat.zero_le _) rfl (funded nonceAccount state held).slot held rfl
    rw [List.drop_zero] at ordered taken
    rw [Nat.zero_add, ← taken] at last
    exact ⟨ordered, taken ▸ List.take_prefix _ _, presigned.nodup keys hashes, last⟩
  · intro index message other position successor listed differs behind next middle here advanced
      transitions later reached begun turn run lasting instruction
      ⟨authority, account, rest, shape, same, decoded⟩
    have fits := messages.serializes message (executable _ (List.mem_of_getElem? listed)).1
    obtain ⟨links, chained⟩ := presigned.successor keys hashes listed next behind
    rw [presigned.nonceAfter_eq keys hashes, ← presigned.lifetime keys hashes listed] at turn
    refine processExecutorInstruction_stale messages decoded shape fun found now => ?_
    rw [same] at now
    exact begun.overtakes keys hashes messages genesis (history.append reached) turn fits differs
      run lasting chained now

namespace Reference

/-- What every other program answers: it writes nothing. -/
def quiet (ledger : Platform.reference.Ledger) (_ : Platform.reference.Instruction) :
    Except ProgramError Platform.reference.Ledger := .ok ledger

theorem benign {lifetime : List UInt8}
    (carried : Carries (ExecutorClient.execute nonceAccount nonceAuthority
      { message with lifetimeSpecifier := lifetime }) nonceAccount nonceAuthority
      { message with lifetimeSpecifier := lifetime }) (sysvars : Platform.reference.Sysvars)
    (ledger : Platform.reference.Ledger) :
    Benign nonceAccount (answerCpi sysvars quiet (ExecutorClient.execute nonceAccount
      nonceAuthority { message with lifetimeSpecifier := lifetime }))
      { message with lifetimeSpecifier := lifetime } ledger := by
  have permitted := carried.covers _ (List.mem_cons_of_mem _ List.mem_cons_self)
  refine ⟨ledger, (List.foldlM_cons ..).trans (Outcome.bind_of_ok ?_), rfl, rfl⟩
  rw [answerCpi, Outcome.ensure, if_pos permitted]
  rfl

/-- Another call in the first message's turn. -/
def rival : Platform.reference.Message := { message with instructions := [⟨1, [0], [8]⟩] }

theorem rival_formed : rival.WellFormed where
  signatures := by decide
  readonlySigned := by decide
  addresses := by decide
  header := by decide
  distinct := by decide
  programs := by simp [rival, message]
  indexes := by simp [rival, message]

theorem rival_begun (sysvars : Platform.reference.Sysvars) :
    Begun sysvars opened nonceAccount rival
      (advanceLedger opened nonceAccount state (deriveTransitionCommitment (.v1 rival))) := by
  have carries := ExecutorClient.execute_carries nonceAccount nonceAuthority rival_formed
  obtain ⟨authority, account, program, rest, shape, -, named, -⟩ := carries.shape
  have decoded := carries.decoded (messageLaws.serializes rival (validate_ok rival_formed))
  have issued := congrArg Issued.calls
    (carries.issues messageLaws (validate_ok rival_formed) rfl held rfl)
  exact ⟨_, _, _, ⟨authority, account, program :: rest, shape, named, decoded⟩, issued,
    (invokeNonce_advance_ok_iff keyLaws).mpr ⟨state, held, rfl, rfl, rfl⟩⟩

end Reference

/-- Of two messages in a row, tried in the wrong order first, each executes in its turn; and
when another message takes the first turn, the second never executes. -/
theorem presigned_batch_in_order_reference :
    let tried := [(Reference.following, false), (Reference.message, true),
      (Reference.following, true)]
    (∃ final, Attempts Reference.nonceAccount Reference.nonceAuthority Reference.opened tried
        final ∧
      succeededOf tried =
        inOrder [Reference.message, Reference.following] (tried.map Prod.fst) ∧
      Initialized (final Reference.nonceAccount) { Reference.state with
        nonce := nextNonce Reference.nonceAccount Reference.following }) ∧
    ∃ advanced, Begun (Timeline.reference.sysvars 1) Reference.opened Reference.nonceAccount
        Reference.rival advanced ∧
      ∀ instruction, ExecutesOn instruction Reference.nonceAccount Reference.following →
        (processExecutorInstruction advanced instruction.views instruction.data).Refused := by
  intro tried
  let sysvars := Timeline.reference.sysvars 1
  have first : Executable Reference.message := ⟨Reference.message_valid, rfl⟩
  have second : Executable Reference.following := ⟨Reference.following_valid, rfl⟩
  have presigned : Presigned Reference.nonceAccount Reference.state.nonce
      [Reference.message, Reference.following] := ⟨rfl, rfl, trivial⟩
  have executable : ∀ message ∈ [Reference.message, Reference.following], Executable message := by
    simpa using And.intro first second
  have whole := @presigned_batch_in_order .reference Reference.keyLaws Reference.hashLaws
    Reference.messageLaws _ _ _ _ Reference.genesis Reference.opening_run _ _ Reference.held
    [Reference.message, Reference.following] presigned executable
  have untouched (ledger : Platform.reference.Ledger) :=
    Reference.benign Reference.message_carried sysvars ledger
  have untouched' (ledger : Platform.reference.Ledger) :=
    Reference.benign Reference.following_carried sysvars ledger
  obtain ⟨_, early⟩ := attemptExecute_stale sysvars Reference.quiet Reference.messageLaws
    Reference.following_carried second Reference.held (by decide)
  obtain ⟨middle, returned, advanced⟩ := attemptExecute_current Reference.keyLaws
    Reference.messageLaws Reference.message_carried first Reference.held (by decide) rfl
    (untouched _)
  obtain ⟨final, returned', advanced'⟩ := attemptExecute_current Reference.keyLaws
    Reference.messageLaws Reference.following_carried second advanced (by decide) rfl
    (untouched' _)
  have attempts : Attempts Reference.nonceAccount Reference.nonceAuthority Reference.opened tried
      final :=
    .failed Reference.following_carried (fun _ _ => untouched' _) early
      (.succeeded Reference.message_carried (fun _ _ => untouched _) returned
        (.succeeded Reference.following_carried (fun _ _ => untouched' _) returned' .nil))
  refine ⟨⟨final, attempts, (whole.1 _ _ attempts (by simp [tried])).1, advanced'⟩, _,
    Reference.rival_begun _, fun instruction executes => ?_⟩
  exact whole.2 0 Reference.message Reference.rival 1 Reference.following rfl (by decide)
    Nat.one_pos rfl _ _ _ _ _ .nil (Reference.rival_begun sysvars) rfl .nil
    (.inl fun _ among => absurd among List.not_mem_nil) instruction executes

end ProgrammaticSigner
