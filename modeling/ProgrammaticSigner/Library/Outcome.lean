import Mathlib

set_option autoImplicit false

/- Early-exit code read backward: what holds when it returned normally. -/
namespace Outcome

variable {Error Other α β : Type}

/-- Return early with `reason` unless the condition holds. -/
def ensure (condition : Prop) [Decidable condition] (reason : Error) : Except Error Unit :=
  if condition then .ok () else .error reason

/-- `Option::ok_or` -/
def okOr (found : Option α) (reason : Error) : Except Error α :=
  match found with
  | some value => .ok value
  | none => .error reason

@[simp] theorem bind_ok_iff {first : Except Error α} {next : α → Except Error β} {value : β} :
    (first >>= next) = .ok value ↔ ∃ middle, first = .ok middle ∧ next middle = .ok value := by
  cases first <;> simp [bind, Except.bind]

/-- The same after a check, which returns nothing. -/
@[simp high] theorem bind_unit_ok_iff {first : Except Error Unit}
    {next : Unit → Except Error β} {value : β} :
    (first >>= next) = .ok value ↔ first = .ok () ∧ next () = .ok value := by
  cases first <;> simp [bind, Except.bind]

@[simp] theorem pure_ok_iff {given value : α} :
    (pure given : Except Error α) = .ok value ↔ given = value := by
  simp [pure, Except.pure]

@[simp] theorem throw_ok_iff {reason : Error} {value : α} :
    (throw reason : Except Error α) = .ok value ↔ False := by
  simp [throw, throwThe, MonadExceptOf.throw]

@[simp] theorem ensure_ok_iff {condition : Prop} [Decidable condition] {reason : Error}
    {value : Unit} : ensure condition reason = .ok value ↔ condition := by
  unfold ensure
  split <;> simp_all

@[simp] theorem okOr_ok_iff {found : Option α} {reason : Error} {value : α} :
    okOr found reason = .ok value ↔ found = some value := by
  cases found <;> simp [okOr]

@[simp] theorem mapError_ok_iff {first : Except Error α} {rename : Error → Other} {value : α} :
    first.mapError rename = .ok value ↔ first = .ok value := by
  cases first <;> simp [Except.mapError]

theorem map_ok_iff {outcome : Except Error α} {wrap : α → β} {value : β} :
    outcome.map wrap = .ok value ↔ ∃ inner, outcome = .ok inner ∧ wrap inner = value := by
  cases outcome <;> simp [Except.map]

theorem bind_pure_eq_map (outcome : Except Error α) (wrap : α → β) :
    (outcome >>= fun value => pure (wrap value)) = outcome.map wrap := by
  cases outcome <;> rfl

/-- The left half of a sequence decides every error it raises. -/
theorem bind_error {first : Except Error α} {next : α → Except Error β} {reason : Error}
    (failed : first = .error reason) : (first >>= next) = .error reason := by
  rw [failed]
  rfl

theorem bind_of_ok {first : Except Error α} {next : α → Except Error β} {value : α}
    (returned : first = .ok value) : (first >>= next) = next value := by
  rw [returned]
  rfl

/-- Collecting succeeds when each element does, and keeps their order. -/
theorem mapM_ok_iff {check : α → Except Error β} {items : List α} {values : List β} :
    items.mapM check = .ok values ↔
      List.Forall₂ (fun item value => check item = .ok value) items values := by
  induction items generalizing values with
  | nil =>
      rw [List.mapM_nil, pure_ok_iff, List.forall₂_nil_left_iff]
      exact eq_comm
  | cons item items ih =>
      simp only [List.mapM_cons, bind_ok_iff, pure_ok_iff, ih, List.forall₂_cons_left_iff]
      grind

/-- A check of what may be there returns exactly when the check of what is there does. -/
theorem option_mapM_ok_iff {check : α → Except Error β} {found : Option α}
    {result : Option β} :
    found.mapM check = .ok result ↔ Option.Rel (fun value kept => check value = .ok kept) found
      result := by
  cases found with
  | none =>
      rw [Option.mapM_none, pure_ok_iff]
      constructor
      · intro same
        exact same ▸ .none
      · intro related
        cases related
        rfl
  | some value =>
      rw [Option.mapM_some]
      cases checked : check value with
      | error reason =>
          constructor
          · intro collected
            cases collected
          · intro related
            cases related with
            | some kept => cases checked.symm.trans kept
      | ok kept =>
          show Except.ok (some kept) = .ok result ↔ _
          constructor
          · intro same
            exact Except.ok.inj same ▸ .some checked
          · intro related
            cases related with
            | some found => rw [Except.ok.inj (checked.symm.trans found)]

/-- Collecting returns only after each element did. -/
theorem mapM_ok_of_mem {check : α → Except Error β} {items : List α} {values : List β}
    (collected : items.mapM check = .ok values) {item : α} (listed : item ∈ items) :
    ∃ value ∈ values, check item = .ok value := by
  have related := mapM_ok_iff.mp collected
  clear collected
  induction related with
  | nil => cases listed
  | cons here _ ih =>
      rcases List.mem_cons.mp listed with rfl | later
      · exact ⟨_, List.mem_cons_self, here⟩
      · obtain ⟨value, among, found⟩ := ih later
        exact ⟨value, List.mem_cons_of_mem _ among, found⟩

/-- Where each element has a value, all of them are collected. -/
theorem mapM_exists {check : α → Except Error β} {items : List α}
    (each : ∀ item ∈ items, ∃ value, check item = .ok value) :
    ∃ values, items.mapM check = .ok values ∧
      List.Forall₂ (fun item value => check item = .ok value) items values := by
  have related : ∃ values,
      List.Forall₂ (fun item value => check item = .ok value) items values := by
    induction items with
    | nil => exact ⟨[], .nil⟩
    | cons item items ih =>
        obtain ⟨value, here⟩ := each item List.mem_cons_self
        obtain ⟨values, rest⟩ := ih fun other member => each other (List.mem_cons_of_mem _ member)
        exact ⟨value :: values, .cons here rest⟩
  obtain ⟨values, all⟩ := related
  exact ⟨values, mapM_ok_iff.mpr all, all⟩

/-- Collecting what a check lets through succeeds when every check returns. -/
theorem filterMapM_ok_iff {check : α → Except Error (Option β)} {items : List α}
    {values : List β} :
    items.filterMapM check = .ok values ↔
      (∀ item ∈ items, ∃ found, check item = .ok found) ∧
        values = items.filterMap fun item => (check item).toOption.join := by
  induction items generalizing values with
  | nil => simp [List.filterMapM_nil, pure, Except.pure, eq_comm]
  | cons item rest ih =>
      rw [List.filterMapM_cons, List.forall_mem_cons]
      cases checked : check item with
      | error reason => simp [bind, Except.bind]
      | ok found =>
          cases found with
          | none => simpa [Except.toOption, checked, bind, Except.bind] using ih
          | some value =>
              simp only [bind_ok_iff, Except.ok.injEq, exists_eq_left', ih,
                pure_ok_iff, List.filterMap_cons, checked, Except.toOption,
                Option.join_some]
              constructor
              · intro collected
                obtain ⟨later, rest, same⟩ := collected
                exact ⟨⟨⟨_, rfl⟩, rest.1⟩, by rw [← same, rest.2]⟩
              · intro collected
                exact ⟨_, ⟨collected.1.2, rfl⟩, collected.2.symm⟩

/-- A check of every element passes exactly when each one does. -/
theorem forM_ok_iff {check : α → Except Error Unit} {items : List α} {value : Unit} :
    forM items check = .ok value ↔ ∀ item ∈ items, check item = .ok () := by
  induction items with
  | nil => simp
  | cons item items ih => simp [ih]

/-- Checking two lists of one length pair by pair compares them whole. -/
theorem zip_agree_iff {left : List α} {right : List β} {key : α → β}
    (length : left.length = right.length) :
    (∀ pair ∈ left.zip right, key pair.1 = pair.2) ↔ left.map key = right := by
  induction left generalizing right with
  | nil => simp [List.eq_nil_of_length_eq_zero length.symm]
  | cons first left ih =>
      cases right with
      | nil => cases length
      | cons second right =>
          have shorter : left.length = right.length := Nat.succ.inj length
          simp only [List.zip_cons_cons, List.forall_mem_cons, List.map_cons, List.cons.injEq,
            ih shorter]

/-- Such a check reads nothing but the compared keys. -/
theorem forM_zip_ensure [DecidableEq β] {left : List α} {right : List β} {key : α → β}
    {reason : Error} :
    forM (left.zip right) (fun pair => ensure (key pair.1 = pair.2) reason) =
      forM ((left.map key).zip right) fun pair => ensure (pair.1 = pair.2) reason := by
  induction left generalizing right with
  | nil => rfl
  | cons first left ih =>
      cases right with
      | nil => rfl
      | cons second right =>
          simp only [List.zip_cons_cons, List.map_cons, List.forM_cons]
          exact congrArg _ (funext fun _ => ih)

/-- Every error the code returns is an allowed one. -/
structure Raises (allowed : Error → Prop) (code : Except Error α) : Prop where
  of_error : ∀ reason, code = .error reason → allowed reason

section Raises

variable {allowed : Error → Prop}

theorem raises_ok {value : α} : Raises allowed (.ok value) := by
  constructor
  intro reason failed
  cases failed

/-- What follows a step may rely on the step having returned. -/
theorem raises_bind {first : Except Error α} {next : α → Except Error β}
    (head : Raises allowed first)
    (tail : ∀ value, first = .ok value → Raises allowed (next value)) :
    Raises allowed (first >>= next) := by
  constructor
  intro reason failed
  cases returned : first with
  | error found =>
      rw [bind_error returned] at failed
      cases failed
      exact head.of_error reason returned
  | ok value =>
      rw [bind_of_ok returned] at failed
      exact (tail value returned).of_error reason failed

theorem raises_ensure {condition : Prop} [Decidable condition] {reason : Error}
    (fine : allowed reason) : Raises allowed (ensure condition reason) := by
  constructor
  intro found failed
  unfold ensure at failed
  split at failed
  · cases failed
  · cases failed
    exact fine

theorem raises_okOr_some {found : Option α} {value : α} {reason : Error}
    (here : found = some value) : Raises allowed (okOr found reason) := by
  rw [here]
  exact raises_ok

theorem raises_okOr {found : Option α} {reason : Error} (fine : allowed reason) :
    Raises allowed (okOr found reason) := by
  cases found with
  | some value => exact raises_ok
  | none =>
      constructor
      intro given failed
      cases failed
      exact fine

theorem raises_mapError {first : Except Other α} {rename : Other → Error}
    (fine : ∀ reason, allowed (rename reason)) : Raises allowed (first.mapError rename) := by
  constructor
  intro reason failed
  cases first with
  | error found =>
      cases failed
      exact fine found
  | ok value => cases failed

theorem raises_forM {check : β → Except Error Unit} {items : List β}
    (each : ∀ item ∈ items, Raises allowed (check item)) : Raises allowed (forM items check) := by
  induction items with
  | nil => exact raises_ok
  | cons item items ih =>
      rw [List.forM_cons]
      apply raises_bind (each item List.mem_cons_self)
      intro _ _
      exact ih fun other member => each other (List.mem_cons_of_mem _ member)

theorem raises_mapM {check : β → Except Error α} {items : List β}
    (each : ∀ item ∈ items, Raises allowed (check item)) :
    Raises allowed (items.mapM check) := by
  induction items with
  | nil =>
      rw [List.mapM_nil]
      exact raises_ok
  | cons item items ih =>
      rw [List.mapM_cons]
      apply raises_bind (each item List.mem_cons_self)
      intro _ _
      apply raises_bind (ih fun other member => each other (List.mem_cons_of_mem _ member))
      intro _ _
      exact raises_ok

/-- Walking raises only what a check of one element raises. -/
theorem raises_filterMapM {check : β → Except Error (Option α)}
    {items : List β} (each : ∀ item ∈ items, Raises allowed (check item)) :
    Raises allowed (items.filterMapM check) := by
  induction items with
  | nil =>
      rw [List.filterMapM_nil]
      exact raises_ok
  | cons item rest ih =>
      have later := ih fun other member => each other (List.mem_cons_of_mem _ member)
      rw [List.filterMapM_cons]
      apply raises_bind (each item List.mem_cons_self)
      intro found _
      cases found with
      | none => exact later
      | some value => exact raises_bind later fun _ _ => raises_ok

end Raises

end Outcome
