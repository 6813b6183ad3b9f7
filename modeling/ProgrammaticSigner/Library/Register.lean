import Mathlib

set_option autoImplicit false

/- A register of one-time values. Each holder holds at most one value, no value is issued
twice, and a holder gives its value up for a fresh one or for none. -/

structure Register (Holder Value : Type) where
  held : Holder → Option Value
  issued : Set Value

namespace Register

variable {Holder Value : Type} [DecidableEq Holder]

/-- Nothing has been issued. -/
def empty : Register Holder Value := ⟨fun _ => none, ∅⟩

def issue (register : Register Holder Value) (holder : Holder) (value : Value) :
    Register Holder Value :=
  ⟨Function.update register.held holder (some value), insert value register.issued⟩

def release (register : Register Holder Value) (holder : Holder) : Register Holder Value :=
  ⟨Function.update register.held holder none, register.issued⟩

/-- What a step does to a register. -/
inductive Action (Holder Value : Type) where
  | issue (holder : Holder) (value : Value)
  /-- An old value for a fresh one. -/
  | redeem (holder : Holder) (old value : Value)
  | release (holder : Holder)
  | idle

/-- What actions redeem, in order. -/
def redemptions (actions : List (Action Holder Value)) : List (Holder × Value) :=
  actions.filterMap fun
    | .redeem holder old _ => some (holder, old)
    | _ => none

omit [DecidableEq Holder] in
theorem redemptions_append (early late : List (Action Holder Value)) :
    redemptions (early ++ late) = redemptions early ++ redemptions late :=
  List.filterMap_append

/-- A step of the register by an action. -/
inductive Step (register : Register Holder Value) :
    Action Holder Value → Register Holder Value → Prop where
  | issued {holder : Holder} {value : Value} (unheld : register.held holder = none)
      (fresh : value ∉ register.issued) :
      Step register (.issue holder value) (register.issue holder value)
  | redeemed {holder : Holder} {old value : Value} (holds : register.held holder = some old)
      (fresh : value ∉ register.issued) :
      Step register (.redeem holder old value) (register.issue holder value)
  | released {holder : Holder} : Step register (.release holder) (register.release holder)
  | idle : Step register .idle register

/-- Steps in a row. -/
inductive Run : Register Holder Value → List (Action Holder Value) → Register Holder Value →
    Prop where
  | nil {register : Register Holder Value} : Run register [] register
  | cons {register next final : Register Holder Value} {action : Action Holder Value}
      {later : List (Action Holder Value)} (step : Step register action next)
      (rest : Run next later final) : Run register (action :: later) final

theorem Run.append {register middle final : Register Holder Value}
    {early late : List (Action Holder Value)} (first : Run register early middle)
    (second : Run middle late final) : Run register (early ++ late) final := by
  induction first with
  | nil => exact second
  | cons step rest ih => exact .cons step (ih second)

/-- Held values have been issued, each to one holder. -/
structure Sound (register : Register Holder Value) : Prop where
  issued : ∀ holder value, register.held holder = some value → value ∈ register.issued
  unique : ∀ holder other value, register.held holder = some value →
    register.held other = some value → holder = other

/-- An issued value that nobody holds. -/
structure Gone (register : Register Holder Value) (value : Value) : Prop where
  issued : value ∈ register.issued
  unheld : ∀ holder, register.held holder ≠ some value

omit [DecidableEq Holder] in
theorem empty_sound : (empty : Register Holder Value).Sound where
  issued _ _ held := by cases held
  unique _ _ _ held := by cases held

section Steps

variable {register next : Register Holder Value} {action : Action Holder Value}

theorem issue_held_iff {holder other : Holder} {value found : Value} :
    (register.issue holder value).held other = some found ↔
      other = holder ∧ found = value ∨ other ≠ holder ∧ register.held other = some found := by
  by_cases here : other = holder
  · subst here
    simp [issue, eq_comm]
  · simp [issue, here]

theorem release_held {holder other : Holder} {value : Value}
    (held : (register.release holder).held other = some value) :
    register.held other = some value := by
  by_cases here : other = holder
  · simp [release, here] at held
  · simpa [release, here] using held

theorem Sound.issue (sound : register.Sound) {holder : Holder} {value : Value}
    (fresh : value ∉ register.issued) : (register.issue holder value).Sound := by
  constructor
  · intro other found held
    rcases issue_held_iff.mp held with ⟨-, rfl⟩ | ⟨-, old⟩
    · exact Set.mem_insert _ _
    · exact Set.mem_insert_of_mem _ (sound.issued other found old)
  · intro one two found held held'
    rcases issue_held_iff.mp held with ⟨rfl, rfl⟩ | ⟨-, old⟩ <;>
      rcases issue_held_iff.mp held' with ⟨rfl, same⟩ | ⟨-, old'⟩
    · rfl
    · exact absurd (sound.issued two _ old') fresh
    · exact absurd (sound.issued one _ old) (same ▸ fresh)
    · exact sound.unique one two found old old'

theorem Step.sound (step : Step register action next) (sound : register.Sound) : next.Sound := by
  cases step with
  | issued unheld fresh => exact sound.issue fresh
  | redeemed holds fresh => exact sound.issue fresh
  | released =>
      exact ⟨fun holder value held => sound.issued holder value (release_held held),
        fun one two value held held' =>
          sound.unique one two value (release_held held) (release_held held')⟩
  | idle => exact sound

/-- A value that only the holder of the new one may hold is gone. -/
theorem issue_gone {holder : Holder} {value new : Value} (listed : value ∈ register.issued)
    (fresh : new ∉ register.issued)
    (given : ∀ other, other ≠ holder → register.held other ≠ some value) :
    (register.issue holder new).Gone value := by
  refine ⟨Set.mem_insert_of_mem _ listed, ?_⟩
  intro other held
  rcases issue_held_iff.mp held with ⟨-, rfl⟩ | ⟨differs, old⟩
  · exact fresh listed
  · exact given other differs old

theorem Gone.issue {value : Value} (gone : register.Gone value) {holder : Holder} {new : Value}
    (fresh : new ∉ register.issued) : (register.issue holder new).Gone value :=
  issue_gone gone.issued fresh fun other _ => gone.unheld other

/-- A value nobody holds stays so, and is not redeemed. -/
theorem Step.gone (step : Step register action next) {value : Value}
    (gone : register.Gone value) :
    next.Gone value ∧ ∀ holder, (holder, value) ∉ redemptions [action] := by
  cases step with
  | issued unheld fresh => exact ⟨gone.issue fresh, by simp [redemptions]⟩
  | @redeemed holder old new holds fresh =>
      refine ⟨gone.issue fresh, ?_⟩
      intro other member
      obtain ⟨rfl, rfl⟩ := Prod.mk.inj (List.mem_singleton.mp member)
      exact gone.unheld other holds
  | released =>
      exact ⟨⟨gone.issued, fun holder held => gone.unheld holder (release_held held)⟩,
        by simp [redemptions]⟩
  | idle => exact ⟨gone, by simp [redemptions]⟩

/-- What a step redeems was held, and is gone after it. -/
theorem Step.redeems (step : Step register action next) (sound : register.Sound) :
    ∀ pair ∈ redemptions [action], register.held pair.1 = some pair.2 ∧ next.Gone pair.2 := by
  intro pair member
  cases step with
  | issued unheld fresh => cases member
  | @redeemed holder old value holds fresh =>
      obtain rfl := List.mem_singleton.mp member
      refine ⟨holds, issue_gone (sound.issued holder old holds) fresh ?_⟩
      exact fun other differs same => differs (sound.unique other holder old same holds)
  | released => cases member
  | idle => cases member

/-- A value whose one holder gives it up is gone. -/
theorem Step.lost (step : Step register action next) (sound : register.Sound)
    {holder : Holder} {value : Value} (held : register.held holder = some value)
    (given : next.held holder ≠ some value) : next.Gone value := by
  have listed := sound.issued holder value held
  have kept {other : Holder} (same : register.held other = some value) : other = holder :=
    sound.unique other holder value same held
  have elsewhere {target : Holder} {new : Value}
      (missing : (register.issue target new).held holder ≠ some value) (other : Holder)
      (differs : other ≠ target) : register.held other ≠ some value := by
    intro same
    obtain rfl := kept same
    exact missing (issue_held_iff.mpr (.inr ⟨differs, held⟩))
  cases step with
  | issued unheld fresh => exact issue_gone listed fresh (elsewhere given)
  | redeemed holds fresh => exact issue_gone listed fresh (elsewhere given)
  | released =>
      refine ⟨listed, fun other same => given ?_⟩
      exact kept (release_held same) ▸ same
  | idle => exact absurd held given

end Steps

section Runs

variable {register final : Register Holder Value} {actions : List (Action Holder Value)}

theorem Run.sound (run : Run register actions final) (sound : register.Sound) : final.Sound := by
  induction run with
  | nil => exact sound
  | cons step rest ih => exact ih (step.sound sound)

theorem Run.gone (run : Run register actions final) {value : Value}
    (gone : register.Gone value) :
    final.Gone value ∧ ∀ holder, (holder, value) ∉ redemptions actions := by
  induction run with
  | nil => exact ⟨gone, by simp [redemptions]⟩
  | @cons register next final action later step rest ih =>
      obtain ⟨next, here⟩ := step.gone gone
      obtain ⟨last, later⟩ := ih next
      refine ⟨last, ?_⟩
      intro holder member
      rw [← List.singleton_append, redemptions_append] at member
      rcases List.mem_append.mp member with now | after
      · exact here holder now
      · exact later holder after

/-- No value is redeemed twice, by one holder or by two. -/
theorem Run.redeemed_nodup (run : Run register actions final) (sound : register.Sound) :
    ((redemptions actions).map Prod.snd).Nodup := by
  induction run with
  | nil => exact List.nodup_nil
  | @cons register next final action later step rest ih =>
      rw [← List.singleton_append, redemptions_append, List.map_append, List.nodup_append]
      refine ⟨?_, ih (step.sound sound), ?_⟩
      · cases step <;> simp [redemptions]
      · rintro value here other there rfl
        obtain ⟨⟨holder, value⟩, first, rfl⟩ := List.mem_map.mp here
        obtain ⟨⟨again, value⟩, second, rfl⟩ := List.mem_map.mp there
        exact (rest.gone (step.redeems sound _ first).2).2 again second

/-- A value held at one time and not at a later one is gone for good. -/
theorem Run.lost (run : Run register actions final) (sound : register.Sound) {holder : Holder}
    {value : Value} (held : register.held holder = some value)
    (given : final.held holder ≠ some value) : final.Gone value := by
  induction run with
  | nil => exact absurd held given
  | @cons register next final action later step rest ih =>
      by_cases still : next.held holder = some value
      · exact ih (step.sound sound) still given
      · exact (rest.gone (step.lost sound held still)).1

end Runs

end Register
