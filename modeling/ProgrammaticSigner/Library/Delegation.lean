import Mathlib

set_option autoImplicit false

/- Rights handed down a chain of calls. A caller hands on rights it was given and rights it
adds on its own account, so a right held anywhere is traced to the call that added it. -/

/-- Calls with the rights they are given and those they may add for the calls they make. -/
structure Delegation (Call Right : Type) where
  grants : Call → Right → Prop
  adds : Call → Right → Prop

namespace Delegation

variable {Call Right : Type} (delegation : Delegation Call Right)

/-- A call within the rights of the one that makes it. -/
def Within (callee caller : Call) : Prop :=
  ∀ right, delegation.grants callee right →
    delegation.grants caller right ∨ delegation.adds caller right

/-- The caller that adds a right to a call: everything below it is given the right. -/
structure Source (call : Call) (callers : List Call) (right : Right) (source : Call)
    (below above : List Call) : Prop where
  callers : callers = below ++ source :: above
  adds : delegation.adds source right
  grants : ∀ between ∈ call :: below, delegation.grants between right

variable {delegation}

/-- With its callers listed innermost first, a right of a call is given all the way from the
outermost one, or one of the callers adds it. -/
theorem traced {call : Call} {callers : List Call} {right : Right}
    (chain : (call :: callers).IsChain delegation.Within)
    (granted : delegation.grants call right) :
    (∀ each ∈ call :: callers, delegation.grants each right) ∨
      ∃ source below above, delegation.Source call callers right source below above := by
  induction callers generalizing call with
  | nil => exact .inl fun each member => List.mem_singleton.mp member ▸ granted
  | cons caller callers ih =>
      obtain ⟨within, outer⟩ := List.isChain_cons_cons.mp chain
      rcases within right granted with given | added
      · rcases ih outer given with all | ⟨source, below, above, found⟩
        · exact .inl (List.forall_mem_cons.mpr ⟨granted, all⟩)
        · refine .inr ⟨source, caller :: below, above, ?_, found.adds,
            List.forall_mem_cons.mpr ⟨granted, found.grants⟩⟩
          rw [found.callers, List.cons_append]
      · refine .inr ⟨caller, [], callers, rfl, added, ?_⟩
        exact fun each member => List.mem_singleton.mp member ▸ granted

end Delegation
