import Netp2.Library.StepRun

/-!
# Agendas

A component of a machine waits for things in a fixed order: its agenda.  Inputs come in any order,
and most of them are for others.  What comes before its time is lost, what comes in its time
shortens the agenda, and nothing is ever put on it (`WorksOff`).

`WorksOff.done` says that the agenda is worked off by every run that brings its items in their
order, whatever comes in between.  `WorksOff.moves_le` bounds the number of steps that shorten it.
`lasting_iff` is the rule for a property that, once it holds, stays.
-/

namespace StepRun

variable {σ ι ο κ : Type} {step : σ → ι → ο × σ} {s : σ}

/-- The agenda of the states with `Inv` is worked off, item by item or several at a time. -/
structure WorksOff (step : σ → ι → ο × σ) (Inv : σ → Prop) (agenda : σ → List κ)
    (kind : ι → Option κ) : Prop where
  kept : ∀ s i, Inv s → Inv (step s i).2
  shrinks : ∀ s i, Inv s → agenda (step s i).2 <:+ agenda s
  first : ∀ s i x xs, Inv s → agenda s = x :: xs → kind i = some x → agenda (step s i).2 <:+ xs

variable {Inv : σ → Prop} {agenda : σ → List κ} {kind : ι → Option κ}

/-- **A run that brings all items in their order** leaves nothing on the agenda. -/
theorem WorksOff.done (h : WorksOff step Inv agenda kind) (hs : Inv s) {is : List ι}
    (his : (agenda s).Sublist (is.filterMap kind)) :
    Inv (final step s is) ∧ agenda (final step s is) = [] := by
  induction is generalizing s with
  | nil => exact ⟨hs, List.sublist_nil.mp his⟩
  | cons i is ih =>
      refine ih (h.kept s i hs) ?_
      cases hkind : kind i with
      | none =>
          rw [List.filterMap_cons_none hkind] at his
          exact (h.shrinks s i hs).sublist.trans his
      | some x =>
          rw [List.filterMap_cons_some hkind] at his
          cases hagenda : agenda s with
          | nil =>
              have hempty := h.shrinks s i hs
              rw [hagenda, List.suffix_nil] at hempty
              exact hempty ▸ List.nil_sublist _
          | cons y ys =>
              rw [hagenda] at his
              cases his with
              | cons _ hlater =>
                  have hshrinks := (h.shrinks s i hs).sublist
                  exact (hagenda ▸ hshrinks).trans hlater
              | cons_cons _ hnow =>
                  exact (h.first s i x ys hs hagenda hkind).sublist.trans hnow

/-- A call that changes the agenda. -/
def moves [DecidableEq κ] (agenda : σ → List κ) (e : Event σ ι ο) : Bool :=
  agenda e.pre ≠ agenda e.post

/-- **A component moves at most once for each item** on its agenda. -/
theorem WorksOff.moves_le [DecidableEq κ] (h : WorksOff step Inv agenda kind) (hs : Inv s)
    (is : List ι) :
    (trace step s is).countP (moves agenda) + (agenda (final step s is)).length
      ≤ (agenda s).length := by
  induction is generalizing s with
  | nil => simp [trace, final]
  | cons i is ih =>
      have hrest := ih (h.kept s i hs)
      have hshrinks := h.shrinks s i hs
      rw [trace, final, List.countP_cons]
      by_cases hsame : agenda s = agenda (step s i).2
      · have hstays : moves agenda (event step s i) = false :=
          decide_eq_false (not_not_intro hsame)
        rw [hstays, if_neg Bool.false_ne_true, hsame]
        exact hrest
      · have hmoves : moves agenda (event step s i) = true := decide_eq_true hsame
        have hlt : (agenda (step s i).2).length < (agenda s).length := by
          refine Nat.lt_of_le_of_ne hshrinks.length_le ?_
          intro hlength
          exact hsame (hshrinks.eq_of_length hlength).symm
        rw [hmoves, if_pos rfl]
        omega

/-- **What lasts once it holds** holds in the end if it did at first, or if a step has caused it. -/
theorem lasting_iff {P : σ → Prop} {causes : σ → ι → Prop}
    (hkept : ∀ s i, Inv s → Inv (step s i).2)
    (hstep : ∀ s i, Inv s → (P (step s i).2 ↔ P s ∨ causes s i)) (hs : Inv s) (is : List ι) :
    P (final step s is) ↔
      P s ∨ ∃ before i after, is = before ++ i :: after ∧ causes (final step s before) i := by
  induction is generalizing s with
  | nil => simp [final]
  | cons i is ih =>
      rw [final, ih (hkept s i hs), hstep s i hs]
      constructor
      · rintro ((hold | hcauses) | ⟨before, j, after, rfl, hcauses⟩)
        · exact .inl hold
        · exact .inr ⟨[], i, is, rfl, hcauses⟩
        · exact .inr ⟨i :: before, j, after, rfl, hcauses⟩
      · rintro (hold | ⟨before, j, after, hsplit, hcauses⟩)
        · exact .inl (.inl hold)
        · cases before with
          | nil =>
              obtain ⟨rfl, rfl⟩ := List.cons.inj hsplit
              exact .inl (.inr hcauses)
          | cons i' before =>
              obtain ⟨rfl, rfl⟩ := List.cons.inj hsplit
              exact .inr ⟨before, j, after, rfl, hcauses⟩

end StepRun
