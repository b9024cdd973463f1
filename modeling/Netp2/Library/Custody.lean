import Mathlib.Data.List.Nodup
import Mathlib.Tactic

/-!
# Custody

Things that cannot be copied, only handed on, are always in one place at most.  Places are lists, so
"one place" is one position of one list (`Exclusive.position_unique`).

Whatever is done with such things comes down to two moves: places lose things (`Exclusive.lose`),
and a thing that no place holds is put somewhere (`Exclusive.gain`).  Handing a thing on is one after
the other, and `Exclusive.not_mem_of_taken` says that it is nowhere in between.
-/

namespace Custody

variable {Place α : Type}

/-- No place holds a thing twice, and no two places hold the same. -/
structure Exclusive (held : Place → List α) : Prop where
  nodup : ∀ p, (held p).Nodup
  disjoint : ∀ p q, p ≠ q → (held p).Disjoint (held q)

variable {held held' : Place → List α} {x : α} {p₀ : Place}

lemma exclusive_nil : Exclusive fun _ : Place => ([] : List α) where
  nodup _ := List.nodup_nil
  disjoint _ _ _ := List.disjoint_nil_left _

theorem Exclusive.position_unique (h : Exclusive held) {p q : Place} {i j : ℕ}
    (hp : (held p)[i]? = some x) (hq : (held q)[j]? = some x) : p = q ∧ i = j := by
  by_cases hpq : p = q
  · subst hpq
    obtain ⟨hi, -⟩ := List.getElem?_eq_some_iff.mp hp
    exact ⟨rfl, (List.getElem?_inj hi (h.nodup p)).mp (hp.trans hq.symm)⟩
  · exact absurd (List.mem_of_getElem? hq) (h.disjoint p q hpq (List.mem_of_getElem? hp))

lemma Exclusive.lose (h : Exclusive held) (hsub : ∀ p, (held' p).Sublist (held p)) :
    Exclusive held' where
  nodup p := (hsub p).nodup (h.nodup p)
  disjoint p q hpq := by
    intro y hp hq
    exact h.disjoint p q hpq ((hsub p).subset hp) ((hsub q).subset hq)

/-- What has left its place is nowhere. -/
lemma Exclusive.not_mem_of_taken (h : Exclusive held) (hx : x ∈ held p₀)
    (hsub : ∀ p, (held' p).Sublist (held p)) (hgone : x ∉ held' p₀) (p : Place) :
    x ∉ held' p := by
  intro hp
  by_cases heq : p = p₀
  · exact hgone (heq ▸ hp)
  · exact h.disjoint p p₀ heq ((hsub p).subset hp) hx

lemma Exclusive.gain (h : Exclusive held) (hx : ∀ p, x ∉ held p) (hp₀ : held' p₀ = x :: held p₀)
    (hother : ∀ p, p ≠ p₀ → held' p = held p) : Exclusive held' where
  nodup p := by
    by_cases hp : p = p₀
    · rw [hp, hp₀]
      exact (h.nodup p₀).cons (hx p₀)
    · rw [hother p hp]
      exact h.nodup p
  disjoint p q hpq := by
    by_cases hp : p = p₀
    · have hq : q ≠ p₀ := fun hq => hpq (hp.trans hq.symm)
      rw [hp, hp₀, hother q hq, List.disjoint_cons_left]
      exact ⟨hx q, h.disjoint p₀ q (hp ▸ hpq)⟩
    · by_cases hq : q = p₀
      · rw [hq, hp₀, hother p hp, List.disjoint_cons_right]
        exact ⟨hx p, h.disjoint p p₀ hp⟩
      · rw [hother p hp, hother q hq]
        exact h.disjoint p q hpq

/-- A list without one of its positions no longer has what was there. -/
lemma notMem_eraseIdx {l : List α} (h : l.Nodup) {i : ℕ} (hi : l[i]? = some x) :
    x ∉ l.eraseIdx i := by
  obtain ⟨hlt, rfl⟩ := List.getElem?_eq_some_iff.mp hi
  exact (List.nodup_cons.mp ((List.getElem_cons_eraseIdx_perm hlt).nodup_iff.mpr h)).1

end Custody
