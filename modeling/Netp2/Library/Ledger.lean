import Mathlib.Algebra.BigOperators.Group.Finset.Basic
import Mathlib.Algebra.BigOperators.ModEq
import Mathlib.Data.List.ReduceOption
import Mathlib.Data.Nat.ModEq
import Mathlib.Tactic

/-!
# Cells and their ledger

Cells are created one after the other, count something each, and may disappear.  A ledger records
what was entered for which cell.  As long as every cell that is left agrees with its own entries
(`Balanced`), the sum over the cells that are left agrees with the entries for them (`sum_live`).
Agreement is modulo `m`, for counters that wrap around.

The rules `Balanced.push`, `Balanced.enter` and `Balanced.clear` say which operations keep the
balance.
-/

namespace Ledger

variable {α E : Type}

/-- The cell is there. -/
def IsLive (cells : List (Option α)) (i : ℕ) : Prop :=
  cells[i]?.join.isSome

instance (cells : List (Option α)) (i : ℕ) : Decidable (IsLive cells i) :=
  inferInstanceAs (Decidable (_ = true))

/-- The amount of some entries. -/
def total (amount : E → ℕ) (entries : List (ℕ × E)) : ℕ :=
  (entries.map fun e => amount e.2).sum

/-- The amount entered for one cell. -/
def tally (amount : E → ℕ) (entries : List (ℕ × E)) (i : ℕ) : ℕ :=
  total amount (entries.filter fun e => e.1 = i)

/-- Entries are for cells that exist or have existed, and what is left agrees with them. -/
structure Balanced (m : ℕ) (value : α → ℕ) (amount : E → ℕ) (cells : List (Option α))
    (entries : List (ℕ × E)) : Prop where
  known : ∀ e ∈ entries, e.1 < cells.length
  agrees : ∀ i a, cells[i]? = some (some a) → value a ≡ tally amount entries i [MOD m]

variable {m : ℕ} {value : α → ℕ} {amount : E → ℕ} {cells : List (Option α)}
  {entries : List (ℕ × E)}

lemma total_cons (e : ℕ × E) (entries : List (ℕ × E)) :
    total amount (e :: entries) = amount e.2 + total amount entries := by
  rw [total, List.map_cons, List.sum_cons]
  rfl

lemma total_append (entries entries' : List (ℕ × E)) :
    total amount (entries ++ entries') = total amount entries + total amount entries' := by
  rw [total, List.map_append, List.sum_append]
  rfl

lemma tally_cons (e : ℕ × E) (entries : List (ℕ × E)) (i : ℕ) :
    tally amount (e :: entries) i
      = (if e.1 = i then amount e.2 else 0) + tally amount entries i := by
  rw [tally, List.filter_cons]
  by_cases h : e.1 = i <;> simp [h, tally, total_cons]

lemma tally_concat (entries : List (ℕ × E)) (e : ℕ × E) (i : ℕ) :
    tally amount (entries ++ [e]) i
      = tally amount entries i + if e.1 = i then amount e.2 else 0 := by
  rw [tally, List.filter_append, total_append, List.filter_singleton]
  by_cases h : e.1 = i <;> simp [h, tally, total]

/-- One more event enters one more entry at most. -/
lemma filterMap_concat {τ : Type} (f : τ → Option E) (l : List τ) (a : τ) :
    (l ++ [a]).filterMap f = l.filterMap f ++ (f a).toList := by
  rw [List.filterMap_append]
  cases ha : f a <;> simp [ha]

/-! ## Operations -/

lemma balanced_nil : Balanced m value amount [] [] where
  known e he := absurd he List.not_mem_nil
  agrees i a h := by simp at h

/-- Nothing has been entered yet for a cell that does not exist. -/
lemma Balanced.tally_eq_zero (h : Balanced m value amount cells entries) {i : ℕ}
    (hi : cells.length ≤ i) : tally amount entries i = 0 := by
  have hnone : entries.filter (fun e => decide (e.1 = i)) = [] := by
    rw [List.filter_eq_nil_iff]
    intro e he
    have hlt := h.known e he
    simp only [decide_eq_true_eq]
    omega
  rw [tally, hnone]
  rfl

lemma Balanced.push (h : Balanced m value amount cells entries) {a : α} (ha : value a = 0) :
    Balanced m value amount (cells ++ [some a]) entries where
  known e he := (h.known e he).trans_le (by simp)
  agrees i b hb := by
    rcases Nat.lt_or_ge i cells.length with hi | hi
    · rw [List.getElem?_append_left hi] at hb
      exact h.agrees i b hb
    · obtain ⟨rfl, rfl⟩ : i = cells.length ∧ b = a := by
        have hlt := (List.getElem?_eq_some_iff.mp hb).1
        rw [List.length_append, List.length_singleton] at hlt
        obtain rfl : i = cells.length := by omega
        simpa using hb.symm
      rw [h.tally_eq_zero hi, ha]

/-- A cell counts what is entered for it; for a cell that is gone an entry has no effect. -/
lemma Balanced.enter (h : Balanced m value amount cells entries) {i : ℕ} (hi : i < cells.length)
    {f : α → α} {x : E} (hf : ∀ a, value (f a) ≡ value a + amount x [MOD m]) :
    Balanced m value amount (cells.modify i (Option.map f)) (entries ++ [(i, x)]) where
  known e he := by
    rw [List.length_modify]
    rcases List.mem_append.mp he with he | he
    · exact h.known e he
    · rw [List.mem_singleton.mp he]
      exact hi
  agrees j b hb := by
    rw [List.getElem?_modify] at hb
    rw [tally_concat]
    by_cases hij : i = j
    · subst hij
      obtain ⟨o, ho, hmap⟩ := Option.map_eq_some_iff.mp hb
      rw [if_pos rfl] at hmap
      obtain ⟨a, rfl, rfl⟩ := Option.map_eq_some_iff.mp hmap
      rw [if_pos rfl]
      exact (hf a).trans (Nat.ModEq.add_right _ (h.agrees i a ho))
    · rw [if_neg hij, Nat.add_zero]
      exact h.agrees j b (by simpa [hij] using hb)

lemma Balanced.clear (h : Balanced m value amount cells entries) (i : ℕ) :
    Balanced m value amount (cells.set i none) entries where
  known e he := by
    rw [List.length_set]
    exact h.known e he
  agrees j b hb := by
    rw [List.getElem?_set] at hb
    split_ifs at hb with hij hj
    · simp at hb
    · exact h.agrees j b hb

/-! ## The sum over the live cells -/

lemma sum_reduceOption (f : α → ℕ) (cells : List (Option α)) :
    (cells.reduceOption.map f).sum
      = ∑ i ∈ Finset.range cells.length, (cells[i]?.join.map f).getD 0 := by
  induction cells with
  | nil => rfl
  | cons o cells ih =>
      rw [List.length_cons, Finset.sum_range_succ']
      cases o with
      | none => simpa using ih
      | some a =>
          rw [List.reduceOption_cons_of_some, List.map_cons, List.sum_cons, ih, Nat.add_comm]
          simp

lemma sum_tally (p : ℕ → Prop) [DecidablePred p] {n : ℕ} (hn : ∀ e ∈ entries, e.1 < n) :
    (∑ i ∈ Finset.range n, if p i then tally amount entries i else 0)
      = total amount (entries.filter fun e => p e.1) := by
  induction entries with
  | nil => simp [tally, total]
  | cons e entries ih =>
      have hlt : e.1 < n := hn e List.mem_cons_self
      have hsplit : ∀ i ∈ Finset.range n, (if p i then tally amount (e :: entries) i else 0)
          = (if e.1 = i then (if p e.1 then amount e.2 else 0) else 0)
            + if p i then tally amount entries i else 0 := by
        intro i _
        rw [tally_cons]
        by_cases hi : e.1 = i
        · subst hi
          by_cases hp : p e.1 <;> simp [hp]
        · simp [hi]
      rw [Finset.sum_congr rfl hsplit, Finset.sum_add_distrib, Finset.sum_ite_eq,
        if_pos (Finset.mem_range.mpr hlt), ih fun e' he' => hn e' (List.mem_cons_of_mem e he'),
        List.filter_cons]
      by_cases hp : p e.1 <;> simp [hp, total_cons]

/-- **The sum over the cells that are left** agrees with the entries for them. -/
theorem sum_live (h : Balanced m value amount cells entries) :
    (cells.reduceOption.map value).sum
      ≡ total amount (entries.filter fun e => IsLive cells e.1) [MOD m] := by
  rw [sum_reduceOption, ← sum_tally (IsLive cells) h.known]
  refine Nat.ModEq.sum ?_
  intro i _
  by_cases hlive : IsLive cells i
  · obtain ⟨a, ha⟩ := Option.isSome_iff_exists.mp hlive
    rw [if_pos hlive, ha]
    exact h.agrees i a (Option.join_eq_some_iff.mp ha)
  · rw [if_neg hlive, Option.not_isSome_iff_eq_none.mp hlive]
    rfl

/-- When nothing is lost, the entries come to the sum over the items that they are for. -/
lemma total_eq_sum {items : List α} (hknown : ∀ e ∈ entries, e.1 < items.length)
    (h : ∀ i a, items[i]? = some a → tally amount entries i = value a) :
    total amount entries = (items.map value).sum := by
  have hall : (∑ i ∈ Finset.range items.length, if True then tally amount entries i else 0)
      = total amount (entries.filter fun _ => True) := sum_tally (fun _ => True) hknown
  have hitems := sum_reduceOption value (items.map some)
  simp only [if_true, decide_true, List.filter_true] at hall
  simp only [List.reduceOption, List.filterMap_map, Function.comp_def, id_eq, List.filterMap_some,
    List.length_map, List.getElem?_map] at hitems
  rw [← hall, hitems]
  refine Finset.sum_congr rfl ?_
  intro i hi
  obtain ⟨a, ha⟩ : ∃ a, items[i]? = some a := ⟨_, List.getElem?_eq_getElem (Finset.mem_range.mp hi)⟩
  rw [h i a ha, ha]
  rfl

/-- The sum after a change of one cell: the old value goes, the new one comes. -/
lemma sum_modify (f : α → ℕ) (g : Option α → Option α) {cells : List (Option α)} {i : ℕ} {a : α}
    (h : cells[i]? = some (some a)) :
    ((cells.modify i g).reduceOption.map f).sum + f a
      = (cells.reduceOption.map f).sum + ((g (some a)).map f).getD 0 := by
  induction cells generalizing i with
  | nil => simp at h
  | cons o cells ih =>
      cases i with
      | zero =>
          obtain rfl : o = some a := by simpa using h
          rw [List.modify_zero_cons]
          cases g (some a) <;> simp <;> omega
      | succ i =>
          have hrest := ih (i := i) (by simpa using h)
          rw [List.modify_succ_cons]
          cases o with
          | none => simpa using hrest
          | some b =>
              simp only [List.reduceOption_cons_of_some, List.map_cons, List.sum_cons]
              omega

/-- The sum after an item is replaced. -/
lemma sum_map_set (f : α → ℕ) {items : List α} {i : ℕ} {a : α} (h : items[i]? = some a) (b : α) :
    ((items.set i b).map f).sum + f a = (items.map f).sum + f b := by
  induction items generalizing i with
  | nil => simp at h
  | cons c items ih =>
      cases i with
      | zero =>
          obtain rfl : c = a := by simpa using h
          simp only [List.set_cons_zero, List.map_cons, List.sum_cons]
          omega
      | succ i =>
          have hrest := ih (i := i) (by simpa using h)
          simp only [List.set_cons_succ, List.map_cons, List.sum_cons]
          omega

/-- A change of a cell that is not there changes nothing. -/
lemma modify_of_not_live {g : Option α → Option α} (hg : g none = none) {cells : List (Option α)}
    {i : ℕ} (h : ∀ a, cells[i]? ≠ some (some a)) : cells.modify i g = cells := by
  refine List.ext_getElem? ?_
  intro j
  rw [List.getElem?_modify]
  by_cases hij : i = j
  · subst hij
    cases hi : cells[i]? with
    | none => rfl
    | some o =>
        cases o with
        | none => simp [hg]
        | some a => exact absurd hi (h a)
  · simp [hij]

end Ledger
