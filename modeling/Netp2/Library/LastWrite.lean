import Mathlib.Data.Finmap
import Mathlib.Data.List.Basic
import Mathlib.Tactic

/-!
# Registers and the last write

A loop over a list that now and then overwrites a variable leaves in it what the last overwriting
element wrote.  `lastSome f l` is what that element writes, `foldl_register` is the rule for such a
loop, and `lookup_foldl_insert` is the rule for a map filled entry by entry.

`lastValue` reads a list of pairs as the map it fills.
-/

namespace LastWrite

variable {σ α β K V : Type}

/-- What the last element with a value under `f` has there. -/
def lastSome (f : α → Option β) (l : List α) : Option β :=
  l.reverse.findSome? f

@[simp] lemma lastSome_nil (f : α → Option β) : lastSome f [] = none := rfl

lemma lastSome_append (f : α → Option β) (l l' : List α) :
    lastSome f (l ++ l') = (lastSome f l').or (lastSome f l) := by
  rw [lastSome, List.reverse_append, List.findSome?_append]
  rfl

lemma lastSome_cons (f : α → Option β) (a : α) (l : List α) :
    lastSome f (a :: l) = (lastSome f l).or (f a) := by
  have hone : lastSome f [a] = f a := by simp [lastSome]
  rw [← List.singleton_append, lastSome_append, hone]

lemma lastSome_map (f : α → Option β) (g : β → V) (l : List α) :
    lastSome (fun a => (f a).map g) l = (lastSome f l).map g := by
  induction l with
  | nil => rfl
  | cons a l ih => rw [lastSome_cons, lastSome_cons, ih, Option.map_or]

lemma exists_of_lastSome {f : α → Option β} {l : List α} {b : β} (h : lastSome f l = some b) :
    ∃ a ∈ l, f a = some b := by
  obtain ⟨a, ha, hf⟩ := List.exists_of_findSome?_eq_some h
  exact ⟨a, List.mem_reverse.mp ha, hf⟩

/-- **The register rule.**  A register that an element either overwrites or leaves alone ends up
with the last value written. -/
theorem foldl_register {step : σ → α → σ} {register : σ → β} {f : α → Option β}
    (hstep : ∀ s a, register (step s a) = (f a).getD (register s)) (s : σ) (l : List α) :
    register (l.foldl step s) = (lastSome f l).getD (register s) := by
  induction l generalizing s with
  | nil => rfl
  | cons a l ih =>
      rw [List.foldl_cons, ih, hstep, lastSome_cons]
      cases lastSome f l <;> rfl

/-! ## Lists of pairs as maps -/

variable [DecidableEq K]

/-- The value of the last pair with this key. -/
def lastValue (k : K) (l : List (K × V)) : Option V :=
  lastSome (fun p => if p.1 = k then some p.2 else none) l

@[simp] lemma lastValue_nil (k : K) : lastValue k ([] : List (K × V)) = none := rfl

lemma lastValue_append (k : K) (l l' : List (K × V)) :
    lastValue k (l ++ l') = (lastValue k l').or (lastValue k l) :=
  lastSome_append _ l l'

lemma mem_keys_of_lastValue {k : K} {l : List (K × V)} {v : V} (h : lastValue k l = some v) :
    k ∈ l.map Prod.fst := by
  obtain ⟨p, hp, hf⟩ := exists_of_lastSome h
  simp only [Option.ite_none_right_eq_some] at hf
  exact hf.1 ▸ List.mem_map_of_mem hp

lemma isSome_lastValue_of_mem {k : K} {l : List (K × V)} (h : k ∈ l.map Prod.fst) :
    (lastValue k l).isSome := by
  induction l with
  | nil => exact absurd h List.not_mem_nil
  | cons p l ih =>
      rw [lastValue, lastSome_cons]
      rcases List.mem_cons.mp h with heq | hmem
      · rw [if_pos heq.symm]
        cases lastSome (fun p : K × V => if p.1 = k then some p.2 else none) l <;> rfl
      · rw [Option.isSome_or]
        exact Bool.or_eq_true _ _ ▸ Or.inl (ih hmem)

/-- A map filled entry by entry holds the last value of each key. -/
lemma lookup_foldl_insert (k : K) (l : List (K × V)) (m : Finmap fun _ : K => V) :
    (l.foldl (fun m p => m.insert p.1 p.2) m).lookup k = (lastValue k l).or (m.lookup k) := by
  induction l generalizing m with
  | nil => rfl
  | cons p l ih =>
      rw [List.foldl_cons, ih, lastValue, lastValue, lastSome_cons]
      by_cases hk : p.1 = k
      · subst hk
        rw [Finmap.lookup_insert, if_pos rfl]
        cases lastSome (fun q : K × V => if q.1 = p.1 then some q.2 else none) l <;> rfl
      · rw [Finmap.lookup_insert_of_ne _ (Ne.symm hk), if_neg hk, Option.or_none]

end LastWrite
