import Mathlib.Data.List.Basic
import Mathlib.Tactic

/-!
# Counted references

A heap of blocks that are kept by counting, like the control blocks of `std::shared_ptr`.  A block
is allocated with one reference to it.  `retain` copies a reference and `drop` destroys one; the
block is destroyed with the last one.  References may be null.

`Counted heap n` is the invariant, for a number `n p` of references to each address `p`: the counts
are these numbers, and a block has been destroyed once if its number is zero, else not at all.  The
three rules say how the numbers may change, and `Counted.alive` is what they are good for.
-/

namespace RefCount

variable {α : Type}

/-- The destructions are counted, so that a second one would show. -/
structure Block (α : Type) where
  value : α
  useCount : ℕ
  destructions : ℕ
  deriving DecidableEq, Repr

/-- The blocks by their addresses. -/
abbrev Heap (α : Type) := List (Block α)

namespace Heap

def allocate (heap : Heap α) (value : α) : Heap α :=
  heap ++ [⟨value, 1, 0⟩]

def retain (heap : Heap α) : Option ℕ → Heap α
  | none => heap
  | some p => heap.modify p fun b => { b with useCount := b.useCount + 1 }

/-- One reference less; with the last one the block is destroyed. -/
def drop (heap : Heap α) : Option ℕ → Heap α
  | none => heap
  | some p => heap.modify p fun b =>
      { b with
        useCount := b.useCount - 1
        destructions := if b.useCount = 1 then b.destructions + 1 else b.destructions }

/-- What a reference stands for, as long as it stands for anything. -/
def deref (heap : Heap α) (ref : Option ℕ) : Option α :=
  ref.bind fun p => (heap[p]?.filter fun b => b.destructions = 0).map Block.value

/-! ## Values do not change -/

lemma map_value_modify (heap : Heap α) (p : ℕ) {f : Block α → Block α}
    (hf : ∀ b, (f b).value = b.value) :
    (heap.modify p f).map Block.value = heap.map Block.value := by
  refine List.ext_getElem? ?_
  intro q
  rw [List.getElem?_map, List.getElem?_map, List.getElem?_modify]
  cases heap[q]? with
  | none => rfl
  | some b =>
      by_cases hq : p = q <;> simp [hq, hf]

@[simp] lemma map_value_retain (heap : Heap α) (ref : Option ℕ) :
    (heap.retain ref).map Block.value = heap.map Block.value := by
  cases ref with
  | none => rfl
  | some p => exact map_value_modify heap p fun _ => rfl

@[simp] lemma map_value_drop (heap : Heap α) (ref : Option ℕ) :
    (heap.drop ref).map Block.value = heap.map Block.value := by
  cases ref with
  | none => rfl
  | some p => exact map_value_modify heap p fun _ => rfl

@[simp] lemma map_value_allocate (heap : Heap α) (value : α) :
    (heap.allocate value).map Block.value = heap.map Block.value ++ [value] := by
  simp [allocate]

@[simp] lemma length_allocate (heap : Heap α) (value : α) :
    (heap.allocate value).length = heap.length + 1 := by
  simp [allocate]

/-! ## The blocks after an update -/

/-- An updated block is the one at the address, and the others are as they were. -/
lemma getElem?_modify_cases {heap : Heap α} {f : Block α → Block α} {p₀ p : ℕ} {b : Block α}
    (hb : (heap.modify p₀ f)[p]? = some b) :
    (p = p₀ ∧ ∃ b', heap[p]? = some b' ∧ f b' = b) ∨ (p ≠ p₀ ∧ heap[p]? = some b) := by
  rw [List.getElem?_modify] at hb
  by_cases hp : p₀ = p
  · exact Or.inl ⟨hp.symm, by simpa [hp] using hb⟩
  · exact Or.inr ⟨Ne.symm hp, by simpa [hp] using hb⟩

lemma getElem?_allocate_cases {heap : Heap α} {value : α} {p : ℕ} {b : Block α}
    (hb : (heap.allocate value)[p]? = some b) :
    (p = heap.length ∧ b = ⟨value, 1, 0⟩) ∨ (p ≠ heap.length ∧ heap[p]? = some b) := by
  rw [allocate, List.getElem?_append, List.getElem?_singleton] at hb
  split_ifs at hb with hp hzero
  · exact Or.inr ⟨hp.ne, hb⟩
  · exact Or.inl ⟨by omega, (Option.some.inj hb).symm⟩

end Heap

/-! ## The invariant -/

/-- One for the address that a reference holds. -/
def hits (ref : Option ℕ) (p : ℕ) : ℕ :=
  if ref = some p then 1 else 0

@[simp] lemma hits_none (p : ℕ) : hits none p = 0 := rfl

/-- One reference in a list takes the place of another. -/
lemma count_set_add_hits {refs : List (Option ℕ)} {k : ℕ} {old : Option ℕ}
    (hk : refs[k]? = some old) (new : Option ℕ) (p : ℕ) :
    (refs.set k new).count (some p) + hits old p = refs.count (some p) + hits new p := by
  induction refs generalizing k with
  | nil => exact absurd hk (by simp)
  | cons ref refs ih =>
      cases k with
      | zero =>
          obtain rfl : ref = old := by simpa using hk
          simp only [List.set_cons_zero, List.count_cons, hits, beq_iff_eq]
          omega
      | succ k =>
          simp only [List.set_cons_succ, List.count_cons]
          have hrest := ih (by simpa using hk)
          omega

/-- **The counts are right**, for a number of references to each address. -/
structure Counted (heap : Heap α) (n : ℕ → ℕ) : Prop where
  useCount : ∀ p b, heap[p]? = some b → b.useCount = n p
  destructions : ∀ p b, heap[p]? = some b → b.destructions = if n p = 0 then 1 else 0
  inside : ∀ p, heap.length ≤ p → n p = 0

lemma counted_nil : Counted ([] : Heap α) fun _ => 0 where
  useCount p b h := by simp at h
  destructions p b h := by simp at h
  inside _ _ := rfl

section

variable {heap : Heap α} {n n' : ℕ → ℕ} {ref : Option ℕ}

/-- The rule for an update of the block that a reference holds. -/
lemma Counted.modify (h : Counted heap n) {p₀ : ℕ} {f : Block α → Block α}
    (huse : ∀ b, heap[p₀]? = some b → (f b).useCount = n' p₀)
    (hdestructions : ∀ b, heap[p₀]? = some b →
      (f b).destructions = if n' p₀ = 0 then 1 else 0)
    (hinside : heap.length ≤ p₀ → n' p₀ = 0) (hother : ∀ p, p ≠ p₀ → n' p = n p) :
    Counted (heap.modify p₀ f) n' where
  useCount p b hb := by
    rcases Heap.getElem?_modify_cases hb with ⟨rfl, b, hold, rfl⟩ | ⟨hp, hold⟩
    · exact huse b hold
    · rw [hother p hp]
      exact h.useCount p b hold
  destructions p b hb := by
    rcases Heap.getElem?_modify_cases hb with ⟨rfl, b, hold, rfl⟩ | ⟨hp, hold⟩
    · exact hdestructions b hold
    · rw [hother p hp]
      exact h.destructions p b hold
  inside p hp := by
    rw [List.length_modify] at hp
    by_cases heq : p = p₀
    · subst heq
      exact hinside hp
    · rw [hother p heq]
      exact h.inside p hp

lemma Counted.of_eq (h : Counted heap n) (hn : ∀ p, n' p = n p) : Counted heap n' := by
  rwa [funext hn]

/-- **Copying a reference**, null or to something that is still referred to. -/
theorem Counted.retain (h : Counted heap n) (hlive : ∀ p, ref = some p → 0 < n p)
    (hn : ∀ p, n' p = n p + hits ref p) : Counted (heap.retain ref) n' := by
  cases ref with
  | none => exact h.of_eq hn
  | some p₀ =>
      have hp₀ : n' p₀ = n p₀ + 1 := by simpa [hits] using hn p₀
      refine h.modify ?_ ?_ ?_ ?_
      · intro b hb
        show b.useCount + 1 = n' p₀
        rw [hp₀, h.useCount p₀ b hb]
      · intro b hb
        show b.destructions = if n' p₀ = 0 then 1 else 0
        rw [h.destructions p₀ b hb, if_neg (hlive p₀ rfl).ne', if_neg (by omega)]
      · intro hlen
        exact absurd (h.inside p₀ hlen) (hlive p₀ rfl).ne'
      · intro p hp
        simpa [hits, Ne.symm hp] using hn p

/-- **Destroying a reference.** -/
theorem Counted.drop (h : Counted heap n) (hn : ∀ p, n p = n' p + hits ref p) :
    Counted (heap.drop ref) n' := by
  cases ref with
  | none => exact h.of_eq fun p => (hn p).symm
  | some p₀ =>
      have hp₀ : n p₀ = n' p₀ + 1 := by simpa [hits] using hn p₀
      refine h.modify ?_ ?_ ?_ ?_
      · intro b hb
        show b.useCount - 1 = n' p₀
        rw [h.useCount p₀ b hb]
        omega
      · intro b hb
        show (if b.useCount = 1 then b.destructions + 1 else b.destructions) = _
        rw [h.useCount p₀ b hb, h.destructions p₀ b hb]
        split_ifs <;> omega
      · intro hlen
        have hzero := h.inside p₀ hlen
        omega
      · intro p hp
        simpa [hits, Ne.symm hp] using (hn p).symm

/-- **Allocating a block** for one reference. -/
theorem Counted.allocate (h : Counted heap n) (value : α)
    (hn : ∀ p, n' p = n p + hits (some heap.length) p) : Counted (heap.allocate value) n' := by
  have hnew : n' heap.length = 1 := by
    rw [hn, h.inside _ le_rfl]
    simp [hits]
  have hold : ∀ p, p ≠ heap.length → n' p = n p := by
    intro p hp
    rw [hn, hits, if_neg (by simpa using Ne.symm hp), Nat.add_zero]
  refine ⟨?_, ?_, ?_⟩
  · intro p b hb
    rcases Heap.getElem?_allocate_cases hb with ⟨rfl, rfl⟩ | ⟨hp, hb⟩
    · exact hnew.symm
    · rw [hold p hp]
      exact h.useCount p b hb
  · intro p b hb
    rcases Heap.getElem?_allocate_cases hb with ⟨rfl, rfl⟩ | ⟨hp, hb⟩
    · rw [hnew]
      rfl
    · rw [hold p hp]
      exact h.destructions p b hb
  · intro p hp
    rw [Heap.length_allocate] at hp
    rw [hold p (by omega)]
    exact h.inside p (by omega)

/-- **What is referred to is alive.** -/
theorem Counted.alive (h : Counted heap n) {p : ℕ} (hp : 0 < n p) :
    ∃ b, heap[p]? = some b ∧ b.destructions = 0 := by
  have hlt : p < heap.length := by
    by_contra hle
    exact absurd (h.inside p (not_lt.mp hle)) hp.ne'
  have hb := List.getElem?_eq_getElem hlt
  exact ⟨heap[p], hb, by rw [h.destructions p _ hb, if_neg hp.ne']⟩

lemma Counted.deref_eq (h : Counted heap n) {p : ℕ} (hp : 0 < n p) :
    heap.deref (some p) = (heap.map Block.value)[p]? := by
  obtain ⟨b, hb, halive⟩ := h.alive hp
  rw [Heap.deref, Option.bind_some, List.getElem?_map, hb]
  simp [Option.filter, halive]

/-- **What is referred to stays as it is**, if values are only added. -/
lemma Counted.deref_kept {heap' : Heap α} (h : Counted heap n) (h' : Counted heap' n')
    (hvalues : heap.map Block.value <+: heap'.map Block.value) {p : ℕ} (hp : 0 < n p)
    (hp' : 0 < n' p) : heap'.deref (some p) = heap.deref (some p) := by
  obtain ⟨b, hb, -⟩ := h.alive hp
  have hlt : p < (heap.map Block.value).length := by
    rw [List.length_map]
    exact (List.getElem?_eq_some_iff.mp hb).1
  obtain ⟨added, hadded⟩ := hvalues
  rw [h'.deref_eq hp', h.deref_eq hp, ← hadded, List.getElem?_append_left hlt]

end

end RefCount
