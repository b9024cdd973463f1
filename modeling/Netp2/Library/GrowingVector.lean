import Mathlib.Data.List.Basic
import Mathlib.Tactic

/-!
# Growing vectors and pointers into them

A vector like `std::vector`: the elements lie in a storage of some capacity, and appending to a full
storage moves them to a new one.  A pointer to an element says which storage and which place; it
stands for the element as long as the vector is in that storage.

How much a new storage has room for is a parameter, `Growth`.  Pointers survive as many `pushBack`s
as the storage has room for (`deref_pushAll`), and not one more (`deref_pushAll_of_lt`).
-/

/-- The capacity of a new storage, for a number of elements that are there already. -/
structure Growth where
  capacity : ℕ → ℕ
  lt_capacity : ∀ n, n < capacity n

structure GrowingVector (α : Type) where
  elements : List α := []
  capacity : ℕ := 0
  /-- The storages are numbered as they are allocated. -/
  storage : ℕ := 0
  fits : elements.length ≤ capacity := by simp

structure Pointer where
  storage : ℕ
  index : ℕ
  deriving DecidableEq, Repr

namespace GrowingVector

variable {α : Type} (G : Growth)

def pushBack (v : GrowingVector α) (x : α) : GrowingVector α :=
  if h : v.elements.length < v.capacity then
    { v with elements := v.elements ++ [x], fits := by simpa using h }
  else
    { elements := v.elements ++ [x]
      capacity := G.capacity v.elements.length
      storage := v.storage + 1
      fits := by simpa using G.lt_capacity v.elements.length }

def pushAll (v : GrowingVector α) (xs : List α) : GrowingVector α :=
  xs.foldl (pushBack G) v

/-- What a pointer stands for; nothing, if the elements have moved. -/
def deref (v : GrowingVector α) (p : Pointer) : Option α :=
  if p.storage = v.storage then v.elements[p.index]? else none

/-- The pointer to place `i`. -/
def pointer (v : GrowingVector α) (i : ℕ) : Pointer :=
  ⟨v.storage, i⟩

variable {G} {v : GrowingVector α}

lemma deref_pointer (v : GrowingVector α) (i : ℕ) : v.deref (v.pointer i) = v.elements[i]? :=
  if_pos rfl

@[simp] lemma elements_pushBack (v : GrowingVector α) (x : α) :
    (v.pushBack G x).elements = v.elements ++ [x] := by
  rw [pushBack]
  split_ifs <;> rfl

lemma elements_pushAll (v : GrowingVector α) (xs : List α) :
    (v.pushAll G xs).elements = v.elements ++ xs := by
  induction xs generalizing v with
  | nil => exact (List.append_nil _).symm
  | cons x xs ih =>
      rw [pushAll, List.foldl_cons, ← pushAll, ih, elements_pushBack, List.append_assoc]
      rfl

lemma storage_le_pushBack (v : GrowingVector α) (x : α) :
    v.storage ≤ (v.pushBack G x).storage := by
  rw [pushBack]
  split_ifs
  · exact le_rfl
  · exact Nat.le_succ _

lemma storage_le_pushAll (v : GrowingVector α) (xs : List α) :
    v.storage ≤ (v.pushAll G xs).storage := by
  induction xs generalizing v with
  | nil => exact le_rfl
  | cons x xs ih => exact (storage_le_pushBack v x).trans (ih (v.pushBack G x))

/-- **When the elements move**: exactly if there is no room for all that is appended. -/
theorem storage_pushAll_eq_iff (v : GrowingVector α) (xs : List α) :
    (v.pushAll G xs).storage = v.storage ↔ v.elements.length + xs.length ≤ v.capacity := by
  induction xs generalizing v with
  | nil => exact ⟨fun _ => v.fits, fun _ => rfl⟩
  | cons x xs ih =>
      have hnext := storage_le_pushAll (G := G) (v.pushBack G x) xs
      rw [pushAll, List.foldl_cons, ← pushAll, List.length_cons]
      by_cases hroom : v.elements.length < v.capacity
      · have hstorage : (v.pushBack G x).storage = v.storage := by rw [pushBack, dif_pos hroom]
        have hcapacity : (v.pushBack G x).capacity = v.capacity := by rw [pushBack, dif_pos hroom]
        rw [← hstorage, ih, elements_pushBack, List.length_append, hcapacity, List.length_singleton]
        omega
      · have hstorage : (v.pushBack G x).storage = v.storage + 1 := by rw [pushBack, dif_neg hroom]
        omega

/-- **Pointers survive** what there is room for. -/
theorem deref_pushAll {xs : List α} {i : ℕ} (hi : i < v.elements.length)
    (hroom : v.elements.length + xs.length ≤ v.capacity) :
    (v.pushAll G xs).deref (v.pointer i) = v.elements[i]? := by
  have hsame : (v.pointer i).storage = (v.pushAll G xs).storage :=
    ((storage_pushAll_eq_iff v xs).mpr hroom).symm
  rw [deref, if_pos hsame, elements_pushAll, ← List.getElem?_append_left hi]
  rfl

/-- **Pointers dangle** beyond that. -/
theorem deref_pushAll_of_lt {xs : List α} (i : ℕ)
    (hfull : v.capacity < v.elements.length + xs.length) :
    (v.pushAll G xs).deref (v.pointer i) = none := by
  refine if_neg ?_
  intro hsame
  exact absurd ((storage_pushAll_eq_iff v xs).mp hsame.symm) (Nat.not_le.mpr hfull)

end GrowingVector
