import Mathlib.Algebra.Order.Monoid.Canonical.Defs
import Mathlib.Data.Finmap
import Mathlib.Tactic

/-!
# The weight of a map

The weight of a finite map is the sum of the weights of its entries, such as the bytes that it
stores.  Writing an entry may replace another, so the weight grows by at most the weight of what is
written (`weight_insert_le`); it may also fall.
-/

namespace MapWeight

variable {K V M : Type}

def weight [AddCommMonoid M] (w : K → V → M) (m : Finmap fun _ : K => V) : M :=
  (m.entries.map fun e => w e.1 e.2).sum

variable [DecidableEq K]

lemma entries_erase_le (m : Finmap fun _ : K => V) (k : K) : (m.erase k).entries ≤ m.entries := by
  induction m using Finmap.induction_on with
  | _ l => exact Multiset.coe_le.mpr (List.kerase_sublist k l.entries).subperm

lemma entries_insert (m : Finmap fun _ : K => V) (k : K) (v : V) :
    (m.insert k v).entries = ⟨k, v⟩ ::ₘ (m.erase k).entries := by
  induction m using Finmap.induction_on with
  | _ l => simp [Finmap.insert_toFinmap, Finmap.erase_toFinmap, AList.erase]

variable [AddCommMonoid M] [PartialOrder M] [CanonicallyOrderedAdd M]

lemma weight_erase_le (w : K → V → M) (m : Finmap fun _ : K => V) (k : K) :
    weight w (m.erase k) ≤ weight w m := by
  obtain ⟨rest, hrest⟩ := Multiset.le_iff_exists_add.mp (entries_erase_le m k)
  rw [weight, weight, hrest, Multiset.map_add, Multiset.sum_add]
  exact le_self_add

/-- **Writing an entry** adds at most its weight. -/
theorem weight_insert_le [IsOrderedAddMonoid M] (w : K → V → M) (m : Finmap fun _ : K => V) (k : K) (v : V) :
    weight w (m.insert k v) ≤ w k v + weight w m := by
  rw [weight, entries_insert, Multiset.map_cons, Multiset.sum_cons]
  exact add_le_add_right (weight_erase_le w m k) (w k v)

end MapWeight
