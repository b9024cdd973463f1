import Mathlib.Data.List.Basic
import Mathlib.Data.List.Infix
import Mathlib.Data.Nat.Find
import Mathlib.Tactic

/-!
# Prefix tries with a list of values at every node

A trie over keys `κ` whose nodes carry lists of values `α`, as a routing table, a dictionary or a
file tree keeps them.  Three operations are enough for a table that is compiled once and then only
read: `insert` walks down a path, creating what is missing, and appends one value at its end;
`mapValues` rewrites the list at every node in place; `deepest` walks along a path and remembers
the last node that held anything.

Everything is stated through one observation, `valuesAt t p`, the list found at the end of path
`p`.  It never mentions the shape of the trie, so a client needs no invariant about nodes,
sharing or insertion order:

* `valuesAt_insert` — inserting at `p` appends at `p` and changes nothing else.
* `valuesAt_mapValues` — rewriting acts on every observation.
* `deepest_of_isLongest`, `deepest_of_none` — the walk finds the longest non-empty prefix that
  carries a value, however many bare nodes lie on the way.
-/

/-- A node: its children by key, and the values stored at it. -/
inductive PrefixTrie (κ α : Type) where
  | node (children : List (κ × PrefixTrie κ α)) (values : List α)

namespace PrefixTrie

variable {κ α : Type} [DecidableEq κ]

/-! ## The operations -/

def empty : PrefixTrie κ α := node [] []

instance : Inhabited (PrefixTrie κ α) := ⟨empty⟩

def children : PrefixTrie κ α → List (κ × PrefixTrie κ α)
  | node cs _ => cs

def values : PrefixTrie κ α → List α
  | node _ vs => vs

def child? (k : κ) (t : PrefixTrie κ α) : Option (PrefixTrie κ α) :=
  t.children.lookup k

/-- Replace the child under key `k`, or add it when there is none. -/
def setChild (k : κ) (t : PrefixTrie κ α) :
    List (κ × PrefixTrie κ α) → List (κ × PrefixTrie κ α)
  | [] => [(k, t)]
  | (k', t') :: rest => if k' = k then (k, t) :: rest else (k', t') :: setChild k t rest

/-- Walk down the path, creating the missing nodes, and append `v` at its end. -/
def insert (v : α) : List κ → PrefixTrie κ α → PrefixTrie κ α
  | [], t => node t.children (t.values ++ [v])
  | k :: ks, t => node (setChild k (insert v ks ((t.child? k).getD empty)) t.children) t.values

mutual
/-- Rewrite the list of values at every node. -/
def mapValues (f : List α → List α) : PrefixTrie κ α → PrefixTrie κ α
  | node cs vs => node (mapChildren f cs) (f vs)

def mapChildren (f : List α → List α) : List (κ × PrefixTrie κ α) → List (κ × PrefixTrie κ α)
  | [] => []
  | (k, t) :: rest => (k, mapValues f t) :: mapChildren f rest
end

/-- Walk along the path as far as there are children, remembering the values of the last node that
had any.  `best` is what is remembered so far. -/
def deepestFrom (best : List α) : List κ → PrefixTrie κ α → List α
  | [], _ => best
  | k :: ks, t =>
      match t.child? k with
      | none => best
      | some c => deepestFrom (if c.values.isEmpty then best else c.values) ks c

/-- The values of the deepest node on the path that has any; the starting node does not count. -/
def deepest (ks : List κ) (t : PrefixTrie κ α) : List α :=
  deepestFrom [] ks t

/-! ## The observation -/

def valuesAt : PrefixTrie κ α → List κ → List α
  | t, [] => t.values
  | t, k :: ks =>
      match t.child? k with
      | none => []
      | some c => valuesAt c ks

@[simp] lemma valuesAt_nil (t : PrefixTrie κ α) : t.valuesAt [] = t.values := by
  rw [valuesAt]

lemma valuesAt_cons (t : PrefixTrie κ α) (k : κ) (ks : List κ) :
    t.valuesAt (k :: ks) = ((t.child? k).map (·.valuesAt ks)).getD [] := by
  rw [valuesAt]
  cases t.child? k <;> rfl

@[simp] lemma valuesAt_empty (ks : List κ) : (empty : PrefixTrie κ α).valuesAt ks = [] := by
  cases ks with
  | nil => rfl
  | cons k ks => rfl

lemma lookup_cons_eq_ite (k k' : κ) (t : PrefixTrie κ α) (cs : List (κ × PrefixTrie κ α)) :
    ((k', t) :: cs).lookup k = if k = k' then some t else cs.lookup k := by
  rw [List.lookup_cons]
  by_cases h : k = k'
  · simp [h]
  · simp [h, beq_eq_false_iff_ne.mpr h]

lemma lookup_setChild (k k' : κ) (t : PrefixTrie κ α) (cs : List (κ × PrefixTrie κ α)) :
    (setChild k t cs).lookup k' = if k' = k then some t else cs.lookup k' := by
  induction cs with
  | nil => rw [setChild, lookup_cons_eq_ite]
  | cons c cs ih =>
      obtain ⟨k₁, t₁⟩ := c
      by_cases h₁ : k₁ = k
      · -- the child that is replaced stood under the same key
        subst h₁
        simp only [setChild, if_true, lookup_cons_eq_ite]
        split_ifs <;> rfl
      · simp only [setChild, h₁, if_false, lookup_cons_eq_ite, ih]
        split_ifs with h h'
        · exact absurd (h.symm.trans h') h₁
        · rfl
        · rfl
        · rfl

/-- **Inserting is local.**  The value arrives at the end of its own path, behind what was there,
and no other path sees a difference. -/
theorem valuesAt_insert (v : α) : ∀ (p : List κ) (t : PrefixTrie κ α) (q : List κ),
    (insert v p t).valuesAt q = if q = p then t.valuesAt q ++ [v] else t.valuesAt q
  | [], t, [] => by simp [insert, values]
  | [], t, k :: ks => by simp [insert, valuesAt_cons, child?, children]
  | k :: ks, t, [] => by simp [insert, values]
  | k :: ks, t, k' :: ks' => by
      have ih := valuesAt_insert v ks ((t.child? k).getD empty) ks'
      simp only [insert, valuesAt_cons, child?, children, lookup_setChild]
      by_cases hk : k' = k
      · subst hk
        have hold : ((t.child? k').getD empty).valuesAt ks' = t.valuesAt (k' :: ks') := by
          rw [valuesAt_cons]
          cases t.child? k' <;> simp
        rw [hold, valuesAt_cons] at ih
        simpa [child?, children] using ih
      · simp [hk]

lemma lookup_mapChildren (f : List α → List α) (k : κ) (cs : List (κ × PrefixTrie κ α)) :
    (mapChildren f cs).lookup k = (cs.lookup k).map (mapValues f) := by
  induction cs with
  | nil => rfl
  | cons c cs ih =>
      obtain ⟨k₁, t₁⟩ := c
      simp only [mapChildren, lookup_cons_eq_ite, ih]
      split_ifs <;> rfl

lemma child?_mapValues (f : List α → List α) (k : κ) (t : PrefixTrie κ α) :
    (mapValues f t).child? k = (t.child? k).map (mapValues f) := by
  obtain ⟨cs, vs⟩ := t
  exact lookup_mapChildren f k cs

/-- **Rewriting acts on every observation.**  `f [] = []` is needed for the paths that have no
node. -/
theorem valuesAt_mapValues (f : List α → List α) (hf : f [] = []) :
    ∀ (q : List κ) (t : PrefixTrie κ α), (mapValues f t).valuesAt q = f (t.valuesAt q)
  | [], t => by
      obtain ⟨cs, vs⟩ := t
      rfl
  | k :: ks, t => by
      rw [valuesAt_cons, valuesAt_cons, child?_mapValues]
      cases t.child? k with
      | none => simp [hf]
      | some c => simpa using valuesAt_mapValues f hf ks c

/-! ## The longest prefix that carries a value -/

/-- `p` is the longest non-empty prefix of `ks` that satisfies `P`. -/
def IsLongest (P : List κ → Prop) (ks p : List κ) : Prop :=
  p ≠ [] ∧ p <+: ks ∧ P p ∧ ∀ q, q ≠ [] → q <+: ks → P q → q.length ≤ p.length

omit [DecidableEq κ] in
lemma IsLongest.unique {P : List κ → Prop} {ks p q : List κ} (hp : IsLongest P ks p)
    (hq : IsLongest P ks q) : p = q := by
  obtain ⟨hp0, hpk, hpP, hpmax⟩ := hp
  obtain ⟨hq0, hqk, hqP, hqmax⟩ := hq
  have hlen : p.length = q.length := le_antisymm (hqmax p hp0 hpk hpP) (hpmax q hq0 hqk hqP)
  exact (List.prefix_of_prefix_length_le hpk hqk hlen.le).eq_of_length hlen

omit [DecidableEq κ] in
/-- Among finitely many prefixes, one that satisfies `P` yields a longest one. -/
lemma exists_isLongest {P : List κ → Prop} {ks q : List κ} (hq0 : q ≠ []) (hqk : q <+: ks)
    (hqP : P q) : ∃ p, IsLongest P ks p := by
  classical
  -- the greatest length that occurs belongs to the longest prefix
  let Q : ℕ → Prop := fun n => ∃ r, r ≠ [] ∧ r <+: ks ∧ P r ∧ r.length = n
  have hQ : Q (Nat.findGreatest Q ks.length) :=
    Nat.findGreatest_spec hqk.length_le ⟨q, hq0, hqk, hqP, rfl⟩
  obtain ⟨p, hp0, hpk, hpP, hplen⟩ := hQ
  refine ⟨p, hp0, hpk, hpP, ?_⟩
  intro r hr0 hrk hrP
  rw [hplen]
  exact Nat.le_findGreatest hrk.length_le ⟨r, hr0, hrk, hrP, rfl⟩

/-- Nothing on the path: the walk returns what it started with. -/
lemma deepestFrom_of_none : ∀ (ks : List κ) (best : List α) (t : PrefixTrie κ α),
    (∀ q, q ≠ [] → q <+: ks → t.valuesAt q = []) → deepestFrom best ks t = best
  | [], best, t, _ => by rw [deepestFrom]
  | k :: ks, best, t, h => by
      rw [deepestFrom]
      cases hc : t.child? k with
      | none => rfl
      | some c =>
          have hstep : ∀ q, q <+: ks → c.valuesAt q = [] := by
            intro q hq
            have := h (k :: q) (by simp) (List.cons_prefix_cons.mpr ⟨rfl, hq⟩)
            simpa [valuesAt_cons, hc] using this
          have hempty : c.values = [] := by simpa using hstep [] List.nil_prefix
          simp only [hempty, List.isEmpty_nil, if_true]
          exact deepestFrom_of_none ks best c fun q _ hq => hstep q hq

/-- **The walk finds the longest prefix that carries a value.**  Bare nodes on the way are passed
without forgetting the last node that held something. -/
theorem deepestFrom_of_isLongest : ∀ (ks p : List κ) (best : List α) (t : PrefixTrie κ α),
    IsLongest (fun q => t.valuesAt q ≠ []) ks p → deepestFrom best ks t = t.valuesAt p
  | [], p, best, t, ⟨hp0, hpk, _, _⟩ => absurd (List.prefix_nil.mp hpk) hp0
  | k :: ks, [], best, t, ⟨hp0, _, _, _⟩ => absurd rfl hp0
  | k :: ks, k' :: p, best, t, ⟨_, hpk, hpP, hmax⟩ => by
      obtain ⟨rfl, htail⟩ := List.cons_prefix_cons.mp hpk
      cases hc : t.child? k' with
      | none => simp [valuesAt_cons, hc] at hpP
      | some c =>
          have hval : ∀ q, t.valuesAt (k' :: q) = c.valuesAt q := fun q => by
            simp [valuesAt_cons, hc]
          have hmax' : ∀ q, q <+: ks → c.valuesAt q ≠ [] → q.length ≤ p.length := by
            intro q hq hne
            have := hmax (k' :: q) (by simp) (List.cons_prefix_cons.mpr ⟨rfl, hq⟩)
              (by simpa only [hval] using hne)
            simpa using this
          have hpP : c.valuesAt p ≠ [] := by simpa only [hval] using hpP
          rw [deepestFrom, hc, hval]
          by_cases hp : p = []
          · -- the child itself is the last node with values
            subst hp
            have hne : c.values ≠ [] := by simpa using hpP
            simp only [valuesAt_nil, List.isEmpty_eq_false_iff.mpr hne, Bool.false_eq_true,
              if_false]
            refine deepestFrom_of_none ks c.values c ?_
            intro q hq0 hqk
            by_contra hq
            exact hq0 (List.length_eq_zero_iff.mp (Nat.le_zero.mp (hmax' q hqk hq)))
          · exact deepestFrom_of_isLongest ks p _ c ⟨hp, htail, hpP, fun q _ => hmax' q⟩

lemma deepest_of_isLongest {t : PrefixTrie κ α} {ks p : List κ}
    (h : IsLongest (fun q => t.valuesAt q ≠ []) ks p) : deepest ks t = t.valuesAt p :=
  deepestFrom_of_isLongest ks p [] t h

lemma deepest_of_none {t : PrefixTrie κ α} {ks : List κ}
    (h : ∀ q, q ≠ [] → q <+: ks → t.valuesAt q = []) : deepest ks t = [] :=
  deepestFrom_of_none ks [] t h

/-- What the walk finds is at some node. -/
lemma mem_deepest {t : PrefixTrie κ α} {ks : List κ} {v : α} (h : v ∈ t.deepest ks) :
    ∃ q, v ∈ t.valuesAt q := by
  by_cases hsome : ∃ q, q ≠ [] ∧ q <+: ks ∧ t.valuesAt q ≠ []
  · obtain ⟨q, hq0, hqk, hq⟩ := hsome
    obtain ⟨p, hp⟩ := exists_isLongest (P := fun q => t.valuesAt q ≠ []) hq0 hqk hq
    exact ⟨p, by rwa [deepest_of_isLongest hp] at h⟩
  · have hnone : ∀ q, q ≠ [] → q <+: ks → t.valuesAt q = [] := by
      intro q hq0 hqk
      by_contra hq
      exact hsome ⟨q, hq0, hqk, hq⟩
    rw [deepest_of_none hnone] at h
    exact absurd h List.not_mem_nil

/-- **What is observed decides the walk.**  If what one trie holds is the image of what another one
holds, then so is what the walk finds. -/
theorem deepest_map {β : Type} {f : α → β} {t : PrefixTrie κ α} {u : PrefixTrie κ β}
    (h : ∀ q, u.valuesAt q = (t.valuesAt q).map f) (ks : List κ) :
    u.deepest ks = (t.deepest ks).map f := by
  have hne : ∀ q, u.valuesAt q ≠ [] ↔ t.valuesAt q ≠ [] := by
    intro q
    rw [h, ne_eq, List.map_eq_nil_iff]
  by_cases hsome : ∃ q, q ≠ [] ∧ q <+: ks ∧ t.valuesAt q ≠ []
  · obtain ⟨q, hq0, hqk, hq⟩ := hsome
    obtain ⟨p, hp⟩ := exists_isLongest (P := fun q => t.valuesAt q ≠ []) hq0 hqk hq
    have hp' : IsLongest (fun q => u.valuesAt q ≠ []) ks p := by
      simpa only [IsLongest, hne] using hp
    rw [deepest_of_isLongest hp, deepest_of_isLongest hp', h]
  · have hnone : ∀ q, q ≠ [] → q <+: ks → t.valuesAt q = [] := by
      intro q hq0 hqk
      by_contra hq
      exact hsome ⟨q, hq0, hqk, hq⟩
    rw [deepest_of_none hnone, List.map_nil]
    refine deepest_of_none ?_
    intro q hq0 hqk
    rw [h, hnone q hq0 hqk, List.map_nil]

end PrefixTrie
