import Netp2.Library.LastWrite
import Netp2.Library.RefCount
import Netp2.Library.StepRun

/-!
# Configuration snapshots

`ConfigSnapshotManager` keeps the current snapshot in a `std::shared_ptr`, which `publish` replaces
and `load` copies.  Around it are the shared pointers of the publishers and the readers; whose
thread they belong to does not matter, so they are one list of handles.

Every action is atomic: `publish` and `load` under the lock of the manager, the others because the
counts of a shared pointer are.  The argument of `publish` is a handle of its own, which the caller
has copied or moved before; the call moves it into `current_`.

`snapshots_reclaimed_exactly` holds of every interleaving.
-/

namespace Netp2.Config

open LastWrite RefCount StepRun

variable {T : Type}

/-! ## The manager -/

structure ConfigSnapshotManager where
  current : Option ℕ := none
  deriving DecidableEq, Repr

namespace ConfigSnapshotManager

/-- The move into `current_` drops what it held. -/
def publish (m : ConfigSnapshotManager) (heap : Heap T) (snapshot : Option ℕ) :
    ConfigSnapshotManager × Heap T :=
  ({ m with current := snapshot }, heap.drop m.current)

def load (m : ConfigSnapshotManager) (heap : Heap T) : Option ℕ × Heap T :=
  (m.current, heap.retain m.current)

end ConfigSnapshotManager

/-! ## The manager among its users -/

structure Shared (T : Type) where
  manager : ConfigSnapshotManager := {}
  heap : Heap T := []
  handles : List (Option ℕ) := []
  deriving DecidableEq, Repr

inductive Action (T : Type) where
  | make (value : T)
  | copy (k : ℕ)
  | move (k : ℕ)
  | publish (k : ℕ)
  | load
  | release (k : ℕ)
  deriving DecidableEq, Repr

namespace Shared

/-- The reference in a handle; a handle that is not there is as good as a null one. -/
def handle (s : Shared T) (k : ℕ) : Option ℕ :=
  s.handles[k]?.join

/-- One action; the answer is what `load` returns. -/
def step (s : Shared T) : Action T → Option ℕ × Shared T
  | .make value =>
      (none, { s with
        heap := s.heap.allocate value
        handles := s.handles ++ [some s.heap.length] })
  | .copy k =>
      (none, { s with
        heap := s.heap.retain (s.handle k)
        handles := s.handles ++ [s.handle k] })
  | .move k => (none, { s with handles := s.handles.set k none ++ [s.handle k] })
  | .publish k =>
      let (manager, heap) := s.manager.publish s.heap (s.handle k)
      (none, ⟨manager, heap, s.handles.set k none⟩)
  | .load =>
      let (loaded, heap) := s.manager.load s.heap
      (loaded, { s with heap := heap, handles := s.handles ++ [loaded] })
  | .release k =>
      (none, { s with
        heap := s.heap.drop (s.handle k)
        handles := s.handles.set k none })

/-- The references to an address: those in handles, and the current one. -/
def references (s : Shared T) (p : ℕ) : ℕ :=
  s.handles.count (some p) + hits s.manager.current p

end Shared

namespace Action

/-- The action empties this handle. -/
def Takes (k : ℕ) : Action T → Prop
  | .move j => j = k
  | .publish j => j = k
  | .release j => j = k
  | _ => False

instance (k : ℕ) : DecidablePred (Takes (T := T) k)
  | .make _ => isFalse id
  | .copy _ => isFalse id
  | .move j => inferInstanceAs (Decidable (j = k))
  | .publish j => inferInstanceAs (Decidable (j = k))
  | .load => isFalse id
  | .release j => inferInstanceAs (Decidable (j = k))

/-- The snapshot that the action creates. -/
def made : Action T → Option T
  | .make value => some value
  | _ => none

/-- The same action when there are `n` more handles in front. -/
def shift (n : ℕ) : Action T → Action T
  | .make value => .make value
  | .copy k => .copy (n + k)
  | .move k => .move (n + k)
  | .publish k => .publish (n + k)
  | .load => .load
  | .release k => .release (n + k)

end Action

abbrev SharedEvent (T : Type) := Event (Shared T) (Action T) (Option ℕ)

/-- What an event publishes. -/
def published (e : SharedEvent T) : Option (Option ℕ) :=
  match e.input with
  | .publish k => some (e.pre.handle k)
  | _ => none

/-- The snapshot of the latest publish, null before the first. -/
def latest (h : List (SharedEvent T)) : Option ℕ :=
  (lastSome published h).join

def reached (actions : List (Action T)) : Shared T :=
  final Shared.step {} actions

def history (actions : List (Action T)) : List (SharedEvent T) :=
  trace Shared.step {} actions

/-! ## The handles are counted -/

namespace Shared

lemma count_concat (handles : List (Option ℕ)) (ref : Option ℕ) (p : ℕ) :
    (handles ++ [ref]).count (some p) = handles.count (some p) + hits ref p := by
  rw [List.count_append, List.count_singleton, hits]
  simp

lemma count_set_none (handles : List (Option ℕ)) (k p : ℕ) :
    handles.count (some p)
      = (handles.set k none).count (some p) + hits (handles[k]?.join) p := by
  induction handles generalizing k with
  | nil => simp [hits]
  | cons ref handles ih =>
      cases k with
      | zero => simp [List.count_cons, hits]
      | succ k =>
          simp only [List.set_cons_succ, List.count_cons, List.getElem?_cons_succ]
          rw [ih k]
          omega

lemma references_of_handle {s : Shared T} {k p : ℕ} (h : s.handle k = some p) :
    0 < s.references p := by
  have hcount := count_set_none s.handles k p
  rw [handle] at h
  rw [h, hits, if_pos rfl] at hcount
  rw [references]
  omega

lemma references_of_current {s : Shared T} {p : ℕ} (h : s.manager.current = some p) :
    0 < s.references p := by
  rw [references, h, hits, if_pos rfl]
  omega

/-- **The step lemma**: every action changes counts and references alike. -/
theorem counted_step {s : Shared T} (h : Counted s.heap s.references) (a : Action T) :
    Counted (s.step a).2.heap (s.step a).2.references := by
  cases a with
  | make value =>
      refine h.allocate value ?_
      intro p
      rw [references, references]
      simp only [step, count_concat]
      omega
  | copy k =>
      refine h.retain (fun p hp => references_of_handle hp) ?_
      intro p
      rw [references, references]
      simp only [step, count_concat]
      omega
  | move k =>
      refine h.of_eq ?_
      intro p
      have hcount := count_set_none s.handles k p
      rw [references, references]
      simp only [step, count_concat, handle]
      omega
  | publish k =>
      refine h.drop ?_
      intro p
      have hcount := count_set_none s.handles k p
      rw [references, references]
      simp only [step, ConfigSnapshotManager.publish, handle]
      omega
  | load =>
      refine h.retain (fun p hp => references_of_current hp) ?_
      intro p
      rw [references, references]
      simp only [step, ConfigSnapshotManager.load, count_concat]
  | release k =>
      refine h.drop ?_
      intro p
      have hcount := count_set_none s.handles k p
      rw [references, references]
      simp only [step, handle]
      omega

/-! ## Handles beside others -/

/-- The same handles, with others in front of them. -/
def beside (others : List (Option ℕ)) (s : Shared T) : Shared T :=
  { s with handles := others ++ s.handles }

lemma references_beside (others : List (Option ℕ)) (s : Shared T) (p : ℕ) :
    (beside others s).references p = others.count (some p) + s.references p := by
  rw [references, references, beside, List.count_append, Nat.add_assoc]

lemma handle_beside (others : List (Option ℕ)) (s : Shared T) (k : ℕ) :
    (beside others s).handle (others.length + k) = s.handle k := by
  rw [handle, handle, beside, List.getElem?_append_right (Nat.le_add_right _ _),
    Nat.add_sub_cancel_left]

lemma set_beside (others : List (Option ℕ)) (s : Shared T) (k : ℕ) :
    (beside others s).handles.set (others.length + k) none = others ++ s.handles.set k none := by
  rw [beside, List.set_append_right _ _ (Nat.le_add_right _ _), Nat.add_sub_cancel_left]

/-- An action is the same whether or not there are handles in front. -/
lemma step_beside (others : List (Option ℕ)) (s : Shared T) (a : Action T) :
    ((beside others s).step (a.shift others.length)).2 = beside others (s.step a).2 := by
  cases a with
  | make value => simp [step, beside, Action.shift]
  | load => simp [step, beside, Action.shift, ConfigSnapshotManager.load]
  | copy k =>
      simp only [step, Action.shift, handle_beside]
      simp [beside]
  | move k =>
      simp only [step, Action.shift, handle_beside, set_beside]
      simp [beside]
  | publish k =>
      simp only [step, Action.shift, handle_beside, set_beside]
      rfl
  | release k =>
      simp only [step, Action.shift, handle_beside, set_beside]
      rfl

/-- **The step lemma among other handles**, which an action leaves alone. -/
theorem counted_step_beside {s : Shared T} {others : List (Option ℕ)}
    (h : Counted s.heap fun p => others.count (some p) + s.references p) (a : Action T) :
    Counted (s.step a).2.heap fun p => others.count (some p) + (s.step a).2.references p := by
  have hbeside : Counted (beside others s).heap (beside others s).references :=
    h.of_eq (references_beside others s)
  have hstep := counted_step hbeside (a.shift others.length)
  rw [step_beside] at hstep
  exact hstep.of_eq fun p => (references_beside others _ p).symm

/-! ## What an action leaves alone -/

/-- No snapshot is ever changed. -/
lemma values_step (s : Shared T) (a : Action T) :
    (s.step a).2.heap.map Block.value = s.heap.map Block.value ++ a.made.toList := by
  cases a <;> simp [step, Action.made, ConfigSnapshotManager.publish, ConfigSnapshotManager.load]

/-- A handle keeps its reference until it is emptied. -/
lemma handle_step {s : Shared T} {a : Action T} {k p : ℕ} (h : s.handle k = some p)
    (ha : ¬a.Takes k) : (s.step a).2.handle k = some p := by
  have hmem : s.handles[k]? = some (some p) := Option.join_eq_some_iff.mp h
  have hlt : k < s.handles.length := (List.getElem?_eq_some_iff.mp hmem).1
  have happend : ∀ ref, (s.handles ++ [ref])[k]?.join = some p := by
    intro ref
    rw [List.getElem?_append_left hlt]
    exact h
  have hset : ∀ j, j ≠ k → (s.handles.set j none)[k]?.join = some p := by
    intro j hj
    rw [List.getElem?_set_ne hj]
    exact h
  cases a with
  | make value => exact happend _
  | copy j => exact happend _
  | load => exact happend _
  | publish j => exact hset j ha
  | release j => exact hset j ha
  | move j =>
      show (s.handles.set j none ++ [s.handle j])[k]?.join = some p
      rw [List.getElem?_append_left (by simpa using hlt)]
      exact hset j ha

lemma handle_final {s : Shared T} {k p : ℕ} (h : s.handle k = some p) (more : List (Action T))
    (hmore : ∀ a ∈ more, ¬a.Takes k) : (final step s more).handle k = some p := by
  induction more generalizing s with
  | nil => exact h
  | cons a more ih =>
      have hstep := handle_step h (hmore a List.mem_cons_self)
      exact ih hstep fun x hx => hmore x (List.mem_cons_of_mem a hx)

end Shared

/-! ## Every interleaving -/

/-- **Counts and current pointer against the history.** -/
structure Invariant (h : List (SharedEvent T)) (s : Shared T) : Prop where
  counted : Counted s.heap s.references
  current : s.manager.current = latest h

lemma latest_concat (h : List (SharedEvent T)) (e : SharedEvent T) :
    latest (h ++ [e]) = ((published e).or (lastSome published h)).join := by
  have hlast : lastSome published [e] = published e := by simp [lastSome]
  rw [latest, lastSome_append, hlast]

lemma invariant_step {h : List (SharedEvent T)} {s : Shared T} (hi : Invariant h s)
    (a : Action T) : Invariant (h ++ [event Shared.step s a]) (s.step a).2 where
  counted := Shared.counted_step hi.counted a
  current := by
    rw [latest_concat]
    cases a with
    | publish k => rfl
    | _ => exact hi.current

lemma invariant_init : Invariant ([] : List (SharedEvent T)) {} where
  counted := counted_nil.of_eq fun _ => rfl
  current := rfl

lemma invariant_reached (actions : List (Action T)) :
    Invariant (history actions) (reached actions) :=
  invariant_trace invariant_init (fun _ _ a hi => invariant_step hi a) actions

lemma reached_concat (actions : List (Action T)) (a : Action T) :
    reached (actions ++ [a]) = ((reached actions).step a).2 :=
  final_concat _ actions a

lemma reached_append (actions more : List (Action T)) :
    reached (actions ++ more) = final Shared.step (reached actions) more :=
  final_append _ actions more

/-- The values of the blocks are those that were made, in order. -/
lemma values_reached (actions : List (Action T)) :
    (reached actions).heap.map Block.value = actions.filterMap Action.made := by
  induction actions using List.reverseRecOn with
  | nil => rfl
  | append_singleton actions a ih =>
      rw [reached_concat, Shared.values_step, ih, List.filterMap_append]
      cases a <;> rfl

/-- What is referred to stands for the snapshot made there. -/
lemma deref_reached {actions : List (Action T)} {p : ℕ} (hp : 0 < (reached actions).references p) :
    ∃ v, (actions.filterMap Action.made)[p]? = some v ∧
      (reached actions).heap.deref (some p) = some v := by
  have hcounted := (invariant_reached actions).counted
  obtain ⟨b, hb, -⟩ := hcounted.alive hp
  have hvalue : (actions.filterMap Action.made)[p]? = some b.value := by
    rw [← values_reached, List.getElem?_map, hb]
    rfl
  exact ⟨b.value, hvalue, by rw [hcounted.deref_eq hp, values_reached, hvalue]⟩

/-- A block is destroyed in the step in which its last reference goes. -/
lemma destroyed_in_step {heap heap' : Heap T} {n n' : ℕ → ℕ} (h : Counted heap n)
    (h' : Counted heap' n') {p : ℕ} {b b' : Block T} (hb : heap[p]? = some b)
    (hb' : heap'[p]? = some b') :
    b'.destructions = b.destructions + 1 ↔ 0 < n p ∧ n' p = 0 := by
  rw [h.destructions p b hb, h'.destructions p b' hb', Nat.pos_iff_ne_zero]
  by_cases hn : n p = 0 <;> by_cases hn' : n' p = 0 <;> simp [hn, hn']

/-- **Snapshots are switched atomically and reclaimed exactly when unused.**  After any interleaving
of actions:
* a `load` returns the snapshot of the latest publish;
* a handle refers to its snapshot until it is emptied, whatever else happens;
* the count of a block is the number of handles to it, plus one if it is the current one;
* a block has been destroyed, and then once, exactly if this number is zero, and the destruction is
  part of the action that makes it zero;
* what a handle or the manager refers to is alive and as it was made. -/
theorem snapshots_reclaimed_exactly (actions : List (Action T)) :
    ((reached actions).step .load).1 = latest (history actions) ∧
    ((reached actions).step .load).2.handles
      = (reached actions).handles ++ [latest (history actions)] ∧
    (∀ k p, (reached actions).handle k = some p → ∀ more : List (Action T),
      (∀ a ∈ more, ¬a.Takes k) →
        (reached (actions ++ more)).handle k = some p ∧
        (reached (actions ++ more)).heap.deref (some p) = (reached actions).heap.deref (some p)) ∧
    (∀ p b, (reached actions).heap[p]? = some b →
      b.useCount = (reached actions).handles.count (some p)
        + (if (reached actions).manager.current = some p then 1 else 0)) ∧
    (∀ p b, (reached actions).heap[p]? = some b →
      b.destructions = if (reached actions).references p = 0 then 1 else 0) ∧
    (∀ a p b b', (reached actions).heap[p]? = some b →
      ((reached actions).step a).2.heap[p]? = some b' →
        (b'.destructions = b.destructions + 1 ↔
          0 < (reached actions).references p ∧ ((reached actions).step a).2.references p = 0)) ∧
    (∀ p, some p ∈ (reached actions).handles ∨ (reached actions).manager.current = some p →
      ∃ v, (actions.filterMap Action.made)[p]? = some v ∧
        (reached actions).heap.deref (some p) = some v) := by
  obtain ⟨hcounted, hcurrent⟩ := invariant_reached actions
  refine ⟨hcurrent, ?_, ?_, ?_, ?_, ?_, ?_⟩
  · rw [← hcurrent]
    rfl
  · intro k p hk more hmore
    have hlater : (reached (actions ++ more)).handle k = some p := by
      rw [reached_append]
      exact Shared.handle_final hk more hmore
    obtain ⟨v, hv, hderef⟩ := deref_reached (Shared.references_of_handle hk)
    obtain ⟨v', hv', hderef'⟩ := deref_reached (Shared.references_of_handle hlater)
    refine ⟨hlater, ?_⟩
    -- later snapshots are made at later addresses
    rw [List.filterMap_append, List.getElem?_append_left (List.getElem?_eq_some_iff.mp hv).1] at hv'
    rw [hderef, hderef', ← hv, ← hv']
  · intro p b hb
    exact hcounted.useCount p b hb
  · intro p b hb
    exact hcounted.destructions p b hb
  · intro a p b b' hb hb'
    exact destroyed_in_step hcounted (Shared.counted_step hcounted a) hb hb'
  · intro p hp
    refine deref_reached ?_
    rcases hp with hmem | hcur
    · have hpos := List.count_pos_iff.mpr hmem
      rw [Shared.references]
      omega
    · exact Shared.references_of_current hcur

/-- A reader keeps the first snapshot beyond its replacement, and reclaims it by letting go. -/
example :
    let replaced : List (Action ℕ) := [.make 1, .publish 0, .load, .make 2, .publish 2]
    (reached replaced).heap = [⟨1, 1, 0⟩, ⟨2, 1, 0⟩] ∧
      (reached (replaced ++ [.release 1])).heap = [⟨1, 0, 1⟩, ⟨2, 1, 0⟩] := by
  decide

end Netp2.Config
