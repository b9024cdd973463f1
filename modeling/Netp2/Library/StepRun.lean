import Mathlib.Data.List.Basic
import Mathlib.Tactic

/-!
# Runs of a step function and their history

An object with mutable state is a step function `σ → ι → ο × σ`: a state and a call give an answer
and the next state.  A run is the state after a list of calls (`final`) together with the list of
what happened (`trace`), one `Event` for each call with the states before and after it.

Histories are read from their end.  `countSince stop p h` counts the events with `p` after the last
event with `stop`, which is what "consecutive failures since the last success" and the like come
to; `countSince_concat` is its step rule.

`thin` leaves out the calls at some positions, and `outputs_thin` is the rule for showing that the
others do not notice.
-/

namespace StepRun

variable {σ ι ο : Type}

/-- One call of a run. -/
structure Event (σ ι ο : Type) where
  pre : σ
  input : ι
  output : ο
  post : σ

def event (step : σ → ι → ο × σ) (s : σ) (i : ι) : Event σ ι ο :=
  ⟨s, i, (step s i).1, (step s i).2⟩

def final (step : σ → ι → ο × σ) (s : σ) : List ι → σ
  | [] => s
  | i :: is => final step (step s i).2 is

/-- What happens during a list of calls. -/
def trace (step : σ → ι → ο × σ) (s : σ) : List ι → List (Event σ ι ο)
  | [] => []
  | i :: is => event step s i :: trace step (step s i).2 is

def outputs (step : σ → ι → ο × σ) (s : σ) : List ι → List ο
  | [] => []
  | i :: is => (step s i).1 :: outputs step (step s i).2 is

variable {step : σ → ι → ο × σ} {s : σ}

/-! ## A run and one part of it after the other -/

lemma final_append (s : σ) (is js : List ι) :
    final step s (is ++ js) = final step (final step s is) js := by
  induction is generalizing s with
  | nil => rfl
  | cons i is ih => exact ih (step s i).2

lemma trace_append (s : σ) (is js : List ι) :
    trace step s (is ++ js) = trace step s is ++ trace step (final step s is) js := by
  induction is generalizing s with
  | nil => rfl
  | cons i is ih => exact congrArg (event step s i :: ·) (ih (step s i).2)

lemma trace_concat (s : σ) (is : List ι) (i : ι) :
    trace step s (is ++ [i]) = trace step s is ++ [event step (final step s is) i] :=
  trace_append s is [i]

lemma final_concat (s : σ) (is : List ι) (i : ι) :
    final step s (is ++ [i]) = (step (final step s is) i).2 :=
  final_append s is [i]

lemma outputs_append (s : σ) (is js : List ι) :
    outputs step s (is ++ js) = outputs step s is ++ outputs step (final step s is) js := by
  induction is generalizing s with
  | nil => rfl
  | cons i is ih => exact congrArg ((step s i).1 :: ·) (ih (step s i).2)

/-- The answer to call `k` is given in the state after the first `k` calls. -/
lemma getElem?_outputs (s : σ) (is : List ι) (k : ℕ) :
    (outputs step s is)[k]? = is[k]?.map fun i => (step (final step s (is.take k)) i).1 := by
  induction is generalizing s k with
  | nil => rfl
  | cons i is ih =>
      cases k with
      | zero => rfl
      | succ k => simpa [outputs, final] using ih (step s i).2 k

lemma final_take_succ (s : σ) (is : List ι) (k : ℕ) (hk : k < is.length) :
    final step s (is.take (k + 1)) = (step (final step s (is.take k)) is[k]).2 := by
  rw [List.take_succ_eq_append_getElem hk, final_concat]

/-- An event happens in the state that the calls before it have reached. -/
lemma mem_trace {s : σ} {is : List ι} {e : Event σ ι ο} (he : e ∈ trace step s is) :
    ∃ before i after, is = before ++ i :: after ∧ e = event step (final step s before) i := by
  induction is generalizing s with
  | nil => exact absurd he List.not_mem_nil
  | cons i is ih =>
      rcases List.mem_cons.mp he with rfl | he
      · exact ⟨[], i, is, rfl, rfl⟩
      · obtain ⟨before, j, after, rfl, rfl⟩ := ih he
        exact ⟨i :: before, j, after, rfl, rfl⟩

lemma event_mem_trace (s : σ) (before : List ι) (i : ι) (after : List ι) :
    event step (final step s before) i ∈ trace step s (before ++ i :: after) := by
  rw [trace_append, trace]
  exact List.mem_append_right _ List.mem_cons_self

/-- Events are counted by their calls. -/
lemma countP_trace (step : σ → ι → ο × σ) (p : ι → Bool) (s : σ) (is : List ι) :
    (trace step s is).countP (fun e => p e.input) = is.countP p := by
  induction is generalizing s with
  | nil => rfl
  | cons i is ih => rw [trace, List.countP_cons, List.countP_cons, ih, event]

/-- **The invariant rule.**  What a step preserves, a run preserves; the history is available to
the invariant. -/
theorem invariant_trace {Inv : List (Event σ ι ο) → σ → Prop} (h0 : Inv [] s)
    (hstep : ∀ (h : List (Event σ ι ο)) (s : σ) (i : ι), Inv h s →
      Inv (h ++ [event step s i]) (step s i).2)
    (is : List ι) : Inv (trace step s is) (final step s is) := by
  induction is using List.reverseRecOn with
  | nil => exact h0
  | append_singleton is i ih =>
      rw [trace_concat, final_concat]
      exact hstep _ _ _ ih

/-! ## Conditions on each call -/

/-- Every call meets a condition that looks at the calls before it. -/
def EachCall (P : List ι → ι → Prop) (is : List ι) : Prop :=
  ∀ before i after, is = before ++ i :: after → P before i

lemma eachCall_nil (P : List ι → ι → Prop) : EachCall P [] := by
  intro before i after h
  exact absurd h (by simp)

lemma EachCall.of_append {P : List ι → ι → Prop} {is js : List ι} (h : EachCall P (is ++ js)) :
    EachCall P is := by
  rintro before i after rfl
  exact h before i (after ++ js) (by simp)

lemma eachCall_concat {P : List ι → ι → Prop} {is : List ι} {i : ι} :
    EachCall P (is ++ [i]) ↔ EachCall P is ∧ P is i := by
  constructor
  · intro h
    exact ⟨h.of_append, h is i [] rfl⟩
  · rintro ⟨his, hi⟩ before j after heq
    rcases List.eq_nil_or_concat after with rfl | ⟨after', k, rfl⟩
    · obtain ⟨rfl, hj⟩ := List.append_inj' heq rfl
      obtain rfl : i = j := List.singleton_inj.mp hj
      exact hi
    · rw [List.concat_eq_append, ← List.cons_append, ← List.append_assoc] at heq
      exact his before j after' (List.append_inj' heq rfl).1

lemma EachCall.imp {P Q : List ι → ι → Prop} {is : List ι} (h : EachCall P is)
    (himp : ∀ before i, P before i → Q before i) : EachCall Q is := by
  intro before i after heq
  exact himp before i (h before i after heq)

lemma eachCall_iff_getElem {P : List ι → ι → Prop} {is : List ι} :
    EachCall P is ↔ ∀ k (hk : k < is.length), P (is.take k) is[k] := by
  constructor
  · intro h k hk
    exact h (is.take k) is[k] (is.drop (k + 1)) (by simp)
  · rintro h before i after rfl
    simpa using h before.length (by simp)

instance {P : List ι → ι → Prop} [∀ before i, Decidable (P before i)] (is : List ι) :
    Decidable (EachCall P is) :=
  decidable_of_iff _ eachCall_iff_getElem.symm

/-- **The invariant rule with a condition.**  What a step preserves that meets a condition, a run
preserves in which every call does. -/
theorem invariant_final {Inv : σ → Prop} {ok : σ → ι → Prop} (h0 : Inv s)
    (hstep : ∀ s i, Inv s → ok s i → Inv (step s i).2) {is : List ι}
    (hok : EachCall (fun before i => ok (final step s before) i) is) : Inv (final step s is) := by
  induction is using List.reverseRecOn with
  | nil => exact h0
  | append_singleton is i ih =>
      obtain ⟨his, hi⟩ := eachCall_concat.mp hok
      rw [final_concat]
      exact hstep _ _ (ih his) hi

/-! ## Runs that cannot be told apart -/

/-- **The bisimulation rule.**  If related states answer alike and go to related states, then runs
from related states answer alike. -/
theorem outputs_related {R : σ → σ → Prop}
    (hstep : ∀ s t i, R s t → (step s i).1 = (step t i).1 ∧ R (step s i).2 (step t i).2) {s t : σ}
    (hR : R s t) (is : List ι) :
    outputs step s is = outputs step t is ∧ R (final step s is) (final step t is) := by
  induction is generalizing s t with
  | nil => exact ⟨rfl, hR⟩
  | cons i is ih =>
      obtain ⟨hout, hnext⟩ := hstep s t i hR
      obtain ⟨houts, hfinal⟩ := ih hnext
      exact ⟨congrArg₂ List.cons hout houts, hfinal⟩

/-! ## The calls of one party -/

/-- The answers to the calls with `p`, in a run with others. -/
def outputsOf (step : σ → ι → ο × σ) (p : ι → Bool) (s : σ) (is : List ι) : List ο :=
  ((trace step s is).filter fun e => p e.input).map Event.output

/-- The calls with `p` are answered as in the run that has no others. -/
def Independent (step : σ → ι → ο × σ) (p : ι → Bool) (s : σ) (is : List ι) : Prop :=
  outputsOf step p s is = outputs step s (is.filter p)

lemma outputs_eq_map_trace (s : σ) (is : List ι) :
    outputs step s is = (trace step s is).map Event.output := by
  induction is generalizing s with
  | nil => rfl
  | cons i is ih => exact congrArg ((step s i).1 :: ·) (ih (step s i).2)

lemma length_outputs (s : σ) (is : List ι) : (outputs step s is).length = is.length := by
  induction is generalizing s with
  | nil => rfl
  | cons i is ih => exact congrArg Nat.succ (ih (step s i).2)

lemma outputsOf_concat (p : ι → Bool) (s : σ) (is : List ι) (i : ι) :
    outputsOf step p s (is ++ [i])
      = outputsOf step p s is ++ if p i then [(step (final step s is) i).1] else [] := by
  rw [outputsOf, trace_concat, List.filter_append, List.map_append, List.filter_singleton]
  by_cases hi : p i <;> simp [hi, outputsOf, event]

lemma length_outputsOf (p : ι → Bool) (s : σ) (is : List ι) :
    (outputsOf step p s is).length = (is.filter p).length := by
  rw [outputsOf, List.length_map, ← List.countP_eq_length_filter, ← List.countP_eq_length_filter,
    countP_trace]

/-- What the answers to all calls have, the answers to the calls of one party have. -/
lemma mem_outputs_of_mem_outputsOf {p : ι → Bool} {s : σ} {is : List ι} {o : ο}
    (ho : o ∈ outputsOf step p s is) : o ∈ outputs step s is := by
  obtain ⟨e, he, rfl⟩ := List.mem_map.mp ho
  rw [outputs_eq_map_trace]
  exact List.mem_map_of_mem (List.mem_filter.mp he).1

lemma independent_concat {p : ι → Bool} {is : List ι} {i : ι} :
    Independent step p s (is ++ [i]) ↔ Independent step p s is ∧
      (p i = true → (step (final step s is) i).1 = (step (final step s (is.filter p)) i).1) := by
  rw [Independent, outputsOf_concat, List.filter_append, List.filter_singleton, Independent]
  cases hi : p i with
  | true =>
      rw [cond_true, if_pos rfl, outputs_append, outputs, outputs, ← List.concat_eq_append,
        ← List.concat_eq_append, List.concat_inj]
      simp
  | false => simp

/-- A party without others. -/
lemma independent_of_forall {p : ι → Bool} {is : List ι} (h : ∀ i ∈ is, p i = true) :
    Independent step p s is := by
  have htrace : (trace step s is).filter (fun e => p e.input) = trace step s is := by
    refine List.filter_eq_self.mpr fun e he => ?_
    obtain ⟨before, i, after, rfl, rfl⟩ := mem_trace he
    exact h i (by simp)
  rw [Independent, List.filter_eq_self.mpr h, outputsOf, htrace, outputs_eq_map_trace]

/-- A party that makes no calls. -/
lemma independent_of_filter_eq_nil {p : ι → Bool} {is : List ι} (h : is.filter p = []) :
    Independent step p s is := by
  have hlen : (outputsOf step p s is).length = 0 := by
    rw [length_outputsOf, h, List.length_nil]
  rw [Independent, h, List.length_eq_zero_iff.mp hlen, outputs]

/-- Runs in which all calls get one answer. -/
lemma independent_of_constant {p : ι → Bool} {is : List ι} {o : ο}
    (hall : ∀ x ∈ outputs step s is, x = o) (hown : ∀ x ∈ outputs step s (is.filter p), x = o) :
    Independent step p s is := by
  rw [Independent, List.eq_replicate_iff.mpr ⟨length_outputs s (is.filter p), hown⟩]
  exact List.eq_replicate_iff.mpr
    ⟨length_outputsOf p s is, fun x hx => hall x (mem_outputs_of_mem_outputsOf hx)⟩

lemma Independent.of_append {p : ι → Bool} {is js : List ι}
    (h : Independent step p s (is ++ js)) : Independent step p s is := by
  induction js using List.reverseRecOn with
  | nil => rwa [List.append_nil] at h
  | append_singleton js j ih =>
      rw [← List.append_assoc] at h
      exact ih (independent_concat.mp h).1

/-! ## Leaving out calls -/

/-- The elements whose positions are kept. -/
def thin {τ : Type} : (ℕ → Bool) → List τ → List τ
  | _, [] => []
  | keep, x :: xs =>
      if keep 0 then x :: thin (fun n => keep (n + 1)) xs else thin (fun n => keep (n + 1)) xs

lemma thin_concat {τ : Type} (keep : ℕ → Bool) (xs : List τ) (x : τ) :
    thin keep (xs ++ [x]) = thin keep xs ++ if keep xs.length then [x] else [] := by
  induction xs generalizing keep with
  | nil => simp [thin]
  | cons y xs ih =>
      simp only [List.cons_append, thin, ih, List.length_cons]
      split_ifs <;> rfl

/-- **The rule for calls that leave no trace.**  Two runs from related states, of which the second
leaves out some calls, answer the other calls alike and end in related states, if a call keeps the
relation when both make it, and also when only the first makes it and the second leaves it out. -/
theorem outputs_thin {R : σ → σ → Prop} {ok skip : σ → ι → Prop}
    (hboth : ∀ s t i, R s t → ok s i → (step s i).1 = (step t i).1 ∧ R (step s i).2 (step t i).2)
    (hskip : ∀ s t i, R s t → ok s i → skip s i → R (step s i).2 t)
    (keep : ℕ → Bool) (is : List ι) (s t : σ) (hR : R s t)
    (hok : ∀ k (hk : k < is.length), ok (final step s (is.take k)) is[k] ∧
      (keep k = false → skip (final step s (is.take k)) is[k])) :
    outputs step t (thin keep is) = thin keep (outputs step s is) ∧
      R (final step s is) (final step t (thin keep is)) := by
  induction is generalizing keep s t with
  | nil => exact ⟨rfl, hR⟩
  | cons i is ih =>
      obtain ⟨hfirst, hleft⟩ := hok 0 (by simp)
      have hrest : ∀ k (hk : k < is.length), ok (final step (step s i).2 (is.take k)) is[k] ∧
          (keep (k + 1) = false → skip (final step (step s i).2 (is.take k)) is[k]) := by
        intro k hk
        exact hok (k + 1) (by simpa using hk)
      simp only [thin, outputs]
      cases hkeep : keep 0 with
      | true =>
          obtain ⟨hout, hnext⟩ := hboth s t i hR hfirst
          obtain ⟨houts, hfinal⟩ := ih (fun n => keep (n + 1)) _ _ hnext hrest
          exact ⟨congrArg₂ List.cons hout.symm houts, hfinal⟩
      | false =>
          exact ih (fun n => keep (n + 1)) _ t (hskip s t i hR hfirst (hleft hkeep)) hrest

/-! ## Counting since the last event of a kind -/

/-- The number of elements with `p` after the last element with `stop`. -/
def countSince {τ : Type} (stop p : τ → Bool) (h : List τ) : ℕ :=
  (h.reverse.takeWhile fun e => !stop e).countP p

@[simp] lemma countSince_nil {τ : Type} (stop p : τ → Bool) : countSince stop p [] = 0 := rfl

lemma countSince_concat {τ : Type} (stop p : τ → Bool) (h : List τ) (e : τ) :
    countSince stop p (h ++ [e])
      = if stop e then 0 else countSince stop p h + if p e then 1 else 0 := by
  cases hs : stop e with
  | true => simp [countSince, hs]
  | false => simp [countSince, hs, List.countP_cons]

/-- Counting begins after the last element with `stop`. -/
lemma countSince_of_last {τ : Type} {stop p : τ → Bool} {pre post : List τ} {e : τ}
    (he : stop e = true) (hpost : ∀ x ∈ post, stop x = false) :
    countSince stop p (pre ++ e :: post) = post.countP p := by
  induction post using List.reverseRecOn with
  | nil => rw [countSince_concat, if_pos he, List.countP_nil]
  | append_singleton post x ih =>
      have hx := hpost x (by simp)
      rw [← List.cons_append, ← List.append_assoc, countSince_concat, hx, if_neg Bool.false_ne_true,
        ih fun y hy => hpost y (List.mem_append_left _ hy), List.countP_append,
        List.countP_singleton]

end StepRun
