import Netp2.Library.Loop
import Netp2.Routing.PathSegments

/-!
# The loop of `split_path`

The loop has an index into the path and the segments found so far.  A round either skips one slash
or takes a segment and moves the index to its end, behind which there is a slash or nothing
(`splitRound_cases`).  So the index never stands inside a segment, and what has been found is what
lies in front of it (`Aligned`).  Every round moves the index forward, hence the loop ends
(`splitRound_ends`), with what `splitPath` computes from the front of the path.

`split_path` is also inverted: segments with slashes in front of them, as many as one likes, are
found again (`splitPath_withSlashes`).
-/

namespace Netp2.Routing

open ByteString Loop StateTransition

/-! ## The loop -/

/-- The variables of the loop. -/
structure SplitState where
  start : ℕ := 0
  segments : List ByteString := []
  deriving DecidableEq, Repr

/-- `path.find('/', start)`. -/
def findSlash (path : ByteString) (start : ℕ) : Option ℕ :=
  (find slash (path.drop start)).map (start + ·)

/-- One round, if `start < path.size()`. -/
def splitRound (path : ByteString) (s : SplitState) : Option SplitState :=
  if h : s.start < path.length then
    if path[s.start] = slash then some { s with start := s.start + 1 }
    else
      let stop := (findSlash path s.start).getD path.length
      some ⟨stop, s.segments ++ [(path.drop s.start).take (stop - s.start)]⟩
  else none

/-- **What a round can do.** -/
lemma splitRound_cases {path : ByteString} {s s' : SplitState} (h : splitRound path s = some s') :
    s.start < path.length ∧
      ((∃ rest, path.drop s.start = slash :: rest ∧ s' = ⟨s.start + 1, s.segments⟩) ∨
        ∃ x rest, SegmentFirst (path.drop s.start) x rest ∧
          s' = ⟨s.start + x.length, s.segments ++ [x]⟩) := by
  rw [splitRound] at h
  split_ifs at h with hlt hb
  · have hdrop := List.drop_eq_getElem_cons hlt
    rw [hb] at hdrop
    exact ⟨hlt, Or.inl ⟨_, hdrop, (Option.some.inj h).symm⟩⟩
  · have hdrop := List.drop_eq_getElem_cons hlt
    obtain ⟨x, rest, hfirst, hlength⟩ := exists_segmentFirst hb (path.drop (s.start + 1))
    rw [← hdrop] at hfirst hlength
    have hstop : (findSlash path s.start).getD path.length = s.start + x.length := by
      rw [findSlash]
      cases hfind : find slash (path.drop s.start) with
      | none =>
          rw [hfind, Option.getD_none, List.length_drop] at hlength
          simp only [Option.map_none, Option.getD_none]
          omega
      | some n =>
          rw [hfind, Option.getD_some] at hlength
          simp [hlength]
    refine ⟨hlt, Or.inr ⟨x, rest, hfirst, ?_⟩⟩
    have htake : (path.drop s.start).take (s.start + x.length - s.start) = x := by
      rw [hfirst.1, Nat.add_sub_cancel_left, List.take_left]
    simp only [hstop, htake, Option.some.injEq] at h
    exact h.symm

/-- The index is in the path, and the segments in front of it have been found. -/
structure Aligned (path : ByteString) (s : SplitState) : Prop where
  start_le : s.start ≤ path.length
  found : s.segments ++ segmentsOf (path.drop s.start) = segmentsOf path

/-- A round keeps the alignment and moves the index forward. -/
lemma Aligned.round {path : ByteString} {s s' : SplitState} (h : Aligned path s)
    (hround : splitRound path s = some s') :
    Aligned path s' ∧ path.length - s'.start < path.length - s.start := by
  obtain ⟨hlt, ⟨rest, hdrop, rfl⟩ | ⟨x, rest, hfirst, rfl⟩⟩ := splitRound_cases hround
  · have hrest : path.drop (s.start + 1) = rest := by
      rw [← List.drop_drop, hdrop]
      rfl
    refine ⟨⟨hlt, ?_⟩, by simp only; omega⟩
    rw [← h.found, hdrop, segmentsOf_slash, hrest]
  · have hrest : path.drop (s.start + x.length) = rest := by
      rw [← List.drop_drop, hfirst.1, List.drop_left]
    have hlength : path.length - s.start = x.length + rest.length := by
      rw [← List.length_drop, hfirst.1, List.length_append]
    have hpos : 0 < x.length := List.length_pos_iff.mpr hfirst.2.1
    refine ⟨⟨by simp only; omega, ?_⟩, by simp only; omega⟩
    rw [← h.found, segmentsOf_segmentFirst hfirst, hrest, List.append_assoc]
    rfl

/-- **The loop ends**, at the end of the path, with its segments. -/
theorem splitRound_ends (path : ByteString) :
    ⟨path.length, segmentsOf path⟩ ∈ eval (splitRound path) {} := by
  have hstart : Aligned path {} := ⟨Nat.zero_le _, rfl⟩
  obtain ⟨⟨start, segments⟩, hmem, hlast, hend⟩ :=
    ends_of_variant (fun s => path.length - s.start)
      (fun s s' (h : Aligned path s) hround => h.round hround) hstart
  have hle : path.length ≤ start := by
    by_contra hlt
    rw [splitRound, dif_pos (not_le.mp hlt)] at hend
    split_ifs at hend
  obtain rfl : start = path.length := le_antisymm hlast.start_le hle
  have hfound := hlast.found
  rw [List.drop_length, segmentsOf_nil, List.append_nil] at hfound
  rwa [← hfound]

/-! ## The segments -/

lemma notMem_of_mem_splitOn {c : UInt8} {s : ByteString} :
    ∀ piece ∈ s.splitOn c, c ∉ piece := by
  induction s with
  | nil => simp
  | cons b s ih =>
      rw [List.splitOn_cons_eq_if_modifyHead]
      split_ifs with hb
      · simpa using ih
      · obtain ⟨piece, pieces, hpieces⟩ := List.exists_cons_of_ne_nil (List.splitOn_ne_nil c s)
        have hne : c ≠ b := by
          rintro rfl
          exact hb (by simp)
        rw [hpieces] at ih ⊢
        simpa [hne] using ih

lemma segment_spec {path seg : ByteString} (h : seg ∈ splitPath path) :
    seg ≠ [] ∧ slash ∉ seg := by
  rw [splitPath_eq] at h
  split_ifs at h
  · obtain ⟨hmem, hne⟩ := List.mem_filter.mp h
    exact ⟨of_decide_eq_true hne, notMem_of_mem_splitOn seg hmem⟩
  · exact absurd h List.not_mem_nil

/-! ## Putting segments together -/

/-- Each segment behind a number of slashes, and a number of slashes at the end. -/
def withSlashes (pieces : List (ℕ × ByteString)) (trailing : ℕ) : ByteString :=
  pieces.flatMap (fun p => List.replicate p.1 slash ++ p.2) ++ List.replicate trailing slash

lemma withSlashes_cons (n : ℕ) (x : ByteString) (pieces : List (ℕ × ByteString)) (trailing : ℕ) :
    withSlashes ((n, x) :: pieces) trailing
      = List.replicate n slash ++ (x ++ withSlashes pieces trailing) := by
  simp [withSlashes]

lemma segmentsOf_replicate (n : ℕ) (s : ByteString) :
    segmentsOf (List.replicate n slash ++ s) = segmentsOf s := by
  induction n with
  | zero => rfl
  | succ n ih => rw [List.replicate_succ, List.cons_append, segmentsOf_slash, ih]

/-- What is put together begins with a slash, unless it is empty. -/
lemma head_withSlashes {pieces : List (ℕ × ByteString)} (h : ∀ p ∈ pieces, 0 < p.1)
    (trailing : ℕ) :
    withSlashes pieces trailing = [] ∨ (withSlashes pieces trailing).head? = some slash := by
  cases pieces with
  | nil => cases trailing <;> simp [withSlashes, List.replicate_succ]
  | cons p pieces =>
      obtain ⟨n, hn⟩ := Nat.exists_eq_succ_of_ne_zero (h p List.mem_cons_self).ne'
      refine Or.inr ?_
      rw [← Prod.mk.eta (p := p), withSlashes_cons, hn, List.replicate_succ]
      rfl

lemma segmentsOf_withSlashes {pieces : List (ℕ × ByteString)}
    (h : ∀ p ∈ pieces, 0 < p.1 ∧ p.2 ≠ [] ∧ slash ∉ p.2) (trailing : ℕ) :
    segmentsOf (withSlashes pieces trailing) = pieces.map Prod.snd := by
  induction pieces with
  | nil => simpa [withSlashes] using segmentsOf_replicate trailing []
  | cons p pieces ih =>
      obtain ⟨n, x⟩ := p
      have hpieces : ∀ q ∈ pieces, 0 < q.1 ∧ q.2 ≠ [] ∧ slash ∉ q.2 :=
        fun q hq => h q (List.mem_cons_of_mem _ hq)
      obtain ⟨-, hne, hx⟩ := h (n, x) List.mem_cons_self
      have hfirst : SegmentFirst (x ++ withSlashes pieces trailing) x
          (withSlashes pieces trailing) :=
        ⟨rfl, hne, hx, head_withSlashes (fun q hq => (hpieces q hq).1) trailing⟩
      rw [withSlashes_cons, segmentsOf_replicate, segmentsOf_segmentFirst hfirst, ih hpieces]
      rfl

/-- **Segments that are put together are found again.** -/
theorem splitPath_withSlashes {pieces : List (ℕ × ByteString)}
    (h : ∀ p ∈ pieces, 0 < p.1 ∧ p.2 ≠ [] ∧ slash ∉ p.2) (trailing : ℕ) :
    splitPath (withSlashes pieces trailing) = pieces.map Prod.snd := by
  rw [← segmentsOf_withSlashes h trailing]
  rcases head_withSlashes (fun p hp => (h p hp).1) trailing with hempty | hhead
  · rw [hempty, segmentsOf_nil]
    rfl
  · rw [splitPath_eq, if_pos hhead]

/-- **`split_path` computes exactly the components.**  Its loop ends at the end of the path.  What
it has found there is the result for a path that begins with a slash: the pieces between the
slashes, in order, without the empty ones.  Segments behind any slashes are found again, and a path
that does not begin with a slash has none. -/
theorem splitPath_components (path : ByteString) :
    (∃ last ∈ eval (splitRound path) {}, last.start = path.length ∧
        (path.head? = some slash → splitPath path = last.segments)) ∧
      (path.head? = some slash →
        splitPath path = (path.splitOn slash).filter fun piece => piece ≠ []) ∧
      (∀ seg ∈ splitPath path, seg ≠ [] ∧ slash ∉ seg) ∧
      (∀ pieces trailing, (∀ p ∈ pieces, 0 < p.1 ∧ p.2 ≠ [] ∧ slash ∉ p.2) →
        splitPath (withSlashes pieces trailing) = pieces.map Prod.snd) ∧
      (path = [] ∨ path.head? ≠ some slash → splitPath path = []) := by
  have hslash : path.head? = some slash → splitPath path = segmentsOf path := by
    intro hhead
    rw [splitPath_eq, if_pos hhead]
  refine ⟨⟨_, splitRound_ends path, rfl, hslash⟩, hslash, fun seg hseg => segment_spec hseg,
    fun pieces trailing h => splitPath_withSlashes h trailing, ?_⟩
  rintro (rfl | hhead)
  · rfl
  · rw [splitPath_eq, if_neg hhead]

example : splitPath (ascii "//a///b/") = [ascii "a", ascii "b"] := by decide

end Netp2.Routing
