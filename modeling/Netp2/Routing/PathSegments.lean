import Netp2.Routing.RuleScan

/-!
# The segments of a path

`split_path` walks over a path byte by byte.  `splitPath_eq` says what it computes: the non-empty
pieces between the slashes, for a path that begins with one.  The segments of a text that is cut at
a slash are those of its two parts, and from there `splitPath_query` tells what a query string does
to the segments of the path before it: it becomes part of the last segment, or the next one, and may
bring more of its own.

A rule *applies* to a path when its segments are a prefix of the path's; the candidates are the
longest rules that apply.  `sameRules_query_iff` says which rules begin or cease to apply when a
query is added.
-/

namespace Netp2.Routing

open ByteString

def segmentsOf (s : ByteString) : List ByteString :=
  (s.splitOn slash).filter fun piece => piece ≠ []

@[simp] lemma segmentsOf_nil : segmentsOf [] = [] := by
  simp [segmentsOf]

lemma segmentsOf_cut (x y : ByteString) :
    segmentsOf (x ++ slash :: y) = segmentsOf x ++ segmentsOf y := by
  rw [segmentsOf, List.splitOn_append_cons_self, List.filter_append]
  rfl

@[simp] lemma segmentsOf_slash (s : ByteString) : segmentsOf (slash :: s) = segmentsOf s :=
  segmentsOf_cut [] s

lemma segmentsOf_text {x : ByteString} (hx : slash ∉ x) :
    segmentsOf x = if x = [] then [] else [x] := by
  rw [segmentsOf, List.splitOn_eq_singleton hx]
  split_ifs with h <;> simp [h]

/-- A segment at the front, up to a slash or the end. -/
def SegmentFirst (s x rest : ByteString) : Prop :=
  s = x ++ rest ∧ x ≠ [] ∧ slash ∉ x ∧ (rest = [] ∨ rest.head? = some slash)

/-- Text that does not begin with a slash begins with a segment, which `find` delimits. -/
lemma exists_segmentFirst {b : UInt8} (hb : b ≠ slash) (t : ByteString) :
    ∃ x rest, SegmentFirst (b :: t) x rest ∧
      (find slash (b :: t)).getD (b :: t).length = x.length := by
  by_cases hs : slash ∈ b :: t
  · obtain ⟨x, y, hcut, hx⟩ := List.eq_append_cons_of_mem hs
    refine ⟨x, slash :: y, ⟨hcut, ?_, hx, Or.inr rfl⟩, ?_⟩
    · rintro rfl
      exact hb (List.cons.inj hcut).1
    · rw [hcut, find_cut y hx, Option.getD_some]
  · refine ⟨b :: t, [], ⟨by simp, by simp, hs, Or.inl rfl⟩, ?_⟩
    rw [find_of_notMem hs, Option.getD_none]

lemma segmentsOf_segmentFirst {s x rest : ByteString} (h : SegmentFirst s x rest) :
    segmentsOf s = x :: segmentsOf rest := by
  obtain ⟨rfl, hne, hx, hrest⟩ := h
  have hpiece : segmentsOf x = [x] := by rw [segmentsOf_text hx, if_neg hne]
  cases rest with
  | nil => rw [List.append_nil, hpiece, segmentsOf_nil]
  | cons b t =>
      obtain rfl : b = slash := by simpa using hrest
      rw [segmentsOf_cut, hpiece, segmentsOf_slash]
      rfl

/-- The loop of `split_path` finds the pieces, and ends by itself: more rounds than bytes make no
difference. -/
theorem splitLoop_eq : ∀ (fuel : ℕ) (s : ByteString), s.length ≤ fuel →
    splitLoop fuel s = segmentsOf s
  | fuel, [], _ => by simp [splitLoop]
  | fuel + 1, b :: rest, h => by
      by_cases hb : b = slash
      · subst hb
        have hrest : rest.length ≤ fuel := by simpa using h
        rw [splitLoop, if_pos rfl, splitLoop_eq fuel rest hrest, segmentsOf_slash]
      · obtain ⟨x, tail, hfirst, hlength⟩ := exists_segmentFirst hb rest
        have hsegment : upTo (find slash (b :: rest)) (b :: rest) = x := by
          rw [upTo_eq_take, hlength, hfirst.1, List.take_left]
        have hdrop : (b :: rest).drop x.length = tail := by rw [hfirst.1, List.drop_left]
        have htail : tail.length ≤ fuel := by
          have hpos : 0 < x.length := List.length_pos_iff.mpr hfirst.2.1
          rw [hfirst.1, List.length_append] at h
          omega
        rw [segmentsOf_segmentFirst hfirst]
        simp only [splitLoop, hb, if_false, hsegment, hdrop, splitLoop_eq fuel tail htail]

/-- **What `split_path` computes.** -/
theorem splitPath_eq (path : ByteString) :
    splitPath path = if path.head? = some slash then segmentsOf path else [] := by
  cases path with
  | nil => rfl
  | cons b rest =>
      by_cases hb : b = slash
      · simp [splitPath, hb, splitLoop_eq]
      · simp [splitPath, hb]

/-! ## Query strings -/

def question : UInt8 := 63

/-- The first segment of a text that contains a query has the query in it. -/
lemma exists_segment_query {file : ByteString} (hfile : slash ∉ file) (query : ByteString) :
    ∃ x rest, segmentsOf (file ++ question :: query) = (file ++ question :: x) :: rest := by
  have hne : ∀ x, file ++ question :: x ≠ [] := by
    intro x
    simp
  have hnotMem : ∀ x, slash ∉ x → slash ∉ file ++ question :: x := by
    intro x hx
    have hquestion : slash ≠ question := by decide
    simp [hfile, hx, hquestion]
  by_cases hs : slash ∈ query
  · obtain ⟨x, y, rfl, hx⟩ := List.eq_append_cons_of_mem hs
    refine ⟨x, segmentsOf y, ?_⟩
    rw [← List.cons_append, ← List.append_assoc, segmentsOf_cut, segmentsOf_text (hnotMem x hx),
      if_neg (hne x)]
    rfl
  · exact ⟨query, [], by rw [segmentsOf_text (hnotMem query hs), if_neg (hne query)]⟩

/-- **What a query does to the segments.**  The path is cut at its last slash. -/
theorem splitPath_query {dir file : ByteString} (hhead : (dir ++ slash :: file).head? = some slash)
    (hfile : slash ∉ file) (query : ByteString) :
    splitPath (dir ++ slash :: file) = segmentsOf dir ++ (if file = [] then [] else [file]) ∧
      ∃ x rest, splitPath (dir ++ slash :: file ++ question :: query)
        = segmentsOf dir ++ (file ++ question :: x) :: rest := by
  have hhead' : (dir ++ slash :: file ++ question :: query).head? = some slash := by
    cases dir with
    | nil => rfl
    | cons b dir => exact hhead
  obtain ⟨x, rest, hx⟩ := exists_segment_query hfile query
  refine ⟨?_, x, rest, ?_⟩
  · rw [splitPath_eq, if_pos hhead, segmentsOf_cut, segmentsOf_text hfile]
  · rw [splitPath_eq, if_pos hhead', List.append_assoc, List.cons_append, segmentsOf_cut, hx]

/-! ## The rules that apply to a path -/

/-- The segments of the rule are a prefix of the path's, and not empty if the path has segments. -/
def Applies (path : ByteString) (r : RouteRule) : Prop :=
  r.segments <+: splitPath path ∧ (splitPath path ≠ [] → r.segments ≠ [])

instance (path : ByteString) (r : RouteRule) : Decidable (Applies path r) :=
  inferInstanceAs (Decidable (_ ∧ _))

variable {rules : List RouteRule} {path path' : ByteString}

/-- The candidates are the longest rules that apply. -/
lemma isCandidate_iff_applies {r : RouteRule} :
    IsCandidate rules path r ↔ r ∈ rules ∧ Applies path r ∧
      ∀ r' ∈ rules, Applies path r' → r'.segments.length ≤ r.segments.length := by
  rw [isCandidate_iff]
  constructor
  · rintro ⟨hmem, hne, hk, hmax⟩
    exact ⟨hmem, ⟨hk, hne⟩, fun r' hr' happ => hmax r' hr' happ.1⟩
  · rintro ⟨hmem, ⟨hk, hne⟩, hmax⟩
    refine ⟨hmem, hne, hk, ?_⟩
    intro r' hr' hk'
    by_cases happ : splitPath path ≠ [] → r'.segments ≠ []
    · exact hmax r' hr' ⟨hk', happ⟩
    · rw [Classical.not_imp, not_not] at happ
      simp [happ.2]

lemma exists_candidate {r : RouteRule} (hr : r ∈ rules) (happ : Applies path r) :
    ∃ c, IsCandidate rules path c ∧ r.segments <+: c.segments := by
  have hmem : r ∈ rules.toFinset.filter (Applies path) := by simp [hr, happ]
  obtain ⟨c, hc, hmax⟩ := Finset.exists_max_image _ (fun x => x.segments.length) ⟨r, hmem⟩
  simp only [Finset.mem_filter, List.mem_toFinset] at hc hmax
  refine ⟨c, isCandidate_iff_applies.mpr ⟨hc.1, hc.2, fun r' hr' h => hmax r' ⟨hr', h⟩⟩, ?_⟩
  exact List.prefix_of_prefix_length_le happ.1 hc.2.1 (hmax r ⟨hr, happ⟩)

/-- What applies to one path applies to the other. -/
def SameRules (rules : List RouteRule) (path path' : ByteString) : Prop :=
  ∀ r ∈ rules, Applies path r ↔ Applies path' r

lemma applies_of_candidates (h : ∀ r, IsCandidate rules path r → IsCandidate rules path' r)
    {r : RouteRule} (hr : r ∈ rules) (happ : Applies path r) : Applies path' r := by
  obtain ⟨c, hc, hrc⟩ := exists_candidate hr happ
  obtain ⟨-, ⟨hck, -⟩, -⟩ := isCandidate_iff_applies.mp hc
  obtain ⟨-, ⟨hck', hne'⟩, -⟩ := isCandidate_iff_applies.mp (h c hc)
  refine ⟨hrc.trans hck', ?_⟩
  intro hpath' hempty
  -- a rule without segments applies to a path without segments only, where no other kind does
  have hpath : splitPath path = [] := by
    by_contra hpath
    exact happ.2 hpath hempty
  rw [hpath, List.prefix_nil] at hck
  exact hne' hpath' hck

/-- **The same rules apply exactly when the candidates are the same.** -/
theorem sameRules_iff_candidates :
    SameRules rules path path' ↔ scanCandidates rules path = scanCandidates rules path' := by
  constructor
  · intro h
    refine List.filter_congr ?_
    intro r hr
    rw [decide_eq_decide, isCandidate_iff_applies, isCandidate_iff_applies, h r hr]
    have hmax : (∀ r' ∈ rules, Applies path r' → r'.segments.length ≤ r.segments.length) ↔
        ∀ r' ∈ rules, Applies path' r' → r'.segments.length ≤ r.segments.length :=
      forall₂_congr fun r' hr' => by rw [h r' hr']
    rw [hmax]
  · intro h r hr
    have hcand : ∀ c, IsCandidate rules path c ↔ IsCandidate rules path' c := by
      intro c
      rw [← mem_scanCandidates, h, mem_scanCandidates]
    exact ⟨applies_of_candidates (fun c => (hcand c).mp) hr,
      applies_of_candidates (fun c => (hcand c).mpr) hr⟩

/-! ## A query and the rules that apply -/

/-- A prefix of two lists one after the other ends in the first, or reaches into the second. -/
lemma prefix_append_iff {α : Type} {k A T : List α} :
    k <+: A ++ T ↔ k <+: A ∨ (k <+: A ++ T ∧ A.length < k.length) := by
  constructor
  · intro h
    rcases List.prefix_or_prefix_of_prefix h (List.prefix_append A T) with hk | hA
    · exact Or.inl hk
    · rcases hA.length_le.lt_or_eq with hlt | heq
      · exact Or.inr ⟨h, hlt⟩
      · exact Or.inl (hA.eq_of_length heq ▸ List.prefix_rfl)
  · rintro (h | h)
    · exact h.trans (List.prefix_append A T)
    · exact h.1

/-- **When a query leaves the rules alone.**  For a path that is cut at its last slash: when no rule
stands at the path itself, unless the path ends with that slash and has segments, and no rule
continues into the query. -/
theorem sameRules_query_iff {dir file : ByteString}
    (hhead : (dir ++ slash :: file).head? = some slash) (hfile : slash ∉ file)
    (query : ByteString) :
    SameRules rules (dir ++ slash :: file ++ question :: query) (dir ++ slash :: file) ↔
      ∀ r ∈ rules,
        ¬(r.segments = splitPath (dir ++ slash :: file) ∧
          (file ≠ [] ∨ splitPath (dir ++ slash :: file) = [])) ∧
        ¬(r.segments <+: splitPath (dir ++ slash :: file ++ question :: query) ∧
          (segmentsOf dir).length < r.segments.length) := by
  obtain ⟨hpath, x, rest, hquery⟩ := splitPath_query hhead hfile query
  refine forall₂_congr fun r _ => ?_
  rw [Applies, Applies, hpath, hquery]
  generalize segmentsOf dir = A, r.segments = k
  have hne : A ++ (file ++ question :: x) :: rest ≠ [] := by simp
  have hlong : k <+: A → ¬(k <+: A ++ (file ++ question :: x) :: rest ∧ A.length < k.length) :=
    fun h h' => absurd h.length_le (not_le.mpr h'.2)
  have hpos : A.length < k.length → k ≠ [] := by
    rintro h rfl
    exact absurd h (Nat.not_lt_zero _)
  have hnil : k = [] → k <+: A := by
    rintro rfl
    exact List.nil_prefix
  rw [prefix_append_iff (T := (file ++ question :: x) :: rest)]
  by_cases hf : file = []
  · -- the path ends with its last slash: only the root can lose its rules
    rw [if_pos hf, List.append_nil]
    have hroot : A = [] → (k <+: A ↔ k = A) := by
      rintro rfl
      exact List.prefix_nil
    have hempty : A = [] → (k = A ↔ k = []) := by
      rintro rfl
      exact Iff.rfl
    grind
  · -- the last segment of the path is another one with the query
    rw [if_neg hf, List.prefix_concat_iff]
    have hself : k = A ++ [file] →
        ¬(k <+: A ++ (file ++ question :: x) :: rest ∧ A.length < k.length) := by
      rintro rfl ⟨h, -⟩
      rw [List.prefix_append_right_inj, List.cons_prefix_cons] at h
      exact absurd h.1 (by simp)
    have hnotPrefix : k = A ++ [file] → ¬k <+: A := by
      rintro rfl h
      exact absurd h.length_le (by simp)
    have hcons : A ++ [file] ≠ [] := by simp
    grind

end Netp2.Routing
