import Netp2.Routing.SplitPath

/-!
# What a path and a rule can change

Of a path the lookup sees nothing but the segments.  So two paths are routed alike by all snapshots
exactly when they have the same segments (`routed_alike_iff`), and each has a shortest form, with
one slash in front of each segment and one at the end, that stands for all of them.

Of the rules a request sees those that are longest among all that apply to its path.  So a rule that
is added at any place changes nothing for the paths that it does not apply to, and for the others it
replaces, joins or leaves alone what was found before, by its length (`added_rule_effect`).
-/

namespace Netp2.Routing

open ByteString

/-! ## Paths -/

/-- The path with the same segments, one slash in front of each and one at the end. -/
def canonicalPath (path : ByteString) : ByteString :=
  withSlashes ((splitPath path).map (Prod.mk 1)) 1

/-- **Splitting is inverted by putting together.** -/
lemma splitPath_canonicalPath (path : ByteString) :
    splitPath (canonicalPath path) = splitPath path := by
  have hpieces : ∀ p ∈ (splitPath path).map (Prod.mk 1), 0 < p.1 ∧ p.2 ≠ [] ∧ slash ∉ p.2 := by
    intro p hp
    obtain ⟨seg, hseg, rfl⟩ := List.mem_map.mp hp
    exact ⟨Nat.one_pos, segment_spec hseg⟩
  rw [canonicalPath, splitPath_withSlashes hpieces, List.map_map]
  exact List.map_id _

/-- A rule at a path, for everybody. -/
def ruleAt (path : ByteString) : RouteRule where
  hostPattern := ascii "*"
  pathPrefix := canonicalPath path

lemma eligible_ruleAt (path host clientIp : ByteString) :
    Eligible host clientIp (ruleAt path) :=
  ⟨by simp [hostMatches, ruleAt], .inl rfl⟩

/-- The rule at one path is found for another exactly if it applies to it. -/
lemma matched_ruleAt_iff (S : PrioritySort) (path path' host clientIp : ByteString) :
    ((finalized S [ruleAt path]).matchRoute host path' clientIp).matched = true ↔
      Applies path' (ruleAt path) := by
  rw [matchRoute_matched, finalized_isSome_iff]
  constructor
  · rintro ⟨r, hr, -⟩
    obtain ⟨hmem, happ, -⟩ := isCandidate_iff_applies.mp hr
    rwa [List.mem_singleton.mp hmem] at happ
  · intro happ
    refine ⟨ruleAt path, isCandidate_iff_applies.mpr ⟨List.mem_cons_self, happ, ?_⟩,
      eligible_ruleAt path host clientIp⟩
    intro r' hr' _
    rw [List.mem_singleton.mp hr']

lemma segments_ruleAt (path : ByteString) : (ruleAt path).segments = splitPath path :=
  splitPath_canonicalPath path

/-- **Which paths are routed alike.**  Two paths have the same result in every snapshot, for every
host and every client, exactly when they have the same segments. -/
theorem routed_alike_iff (path path' : ByteString) :
    (∀ S rules host clientIp, (finalized S rules).matchRoute host path clientIp
        = (finalized S rules).matchRoute host path' clientIp) ↔
      splitPath path = splitPath path' := by
  constructor
  · intro h
    -- each path finds its own rule, so it finds the rule of the other
    have hprefix : ∀ p q, (∀ S rules host clientIp, (finalized S rules).matchRoute host p clientIp
        = (finalized S rules).matchRoute host q clientIp) → splitPath p <+: splitPath q := by
      intro p q hpq
      have hself : Applies p (ruleAt p) := by
        rw [Applies, segments_ruleAt]
        exact ⟨List.prefix_rfl, id⟩
      have hmatched := (matched_ruleAt_iff (.insertion fun _ => false) p p [] []).mpr hself
      rw [hpq, matched_ruleAt_iff, Applies, segments_ruleAt] at hmatched
      exact hmatched.1
    have hle := hprefix path path' h
    have hge := hprefix path' path fun S rules host clientIp => (h S rules host clientIp).symm
    exact hle.eq_of_length (le_antisymm hle.length_le hge.length_le)
  · intro h S rules host clientIp
    rw [RouteSnapshot.matchRoute, RouteSnapshot.findLongestPrefixRules, h]
    rfl

/-! ## Rules -/

section Added

variable {before after : List RouteRule} {r : RouteRule} {path : ByteString}

/-- If the other candidates stay the same, the new rule comes among them, if it is one. -/
lemma scanCandidates_added (hothers : ∀ x ∈ before ++ after,
      IsCandidate (before ++ r :: after) path x ↔ IsCandidate (before ++ after) path x) :
    scanCandidates (before ++ r :: after) path
      = before.filter (fun x => IsCandidate (before ++ after) path x)
        ++ ((if IsCandidate (before ++ r :: after) path r then [r] else [])
          ++ after.filter fun x => IsCandidate (before ++ after) path x) := by
  have hbefore : before.filter (fun x => IsCandidate (before ++ r :: after) path x)
      = before.filter fun x => IsCandidate (before ++ after) path x := by
    refine List.filter_congr ?_
    intro x hx
    rw [decide_eq_decide]
    exact hothers x (List.mem_append_left _ hx)
  have hafter : after.filter (fun x => IsCandidate (before ++ r :: after) path x)
      = after.filter fun x => IsCandidate (before ++ after) path x := by
    refine List.filter_congr ?_
    intro x hx
    rw [decide_eq_decide]
    exact hothers x (List.mem_append_right _ hx)
  rw [scanCandidates, List.filter_append, List.filter_cons, hbefore, hafter]
  split_ifs with hr hr' hr'
  · rfl
  · exact absurd (of_decide_eq_true hr) hr'
  · exact absurd (decide_eq_true hr') hr
  · rfl

/-- The candidates among the old rules stay, unless the new one applies and is longer. -/
lemma isCandidate_added_iff {x : RouteRule} (hx : x ∈ before ++ after) :
    IsCandidate (before ++ r :: after) path x ↔ IsCandidate (before ++ after) path x ∧
      (Applies path r → r.segments.length ≤ x.segments.length) := by
  have hmem : ∀ y, y ∈ before ++ r :: after ↔ y = r ∨ y ∈ before ++ after := by
    intro y
    simp only [List.mem_append, List.mem_cons]
    tauto
  simp only [isCandidate_iff_applies, hmem]
  constructor
  · rintro ⟨-, happ, hmax⟩
    exact ⟨⟨hx, happ, fun r' hr' => hmax r' (.inr hr')⟩, hmax r (.inl rfl)⟩
  · rintro ⟨⟨-, happ, hmax⟩, hr⟩
    refine ⟨.inr hx, happ, ?_⟩
    rintro r' (rfl | hr')
    · exact hr
    · exact hmax r' hr'

/-- The new rule is a candidate if it applies and no other candidate is longer. -/
lemma isCandidate_self_iff :
    IsCandidate (before ++ r :: after) path r ↔ Applies path r ∧
      ∀ c, IsCandidate (before ++ after) path c → c.segments.length ≤ r.segments.length := by
  have hmem : ∀ y, y ∈ before ++ after → y ∈ before ++ r :: after := by
    intro y hy
    simp only [List.mem_append, List.mem_cons] at hy ⊢
    tauto
  rw [isCandidate_iff_applies]
  constructor
  · rintro ⟨-, happ, hmax⟩
    refine ⟨happ, ?_⟩
    intro c hc
    obtain ⟨hcmem, hcapp, -⟩ := isCandidate_iff_applies.mp hc
    exact hmax c (hmem c hcmem) hcapp
  · rintro ⟨happ, hmax⟩
    refine ⟨by simp, happ, ?_⟩
    intro r' hr' happ'
    have hr' : r' = r ∨ r' ∈ before ++ after := by
      simp only [List.mem_append, List.mem_cons] at hr' ⊢
      tauto
    rcases hr' with rfl | hr'
    · exact le_rfl
    · obtain ⟨c, hc, hprefix⟩ := exists_candidate hr' happ'
      exact hprefix.length_le.trans (hmax c hc)

/-- Nothing is found that was not found before. -/
lemma scanCandidates_added_of_not
    (hothers : ∀ x ∈ before ++ after,
      IsCandidate (before ++ r :: after) path x ↔ IsCandidate (before ++ after) path x)
    (hr : ¬IsCandidate (before ++ r :: after) path r) :
    scanCandidates (before ++ r :: after) path = scanCandidates (before ++ after) path := by
  rw [scanCandidates_added hothers, if_neg hr, List.nil_append, scanCandidates, List.filter_append]

/-- A rule that does not apply is not noticed. -/
lemma scanCandidates_added_of_not_applies (happ : ¬Applies path r) :
    scanCandidates (before ++ r :: after) path = scanCandidates (before ++ after) path := by
  refine scanCandidates_added_of_not ?_ ?_
  · intro x hx
    rw [isCandidate_added_iff hx, and_iff_left]
    exact fun h => absurd h happ
  · rw [isCandidate_self_iff]
    exact fun h => happ h.1

/-- A rule that is longer than all others hides them. -/
lemma scanCandidates_added_of_longer (happ : Applies path r)
    (hshorter : ∀ c, IsCandidate (before ++ after) path c →
      c.segments.length < r.segments.length) :
    scanCandidates (before ++ r :: after) path = [r] := by
  have hself : IsCandidate (before ++ r :: after) path r :=
    isCandidate_self_iff.mpr ⟨happ, fun c hc => (hshorter c hc).le⟩
  have hnone : ∀ x ∈ before ++ after, ¬IsCandidate (before ++ r :: after) path x := by
    intro x hx hcand
    rw [isCandidate_added_iff hx] at hcand
    exact absurd (hcand.2 happ) (not_le.mpr (hshorter x hcand.1))
  have hbefore : before.filter (fun x => IsCandidate (before ++ r :: after) path x) = [] :=
    List.filter_eq_nil_iff.mpr fun x hx => by simpa using hnone x (List.mem_append_left _ hx)
  have hafter : after.filter (fun x => IsCandidate (before ++ r :: after) path x) = [] :=
    List.filter_eq_nil_iff.mpr fun x hx => by simpa using hnone x (List.mem_append_right _ hx)
  rw [scanCandidates, List.filter_append, List.filter_cons, hbefore, hafter,
    if_pos (decide_eq_true hself), List.nil_append]

/-- A rule that is not longer than the candidates leaves them alone. -/
lemma isCandidate_added_of_le {c : RouteRule} (hc : IsCandidate (before ++ after) path c)
    (hle : r.segments.length ≤ c.segments.length) : ∀ x ∈ before ++ after,
      IsCandidate (before ++ r :: after) path x ↔ IsCandidate (before ++ after) path x := by
  intro x hx
  rw [isCandidate_added_iff hx, and_iff_left_iff_imp]
  intro hcand _
  rwa [hcand.segments_eq hc]

/-- A rule that is as long as the candidates comes among them. -/
lemma scanCandidates_added_of_eq (happ : Applies path r) {c : RouteRule}
    (hc : IsCandidate (before ++ after) path c)
    (heq : c.segments.length = r.segments.length) :
    (scanCandidates (before ++ r :: after) path).Perm
      (r :: scanCandidates (before ++ after) path) := by
  have hself : IsCandidate (before ++ r :: after) path r := by
    refine isCandidate_self_iff.mpr ⟨happ, ?_⟩
    intro c' hc'
    rw [hc'.segments_eq hc, heq]
  rw [scanCandidates_added (isCandidate_added_of_le hc heq.ge), if_pos hself, scanCandidates,
    List.filter_append]
  exact List.perm_middle

/-- A rule that is shorter than the candidates is not noticed. -/
lemma scanCandidates_added_of_shorter {c : RouteRule}
    (hc : IsCandidate (before ++ after) path c)
    (hlt : r.segments.length < c.segments.length) :
    scanCandidates (before ++ r :: after) path = scanCandidates (before ++ after) path := by
  refine scanCandidates_added_of_not (isCandidate_added_of_le hc hlt.le) ?_
  rw [isCandidate_self_iff]
  exact fun h => absurd (h.2 c hc) (not_le.mpr hlt)

end Added

lemma findLongestPrefixRules_finalized (S : PrioritySort) (rules : List RouteRule)
    (path : ByteString) :
    (finalized S rules).findLongestPrefixRules path = S.sort (scanCandidates rules path) := by
  rw [finalized, findLongestPrefixRules_eq, addedRules_map_addRule]

lemma mem_findLongestPrefixRules (S : PrioritySort) {rules : List RouteRule} {path : ByteString}
    {c : RouteRule} :
    c ∈ (finalized S rules).findLongestPrefixRules path ↔ IsCandidate rules path c := by
  rw [findLongestPrefixRules_finalized, (S.perm _).mem_iff, mem_scanCandidates]

/-- **What an added rule changes.**  A rule is added at some place among the others.  For a path
that it does not apply to, the same rules are found as before.  Otherwise what counts is its length:
if it is longer than what was found before, or if nothing was found, it alone is found; if it is as
long, it is found beside them; and if it is shorter, nothing changes. -/
theorem added_rule_effect (S : PrioritySort) (before after : List RouteRule) (r : RouteRule)
    (path : ByteString) :
    let old := (finalized S (before ++ after)).findLongestPrefixRules path
    let new := (finalized S (before ++ r :: after)).findLongestPrefixRules path
    (¬Applies path r → new = old) ∧
      (Applies path r →
        ((∀ c ∈ old, c.segments.length < r.segments.length) → new = [r]) ∧
        ∀ c ∈ old, (c.segments.length = r.segments.length → new.Perm (r :: old)) ∧
          (r.segments.length < c.segments.length → new = old)) := by
  intro old new
  have hold : ∀ c, c ∈ old ↔ IsCandidate (before ++ after) path c :=
    fun c => mem_findLongestPrefixRules S
  have hsame : scanCandidates (before ++ r :: after) path = scanCandidates (before ++ after) path →
      new = old := by
    intro h
    simp only [new, old, findLongestPrefixRules_finalized, h]
  refine ⟨?_, ?_⟩
  · intro happ
    exact hsame (scanCandidates_added_of_not_applies happ)
  · intro happ
    refine ⟨?_, ?_⟩
    · intro hshorter
      have hscan : scanCandidates (before ++ r :: after) path = [r] :=
        scanCandidates_added_of_longer happ fun c hc => hshorter c ((hold c).mpr hc)
      simp only [new, findLongestPrefixRules_finalized, hscan]
      exact List.perm_singleton.mp (S.perm [r])
    · intro c hc
      rw [hold] at hc
      refine ⟨?_, ?_⟩
      · intro heq
        have hscan := scanCandidates_added_of_eq happ hc heq
        simp only [new, old, findLongestPrefixRules_finalized]
        exact (S.perm _).trans (hscan.trans ((S.perm _).symm.cons r))
      · intro hlt
        exact hsame (scanCandidates_added_of_shorter hc hlt)

end Netp2.Routing
