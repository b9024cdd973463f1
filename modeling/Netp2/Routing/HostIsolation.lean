import Netp2.Routing.RuleScan

/-!
# Rules of other hosts

The documented order of matching is host, then path, then client address.  The code looks at the
path first: the longest prefix is taken over the rules of *all* hosts, and only the rules found
there are asked for their host.  A rule of another host therefore hides every shorter prefix, the
requested host's own rules included.

`Hides` is the situation in which this changes the answer.  `sameRoute_iff` compares a rule list
with any part of it that keeps the host's own rules, and says that the two answer alike exactly
when no such situation arises; the comparison with the host's own rules and the effect of adding
one foreign rule are the two instances that matter.
-/

namespace Netp2.Routing

open ByteString

def ownRules (host : ByteString) (rules : List RouteRule) : List RouteRule :=
  rules.filter fun r => hostMatches host r.hostPattern

/-- Two rules with the same path segments never have the same priority. -/
def DistinctPriorities (rules : List RouteRule) : Prop :=
  rules.Pairwise fun a b => a.segments = b.segments → a.priority ≠ b.priority

instance (rules : List RouteRule) : Decidable (DistinctPriorities rules) :=
  inferInstanceAs (Decidable (List.Pairwise _ _))

/-- The two results route the request in the same way. -/
def SameRoute (a b : RouteMatch) : Prop :=
  a.matched = b.matched ∧ a.target = b.target ∧ a.matchedRuleId = b.matchedRuleId

instance (a b : RouteMatch) : Decidable (SameRoute a b) :=
  inferInstanceAs (Decidable (_ ∧ _))

/-- A rule of `others` extends further along the path than the rule of `rules` that would serve the
request. -/
def Hides (others rules : List RouteRule) (host path clientIp : ByteString) : Prop :=
  ∃ r, IsCandidate rules path r ∧ Eligible host clientIp r ∧
    ∃ r' ∈ others, r'.segments <+: splitPath path ∧ r.segments.length < r'.segments.length

/-- Candidates are told apart by their priorities. -/
lemma IsCandidate.eq_of_priority_eq {rules : List RouteRule} {path : ByteString} {a b : RouteRule}
    (hd : DistinctPriorities rules) (ha : IsCandidate rules path a) (hb : IsCandidate rules path b)
    (hprio : a.priority = b.priority) : a = b := by
  by_contra hne
  have hsymm : Std.Symm fun a b : RouteRule => a.segments = b.segments → a.priority ≠ b.priority :=
    ⟨fun x y hxy hs hp => hxy hs.symm hp.symm⟩
  exact List.Pairwise.forall hd ha.1 hb.1 hne (ha.segments_eq hb) hprio

/-- Distinct priorities leave no choice among the selectable rules. -/
lemma Selectable.unique {rules : List RouteRule} {host path clientIp : ByteString}
    {a b : RouteRule} (hd : DistinctPriorities rules) (ha : Selectable rules host path clientIp a)
    (hb : Selectable rules host path clientIp b) : a = b := by
  obtain ⟨hac, hae, hamin⟩ := ha
  obtain ⟨hbc, hbe, hbmin⟩ := hb
  exact hac.eq_of_priority_eq hd hbc (le_antisymm (hamin b hbc hbe) (hbmin a hac hae))

lemma sameRoute_of_selectedRule_eq {s s' : RouteSnapshot} {host path clientIp : ByteString}
    (h : s.selectedRule host path clientIp = s'.selectedRule host path clientIp) :
    SameRoute (s.matchRoute host path clientIp) (s'.matchRoute host path clientIp) := by
  cases hs : s.selectedRule host path clientIp with
  | some r =>
      rw [matchRoute_of_selectedRule_some hs, matchRoute_of_selectedRule_some (h ▸ hs)]
      exact ⟨rfl, rfl, rfl⟩
  | none =>
      obtain ⟨reason, heq, _⟩ := matchRoute_of_selectedRule_none hs
      obtain ⟨reason', heq', _⟩ := matchRoute_of_selectedRule_none (h ▸ hs)
      rw [heq, heq']
      exact ⟨rfl, rfl, rfl⟩

/-! ## A rule list and a part of it -/

section Part

variable {S : PrioritySort} {rules part : List RouteRule} {host path clientIp : ByteString}

/-- An eligible candidate of the whole list is one of the part. -/
lemma candidate_part (hsub : ∀ x ∈ part, x ∈ rules)
    (hown : ∀ x ∈ rules, hostMatches host x.hostPattern = true → x ∈ part) {x : RouteRule}
    (hc : IsCandidate rules path x) (he : Eligible host clientIp x) : IsCandidate part path x := by
  obtain ⟨hmem, hne, hk, hmax⟩ := isCandidate_iff.mp hc
  exact isCandidate_iff.mpr ⟨hown x hmem he.1, hne, hk, fun r' hr' => hmax r' (hsub r' hr')⟩

/-- An eligible candidate of the part is one of the whole list, unless something hides it. -/
lemma candidate_whole (hsub : ∀ x ∈ part, x ∈ rules)
    (hides : ¬ Hides rules part host path clientIp) {x : RouteRule}
    (hc : IsCandidate part path x) (he : Eligible host clientIp x) : IsCandidate rules path x := by
  obtain ⟨hmem, hne, hk, _⟩ := isCandidate_iff.mp hc
  refine isCandidate_iff.mpr ⟨hsub x hmem, hne, hk, ?_⟩
  intro r' hr' hr'k
  by_contra hlt
  exact hides ⟨x, hc, he, r', hr', hr'k, not_le.mp hlt⟩

/-- A hidden rule takes the request down with it: the part matches and the whole list does not. -/
lemma matched_of_hides (hsub : ∀ x ∈ part, x ∈ rules)
    (hown : ∀ x ∈ rules, hostMatches host x.hostPattern = true → x ∈ part)
    (hides : Hides rules part host path clientIp) :
    ((finalized S part).matchRoute host path clientIp).matched = true ∧
      ((finalized S rules).matchRoute host path clientIp).matched = false := by
  obtain ⟨r, hc, he, r', hr', hr'k, hlt⟩ := hides
  refine ⟨?_, ?_⟩
  · rw [matchRoute_matched]
    exact finalized_isSome_iff.mpr ⟨r, hc, he⟩
  · rw [matchRoute_matched, Bool.eq_false_iff]
    intro hsome
    obtain ⟨c, hcc, hce⟩ := finalized_isSome_iff.mp hsome
    -- an eligible candidate of the whole list would be as short as `r` and as long as `r'`
    have hshort : c.segments = r.segments := (candidate_part hsub hown hcc hce).segments_eq hc
    have hlong : r'.segments.length ≤ c.segments.length :=
      (isCandidate_iff.mp hcc).2.2.2 r' hr' hr'k
    rw [hshort] at hlong
    exact absurd hlt (not_lt.mpr hlong)

/-- Without a hidden rule the two lists select the same rule. -/
lemma selectedRule_eq_of_not_hides (hd : DistinctPriorities rules)
    (hsub : ∀ x ∈ part, x ∈ rules)
    (hown : ∀ x ∈ rules, hostMatches host x.hostPattern = true → x ∈ part)
    (hides : ¬ Hides rules part host path clientIp) :
    (finalized S rules).selectedRule host path clientIp
      = (finalized S part).selectedRule host path clientIp := by
  cases hpart : (finalized S part).selectedRule host path clientIp with
  | none =>
      rw [← Option.not_isSome_iff_eq_none, finalized_isSome_iff]
      rintro ⟨c, hcc, hce⟩
      have hsome : ((finalized S part).selectedRule host path clientIp).isSome :=
        finalized_isSome_iff.mpr ⟨c, candidate_part hsub hown hcc hce, hce⟩
      simp [hpart] at hsome
  | some x =>
      obtain ⟨hxc, hxe, hxmin⟩ := selectable_of_finalized hpart
      have hxwhole : IsCandidate rules path x := candidate_whole hsub hides hxc hxe
      obtain ⟨y, hy⟩ := Option.isSome_iff_exists.mp
        ((finalized_isSome_iff (S := S)).mpr ⟨x, hxwhole, hxe⟩)
      rw [hy, Option.some.injEq]
      refine Selectable.unique hd (selectable_of_finalized hy) ⟨hxwhole, hxe, ?_⟩
      intro r' hc' he'
      exact hxmin r' (candidate_part hsub hown hc' he') he'

/-- **A list and a part of it that keeps the host's rules** route a request alike exactly when
nothing hides the rule that the part would use. -/
theorem sameRoute_iff (hd : DistinctPriorities rules) (hsub : ∀ x ∈ part, x ∈ rules)
    (hown : ∀ x ∈ rules, hostMatches host x.hostPattern = true → x ∈ part) :
    SameRoute ((finalized S rules).matchRoute host path clientIp)
        ((finalized S part).matchRoute host path clientIp)
      ↔ ¬ Hides rules part host path clientIp := by
  constructor
  · intro h hides
    obtain ⟨hpart, hrules⟩ := matched_of_hides (S := S) hsub hown hides
    exact absurd (h.1.symm.trans hrules) (by simp [hpart])
  · intro hides
    exact sameRoute_of_selectedRule_eq (selectedRule_eq_of_not_hides hd hsub hown hides)

end Part

/-! ## The host's own rules, and one rule more -/

lemma mem_insert_iff {before after : List RouteRule} {added x : RouteRule} :
    x ∈ before ++ added :: after ↔ x = added ∨ x ∈ before ++ after := by
  simp only [List.mem_append, List.mem_cons]
  exact or_left_comm

/-- The rules that were there before cannot hide a candidate among them. -/
lemma hides_insert_iff {before after : List RouteRule} {added : RouteRule}
    {host path clientIp : ByteString} :
    Hides (before ++ added :: after) (before ++ after) host path clientIp
      ↔ Hides [added] (before ++ after) host path clientIp := by
  constructor
  · rintro ⟨r, hc, he, r', hr', hk, hlt⟩
    refine ⟨r, hc, he, r', ?_, hk, hlt⟩
    rcases mem_insert_iff.mp hr' with rfl | hr'
    · exact List.mem_singleton_self _
    · exact absurd hlt (not_lt.mpr ((isCandidate_iff.mp hc).2.2.2 r' hr' hk))
  · rintro ⟨r, hc, he, r', hr', hk, hlt⟩
    exact ⟨r, hc, he, r', mem_insert_iff.mpr (Or.inl (List.mem_singleton.mp hr')), hk, hlt⟩

/-- **When rules of other hosts leave a host alone.**  The whole list and the host's own rules
route a request alike exactly when no rule of the list extends further along the path than the own
rule that would serve the request.  In the same way, adding a rule of another host leaves a matched
request matched and its target unchanged exactly when that rule does not extend further along the
path than the rule that served the request before. -/
theorem foreign_rules_harmless_iff (S : PrioritySort) (rules : List RouteRule)
    (hd : DistinctPriorities rules) (host path clientIp : ByteString) :
    (SameRoute ((finalized S rules).matchRoute host path clientIp)
        ((finalized S (ownRules host rules)).matchRoute host path clientIp)
      ↔ ¬ Hides rules (ownRules host rules) host path clientIp) ∧
    ∀ before added after, rules = before ++ added :: after →
      hostMatches host added.hostPattern = false →
      (((((finalized S (before ++ after)).matchRoute host path clientIp).matched = true →
            ((finalized S rules).matchRoute host path clientIp).matched = true) ∧
          ((finalized S rules).matchRoute host path clientIp).target
            = ((finalized S (before ++ after)).matchRoute host path clientIp).target)
        ↔ ¬ Hides [added] (before ++ after) host path clientIp) := by
  constructor
  · apply sameRoute_iff hd
    · intro x hx
      exact List.mem_of_mem_filter hx
    · intro x hx hhost
      exact List.mem_filter.mpr ⟨hx, hhost⟩
  · rintro before added after rfl hforeign
    have hown : ∀ x ∈ before ++ added :: after, hostMatches host x.hostPattern = true →
        x ∈ before ++ after := by
      intro x hx hhost
      rcases mem_insert_iff.mp hx with rfl | hx
      · exact absurd hhost (by simp [hforeign])
      · exact hx
    have hsub : ∀ x ∈ before ++ after, x ∈ before ++ added :: after :=
      fun x hx => mem_insert_iff.mpr (Or.inr hx)
    rw [← hides_insert_iff]
    constructor
    · rintro ⟨hmatched, _⟩ hides
      obtain ⟨hpart, hrules⟩ := matched_of_hides (S := S) hsub hown hides
      exact absurd (hmatched hpart) (by simp [hrules])
    · intro hides
      obtain ⟨hmatched, htarget, _⟩ := (sameRoute_iff (S := S) hd hsub hown).mpr hides
      exact ⟨fun h => hmatched.trans h, htarget⟩

/-- Two hosts on one path: `a` serves `/api`, `b` serves `/api/v2`. -/
def twoHosts : List RouteRule :=
  [{ hostPattern := ascii "a", pathPrefix := ascii "/api", target := { clusterName := ascii "ta" } },
    { hostPattern := ascii "b", pathPrefix := ascii "/api/v2",
      target := { clusterName := ascii "tb" } }]

/-- Without a request below the other host's prefix the two lists agree. -/
theorem foreign_rules_harmless_twoHosts :
    SameRoute
        ((finalized (.insertion fun _ => false) twoHosts).matchRoute (ascii "a") (ascii "/api") [])
        ((finalized (.insertion fun _ => false) (ownRules (ascii "a") twoHosts)).matchRoute
          (ascii "a") (ascii "/api") [])
      ↔ ¬ Hides twoHosts (ownRules (ascii "a") twoHosts) (ascii "a") (ascii "/api") [] :=
  (foreign_rules_harmless_iff (.insertion fun _ => false) twoHosts (by decide) (ascii "a")
    (ascii "/api") []).1

/-- **A request of host `a` that only host `b` disturbs**: alone, `a`'s rule serves it; together
with `b`'s longer rule it is unmatched. -/
theorem foreign_rule_hides_own_rule :
    DistinctPriorities twoHosts ∧
      ¬ SameRoute
        ((finalized (.insertion fun _ => false) twoHosts).matchRoute
          (ascii "a") (ascii "/api/v2/x") (ascii "127.0.0.1"))
        ((finalized (.insertion fun _ => false) (ownRules (ascii "a") twoHosts)).matchRoute
          (ascii "a") (ascii "/api/v2/x") (ascii "127.0.0.1")) := by
  decide +kernel

end Netp2.Routing
