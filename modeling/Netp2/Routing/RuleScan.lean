import Netp2.Routing.RouteSnapshot

/-!
# Matching as a scan of the rule list

The purpose of the compiled snapshot, stated without tries: among the rules whose path segments are
the longest non-empty prefix of the request's (for a request without segments, the rules without
segments), take one of the smallest priority value that accepts the host and the client address.

`findLongestPrefixRules_eq` connects this to the code: the walk down the trie returns the scanned
candidates in priority order.  From there on `match` is a search in a list, `selectedRule`, and the
facts the routing theorems need are facts about that search — `selectedRule_isSome_iff` for whether
it succeeds, `selectable_of_selectedRule` for what it returns, `selectedRule_insertion` for what it
can return.  `Selects` ties a rule to the result of `match`.
-/

namespace Netp2.Routing

open ByteString

/-! ## The specification -/

/-- `r` is one of the rules whose segments are the longest non-empty prefix of the path's. -/
def IsCandidate (rules : List RouteRule) (path : ByteString) (r : RouteRule) : Prop :=
  r ∈ rules ∧
    if splitPath path = [] then r.segments = []
    else r.segments ≠ [] ∧ r.segments <+: splitPath path ∧
      ∀ r' ∈ rules, r'.segments <+: splitPath path → r'.segments.length ≤ r.segments.length

instance (rules : List RouteRule) (path : ByteString) (r : RouteRule) :
    Decidable (IsCandidate rules path r) :=
  inferInstanceAs (Decidable (_ ∧ _))

/-- The rule accepts the host and the client address. -/
def Eligible (host clientIp : ByteString) (r : RouteRule) : Prop :=
  hostMatches host r.hostPattern = true ∧
    (r.allowedClientCidrs = [] ∨ ∃ cidr ∈ r.allowedClientCidrs, ipInCidr clientIp cidr = true)

/-- The candidates, in the order in which they were added. -/
def scanCandidates (rules : List RouteRule) (path : ByteString) : List RouteRule :=
  rules.filter fun r => IsCandidate rules path r

lemma mem_scanCandidates {rules : List RouteRule} {path : ByteString} {r : RouteRule} :
    r ∈ scanCandidates rules path ↔ IsCandidate rules path r := by
  simp only [scanCandidates, List.mem_filter, decide_eq_true_eq, and_iff_right_iff_imp]
  exact fun h => h.1

/-- What makes a rule a candidate, in one form for both kinds of path. -/
lemma isCandidate_iff {rules : List RouteRule} {path : ByteString} {r : RouteRule} :
    IsCandidate rules path r ↔
      r ∈ rules ∧ (splitPath path ≠ [] → r.segments ≠ []) ∧ r.segments <+: splitPath path ∧
        ∀ r' ∈ rules, r'.segments <+: splitPath path → r'.segments.length ≤ r.segments.length := by
  rw [IsCandidate]
  split_ifs with hnil
  · simp only [hnil, List.prefix_nil]
    constructor
    · rintro ⟨hmem, hr⟩
      exact ⟨hmem, fun h => absurd rfl h, hr, fun r' _ hr' => by simp [hr']⟩
    · rintro ⟨hmem, -, hr, -⟩
      exact ⟨hmem, hr⟩
  · constructor
    · rintro ⟨hmem, hne, hk, hmax⟩
      exact ⟨hmem, fun _ => hne, hk, hmax⟩
    · rintro ⟨hmem, hne, hk, hmax⟩
      exact ⟨hmem, hne hnil, hk, hmax⟩

/-- All candidates for a path have the same segments. -/
lemma IsCandidate.segments_eq {rules : List RouteRule} {path : ByteString} {a b : RouteRule}
    (ha : IsCandidate rules path a) (hb : IsCandidate rules path b) : a.segments = b.segments := by
  obtain ⟨ham, _, hak, hamax⟩ := isCandidate_iff.mp ha
  obtain ⟨hbm, _, hbk, hbmax⟩ := isCandidate_iff.mp hb
  have hle : a.segments.length ≤ b.segments.length := hbmax a ham hak
  have hge : b.segments.length ≤ a.segments.length := hamax b hbm hbk
  exact (List.prefix_of_prefix_length_le hak hbk hle).eq_of_length (le_antisymm hle hge)

/-! ## The trie walk finds the candidates -/

lemma scanCandidates_of_nil {rules : List RouteRule} {path : ByteString}
    (h : splitPath path = []) : scanCandidates rules path = rulesAt rules [] := by
  refine List.filter_congr ?_
  intro r hr
  simp [IsCandidate, h, hr]

lemma rulesAt_ne_nil {rules : List RouteRule} {p : List ByteString} :
    rulesAt rules p ≠ [] ↔ ∃ r ∈ rules, r.segments = p := by
  simp [rulesAt, List.filter_eq_nil_iff]

/-- With segments the candidates are the rules at the longest prefix that has any. -/
lemma scanCandidates_of_isLongest {rules : List RouteRule} {path : ByteString}
    {p : List ByteString}
    (h : PrefixTrie.IsLongest (fun q => rulesAt rules q ≠ []) (splitPath path) p) :
    scanCandidates rules path = rulesAt rules p := by
  obtain ⟨hp0, hpk, hpP, hmax⟩ := h
  have hne : splitPath path ≠ [] := fun e => hp0 (List.prefix_nil.mp (e ▸ hpk))
  obtain ⟨r₀, hr₀, hr₀p⟩ := rulesAt_ne_nil.mp hpP
  refine List.filter_congr ?_
  intro r hr
  simp only [IsCandidate, hne, if_false, decide_eq_decide]
  constructor
  · rintro ⟨_, hr0, hrk, hrmax⟩
    have hle : p.length ≤ r.segments.length := hr₀p ▸ hrmax r₀ hr₀ (hr₀p ▸ hpk)
    have hge : r.segments.length ≤ p.length := hmax _ hr0 hrk (rulesAt_ne_nil.mpr ⟨r, hr, rfl⟩)
    exact (List.prefix_of_prefix_length_le hrk hpk hge).eq_of_length (le_antisymm hge hle)
  · intro hrp
    rw [hrp]
    refine ⟨hr, hp0, hpk, ?_⟩
    intro r' hr' hr'k
    by_cases hr'0 : r'.segments = []
    · simp [hr'0]
    · exact hmax _ hr'0 hr'k (rulesAt_ne_nil.mpr ⟨r', hr', rfl⟩)

lemma scanCandidates_of_none {rules : List RouteRule} {path : ByteString}
    (hne : splitPath path ≠ []) (h : ∀ q, q ≠ [] → q <+: splitPath path → rulesAt rules q = []) :
    scanCandidates rules path = [] := by
  refine List.filter_eq_nil_iff.mpr ?_
  intro r hr
  simp only [IsCandidate, hne, if_false, decide_eq_true_eq]
  rintro ⟨_, hr0, hrk, _⟩
  exact rulesAt_ne_nil.mpr ⟨r, hr, rfl⟩ (h _ hr0 hrk)

lemma PrioritySort.sort_eq_nil_iff (S : PrioritySort) (rules : List RouteRule) :
    S.sort rules = [] ↔ rules = [] := by
  constructor
  · intro h
    exact List.nil_perm.mp (h ▸ S.perm rules)
  · rintro rfl
    exact S.sort_nil

/-- **The trie walk is the scan.**  Whatever was added and compiled before, after the last
`finalize` the rules found for a path are the scanned candidates in priority order. -/
theorem findLongestPrefixRules_eq (S : PrioritySort) (steps : List BuildStep) (path : ByteString) :
    (RouteSnapshot.build S (steps ++ [.finalize])).findLongestPrefixRules path
      = S.sort (scanCandidates (addedRules steps) path) := by
  rw [RouteSnapshot.findLongestPrefixRules, build_root]
  generalize addedRules steps = rules
  simp only [List.isEmpty_iff]
  split_ifs with hnil
  · rw [← PrefixTrie.valuesAt_nil, valuesAt_sortRules, scanCandidates_of_nil hnil]
  · -- a node of the compiled trie holds rules exactly when the rule list has some
    have hval : ∀ q, (sortRules S (buildTrie rules)).valuesAt q ≠ [] ↔ rulesAt rules q ≠ [] :=
      fun q => by rw [valuesAt_sortRules, Ne, S.sort_eq_nil_iff]
    by_cases hex : ∃ q, q ≠ [] ∧ q <+: splitPath path ∧ rulesAt rules q ≠ []
    · obtain ⟨q, hq0, hqk, hq⟩ := hex
      obtain ⟨p, hp⟩ := PrefixTrie.exists_isLongest (P := fun q => rulesAt rules q ≠ []) hq0 hqk hq
      rw [scanCandidates_of_isLongest hp, ← valuesAt_sortRules]
      refine PrefixTrie.deepest_of_isLongest ?_
      simpa only [hval] using hp
    · push Not at hex
      rw [scanCandidates_of_none hnil hex, S.sort_nil]
      refine PrefixTrie.deepest_of_none ?_
      intro q hq0 hqk
      rw [valuesAt_sortRules, hex q hq0 hqk, S.sort_nil]

/-! ## The candidate loop is a search -/

/-- The two checks of the loop, as one test. -/
def eligible (host clientIp : ByteString) (r : RouteRule) : Bool :=
  hostMatches host r.hostPattern && clientAllowed clientIp r

lemma eligible_iff {host clientIp : ByteString} {r : RouteRule} :
    eligible host clientIp r = true ↔ Eligible host clientIp r := by
  simp [eligible, Eligible, clientAllowed]

/-- The rule at which the loop of `match` stops. -/
def RouteSnapshot.selectedRule (s : RouteSnapshot) (host path clientIp : ByteString) :
    Option RouteRule :=
  (s.findLongestPrefixRules path).find? (eligible host clientIp)

/-- A rule that passes both checks ends the loop. -/
lemma candidateLoop_of_find_some {host clientIp : ByteString} {r : RouteRule} :
    ∀ {rules : List RouteRule} (reason : FailReason),
      rules.find? (eligible host clientIp) = some r →
      candidateLoop host clientIp reason rules = matchedBy r
  | [], _, h => by simp at h
  | x :: rules, reason, h => by
      rw [candidateLoop]
      cases hhost : hostMatches host x.hostPattern with
      | false =>
          have hx : eligible host clientIp x = false := by simp [eligible, hhost]
          rw [List.find?_cons_of_neg (by simp [hx])] at h
          simpa using candidateLoop_of_find_some .kHostMismatch h
      | true =>
          cases hip : clientAllowed clientIp x with
          | false =>
              have hx : eligible host clientIp x = false := by simp [eligible, hip]
              rw [List.find?_cons_of_neg (by simp [hx])] at h
              simpa using candidateLoop_of_find_some .kClientIpDenied h
          | true =>
              have hx : eligible host clientIp x = true := by simp [eligible, hhost, hip]
              rw [List.find?_cons_of_pos hx, Option.some.injEq] at h
              simp [h]

/-- Without such a rule the loop reports a failure, and `kPathMismatch` only for no rule at all. -/
lemma candidateLoop_of_find_none {host clientIp : ByteString} :
    ∀ {rules : List RouteRule} (reason : FailReason),
      rules.find? (eligible host clientIp) = none → reason ≠ .kPathMismatch →
      ∃ reason', candidateLoop host clientIp reason rules = { failReason := reason' }
        ∧ reason' ≠ .kNone ∧ (reason' = .kPathMismatch ↔ rules = [] ∧ reason = .kNone)
  | [], reason, _, hreason => by
      refine ⟨if reason = .kNone then .kPathMismatch else reason, rfl, ?_, ?_⟩
      · split_ifs with h
        · decide
        · exact h
      · by_cases h : reason = .kNone
        · simp [h]
        · simp [h, hreason]
  | x :: rules, reason, h, _ => by
      have hx : eligible host clientIp x = false := by
        simpa using List.find?_eq_none.mp h x (by simp)
      have hrest : rules.find? (eligible host clientIp) = none := by
        rwa [List.find?_cons_of_neg (by simp [hx])] at h
      rw [candidateLoop]
      cases hhost : hostMatches host x.hostPattern with
      | false =>
          obtain ⟨reason', heq, hne, hiff⟩ :=
            candidateLoop_of_find_none .kHostMismatch hrest (by decide)
          exact ⟨reason', by simpa using heq, hne, by simpa using hiff⟩
      | true =>
          have hip : clientAllowed clientIp x = false := by simpa [eligible, hhost] using hx
          obtain ⟨reason', heq, hne, hiff⟩ :=
            candidateLoop_of_find_none .kClientIpDenied hrest (by decide)
          exact ⟨reason', by simpa [hip] using heq, hne, by simpa using hiff⟩

lemma matchRoute_of_selectedRule_some {s : RouteSnapshot} {host path clientIp : ByteString}
    {r : RouteRule} (h : s.selectedRule host path clientIp = some r) :
    s.matchRoute host path clientIp = matchedBy r :=
  candidateLoop_of_find_some .kNone h

lemma matchRoute_of_selectedRule_none {s : RouteSnapshot} {host path clientIp : ByteString}
    (h : s.selectedRule host path clientIp = none) :
    ∃ reason, s.matchRoute host path clientIp = { failReason := reason } ∧ reason ≠ .kNone
      ∧ (reason = .kPathMismatch ↔ s.findLongestPrefixRules path = []) := by
  obtain ⟨reason, heq, hne, hiff⟩ := candidateLoop_of_find_none .kNone h (by decide)
  exact ⟨reason, heq, hne, by simpa using hiff⟩

/-- `match` succeeds exactly when the loop stops at a rule. -/
lemma matchRoute_matched (s : RouteSnapshot) (host path clientIp : ByteString) :
    (s.matchRoute host path clientIp).matched = (s.selectedRule host path clientIp).isSome := by
  cases h : s.selectedRule host path clientIp with
  | some r => rw [matchRoute_of_selectedRule_some h]; rfl
  | none =>
      obtain ⟨reason, heq, _⟩ := matchRoute_of_selectedRule_none h
      rw [heq]
      rfl

/-- `match` selects a rule: its loop stops at the rule, and answers with it. -/
structure RouteSnapshot.Selects (s : RouteSnapshot) (host path clientIp : ByteString)
    (r : RouteRule) : Prop where
  stops : s.selectedRule host path clientIp = some r
  result : s.matchRoute host path clientIp = matchedBy r

lemma selects_iff {s : RouteSnapshot} {host path clientIp : ByteString} {r : RouteRule} :
    s.Selects host path clientIp r ↔ s.selectedRule host path clientIp = some r :=
  ⟨RouteSnapshot.Selects.stops, fun h => ⟨h, matchRoute_of_selectedRule_some h⟩⟩

/-! ## The selected rule of a finalized snapshot -/

/-- `r` is an eligible candidate of the smallest priority value: what a scan may answer with. -/
def Selectable (rules : List RouteRule) (host path clientIp : ByteString) (r : RouteRule) : Prop :=
  IsCandidate rules path r ∧ Eligible host clientIp r ∧
    ∀ r', IsCandidate rules path r' → Eligible host clientIp r' → r.priority ≤ r'.priority

section Selected

variable {S : PrioritySort} {steps : List BuildStep} {host path clientIp : ByteString}

/-- A rule is selected exactly when some candidate is eligible. -/
lemma selectedRule_isSome_iff :
    ((RouteSnapshot.build S (steps ++ [.finalize])).selectedRule host path clientIp).isSome
      ↔ ∃ r, IsCandidate (addedRules steps) path r ∧ Eligible host clientIp r := by
  simp only [RouteSnapshot.selectedRule, findLongestPrefixRules_eq, List.find?_isSome,
    (S.perm _).mem_iff, mem_scanCandidates, eligible_iff]

/-- **What is selected** is an eligible candidate of the smallest priority value. -/
theorem selectable_of_selectedRule {r : RouteRule}
    (h : (RouteSnapshot.build S (steps ++ [.finalize])).selectedRule host path clientIp = some r) :
    Selectable (addedRules steps) host path clientIp r := by
  rw [RouteSnapshot.selectedRule, findLongestPrefixRules_eq] at h
  obtain ⟨helig, before, after, hsplit, hbefore⟩ := List.find?_eq_some_iff_append.mp h
  have hsorted := S.sorted (scanCandidates (addedRules steps) path)
  rw [hsplit, List.pairwise_append, List.pairwise_cons] at hsorted
  have hmem : ∀ x, x ∈ before ++ r :: after ↔ IsCandidate (addedRules steps) path x := fun x => by
    rw [← hsplit, (S.perm _).mem_iff, mem_scanCandidates]
  refine ⟨(hmem r).mp (by simp), eligible_iff.mp helig, ?_⟩
  intro r' hr' helig'
  -- an eligible rule cannot stand in front of the selected one
  rcases List.mem_append.mp ((hmem r').mpr hr') with hin | hin
  · simpa [eligible_iff.mpr helig'] using hbefore r' hin
  · rcases List.mem_cons.mp hin with rfl | hin
    · exact le_rfl
    · exact hsorted.2.1.1 r' hin

end Selected

/-- **Every selectable rule is selected under some order of equal priorities**, namely under the
one that prefers it. -/
theorem selectedRule_insertion {steps : List BuildStep} {host path clientIp : ByteString}
    {r : RouteRule} (h : Selectable (addedRules steps) host path clientIp r) :
    (RouteSnapshot.build (.insertion (· = r)) (steps ++ [.finalize])).selectedRule
      host path clientIp = some r := by
  obtain ⟨hcand, helig, hmin⟩ := h
  have hsome := selectedRule_isSome_iff (S := .insertion (· = r)).mpr ⟨r, hcand, helig⟩
  obtain ⟨x, hx⟩ := Option.isSome_iff_exists.mp hsome
  obtain ⟨hxcand, hxelig, hxmin⟩ := selectable_of_selectedRule hx
  have hprio : x.priority = r.priority :=
    le_antisymm (hxmin r hcand helig) (hmin x hxcand hxelig)
  rw [hx, Option.some.injEq]
  rw [RouteSnapshot.selectedRule, findLongestPrefixRules_eq] at hx
  obtain ⟨-, before, after, hsplit, hbefore⟩ := List.find?_eq_some_iff_append.mp hx
  have hmem : r ∈ before ++ x :: after := by
    rw [← hsplit, (PrioritySort.perm _ _).mem_iff]
    exact mem_scanCandidates.mpr hcand
  rcases List.mem_append.mp hmem with hin | hin
  · simpa [eligible_iff.mpr helig] using hbefore r hin
  · rcases List.mem_cons.mp hin with hin | hin
    · exact hin.symm
    · -- behind the selected rule, so the selected rule must be preferred as well
      have hsorted := List.pairwise_insertionSort (PrioritySort.Before (· = r))
        (scanCandidates (addedRules steps) path)
      have hsplit : List.insertionSort (PrioritySort.Before (· = r))
          (scanCandidates (addedRules steps) path) = before ++ x :: after := hsplit
      rw [hsplit, List.pairwise_append, List.pairwise_cons] at hsorted
      rcases hsorted.2.1.1 r hin with hlt | ⟨_, hpref⟩
      · exact absurd hprio hlt.ne
      · simpa using hpref

/-- What holds of the rule that `match` selects, whatever `std::sort` does with equals, is what
holds of every selectable one. -/
lemma forall_selects_iff {steps : List BuildStep} {host path clientIp : ByteString}
    {P : RouteRule → Prop} :
    (∀ S r, (RouteSnapshot.build S (steps ++ [.finalize])).Selects host path clientIp r → P r)
      ↔ ∀ r, Selectable (addedRules steps) host path clientIp r → P r := by
  constructor
  · intro h r hr
    exact h (.insertion (· = r)) r (selects_iff.mpr (selectedRule_insertion hr))
  · intro h S r hr
    exact h r (selectable_of_selectedRule hr.stops)

lemma finalized_isSome_iff {S : PrioritySort} {rules : List RouteRule}
    {host path clientIp : ByteString} :
    ((finalized S rules).selectedRule host path clientIp).isSome
      ↔ ∃ r, IsCandidate rules path r ∧ Eligible host clientIp r := by
  rw [finalized, selectedRule_isSome_iff, addedRules_map_addRule]

lemma selectable_of_finalized {S : PrioritySort} {rules : List RouteRule}
    {host path clientIp : ByteString} {r : RouteRule}
    (h : (finalized S rules).selectedRule host path clientIp = some r) :
    Selectable rules host path clientIp r := by
  rw [← addedRules_map_addRule rules]
  exact selectable_of_selectedRule h

/-- **The compiled trie agrees with a plain scan of the rules.**  For every way of building the
snapshot, `match` succeeds exactly when some candidate is eligible; it then answers with an
eligible candidate of the smallest priority value, and otherwise with an empty result whose fail
reason is `kPathMismatch` exactly when there is no candidate. -/
theorem matchRoute_eq_scan (S : PrioritySort) (steps : List BuildStep)
    (host path clientIp : ByteString) :
    let rules := addedRules steps
    let result := (RouteSnapshot.build S (steps ++ [.finalize])).matchRoute host path clientIp
    (result.matched = true ↔ ∃ r, IsCandidate rules path r ∧ Eligible host clientIp r) ∧
    (result.matched = true →
      ∃ r, IsCandidate rules path r ∧ Eligible host clientIp r ∧
        (∀ r', IsCandidate rules path r' → Eligible host clientIp r' → r.priority ≤ r'.priority) ∧
        result.target = r.target ∧ result.matchedRuleId = r.hostPattern ++ r.pathPrefix ∧
        result.failReason = .kNone) ∧
    (result.matched = false →
      result.target = {} ∧ result.matchedRuleId = [] ∧ result.failReason ≠ .kNone ∧
        (result.failReason = .kPathMismatch ↔ ¬ ∃ r, IsCandidate rules path r)) := by
  intro rules result
  cases hsel : (RouteSnapshot.build S (steps ++ [.finalize])).selectedRule host path clientIp with
  | some r =>
      have hresult : result = matchedBy r := matchRoute_of_selectedRule_some hsel
      obtain ⟨hcand, helig, hmin⟩ := selectable_of_selectedRule hsel
      rw [hresult]
      refine ⟨⟨fun _ => ⟨r, hcand, helig⟩, fun _ => rfl⟩, ?_, ?_⟩
      · intro _
        exact ⟨r, hcand, helig, hmin, rfl, rfl, rfl⟩
      · intro h
        exact absurd h (by simp [matchedBy])
  | none =>
      obtain ⟨reason, hresult, hne, hiff⟩ := matchRoute_of_selectedRule_none hsel
      have hnone : ¬ ∃ r, IsCandidate rules path r ∧ Eligible host clientIp r := by
        rw [← selectedRule_isSome_iff (S := S), hsel]
        simp
      have hempty : reason = .kPathMismatch ↔ ¬ ∃ r, IsCandidate rules path r := by
        rw [hiff, findLongestPrefixRules_eq, S.sort_eq_nil_iff, List.eq_nil_iff_forall_not_mem]
        simp only [mem_scanCandidates, not_exists]
        rfl
      have hresult : result = { failReason := reason } := hresult
      rw [hresult]
      refine ⟨⟨fun h => absurd h (by simp), fun h => absurd h hnone⟩, ?_, ?_⟩
      · intro h
        exact absurd h (by simp)
      · intro _
        exact ⟨rfl, rfl, hne, hempty⟩

end Netp2.Routing
