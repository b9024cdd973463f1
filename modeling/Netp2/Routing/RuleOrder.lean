import Netp2.Routing.HostIsolation

/-!
# The order in which rules are added

Two lists of the same rules in different orders build the trie through different intermediate
shapes and hand different sequences to `std::sort`.  Neither matters.  By `findLongestPrefixRules_eq`
only the sorted candidates are left of the trie, and `sort_scanCandidates_perm` says that these are
the same list: candidates share their path segments, so with distinct priorities there is only one
way to sort them, whatever `std::sort` does with equals.
-/

namespace Netp2.Routing

open ByteString

variable {rules rules' : List RouteRule} {path : ByteString}

/-- Being a candidate does not depend on the order of the rules. -/
lemma isCandidate_congr (hmem : ∀ x, x ∈ rules ↔ x ∈ rules') (r : RouteRule) :
    IsCandidate rules path r ↔ IsCandidate rules' path r := by
  simp only [IsCandidate, hmem]

lemma scanCandidates_perm (hperm : rules.Perm rules') (path : ByteString) :
    (scanCandidates rules path).Perm (scanCandidates rules' path) := by
  have hcongr : scanCandidates rules' path = rules'.filter fun r => IsCandidate rules path r := by
    refine List.filter_congr ?_
    intro r _
    rw [decide_eq_decide]
    exact isCandidate_congr (fun x => hperm.symm.mem_iff) r
  rw [hcongr]
  exact hperm.filter _

/-- **There is one way to sort the candidates.** -/
theorem sort_scanCandidates_perm (S S' : PrioritySort) (hperm : rules.Perm rules')
    (hd : DistinctPriorities rules) (path : ByteString) :
    S.sort (scanCandidates rules path) = S'.sort (scanCandidates rules' path) := by
  have hsorted : (S.sort (scanCandidates rules path)).Perm
      (S'.sort (scanCandidates rules' path)) :=
    (S.perm _).trans ((scanCandidates_perm hperm path).trans (S'.perm _).symm)
  refine List.Perm.eq_of_pairwise ?_ (S.sorted _) (S'.sorted _) hsorted
  intro a b ha hb hab hba
  have hac : IsCandidate rules path a := mem_scanCandidates.mp ((S.perm _).mem_iff.mp ha)
  have hbc : IsCandidate rules path b :=
    mem_scanCandidates.mp ((S.perm _).mem_iff.mp (hsorted.mem_iff.mpr hb))
  exact hac.eq_of_priority_eq hd hbc (le_antisymm hab hba)

/-- **Routing does not depend on the order of the rules.**  For two orders of the same rules, of
which those with the same path segments have distinct priorities, and whatever sorting functions
compile them, `match` gives the same result, with the same fail reason. -/
theorem matchRoute_perm (S S' : PrioritySort) (hperm : rules.Perm rules')
    (hd : DistinctPriorities rules) (host path clientIp : ByteString) :
    (finalized S rules).matchRoute host path clientIp
      = (finalized S' rules').matchRoute host path clientIp := by
  simp only [finalized, RouteSnapshot.matchRoute, findLongestPrefixRules_eq,
    addedRules_map_addRule]
  rw [sort_scanCandidates_perm S S' hperm hd path]

/-- Two rules on one path, added in either order, and sorted by different functions. -/
theorem matchRoute_perm_twoOrders :
    (finalized (.insertion fun _ => false)
        [{ hostPattern := ascii "a", pathPrefix := ascii "/api", priority := 2 },
          { hostPattern := ascii "*", pathPrefix := ascii "/api/", priority := 1 }]).matchRoute
        (ascii "a") (ascii "/api/x") []
      = (finalized (.insertion fun _ => true)
        [{ hostPattern := ascii "*", pathPrefix := ascii "/api/", priority := 1 },
          { hostPattern := ascii "a", pathPrefix := ascii "/api", priority := 2 }]).matchRoute
        (ascii "a") (ascii "/api/x") [] :=
  matchRoute_perm _ _ (.swap _ _ []) (by decide) _ _ _

end Netp2.Routing
