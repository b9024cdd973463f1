import Netp2.Routing.PathSegments

/-!
# The root rule

A rule for `/` is meant for the root path alone.  The lookup does not see the path any more, only
its segments, and `split_path` has none for three kinds of path: those made of slashes, the empty
one, and any that does not begin with a slash.  For the last two the rules of the root node are the
fallback that they are not meant to be.

`root_rule_exact_iff` says when this does not happen.
-/

namespace Netp2.Routing

open ByteString

/-- The root path, perhaps with its slash repeated. -/
def OnlySlashes (path : ByteString) : Prop :=
  path ≠ [] ∧ ∀ b ∈ path, b = slash

instance (path : ByteString) : Decidable (OnlySlashes path) :=
  inferInstanceAs (Decidable (_ ∧ _))

lemma segmentsOf_eq_nil_iff (s : ByteString) : segmentsOf s = [] ↔ ∀ b ∈ s, b = slash := by
  induction s with
  | nil => simp
  | cons b s ih =>
      by_cases hb : b = slash
      · simp [hb, ih]
      · obtain ⟨x, rest, hfirst, -⟩ := exists_segmentFirst hb s
        simp [segmentsOf_segmentFirst hfirst, hb]

/-- **A path has no segments** if it consists of slashes or does not begin with one. -/
theorem splitPath_eq_nil_iff (path : ByteString) :
    splitPath path = [] ↔ OnlySlashes path ∨ path.head? ≠ some slash := by
  rw [splitPath_eq]
  split_ifs with hhead
  · have hne : path ≠ [] := by
      rintro rfl
      simp at hhead
    simp [segmentsOf_eq_nil_iff, OnlySlashes, hne, hhead]
  · simp [hhead]

/-- A candidate for `/` means that the path has no segments. -/
lemma splitPath_of_root_candidate {rules : List RouteRule} {path : ByteString} {r : RouteRule}
    (hr : IsCandidate rules path r) (hroot : r.pathPrefix = ascii "/") : splitPath path = [] := by
  have hsegments : r.segments = [] := by rw [RouteRule.segments, hroot, splitPath_root]
  by_contra hne
  exact (isCandidate_iff.mp hr).2.1 hne hsegments

/-- **When the root rule is exact.**  Whatever `std::sort` does with equal priorities, a rule for
`/` is selected for paths of slashes only, exactly when the path begins with a slash or no rule for
`/` is selectable. -/
theorem root_rule_exact_iff (steps : List BuildStep) (host path clientIp : ByteString) :
    (∀ S r, (RouteSnapshot.build S (steps ++ [.finalize])).Selects host path clientIp r →
        r.pathPrefix = ascii "/" → OnlySlashes path) ↔
      path.head? = some slash ∨
        ∀ r, Selectable (addedRules steps) host path clientIp r → r.pathPrefix ≠ ascii "/" := by
  rw [forall_selects_iff]
  constructor
  · intro h
    rw [or_iff_not_imp_left]
    intro hhead r hr hroot
    obtain ⟨hne, hslashes⟩ := h r hr hroot
    cases path with
    | nil => exact hne rfl
    | cons b rest => exact hhead (congrArg some (hslashes b List.mem_cons_self))
  · intro h r hr hroot
    rcases h with hhead | hnone
    · have hnil := splitPath_of_root_candidate hr.1 hroot
      exact ((splitPath_eq_nil_iff path).mp hnil).resolve_right fun hne => hne hhead
    · exact absurd hroot (hnone r hr)

def rootRule : RouteRule where
  hostPattern := ascii "example.com"
  pathPrefix := ascii "/"
  target := { clusterName := ascii "root-service" }

/-- The rule for `/` answers for an absolute-form target and for the empty path. -/
theorem root_rule_fallback :
    ¬OnlySlashes (ascii "http://a/b") ∧ ¬OnlySlashes [] ∧
      (RouteSnapshot.build (.insertion fun _ => false) [.addRule rootRule, .finalize]).Selects
        (ascii "example.com") (ascii "http://a/b") (ascii "127.0.0.1") rootRule ∧
      (RouteSnapshot.build (.insertion fun _ => false) [.addRule rootRule, .finalize]).Selects
        (ascii "example.com") [] (ascii "127.0.0.1") rootRule := by
  refine ⟨?_, ?_, ⟨?_, ?_⟩, ?_, ?_⟩ <;> decide +kernel

end Netp2.Routing
