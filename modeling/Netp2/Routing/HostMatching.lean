import Netp2.Routing.RuleScan

/-!
# Wildcard host patterns

`*.example.com` stands for the host `example.com` and its subdomains.  `host_matches` cuts off the
asterisk *and the dot* and compares what is left with the end of the host, so the match may begin in
the middle of a label: `evilexample.com` is taken for a host of `example.com`.

`suffix_iff` splits the hosts that are accepted into those of the domain and those cut inside a
label, and `wildcard_confined_iff` says when only the former are routed.
-/

namespace Netp2.Routing

open ByteString Ipv4

/-- The pattern `*.` followed by a domain. -/
def wildcard (domain : ByteString) : ByteString :=
  ascii "*." ++ domain

/-- The host is the domain or one of its subdomains. -/
def InDomain (host domain : ByteString) : Prop :=
  host = domain ∨ dot :: domain <:+ host

instance (host domain : ByteString) : Decidable (InDomain host domain) :=
  inferInstanceAs (Decidable (_ ∨ _))

/-- The host ends with the text of the domain, behind a byte that is no dot. -/
def CutsLabel (host domain : ByteString) : Prop :=
  ∃ pre b, b ≠ dot ∧ host = pre ++ b :: domain

lemma hostMatches_wildcard (host domain : ByteString) :
    hostMatches host (wildcard domain) = true ↔ domain <:+ host := by
  have hstar : wildcard domain ≠ ascii "*" := by
    intro h
    exact absurd (congrArg List.length h) (by simp [wildcard, ascii])
  have hprefix : (ascii "*.").isPrefixOf (wildcard domain) = true := by
    simp [wildcard]
  have hdrop : (wildcard domain).drop 2 = domain := List.drop_left' rfl
  rw [hostMatches, if_neg hstar, if_pos hprefix, hdrop, List.isSuffixOf_iff_suffix]

lemma hostMatches_star (host : ByteString) : hostMatches host (ascii "*") = true :=
  if_pos rfl

/-- Any other pattern is a host name and accepts itself. -/
lemma hostMatches_exact {pattern : ByteString} (hstar : pattern ≠ ascii "*")
    (hwild : ∀ domain, pattern ≠ wildcard domain) (host : ByteString) :
    hostMatches host pattern = true ↔ host = pattern := by
  have hprefix : ¬(ascii "*.").isPrefixOf pattern = true := by
    rw [List.isPrefixOf_iff_prefix]
    rintro ⟨domain, rfl⟩
    exact hwild domain rfl
  rw [hostMatches, if_neg hstar, if_neg hprefix, beq_iff_eq]

/-- **What a wildcard accepts**: the hosts of its domain, and those it cuts inside a label. -/
theorem suffix_iff (host domain : ByteString) :
    domain <:+ host ↔ InDomain host domain ∨ CutsLabel host domain := by
  constructor
  · rintro ⟨pre, rfl⟩
    rcases List.eq_nil_or_concat pre with rfl | ⟨pre, b, rfl⟩
    · exact Or.inl (Or.inl rfl)
    · rw [List.concat_eq_append, List.append_assoc, List.singleton_append]
      by_cases hb : b = dot
      · subst hb
        exact Or.inl (Or.inr (List.suffix_append _ _))
      · exact Or.inr ⟨pre, b, hb, rfl⟩
  · rintro ((rfl | h) | ⟨pre, b, -, rfl⟩)
    · exact List.suffix_rfl
    · exact (List.suffix_cons _ _).trans h
    · exact (List.suffix_cons _ _).trans (List.suffix_append _ _)

/-- No host is both. -/
lemma CutsLabel.not_inDomain {host domain : ByteString} (h : CutsLabel host domain) :
    ¬InDomain host domain := by
  obtain ⟨pre, b, hb, rfl⟩ := h
  rintro (heq | ⟨pre', heq⟩)
  · have hlen := congrArg List.length heq
    simp only [List.length_append, List.length_cons] at hlen
    omega
  · have hcons := List.append_inj_right' heq (by simp)
    exact hb (List.cons.inj hcons).1.symm

/-- **When a wildcard rule stays within its domain.**  What `host_matches` accepts is in the domain
exactly when the host does not cut a label of it; and whatever `std::sort` does with equal
priorities, a selected wildcard rule is one of the host's domain exactly when no selectable rule has
a label that the host cuts. -/
theorem wildcard_confined_iff (host : ByteString) :
    (∀ domain, (hostMatches host (wildcard domain) = true → InDomain host domain) ↔
      ¬CutsLabel host domain) ∧
    (∀ steps path clientIp,
      (∀ S r, (RouteSnapshot.build S (steps ++ [.finalize])).Selects host path clientIp r →
          ∀ domain, r.hostPattern = wildcard domain → InDomain host domain) ↔
        ∀ r, Selectable (addedRules steps) host path clientIp r →
          ∀ domain, r.hostPattern = wildcard domain → ¬CutsLabel host domain) := by
  have haccepts : ∀ domain, hostMatches host (wildcard domain) = true →
      (InDomain host domain ↔ ¬CutsLabel host domain) := by
    intro domain h
    have hsplit := (suffix_iff host domain).mp ((hostMatches_wildcard host domain).mp h)
    exact ⟨fun hin hcut => hcut.not_inDomain hin, hsplit.resolve_right⟩
  refine ⟨?_, ?_⟩
  · intro domain
    constructor
    · intro h hcut
      refine hcut.not_inDomain (h ((hostMatches_wildcard host domain).mpr ?_))
      exact (suffix_iff host domain).mpr (Or.inr hcut)
    · intro h haccept
      exact (haccepts domain haccept).mpr h
  · intro steps path clientIp
    rw [forall_selects_iff]
    refine forall₂_congr fun r hr => forall₂_congr fun domain hpattern => ?_
    exact haccepts domain (hpattern ▸ hr.2.1.1)

/-- The rule of a tenant. -/
def tenantRule : RouteRule where
  hostPattern := ascii "*.example.com"
  pathPrefix := ascii "/api"
  target := { clusterName := ascii "api-cluster" }

/-- A foreign host is routed into the rules of `example.com`. -/
theorem foreign_host_routed :
    hostMatches (ascii "evilexample.com") (wildcard (ascii "example.com")) = true ∧
      ¬InDomain (ascii "evilexample.com") (ascii "example.com") ∧
      (finalized (.insertion fun _ => false) [tenantRule]).Selects
        (ascii "evilexample.com") (ascii "/api/test") (ascii "127.0.0.1") tenantRule := by
  refine ⟨by decide +kernel, by decide +kernel, ?_, ?_⟩ <;> decide +kernel

end Netp2.Routing
