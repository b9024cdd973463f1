import Netp2.Routing.RuleScan

/-!
# Why a request was not routed

A request that no rule serves is answered with a reason.  The stages are host and client address,
in this order, for each candidate that the path leads to, so a reader expects the furthest stage
that some candidate reached: the client address was denied, or no candidate accepts the host, or
there is no candidate.

The loop of `match` keeps one variable and overwrites it at every candidate.  What is left is the
stage of the *last* candidate (`failReason_eq`), the one with the largest priority value.  So the
reason is the expected one unless a rule that rejects the host is sorted behind one that accepts it,
`HostRejectedLast`.
-/

namespace Netp2.Routing

open ByteString

/-- The stage at which a rule that is not eligible fails. -/
def stageReason (host : ByteString) (r : RouteRule) : FailReason :=
  if hostMatches host r.hostPattern then .kClientIpDenied else .kHostMismatch

/-- The reason is the furthest stage that one of the candidates reached. -/
def NamesFurthestStage (host : ByteString) (candidates : List RouteRule) (reason : FailReason) :
    Prop :=
  (reason = .kPathMismatch ↔ candidates = []) ∧
    (reason = .kClientIpDenied ↔ ∃ r ∈ candidates, hostMatches host r.hostPattern = true) ∧
    (reason = .kHostMismatch ↔
      candidates ≠ [] ∧ ¬∃ r ∈ candidates, hostMatches host r.hostPattern = true)

/-- A candidate accepts the host, and the last one rejects it. -/
def HostRejectedLast (host : ByteString) (candidates : List RouteRule) : Prop :=
  (∃ r ∈ candidates, hostMatches host r.hostPattern = true) ∧
    ∃ r ∈ candidates.getLast?, hostMatches host r.hostPattern = false

instance (host : ByteString) (candidates : List RouteRule) :
    Decidable (HostRejectedLast host candidates) :=
  inferInstanceAs (Decidable (_ ∧ _))

/-! ## The variable of the loop -/

/-- A rule that is not eligible hands its stage on to the rest of the loop. -/
lemma candidateLoop_cons_of_not_eligible {host clientIp : ByteString} {r : RouteRule}
    (hr : eligible host clientIp r = false) (reason : FailReason) (rules : List RouteRule) :
    candidateLoop host clientIp reason (r :: rules)
      = candidateLoop host clientIp (stageReason host r) rules := by
  rw [candidateLoop, stageReason]
  cases hhost : hostMatches host r.hostPattern with
  | false => simp
  | true =>
      have hip : clientAllowed clientIp r = false := by simpa [eligible, hhost] using hr
      simp [hip]

lemma stageReason_ne_kNone (host : ByteString) (r : RouteRule) :
    stageReason host r ≠ .kNone := by
  rw [stageReason]
  split_ifs <;> simp

/-- The variable after the loop: the last candidate wrote it. -/
lemma candidateLoop_failReason {host clientIp : ByteString} :
    ∀ {rules : List RouteRule} {reason : FailReason}, reason ≠ .kNone →
      rules.find? (eligible host clientIp) = none →
      (candidateLoop host clientIp reason rules).failReason
        = (rules.getLast?.map (stageReason host)).getD reason
  | [], reason, hreason, _ => by simp [candidateLoop, hreason]
  | r :: rules, reason, _, h => by
      have hr : eligible host clientIp r = false := by
        simpa using List.find?_eq_none.mp h r (by simp)
      have hrest : rules.find? (eligible host clientIp) = none := by
        rwa [List.find?_cons_of_neg (by simp [hr])] at h
      rw [candidateLoop_cons_of_not_eligible hr,
        candidateLoop_failReason (stageReason_ne_kNone host r) hrest, List.getLast?_cons]
      cases rules.getLast? with
      | none => simp
      | some last => simp

/-- **The reason is the stage of the last candidate.** -/
theorem failReason_eq {s : RouteSnapshot} {host path clientIp : ByteString}
    (h : (s.matchRoute host path clientIp).matched = false) :
    (s.matchRoute host path clientIp).failReason
      = ((s.findLongestPrefixRules path).getLast?.map (stageReason host)).getD .kPathMismatch := by
  have hnone : (s.findLongestPrefixRules path).find? (eligible host clientIp) = none := by
    rw [matchRoute_matched] at h
    simpa [RouteSnapshot.selectedRule] using h
  rw [RouteSnapshot.matchRoute]
  cases hrules : s.findLongestPrefixRules path with
  | nil => simp [candidateLoop]
  | cons r rules =>
      rw [hrules] at hnone
      -- the first round sets the variable whatever it was
      have hr : eligible host clientIp r = false := by
        simpa using List.find?_eq_none.mp hnone r (by simp)
      rw [candidateLoop_cons_of_not_eligible hr .kNone,
        ← candidateLoop_cons_of_not_eligible hr .kPathMismatch,
        candidateLoop_failReason (by simp) hnone]

/-! ## When it is the furthest stage -/

/-- The stage of the last of the candidates is the furthest one, unless the host is rejected
last. -/
lemma namesFurthestStage_iff (host : ByteString) (candidates : List RouteRule) :
    NamesFurthestStage host candidates
        ((candidates.getLast?.map (stageReason host)).getD .kPathMismatch)
      ↔ ¬HostRejectedLast host candidates := by
  cases hlast : candidates.getLast? with
  | none =>
      rw [List.getLast?_eq_none_iff] at hlast
      simp [NamesFurthestStage, HostRejectedLast, hlast]
  | some last =>
      have hmem : last ∈ candidates := List.mem_of_getLast? hlast
      have hne : candidates ≠ [] := List.ne_nil_of_mem hmem
      cases hhost : hostMatches host last.hostPattern with
      | true =>
          have hstage : stageReason host last = .kClientIpDenied := by simp [stageReason, hhost]
          have hex : ∃ r ∈ candidates, hostMatches host r.hostPattern = true := ⟨last, hmem, hhost⟩
          simp only [NamesFurthestStage, HostRejectedLast, Option.map_some, Option.getD_some,
            hstage, hlast, hne, hex]
          simp [hhost]
      | false =>
          have hstage : stageReason host last = .kHostMismatch := by simp [stageReason, hhost]
          simp only [NamesFurthestStage, HostRejectedLast, Option.map_some, Option.getD_some,
            hstage, hlast]
          simp [hhost, hne]

/-- **When the reason is the furthest stage.**  For a request that no rule serves, the reason names
the furthest stage that some candidate reached, exactly when the candidate that is sorted last
accepts the host or none does. -/
theorem reason_furthest_iff (S : PrioritySort) (rules : List RouteRule)
    (host path clientIp : ByteString)
    (h : ((finalized S rules).matchRoute host path clientIp).matched = false) :
    NamesFurthestStage host ((finalized S rules).findLongestPrefixRules path)
        ((finalized S rules).matchRoute host path clientIp).failReason
      ↔ ¬HostRejectedLast host (S.sort (scanCandidates rules path)) := by
  have hcandidates : (finalized S rules).findLongestPrefixRules path
      = S.sort (scanCandidates rules path) := by
    rw [finalized, findLongestPrefixRules_eq, addedRules_map_addRule]
  rw [failReason_eq h, namesFurthestStage_iff, hcandidates]

/-- Two hosts share a prefix; the rule of `a` is only for one client. -/
def sharedPrefix : List RouteRule :=
  [{ hostPattern := ascii "a", pathPrefix := ascii "/api",
     allowedClientCidrs := [ascii "10.0.0.1"], priority := 1 },
    { hostPattern := ascii "b", pathPrefix := ascii "/api", priority := 2 }]

/-- The same with the priorities the other way. -/
def foreignFirst : List RouteRule :=
  sharedPrefix.map fun r => { r with priority := -r.priority }

/-- The reason is right if the rule of `b` comes before that of `a`. -/
theorem reason_furthest_twoRules :
    ((finalized (.insertion fun _ => false) foreignFirst).findLongestPrefixRules
        (ascii "/api")).length = 2 ∧
      NamesFurthestStage (ascii "a")
        ((finalized (.insertion fun _ => false) foreignFirst).findLongestPrefixRules
          (ascii "/api"))
        ((finalized (.insertion fun _ => false) foreignFirst).matchRoute
          (ascii "a") (ascii "/api") (ascii "10.0.0.2")).failReason :=
  ⟨by decide +kernel, (reason_furthest_iff (.insertion fun _ => false) foreignFirst (ascii "a")
    (ascii "/api") (ascii "10.0.0.2") (by decide +kernel)).mpr (by decide +kernel)⟩

/-- **A denied client is told that its host is unknown**: the rule of host `a` denies `10.0.0.2`,
and the rule of `b` behind it overwrites the reason. -/
theorem denied_client_reads_host_mismatch :
    ((finalized (.insertion fun _ => false) sharedPrefix).matchRoute
          (ascii "a") (ascii "/api") (ascii "10.0.0.2")).matched = false ∧
      ¬NamesFurthestStage (ascii "a")
        ((finalized (.insertion fun _ => false) sharedPrefix).findLongestPrefixRules
          (ascii "/api"))
        ((finalized (.insertion fun _ => false) sharedPrefix).matchRoute
          (ascii "a") (ascii "/api") (ascii "10.0.0.2")).failReason := by
  generalize hs : finalized (.insertion fun _ => false) sharedPrefix = s
  have hreason : (s.matchRoute (ascii "a") (ascii "/api") (ascii "10.0.0.2")).failReason
      = .kHostMismatch := by
    rw [← hs]
    decide +kernel
  have hcandidate : ∃ r ∈ s.findLongestPrefixRules (ascii "/api"),
      hostMatches (ascii "a") r.hostPattern = true := by
    rw [← hs]
    decide +kernel
  refine ⟨?_, ?_⟩
  · rw [← hs]
    decide +kernel
  · rintro ⟨_, _, hhost⟩
    exact (hhost.mp hreason).2 hcandidate

end Netp2.Routing
