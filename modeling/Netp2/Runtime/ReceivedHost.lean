import Netp2.Routing.HostMatching
import Netp2.Runtime.Spine

/-!
# The host as it was received

A host name has no case, and a client adds the port when it is not the default one.  The codec and
`host_matches` know neither: the value of the `Host` header is stored byte for byte, and compared
byte for byte with the patterns.  So two forms of one host are routed alike only as far as the
patterns read them alike.

`readsAlike_iff` says which patterns do, and `route_of_received_host` what follows for requests.
-/

namespace Netp2.Runtime

open ByteString LastWrite Netp2.Protocol Netp2.Routing

def colon : UInt8 := 58

/-- A host name, with a port or without. -/
def receivedHost (name : ByteString) (port : Option ℕ) : ByteString :=
  name ++ (port.map fun n => colon :: decimal n).getD []

/-- Lower case and without a colon, as host names are written in rules. -/
def PlainName (name : ByteString) : Prop :=
  toLower name = name ∧ colon ∉ name

instance (name : ByteString) : Decidable (PlainName name) :=
  inferInstanceAs (Decidable (_ ∧ _))

/-- The pattern accepts both hosts or neither. -/
def ReadsAlike (host host' pattern : ByteString) : Prop :=
  hostMatches host pattern = hostMatches host' pattern

instance (host host' pattern : ByteString) : Decidable (ReadsAlike host host' pattern) :=
  inferInstanceAs (Decidable (_ = _))

/-! ## Which patterns read two forms of a host alike -/

lemma suffix_append_cons_iff {α : Type} {c : α} {d : List α} (hc : c ∉ d) (x y : List α) :
    d <:+ x ++ c :: y ↔ d <:+ y := by
  constructor
  · intro h
    rcases List.suffix_or_suffix_of_suffix h (List.suffix_append x (c :: y)) with hd | hd
    · rcases List.suffix_cons_iff.mp hd with rfl | hd
      · exact absurd List.mem_cons_self hc
      · exact hd
    · exact absurd (hd.subset List.mem_cons_self) hc
  · intro h
    exact (h.trans (List.suffix_cons c y)).trans (List.suffix_append x (c :: y))

/-- Behind a port a wildcard sees nothing but the digits of the port. -/
lemma suffix_receivedHost_port {domain : ByteString} (hd : colon ∉ domain) (name : ByteString)
    (n : ℕ) : domain <:+ receivedHost name (some n) ↔ domain <:+ decimal n :=
  suffix_append_cons_iff hd name (decimal n)

/-- A received host that is a plain name is the name in question. -/
lemma eq_of_receivedHost_eq {name name' pattern : ByteString} {port : Option ℕ}
    (hcase : toLower name' = name) (hpattern : PlainName pattern)
    (h : receivedHost name' port = pattern) : pattern = name := by
  obtain ⟨hlower, hcolon⟩ := hpattern
  cases port with
  | none =>
      have hname : name' = pattern := by simpa [receivedHost] using h
      rw [← hcase, hname, hlower]
  | some n =>
      rw [← h] at hcolon
      exact absurd (by simp [receivedHost]) hcolon

/-- **Which patterns read the name and a received form of it alike**: the asterisk, a wildcard whose
domain ends both or neither, and any other name than this one, unless it was received as it is. -/
theorem readsAlike_iff {name name' pattern : ByteString} {port : Option ℕ}
    (hcase : toLower name' = name) (hpattern : PlainName pattern) :
    ReadsAlike (receivedHost name' port) name pattern ↔
      pattern = ascii "*" ∨
      (∃ domain, pattern = wildcard domain ∧
        (domain <:+ receivedHost name' port ↔ domain <:+ name)) ∨
      ((∀ domain, pattern ≠ wildcard domain) ∧
        (pattern = name → receivedHost name' port = name)) := by
  rw [ReadsAlike, Bool.eq_iff_iff]
  by_cases hstar : pattern = ascii "*"
  · simp [hstar, hostMatches_star]
  by_cases hwild : ∃ domain, pattern = wildcard domain
  · obtain ⟨domain, rfl⟩ := hwild
    rw [hostMatches_wildcard, hostMatches_wildcard]
    constructor
    · intro h
      exact Or.inr (Or.inl ⟨domain, rfl, h⟩)
    · rintro (h | ⟨domain', h, hiff⟩ | ⟨hnot, -⟩)
      · exact absurd h hstar
      · rwa [List.append_cancel_left h]
      · exact absurd rfl (hnot domain)
  · have hexact : ∀ domain, pattern ≠ wildcard domain := fun domain h => hwild ⟨domain, h⟩
    rw [hostMatches_exact hstar hexact, hostMatches_exact hstar hexact]
    simp only [hstar, false_or]
    constructor
    · intro h
      refine Or.inr ⟨hexact, ?_⟩
      intro hname
      rw [h.mpr hname.symm, hname]
    · rintro (⟨domain, h, -⟩ | ⟨-, h⟩)
      · exact absurd h (hexact domain)
      · constructor
        · intro hreceived
          exact (eq_of_receivedHost_eq hcase hpattern hreceived).symm
        · intro hname
          rw [h hname.symm, hname]

/-! ## What this means for `match` -/

/-- `match` sees the host through the patterns of the candidates. -/
lemma candidateLoop_congr {host host' : ByteString} (clientIp : ByteString) :
    ∀ (rules : List RouteRule) (reason : FailReason),
      (∀ r ∈ rules, ReadsAlike host host' r.hostPattern) →
      candidateLoop host clientIp reason rules = candidateLoop host' clientIp reason rules
  | [], _, _ => rfl
  | r :: rules, reason, h => by
      have hr : hostMatches host r.hostPattern = hostMatches host' r.hostPattern :=
        h r List.mem_cons_self
      have ih := fun reason' => candidateLoop_congr clientIp rules reason'
        fun x hx => h x (List.mem_cons_of_mem r hx)
      rw [candidateLoop, candidateLoop, hr, ih, ih]

lemma matchRoute_congr {host host' path : ByteString} (clientIp : ByteString) (S : PrioritySort)
    {steps : List BuildStep}
    (h : ∀ r, IsCandidate (addedRules steps) path r → ReadsAlike host host' r.hostPattern) :
    (RouteSnapshot.build S (steps ++ [.finalize])).matchRoute host path clientIp
      = (RouteSnapshot.build S (steps ++ [.finalize])).matchRoute host' path clientIp := by
  refine candidateLoop_congr clientIp _ .kNone ?_
  intro r hr
  rw [findLongestPrefixRules_eq, (S.perm _).mem_iff, mem_scanCandidates] at hr
  exact h r hr

/-- One rule for everyone matches the hosts that its pattern accepts. -/
lemma matchRoute_single (S : PrioritySort) {rule : RouteRule} (hopen : rule.allowedClientCidrs = [])
    (host clientIp : ByteString) :
    ((RouteSnapshot.build S ([.addRule rule] ++ [.finalize])).matchRoute host rule.pathPrefix
      clientIp).matched = hostMatches host rule.hostPattern := by
  have hcand : ∀ r, IsCandidate [rule] rule.pathPrefix r ↔ r = rule := by
    intro r
    rw [isCandidate_iff]
    constructor
    · rintro ⟨hmem, -⟩
      exact List.mem_singleton.mp hmem
    · rintro rfl
      exact ⟨List.mem_singleton_self r, fun h => h, List.prefix_rfl,
        fun r' hr' _ => by rw [List.mem_singleton.mp hr']⟩
  have hadded : addedRules [.addRule rule] = [rule] := rfl
  rw [matchRoute_matched, Bool.eq_iff_iff, selectedRule_isSome_iff, hadded]
  constructor
  · rintro ⟨r, hr, helig⟩
    rw [hcand] at hr
    exact hr ▸ helig.1
  · intro h
    exact ⟨rule, (hcand rule).mpr rfl, h, Or.inl hopen⟩

/-! ## What the codec does with it -/

/-- The host of an accepted request is the last `Host` value of its head, as it was received, if no
line in front of another has an empty value. -/
lemma host_of_lines {L : Llhttp} {c : Http1Codec L} {buffer : ByteString} {ctx : RequestContext}
    {urls bodies : List ByteString} {ls : List HeaderLine}
    (hcalls : (L.execute c.parser buffer).callbacks = headCallbacks urls ls ++ bodyCallbacks bodies)
    (hsuccess : (c.parse buffer ctx).1 = .kSuccess) (hvalues : ∀ l ∈ ls.dropLast, l.value ≠ []) :
    (c.parse buffer ctx).2.1.host
      = (lastValue (ascii "host") ((ls.map HeaderLine.pair).map lower)).getD [] := by
  obtain ⟨hrun, herrno⟩ := Http1Codec.of_parse_success hsuccess
  have htail := isTail_of_mem_bodyCallbacks bodies
  have hglue : glue (ls.map HeaderLine.pair) = ls.map HeaderLine.pair := by
    refine glue_eq_self ?_
    intro p hp
    rw [← List.map_dropLast] at hp
    obtain ⟨l, hl, rfl⟩ := List.mem_map.mp hp
    exact hvalues l hl
  have hhead : ((c.impl.beginParse ctx).runCallbacks (headCallbacks urls ls)).1 = none := by
    rw [Http1Codec.callbackRun, hcalls, runCallbacks_head_tail htail] at hrun
    exact hrun
  have hctx := contextAfter_head_tail htail hhead
  rw [(savedHeaders_head urls ls).1, hglue] at hctx
  rw [(Http1Codec.parse_of_ok hrun herrno).2, Http1Codec.received, hcalls, hctx]
  show (ctx.cleared.storeAll ((ls.map HeaderLine.pair).map lower)).host = _
  rw [RequestContext.storeAll_host]
  rfl

/-- **The route follows the host as it was received.**  `ctx.host` is the value of the header, port
and letter case included.  The route is the one of the name itself if every candidate reads the two
alike, and no other pattern can be spared: a rule for everyone whose pattern does not, tells them
apart.  The patterns that do are the asterisk, a wildcard whose domain ends both or neither (in
front of a port that means: only as digits of the port), and a name other than this one, unless it
was received as it is. -/
theorem route_of_received_host (name name' : ByteString) (port : Option ℕ)
    (hcase : toLower name' = name) :
    (∀ (L : Llhttp) (c : Http1Codec L) (buffer : ByteString) (ctx : RequestContext)
      (urls bodies : List ByteString) (ls : List HeaderLine),
      (L.execute c.parser buffer).callbacks = headCallbacks urls ls ++ bodyCallbacks bodies →
      (c.parse buffer ctx).1 = .kSuccess → (∀ l ∈ ls.dropLast, l.value ≠ []) →
      lastValue (ascii "host") ((ls.map HeaderLine.pair).map lower)
        = some (receivedHost name' port) →
      (c.parse buffer ctx).2.1.host = receivedHost name' port) ∧
    (∀ (S : PrioritySort) (steps : List BuildStep) (path clientIp : ByteString),
      (∀ r, IsCandidate (addedRules steps) path r →
        ReadsAlike (receivedHost name' port) name r.hostPattern) →
      (RouteSnapshot.build S (steps ++ [.finalize])).matchRoute (receivedHost name' port) path
          clientIp
        = (RouteSnapshot.build S (steps ++ [.finalize])).matchRoute name path clientIp) ∧
    (∀ (S : PrioritySort) (rule : RouteRule) (clientIp : ByteString),
      rule.allowedClientCidrs = [] → ¬ReadsAlike (receivedHost name' port) name rule.hostPattern →
      (RouteSnapshot.build S ([.addRule rule] ++ [.finalize])).matchRoute
          (receivedHost name' port) rule.pathPrefix clientIp
        ≠ (RouteSnapshot.build S ([.addRule rule] ++ [.finalize])).matchRoute name rule.pathPrefix
          clientIp) ∧
    (∀ pattern, PlainName pattern →
      (ReadsAlike (receivedHost name' port) name pattern ↔
        pattern = ascii "*" ∨
        (∃ domain, pattern = wildcard domain ∧
          (domain <:+ receivedHost name' port ↔ domain <:+ name)) ∨
        ((∀ domain, pattern ≠ wildcard domain) ∧
          (pattern = name → receivedHost name' port = name)))) ∧
    (∀ n domain, PlainName (wildcard domain) →
      (domain <:+ receivedHost name' (some n) ↔ domain <:+ decimal n)) := by
  refine ⟨?_, ?_, ?_, ?_, ?_⟩
  · intro L c buffer ctx urls bodies ls hcalls hsuccess hvalues hhost
    rw [host_of_lines hcalls hsuccess hvalues, hhost]
    rfl
  · intro S steps path clientIp h
    exact matchRoute_congr clientIp S h
  · intro S rule clientIp hopen hdiffer heq
    refine hdiffer ?_
    have hmatched := congrArg RouteMatch.matched heq
    rwa [matchRoute_single S hopen, matchRoute_single S hopen] at hmatched
  · intro pattern hpattern
    exact readsAlike_iff hcase hpattern
  · intro n domain hdomain
    refine suffix_receivedHost_port ?_ name' n
    exact fun h => hdomain.2 (List.mem_append_right _ h)

def anyHostRule : RouteRule where
  hostPattern := ascii "*"
  pathPrefix := ascii "/api"

/-- A rule for all hosts serves this one with its port and in any case. -/
theorem route_of_received_host_any :
    (RouteSnapshot.build (.insertion fun _ => false)
        ([.addRule anyHostRule] ++ [.finalize])).matchRoute
        (receivedHost (ascii "Example.COM") (some 8080)) (ascii "/api/x") (ascii "127.0.0.1")
      = (RouteSnapshot.build (.insertion fun _ => false)
          ([.addRule anyHostRule] ++ [.finalize])).matchRoute
        (ascii "example.com") (ascii "/api/x") (ascii "127.0.0.1") :=
  (route_of_received_host (ascii "example.com") (ascii "Example.COM") (some 8080) (by decide)).2.1
    (.insertion fun _ => false) [.addRule anyHostRule] (ascii "/api/x") (ascii "127.0.0.1")
    fun r hr => by rw [List.mem_singleton.mp hr.1]; rfl

def exampleRule : RouteRule where
  hostPattern := ascii "example.com"
  pathPrefix := ascii "/api"

/-- A rule for the host itself does neither. -/
theorem received_form_decides_route :
    PlainName exampleRule.hostPattern ∧ PlainName (ascii "example.com") ∧
      toLower (ascii "Example.COM") = ascii "example.com" ∧
      ((finalized (.insertion fun _ => false) [exampleRule]).matchRoute (ascii "example.com")
        (ascii "/api/x") (ascii "127.0.0.1")).matched = true ∧
      ((finalized (.insertion fun _ => false) [exampleRule]).matchRoute
        (receivedHost (ascii "example.com") (some 8080)) (ascii "/api/x")
        (ascii "127.0.0.1")).matched = false ∧
      ((finalized (.insertion fun _ => false) [exampleRule]).matchRoute (ascii "Example.COM")
        (ascii "/api/x") (ascii "127.0.0.1")).matched = false := by
  refine ⟨?_, ?_, ?_, ?_, ?_, ?_⟩ <;> decide +kernel

end Netp2.Runtime
