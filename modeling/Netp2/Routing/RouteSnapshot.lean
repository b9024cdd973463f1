import Mathlib.Data.List.Sort
import Netp2.Library.PrefixTrie
import Netp2.Routing.IpCidr

/-!
# The route snapshot

A snapshot is built by `add_rule` calls, compiled by `finalize` into a trie over path segments, and
then only read.  `match` looks the path up in the trie, which yields the rules at one node in
priority order, and takes the first of them that accepts the host and the client address.

The trie is the generic one of `Netp2/Library/PrefixTrie.lean`, with path segments as keys and the
rules themselves where the source keeps pointers into `rules_`.  (The pointers are valid exactly as
long as no rule is added after `finalize`; a snapshot that is still being built is not read.)

`std::sort` with the priority comparison leaves the order of equal priorities open, so it is a
parameter here, `PrioritySort`: some function that permutes its argument into priority order.
`PrioritySort.insertion` builds one for every way of breaking ties.
-/

namespace Netp2.Routing

open ByteString

/-! ## Rules and results -/

structure RouteTarget where
  clusterName : ByteString := []
  pathRewrite : ByteString := []
  deriving DecidableEq, Repr

structure RouteRule where
  hostPattern : ByteString := []
  pathPrefix : ByteString := []
  allowedClientCidrs : List ByteString := []
  target : RouteTarget := {}
  priority : ℤ := 0
  deriving DecidableEq, Repr

inductive FailReason where
  | kNone
  | kHostMismatch
  | kPathMismatch
  | kClientIpDenied
  deriving DecidableEq, Repr

structure RouteMatch where
  matched : Bool := false
  target : RouteTarget := {}
  matchedRuleId : ByteString := []
  failReason : FailReason := .kNone
  deriving DecidableEq, Repr

/-! ## Hosts and paths -/

def hostMatches (host pattern : ByteString) : Bool :=
  if pattern = ascii "*" then true
  else if (ascii "*.").isPrefixOf pattern then (pattern.drop 2).isSuffixOf host
  else host == pattern

/-- The loop of `split_path` on the part of the path that is left.  Every round consumes a byte, so
the number of bytes is fuel enough (`splitLoop_eq`). -/
def splitLoop : ℕ → ByteString → List ByteString
  | _, [] => []
  | 0, _ :: _ => []
  | fuel + 1, b :: rest =>
      if b = slash then splitLoop fuel rest
      else
        let segment := upTo (find slash (b :: rest)) (b :: rest)
        segment :: splitLoop fuel ((b :: rest).drop segment.length)

def splitPath (path : ByteString) : List ByteString :=
  match path with
  | [] => []
  | b :: _ => if b ≠ slash then [] else splitLoop path.length path

/-! ## Building -/

/-- What is known of `std::sort` on the rules of a node: it permutes them into priority order. -/
structure PrioritySort where
  sort : List RouteRule → List RouteRule
  perm : ∀ rules, (sort rules).Perm rules
  sorted : ∀ rules, (sort rules).Pairwise fun a b => a.priority ≤ b.priority

namespace PrioritySort

/-- Priority order, with the rules that `first` picks in front among equals. -/
def Before (first : RouteRule → Bool) (a b : RouteRule) : Prop :=
  a.priority < b.priority ∨ (a.priority = b.priority ∧ (first b = true → first a = true))

instance (first : RouteRule → Bool) : DecidableRel (Before first) :=
  fun _ _ => inferInstanceAs (Decidable (_ ∨ _))

instance (first : RouteRule → Bool) : Std.Total (Before first) where
  total a b := by
    simp only [Before]
    rcases lt_trichotomy a.priority b.priority with h | h | h
    · exact Or.inl (Or.inl h)
    · cases ha : first a <;> simp [h]
    · exact Or.inr (Or.inl h)

instance (first : RouteRule → Bool) : IsTrans RouteRule (Before first) where
  trans a b c := by
    rintro (hab | ⟨hab, hab'⟩) (hbc | ⟨hbc, hbc'⟩)
    · exact Or.inl (hab.trans hbc)
    · exact Or.inl (hbc ▸ hab)
    · exact Or.inl (hab ▸ hbc)
    · exact Or.inr ⟨hab.trans hbc, fun h => hab' (hbc' h)⟩

/-- One sorting function for every way of breaking ties. -/
def insertion (first : RouteRule → Bool) : PrioritySort where
  sort := List.insertionSort (Before first)
  perm := List.perm_insertionSort _
  sorted rules := (List.pairwise_insertionSort (Before first) rules).imp fun h => by
    rcases h with h | ⟨h, _⟩
    · exact h.le
    · exact h.le

end PrioritySort

abbrev TrieNode := PrefixTrie ByteString RouteRule

structure RouteSnapshot where
  rules : List RouteRule := []
  root : Option TrieNode := none

/-- One round of the loop of `finalize`. -/
def insertRule (root : TrieNode) (rule : RouteRule) : TrieNode :=
  if rule.pathPrefix = ascii "/" then root.insert rule []
  else root.insert rule (splitPath rule.pathPrefix)

def buildTrie (rules : List RouteRule) : TrieNode :=
  rules.foldl insertRule PrefixTrie.empty

def sortRules (S : PrioritySort) (root : TrieNode) : TrieNode :=
  root.mapValues S.sort

/-- A step of the building phase. -/
inductive BuildStep where
  | addRule (rule : RouteRule)
  | finalize

namespace RouteSnapshot

def addRule (s : RouteSnapshot) (rule : RouteRule) : RouteSnapshot :=
  { s with rules := s.rules ++ [rule] }

def finalize (S : PrioritySort) (s : RouteSnapshot) : RouteSnapshot :=
  { s with root := some (sortRules S (buildTrie s.rules)) }

def step (S : PrioritySort) (s : RouteSnapshot) : BuildStep → RouteSnapshot
  | .addRule rule => s.addRule rule
  | .finalize => s.finalize S

/-- A sequence of calls on a new snapshot. -/
def build (S : PrioritySort) (steps : List BuildStep) : RouteSnapshot :=
  steps.foldl (step S) {}

/-! ## Reading -/

def findLongestPrefixRules (s : RouteSnapshot) (path : ByteString) : List RouteRule :=
  match s.root with
  | none => []
  | some root =>
      let segments := splitPath path
      if segments.isEmpty then root.values else root.deepest segments

end RouteSnapshot

/-- The inner loop of `match`: the rule has no restriction, or one of its entries accepts. -/
def clientAllowed (clientIp : ByteString) (rule : RouteRule) : Bool :=
  rule.allowedClientCidrs.isEmpty || rule.allowedClientCidrs.any fun cidr => ipInCidr clientIp cidr

/-- The result for a rule that passed both checks. -/
def matchedBy (rule : RouteRule) : RouteMatch where
  matched := true
  target := rule.target
  matchedRuleId := rule.hostPattern ++ rule.pathPrefix
  failReason := .kNone

/-- The loop of `match` over the candidates, with the fail reason so far. -/
def candidateLoop (host clientIp : ByteString) : FailReason → List RouteRule → RouteMatch
  | reason, [] => { failReason := if reason = .kNone then .kPathMismatch else reason }
  | _, rule :: rest =>
      if !hostMatches host rule.hostPattern then candidateLoop host clientIp .kHostMismatch rest
      else if !clientAllowed clientIp rule then candidateLoop host clientIp .kClientIpDenied rest
      else matchedBy rule

def RouteSnapshot.matchRoute (s : RouteSnapshot) (host path clientIp : ByteString) : RouteMatch :=
  candidateLoop host clientIp .kNone (s.findLongestPrefixRules path)

/-- Add the rules in their order and finalize. -/
def finalized (S : PrioritySort) (rules : List RouteRule) : RouteSnapshot :=
  RouteSnapshot.build S (rules.map .addRule ++ [.finalize])

/-! ## What the building phase leaves -/

/-- The rules that a sequence of calls adds, in order. -/
def addedRules (steps : List BuildStep) : List RouteRule :=
  steps.filterMap fun
    | .addRule rule => some rule
    | .finalize => none

@[simp] lemma addedRules_map_addRule (rules : List RouteRule) :
    addedRules (rules.map .addRule) = rules := by
  induction rules with
  | nil => rfl
  | cons r rules ih => simp [addedRules]

lemma foldl_step_rules (S : PrioritySort) (steps : List BuildStep) : ∀ s : RouteSnapshot,
    (steps.foldl (RouteSnapshot.step S) s).rules = s.rules ++ addedRules steps := by
  induction steps with
  | nil => intro s; simp [addedRules]
  | cons step steps ih =>
      intro s
      rw [List.foldl_cons, ih]
      cases step with
      | addRule rule => simp [RouteSnapshot.step, RouteSnapshot.addRule, addedRules]
      | finalize => simp [RouteSnapshot.step, RouteSnapshot.finalize, addedRules]

/-- **The last `finalize` compiles everything that was added**, whatever was compiled before. -/
theorem build_root (S : PrioritySort) (steps : List BuildStep) :
    (RouteSnapshot.build S (steps ++ [.finalize])).root
      = some (sortRules S (buildTrie (addedRules steps))) := by
  simp only [RouteSnapshot.build, List.foldl_append, List.foldl_cons, List.foldl_nil,
    RouteSnapshot.step, RouteSnapshot.finalize, foldl_step_rules, List.nil_append]

abbrev RouteRule.segments (rule : RouteRule) : List ByteString :=
  splitPath rule.pathPrefix

lemma splitPath_root : splitPath (ascii "/") = [] := by decide

/-- The special case for `/` is no special case: that path has no segments either. -/
lemma insertRule_eq (root : TrieNode) (rule : RouteRule) :
    insertRule root rule = root.insert rule rule.segments := by
  rw [insertRule]
  split_ifs with h
  · rw [RouteRule.segments, h, splitPath_root]
  · rfl

/-- The rules with the given path segments, in the order in which they were added. -/
def rulesAt (rules : List RouteRule) (p : List ByteString) : List RouteRule :=
  rules.filter fun r => r.segments = p

lemma valuesAt_foldl_insertRule (p : List ByteString) (rules : List RouteRule) :
    ∀ t : TrieNode, (rules.foldl insertRule t).valuesAt p = t.valuesAt p ++ rulesAt rules p := by
  induction rules with
  | nil => intro t; simp [rulesAt]
  | cons r rules ih =>
      intro t
      rw [List.foldl_cons, ih, insertRule_eq, PrefixTrie.valuesAt_insert]
      by_cases h : p = r.segments
      · simp [rulesAt, h]
      · simp [rulesAt, h, Ne.symm h]

lemma valuesAt_buildTrie (rules : List RouteRule) (p : List ByteString) :
    (buildTrie rules).valuesAt p = rulesAt rules p := by
  rw [buildTrie, valuesAt_foldl_insertRule, PrefixTrie.valuesAt_empty, List.nil_append]

lemma PrioritySort.sort_nil (S : PrioritySort) : S.sort [] = [] :=
  List.perm_nil.mp (S.perm [])

/-- **The compiled trie is an index of the rule list**: the node of a path holds the rules with
these segments, sorted. -/
theorem valuesAt_sortRules (S : PrioritySort) (rules : List RouteRule) (p : List ByteString) :
    (sortRules S (buildTrie rules)).valuesAt p = S.sort (rulesAt rules p) := by
  rw [sortRules, PrefixTrie.valuesAt_mapValues _ S.sort_nil, valuesAt_buildTrie]

end Netp2.Routing
