import Netp2.Library.GrowingVector
import Netp2.Routing.RuleScan

/-!
# The trie holds pointers

`finalize` puts pointers into `rules_` at the nodes of the trie, where `RouteSnapshot` has the rules
themselves.  `add_rule` appends to `rules_`, and may move all rules to another storage; the pointers
stay what they are until the next `finalize`.

`PointerSnapshot` is the snapshot with pointers.  `match` fails where it follows one that dangles.
-/

namespace Netp2.Routing

open ByteString

/-! ## Sorting through pointers -/

/-- What is known of `std::sort` with a comparison by keys: in which order it leaves the places of a
list depends on the keys alone. -/
structure KeySort where
  order : List ℤ → List ℕ
  perm : ∀ keys, (order keys).Perm (List.range keys.length)
  sorted : ∀ keys, ((order keys).filterMap (keys[·]?)).Pairwise (· ≤ ·)

namespace KeySort

variable {α β : Type} (K : KeySort)

def sort (key : α → ℤ) (xs : List α) : List α :=
  (K.order (xs.map key)).filterMap (xs[·]?)

lemma map_filterMap_getElem? (f : α → β) (xs : List α) (is : List ℕ) :
    (is.filterMap (xs[·]?)).map f = is.filterMap ((xs.map f)[·]?) := by
  rw [List.map_filterMap]
  refine List.filterMap_congr ?_
  intro i _
  exact List.getElem?_map.symm

/-- Pointers are sorted as what they point to. -/
lemma map_sort {key : α → ℤ} {key' : β → ℤ} {f : α → β} {xs : List α}
    (h : ∀ x ∈ xs, key x = key' (f x)) : (K.sort key xs).map f = K.sort key' (xs.map f) := by
  rw [sort, sort, map_filterMap_getElem?, List.map_map]
  congr 2
  exact List.map_congr_left h

lemma perm_sort (key : α → ℤ) (xs : List α) : (K.sort key xs).Perm xs := by
  have hplaces := (K.perm (xs.map key)).filterMap (xs[·]?)
  rw [List.length_map] at hplaces
  have hall : (List.range xs.length).map (xs[·]?) = xs.map some :=
    List.ext_getElem (by simp) (by simp)
  have hid : (List.range xs.length).filterMap (xs[·]?) = xs := by
    simpa [List.filterMap_map, Function.comp_def] using congrArg (List.filterMap id) hall
  rwa [hid] at hplaces

lemma sorted_sort (key : α → ℤ) (xs : List α) :
    (K.sort key xs).Pairwise fun a b => key a ≤ key b := by
  have hkeys := K.sorted (xs.map key)
  rw [← map_filterMap_getElem?, List.pairwise_map] at hkeys
  exact hkeys

/-- Places are compared by their keys. -/
def Before (keys : List ℤ) (i j : ℕ) : Prop :=
  keys.getD i 0 ≤ keys.getD j 0

instance (keys : List ℤ) : DecidableRel (Before keys) :=
  fun i j => inferInstanceAs (Decidable (keys.getD i 0 ≤ keys.getD j 0))

instance (keys : List ℤ) : Std.Total (Before keys) :=
  ⟨fun i j => le_total (keys.getD i 0) (keys.getD j 0)⟩

instance (keys : List ℤ) : IsTrans ℕ (Before keys) :=
  ⟨fun _ _ _ => le_trans⟩

/-- One that leaves equal keys in their order. -/
def insertion : KeySort where
  order keys := (List.range keys.length).insertionSort (Before keys)
  perm keys := List.perm_insertionSort _ _
  sorted keys := by
    refine List.pairwise_filterMap.mpr ?_
    refine (List.pairwise_insertionSort (Before keys) _).imp ?_
    intro i j hij a ha b hb
    rwa [Before, List.getD_eq_getElem?_getD, List.getD_eq_getElem?_getD, ha, hb] at hij

/-- The same sort, on the rules themselves. -/
def toPrioritySort : PrioritySort where
  sort := K.sort RouteRule.priority
  perm := K.perm_sort RouteRule.priority
  sorted := K.sorted_sort RouteRule.priority

end KeySort

/-! ## The snapshot with pointers -/

structure PointerSnapshot where
  rules : GrowingVector RouteRule := {}
  root : Option (PrefixTrie ByteString Pointer) := none

/-- One round of the loop of `finalize`, for a rule and its address. -/
def insertPointer (root : PrefixTrie ByteString Pointer) (entry : Pointer × RouteRule) :
    PrefixTrie ByteString Pointer :=
  if entry.2.pathPrefix = ascii "/" then root.insert entry.1 []
  else root.insert entry.1 (splitPath entry.2.pathPrefix)

/-- The rules of `rules_` with their addresses. -/
def addressed (rules : GrowingVector RouteRule) : List (Pointer × RouteRule) :=
  rules.elements.zipIdx.map fun entry => (rules.pointer entry.2, entry.1)

/-- The priority that the comparison of `sort_rules` finds behind a pointer. -/
def priorityAt (rules : GrowingVector RouteRule) (p : Pointer) : ℤ :=
  ((rules.deref p).map RouteRule.priority).getD 0

namespace PointerSnapshot

variable (G : Growth) (K : KeySort)

def addRule (s : PointerSnapshot) (rule : RouteRule) : PointerSnapshot :=
  { s with rules := s.rules.pushBack G rule }

def finalize (s : PointerSnapshot) : PointerSnapshot :=
  let root := (addressed s.rules).foldl insertPointer PrefixTrie.empty
  { s with root := some (root.mapValues (K.sort (priorityAt s.rules))) }

def step (s : PointerSnapshot) : BuildStep → PointerSnapshot
  | .addRule rule => s.addRule G rule
  | .finalize => s.finalize K

def build (steps : List BuildStep) : PointerSnapshot :=
  steps.foldl (step G K) {}

def ruleCount (s : PointerSnapshot) : ℕ :=
  s.rules.elements.length

def findLongestPrefixRules (s : PointerSnapshot) (path : ByteString) : List Pointer :=
  match s.root with
  | none => []
  | some root =>
      let segments := splitPath path
      if segments.isEmpty then root.values else root.deepest segments

/-- The loop of `match` over the candidates; it fails at a pointer that dangles. -/
def candidateLoop (rules : GrowingVector RouteRule) (host clientIp : ByteString) :
    FailReason → List Pointer → Option RouteMatch
  | reason, [] => some { failReason := if reason = .kNone then .kPathMismatch else reason }
  | _, p :: rest =>
      (rules.deref p).bind fun rule =>
        if !hostMatches host rule.hostPattern then
          candidateLoop rules host clientIp .kHostMismatch rest
        else if !clientAllowed clientIp rule then
          candidateLoop rules host clientIp .kClientIpDenied rest
        else
          some (matchedBy rule)

def matchRoute (s : PointerSnapshot) (host path clientIp : ByteString) : Option RouteMatch :=
  candidateLoop s.rules host clientIp .kNone (s.findLongestPrefixRules path)

end PointerSnapshot

/-! ## The candidates -/

namespace PointerSnapshot

variable {rules : GrowingVector RouteRule} {host clientIp : ByteString}

/-- Where every pointer stands for a rule, the loop is that over these rules. -/
lemma candidateLoop_of_deref {f : Pointer → RouteRule} {ps : List Pointer}
    (h : ∀ p ∈ ps, rules.deref p = some (f p)) (reason : FailReason) :
    candidateLoop rules host clientIp reason ps
      = some (Routing.candidateLoop host clientIp reason (ps.map f)) := by
  induction ps generalizing reason with
  | nil => rfl
  | cons p ps ih =>
      have hrest : ∀ q ∈ ps, rules.deref q = some (f q) :=
        fun q hq => h q (List.mem_cons_of_mem p hq)
      simp only [candidateLoop, List.map_cons, Routing.candidateLoop, h p List.mem_cons_self,
        Option.bind_some, ih hrest]
      split_ifs <;> rfl

/-- The loop looks at the first candidate at least. -/
lemma candidateLoop_of_dangling (host clientIp : ByteString) (reason : FailReason)
    {ps : List Pointer} (h : ∀ p ∈ ps, rules.deref p = none) :
    candidateLoop rules host clientIp reason ps = none ↔ ps ≠ [] := by
  cases ps with
  | nil => simp [candidateLoop]
  | cons p ps => simp [candidateLoop, h p List.mem_cons_self]

end PointerSnapshot

/-! ## What `finalize` leaves -/

section Compiled

variable {rules : GrowingVector RouteRule}

/-- The rule behind a pointer. -/
def pointee (rules : GrowingVector RouteRule) (p : Pointer) : RouteRule :=
  (rules.deref p).getD {}

lemma deref_of_mem_addressed {entry : Pointer × RouteRule} (h : entry ∈ addressed rules) :
    ∃ i < rules.elements.length,
      entry.1 = rules.pointer i ∧ rules.deref entry.1 = some entry.2 := by
  obtain ⟨⟨rule, i⟩, hmem, rfl⟩ := List.mem_map.mp h
  have hi : rules.elements[i]? = some rule := List.mk_mem_zipIdx_iff_getElem?.mp hmem
  refine ⟨i, (List.getElem?_eq_some_iff.mp hi).1, rfl, ?_⟩
  rw [rules.deref_pointer, hi]

lemma map_snd_addressed (rules : GrowingVector RouteRule) :
    (addressed rules).map Prod.snd = rules.elements := by
  rw [addressed, List.map_map]
  exact List.zipIdx_map_fst 0 rules.elements

/-- The pointers to the rules with the given segments. -/
def pointersAt (rules : GrowingVector RouteRule) (q : List ByteString) : List Pointer :=
  ((addressed rules).filter fun entry => entry.2.segments = q).map Prod.fst

lemma valuesAt_insertPointer (entries : List (Pointer × RouteRule)) (q : List ByteString) :
    ∀ t : PrefixTrie ByteString Pointer, (entries.foldl insertPointer t).valuesAt q
      = t.valuesAt q ++ (entries.filter fun entry => entry.2.segments = q).map Prod.fst := by
  induction entries with
  | nil => intro t; simp
  | cons entry entries ih =>
      intro t
      have hinsert : insertPointer t entry = t.insert entry.1 entry.2.segments := by
        rw [insertPointer]
        split_ifs with h
        · rw [RouteRule.segments, h, splitPath_root]
        · rfl
      rw [List.foldl_cons, ih, hinsert, PrefixTrie.valuesAt_insert]
      by_cases h : q = entry.2.segments
      · simp [h]
      · simp [h, Ne.symm h]

lemma map_pointee_pointersAt (q : List ByteString) :
    (pointersAt rules q).map (pointee rules) = rulesAt rules.elements q := by
  rw [pointersAt, List.map_map, rulesAt]
  have hrules : ∀ entry ∈ (addressed rules).filter fun entry => entry.2.segments = q,
      (pointee rules ∘ Prod.fst) entry = entry.2 := by
    intro entry hentry
    obtain ⟨i, -, -, hderef⟩ := deref_of_mem_addressed (List.mem_filter.mp hentry).1
    simp [pointee, hderef]
  rw [List.map_congr_left hrules]
  conv_rhs => rw [← map_snd_addressed rules, List.filter_map]
  rfl

lemma priorityAt_eq (p : Pointer) : priorityAt rules p = (pointee rules p).priority := by
  rw [priorityAt, pointee]
  cases rules.deref p <;> rfl

end Compiled

namespace PointerSnapshot

variable {K : KeySort} {s : PointerSnapshot} {t : RouteSnapshot}

/-- **`finalize` compiles the same trie**, with a pointer to each rule in place of the rule. -/
lemma findLongestPrefixRules_finalize (hrules : t.rules = s.rules.elements) (path : ByteString) :
    (t.finalize K.toPrioritySort).findLongestPrefixRules path
        = ((s.finalize K).findLongestPrefixRules path).map (pointee s.rules) ∧
      ∀ p ∈ (s.finalize K).findLongestPrefixRules path,
        ∃ i < s.rules.elements.length, p = s.rules.pointer i := by
  let pointers : PrefixTrie ByteString Pointer :=
    ((addressed s.rules).foldl insertPointer PrefixTrie.empty).mapValues
      (K.sort (priorityAt s.rules))
  have hnil : K.sort (priorityAt s.rules) [] = [] :=
    List.perm_nil.mp (K.perm_sort (priorityAt s.rules) [])
  have hvalues : ∀ q, pointers.valuesAt q
      = K.sort (priorityAt s.rules) (pointersAt s.rules q) := by
    intro q
    rw [PrefixTrie.valuesAt_mapValues _ hnil, valuesAt_insertPointer, PrefixTrie.valuesAt_empty]
    rfl
  have hsame : ∀ q, (sortRules K.toPrioritySort (buildTrie t.rules)).valuesAt q
      = (pointers.valuesAt q).map (pointee s.rules) := by
    intro q
    rw [valuesAt_sortRules, hrules, hvalues, K.map_sort fun p _ => priorityAt_eq p,
      map_pointee_pointersAt]
    rfl
  have hmem : ∀ q, ∀ p ∈ pointers.valuesAt q,
      ∃ i < s.rules.elements.length, p = s.rules.pointer i := by
    intro q p hp
    rw [hvalues, (K.perm_sort _ _).mem_iff] at hp
    obtain ⟨entry, hentry, rfl⟩ := List.mem_map.mp hp
    obtain ⟨i, hi, hpointer, -⟩ := deref_of_mem_addressed (List.mem_filter.mp hentry).1
    exact ⟨i, hi, hpointer⟩
  simp only [RouteSnapshot.findLongestPrefixRules, RouteSnapshot.finalize, findLongestPrefixRules,
    finalize]
  split_ifs
  · have hroot := hsame []
    rw [PrefixTrie.valuesAt_nil, PrefixTrie.valuesAt_nil] at hroot
    exact ⟨hroot, by simpa using hmem []⟩
  · refine ⟨PrefixTrie.deepest_map hsame _, ?_⟩
    intro p hp
    obtain ⟨q, hq⟩ := PrefixTrie.mem_deepest hp
    exact hmem q p hq

variable (G : Growth)

lemma elements_foldl_step (steps : List BuildStep) : ∀ s : PointerSnapshot,
    (steps.foldl (step G K) s).rules.elements = s.rules.elements ++ addedRules steps := by
  induction steps with
  | nil => intro s; simp [addedRules]
  | cons b steps ih =>
      intro s
      rw [List.foldl_cons, ih]
      cases b with
      | addRule rule => simp [step, addRule, addedRules]
      | finalize => simp [step, finalize, addedRules]

/-- **The candidates after rules were added.**  The loop follows a pointer that dangles if the rules
have outgrown their storage and it has a candidate; otherwise it has the rules themselves. -/
lemma candidateLoop_pushAll (rules : GrowingVector RouteRule) (added : List RouteRule)
    {ps : List Pointer} (hps : ∀ p ∈ ps, ∃ i < rules.elements.length, p = rules.pointer i)
    (host clientIp : ByteString) :
    (candidateLoop (rules.pushAll G added) host clientIp .kNone ps = none ↔
      rules.capacity < rules.elements.length + added.length ∧ ps ≠ []) ∧
    ∀ r, candidateLoop (rules.pushAll G added) host clientIp .kNone ps = some r →
      r = Routing.candidateLoop host clientIp .kNone (ps.map (pointee rules)) := by
  by_cases hfull : rules.capacity < rules.elements.length + added.length
  · have hdangling : ∀ p ∈ ps, (rules.pushAll G added).deref p = none := by
      intro p hp
      obtain ⟨i, -, rfl⟩ := hps p hp
      exact GrowingVector.deref_pushAll_of_lt i hfull
    have hnone := candidateLoop_of_dangling host clientIp .kNone hdangling
    refine ⟨hnone.trans (and_iff_right hfull).symm, ?_⟩
    intro r hr
    -- if anything is returned, there was no candidate
    have hempty : ps = [] := by
      by_contra hne
      exact Option.some_ne_none _ (hr.symm.trans (hnone.mpr hne))
    rw [hempty] at hr ⊢
    exact (Option.some.inj hr).symm
  · have hgood : ∀ p ∈ ps, (rules.pushAll G added).deref p = some (pointee rules p) := by
      intro p hp
      obtain ⟨i, hi, rfl⟩ := hps p hp
      rw [GrowingVector.deref_pushAll hi (Nat.not_lt.mp hfull), pointee, rules.deref_pointer,
        List.getElem?_eq_getElem hi]
      rfl
    rw [candidateLoop_of_deref hgood]
    refine ⟨?_, ?_⟩
    · simp [hfull]
    · intro r hr
      exact (Option.some.inj hr).symm

/-- Rules that are added later are in no trie. -/
lemma foldl_addRule (added : List RouteRule) : ∀ s : PointerSnapshot,
    (added.map .addRule).foldl (step G K) s = { s with rules := s.rules.pushAll G added } := by
  induction added with
  | nil => intro s; rfl
  | cons rule added ih =>
      intro s
      rw [List.map_cons, List.foldl_cons, ih]
      rfl

end PointerSnapshot

lemma foldl_addRule_root (S : PrioritySort) (added : List RouteRule) : ∀ t : RouteSnapshot,
    ((added.map .addRule).foldl (RouteSnapshot.step S) t).root = t.root := by
  induction added with
  | nil => intro t; rfl
  | cons rule added ih =>
      intro t
      rw [List.map_cons, List.foldl_cons, ih]
      rfl

/-- **When the pointers are good.**  After a `finalize` any number of rules may be added.  Then
`match` follows a pointer that dangles exactly if the rules have outgrown the storage that they were
in at the `finalize`, and there is a candidate at all; otherwise it returns what it returns with
rules in place of pointers. -/
theorem pointers_valid_iff (G : Growth) (K : KeySort) (steps : List BuildStep)
    (added : List RouteRule) (host path clientIp : ByteString) :
    let compiled := PointerSnapshot.build G K (steps ++ [.finalize])
    let s := PointerSnapshot.build G K (steps ++ .finalize :: added.map .addRule)
    let t := RouteSnapshot.build K.toPrioritySort (steps ++ .finalize :: added.map .addRule)
    (s.matchRoute host path clientIp = none ↔
      compiled.rules.capacity < s.ruleCount ∧ t.findLongestPrefixRules path ≠ []) ∧
    ∀ r, s.matchRoute host path clientIp = some r → r = t.matchRoute host path clientIp := by
  intro compiled s t
  let rules := (PointerSnapshot.build G K steps).rules
  have hs : s = { compiled with rules := rules.pushAll G added } := by
    simp only [s, compiled, rules, PointerSnapshot.build, List.foldl_append, List.foldl_cons,
      List.foldl_nil, PointerSnapshot.foldl_addRule]
    rfl
  have hcompiled : compiled = (PointerSnapshot.build G K steps).finalize K := by
    simp only [compiled, PointerSnapshot.build, List.foldl_append]
    rfl
  have hroot : t.root
      = ((RouteSnapshot.build K.toPrioritySort steps).finalize K.toPrioritySort).root := by
    simp only [t, RouteSnapshot.build, List.foldl_append, List.foldl_cons, foldl_addRule_root]
    rfl
  have hrules : (RouteSnapshot.build K.toPrioritySort steps).rules = rules.elements := by
    rw [RouteSnapshot.build, foldl_step_rules]
    exact (PointerSnapshot.elements_foldl_step G steps {}).symm
  obtain ⟨hfound, hpointers⟩ := PointerSnapshot.findLongestPrefixRules_finalize (K := K) hrules path
  have ht : t.findLongestPrefixRules path
      = (compiled.findLongestPrefixRules path).map (pointee rules) := by
    rw [RouteSnapshot.findLongestPrefixRules, hroot, hcompiled]
    exact hfound
  rw [← hcompiled] at hpointers
  have hcount : s.ruleCount = rules.elements.length + added.length := by
    rw [hs, PointerSnapshot.ruleCount, GrowingVector.elements_pushAll, List.length_append]
  have hmatch : s.matchRoute host path clientIp = PointerSnapshot.candidateLoop
      (rules.pushAll G added) host clientIp .kNone (compiled.findLongestPrefixRules path) := by
    rw [hs]
    rfl
  have hcapacity : compiled.rules.capacity = rules.capacity := by rw [hcompiled]; rfl
  rw [hmatch, hcount, hcapacity, RouteSnapshot.matchRoute, ht, ne_eq, List.map_eq_nil_iff]
  exact PointerSnapshot.candidateLoop_pushAll G rules added hpointers host clientIp

/-- One rule fills its storage, and another one moves it. -/
example :
    let G : Growth := ⟨fun n => 2 * n + 1, fun n => by omega⟩
    let rule : RouteRule := { hostPattern := ascii "*", pathPrefix := ascii "/a" }
    let s := PointerSnapshot.build G .insertion [.addRule rule, .finalize]
    s.matchRoute (ascii "h") (ascii "/a/b") [] = some (matchedBy rule) ∧
      (s.addRule G rule).matchRoute (ascii "h") (ascii "/a/b") [] = none ∧
      ((s.addRule G rule).finalize .insertion).matchRoute (ascii "h") (ascii "/a/b") []
        = some (matchedBy rule) := by
  decide +kernel

end Netp2.Routing
