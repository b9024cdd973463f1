import Netp2.Protocol.HeaderAssembly

/-!
# The limits on headers

Two handlers check the size of the headers and one their number.  When a check fails, the handler
notes which one in `parse_error_` and returns `-1`; `llhttp_execute` then returns a code of its own,
and `parse` looks at that code first.  So the note is never read: whatever limit is crossed, and
wherever, the answer is `kInternalError` (`parse_of_exceedsLimits`).
-/

namespace Netp2.Protocol

open ByteString LastWrite StepRun

/-! ## Crossing a limit -/

/-- The names of the headers saved during these callbacks. -/
def headerNames (cs : List Callback) : Finset ByteString :=
  ((savedHeaders ([], []) cs).map Prod.fst).toFinset

/-- The names and values together are larger than `max_header_size`. -/
def ExceedsHeaderSize (config : Http1CodecConfig) (cs : List Callback) : Prop :=
  config.maxHeaderSize < (cs.map Impl.headerBytes).sum

/-- At the end of a head, there are more than `max_headers` headers. -/
def ExceedsHeaderCount (config : Http1CodecConfig) (cs : List Callback) : Prop :=
  ∃ pre post, cs = pre ++ .headersComplete :: post ∧
    config.maxHeaders < (headerNames (pre ++ [.headersComplete])).card

def ExceedsLimits (config : Http1CodecConfig) (cs : List Callback) : Prop :=
  ExceedsHeaderSize config cs ∨ ExceedsHeaderCount config cs

/-- With one end of a head, the names before it count. -/
lemma exceedsHeaderCount_iff {front tail : List Callback} (hfront : .headersComplete ∉ front)
    (htail : .headersComplete ∉ tail) (config : Http1CodecConfig) :
    ExceedsHeaderCount config (front ++ .headersComplete :: tail) ↔
      config.maxHeaders < (headerNames (front ++ [.headersComplete])).card := by
  constructor
  · rintro ⟨pre, post, hcut, hlt⟩
    obtain ⟨rfl, -, -⟩ := (List.append_cons_inj_of_notMem hfront htail).mp hcut
    exact hlt
  · intro hlt
    exact ⟨front, tail, rfl, hlt⟩

/-- What is crossed stays crossed. -/
lemma ExceedsLimits.append {config : Http1CodecConfig} {cs : List Callback}
    (h : ExceedsLimits config cs) (ds : List Callback) : ExceedsLimits config (cs ++ ds) := by
  rcases h with hsize | ⟨pre, post, rfl, hcount⟩
  · refine Or.inl (hsize.trans_le ?_)
    rw [List.map_append, List.sum_append]
    exact Nat.le_add_right _ _
  · exact Or.inr ⟨pre, post ++ ds, by simp, hcount⟩

lemma RequestContext.storeAll_keys (ctx : RequestContext) (hs : List Header) :
    (ctx.cleared.storeAll hs).headers.keys = (hs.map Prod.fst).toFinset := by
  ext k
  have hlookup : (ctx.cleared.storeAll hs).headers.lookup k = lastValue k hs := by
    rw [storeAll_headers]
    exact Option.or_none
  rw [Finmap.mem_keys, ← Finmap.lookup_isSome, hlookup, List.mem_toFinset]
  constructor
  · intro h
    exact mem_keys_of_lastValue (Option.some_get h).symm
  · exact isSome_lastValue_of_mem

namespace Impl

lemma tooManyHeaders_callAll (s : Impl) (ctx : RequestContext) (cs : List Callback) :
    ((s.beginParse ctx).callAll cs).tooManyHeaders
      = decide (s.config.maxHeaders < (headerNames cs).card) := by
  have hctx : (s.beginParse ctx).ctx = some ctx.cleared := rfl
  rw [tooManyHeaders, callAll_ctx hctx, callAll_config, headerNames,
    ← RequestContext.storeAll_keys ctx]
  rfl

lemma checkHeaderSize_eq_zero_iff (s : Impl) :
    s.checkHeaderSize.1 = 0 ↔ s.totalHeaderSize ≤ s.config.maxHeaderSize := by
  refine ⟨?_, checkHeaderSize_eq_zero⟩
  intro h
  by_contra hlt
  rw [checkHeaderSize, if_pos (not_le.mp hlt)] at h
  exact absurd (show (-1 : ℤ) = 0 from h) (by decide)

/-- A handler that returns `0` leaves the size within its limit. -/
lemma call_fits {s : Impl} {c : Callback} (h : (s.call c).1 = 0)
    (hfit : s.totalHeaderSize ≤ s.config.maxHeaderSize) :
    (s.call c).2.totalHeaderSize ≤ (s.call c).2.config.maxHeaderSize := by
  have hother : headerBytes c = 0 →
      (s.call c).2.totalHeaderSize ≤ (s.call c).2.config.maxHeaderSize := by
    intro hzero
    rwa [call_totalHeaderSize, call_config, hzero, Nat.add_zero]
  cases c with
  | headerField span =>
      rw [call, onHeaderField] at h ⊢
      rw [checkHeaderSize_totalHeaderSize, checkHeaderSize_config]
      exact (checkHeaderSize_eq_zero_iff _).mp h
  | headerValue span =>
      rw [call, onHeaderValue] at h ⊢
      rw [checkHeaderSize_totalHeaderSize, checkHeaderSize_config]
      exact (checkHeaderSize_eq_zero_iff _).mp h
  | _ => exact hother rfl

lemma callAll_totalHeaderSize (s : Impl) (cs : List Callback) :
    (s.callAll cs).totalHeaderSize = s.totalHeaderSize + (cs.map headerBytes).sum := by
  induction cs generalizing s with
  | nil => rfl
  | cons c cs ih =>
      rw [callAll_cons, ih, call_totalHeaderSize, List.map_cons, List.sum_cons, Nat.add_assoc]

lemma runCallbacks_fits : ∀ {s : Impl} {cs : List Callback}, (s.runCallbacks cs).1 = none →
    s.totalHeaderSize ≤ s.config.maxHeaderSize →
      (s.runCallbacks cs).2.totalHeaderSize ≤ (s.runCallbacks cs).2.config.maxHeaderSize
  | _, [], _, hfit => hfit
  | s, c :: cs, h, hfit => by
      rw [runCallbacks] at h ⊢
      split_ifs at h ⊢ with hc
      exact runCallbacks_fits h (call_fits hc hfit)

lemma onHeadersComplete_eq_zero_iff (s : Impl) :
    s.onHeadersComplete.1 = 0 ↔ s.onHeadersComplete.2.tooManyHeaders = false := by
  rw [onHeadersComplete]
  split_ifs with h1 h2 h3
  · exact ⟨fun h => absurd (show (-1 : ℤ) = 0 from h) (by decide),
      fun h => absurd (h2.symm.trans h) (by decide)⟩
  · exact ⟨fun _ => Bool.eq_false_iff.mpr h2, fun _ => rfl⟩
  · exact ⟨fun h => absurd (show (-1 : ℤ) = 0 from h) (by decide),
      fun h => absurd (h3.symm.trans h) (by decide)⟩
  · exact ⟨fun _ => Bool.eq_false_iff.mpr h3, fun _ => rfl⟩

lemma callAll_concat (s : Impl) (cs : List Callback) (c : Callback) :
    s.callAll (cs ++ [c]) = ((s.callAll cs).call c).2 :=
  callAll_append s cs [c]

/-- **Crossing a limit stops the parser.** -/
theorem failed_of_exceedsLimits (s : Impl) (ctx : RequestContext) {cs : List Callback}
    (h : ExceedsLimits s.config cs) :
    ∃ failed, ((s.beginParse ctx).runCallbacks cs).1 = some failed := by
  rw [← Option.ne_none_iff_exists']
  intro hnone
  have hstate := runCallbacks_state (s.beginParse ctx) cs
  rw [madeCallbacks_of_none hnone] at hstate
  rcases h with hsize | ⟨pre, post, rfl, hcount⟩
  · have hfits := runCallbacks_fits hnone (Nat.zero_le _)
    rw [hstate, callAll_totalHeaderSize, callAll_config] at hfits
    have hzero : (s.beginParse ctx).totalHeaderSize = 0 := rfl
    rw [hzero, Nat.zero_add] at hfits
    exact absurd hsize (not_lt.mpr hfits)
  · have hpre := runCallbacks_none_of_append hnone
    have hlast : (((s.beginParse ctx).callAll pre).call .headersComplete).1 = 0 := by
      rw [runCallbacks_append_of_none _ hpre, runCallbacks_state, madeCallbacks_of_none hpre,
        runCallbacks] at hnone
      by_contra hne
      rw [if_neg hne] at hnone
      exact absurd hnone (by simp)
    have hfits := (onHeadersComplete_eq_zero_iff _).mp hlast
    have hcall : ((s.beginParse ctx).callAll pre).onHeadersComplete.2
        = (s.beginParse ctx).callAll (pre ++ [.headersComplete]) :=
      (callAll_concat _ pre .headersComplete).symm
    rw [hcall, tooManyHeaders_callAll] at hfits
    exact of_decide_eq_false hfits hcount

/-- **Nothing else does.**  Callbacks that keep to the limits all succeed. -/
theorem runCallbacks_of_not_exceedsLimits (s : Impl) (ctx : RequestContext) {cs : List Callback}
    (h : ¬ExceedsLimits s.config cs) : ((s.beginParse ctx).runCallbacks cs).1 = none := by
  induction cs using List.reverseRecOn with
  | nil => rfl
  | append_singleton cs c ih =>
      have hpre := ih fun hcs => h (hcs.append [c])
      rw [runCallbacks_append_of_none _ hpre, runCallbacks_state, madeCallbacks_of_none hpre]
      have hzero : (((s.beginParse ctx).callAll cs).call c).1 = 0 := by
        by_cases hc : c = .headersComplete
        · subst hc
          refine (onHeadersComplete_eq_zero_iff _).mpr ?_
          have hcall := callAll_concat (s.beginParse ctx) cs .headersComplete
          rw [call] at hcall
          rw [← hcall, tooManyHeaders_callAll, decide_eq_false_iff_not]
          exact fun hcount => h (Or.inr ⟨cs, [], rfl, hcount⟩)
        · refine call_eq_zero hc ?_
          have hsize : ¬ExceedsHeaderSize s.config (cs ++ [c]) := fun hsize => h (Or.inl hsize)
          rw [ExceedsHeaderSize, List.map_append, List.sum_append, List.map_singleton,
            List.sum_singleton] at hsize
          rw [callAll_totalHeaderSize, callAll_config]
          have hstart : (s.beginParse ctx).totalHeaderSize = 0 := rfl
          have hconfig : (s.beginParse ctx).config = s.config := rfl
          rw [hstart, hconfig]
          omega
      rw [runCallbacks, if_pos hzero]
      rfl

end Impl

/-! ## What is reported -/

namespace Http1Codec

variable {L : Llhttp} (c : Http1Codec L) (buffer : ByteString) (ctx : RequestContext)

/-- Each limit is reported under its own code, the size before the number. -/
def ReportsLimits : Prop :=
  (ExceedsHeaderSize c.impl.config (L.execute c.parser buffer).callbacks →
      (c.parse buffer ctx).1 = .kHeaderTooLarge) ∧
    (¬ExceedsHeaderSize c.impl.config (L.execute c.parser buffer).callbacks →
      ExceedsHeaderCount c.impl.config (L.execute c.parser buffer).callbacks →
        (c.parse buffer ctx).1 = .kTooManyHeaders)

/-- **Whatever limit is crossed**, the answer is `kInternalError`. -/
theorem parse_of_exceedsLimits
    (h : ExceedsLimits c.impl.config (L.execute c.parser buffer).callbacks) :
    (c.parse buffer ctx).1 = .kInternalError := by
  obtain ⟨failed, hfailed⟩ := c.impl.failed_of_exceedsLimits ctx h
  exact parse_of_failed hfailed

theorem reportsLimits_iff_fits :
    c.ReportsLimits buffer ctx ↔
      ¬ExceedsLimits c.impl.config (L.execute c.parser buffer).callbacks := by
  constructor
  · intro hreports hexceeds
    have hinternal := c.parse_of_exceedsLimits buffer ctx hexceeds
    by_cases hsize : ExceedsHeaderSize c.impl.config (L.execute c.parser buffer).callbacks
    · exact absurd (hinternal.symm.trans (hreports.1 hsize)) (by decide)
    · exact absurd (hinternal.symm.trans (hreports.2 hsize (hexceeds.resolve_left hsize)))
        (by decide)
  · intro hfits
    exact ⟨fun hsize => absurd (Or.inl hsize) hfits, fun _ hcount => absurd (Or.inr hcount) hfits⟩

end Http1Codec

end Netp2.Protocol
