import Netp2.Protocol.HeaderAssembly

/-!
# The two records of the host

The host of a request is recorded twice: in `ctx.host`, by which requests are routed, and among
`ctx.headers`, which is what is left to forward.  Both are written by `save_current_header`, the
second for every name and the first for the name `host` in any case of letters; both are cleared at
the start of a parse and nothing else touches either.

`HostRecorded` is the invariant that ties them together.  Every callback preserves it
(`Impl.HostRecorded.call`), so it holds after any callbacks, whatever messages, trailers and
repeated lines they belong to.
-/

namespace Netp2.Protocol

open ByteString StepRun

namespace RequestContext

/-- The host is that of the headers, and empty without one; the names of the headers are in lower
case. -/
structure HostRecorded (ctx : RequestContext) : Prop where
  host_eq : ctx.host = (ctx.headers.lookup (ascii "host")).getD []
  keys_lower : ∀ k ∈ ctx.headers, toLower k = k

lemma hostRecorded_cleared (ctx : RequestContext) : ctx.cleared.HostRecorded where
  host_eq := by simp [cleared]
  keys_lower := by
    intro k hk
    exact absurd hk Finmap.notMem_empty

/-- Saving a header writes both records, or neither. -/
lemma HostRecorded.storeHeader {ctx : RequestContext} (h : ctx.HostRecorded)
    (field value : ByteString) : (ctx.storeHeader (toLower field) value).HostRecorded where
  host_eq := by
    rw [storeHeader_host, storeHeader_headers]
    split_ifs with hhost
    · simp [hhost]
    · rw [Finmap.lookup_insert_of_ne _ (Ne.symm hhost)]
      exact h.host_eq
  keys_lower := by
    intro k hk
    rw [storeHeader_headers, Finmap.mem_insert] at hk
    rcases hk with rfl | hk
    · exact toLower_toLower field
    · exact h.keys_lower k hk

/-- The rest of a callback touches neither. -/
lemma HostRecorded.receive {ctx : RequestContext} (h : ctx.HostRecorded) (p : Pending)
    (c : Callback) : (ctx.receive (collect p c).1 c).HostRecorded := by
  cases c with
  | headerField span =>
      simp only [collect]
      split_ifs
      · exact h.storeHeader p.1 p.2
      · exact h
  | headersComplete =>
      simp only [collect]
      split_ifs
      · exact h.storeHeader p.1 p.2
      · exact h
  | _ => exact ⟨h.host_eq, h.keys_lower⟩

end RequestContext

/-! ## Along the callbacks -/

namespace Impl

/-- There is a context, and its records of the host agree. -/
def HostRecorded (s : Impl) : Prop :=
  ∃ ctx, s.ctx = some ctx ∧ ctx.HostRecorded

lemma hostRecorded_beginParse (s : Impl) (ctx : RequestContext) :
    (s.beginParse ctx).HostRecorded :=
  ⟨ctx.cleared, rfl, ctx.hostRecorded_cleared⟩

/-- **The step lemma.** -/
lemma HostRecorded.call {s : Impl} (h : s.HostRecorded) (c : Callback) :
    (s.call c).2.HostRecorded := by
  obtain ⟨ctx, hctx, hrecorded⟩ := h
  exact ⟨_, (call_ctx hctx c).1, hrecorded.receive s.pending c⟩

/-- **The run lemma.** -/
theorem HostRecorded.callAll {s : Impl} (h : s.HostRecorded) (cs : List Callback) :
    (s.callAll cs).HostRecorded :=
  callAll_invariant (fun _ c hs => hs.call c) h cs

/-- In particular of the context that `llhttp_execute` leaves, wherever a handler stops it. -/
lemma hostRecorded_contextAfter (s : Impl) (ctx : RequestContext) (cs : List Callback) :
    (s.contextAfter ctx cs).HostRecorded := by
  have hrun : ((s.beginParse ctx).runCallbacks cs).2.HostRecorded :=
    runCallbacks_invariant (fun _ c hs => hs.call c) (s.hostRecorded_beginParse ctx) cs
  obtain ⟨ctx', hctx, hrecorded⟩ := hrun
  rw [contextAfter, hctx]
  exact hrecorded

end Impl

/-! ## What `parse` returns -/

namespace Http1Codec

variable {L : Llhttp} {c : Http1Codec L} {buffer : ByteString} {ctx : RequestContext}

/-- A request that is accepted leaves the parser where `llhttp_execute` does. -/
lemma parser_of_success (h : (c.parse buffer ctx).1 = .kSuccess) :
    (c.parse buffer ctx).2.2.parser = (c.executed buffer ctx).parser := by
  obtain ⟨hrun, herrno⟩ := of_parse_success h
  have herror : (c.callbackRun buffer ctx).2.parseError = .kSuccess :=
    Impl.runCallbacks_parseError hrun
  rcases herrno with he | he <;>
    simp [parse, execute, runCallbacks_of_callbackRun hrun, he, herror, executed]

/-- The request line is filled in beside the records of the host. -/
lemma hostRecorded_received (c : Http1Codec L) (buffer : ByteString) (ctx : RequestContext) :
    (c.received buffer ctx).HostRecorded := by
  have h := c.impl.hostRecorded_contextAfter ctx (L.execute c.parser buffer).callbacks
  exact ⟨h.host_eq, h.keys_lower⟩

lemma executed_config (c : Http1Codec L) (buffer : ByteString) (ctx : RequestContext) :
    (c.executed buffer ctx).impl.config = c.impl.config :=
  Impl.runCallbacks_config _ _

end Http1Codec

/-- **The two records of the host always agree.**  After any beginning of any callbacks of a parse,
the host is the one of the headers, or empty without one, and the names of the headers are in lower
case.  So a request of version 1.1 or later that is accepted where a host is required has the
header `host`, with the value of `ctx.host`, which is not empty. -/
theorem host_records_agree {L : Llhttp} (c : Http1Codec L) (buffer : ByteString)
    (ctx : RequestContext) :
    (∀ cs pre, pre <+: cs → ∃ ctx', ((c.impl.beginParse ctx).callAll pre).ctx = some ctx' ∧
        ctx'.host = (ctx'.headers.lookup (ascii "host")).getD [] ∧
        ∀ k ∈ ctx'.headers, toLower k = k) ∧
      ((c.parse buffer ctx).1 = .kSuccess → c.impl.config.requireHostHeader = true →
        L.httpMajor (c.parse buffer ctx).2.2.parser = 1 →
        1 ≤ L.httpMinor (c.parse buffer ctx).2.2.parser →
          (c.parse buffer ctx).2.1.headers.lookup (ascii "host")
              = some (c.parse buffer ctx).2.1.host ∧
            (c.parse buffer ctx).2.1.host ≠ []) := by
  constructor
  · intro _ pre _
    obtain ⟨ctx', hctx, hrecorded⟩ := (c.impl.hostRecorded_beginParse ctx).callAll pre
    exact ⟨ctx', hctx, hrecorded.host_eq, hrecorded.keys_lower⟩
  · intro hsuccess hrequire hmajor hminor
    rw [Http1Codec.parser_of_success hsuccess] at hmajor hminor
    obtain ⟨hrun, herrno⟩ := Http1Codec.of_parse_success hsuccess
    obtain ⟨hcheck, hctx⟩ := Http1Codec.parse_of_ok hrun herrno
    rw [hctx]
    have hchecks := ((c.executed buffer ctx).checkRequest_eq_success_iff _).mp
      (hcheck.symm.trans hsuccess)
    rw [Http1Codec.executed_config] at hchecks
    have hne : (c.received buffer ctx).host ≠ [] := hchecks.1 hrequire hmajor hminor
    refine ⟨?_, hne⟩
    have hhost := (c.hostRecorded_received buffer ctx).host_eq
    cases hlookup : (c.received buffer ctx).headers.lookup (ascii "host") with
    | none =>
        rw [hlookup] at hhost
        exact absurd hhost hne
    | some value =>
        rw [hlookup] at hhost
        exact congrArg some hhost.symm

end Netp2.Protocol
