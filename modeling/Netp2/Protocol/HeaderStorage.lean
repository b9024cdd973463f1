import Netp2.Library.MapWeight
import Netp2.Protocol.HeaderLimits

/-!
# The bytes that headers take

The bytes of a name or a value are appended to an accumulator when they arrive, and counted in
`total_header_size_`.  Saving a header moves what is accumulated into the map; if the name is there
already, its value is replaced.  So bytes move and get lost, but none are made
(`collect_bytes`), and what is stored and accumulated is at most what has been counted
(`StorageCounted`).

The count is checked whenever it grows.  As long as no check fails it is within `max_header_size`,
and with it the storage (`header_storage_bounded`).
-/

namespace Netp2.Protocol

open ByteString MapWeight StepRun

/-- The bytes of a name and a value. -/
def pairBytes (p : ByteString × ByteString) : ℕ :=
  p.1.length + p.2.length

/-- **Bytes are moved.**  What a callback saves and leaves pending was pending, or came with it. -/
lemma collect_bytes (p : Pending) (c : Callback) :
    ((collect p c).1.map pairBytes).getD 0 + pairBytes (collect p c).2
      = pairBytes p + Impl.headerBytes c := by
  cases c with
  | headerField span =>
      simp only [collect]
      split_ifs with hv
      · simp [pairBytes, toLower, Impl.headerBytes]
      · simp [pairBytes, Impl.headerBytes]
        omega
  | headerValue span =>
      simp [collect, pairBytes, Impl.headerBytes]
      omega
  | headersComplete =>
      simp only [collect]
      split_ifs
      · simp [pairBytes, toLower, Impl.headerBytes]
      · simp [pairBytes, Impl.headerBytes]
  | _ => simp [collect, Impl.headerBytes]

namespace RequestContext

/-- The bytes of all names and values in `headers`. -/
def storedBytes (ctx : RequestContext) : ℕ :=
  weight (fun name value => name.length + value.length) ctx.headers

lemma storedBytes_storeHeader_le (ctx : RequestContext) (h : Header) :
    (ctx.storeHeader h.1 h.2).storedBytes ≤ pairBytes h + ctx.storedBytes := by
  rw [storedBytes, storeHeader_headers]
  exact weight_insert_le _ ctx.headers h.1 h.2

lemma storedBytes_receive_le (ctx : RequestContext) (saved : Option Header) (c : Callback) :
    (ctx.receive saved c).storedBytes ≤ (saved.map pairBytes).getD 0 + ctx.storedBytes := by
  have hheaders : (ctx.receive saved c).headers = (ctx.storeAll saved.toList).headers := by
    cases c <;> rfl
  rw [storedBytes, hheaders, ← storedBytes]
  cases saved with
  | none => simp [storeAll]
  | some h => exact storedBytes_storeHeader_le ctx h

end RequestContext

/-! ## Along the callbacks -/

namespace Impl

/-- What is stored and accumulated has been counted. -/
def StorageCounted (s : Impl) : Prop :=
  ∃ ctx, s.ctx = some ctx ∧ ctx.storedBytes + pairBytes s.pending ≤ s.totalHeaderSize

lemma storageCounted_beginParse (s : Impl) (ctx : RequestContext) :
    (s.beginParse ctx).StorageCounted :=
  ⟨ctx.cleared, rfl, le_rfl⟩

/-- **The step lemma.**  Every callback keeps it, whatever it returns. -/
lemma StorageCounted.call {s : Impl} (h : s.StorageCounted) (c : Callback) :
    (s.call c).2.StorageCounted := by
  obtain ⟨ctx, hctx, hcounted⟩ := h
  obtain ⟨hctx', hpending⟩ := call_ctx hctx c
  refine ⟨_, hctx', ?_⟩
  have hmoved := collect_bytes s.pending c
  have hstored := ctx.storedBytes_receive_le (collect s.pending c).1 c
  rw [hpending, call_totalHeaderSize]
  omega

/-- **The run lemma.** -/
theorem storageCounted_runCallbacks (s : Impl) (ctx : RequestContext) (cs : List Callback) :
    ((s.beginParse ctx).runCallbacks cs).2.StorageCounted :=
  runCallbacks_invariant (fun _ c hs => hs.call c) (s.storageCounted_beginParse ctx) cs

/-- While no callback fails, the count is within the limit. -/
lemma totalHeaderSize_le {s : Impl} {ctx : RequestContext} {cs : List Callback}
    (h : ((s.beginParse ctx).runCallbacks cs).1 = none) :
    ((s.beginParse ctx).runCallbacks cs).2.totalHeaderSize ≤ s.config.maxHeaderSize := by
  have hfits := runCallbacks_fits h (Nat.zero_le _)
  rwa [runCallbacks_config] at hfits

end Impl

/-- **Header storage is bounded.**  As long as no callback of a parse has failed, the bytes in
`headers` and in the accumulators are at most `total_header_size_`, and this is at most
`max_header_size`.  So the headers of a request that is accepted have at most that many bytes. -/
theorem header_storage_bounded {L : Llhttp} (c : Http1Codec L) (buffer : ByteString)
    (ctx : RequestContext) :
    (∀ cs, ((c.impl.beginParse ctx).runCallbacks cs).1 = none →
        ∃ ctx', ((c.impl.beginParse ctx).runCallbacks cs).2.ctx = some ctx' ∧
          ctx'.storedBytes
              + (((c.impl.beginParse ctx).runCallbacks cs).2.currentHeaderField.length
                + ((c.impl.beginParse ctx).runCallbacks cs).2.currentHeaderValue.length)
            ≤ ((c.impl.beginParse ctx).runCallbacks cs).2.totalHeaderSize ∧
          ((c.impl.beginParse ctx).runCallbacks cs).2.totalHeaderSize
            ≤ c.impl.config.maxHeaderSize) ∧
      ((c.parse buffer ctx).1 = .kSuccess →
        (c.parse buffer ctx).2.1.storedBytes ≤ c.impl.config.maxHeaderSize) := by
  have hbounded : ∀ cs, ((c.impl.beginParse ctx).runCallbacks cs).1 = none →
      ∃ ctx', ((c.impl.beginParse ctx).runCallbacks cs).2.ctx = some ctx' ∧
        ctx'.storedBytes + pairBytes ((c.impl.beginParse ctx).runCallbacks cs).2.pending
          ≤ ((c.impl.beginParse ctx).runCallbacks cs).2.totalHeaderSize ∧
        ((c.impl.beginParse ctx).runCallbacks cs).2.totalHeaderSize
          ≤ c.impl.config.maxHeaderSize := by
    intro cs hrun
    obtain ⟨ctx', hctx, hcounted⟩ := c.impl.storageCounted_runCallbacks ctx cs
    exact ⟨ctx', hctx, hcounted, Impl.totalHeaderSize_le hrun⟩
  refine ⟨hbounded, ?_⟩
  intro hsuccess
  obtain ⟨hrun, herrno⟩ := Http1Codec.of_parse_success hsuccess
  obtain ⟨ctx', hctx, hcounted, hlimit⟩ := hbounded _ hrun
  have hreceived : (c.received buffer ctx).storedBytes = ctx'.storedBytes := by
    rw [Http1Codec.received, Impl.contextAfter, hctx]
    rfl
  rw [(Http1Codec.parse_of_ok hrun herrno).2, hreceived]
  omega

end Netp2.Protocol
