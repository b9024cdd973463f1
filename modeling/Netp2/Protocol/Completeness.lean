import Netp2.Protocol.HeadIsolation

/-!
# Incomplete requests

`ParseError` has a code for a buffer that ends before its message does, and
`parse_error_to_http_status` gives it a status.  But no path of `parse` returns it
(`parse_ne_kNeedMoreData`): `on_message_complete` leaves no mark, and `HPE_OK` is taken for success.
`reports_incomplete_iff` says what this leaves of the contract of `parse`.
-/

namespace Netp2.Protocol

open ByteString

namespace Http1Codec

variable {L : Llhttp} (c : Http1Codec L) (buffer : ByteString) (ctx : RequestContext)

def made : List Callback :=
  (c.impl.beginParse ctx).madeCallbacks (L.execute c.parser buffer).callbacks

/-- What `llhttp_execute` returns during a parse. -/
def executeErrno : Errno :=
  ({ c with impl := c.impl.beginParse ctx }.execute buffer).1

/-- The buffer ends inside a message: `llhttp_execute` returns `HPE_OK` without having called
`on_message_complete`. -/
def EndsInside : Prop :=
  c.executeErrno buffer ctx = .hpeOk ∧ .messageComplete ∉ c.made buffer ctx

/-- Success is for complete requests, and an incomplete one is reported. -/
def ReportsIncomplete : Prop :=
  ((c.parse buffer ctx).1 = .kSuccess → .messageComplete ∈ c.made buffer ctx) ∧
    (c.EndsInside buffer ctx → (c.parse buffer ctx).1 = .kNeedMoreData)

/-- **Nothing is ever reported as incomplete.** -/
theorem parse_ne_kNeedMoreData : (c.parse buffer ctx).1 ≠ .kNeedMoreData := by
  intro h
  have hmem := c.parse_mem buffer ctx
  rw [h] at hmem
  exact absurd hmem (by decide)

variable {c buffer ctx}

lemma executeErrno_of_none (h : (c.callbackRun buffer ctx).1 = none) :
    c.executeErrno buffer ctx = (L.execute c.parser buffer).errno := by
  simp only [executeErrno, execute, runCallbacks_of_callbackRun h]

end Http1Codec

/-- **When `parse` keeps its contract.**  Provided that `llhttp` pauses for an upgrade only at the
end of a message: exactly when the buffer does not end inside a message. -/
theorem reports_incomplete_iff {L : Llhttp}
    (hupgrade : ∀ p b, (L.execute p b).errno = .hpePausedUpgrade →
      .messageComplete ∈ (L.execute p b).callbacks)
    (c : Http1Codec L) (buffer : ByteString) (ctx : RequestContext) :
    c.ReportsIncomplete buffer ctx ↔ ¬c.EndsInside buffer ctx := by
  constructor
  · exact fun h hends => c.parse_ne_kNeedMoreData buffer ctx (h.2 hends)
  · intro hends
    refine ⟨?_, fun h => absurd h hends⟩
    intro hsuccess
    obtain ⟨hrun, herrno⟩ := Http1Codec.of_parse_success hsuccess
    have hmade : c.made buffer ctx = (L.execute c.parser buffer).callbacks :=
      Impl.madeCallbacks_of_none hrun
    rcases herrno with hok | hup
    · by_contra hno
      exact hends ⟨(Http1Codec.executeErrno_of_none hrun).trans hok, hno⟩
    · rw [hmade]
      exact hupgrade c.parser buffer hup

theorem reports_incomplete_single :
    (Http1Codec.new {} : Http1Codec llhttpOnAB).ReportsIncomplete requestA {} :=
  (reports_incomplete_iff
    (fun _ _ h => absurd (show Errno.hpeOk = .hpePausedUpgrade from h) (by decide))
    (Http1Codec.new {} : Http1Codec llhttpOnAB) requestA {}).mpr
    fun h => absurd h.2 (by decide +kernel)

/-- The head of a request with a chunked body. -/
def chunkedHead : ByteString :=
  ascii "POST /a HTTP/1.1\r\nHost: h\r\nTransfer-Encoding: chunked\r\n\r\n"

def llhttpOnChunkedHead : Llhttp :=
  .replay (ascii "POST") [(57, headCallbacks [ascii "/a"] [hostLine (ascii "h"), chunkedLine])]

/-- Cut off before its body, a chunked request is accepted. -/
theorem incomplete_request_accepted :
    (Http1Codec.new {} : Http1Codec llhttpOnChunkedHead).EndsInside chunkedHead {} ∧
      ((Http1Codec.new {} : Http1Codec llhttpOnChunkedHead).parse chunkedHead {}).1 = .kSuccess ∧
      ¬(Http1Codec.new {} : Http1Codec llhttpOnChunkedHead).ReportsIncomplete chunkedHead {} := by
  have hends : (Http1Codec.new {} : Http1Codec llhttpOnChunkedHead).EndsInside chunkedHead {} :=
    ⟨by decide +kernel, by decide +kernel⟩
  have hsuccess : ((Http1Codec.new {} : Http1Codec llhttpOnChunkedHead).parse chunkedHead {}).1
      = .kSuccess := by
    decide +kernel
  exact ⟨hends, hsuccess, fun h => hends.2 (h.1 hsuccess)⟩

end Netp2.Protocol
