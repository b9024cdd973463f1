import Netp2.Protocol.Completeness

/-!
# The body of a request

`llhttp` reports a body in spans, one for each chunk when the transfer is chunked.  The target and
the headers are appended to span by span, but `on_body` makes the body a view of the span it was
called with, and the view of an earlier span is gone.  Only a `Content-Length` would show the loss,
and a chunked request has none.

`body_whole_iff` says exactly which sequences of spans leave the body whole.
-/

namespace Netp2.Protocol

open ByteString LastWrite

/-- The spans of the body that these callbacks deliver. -/
def bodySpans (cs : List Callback) : List ByteString :=
  cs.filterMap bodySpan

lemma bodySpans_append (cs ds : List Callback) :
    bodySpans (cs ++ ds) = bodySpans cs ++ bodySpans ds :=
  List.filterMap_append

/-- The spans themselves, when there is nothing else. -/
lemma bodySpans_bodies (bodies : List ByteString) : bodySpans (bodies.map .body) = bodies := by
  simp [bodySpans, List.filterMap_map, Function.comp_def, bodySpan]

/-- The register that `on_body` overwrites ends up with the last span. -/
lemma lastSome_bodySpan (cs : List Callback) :
    lastSome bodySpan cs = (bodySpans cs).getLast? := by
  induction cs using List.reverseRecOn with
  | nil => rfl
  | append_singleton cs c ih =>
      rw [lastSome_append, ih, bodySpans_append]
      cases c <;> simp [lastSome, bodySpan, bodySpans]

/-- A last piece is the whole exactly if there is nothing in the others. -/
lemma getLast_eq_flatten_iff {α : Type} (pieces : List (List α)) :
    pieces.getLast?.getD [] = pieces.flatten ↔ ∀ piece ∈ pieces.dropLast, piece = [] := by
  rcases List.eq_nil_or_concat pieces with rfl | ⟨front, last, rfl⟩
  · simp
  · simp [eq_comm]

/-- **When the body is kept whole.**  In a parse that succeeds, the body is the concatenation of the
spans that `llhttp` delivered exactly when all of them but the last are empty. -/
theorem body_whole_iff {L : Llhttp} (c : Http1Codec L) (buffer : ByteString) (ctx : RequestContext)
    (hsuccess : (c.parse buffer ctx).1 = .kSuccess) :
    (c.parse buffer ctx).2.1.body = (bodySpans (L.execute c.parser buffer).callbacks).flatten ↔
      ∀ span ∈ (bodySpans (L.execute c.parser buffer).callbacks).dropLast, span = [] := by
  obtain ⟨hrun, herrno⟩ := Http1Codec.of_parse_success hsuccess
  have hctx := Impl.contextAfter_eq (Impl.madeCallbacks_of_none hrun)
  have hbody : (c.parse buffer ctx).2.1.body
      = (bodySpans (L.execute c.parser buffer).callbacks).getLast?.getD [] := by
    rw [(Http1Codec.parse_of_ok hrun herrno).2, Http1Codec.received, hctx, ← lastSome_bodySpan]
    rfl
  rw [hbody]
  exact getLast_eq_flatten_iff _

/-- A chunked request with a body of two chunks. -/
def twoChunks : ByteString :=
  chunkedHead ++ ascii "3\r\nabc\r\n" ++ ascii "2\r\nde\r\n" ++ ascii "0\r\n\r\n"

def llhttpOnTwoChunks : Llhttp :=
  .replay (ascii "POST")
    [(57, headCallbacks [ascii "/a"] [hostLine (ascii "h"), chunkedLine]),
      (63, [.body (ascii "abc")]), (70, [.body (ascii "de")]), (77, [.messageComplete])]

def oneChunk : ByteString :=
  chunkedHead ++ ascii "3\r\nabc\r\n" ++ ascii "0\r\n\r\n"

def llhttpOnOneChunk : Llhttp :=
  .replay (ascii "POST")
    [(57, headCallbacks [ascii "/a"] [hostLine (ascii "h"), chunkedLine]),
      (63, [.body (ascii "abc")]), (70, [.messageComplete])]

/-- A complete message with one chunk is parsed with that chunk as its body. -/
theorem body_whole_oneChunk :
    .messageComplete ∈ (llhttpOnOneChunk.execute () oneChunk).callbacks ∧
      (bodySpans (llhttpOnOneChunk.execute () oneChunk).callbacks).flatten = ascii "abc" ∧
      ((Http1Codec.new {} : Http1Codec llhttpOnOneChunk).parse oneChunk {}).2.1.body
        = (bodySpans (llhttpOnOneChunk.execute () oneChunk).callbacks).flatten :=
  ⟨by decide +kernel, by decide +kernel,
    (body_whole_iff (Http1Codec.new {} : Http1Codec llhttpOnOneChunk) oneChunk {}
      (by decide +kernel)).mpr (by decide +kernel)⟩

/-- As a whole it is accepted with the second chunk alone. -/
theorem first_chunk_lost :
    ((Http1Codec.new {} : Http1Codec llhttpOnTwoChunks).parse twoChunks {}).1 = .kSuccess ∧
      (bodySpans (llhttpOnTwoChunks.execute () twoChunks).callbacks).flatten = ascii "abcde" ∧
      ((Http1Codec.new {} : Http1Codec llhttpOnTwoChunks).parse twoChunks {}).2.1.body
        = ascii "de" := by
  refine ⟨?_, ?_, ?_⟩ <;> decide +kernel

end Netp2.Protocol
