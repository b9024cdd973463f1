import Netp2.Library.Lines
import Netp2.Runtime.Spine

/-!
# How a response is framed

`build_http_response` writes a status line and three header lines, an empty line, and the body.  A
client takes this apart again: it looks for the first empty line, reads the lines in front of it,
and takes what follows for the body.

`decodeStatusLine` and `fieldValue` are what such a client does with the lines.
`response_framed` says that it reads back what was written, whatever bytes the body has and as long
as the reason and the content type are without line ends; and the spine calls
`build_http_response` with no others (`dispatch_framed`).
-/

namespace Netp2.Runtime

open ByteString Lines Netp2.Protocol

/-! ## Writing -/

/-- `build_http_response`, for any status code. -/
def buildHttpResponse (statusCode : ℤ) (reason body contentType : ByteString) : ByteString :=
  ascii "HTTP/1.1 " ++ signedDecimal statusCode ++ ascii " " ++ reason ++ ascii "\r\n"
    ++ ascii "Content-Length: " ++ decimal body.length ++ ascii "\r\n"
    ++ ascii "Connection: close\r\n"
    ++ ascii "Content-Type: " ++ contentType ++ ascii "\r\n"
    ++ ascii "\r\n"
    ++ body

lemma payload_eq (r : Response) :
    r.payload = buildHttpResponse r.statusCode r.reason r.body r.contentType := by
  have hcode : signedDecimal (r.statusCode : ℤ) = decimal r.statusCode := by
    rw [signedDecimal, if_neg (by omega), Int.natAbs_natCast]
  rw [Response.payload, buildHttpResponse, hcode]

/-- The lines of the head. -/
def headLines (statusCode : ℤ) (reason body contentType : ByteString) : List ByteString :=
  [ascii "HTTP/1.1 " ++ (signedDecimal statusCode ++ 32 :: reason),
    ascii "Content-Length: " ++ decimal body.length,
    ascii "Connection: close",
    ascii "Content-Type: " ++ contentType]

lemma buildHttpResponse_eq (statusCode : ℤ) (reason body contentType : ByteString) :
    buildHttpResponse statusCode reason body contentType
      = crlf.intercalate (headLines statusCode reason body contentType) ++ (crlf ++ crlf)
        ++ body := by
  have hend : ascii "\r\n" = crlf := by decide
  have hspace : ascii " " = [32] := by decide
  have hclose : ascii "Connection: close\r\n" = ascii "Connection: close" ++ crlf := by decide
  simp [buildHttpResponse, headLines, hend, hspace, hclose]

/-! ## Reading -/

/-- The status code and the reason of a status line. -/
def decodeStatusLine (line : ByteString) : Option (ℤ × ByteString) :=
  if (ascii "HTTP/1.1 ").isPrefixOf line then
    let rest := line.drop 9
    (find 32 rest).map fun n => (signedValue (rest.take n), rest.drop (n + 1))
  else none

/-- The value of a header line, if it has this name in some case of letters. -/
def fieldValue (name line : ByteString) : Option ByteString :=
  (find 58 line).bind fun n =>
    if toLower (line.take n) = name then some (line.drop (n + 2)) else none

lemma decodeStatusLine_status (statusCode : ℤ) (reason : ByteString) :
    decodeStatusLine (ascii "HTTP/1.1 " ++ (signedDecimal statusCode ++ 32 :: reason))
      = some (statusCode, reason) := by
  have hprefix : (ascii "HTTP/1.1 ").isPrefixOf
      (ascii "HTTP/1.1 " ++ (signedDecimal statusCode ++ 32 :: reason)) = true := by
    simp
  have hdrop : (ascii "HTTP/1.1 " ++ (signedDecimal statusCode ++ 32 :: reason)).drop 9
      = signedDecimal statusCode ++ 32 :: reason := by
    have hlength : (ascii "HTTP/1.1 ").length = 9 := by decide
    rw [← hlength, List.drop_left]
  have hspace : 32 ∉ signedDecimal statusCode := notMem_signedDecimal (by decide) statusCode
  simp [decodeStatusLine, hprefix, hdrop, find_cut reason hspace]

/-- A line `name: value`, for a name without a colon. -/
lemma fieldValue_line {field : ByteString} (hfield : 58 ∉ field) (name value : ByteString) :
    fieldValue name (field ++ 58 :: 32 :: value)
      = if toLower field = name then some value else none := by
  have hdrop : (field ++ 58 :: 32 :: value).drop (field.length + 2) = value := by
    rw [List.drop_append]
    simp
  simp [fieldValue, find_cut _ hfield, hdrop]

/-- The status line is not a header line. -/
lemma fieldValue_status (rest : ByteString) :
    fieldValue (ascii "content-length") (ascii "HTTP/1.1 " ++ rest) = none := by
  have hname : ascii "content-length" = 99 :: ascii "ontent-length" := by decide
  have hline : ascii "HTTP/1.1 " ++ rest = 72 :: (ascii "TTP/1.1 " ++ rest) := rfl
  rw [hline, fieldValue, find, if_neg (by decide)]
  cases find 58 (ascii "TTP/1.1 " ++ rest) with
  | none => rfl
  | some n =>
      have hlower : toLowerByte 72 ≠ 99 := by decide
      simp [toLower, hname, hlower]

/-- Of the lines of the head, one has the content length. -/
lemma contentLength_headLines (statusCode : ℤ) (reason body contentType : ByteString) :
    (headLines statusCode reason body contentType).filterMap
        (fieldValue (ascii "content-length"))
      = [decimal body.length] := by
  have hlength : ascii "Content-Length: " ++ decimal body.length
      = ascii "Content-Length" ++ 58 :: 32 :: decimal body.length := rfl
  have htype : ascii "Content-Type: " ++ contentType
      = ascii "Content-Type" ++ 58 :: 32 :: contentType := rfl
  have hclose : fieldValue (ascii "content-length") (ascii "Connection: close") = none := by decide
  rw [headLines, hlength, htype]
  simp only [List.filterMap_cons, List.filterMap_nil, fieldValue_status, hclose]
  rw [fieldValue_line (by decide), fieldValue_line (by decide), if_pos (by decide),
    if_neg (by decide)]

/-! ## Reading what was written -/

section Framed

variable {statusCode : ℤ} {reason body contentType : ByteString}

lemma cr_notMem_headLines (hreason : OneLine reason) (hcontentType : OneLine contentType) :
    ∀ l ∈ headLines statusCode reason body contentType, cr ∉ l ∧ l ≠ [] := by
  have hversion : cr ∉ ascii "HTTP/1.1 " := by decide
  have hcode : cr ∉ signedDecimal statusCode := notMem_signedDecimal (by decide) statusCode
  have hspace : cr ≠ 32 := by decide
  have hlength : cr ∉ ascii "Content-Length: " := by decide
  have hnumber : cr ∉ decimal body.length := notMem_decimal (by decide) body.length
  have hclose : cr ∉ ascii "Connection: close" := by decide
  have htype : cr ∉ ascii "Content-Type: " := by decide
  have hnonempty : ascii "HTTP/1.1 " ≠ [] ∧ ascii "Content-Length: " ≠ [] ∧
      ascii "Connection: close" ≠ [] ∧ ascii "Content-Type: " ≠ [] := by
    decide
  intro l hl
  simp only [headLines, List.mem_cons, List.not_mem_nil, or_false] at hl
  rcases hl with rfl | rfl | rfl | rfl
  · simp [hversion, hcode, hspace, hreason.1]
  · simp [hlength, hnumber, hnonempty]
  · exact ⟨hclose, hnonempty.2.2.1⟩
  · simp [htype, hcontentType.1, hnonempty]

lemma cutAt_buildHttpResponse (hreason : OneLine reason) (hcontentType : OneLine contentType) :
    cutAt (crlf ++ crlf) (buildHttpResponse statusCode reason body contentType)
      = some (crlf.intercalate (headLines statusCode reason body contentType), body) := by
  rw [buildHttpResponse_eq]
  exact cutAt_intercalate body (by simp [headLines]) (cr_notMem_headLines hreason hcontentType)

lemma lines_headLines (hreason : OneLine reason) (hcontentType : OneLine contentType) :
    lines (crlf.intercalate (headLines statusCode reason body contentType))
      = headLines statusCode reason body contentType :=
  lines_intercalate (by simp [headLines])
    fun l hl => (cr_notMem_headLines hreason hcontentType l hl).1

end Framed

/-- **A client reads back what was written.**  The first empty line ends the head, and the body is
what follows it.  The head has one line with the content length, which is that of the body, and its
first line has the status code and the reason.  So different calls have different outputs. -/
theorem response_framed (statusCode : ℤ) (reason body contentType : ByteString)
    (hreason : OneLine reason) (hcontentType : OneLine contentType) :
    (∃ head, cutAt (crlf ++ crlf) (buildHttpResponse statusCode reason body contentType)
          = some (head, body) ∧
        (∃ value, (lines head).filterMap (fieldValue (ascii "content-length")) = [value] ∧
          decimalValue value = body.length) ∧
        (lines head).head?.bind decodeStatusLine = some (statusCode, reason)) ∧
      ∀ statusCode' reason' body' contentType', OneLine reason' → OneLine contentType' →
        buildHttpResponse statusCode reason body contentType
          = buildHttpResponse statusCode' reason' body' contentType' →
        statusCode = statusCode' ∧ reason = reason' ∧ body = body' ∧ contentType = contentType' := by
  constructor
  · refine ⟨_, cutAt_buildHttpResponse hreason hcontentType, ?_, ?_⟩
    · rw [lines_headLines hreason hcontentType]
      exact ⟨decimal body.length, contentLength_headLines statusCode reason body contentType,
        decimalValue_decimal body.length⟩
    · rw [lines_headLines hreason hcontentType]
      exact decodeStatusLine_status statusCode reason
  · intro statusCode' reason' body' contentType' hreason' hcontentType' h
    have hcut := congrArg (cutAt (crlf ++ crlf)) h
    rw [cutAt_buildHttpResponse hreason hcontentType,
      cutAt_buildHttpResponse hreason' hcontentType', Option.some.injEq, Prod.mk.injEq] at hcut
    have hlines := congrArg lines hcut.1
    rw [lines_headLines hreason hcontentType, lines_headLines hreason' hcontentType'] at hlines
    simp only [headLines, List.cons.injEq] at hlines
    obtain ⟨hstatus, _, _, htype, _⟩ := hlines
    have hdecoded := congrArg decodeStatusLine hstatus
    rw [decodeStatusLine_status, decodeStatusLine_status, Option.some.injEq,
      Prod.mk.injEq] at hdecoded
    exact ⟨hdecoded.1, hdecoded.2, hcut.2, List.append_cancel_left htype⟩

/-- A body that looks like another response is a body. -/
theorem response_framed_nested :
    ∃ head, cutAt (crlf ++ crlf) (buildHttpResponse 200 (ascii "OK")
        (ascii "\r\n\r\nHTTP/1.1 404 Not Found\r\n\r\n") (ascii "text/plain"))
      = some (head, ascii "\r\n\r\nHTTP/1.1 404 Not Found\r\n\r\n") := by
  obtain ⟨head, hcut, _⟩ := (response_framed 200 (ascii "OK")
    (ascii "\r\n\r\nHTTP/1.1 404 Not Found\r\n\r\n") (ascii "text/plain") (by decide)
    (by decide)).1
  exact ⟨head, hcut⟩

/-! ## The responses of the spine -/

/-- Whatever the spine answers, the reason and the content type are without line ends. -/
lemma dispatch_oneLine (w : Worker) (parseResult : ParseError) (ctx : RequestContext) :
    OneLine (w.dispatch parseResult ctx).reason ∧
      OneLine (w.dispatch parseResult ctx).contentType := by
  simp only [Worker.dispatch, Worker.routeResponse]
  split_ifs <;> dsimp only <;> decide

/-- **Every response that the spine makes** can be taken apart by its client. -/
theorem dispatch_framed (w : Worker) (parseResult : ParseError) (ctx : RequestContext) :
    ∃ head, cutAt (crlf ++ crlf) (w.dispatch parseResult ctx).payload
      = some (head, (w.dispatch parseResult ctx).body) := by
  obtain ⟨hreason, hcontentType⟩ := dispatch_oneLine w parseResult ctx
  rw [payload_eq]
  exact ⟨_, cutAt_buildHttpResponse hreason hcontentType⟩

end Netp2.Runtime
