import Netp2.Library.Exposition
import Netp2.Observability.Aggregation

/-!
# What a scraper reads

`render_prometheus` writes the seven totals in the text exposition format, in five families.
`scrape_renderPrometheus` says that a scraper reads back exactly these: each of the seven samples
under its own name, with the total as its value.
-/

namespace Netp2.Observability

open ByteString Exposition

/-- The counters in the order in which they are rendered. -/
def counters : List Counter :=
  [.accepts, .requests, .responses2xx, .responses4xx, .responses5xx, .bytesIn, .bytesOut]

/-- The name of a sample, with its label. -/
def Counter.sampleName : Counter → ByteString
  | .accepts => ascii "netp2_accepts_total"
  | .requests => ascii "netp2_requests_total"
  | .responses2xx => ascii "netp2_responses_total\x7bcode=\"2xx\"\x7d"
  | .responses4xx => ascii "netp2_responses_total\x7bcode=\"4xx\"\x7d"
  | .responses5xx => ascii "netp2_responses_total\x7bcode=\"5xx\"\x7d"
  | .bytesIn => ascii "netp2_bytes_in_total"
  | .bytesOut => ascii "netp2_bytes_out_total"

lemma mem_counters (c : Counter) : c ∈ counters := by
  cases c <;> decide

/-- The families of `render_prometheus`, for any totals. -/
def families (totals : Counter → UInt64) : List Family :=
  [⟨ascii "netp2_accepts_total", ascii "Total accepted TCP connections.",
      [([], (totals .accepts).toNat)]⟩,
    ⟨ascii "netp2_requests_total", ascii "Total handled HTTP requests.",
      [([], (totals .requests).toNat)]⟩,
    ⟨ascii "netp2_responses_total", ascii "Total HTTP responses by status class.",
      [(ascii "\x7bcode=\"2xx\"\x7d", (totals .responses2xx).toNat),
        (ascii "\x7bcode=\"4xx\"\x7d", (totals .responses4xx).toNat),
        (ascii "\x7bcode=\"5xx\"\x7d", (totals .responses5xx).toNat)]⟩,
    ⟨ascii "netp2_bytes_in_total", ascii "Total request bytes read.",
      [([], (totals .bytesIn).toNat)]⟩,
    ⟨ascii "netp2_bytes_out_total", ascii "Total response bytes written.",
      [([], (totals .bytesOut).toNat)]⟩]

lemma wellFormed_families (totals : Counter → UInt64) : ∀ f ∈ families totals, f.WellFormed := by
  intro f hf
  simp only [families, List.mem_cons, List.not_mem_nil, or_false] at hf
  rcases hf with rfl | rfl | rfl | rfl | rfl
  · show Printable (ascii "netp2_accepts_total") (ascii "Total accepted TCP connections.") [[]]
    decide
  · show Printable (ascii "netp2_requests_total") (ascii "Total handled HTTP requests.") [[]]
    decide
  · show Printable (ascii "netp2_responses_total") (ascii "Total HTTP responses by status class.")
      [ascii "\x7bcode=\"2xx\"\x7d", ascii "\x7bcode=\"4xx\"\x7d", ascii "\x7bcode=\"5xx\"\x7d"]
    decide
  · show Printable (ascii "netp2_bytes_in_total") (ascii "Total request bytes read.") [[]]
    decide
  · show Printable (ascii "netp2_bytes_out_total") (ascii "Total response bytes written.") [[]]
    decide

/-- What a scraper reads of these totals. -/
def samplesOf (totals : Counter → UInt64) : List (ByteString × ℕ) :=
  counters.map fun c => (c.sampleName, (totals c).toNat)

/-- **A scraper reads the totals.** -/
theorem scrape_families (totals : Counter → UInt64) :
    scrape (render (families totals)) = samplesOf totals := by
  rw [scrape_render (wellFormed_families totals)]
  rfl

namespace MetricsRegistry

/-- A counter is rendered as a family. -/
lemma renderCounter_eq (name help : ByteString) (samples : List (ByteString × UInt64)) :
    renderCounter name help samples
      = render [⟨name, help, samples.map fun s => (s.1, s.2.toNat)⟩] := by
  have hend : ascii "\n" = [newline] := by decide
  have hspace : ascii " " = [space] := by decide
  have hcounter : ascii " counter\n" = ascii " counter" ++ [newline] := by decide
  simp [renderCounter, render, Family.lines, sampleLine, hend, hspace, hcounter,
    List.flatMap_map]

lemma render_append (fs gs : List Family) : render (fs ++ gs) = render fs ++ render gs := by
  simp [render]

/-- **The text is the rendering of the families.** -/
lemma renderPrometheus_eq (r : MetricsRegistry) :
    r.renderPrometheus = render (families fun c => r.total c.get) := by
  simp only [renderPrometheus, renderCounter_eq, ← render_append, List.map_cons, List.map_nil]
  rfl

lemma scrape_renderPrometheus (r : MetricsRegistry) :
    scrape r.renderPrometheus = samplesOf fun c => r.total c.get := by
  rw [renderPrometheus_eq, scrape_families]

end MetricsRegistry

end Netp2.Observability
