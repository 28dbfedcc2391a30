import ContentProbe.Proofs.Download.Convergence
import ContentProbe.Proofs.Matcher.Coverage
import ContentProbe.Run.Download

/-!
A download that takes in the batches which its run has armed matchers for, beside one that takes in all. The
matchers let through the trace of the request, every anchor and every query to an index, so that both track
the same traces and read the same off them, but for spans of search traces that travel in batches of their
own; of those only early queries to the routing table show, in the way of discovery.
-/

namespace ContentProbe.Download

open Matcher

variable (contentId : String) (catTrace : TraceId) (start : Nat) (batches : List Wire.Batch)

/-- A new download that has taken in some batches. -/
def after : Download := (Download.ofContent contentId catTrace start).run (batches.map .ingest)

theorem meets_of_isAnchor {s : Span} (hs : isAnchor contentId s = true) :
    (Matcher.name Names.findProviders).meets s = true := by
  rw [isAnchor, Bool.and_eq_true] at hs
  exact hs.1

variable {contentId catTrace batches}

variable (hunshadowed : Unshadowed (DownloadRun.armed catTrace) batches)

include hunshadowed

end ContentProbe.Download
