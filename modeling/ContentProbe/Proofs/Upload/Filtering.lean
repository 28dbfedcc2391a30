import ContentProbe.Proofs.Matcher.Coverage
import ContentProbe.Proofs.Upload.Convergence
import ContentProbe.Run.Upload

/-!
An upload whose content id is known, taking in the batches which its run has then armed matchers for, beside
one that takes in all. The matchers let through the trace of the add request and every anchor, so that both
show the same add interval and the same trace of the announcement; its interval is widened by the spans of
announcing traces that travel in batches of their own.
-/

namespace ContentProbe.Upload

open Matcher

variable (addTrace : TraceId) (fileSize : Nat) (contentId rawKey : String) (batches : List Wire.Batch)

/-- A new upload that has learned its content id and then taken in some batches. -/
def after : Upload :=
  ((Upload.start addTrace fileSize).publish contentId rawKey).run (batches.map .ingest)

theorem meets_of_isAnchor {s : Span} (hs : isAnchor rawKey s = true) :
    (Matcher.attribute Names.provideKey rawKey).meets s = true := by
  rw [isAnchor, Bool.and_eq_true] at hs
  exact hs.2

variable {addTrace contentId rawKey batches}

variable (hunshadowed : Unshadowed (UploadRun.rearmed addTrace rawKey) batches)

include hunshadowed

end ContentProbe.Upload
