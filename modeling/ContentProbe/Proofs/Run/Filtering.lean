import ContentProbe.Proofs.Download.Filtering
import ContentProbe.Proofs.Upload.Filtering

/-!
A run sees matched batches only, and its matchers look at single reports. They let through whatever anchors a
trace, so that the same traces are tracked as if all batches were seen. Of those traces, spans are missed that
travel in a batch of their own: the way of discovery and the interval of an announcement may depend on them,
and this is how.
-/

namespace ContentProbe

open Matcher

section Torn

end Torn

end ContentProbe
