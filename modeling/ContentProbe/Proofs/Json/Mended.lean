import ContentProbe.Json.Mended
import ContentProbe.Proofs.Json.Reading
import ContentProbe.Proofs.Text.Utf8

/-!
Documents in bytes. Malformed stretches may stand in literals and nowhere else; the bytes of a text hold the document
that the text is, since there is no malformed stretch to be mended.
-/

namespace ContentProbe.Json

open ContentProbe.Text

/-- The bytes hold the document. -/
def HoldsDocument (bytes : List UInt8) (j : Json) : Prop :=
  ∃ text, mended? .between (utf8Symbols 0 bytes) = some text ∧ IsDocument text j

theorem readBytes?_eq_some_iff {bytes : List UInt8} {j : Json} : readBytes? bytes = some j ↔ HoldsDocument bytes j := by
  rw [readBytes?, Option.bind_eq_some_iff]
  exact exists_congr fun _ => and_congr_right fun _ => read?_eq_some_iff

end ContentProbe.Json
