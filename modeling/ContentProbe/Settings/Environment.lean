import ContentProbe.Text.Blank
import ContentProbe.Text.Digits
import ContentProbe.Time.Elapsed

/-!
Reading environment variables. What does not parse counts as unset.
-/

namespace ContentProbe

open ContentProbe.Text ContentProbe.Time

/-- The values of the variables that are set. -/
structure Environment where
  values : List (String × String)
  deriving DecidableEq, Repr

namespace Environment

def get? (e : Environment) (name : String) : Option String := e.values.lookup name

/-- A number below `bound`, blanks around it apart. -/
def nat? (e : Environment) (bound : Nat) (name : String) : Option Nat :=
  (e.get? name).bind fun value => readNat? bound (trim value.toList)

def word? (e : Environment) (name : String) : Option Nat := e.nat? (Nat.pow 2 64) name

/-- A length of time that is told in milliseconds, in nanoseconds. -/
def milliseconds? (e : Environment) (name : String) : Option Nat := (e.word? name).map (· * millisecond)

/-- A value that is not blank, as it is. -/
def verbatim? (e : Environment) (name : String) : Option String :=
  (e.get? name).filter (!isAllBlank ·)

/-- A value that is not blank, without the blanks around it. -/
def text? (e : Environment) (name : String) : Option String :=
  ((e.get? name).map trimmed).filter (!·.isEmpty)

/-- A truth value, in either case of its letters. -/
def flag? (e : Environment) (name : String) : Option Bool :=
  match (e.text? name).map fun value => value.map Char.toLower with
  | some value =>
      if ["1", "true", "yes", "on"].contains value then some true
      else if ["0", "false", "no", "off"].contains value then some false
      else none
  | none => none

end Environment

end ContentProbe
