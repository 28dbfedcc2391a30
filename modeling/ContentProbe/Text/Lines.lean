/-!
The lines of a text. A line ends with a line feed, or with a carriage return and a line feed, which do not belong
to it; what follows the last line feed is a line if it is not empty.
-/

namespace ContentProbe.Text

def withoutReturn (line : List Char) : List Char :=
  if line.getLast? = some '\r' then line.dropLast else line

def splitLines (cs : List Char) : List (List Char) :=
  let parts := cs.splitOn '\n'
  let last := parts.getLastD []
  parts.dropLast.map withoutReturn ++ if last.isEmpty then [] else [last]

end ContentProbe.Text
