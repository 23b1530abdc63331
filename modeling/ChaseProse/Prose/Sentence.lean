import ChaseProse.Text.Blank
import ChaseProse.Text.Upper
/-! Finishing a sentence: blanks collapse to single spaces, the first character is upper-cased
(possibly into several), and a period ends it unless one already does. -/
namespace ChaseProse.Prose

def finishSentence (text : String) : String :=
  let s := Text.capitalize (Text.collapseBlanks text)
  if s.toList.getLast? == some '.' then s else s ++ "."

end ChaseProse.Prose
