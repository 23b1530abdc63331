import ChaseProse.Text.Split
/-! Blank characters (the Unicode White_Space property) and the trimming and word splitting
that the trace format and the sentences rest on. -/
namespace ChaseProse.Text

/-- The code points of the Unicode White_Space property: tab to carriage return, space,
next line, no-break space, ogham space, the spaces of General Punctuation and the ideographic
space. -/
def isBlank (c : Char) : Bool :=
  let n := c.toNat
  (0x09 ≤ n && n ≤ 0x0D) || n == 0x20 || n == 0x85 || n == 0xA0 || n == 0x1680 ||
    (0x2000 ≤ n && n ≤ 0x200A) || n == 0x2028 || n == 0x2029 || n == 0x202F ||
    n == 0x205F || n == 0x3000

/-- Drops leading blanks. -/
def dropBlanks (cs : List Char) : List Char := cs.dropWhile isBlank

/-- Drops leading and trailing blanks. -/
def trimList (cs : List Char) : List Char := (dropBlanks (dropBlanks cs).reverse).reverse

def trimStart (s : String) : String := String.ofList (dropBlanks s.toList)

def trim (s : String) : String := String.ofList (trimList s.toList)

@[simp] theorem toList_trim (s : String) : (trim s).toList = trimList s.toList := by
  simp [trim, String.toList_ofList]

/-- Maximal runs of non-blank characters, in order. -/
def words (s : String) : List String :=
  ((splitWhen isBlank s.toList).filter (fun w => !w.isEmpty)).map String.ofList

/-- Words joined by single spaces: runs of blanks collapse and the ends lose theirs. -/
def collapseBlanks (s : String) : String := " ".intercalate (words s)

end ChaseProse.Text
