/-!
# Cutting text

A text is cut at the first place where a character stands, at all of them, after the last of
them, or after the first occurrence of a marker.
-/
namespace Routebook.Text

/-- What stands before the first `c`, and what stands after it if there is one. -/
def cutAt (c : Char) : List Char → List Char × Option (List Char)
  | [] => ([], none)
  | d :: rest =>
    if d = c then ([], some rest)
    else
      let (before, after) := cutAt c rest
      (d :: before, after)

/-- The stretches between the places where `c` stands; never empty. -/
def splitAt (c : Char) : List Char → List (List Char)
  | [] => [[]]
  | d :: rest =>
    if d = c then [] :: splitAt c rest
    else match splitAt c rest with
      | [] => [[d]]
      | first :: more => (d :: first) :: more

/-- What stands after the last `c`; the whole text if there is none. -/
def afterLast (c : Char) (text : List Char) : List Char :=
  (text.reverse.takeWhile (· ≠ c)).reverse

/-- What stands after the first occurrence of a marker. -/
def afterMarker? (marker : List Char) : List Char → Option (List Char)
  | [] => if marker.isEmpty then some [] else none
  | c :: rest =>
    if marker.isPrefixOf (c :: rest) then some ((c :: rest).drop marker.length)
    else afterMarker? marker rest

def dropLeading (lead text : List Char) : List Char :=
  if lead.isPrefixOf text then text.drop lead.length else text

def dropTrailing (tail text : List Char) : List Char :=
  if tail.isSuffixOf text then text.take (text.length - tail.length) else text

end Routebook.Text
