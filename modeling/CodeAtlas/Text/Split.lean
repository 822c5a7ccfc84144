/-! Cutting a text into pieces: at separators, into words and into lines. Words stand between blanks,
a class of characters. -/
namespace CodeAtlas.Text

/-! ### Classes of characters -/

/-- A class of characters: ascending, disjoint ranges of code points, both ends included. -/
abbrev CharClass := List (Nat × Nat)

/-- Whether a code point lies in one of the ranges. The ranges ascend, so the search stops at the
first range that starts above the code point. -/
def CharClass.has : CharClass → Nat → Bool
  | [], _ => false
  | (lo, hi) :: rest, n => if n < lo then false else n ≤ hi || CharClass.has rest n

/-! ### Blanks -/

/-- Code points with the White_Space property. -/
def whiteSpace : CharClass :=
  [(0x9, 0xd), (0x20, 0x20), (0x85, 0x85), (0xa0, 0xa0), (0x1680, 0x1680), (0x2000, 0x200a),
   (0x2028, 0x2029), (0x202f, 0x202f), (0x205f, 0x205f), (0x3000, 0x3000)]

def isBlank (c : Char) : Bool := whiteSpace.has c.toNat

def trimStart (cs : List Char) : List Char := cs.dropWhile isBlank

def trimEnd (cs : List Char) : List Char := (cs.reverse.dropWhile isBlank).reverse

def trim (cs : List Char) : List Char := trimEnd (trimStart cs)

/-! ### Pieces -/

/-- The pieces between the characters that satisfy `p`, which are dropped. There is one piece more
than there are such characters, so the empty text has one empty piece. -/
def splitWhere (p : Char → Bool) : List Char → List (List Char)
  | [] => [[]]
  | c :: cs =>
    match splitWhere p cs with
    | [] => [[c]]
    | piece :: pieces => if p c then [] :: piece :: pieces else (c :: piece) :: pieces

def splitOn (sep : Char) (s : String) : List String :=
  (splitWhere (· == sep) s.toList).map String.ofList

/-- The maximal runs of characters that are not blank. -/
def words (s : String) : List String :=
  ((splitWhere isBlank s.toList).filter (· ≠ [])).map String.ofList

def firstWord? (s : String) : Option String := (words s).head?

/-- Drops one character from the end if it is `c`. -/
def dropLast? (c : Char) (cs : List Char) : List Char :=
  if cs.getLast? = some c then cs.dropLast else cs

/-- The lines of a text. A line feed ends a line, together with one carriage return right before
it; what follows the last line feed is a line only if it is not empty. -/
def lines (cs : List Char) : List (List Char) :=
  let pieces := splitWhere (· == '\n') cs
  let ended := pieces.dropLast.map (dropLast? '\r')
  match pieces.getLast? with
  | none | some [] => ended
  | some rest => ended ++ [rest]

/-- The rest of a text after a given start. -/
def afterStart? : (start cs : List Char) → Option (List Char)
  | [], cs => some cs
  | _ :: _, [] => none
  | a :: start, c :: cs => if a = c then afterStart? start cs else none

/-- The texts before and after the last occurrence of a character. -/
def splitLast? (sep : Char) (s : String) : Option (String × String) :=
  let tail := s.toList.reverse.takeWhile (· != sep)
  match s.toList.reverse.dropWhile (· != sep) with
  | [] => none
  | _ :: head => some (String.ofList head.reverse, String.ofList tail.reverse)

def startsWith (s start : String) : Bool := start.toList.isPrefixOf s.toList

/-- Whether some part of a text is another one. -/
def includes (part : List Char) : List Char → Bool
  | [] => part.isEmpty
  | c :: cs => part.isPrefixOf (c :: cs) || includes part cs

end CodeAtlas.Text
