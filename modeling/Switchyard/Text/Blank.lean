/-!
White space in the sense of the Unicode property, and what is cut at it.
-/
namespace Switchyard.Text

/-- The 25 characters of the property `White_Space`. -/
def isBlank (c : Char) : Bool :=
  let n := c.toNat
  (0x9 ≤ n && n ≤ 0xD) || n = 0x20 || n = 0x85 || n = 0xA0 || n = 0x1680 || (0x2000 ≤ n && n ≤ 0x200A) ||
    n = 0x2028 || n = 0x2029 || n = 0x202F || n = 0x205F || n = 0x3000

/-- Cuts what satisfies `p` from both ends. -/
def stripWhile (p : Char → Bool) (s : List Char) : List Char :=
  ((s.dropWhile p).reverse.dropWhile p).reverse

/-- Cuts what satisfies `p` from the end. -/
def stripEnd (p : Char → Bool) (s : List Char) : List Char :=
  (s.reverse.dropWhile p).reverse

def trim (s : String) : String := String.ofList (stripWhile isBlank s.toList)

/-- Reads on with `word`, reversed, as the word begun. -/
def wordsFrom (word : List Char) : List Char → List (List Char)
  | [] => if word.isEmpty then [] else [word.reverse]
  | c :: r =>
    if isBlank c then
      if word.isEmpty then wordsFrom [] r else word.reverse :: wordsFrom [] r
    else wordsFrom (c :: word) r

/-- The longest runs without a blank. -/
def words (s : String) : List String := (wordsFrom [] s.toList).map String.ofList

/-- Letters outside ASCII are left alone. -/
def lowerAscii (s : String) : String := String.ofList (s.toList.map Char.toLower)

end Switchyard.Text
