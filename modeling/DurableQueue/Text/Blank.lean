/-! White space, in the sense of the Unicode property `White_Space`: which characters it holds, how a text is
    trimmed of it, and how many words it separates. -/

namespace DurableQueue
namespace Text

/-- The characters with the property `White_Space`. -/
def isBlank (c : Char) : Bool :=
  let n := c.toNat
  (0x09 ≤ n && n ≤ 0x0D) || n == 0x20 || n == 0x85 || n == 0xA0 || n == 0x1680 || (0x2000 ≤ n && n ≤ 0x200A) ||
    n == 0x2028 || n == 0x2029 || n == 0x202F || n == 0x205F || n == 0x3000

/-- A text without the white space it begins with. -/
def dropBlanks (cs : List Char) : List Char := cs.dropWhile isBlank

/-- A text without the white space at its two ends. -/
def trimChars (cs : List Char) : List Char := (dropBlanks (dropBlanks cs).reverse).reverse

/-- A text without the white space at its two ends. -/
def trim (s : String) : String := String.ofList (trimChars s.toList)

/-- Whether a text has nothing but white space. -/
def allBlank (s : String) : Bool := s.toList.all isBlank

/-- The number of words that begin in `cs`, where `inside` says whether a word is already under way. -/
def wordsFrom : Bool → List Char → Nat
  | _, [] => 0
  | inside, c :: cs =>
    if isBlank c then wordsFrom false cs
    else if inside then wordsFrom true cs
    else wordsFrom true cs + 1

/-- The number of words of a text: the longest runs without white space. -/
def wordCount (s : String) : Nat := wordsFrom false s.toList

end Text
end DurableQueue
