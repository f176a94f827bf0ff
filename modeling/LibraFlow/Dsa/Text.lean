import Mathlib.Data.List.Infix

/-! Text as the search structures see it. Lower-casing, white space and word
characters are those of Unicode in the source and are rules here; the tokenizer
follows the source's regular expression. -/

set_option autoImplicit false

namespace LibraFlow.Dsa

/-- What the language's strings and regular expressions know about characters. -/
structure TextRules where
  lower : String → String
  isSpace : Char → Bool
  isWord : Char → Bool

/-- The characters of the token class. -/
def tokenChar (char : Char) : Bool :=
  char.isAlphanum || char == '_' || char == '#' || char == '+' || char == '.' || char == '-'

def isSubstring (needle text : String) : Bool := decide (needle.toList <:+: text.toList)

def dropHyphens (text : String) : String := String.ofList (text.toList.filter (· ≠ '-'))

namespace TextRules

variable (rules : TextRules)

def strip (text : String) : String :=
  String.ofList (((text.toList.dropWhile rules.isSpace).reverse.dropWhile rules.isSpace).reverse)

/-- A word begins or ends between two neighbours. -/
def isBoundary (before after : Option Char) : Bool :=
  before.any rules.isWord != after.any rules.isWord

/-- The longest non-empty start of token characters that ends at a boundary. -/
def takeToken : List Char → Option (List Char)
  | [] => none
  | char :: rest =>
      if tokenChar char then
        match takeToken rest with
        | some token => some (char :: token)
        | none => if rules.isBoundary (some char) rest.head? then some [char] else none
      else none

/-- The tokens from left to right. The number counts the characters still covered
by the token found last. -/
def findTokens : Option Char → Nat → List Char → List String
  | _, _, [] => []
  | _, covered + 1, char :: rest => findTokens (some char) covered rest
  | previous, 0, char :: rest =>
      if rules.isBoundary previous (some char) then
        match rules.takeToken (char :: rest) with
        | some token => String.ofList token :: findTokens (some char) (token.length - 1) rest
        | none => findTokens (some char) 0 rest
      else findTokens (some char) 0 rest

def tokenize (text : String) : List String :=
  if text = "" then [] else rules.findTokens none 0 (rules.lower text).toList

end TextRules

/-- The rules on ASCII text. -/
def asciiRules : TextRules where
  lower text := String.ofList (text.toList.map Char.toLower)
  isSpace := Char.isWhitespace
  isWord char := char.isAlphanum || char == '_'

example : asciiRules.tokenize "C++ in Depth, 2nd-ed. (v1.2)" =
    ["c", "in", "depth", "2nd-ed", "v1.2"] := by decide +kernel

end LibraFlow.Dsa
