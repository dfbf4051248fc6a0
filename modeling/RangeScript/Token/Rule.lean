import RangeScript.Charset.Blank
import RangeScript.Charset.Word
import RangeScript.Token.Basic

/-!
# Rules for tokens

A pattern takes a stretch off the front of the source, or nothing if it does not apply
(`Pattern.taken`). The rules pair patterns with the kinds of tokens they make, or with no kind for
what only separates tokens. They are tried in the order of `Rule.all`, and the first that takes
something wins: a keyword comes before a name, an arrow before a minus sign, a real number before a
whole one.
-/

namespace RangeScript.Token

/-- The shapes of tokens. -/
inductive Pattern
  /-- a fixed word that no word character follows -/
  | keyword (word : List Char)
  /-- fixed characters -/
  | exactly (chars : List Char)
  /-- a run of blank characters -/
  | blanks
  /-- a letter or underscore and the word characters after it -/
  | name
  /-- a digit, digits and underscores, a point, digits and underscores -/
  | real
  /-- a digit, digits and underscores -/
  | int
  /-- double quotes around characters other than double quotes -/
  | string
deriving DecidableEq, Repr

/-- Digits and the underscores that may stand between them. -/
def isDigitOrUnderscore (c : Char) : Bool := Charset.isDigit c || c == '_'

/-- The digits and underscores at the front, if a digit comes first. -/
def takenDigits : List Char → List Char
  | [] => []
  | c :: cs => if Charset.isDigit c then c :: cs.takeWhile isDigitOrUnderscore else []

/-- Whether a word character comes first. -/
def startsWithWord : List Char → Bool
  | [] => false
  | c :: _ => Charset.isWord c

/-- What the pattern takes off the front of `cs`; nothing if it does not apply. -/
def Pattern.taken (p : Pattern) (cs : List Char) : List Char :=
  match p with
  | .keyword word =>
    if word.isPrefixOf cs && !startsWithWord (cs.drop word.length) then word else []
  | .exactly chars => if chars.isPrefixOf cs then chars else []
  | .blanks => cs.takeWhile Charset.isBlank
  | .name =>
    match cs with
    | [] => []
    | c :: rest => if Charset.isNameStart c then c :: rest.takeWhile Charset.isWord else []
  | .real =>
    let whole := takenDigits cs
    match whole, cs.drop whole.length with
    | _ :: _, '.' :: rest => whole ++ '.' :: rest.takeWhile isDigitOrUnderscore
    | _, _ => []
  | .int => takenDigits cs
  | .string =>
    match cs with
    | '"' :: rest =>
      let body := rest.takeWhile (· != '"')
      match rest.drop body.length with
      | '"' :: _ => '"' :: body ++ ['"']
      | _ => []
    | _ => []

/-- A pattern and the kind of token it makes; with no kind, what it takes is skipped. -/
structure Rule where
  kind : Option Kind
  pattern : Pattern
deriving DecidableEq, Repr

/-- The rules, in the order in which they are tried. -/
def Rule.all : List Rule :=
  [⟨some .var, .keyword ['v', 'a', 'r']⟩,
   ⟨some .out, .keyword ['o', 'u', 't']⟩,
   ⟨some .print, .keyword ['p', 'r', 'i', 'n', 't']⟩,
   ⟨some .assign, .exactly ['=']⟩,
   ⟨some .leftParen, .exactly ['(']⟩,
   ⟨some .rightParen, .exactly [')']⟩,
   ⟨some .leftBrace, .exactly ['\x7b']⟩,
   ⟨some .rightBrace, .exactly ['\x7d']⟩,
   ⟨some .comma, .exactly [',']⟩,
   ⟨some .arrow, .exactly ['-', '>']⟩,
   ⟨some .plus, .exactly ['+']⟩,
   ⟨some .minus, .exactly ['-']⟩,
   ⟨some .star, .exactly ['*']⟩,
   ⟨some .slash, .exactly ['/']⟩,
   ⟨some .caret, .exactly ['^']⟩,
   ⟨none, .blanks⟩,
   ⟨some .name, .name⟩,
   ⟨some .real, .real⟩,
   ⟨some .int, .int⟩,
   ⟨some .string, .string⟩]

/-- A stretch of source that a rule took. -/
structure Piece where
  kind : Option Kind
  chars : List Char
deriving DecidableEq, Repr

/-- What the first rule that applies takes off the front of `cs`. -/
def firstPiece? (rules : List Rule) (cs : List Char) : Option Piece :=
  rules.findSome? fun r =>
    match r.pattern.taken cs with
    | [] => none
    | taken => some ⟨r.kind, taken⟩

end RangeScript.Token
