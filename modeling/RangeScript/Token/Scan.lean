import RangeScript.Token.Rule

/-!
# From a source text to its tokens

`scan` cuts a text into pieces by the rules for tokens, keeps the pieces that are tokens together
with their positions, and stops at the first character where no rule applies.
-/

namespace RangeScript.Token

/-- A character at which no token starts. -/
structure ScanError where
  char : Char
  pos : Position
deriving DecidableEq, Repr

/-- The token that a piece at `pos` is, if it is one. -/
def Piece.token? (p : Piece) (pos : Position) : Option Token :=
  p.kind.map fun kind => ⟨kind, String.ofList p.chars, pos⟩

/-- The stream with one more piece in front. -/
def Stream.precede (p : Piece) (pos : Position) (s : Stream) : Stream :=
  { s with tokens := (p.token? pos).toList ++ s.tokens }

/-- The tokens of `cs`, which starts at `pos`. Every piece is at least one character long, so as
many steps suffice as there are characters. -/
def scanFrom : Nat → Position → List Char → Except ScanError Stream
  | 0, pos, _ => .ok ⟨[], pos⟩
  | _, pos, [] => .ok ⟨[], pos⟩
  | steps + 1, pos, c :: cs =>
    match firstPiece? Rule.all (c :: cs) with
    | none => .error ⟨c, pos⟩
    | some piece =>
      (scanFrom steps (pos.after piece.chars) ((c :: cs).drop piece.chars.length)).map
        (Stream.precede piece pos)

/-- The tokens of a source text. -/
def scan (source : String) : Except ScanError Stream :=
  scanFrom source.toList.length Position.start source.toList

end RangeScript.Token
