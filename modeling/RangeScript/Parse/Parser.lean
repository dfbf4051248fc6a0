import RangeScript.Parse.Notes

/-!
# Parsers

A parser reads from a place in a list of tokens. It may fail, and it notes what it expected whether
it fails or not. Since the notes are only collected, what a parser reads never depends on them.
-/

namespace RangeScript.Parse

/-- A place in a list of tokens: how many are before it, and those from there on. -/
structure Cursor where
  index : Nat
  rest : List Token
deriving DecidableEq, Repr

/-- The kind of the next token. -/
def Cursor.kind? (c : Cursor) : Option Token.Kind := c.rest.head?.map (·.kind)

/-- The kind of the token after the next. -/
def Cursor.secondKind? (c : Cursor) : Option Token.Kind := c.rest.tail.head?.map (·.kind)

/-- What became of an attempt to read something. -/
structure Attempt (α : Type) where
  result : Option (α × Cursor)
  notes : Notes

/-- A way to read an `α`. -/
def Parser (α : Type) := Cursor → Attempt α

namespace Parser

variable {α β : Type}

instance : Monad Parser where
  pure a := fun c => ⟨some (a, c), .none⟩
  bind p f := fun c =>
    let first := p c
    match first.result with
    | none => ⟨none, first.notes⟩
    | some (a, c) =>
      let second := f a c
      ⟨second.result, first.notes.join second.notes⟩

theorem bind_of_none {p : Parser α} {c : Cursor} {n : Notes} (h : p c = ⟨none, n⟩)
    (f : α → Parser β) : (p >>= f) c = ⟨none, n⟩ := by
  simp only [bind, h]

theorem bind_of_some {p : Parser α} {c d : Cursor} {n : Notes} {a : α}
    (h : p c = ⟨some (a, d), n⟩) (f : α → Parser β) :
    (p >>= f) c = ⟨(f a d).result, n.join (f a d).notes⟩ := by
  simp only [bind, h]

instance : LawfulMonad Parser := LawfulMonad.mk' _
  (fun p => by
    funext c
    change (p >>= fun a => pure (id a)) c = p c
    rcases h : p c with ⟨_ | ⟨a, d⟩, n⟩
    · exact bind_of_none h _
    · rw [bind_of_some h]
      simp [pure])
  (fun a f => by
    funext c
    simp [bind, pure])
  (fun p f g => by
    funext c
    rcases h : p c with ⟨_ | ⟨a, d⟩, n⟩
    · rw [bind_of_none (bind_of_none h f) g, bind_of_none h]
    · rw [bind_of_some h fun a => f a >>= g]
      rcases h' : f a d with ⟨_ | ⟨b, e⟩, m⟩
      · rw [bind_of_none h', bind_of_none (by rw [bind_of_some h, h'])]
      · rw [bind_of_some h', bind_of_some (by rw [bind_of_some h, h']), Notes.join_assoc])

/-- Fails, since something else was expected here. -/
def fail (what : Expectation) : Parser α := fun c => ⟨none, ⟨c.index, [what]⟩⟩

/-- What `p` reads, or else what `q` reads from the same place. -/
def orElse (p q : Parser α) : Parser α := fun c =>
  let first := p c
  match first.result with
  | some r => ⟨some r, first.notes⟩
  | none =>
    let second := q c
    ⟨second.result, first.notes.join second.notes⟩

/-- The next token if it is one of those wanted. -/
def tokenWhere (wanted : Token → Bool) (what : Expectation) : Parser Token := fun c =>
  match c.rest with
  | t :: rest =>
    if wanted t then ⟨some (t, ⟨c.index + 1, rest⟩), .none⟩ else ⟨none, ⟨c.index, [what]⟩⟩
  | [] => ⟨none, ⟨c.index, [what]⟩⟩

/-- The next token if it is of the given kind. -/
def token (kind : Token.Kind) : Parser Token := tokenWhere (·.kind == kind) (.token kind)

/-- The kind of the next token, which is not consumed. -/
def nextKind? : Parser (Option Token.Kind) := fun c => ⟨some (c.kind?, c), .none⟩

/-- The kind of the token after the next; nothing is consumed. -/
def secondKind? : Parser (Option Token.Kind) := fun c => ⟨some (c.secondKind?, c), .none⟩

/-- Nothing, at the end of the input. -/
def atEnd : Parser Unit := fun c =>
  if c.rest.isEmpty then ⟨some ((), c), .none⟩ else ⟨none, ⟨c.index, [.endOfInput]⟩⟩

/-- Reads `p` up to `n` times, until it fails. -/
def upTo (p : Parser α) : Nat → Parser (List α)
  | 0 => pure []
  | n + 1 => orElse (do let a ← p; let more ← upTo p n; return a :: more) (pure [])

/-- Reads `p` until it fails. Where each reading consumes a token, one reading more than there are
tokens is sure to fail. -/
def many (p : Parser α) : Parser (List α) := fun c => upTo p (c.rest.length + 1) c

/-- Reads `p` up to `n` times, as long as the next token is of a kind that starts one more. -/
def upToWhile (starts : Token.Kind → Bool) (p : Parser α) : Nat → Parser (List α)
  | 0 => pure []
  | n + 1 => do
    match ← nextKind? with
    | some kind =>
      if starts kind then
        let a ← p
        let more ← upToWhile starts p n
        return a :: more
      else return []
    | none => return []

/-- Reads `p` as long as the next token is of a kind that starts one more. Where each reading
consumes a token, there are no more of them than tokens. -/
def manyWhile (starts : Token.Kind → Bool) (p : Parser α) : Parser (List α) := fun c =>
  upToWhile starts p c.rest.length c

end Parser

end RangeScript.Parse
