import RangeScript.Proofs.Reading
import RangeScript.Proofs.Relocation

/-!
# Reading moved tokens

`Moves f g p q` : where all tokens are moved by `f`, the parser `q` reads what `p` reads where they stood,
changed by `g`, and makes the same notes. A parser looks at kinds and texts of tokens only, so with
`g` moving what is read, every parser of the grammar moves to itself. Reading a program therefore commutes
with moving the tokens (`program_relocate`), also where it fails.
-/

namespace RangeScript.Parse

variable {α β γ δ : Type} {f : Position → Position}

/-- The same place among the moved tokens. -/
def Cursor.relocate (f : Position → Position) (c : Cursor) : Cursor :=
  ⟨c.index, c.rest.map (Token.relocate f)⟩

theorem Cursor.kind?_relocate (c : Cursor) : (c.relocate f).kind? = c.kind? := by
  obtain ⟨i, _ | ⟨t, rest⟩⟩ := c <;> rfl

theorem Cursor.secondKind?_relocate (c : Cursor) : (c.relocate f).secondKind? = c.secondKind? := by
  obtain ⟨i, _ | ⟨t, _ | ⟨u, rest⟩⟩⟩ := c <;> rfl

/-- On tokens moved by `f`, `q` reads what `p` reads on the tokens, changed by `g`, and notes the same. -/
def Moves (f : Position → Position) (g : α → β) (p : Parser α) (q : Parser β) : Prop :=
  ∀ c : Cursor, q (c.relocate f) = ⟨(p c).result.map (Prod.map g (Cursor.relocate f)), (p c).notes⟩

namespace Moves

variable {g : α → β} {h : γ → δ} {p p' : Parser α} {q q' : Parser β}

theorem of_none (hpq : Moves f g p q) {c : Cursor} {n : Notes} (hp : p c = ⟨none, n⟩) :
    q (c.relocate f) = ⟨none, n⟩ := by
  rw [hpq c, hp]
  rfl

theorem of_some (hpq : Moves f g p q) {c d : Cursor} {a : α} {n : Notes}
    (hp : p c = ⟨some (a, d), n⟩) : q (c.relocate f) = ⟨some (g a, d.relocate f), n⟩ := by
  rw [hpq c, hp]
  rfl

theorem pure (a : α) : Moves f g (pure a) (pure (g a)) := fun _ => rfl

theorem pure_of_eq {a : α} {b : β} (hab : g a = b) : Moves f g (Pure.pure a) (Pure.pure b) := by
  rw [← hab]
  exact pure a

theorem fail (x : Expectation) : Moves f g (Parser.fail x) (Parser.fail x) := fun _ => rfl

theorem bind {k : α → Parser γ} {k' : β → Parser δ} (hpq : Moves f g p q)
    (hk : ∀ a, Moves f h (k a) (k' (g a))) : Moves f h (p >>= k) (q >>= k') := by
  intro c
  rcases hp : p c with ⟨_ | ⟨a, d⟩, n⟩
  · rw [Parser.bind_of_none hp, Parser.bind_of_none (hpq.of_none hp)]
    rfl
  · rw [Parser.bind_of_some hp, Parser.bind_of_some (hpq.of_some hp), hk a d]

theorem orElse (hpq : Moves f g p q) (hpq' : Moves f g p' q') :
    Moves f g (Parser.orElse p p') (Parser.orElse q q') := by
  intro c
  rcases hp : p c with ⟨_ | ⟨a, d⟩, n⟩
  · rw [Parser.orElse_of_none hp, Parser.orElse_of_none (hpq.of_none hp), hpq' c]
  · rw [Parser.orElse_of_some hp, Parser.orElse_of_some (hpq.of_some hp)]
    rfl

theorem tokenWhere {wanted : Token → Bool} (hwanted : ∀ t, wanted (t.relocate f) = wanted t)
    (x : Expectation) :
    Moves f (Token.relocate f) (Parser.tokenWhere wanted x) (Parser.tokenWhere wanted x) := by
  rintro ⟨i, _ | ⟨t, rest⟩⟩
  · rfl
  · unfold Parser.tokenWhere Cursor.relocate
    rw [List.map_cons]
    simp only [hwanted t]
    split <;> rfl

theorem token (kind : Token.Kind) :
    Moves f (Token.relocate f) (Parser.token kind) (Parser.token kind) :=
  tokenWhere (fun _ => rfl) _

theorem nextKind {k k' : Option Token.Kind → Parser α} {g : α → α}
    (hk : ∀ kind, Moves f g (k kind) (k' kind)) :
    Moves f g (Parser.nextKind? >>= k) (Parser.nextKind? >>= k') := by
  intro c
  rw [Parser.bind_nextKind, Parser.bind_nextKind, c.kind?_relocate, hk]

theorem secondKind {k k' : Option Token.Kind → Parser α} {g : α → α}
    (hk : ∀ kind, Moves f g (k kind) (k' kind)) :
    Moves f g (Parser.secondKind? >>= k) (Parser.secondKind? >>= k') := by
  intro c
  rw [Parser.bind_secondKind, Parser.bind_secondKind, c.secondKind?_relocate, hk]

/-! ### Repetition -/

section Repetition
variable {g : α → α} {p : Parser α} (hp : Moves f g p p)
include hp

theorem more {r : Parser (List α)} (hr : Moves f (List.map g) r r) :
    Moves f (List.map g) (do let a ← p; let more ← r; return a :: more)
      (do let a ← p; let more ← r; return a :: more) :=
  hp.bind fun _ => hr.bind fun _ => pure _

theorem upTo (n : Nat) : Moves f (List.map g) (Parser.upTo p n) (Parser.upTo p n) := by
  induction n with
  | zero => exact pure _
  | succ n ih => exact (hp.more ih).orElse (pure _)

theorem many : Moves f (List.map g) (Parser.many p) (Parser.many p) := by
  intro c
  have hlength : (c.relocate f).rest.length = c.rest.length := List.length_map _
  unfold Parser.many
  rw [hlength, hp.upTo _ c]

theorem upToWhile (starts : Token.Kind → Bool) (n : Nat) :
    Moves f (List.map g) (Parser.upToWhile starts p n) (Parser.upToWhile starts p n) := by
  induction n with
  | zero => exact pure _
  | succ n ih =>
    refine nextKind fun kind => ?_
    rcases kind with _ | kind
    · exact pure _
    · dsimp only
      split
      · exact hp.more ih
      · exact pure _

theorem manyWhile (starts : Token.Kind → Bool) :
    Moves f (List.map g) (Parser.manyWhile starts p) (Parser.manyWhile starts p) := by
  intro c
  have hlength : (c.relocate f).rest.length = c.rest.length := List.length_map _
  unfold Parser.manyWhile
  rw [hlength, hp.upToWhile starts _ c]

end Repetition

end Moves

/-! ## Numbers, names and operators -/

theorem moves_sign : Moves f id sign sign := by
  refine Moves.nextKind fun kind => ?_
  rcases kind with _ | kind
  · exact .pure _
  · cases kind
    case minus | plus => exact (Moves.token _).bind fun _ => .pure _
    all_goals exact .pure _

theorem moves_number : Moves f (Expr.relocate f) number number := by
  refine moves_sign.bind fun minus => (Moves.tokenWhere (fun _ => rfl) _).bind fun t => ?_
  refine .pure_of_eq ?_
  rw [Token.kind_relocate]
  split <;> rfl

theorem moves_variableName : Moves f (Expr.relocate f) variableName variableName :=
  (Moves.token _).bind fun _ => .pure_of_eq rfl

theorem moves_operator (prec : Precedence) :
    Moves f (Lexeme.relocate f) (operator prec) (operator prec) :=
  (Moves.tokenWhere (fun _ => rfl) _).bind fun _ => .pure_of_eq rfl

/-! ## Parts that hold expressions -/

section Inside
variable {inner : Parser Expr} (hinner : Moves f (Expr.relocate f) inner inner)
include hinner

theorem moves_parenthesized : Moves f (Expr.relocate f) (parenthesized inner) (parenthesized inner) :=
  (Moves.token _).bind fun _ => hinner.bind fun _ => (Moves.token _).bind fun _ => .pure _

theorem moves_range : Moves f (Expr.relocate f) (range inner) (range inner) :=
  (Moves.token _).bind fun _ => hinner.bind fun _ => (Moves.token _).bind fun _ =>
    hinner.bind fun _ => (Moves.token _).bind fun _ => .pure_of_eq rfl

theorem moves_lambda : Moves f (Expr.relocate f) (lambda inner) (lambda inner) := by
  refine (Moves.token _).bind fun first => ((Moves.token _).manyWhile _).bind fun more => ?_
  refine (Moves.token _).bind fun _ => hinner.bind fun body => .pure_of_eq ?_
  rw [Expr.relocate, ← List.map_cons, List.map_map, List.map_map]
  rfl

theorem moves_arg : Moves f (Expr.relocate f) (arg inner) (arg inner) :=
  (moves_lambda hinner).orElse hinner

theorem moves_call : Moves f (Expr.relocate f) (call inner) (call inner) := by
  have hmore : Moves f (Expr.relocate f) (do let _ ← Parser.token .comma; arg inner)
      (do let _ ← Parser.token .comma; arg inner) :=
    (Moves.token _).bind fun _ => moves_arg hinner
  refine (Moves.token _).bind fun function => (Moves.token _).bind fun _ => ?_
  refine (moves_arg hinner).bind fun first => (hmore.manyWhile _).bind fun more => ?_
  refine (Moves.token _).bind fun _ => .pure_of_eq ?_
  rw [Expr.relocate, Expr.relocateAll_eq_map, List.map_cons]
  rfl

end Inside

/-! ## Atoms, expressions and programs -/

theorem moves_atomOver {inner : Option (Parser Expr)}
    (hinner : ∀ i ∈ inner, Moves f (Expr.relocate f) i i) :
    Moves f (Expr.relocate f) (atomOver inner) (atomOver inner) := by
  have hwithin : ∀ {part : Parser Expr → Parser Expr},
      (∀ {i : Parser Expr}, Moves f (Expr.relocate f) i i → Moves f (Expr.relocate f) (part i) (part i)) →
      Moves f (Expr.relocate f) (within inner part) (within inner part) := by
    intro part hpart
    cases inner with
    | none => exact .fail _
    | some i => exact hpart (hinner i rfl)
  refine Moves.nextKind fun kind => ?_
  rcases kind with _ | kind
  · exact .fail _
  · cases kind
    case name =>
      refine Moves.secondKind fun second => ?_
      split
      · exact (hwithin moves_call).orElse moves_variableName
      · exact moves_variableName
    case plus | minus | int | real => exact moves_number
    case leftParen => exact hwithin moves_parenthesized
    case leftBrace => exact hwithin moves_range
    all_goals exact .fail _

theorem moves_exprOver (prec : Precedence) {atom : Parser Expr}
    (hatom : Moves f (Expr.relocate f) atom atom) :
    Moves f (Expr.relocate f) (exprOver prec atom) (exprOver prec atom) := by
  have hitem : Moves f (relocatePair f) (do let op ← operator prec; let term ← atom; return (op, term))
      (do let op ← operator prec; let term ← atom; return (op, term)) :=
    (moves_operator prec).bind fun _ => hatom.bind fun _ => .pure_of_eq rfl
  refine hatom.bind fun first => hitem.many.bind fun rest => ?_
  rw [prec.foldChain_relocate]
  rcases prec.foldChain first rest with e | e
  · exact .fail _
  · exact .pure _

theorem moves_atom (prec : Precedence) (room : Nat) :
    Moves f (Expr.relocate f) (atom prec room) (atom prec room) := by
  induction room with
  | zero =>
    refine moves_atomOver fun i hi => ?_
    cases hi
  | succ room ih =>
    refine moves_atomOver fun i hi => ?_
    cases hi
    exact moves_exprOver prec ih

theorem moves_expr (prec : Precedence) : Moves f (Expr.relocate f) (expr prec) (expr prec) :=
  moves_exprOver prec (moves_atom prec maxNesting)

theorem moves_statement (prec : Precedence) :
    Moves f (Stmt.relocate f) (statement prec) (statement prec) := by
  refine Moves.nextKind fun kind => ?_
  rcases kind with _ | kind
  · exact .fail _
  · cases kind
    case var =>
      exact (Moves.token _).bind fun _ => (Moves.token _).bind fun _ => (Moves.token _).bind fun _ =>
        (moves_expr prec).bind fun _ => .pure_of_eq rfl
    case out => exact (Moves.token _).bind fun _ => (moves_expr prec).bind fun _ => .pure_of_eq rfl
    case print => exact (Moves.token _).bind fun _ => (Moves.token _).bind fun _ => .pure_of_eq rfl
    all_goals exact .fail _

/-- The error with its token moved. -/
def ParseError.relocate (f : Position → Position) (e : ParseError) : ParseError :=
  { e with found := e.found.map (Token.relocate f), pos := f e.pos }

theorem Notes.error_relocate (n : Notes) (s : Token.Stream) :
    n.error (s.relocate f) = (n.error s).relocate f := by
  unfold Notes.error ParseError.relocate Token.Stream.relocate
  simp only [List.getElem?_map]
  cases s.tokens[n.index]? <;> rfl

theorem run_relocate {g : α → α} {p : Parser α} (hp : Moves f g p p) (s : Token.Stream) :
    run p (s.relocate f) = ((run p s).mapError (ParseError.relocate f)).map g := by
  have hstart : (⟨0, s.tokens⟩ : Cursor).relocate f = ⟨0, (s.relocate f).tokens⟩ := rfl
  rcases hrun : p ⟨0, s.tokens⟩ with ⟨_ | ⟨a, d⟩, n⟩
  · have hmoved := hp.of_none hrun
    rw [hstart] at hmoved
    unfold run
    rw [hrun, hmoved]
    exact congrArg Except.error (n.error_relocate s)
  · have hmoved := hp.of_some hrun
    rw [hstart] at hmoved
    unfold run
    rw [hrun, hmoved]
    rfl

/-- The tokens of a moved stream are read as the moved program, or fail with the moved error. -/
theorem program_relocate (f : Position → Position) (prec : Precedence) (s : Token.Stream) :
    program prec (s.relocate f) =
      ((program prec s).mapError (ParseError.relocate f)).map (Program.relocate f) :=
  run_relocate ((moves_statement prec).manyWhile _) s

end RangeScript.Parse
