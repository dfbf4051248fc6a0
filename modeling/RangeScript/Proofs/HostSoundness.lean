import RangeScript.Proofs.ClosureSoundness
import RangeScript.Proofs.History

/-!
# Submissions with lambdas anywhere

A host may build programs that cannot be written, with lambdas bound to names, returned by lambdas and
collected in sequences. As long as they are steady, a session keeps values that inhabit the declared types
(`Session.Inhabited`), and a program that passes its check ends well or at a limit of numbers and ranges
(`run_sound_of_steady`).

Steadiness cannot be left out. A reduction that starts with a sequence of lambdas and gives back other
lambdas with equally many parameters passes its check and is typed as if it gave back the first ones;
when its result is applied, a function may meet a value of a wrong type
(`accumulated_lambdas_unsound`).
-/

namespace RangeScript

/-! ## Statements -/

namespace Language

variable {lang : Language} {values : Scope Value} {types types' : Scope Ty}

/-- A steady statement that was checked does what its check declared, or fails at a limit. -/
theorem preserves_exec {stmt : Stmt} (hscope : Scope.Related Value.Inhabits values types)
    (hsteady : Steady (lang.comparedBy types stmt))
    (h : lang.check types stmt = .done types') :
    (lang.exec values stmt).Sound fun effect =>
      Scope.Related Value.Inhabits effect.globals types' := by
  rcases check_cases h with ⟨text, rfl, rfl⟩ | ⟨value, t, rfl, ht, hprintable, rfl⟩ |
    ⟨name, value, t, rfl, hnew, ht, rfl⟩
  · exact hscope
  · rw [exec]
    refine (preserves_at lang.callDepth hscope hsteady ht).bind fun v hv => ?_
    -- What is printable has no lambda in it, so there is a text for it.
    obtain ⟨text, htext⟩ := (hv.hasTy hprintable).render_eq_ok
    rw [htext]
    exact hscope
  · rw [exec, hscope.contains_eq, hnew]
    refine (preserves_at lang.callDepth hscope hsteady ht).bind fun v hv => ?_
    exact .cons hv hscope

/-- The pairs of a program whose first statement passes its check. -/
theorem comparedIn_of_check {stmt : Stmt} (h : lang.check types stmt = .done types')
    (p : Program) :
    lang.comparedIn types (stmt :: p) = lang.comparedBy types stmt ++ lang.comparedIn types' p := by
  rw [comparedIn, h]

end Language

/-! ## Sessions -/

/-- The submission succeeded, or it failed at a limit. -/
def Report.Sound (r : Report) : Prop :=
  r.result = .done () ∨ ∃ e : RunError, r.result = .failed (.run e) ∧ e.isLimit = true

namespace Session

variable {lang : Language} {s : Session}

/-- Each declared name has a value that inhabits its type. -/
def Inhabited (s : Session) : Prop := Scope.Related Value.Inhabits s.values s.types

theorem inhabited_fresh : fresh.Inhabited := .nil

/-- The invariant of a submission that passed its check, by induction on its statements. -/
theorem inhabited_steps {p : Program} (hs : s.Inhabited)
    (hsteady : Steady (lang.comparedIn s.types p))
    (h : (lang.checkProgram s.types p).2 = .done ()) :
    (steps lang s p).session.Inhabited ∧ (steps lang s p).Sound := by
  induction p generalizing s with
  | nil => exact ⟨hs, .inl rfl⟩
  | cons stmt p ih =>
    obtain ⟨types, hcheck, hrest⟩ := checkProgram_cons h
    rw [Language.comparedIn_of_check hcheck] at hsteady
    obtain ⟨hfirst, hothers⟩ := steady_append.1 hsteady
    have hexec := Language.preserves_exec hs hfirst hcheck
    rcases heq : lang.exec s.values stmt with effect | e | _
    · rw [heq] at hexec
      rw [steps_of_done p hcheck heq]
      exact ih (s := ⟨types, effect.globals⟩) hexec hothers hrest
    · rw [heq] at hexec
      rw [steps_of_failed p heq]
      exact ⟨hs, .inr ⟨e, rfl, hexec⟩⟩
    · rw [heq] at hexec
      exact hexec.elim

theorem inhabited_run (hs : s.Inhabited) {p : Program}
    (hsteady : s.check lang p = .done () → Steady (lang.comparedIn s.types p)) :
    (s.run lang p).session.Inhabited := by
  unfold run
  split
  · next hcheck => exact (inhabited_steps hs (hsteady hcheck) (check_eq_done.1 hcheck)).1
  · exact hs
  · exact hs

/-- The pairs of types that reductions take for one in programs submitted one after the other, those
aside that are rejected. -/
def compared (lang : Language) : Session → List Program → List (Ty × Ty)
  | _, [] => []
  | s, p :: rest =>
    (match s.check lang p with
      | .done () => lang.comparedIn s.types p
      | _ => []) ++ compared lang (s.run lang p).session rest

theorem compared_append (history later : List Program) :
    s.compared lang (history ++ later) =
      s.compared lang history ++ (s.after lang (history.map .program)).compared lang later := by
  induction history generalizing s with
  | nil => rfl
  | cons p history ih =>
    rw [List.cons_append, compared, compared, ih, List.append_assoc]
    rfl

/-- A session of steady programs stays inhabited. -/
theorem inhabited_after (hs : s.Inhabited) {history : List Program}
    (hsteady : Steady (s.compared lang history)) :
    (s.after lang (history.map .program)).Inhabited := by
  induction history generalizing s with
  | nil => exact hs
  | cons p history ih =>
    rw [compared] at hsteady
    obtain ⟨hfirst, hothers⟩ := steady_append.1 hsteady
    refine ih (inhabited_run hs fun hcheck => ?_) hothers
    rwa [hcheck] at hfirst

/-- After any programs, one that passes its check succeeds or fails at a limit, if reductions in these
programs take only equal types for one. Lambdas may stand anywhere in the programs. -/
theorem run_sound_of_steady (lang : Language) (history : List Program) (p : Program)
    (hsteady : Steady (fresh.compared lang (history ++ [p])))
    (hcheck : (fresh.after lang (history.map .program)).check lang p = .done ()) :
    ((fresh.after lang (history.map .program)).run lang p).Sound := by
  rw [compared_append] at hsteady
  obtain ⟨hbefore, hlast⟩ := steady_append.1 hsteady
  have hs : (fresh.after lang (history.map .program)).Inhabited :=
    inhabited_after inhabited_fresh hbefore
  rw [compared, hcheck, compared, List.append_nil] at hlast
  rw [run_of_check hcheck]
  exact (inhabited_steps hs hlast (check_eq_done.1 hcheck)).2

/-- A session keeps `fs`, the lambdas that add 1 and 2, from a program that failed later. A reduction
passes them on as its accumulator, and they are applied to 0 and 1 before a division by zero. -/
theorem run_sound_of_steady_adders :
    let name (text : String) : Lexeme := ⟨text, .start⟩
    let var (text : String) : Expr := .var (name text)
    let int (text : String) : Expr := .int (name text)
    let adders : Expr := .call (name "map") [.range (int "1") (int "2"),
      .lambda [name "i"] (.lambda [name "x"] (.binary (var "x") (name "+") (var "i")))]
    let kept : Expr := .call (name "reduce") [.range (int "1") (int "3"), var "fs",
      .lambda [name "a", name "i"] (var "a")]
    let sums : Expr := .call (name "map") [var "gs",
      .lambda [name "f"] (.call (name "map") [.range (int "0") (int "1"), var "f"])]
    let division : Stmt := .out (.binary (int "1") (name "/") (int "0"))
    let history : List Program := [[.declare (name "fs") adders, division], [.out (var "fs")]]
    let p : Program := [.declare (name "gs") kept, .out sums, division]
    fresh.compared .standard (history ++ [p]) ≠ [] ∧
      Steady (fresh.compared .standard (history ++ [p])) ∧
      (fresh.after .standard (history.map .program)).check .standard p = .done () ∧
      ((fresh.after .standard (history.map .program)).run .standard p).transcript.lines =
        ["[[1, 2], [2, 3]]"] ∧
      ∃ e : RunError,
        ((fresh.after .standard (history.map .program)).run .standard p).result =
          .failed (.run e) ∧ e.isLimit = true := by
  intro name var int adders kept sums division history p
  have hsteady : Steady (fresh.compared .standard (history ++ [p])) := by
    decide +kernel
  have hcheck : (fresh.after .standard (history.map .program)).check .standard p = .done () := by
    decide +kernel
  have hfails : ((fresh.after .standard (history.map .program)).run .standard p).result ≠
      .done () := by
    decide +kernel
  have hsound := run_sound_of_steady .standard history p hsteady hcheck
  exact ⟨by decide +kernel, hsteady, hcheck, by decide +kernel, hsound.resolve_left hfails⟩

/-- A program that passes its check and applies a function to a value of a wrong type. The reduction
starts with the lambda that gives back its argument and ends with one that maps over its argument; both
have one parameter, so `gs` is typed as holding the first and holds the second. -/
theorem accumulated_lambdas_unsound :
    let name (text : String) : Lexeme := ⟨text, .start⟩
    let var (text : String) : Expr := .var (name text)
    let only (n : String) : Expr := .range (.int (name n)) (.int (name n))
    let map (s : Expr) (param : String) (body : Expr) : Expr :=
      .call (name "map") [s, .lambda [name param] body]
    let fs : Expr := map (only "1") "i" (.lambda [name "x"] (var "x"))
    let gs : Expr := .call (name "reduce") [only "1", var "fs", .lambda [name "a", name "i"]
      (map (only "1") "j" (.lambda [name "x"] (map (var "x") "y" (var "y"))))]
    let r : Expr := map (var "gs") "f" (.call (name "map") [only "5", var "f"])
    let p : Program := [.declare (name "fs") fs, .declare (name "gs") gs, .declare (name "r") r]
    fresh.check .standard p = .done () ∧
      (fresh.run .standard p).result = .failed (.run (.inFunction (name "map")
        (.inFunction (name "map") (.inFunction (name "map") (.typing (.expectedSequence 1 .int)))))) := by
  decide +kernel

end Session

end RangeScript
