import RangeScript.Proofs.HostSoundness
import RangeScript.Proofs.SurfaceTyping

/-!
# Sessions of texts

A session that only takes texts declares names for data only and keeps values that inhabit the declared
types (`Session.Plain`), whatever became of the texts before, because what can be written is steady. So a
text that passes its check runs to its end, or to a limit of numbers and ranges; no other error is possible
then (`runSource_sound`). And after any texts each declared name has a value of its type, and so has each
expression that can be read and evaluated. What a sequence notes of its elements is filled in by the type:
the noted shape is that of the first element, or nothing is noted if there is none, at any depth
(`types_preserved`).
-/

namespace RangeScript

/-! ## Expressions that stand alone -/

theorem Parse.isExpr_of_expression {prec : Precedence} {stream : Token.Stream} {e : Expr}
    (h : expression prec stream = .ok e) :
    ∃ ts, Grammar.IsExpr prec maxNesting ts e := by
  obtain ⟨d, hd⟩ := run_eq_ok_iff.1 h
  obtain ⟨e', c, he, hend⟩ := Parser.exists_of_result_bind hd
  obtain ⟨_, c', -, hreturn⟩ := Parser.exists_of_result_bind hend
  cases hreturn
  obtain ⟨ts, -, hts⟩ := (reads_expr prec).read he
  exact ⟨ts, hts⟩

theorem surface_of_expression {prec : Precedence} {stream : Token.Stream} {e : Expr}
    (h : Parse.expression prec stream = .ok e) : e.Surface := by
  obtain ⟨ts, hts⟩ := Parse.isExpr_of_expression h
  exact Grammar.surface_of_isExprOver Grammar.surface_of_isAtom hts

/-! ## Statements -/

namespace Language

variable {lang : Language} {types types' : Scope Ty}

theorem isData_infer (htypes : types.IsData) {e : Expr} (he : e.Surface) {t : Ty}
    (h : lang.infer types e = .done t) : t.IsData :=
  (lang.tame_at lang.callDepth).isData htypes he h

theorem isData_check (htypes : types.IsData) {stmt : Stmt} (hstmt : stmt.Surface)
    (h : lang.check types stmt = .done types') : types'.IsData := by
  rcases check_cases h with ⟨text, rfl, rfl⟩ | ⟨value, t, rfl, -, -, rfl⟩ |
    ⟨name, value, t, rfl, -, ht, rfl⟩
  · exact htypes
  · exact htypes
  · have hdata : t.IsData := isData_infer htypes hstmt ht
    exact List.forall_mem_cons.2 ⟨hdata, htypes⟩

theorem steady_comparedBy (htypes : types.IsData) {stmt : Stmt} (hstmt : stmt.Surface) :
    Steady (lang.comparedBy types stmt) := by
  cases stmt with
  | declare name value => exact (lang.tame_at lang.callDepth).steady htypes hstmt
  | out value => exact (lang.tame_at lang.callDepth).steady htypes hstmt
  | print text => simp [comparedBy]

/-- A program that can be written is steady, by induction on its statements. -/
theorem steady_comparedIn {p : Program} (htypes : types.IsData) (hp : ∀ stmt ∈ p, stmt.Surface) :
    Steady (lang.comparedIn types p) := by
  induction p generalizing types with
  | nil => simp [comparedIn]
  | cons stmt p ih =>
    obtain ⟨hstmt, hp⟩ := List.forall_mem_cons.1 hp
    rw [comparedIn]
    refine steady_append.2 ⟨steady_comparedBy htypes hstmt, ?_⟩
    split
    · next hcheck => exact ih (isData_check htypes hstmt hcheck) hp
    · simp

end Language

/-! ## Sessions -/

namespace Session

variable {lang : Language} {s : Session}

/-- Names have values that inhabit their types, and all are names for data. -/
structure Plain (s : Session) : Prop where
  inhabited : s.Inhabited
  isData : s.types.IsData

theorem plain_fresh : fresh.Plain := ⟨inhabited_fresh, by simp [fresh, Scope.IsData]⟩

theorem isData_steps {p : Program} (hs : s.types.IsData) (hp : ∀ stmt ∈ p, stmt.Surface)
    (h : (lang.checkProgram s.types p).2 = .done ()) :
    (steps lang s p).session.types.IsData := by
  induction p generalizing s with
  | nil => exact hs
  | cons stmt p ih =>
    obtain ⟨hstmt, hp⟩ := List.forall_mem_cons.1 hp
    obtain ⟨types, hcheck, hrest⟩ := checkProgram_cons h
    rcases hexec : lang.exec s.values stmt with effect | e | _
    · rw [steps_of_done p hcheck hexec]
      have htypes : types.IsData := Language.isData_check hs hstmt hcheck
      exact ih (s := ⟨types, effect.globals⟩) htypes hp hrest
    · rw [steps_of_failed p hexec]
      exact hs
    · rw [steps_of_unfinished p hexec]
      exact hs

/-- In a plain session, a program that can be written and passes its check succeeds or fails at a limit, and the
session stays plain. -/
theorem Plain.steps (hs : s.Plain) {p : Program} (hp : ∀ stmt ∈ p, stmt.Surface)
    (h : s.check lang p = .done ()) : (steps lang s p).session.Plain ∧ (steps lang s p).Sound := by
  have hsteady : Steady (lang.comparedIn s.types p) := Language.steady_comparedIn hs.isData hp
  obtain ⟨hinhabited, hsound⟩ := inhabited_steps hs.inhabited hsteady (check_eq_done.1 h)
  exact ⟨⟨hinhabited, isData_steps hs.isData hp (check_eq_done.1 h)⟩, hsound⟩

theorem Plain.sound_run (hs : s.Plain) {p : Program} (hp : ∀ stmt ∈ p, stmt.Surface)
    (h : s.check lang p = .done ()) : (s.run lang p).Sound := by
  rw [run_of_check h]
  exact (hs.steps hp h).2

theorem plain_runSource (hs : s.Plain) (text : String) : (s.runSource lang text).session.Plain := by
  unfold runSource
  split
  · next p hparse =>
    unfold run
    split
    · next hcheck => exact (hs.steps (surface_of_parse hparse) hcheck).1
    · exact hs
    · exact hs
  · exact hs

theorem plain_after (hs : s.Plain) (texts : List String) :
    (s.after lang (texts.map .source)).Plain := by
  induction texts generalizing s with
  | nil => exact hs
  | cons text texts ih => exact ih (plain_runSource hs text)

/-- After any texts, a text that can be read and passes its check succeeds, or fails at a limit: a
range that is too large, a division by zero or an overflow at an operator, inside any functions. -/
theorem runSource_sound (lang : Language) (texts : List String) (text : String) (p : Program)
    (hparse : lang.parse text = .ok p)
    (hcheck : (fresh.after lang (texts.map .source)).check lang p = .done ()) :
    ((fresh.after lang (texts.map .source)).runSource lang text).Sound := by
  rw [runSource_of_parse hparse]
  exact (plain_after plain_fresh texts).sound_run (surface_of_parse hparse) hcheck

/-- A session keeps `xs` from a text that failed later and nothing from one that was rejected. Then a
reduction over `xs`, mapped to -1, 0 and 1, passes its check and divides by zero. -/
theorem runSource_sound_division :
    let s := fresh.after .standard (["var xs = {1, 3} out 1 / 0", "out ys"].map .source)
    let text := "out reduce(map(xs, x -> x - 2), 1, a x -> a / x)"
    let p : Program := [.out (.call ⟨"reduce", ⟨1, 5⟩⟩
      [.call ⟨"map", ⟨1, 12⟩⟩ [.var ⟨"xs", ⟨1, 16⟩⟩, .lambda [⟨"x", ⟨1, 20⟩⟩]
        (.binary (.var ⟨"x", ⟨1, 25⟩⟩) ⟨"-", ⟨1, 27⟩⟩ (.int ⟨"2", ⟨1, 29⟩⟩))],
       .int ⟨"1", ⟨1, 33⟩⟩, .lambda [⟨"a", ⟨1, 36⟩⟩, ⟨"x", ⟨1, 38⟩⟩]
        (.binary (.var ⟨"a", ⟨1, 43⟩⟩) ⟨"/", ⟨1, 45⟩⟩ (.var ⟨"x", ⟨1, 47⟩⟩))])]
    Language.standard.parse text = .ok p ∧ s.check .standard p = .done () ∧
      (s.runSource .standard text).result ≠ .done () ∧
      ∃ e : RunError, (s.runSource .standard text).result = .failed (.run e) ∧
        e.isLimit = true := by
  intro s text p
  have hparse : Language.standard.parse text = .ok p := by decide +kernel
  have hcheck : s.check .standard p = .done () := by decide +kernel
  have hfails : (s.runSource .standard text).result ≠ .done () := by decide +kernel
  have hsound := runSource_sound .standard _ text p hparse hcheck
  exact ⟨hparse, hcheck, hfails, hsound.resolve_left hfails⟩

/-- A name of a plain session has a value that inhabits its type. -/
theorem Plain.lookup (hs : s.Plain) {name : String} {t : Ty} (h : s.types.get? name = some t) :
    ∃ v, s.values.get? name = some v ∧ v.Inhabits t ∧ t.IsData := by
  obtain ⟨v, hv, hinhabits⟩ := Scope.Related.lookup hs.inhabited h
  exact ⟨v, hv, hinhabits, hs.isData (name, t) (Scope.mem_of_get? h)⟩

theorem Plain.eval (hs : s.Plain) {e : Expr} (he : e.Surface) {t : Ty} {v : Value}
    (ht : lang.infer s.types e = .done t) (hv : lang.eval s.values e = .done v) :
    v.Inhabits t ∧ t.IsData := by
  have hsteady := (lang.tame_at lang.callDepth).steady hs.isData he
  have hsound := Language.preserves_at lang.callDepth hs.inhabited hsteady ht
  unfold Language.eval at hv
  rw [hv] at hsound
  exact ⟨hsound, Language.isData_infer hs.isData he ht⟩

/-- After any texts, each declared name has a value of its type, and the shape that the value shows is
filled in by the type. The same holds of each expression that can be read and has a type and a value. -/
theorem types_preserved (lang : Language) (texts : List String) :
    let s := fresh.after lang (texts.map .source)
    (∀ name t, s.types.get? name = some t →
      ∃ v, s.values.get? name = some v ∧ v.HasTy t ∧ v.shape.FilledBy t.shape) ∧
    ∀ prec stream e t v, Parse.expression prec stream = .ok e → lang.infer s.types e = .done t →
      lang.eval s.values e = .done v → v.HasTy t ∧ v.shape.FilledBy t.shape := by
  intro s
  have hs : s.Plain := plain_after plain_fresh texts
  constructor
  · intro name t ht
    obtain ⟨v, hv, hinhabits, hdata⟩ := hs.lookup ht
    exact ⟨v, hv, hinhabits.hasTy hdata, hinhabits.shape⟩
  · intro prec stream e t v he ht hv
    obtain ⟨hinhabits, hdata⟩ := hs.eval (surface_of_expression he) ht hv
    exact ⟨hinhabits.hasTy hdata, hinhabits.shape⟩

/-- `xs` is a sequence of sequences of sequences. It has one element, which is empty, so no more is noted
with it than that it is a sequence, and that it holds sequences. -/
theorem types_preserved_empty :
    let texts := ["var n = 0", "var xs = map({1, 1}, i -> map({1, n}, j -> {i, j})) out 1 / n"]
    (fresh.after .standard (texts.map .source)).types.get? "xs" = some (.seq (.seq (.seq .int))) ∧
      ((fresh.after .standard (texts.map .source)).values.get? "xs").map (·.shape) =
        some (.seq (.seq .nothing)) ∧
      ∃ v, (fresh.after .standard (texts.map .source)).values.get? "xs" = some v ∧
        v.HasTy (.seq (.seq (.seq .int))) ∧ v.shape.FilledBy (.seq (.seq (.seq .int))) := by
  intro texts
  have htype : (fresh.after .standard (texts.map .source)).types.get? "xs" =
      some (.seq (.seq (.seq .int))) := by
    decide +kernel
  exact ⟨htype, by decide +kernel, (types_preserved .standard texts).1 "xs" _ htype⟩

end Session

end RangeScript
