import RangeScript.Proofs.DecimalText
import RangeScript.Proofs.Instantiation
import RangeScript.Proofs.RangeElements

/-!
# Mapping and reducing over a sequence in parts

`map` applies a lambda to the elements of a sequence in order and `reduce` folds them from the left, so both may be
done on a first part of the sequence and then on the rest.

* `Outcome.StopsFirst f as x` : on the first of `as` on which `f` has no value, it ends as `x`;
* `Builtin.MapSplits`, `Builtin.ReduceSplits` : what the functions do with two lists, one after the other;
* `Expr.reduction lo hi initial step` : the expression `reduce({lo, hi}, initial, step)`.

What was read never has a lambda for its value, so a reduction over a range that was written may be cut in two
anywhere, and the result of the first part is where the second starts (`iteration_splits`).
-/

namespace RangeScript

/-! ## Computations on the elements of a list -/

namespace Outcome

variable {ε α β : Type} {f : α → Outcome ε β} {as : List α}

/-- All computations have a value exactly if they have one each. -/
theorem mapM_eq_done {bs : List β} :
    as.mapM f = .done bs ↔ List.Forall₂ (fun a b => f a = .done b) as bs := by
  induction as generalizing bs with
  | nil =>
    rw [List.mapM_nil, List.forall₂_nil_left_iff]
    exact ⟨fun h => (Outcome.done.inj h).symm, fun h => congrArg _ h.symm⟩
  | cons a as ih =>
    rw [List.mapM_cons, bind_eq_done, List.forall₂_cons_left_iff]
    constructor
    · rintro ⟨b, hb, h⟩
      obtain ⟨bs, hbs, hreturn⟩ := bind_eq_done.1 h
      cases hreturn
      exact ⟨b, bs, hb, ih.1 hbs, rfl⟩
    · rintro ⟨b, bs, hb, hbs, rfl⟩
      exact ⟨b, hb, bind_eq_done.2 ⟨bs, ih.2 hbs, rfl⟩⟩

/-- On the first element on which it has no value, the computation ends as `x`. -/
def StopsFirst (f : α → Outcome ε β) (as : List α) (x : Outcome ε β) : Prop :=
  ∃ before a after, as = before ++ a :: after ∧ (∀ b ∈ before, ∃ c, f b = .done c) ∧ f a = x ∧
    ∀ c, x ≠ .done c

theorem stopsFirst_cons_of_done {a : α} {b : β} {x : Outcome ε β} (h : f a = .done b) :
    StopsFirst f (a :: as) x ↔ StopsFirst f as x := by
  constructor
  · rintro ⟨before, a', after, hsplit, hbefore, hx, hstop⟩
    cases before with
    | nil =>
      cases hsplit
      exact absurd (hx.symm.trans h) (hstop b)
    | cons _ before =>
      cases hsplit
      exact ⟨before, a', after, rfl, (List.forall_mem_cons.1 hbefore).2, hx, hstop⟩
  · rintro ⟨before, a', after, rfl, hbefore, hx, hstop⟩
    exact ⟨a :: before, a', after, rfl, List.forall_mem_cons.2 ⟨⟨b, h⟩, hbefore⟩, hx, hstop⟩

theorem stopsFirst_cons_of_not_done {a : α} {x : Outcome ε β} (h : ∀ b, f a ≠ .done b) :
    StopsFirst f (a :: as) x ↔ f a = x := by
  constructor
  · rintro ⟨before, a', after, hsplit, hbefore, hx, -⟩
    cases before with
    | nil =>
      cases hsplit
      exact hx
    | cons _ before =>
      cases hsplit
      obtain ⟨b, hb⟩ := hbefore a List.mem_cons_self
      exact absurd hb (h b)
  · rintro rfl
    exact ⟨[], a, as, rfl, by simp, rfl, h⟩

/-- If not all computations have a value, they end together as the first that has none. -/
theorem mapM_bind_done_eq_iff {g : List β → β} {x : Outcome ε β} (hx : ∀ b, x ≠ .done b) :
    (as.mapM f >>= fun bs => .done (g bs)) = x ↔ StopsFirst f as x := by
  induction as generalizing g with
  | nil =>
    rw [List.mapM_nil]
    constructor
    · exact fun h => absurd h.symm (hx _)
    · rintro ⟨before, a, after, hsplit, -⟩
      cases before <;> cases hsplit
  | cons a as ih =>
    rw [List.mapM_cons, bind_assoc]
    cases ha : f a with
    | done b =>
      rw [stopsFirst_cons_of_done ha, ← ih (g := fun bs => g (b :: bs)), done_bind, bind_assoc]
      rfl
    | failed e =>
      rw [stopsFirst_cons_of_not_done (by simp [ha]), ha]
      rfl
    | unfinished =>
      rw [stopsFirst_cons_of_not_done (by simp [ha]), ha]
      rfl

/-- Both have the same value, or both fail. -/
def Concur (x y : Outcome ε β) : Prop :=
  (∃ b, x = .done b ∧ y = .done b) ∨ ∃ e e', x = .failed e ∧ y = .failed e'

/-- Both end in the same way up to their errors, if one ends. -/
theorem Concur.of_alike {x y x' y' : Outcome ε β} {erase : ε → ε}
    (h : x = y ∨ ∃ e e', x = .failed e ∧ y = .failed e') (hx : x.Alike Eq erase x') (hy : y.Alike Eq erase y')
    (hends : x ≠ .unfinished) : Concur x' y' := by
  rcases h with rfl | ⟨e, e', rfl, rfl⟩
  · cases hx with
    | done hv =>
      cases hy with
      | done hw => exact .inl ⟨_, rfl, congrArg _ (hw.symm.trans hv)⟩
    | failed _ =>
      cases hy with
      | failed _ => exact .inr ⟨_, _, rfl, rfl⟩
    | unfinished => exact absurd rfl hends
  · cases hx with
    | failed _ =>
      cases hy with
      | failed _ => exact .inr ⟨_, _, rfl, rfl⟩

end Outcome

open Outcome

/-! ## Functions -/

namespace Builtin

section Calls
variable (eval : Scope Value → Expr → Outcome RunError Value) (f : Closure Value)

/-- The function `map` on the elements `s` of a sequence that notes the shape `noted`. -/
def mapOver (noted : Shape) (s : List Value) : Outcome RunError Value :=
  map.call eval [.seq s noted, .lambda f]

/-- The function `reduce` on the elements `s` of a sequence that notes the shape `noted`. -/
def reduceOver (noted : Shape) (s : List Value) (initial : Value) : Outcome RunError Value :=
  reduce.call eval [.seq s noted, initial, .lambda f]

/-- To map over `s` and then `t` is to map over each, element by element and in order; where that is not possible,
the first element on which the lambda has no value tells how it ends. -/
structure MapSplits (s t : List Value) : Prop where
  succeeds : ∀ noted noted' noted'', (∃ u, mapOver eval f noted (s ++ t) = .done u) ↔
    (∃ v, mapOver eval f noted' s = .done v) ∧ ∃ w, mapOver eval f noted'' t = .done w
  elements : ∀ noted noted' noted'' u, mapOver eval f noted (s ++ t) = .done u →
    ∃ vs ws, mapOver eval f noted' s = .done (seqOf vs) ∧ mapOver eval f noted'' t = .done (seqOf ws) ∧
      u = seqOf (vs ++ ws) ∧
      List.Forall₂ (fun v r => applyClosure eval f [v] = .done r) s vs ∧
      List.Forall₂ (fun v r => applyClosure eval f [v] = .done r) t ws
  fails : ∀ noted x, (∀ v, x ≠ .done v) →
    (mapOver eval f noted (s ++ t) = x ↔ StopsFirst (fun v => applyClosure eval f [v]) (s ++ t) x)

/-- To reduce `s` and then `t` is to reduce `s`, and to start from the result with `t`, unless that is a lambda. -/
structure ReduceSplits (s t : List Value) (initial : Value) : Prop where
  folds : ∀ noted, initial.toClosure? = none →
    reduceOver eval f noted s initial = s.foldlM (fun acc v => applyClosure eval f [acc, v]) initial
  fails : ∀ noted noted' e, reduceOver eval f noted s initial = .failed e →
    reduceOver eval f noted' (s ++ t) initial = .failed e
  unfinished : ∀ noted noted', reduceOver eval f noted s initial = .unfinished →
    reduceOver eval f noted' (s ++ t) initial = .unfinished
  goesOn : ∀ noted noted' noted'' acc, reduceOver eval f noted s initial = .done acc →
    acc.toClosure? = none →
    reduceOver eval f noted' (s ++ t) initial = reduceOver eval f noted'' t acc

variable {eval f}

theorem mapOver_eq (hf : f.arity = 1) (noted : Shape) (s : List Value) :
    mapOver eval f noted s =
      (s.mapM fun v => applyClosure eval f [v]) >>= fun results => .done (seqOf results) := by
  have hlambda : lambdaArg 2 1 (.lambda f) = .ok f := if_pos hf
  rw [mapOver, call, hlambda]
  rfl

theorem mapOver_eq_done (hf : f.arity = 1) {noted : Shape} {s : List Value} {u : Value} :
    mapOver eval f noted s = .done u ↔
      ∃ vs, List.Forall₂ (fun v r => applyClosure eval f [v] = .done r) s vs ∧ u = seqOf vs := by
  rw [mapOver_eq hf, bind_eq_done]
  constructor
  · rintro ⟨vs, hvs, hreturn⟩
    exact ⟨vs, mapM_eq_done.1 hvs, (Outcome.done.inj hreturn).symm⟩
  · rintro ⟨vs, hvs, rfl⟩
    exact ⟨vs, mapM_eq_done.2 hvs, rfl⟩

theorem mapSplits (hf : f.arity = 1) (s t : List Value) : MapSplits eval f s t := by
  have hsplit : ∀ {noted u}, mapOver eval f noted (s ++ t) = .done u → ∃ vs ws, u = seqOf (vs ++ ws) ∧
      List.Forall₂ (fun v r => applyClosure eval f [v] = .done r) s vs ∧
      List.Forall₂ (fun v r => applyClosure eval f [v] = .done r) t ws := by
    intro noted u h
    obtain ⟨us, hus, rfl⟩ := (mapOver_eq_done hf).1 h
    rw [← mapM_eq_done, List.mapM_append] at hus
    obtain ⟨vs, hvs, hus⟩ := bind_eq_done.1 hus
    obtain ⟨ws, hws, hreturn⟩ := bind_eq_done.1 hus
    cases hreturn
    exact ⟨vs, ws, rfl, mapM_eq_done.1 hvs, mapM_eq_done.1 hws⟩
  refine ⟨fun noted noted' noted'' => ⟨?_, ?_⟩, ?_, fun noted x hx => ?_⟩
  · rintro ⟨u, hu⟩
    obtain ⟨vs, ws, -, hvs, hws⟩ := hsplit hu
    exact ⟨⟨_, (mapOver_eq_done hf).2 ⟨vs, hvs, rfl⟩⟩, ⟨_, (mapOver_eq_done hf).2 ⟨ws, hws, rfl⟩⟩⟩
  · rintro ⟨⟨v, hv⟩, ⟨w, hw⟩⟩
    obtain ⟨vs, hvs, -⟩ := (mapOver_eq_done hf).1 hv
    obtain ⟨ws, hws, -⟩ := (mapOver_eq_done hf).1 hw
    exact ⟨_, (mapOver_eq_done hf).2 ⟨vs ++ ws, List.rel_append hvs hws, rfl⟩⟩
  · intro noted noted' noted'' u hu
    obtain ⟨vs, ws, rfl, hvs, hws⟩ := hsplit hu
    exact ⟨vs, ws, (mapOver_eq_done hf).2 ⟨vs, hvs, rfl⟩, (mapOver_eq_done hf).2 ⟨ws, hws, rfl⟩, rfl, hvs, hws⟩
  · rw [mapOver_eq hf]
    exact mapM_bind_done_eq_iff hx

theorem reduceOver_eq (hf : f.arity = 2) (noted : Shape) (s : List Value) {initial : Value}
    (h : initial.toClosure? = none) :
    reduceOver eval f noted s initial = s.foldlM (fun acc v => applyClosure eval f [acc, v]) initial := by
  have hlambda : lambdaArg 3 2 (.lambda f) = .ok f := if_pos hf
  rw [reduceOver, call, hlambda]
  cases initial with
  | lambda c => cases h
  | _ => rfl

theorem reduceSplits (hf : f.arity = 2) (s t : List Value) (initial : Value) :
    ReduceSplits eval f s t initial := by
  cases hinitial : initial.toClosure? with
  | some c =>
    obtain rfl : initial = .lambda c := by
      cases initial <;> cases hinitial
      rfl
    refine ⟨?_, fun _ _ _ h => h, fun _ _ h => h, ?_⟩
    · intro _ h
      cases h
    · intro _ _ _ _ h
      cases h
  | none =>
    have happend : ∀ noted noted', reduceOver eval f noted' (s ++ t) initial =
        reduceOver eval f noted s initial >>=
          t.foldlM (fun acc v => applyClosure eval f [acc, v]) := by
      intro noted noted'
      rw [reduceOver_eq hf noted' _ hinitial, reduceOver_eq hf noted _ hinitial, List.foldlM_append]
    refine ⟨fun noted _ => reduceOver_eq hf noted s hinitial, ?_, ?_, ?_⟩
    · intro noted noted' e h
      rw [happend noted, h]
      rfl
    · intro noted noted' h
      rw [happend noted, h]
      rfl
    · intro noted noted' noted'' acc h hacc
      rw [happend noted, h, reduceOver_eq hf noted'' t hacc]
      rfl

/-- Within a context for errors: to reduce at once and in two parts ends in the same way, or both fail. -/
theorem reduceOver_in_parts (hf : f.arity = 2) (s t : List Value) (initial : Value)
    (context : RunError → RunError)
    (hacc : ∀ acc, reduceOver eval f .int s initial = .done acc → acc.toClosure? = none) :
    let once := (reduceOver eval f .int (s ++ t) initial).mapError context
    let twice := (reduceOver eval f .int s initial).mapError context >>= fun acc =>
      (reduceOver eval f .int t acc).mapError context
    once = twice ∨ ∃ err err', once = .failed err ∧ twice = .failed err' := by
  have hsplits : ReduceSplits eval f s t initial := reduceSplits hf s t initial
  dsimp only
  cases hfirst : reduceOver eval f .int s initial with
  | failed err =>
    rw [hsplits.fails .int .int err hfirst]
    exact .inr ⟨_, _, rfl, rfl⟩
  | unfinished =>
    rw [hsplits.unfinished .int .int hfirst]
    exact .inl rfl
  | done acc =>
    rw [hsplits.goesOn .int .int .int acc hfirst (hacc acc hfirst)]
    exact .inl rfl

end Calls

end Builtin

/-! ## Reductions over ranges -/

/-- The expression `reduce({lo, hi}, initial, step)`. -/
def Expr.reduction (lo hi : Int64) (initial step : Expr) : Expr :=
  .call ⟨"reduce", .start⟩
    [.range (.int ⟨Whole.text lo, .start⟩) (.int ⟨Whole.text hi, .start⟩), initial, step]

namespace Expr

variable {lo hi : Int64} {initial step : Expr}

theorem surface_reduction (hinitial : initial.Surface) (hstep : step.SurfaceArg) :
    (reduction lo hi initial step).Surface := by
  refine .call _ ?_
  simp only [List.forall_mem_cons]
  exact ⟨.expr (.range (.int _) (.int _)), .expr hinitial, hstep, by simp⟩

theorem lambdaDepth_reduction_le {d : Nat} (hinitial : initial.lambdaDepth ≤ d) (hstep : step.lambdaDepth ≤ d) :
    (reduction lo hi initial step).lambdaDepth ≤ d := by
  simp [reduction, lambdaDepth, lambdaDepthAll, hinitial, hstep]

end Expr

mutual

/-- Data that are alike are the same. -/
theorem Value.Alike.eq_of_isData : (v : Value) → {w : Value} → v.Alike w → v.isData = true → v = w
  | .int _, _, .int _, _ => rfl
  | .real _, _, .real _, _ => rfl
  | .seq vs _, _, .seq noted hall, h => by
    rw [Value.isData] at h
    rw [Value.Alike.eq_of_areData vs hall h]

theorem Value.Alike.eq_of_areData :
    (vs : List Value) → {ws : List Value} → List.Forall₂ Value.Alike vs ws → Value.areData vs = true → vs = ws
  | [], _, .nil, _ => rfl
  | v :: vs, _, .cons hv hvs, h => by
    rw [Value.areData, Bool.and_eq_true] at h
    rw [Value.Alike.eq_of_isData v hv h.1, Value.Alike.eq_of_areData vs hvs h.2]

end

theorem Value.toClosure?_of_isData {v : Value} (h : v.isData = true) : v.toClosure? = none := by
  cases v with
  | lambda c => cases h
  | _ => rfl

namespace Language

variable {lang : Language} {body : Scope Value → Expr → Outcome RunError Value} {scope : Scope Value}

theorem evalWith_text (n : Int64) (pos : Position) :
    lang.evalWith body scope (.int ⟨Whole.text n, pos⟩) = .done (.int n) := by
  rw [evalWith, intLiteral, Whole.ofText?_text]
  rfl

theorem eq_reduce_of_function? {f : Builtin} (h : lang.function? "reduce" = some f) : f = .reduce := by
  have hname := List.find?_some h
  cases f with
  | map => exact absurd hname (by decide)
  | reduce => rfl

/-- A reduction evaluates where it starts, and then folds the numbers of the range. -/
theorem evalWith_reduction (hreduce : lang.function? "reduce" = some .reduce) {lo hi : Int64}
    (hroom : lang.allocates lo hi) (initial : Expr) (params : List Lexeme) (e : Expr) :
    lang.evalWith body scope (.reduction lo hi initial (.lambda params e)) =
      lang.evalWith body scope initial >>= fun i =>
        (Builtin.reduceOver body ⟨params.map (·.text), e, scope⟩ .int (Value.range lo hi) i).mapError
          (.inFunction ⟨"reduce", .start⟩) := by
  have hrange : lang.evalWith body scope
      (.range (.int ⟨Whole.text lo, .start⟩) (.int ⟨Whole.text hi, .start⟩)) =
      .done (.seq (Value.range lo hi) .int) := by
    rw [evalWith_range (evalWith_text lo _) (evalWith_text hi _)]
    exact if_pos hroom
  have hlambda : lang.evalWith body scope (.lambda params e) =
      .done (.lambda ⟨params.map (·.text), e, scope⟩) := by
    rw [evalWith]
  rw [Expr.reduction, evalWith, hreduce]
  simp only [evalAllWith, hrange, hlambda, ofOption, done_bind, bind_assoc, pure_eq_done]
  rfl

/-- Without the function a reduction fails. -/
theorem evalWith_reduction_of_none (h : lang.function? "reduce" = none) (lo hi : Int64) (initial step : Expr) :
    lang.evalWith body scope (.reduction lo hi initial step) =
      .failed (.typing (.unknownFunction ⟨"reduce", .start⟩)) := by
  rw [Expr.reduction, evalWith, h]
  rfl

/-- In a scope of data, a reduction and the same in two parts end in the same way, or both fail. -/
theorem eval_reduction_split {a b c : Int64} (hab : a.toInt ≤ b.toInt) (hbc : b.toInt < c.toInt)
    (hroom : lang.allocates a c) (hscope : scope.All (·.isData = true)) {initial e : Expr}
    {params : List Lexeme} (hinitial : initial.Surface) (he : e.Surface) (hparams : params.length = 2) :
    let step := Expr.lambda params e
    let once := lang.eval scope (.reduction a c initial step)
    let twice := lang.eval scope (.reduction (b + 1) c (.reduction a b initial step) step)
    once = twice ∨ ∃ err err', once = .failed err ∧ twice = .failed err' := by
  intro step once twice
  obtain ⟨body, heval⟩ := lang.exists_eval_eq
  have hsurface : (Expr.reduction a b initial step).Surface :=
    Expr.surface_reduction hinitial (.lambda params he)
  have hfirstData := lang.obeys_evalAt Value.kept_isData hscope hsurface lang.callDepth
  rw [← eval, heval] at hfirstData
  simp only [once, twice, heval]
  cases hreduce : lang.function? "reduce" with
  | none =>
    exact .inl ((evalWith_reduction_of_none hreduce _ _ _ _).trans
      (evalWith_reduction_of_none hreduce _ _ _ _).symm)
  | some f =>
    obtain rfl := eq_reduce_of_function? hreduce
    have hnext := Value.toInt_add_one hbc
    have hfirst := hroom.mono (Int.le_refl _) (Int.le_of_lt hbc)
    have hsecond : lang.allocates (b + 1) c := hroom.mono (by omega) (Int.le_refl _)
    rw [evalWith_reduction hreduce hfirst] at hfirstData
    rw [evalWith_reduction hreduce hroom, evalWith_reduction hreduce hsecond,
      evalWith_reduction hreduce hfirst, Value.range_append hab hbc]
    cases hstart : lang.evalWith body scope initial with
    | failed err => exact .inl rfl
    | unfinished => exact .inl rfl
    | done i =>
      rw [hstart] at hfirstData
      have harity : (Closure.mk (params.map (·.text)) e scope).arity = 2 := by
        rw [Closure.arity, List.length_map, hparams]
      refine Builtin.reduceOver_in_parts harity _ _ i _ fun acc hacc => ?_
      rw [done_bind, hacc] at hfirstData
      exact Value.toClosure?_of_isData hfirstData

/-- What was read has the same value wherever it stands, in a scope of data. -/
theorem alike_eval_of_same (hscope : scope.All (·.isData = true)) {e e' : Expr} (he : e.Surface)
    (h : e.same e' = true) : (lang.eval scope e).Alike Eq RunError.forget (lang.eval scope e') := by
  have halike : (lang.eval scope e).Alike Value.Alike RunError.forget (lang.eval scope e') :=
    lang.blind_evalAt lang.callDepth (Value.Alike.refl_scope scope) h
  have hdata : (lang.eval scope e).Obeys (·.isData = true) _ _ :=
    lang.obeys_evalAt Value.kept_isData hscope he lang.callDepth
  generalize lang.eval scope e = x at halike hdata
  generalize lang.eval scope e' = y at halike
  cases halike with
  | done hv => exact .done (Value.Alike.eq_of_isData _ hv hdata)
  | failed herr => exact .failed herr
  | unfinished => exact .unfinished

end Language

/-- A lambda with so many parameters, which stands in an expression that was read. -/
def Expr.IsWrittenLambda (reader : Language) (arity : Nat) (step : Expr) : Prop :=
  ∃ (context : Expr.Context) (params : List Lexeme) (body : Expr),
    step = .lambda params body ∧ params.length = arity ∧ (context.fill step).Written reader

open Session

/-- Whatever the lambdas do: `map` gives the results of the elements in order or ends as the first that has none, and
`reduce` folds from the left, so both may be done in two parts. In a state reached by texts, a reduction over a range
has the same value as the reduction in two parts, wherever their words stand, or both fail. -/
theorem iteration_splits (lang : Language) :
    (∀ eval f s t, f.arity = 1 → Builtin.MapSplits eval f s t) ∧
    (∀ eval f s t initial, f.arity = 2 → Builtin.ReduceSplits eval f s t initial) ∧
    ∀ (reader : Language) (texts : List String) (globals : Scope Value) (a b c : Int64)
      (initial step once twice : Expr),
      lang.Leads (fresh.after lang (texts.map .source)).values globals →
      Parse.maxNesting ≤ lang.callDepth → a ≤ b → b < c → lang.allocates a c →
      initial.Written reader → step.IsWrittenLambda reader 2 →
      (Expr.reduction a c initial step).same once = true →
      (Expr.reduction (b + 1) c (Expr.reduction a b initial step) step).same twice = true →
      (lang.eval globals once).Concur (lang.eval globals twice) := by
  refine ⟨fun eval f s t hf => Builtin.mapSplits hf s t,
    fun eval f s t initial hf => Builtin.reduceSplits hf s t initial, ?_⟩
  rintro reader texts globals a b c initial _ once twice hleads hdepth hab hbc hroom hinitial
    ⟨context, params, body, rfl, hparams, hstep⟩ honce htwice
  have hglobals : globals.All (·.isData = true) :=
    hleads.all Value.kept_isData (all_after Value.kept_isData all_fresh texts)
  have harg : (Expr.lambda params body).SurfaceArg := context.surfaceArg_of_fill (.expr hstep.surface)
  have hsurface : ∀ lo hi, (Expr.reduction lo hi initial (.lambda params body)).Surface := fun lo hi =>
    Expr.surface_reduction hinitial.surface harg
  have hends : lang.eval globals (.reduction a c initial (.lambda params body)) ≠ .unfinished := by
    refine (lang.obeys_evalAt Value.kept_isData hglobals (hsurface a c) lang.callDepth).ne_unfinished ?_
    exact Nat.not_lt_of_le (Nat.le_trans (Expr.lambdaDepth_reduction_le hinitial.lambdaDepth_le
      (context.lambdaDepth_le_of_fill hstep.lambdaDepth_le)) hdepth)
  have hsplit := Language.eval_reduction_split (Int64.le_iff_toInt_le.1 hab) (Int64.lt_iff_toInt_lt.1 hbc)
    hroom hglobals hinitial.surface (Expr.surfaceArg_lambda.1 harg) hparams
  have hmoved : ∀ {e e' : Expr}, e.Surface → e.same e' = true →
      (lang.eval globals e).Alike Eq RunError.forget (lang.eval globals e') :=
    Language.alike_eval_of_same hglobals
  exact .of_alike hsplit (hmoved (hsurface a c) honce)
    (hmoved (Expr.surface_reduction (hsurface a b) harg) htwice) hends

/-- A division by zero in the second part stops a map, and a reduction is cut where its numbers change sign. -/
theorem iteration_splits_at_zero :
    let lang := Language.standard
    let quotient : Closure Value :=
      ⟨["x"], .binary (.int ⟨"12", .start⟩) ⟨"/", .start⟩ (.var ⟨"x", .start⟩), []⟩
    let sum : Closure Value :=
      ⟨["a", "x"], .binary (.var ⟨"a", .start⟩) ⟨"+", .start⟩ (.var ⟨"x", .start⟩), []⟩
    let step (k : Nat) : Expr := .lambda [⟨"a", ⟨1, k⟩⟩, ⟨"x", ⟨1, k + 2⟩⟩]
      (.binary (.binary (.var ⟨"a", ⟨1, k + 7⟩⟩) ⟨"*", ⟨1, k + 9⟩⟩ (.var ⟨"x", ⟨1, k + 11⟩⟩))
        ⟨"-", ⟨1, k + 13⟩⟩ (.var ⟨"n", ⟨1, k + 15⟩⟩))
    let once : Expr := .call ⟨"reduce", ⟨1, 5⟩⟩
      [.range (.int ⟨"-2", ⟨1, 14⟩⟩) (.int ⟨"2", ⟨1, 17⟩⟩), .var ⟨"n", ⟨1, 21⟩⟩, step 24]
    let twice : Expr := .call ⟨"reduce", ⟨1, 5⟩⟩
      [.range (.int ⟨"1", ⟨1, 13⟩⟩) (.int ⟨"2", ⟨1, 16⟩⟩),
        .call ⟨"reduce", ⟨1, 20⟩⟩
          [.range (.int ⟨"-2", ⟨1, 29⟩⟩) (.int ⟨"0", ⟨1, 32⟩⟩), .var ⟨"n", ⟨1, 36⟩⟩, step 39],
        step 58]
    let globals := (fresh.after lang (["var n = 3"].map .source)).values
    Builtin.MapSplits lang.eval quotient [.int 3] [.int 0, .int 2] ∧
      (Builtin.mapOver lang.eval quotient .int ([.int 3] ++ [.int 0, .int 2])).error? =
        some (.atOperator ⟨"/", .start⟩ .divisionByZero) ∧
      Builtin.ReduceSplits lang.eval sum [.int 1, .int 2] [.int 3] (.int 10) ∧
      lang.parse "out reduce(\x7b-2, 2\x7d, n, a x -> a * x - n)" = .ok [.out once] ∧
      lang.parse "out reduce(\x7b1, 2\x7d, reduce(\x7b-2, 0\x7d, n, a x -> a * x - n), a x -> a * x - n)" =
        .ok [.out twice] ∧
      (lang.eval globals once >>= fun v => .ofExcept v.render) = .done "-15" ∧
      (lang.eval globals once).Concur (lang.eval globals twice) := by
  intro lang quotient sum step once twice globals
  obtain ⟨hmap, hreduce, hwritten⟩ := iteration_splits lang
  have hread : lang.parse "out reduce(\x7b-2, 2\x7d, n, a x -> a * x - n)" = .ok [.out once] := by
    decide +kernel
  have hname : lang.parse "out n" = .ok [.out (.var ⟨"n", ⟨1, 5⟩⟩)] := by decide +kernel
  have hstep : (step 24).IsWrittenLambda lang 2 :=
    ⟨.arg ⟨"reduce", ⟨1, 5⟩⟩
      [.range (.int ⟨"-2", ⟨1, 14⟩⟩) (.int ⟨"2", ⟨1, 17⟩⟩), .var ⟨"n", ⟨1, 21⟩⟩] .hole [], _, _, rfl, rfl,
      .inside hread List.mem_cons_self rfl⟩
  refine ⟨hmap _ _ _ _ rfl, by decide +kernel, hreduce _ _ _ _ _ rfl, hread, by decide +kernel,
    by decide +kernel, ?_⟩
  exact hwritten lang ["var n = 3"] globals (-2) 0 2 (.var ⟨"n", ⟨1, 5⟩⟩) (step 24) once twice .refl
    (by decide) (by decide) (by decide) (by decide +kernel) (.inside hname List.mem_cons_self rfl) hstep
    (by decide +kernel) (by decide +kernel)

end RangeScript
