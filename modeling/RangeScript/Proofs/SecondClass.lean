import RangeScript.Proofs.Recursion

/-!
# Lambdas are second class

In a text a lambda is always an argument, and the functions hand no lambda on: they apply it to data in the
scope that it was written in. So where all names stand for data, what can be written has a value of data or
fails, and each application leads into an expression with fewer lambdas inside each other
(`Language.obeys_evalWith`, `Language.obeys_inferWith`).

* `Value.Kept P` : `P` is a property of data that all rules of evaluation keep;
* `Value.IsArgIn P scope d v`, `Ty.IsArgIn types d t` : what an argument in the scope can be.

Nothing is assumed of types for evaluation, so it holds of evaluation without a check.
-/

namespace RangeScript

open Outcome

/-! ## Errors about lambdas that have no text -/

def TypeError.isUnprintable : TypeError → Bool
  | notPrintable _ _ => true
  | atOperator _ cause | inFunction _ cause => cause.isUnprintable
  | _ => false

def RunError.isUnprintable : RunError → Bool
  | lambdaOutput => true
  | typing cause => cause.isUnprintable
  | atOperator _ cause | inFunction _ cause => cause.isUnprintable
  | _ => false

/-- Not about a lambda that has no text. -/
def TypeError.IsPlain (e : TypeError) : Prop := e.isUnprintable = false

/-- Not about a lambda that has no text. -/
def RunError.IsPlain (e : RunError) : Prop := e.isUnprintable = false

/-! ## Values of data -/

mutual

/-- Numbers and sequences of data. -/
def Value.isData : Value → Bool
  | int _ | real _ => true
  | seq elements _ => areData elements
  | lambda _ => false

def Value.areData : List Value → Bool
  | [] => true
  | v :: vs => v.isData && areData vs

end

namespace Value

theorem areData_iff {vs : List Value} : areData vs = true ↔ ∀ v ∈ vs, v.isData = true := by
  induction vs with
  | nil => simp [areData]
  | cons v vs ih => simp [areData, ih]

mutual

/-- Data have a text. -/
theorem renderAfter_eq_ok_of_isData :
    (v : Value) → v.isData = true → ∀ before, ∃ text, v.renderAfter before = .ok text
  | int _, _, _ => ⟨_, rfl⟩
  | real _, _, _ => ⟨_, rfl⟩
  | seq elements _, h, before => by
    rw [isData] at h
    rw [renderAfter]
    exact renderAllAfter_eq_ok (renderAll_eq_ok_of_areData elements h) _ _

theorem renderAll_eq_ok_of_areData :
    (vs : List Value) → areData vs = true →
    ∀ v ∈ vs, ∀ before, ∃ text, v.renderAfter before = .ok text
  | [], _ => by simp
  | v :: vs, h => by
    rw [areData, Bool.and_eq_true] at h
    exact List.forall_mem_cons.2
      ⟨renderAfter_eq_ok_of_isData v h.1, renderAll_eq_ok_of_areData vs h.2⟩

end

/-- A property of data that all rules of evaluation keep. -/
structure Kept (P : Value → Prop) : Prop where
  isData : ∀ v, P v → v.isData = true
  int : ∀ n, P (.int n)
  real : ∀ x, P (.real x)
  range : ∀ lo hi, P (.seq (Value.range lo hi) .int)
  elements : ∀ {vs noted}, P (.seq vs noted) → ∀ v ∈ vs, P v
  seqOf : ∀ {vs}, (∀ v ∈ vs, P v) → P (Builtin.seqOf vs)

theorem Kept.number {P : Value → Prop} (hP : Kept P) {v : Value} (hv : v.shape.isNumeric = true) : P v := by
  cases v with
  | int n => exact hP.int n
  | real x => exact hP.real x
  | _ => cases hv

/-- To be of data is kept. -/
theorem kept_isData : Kept (·.isData = true) where
  isData _ h := h
  int _ := rfl
  real _ := rfl
  range lo hi := by
    rw [isData, areData_iff]
    intro v hv
    obtain ⟨i, -, rfl⟩ := List.mem_map.1 hv
    rfl
  elements h := by
    rw [isData] at h
    exact areData_iff.1 h
  seqOf h := areData_iff.2 h

/-- What an argument can be: data, or a lambda that was written where it stands. -/
def IsArgIn (P : Value → Prop) (scope : Scope Value) (d : Nat) (v : Value) : Prop :=
  P v ∨ ∃ c, v = .lambda c ∧ c.WrittenIn scope d

end Value

/-! ## Evaluation -/

section Evaluation
variable {P : Value → Prop} {U : Prop} {d : Nat} {scope : Scope Value}
  {body : Scope Value → Expr → Outcome RunError Value}

namespace Builtin

theorem obeys_seqArg (hP : Value.Kept P) (index : Nat) {v : Value} (hv : v.IsArgIn P scope d) :
    (ofExcept (seqArg index v)).Obeys (fun elements => ∀ w ∈ elements, P w) RunError.IsPlain U := by
  rcases hv with hv | ⟨c, rfl, -⟩
  · cases v with
    | seq elements noted => exact hP.elements hv
    | _ => rfl
  · rfl

theorem obeys_lambdaArg (hP : Value.Kept P) (index arity : Nat) {v : Value}
    (hv : v.IsArgIn P scope d) :
    (ofExcept (lambdaArg index arity v)).Obeys (·.WrittenIn scope d) RunError.IsPlain U := by
  rcases hv with hv | ⟨c, rfl, hc⟩
  · cases v with
    | lambda c => cases hP.isData _ hv
    | _ => rfl
  · rw [lambdaArg]
    split
    · exact hc
    · rfl

theorem obeys_initialArg (index : Nat) {v : Value} (hv : v.IsArgIn P scope d) :
    (ofExcept (initialArg index v)).Obeys (fun _ => P v) RunError.IsPlain U := by
  rcases hv with hv | ⟨c, rfl, -⟩
  · cases v with
    | lambda c => rfl
    | _ => exact hv
  · rfl

/-- Functions apply lambdas to data only, and hand no lambda on. -/
theorem obeys_call (hP : Value.Kept P) (hbody : ObeysBelow P RunError.IsPlain U d body)
    (hscope : scope.All P) (f : Builtin) {args : List Value} (hargs : ∀ v ∈ args, v.IsArgIn P scope d) :
    (f.call body args).Obeys P RunError.IsPlain U := by
  unfold call
  split
  · next s g =>
    refine (obeys_seqArg hP 1 (hargs s (by simp))).bind fun elements helements => ?_
    refine (obeys_lambdaArg hP 2 1 (hargs g (by simp))).bind fun c hc => ?_
    refine (Obeys.mapM helements fun v hv => ?_).bind fun results hresults => hP.seqOf hresults
    exact hbody.apply hc hscope (List.forall_mem_singleton.2 hv)
  · next s initial g =>
    refine (obeys_seqArg hP 1 (hargs s (by simp))).bind fun elements helements => ?_
    refine (obeys_initialArg 2 (hargs initial (by simp))).bind fun _ hinitial => ?_
    refine (obeys_lambdaArg hP 3 2 (hargs g (by simp))).bind fun c hc => ?_
    refine Obeys.foldlM helements hinitial fun acc v hacc hv => ?_
    exact hbody.apply hc hscope (by simp [hacc, hv])
  · rfl

end Builtin

theorem Operator.obeys_apply (hP : Value.Kept P) (operator : Operator) (v w : Value) :
    (ofExcept (operator.apply v w)).Obeys P RunError.IsPlain U := by
  rcases operator.apply_cases v w with ⟨happly, -⟩ | ⟨x, happly, hx⟩ |
    ⟨_, _, e, _, -, -, happly, hfault, -⟩
  · rw [happly]
    rfl
  · rw [happly]
    exact hP.number (isNumeric_of_resultShape hx).2.2
  · rw [happly]
    rcases hfault with rfl | rfl <;> rfl

namespace Language

variable {lang : Language}

theorem obeys_boundValue (bound : Expr) (v : Value) :
    (boundValue bound v).Obeys (fun _ => True) RunError.IsPlain U :=
  .ofOption (fun _ _ => trivial) rfl

mutual

/-- What can be written has a value with the property, by induction on it. -/
theorem obeys_evalWith (hP : Value.Kept P) (hbody : ObeysBelow P RunError.IsPlain U d body)
    (hscope : scope.All P) :
    (e : Expr) → e.Surface → e.lambdaDepth ≤ d →
    (lang.evalWith body scope e).Obeys P RunError.IsPlain U
  | .int literal, _, _ => by
    rw [evalWith]
    refine Obeys.bind (P := fun _ => True) ?_ fun n _ => hP.int n
    unfold intLiteral
    split <;> trivial
  | .real literal, _, _ => by
    rw [evalWith]
    refine Obeys.bind (P := fun _ => True) ?_ fun x _ => hP.real x
    unfold realLiteral
    split <;> trivial
  | .var name, _, _ => by
    rw [evalWith]
    exact .ofOption (fun v hv => hscope.get? hv) rfl
  | .range left right, .range hleft hright, hd => by
    obtain ⟨hdl, hdr⟩ := Expr.lambdaDepth_range_le.1 hd
    rw [evalWith]
    refine (obeys_evalWith hP hbody hscope left hleft hdl).bind fun l _ => ?_
    refine (obeys_boundValue left l).bind fun lo _ => ?_
    refine (obeys_evalWith hP hbody hscope right hright hdr).bind fun r _ => ?_
    refine (obeys_boundValue right r).bind fun hi _ => ?_
    dsimp only
    split
    · exact hP.range lo hi
    · rfl
  | .binary left op right, .binary _ hleft hright, hd => by
    obtain ⟨hdl, hdr⟩ := Expr.lambdaDepth_binary_le.1 hd
    rw [evalWith]
    refine (obeys_evalWith hP hbody hscope left hleft hdl).bind fun l _ => ?_
    refine (obeys_evalWith hP hbody hscope right hright hdr).bind fun r _ => ?_
    refine Obeys.bind (P := fun _ => True) (.ofOption (fun _ _ => trivial) rfl) fun operator _ => ?_
    exact (operator.obeys_apply hP l r).mapError fun _ h => h
  | .call function args, .call _ hargs, hd => by
    rw [evalWith]
    refine Obeys.bind (P := fun _ => True) (.ofOption (fun _ _ => trivial) rfl) fun f _ => ?_
    refine (obeys_evalAllWith hP hbody hscope args hargs (by rwa [Expr.lambdaDepth] at hd)).bind
      fun vs hvs => ?_
    exact (f.obeys_call hP hbody hscope hvs).mapError fun _ h => h

theorem obeys_evalAllWith (hP : Value.Kept P) (hbody : ObeysBelow P RunError.IsPlain U d body)
    (hscope : scope.All P) :
    (es : List Expr) → (∀ e ∈ es, e.SurfaceArg) → Expr.lambdaDepthAll es ≤ d →
    (lang.evalAllWith body scope es).Obeys (fun vs => ∀ v ∈ vs, v.IsArgIn P scope d)
      RunError.IsPlain U
  | [], _, _ => by
    rw [evalAllWith]
    intro v hv
    cases hv
  | e :: es, hes, hd => by
    obtain ⟨he, hes⟩ := List.forall_mem_cons.1 hes
    obtain ⟨hde, hdes⟩ := Expr.lambdaDepthAll_cons_le.1 hd
    rw [evalAllWith]
    have hfirst : (lang.evalWith body scope e).Obeys (·.IsArgIn P scope d) RunError.IsPlain U := by
      cases he with
      | expr he => exact (obeys_evalWith hP hbody hscope e he hde).imp fun _ => .inl
      | lambda params hinside =>
        rw [evalWith]
        rw [Expr.lambdaDepth] at hde
        exact .inr ⟨_, rfl, rfl, hinside, hde⟩
    refine hfirst.bind fun v hv => (obeys_evalAllWith hP hbody hscope es hes hdes).bind fun vs hvs => ?_
    exact List.forall_mem_cons.2 ⟨hv, hvs⟩

end

end Language

end Evaluation

/-! ## Typing -/

/-- What the type of an argument can be: a type of data, or a lambda that was written where it stands. -/
def Ty.IsArgIn (types : Scope Ty) (d : Nat) (t : Ty) : Prop :=
  t.IsData ∨ ∃ c, t = .lambda c ∧ c.WrittenIn types d

section Typing
variable {U : Prop} {d : Nat} {types : Scope Ty} {body : Scope Ty → Expr → Outcome TypeError Ty}

namespace Builtin

theorem obeys_seqTy (index : Nat) {t : Ty} (ht : t.IsArgIn types d) :
    (ofExcept (seqTy index t)).Obeys Ty.IsData TypeError.IsPlain U := by
  rcases ht with ht | ⟨c, rfl, -⟩
  · cases t with
    | seq elem => exact ht
    | _ => rfl
  · rfl

theorem obeys_lambdaTy (index arity : Nat) {t : Ty} (ht : t.IsArgIn types d) :
    (ofExcept (lambdaTy index arity t)).Obeys (fun _ => ∃ c, t = .lambda c ∧ c.WrittenIn types d)
      TypeError.IsPlain U := by
  refine .ofExcept (fun _ hok => ?_) fun e herror => ?_
  · obtain hshape := lambdaTy_eq_ok.1 hok
    rcases ht with ht | hlambda
    · unfold Ty.IsData at ht
      rw [hshape] at ht
      cases ht
    · exact hlambda
  · unfold lambdaTy at herror
    split at herror
    · split at herror <;> cases herror
      rfl
    · cases herror
      rfl

theorem obeys_initialTy (index : Nat) {t : Ty} (ht : t.IsArgIn types d) :
    (ofExcept (initialTy index t)).Obeys (fun _ => t.IsData) TypeError.IsPlain U := by
  rcases ht with ht | ⟨c, rfl, -⟩
  · unfold initialTy
    split
    · rfl
    · exact ht
  · rfl

/-- The rules of functions apply lambdas to types of data only, and no result is a lambda. -/
theorem obeys_resultTy (hbody : ObeysBelow Ty.IsData TypeError.IsPlain U d body)
    (hscope : types.All Ty.IsData) (f : Builtin) {tys : List Ty} (htys : ∀ t ∈ tys, t.IsArgIn types d) :
    (f.resultTy body tys).Obeys Ty.IsData TypeError.IsPlain U := by
  unfold resultTy
  split
  · next s g =>
    refine (obeys_seqTy 1 (htys s (by simp))).bind fun elem helem => ?_
    refine (obeys_lambdaTy 2 1 (htys g (by simp))).bind fun _ hg => ?_
    obtain ⟨c, rfl, hc⟩ := hg
    exact (hbody.apply hc hscope (List.forall_mem_singleton.2 helem)).bind fun result hresult => hresult
  · next s initial g =>
    refine (obeys_seqTy 1 (htys s (by simp))).bind fun elem helem => ?_
    refine (obeys_initialTy 2 (htys initial (by simp))).bind fun _ hinitial => ?_
    refine (obeys_lambdaTy 3 2 (htys g (by simp))).bind fun _ hg => ?_
    obtain ⟨c, rfl, hc⟩ := hg
    have hargs : ∀ t ∈ [initial, elem], t.IsData := by simp [hinitial, helem]
    refine (hbody.apply hc hscope hargs).bind fun result _ => ?_
    split
    · exact hinitial
    · rfl
  · rfl

end Builtin

theorem Operator.obeys_resultShape (operator : Operator) (left right : Shape) :
    (ofExcept (operator.resultShape left right)).Obeys (·.isNumeric = true) TypeError.IsPlain U := by
  unfold resultShape promote
  split
  · split <;> rfl
  · split <;> rfl

namespace Language

variable {lang : Language}

theorem obeys_boundTy (bound : Expr) (t : Ty) :
    (boundTy bound t).Obeys (fun _ => True) TypeError.IsPlain U := by
  unfold boundTy
  split <;> trivial

mutual

/-- What can be written has a type of data, by induction on it. -/
theorem obeys_inferWith (hbody : ObeysBelow Ty.IsData TypeError.IsPlain U d body)
    (hscope : types.All Ty.IsData) :
    (e : Expr) → e.Surface → e.lambdaDepth ≤ d →
    (lang.inferWith body types e).Obeys Ty.IsData TypeError.IsPlain U
  | .int literal, _, _ => by
    rw [inferWith]
    refine Obeys.bind (P := fun _ => True) ?_ fun _ _ => rfl
    unfold intLiteral
    split <;> trivial
  | .real literal, _, _ => by
    rw [inferWith]
    refine Obeys.bind (P := fun _ => True) ?_ fun _ _ => rfl
    unfold realLiteral
    split <;> trivial
  | .var name, _, _ => by
    rw [inferWith]
    exact .ofOption (fun t ht => hscope.get? ht) rfl
  | .range left right, .range hleft hright, hd => by
    obtain ⟨hdl, hdr⟩ := Expr.lambdaDepth_range_le.1 hd
    rw [inferWith]
    refine (obeys_inferWith hbody hscope left hleft hdl).bind fun l _ => ?_
    refine (obeys_boundTy left l).bind fun _ _ => ?_
    refine (obeys_inferWith hbody hscope right hright hdr).bind fun r _ => ?_
    exact (obeys_boundTy right r).bind fun _ _ => rfl
  | .binary left op right, .binary _ hleft hright, hd => by
    obtain ⟨hdl, hdr⟩ := Expr.lambdaDepth_binary_le.1 hd
    rw [inferWith]
    refine (obeys_inferWith hbody hscope left hleft hdl).bind fun l _ => ?_
    refine (obeys_inferWith hbody hscope right hright hdr).bind fun r _ => ?_
    refine Obeys.bind (P := fun _ => True) (.ofOption (fun _ _ => trivial) rfl) fun operator _ => ?_
    refine (Obeys.mapError (f := TypeError.atOperator op) (operator.obeys_resultShape l.shape r.shape)
      fun _ h => h).bind fun s hs => ?_
    exact Ty.isData_of_isNumeric (by rwa [Ty.shape_ofShape])
  | .call function args, .call _ hargs, hd => by
    rw [inferWith]
    refine Obeys.bind (P := fun _ => True) (.ofOption (fun _ _ => trivial) rfl) fun f _ => ?_
    refine (obeys_inferAllWith hbody hscope args hargs (by rwa [Expr.lambdaDepth] at hd)).bind
      fun tys htys => ?_
    exact (f.obeys_resultTy hbody hscope htys).mapError fun _ h => h

theorem obeys_inferAllWith (hbody : ObeysBelow Ty.IsData TypeError.IsPlain U d body)
    (hscope : types.All Ty.IsData) :
    (es : List Expr) → (∀ e ∈ es, e.SurfaceArg) → Expr.lambdaDepthAll es ≤ d →
    (lang.inferAllWith body types es).Obeys (fun tys => ∀ t ∈ tys, t.IsArgIn types d)
      TypeError.IsPlain U
  | [], _, _ => by
    rw [inferAllWith]
    intro t ht
    cases ht
  | e :: es, hes, hd => by
    obtain ⟨he, hes⟩ := List.forall_mem_cons.1 hes
    obtain ⟨hde, hdes⟩ := Expr.lambdaDepthAll_cons_le.1 hd
    rw [inferAllWith]
    have hfirst : (lang.inferWith body types e).Obeys (·.IsArgIn types d) TypeError.IsPlain U := by
      cases he with
      | expr he => exact (obeys_inferWith hbody hscope e he hde).imp fun _ => .inl
      | lambda params hinside =>
        rw [Expr.lambdaDepth] at hde
        rw [inferWith]
        split
        · rfl
        · exact .inr ⟨_, rfl, rfl, hinside, hde⟩
    refine hfirst.bind fun t ht => (obeys_inferAllWith hbody hscope es hes hdes).bind fun ts hts => ?_
    exact List.forall_mem_cons.2 ⟨ht, hts⟩

end

end Language

end Typing

end RangeScript
