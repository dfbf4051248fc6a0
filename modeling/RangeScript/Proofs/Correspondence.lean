import RangeScript.Proofs.DecimalText
import RangeScript.Proofs.FreeNames
import RangeScript.Typing

/-!
# Expressions that correspond

* `Corresponds number near s s' e e'` : `e` in the scope `s` and `e'` in the scope `s'` are built alike, and names
  stand for the same where they have the same place; a name may also correspond to the literal of a number
  that it stands for. Bodies of lambdas correspond for all arguments that fit the parameters. Positions may
  differ as far as `near` allows;
* `Carries number σ s s' x` : what the name `x` stands for in `s`, its replacement stands for in `s'`.

Replacing free names by what carries their meaning over gives a corresponding expression, unless a parameter
captures a replacement (`Expr.Surface.corresponds`).
-/

namespace RangeScript

open RangeScript.Language (firstRepeated?)

/-! ## Parameters in front of a scope -/

namespace Scope

variable {α : Type} {s : Scope α} {x : String}

theorem get?_eq_none (h : x ∉ s.map (·.1)) : s.get? x = none := by
  rcases hget : s.get? x with _ | a
  · rfl
  · exact absurd (List.mem_map_of_mem (mem_of_get? hget)) h

theorem exists_get? (h : x ∈ s.map (·.1)) : ∃ a, s.get? x = some a := by
  induction s with
  | nil => cases h
  | cons binding rest ih =>
    obtain ⟨bound, a⟩ := binding
    unfold get?
    by_cases hx : x = bound
    · exact ⟨a, if_pos hx⟩
    · rw [if_neg hx]
      exact ih ((List.mem_cons.1 h).resolve_left hx)

/-- A scope with its names and what they stand for changed answers for a changed name as it did for the name, if
no other name was changed to it. -/
theorem get?_map {β : Type} {f : String → String} (g : α → β)
    (h : ∀ bound ∈ s.map (·.1), f bound = f x ↔ bound = x) :
    Scope.get? (s.map (Prod.map f g)) (f x) = (s.get? x).map g := by
  induction s with
  | nil => rfl
  | cons binding s ih =>
    obtain ⟨bound, a⟩ := binding
    obtain ⟨hbound, h⟩ := List.forall_mem_cons.1 h
    rw [List.map_cons, Prod.map, get?, get?, ih h]
    by_cases hx : x = bound
    · rw [if_pos hx, if_pos (congrArg f hx), Option.map_some]
    · rw [if_neg hx, if_neg fun hf => hx (hbound.1 hf.symm).symm]

end Scope

namespace Closure

variable {α : Type} {x : String} {params : List String}

/-- A name that is no parameter stands for what it does outside. -/
theorem get?_enter_of_not_mem (h : x ∉ params) (body : Expr) (scope : Scope α) (args : List α) :
    (enter ⟨params, body, scope⟩ args).get? x = scope.get? x := by
  have hnone : Scope.get? (params.zip args).reverse x = none := by
    refine Scope.get?_eq_none fun hmem => h ?_
    obtain ⟨pair, hpair, rfl⟩ := List.mem_map.1 hmem
    exact (List.of_mem_zip (List.mem_reverse.1 hpair)).1
  unfold enter
  rw [Scope.get?_append, hnone, Option.none_or]

/-- A parameter is bound to one of the arguments. -/
theorem exists_get?_zip (h : x ∈ params) {args : List α} (hargs : args.length = params.length) :
    ∃ a, Scope.get? (params.zip args).reverse x = some a := by
  refine Scope.exists_get? ?_
  rw [List.map_reverse, List.mem_reverse, List.map_fst_zip (Nat.le_of_eq hargs.symm)]
  exact h

theorem get?_enter_of_zip {args : List α} {a : α} (h : Scope.get? (params.zip args).reverse x = some a)
    (body : Expr) (scope : Scope α) : (enter ⟨params, body, scope⟩ args).get? x = some a := by
  unfold enter
  rw [Scope.get?_append, h, Option.some_or]

end Closure

/-! ## Correspondence -/

section Correspondence
variable {α : Type} (number : Int64 → α) (near : Position → Position → Prop)

mutual

/-- The expressions mean the same, each in its scope. -/
inductive Corresponds : Scope α → Scope α → Expr → Expr → Prop
  | bound {s s' : Scope α} {name name' : Lexeme} {a : α} :
    s.get? name.text = some a → s'.get? name'.text = some a → near name.pos name'.pos →
    Corresponds s s' (.var name) (.var name')
  | unbound {s s' : Scope α} {name : Lexeme} :
    s.get? name.text = none → s'.get? name.text = none → Corresponds s s' (.var name) (.var name)
  | literal {s s' : Scope α} {name literal : Lexeme} {n : Int64} :
    s.get? name.text = some (number n) → Whole.ofText? literal.text = some n →
    near name.pos literal.pos → Corresponds s s' (.var name) (.int literal)
  | int {s s' : Scope α} (literal : Lexeme) : Corresponds s s' (.int literal) (.int literal)
  | real {s s' : Scope α} (literal : Lexeme) : Corresponds s s' (.real literal) (.real literal)
  | binary {s s' : Scope α} {l l' r r' : Expr} (op : Lexeme) :
    Corresponds s s' l l' → Corresponds s s' r r' →
    Corresponds s s' (.binary l op r) (.binary l' op r')
  | range {s s' : Scope α} {l l' r r' : Expr} :
    Corresponds s s' l l' → Corresponds s s' r r' → Corresponds s s' (.range l r) (.range l' r')
  | call {s s' : Scope α} {args args' : List Expr} (function : Lexeme) :
    CorrespondsArgs s s' args args' →
    Corresponds s s' (.call function args) (.call function args')

/-- The arguments of a call mean the same. Lambdas have as many parameters, and the bodies mean the same
whatever the parameters stand for. -/
inductive CorrespondsArg : Scope α → Scope α → Expr → Expr → Prop
  | expr {s s' : Scope α} {e e' : Expr} : Corresponds s s' e e' → CorrespondsArg s s' e e'
  | lambda {s s' : Scope α} {params params' : List Lexeme} {body body' : Expr} :
    firstRepeated? [] params = firstRepeated? [] params' → params.length = params'.length →
    (∀ args : List α, args.length = params.length →
      Corresponds (Closure.enter ⟨params.map (·.text), body, s⟩ args)
        (Closure.enter ⟨params'.map (·.text), body', s'⟩ args) body body') →
    CorrespondsArg s s' (.lambda params body) (.lambda params' body')

inductive CorrespondsArgs : Scope α → Scope α → List Expr → List Expr → Prop
  | nil {s s' : Scope α} : CorrespondsArgs s s' [] []
  | cons {s s' : Scope α} {e e' : Expr} {es es' : List Expr} :
    CorrespondsArg s s' e e' → CorrespondsArgs s s' es es' →
    CorrespondsArgs s s' (e :: es) (e' :: es')

end

variable {number near}

/-- Corresponding expressions are named in messages by near positions. -/
theorem Corresponds.near_pos (hrefl : ∀ p, near p p) {s s' : Scope α} {e e' : Expr}
    (h : Corresponds number near s s' e e') : near e.pos e'.pos :=
  match h with
  | .bound _ _ hpos => hpos
  | .literal _ _ hpos => hpos
  | .unbound _ _ | .int _ | .real _ | .binary _ _ _ | .call _ _ => hrefl _
  | .range hl _ => hl.near_pos hrefl

/-! ## Replacing names -/

/-- What the name stands for in `s`, its replacement stands for in `s'`. -/
def Carries (number : Int64 → α) (σ : Scope Replacement) (s s' : Scope α) (x : String) : Prop :=
  match σ.get? x with
  | none => s'.get? x = s.get? x
  | some (.name y) => ∃ a, s.get? x = some a ∧ s'.get? y = some a
  | some (.number n) => s.get? x = some (number n)

section Replacing
variable {σ : Scope Replacement} {s s' : Scope α} {x : String}

theorem carries_of_none (hσ : σ.get? x = none) : Carries number σ s s' x ↔ s'.get? x = s.get? x := by
  unfold Carries
  rw [hσ]

theorem carries_of_name {y : String} (hσ : σ.get? x = some (.name y)) :
    Carries number σ s s' x ↔ ∃ a, s.get? x = some a ∧ s'.get? y = some a := by
  unfold Carries
  rw [hσ]

theorem carries_of_number {n : Int64} (hσ : σ.get? x = some (.number n)) :
    Carries number σ s s' x ↔ s.get? x = some (number n) := by
  unfold Carries
  rw [hσ]

/-- Inside a lambda its parameters are replaced no more, and what is replaced keeps its meaning as long as no
parameter is the new name. -/
theorem Carries.enter {params : List Lexeme} {args : List α} (hargs : args.length = params.length)
    (h : binds params x = false → Carries number σ s s' x)
    (hcapture : ∀ y, σ.get? x = some (.name y) → binds params x = false → binds params y = false)
    (body body' : Expr) :
    Carries number (σ.without params) (Closure.enter ⟨params.map (·.text), body, s⟩ args)
      (Closure.enter ⟨params.map (·.text), body', s'⟩ args) x := by
  have hwithout := σ.get?_without params x
  cases hx : binds params x with
  | true =>
    have hlength : args.length = (params.map (·.text)).length := by rwa [List.length_map]
    obtain ⟨a, ha⟩ := Closure.exists_get?_zip (binds_iff.1 hx) hlength
    rw [hx, if_pos rfl] at hwithout
    rw [carries_of_none hwithout, Closure.get?_enter_of_zip ha, Closure.get?_enter_of_zip ha]
  | false =>
    rw [hx, if_neg Bool.false_ne_true] at hwithout
    have hcarries := h hx
    have hsame := fun (body : Expr) (scope : Scope α) =>
      Closure.get?_enter_of_not_mem (binds_eq_false.1 hx) body scope args
    rcases hσ : σ.get? x with _ | ⟨y⟩ | ⟨n⟩ <;> rw [hσ] at hwithout
    · rw [carries_of_none hσ] at hcarries
      rw [carries_of_none hwithout, hsame, hsame, hcarries]
    · rw [carries_of_name hσ] at hcarries
      have hy := binds_eq_false.1 (hcapture y hσ hx)
      rw [carries_of_name hwithout, hsame, Closure.get?_enter_of_not_mem hy]
      exact hcarries
    · rw [carries_of_number hσ] at hcarries
      rw [carries_of_number hwithout, hsame]
      exact hcarries

theorem Expr.anyFree_of_mem {e : Expr} {es : List Expr} (he : e ∈ es) (h : e.hasFree x = true) :
    anyFree x es = true := by
  induction es with
  | nil => cases he
  | cons e' es ih =>
    rw [anyFree, Bool.or_eq_true]
    rcases List.mem_cons.1 he with rfl | he
    · exact .inl h
    · exact .inr (ih he)

theorem Expr.captures_of_anyCaptures {y : String} {e : Expr} {es : List Expr}
    (h : anyCaptures x y es = false) (he : e ∈ es) : e.captures x y = false := by
  induction es with
  | nil => cases he
  | cons e' es ih =>
    rw [anyCaptures, Bool.or_eq_false_iff] at h
    rcases List.mem_cons.1 he with rfl | he
    · exact h.1
    · exact ih h.2 he

theorem correspondsArgs_replaceAll {place : Position → Position} {es : List Expr}
    (h : ∀ e ∈ es, CorrespondsArg number near s s' e (e.replace place σ)) :
    CorrespondsArgs number near s s' es (Expr.replaceAll place σ es) := by
  induction es with
  | nil => exact .nil
  | cons e es ih =>
    obtain ⟨he, hes⟩ := List.forall_mem_cons.1 h
    exact .cons he (ih hes)

end Replacing

section Surface
variable {place : Position → Position}

theorem corresponds_var (hrefl : ∀ p, near p p) (hplace : ∀ p, near p (place p))
    {σ : Scope Replacement} {s s' : Scope α} {name : Lexeme} (h : Carries number σ s s' name.text) :
    Corresponds number near s s' (.var name) ((Expr.var name).replace place σ) := by
  rw [Expr.replace]
  rcases hσ : σ.get? name.text with _ | ⟨y⟩ | ⟨n⟩
  · rw [carries_of_none hσ] at h
    rcases hget : s.get? name.text with _ | a
    · exact .unbound hget (h.trans hget)
    · exact .bound hget (h.trans hget) (hrefl _)
  · obtain ⟨a, ha, ha'⟩ := (carries_of_name hσ).1 h
    exact .bound ha ha' (hplace _)
  · exact .literal ((carries_of_number hσ).1 h) (Whole.ofText?_text n) (hplace _)

mutual

/-- An expression corresponds to itself with its free names replaced, if the replacements carry the meaning of
the names and no parameter captures a replacement. -/
theorem Expr.Surface.corresponds (hrefl : ∀ p, near p p) (hplace : ∀ p, near p (place p)) {e : Expr}
    (he : e.Surface) {σ : Scope Replacement} {s s' : Scope α}
    (hfree : ∀ x, e.hasFree x = true → Carries number σ s s' x)
    (hcapture : ∀ x y, σ.get? x = some (.name y) → e.captures x y = false) :
    Corresponds number near s s' e (e.replace place σ) := by
  match he with
  | .var name => exact corresponds_var hrefl hplace (hfree _ (beq_self_eq_true _))
  | .int literal => exact .int literal
  | .real literal => exact .real literal
  | .binary op hleft hright =>
    simp only [Expr.hasFree, Bool.or_eq_true] at hfree
    simp only [Expr.captures, Bool.or_eq_false_iff] at hcapture
    refine .binary op (hleft.corresponds hrefl hplace ?_ ?_) (hright.corresponds hrefl hplace ?_ ?_)
    · exact fun x hx => hfree x (.inl hx)
    · exact fun x y hσ => (hcapture x y hσ).1
    · exact fun x hx => hfree x (.inr hx)
    · exact fun x y hσ => (hcapture x y hσ).2
  | .range hleft hright =>
    simp only [Expr.hasFree, Bool.or_eq_true] at hfree
    simp only [Expr.captures, Bool.or_eq_false_iff] at hcapture
    refine .range (hleft.corresponds hrefl hplace ?_ ?_) (hright.corresponds hrefl hplace ?_ ?_)
    · exact fun x hx => hfree x (.inl hx)
    · exact fun x y hσ => (hcapture x y hσ).1
    · exact fun x hx => hfree x (.inr hx)
    · exact fun x y hσ => (hcapture x y hσ).2
  | .call function hargs =>
    refine .call function (correspondsArgs_replaceAll fun a ha => ?_)
    refine (hargs a ha).corresponds hrefl hplace ?_ ?_
    · exact fun x hx => hfree x (Expr.anyFree_of_mem ha hx)
    · exact fun x y hσ => Expr.captures_of_anyCaptures (hcapture x y hσ) ha

theorem Expr.SurfaceArg.corresponds (hrefl : ∀ p, near p p) (hplace : ∀ p, near p (place p)) {e : Expr}
    (he : e.SurfaceArg) {σ : Scope Replacement} {s s' : Scope α}
    (hfree : ∀ x, e.hasFree x = true → Carries number σ s s' x)
    (hcapture : ∀ x y, σ.get? x = some (.name y) → e.captures x y = false) :
    CorrespondsArg number near s s' e (e.replace place σ) := by
  match he with
  | .expr he => exact .expr (he.corresponds hrefl hplace hfree hcapture)
  | .lambda params hbody =>
    simp only [Expr.hasFree, Bool.and_eq_true, Bool.not_eq_true'] at hfree
    simp only [Expr.captures, Bool.and_eq_false_iff, Bool.or_eq_false_iff, Bool.not_eq_false'] at hcapture
    refine .lambda rfl rfl fun args hargs => hbody.corresponds hrefl hplace ?_ ?_
    · intro x hx
      refine Carries.enter hargs (fun hbinds => hfree x ⟨hbinds, hx⟩) (fun y hσ hbinds => ?_) _ _
      rcases hcapture x y hσ with hbound | ⟨hparam | hnone, -⟩
      · rw [hbinds] at hbound
        cases hbound
      · exact hparam
      · rw [hx] at hnone
        cases hnone
    · intro x y hσ
      rw [Scope.get?_without] at hσ
      split at hσ
      · cases hσ
      · next hbinds => exact ((hcapture x y hσ).resolve_left hbinds).2

end

end Surface

/-- What corresponds to no lambda is no lambda. -/
theorem CorrespondsArg.corresponds {s s' : Scope α} {e e' : Expr} (h : CorrespondsArg number near s s' e e')
    (he : e.Surface) : Corresponds number near s s' e e' := by
  cases h with
  | expr h => exact h
  | lambda _ _ _ => cases he

/-- An expression means the same in scopes in which its free names stand for the same. -/
theorem Expr.SurfaceArg.corresponds_self {e : Expr} (he : e.SurfaceArg) {s s' : Scope α}
    (h : ∀ x, e.hasFree x = true → s'.get? x = s.get? x) : CorrespondsArg number Eq s s' e e := by
  have hcorresponds : CorrespondsArg number Eq s s' e (e.replace id []) :=
    he.corresponds (fun _ => rfl) (fun _ => rfl) h fun _ _ hσ => by cases hσ
  rwa [Expr.replace_nil] at hcorresponds

theorem Expr.Surface.corresponds_self {e : Expr} (he : e.Surface) {s s' : Scope α}
    (h : ∀ x, e.hasFree x = true → s'.get? x = s.get? x) : Corresponds number Eq s s' e e :=
  ((Expr.SurfaceArg.expr he).corresponds_self h).corresponds he

end Correspondence

end RangeScript
