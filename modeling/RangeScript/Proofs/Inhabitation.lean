import RangeScript.Evaluation
import RangeScript.Proofs.ScopeRelation

/-!
# Values of types

* `Value.HasTy v t` : the value `v`, a number or a sequence, is of type `t`;
* `Shape.FilledBy a b` : `b` is `a` with some of its unknown parts filled in. What is noted with an empty
  sequence may be less than what its type tells;
* `Value.Inhabits v t` : the value `v` is of the type `t`, and what is noted with the sequences in it is
  filled in by the type. A lambda is of the type that is the same lambda, written in a scope of the
  types of its scope, so lambdas may be bound, returned and collected in sequences;
* `Ty.IsData t` : no lambda is in the type `t`. Such a type is known by its shape (`Ty.IsData.eq_of_shape`),
  and its values are numbers and sequences of such (`Value.Inhabits.hasTy`).
-/

namespace RangeScript

/-- The value is a number or a sequence of the type. What is noted with a sequence does not count, and
an empty sequence is of every type of sequences. -/
inductive Value.HasTy : Value → Ty → Prop
  | int (n : Int64) : HasTy (.int n) .int
  | real (x : Float) : HasTy (.real x) .real
  | seq {elements : List Value} {t : Ty} (noted : Shape) :
    (∀ v ∈ elements, HasTy v t) → HasTy (.seq elements noted) (.seq t)

/-- The second shape is the first with some occurrences of `nothing` replaced. -/
inductive Shape.FilledBy : Shape → Shape → Prop
  | nothing (s : Shape) : FilledBy .nothing s
  | int : FilledBy .int .int
  | real : FilledBy .real .real
  | seq {a b : Shape} : FilledBy a b → FilledBy (.seq a) (.seq b)
  | lambda (arity : Nat) : FilledBy (.lambda arity) (.lambda arity)

inductive Value.Inhabits : Value → Ty → Prop
  | int (n : Int64) : Inhabits (.int n) .int
  | real (x : Float) : Inhabits (.real x) .real
  | seq {elements : List Value} {noted : Shape} {t : Ty} :
    noted.FilledBy t.shape → (∀ v ∈ elements, Inhabits v t) →
    Inhabits (.seq elements noted) (.seq t)
  | lambda {values : Scope Value} {types : Scope Ty} (params : List String) (body : Expr) :
    Scope.Related Inhabits values types →
    Inhabits (.lambda ⟨params, body, values⟩) (.lambda ⟨params, body, types⟩)

/-- Numbers and sequences of data; no lambda is in the type. -/
def Ty.IsData (t : Ty) : Prop := t.shape.isPrintable = true

/-- Types of data are the same if their shapes are. -/
theorem Ty.IsData.eq_of_shape {t u : Ty} (ht : t.IsData) (h : t.shape = u.shape) : t = u := by
  unfold IsData at ht
  generalize hs : t.shape = s at ht h
  induction s generalizing t u with
  | nothing => cases t <;> cases hs; cases u <;> cases h; rfl
  | int => cases t <;> cases hs; cases u <;> cases h; rfl
  | real => cases t <;> cases hs; cases u <;> cases h; rfl
  | seq elem ih =>
    cases t with
    | seq t =>
      cases u with
      | seq u =>
        injection hs with hs
        injection h with h
        rw [ih hs ht h]
      | _ => cases h
    | _ => cases hs
  | lambda arity => cases ht

namespace Value

variable {v : Value} {t : Ty}

/-- The shape that a value shows is filled in by its type. -/
theorem Inhabits.shape (h : v.Inhabits t) : v.shape.FilledBy t.shape := by
  cases h with
  | int n => exact .int
  | real x => exact .real
  | seq hnoted _ => exact .seq hnoted
  | lambda params body _ => exact .lambda _

theorem Inhabits.hasTy (h : v.Inhabits t) (ht : t.IsData) : v.HasTy t := by
  unfold Ty.IsData at ht
  generalize hs : t.shape = s at ht
  induction s generalizing v t with
  | seq elem ih =>
    cases h with
    | seq _ hall =>
      injection hs with hs
      exact .seq _ fun w hw => ih (hall w hw) hs ht
    | _ => cases hs
  | lambda arity => cases ht
  | _ =>
    cases h with
    | int n => exact .int n
    | real x => exact .real x
    | _ => cases hs

/-- A value of a type of numbers shows this type. -/
theorem Inhabits.shape_eq_of_isNumeric (h : v.Inhabits t) (ht : t.shape.isNumeric = true) :
    v.shape = t.shape := by
  cases h with
  | int n => rfl
  | real x => rfl
  | _ => cases ht

/-- A number is of the type that it shows. -/
theorem inhabits_of_isNumeric (h : v.shape.isNumeric = true) : v.Inhabits (.ofShape v.shape) := by
  cases v with
  | int n => exact .int n
  | real x => exact .real x
  | _ => cases h

theorem inhabits_range (lo hi : Int64) :
    (Value.seq (Value.range lo hi) .int).Inhabits (.seq .int) := by
  refine .seq .int fun v hv => ?_
  obtain ⟨i, -, rfl⟩ := List.mem_map.1 hv
  exact .int _

/-- Computed elements of one type make a sequence of it: the shape of the first is noted, or nothing
if there is none. -/
theorem inhabits_seqOf {elements : List Value} (h : ∀ v ∈ elements, v.Inhabits t) :
    (Builtin.seqOf elements).Inhabits (.seq t) := by
  refine .seq ?_ h
  cases elements with
  | nil => exact .nothing _
  | cons v vs => exact (h v List.mem_cons_self).shape

/-! ## Texts -/

theorem renderAllAfter_eq_ok {vs : List Value}
    (h : ∀ v ∈ vs, ∀ before, ∃ text, v.renderAfter before = .ok text) (before separator : String) :
    ∃ text, renderAllAfter before separator vs = .ok text := by
  induction vs generalizing before separator with
  | nil => exact ⟨_, rfl⟩
  | cons v vs ih =>
    obtain ⟨hv, hvs⟩ := List.forall_mem_cons.1 h
    obtain ⟨text, htext⟩ := hv (before ++ separator)
    obtain ⟨texts, htexts⟩ := ih hvs text ", "
    refine ⟨texts, ?_⟩
    rw [renderAllAfter, htext]
    exact htexts

theorem HasTy.renderAfter_eq_ok (h : v.HasTy t) (before : String) :
    ∃ text, v.renderAfter before = .ok text := by
  induction h generalizing before with
  | int n => exact ⟨_, rfl⟩
  | real x => exact ⟨_, rfl⟩
  | seq _ _ ih =>
    rw [renderAfter]
    exact renderAllAfter_eq_ok ih _ _

/-- Numbers and sequences have a text. -/
theorem HasTy.render_eq_ok (h : v.HasTy t) :
    ∃ text, v.render = .ok text := h.renderAfter_eq_ok ""

end Value

end RangeScript
