import RangeScript.Proofs.Recursion
import RangeScript.Proofs.Rejection

/-!
# Typing and evaluation check alike

Operators and functions have a rule for types and a rule for values, each with checks of its own.

* `Value.ty v` : the type that a value shows;
* `Demand` : what a function asks of an argument, and `Builtin.demands f` : what it asks of each;
* `Builtin.refusal? f shapes` : what is wrong with arguments of these shapes, of which `f` looks at the number first
  and then at one after the other;
* `Outcome.Checked wrap complaint P x` : `x` fails with the complaint, or there is none and `x` goes on as `P` says;
* `Builtin.Refuses f args e` : `f` fails with `e` before it applies a lambda.

Both rules of a function start with the checks that `refusal?` sums up (`Builtin.checked_call`,
`Builtin.checked_resultTy`). Behind them evaluation does not fail before a lambda is applied, and typing, if no body
is known, fails only because of the result. So values are refused exactly as the types that they show
(`checks_agree`).
-/

namespace RangeScript

/-- The type that a value shows. Of the body of a lambda nothing is known. -/
def Value.ty (v : Value) : Ty := .ofShape v.shape

/-- Whether the error is about the arguments of a function, apart from what a lambda makes of them. -/
def TypeError.isArgument : TypeError → Bool
  | .argCount _ _ _ | .expectedSequence _ _ | .lambdaInitial _ | .expectedLambda _ _ | .lambdaArity _ _ _ => true
  | _ => false

/-! ## Operators -/

namespace Operator

theorem apply_eq_typing_iff {op : Operator} {l r : Value} {e : TypeError} :
    op.apply l r = .error (.typing e) ↔ op.resultShape l.shape r.shape = .error e := by
  rcases op.apply_cases l r with ⟨happly, hshape⟩ | ⟨v, happly, hshape⟩ |
    ⟨a, b, fault, s, -, -, happly, hfault, hshape⟩
  · simp [happly, hshape]
  · simp [happly, hshape]
  · rcases hfault with rfl | rfl <;> simp [happly, hshape]

theorem resultShape_of_apply {op : Operator} {l r v : Value} (h : op.apply l r = .ok v) :
    op.resultShape l.shape r.shape = .ok v.shape := by
  rcases op.apply_cases l r with ⟨happly, -⟩ | ⟨w, happly, hshape⟩ | ⟨a, b, fault, s, -, -, happly, -, -⟩
  · cases happly.symm.trans h
  · cases happly.symm.trans h
    exact hshape
  · cases happly.symm.trans h

theorem fault_of_apply {op : Operator} {l r : Value} {e : RunError} (h : op.apply l r = .error e) :
    (∃ t, e = .typing t) ∨ (e = .overflow op.symbol ∨ e = .divisionByZero) ∧ ∃ a b, l = .int a ∧ r = .int b := by
  rcases op.apply_cases l r with ⟨happly, -⟩ | ⟨w, happly, -⟩ | ⟨a, b, fault, s, hl, hr, happly, hfault, -⟩
  · cases happly.symm.trans h
    exact .inl ⟨_, rfl⟩
  · cases happly.symm.trans h
  · cases happly.symm.trans h
    exact .inr ⟨hfault, a, b, hl, hr⟩

end Operator

/-! ## Complaints about arguments -/

/-- What a function asks of an argument. -/
inductive Demand
  | sequence
  | data
  | lambda (arity : Nat)

namespace Demand

/-- What is wrong with argument `index`, if it has the given shape. -/
def complaint? (index : Nat) : Demand → Shape → Option TypeError
  | sequence, .seq _ => none
  | sequence, found => some (.expectedSequence index found)
  | data, .lambda _ => some (.lambdaInitial index)
  | data, _ => none
  | lambda arity, .lambda found => if found = arity then none else some (.lambdaArity index arity found)
  | lambda _, found => some (.expectedLambda index found)

/-- The first complaint about arguments that are counted from `index`. -/
def firstComplaint? (index : Nat) : List Demand → List Shape → Option TypeError
  | demand :: demands, found :: rest =>
    (demand.complaint? index found).or (firstComplaint? (index + 1) demands rest)
  | _, _ => none

theorem complaint?_lambda_of_eq (index : Nat) {arity found : Nat} (h : found = arity) :
    (lambda arity).complaint? index (.lambda found) = none := if_pos h

theorem complaint?_lambda_of_ne (index : Nat) {arity found : Nat} (h : found ≠ arity) :
    (lambda arity).complaint? index (.lambda found) = some (.lambdaArity index arity found) := if_neg h

theorem isArgument_of_complaint? {index : Nat} {demand : Demand} {found : Shape} {e : TypeError}
    (h : demand.complaint? index found = some e) : e.isArgument = true := by
  unfold complaint? at h
  split at h
  · cases h
  · cases h
    rfl
  · cases h
    rfl
  · cases h
  · split at h
    · cases h
    · cases h
      rfl
  · cases h
    rfl

theorem isArgument_of_firstComplaint? {index : Nat} {demands : List Demand} {shapes : List Shape} {e : TypeError}
    (h : firstComplaint? index demands shapes = some e) : e.isArgument = true := by
  fun_induction firstComplaint? index demands shapes with
  | case1 index demand demands found rest ih =>
    rcases Option.or_eq_some_iff.1 h with hfirst | ⟨-, hrest⟩
    · exact isArgument_of_complaint? hfirst
    · exact ih hrest
  | case2 => cases h

end Demand

namespace Builtin

def demands : Builtin → List Demand
  | map => [.sequence, .lambda 1]
  | reduce => [.sequence, .data, .lambda 2]

/-- What is wrong with arguments of the given shapes. -/
def refusal? (f : Builtin) (shapes : List Shape) : Option TypeError :=
  if shapes.length = f.argCount then Demand.firstComplaint? 1 f.demands shapes
  else some (f.wrongCount shapes.length)

end Builtin

/-! ## Computations that start with checks -/

namespace Outcome

variable {ε α β : Type} {wrap : TypeError → ε}

/-- The computation starts with a check. It fails with the complaint, or there is none and it goes on as `P` says. -/
def Checked (wrap : TypeError → ε) (complaint : Option TypeError) (P : Outcome ε α → Prop) (x : Outcome ε α) :
    Prop :=
  match complaint with
  | some e => x = .failed (wrap e)
  | none => P x

theorem Checked.bind {c c' : Option TypeError} {x : Outcome ε α} {f : α → Outcome ε β} {P : Outcome ε β → Prop}
    (hx : x.Checked wrap c fun x => ∃ a, x = .done a) (hf : ∀ a, (f a).Checked wrap c' P) :
    (x >>= f).Checked wrap (c.or c') P := by
  cases c with
  | some e =>
    have hfailed : x = .failed (wrap e) := hx
    rw [hfailed]
    rfl
  | none =>
    obtain ⟨a, rfl⟩ : ∃ a, x = .done a := hx
    exact hf a

end Outcome

open Outcome

/-! ## Both rules of a function -/

namespace Builtin

section Single
variable (index arity : Nat) (t : Ty) (v : Value)

theorem checked_seqTy :
    (ofExcept (seqTy index t)).Checked id (Demand.sequence.complaint? index t.shape)
      fun x => ∃ elem, x = .done elem := by
  cases t with
  | seq elem => exact ⟨elem, rfl⟩
  | _ => rfl

theorem checked_initialTy :
    (ofExcept (initialTy index t)).Checked id (Demand.data.complaint? index t.shape)
      fun x => ∃ u, x = .done u := by
  cases t with
  | callable _ | lambda _ => rfl
  | _ => exact ⟨(), rfl⟩

theorem checked_lambdaTy :
    (ofExcept (lambdaTy index arity t)).Checked id ((Demand.lambda arity).complaint? index t.shape)
      fun x => ∃ u, x = .done u := by
  unfold lambdaTy
  cases t.shape with
  | lambda found =>
    by_cases h : found = arity
    · rw [Demand.complaint?_lambda_of_eq index h]
      exact ⟨(), congrArg ofExcept (if_pos h)⟩
    · rw [Demand.complaint?_lambda_of_ne index h]
      exact congrArg ofExcept (if_neg h)
  | _ => rfl

theorem checked_seqArg :
    (ofExcept (seqArg index v)).Checked .typing (Demand.sequence.complaint? index v.shape)
      fun x => ∃ elements, x = .done elements := by
  cases v with
  | seq elements _ => exact ⟨elements, rfl⟩
  | _ => rfl

theorem checked_initialArg :
    (ofExcept (initialArg index v)).Checked .typing (Demand.data.complaint? index v.shape)
      fun x => ∃ u, x = .done u := by
  cases v with
  | lambda _ => rfl
  | _ => exact ⟨(), rfl⟩

theorem checked_lambdaArg :
    (ofExcept (lambdaArg index arity v)).Checked .typing ((Demand.lambda arity).complaint? index v.shape)
      fun x => ∃ c, x = .done c := by
  cases v with
  | lambda c =>
    rw [Value.shape]
    by_cases h : c.arity = arity
    · rw [Demand.complaint?_lambda_of_eq index h]
      exact ⟨c, congrArg ofExcept (if_pos h)⟩
    · rw [Demand.complaint?_lambda_of_ne index h]
      exact congrArg ofExcept (if_neg h)
  | _ => rfl

end Single

section Calls
variable (f : Builtin)

theorem call_of_length_ne (eval : Scope Value → Expr → Outcome RunError Value) {args : List Value}
    (h : args.length ≠ f.argCount) : f.call eval args = .failed (.typing (f.wrongCount args.length)) := by
  unfold call
  split
  · exact absurd rfl h
  · exact absurd rfl h
  · rfl

theorem resultTy_of_length_ne (infer : Scope Ty → Expr → Outcome TypeError Ty) {types : List Ty}
    (h : types.length ≠ f.argCount) : f.resultTy infer types = .failed (f.wrongCount types.length) := by
  unfold resultTy
  split
  · exact absurd rfl h
  · exact absurd rfl h
  · rfl

theorem applyTy_of_ne_lambda (infer : Scope Ty → Expr → Outcome TypeError Ty) {t : Ty} (h : ∀ c, t ≠ .lambda c)
    (args : List Ty) : applyTy infer t args = .done .nothing := by
  cases t with
  | lambda c => exact absurd rfl (h c)
  | _ => rfl

/-- Typing a call starts with the checks. Behind them, if no body of a lambda is known, it fails only because nothing
is known of the result. -/
theorem checked_resultTy (infer : Scope Ty → Expr → Outcome TypeError Ty) (types : List Ty) :
    (f.resultTy infer types).Checked id (f.refusal? (types.map Ty.shape)) fun x =>
      (∀ t ∈ types, ∀ c, t ≠ .lambda c) →
        x.Obeys (fun _ => True) (fun e => ∃ initial, e = .reduceResult initial .nothing) False := by
  by_cases hlength : types.length = f.argCount
  · rw [refusal?, List.length_map, if_pos hlength]
    cases f with
    | map =>
      obtain ⟨s, g, rfl⟩ := List.length_eq_two.1 hlength
      refine (checked_seqTy 1 s).bind fun elem => (checked_lambdaTy 2 1 g).bind fun _ hbodies => ?_
      rw [applyTy_of_ne_lambda infer (hbodies g (by simp))]
      exact trivial
    | reduce =>
      obtain ⟨s, initial, g, rfl⟩ := List.length_eq_three.1 hlength
      refine (checked_seqTy 1 s).bind fun elem => (checked_initialTy 2 initial).bind fun _ =>
        (checked_lambdaTy 3 2 g).bind fun _ hbodies => ?_
      rw [applyTy_of_ne_lambda infer (hbodies g (by simp)), done_bind]
      split
      · exact trivial
      · exact ⟨_, rfl⟩
  · rw [refusal?, List.length_map, if_neg hlength]
    exact f.resultTy_of_length_ne infer hlength

/-- A call starts with the checks. Behind them, if all applications of lambdas are given up, it does not fail. -/
theorem checked_call (eval : Scope Value → Expr → Outcome RunError Value) (args : List Value) :
    (f.call eval args).Checked .typing (f.refusal? (args.map Value.shape)) fun x =>
      (∀ scope e, eval scope e = .unfinished) → x.Obeys (fun _ => True) (fun _ => False) True := by
  by_cases hlength : args.length = f.argCount
  · rw [refusal?, List.length_map, if_pos hlength]
    cases f with
    | map =>
      obtain ⟨s, g, rfl⟩ := List.length_eq_two.1 hlength
      refine (checked_seqArg 1 s).bind fun elements => (checked_lambdaArg 2 1 g).bind fun c heval => ?_
      have hresults : (elements.mapM fun v => applyClosure eval c [v]).Obeys
          (fun results => ∀ r ∈ results, True) (fun _ => False) True := by
        refine Obeys.mapM (P := fun _ => True) (fun _ _ => trivial) fun v _ => ?_
        rw [applyClosure, heval]
        exact trivial
      exact hresults.bind fun _ _ => trivial
    | reduce =>
      obtain ⟨s, initial, g, rfl⟩ := List.length_eq_three.1 hlength
      refine (checked_seqArg 1 s).bind fun elements => (checked_initialArg 2 initial).bind fun _ =>
        (checked_lambdaArg 3 2 g).bind fun c heval => ?_
      refine Obeys.foldlM (P := fun _ => True) (fun _ _ => trivial) trivial fun acc v _ _ => ?_
      rw [applyClosure, heval]
      exact trivial
  · rw [refusal?, List.length_map, if_neg hlength]
    exact f.call_of_length_ne eval hlength

end Calls

/-- The function fails with `e` whatever applications of lambdas come to. So it fails before it applies one: if that
were given up, the call would be. -/
def Refuses (f : Builtin) (args : List Value) (e : RunError) : Prop := ∀ eval, f.call eval args = .failed e

theorem refuses_iff {f : Builtin} {args : List Value} {e : RunError} :
    f.Refuses args e ↔ ∃ t, e = .typing t ∧ f.refusal? (args.map Value.shape) = some t := by
  constructor
  · intro h
    -- Where every application is given up, only the checks can have failed.
    have hchecked := f.checked_call (fun _ _ => .unfinished) args
    rw [h] at hchecked
    cases hrefusal : f.refusal? (args.map Value.shape) with
    | none =>
      rw [hrefusal] at hchecked
      exact (hchecked fun _ _ => rfl).elim
    | some t =>
      rw [hrefusal] at hchecked
      exact ⟨t, Outcome.failed.inj hchecked, rfl⟩
  · rintro ⟨t, rfl, hrefusal⟩ eval
    have hchecked := f.checked_call eval args
    rwa [hrefusal] at hchecked

theorem isArgument_of_refusal? {f : Builtin} {shapes : List Shape} {e : TypeError} (h : f.refusal? shapes = some e) :
    e.isArgument = true := by
  unfold refusal? at h
  split at h
  · exact Demand.isArgument_of_firstComplaint? h
  · cases h
    rfl

theorem map_shape_ty (args : List Value) : (args.map Value.ty).map Ty.shape = args.map Value.shape := by
  simp [Value.ty, Function.comp_def]

theorem ne_lambda_of_mem_ty {args : List Value} : ∀ t ∈ args.map Value.ty, ∀ c, t ≠ .lambda c := by
  rintro t ht c rfl
  obtain ⟨v, -, hv⟩ := List.mem_map.1 ht
  cases v <;> cases hv

/-- The types that values show are refused like the values. Else only the result of a reduction can be wrong. -/
theorem resultTy_ty_eq_failed {f : Builtin} {args : List Value} {e : TypeError}
    {infer : Scope Ty → Expr → Outcome TypeError Ty} (h : f.resultTy infer (args.map Value.ty) = .failed e) :
    f.refusal? (args.map Value.shape) = some e ∨ ∃ initial, e = .reduceResult initial .nothing := by
  have hchecked := f.checked_resultTy infer (args.map Value.ty)
  rw [map_shape_ty, h] at hchecked
  cases hrefusal : f.refusal? (args.map Value.shape) with
  | none =>
    rw [hrefusal] at hchecked
    exact .inr (hchecked ne_lambda_of_mem_ty)
  | some t =>
    rw [hrefusal] at hchecked
    exact .inl (congrArg some (Outcome.failed.inj hchecked).symm)

theorem resultTy_ty_of_refusal? {f : Builtin} {args : List Value} {e : TypeError}
    (infer : Scope Ty → Expr → Outcome TypeError Ty) (h : f.refusal? (args.map Value.shape) = some e) :
    f.resultTy infer (args.map Value.ty) = .failed e := by
  have hchecked := f.checked_resultTy infer (args.map Value.ty)
  rwa [map_shape_ty, h] at hchecked

end Builtin

/-- Typing and evaluation check alike. An operator refuses operands with an error about types exactly if its rule for
types does; else it makes a value of the type that is told, or there is a fault of whole numbers. A function refuses
arguments before it applies a lambda exactly if its rule for types refuses what they show; else this rule fails only
because nothing is known of the result of a reduction. -/
theorem checks_agree :
    (∀ (op : Operator) (l r : Value),
      (∀ e, op.apply l r = .error (.typing e) ↔ op.resultShape l.shape r.shape = .error e) ∧
      (∀ v, op.apply l r = .ok v → op.resultShape l.shape r.shape = .ok v.shape) ∧
      ∀ e, op.apply l r = .error e → (∃ t, e = .typing t) ∨
        (e = .overflow op.symbol ∨ e = .divisionByZero) ∧ ∃ a b, l = .int a ∧ r = .int b) ∧
    ∀ (f : Builtin) (args : List Value) (infer : Scope Ty → Expr → Outcome TypeError Ty),
      (∀ e, e.isArgument = true → (f.Refuses args (.typing e) ↔ f.resultTy infer (args.map Value.ty) = .failed e)) ∧
      (∀ e, f.Refuses args e → ∃ t, e = .typing t ∧ t.isArgument = true) ∧
      ∀ e, f.resultTy infer (args.map Value.ty) = .failed e →
        e.isArgument = true ∨ ∃ initial, e = .reduceResult initial .nothing := by
  refine ⟨fun op l r => ⟨fun e => Operator.apply_eq_typing_iff, fun v => Operator.resultShape_of_apply,
    fun e => Operator.fault_of_apply⟩, fun f args infer => ⟨fun e hargument => ?_, fun e hrefuses => ?_, ?_⟩⟩
  · rw [Builtin.refuses_iff]
    constructor
    · rintro ⟨t, ht, hrefusal⟩
      cases ht
      exact Builtin.resultTy_ty_of_refusal? infer hrefusal
    · intro hfailed
      rcases Builtin.resultTy_ty_eq_failed hfailed with hrefusal | ⟨initial, rfl⟩
      · exact ⟨e, rfl, hrefusal⟩
      · -- The error about the result of a reduction is not about an argument.
        cases hargument
  · obtain ⟨t, rfl, hrefusal⟩ := Builtin.refuses_iff.1 hrefuses
    exact ⟨t, rfl, Builtin.isArgument_of_refusal? hrefusal⟩
  · intro e hfailed
    exact (Builtin.resultTy_ty_eq_failed hfailed).imp_left Builtin.isArgument_of_refusal?

/-- A power of whole numbers is real. Of two lambdas with one parameter the first is refused as an initial value,
before the number of parameters of the second is looked at. -/
theorem checks_agree_lambda_twice :
    Operator.pow.resultShape .int .int = .ok .real ∧
      Builtin.reduce.Refuses
        [.seq [.int 1] .int, .lambda ⟨["x"], .var ⟨"x", ⟨1, 1⟩⟩, []⟩, .lambda ⟨["x"], .var ⟨"x", ⟨1, 1⟩⟩, []⟩]
        (.typing (.lambdaInitial 2)) :=
  ⟨(checks_agree.1 .pow (.int 2) (.int 3)).2.1 _ rfl,
    ((checks_agree.2 .reduce _ fun _ _ => .unfinished).1 (.lambdaInitial 2) rfl).2 rfl⟩

end RangeScript
