import RangeScript.Proofs.Termination

/-!
# What sequences note of their elements

A sequence notes a shape for its elements: a range notes `int`, and a computed sequence notes the shape of its
first element, or `nothing` if it has none. The elements are all of one type, but where one of them is empty less
is known of it than of the others. So:

* `Shape.Agrees a b` : the shapes are the same wherever both are known;
* `Value.Occurs u v` : the value `u` is `v` or stands somewhere in it;
* `Value.Homogeneous v` : every sequence that occurs in `v` notes the shape of its first element, all its elements
  agree with what it notes, and they have just this shape unless an empty computed sequence occurs among them.

Values of a session of texts are homogeneous in this sense (`sequences_homogeneous`), and not in the sense that
all elements show the noted shape (`noted_shape_over_empty`).
-/

namespace RangeScript

/-! ## Shapes that are partly known -/

namespace Shape

/-- The same wherever both are known. -/
inductive Agrees : Shape → Shape → Prop
  | unknownLeft (s : Shape) : Agrees .nothing s
  | unknownRight (s : Shape) : Agrees s .nothing
  | int : Agrees .int .int
  | real : Agrees .real .real
  | seq {a b : Shape} : Agrees a b → Agrees (.seq a) (.seq b)
  | lambda (arity : Nat) : Agrees (.lambda arity) (.lambda arity)

/-- Nothing in the shape is unknown. -/
def isKnown : Shape → Bool
  | nothing => false
  | seq elem => elem.isKnown
  | _ => true

variable {a b c : Shape}

/-- Shapes that one type fills in agree. -/
theorem FilledBy.agrees (ha : a.FilledBy c) (hb : b.FilledBy c) : a.Agrees b := by
  induction ha generalizing b with
  | nothing _ => exact .unknownLeft b
  | int =>
    cases hb with
    | nothing _ => exact .unknownRight _
    | int => exact .int
  | real =>
    cases hb with
    | nothing _ => exact .unknownRight _
    | real => exact .real
  | seq _ ih =>
    cases hb with
    | nothing _ => exact .unknownRight _
    | seq hb => exact .seq (ih hb)
  | lambda _ =>
    cases hb with
    | nothing _ => exact .unknownRight _
    | lambda _ => exact .lambda _

theorem Agrees.eq_of_isKnown (h : a.Agrees b) (ha : a.isKnown = true) (hb : b.isKnown = true) : a = b := by
  induction h with
  | unknownLeft _ => cases ha
  | unknownRight _ => cases hb
  | seq _ ih => rw [ih ha hb]
  | _ => rfl

end Shape

/-! ## Sequences in a value -/

namespace Value

/-- The value `u` is `v` or stands somewhere in it. -/
inductive Occurs (u : Value) : Value → Prop
  | self : Occurs u u
  | inside {v : Value} {elements : List Value} {noted : Shape} :
    v ∈ elements → Occurs u v → Occurs u (.seq elements noted)

/-- All sequences in the value note the shape of their first element; those without elements were computed or are
ranges. -/
inductive Tagged : Value → Prop
  | int (n : Int64) : Tagged (.int n)
  | real (x : Float) : Tagged (.real x)
  | empty {noted : Shape} : noted = .nothing ∨ noted = .int → Tagged (.seq [] noted)
  | cons {v : Value} {vs : List Value} :
    Tagged v → (∀ w ∈ vs, Tagged w) → Tagged (.seq (v :: vs) v.shape)

theorem Tagged.elements {vs : List Value} {noted : Shape} (h : Tagged (.seq vs noted)) :
    ∀ v ∈ vs, Tagged v := by
  cases h with
  | empty _ => simp
  | cons hv hvs => exact List.forall_mem_cons.2 ⟨hv, hvs⟩

theorem Tagged.isData {v : Value} (h : Tagged v) : v.isData = true := by
  induction h with
  | int _ | real _ | empty _ => rfl
  | cons _ _ ih ihs =>
    rw [Value.isData, areData_iff]
    exact List.forall_mem_cons.2 ⟨ih, ihs⟩

theorem tagged_of_ints {vs : List Value} (h : ∀ v ∈ vs, ∃ n, v = .int n) : Tagged (.seq vs .int) := by
  cases vs with
  | nil => exact .empty (.inr rfl)
  | cons v vs =>
    obtain ⟨⟨n, rfl⟩, hvs⟩ := List.forall_mem_cons.1 h
    refine .cons (.int n) fun w hw => ?_
    obtain ⟨m, rfl⟩ := hvs w hw
    exact .int m

theorem kept_tagged : Kept Tagged where
  isData _ h := h.isData
  int := .int
  real := .real
  range lo hi := tagged_of_ints fun v hv => by
    obtain ⟨i, -, rfl⟩ := List.mem_map.1 hv
    exact ⟨_, rfl⟩
  elements h := h.elements
  seqOf {vs} h := by
    cases vs with
    | nil => exact .empty (.inl rfl)
    | cons v vs =>
      obtain ⟨hv, hvs⟩ := List.forall_mem_cons.1 h
      exact .cons hv hvs

/-- Of a value that has an unknown shape some part is an empty sequence that was computed. -/
theorem Tagged.isKnown {v : Value} (h : Tagged v) (hempty : ¬ (Value.seq [] .nothing).Occurs v) :
    v.shape.isKnown = true := by
  induction h with
  | int _ | real _ => rfl
  | empty hnoted =>
    rcases hnoted with rfl | rfl
    · exact absurd .self hempty
    · rfl
  | cons _ _ ih _ => exact ih fun hocc => hempty (.inside List.mem_cons_self hocc)

/-- What a sequence tells of its elements by the shape it notes. -/
structure NotesOf (elements : List Value) (noted : Shape) : Prop where
  first : ∀ w, elements.head? = some w → w.shape = noted
  empty : elements = [] → noted = .nothing ∨ noted = .int
  unknown : noted = .nothing → elements = []
  agree : ∀ w ∈ elements, w.shape.Agrees noted
  same : ¬ (Value.seq [] .nothing).Occurs (.seq elements noted) → ∀ w ∈ elements, w.shape = noted

/-- Every sequence in the value notes what its elements are. -/
def Homogeneous (v : Value) : Prop :=
  ∀ elements noted, (Value.seq elements noted).Occurs v → NotesOf elements noted

theorem notesOf_of_inhabits {elements : List Value} {noted : Shape} {t : Ty}
    (htagged : Tagged (.seq elements noted)) (ht : (Value.seq elements noted).Inhabits t) :
    NotesOf elements noted := by
  have hagree : ∀ w ∈ elements, w.shape.Agrees noted := by
    cases ht with
    | seq hnoted hall => exact fun w hw => (hall w hw).shape.agrees hnoted
  cases htagged with
  | empty hnoted => exact ⟨by simp, fun _ => hnoted, fun _ => rfl, hagree, by simp⟩
  | @cons v vs hv hvs =>
    refine ⟨?_, by simp, ?_, hagree, fun hempty w hw => ?_⟩
    · intro w hw
      cases hw
      rfl
    · intro hnothing
      cases v <;> cases hnothing
    · have hknown : ∀ u ∈ v :: vs, u.shape.isKnown = true := fun u hu =>
        (List.forall_mem_cons.2 ⟨hv, hvs⟩ u hu).isKnown fun hocc => hempty (.inside hu hocc)
      exact (hagree w hw).eq_of_isKnown (hknown w hw) (hknown v List.mem_cons_self)

theorem homogeneous_of_inhabits {v : Value} {t : Ty} (htagged : v.Tagged) (ht : v.Inhabits t) :
    v.Homogeneous := by
  intro elements noted hocc
  induction hocc generalizing t with
  | self => exact notesOf_of_inhabits htagged ht
  | inside hmem _ ih =>
    cases ht with
    | seq _ hall => exact ih (htagged.elements _ hmem) (hall _ hmem)

end Value

/-! ## Sessions -/

namespace Session

/-- A value of a plain session inhabits some type. -/
theorem Plain.inhabits_of_get? {s : Session} (hs : s.Plain) {name : String} {v : Value}
    (h : s.values.get? name = some v) : ∃ t, v.Inhabits t := by
  have hget := Scope.Related.get? hs.inhabited name
  rw [h] at hget
  generalize s.types.get? name = t at hget
  cases hget with
  | some hv => exact ⟨_, hv⟩

/-- After any texts, the value of each name is homogeneous, and so is the value of each expression that can be read,
has a type and is evaluated. -/
theorem sequences_homogeneous (lang : Language) (texts : List String) :
    let s := fresh.after lang (texts.map .source)
    (∀ name v, s.values.get? name = some v → v.Homogeneous) ∧
    ∀ prec stream e t v, Parse.expression prec stream = .ok e → lang.infer s.types e = .done t →
      lang.eval s.values e = .done v → v.Homogeneous := by
  intro s
  have hs : s.Plain := plain_after plain_fresh texts
  have htagged : s.values.All Value.Tagged := all_after Value.kept_tagged all_fresh texts
  constructor
  · intro name v hv
    obtain ⟨t, ht⟩ := hs.inhabits_of_get? hv
    exact Value.homogeneous_of_inhabits (htagged.get? hv) ht
  · intro prec stream e t v hread ht hv
    have he : e.Surface := surface_of_expression hread
    have hobeys := lang.obeys_evalAt Value.kept_tagged htagged he lang.callDepth
    unfold Language.eval at hv
    rw [hv] at hobeys
    exact Value.homogeneous_of_inhabits hobeys (hs.eval he ht hv).1

/-- The second element of `xs` is empty, so the shapes of the two differ, and `xs` notes that of the first. -/
theorem noted_shape_over_empty :
    let s := fresh.after .standard (["var xs = map({1, 2}, x -> map({x, 1}, y -> y))"].map .source)
    ∃ elements noted, s.values.get? "xs" = some (.seq elements noted) ∧
      ¬ ∀ w ∈ elements, w.shape = noted := by
  intro s
  have hshapes : (s.values.get? "xs").map (fun v => (v.shape, (v.toSeq?.getD []).map Value.shape)) =
      some (.seq (.seq .int), [.seq .int, .seq .nothing]) := by
    decide +kernel
  obtain ⟨v, hv, hshape⟩ := Option.map_eq_some_iff.1 hshapes
  cases v with
  | seq elements noted =>
    refine ⟨elements, noted, hv, fun hsame => ?_⟩
    have hnoted : Shape.seq noted = .seq (.seq .int) := congrArg Prod.fst hshape
    have helements : elements.map Value.shape = [.seq .int, .seq .nothing] := congrArg Prod.snd hshape
    have hmem : Shape.seq .nothing ∈ elements.map Value.shape := by simp [helements]
    obtain ⟨w, hw, hwshape⟩ := List.mem_map.1 hmem
    rw [hsame w hw] at hwshape
    rw [hwshape] at hnoted
    cases hnoted
  | _ => cases hshape

/-- The value is a sequence of two copies of `xs`, and the second element of `xs` is empty. -/
theorem sequences_homogeneous_nested :
    let texts := ["var xs = map({1, 2}, x -> map({x, 1}, y -> y)) out 1 / 0"]
    let s := fresh.after .standard (texts.map .source)
    let stream : Token.Stream := ⟨[⟨.name, "map", ⟨1, 1⟩⟩, ⟨.leftParen, "(", ⟨1, 4⟩⟩,
      ⟨.name, "xs", ⟨1, 5⟩⟩, ⟨.comma, ",", ⟨1, 7⟩⟩, ⟨.name, "y", ⟨1, 9⟩⟩, ⟨.arrow, "->", ⟨1, 11⟩⟩,
      ⟨.name, "xs", ⟨1, 14⟩⟩, ⟨.rightParen, ")", ⟨1, 16⟩⟩], ⟨1, 17⟩⟩
    let e : Expr := .call ⟨"map", ⟨1, 1⟩⟩
      [.var ⟨"xs", ⟨1, 5⟩⟩, .lambda [⟨"y", ⟨1, 9⟩⟩] (.var ⟨"xs", ⟨1, 14⟩⟩)]
    Token.scan "map(xs, y -> xs)" = .ok stream ∧ Parse.expression .standard stream = .ok e ∧
      Language.standard.infer s.types e = .done (.seq (.seq (.seq .int))) ∧
      ∃ v, Language.standard.eval s.values e = .done v ∧ v.Homogeneous := by
  intro texts s stream e
  have hread : Parse.expression .standard stream = .ok e := by decide +kernel
  have htype : Language.standard.infer s.types e = .done (.seq (.seq (.seq .int))) := by decide +kernel
  have hshape : (Language.standard.eval s.values e >>= fun v => .done v.shape) =
      .done (.seq (.seq (.seq .int))) := by
    decide +kernel
  obtain ⟨v, hv, -⟩ := Outcome.bind_eq_done.1 hshape
  obtain ⟨-, hexpr⟩ := sequences_homogeneous .standard texts
  exact ⟨by decide +kernel, hread, htype, v, hv, hexpr _ _ _ _ v hread htype hv⟩

end Session

end RangeScript
