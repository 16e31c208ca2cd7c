import EagerLambda.Proofs.RoundTrip
import EagerLambda.Proofs.Runs
import EagerLambda.Proofs.Sessions

/-!
# Printed values

In a session that is fed by lines, every name of a stored definition or of a value is an
identifier, because the reader lets in no other names and a number behind an identifier leaves it
one. So the text of a value can be entered as the next line, and as a value it is answered by
itself (`printed_value_answers_itself`).
-/

namespace EagerLambda

/-! ### Names that can be read -/

theorem Identifier.next {base : Name} (name : Identifier base.toList) (s : Supply) :
    Identifier (s.next base).toList := by
  obtain ⟨c, cs, split, start, more⟩ := name
  rw [s.next_eq_numbered, Name.toList_numbered, split]
  refine ⟨c, cs ++ Nat.toDigits 10 (s.count base + 1), rfl, start, ?_⟩
  intro d mem
  rcases List.mem_append.mp mem with old | digit
  · exact more d old
  · have isDigit : d.isDigit = true := Nat.isDigit_of_mem_toDigits (by decide) (by decide) digit
    exact Or.inl (by simp [Char.isAlphanum, isDigit])

/-- Every name of the term is an identifier. -/
def Term.Readable (t : Term) : Prop :=
  ∀ x ∈ t.names, Identifier x.toList

def Bindings.Readable (defs : Bindings) : Prop :=
  ∀ (x : Name) (body : Term), defs[x]? = some body → body.Readable

theorem Bindings.Readable.insert {defs : Bindings} (readable : defs.Readable) (x : Name)
    {body : Term} (readableBody : body.Readable) : Readable (defs.insert x body) := by
  intro y other bound
  rw [Std.ExtTreeMap.getElem?_insert] at bound
  split at bound
  · obtain rfl := Option.some.inj bound
    exact readableBody
  · exact readable y other bound

namespace Term

theorem readable_invariant {defs : Bindings} (stored : defs.Readable) :
    StepInvariant defs Readable where
  app f a := by simp [Readable, names, or_imp, forall_and]
  expand x body bound _ := stored x body bound
  reduce x b a w function argument := by
    have body : Readable b := fun z mem => function z (List.mem_cons_of_mem x mem)
    exact forall_names_substitute (P := fun z => Identifier z.toList)
      (fun s base name => name.next s) body argument

theorem Readable.parse_render {t : Term} (readable : t.Readable) :
    Statement.parse t.render = .ok (.eval t) := by
  rw [Statement.parse_eq_eval_iff, ← parseChars_eq_ok_iff]
  exact parse_render_of_identifiers readable

end Term

/-! ### Sessions -/

theorem Session.readable_enter {s : Session} (stored : s.bindings.Readable) (line : String) :
    (s.enter line).session.bindings.Readable := by
  rw [bindings_enter]
  split
  · next x body read =>
    obtain ⟨_, _, -, -, -, derived⟩ := Statement.parse_eq_define_iff.mp read
    exact stored.insert x derived.identifier_of_mem_names
  · exact stored

theorem Session.readable_enterAll (limits : Limits) (lines : List String) :
    (enterAll { limits := limits } lines).bindings.Readable := by
  refine enterAll_keeps (motive := fun s => s.bindings.Readable)
    (fun s line stored => readable_enter stored line) ?_ lines
  intro x body bound
  exact absurd bound (by simp)

/-- A term that does not step is answered by itself, after no steps. -/
theorem Session.enter_stopped {s : Session} {line : String} {t : Term} {q : Progress}
    (read : Statement.parse line = .ok (.eval t)) (stopped : t.step? s.bindings q = none) :
    s.enter line = ⟨.evaluated t, s, #[.finished 0]⟩ := by
  have start : t.step? s.bindings { supply := s.supply } = none :=
    Term.step?_eq_none_congr _ stopped
  have value : EagerLambda.evaluate s.bindings s.limits t { supply := s.supply } = _ :=
    evaluate_of_stopped (.refl _) start (Nat.zero_le _)
  exact enter_eq_evaluated_iff.mpr ⟨t, _, read, value, rfl, rfl⟩

theorem Session.enter_printed_value {s s' : Session} {line : String} {r : Term}
    {events : Array Event} (stored : s.bindings.Readable)
    (entered : s.enter line = ⟨.evaluated r, s', events⟩) :
    r.Readable ∧ s'.enter r.render = ⟨.evaluated r, s', #[.finished 0]⟩ := by
  obtain ⟨t, p, read, value, rfl, -⟩ := enter_eq_evaluated_iff.mp entered
  have term : t.Readable := (Statement.parse_eq_eval_iff.mp read).identifier_of_mem_names
  have readable : r.Readable := (Term.readable_invariant stored).value value term
  obtain ⟨k, q, -, -, stopped, -⟩ := evaluate_eq_value_iff.mp value
  exact ⟨readable, enter_stopped readable.parse_render stopped⟩

/-- The text of a value that a line has been answered by reads back as that value, and as the next
line it is answered by the same value and leaves the session as it is. -/
theorem printed_value_answers_itself (limits : Limits) (lines : List String) (line : String)
    (r : Term)
    (answered : ((Session.enterAll { limits := limits } lines).enter line).result =
      .evaluated r) :
    let next := ((Session.enterAll { limits := limits } lines).enter line).session
    Term.parse r.render = .ok r ∧
      next.enter r.render = ⟨.evaluated r, next, #[.finished 0]⟩ := by
  intro next
  have stored := Session.readable_enterAll limits lines
  have entered : (Session.enterAll { limits := limits } lines).enter line =
      ⟨.evaluated r, next, ((Session.enterAll { limits := limits } lines).enter line).events⟩ := by
    rw [← answered]
  obtain ⟨readable, again⟩ := Session.enter_printed_value stored entered
  exact ⟨Term.parse_render_of_identifiers readable, again⟩

/-- The value has a parameter that was renamed, and the line takes all the steps that the limit
allows. -/
theorem renamed_value_answers_itself :
    let limits : Limits := { maxSteps := some 2 }
    let s := Session.enterAll { limits := limits } ["k = %x.%y.<x + y>"]
    let r : Term := .lam "y1" (.app (.var "y") (.var "y1"))
    let next := (s.enter "<k + y>").session
    (s.enter "<k + y>").result = .evaluated r ∧
      Term.parse "% y1 . <y + y1>" = .ok r ∧
      next.enter "% y1 . <y + y1>" = ⟨.evaluated r, next, #[.finished 0]⟩ := by
  intro limits s r next
  have read : Statement.parse "k = %x.%y.<x + y>" =
      .ok (.define "k" (.lam "x" (.lam "y" (.app (.var "x") (.var "y"))))) := by
    decide +kernel
  have asked : Statement.parse "<k + y>" = .ok (.eval (.app (.var "k") (.var "y"))) := by
    decide +kernel
  have bound : s = (Session.define { limits := limits } "k"
      (.lam "x" (.lam "y" (.app (.var "x") (.var "y"))))).session := by
    show (Session.enter { limits := limits } _).session = _
    rw [Session.session_enter, read]
    rfl
  have value : (evaluate s.bindings s.limits (.app (.var "k") (.var "y"))
      { supply := s.supply }).1 = .value r := by
    rw [bound]
    unfold r limits
    cbv
  have answered : (s.enter "<k + y>").result = .evaluated r := by
    rw [Session.result_enter, asked]
    exact congrArg LineOutcome.ofOutcome value
  have text : r.render = "% y1 . <y + y1>" := by
    decide +kernel
  have fedBack := printed_value_answers_itself limits ["k = %x.%y.<x + y>"] "<k + y>" r answered
  rw [text] at fedBack
  exact ⟨answered, fedBack⟩

end EagerLambda
