import EagerLambda.Proofs.Locality
import EagerLambda.Proofs.PrintedValues

/-!
# Inert bindings

A line may bind any text, but no line can name a text that is not an identifier: the names of what
is read are identifiers, and so are the names that evaluation makes from them. A binding of another
text is never looked up, and leaving the line out changes nothing else (`inert_bindings_unseen`).

Two sessions are run side by side, one with such bindings and one without. They stay `Alike`.
-/

namespace EagerLambda

/-! ### Identifiers -/

theorem Name.isIdentifier_iff {x : Name} : x.isIdentifier = true ↔ Identifier x.toList := by
  rw [isIdentifier]
  cases x.toList with
  | nil => simp [TokenClass.accepts, Identifier]
  | cons c cs =>
    simp [TokenClass.accepts, TokenClass.starts, TokenClass.continues, Identifier]

/-- The names that a line can speak of. -/
def identifiers : Set Name :=
  {x | Identifier x.toList}

theorem Term.Readable.within {t : Term} (readable : t.Readable) : t.Within identifiers :=
  fun x free => readable x (names_of_free free)

theorem Bindings.Readable.closedOn {defs : Bindings} (readable : defs.Readable) :
    defs.ClosedOn identifiers :=
  fun x _ body bound => (readable x body bound).within

def LineOutcome.isInert : LineOutcome → Bool
  | .bound x => !x.isIdentifier
  | _ => false

/-! ### Two sessions side by side -/

namespace Session

/-- The sessions differ at most in bindings of texts that are not identifiers. -/
structure Alike (s s' : Session) : Prop where
  readable : s.bindings.Readable
  agree : s.bindings.AgreeOn s'.bindings identifiers
  supply : s.supply = s'.supply
  limits : s.limits = s'.limits

namespace Alike

variable {s s' : Session} {line : String}

theorem evaluate (alike : Alike s s') {t : Term} (readable : t.Readable) :
    EagerLambda.evaluate s.bindings s.limits t { supply := s.supply } =
      EagerLambda.evaluate s'.bindings s'.limits t { supply := s'.supply } := by
  rw [← alike.supply, ← alike.limits]
  exact evaluate_agree alike.agree alike.readable.closedOn readable.within s.limits _

theorem define (alike : Alike s s') (x : Name) {body : Term} (readable : body.Readable) :
    Alike (s.define x body).session (s'.define x body).session where
  readable := alike.readable.insert x readable
  agree := by
    intro y mem
    show (s.bindings.insert x body)[y]? = (s'.bindings.insert x body)[y]?
    rw [Std.ExtTreeMap.getElem?_insert, Std.ExtTreeMap.getElem?_insert, alike.agree y mem]
  supply := alike.supply
  limits := alike.limits

/-- A binding that no line can speak of may be made in one session only. -/
theorem define_left (alike : Alike s s') {x : Name} (other : ¬ Identifier x.toList) {body : Term}
    (readable : body.Readable) : Alike (s.define x body).session s' where
  readable := alike.readable.insert x readable
  agree := by
    intro y mem
    show (s.bindings.insert x body)[y]? = s'.bindings[y]?
    have apart : x ≠ y := fun same => other (same ▸ mem)
    simp [Std.ExtTreeMap.getElem?_insert, apart, alike.agree y mem]
  supply := alike.supply
  limits := alike.limits

theorem enter (alike : Alike s s') (line : String) :
    (s.enter line).result = (s'.enter line).result ∧
      Alike (s.enter line).session (s'.enter line).session := by
  rw [result_enter, result_enter, session_enter, session_enter]
  cases read : Statement.parse line with
  | error e => exact ⟨rfl, alike⟩
  | ok statement =>
    cases statement with
    | define x body =>
      obtain ⟨_, _, -, -, -, derived⟩ := Statement.parse_eq_define_iff.mp read
      exact ⟨rfl, alike.define x derived.identifier_of_mem_names⟩
    | eval t =>
      have readable := (Statement.parse_eq_eval_iff.mp read).identifier_of_mem_names
      have same := alike.evaluate readable
      refine ⟨?_, ?_⟩
      · show LineOutcome.ofOutcome (EagerLambda.evaluate _ _ _ _).1 = .ofOutcome _
        rw [same]
        rfl
      · refine ⟨alike.readable, alike.agree, ?_, alike.limits⟩
        show (EagerLambda.evaluate _ _ _ _).2.supply = _
        rw [same]
        rfl

theorem enter_left (alike : Alike s s') (inert : (s.enter line).result.isInert = true) :
    Alike (s.enter line).session s' := by
  rw [result_enter] at inert
  rw [session_enter]
  cases read : Statement.parse line with
  | error e => exact alike
  | ok statement =>
    rw [read] at inert
    cases statement with
    | define x body =>
      obtain ⟨_, _, -, -, -, derived⟩ := Statement.parse_eq_define_iff.mp read
      have other : ¬ Identifier x.toList := by
        simpa [LineOutcome.isInert, ← Name.isIdentifier_iff] using inert
      exact alike.define_left other derived.identifier_of_mem_names
    | eval t =>
      cases outcome : (s.evaluate t).result <;>
        simp [outcome, LineOutcome.ofOutcome, LineOutcome.isInert] at inert

/-- The lines that are not inert do in the one session what all lines do in the other. -/
theorem enterAll (alike : Alike s s') (lines : List String) :
    let kept := (s.replies Session.enter lines).filter fun r => !r.2.isInert
    s'.replies Session.enter (kept.map (·.1)) = kept ∧
      Alike (s.enterAll lines) (s'.enterAll (kept.map (·.1))) := by
  induction lines generalizing s s' with
  | nil => exact ⟨rfl, alike⟩
  | cons line lines ih =>
    rw [replies]
    cases inert : (s.enter line).result.isInert with
    | true =>
      rw [List.filter_cons_of_neg (by simp [inert])]
      exact ih (alike.enter_left inert)
    | false =>
      obtain ⟨same, next⟩ := alike.enter line
      obtain ⟨answers, final⟩ := ih next
      rw [List.filter_cons_of_pos (by simp [inert])]
      refine ⟨?_, final⟩
      rw [List.map_cons, replies, answers, same]

end Alike

end Session

/-- Leaving out the lines that bound a text which is not an identifier changes nothing for the other
lines: they are answered as before, and the counts and all bindings of identifiers are as before. -/
theorem inert_bindings_unseen (limits : Limits) (lines : List String) :
    let start : Session := { limits := limits }
    let kept := (start.replies Session.enter lines).filter fun r => !r.2.isInert
    let rest := kept.map (·.1)
    start.replies Session.enter rest = kept ∧
      (start.enterAll rest).supply = (start.enterAll lines).supply ∧
      ∀ x : Name, x.isIdentifier = true →
        (start.enterAll rest).binding? x = (start.enterAll lines).binding? x := by
  intro start kept rest
  have new : start.Alike start := by
    refine ⟨?_, fun x _ => rfl, rfl, rfl⟩
    intro x body bound
    exact absurd bound (by simp [start])
  obtain ⟨answers, final⟩ := new.enterAll lines
  refine ⟨answers, final.supply.symm, ?_⟩
  intro x name
  exact (final.agree x (Name.isIdentifier_iff.mp name)).symm

/-- The blank in front makes the bound text another name than the one that is looked up. -/
example :
    Session.replies Session.enter {} [" k = %x.x", "k"] =
      [(" k = %x.x", .bound " k"), ("k", .evaluated (.var "k"))] := by
  cbv

end EagerLambda
