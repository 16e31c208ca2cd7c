import EagerLambda.Proofs.PrintedValues
import Mathlib.Data.List.DropRight

/-!
# Statements that lines can hold

A line is cut at its first `=`, and only the end of the name is trimmed. The statements that come
out of some line are therefore `Statement.Readable`, and each of them is read back from its own
text (`parse_render_of_readable`). `lines_hold_readable_statements` says that these are all.
-/

namespace EagerLambda

/-! ### Names that a line can bind -/

/-- The text holds no `=` and does not end in a blank. Nothing else is asked of it. -/
structure Name.Bindable (x : Name) : Prop where
  noEquals : '=' ∉ x.toList
  trimmed : ∀ front c, x.toList = front ++ [c] → ¬ Blank [c]

theorem blank_singleton_iff {c : Char} : Blank [c] ↔ isBlank c = true := by
  simp [Blank, isBlank_iff]

theorem trimEnd_eq_rdropWhile (s : List Char) : trimEnd s = s.rdropWhile isBlank := rfl

theorem trimEnd_eq_self_iff {s : List Char} :
    trimEnd s = s ↔ ∀ front c, s = front ++ [c] → ¬ Blank [c] := by
  rw [trimEnd_eq_rdropWhile, List.rdropWhile_eq_self_iff]
  constructor
  · rintro last front c rfl
    rw [blank_singleton_iff]
    simpa using last (by simp)
  · intro last nonempty
    rw [← blank_singleton_iff]
    exact last _ _ (List.dropLast_append_getLast nonempty).symm

theorem mem_of_mem_trimEnd {s : List Char} {c : Char} (mem : c ∈ trimEnd s) : c ∈ s :=
  (List.rdropWhile_prefix isBlank s).mem mem

theorem bindable_trimEnd {head : List Char} (plain : '=' ∉ head) :
    Name.Bindable (String.ofList (trimEnd head)) where
  noEquals mem := plain (mem_of_mem_trimEnd (by simpa using mem))
  trimmed := by
    rw [String.toList_ofList]
    exact trimEnd_eq_self_iff.mp (List.rdropWhile_idempotent isBlank head)

theorem Name.Bindable.trimEnd_append_space {x : Name} (bindable : x.Bindable) :
    trimEnd (x.toList ++ [' ']) = x.toList := by
  rw [trimEnd_eq_rdropWhile, List.rdropWhile_concat_pos _ _ _ (by decide)]
  exact trimEnd_eq_self_iff.mpr bindable.trimmed

/-! ### Reading statements back -/

namespace Statement

/-- The name of a binding can be bound by a line, and all names of the term are identifiers. -/
def Readable : Statement → Prop
  | define x body => x.Bindable ∧ body.Readable
  | eval t => t.Readable

theorem readable_of_parse {line : String} {s : Statement} (read : parse line = .ok s) :
    s.Readable := by
  cases s with
  | define x body =>
    obtain ⟨head, rest, -, plain, rfl, derived⟩ := parse_eq_define_iff.mp read
    exact ⟨bindable_trimEnd plain, derived.identifier_of_mem_names⟩
  | eval t => exact (parse_eq_eval_iff.mp read).identifier_of_mem_names

theorem parse_render_define {x : Name} {body : Term} (bindable : x.Bindable)
    (readable : body.Readable) : parse (define x body).render = .ok (define x body) := by
  have derived : Term.Derives body (' ' :: body.write []) :=
    (Term.derives_write readable).blank_append Term.blank_space
  have plain : '=' ∉ x.toList ++ [' '] := by
    simp [bindable.noEquals]
  have split : (define x body).render.toList = (x.toList ++ [' ']) ++ '=' :: ' ' :: body.write [] := by
    simp [render, Term.render]
  rw [parse_eq_define_iff]
  refine ⟨x.toList ++ [' '], ' ' :: body.write [], split, plain, ?_, derived⟩
  rw [bindable.trimEnd_append_space, String.ofList_toList]

theorem parse_render_of_readable {s : Statement} (readable : s.Readable) :
    parse s.render = .ok s := by
  cases s with
  | define x body => exact parse_render_define readable.1 readable.2
  | eval t => exact Term.Readable.parse_render readable

/-- The statements that some line holds are the readable ones. These, and no others, are read back
from their own text, so a binding stays a binding and a term to be evaluated stays one. -/
theorem lines_hold_readable_statements :
    (∀ s : Statement, (∃ line, parse line = .ok s) ↔ s.Readable) ∧
    (∀ s : Statement, parse s.render = .ok s ↔ s.Readable) ∧
    (∀ line s, parse line = .ok s → parse s.render = .ok s) ∧
    (∀ line x body t, parse line = .ok (define x body) →
      parse (define x body).render ≠ .ok (eval t)) ∧
    (∀ line x body t, parse line = .ok (eval t) →
      parse (eval t).render ≠ .ok (define x body)) := by
  have again {line : String} {s : Statement} (read : parse line = .ok s) :
      parse s.render = .ok s :=
    parse_render_of_readable (readable_of_parse read)
  refine ⟨?_, ?_, fun line s => again, ?_, ?_⟩
  · intro s
    constructor
    · rintro ⟨line, read⟩
      exact readable_of_parse read
    · intro readable
      exact ⟨s.render, parse_render_of_readable readable⟩
  · exact fun s => ⟨readable_of_parse, parse_render_of_readable⟩
  · intro line x body t read other
    rw [again read] at other
    simp at other
  · intro line x body t read other
    rw [again read] at other
    simp at other

/-- A name may start with a blank and hold the marks of a term. -/
theorem binding_of_odd_name_reads_back :
    let s := define " <% é" (.lam "x" (.var "x"))
    s.Readable ∧ s.render = " <% é = % x . x" ∧ parse " <% é = % x . x" = .ok s := by
  intro s
  have text : s.render = " <% é = % x . x" := by
    unfold s
    cbv
  have bindable : Name.Bindable " <% é" := by
    refine ⟨by decide, trimEnd_eq_self_iff.mp ?_⟩
    cbv
  have readable : s.Readable := by
    refine ⟨bindable, ?_⟩
    intro x mem
    obtain rfl : x = "x" := by simpa [Term.names] using mem
    exact ⟨'x', [], rfl, Or.inl (by decide), by simp⟩
  have readBack := (lines_hold_readable_statements.2.1 s).mpr readable
  rw [text] at readBack
  exact ⟨readable, text, readBack⟩

end Statement

end EagerLambda
