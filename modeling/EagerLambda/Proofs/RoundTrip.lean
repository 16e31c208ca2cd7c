import EagerLambda.Proofs.Grammar

/-!
# Printing and reading

The text of a term is derivable exactly if all its names are identifiers, so reading undoes
printing on those terms and on no others (`parse_render_iff`).
-/

namespace EagerLambda.Term

theorem Derives.blank_append {bs s : List Char} {t : Term} (blank : Blank bs)
    (derived : Derives t s) : Derives t (bs ++ s) := by
  have join {cs : List Char} (more : Blank cs) : Blank (bs ++ cs) := by
    intro c mem
    rcases List.mem_append.mp mem with front | back
    · exact blank c front
    · exact more c back
  cases derived with
  | var blank₁ name =>
    rw [← List.append_assoc]
    exact .var (join blank₁) name
  | lam blank₁ blank₂ name blank₃ body =>
    rw [← List.append_assoc]
    exact .lam (join blank₁) blank₂ name blank₃ body
  | app blank₁ function blank₂ argument blank₃ =>
    rw [← List.append_assoc]
    exact .app (join blank₁) function blank₂ argument blank₃

theorem Derives.identifier_of_mem_names {s : List Char} {t : Term} (derived : Derives t s) :
    ∀ x ∈ t.names, Identifier x.toList := by
  induction derived with
  | var _ name =>
    intro y mem
    obtain rfl := List.mem_singleton.mp mem
    rw [String.toList_ofList]
    exact name
  | lam _ _ name _ _ ih =>
    intro y mem
    rcases List.mem_cons.mp mem with rfl | mem
    · rw [String.toList_ofList]
      exact name
    · exact ih y mem
  | app _ _ _ _ _ ihf iha =>
    intro y mem
    rcases List.mem_append.mp mem with mem | mem
    · exact ihf y mem
    · exact iha y mem

theorem blank_space : Blank [' '] := by
  simp [Blank]

theorem blank_nil : Blank [] := by
  simp [Blank]

theorem derives_write {t : Term} (names : ∀ x ∈ t.names, Identifier x.toList) :
    Derives t (t.write []) := by
  induction t with
  | var x =>
    have derived := Derives.var blank_nil (names x (by simp [Term.names]))
    rw [String.ofList_toList] at derived
    simpa [write] using derived
  | lam x b ih =>
    have body := ih fun y mem => names y (List.mem_cons_of_mem x mem)
    have spaced := body.blank_append blank_space
    have derived := Derives.lam blank_nil blank_space (names x List.mem_cons_self) blank_space spaced
    rw [String.ofList_toList] at derived
    simpa [write] using derived
  | app f a ihf iha =>
    have function := ihf fun y mem => names y (List.mem_append_left _ mem)
    have argument := iha fun y mem => names y (List.mem_append_right _ mem)
    have spaced := argument.blank_append blank_space
    have derived := Derives.app blank_nil function blank_space spaced blank_nil
    rw [write, write_eq_append f, write_eq_append a]
    simpa using derived

theorem parse_render_of_identifiers {t : Term} (names : ∀ x ∈ t.names, Identifier x.toList) :
    parse t.render = .ok t := by
  rw [parse, render, String.toList_ofList, parseChars_eq_ok_iff]
  exact derives_write names

/-- Reading the text of a term gives the term back exactly if all its names are identifiers, and
so it does for every term that was read from any text. -/
theorem parse_render_iff :
    (∀ t : Term, parse t.render = .ok t ↔ ∀ x ∈ t.names, Identifier x.toList) ∧
    (∀ (text : String) (t : Term), parse text = .ok t → parse t.render = .ok t) := by
  have identifiers {text : String} {t : Term} (read : parse text = .ok t) :
      ∀ x ∈ t.names, Identifier x.toList :=
    (parseChars_eq_ok_iff.mp read).identifier_of_mem_names
  exact ⟨fun t => ⟨identifiers, parse_render_of_identifiers⟩,
    fun text t read => parse_render_of_identifiers (identifiers read)⟩

end EagerLambda.Term
