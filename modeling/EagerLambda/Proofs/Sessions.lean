import EagerLambda.Proofs.Grammar

/-!
# Sessions line by line

A line holds a term to be evaluated, or a binding if it contains `=`, which no term does
(`parse_eq_eval_iff`, `parse_eq_define_iff`). `bindings_enter` says what the bindings are after a
line, and `enter_eq_evaluated_iff` when a line is answered by a value.
-/

namespace EagerLambda

/-! ### Texts without `=` -/

theorem Blank.equals_not_mem {bs : List Char} (blank : Blank bs) : '=' ∉ bs := by
  intro mem
  rcases blank _ mem with h | h | h | h <;> exact absurd h (by decide)

theorem Identifier.equals_not_mem {x : List Char} (name : Identifier x) : '=' ∉ x := by
  obtain ⟨c, cs, rfl, start, more⟩ := name
  intro mem
  rcases List.mem_cons.mp mem with rfl | mem
  · exact absurd start (by decide)
  · exact absurd (more _ mem) (by decide)

theorem Term.Derives.equals_not_mem {t : Term} {s : List Char} (derived : Derives t s) :
    '=' ∉ s := by
  induction derived with
  | var blank name => simp [blank.equals_not_mem, name.equals_not_mem]
  | lam blank₁ blank₂ name blank₃ _ body =>
    simp [blank₁.equals_not_mem, blank₂.equals_not_mem, name.equals_not_mem,
      blank₃.equals_not_mem, body]
  | app blank₁ _ blank₂ _ blank₃ function argument =>
    simp [blank₁.equals_not_mem, function, blank₂.equals_not_mem, argument, blank₃.equals_not_mem]

theorem Term.map_parseChars_eq_ok_iff {f : Term → Statement} {s : List Char}
    {statement : Statement} :
    (parseChars s).map f = .ok statement ↔ ∃ t, Derives t s ∧ f t = statement := by
  simp only [← parseChars_eq_ok_iff]
  cases parseChars s <;> simp [Except.map]

/-! ### Statements -/

namespace Statement

variable {line : String} {head body : List Char} {t : Term} {x : Name}

theorem parse_of_not_mem (plain : '=' ∉ line.toList) :
    parse line = (Term.parseChars line.toList).map eval := by
  have all : line.toList.dropWhile (· != '=') = [] := by
    rw [List.dropWhile_eq_nil_iff]
    intro c mem
    simpa using ne_of_mem_of_not_mem mem plain
  rw [parse, parseChars, all]

theorem parse_of_first (plain : '=' ∉ head) (split : line.toList = head ++ '=' :: body) :
    parse line = (Term.parseChars body).map (define (String.ofList (trimEnd head))) := by
  have front : ∀ c ∈ head, (c != '=') = true := by
    intro c mem
    simpa using ne_of_mem_of_not_mem mem plain
  rw [parse, parseChars, split, List.dropWhile_append_of_pos front,
    List.takeWhile_append_of_pos front]
  simp

/-- A line is a term to be evaluated exactly if the whole of it is a term. -/
theorem parse_eq_eval_iff : parse line = .ok (.eval t) ↔ Term.Derives t line.toList := by
  by_cases mem : '=' ∈ line.toList
  · obtain ⟨head, body, split, plain⟩ := List.eq_append_cons_of_mem mem
    rw [parse_of_first plain split, Term.map_parseChars_eq_ok_iff]
    constructor
    · rintro ⟨u, -, same⟩
      exact absurd same (by simp)
    · intro derived
      exact absurd mem derived.equals_not_mem
  · rw [parse_of_not_mem mem, Term.map_parseChars_eq_ok_iff]
    simp

/-- A line binds a name exactly if a term stands after its first `=`. -/
theorem parse_eq_define_iff :
    parse line = .ok (.define x t) ↔
      ∃ head body, line.toList = head ++ '=' :: body ∧ '=' ∉ head ∧
        x = String.ofList (trimEnd head) ∧ Term.Derives t body := by
  constructor
  · intro h
    by_cases mem : '=' ∈ line.toList
    · obtain ⟨head, body, split, plain⟩ := List.eq_append_cons_of_mem mem
      rw [parse_of_first plain split, Term.map_parseChars_eq_ok_iff] at h
      obtain ⟨u, derived, same⟩ := h
      obtain ⟨rfl, rfl⟩ := Statement.define.inj same
      exact ⟨head, body, split, plain, rfl, derived⟩
    · rw [parse_of_not_mem mem, Term.map_parseChars_eq_ok_iff] at h
      obtain ⟨u, -, same⟩ := h
      exact absurd same (by simp)
  · rintro ⟨head, body, split, plain, rfl, derived⟩
    rw [parse_of_first plain split, Term.map_parseChars_eq_ok_iff]
    exact ⟨t, derived, rfl⟩

theorem ne_empty_of_parse {statement : Statement} (h : parse line = .ok statement) :
    line ≠ "" := by
  rintro rfl
  rw [parse_of_not_mem (by simp), Term.map_parseChars_eq_ok_iff] at h
  obtain ⟨t, derived, -⟩ := h
  obtain ⟨shorter, -⟩ := Term.reads_nil_iff.mpr derived
  exact absurd shorter (by simp)

end Statement

/-! ### Lines -/

namespace LineOutcome

/-- The answer to a line that holds no statement. -/
def ofUnread (line : String) : LineOutcome :=
  if line = "" then .skipped
  else if '=' ∈ line.toList then .unreadableBinding
  else .unreadable

/-- The answer to a line whose term was evaluated with this outcome. -/
def ofOutcome : Outcome → LineOutcome
  | .value t => .evaluated t
  | .exceeded e => .abandoned e
  | .unfinished => .unfinished

end LineOutcome

namespace Session

variable {s s' : Session} {line : String} {r : Term} {events : Array Event}

/-- A line does to the session what its statement does. -/
theorem session_enter (s : Session) (line : String) :
    (s.enter line).session =
      match Statement.parse line with
      | .ok statement => (s.execute statement).session
      | .error _ => s := by
  cases read : Statement.parse line with
  | error e =>
    unfold enter
    split
    · rfl
    · rw [read]
  | ok statement =>
    rw [enter, if_neg (Statement.ne_empty_of_parse read), read]
    cases statement with
    | define x body => rfl
    | eval t =>
      simp only [execute, evaluate]
      split <;> rfl

theorem result_enter (s : Session) (line : String) :
    (s.enter line).result =
      match Statement.parse line with
      | .ok (.define x _) => .bound x
      | .ok (.eval t) => .ofOutcome (s.evaluate t).result
      | .error _ => .ofUnread line := by
  cases read : Statement.parse line with
  | error e =>
    unfold enter LineOutcome.ofUnread
    split
    · rfl
    · rw [read]
  | ok statement =>
    rw [enter, if_neg (Statement.ne_empty_of_parse read), read]
    cases statement with
    | define x body => rfl
    | eval t =>
      simp only [execute]
      cases (s.evaluate t).result <;> rfl

/-- A line that binds a name changes that binding, and no other line changes any. -/
theorem bindings_enter (s : Session) (line : String) :
    (s.enter line).session.bindings =
      match Statement.parse line with
      | .ok (.define x body) => s.bindings.insert x body
      | _ => s.bindings := by
  rw [session_enter]
  cases Statement.parse line with
  | error e => rfl
  | ok statement => cases statement <;> rfl

theorem enter_eq_evaluated_iff :
    s.enter line = ⟨.evaluated r, s', events⟩ ↔
      ∃ t p, Statement.parse line = .ok (.eval t) ∧
        EagerLambda.evaluate s.bindings s.limits t { supply := s.supply } = (.value r, p) ∧
        s' = { s with supply := p.supply } ∧ events = p.log := by
  constructor
  · intro entered
    cases read : Statement.parse line with
    | error e =>
      unfold enter at entered
      split at entered
      · simp at entered
      · rw [read] at entered
        simp only [Reply.mk.injEq] at entered
        obtain ⟨result, -⟩ := entered
        split at result <;> simp at result
    | ok statement =>
      rw [enter, if_neg (Statement.ne_empty_of_parse read), read] at entered
      cases statement with
      | define x body => simp [execute] at entered
      | eval t =>
        simp only [execute, evaluate] at entered
        cases outcome : EagerLambda.evaluate s.bindings s.limits t { supply := s.supply } with
        | mk o p =>
          rw [outcome] at entered
          cases o with
          | value v =>
            simp only [Reply.mk.injEq, LineOutcome.evaluated.injEq] at entered
            obtain ⟨rfl, rfl, rfl⟩ := entered
            exact ⟨t, p, rfl, outcome, rfl, rfl⟩
          | exceeded e => simp at entered
          | unfinished => simp at entered
  · rintro ⟨t, p, read, value, rfl, rfl⟩
    rw [enter, if_neg (Statement.ne_empty_of_parse read), read]
    simp only [execute, evaluate, value]

/-- The session after lines have been entered in turn. -/
def enterAll (s : Session) (lines : List String) : Session :=
  lines.foldl (fun s line => (s.enter line).session) s

theorem enterAll_keeps {motive : Session → Prop}
    (step : ∀ s line, motive s → motive (s.enter line).session) (start : motive s)
    (lines : List String) : motive (s.enterAll lines) := by
  induction lines generalizing s with
  | nil => exact start
  | cons line lines ih => exact ih (step s line start)

/-- The requests made in turn, each with the answer to it. -/
def replies {α β : Type} (ask : Session → α → Reply β) (s : Session) : List α → List (α × β)
  | [] => []
  | a :: as => (a, (ask s a).result) :: replies ask (ask s a).session as

end Session

end EagerLambda
