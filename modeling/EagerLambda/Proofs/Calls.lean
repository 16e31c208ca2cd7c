import EagerLambda.Proofs.Logs
import EagerLambda.Proofs.Sessions

/-!
# Sessions call by call

Whatever is asked of a session, it carries out at most one statement (`session_call`). So a session
holds for each name the body of the last call that bound it (`binding?_callAll`), evaluations leave
the bindings alone, and bindings can be made in another order as long as those of one name keep
theirs and none crosses an evaluation (`session_keeps_last_bindings`).
-/

namespace EagerLambda

/-- What can be asked of a session. -/
inductive Call where
  | enter (line : String)
  | define (x : Name) (t : Term)
  | execute (statement : Statement)
  | evaluate (t : Term)

inductive Call.Answer where
  | entered (o : LineOutcome)
  | defined
  | executed (e : Execution)
  | evaluated (o : Outcome)

namespace Call

/-- The statement that a call asks for. A line that cannot be read asks for none. -/
def statement? : Call → Option Statement
  | enter line => (Statement.parse line).toOption
  | define x t => some (.define x t)
  | execute statement => some statement
  | evaluate t => some (.eval t)

/-- The body that the call binds to the name, if it does. -/
def body? (x : Name) (c : Call) : Option Term :=
  match c.statement? with
  | some (.define y body) => if y = x then some body else none
  | _ => none

def binds (c : Call) : Bool :=
  match c.statement? with
  | some (.define _ _) => true
  | _ => false

def evaluates (c : Call) : Bool :=
  match c.statement? with
  | some (.eval _) => true
  | _ => false

theorem binds_of_evaluates {c : Call} (evaluates : c.evaluates = true) : c.binds = false := by
  rw [Call.evaluates] at evaluates
  cases asked : c.statement? with
  | none => simp [asked] at evaluates
  | some statement =>
    cases statement with
    | define x body => simp [asked] at evaluates
    | eval t => simp [binds, asked]

/-- The same calls with the bindings in another order: the other calls stay in order, and so do the
evaluations together with the bindings of any one name. -/
structure Reordered (calls other : List Call) : Prop where
  others : calls.filter (!·.binds) = other.filter (!·.binds)
  named (x : Name) : calls.filter (fun c => c.evaluates || (c.body? x).isSome) =
    other.filter (fun c => c.evaluates || (c.body? x).isSome)

end Call

namespace Session

def call (s : Session) : Call → Reply Call.Answer
  | .enter line =>
    let r := s.enter line
    { r with result := .entered r.result }
  | .define x t => { s.define x t with result := .defined }
  | .execute statement =>
    let r := s.execute statement
    { r with result := .executed r.result }
  | .evaluate t =>
    let r := s.evaluate t
    { r with result := .evaluated r.result }

def callAll (s : Session) (calls : List Call) : Session :=
  calls.foldl (fun s c => (s.call c).session) s

/-- A call does to the session what its statement does. -/
theorem session_call (s : Session) (c : Call) :
    (s.call c).session =
      match c.statement? with
      | some statement => (s.execute statement).session
      | none => s := by
  cases c with
  | enter line =>
    show (s.enter line).session = _
    rw [session_enter, Call.statement?]
    cases Statement.parse line <;> rfl
  | define x t => rfl
  | execute statement => rfl
  | evaluate t => rfl

theorem limits_call (s : Session) (c : Call) : (s.call c).session.limits = s.limits := by
  rw [session_call]
  rcases c.statement? with _ | ⟨x, body⟩ | t <;> rfl

theorem binding?_call (s : Session) (c : Call) (x : Name) :
    (s.call c).session.binding? x = (c.body? x).or (s.binding? x) := by
  rw [session_call, Call.body?]
  rcases c.statement? with _ | ⟨y, body⟩ | t
  · rfl
  · show (s.bindings.insert y body)[x]? = _
    rw [Std.ExtTreeMap.getElem?_insert]
    by_cases same : y = x <;> simp [same, binding?]
  · rfl

theorem supply_call_of_quiet {c : Call} (quiet : c.evaluates = false) (s : Session) :
    (s.call c).session.supply = s.supply := by
  rw [session_call]
  cases asked : c.statement? with
  | none => rfl
  | some statement =>
    cases statement with
    | define x body => rfl
    | eval t => simp [Call.evaluates, asked] at quiet

theorem le_evaluate (s : Session) (t : Term) : s.supply.Le (s.evaluate t).session.supply := by
  obtain ⟨q, ⟨events, -, -, account, -⟩, ending⟩ :=
    evaluate_continues s.bindings s.limits t { supply := s.supply }
  have after : (s.evaluate t).session.supply = q.supply := by
    rcases ending with ⟨v, value⟩ | ⟨o, -, stopped⟩
    · simp [evaluate, value, Progress.note, Workspace.record]
    · simp [evaluate, stopped, Progress.step]
  intro base
  rw [after, account.count base]
  exact Nat.le_add_right _ _

/-! ### The store -/

theorem limits_callAll (s : Session) (calls : List Call) :
    (s.callAll calls).limits = s.limits := by
  induction calls generalizing s with
  | nil => rfl
  | cons c calls ih => exact (ih _).trans (limits_call s c)

theorem binding?_callAll (s : Session) (calls : List Call) (x : Name) :
    (s.callAll calls).binding? x =
      ((calls.filterMap (Call.body? x)).getLast?).or (s.binding? x) := by
  induction calls generalizing s with
  | nil => rfl
  | cons c calls ih =>
    show ((s.call c).session.callAll calls).binding? x = _
    rw [ih, binding?_call, List.filterMap_cons]
    cases c.body? x with
    | none => rfl
    | some body =>
      rw [List.getLast?_cons]
      cases (calls.filterMap (Call.body? x)).getLast? <;> rfl

theorem mem_boundNames {s : Session} {x : Name} : x ∈ s.boundNames ↔ s.binding? x ≠ none := by
  rw [boundNames, Std.ExtTreeMap.mem_keys, Std.ExtTreeMap.mem_iff_isSome_getElem?, binding?,
    Option.isSome_iff_ne_none]

theorem boundNames_increasing (s : Session) :
    s.boundNames.Pairwise fun x y => List.Lex (· < ·) x.toList y.toList := by
  refine List.Pairwise.imp ?_ Std.ExtTreeMap.ordered_keys
  intro x y less
  exact compareOfLessAndEq_eq_lt.mp less

/-! ### Calls between evaluations -/

theorem callAll_append (s : Session) (first second : List Call) :
    s.callAll (first ++ second) = (s.callAll first).callAll second :=
  List.foldl_append

theorem replies_call_append (s : Session) (first second : List Call) :
    s.replies call (first ++ second) =
      s.replies call first ++ (s.callAll first).replies call second := by
  induction first generalizing s with
  | nil => rfl
  | cons c first ih => exact congrArg (_ :: ·) (ih _)

theorem supply_callAll_of_quiet {calls : List Call} (quiet : ∀ c ∈ calls, c.evaluates = false)
    (s : Session) : (s.callAll calls).supply = s.supply := by
  induction calls generalizing s with
  | nil => rfl
  | cons c calls ih =>
    have first := supply_call_of_quiet (quiet c List.mem_cons_self) s
    exact (ih (fun d mem => quiet d (List.mem_cons_of_mem c mem)) _).trans first

/-- Only evaluations are answered by what the session holds. -/
theorem result_call_congr {c : Call} (quiet : c.evaluates = false) (s s' : Session) :
    (s.call c).result = (s'.call c).result := by
  rw [Call.evaluates] at quiet
  cases c with
  | enter line =>
    show Call.Answer.entered (s.enter line).result = .entered (s'.enter line).result
    rw [result_enter, result_enter]
    cases read : Statement.parse line with
    | error e => rfl
    | ok statement =>
      cases statement with
      | define x body => rfl
      | eval t => simp [Call.statement?, read, Except.toOption] at quiet
  | define x t => rfl
  | execute statement =>
    cases statement with
    | define x t => rfl
    | eval t => simp [Call.statement?] at quiet
  | evaluate t => simp [Call.statement?] at quiet

theorem replies_of_quiet {calls : List Call} (quiet : ∀ c ∈ calls, c.evaluates = false)
    (s s₀ : Session) : s.replies call calls = calls.map fun c => (c, (s₀.call c).result) := by
  induction calls generalizing s with
  | nil => rfl
  | cons c calls ih =>
    have rest := ih (fun d mem => quiet d (List.mem_cons_of_mem c mem)) (s.call c).session
    rw [replies, rest, result_call_congr (quiet c List.mem_cons_self) s s₀, List.map_cons]

theorem filter_replies_of_quiet {calls other : List Call}
    (quiet : ∀ c ∈ calls, c.evaluates = false) (quiet' : ∀ c ∈ other, c.evaluates = false)
    (others : calls.filter (!·.binds) = other.filter (!·.binds)) (s : Session) :
    (s.replies call calls).filter (!·.1.binds) = (s.replies call other).filter (!·.1.binds) := by
  rw [replies_of_quiet quiet s s, replies_of_quiet quiet' s s, List.filter_map, List.filter_map]
  exact congrArg _ others

/-- Between evaluations it only matters in which order each name is bound. -/
theorem callAll_congr_of_quiet {calls other : List Call} (quiet : ∀ c ∈ calls, c.evaluates = false)
    (quiet' : ∀ c ∈ other, c.evaluates = false)
    (bodies : ∀ x, calls.filterMap (Call.body? x) = other.filterMap (Call.body? x))
    (s : Session) : s.callAll calls = s.callAll other := by
  have bindings : (s.callAll calls).bindings = (s.callAll other).bindings := by
    apply Std.ExtTreeMap.ext_getElem?
    intro x
    show (s.callAll calls).binding? x = (s.callAll other).binding? x
    rw [binding?_callAll, binding?_callAll, bodies]
  have supply : (s.callAll calls).supply = (s.callAll other).supply := by
    rw [supply_callAll_of_quiet quiet, supply_callAll_of_quiet quiet']
  have limits : (s.callAll calls).limits = (s.callAll other).limits := by
    rw [limits_callAll, limits_callAll]
  calc s.callAll calls
    _ = ⟨(s.callAll calls).bindings, (s.callAll calls).supply, (s.callAll calls).limits⟩ := rfl
    _ = s.callAll other := by rw [bindings, supply, limits]

end Session

/-! ### Other orders -/

theorem eq_of_first {α : Type} {a : α} {l l' r r' : List α} (notMem : a ∉ l) (notMem' : a ∉ l')
    (same : l ++ a :: r = l' ++ a :: r') : l = l' ∧ r = r' := by
  induction l generalizing l' with
  | nil =>
    cases l' with
    | nil => exact ⟨rfl, (List.cons.inj same).2⟩
    | cons b l' =>
      obtain ⟨rfl, -⟩ := List.cons.inj same
      exact absurd List.mem_cons_self notMem'
  | cons b l ih =>
    cases l' with
    | nil =>
      obtain ⟨rfl, -⟩ := List.cons.inj same
      exact absurd List.mem_cons_self notMem
    | cons b' l' =>
      obtain ⟨rfl, tails⟩ := List.cons.inj same
      obtain ⟨rfl, rfl⟩ := ih (fun mem => notMem (List.mem_cons_of_mem b mem))
        (fun mem => notMem' (List.mem_cons_of_mem b mem)) tails
      exact ⟨rfl, rfl⟩

namespace Call.Reordered

variable {calls other : List Call}

theorem evaluations (reordered : Reordered calls other) :
    calls.filter evaluates = other.filter evaluates := by
  have within (l : List Call) : (l.filter (!·.binds)).filter evaluates = l.filter evaluates := by
    rw [List.filter_filter]
    apply List.filter_congr
    intro c _
    cases evaluates : c.evaluates with
    | false => rfl
    | true => simp [binds_of_evaluates evaluates]
  rw [← within, reordered.others, within]

theorem bodies (reordered : Reordered calls other) (x : Name) :
    calls.filterMap (body? x) = other.filterMap (body? x) := by
  have within (l : List Call) :
      (l.filter (fun c => c.evaluates || (c.body? x).isSome)).filterMap (body? x) =
        l.filterMap (body? x) := by
    rw [List.filterMap_filter]
    apply List.filterMap_congr
    intro c _
    cases body : c.body? x <;> simp
  rw [← within, reordered.named, within]

theorem split {a a' b b' : List Call} {e : Call} (evaluates : e.evaluates = true)
    (quiet : ∀ c ∈ a, ¬ c.evaluates = true) (quiet' : ∀ c ∈ a', ¬ c.evaluates = true)
    (reordered : Reordered (a ++ e :: b) (a' ++ e :: b')) : Reordered a a' ∧ Reordered b b' := by
  -- Whatever keeps the evaluation `e` is cut at the same place in both orders.
  have parts {p : Call → Bool} (kept : p e = true)
      (same : (a ++ e :: b).filter p = (a' ++ e :: b').filter p) :
      a.filter p = a'.filter p ∧ b.filter p = b'.filter p := by
    rw [List.filter_append, List.filter_append, List.filter_cons_of_pos kept,
      List.filter_cons_of_pos kept] at same
    refine eq_of_first ?_ ?_ same
    · intro mem
      exact quiet e (List.mem_of_mem_filter mem) evaluates
    · intro mem
      exact quiet' e (List.mem_of_mem_filter mem) evaluates
  have others := parts (by simp [binds_of_evaluates evaluates]) reordered.others
  have named (x : Name) := parts (by simp [evaluates]) (reordered.named x)
  exact ⟨⟨others.1, fun x => (named x).1⟩, ⟨others.2, fun x => (named x).2⟩⟩

/-- A binding may change places with a call that neither evaluates nor binds the same name. -/
theorem swap {c d : Call} (binds : c.binds = true) (quiet : d.evaluates = false)
    (apart : ∀ x, c.body? x = none ∨ d.body? x = none) (l r : List Call) :
    Reordered (l ++ c :: d :: r) (l ++ d :: c :: r) := by
  have quiet' : c.evaluates = false := by
    apply Bool.eq_false_iff.mpr
    intro evaluates
    simp [binds_of_evaluates evaluates] at binds
  constructor
  · simp [List.filter_cons, binds]
  · intro x
    rcases apart x with other | other <;> simp [List.filter_cons, quiet, quiet', other]

end Call.Reordered

theorem Session.answers_of_reordered {calls other : List Call}
    (reordered : Call.Reordered calls other) (s : Session) :
    s.callAll calls = s.callAll other ∧
      (s.replies call calls).filter (!·.1.binds) = (s.replies call other).filter (!·.1.binds) := by
  generalize evaluations : calls.filter Call.evaluates = es
  have evaluations' := reordered.evaluations.symm.trans evaluations
  induction es generalizing calls other s with
  | nil =>
    have quiet : ∀ c ∈ calls, c.evaluates = false := by
      simpa [List.filter_eq_nil_iff] using evaluations
    have quiet' : ∀ c ∈ other, c.evaluates = false := by
      simpa [List.filter_eq_nil_iff] using evaluations'
    exact ⟨callAll_congr_of_quiet quiet quiet' reordered.bodies s,
      filter_replies_of_quiet quiet quiet' reordered.others s⟩
  | cons e es ih =>
    obtain ⟨a, b, rfl, quiet, evaluates, rest⟩ := List.filter_eq_cons_iff.mp evaluations
    obtain ⟨a', b', rfl, quiet', -, rest'⟩ := List.filter_eq_cons_iff.mp evaluations'
    obtain ⟨before, after⟩ := reordered.split evaluates quiet quiet'
    simp only [Bool.not_eq_true] at quiet quiet'
    -- The first evaluation meets the same session in both orders, and leaves the same one.
    have same := callAll_congr_of_quiet quiet quiet' before.bodies s
    obtain ⟨final, answers⟩ := ih after ((s.callAll a').call e).session rest rest'
    refine ⟨?_, ?_⟩
    · rw [callAll_append, callAll_append, same]
      exact final
    · rw [replies_call_append, replies_call_append, List.filter_append, List.filter_append,
        filter_replies_of_quiet quiet quiet' before.others, same, replies, replies,
        List.filter_cons, List.filter_cons, answers]

/-- What a session holds after any calls. Every name has the body of the last call that bound it;
the bound names are listed by code point; a line without a statement changes nothing; an evaluation
changes neither bindings nor limits and lowers no count; no call but an evaluation is answered by
what the session holds. So bindings made in another order lead to the same session, and all that
binds nothing is answered as before. -/
theorem session_keeps_last_bindings (limits : Limits) (calls : List Call) :
    let start : Session := { limits := limits }
    let s := start.callAll calls
    (∀ x, s.binding? x = (calls.filterMap (Call.body? x)).getLast?) ∧
    (s.boundNames.Pairwise fun x y => List.Lex (· < ·) x.toList y.toList) ∧
    (∀ x, x ∈ s.boundNames ↔ ∃ c ∈ calls, (c.body? x).isSome) ∧
    (∀ line, line = "" ∨ (∃ e, Statement.parse line = .error e) → (s.enter line).session = s) ∧
    (∀ c t, c.statement? = some (.eval t) →
      (s.call c).session.bindings = s.bindings ∧ (s.call c).session.limits = s.limits ∧
        s.supply.Le (s.call c).session.supply) ∧
    (∀ c, c.evaluates = false → ∀ s' : Session, (s'.call c).result = (s.call c).result) ∧
    ∀ other, Call.Reordered calls other → start.callAll other = s ∧
      (start.replies Session.call other).filter (!·.1.binds) =
        (start.replies Session.call calls).filter (!·.1.binds) := by
  intro start s
  have bodies (x : Name) : s.binding? x = (calls.filterMap (Call.body? x)).getLast? := by
    have nothing : start.binding? x = none := by simp [start, Session.binding?]
    rw [Session.binding?_callAll, nothing, Option.or_none]
  refine ⟨bodies, s.boundNames_increasing, ?_, ?_, ?_, ?_, ?_⟩
  · intro x
    rw [Session.mem_boundNames, bodies, ne_eq, List.getLast?_eq_none_iff,
      List.filterMap_eq_nil_iff]
    simp [Option.isSome_iff_ne_none]
  · rintro line (rfl | ⟨e, unread⟩)
    · rfl
    · rw [Session.session_enter, unread]
  · intro c t asked
    rw [Session.session_call, asked]
    exact ⟨rfl, rfl, s.le_evaluate t⟩
  · intro c quiet s'
    exact Session.result_call_congr quiet s' s
  · intro other reordered
    obtain ⟨final, answers⟩ := Session.answers_of_reordered reordered start
    exact ⟨final.symm, answers.symm⟩

/-- Two bindings change places before an evaluation that needs both. -/
theorem swapped_bindings_lead_to_same_value :
    let limits : Limits := { maxSteps := some 3 }
    let start : Session := { limits := limits }
    let k : Call := .define "k" (.lam "x" (.lam "y" (.var "x")))
    let y : Call := .define "y" (.lam "z" (.var "z"))
    let ask : Call := .evaluate (.app (.var "k") (.var "y"))
    Call.Reordered [k, y, ask] [y, k, ask] ∧
      start.callAll [y, k, ask] = start.callAll [k, y, ask] ∧
      (start.replies Session.call [y, k, ask]).filter (!·.1.binds) =
        [(ask, .evaluated (.value (.lam "y" (.lam "z" (.var "z")))))] := by
  intro limits start k y ask
  have reordered : Call.Reordered [k, y, ask] [y, k, ask] := by
    refine Call.Reordered.swap rfl rfl ?_ [] [ask]
    intro x
    by_cases same : "k" = x
    · subst same
      exact Or.inr rfl
    · exact Or.inl (by simp [k, Call.body?, Call.statement?, same])
  have value : (evaluate (start.callAll [k, y]).bindings limits
      (.app (.var "k") (.var "y")) {}).1 = .value (.lam "y" (.lam "z" (.var "z"))) := by
    unfold limits start k y
    cbv
  obtain ⟨-, -, -, -, -, -, orders⟩ := session_keeps_last_bindings limits [k, y, ask]
  obtain ⟨final, answers⟩ := orders _ reordered
  refine ⟨reordered, final, answers.trans ?_⟩
  show [(ask, Call.Answer.evaluated (evaluate (start.callAll [k, y]).bindings limits
    (.app (.var "k") (.var "y")) {}).1)] = _
  rw [value]

end EagerLambda
