import EagerLambda.Session
import Mathlib.Data.List.TakeWhile

/-!
# The grammar of terms

`Term.Derives` is the grammar of terms over characters, blanks included. `reads_sound` and
`reads_complete` compare the reader with it; together they make the reader take the longest
derivable text, which `reads_iff_longest` states and `reader_matches_grammar` puts in terms of
byte positions.
-/

namespace EagerLambda

/-- A run of space, tab, carriage return and line feed. -/
def Blank (s : List Char) : Prop :=
  ∀ c ∈ s, c = ' ' ∨ c = '\t' ∨ c = '\r' ∨ c = '\n'

/-- A letter or an underscore, then letters, digits and underscores. -/
def Identifier (s : List Char) : Prop :=
  ∃ c cs, s = c :: cs ∧ (c.isAlpha ∨ c = '_') ∧ ∀ d ∈ cs, d.isAlphanum ∨ d = '_'

/-- The grammar derives the text, with the term as its tree. Blanks stand before every token. -/
inductive Term.Derives : Term → List Char → Prop where
  | var {bs x : List Char} : Blank bs → Identifier x → Derives (.var (String.ofList x)) (bs ++ x)
  | lam {bs₁ bs₂ bs₃ x s : List Char} {b : Term} : Blank bs₁ → Blank bs₂ → Identifier x →
      Blank bs₃ → Derives b s →
      Derives (.lam (String.ofList x) b) (bs₁ ++ '%' :: (bs₂ ++ (x ++ (bs₃ ++ '.' :: s))))
  | app {bs₁ bs₂ bs₃ s₁ s₂ : List Char} {f a : Term} : Blank bs₁ → Derives f s₁ → Blank bs₂ →
      Derives a s₂ → Blank bs₃ →
      Derives (.app f a) (bs₁ ++ '<' :: (s₁ ++ (bs₂ ++ '+' :: (s₂ ++ (bs₃ ++ ['>'])))))

/-! ### Blanks -/

theorem isBlank_iff {c : Char} : isBlank c = true ↔ c = ' ' ∨ c = '\t' ∨ c = '\r' ∨ c = '\n' := by
  simp [isBlank, or_assoc]

theorem skipBlanks_append {bs : List Char} (blank : Blank bs) (s : List Char) :
    skipBlanks (bs ++ s) = skipBlanks s :=
  List.dropWhile_append_of_pos fun c mem => isBlank_iff.mpr (blank c mem)

theorem skipBlanks_cons {c : Char} (visible : isBlank c = false) (s : List Char) :
    skipBlanks (c :: s) = c :: s := by
  rw [skipBlanks, List.dropWhile_cons, if_neg (by simp [visible])]

theorem peek_append {bs : List Char} {c : Char} (blank : Blank bs) (visible : isBlank c = false)
    (s : List Char) : peek (bs ++ c :: s) = some c := by
  rw [peek, skipBlanks_append blank, skipBlanks_cons visible]
  rfl

theorem exists_blank_append (s : List Char) : ∃ bs, Blank bs ∧ s = bs ++ skipBlanks s := by
  refine ⟨s.takeWhile isBlank, ?_, List.takeWhile_append_dropWhile.symm⟩
  intro c mem
  exact isBlank_iff.mp (List.mem_takeWhile_imp mem)

/-! ### Tokens -/

namespace TokenClass

/-- The next token of `s` is `x`, and `r` comes after it. -/
def Takes (k : TokenClass) (s x r : List Char) : Prop :=
  ∃ h, k.token? s = some ⟨x, r, h⟩

theorem takes_iff {k : TokenClass} {s x r : List Char} :
    k.Takes s x r ↔ ∃ c cs, skipBlanks s = c :: cs ∧ k.starts c = true ∧
      x = c :: cs.takeWhile k.continues ∧ r = cs.dropWhile k.continues := by
  unfold Takes token?
  -- The bound is part of what is taken, so it goes along when `skipBlanks s` gets a name.
  generalize length_skipBlanks_le s = bound
  revert bound
  generalize skipBlanks s = rest
  intro bound
  cases rest with
  | nil => simp [lexeme?]
  | cons c cs =>
    by_cases start : k.starts c = true
    · simp only [lexeme?, if_pos start, Option.map_some, Taken.widen, Option.some.injEq,
        Taken.mk.injEq, List.cons.injEq]
      constructor
      · rintro ⟨-, rfl, rfl⟩
        exact ⟨c, cs, ⟨rfl, rfl⟩, start, rfl, rfl⟩
      · rintro ⟨d, ds, ⟨rfl, rfl⟩, -, rfl, rfl⟩
        refine ⟨?_, rfl, rfl⟩
        have := List.length_dropWhile_le k.continues cs
        rw [List.length_cons] at bound
        omega
    · simp only [lexeme?, if_neg start, Option.map_none, reduceCtorEq, exists_false, false_iff]
      rintro ⟨d, ds, same, start', -⟩
      obtain ⟨rfl, rfl⟩ := List.cons.inj same
      exact start start'

theorem takes_append {k : TokenClass} {bs cs : List Char} {c : Char} (blank : Blank bs)
    (visible : isBlank c = false) (start : k.starts c = true)
    (more : ∀ d ∈ cs, k.continues d = true) (s : List Char) :
    k.Takes (bs ++ (c :: cs ++ s)) (c :: cs ++ s.takeWhile k.continues)
      (s.dropWhile k.continues) := by
  rw [takes_iff]
  refine ⟨c, cs ++ s, ?_, start, ?_, ?_⟩
  · rw [skipBlanks_append blank, List.cons_append, skipBlanks_cons visible]
  · rw [List.takeWhile_append_of_pos more, List.cons_append]
  · rw [List.dropWhile_append_of_pos more]

theorem takes_sound {k : TokenClass} {s x r : List Char} (taken : k.Takes s x r) :
    ∃ bs c cs, Blank bs ∧ k.starts c = true ∧ (∀ d ∈ cs, k.continues d = true) ∧ x = c :: cs ∧
      s = bs ++ (c :: cs ++ r) := by
  obtain ⟨c, cs, rest, start, rfl, rfl⟩ := takes_iff.mp taken
  obtain ⟨bs, blank, split⟩ := exists_blank_append s
  refine ⟨bs, c, cs.takeWhile k.continues, blank, start, fun d mem => List.mem_takeWhile_imp mem,
    rfl, ?_⟩
  rw [split, rest, List.cons_append, List.takeWhile_append_dropWhile]

/-! A mark is a token of one character. -/

theorem takes_mark {k : TokenClass} {bs : List Char} {c : Char} (blank : Blank bs)
    (visible : isBlank c = false) (start : k.starts c = true)
    (single : ∀ d, k.continues d = false) (s : List Char) : k.Takes (bs ++ c :: s) [c] s := by
  have taken : k.Takes (bs ++ ([c] ++ s)) ([c] ++ s.takeWhile k.continues)
      (s.dropWhile k.continues) := takes_append blank visible start (by simp) s
  rw [List.takeWhile_eq_nil_iff.mpr (by simp [single]),
    List.dropWhile_eq_self_iff.mpr (by simp [single])] at taken
  exact taken

theorem takes_mark_sound {k : TokenClass} {s x r : List Char} (single : ∀ d, k.continues d = false)
    (taken : k.Takes s x r) : ∃ bs c, Blank bs ∧ k.starts c = true ∧ s = bs ++ c :: r := by
  obtain ⟨bs, c, cs, blank, start, more, -, split⟩ := takes_sound taken
  cases cs with
  | nil => exact ⟨bs, c, blank, start, split⟩
  | cons d ds => exact absurd (more d List.mem_cons_self) (by simp [single])

theorem visible_of_identifier {c : Char} (start : c.isAlpha ∨ c = '_') : isBlank c = false := by
  rw [← Bool.not_eq_true, isBlank_iff]
  rintro (rfl | rfl | rfl | rfl) <;> simp at start

theorem takes_identifier {bs x : List Char} (blank : Blank bs) (name : Identifier x)
    (s : List Char) :
    identifier.Takes (bs ++ (x ++ s)) (x ++ s.takeWhile identifier.continues)
      (s.dropWhile identifier.continues) := by
  obtain ⟨c, cs, rfl, start, more⟩ := name
  apply takes_append blank (visible_of_identifier start)
  · simpa [starts] using start
  · intro d mem
    simpa [continues] using more d mem

theorem takes_identifier_sound {s x r : List Char} (taken : identifier.Takes s x r) :
    ∃ bs, Blank bs ∧ Identifier x ∧ s = bs ++ (x ++ r) := by
  obtain ⟨bs, c, cs, blank, start, more, rfl, split⟩ := takes_sound taken
  refine ⟨bs, blank, ⟨c, cs, rfl, ?_, ?_⟩, split⟩
  · simpa [starts] using start
  · intro d mem
    simpa [continues] using more d mem

end TokenClass

/-! ### The reader, one production at a time -/

namespace Term

/-- The reader finds `t` at the front of `s` and leaves `r`. -/
def Reads (s : List Char) (t : Term) (r : List Char) : Prop :=
  ∃ h, read s = some ⟨t, r, h⟩

theorem Reads.deterministic {s r r' : List Char} {t t' : Term} (first : Reads s t r)
    (second : Reads s t' r') : t = t' ∧ r = r' := by
  obtain ⟨_, first⟩ := first
  obtain ⟨_, second⟩ := second
  rw [first, Option.some.injEq, Taken.mk.injEq] at second
  exact second

theorem reads_lam_iff {s r : List Char} {t : Term} (next : peek s = some '%') :
    Reads s t r ↔ ∃ mark r₁ x r₂ dot r₃ b, TokenClass.lambda.Takes s mark r₁ ∧
      TokenClass.identifier.Takes r₁ x r₂ ∧ TokenClass.dot.Takes r₂ dot r₃ ∧ Reads r₃ b r ∧
      t = lam (String.ofList x) b := by
  unfold Reads TokenClass.Takes
  rw [read]
  simp only [next, Option.bind_eq_bind]
  constructor
  · rintro ⟨_, found⟩
    obtain ⟨⟨mark, r₁, h₁⟩, taken₁, found⟩ := Option.bind_eq_some_iff.mp found
    obtain ⟨⟨x, r₂, h₂⟩, taken₂, found⟩ := Option.bind_eq_some_iff.mp found
    obtain ⟨⟨dot, r₃, h₃⟩, taken₃, found⟩ := Option.bind_eq_some_iff.mp found
    obtain ⟨⟨b, r₄, h₄⟩, body, found⟩ := Option.bind_eq_some_iff.mp found
    simp only [Option.some.injEq, Taken.mk.injEq] at found
    obtain ⟨rfl, rfl⟩ := found
    exact ⟨mark, r₁, x, r₂, dot, r₃, b, ⟨h₁, taken₁⟩, ⟨h₂, taken₂⟩, ⟨h₃, taken₃⟩, ⟨h₄, body⟩, rfl⟩
  · rintro ⟨mark, r₁, x, r₂, dot, r₃, b, ⟨h₁, taken₁⟩, ⟨h₂, taken₂⟩, ⟨h₃, taken₃⟩, ⟨h₄, body⟩, rfl⟩
    simp only [taken₁, taken₂, taken₃, body, Option.bind_some]
    exact ⟨Nat.lt_trans h₄ (Nat.lt_trans h₃ (Nat.lt_trans h₂ h₁)), trivial⟩

theorem reads_app_iff {s r : List Char} {t : Term} (next : peek s = some '<') :
    Reads s t r ↔ ∃ opening r₁ f r₂ plus r₃ a r₄ closing, TokenClass.openApp.Takes s opening r₁ ∧
      Reads r₁ f r₂ ∧ TokenClass.plus.Takes r₂ plus r₃ ∧ Reads r₃ a r₄ ∧
      TokenClass.closeApp.Takes r₄ closing r ∧ t = app f a := by
  unfold Reads TokenClass.Takes
  rw [read]
  simp only [next, Option.bind_eq_bind]
  constructor
  · rintro ⟨_, found⟩
    obtain ⟨⟨opening, r₁, h₁⟩, taken₁, found⟩ := Option.bind_eq_some_iff.mp found
    obtain ⟨⟨f, r₂, h₂⟩, function, found⟩ := Option.bind_eq_some_iff.mp found
    obtain ⟨⟨plus, r₃, h₃⟩, taken₃, found⟩ := Option.bind_eq_some_iff.mp found
    obtain ⟨⟨a, r₄, h₄⟩, argument, found⟩ := Option.bind_eq_some_iff.mp found
    obtain ⟨⟨closing, r₅, h₅⟩, taken₅, found⟩ := Option.bind_eq_some_iff.mp found
    simp only [Option.some.injEq, Taken.mk.injEq] at found
    obtain ⟨rfl, rfl⟩ := found
    exact ⟨opening, r₁, f, r₂, plus, r₃, a, r₄, closing, ⟨h₁, taken₁⟩, ⟨h₂, function⟩, ⟨h₃, taken₃⟩,
      ⟨h₄, argument⟩, ⟨h₅, taken₅⟩, rfl⟩
  · rintro ⟨opening, r₁, f, r₂, plus, r₃, a, r₄, closing, ⟨h₁, taken₁⟩, ⟨h₂, function⟩,
      ⟨h₃, taken₃⟩, ⟨h₄, argument⟩, ⟨h₅, taken₅⟩, rfl⟩
    simp only [taken₁, function, taken₃, argument, taken₅, Option.bind_some]
    exact ⟨Nat.lt_trans h₅ (Nat.lt_trans h₄ (Nat.lt_trans h₃ (Nat.lt_trans h₂ h₁))), trivial⟩

theorem reads_var_iff {s r : List Char} {t : Term} (notLam : peek s ≠ some '%')
    (notApp : peek s ≠ some '<') :
    Reads s t r ↔ ∃ x, TokenClass.identifier.Takes s x r ∧ t = var (String.ofList x) := by
  unfold Reads TokenClass.Takes
  rw [read]
  simp only [Option.bind_eq_bind]
  constructor
  · rintro ⟨_, found⟩
    obtain ⟨⟨x, r₁, h₁⟩, taken, found⟩ := Option.bind_eq_some_iff.mp found
    simp only [Option.some.injEq, Taken.mk.injEq] at found
    obtain ⟨rfl, rfl⟩ := found
    exact ⟨x, ⟨h₁, taken⟩, rfl⟩
  · rintro ⟨x, ⟨h₁, taken⟩, rfl⟩
    simp only [taken, Option.bind_some]
    exact ⟨h₁, trivial⟩

/-! ### The reader and the grammar -/

theorem reads_sound {s r : List Char} {t : Term} (found : Reads s t r) :
    ∃ p, s = p ++ r ∧ Derives t p := by
  induction hn : s.length using Nat.strongRecOn generalizing s r t with
  | _ n ih =>
    subst hn
    by_cases isLam : peek s = some '%'
    · obtain ⟨_, r₁, x, r₂, _, r₃, b, taken₁, taken₂, taken₃, body, rfl⟩ :=
        (reads_lam_iff isLam).mp found
      have shorter : r₃.length < s.length :=
        Nat.lt_trans taken₃.choose (Nat.lt_trans taken₂.choose taken₁.choose)
      obtain ⟨p, rfl, derived⟩ := ih _ shorter body rfl
      obtain ⟨bs₁, c, blank₁, start₁, rfl⟩ := TokenClass.takes_mark_sound (fun _ => rfl) taken₁
      obtain ⟨bs₂, blank₂, name, rfl⟩ := TokenClass.takes_identifier_sound taken₂
      obtain ⟨bs₃, d, blank₃, start₃, rfl⟩ := TokenClass.takes_mark_sound (fun _ => rfl) taken₃
      obtain rfl : c = '%' := by simpa [TokenClass.starts] using start₁
      obtain rfl : d = '.' := by simpa [TokenClass.starts] using start₃
      exact ⟨_, by simp, Derives.lam blank₁ blank₂ name blank₃ derived⟩
    by_cases isApp : peek s = some '<'
    · obtain ⟨_, r₁, f, r₂, _, r₃, a, r₄, _, taken₁, function, taken₃, argument, taken₅, rfl⟩ :=
        (reads_app_iff isApp).mp found
      have shorter₁ : r₁.length < s.length := taken₁.choose
      have shorter₃ : r₃.length < s.length :=
        Nat.lt_trans taken₃.choose (Nat.lt_trans function.choose taken₁.choose)
      obtain ⟨p₁, rfl, derived₁⟩ := ih _ shorter₁ function rfl
      obtain ⟨p₂, rfl, derived₂⟩ := ih _ shorter₃ argument rfl
      obtain ⟨bs₁, c, blank₁, start₁, rfl⟩ := TokenClass.takes_mark_sound (fun _ => rfl) taken₁
      obtain ⟨bs₂, d, blank₂, start₂, rfl⟩ := TokenClass.takes_mark_sound (fun _ => rfl) taken₃
      obtain ⟨bs₃, e, blank₃, start₃, rfl⟩ := TokenClass.takes_mark_sound (fun _ => rfl) taken₅
      obtain rfl : c = '<' := by simpa [TokenClass.starts] using start₁
      obtain rfl : d = '+' := by simpa [TokenClass.starts] using start₂
      obtain rfl : e = '>' := by simpa [TokenClass.starts] using start₃
      exact ⟨_, by simp, Derives.app blank₁ derived₁ blank₂ derived₂ blank₃⟩
    · obtain ⟨x, taken, rfl⟩ := (reads_var_iff isLam isApp).mp found
      obtain ⟨bs, blank, name, rfl⟩ := TokenClass.takes_identifier_sound taken
      exact ⟨bs ++ x, by simp, Derives.var blank name⟩

theorem identifier_stops {bs s : List Char} {c : Char} (blank : Blank bs)
    (mark : TokenClass.identifier.continues c = false) :
    (bs ++ c :: s).takeWhile TokenClass.identifier.continues = [] ∧
      (bs ++ c :: s).dropWhile TokenClass.identifier.continues = bs ++ c :: s := by
  cases bs with
  | nil => simp [mark]
  | cons d ds =>
    have other : TokenClass.identifier.continues d = false := by
      rcases blank d List.mem_cons_self with rfl | rfl | rfl | rfl <;> rfl
    simp [other]

theorem no_extra {bs s u r : List Char} {c : Char} (blank : Blank bs)
    (mark : TokenClass.identifier.continues c = false) (split : bs ++ c :: s = u ++ r)
    (extra : ∀ d ∈ u, TokenClass.identifier.continues d = true) : u = [] := by
  have stops := (identifier_stops (s := s) blank mark).1
  rw [split, List.takeWhile_append_of_pos extra] at stops
  exact (List.append_eq_nil_iff.mp stops).1

/-- The reader takes a derivable text, and beyond it only what makes its last identifier longer. -/
theorem reads_complete {t : Term} {p : List Char} (derived : Derives t p) (q : List Char) :
    ∃ t' u r, Reads (p ++ q) t' r ∧ q = u ++ r ∧
      (∀ c ∈ u, TokenClass.identifier.continues c = true) ∧ (u = [] → t' = t) := by
  induction derived generalizing q with
  | @var bs x blank name =>
    obtain ⟨c, cs, rfl, start, more⟩ := name
    have next : peek (bs ++ c :: cs ++ q) = some c := by
      rw [List.append_assoc, List.cons_append,
        peek_append blank (TokenClass.visible_of_identifier start)]
    have notLam : peek (bs ++ c :: cs ++ q) ≠ some '%' := by
      rw [next]
      rintro ⟨⟩
      simp at start
    have notApp : peek (bs ++ c :: cs ++ q) ≠ some '<' := by
      rw [next]
      rintro ⟨⟩
      simp at start
    have taken := TokenClass.takes_identifier blank ⟨c, cs, rfl, start, more⟩ q
    rw [← List.append_assoc] at taken
    refine ⟨_, q.takeWhile TokenClass.identifier.continues, _,
      (reads_var_iff notLam notApp).mpr ⟨_, taken, rfl⟩, List.takeWhile_append_dropWhile.symm,
      fun c mem => List.mem_takeWhile_imp mem, ?_⟩
    intro none
    rw [none, List.append_nil]
  | @lam bs₁ bs₂ bs₃ x s b blank₁ blank₂ name blank₃ _ ih =>
    obtain ⟨b', u, r, body, split, extra, same⟩ := ih q
    have taken₁ := TokenClass.takes_mark (k := .lambda) (c := '%') blank₁ rfl rfl (fun _ => rfl)
      (bs₂ ++ (x ++ (bs₃ ++ '.' :: (s ++ q))))
    have taken₂ := TokenClass.takes_identifier blank₂ name (bs₃ ++ '.' :: (s ++ q))
    obtain ⟨noMore, allLeft⟩ := identifier_stops (c := '.') (s := s ++ q) blank₃ rfl
    rw [noMore, allLeft, List.append_nil] at taken₂
    have taken₃ := TokenClass.takes_mark (k := .dot) (c := '.') blank₃ rfl rfl (fun _ => rfl)
      (s ++ q)
    have next := peek_append blank₁ (c := '%') rfl (bs₂ ++ (x ++ (bs₃ ++ '.' :: (s ++ q))))
    refine ⟨lam (String.ofList x) b', u, r, ?_, split, extra, fun none => by rw [same none]⟩
    simp only [List.append_assoc, List.cons_append]
    exact (reads_lam_iff next).mpr ⟨_, _, x, _, _, _, b', taken₁, taken₂, taken₃, body, rfl⟩
  | @app bs₁ bs₂ bs₃ s₁ s₂ f a blank₁ _ blank₂ _ blank₃ ihf iha =>
    -- The marks after the two parts cannot make an identifier longer, so nothing extra is taken.
    obtain ⟨f', u₁, r₁, function, split₁, extra₁, same₁⟩ :=
      ihf (bs₂ ++ '+' :: (s₂ ++ (bs₃ ++ '>' :: q)))
    obtain rfl := no_extra blank₂ rfl split₁ extra₁
    obtain rfl := split₁
    obtain rfl := same₁ rfl
    obtain ⟨a', u₂, r₂, argument, split₂, extra₂, same₂⟩ := iha (bs₃ ++ '>' :: q)
    obtain rfl := no_extra blank₃ rfl split₂ extra₂
    obtain rfl := split₂
    obtain rfl := same₂ rfl
    have taken₁ := TokenClass.takes_mark (k := .openApp) (c := '<') blank₁ rfl rfl (fun _ => rfl)
      (s₁ ++ (bs₂ ++ '+' :: (s₂ ++ (bs₃ ++ '>' :: q))))
    have taken₃ := TokenClass.takes_mark (k := .plus) (c := '+') blank₂ rfl rfl (fun _ => rfl)
      (s₂ ++ (bs₃ ++ '>' :: q))
    have taken₅ := TokenClass.takes_mark (k := .closeApp) (c := '>') blank₃ rfl rfl (fun _ => rfl) q
    have next := peek_append blank₁ (c := '<') rfl (s₁ ++ (bs₂ ++ '+' :: (s₂ ++ (bs₃ ++ '>' :: q))))
    refine ⟨app f' a', [], q, ?_, rfl, by simp, fun _ => rfl⟩
    simp only [List.append_assoc, List.cons_append, List.nil_append]
    exact (reads_app_iff next).mpr
      ⟨_, _, f', _, _, _, a', _, _, taken₁, function, taken₃, argument, taken₅, rfl⟩

/-- `p` is the longest derivable text at the front of `s`, and `t` is its tree. -/
def Longest (s p : List Char) (t : Term) : Prop :=
  Derives t p ∧ p <+: s ∧ ∀ t' p', Derives t' p' → p' <+: s → p'.length ≤ p.length

theorem derives_length_le {s p q : List Char} {t t' : Term} {r : List Char} (found : Reads s t r)
    (split : s = p ++ r) (derived : Derives t' q) (front : q <+: s) : q.length ≤ p.length := by
  obtain ⟨rest, rfl⟩ := front
  obtain ⟨t'', u, r', found', rfl, -, -⟩ := reads_complete derived rest
  obtain ⟨-, rfl⟩ := found.deterministic found'
  have lengths := congrArg List.length split
  simp only [List.length_append] at lengths
  omega

theorem reads_iff_longest {s r : List Char} {t : Term} :
    Reads s t r ↔ ∃ p, s = p ++ r ∧ Longest s p t := by
  constructor
  · intro found
    obtain ⟨p, rfl, derived⟩ := reads_sound found
    refine ⟨p, rfl, derived, List.prefix_append p r, ?_⟩
    intro t' p' derived' front
    exact derives_length_le found rfl derived' front
  · rintro ⟨p, rfl, derived, -, longest⟩
    obtain ⟨t', u, r', found, rfl, -, same⟩ := reads_complete derived r
    -- The reader takes `p ++ u`, which is derivable too, so `u` is empty.
    obtain ⟨p', split, derived'⟩ := reads_sound found
    have bound := longest t' p' derived' ⟨r', split.symm⟩
    have lengths := congrArg List.length split
    simp only [List.length_append] at lengths
    obtain rfl : u = [] := List.eq_nil_of_length_eq_zero (by omega)
    rw [same rfl] at found
    exact found

theorem read_eq_none_iff {s : List Char} :
    read s = none ↔ ∀ t p, Derives t p → ¬ p <+: s := by
  constructor
  · rintro none t p derived ⟨q, rfl⟩
    obtain ⟨t', u, r, ⟨_, found⟩, -⟩ := reads_complete derived q
    rw [none] at found
    exact absurd found (by simp)
  · intro underivable
    cases found : read s with
    | none => rfl
    | some taken =>
      obtain ⟨t, r, shorter⟩ := taken
      obtain ⟨p, rfl, derived⟩ := reads_sound ⟨shorter, found⟩
      exact absurd (List.prefix_append p r) (underivable t p derived)

theorem reads_nil_iff {s : List Char} {t : Term} : Reads s t [] ↔ Derives t s := by
  rw [reads_iff_longest]
  constructor
  · rintro ⟨p, split, derived, -⟩
    rw [split, List.append_nil]
    exact derived
  · intro derived
    refine ⟨s, by simp, derived, List.prefix_refl s, ?_⟩
    intro _ p _ front
    exact front.length_le

theorem Derives.unique {s : List Char} {t t' : Term} (first : Derives t s) (second : Derives t' s) :
    t = t' :=
  ((reads_nil_iff.mpr first).deterministic (reads_nil_iff.mpr second)).1

/-! ### Whole texts and byte positions -/

theorem parseChars_eq_ok_iff {s : List Char} {t : Term} : parseChars s = .ok t ↔ Derives t s := by
  rw [← reads_nil_iff]
  unfold parseChars Reads
  cases read s with
  | none => simp
  | some taken =>
    obtain ⟨t', r, shorter⟩ := taken
    cases r with
    | nil => simpa using fun _ => shorter
    | cons c cs => simp

theorem parseChars_eq_unconsumed_iff {s : List Char} {stop length : Nat} :
    parseChars s = .error (.unconsumed stop length) ↔
      ∃ t r, Reads s t r ∧ r ≠ [] ∧ stop = positionOf s r ∧ length = byteLength s := by
  unfold parseChars Reads
  cases read s with
  | none => simp
  | some taken =>
    obtain ⟨t', r, shorter⟩ := taken
    cases r with
    | nil =>
      simp only [reduceCtorEq, Option.some.injEq, Taken.mk.injEq, false_iff]
      rintro ⟨t, r, ⟨-, -, rfl⟩, left, -⟩
      exact left rfl
    | cons c cs =>
      simp only [Except.error.injEq, ParseError.unconsumed.injEq, Option.some.injEq, Taken.mk.injEq]
      constructor
      · rintro ⟨rfl, rfl⟩
        exact ⟨t', c :: cs, ⟨shorter, rfl, rfl⟩, by simp, rfl, rfl⟩
      · rintro ⟨t, r, ⟨-, rfl, rfl⟩, -, rfl, rfl⟩
        exact ⟨rfl, rfl⟩

theorem byteLength_append (s r : List Char) :
    byteLength (s ++ r) = byteLength s + byteLength r := by
  induction s with
  | nil => simp [byteLength]
  | cons c s ih =>
    simp only [byteLength, List.cons_append, List.foldr_cons] at ih ⊢
    omega

theorem positionOf_append (s r : List Char) : positionOf (s ++ r) r = byteLength s := by
  rw [positionOf, byteLength_append]
  omega

theorem seek_append (s r : List Char) : seek (s ++ r) (byteLength s) = .ok r := by
  induction s with
  | nil => simp [byteLength, seek]
  | cons c s ih =>
    have positive := c.utf8Size_pos
    have size : byteLength (c :: s) = (c.utf8Size + byteLength s - 1) + 1 := by
      simp only [byteLength, List.foldr_cons]
      omega
    rw [size, List.cons_append, seek, if_pos (by omega),
      show c.utf8Size + byteLength s - 1 + 1 - c.utf8Size = byteLength s by omega, ih]

theorem readAt_append (s r : List Char) :
    readAt (s ++ r) (byteLength s) =
      .ok ((read r).map fun t => (t.value, positionOf (s ++ r) t.rest)) := by
  rw [readAt, seek_append]
  rfl

theorem readAt_append_eq_some_iff {s r : List Char} {t : Term} {j : Nat} :
    readAt (s ++ r) (byteLength s) = .ok (some (t, j)) ↔
      ∃ q, Reads r t q ∧ j = positionOf (s ++ r) q := by
  rw [readAt_append, Except.ok.injEq, Option.map_eq_some_iff]
  constructor
  · rintro ⟨⟨t', q, shorter⟩, found, same⟩
    obtain ⟨rfl, rfl⟩ := Prod.mk.inj same
    exact ⟨q, ⟨shorter, found⟩, rfl⟩
  · rintro ⟨q, ⟨shorter, found⟩, rfl⟩
    exact ⟨⟨t, q, shorter⟩, found, rfl⟩

theorem inputLeft_mem_iff {text : String} {stop length : Nat} :
    (∃ e, parse text = .error e ∧ Event.inputLeft stop length ∈ e.events) ↔
      ∃ t r, Reads text.toList t r ∧ r ≠ [] ∧ stop = positionOf text.toList r ∧
        length = byteLength text.toList := by
  rw [← parseChars_eq_unconsumed_iff]
  constructor
  · rintro ⟨e, failed, mem⟩
    cases e with
    | noTerm => simp [ParseError.events] at mem
    | unconsumed i n =>
      simp only [ParseError.events, List.mem_toArray, List.mem_singleton,
        Event.inputLeft.injEq] at mem
      obtain ⟨rfl, rfl⟩ := mem
      exact failed
  · intro failed
    exact ⟨_, failed, by simp [ParseError.events]⟩

/-- The reader accepts the grammar by longest match: at the position after `s` it finds the longest
derivable text at the front of `r` and gives its tree, or nothing if no text there is derivable. A
whole text is accepted exactly if it is derivable, each text has one tree, and the event about left
input goes with the texts of which only a proper part is derivable. -/
theorem reader_matches_grammar :
    (∀ (s r : List Char) (t : Term) (j : Nat),
      readAt (s ++ r) (byteLength s) = .ok (some (t, j)) ↔
        ∃ p, Longest r p t ∧ j = byteLength (s ++ p)) ∧
    (∀ s r : List Char,
      readAt (s ++ r) (byteLength s) = .ok none ↔ ∀ t p, Derives t p → ¬ p <+: r) ∧
    (∀ (text : String) (t : Term), parse text = .ok t ↔ Derives t text.toList) ∧
    (∀ (s : List Char) (t t' : Term), Derives t s → Derives t' s → t = t') ∧
    (∀ (text : String) (stop length : Nat),
      (∃ e, parse text = .error e ∧ Event.inputLeft stop length ∈ e.events) ↔
        (¬ ∃ t, Derives t text.toList) ∧ length = byteLength text.toList ∧
          ∃ p t, Longest text.toList p t ∧ stop = byteLength p) := by
  refine ⟨?_, ?_, ?_, ?_, ?_⟩
  · intro s r t j
    rw [readAt_append_eq_some_iff]
    constructor
    · rintro ⟨q, found, rfl⟩
      obtain ⟨p, rfl, longest⟩ := reads_iff_longest.mp found
      exact ⟨p, longest, by rw [← List.append_assoc, positionOf_append]⟩
    · rintro ⟨p, longest, rfl⟩
      obtain ⟨q, rfl⟩ := longest.2.1
      refine ⟨q, reads_iff_longest.mpr ⟨p, rfl, longest⟩, ?_⟩
      rw [← List.append_assoc, positionOf_append]
  · intro s r
    rw [readAt_append, Except.ok.injEq, Option.map_eq_none_iff, read_eq_none_iff]
  · intro text t
    exact parseChars_eq_ok_iff
  · intro s t t' first second
    exact first.unique second
  · intro text stop length
    rw [inputLeft_mem_iff]
    constructor
    · rintro ⟨t, r, found, left, rfl, rfl⟩
      obtain ⟨p, split, longest⟩ := reads_iff_longest.mp found
      refine ⟨?_, rfl, p, t, longest, by rw [split, positionOf_append]⟩
      rintro ⟨t', whole⟩
      exact left (found.deterministic (reads_nil_iff.mpr whole)).2
    · rintro ⟨partly, rfl, p, t, longest, rfl⟩
      obtain ⟨r, split⟩ := longest.2.1
      refine ⟨t, r, reads_iff_longest.mpr ⟨p, split.symm, longest⟩, ?_, ?_, rfl⟩
      · rintro rfl
        rw [List.append_nil] at split
        exact partly ⟨t, split ▸ longest.1⟩
      · rw [← split, positionOf_append]

end Term

end EagerLambda
