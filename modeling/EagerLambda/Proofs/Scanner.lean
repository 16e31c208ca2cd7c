import EagerLambda.Proofs.Boundaries
import EagerLambda.Text.Scan

/-!
# The scanner and its slices

The scanner moves a cursor by adding lengths in bytes, and takes slices of the text at the positions
it gets that way. `Sliced.skipBlanks`, `Sliced.peek` and `Sliced.token` are its three questions with
every slice written out. They agree with the functions that look at the rest of the text
(`Sliced.skipBlanks_eq`, `Sliced.peek_eq`, `Sliced.token_eq`), so the scanner computes no position
inside a character, if the one it starts from is none.

`BlanksAt.answered_ask` says what the answers are, and `seekable_cursorAfter` that the cursor stays
between characters however many questions are asked in turn.
-/

namespace EagerLambda

open Term (byteLength_append positionOf_append seek_append)

variable {s x : List Char} {i j : Nat} {k : TokenClass}

/-! ### Longest matches -/

namespace TokenClass

/-- `x` is the longest text at the front of `s` that is a lexeme of the class. -/
def LongestMatch (k : TokenClass) (s x : List Char) : Prop :=
  k.accepts x ∧ x <+: s ∧ ∀ y, k.accepts y → y <+: s → y.length ≤ x.length

theorem byteLength_pos_of_accepts (accepted : k.accepts x) : 0 < byteLength x := by
  cases x with
  | nil => simp [accepts] at accepted
  | cons c x =>
    have := c.utf8Size_pos
    rw [byteLength_cons]
    omega

theorem append_of_lexeme? {t : Taken (List Char) s} (found : k.lexeme? s = some t) :
    s = t.value ++ t.rest := by
  cases s with
  | nil => cases found
  | cons c s =>
    rw [lexeme?] at found
    split at found
    · obtain ⟨⟩ := found
      simp
    · cases found

theorem longestMatch_of_lexeme? {t : Taken (List Char) s} (found : k.lexeme? s = some t) :
    k.LongestMatch s t.value := by
  cases s with
  | nil => cases found
  | cons c s =>
    rw [lexeme?] at found
    split at found
    · next start =>
      obtain ⟨⟩ := found
      refine ⟨by simp [accepts, start], ⟨s.dropWhile k.continues, by simp⟩, ?_⟩
      rintro (_ | ⟨d, y⟩) accepted ⟨z, same⟩
      · simp
      · obtain ⟨rfl, rfl⟩ := List.cons.inj same
        have more : ∀ e ∈ y, k.continues e = true := by
          simpa [accepts, start] using accepted
        simp [List.takeWhile_append_of_pos more]
    · cases found

theorem lexeme?_eq_none_iff : k.lexeme? s = none ↔ ∀ x, k.accepts x → ¬ x <+: s := by
  constructor
  · rintro none (_ | ⟨c, x⟩) accepted ⟨z, rfl⟩
    · simp [accepts] at accepted
    · have start : k.starts c = true := by
        simp only [accepts, Bool.and_eq_true] at accepted
        exact accepted.1
      simp [lexeme?, start] at none
  · intro noMatch
    cases found : k.lexeme? s with
    | none => rfl
    | some t =>
      obtain ⟨accepted, front, -⟩ := longestMatch_of_lexeme? found
      exact absurd front (noMatch t.value accepted)

/-- The bytes of the longest lexeme of the class at the front of `s`. -/
def matchLength? (k : TokenClass) (s : List Char) : Option Nat :=
  (k.lexeme? s).map fun t => byteLength t.value

theorem getD_matchLength?_blanks (s : List Char) :
    (blanks.matchLength? s).getD 0 = byteLength (s.takeWhile isBlank) := by
  cases s with
  | nil => rfl
  | cons c s =>
    rw [List.takeWhile_cons, matchLength?, lexeme?]
    show ((if isBlank c then _ else none).map _).getD 0 = _
    split <;> rfl

end TokenClass

/-! ### The scanner with its slices -/

namespace Sliced

/-- The position of the first character at or after `i` that is not a blank. -/
def skipBlanks (s : List Char) (i : Nat) : Except InsideCharacter Nat :=
  if byteLength s ≤ i then .ok (byteLength s)
  else do
    let r ← slice s i (byteLength s)
    return i + (TokenClass.blanks.matchLength? r).getD 0

def peek (s : List Char) (i : Nat) : Except InsideCharacter (Option Char) := do
  let start ← skipBlanks s i
  let r ← slice s start (byteLength s)
  return r.head?

/-- The text of the token of class `k` after position `i`, and the position just past it. -/
def token (s : List Char) (i : Nat) (k : TokenClass) :
    Except InsideCharacter (Option (List Char × Nat)) := do
  let start ← skipBlanks s i
  let r ← slice s start (byteLength s)
  match k.matchLength? r with
  | none | some 0 => return none
  | some (n + 1) =>
    let stop := start + (n + 1)
    let x ← slice s start stop
    return some (x, stop)

end Sliced

/-- The blanks at position `i` and what is before and after them. A position past the end stands for
the end. -/
structure BlanksAt (s : List Char) (i : Nat) (front blanks rest : List Char) : Prop where
  split : s = front ++ (blanks ++ rest)
  start : byteLength front = min i (byteLength s)
  blank : Blank blanks
  maximal : ∀ c, rest.head? = some c → isBlank c = false

theorem Seekable.exists_blanksAt (seekable : Seekable s i) :
    ∃ front blanks rest, BlanksAt s i front blanks rest := by
  have view {front after : List Char} (split : s = front ++ after)
      (start : byteLength front = min i (byteLength s)) :
      ∃ front blanks rest, BlanksAt s i front blanks rest := by
    obtain ⟨blanks, blank, cut⟩ := exists_blank_append after
    refine ⟨front, blanks, skipBlanks after, ?_, start, blank, ?_⟩
    · rw [split, ← cut]
    · intro c first
      have visible := List.head?_dropWhile_not isBlank after
      rw [← skipBlanks, first] at visible
      exact visible
  rcases seekable with ⟨p, r, split, rfl⟩ | past
  · apply view split
    rw [split, byteLength_append]
    omega
  · exact view (List.append_nil s).symm (by omega)

namespace BlanksAt

variable {front blanks rest : List Char}

theorem seek_eq (view : BlanksAt s i front blanks rest) : seek s i = .ok (blanks ++ rest) := by
  obtain ⟨rfl, start, -, -⟩ := view
  have whole := byteLength_append front (blanks ++ rest)
  by_cases within : i ≤ byteLength (front ++ (blanks ++ rest))
  · obtain rfl : i = byteLength front := by omega
    exact seek_append front _
  · have none : blanks ++ rest = [] := byteLength_eq_zero_iff.mp (by omega)
    rw [seek_of_past (by omega), none]

theorem skipBlanks_eq (view : BlanksAt s i front blanks rest) :
    EagerLambda.skipBlanks (blanks ++ rest) = rest := by
  rw [skipBlanks_append view.blank]
  cases rest with
  | nil => rfl
  | cons c rest => exact skipBlanks_cons (view.maximal c rfl) rest

theorem takeWhile_eq (view : BlanksAt s i front blanks rest) :
    (blanks ++ rest).takeWhile isBlank = blanks := by
  have whole := List.takeWhile_append_dropWhile (p := isBlank) (l := blanks ++ rest)
  rw [← skipBlanks, view.skipBlanks_eq] at whole
  exact List.append_cancel_right whole

theorem slice_rest (view : BlanksAt s i front blanks rest) :
    slice s (byteLength (front ++ blanks)) (byteLength s) = .ok rest := by
  apply slice_eq_ok_iff.mpr
  exact ⟨front ++ blanks, [], by simp [view.split], rfl, by simp [view.split]⟩

/-! Each question at the view, first with its slices and then on the rest of the text. -/

theorem sliced_skipBlanks (view : BlanksAt s i front blanks rest) :
    Sliced.skipBlanks s i = .ok (byteLength (front ++ blanks)) := by
  have whole := byteLength_append front (blanks ++ rest)
  have parts := byteLength_append blanks rest
  have stop := byteLength_append front blanks
  have start := view.start
  rw [← view.split] at whole
  rw [Sliced.skipBlanks]
  split
  · rw [show byteLength s = byteLength (front ++ blanks) by omega]
  · obtain rfl : i = byteLength front := by omega
    have text : slice s (byteLength front) (byteLength s) = .ok (blanks ++ rest) :=
      slice_eq_ok_iff.mpr ⟨front, [], by simp [view.split], rfl, by simp [view.split]⟩
    rw [text]
    show Except.ok (byteLength front + _) = _
    rw [TokenClass.getD_matchLength?_blanks, view.takeWhile_eq, stop]

theorem sliced_peek (view : BlanksAt s i front blanks rest) :
    Sliced.peek s i = .ok rest.head? := by
  rw [Sliced.peek, view.sliced_skipBlanks]
  show (slice s _ _ >>= _) = _
  rw [view.slice_rest]
  rfl

theorem sliced_token (view : BlanksAt s i front blanks rest) (k : TokenClass) :
    Sliced.token s i k = .ok ((k.lexeme? rest).map fun t =>
      (t.value, byteLength (front ++ (blanks ++ t.value)))) := by
  rw [Sliced.token, view.sliced_skipBlanks]
  show (slice s _ _ >>= _) = _
  rw [view.slice_rest]
  dsimp only [bind, Except.bind]
  cases found : k.lexeme? rest with
  | none => simp [TokenClass.matchLength?, found, pure, Except.pure]
  | some t =>
    have split := TokenClass.append_of_lexeme? found
    obtain ⟨accepted, -, -⟩ := TokenClass.longestMatch_of_lexeme? found
    have positive := TokenClass.byteLength_pos_of_accepts accepted
    obtain ⟨n, size⟩ := Nat.exists_eq_succ_of_ne_zero (Nat.ne_of_gt positive)
    have stop : byteLength (front ++ blanks) + (n + 1) =
        byteLength (front ++ (blanks ++ t.value)) := by
      rw [← List.append_assoc, byteLength_append (front ++ blanks), size]
    have text : slice s (byteLength (front ++ blanks)) (byteLength (front ++ (blanks ++ t.value))) =
        .ok t.value :=
      slice_eq_ok_iff.mpr
        ⟨front ++ blanks, t.rest, by simp [view.split, ← split], rfl, by rw [List.append_assoc]⟩
    simp only [TokenClass.matchLength?, found, Option.map_some, size, stop, text, pure, Except.pure]

theorem skipBlanksAt_eq (view : BlanksAt s i front blanks rest) :
    skipBlanksAt s i = .ok (byteLength (front ++ blanks)) := by
  rw [skipBlanksAt, view.seek_eq]
  show Except.ok (positionOf s _) = _
  rw [view.skipBlanks_eq, view.split, ← List.append_assoc, positionOf_append]

theorem peekAt_eq (view : BlanksAt s i front blanks rest) : peekAt s i = .ok rest.head? := by
  rw [peekAt, view.seek_eq]
  show Except.ok (skipBlanks (blanks ++ rest)).head? = _
  rw [view.skipBlanks_eq]

theorem tokenAt_eq (view : BlanksAt s i front blanks rest) (k : TokenClass) :
    tokenAt s i k = .ok ((k.lexeme? rest).map fun t =>
      (t.value, byteLength (front ++ (blanks ++ t.value)))) := by
  have widened : (k.token? (blanks ++ rest)).map (fun t => (t.value, positionOf s t.rest)) =
      (k.lexeme? (skipBlanks (blanks ++ rest))).map fun t => (t.value, positionOf s t.rest) := by
    rw [TokenClass.token?, Option.map_map]
    rfl
  rw [tokenAt, view.seek_eq]
  show Except.ok (Option.map _ (k.token? (blanks ++ rest))) = _
  rw [widened, view.skipBlanks_eq]
  cases found : k.lexeme? rest with
  | none => rfl
  | some t =>
    have split := TokenClass.append_of_lexeme? found
    have position : positionOf s t.rest = byteLength (front ++ (blanks ++ t.value)) := by
      have whole : s = front ++ (blanks ++ t.value) ++ t.rest := by
        rw [List.append_assoc, List.append_assoc, ← split, view.split]
      rw [whole, positionOf_append]
    simp only [Option.map_some, position]

end BlanksAt

namespace Sliced

theorem skipBlanks_eq (s : List Char) (i : Nat) : skipBlanks s i = skipBlanksAt s i := by
  rcases seekable_or_inside s i with seekable | inside
  · obtain ⟨front, blanks, rest, view⟩ := seekable.exists_blanksAt
    rw [view.sliced_skipBlanks, view.skipBlanksAt_eq]
  · have notPast : ¬ byteLength s ≤ i := fun past => inside.not_seekable (Or.inr past)
    rw [skipBlanks, if_neg notPast, slice_of_inside inside, skipBlanksAt, seek_of_inside inside]
    rfl

theorem skipBlanks_of_inside (inside : Inside s i) : skipBlanks s i = .error ⟨⟩ := by
  rw [skipBlanks_eq, skipBlanksAt, seek_of_inside inside]
  rfl

theorem peek_eq (s : List Char) (i : Nat) : peek s i = peekAt s i := by
  rcases seekable_or_inside s i with seekable | inside
  · obtain ⟨front, blanks, rest, view⟩ := seekable.exists_blanksAt
    rw [view.sliced_peek, view.peekAt_eq]
  · rw [peek, skipBlanks_of_inside inside, peekAt, seek_of_inside inside]
    rfl

theorem token_eq (s : List Char) (i : Nat) (k : TokenClass) : token s i k = tokenAt s i k := by
  rcases seekable_or_inside s i with seekable | inside
  · obtain ⟨front, blanks, rest, view⟩ := seekable.exists_blanksAt
    rw [view.sliced_token, view.tokenAt_eq]
  · rw [token, skipBlanks_of_inside inside, tokenAt, seek_of_inside inside]
    rfl

end Sliced

/-! ### Answers -/

/-- The right answer at position `i`, with the cursor for the next question, if the blanks there and
what is before and after them are the given ones. -/
def Question.Answered (i : Nat) (front blanks rest : List Char) : Question → Answer × Nat → Prop
  | .skip, answer => answer = (.position (byteLength (front ++ blanks)), i)
  | .peek, answer => answer = (.character rest.head?, i)
  | .token k, answer =>
    (∃ x stop, k.LongestMatch rest x ∧ stop = byteLength (front ++ (blanks ++ x)) ∧
      answer = (.token x stop, stop)) ∨
    (∀ x, k.accepts x → ¬ x <+: rest) ∧ answer = (.noToken, i)

namespace BlanksAt

variable {front blanks rest : List Char}

theorem answered_ask (view : BlanksAt s i front blanks rest) (q : Question) :
    q.Answered i front blanks rest (ask s i q) := by
  cases q with
  | skip => simp only [ask, view.skipBlanksAt_eq, Question.Answered]
  | peek => simp only [ask, view.peekAt_eq, Question.Answered]
  | token k =>
    simp only [ask, view.tokenAt_eq, Question.Answered]
    cases found : k.lexeme? rest with
    | none => exact Or.inr ⟨TokenClass.lexeme?_eq_none_iff.mp found, rfl⟩
    | some t =>
      exact Or.inl ⟨t.value, _, TokenClass.longestMatch_of_lexeme? found, rfl, rfl⟩

/-- A token ends at a boundary behind the position from which it was asked for. -/
theorem stop_of_longestMatch (view : BlanksAt s i front blanks rest)
    (longest : k.LongestMatch rest x) :
    let stop := byteLength (front ++ (blanks ++ x))
    Boundary s stop ∧ i < stop ∧ stop ≤ byteLength s := by
  obtain ⟨accepted, ⟨r, rfl⟩, -⟩ := longest
  have start := view.start
  have split : s = front ++ (blanks ++ x) ++ r := by simp [view.split]
  have size := byteLength_append (front ++ (blanks ++ x)) r
  have parts := byteLength_append front (blanks ++ x)
  have token := byteLength_append blanks x
  have positive := TokenClass.byteLength_pos_of_accepts accepted
  rw [← split] at size
  -- As something follows, the position is not past the end.
  refine ⟨⟨_, r, split, rfl⟩, ?_, ?_⟩ <;> omega

theorem ne_blanks_of_longestMatch (view : BlanksAt s i front blanks rest)
    (longest : k.LongestMatch rest x) : k ≠ .blanks := by
  rintro rfl
  obtain ⟨accepted, ⟨r, rfl⟩, -⟩ := longest
  cases x with
  | nil => simp [TokenClass.accepts] at accepted
  | cons c x =>
    have visible := view.maximal c rfl
    simp [TokenClass.accepts, TokenClass.starts, visible] at accepted

theorem stop_of_ask (view : BlanksAt s i front blanks rest)
    (found : (ask s i (.token k)).1 = .token x j) : i < j ∧ j ≤ byteLength s ∧ k ≠ .blanks := by
  rcases view.answered_ask (.token k) with ⟨y, stop, longest, rfl, same⟩ | ⟨-, same⟩
  · rw [same] at found
    obtain ⟨⟩ := found
    obtain ⟨-, after, within⟩ := view.stop_of_longestMatch longest
    exact ⟨after, within, view.ne_blanks_of_longestMatch longest⟩
  · rw [same] at found
    cases found

end BlanksAt

/-! ### Questions in turn -/

theorem ask_of_seekable (seekable : Seekable s i) (q : Question) :
    (ask s i q).1 ≠ .refused ∧ Seekable s (ask s i q).2 := by
  obtain ⟨front, blanks, rest, view⟩ := seekable.exists_blanksAt
  have answered := view.answered_ask q
  generalize ask s i q = answer at answered
  cases q with
  | skip =>
    obtain rfl := answered
    exact ⟨by simp, seekable⟩
  | peek =>
    obtain rfl := answered
    exact ⟨by simp, seekable⟩
  | token k =>
    rcases answered with ⟨x, stop, longest, rfl, rfl⟩ | ⟨-, rfl⟩
    · exact ⟨by simp, Or.inl (view.stop_of_longestMatch longest).1⟩
    · exact ⟨by simp, seekable⟩

theorem ask_of_inside (inside : Inside s i) (q : Question) : ask s i q = (.refused, i) := by
  have refused := seek_of_inside inside
  cases q with
  | skip => simp [ask, skipBlanksAt, refused, Except.map]
  | peek => simp [ask, peekAt, refused, Except.map]
  | token k => simp [ask, tokenAt, refused, Except.map]

/-- The cursor after the questions have been asked in turn, as `scan` does. -/
def cursorAfter (s : List Char) (i : Nat) (qs : List Question) : Nat :=
  qs.foldl (fun j q => (ask s j q).2) i

theorem scan_append (s : List Char) (i : Nat) (qs qs' : List Question) :
    scan s i (qs ++ qs') = scan s i qs ++ scan s (cursorAfter s i qs) qs' := by
  induction qs generalizing i with
  | nil => rfl
  | cons q qs ih =>
    rw [List.cons_append, scan, scan, ih]
    rfl

theorem seekable_cursorAfter (seekable : Seekable s i) (qs : List Question) :
    Seekable s (cursorAfter s i qs) := by
  induction qs generalizing i with
  | nil => exact seekable
  | cons q qs ih => exact ih (ask_of_seekable seekable q).2

theorem refused_not_mem_scan (seekable : Seekable s i) (qs : List Question) :
    .refused ∉ scan s i qs := by
  induction qs generalizing i with
  | nil => simp [scan]
  | cons q qs ih =>
    obtain ⟨answered, next⟩ := ask_of_seekable seekable q
    rw [scan, List.mem_cons]
    rintro (first | later)
    · exact answered first.symm
    · exact ih next later

theorem scan_of_inside (inside : Inside s i) (qs : List Question) :
    scan s i qs = qs.map fun _ => .refused := by
  induction qs with
  | nil => rfl
  | cons q qs ih => rw [scan, ask_of_inside inside, ih, List.map_cons]

end EagerLambda
