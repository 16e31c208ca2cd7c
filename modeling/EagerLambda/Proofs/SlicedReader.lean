import EagerLambda.Proofs.Scanner
import EagerLambda.Statement

/-!
# Reading by positions

`Sliced.read` reads a term by byte positions: it asks the scanner for one token after another, each
from the end of the one before, and every slice that the scanner takes on the way can be refused. It
finds what the reader finds that looks at the rest of the text (`Sliced.read_agrees`), so no text
makes it take a slice inside a character. `scanning_stays_between_characters` says this of the
scanner, of the reader of terms and of the reader of statements.
-/

namespace EagerLambda

open Term (byteLength_append positionOf_append seek_append)

variable {s r : List Char} {i j n : Nat} {α β : Type}

/-- Position `j` lies behind `i` and not past the end. -/
def Ahead (s : List Char) (i j : Nat) : Prop :=
  i < j ∧ j ≤ byteLength s

theorem Ahead.trans (first : Ahead s i j) (second : Ahead s j n) : Ahead s i n :=
  ⟨Nat.lt_trans first.1 second.1, second.2⟩

theorem Ahead.left_lt (ahead : Ahead s i j) : byteLength s - j < byteLength s - i :=
  Nat.sub_lt_sub_left (Nat.lt_of_lt_of_le ahead.1 ahead.2) ahead.1

/-- A value read from position `i` on, with the position just past it. -/
structure Found (α : Type) (s : List Char) (i : Nat) where
  value : α
  stop : Nat
  ahead : Ahead s i stop

namespace Sliced

theorem ahead_of_token {k : TokenClass} {x : List Char} (found : token s i k = .ok (some (x, j))) :
    Ahead s i j := by
  rcases seekable_or_inside s i with seekable | inside
  · obtain ⟨front, blanks, rest, view⟩ := seekable.exists_blanksAt
    rw [view.sliced_token, Except.ok.injEq, Option.map_eq_some_iff] at found
    obtain ⟨t, found, same⟩ := found
    obtain ⟨rfl, rfl⟩ := Prod.mk.inj same
    exact (view.stop_of_longestMatch (TokenClass.longestMatch_of_lexeme? found)).2
  · rw [token, skipBlanks_of_inside inside] at found
    cases found

/-- The token of class `k` after position `i`. -/
def find (s : List Char) (i : Nat) (k : TokenClass) :
    OptionT (Except InsideCharacter) (Found (List Char) s i) :=
  match found : token s i k with
  | .error e => .mk (.error e)
  | .ok none => .mk (.ok none)
  | .ok (some (x, j)) => .mk (.ok (some ⟨x, j, ahead_of_token found⟩))

/-- Reads the term after position `i`. -/
def read (s : List Char) (i : Nat) : OptionT (Except InsideCharacter) (Found Term s i) := do
  match ← OptionT.lift (peek s i) with
  | some '%' =>
    let ⟨_, i₁, h₁⟩ ← find s i .lambda
    let ⟨x, i₂, h₂⟩ ← find s i₁ .identifier
    let ⟨_, i₃, h₃⟩ ← find s i₂ .dot
    let ⟨b, i₄, h₄⟩ ← read s i₃
    return ⟨.lam (String.ofList x) b, i₄, h₁.trans (h₂.trans (h₃.trans h₄))⟩
  | some '<' =>
    let ⟨_, i₁, h₁⟩ ← find s i .openApp
    let ⟨f, i₂, h₂⟩ ← read s i₁
    let ⟨_, i₃, h₃⟩ ← find s i₂ .plus
    let ⟨a, i₄, h₄⟩ ← read s i₃
    let ⟨_, i₅, h₅⟩ ← find s i₄ .closeApp
    return ⟨.app f a, i₅, h₁.trans (h₂.trans (h₃.trans (h₄.trans h₅)))⟩
  | _ =>
    let ⟨x, j, h⟩ ← find s i .identifier
    return ⟨.var (String.ofList x), j, h⟩
termination_by byteLength s - i
decreasing_by
  · exact (h₁.trans (h₂.trans h₃)).left_lt
  · exact h₁.left_lt
  · exact (h₁.trans (h₂.trans h₃)).left_lt

/-- Reads the whole of `s` as one term. -/
def parseChars (s : List Char) : Except InsideCharacter (Except ParseError Term) := do
  match ← (read s 0).run with
  | none => return .error .noTerm
  | some ⟨t, stop, _⟩ =>
    if stop = byteLength s then return .ok t
    else return .error (.unconsumed stop (byteLength s))

/-- Reads a line. Cutting it at the first `=` takes no position. -/
def parseStatement (s : List Char) : Except InsideCharacter (Except ParseError Statement) := do
  match s.dropWhile (· != '=') with
  | [] => return (← parseChars s).map .eval
  | _ :: body =>
    let name := String.ofList (trimEnd (s.takeWhile (· != '=')))
    return (← parseChars body).map (.define name)

/-! ### Agreement -/

/-- What is read by positions is what is read off the rest of the text: the same value, or nothing
on both sides, and the position stands where what is left begins. -/
def Agrees (found : OptionT (Except InsideCharacter) (Found α s i)) : Option (Taken α r) → Prop
  | none => found.run = .ok none
  | some t => ∃ f, found.run = .ok (some f) ∧ f.value = t.value ∧ seek s f.stop = .ok t.rest

theorem Agrees.bind {found : OptionT (Except InsideCharacter) (Found α s i)}
    {taken : Option (Taken α r)} {i' : Nat} {r' : List Char}
    {next : Found α s i → OptionT (Except InsideCharacter) (Found β s i')}
    {next' : Taken α r → Option (Taken β r')} (first : Agrees found taken)
    (later : ∀ f t, f.value = t.value → seek s f.stop = .ok t.rest → Agrees (next f) (next' t)) :
    Agrees (found >>= next) (taken >>= next') := by
  cases taken with
  | none =>
    show (found >>= next).run = .ok none
    rw [OptionT.run_bind, first]
    rfl
  | some t =>
    obtain ⟨f, run, value, rest⟩ := first
    have same : found >>= next = next f := by
      apply OptionT.ext
      rw [OptionT.run_bind, run]
      rfl
    rw [same]
    exact later f t value rest

theorem run_find_of_none {k : TokenClass} (answer : token s i k = .ok none) :
    (find s i k).run = .ok none := by
  unfold find
  split
  · next refused => cases answer.symm.trans refused
  · rfl
  · next found => cases answer.symm.trans found

theorem run_find_of_some {k : TokenClass} {x : List Char}
    (answer : token s i k = .ok (some (x, j))) :
    (find s i k).run = .ok (some ⟨x, j, ahead_of_token answer⟩) := by
  unfold find
  split
  · next refused => cases answer.symm.trans refused
  · next none => cases answer.symm.trans none
  · next found =>
    cases answer.symm.trans found
    rfl

theorem find_agrees (here : seek s i = .ok r) (k : TokenClass) :
    Agrees (find s i k) (k.token? r) := by
  have answer : token s i k =
      .ok ((k.token? r).map fun t => (t.value, positionOf s t.rest)) := by
    rw [token_eq, tokenAt, here]
    rfl
  cases taken : k.token? r with
  | none =>
    rw [taken] at answer
    exact run_find_of_none answer
  | some t =>
    obtain ⟨x, rest, shorter⟩ := t
    rw [taken] at answer
    obtain ⟨p, rfl, -⟩ := exists_of_seek here
    obtain ⟨bs, c, cs, -, -, -, -, rfl⟩ := TokenClass.takes_sound ⟨shorter, taken⟩
    have left : seek (p ++ (bs ++ (c :: cs ++ rest)))
        (positionOf (p ++ (bs ++ (c :: cs ++ rest))) rest) = .ok rest := by
      rw [← List.append_assoc bs, ← List.append_assoc p, positionOf_append, seek_append]
    exact ⟨_, run_find_of_some answer, rfl, left⟩

theorem peek_of_seek (here : seek s i = .ok r) : peek s i = .ok (EagerLambda.peek r) := by
  rw [peek_eq, peekAt, here]
  rfl

theorem lift_ok_bind {E : Type} {c : α} (f : α → OptionT (Except E) β) :
    OptionT.lift (.ok c : Except E α) >>= f = f c :=
  rfl

/-- Reading by positions finds what reading the rest of the text finds. -/
theorem read_agrees (here : seek s i = .ok r) : Agrees (read s i) (Term.read r) := by
  -- The two readers take the same tokens, so each `bind` moves the position and the rest past one
  -- token or one part of the term.
  induction hn : r.length using Nat.strongRecOn generalizing r i with
  | _ n ih =>
    subst hn
    rw [read, peek_of_seek here, lift_ok_bind]
    by_cases isLam : EagerLambda.peek r = some '%'
    · rw [Term.read]
      simp only [isLam]
      refine (find_agrees here .lambda).bind ?_
      rintro ⟨_, i₁, h₁⟩ ⟨_, r₁, s₁⟩ - at₁
      refine (find_agrees at₁ .identifier).bind ?_
      rintro ⟨x, i₂, h₂⟩ ⟨_, r₂, s₂⟩ ⟨⟩ at₂
      refine (find_agrees at₂ .dot).bind ?_
      rintro ⟨_, i₃, h₃⟩ ⟨_, r₃, s₃⟩ - at₃
      refine (ih _ (Nat.lt_trans s₃ (Nat.lt_trans s₂ s₁)) at₃ rfl).bind ?_
      rintro ⟨b, i₄, h₄⟩ ⟨_, r₄, s₄⟩ ⟨⟩ at₄
      exact ⟨_, rfl, rfl, at₄⟩
    by_cases isApp : EagerLambda.peek r = some '<'
    · rw [Term.read]
      simp only [isApp]
      refine (find_agrees here .openApp).bind ?_
      rintro ⟨_, i₁, h₁⟩ ⟨_, r₁, s₁⟩ - at₁
      refine (ih _ s₁ at₁ rfl).bind ?_
      rintro ⟨f, i₂, h₂⟩ ⟨_, r₂, s₂⟩ ⟨⟩ at₂
      refine (find_agrees at₂ .plus).bind ?_
      rintro ⟨_, i₃, h₃⟩ ⟨_, r₃, s₃⟩ - at₃
      refine (ih _ (Nat.lt_trans s₃ (Nat.lt_trans s₂ s₁)) at₃ rfl).bind ?_
      rintro ⟨a, i₄, h₄⟩ ⟨_, r₄, s₄⟩ ⟨⟩ at₄
      refine (find_agrees at₄ .closeApp).bind ?_
      rintro ⟨_, i₅, h₅⟩ ⟨_, r₅, s₅⟩ - at₅
      exact ⟨_, rfl, rfl, at₅⟩
    · rw [Term.read]
      simp only
      refine (find_agrees here .identifier).bind ?_
      rintro ⟨x, j, h⟩ ⟨_, r₁, s₁⟩ ⟨⟩ at₁
      exact ⟨_, rfl, rfl, at₁⟩

theorem parseChars_eq (s : List Char) : parseChars s = .ok (Term.parseChars s) := by
  have agrees : Agrees (read s 0) (Term.read s) := read_agrees (seek_append [] s)
  unfold parseChars Term.parseChars
  cases taken : Term.read s with
  | none =>
    rw [taken] at agrees
    rw [agrees]
    rfl
  | some t =>
    rw [taken] at agrees
    obtain ⟨t, r, shorter⟩ := t
    obtain ⟨⟨_, stop, ahead⟩, run, value, rest⟩ := agrees
    dsimp only at value rest
    subst value
    obtain ⟨p, split, start⟩ := exists_of_seek rest
    obtain rfl : stop = byteLength p := by have := ahead.2; omega
    have whole : byteLength s = byteLength p + byteLength r := by rw [split, byteLength_append]
    have position : positionOf s r = byteLength p := by rw [split, positionOf_append]
    rw [run]
    cases r with
    | nil =>
      show (if byteLength p = byteLength s then _ else _) = _
      rw [if_pos (by rw [whole]; rfl)]
      rfl
    | cons c r =>
      have positive := c.utf8Size_pos
      rw [byteLength_cons] at whole
      show (if byteLength p = byteLength s then _ else _) = _
      rw [if_neg (by omega), ← position]
      rfl

theorem parseStatement_eq (s : List Char) : parseStatement s = .ok (Statement.parseChars s) := by
  unfold parseStatement Statement.parseChars
  cases s.dropWhile (· != '=') with
  | nil =>
    dsimp only
    rw [parseChars_eq]
    rfl
  | cons mark body =>
    dsimp only
    rw [parseChars_eq]
    rfl

end Sliced

/-- No text makes the scanner or a reader take a slice inside a character. Scanning begins at a
position that is valid in the UTF-8 form of the text, or at or past its end. However many questions
are asked, each at the cursor that the ones before it left, none is refused and the cursor stays at
such a position. A token that is found is the longest match of its class behind all the blanks, ends
behind the cursor and within the text, and is never one of blanks. From inside a character every
question is refused. All this holds of the questions with their slices written out, and the two
readers that ask them by position read every text as `Term.parse` and `Statement.parse` do. -/
theorem scanning_stays_between_characters (text : String) :
    (∀ i, String.Pos.Raw.IsValid text ⟨i⟩ ∨ text.utf8ByteSize ≤ i → ∀ qs : List Question,
      .refused ∉ scan text.toList i qs ∧
      ∃ j, j = cursorAfter text.toList i qs ∧
        (String.Pos.Raw.IsValid text ⟨j⟩ ∨ text.utf8ByteSize ≤ j) ∧
        (∃ front blanks rest, BlanksAt text.toList j front blanks rest ∧ ∀ q,
          scan text.toList i (qs ++ [q]) = scan text.toList i qs ++ [(ask text.toList j q).1] ∧
          q.Answered j front blanks rest (ask text.toList j q)) ∧
        ∀ k x stop, (ask text.toList j (.token k)).1 = .token x stop →
          j < stop ∧ stop ≤ text.utf8ByteSize ∧ k ≠ .blanks) ∧
    (∀ i, Inside text.toList i →
      ∀ qs : List Question, scan text.toList i qs = qs.map fun _ => .refused) ∧
    (∀ i, Sliced.skipBlanks text.toList i = skipBlanksAt text.toList i ∧
      Sliced.peek text.toList i = peekAt text.toList i ∧
      ∀ k, Sliced.token text.toList i k = tokenAt text.toList i k) ∧
    Sliced.parseChars text.toList = .ok (Term.parse text) ∧
    Sliced.parseStatement text.toList = .ok (Statement.parse text) := by
  refine ⟨?_, fun i inside qs => scan_of_inside inside qs, ?_, Sliced.parseChars_eq _,
    Sliced.parseStatement_eq _⟩
  · intro i start qs
    have begun : Seekable text.toList i := seekable_toList_iff.mpr start
    have seekable := seekable_cursorAfter begun qs
    obtain ⟨front, blanks, rest, view⟩ := seekable.exists_blanksAt
    refine ⟨refused_not_mem_scan begun qs, _, rfl, seekable_toList_iff.mp seekable,
      ⟨front, blanks, rest, view, ?_⟩, ?_⟩
    · intro q
      exact ⟨scan_append _ i qs [q], view.answered_ask q⟩
    · intro k x stop found
      rw [← byteLength_toList]
      exact view.stop_of_ask found
  · intro i
    exact ⟨Sliced.skipBlanks_eq _ i, Sliced.peek_eq _ i, Sliced.token_eq _ i⟩

/-- The Greek letter takes the bytes 4 and 5 and begins no token. It can be looked at from byte 3,
behind the blank, but from byte 5 nothing can be asked. -/
theorem scanning_meets_greek_letter :
    let s := ['%', 'x', '.', ' ', 'λ']
    let text := String.ofList s
    let qs : List Question := [.token .lambda, .token .identifier, .token .dot, .token .identifier]
    String.Pos.Raw.IsValid text ⟨0⟩ ∧ Inside s 5 ∧
      scan s 0 (qs ++ [.peek]) =
        [.token ['%'] 1, .token ['x'] 2, .token ['.'] 3, .noToken] ++ [.character (some 'λ')] ∧
      scan s 5 qs = [.refused, .refused, .refused, .refused] ∧
      Sliced.parseStatement s = .ok (Statement.parse text) := by
  intro s text qs
  have start : String.Pos.Raw.IsValid text ⟨0⟩ := String.Pos.Raw.isValid_zero
  have inside : Inside s 5 := ⟨['%', 'x', '.', ' '], 'λ', [], rfl, by decide, by decide⟩
  have scanned := scanning_stays_between_characters text
  rw [String.toList_ofList] at scanned
  obtain ⟨between, refused, -, -, statement⟩ := scanned
  obtain ⟨-, _, rfl, -, ⟨_, _, _, -, answered⟩, -⟩ := between 0 (Or.inl start) qs
  exact ⟨start, inside, (answered .peek).1, refused 5 inside qs, statement⟩

end EagerLambda
