import EagerLambda.Proofs.Grammar

/-!
# Positions between characters

A text can be cut at a byte position only if that lies between two characters. `seek` accepts these
positions and those past the end, and refuses the ones inside a character (`seekable_or_inside`,
`exists_of_seek`, `seek_of_inside`). `slice` accepts just the first kind (`slice_eq_ok_iff`).
-/

namespace EagerLambda

open Term (byteLength_append seek_append)

variable {s p r x : List Char} {i j : Nat}

/-! ### Boundaries -/

/-- The text can be cut at the position, which lies before or after a character. -/
def Boundary (s : List Char) (i : Nat) : Prop :=
  ∃ p r, s = p ++ r ∧ i = byteLength p

/-- Scanning can start at the position: a boundary, or any position at or past the end. -/
def Seekable (s : List Char) (i : Nat) : Prop :=
  Boundary s i ∨ byteLength s ≤ i

/-- The position lies after the first byte of a character and before the end of that character. -/
def Inside (s : List Char) (i : Nat) : Prop :=
  ∃ p c r, s = p ++ c :: r ∧ byteLength p < i ∧ i < byteLength p + c.utf8Size

theorem byteLength_cons (c : Char) (s : List Char) :
    byteLength (c :: s) = c.utf8Size + byteLength s :=
  rfl

theorem byteLength_eq_zero_iff : byteLength s = 0 ↔ s = [] := by
  cases s with
  | nil => simp [byteLength]
  | cons c s =>
    have := c.utf8Size_pos
    simp only [byteLength_cons, reduceCtorEq, iff_false]
    omega

theorem byteLength_toList (text : String) : byteLength text.toList = text.utf8ByteSize := by
  have utf8 (s : List Char) : byteLength s = (String.ofList s).utf8ByteSize := by
    induction s with
    | nil => rfl
    | cons c s ih =>
      rw [byteLength_cons, ih, String.ofList_cons, String.utf8ByteSize_append,
        String.utf8ByteSize_singleton]
  rw [utf8, String.ofList_toList]

/-- The boundaries of a text are the valid positions of its UTF-8 form. -/
theorem boundary_toList_iff {text : String} :
    Boundary text.toList i ↔ String.Pos.Raw.IsValid text ⟨i⟩ := by
  rw [String.Pos.Raw.isValid_iff_exists_append]
  constructor
  · rintro ⟨p, r, split, rfl⟩
    refine ⟨String.ofList p, String.ofList r, ?_, ?_⟩
    · rw [← String.ofList_append, ← split, String.ofList_toList]
    · rw [String.rawEndPos, ← byteLength_toList, String.toList_ofList]
  · rintro ⟨p, r, rfl, same⟩
    refine ⟨p.toList, r.toList, String.toList_append, ?_⟩
    rw [byteLength_toList]
    exact congrArg String.Pos.Raw.byteIdx same

theorem seekable_toList_iff {text : String} :
    Seekable text.toList i ↔ String.Pos.Raw.IsValid text ⟨i⟩ ∨ text.utf8ByteSize ≤ i := by
  rw [Seekable, boundary_toList_iff, byteLength_toList]

theorem Seekable.cons {c : Char} (seekable : Seekable s i) :
    Seekable (c :: s) (c.utf8Size + i) := by
  rcases seekable with ⟨p, r, rfl, rfl⟩ | past
  · exact Or.inl ⟨c :: p, r, rfl, rfl⟩
  · exact Or.inr (by rw [byteLength_cons]; omega)

theorem seekable_or_inside (s : List Char) (i : Nat) : Seekable s i ∨ Inside s i := by
  induction s generalizing i with
  | nil => exact Or.inl (Or.inr (Nat.zero_le i))
  | cons c s ih =>
    by_cases first : i < c.utf8Size
    · by_cases zero : i = 0
      · exact Or.inl (Or.inl ⟨[], c :: s, rfl, zero⟩)
      · refine Or.inr ⟨[], c, s, rfl, ?_⟩
        simp only [byteLength, List.foldr_nil]
        omega
    · have moved : i = c.utf8Size + (i - c.utf8Size) := by omega
      rcases ih (i - c.utf8Size) with seekable | ⟨p, d, r, rfl, after, before⟩
      · rw [moved]
        exact Or.inl seekable.cons
      · refine Or.inr ⟨c :: p, d, r, rfl, ?_⟩
        rw [byteLength_cons]
        omega

/-- Of two leading parts of a text the one with fewer bytes begins the other. -/
theorem prefix_of_byteLength_le {p' r' : List Char} (same : p ++ r = p' ++ r')
    (le : byteLength p ≤ byteLength p') : ∃ m, p' = p ++ m ∧ r = m ++ r' := by
  rcases List.append_eq_append_iff.mp same with ⟨m, rfl, rfl⟩ | ⟨m, rfl, rfl⟩
  · exact ⟨m, rfl, rfl⟩
  · rw [byteLength_append] at le
    obtain rfl : m = [] := byteLength_eq_zero_iff.mp (by omega)
    exact ⟨[], by simp, by simp⟩

theorem Inside.not_seekable (inside : Inside s i) : ¬ Seekable s i := by
  obtain ⟨p, c, r, rfl, after, before⟩ := inside
  rintro (⟨p', r', same, rfl⟩ | past)
  · obtain ⟨m, rfl, rest⟩ := prefix_of_byteLength_le same (Nat.le_of_lt after)
    cases m with
    | nil => simp at after
    | cons d m =>
      obtain ⟨rfl, -⟩ := List.cons.inj rest
      rw [byteLength_append, byteLength_cons] at before
      omega
  · rw [byteLength_append, byteLength_cons] at past
    omega

/-! ### Slices -/

theorem seek_of_past (past : byteLength s ≤ i) : seek s i = .ok [] := by
  induction s generalizing i with
  | nil => cases i <;> rfl
  | cons c s ih =>
    rw [byteLength_cons] at past
    have positive := c.utf8Size_pos
    obtain ⟨n, rfl⟩ : ∃ n, i = n + 1 := ⟨i - 1, by omega⟩
    rw [seek, if_pos (by omega)]
    exact ih (by omega)

theorem seek_of_inside (inside : Inside s i) : seek s i = .error ⟨⟩ := by
  obtain ⟨p, c, r, rfl, after, before⟩ := inside
  induction p generalizing i with
  | nil =>
    obtain ⟨n, rfl⟩ : ∃ n, i = n + 1 := ⟨i - 1, by omega⟩
    rw [List.nil_append, seek, if_neg]
    simpa [byteLength] using before
  | cons d p ih =>
    rw [byteLength_cons] at after before
    obtain ⟨n, rfl⟩ : ∃ n, i = n + 1 := ⟨i - 1, by omega⟩
    rw [List.cons_append, seek, if_pos (by omega)]
    exact ih (by omega) (by omega)

/-- The text from byte `i` up to byte `j`. It is refused if one of the two is inside a character or
past the end, and if they come in the wrong order. -/
def slice (s : List Char) (i j : Nat) : Except InsideCharacter (List Char) :=
  if i ≤ j ∧ j ≤ byteLength s then do
    let r ← seek s i
    let r' ← seek s j
    return r.take (r.length - r'.length)
  else .error ⟨⟩

theorem slice_append (p x r : List Char) :
    slice (p ++ (x ++ r)) (byteLength p) (byteLength (p ++ x)) = .ok x := by
  have whole := byteLength_append p (x ++ r)
  have ends := byteLength_append x r
  have stop := byteLength_append p x
  rw [slice, if_pos (by omega), seek_append, ← List.append_assoc, seek_append]
  simp [bind, Except.bind, pure, Except.pure]

theorem slice_of_inside (inside : Inside s i) : slice s i j = .error ⟨⟩ := by
  rw [slice, seek_of_inside inside]
  split <;> rfl

theorem exists_of_seek (found : seek s i = .ok r) :
    ∃ p, s = p ++ r ∧ byteLength p = min i (byteLength s) := by
  rcases seekable_or_inside s i with (⟨p, r', rfl, rfl⟩ | past) | inside
  · rw [seek_append] at found
    obtain ⟨⟩ := found
    have whole := byteLength_append p r
    exact ⟨p, rfl, by omega⟩
  · rw [seek_of_past past] at found
    obtain ⟨⟩ := found
    exact ⟨s, by simp, by omega⟩
  · rw [seek_of_inside inside] at found
    cases found

/-- A slice is what lies between two boundaries, and there are no other slices. -/
theorem slice_eq_ok_iff : slice s i j = .ok x ↔
    ∃ p r, s = p ++ (x ++ r) ∧ i = byteLength p ∧ j = byteLength (p ++ x) := by
  constructor
  · intro found
    rw [slice] at found
    split at found
    · next order =>
      cases first : seek s i with
      | error e => rw [first] at found; cases found
      | ok a =>
        cases second : seek s j with
        | error e => rw [first, second] at found; cases found
        | ok b =>
          obtain ⟨p, same, start⟩ := exists_of_seek first
          obtain ⟨p', same', stop⟩ := exists_of_seek second
          obtain rfl : i = byteLength p := by omega
          obtain rfl : j = byteLength p' := by omega
          obtain ⟨m, rfl, rfl⟩ := prefix_of_byteLength_le (same.symm.trans same') order.1
          rw [first, second] at found
          obtain rfl : m = x := by simpa [bind, Except.bind, pure, Except.pure] using found
          exact ⟨p, b, same, rfl, rfl⟩
    · cases found
  · rintro ⟨p, r, rfl, rfl, rfl⟩
    exact slice_append p x r

end EagerLambda
