import EagerLambda.Transcript

/-!
# Scripts

A script can be cut after any line feed: running the first part and then the second part from the
session that the first one left is running the whole (`scripts_compose`). `splitLines_append` is
the cut for the bytes, `enterScript_append` for the lines, and `enterScript_continuedBy` says that a
run never looks at what was shown or logged before it.
-/

namespace EagerLambda

/-! ### Lines of bytes -/

/-- The bytes are empty or end with a line feed. -/
def LinesEnded (bytes : List UInt8) : Prop :=
  bytes = [] ∨ bytes.getLast? = some 10

namespace LineSplitter

theorem foldl_push (bytes : List UInt8) (lines : Array (List UInt8)) (pending : List UInt8) :
    bytes.foldl push ⟨lines, pending⟩ =
      ⟨lines ++ (bytes.foldl push ⟨#[], pending⟩).lines,
        (bytes.foldl push ⟨#[], pending⟩).pending⟩ := by
  induction bytes generalizing lines pending with
  | nil => simp
  | cons b bytes ih =>
    rw [List.foldl_cons, List.foldl_cons]
    by_cases feed : b = 10
    · rw [push, if_pos feed, push, if_pos feed, ih, ih (#[].push _)]
      simp
    · rw [push, if_neg feed, push, if_neg feed]
      exact ih lines (b :: pending)

theorem finish_foldl_push_append (a b pending : List UInt8) :
    ((a ++ b).foldl push ⟨#[], pending⟩).finish.toList =
      (a.foldl push ⟨#[], pending⟩).lines.toList ++
        (b.foldl push ⟨#[], (a.foldl push ⟨#[], pending⟩).pending⟩).finish.toList := by
  rw [List.foldl_append, foldl_push]
  unfold finish
  dsimp only
  split <;> simp

theorem foldl_push_of_not_mem {bytes : List UInt8} (unbroken : 10 ∉ bytes) (pending : List UInt8) :
    bytes.foldl push ⟨#[], pending⟩ = ⟨#[], bytes.reverse ++ pending⟩ := by
  induction bytes generalizing pending with
  | nil => rfl
  | cons b bytes ih =>
    obtain ⟨other, rest⟩ := List.ne_and_not_mem_of_not_mem_cons unbroken
    rw [List.foldl_cons, push, if_neg (Ne.symm other), ih rest]
    simp

theorem pending_of_linesEnded {bytes : List UInt8} (ended : LinesEnded bytes) :
    (bytes.foldl push {}).pending = [] := by
  rcases ended with rfl | last
  · rfl
  · obtain ⟨front, rfl⟩ := List.getLast?_eq_some_iff.mp last
    rw [List.foldl_append]
    rfl

end LineSplitter

theorem splitLines_append {a : List UInt8} (ended : LinesEnded a) (b : List UInt8) :
    splitLines (a ++ b) = splitLines a ++ splitLines b := by
  have closed := LineSplitter.pending_of_linesEnded ended
  have first : splitLines a = (a.foldl LineSplitter.push {}).lines.toList := by
    rw [splitLines, LineSplitter.finish, if_pos closed]
  -- After `a` nothing is pending, so `b` is split as from the start.
  rw [first, splitLines, LineSplitter.finish_foldl_push_append, closed]
  rfl

theorem splitLines_line {line : List UInt8} (unbroken : 10 ∉ line) (rest : List UInt8) :
    splitLines (line ++ 10 :: rest) =
      (LineSplitter.dropReturn line.reverse).reverse :: splitLines rest := by
  have cut : line ++ 10 :: rest = (line ++ [10]) ++ rest := by simp
  rw [cut, splitLines_append (Or.inr (by simp))]
  unfold splitLines
  rw [List.foldl_append, LineSplitter.foldl_push_of_not_mem unbroken]
  simp [LineSplitter.push, LineSplitter.finish]

theorem splitLines_of_not_mem {bytes : List UInt8} (unbroken : 10 ∉ bytes) :
    splitLines bytes = if bytes = [] then [] else [bytes] := by
  unfold splitLines
  rw [LineSplitter.foldl_push_of_not_mem unbroken]
  simp only [LineSplitter.finish, List.append_nil, List.reverse_eq_nil_iff]
  split <;> simp

theorem exists_leading_lines {bytes : List UInt8} {k : Nat} (more : k < (splitLines bytes).length) :
    ∃ a b, bytes = a ++ b ∧ LinesEnded a ∧ splitLines a = (splitLines bytes).take k ∧
      splitLines b = (splitLines bytes).drop k := by
  induction k generalizing bytes with
  | zero => exact ⟨[], bytes, rfl, Or.inl rfl, rfl, rfl⟩
  | succ k ih =>
    by_cases mem : 10 ∈ bytes
    · obtain ⟨line, rest, rfl, unbroken⟩ := List.eq_append_cons_of_mem mem
      rw [splitLines_line unbroken] at more ⊢
      -- The first line goes in front of what is cut off the rest.
      obtain ⟨a, b, rfl, ended, lines, rest⟩ := ih (Nat.lt_of_succ_lt_succ more)
      refine ⟨line ++ 10 :: a, b, by simp, Or.inr ?_, ?_, rest⟩
      · rcases ended with rfl | last
        · simp
        · rw [List.getLast?_append, List.getLast?_cons, last]
          rfl
      · rw [splitLines_line unbroken, lines, List.take_succ_cons]
    · -- Without a line feed there is one line at most.
      rw [splitLines_of_not_mem mem] at more
      split at more <;> simp at more

theorem decodeLine_eq_ok_iff {line : List UInt8} {text : String} :
    decodeLine line = .ok text ↔ decodeUtf8? line = some text := by
  unfold decodeLine
  cases decodeUtf8? line <;> simp

theorem decodeLines_append {a : List UInt8} (ended : LinesEnded a) (b : List UInt8) :
    decodeLines (a ++ b) = decodeLines a ++ decodeLines b := by
  rw [decodeLines, splitLines_append ended, List.map_append]
  rfl

/-! ### Runs -/

namespace Transcript

variable (t u : Transcript)

theorem enterScript_ok (line : String) (lines : List (Except Fault String)) :
    t.enterScript (.ok line :: lines) =
      if (t.enter line).1 = .unfinished then (.unfinished, (t.enter line).2)
      else (t.enter line).2.enterScript lines := by
  rw [enterScript]
  split
  · next entered => rw [entered, if_pos rfl]
  · next other entered => rw [entered, if_neg other]

theorem enterScript_append (first rest : List (Except Fault String)) :
    t.enterScript (first ++ rest) =
      if (t.enterScript first).1 = .done then (t.enterScript first).2.enterScript rest
      else t.enterScript first := by
  induction first generalizing t with
  | nil => rfl
  | cons line first ih =>
    cases line with
    | error cause => rfl
    | ok line =>
      rw [List.cons_append, enterScript_ok, enterScript_ok]
      by_cases endless : (t.enter line).1 = .unfinished
      · rw [if_pos endless, if_pos endless]
        rfl
      · rw [if_neg endless, if_neg endless]
        exact ih _

/-- The transcript with what `u` shows and logs behind it, and the session of `u`. -/
def continuedBy : Transcript where
  session := u.session
  shown := t.shown ++ u.shown
  events := t.events ++ u.events

theorem eq_continuedBy : t = t.continuedBy { session := t.session } := by
  simp [continuedBy]

theorem enter_continuedBy (line : String) :
    (t.continuedBy u).enter line = ((u.enter line).1, t.continuedBy (u.enter line).2) := by
  unfold enter continuedBy
  dsimp only
  cases (u.session.enter line).result.message <;> simp

theorem enterScript_continuedBy (lines : List (Except Fault String)) :
    (t.continuedBy u).enterScript lines =
      ((u.enterScript lines).1, t.continuedBy (u.enterScript lines).2) := by
  induction lines generalizing u with
  | nil => rfl
  | cons line lines ih =>
    cases line with
    | error cause => rfl
    | ok line =>
      rw [enterScript_ok, enterScript_ok, enter_continuedBy]
      by_cases endless : (u.enter line).1 = .unfinished
      · rw [if_pos endless, if_pos endless]
      · rw [if_neg endless, if_neg endless]
        exact ih _

theorem output_continuedBy : (t.continuedBy u).output = t.output ++ u.output := by
  simp [output, continuedBy, String.join_append]

theorem finish_of_decoded {lines : List (Except Fault String)}
    (decoded : ∀ line ∈ lines, ∃ text, line = .ok text) :
    (t.enterScript lines).1 = .done ∨ (t.enterScript lines).1 = .unfinished := by
  induction lines generalizing t with
  | nil => exact Or.inl rfl
  | cons line lines ih =>
    obtain ⟨text, rfl⟩ := decoded line List.mem_cons_self
    rw [enterScript_ok]
    split
    · exact Or.inr rfl
    · exact ih _ fun line mem => decoded line (List.mem_cons_of_mem _ mem)

end Transcript

theorem runScript_append (s : Session) {a : List UInt8} (ended : LinesEnded a) (b : List UInt8) :
    runScript s (a ++ b) =
      if (runScript s a).1 = .done then (runScript s a).2.enterScript (decodeLines b)
      else runScript s a := by
  rw [runScript, decodeLines_append ended, Transcript.enterScript_append]
  rfl

theorem Transcript.exists_continuation (t : Transcript) (bytes : List UInt8) :
    ∃ u : Transcript, ∃ finish,
      t.enterScript (decodeLines bytes) = (finish, t.continuedBy u) ∧
      runScript t.session bytes = (finish, (Transcript.start t.session).continuedBy u) := by
  refine ⟨(enterScript { session := t.session } (decodeLines bytes)).2,
    (enterScript { session := t.session } (decodeLines bytes)).1, ?_, ?_⟩
  · rw [← enterScript_continuedBy, ← eq_continuedBy]
  · rw [runScript, ← enterScript_continuedBy]
    rfl

theorem runScript_append_invalid (s : Session) {a b bad : List UInt8} {more : List (List UInt8)}
    (ended : LinesEnded a) (valid : ∀ line ∈ splitLines a, (decodeUtf8? line).isSome = true)
    (next : splitLines b = bad :: more) (invalid : decodeUtf8? bad = none) :
    (runScript s a).1 = .done ∧
        runScript s (a ++ b) = (.failed (.script .invalidUtf8), (runScript s a).2) ∨
      (runScript s a).1 = .unfinished ∧ runScript s (a ++ b) = runScript s a := by
  have decoded : ∀ line ∈ decodeLines a, ∃ text, line = .ok text := by
    intro line mem
    obtain ⟨bytes, found, rfl⟩ := List.mem_map.mp mem
    obtain ⟨text, decoded⟩ := Option.isSome_iff_exists.mp (valid bytes found)
    exact ⟨text, decodeLine_eq_ok_iff.mpr decoded⟩
  have stop : decodeLines b = .error .invalidUtf8 :: more.map decodeLine := by
    rw [decodeLines, next, List.map_cons, decodeLine, invalid]
  rw [runScript_append s ended, stop]
  rcases (Transcript.start s).finish_of_decoded decoded with done | endless
  · have done : (runScript s a).1 = .done := done
    rw [if_pos done]
    exact Or.inl ⟨done, rfl⟩
  · have endless : (runScript s a).1 = .unfinished := endless
    rw [if_neg (by simp [endless])]
    exact Or.inr ⟨endless, rfl⟩

/-- A script that is cut after a line feed: what stops the first part stops the whole, and else the
second part goes on from the session that the first one left, without being ready again. A line that
is no text stops the script as if it ended before that line. -/
theorem scripts_compose :
    (∀ (s : Session) (a b : List UInt8), LinesEnded a →
      ((runScript s a).1 ≠ .done → runScript s (a ++ b) = runScript s a) ∧
      ((runScript s a).1 = .done →
        let first := (runScript s a).2
        let second := runScript first.session b
        let whole := runScript s (a ++ b)
        whole.1 = second.1 ∧ whole.2.session = second.2.session ∧
          whole.2.events = first.events ++ second.2.events ∧
          ∃ rest, second.2.output = readyMessage ++ "\n" ++ rest ∧
            whole.2.output = first.output ++ rest)) ∧
    (∀ (s : Session) (bytes : List UInt8) (k : Nat) (bad : List UInt8),
      (∀ line ∈ (splitLines bytes).take k, (decodeUtf8? line).isSome = true) →
      (splitLines bytes)[k]? = some bad → decodeUtf8? bad = none →
      ∃ a b, bytes = a ++ b ∧ LinesEnded a ∧ splitLines a = (splitLines bytes).take k ∧
        ((runScript s a).1 = .done ∧
            runScript s bytes = (.failed (.script .invalidUtf8), (runScript s a).2) ∨
          (runScript s a).1 = .unfinished ∧ runScript s bytes = runScript s a)) := by
  constructor
  · intro s a b ended
    have whole := runScript_append s ended b
    constructor
    · intro stopped
      rw [whole, if_neg stopped]
    · intro done
      rw [if_pos done] at whole
      obtain ⟨u, finish, continued, fromStart⟩ := (runScript s a).2.exists_continuation b
      dsimp only
      rw [whole, continued, fromStart]
      refine ⟨rfl, rfl, ?_, u.output, ?_, ?_⟩
      · simp [Transcript.continuedBy, Transcript.start]
      · rw [Transcript.output_continuedBy]
        simp [Transcript.start, Transcript.output]
      · rw [Transcript.output_continuedBy]
  · intro s bytes k bad valid found invalid
    obtain ⟨more, same⟩ := List.getElem?_eq_some_iff.mp found
    obtain ⟨a, b, rfl, ended, lines, rest⟩ := exists_leading_lines more
    rw [List.drop_eq_getElem_cons more, same] at rest
    exact ⟨a, b, rfl, ended, lines,
      runScript_append_invalid s ended (lines ▸ valid) rest invalid⟩

/-- The lines are `a=b` with a carriage return, one byte that is no text, and `a`, which is never
reached. -/
theorem script_stops_at_second_line :
    let a : List UInt8 := [97, 61, 98, 13, 10]
    let b : List UInt8 := [255, 10, 97]
    let whole := runScript {} (a ++ b)
    LinesEnded a ∧ (runScript {} a).1 = .done ∧ whole.1 = .failed (.script .invalidUtf8) ∧
      whole.2.session = (runScript (runScript {} a).2.session b).2.session ∧
      ∃ first rest, a ++ b = first ++ rest ∧ splitLines first = [[97, 61, 98]] ∧
        whole = (.failed (.script .invalidUtf8), (runScript {} first).2) := by
  intro a b whole
  have ended : LinesEnded a := Or.inr rfl
  have done : (runScript {} a).1 = .done := by
    unfold a
    decide +kernel
  have failed : (runScript (runScript {} a).2.session b).1 = .failed (.script .invalidUtf8) := by
    unfold a b
    decide +kernel
  obtain ⟨finish, session, -⟩ := (scripts_compose.1 {} a b ended).2 done
  have stopped : whole.1 = .failed (.script .invalidUtf8) := finish.trans failed
  have valid : ∀ line ∈ (splitLines (a ++ b)).take 1, (decodeUtf8? line).isSome = true := by
    intro line mem
    obtain rfl : line = [97, 61, 98] := List.mem_singleton.mp mem
    decide +kernel
  have invalid : decodeUtf8? [255] = none := by decide +kernel
  refine ⟨ended, done, stopped, session, ?_⟩
  obtain ⟨first, rest, cut, -, lines, run⟩ := scripts_compose.2 {} (a ++ b) 1 [255] valid rfl invalid
  refine ⟨first, rest, cut, lines, ?_⟩
  rcases run with ⟨-, run⟩ | ⟨endless, run⟩
  · exact run
  · have endless : whole.1 = .unfinished := (congrArg Prod.fst run).trans endless
    rw [stopped] at endless
    simp at endless

end EagerLambda
