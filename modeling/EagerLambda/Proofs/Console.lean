import EagerLambda.Proofs.Scripts

/-!
# The console beside a script

Scripts and the console have loops of their own. If the console hands over the lines that a script
would read (`HandsOver`), then the two loops are in step: after any number of lines they have shown
and logged the same and are in the same session (`HandsOver.lockstep`). They fail at the same line,
each with its own error (`console_agrees_with_script`).

The console that lines are piped into carries out backspaces, which a script keeps. Without
backspaces it hands over the lines as they are (`handsOver_pipe`).
-/

namespace EagerLambda

/-- What a console hands over for lines: each line as it is and an end behind the last one, up to
the first line that cannot be read. Nothing is asked of what comes after the end or a failure. -/
inductive HandsOver : List (Except Fault String) → List ConsoleRead → Prop where
  | ended {reads : List ConsoleRead} : HandsOver [] (.endOfInput :: reads)
  | line {text : String} {lines : List (Except Fault String)} {reads : List ConsoleRead} :
      HandsOver lines reads → HandsOver (.ok text :: lines) (.line text :: reads)
  | failed {cause : Fault} {lines : List (Except Fault String)} {reads : List ConsoleRead} :
      HandsOver (.error cause :: lines) (.failed cause :: reads)

/-- The ends of a script and of a console that agree up to the kind of the error. -/
inductive Finish.Corresponds : Finish → Finish → Prop where
  | done : Corresponds .done .done
  | unfinished : Corresponds .unfinished .unfinished
  | failed {cause : Fault} :
      Corresponds (.failed (.script cause)) (.failed (.console (.fault cause)))

theorem Finish.Corresponds.done_iff {f g : Finish} (h : f.Corresponds g) :
    f = .done ↔ g = .done := by
  cases h <;> simp

theorem Finish.Corresponds.failed_iff {f g : Finish} (h : f.Corresponds g) :
    (∃ e, f = .failed e) ↔ ∃ e, g = .failed e := by
  cases h <;> simp

/-- A run over inputs ends in failure at the input number `k`, and not before. -/
def FailsAt {α : Type} (run : List α → Finish × Transcript) (inputs : List α) (k : Nat) : Prop :=
  (run (inputs.take k)).1 = .done ∧ ∃ e, (run (inputs.take (k + 1))).1 = .failed e

/-! ### Two loops in step -/

theorem Transcript.enterConsole_line (t : Transcript) (line : String) (reads : List ConsoleRead) :
    t.enterConsole (.line line :: reads) =
      if (t.enter line).1 = .unfinished then (.unfinished, (t.enter line).2)
      else (t.enter line).2.enterConsole reads := by
  rw [enterConsole]
  split
  · next entered => rw [entered, if_pos rfl]
  · next other entered => rw [entered, if_neg other]

namespace HandsOver

variable {lines : List (Except Fault String)} {reads : List ConsoleRead}

theorem lockstep (handed : HandsOver lines reads) (t : Transcript) (k : Nat) :
    (t.enterScript (lines.take k)).1.Corresponds (t.enterConsole (reads.take k)).1 ∧
      (t.enterConsole (reads.take k)).2 = (t.enterScript (lines.take k)).2 := by
  induction handed generalizing t k with
  | ended =>
    rw [List.take_nil]
    cases k with
    | zero => exact ⟨.done, rfl⟩
    | succ k => exact ⟨.done, rfl⟩
  | @line text lines reads _ ih =>
    cases k with
    | zero => exact ⟨.done, rfl⟩
    | succ k =>
      rw [List.take_succ_cons, List.take_succ_cons, Transcript.enterScript_ok,
        Transcript.enterConsole_line]
      by_cases endless : (t.enter text).1 = .unfinished
      · rw [if_pos endless, if_pos endless]
        exact ⟨.unfinished, rfl⟩
      · rw [if_neg endless, if_neg endless]
        exact ih _ k
  | failed =>
    cases k with
    | zero => exact ⟨.done, rfl⟩
    | succ k => exact ⟨.failed, rfl⟩

theorem agree (handed : HandsOver lines reads) (t : Transcript) :
    (t.enterScript lines).1.Corresponds (t.enterConsole reads).1 ∧
      (t.enterConsole reads).2 = (t.enterScript lines).2 := by
  -- There are that many lines and reads at most, so all of them are taken.
  have all := handed.lockstep t (lines.length + reads.length)
  rwa [List.take_of_length_le (by omega), List.take_of_length_le (by omega)] at all

theorem failsAt_iff (handed : HandsOver lines reads) (t : Transcript) (k : Nat) :
    FailsAt t.enterConsole reads k ↔ FailsAt t.enterScript lines k := by
  have before := (handed.lockstep t k).1
  have after := (handed.lockstep t (k + 1)).1
  unfold FailsAt
  rw [before.done_iff, after.failed_iff]

end HandsOver

/-! ### Piped lines -/

theorem handsOver_pipe {lines : List (Except Fault String)}
    (unedited : ∀ text, .ok text ∈ lines → eraseBackspaces text = .ok text) :
    HandsOver lines (pipe lines) := by
  induction lines with
  | nil => exact .ended
  | cons line lines ih =>
    cases line with
    | error cause => exact .failed
    | ok text =>
      have first : ConsoleRead.ofLine (.ok text) = .line text := by
        rw [ConsoleRead.ofLine, unedited text List.mem_cons_self]
      have rest := ih fun text mem => unedited text (List.mem_cons_of_mem _ mem)
      rw [pipe, List.map_cons, List.cons_append, first]
      exact .line rest

theorem mem_of_mem_dropReturn {bytes : List UInt8} {b : UInt8}
    (mem : b ∈ LineSplitter.dropReturn bytes) : b ∈ bytes := by
  unfold LineSplitter.dropReturn at mem
  split at mem
  · exact mem
  · split at mem
    · exact List.mem_cons_of_mem _ mem
    · exact mem

theorem mem_of_mem_splitLines {bytes line : List UInt8} {b : UInt8} (found : line ∈ splitLines bytes)
    (mem : b ∈ line) : b ∈ bytes := by
  induction hn : bytes.length using Nat.strongRecOn generalizing bytes with
  | _ n ih =>
    subst hn
    by_cases feed : 10 ∈ bytes
    · obtain ⟨first, rest, rfl, unbroken⟩ := List.eq_append_cons_of_mem feed
      rw [splitLines_line unbroken] at found
      rcases List.mem_cons.mp found with rfl | found
      · have kept : b ∈ first.reverse := mem_of_mem_dropReturn (List.mem_reverse.mp mem)
        exact List.mem_append_left _ (List.mem_reverse.mp kept)
      · have later : b ∈ rest := ih _ (by simp; omega) found rfl
        exact List.mem_append_right _ (List.mem_cons_of_mem _ later)
    · rw [splitLines_of_not_mem feed] at found
      split at found
      · simp at found
      · rwa [← List.mem_singleton.mp found]

theorem utf8_of_decoded {bytes : List UInt8} {text : String}
    (decoded : decodeUtf8? bytes = some text) :
    text.toList.flatMap String.utf8EncodeChar = bytes := by
  unfold decodeUtf8? String.fromUTF8? at decoded
  split at decoded
  · next valid =>
    obtain rfl := Option.some.inj decoded
    have encoded : (String.fromUTF8 ⟨bytes.toArray⟩ valid).toList.utf8Encode = ⟨bytes.toArray⟩ :=
      String.utf8Encode_toList
    have data := congrArg (fun b : ByteArray => b.data.toList) encoded
    simpa [List.utf8Encode] using data
  · simp at decoded

theorem backspace_not_mem {bytes : List UInt8} {text : String}
    (decoded : decodeUtf8? bytes = some text) (absent : 8 ∉ bytes) : backspace ∉ text.toList := by
  intro mem
  apply absent
  rw [← utf8_of_decoded decoded]
  exact List.mem_flatMap.mpr ⟨backspace, mem, by decide⟩

theorem handsOver_pipe_of_not_mem {bytes : List UInt8} (absent : 8 ∉ bytes) :
    HandsOver (decodeLines bytes) (pipe (decodeLines bytes)) := by
  apply handsOver_pipe
  intro text mem
  apply eraseBackspaces_of_not_mem
  obtain ⟨line, found, same⟩ := List.mem_map.mp mem
  have decoded : decodeUtf8? line = some text := decodeLine_eq_ok_iff.mp same
  exact backspace_not_mem decoded fun inside => absent (mem_of_mem_splitLines found inside)

/-- A console that hands over the lines of a script shows and logs what the script does, is left in
the same session, and fails at the same line if the script fails, with an error of its own kind. So
does the console that bytes without a backspace are piped into. -/
theorem console_agrees_with_script :
    (∀ (s : Session) (bytes : List UInt8) (reads : List ConsoleRead),
      HandsOver (decodeLines bytes) reads →
      let console := (Transcript.start s).enterConsole reads
      (runScript s bytes).1.Corresponds console.1 ∧ console.2 = (runScript s bytes).2 ∧
        ∀ k, FailsAt (Transcript.start s).enterConsole reads k ↔
          FailsAt (Transcript.start s).enterScript (decodeLines bytes) k) ∧
    (∀ (s : Session) (bytes : List UInt8), 8 ∉ bytes →
      (runScript s bytes).1.Corresponds (runConsole s bytes).1 ∧
        (runConsole s bytes).2 = (runScript s bytes).2) := by
  constructor
  · intro s bytes reads handed
    obtain ⟨finish, transcript⟩ := handed.agree (Transcript.start s)
    exact ⟨finish, transcript, handed.failsAt_iff _⟩
  · intro s bytes absent
    exact (handsOver_pipe_of_not_mem absent).agree (Transcript.start s)

/-- The lines are `a=b` with a carriage return, an empty one, and one that is no text. -/
theorem console_fails_at_third_line :
    let bytes : List UInt8 := [97, 61, 98, 13, 10, 10, 255, 10, 97]
    let reads := pipe (decodeLines bytes)
    HandsOver (decodeLines bytes) reads ∧
      (runScript {} bytes).1 = .failed (.script .invalidUtf8) ∧
      (runConsole {} bytes).1 = .failed (.console (.fault .invalidUtf8)) ∧
      (runConsole {} bytes).2 = (runScript {} bytes).2 ∧
      FailsAt (Transcript.start {}).enterConsole reads 2 := by
  intro bytes reads
  have absent : 8 ∉ bytes := by decide
  have handed : HandsOver (decodeLines bytes) reads := handsOver_pipe_of_not_mem absent
  have script : (runScript {} bytes).1 = .failed (.script .invalidUtf8) := by
    unfold bytes
    decide +kernel
  have third : FailsAt (Transcript.start {}).enterScript (decodeLines bytes) 2 := by
    refine ⟨?_, .script .invalidUtf8, ?_⟩
    · unfold bytes
      decide +kernel
    · unfold bytes
      decide +kernel
  obtain ⟨finish, transcript, sameLine⟩ := console_agrees_with_script.1 {} bytes reads handed
  obtain ⟨piped, -⟩ := console_agrees_with_script.2 {} bytes absent
  have console : (runConsole {} bytes).1 = .failed (.console (.fault .invalidUtf8)) := by
    rw [script] at piped
    generalize (runConsole {} bytes).1 = f at piped ⊢
    cases piped
    rfl
  exact ⟨handed, script, console, transcript, (sameLine 2).mpr third⟩

-- The bytes are `ab` and a backspace, which only the console carries out.
example :
    decodeLines [97, 98, 8] = [.ok "ab\x08"] ∧
      pipe (decodeLines [97, 98, 8]) = [.line "a", .endOfInput] := by
  constructor <;> rfl

end EagerLambda
