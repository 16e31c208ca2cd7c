import EagerLambda.Program
import EagerLambda.Proofs.Console
import EagerLambda.Proofs.Paths

/-!
# Reports

The program enters one line at a time and shows the answer before it reads on. What can be seen of a
whole run is still what all its lines give when they are entered at once: `runChunks_script` for a
file and `runChunks_console` for standard input, however that is cut into chunks
(`runChunks_eq_runProgram`). `System.follow_recorder` is the run over lines, and
`System.followConsole_recorder` the run over chunks.
-/

namespace EagerLambda

/-! ### Entering lines one by one -/

namespace Transcript

variable (t u : Transcript)

theorem enterConsole_append {first : List ConsoleRead} (goesOn : .endOfInput ∉ first)
    (rest : List ConsoleRead) :
    t.enterConsole (first ++ rest) =
      if (t.enterConsole first).1 = .done then (t.enterConsole first).2.enterConsole rest
      else t.enterConsole first := by
  induction first generalizing t with
  | nil => rfl
  | cons read first ih =>
    obtain ⟨notEnd, later⟩ := List.ne_and_not_mem_of_not_mem_cons goesOn
    cases read with
    | endOfInput => exact absurd rfl notEnd
    | failed cause => rfl
    | aborted => rfl
    | interrupted => exact ih t later
    | line line =>
      rw [List.cons_append, enterConsole_line, enterConsole_line]
      by_cases endless : (t.enter line).1 = .unfinished
      · rw [if_pos endless, if_pos endless]
        rfl
      · rw [if_neg endless, if_neg endless]
        exact ih _ later

theorem enterConsole_continuedBy (reads : List ConsoleRead) :
    (t.continuedBy u).enterConsole reads =
      ((u.enterConsole reads).1, t.continuedBy (u.enterConsole reads).2) := by
  induction reads generalizing u with
  | nil => rfl
  | cons read reads ih =>
    cases read with
    | endOfInput => rfl
    | failed cause => rfl
    | aborted => rfl
    | interrupted => exact ih u
    | line line =>
      rw [enterConsole_line, enterConsole_line, enter_continuedBy]
      by_cases endless : (u.enter line).1 = .unfinished
      · rw [if_pos endless, if_pos endless]
      · rw [if_neg endless, if_neg endless]
        exact ih _

theorem endOfInput_not_mem_map_ofLine (lines : List (Except Fault String)) :
    .endOfInput ∉ lines.map ConsoleRead.ofLine := by
  intro mem
  obtain ⟨line, -, given⟩ := List.mem_map.mp mem
  unfold ConsoleRead.ofLine at given
  split at given
  · split at given <;> simp at given
  · simp at given

theorem enterPiped_append (first rest : List (Except Fault String)) :
    t.enterPiped (first ++ rest) =
      if (t.enterPiped first).1 = .done then (t.enterPiped first).2.enterPiped rest
      else t.enterPiped first := by
  unfold enterPiped
  rw [List.map_append]
  exact t.enterConsole_append (endOfInput_not_mem_map_ofLine first) _

theorem enterConsole_pipe (lines : List (Except Fault String)) :
    t.enterConsole (pipe lines) = t.enterPiped lines := by
  unfold enterPiped
  rw [pipe, t.enterConsole_append (endOfInput_not_mem_map_ofLine lines)]
  split
  · next done => exact Prod.ext done.symm rfl
  · rfl

end Transcript

/-- A way of entering lines that takes them in order, and never looks at what was shown or logged
before. -/
structure LineByLine (enter : Transcript → List (Except Fault String) → Finish × Transcript) :
    Prop where
  nil (t : Transcript) : enter t [] = (.done, t)
  append (t : Transcript) (first rest : List (Except Fault String)) :
    enter t (first ++ rest) =
      if (enter t first).1 = .done then enter (enter t first).2 rest else enter t first
  continuedBy (t u : Transcript) (lines : List (Except Fault String)) :
    enter (t.continuedBy u) lines = ((enter u lines).1, t.continuedBy (enter u lines).2)

theorem lineByLine_enterScript : LineByLine Transcript.enterScript :=
  ⟨fun _ => rfl, Transcript.enterScript_append, Transcript.enterScript_continuedBy⟩

theorem lineByLine_enterPiped : LineByLine Transcript.enterPiped :=
  ⟨fun _ => rfl, Transcript.enterPiped_append, fun t u _ => t.enterConsole_continuedBy u _⟩

variable {enter : Transcript → List (Except Fault String) → Finish × Transcript}

theorem LineByLine.resume (enters : LineByLine enter) (t : Transcript)
    (lines : List (Except Fault String)) :
    enter t lines = ((enter { session := t.session } lines).1,
      t.continuedBy (enter { session := t.session } lines).2) := by
  rw [← enters.continuedBy, ← t.eq_continuedBy]

/-- The lines of bytes that come in behind the pending ones of an open line. -/
def decodeLinesAfter (pending bytes : List UInt8) : List (Except Fault String) :=
  (bytes.foldl LineSplitter.push ⟨#[], pending⟩).finish.toList.map decodeLine

theorem decodeLinesAfter_append (pending a b : List UInt8) :
    decodeLinesAfter pending (a ++ b) =
      (a.foldl LineSplitter.push ⟨#[], pending⟩).lines.toList.map decodeLine ++
        decodeLinesAfter (a.foldl LineSplitter.push ⟨#[], pending⟩).pending b := by
  unfold decodeLinesAfter
  rw [LineSplitter.finish_foldl_push_append, List.map_append]

/-! ### Recordings -/

namespace Recording

variable (r : Recording) (threshold : Threshold)

/-- The recording with what a transcript shows and logs behind it. -/
def after (t : Transcript) : Recording where
  stdout := r.stdout ++ t.output
  stderr := r.stderr ++ ((threshold.keep t.events.toList).map Event.render).toArray

theorem after_empty (s : Session) : r.after threshold { session := s } = r := by
  simp [after, Transcript.output, Threshold.keep]

theorem after_after (t u : Transcript) :
    (r.after threshold t).after threshold u = r.after threshold (t.continuedBy u) := by
  have output : r.stdout ++ t.output ++ u.output = r.stdout ++ (t.continuedBy u).output := by
    rw [Transcript.output_continuedBy, String.append_assoc]
  simp [after, output, Transcript.continuedBy, Threshold.keep]

end Recording

namespace System

variable {wanted : Option Threshold} {source : String → Source} {threshold : Threshold}

theorem forM_log {α : Type} (text : α → String) (xs : List α) (r : Recording) :
    (xs.forM fun x => (recorder wanted source).log (text x)).run r =
      pure ((), { r with stderr := r.stderr ++ (xs.map text).toArray }) := by
  induction xs generalizing r with
  | nil => simp
  | cons x xs ih =>
    have first : ((recorder wanted source).log (text x)).run r =
        pure ((), { r with stderr := r.stderr.push (text x) }) := rfl
    rw [List.forM_eq_forM, List.forM_cons, StateT.run_bind, first, pure_bind, ← List.forM_eq_forM,
      ih]
    simp

theorem flush_recorder (t : Transcript) (r : Recording) :
    ((recorder wanted source).flush threshold t).run r =
      pure ({ session := t.session }, r.after threshold t) := by
  unfold flush
  rw [StateT.run_bind, forM_log]
  rfl

theorem leave_recorder (exit : Exit) (r : Recording) :
    ((recorder wanted source).leave exit).run r =
      pure (exit, { r with stderr := r.stderr ++ exit.complaint.toArray }) := by
  have logged : (exit.complaint.forM (recorder wanted source).log).run r = _ :=
    forM_log id exit.complaint r
  unfold leave
  rw [StateT.run_bind, logged, List.map_id]
  rfl

theorem openFile_recorder (path : String) (r : Recording) :
    ((recorder wanted source).openFile path).run r = pure (source path, r) := rfl

/-- What is shown and logged line by line is what the lines show and log together. -/
theorem follow_recorder (enters : LineByLine enter) (lines : List (Except Fault String))
    (s : Session) (r : Recording) :
    ((recorder wanted source).follow enter threshold { session := s } lines).run r =
      let all := enter { session := s } lines
      pure ((all.1, { session := all.2.session }), r.after threshold all.2) := by
  induction lines generalizing s r with
  | nil =>
    dsimp only
    rw [enters.nil, Recording.after_empty]
    rfl
  | cons line lines ih =>
    have all : enter { session := s } (line :: lines) = _ := enters.append _ [line] lines
    rw [all, follow, StateT.run_bind, flush_recorder, pure_bind]
    dsimp only
    split
    · rw [ih, enters.resume (enter { session := s } [line]).2]
      dsimp only
      rw [Recording.after_after]
      rfl
    · rfl

theorem receive_recorder (pending : List UInt8) (s : Session) (chunk : List UInt8)
    (r : Recording) :
    ((recorder wanted source).receive threshold
      { splitter := ⟨#[], pending⟩, transcript := { session := s } } chunk).run r =
      let first := chunk.foldl LineSplitter.push ⟨#[], pending⟩
      let all := Transcript.enterPiped { session := s } (first.lines.toList.map decodeLine)
      pure (⟨⟨#[], first.pending⟩, { session := all.2.session }, all.1⟩,
        r.after threshold all.2) := by
  unfold receive
  rw [StateT.run_bind, follow_recorder lineByLine_enterPiped]
  rfl

theorem followConsole_cons {m : Type → Type} [Monad m] [LawfulMonad m] (system : System m)
    (c : Console) (chunk : List UInt8) (chunks : List (List UInt8)) :
    system.followConsole threshold c (chunk :: chunks) = do
      let c ← system.receive threshold c chunk
      if c.finish = .done then system.followConsole threshold c chunks else return c.finish := by
  unfold followConsole
  rw [List.forIn_cons]
  simp only [bind_assoc, pure_bind]
  congr
  funext c
  by_cases done : c.finish = .done
  · simp only [if_pos done]
  · simp only [if_neg done, pure_bind]

/-- A line that lies in two chunks is entered when the second one has come in. -/
theorem followConsole_recorder (chunks : List (List UInt8)) (pending : List UInt8) (s : Session)
    (r : Recording) :
    ((recorder wanted source).followConsole threshold
      { splitter := ⟨#[], pending⟩, transcript := { session := s } } chunks).run r =
      let all := Transcript.enterPiped { session := s } (decodeLinesAfter pending chunks.flatten)
      pure (all.1, r.after threshold all.2) := by
  induction chunks generalizing pending s r with
  | nil =>
    unfold followConsole
    rw [List.forIn_nil, pure_bind, if_pos rfl, StateT.run_bind,
      follow_recorder lineByLine_enterPiped]
    rfl
  | cons chunk chunks ih =>
    rw [followConsole_cons, StateT.run_bind, receive_recorder, pure_bind, List.flatten_cons,
      decodeLinesAfter_append, lineByLine_enterPiped.append]
    dsimp only
    generalize chunk.foldl LineSplitter.push ⟨#[], pending⟩ = first
    generalize Transcript.enterPiped { session := s } (first.lines.toList.map decodeLine) = begun
    split
    · next done =>
      rw [done, ih, lineByLine_enterPiped.resume begun.2]
      dsimp only
      rw [Recording.after_after]
    · rfl

theorem run_recorder {args : List String} {options : Options}
    (parsed : Options.parse args = .ok options) (chunks : List (List UInt8)) :
    (recorder wanted source).run args chunks =
      (recorder wanted source).runOptions options (options.threshold wanted) chunks := by
  unfold run
  rw [parsed]
  rfl

end System

/-! ### Reports of whole runs -/

/-- What can be seen of a run of lines that ends the program. -/
def Finish.report (threshold : Threshold) (run : Finish × Transcript) : Report where
  exit := run.1.exit
  stdout := run.2.output
  stderr := (threshold.keep run.2.events.toList).map Event.render ++ run.1.exit.complaint

theorem LineByLine.report_start (enters : LineByLine enter) (threshold : Threshold) (s : Session)
    (lines : List (Except Fault String)) :
    let all := enter { session := s } lines
    let r := (Recording.after {} threshold (Transcript.start s)).after threshold all.2
    Recording.report { r with stderr := r.stderr ++ all.1.exit.complaint.toArray } all.1.exit =
      Finish.report threshold (enter (Transcript.start s) lines) := by
  dsimp only
  rw [Recording.after_after, enters.resume (Transcript.start s)]
  simp [Recording.report, Recording.after, Finish.report, Transcript.start]

section

variable {args : List String} {options : Options} {wanted : Option Threshold}
  {source : String → Source} {chunks : List (List UInt8)}

theorem runChunks_console (parsed : Options.parse args = .ok options)
    (console : options.script = none) :
    runChunks args wanted source chunks =
      Finish.report (options.threshold wanted) (runConsole options.session chunks.flatten) := by
  have start : runConsole options.session chunks.flatten =
      (Transcript.start options.session).enterPiped (decodeLines chunks.flatten) :=
    Transcript.enterConsole_pipe _ _
  rw [start, ← lineByLine_enterPiped.report_start, runChunks, System.run_recorder parsed,
    System.runOptions, console]
  dsimp only
  rw [StateT.run_bind, System.flush_recorder, pure_bind, StateT.run_bind,
    System.followConsole_recorder, pure_bind, System.leave_recorder]
  rfl

theorem runChunks_script {path : String} (parsed : Options.parse args = .ok options)
    (script : options.script = some path) {lines : List (Except Fault String)}
    (opened : (source path).lines = .ok lines) :
    runChunks args wanted source chunks =
      Finish.report (options.threshold wanted)
        ((Transcript.start options.session).enterScript lines) := by
  rw [← lineByLine_enterScript.report_start, runChunks, System.run_recorder parsed,
    System.runOptions, script]
  dsimp only
  rw [StateT.run_bind, System.openFile_recorder, pure_bind, opened]
  dsimp only
  rw [StateT.run_bind, System.flush_recorder, pure_bind, StateT.run_bind,
    System.follow_recorder lineByLine_enterScript, pure_bind, System.leave_recorder]
  rfl

theorem runChunks_unopened {path : String} (parsed : Options.parse args = .ok options)
    (script : options.script = some path) {cause : Fault}
    (unopened : (source path).lines = .error cause) :
    runChunks args wanted source chunks =
      { exit := .failure (.script cause), stderr := [(RunError.script cause).message] } := by
  rw [runChunks, System.run_recorder parsed, System.runOptions, script]
  dsimp only
  rw [StateT.run_bind, System.openFile_recorder, pure_bind, unopened]
  dsimp only
  rw [System.leave_recorder]
  rfl

/-- How standard input is cut into chunks is not seen. -/
theorem runChunks_eq_runProgram (args : List String) (wanted : Option Threshold)
    (source : String → Source) (chunks : List (List UInt8)) :
    runChunks args wanted source chunks = runProgram args wanted source chunks.flatten := by
  unfold runProgram
  cases parsed : Options.parse args with
  | error early =>
    unfold runChunks System.run
    rw [parsed]
    cases early <;> rfl
  | ok options =>
    cases script : options.script with
    | none => simp [runChunks_console parsed script]
    | some path =>
      cases opened : (source path).lines with
      | error cause =>
        rw [runChunks_unopened parsed script opened, runChunks_unopened parsed script opened]
      | ok lines =>
        rw [runChunks_script parsed script opened, runChunks_script parsed script opened]

/-- A file that is named by its path from the root is run, wherever the program runs. -/
theorem runProgram_path {files : Files} {here place : Place} {content : List UInt8}
    (rooted : files.Rooted) (plain : ∀ name ∈ place, PlainName name)
    (short : place.path.utf8ByteSize ≤ maxPathBytes)
    (found : files.entry? place = some (.file content))
    (parsed : Options.parse args = .ok options) (script : options.script = some place.path)
    (stdin : List UInt8) :
    runProgram args wanted (files.source here) stdin =
      Finish.report (options.threshold wanted) (runScript options.session content) := by
  apply runChunks_script parsed script
  rw [files.source_path rooted plain short found here]
  rfl

theorem Finish.Corresponds.code_eq {f g : Finish} (same : f.Corresponds g) :
    g.exit.code = f.exit.code := by
  cases same <;> rfl

/-- Lines without backspaces can be piped in or read from a file: the program shows the same and
exits with the same code. -/
theorem runProgram_piped {path : String} {bytes : List UInt8} {args' : List String}
    (console : Options.parse args = .ok { options with script := none })
    (script : Options.parse args' = .ok { options with script := some path })
    (opened : source path = .bytes bytes) (absent : 8 ∉ bytes) (stdin : List UInt8) :
    let piped := runProgram args wanted source bytes
    let read := runProgram args' wanted source stdin
    piped.stdout = read.stdout ∧ piped.exit.code = read.exit.code := by
  intro piped read
  have pipedReport : piped = _ := runChunks_console console rfl
  have lines : (source path).lines = .ok (decodeLines bytes) := by
    rw [opened]
    rfl
  have readReport : read = _ := runChunks_script script rfl lines
  obtain ⟨finish, transcript⟩ :=
    (handsOver_pipe_of_not_mem absent).agree (Transcript.start options.session)
  rw [pipedReport, readReport, List.flatten_singleton]
  exact ⟨congrArg Transcript.output transcript, finish.code_eq⟩

end

end EagerLambda
