import EagerLambda.Files

/-!
# Paths to files

A file can be opened by its names from the root, wherever the program runs
(`Files.source_path`), and by its names from the folder the program runs in
(`Files.source_intercalate`). `Files.follow_names` is the walk that both are.
-/

namespace EagerLambda

/-- A name that is neither a step within the folders nor too long. -/
structure PlainName (name : String) : Prop where
  ne_empty : name ≠ ""
  ne_here : name ≠ "."
  ne_up : name ≠ ".."
  slash_not_mem : '/' ∉ name.toList
  short : name.utf8ByteSize ≤ maxNameBytes

/-- The path to a place from the root. -/
def Place.path (place : Place) : String :=
  "/" ++ "/".intercalate place

theorem pathNames_intercalate {names : List String} (some_name : names ≠ [])
    (unbroken : ∀ name ∈ names, '/' ∉ name.toList) :
    pathNames ("/".intercalate names) = names := by
  have split : (['/'].intercalate (names.map String.toList)).splitOn '/' =
      names.map String.toList :=
    List.splitOn_intercalate '/' (by simpa using unbroken) (by simpa using some_name)
  unfold pathNames
  rw [String.toList_intercalate]
  show ((['/'].intercalate (names.map String.toList)).splitOn '/').map String.ofList = names
  rw [split]
  simp

namespace Files

variable {files : Files}

/-- Everything stands in a folder. -/
def Rooted (files : Files) : Prop :=
  ∀ place entry, files.entry? place = some entry → files.entry? place.dropLast = some .folder

theorem Rooted.folder {place : Place} {name : String} {names : List String} {entry : Entry}
    (rooted : files.Rooted) (found : files.entry? (place ++ name :: names) = some entry) :
    files.entry? place = some .folder := by
  induction names generalizing place name with
  | nil => simpa using rooted _ entry found
  | cons next names ih =>
    have inner : files.entry? (place ++ [name] ++ next :: names) = some entry := by
      simpa using found
    simpa using rooted _ _ (ih inner)

theorem follow_cons {place : Place} {name : String} (folder : files.entry? place = some .folder)
    (plain : PlainName name) (names : List String) :
    files.follow place (name :: names) = files.follow (place ++ [name]) names := by
  have notLong : ¬ maxNameBytes < name.utf8ByteSize := Nat.not_lt.mpr plain.short
  rw [follow, folder]
  simp [plain.ne_empty, plain.ne_here, plain.ne_up, notLong]

theorem follow_names {place : Place} {names : List String} {entry : Entry} (rooted : files.Rooted)
    (plain : ∀ name ∈ names, PlainName name)
    (found : files.entry? (place ++ names) = some entry) :
    files.follow place names = .ok (place ++ names) := by
  induction names generalizing place with
  | nil => simp [follow]
  | cons name names ih =>
    obtain ⟨first, rest⟩ := List.forall_mem_cons.mp plain
    have further : place ++ name :: names = place ++ [name] ++ names := by simp
    rw [follow_cons (rooted.folder found) first, further]
    exact ih rest (further ▸ found)

/-- A file can be opened by its names from the root, from any folder. -/
theorem source_path {place : Place} {content : List UInt8} (rooted : files.Rooted)
    (plain : ∀ name ∈ place, PlainName name) (short : place.path.utf8ByteSize ≤ maxPathBytes)
    (found : files.entry? place = some (.file content)) (here : Place) :
    files.source here place.path = .bytes content := by
  have inside : place ≠ [] := by
    intro root
    simp [root, entry?] at found
  have names : pathNames place.path = "" :: place := by
    have spelled : place.path = "/".intercalate ("" :: place) := by
      simp [Place.path, String.intercalate_cons_of_ne_nil inside]
    rw [spelled]
    apply pathNames_intercalate (by simp)
    simpa using fun name mem => (plain name mem).slash_not_mem
  have led : files.follow [] ("" :: place) = .ok place := by
    rw [follow]
    exact follow_names rooted plain found
  unfold source
  rw [if_neg (by simp [Place.path]), if_neg (by omega), names]
  simp [Place.path, led, sourceAt, found]

/-- A file can be opened by its names from a folder on the way to it. -/
theorem source_intercalate {here : Place} {names : List String} {content : List UInt8}
    (rooted : files.Rooted) (some_name : names ≠ []) (plain : ∀ name ∈ names, PlainName name)
    (short : ("/".intercalate names).utf8ByteSize ≤ maxPathBytes)
    (found : files.entry? (here ++ names) = some (.file content)) :
    files.source here ("/".intercalate names) = .bytes content := by
  obtain ⟨first, rest, rfl⟩ := List.exists_cons_of_ne_nil some_name
  obtain ⟨tail, spelled⟩ : ∃ tail, "/".intercalate (first :: rest) = first ++ tail := by
    cases rest with
    | nil => exact ⟨"", by simp⟩
    | cons next rest => exact ⟨"/" ++ "/".intercalate (next :: rest), by simp [String.append_assoc]⟩
  have firstPlain := plain first List.mem_cons_self
  have relative : ¬ ("/".intercalate (first :: rest)).startsWith "/" := by
    rw [spelled, String.startsWith_string_iff]
    intro slash
    cases chars : first.toList with
    | nil => exact firstPlain.ne_empty (by simpa using chars)
    | cons c cs =>
      obtain rfl : '/' = c := by simpa [chars] using slash
      exact firstPlain.slash_not_mem (by simp [chars])
  have led := follow_names rooted plain found
  unfold source
  rw [if_neg (by simp [spelled, firstPlain.ne_empty]), if_neg (by omega), if_neg relative,
    pathNames_intercalate some_name fun name mem => (plain name mem).slash_not_mem, led]
  simp [sourceAt, found]

example :
    let files : Files := [(["tmp"], .folder), (["tmp", "a"], .file [97])]
    files.source ["tmp"] "/tmp/a" = .bytes [97] ∧ files.source ["tmp"] "a" = .bytes [97] ∧
      files.source ["tmp"] "a/" = .closed .notDirectory := by
  decide +kernel

end Files

end EagerLambda
