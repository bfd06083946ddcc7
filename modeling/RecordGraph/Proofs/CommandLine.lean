import RecordGraph.CommandLine

/-!
# Opening files and answering

The pieces of a path are followed from left to right, so a file cannot be opened behind a place that
cannot be reached. A run that fails prints no part of an answer.
-/

namespace RecordGraph

namespace FileName

theorem pieces_ne_nil (mark : Char) (text : List Char) : pieces mark text ≠ [] := by
  cases text with
  | nil => exact List.cons_ne_nil _ _
  | cons character rest =>
    unfold pieces
    split
    · exact List.cons_ne_nil _ _
    · split <;> exact List.cons_ne_nil _ _

theorem pieces_append (mark : Char) (text more : List Char) :
    pieces mark (text ++ mark :: more) = pieces mark text ++ pieces mark more := by
  induction text with
  | nil => simp [pieces]
  | cons character rest induction =>
    rw [List.cons_append, pieces, induction, pieces]
    split
    · rfl
    · obtain ⟨first, others, same⟩ := List.exists_cons_of_ne_nil (pieces_ne_nil mark rest)
      rw [same]
      rfl

end FileName

namespace FileTree

variable {tree : FileTree}

theorem follow_append (tree : FileTree) (place : Place) (pieces others : List String) :
    tree.follow place (pieces ++ others) =
      (tree.follow place pieces).bind fun next => tree.follow next others := by
  induction pieces generalizing place with
  | nil => rfl
  | cons piece pieces induction =>
    simp only [List.cons_append, follow]
    cases tree.step place piece with
    | error failure => rfl
    | ok next => exact induction next

theorem locate_of_plain {path : String} (named : path ≠ "") (plain : '\x00' ∉ path.toList)
    (short : path.utf8ByteSize ≤ longestPath) :
    tree.locate path = tree.follow (if path.startsWith "/" then [] else tree.current)
      ((FileName.pieces '/' path.toList).map String.ofList) := by
  rw [locate, if_neg named, if_neg (by simpa using plain), if_neg (Nat.not_lt.mpr short)]

/-- A path that goes on behind a slash goes on from the place that is named in front of it. -/
theorem locate_append {path more : String} (named : path ≠ "")
    (plain : '\x00' ∉ (path ++ "/" ++ more).toList)
    (short : (path ++ "/" ++ more).utf8ByteSize ≤ longestPath) :
    tree.locate (path ++ "/" ++ more) = (tree.locate path).bind fun place =>
      tree.follow place ((FileName.pieces '/' more.toList).map String.ofList) := by
  have text : (path ++ "/" ++ more).toList = path.toList ++ '/' :: more.toList := by simp
  have begins : (path ++ "/" ++ more).startsWith "/" = path.startsWith "/" := by
    have visible : path.toList ≠ [] := by simpa using named
    obtain ⟨first, others, same⟩ := List.exists_cons_of_ne_nil visible
    rw [Bool.eq_iff_iff, String.startsWith_string_iff, String.startsWith_string_iff, text, same]
    simp [List.cons_prefix_cons]
  have plainFront : '\x00' ∉ path.toList := fun member =>
    plain (text ▸ List.mem_append_left _ member)
  have shortFront : path.utf8ByteSize ≤ longestPath := by
    simp only [String.utf8ByteSize_append] at short
    omega
  have whole : path ++ "/" ++ more ≠ "" := by simp [named]
  rw [locate_of_plain whole plain short, locate_of_plain named plainFront shortFront, begins, text,
    FileName.pieces_append, List.map_append, follow_append]

end FileTree

/-- No file is opened behind a place that cannot be reached: the reason is the same. -/
theorem Session.openFile_append {files : FileTree} {path more : String} {failure : ReadError}
    (options : Document.Options) (named : path ≠ "")
    (plain : '\x00' ∉ (path ++ "/" ++ more).toList)
    (short : (path ++ "/" ++ more).utf8ByteSize ≤ FileTree.longestPath)
    (lost : files.locate path = .error failure) :
    openFile files (path ++ "/" ++ more) options = .error failure := by
  have stuck : files.locate (path ++ "/" ++ more) = .error failure := by
    rw [FileTree.locate_append named plain short, lost]
    rfl
  rw [openFile, FileTree.read, stuck]
  rfl

namespace CommandLine

def Answer.Whole (answer : Answer) : Prop :=
  answer.code = 0 ∨ answer.code = 1 ∧ (answer.output = "" ∨ answer.output = usage)

theorem whole_of_onFile {command : String} {operands : List String} {inspection : Inspection}
    {untyped robust : Bool} {answer : Answer}
    (answered : onFile command operands inspection untyped robust = .answered answer) :
    answer.Whole := by
  unfold onFile at answered
  split at answered
  · cases answered
  · cases answered
    exact .inr ⟨rfl, .inl rfl⟩

theorem whole_of_ofCommand {command : String} {operands : List String} {untyped robust : Bool}
    {answer : Answer} (answered : ofCommand command operands untyped robust = .answered answer) :
    answer.Whole := by
  unfold ofCommand at answered
  split at answered
  · exact whole_of_onFile answered
  · exact whole_of_onFile answered
  · exact whole_of_onFile answered
  · split at answered
    · cases answered
    · cases answered
      exact .inr ⟨rfl, .inl rfl⟩
  all_goals cases answered
  · exact .inl rfl
  · exact .inl rfl
  · exact .inl rfl
  · exact .inl rfl
  · exact .inl rfl
  · exact .inl rfl
  · exact .inl rfl
  · exact .inr ⟨rfl, .inr rfl⟩

theorem whole_of_ofArguments {arguments : List String} {answer : Answer}
    (answered : ofArguments arguments = .answered answer) : answer.Whole := by
  unfold ofArguments at answered
  split at answered
  · cases answered
    exact .inr ⟨rfl, .inl rfl⟩
  · dsimp only at answered
    split at answered
    · cases answered
      exact .inr ⟨rfl, .inr rfl⟩
    · exact whole_of_ofCommand answered

/-- A run that fails prints nothing, or the help text. It fails on every file that cannot be
read. -/
theorem whole_run (files : FileTree) (arguments : List String) :
    (run files arguments).Whole ∧
      ∀ file inspection untyped robust,
        ofArguments arguments = .inspect file inspection untyped robust →
          ((run files arguments).code = 0 ↔ ∃ text, files.read file = .ok text) := by
  cases asked : ofArguments arguments with
  | answered answer =>
    rw [run, asked]
    exact ⟨whole_of_ofArguments asked, nofun⟩
  | inspect file inspection untyped robust =>
    rw [run, asked]
    cases content : files.read file with
    | error reason =>
      simp only [answer, content]
      refine ⟨.inr ⟨rfl, .inl rfl⟩, ?_⟩
      rintro _ _ _ _ ⟨⟩
      simp [Answer.failure, content]
    | ok text =>
      simp only [answer, content]
      refine ⟨.inl rfl, ?_⟩
      rintro _ _ _ _ ⟨⟩
      simp [content]

end CommandLine
end RecordGraph
