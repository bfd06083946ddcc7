import RecordGraph.Proofs.Path.Plain

/-!
# The grammar of paths

The texts that the grammar derives, part by part, and how each of them begins. By the first
characters alone a reader tells apart what may stand at a place.

Only an index has beginnings in common: digits may be a number or the front of a path, and a `$` may
stand in front of a path or belong to it.
-/

namespace RecordGraph.Path

inductive Part where
  | path
  | name
  | indices
  | index
  | attr

/-- The texts of the grammar, all of them where paths are not mended. A reader that mends paths
looks for the next `]` behind the digits at the front of an index, so then an index that begins with
a digit has none inside. -/
inductive Derives (robust : Bool) : Part → List Char → Prop where
  | indirect {path : List Char} : Derives robust .path path → Derives robust .path ('$' :: path)
  | direct {name indices attr : List Char} : Derives robust .name name →
      Derives robust .indices indices → Derives robust .attr attr →
      Derives robust .path (name ++ (indices ++ attr))
  | identifier {name : String} : IsIdentifier name → Derives robust .name name.toList
  | computed {path : List Char} : Derives robust .path path →
      Derives robust .name ('$' :: '(' :: (path ++ [')']))
  | unindexed : Derives robust .indices []
  | indexed {index indices : List Char} : Derives robust .index index →
      Derives robust .indices indices →
      Derives robust .indices ('[' :: (index ++ [']'] ++ indices))
  | literal {digits : List Char} : digits ≠ [] → (∀ digit ∈ digits, Text.isDigit digit = true) →
      Derives robust .index digits
  | value {path : List Char} : Derives robust .path path → Derives robust .index ('$' :: path)
  | bare {path : List Char} : Derives robust .path path →
      (robust = true → path.head?.any Text.isDigit = true → ']' ∉ path) →
      Derives robust .index path
  | plain : Derives robust .attr []
  | named {name : List Char} : Derives robust .name name → Derives robust .attr ('.' :: name)

def Closes (tail : List Char) : Prop :=
  ∀ first, tail.head? = some first → first = ')' ∨ first = ']'

section

variable {tail : List Char}

theorem closes_nil : Closes [] := nofun

theorem closes_paren (tail : List Char) : Closes (')' :: tail) := by
  rintro _ ⟨⟩
  exact .inl rfl

theorem closes_bracket (tail : List Char) : Closes (']' :: tail) := by
  rintro _ ⟨⟩
  exact .inr rfl

theorem Closes.stops (closes : Closes tail) : Text.Stops continuesIdentifier tail := by
  intro first head
  rcases closes first head with rfl | rfl <;> decide

theorem Closes.head_ne (closes : Closes tail) {mark : Char} (paren : mark ≠ ')')
    (bracket : mark ≠ ']') : tail.head? ≠ some mark := by
  intro head
  rcases closes mark head with same | same
  · exact paren same
  · exact bracket same

end

/-! ## How texts of the grammar begin -/

theorem beginsIndirection_cons {rest : List Char} (other : rest.head? ≠ some '(') :
    beginsIndirection ('$' :: rest) = true := by
  cases rest with
  | nil => rfl
  | cons first rest => simpa [beginsIndirection] using other

namespace Derives

variable {robust : Bool} {text tail : List Char}

theorem indices_cases (derives : Derives robust .indices text) :
    text = [] ∨ ∃ rest, text = '[' :: rest := by
  cases derives with
  | unindexed => exact .inl rfl
  | indexed => exact .inr ⟨_, rfl⟩

theorem attr_cases (derives : Derives robust .attr text) :
    text = [] ∨ ∃ rest, text = '.' :: rest := by
  cases derives with
  | plain => exact .inl rfl
  | named => exact .inr ⟨_, rfl⟩

theorem name_cases (derives : Derives robust .name text) :
    (∃ rest, text = '$' :: '(' :: rest) ∨ ∃ first rest, text = first :: rest ∧
      beginsIdentifier first = true ∧ ∀ character ∈ text, continuesIdentifier character = true := by
  cases derives with
  | computed => exact .inl ⟨_, rfl⟩
  | identifier isIdentifier =>
    rename_i name
    have begins := isIdentifier.begins
    cases same : name.toList with
    | nil => simp [same] at begins
    | cons first rest =>
      rw [same] at begins
      exact .inr ⟨first, rest, rfl, by simpa using begins, same ▸ isIdentifier.continues⟩

theorem ne_nil_of_name (derives : Derives robust .name text) : text ≠ [] := by
  rcases derives.name_cases with ⟨_, rfl⟩ | ⟨_, _, rfl, -⟩ <;> nofun

theorem stops_behind (derives : Derives robust .indices text) (tail : List Char)
    (stops : Text.Stops continuesIdentifier tail) :
    Text.Stops continuesIdentifier (text ++ tail) := by
  rcases derives.indices_cases with rfl | ⟨_, rfl⟩
  · exact stops
  · exact Text.stops_cons.mpr (by decide)

theorem ends_behind (derives : Derives robust .attr text) (tail : List Char)
    (closes : Closes tail) :
    (text ++ tail).head? ≠ some '[' ∧ Text.Stops continuesIdentifier (text ++ tail) := by
  rcases derives.attr_cases with rfl | ⟨_, rfl⟩
  · exact ⟨closes.head_ne (by decide) (by decide), closes.stops⟩
  · exact ⟨nofun, Text.stops_cons.mpr (by decide)⟩

theorem direct_of_name (derives : Derives robust .name text) :
    beginsIndirection (text ++ tail) = false := by
  rcases derives.name_cases with ⟨rest, rfl⟩ | ⟨first, rest, rfl, begins, -⟩
  · rfl
  · exact beginsIndirection_of_begins begins (rest ++ tail)

/-- A path begins with an indirection, with a computed identifier, or with a letter or a digit. -/
theorem path_cases (derives : Derives robust .path text) :
    (∃ inner, text = '$' :: inner ∧ Derives robust .path inner) ∨
      (∃ rest, text = '$' :: '(' :: rest) ∨
        ∃ first rest, text = first :: rest ∧ beginsIdentifier first = true := by
  cases derives with
  | indirect inner => exact .inl ⟨_, rfl, inner⟩
  | direct name _ _ =>
    rcases name.name_cases with ⟨rest, rfl⟩ | ⟨first, rest, rfl, begins, -⟩
    · exact .inr (.inl ⟨_, rfl⟩)
    · exact .inr (.inr ⟨first, _, rfl, begins⟩)

theorem no_paren (derives : Derives robust .path text) : (text ++ tail).head? ≠ some '(' := by
  rcases derives.path_cases with ⟨_, rfl, -⟩ | ⟨_, rfl⟩ | ⟨first, _, rfl, begins⟩
  · simp
  · simp
  · rintro ⟨⟩
    exact absurd begins (by decide)

theorem head_behind_name {attr : List Char} (indices : Derives robust .indices text)
    (derives : Derives robust .attr attr) :
    ((text ++ attr).dropWhile Text.isDigit).head? ≠ some ']' := by
  rcases indices.indices_cases with rfl | ⟨_, rfl⟩
  · rcases derives.attr_cases with rfl | ⟨_, rfl⟩
    · nofun
    · rw [List.nil_append, List.dropWhile_cons_of_neg (by decide)]
      nofun
  · rw [List.cons_append, List.dropWhile_cons_of_neg (by decide)]
    nofun

theorem head_dropWhile (derives : Derives robust .path text)
    (digit : text.head?.any Text.isDigit = true) :
    (text.dropWhile Text.isDigit).head? ≠ some ']' := by
  cases derives with
  | indirect => cases digit
  | @direct front _ _ name indices attr =>
    rcases name.name_cases with ⟨_, rfl⟩ | ⟨_, _, -, -, continues⟩
    · cases digit
    · rw [List.dropWhile_append]
      cases left : front.dropWhile Text.isDigit with
      | nil => exact indices.head_behind_name attr
      | cons first rest =>
        rintro ⟨⟩
        have member : ']' ∈ front.dropWhile Text.isDigit := by simp [left]
        exact absurd (continues _ ((List.dropWhile_sublist _).mem member)) (by decide)

end Derives

end RecordGraph.Path
