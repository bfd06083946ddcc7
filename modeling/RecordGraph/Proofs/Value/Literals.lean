import RecordGraph.Proofs.Document.Values

/-!
# Literals and their texts

The text of an integer or of a finite real is a literal of the same number: its first character is
that of a number, and behind it a real has a point or an `e` where an integer has digits only. Any
other literal is the text that it stands for. What the text of a literal gives is therefore the same
value again, and a value changes its variant only if it cannot be written as a literal.
-/

namespace RecordGraph.Value

theorem ofLiteral_of_isText {literal : String} (isText : (ofLiteral literal).isText = true) :
    ofLiteral literal = text literal := by
  unfold ofLiteral at isText ⊢
  split at isText
  · rename_i empty
    rw [String.toList_eq_nil_iff.mp empty]
  · split at isText
    · split at isText <;> cases isText
    · rename_i other
      exact if_neg other

/-- Numbers come back whatever they were read from. A text comes back because it was a literal
itself: other texts look like numbers. -/
theorem ofLiteral_toText_ofLiteral {literal : String} (writable : (ofLiteral literal).Writable) :
    ofLiteral (ofLiteral literal).toText = ofLiteral literal := by
  cases value : ofLiteral literal with
  | absent =>
    rw [value] at writable
    exact writable.elim
  | handle word =>
    rw [value] at writable
    exact writable.elim
  | int number => exact ofLiteral_decimalText number
  | real number =>
    cases number with
    | notANumber =>
      rw [value] at writable
      exact writable.elim
    | infinite negative =>
      rw [value] at writable
      exact writable.elim
    | finite negative magnitude => exact ofLiteral_finite negative magnitude
  | text content =>
    have isText : (ofLiteral literal).isText = true := by
      rw [value]
      rfl
    have same := ofLiteral_of_isText isText
    rw [← value, same, toText_text, same]

/-- Reading the text of an integer, of a finite real or of a literal text gives that value, so its
variant stays. -/
theorem literals_keep_variant :
    (∀ number : Int64, ofLiteral (int number).toText = int number) ∧
      (∀ negative magnitude, ofLiteral (real (.finite negative magnitude)).toText =
        real (.finite negative magnitude)) ∧
      (∀ literal, (ofLiteral literal).isText = true → ofLiteral literal = text literal) ∧
      ∀ literal, (ofLiteral literal).Writable →
        ofLiteral (ofLiteral literal).toText = ofLiteral literal :=
  ⟨ofLiteral_decimalText, ofLiteral_finite, fun _ => ofLiteral_of_isText,
    fun _ => ofLiteral_toText_ofLiteral⟩

/-- A word stays the text that it is, and the plus and the zeros of a number are gone for good. -/
theorem literals_keep_variant_words :
    (ofLiteral "e5").isText = true ∧ ofLiteral "e5" = text "e5" ∧
      (ofLiteral "+007").Writable ∧ (ofLiteral "+007").toText = "7" ∧
      ofLiteral "7" = ofLiteral "+007" := by
  have isText : (ofLiteral "e5").isText = true := by decide +kernel
  have number : ofLiteral "+007" = int 7 := by decide +kernel
  have writable : (ofLiteral "+007").Writable := by
    rw [number]
    trivial
  have shorter : (ofLiteral "+007").toText = "7" := by decide +kernel
  have again := literals_keep_variant.2.2.2 "+007" writable
  rw [shorter] at again
  exact ⟨isText, literals_keep_variant.2.2.1 "e5" isText, writable, shorter, again⟩

-- a real that is too large is read as infinite, and its text is a word
example : ofLiteral "1e999" = real (.infinite false) ∧
    ofLiteral (real (.infinite false)).toText = text "inf" := by decide +kernel

end RecordGraph.Value
