/-!
# Separated fields

A text is cut at every separator. There is one field more than there are separators, so a text
always has a first field; joining the fields with the separator gives the text back.
-/

namespace KeyStore

/-- The text in front of the first separator, and the fields behind it. -/
def cutFields (separator : Char) : List Char → List Char × List (List Char)
  | [] => ([], [])
  | char :: rest =>
      let (field, fields) := cutFields separator rest
      if char = separator then ([], field :: fields) else (char :: field, fields)

def splitFields (separator : Char) (text : List Char) : List (List Char) :=
  let (field, fields) := cutFields separator text
  field :: fields

/-- In front of a text, characters that are no separators belong to its first field. -/
theorem cutFields_append {separator : Char} {field : List Char}
    (absent : separator ∉ field) (text : List Char) :
    cutFields separator (field ++ text) =
      (field ++ (cutFields separator text).1, (cutFields separator text).2) := by
  induction field with
  | nil => rfl
  | cons char others inductionHypothesis =>
      simp only [List.mem_cons, not_or] at absent
      simp only [List.cons_append, cutFields, inductionHypothesis absent.2,
        if_neg (Ne.symm absent.1)]

theorem splitFields_of_notMem {separator : Char} {text : List Char}
    (absent : separator ∉ text) : splitFields separator text = [text] := by
  have cut := cutFields_append absent []
  rw [List.append_nil] at cut
  simp only [splitFields, cut, cutFields, List.append_nil]

/-- A field that ends at a separator stands in front of the fields of the rest. -/
theorem splitFields_append {separator : Char} {field : List Char}
    (absent : separator ∉ field) (rest : List Char) :
    splitFields separator (field ++ separator :: rest) = field :: splitFields separator rest := by
  simp only [splitFields, cutFields_append absent, cutFields, if_true, List.append_nil]

/-- Around a separator the fields are those of the text before it and those of the text behind. -/
theorem splitFields_separator (separator : Char) (before behind : List Char) :
    splitFields separator (before ++ separator :: behind) =
      splitFields separator before ++ splitFields separator behind := by
  have cut : cutFields separator (before ++ separator :: behind) =
      ((cutFields separator before).1,
        (cutFields separator before).2 ++ splitFields separator behind) := by
    induction before with
    | nil => simp only [List.nil_append, cutFields, if_true, splitFields]
    | cons char others inductionHypothesis =>
        rw [List.cons_append, cutFields, inductionHypothesis, cutFields]
        by_cases same : char = separator
        · simp only [same, if_true, List.cons_append]
        · simp only [same, if_false]
  simp only [splitFields, cut, List.cons_append]

end KeyStore
