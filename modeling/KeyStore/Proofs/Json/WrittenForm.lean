import KeyStore.Proofs.Json.RoundTrip

/-!
# What is written is JSON

The written form of every value, and of every object whose members are written values, is a text of
the grammar.
-/

namespace KeyStore.Json

theorem digits_append {char : Char} {digits : List Char} (digit : isDigit char = true)
    (allDigits : ∀ char ∈ digits, isDigit char = true) (rest : List Char) :
    Digits (char :: (digits ++ rest)) rest := by
  induction digits generalizing char with
  | nil => exact .last rest digit
  | cons next digits inductionHypothesis =>
      refine .more digit (inductionHypothesis (allDigits next List.mem_cons_self) ?_)
      intro other member
      exact allDigits other (List.mem_cons_of_mem next member)

theorem whole_toDigits (number : Nat) (rest : List Char) :
    Whole (Nat.toDigits 10 number ++ rest) rest := by
  have allDigits : ∀ char ∈ Nat.toDigits 10 number, isDigit char = true :=
    fun _ member => isDigit_of_mem_toDigits member
  cases written : Nat.toDigits 10 number with
  | nil => exact absurd written Nat.toDigits_ne_nil
  | cons first others =>
      rw [written] at allDigits
      have digit := allDigits first List.mem_cons_self
      by_cases zero : first = '0'
      · rw [zero] at written
        rw [zero, (eq_zero_of_toDigits number others written).2]
        exact .zero rest
      · cases others with
        | nil => exact .single rest digit zero
        | cons second others =>
            refine .several digit zero (digits_append ?_ ?_ rest)
            · exact allDigits second (List.mem_cons_of_mem first List.mem_cons_self)
            · intro char member
              exact allDigits char
                (List.mem_cons_of_mem first (List.mem_cons_of_mem second member))

theorem unsigned_toDigits (number : Nat) (rest : List Char) :
    Unsigned (Nat.toDigits 10 number ++ rest) rest :=
  ⟨rest, rest, whole_toDigits number rest, .absent rest, .absent rest⟩

theorem value_writeText (chars rest : List Char) : Value (writeText chars ++ rest) rest := by
  rw [writeText_append]
  exact .string (stringForm_writeText chars rest).body

theorem elements_flatMap {first : List Char} {others : List (List Char)}
    (firstValue : ∀ rest, Value (first ++ rest) rest)
    (values : ∀ text ∈ others, ∀ rest, Value (text ++ rest) rest) (rest : List Char) :
    Elements (first ++ (others.flatMap (',' :: ·) ++ ']' :: rest)) rest := by
  induction others generalizing first with
  | nil => exact .last (.refl _) (firstValue _) (.refl _)
  | cons second others inductionHypothesis =>
      have later := inductionHypothesis (values second List.mem_cons_self)
        fun text member => values text (List.mem_cons_of_mem second member)
      rw [List.flatMap_cons, List.append_assoc, List.cons_append]
      exact .more (.refl _) (firstValue _) (.refl _) later

theorem member_writeMember {member : String × List Char}
    (value : ∀ rest, Value (member.2 ++ rest) rest) (rest : List Char) :
    Member (some member.1, member.2) (writeMember member ++ rest) rest := by
  have named := Name.spelled (stringForm_writeText member.1.toList (':' :: (member.2 ++ rest)))
  rw [String.ofList_toList] at named
  rw [writeMember_append]
  exact .intro (.refl _) named (.refl _) (.refl _) (value rest)

def listed (members : List (String × List Char)) : List (Option String × List Char) :=
  members.map fun member => (some member.1, member.2)

theorem members_flatMap {first : String × List Char} {others : List (String × List Char)}
    (values : ∀ member ∈ first :: others, ∀ rest, Value (member.2 ++ rest) rest)
    (rest : List Char) :
    Members (listed (first :: others))
      (writeMember first ++ ((others.map writeMember).flatMap (',' :: ·) ++ '\x7d' :: rest))
      rest := by
  induction others generalizing first with
  | nil =>
      exact .last (member_writeMember (values first List.mem_cons_self) _) (.refl _)
  | cons second others inductionHypothesis =>
      have later := inductionHypothesis
        fun member isMember => values member (List.mem_cons_of_mem first isMember)
      have part := member_writeMember (values first List.mem_cons_self)
      rw [List.map_cons, List.flatMap_cons, List.append_assoc, List.cons_append]
      exact .more (part _) (.refl _) later

theorem objectText_writeObject {members : List (String × List Char)}
    (values : ∀ member ∈ members, ∀ rest, Value (member.2 ++ rest) rest) :
    ObjectText (listed members) (writeObject members) := by
  cases members with
  | nil => exact .empty (.refl _) (.refl _) (.refl _)
  | cons first others =>
      have inside := members_flatMap values []
      rw [← List.append_assoc, ← intercalate_cons, ← List.map_cons] at inside
      exact .members (.refl _) inside (.refl _)

theorem value_writeObject {members : List (String × List Char)}
    (values : ∀ member ∈ members, ∀ rest, Value (member.2 ++ rest) rest) (rest : List Char) :
    Value (writeObject members ++ rest) rest := by
  rw [writeObject_append]
  cases members with
  | nil => exact .emptyObject (.refl _)
  | cons first others =>
      have inside := members_flatMap values rest
      rw [← List.append_assoc, ← intercalate_cons, ← List.map_cons] at inside
      exact .object inside

theorem value_array {parts : List (List Char)}
    (values : ∀ text ∈ parts, ∀ rest, Value (text ++ rest) rest) (rest : List Char) :
    Value ('[' :: (List.intercalate [','] parts ++ ']' :: rest)) rest := by
  cases parts with
  | nil => exact .emptyArray (.refl _)
  | cons first others =>
      have elements := elements_flatMap (values first List.mem_cons_self)
        (fun text member => values text (List.mem_cons_of_mem first member)) rest
      rw [← List.append_assoc, ← intercalate_cons] at elements
      exact .array elements

mutual

theorem Shape.value_write : (shape : Shape) → ∀ (value : shape.Datum) (rest : List Char),
    Value (shape.write value ++ rest) rest
  | .text, value, rest => by
      rw [Shape.write]
      exact value_writeText _ rest
  | .flag, value, rest => by
      rw [Shape.write]
      cases value with
      | true => exact .trueLiteral rest
      | false => exact .falseLiteral rest
  | .count _ _, value, rest => by
      rw [Shape.write]
      exact .positive (unsigned_toDigits _ rest)
  | .choice tags, index, rest => by
      rw [Shape.write]
      exact value_writeText _ rest
  | .sequence element, values, rest => by
      have parts : ∀ text ∈ List.map element.write values, ∀ rest, Value (text ++ rest) rest := by
        intro text member
        obtain ⟨value, _, rfl⟩ := List.mem_map.mp member
        exact element.value_write value
      rw [Shape.write, List.cons_append, List.cons_append, List.append_assoc]
      exact value_array parts rest
  | .record title sparse fields, values, rest => by
      have object := value_writeObject (fields.value_presentMembers (fields.filled values)) rest
      rw [writeObject, ← fields.writeMembers_eq values] at object
      rw [Shape.write]
      exact object

theorem Fields.value_presentMembers : (fields : Fields) → ∀ (values : fields.Partial),
    ∀ member ∈ fields.presentMembers values, ∀ rest, Value (member.2 ++ rest) rest
  | .nil, _, _, member, _ => absurd member List.not_mem_nil
  | .cons name shape fields, (value, values), member, isMember, rest => by
      have later := fields.value_presentMembers values
      cases value with
      | none => exact later member isMember rest
      | some value =>
          rcases List.mem_cons.mp isMember with rfl | isMember
          · exact shape.value_write value rest
          · exact later member isMember rest

end

end KeyStore.Json
