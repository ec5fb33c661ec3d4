/-!
# Environments

The variables that a program finds set when it starts.
-/

namespace KeyStore

/-- The values of the variables that are set. -/
abbrev Environment := String → Option String

namespace Environment

/-- The name and the value of an entry `NAME=value`. The name is not empty. -/
def nameAndValue? (entry : String) : Option (String × String) :=
  match entry.toList.span (· ≠ '=') with
  | (first :: rest, _ :: value) => some (String.ofList (first :: rest), String.ofList value)
  | _ => none

/-- The environment of a list of entries, of which the first of a name counts. -/
def ofEntries (entries : List String) : Environment := fun name =>
  (entries.filterMap nameAndValue?).lookup name

/-- Sets a variable, unless it is set already. -/
def supply (environment : Environment) (name value : String) : Environment := fun other =>
  (environment other).or (if other = name then some value else none)

/-- The value that a name has among the entries `NAME=value` of the environment. A name that holds
an equals sign goes on into the value of the variable in front of the sign; what is left of that
value behind a further equals sign is the value of the name. -/
def valueOf? (environment : Environment) (name : List Char) : Option (List Char) :=
  match name.dropWhile (· ≠ '=') with
  | [] => (environment (String.ofList name)).map String.toList
  | _ :: start => do
      let value ← environment (String.ofList (name.takeWhile (· ≠ '=')))
      if (start ++ ['=']).isPrefixOf value.toList then
        return value.toList.drop (start.length + 1)
      else
        none

/-- A name without an equals sign has the value of its variable. -/
theorem valueOf?_of_notMem {name : List Char} (absent : '=' ∉ name) (environment : Environment) :
    environment.valueOf? name = (environment (String.ofList name)).map String.toList := by
  have nothing : name.dropWhile (· ≠ '=') = [] := by
    induction name with
    | nil => rfl
    | cons char rest inductionHypothesis =>
        simp only [List.mem_cons, not_or] at absent
        simpa [Ne.symm absent.1] using inductionHypothesis absent.2
  simp only [valueOf?, nothing]

end Environment

end KeyStore
