import AggregateQuery.CommandLine.Run
/-!
The program. Everything it decides is in `CommandLine.run`; here it is given the environment, the
files and the two outputs.
-/
namespace AggregateQuery

def thisMachine : Machine IO where
  environment? name := IO.getEnv name
  file? path := try some <$> IO.FS.readFile path catch _ => return none

end AggregateQuery

def main (arguments : List String) : IO UInt32 := do
  let outcome ← AggregateQuery.CommandLine.run AggregateQuery.thisMachine arguments
  IO.print outcome.stdout
  IO.eprint outcome.stderr
  return outcome.exit.toUInt32
