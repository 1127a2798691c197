import Reckoner.Command.Arguments

/-!
The program. It prints what its command gives, or reports on the error stream why there is none.
-/

namespace Reckoner.Command

def usage : String :=
  "usage: reckoner tokens TEXT | ast TEXT | validate TEXT | factorial N | combination N K"

def Stop.message : Stop → String
  | .noArguments => usage
  | .unknownVerb => "error: unknown command"
  | .unknownArgument => "error: unexpected argument"
  | .missingArgument => "error: missing argument"
  | .invalidNumber => "error: invalid number"
  | .attachedValue => "error: unexpected value of a flag"
  | .help => usage
  | .version => "reckoner 0.1.0"

def Stop.isAnswer : Stop → Bool
  | .help => true
  | .version => true
  | _ => false

end Reckoner.Command

/-- Runs one command. The status is zero for an answer, one for a failure of the command and two for
arguments that give none. -/
def main (arguments : List String) : IO UInt32 := do
  match Reckoner.Command.ofArguments arguments with
  | .error stop =>
      if stop.isAnswer then
        IO.println stop.message
        return 0
      else
        IO.eprintln stop.message
        return 2
  | .ok command =>
      match command.run with
      | .ok answer =>
          IO.println answer
          return 0
      | .error failure =>
          IO.eprintln ("Error: " ++ failure.message)
          return 1
