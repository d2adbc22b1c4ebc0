import SdkWiring.CommandLine.Wrap
import SdkWiring.Problem

/-!
# Reports of problems

A problem is reported with its code, its message and, if there is some, advice, in lines of at most
78 columns.

* `Problem.report`: the report of a problem.
-/

namespace SdkWiring

/-- The number of columns of a report. -/
def reportWidth : Nat := 78

/-- Lines, each with its line feed. -/
def unlines (lines : List Text) : String :=
  String.ofList (lines.flatMap fun line => line ++ ['\n'])

/-- The report of a problem. What is wrong with a malformed settings file is not told. -/
def Problem.report (p : Problem) : String :=
  match p with
  | .malformedSettings => "<toml error>"
  | p =>
    let message := Wrap.fill reportWidth "  x ".toList "  | ".toList p.message.toList
    let help :=
      match p.help? with
      | none => []
      | some help => Wrap.fill reportWidth "  help: ".toList "        ".toList help.toList
    p.code ++ "\n\n" ++ unlines (message ++ help) ++ "\n"

end SdkWiring
