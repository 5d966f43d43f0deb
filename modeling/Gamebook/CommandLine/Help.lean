import Gamebook.CommandLine.Arguments
set_option autoImplicit false

/-!
# Help on the command line

What is printed when help is asked for, and what is said about a command line that
is wrong.
-/

namespace Gamebook

/-- The options in brief. -/
def usageLines : List Text :=
  ["usage: cyoa [-h] [--seed SEED] [--config CONFIG] [--validate] [--save-config]".toList,
   "            [path]".toList]

/-- The options at length. -/
def helpLines : List Text :=
  usageLines ++
  ["".toList,
   "Play a choose-your-own-adventure story file.".toList,
   "".toList,
   "positional arguments:".toList,
   "  path             Story or bookmark file to play once (prompts for one when".toList,
   "                   omitted).".toList,
   "".toList,
   "options:".toList,
   "  -h, --help       show this help message and exit".toList,
   "  --seed SEED      Seed for weighted transitions.".toList,
   "  --config CONFIG  Path to a JSON config file.".toList,
   "  --validate       Check the story graph and exit instead of playing.".toList,
   "  --save-config    Write the effective settings (including --seed) back to the".toList,
   "                   config file.".toList]

namespace EarlyExit

/-- The status with which the program ends. -/
def status : EarlyExit → Nat
  | .help => 0
  | .misuse _ => 2

/-- The lines that are printed for the reader who asked for them. -/
def output : EarlyExit → List Text
  | .help => helpLines
  | .misuse _ => []

/-- The lines that complain. -/
def complaints : EarlyExit → List Text
  | .help => []
  | .misuse message => usageLines ++ ["cyoa: error: ".toList ++ message]

end EarlyExit

end Gamebook
