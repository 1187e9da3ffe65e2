import Iperf3Rs.ArgSpelling
import Iperf3Rs.CliLifecycle
import Iperf3Rs.FileLabels
import Iperf3Rs.UpstreamParse

/-! The exit status of the CLI, and what it prints itself: what the options, the native calls and
the threads come to has to be right throughout, and nothing else. -/

namespace Iperf3Rs

open Scoped

namespace Cli

variable {Url F : Type} {P : Platform Url} {env : CliEnv F} {app : AppOptions Url}

section Parsed

variable {lib : Libiperf} {vars : Env} {args forwarded : List String}

end Parsed

section Printing

/-- Nothing that is printed in place of a measurement. -/
def Quiet (e : CliEffect) : Prop := (∀ usage, e ≠ .printHelp usage) ∧ e ≠ .printVersion

end Printing

section Status

variable {lib : Libiperf} {vars : Env} {quoted : String → String} {args : List String}
  {raw : List (Option String)}

variable {B : NativeBoundary}

end Status

end Cli

end Iperf3Rs
