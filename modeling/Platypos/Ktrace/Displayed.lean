import Platypos.Ktrace.Flush
import Platypos.Ktrace.Scoped

namespace Platypos.Ktrace

open Exec Interleave Schedule

namespace Formatter

variable {S E A : Type}

end Formatter

namespace Flush

variable {T : Type} [DecidableEq T] {s : System T} {schedule : List (T × Act)}

end Flush

end Platypos.Ktrace
