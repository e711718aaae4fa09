import MessageCompiler.Build.Tree

/-!
# Schedules

The folders of a tree may be built at the same time. Each has a task of its own, which starts the
tasks of the message folders right below it, waits for a permit if the number of folders at work is
bounded, builds its own files, gives the permit back, and then joins the tasks below, in whatever
order they end. `Step` says what may happen next; a schedule is any sequence of such steps. A tree
build that takes one folder after the other is one schedule of many.

A task owns the tasks that it has started: they are part of it until it joins them.

The own files of a task are built in one step. Tasks that are at work at the same time take turns file by
file, which leaves the same disk as long as no two of them write to one path; where they do, it may leave
a mixture that no schedule here leaves. What is said about the disk in the end is said for tasks that do
not.
-/

namespace MessageCompiler.Build

/-- The message folders directly in a folder. Links to folders are not among them. -/
def messageFolders (disk : Disk) (folder : Path) : List Path :=
  let entries := (disk.list folder).toOption.getD []
  (entries.filter fun entry =>
    (folder.join entry.1).isMessageFolder && entry.2.isFolder).map fun entry => folder.join entry.1

namespace Schedule

/-- How far a task has come that has started the tasks below. -/
inductive Stage where
  /-- It waits for its turn to build its own files. -/
  | queued
  /-- It may build its own files. -/
  | compiling
  /-- It has built its own files. -/
  | compiled (totals : Totals)
  /-- It joins the tasks below, and has come to these totals so far. -/
  | joining (totals : Totals)

namespace Stage

/-- Whether this is between getting a turn to build the own files and giving it up. -/
def isCompiling : Stage → Bool
  | .compiling => true
  | .compiled _ => true
  | _ => false

/-- Whether the tasks below are being joined. -/
def isJoining : Stage → Bool
  | .joining _ => true
  | _ => false

end Stage

/-- The task of a folder. -/
inductive Task where
  /-- It has been started and has done nothing yet. -/
  | ready (folder : Path)
  /-- It is under way: whether it holds a permit, and the tasks below that it has not joined. -/
  | active (folder : Path) (stage : Stage) (permit : Bool) (below : List Task)
  /-- It has come to its end, and these totals wait to be joined. -/
  | finished (totals : Totals)

namespace Task

def isFinished : Task → Bool
  | .finished _ => true
  | _ => false

def isCompiling : Task → Bool
  | .active _ stage _ _ => stage.isCompiling
  | _ => false

/-- Whether the task is joining the tasks below. -/
def isJoining : Task → Bool
  | .active _ stage _ _ => stage.isJoining
  | _ => false

def holdsPermit : Task → Bool
  | .active _ _ permit _ => permit
  | _ => false

mutual

/-- A task and all the tasks that it has started, directly or not, and that are not joined. -/
def all : Task → List Task
  | .ready folder => [.ready folder]
  | .active folder stage permit below => .active folder stage permit below :: allAmong below
  | .finished totals => [.finished totals]

/-- Tasks and all the tasks that they have started. -/
def allAmong : List Task → List Task
  | [] => []
  | task :: rest => all task ++ allAmong rest

end

end Task

/-- The task of the whole tree, and what all tasks share. -/
structure State where
  /-- The permits that nobody holds; none if the number of folders at work is not bounded. -/
  free : Option Nat
  disk : Disk
  task : Task

/-- The state in which only the task of one folder has been started. -/
def State.initial (config : Config) (folder : Path) (disk : Disk) : State :=
  ⟨config.cap, disk, .ready folder⟩

/-- What may happen next. -/
inductive Step (config : Config) (output : Option Path) : State → State → Prop where
  /-- A task looks for message folders and starts their tasks. -/
  | start {free : Option Nat} {disk : Disk} {p : Path} :
    Step config output ⟨free, disk, .ready p⟩
      ⟨free, disk, .active p .queued false ((messageFolders disk p).map .ready)⟩
  /-- A task takes one of the free permits. -/
  | acquire {n : Nat} {disk : Disk} {p : Path} {below : List Task} :
    Step config output ⟨some (n + 1), disk, .active p .queued false below⟩
      ⟨some n, disk, .active p .compiling true below⟩
  /-- A task goes on without a permit, where there is no bound. -/
  | pass {disk : Disk} {p : Path} {below : List Task} :
    Step config output ⟨none, disk, .active p .queued false below⟩
      ⟨none, disk, .active p .compiling false below⟩
  /-- A task builds the files of its folder. -/
  | build {free : Option Nat} {disk : Disk} {p : Path} {permit : Bool} {below : List Task} :
    Step config output ⟨free, disk, .active p .compiling permit below⟩
      ⟨free, (buildFolder config output p disk).disk,
        .active p (.compiled (buildFolder config output p disk).totals) permit below⟩
  /-- A task gives its permit back. -/
  | release {n : Nat} {disk : Disk} {p : Path} {totals : Totals} {below : List Task} :
    Step config output ⟨some n, disk, .active p (.compiled totals) true below⟩
      ⟨some (n + 1), disk, .active p (.joining totals) false below⟩
  /-- A task that holds no permit has none to give back. -/
  | leave {free : Option Nat} {disk : Disk} {p : Path} {totals : Totals} {below : List Task} :
    Step config output ⟨free, disk, .active p (.compiled totals) false below⟩
      ⟨free, disk, .active p (.joining totals) false below⟩
  /-- A task joins any task below that has come to its end, and adds up the totals. -/
  | join {free : Option Nat} {disk : Disk} {p : Path} {totals more : Totals} {permit : Bool}
    {before after : List Task} :
    Step config output
      ⟨free, disk, .active p (.joining totals) permit (before ++ .finished more :: after)⟩
      ⟨free, disk, .active p (.joining (totals + more)) permit (before ++ after)⟩
  /-- A task that has joined all tasks below comes to its end. -/
  | finish {free : Option Nat} {disk : Disk} {p : Path} {totals : Totals} {permit : Bool} :
    Step config output ⟨free, disk, .active p (.joining totals) permit []⟩
      ⟨free, disk, .finished totals⟩
  /-- A task below makes a step of its own. -/
  | inner {free free' : Option Nat} {disk disk' : Disk} {task task' : Task} {p : Path}
    {stage : Stage} {permit : Bool} {before after : List Task} :
    Step config output ⟨free, disk, task⟩ ⟨free', disk', task'⟩ →
    Step config output ⟨free, disk, .active p stage permit (before ++ task :: after)⟩
      ⟨free', disk', .active p stage permit (before ++ task' :: after)⟩

/-- The states that some schedule leads to. -/
inductive Reachable (config : Config) (output : Option Path) (start : State) : State → Prop where
  | refl : Reachable config output start start
  | step {s t : State} :
    Reachable config output start s → Step config output s t → Reachable config output start t

end Schedule

end MessageCompiler.Build
