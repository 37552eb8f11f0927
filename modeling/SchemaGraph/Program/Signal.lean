/-!
# Signals

The numbers and names of the signals that end programs.
-/

namespace SchemaGraph.Signal

/-- The signals with names, by their numbers. -/
def names : List (Nat × String) :=
  [(1, "SIGHUP"), (2, "SIGINT"), (3, "SIGQUIT"), (4, "SIGILL"), (5, "SIGTRAP"), (6, "SIGABRT"),
    (7, "SIGBUS"), (8, "SIGFPE"), (9, "SIGKILL"), (10, "SIGUSR1"), (11, "SIGSEGV"),
    (12, "SIGUSR2"), (13, "SIGPIPE"), (14, "SIGALRM"), (15, "SIGTERM"), (16, "SIGSTKFLT"),
    (17, "SIGCHLD"), (18, "SIGCONT"), (19, "SIGSTOP"), (20, "SIGTSTP"), (21, "SIGTTIN"),
    (22, "SIGTTOU"), (23, "SIGURG"), (24, "SIGXCPU"), (25, "SIGXFSZ"), (26, "SIGVTALRM"),
    (27, "SIGPROF"), (28, "SIGWINCH"), (29, "SIGIO"), (30, "SIGPWR"), (31, "SIGSYS")]

/-- The names of the signals that have no use of their own, which are counted from both ends. -/
def spareNames : List (Nat × String) :=
  (List.range 31).map fun i =>
    (34 + i,
      if i = 0 then "SIGRTMIN"
      else if i ≤ 15 then "SIGRTMIN+" ++ toString i
      else if i < 30 then "SIGRTMAX-" ++ toString (30 - i)
      else "SIGRTMAX")

/-- The names by which shells know signals, one of which plain shells know by its number only. -/
def shellNames (full : Bool) : List (Nat × String) :=
  names.filter (fun signal => full || signal.2 ≠ "SIGSTKFLT") ++ spareNames

/-- What shells say of programs that a signal has ended. -/
def remarks : List (Nat × String) :=
  [(1, "Hangup"), (3, "Quit"), (4, "Illegal instruction"), (5, "Trace/breakpoint trap"),
    (6, "Aborted"), (7, "Bus error"), (8, "Floating point exception"), (9, "Killed"),
    (10, "User defined signal 1"), (11, "Segmentation fault"), (12, "User defined signal 2"),
    (14, "Alarm clock"), (15, "Terminated"), (16, "Stack fault"), (24, "CPU time limit exceeded"),
    (25, "File size limit exceeded"), (26, "Virtual timer expired"),
    (27, "Profiling timer expired"), (29, "I/O possible"), (30, "Power failure"),
    (31, "Bad system call")]

/-- The greatest number of a signal. -/
def greatest : Nat := 64

/-- Whether a program can ignore a signal. -/
def canBeIgnored (number : Nat) : Bool :=
  number ≠ 9 && number ≠ 19

/-- The signals that do not end a program. -/
def harmless : List Nat :=
  [0, 17, 18, 19, 20, 21, 22, 23, 28]

/-- The number of the signal that a text means: a number, or a name in letters of any case. Only
with `full` names may a name start with `SIG`. -/
def number? (full : Bool) (text : String) : Option Nat :=
  match text.toNat? with
  | some n => if n ≤ greatest then some n else none
  | none =>
    let name := String.ofList (text.toList.map Char.toUpper)
    ((shellNames full).find? fun signal =>
      signal.2 = "SIG" ++ name || (full && signal.2 = name)).map (·.1)

end SchemaGraph.Signal
