namespace LineShell

/-!
# Signals

* `Signal` — a signal, by its number.
* `Signal.name` — its name.
* `Signal.ofShortName?` — the signal of a name without its first three letters.
-/

/-- A signal, by its number. -/
structure Signal where
  number : Nat
  deriving DecidableEq

namespace Signal

/-- The signals in use with their names. -/
def table : List (Nat × String) :=
  [(1, "SIGHUP"), (2, "SIGINT"), (3, "SIGQUIT"), (4, "SIGILL"), (5, "SIGTRAP"), (6, "SIGABRT"),
   (7, "SIGBUS"), (8, "SIGFPE"), (9, "SIGKILL"), (10, "SIGUSR1"), (11, "SIGSEGV"),
   (12, "SIGUSR2"), (13, "SIGPIPE"), (14, "SIGALRM"), (15, "SIGTERM"), (16, "SIGSTKFLT"),
   (17, "SIGCHLD"), (18, "SIGCONT"), (19, "SIGSTOP"), (20, "SIGTSTP"), (21, "SIGTTIN"),
   (22, "SIGTTOU"), (23, "SIGURG"), (24, "SIGXCPU"), (25, "SIGXFSZ"), (26, "SIGVTALRM"),
   (27, "SIGPROF"), (28, "SIGWINCH"), (29, "SIGIO"), (30, "SIGPWR"), (31, "SIGSYS")]

/-- The name of a signal. -/
def name (s : Signal) : String :=
  (table.lookup s.number).getD "SIG?"

/-- The signal that a writer gets when nobody can read what it writes. -/
def sigpipe : Signal := ⟨13⟩

/-- The signal whose name is the given one behind the letters all names begin with. -/
def ofShortName? (short : String) : Option Signal :=
  (table.find? fun row => row.2 == "SIG" ++ short).map fun row => ⟨row.1⟩

end Signal

end LineShell
