import StackLang.Number.Numeral

/-!
# Signals

The names of the signals that can end a process. A number without a name is shown as it is.

## Main definitions

* `Signal.names`: the names
* `Signal.nameOf`: the name of a signal, or its number
-/

namespace StackLang

namespace Signal

/-- The signals with a name. Of the signals for applications only the first and the last one have
a name. -/
def names : List (Int × String) :=
  [(1, "SIGHUP"), (2, "SIGINT"), (3, "SIGQUIT"), (4, "SIGILL"), (5, "SIGTRAP"), (6, "SIGABRT"),
    (7, "SIGBUS"), (8, "SIGFPE"), (9, "SIGKILL"), (10, "SIGUSR1"), (11, "SIGSEGV"),
    (12, "SIGUSR2"), (13, "SIGPIPE"), (14, "SIGALRM"), (15, "SIGTERM"), (16, "SIGSTKFLT"),
    (17, "SIGCHLD"), (18, "SIGCONT"), (19, "SIGSTOP"), (20, "SIGTSTP"), (21, "SIGTTIN"),
    (22, "SIGTTOU"), (23, "SIGURG"), (24, "SIGXCPU"), (25, "SIGXFSZ"), (26, "SIGVTALRM"),
    (27, "SIGPROF"), (28, "SIGWINCH"), (29, "SIGIO"), (30, "SIGPWR"), (31, "SIGSYS"),
    (34, "SIGRTMIN"), (64, "SIGRTMAX")]

/-- The name of a signal, or its number. -/
def nameOf (number : Int) : String := (names.lookup number).getD (Number.int number)

end Signal

end StackLang
