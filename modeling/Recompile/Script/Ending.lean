import Recompile.Text.Bytes

/-!
# How a program ends

A program ends by itself with a status, or by a signal. Signals have numbers, and most have a name.
-/

namespace Recompile

namespace Script

/-- The names of the signals up to 31, in the order of their numbers. -/
def signalNames : List String :=
  ["HUP", "INT", "QUIT", "ILL", "TRAP", "ABRT", "BUS", "FPE", "KILL", "USR1", "SEGV", "USR2", "PIPE", "ALRM",
    "TERM", "STKFLT", "CHLD", "CONT", "STOP", "TSTP", "TTIN", "TTOU", "URG", "XCPU", "XFSZ", "VTALRM", "PROF",
    "WINCH", "IO", "PWR", "SYS"]

/-- What the end by a signal up to 31 is called, in the order of their numbers. -/
def signalTexts : List String :=
  ["Hangup", "Interrupt", "Quit", "Illegal instruction", "Trace/breakpoint trap", "Aborted", "Bus error",
    "Floating point exception", "Killed", "User defined signal 1", "Segmentation fault", "User defined signal 2",
    "Broken pipe", "Alarm clock", "Terminated", "Stack fault", "Child exited", "Continued", "Stopped (signal)",
    "Stopped", "Stopped (tty input)", "Stopped (tty output)", "Urgent I/O condition", "CPU time limit exceeded",
    "File size limit exceeded", "Virtual timer expired", "Profiling timer expired", "Window changed",
    "I/O possible", "Power failure", "Bad system call"]

/-- The greatest number of a signal. -/
def maxSignal : Nat := 64

def signalName? (signal : Nat) : Option String := if signal = 0 then none else signalNames[signal - 1]?

/-- What the end by a signal is called. The signals from 34 on have only numbers. -/
def signalText (signal : Nat) : String :=
  match if signal = 0 then none else signalTexts[signal - 1]? with
  | some text => text
  | none =>
    if 34 ≤ signal ∧ signal ≤ maxSignal then "Real-time signal " ++ toString (signal - 34)
    else "Unknown signal " ++ toString signal

/-- The signals whose end of a command a shell does not mention. -/
def quietSignals : List Nat := [2, 13]

/-- The signals that do nothing to a program that does not expect them. -/
def harmlessSignals : List Nat := [17, 18, 23, 28]

/-- **How a program ended.** -/
inductive Ending
  /-- By itself, with a status of which zero stands for success. -/
  | exited (status : Nat)
  /-- By a signal. -/
  | killed (signal : Nat)
deriving DecidableEq, Repr

namespace Ending

/-- How messages refer to an ending. -/
def describe : Ending → String
  | exited status => "exit status: " ++ toString status
  | killed signal =>
    match signalName? signal with
    | some name => "signal: " ++ toString signal ++ " (SIG" ++ name ++ ")"
    | none => "signal: " ++ toString signal

/-- The status by which a shell refers to an ending. -/
def status : Ending → Nat
  | exited status => status
  | killed signal => 128 + signal

end Ending

/-- **What a finished program leaves behind** besides what it did to files. -/
structure Outcome where
  ending : Ending
  out : Bytes
  err : Bytes

end Script

end Recompile
