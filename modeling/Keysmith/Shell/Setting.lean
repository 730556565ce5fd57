/-! # Settings of a shell

What `set` switches on and off, by a letter or by a name. -/

namespace Keysmith.Shell

/-- Something that is on or off. -/
inductive Setting where
  /-- A failing command makes the shell exit. -/
  | errexit
  /-- Patterns are not replaced by names of files. -/
  | noglob
  | ignoreeof
  | interactive
  | monitor
  /-- Commands are read and not run. -/
  | noexec
  /-- Commands are read from the standard input. -/
  | stdin
  /-- Commands are shown before they are run. -/
  | xtrace
  /-- Lines are shown as they are read. -/
  | verbose
  | vi
  | emacs
  /-- Redirections do not overwrite files. -/
  | noclobber
  /-- Variables that are assigned are exported. -/
  | allexport
  | notify
  /-- An unset variable is a mistake. -/
  | nounset
  | privileged
  | nolog
  | debug
  deriving DecidableEq, Repr

namespace Setting

/-- All settings with their names and letters, in the order in which they are listed. -/
def table : List (Setting × String × Option Char) :=
  [(errexit, "errexit", some 'e'), (noglob, "noglob", some 'f'),
   (ignoreeof, "ignoreeof", some 'I'), (interactive, "interactive", some 'i'),
   (monitor, "monitor", some 'm'), (noexec, "noexec", some 'n'), (stdin, "stdin", some 's'),
   (xtrace, "xtrace", some 'x'), (verbose, "verbose", some 'v'), (vi, "vi", some 'V'),
   (emacs, "emacs", some 'E'), (noclobber, "noclobber", some 'C'),
   (allexport, "allexport", some 'a'), (notify, "notify", some 'b'),
   (nounset, "nounset", some 'u'), (privileged, "privileged", some 'p'),
   (nolog, "nolog", none), (debug, "debug", none)]

/-- The setting of a letter. -/
def ofLetter? (c : Char) : Option Setting := (table.find? (·.2.2 == some c)).map Prod.fst

/-- The setting of a name. -/
def ofName? (name : String) : Option Setting := (table.find? (·.2.1 == name)).map Prod.fst

/-- The settings after one is switched.  There is one editor at most. -/
def switch (settings : List Setting) (x : Setting) (on : Bool) : List Setting :=
  let others := settings.filter (· != x)
  if !on then others
  else match x with
    | vi => x :: others.filter (· != emacs)
    | emacs => x :: others.filter (· != vi)
    | _ => x :: others

/-- The letters of the settings that are on, the last one of the table first. -/
def letters (settings : List Setting) : String :=
  String.ofList ((table.reverse.filter (settings.contains ·.1)).filterMap (·.2.2))

end Setting

end Keysmith.Shell
