/-
A launch inside a systemd user scope: the arguments that wrap an agent's
command, and how the command is recognized in them again. systemd expands
`$` in what it is given, so the wrapper doubles each one.

`scoped_launch_read_back`: recognition returns the command that was wrapped,
and the expansion leaves its arguments as they were.
-/
import Mathlib.Data.List.TakeWhile
import Atmux.Lib.Text
import Atmux.MemoryCaps

namespace Atmux.SystemdScope

open Lib Text Resources

def systemdRun : String := "/usr/bin/systemd-run"

def env : String := "/usr/bin/env"

/-! ## Wrapping a command -/

structure UserBusEnvironment where
  runtimeDir : String
  busAddress : String

/-- The environment of the user with this id. -/
def userBusEnvironment (uid : String) : UserBusEnvironment :=
  let runtimeDir := "/run/user/" ++ uid
  { runtimeDir, busAddress := "unix:path=" ++ runtimeDir ++ "/bus" }

/-- systemd's literal dollar is two of them. -/
def escapeDollars (argument : String) : String := String.ofList (double '$' argument.toList)

def unescapeDollars (argument : String) : Option String := (undouble '$' argument.toList).map String.ofList

/-- What systemd makes of a literal dollar: `$$` becomes `$`, from left to right. -/
def expandDollars (argument : String) : String := String.ofList (collapse '$' argument.toList)

def systemdRunArgv (userBus : UserBusEnvironment) (unit : String) (memoryMaxBytes : U64) (command : List String) :
    List String :=
  [env, "XDG_RUNTIME_DIR=" ++ userBus.runtimeDir, "DBUS_SESSION_BUS_ADDRESS=" ++ userBus.busAddress, systemdRun,
    "--user", "--scope", "--quiet", "--collect", "--unit=" ++ unit,
    "--property=MemoryMax=" ++ toString memoryMaxBytes.val] ++ "--" :: command.map escapeDollars

/-! ## Recognizing the wrapper -/

def validScopeName (value : List Char) : Bool :=
  "atmux-tmux-".toList.isPrefixOf value && ".scope".toList.isSuffixOf value && decide (utf8Size value ≤ 128) &&
    value.all fun c => c.isAlphanum || c == '-' || c == '.'

def isUserRuntimeDir (runtimeDir : List Char) : Bool :=
  (strip "/run/user/".toList runtimeDir).any fun uid => !uid.isEmpty && uid.all Char.isDigit

def isUnit (arg : String) : Bool := (strip "--unit=".toList arg.toList).any validScopeName

def isMemoryMax (arg : String) : Bool :=
  ((strip "--property=MemoryMax=".toList arg.toList).bind (parseUnsigned 0x10000000000000000)).any fun value =>
    decide (0 < value)

/-- The agent's command in a wrapper of this module. -/
def agentArgv (argv : List String) : Option (List String) := do
  let runtimeDir ← argv[1]?.bind fun arg => strip "XDG_RUNTIME_DIR=".toList arg.toList
  let busAddress ← argv[2]?.bind fun arg => strip "DBUS_SESSION_BUS_ADDRESS=".toList arg.toList
  if argv.head? ≠ some env || !isUserRuntimeDir runtimeDir
      || busAddress ≠ "unix:path=".toList ++ runtimeDir ++ "/bus".toList
      || argv[3]? ≠ some systemdRun || !argv.any (· == "--user") || !argv.any (· == "--scope")
      || !argv.any isUnit || !argv.any isMemoryMax then
    none
  else
    let delimiter ← argv.findIdx? (· == "--")
    if delimiter + 1 < argv.length then (argv.drop (delimiter + 1)).mapM unescapeDollars else none

/-! ## What is wrapped is read back -/

theorem unescapeDollars_escapeDollars (argument : String) : unescapeDollars (escapeDollars argument) = some argument := by
  simp [unescapeDollars, escapeDollars, undouble_double]

theorem expandDollars_escapeDollars (argument : String) : expandDollars (escapeDollars argument) = argument := by
  simp [expandDollars, escapeDollars, collapse_double]

theorem unescapeDollars_isSome {text : String} :
    (unescapeDollars text).isSome ↔ ∃ argument, escapeDollars argument = text := by
  rw [unescapeDollars, Option.isSome_map, undouble_isSome]
  constructor
  · intro ⟨plain, hplain⟩
    exact ⟨String.ofList plain, by simp [escapeDollars, hplain]⟩
  · intro ⟨argument, hargument⟩
    exact ⟨argument.toList, by simp [← hargument, escapeDollars]⟩

theorem mapM_unescapeDollars (command : List String) : (command.map escapeDollars).mapM unescapeDollars = some command := by
  induction command with
  | nil => rfl
  | cons argument command ih => simp [unescapeDollars_escapeDollars, ih]

theorem append_ne_delimiter (start text : String) (h : 2 < start.length) : start ++ text ≠ "--" := by
  intro heq
  have hlength : start.length + text.length = 2 := by rw [← String.length_append, heq]; rfl
  omega

/-- None of the wrapper's own ten arguments is the delimiter. -/
theorem systemdRunArgv_split (userBus : UserBusEnvironment) (unit : String) (memoryMaxBytes : U64)
    (command : List String) :
    ∃ front : List String, front.length = 10 ∧ (∀ arg ∈ front, arg ≠ "--") ∧
      systemdRunArgv userBus unit memoryMaxBytes command = front ++ "--" :: command.map escapeDollars := by
  refine ⟨_, ?_, ?_, rfl⟩
  · rfl
  · have hruntime := append_ne_delimiter "XDG_RUNTIME_DIR=" userBus.runtimeDir (by decide)
    have hbus := append_ne_delimiter "DBUS_SESSION_BUS_ADDRESS=" userBus.busAddress (by decide)
    have hunit := append_ne_delimiter "--unit=" unit (by decide)
    have hmemory := append_ne_delimiter "--property=MemoryMax=" memoryMaxBytes.val.repr (by decide)
    simp [env, systemdRun, hruntime, hbus, hunit, hmemory]

theorem findIdx_systemdRunArgv (userBus : UserBusEnvironment) (unit : String) (memoryMaxBytes : U64)
    (command : List String) :
    (systemdRunArgv userBus unit memoryMaxBytes command).findIdx? (· == "--") = some 10 := by
  obtain ⟨front, hlength, hfront, heq⟩ := systemdRunArgv_split userBus unit memoryMaxBytes command
  have hnone : front.findIdx? (· == "--") = none := List.findIdx?_eq_none_iff.mpr fun arg harg => by simp [hfront arg harg]
  simp [heq, List.findIdx?_append, hnone, List.findIdx?_cons, hlength]

theorem strip_start (start text : String) : strip start.toList (start ++ text).toList = some text.toList := by
  rw [String.toList_append, strip_append]

theorem isUnit_append {unit : String} (h : validScopeName unit.toList = true) : isUnit ("--unit=" ++ unit) = true := by
  rw [isUnit, strip_start]
  exact h

theorem isMemoryMax_append {memoryMaxBytes : U64} (h : 0 < memoryMaxBytes) :
    isMemoryMax ("--property=MemoryMax=" ++ toString memoryMaxBytes.val) = true := by
  rw [isMemoryMax, strip_start, Option.bind_some, parseUnsigned_toString memoryMaxBytes.isLt]
  exact decide_eq_true h

theorem isUserRuntimeDir_append {uid : String} (hne : uid ≠ "") (hdigits : ∀ c ∈ uid.toList, c.isDigit = true) :
    isUserRuntimeDir ("/run/user/" ++ uid).toList = true := by
  rw [isUserRuntimeDir, strip_start]
  simpa [hne] using hdigits

theorem agentArgv_systemdRunArgv {uid unit : String} {memoryMaxBytes : U64} {command : List String} (hne : uid ≠ "")
    (hdigits : ∀ c ∈ uid.toList, c.isDigit = true) (hunit : validScopeName unit.toList = true)
    (hmemory : 0 < memoryMaxBytes) (hcommand : command ≠ []) :
    agentArgv (systemdRunArgv (userBusEnvironment uid) unit memoryMaxBytes command) = some command := by
  generalize hargv : systemdRunArgv (userBusEnvironment uid) unit memoryMaxBytes command = argv
  have hruntime : argv[1]? = some ("XDG_RUNTIME_DIR=" ++ ("/run/user/" ++ uid)) := by rw [← hargv]; rfl
  have hbus : argv[2]? = some ("DBUS_SESSION_BUS_ADDRESS=" ++ ("unix:path=" ++ ("/run/user/" ++ uid) ++ "/bus")) := by
    rw [← hargv]; rfl
  have henv : argv.head? = some env := by rw [← hargv]; rfl
  have hrun : argv[3]? = some systemdRun := by rw [← hargv]; rfl
  have hmem : ∀ arg ∈ ["--user", "--scope", "--unit=" ++ unit, "--property=MemoryMax=" ++ toString memoryMaxBytes.val],
      arg ∈ argv := by
    intro arg harg
    rw [← hargv, systemdRunArgv]
    simp only [List.mem_cons, List.not_mem_nil, or_false] at harg
    rcases harg with rfl | rfl | rfl | rfl <;> simp only [List.mem_append, List.mem_cons, true_or, or_true]
  have huser : argv.any (· == "--user") = true := List.any_eq_true.mpr ⟨_, hmem "--user" (by simp), by simp⟩
  have hscope : argv.any (· == "--scope") = true := List.any_eq_true.mpr ⟨_, hmem "--scope" (by simp), by simp⟩
  have hunitArg : argv.any isUnit = true := List.any_eq_true.mpr ⟨_, hmem _ (by simp), isUnit_append hunit⟩
  have hmemoryArg : argv.any isMemoryMax = true :=
    List.any_eq_true.mpr ⟨_, hmem _ (by simp), isMemoryMax_append hmemory⟩
  have hdelimiter : argv.findIdx? (· == "--") = some 10 := by rw [← hargv]; exact findIdx_systemdRunArgv ..
  have hdrop : argv.drop (10 + 1) = command.map escapeDollars := by rw [← hargv]; rfl
  have hlength : 10 + 1 < argv.length := by
    have hlen := congrArg List.length hdrop
    have hpos := List.length_pos_iff.mpr hcommand
    simp only [List.length_drop, List.length_map] at hlen
    omega
  rw [agentArgv, hruntime, hbus, Option.bind_some, Option.bind_some, strip_start, strip_start]
  have haddress : ("unix:path=" ++ ("/run/user/" ++ uid) ++ "/bus").toList =
      "unix:path=".toList ++ ("/run/user/" ++ uid).toList ++ "/bus".toList := by
    rw [String.toList_append, String.toList_append]
  have hdir := isUserRuntimeDir_append hne hdigits
  generalize ("/run/user/" ++ uid).toList = runtimeDir at haddress hdir ⊢
  simp only [Option.bind_eq_bind, Option.bind_some, henv, hrun, huser, hscope, hunitArg, hmemoryArg, hdelimiter, hdir,
    haddress, if_pos hlength, hdrop, mapM_unescapeDollars]
  simp

/-! ## The round trip -/

/-- What follows the wrapper's delimiter. -/
def wrapped (argv : List String) : List String := (argv.dropWhile (· ≠ "--")).tail

theorem wrapped_systemdRunArgv (userBus : UserBusEnvironment) (unit : String) (memoryMaxBytes : U64)
    (command : List String) :
    wrapped (systemdRunArgv userBus unit memoryMaxBytes command) = command.map escapeDollars := by
  obtain ⟨front, -, hfront, heq⟩ := systemdRunArgv_split userBus unit memoryMaxBytes command
  have hdrop : front.dropWhile (· ≠ "--") = [] := List.dropWhile_eq_nil_iff.2 fun arg harg => by simp [hfront arg harg]
  rw [wrapped, heq, List.dropWhile_append, hdrop]
  simp

/-- **A scoped launch is read back.** Recognition returns the command, the
expansion of what is wrapped leaves it, and the reading of dollars is defined
on what their doubling writes. -/
theorem scoped_launch_read_back {uid unit : String} {memoryMaxBytes : U64} {command : List String} (hne : uid ≠ "")
    (hdigits : ∀ c ∈ uid.toList, c.isDigit = true) (hunit : validScopeName unit.toList = true)
    (hmemory : 0 < memoryMaxBytes) (hcommand : command ≠ []) :
    agentArgv (systemdRunArgv (userBusEnvironment uid) unit memoryMaxBytes command) = some command ∧
      (wrapped (systemdRunArgv (userBusEnvironment uid) unit memoryMaxBytes command)).map expandDollars = command ∧
      ∀ text, (unescapeDollars text).isSome ↔ ∃ argument, escapeDollars argument = text := by
  refine ⟨agentArgv_systemdRunArgv hne hdigits hunit hmemory hcommand, ?_, fun text => unescapeDollars_isSome⟩
  rw [wrapped_systemdRunArgv, List.map_map]
  have hexpand : expandDollars ∘ escapeDollars = id := funext expandDollars_escapeDollars
  rw [hexpand, List.map_id]

/-- Runs of dollars and the wrapper's own words in a command. -/
theorem scoped_launch_read_back_example :
    agentArgv (systemdRunArgv (userBusEnvironment "1000") "atmux-tmux-spawn-1.scope" 5
        ["claude", "$$$", "--", "--unit=$x"]) = some ["claude", "$$$", "--", "--unit=$x"] :=
  (scoped_launch_read_back (by decide) (by decide) (by decide) (by decide) (by decide)).1

end Atmux.SystemdScope
