import Waymark.Layout
import Waymark.Text.Integer
/-!
# Command lines

The commands and the arguments that they are written with. An option stands before or behind the
operands of its command; the one for the configuration directory is known to every command.
-/

namespace Waymark

inductive Action where
  | list
  | get (name : String)
  | set (name value : String)
  deriving DecidableEq

inductive Command where
  | history
  | visit (path : Path) (name : Option String)
  | back (step : Nat)
  | forward (step : Nat)
  | forget (root : String)
  | prune
  | clear
  | favorites
  | favorite (path : Path)
  | settings (instanceName : Option String) (action : Action)
  | backup
  deriving DecidableEq

inductive Invocation where
  | version
  | run (layout : Layout) (command : Command)
  deriving DecidableEq

namespace CommandLine

inductive Stop where
  | usage
  | version
  | help
  deriving DecidableEq

inductive Form where
  | text
  | path
  | step
  deriving DecidableEq

def Form.admits : Form → String → Bool
  | .text, _ => true
  | .path, given => !given.isEmpty
  | .step, given => (Text.count64? given).isSome

structure Level where
  options : List (String × Form)
  operands : List Form
  commands : List String
  hasVersion : Bool

structure Gathered where
  values : List (String × String)
  operands : List String
  /-- A further command and the arguments behind it. -/
  command : Option (String × List String)

namespace Gathered

def value? (gathered : Gathered) (option : String) : Option String :=
  (gathered.values.find? fun value => value.1 = option).map Prod.snd

end Gathered

def directoryOption : String :=
  "config-dir"

def isOption (argument : String) : Bool :=
  argument.startsWith "-" && argument ≠ "-"

def splitOption (argument : String) : String × Option String :=
  let text := argument.toList.drop 2
  let name := String.ofList (text.takeWhile (· ≠ '='))
  match text.dropWhile (· ≠ '=') with
  | [] => (name, none)
  | _ :: value => (name, some (String.ofList value))

def addOperand (level : Level) (gathered : Gathered) (operand : String) : Except Stop Gathered :=
  match level.operands[gathered.operands.length]? with
  | none => .error .usage
  | some form =>
      if form.admits operand then
        .ok { gathered with operands := gathered.operands ++ [operand] }
      else .error .usage

def addValue (level : Level) (gathered : Gathered) (option value : String) :
    Except Stop Gathered :=
  match ((directoryOption, .path) :: level.options).lookup option with
  | none => .error .usage
  | some form =>
      if (gathered.value? option).isNone && form.admits value then
        .ok { gathered with values := gathered.values ++ [(option, value)] }
      else .error .usage

def stop? (level : Level) (argument : String) : Option Stop :=
  if argument = "--help" || argument.startsWith "-h" then some .help
  else if level.hasVersion && (argument = "--version" || argument.startsWith "-V") then
    some .version
  else none

/-- Arguments are taken from left to right, so that a wrong one counts before a question for help
behind it. Behind two dashes everything is an operand. -/
def gather (level : Level) (gathered : Gathered) : List String → Except Stop Gathered
  | [] => .ok gathered
  | argument :: arguments =>
      if argument = "--" then arguments.foldlM (addOperand level) gathered
      else if isOption argument then
        match stop? level argument with
        | some stop => .error stop
        | none =>
            if !argument.startsWith "--" then .error .usage
            else
              match splitOption argument, arguments with
              | (option, some value), arguments => do
                  gather level (← addValue level gathered option value) arguments
              | (_, none), [] => .error .usage
              | (option, none), value :: arguments =>
                  if isOption value then .error .usage
                  else do gather level (← addValue level gathered option value) arguments
      else if level.commands.isEmpty then do
        gather level (← addOperand level gathered argument) arguments
      else if level.commands.contains argument then
        .ok { gathered with command := some (argument, arguments) }
      else .error .usage

def gatherAll (level : Level) (arguments : List String) : Except Stop Gathered :=
  gather level ⟨[], [], none⟩ arguments

def topLevel : Level :=
  ⟨[], [], ["history", "visit", "back", "forward", "forget", "prune", "clear", "favorites",
    "favorite", "settings", "backup"], true⟩

def settingsLevel : Level :=
  ⟨[("instance", .text)], [], ["list", "get", "set"], false⟩

def level (options : List (String × Form)) (operands : List Form) : Level :=
  ⟨options, operands, [], false⟩

def levelOf (command : String) : Level :=
  if command = "visit" then level [("name", .text)] [.path]
  else if command = "back" || command = "forward" then level [("step", .step)] []
  else if command = "forget" then level [] [.text]
  else if command = "favorite" then level [] [.path]
  else if command = "settings" then settingsLevel
  else level [] []

def operandsOf (action : String) : List Form :=
  if action = "set" then [.text, .text] else if action = "get" then [.text] else []

def stepOf (text : Option String) : Except Stop Nat :=
  match text with
  | none => .ok 1
  | some text => (Text.count64? text).elim (.error .usage) .ok

def actionOf (name : String) (operands : List String) : Except Stop Action :=
  match name, operands with
  | "list", [] => .ok .list
  | "get", [name] => .ok (.get name)
  | "set", [name, value] => .ok (.set name value)
  | _, _ => .error .usage

def commandOf (name : String) (gathered : Gathered) : Except Stop Command :=
  match name, gathered.operands with
  | "history", [] => .ok .history
  | "visit", [path] => .ok (.visit ⟨path⟩ (gathered.value? "name"))
  | "back", [] => return .back (← stepOf (gathered.value? "step"))
  | "forward", [] => return .forward (← stepOf (gathered.value? "step"))
  | "forget", [root] => .ok (.forget root)
  | "prune", [] => .ok .prune
  | "clear", [] => .ok .clear
  | "favorites", [] => .ok .favorites
  | "favorite", [path] => .ok (.favorite ⟨path⟩)
  | "backup", [] => .ok .backup
  | _, _ => .error .usage

def commandIn (arguments : List String) : Except Stop (List (Option String) × Command) := do
  let top ← gatherAll topLevel arguments
  let some (name, arguments) := top.command | .error .usage
  let inner ← gatherAll (levelOf name) arguments
  let given := [top.value? directoryOption, inner.value? directoryOption]
  match inner.command with
  | some (action, arguments) =>
      let innermost ← gatherAll (level [] (operandsOf action)) arguments
      let action ← actionOf action innermost.operands
      return (given ++ [innermost.value? directoryOption],
        .settings (inner.value? "instance") action)
  | none => return (given, ← commandOf name inner)

/-- The innermost directory that is given counts; where none is given at a level, the surroundings
may not name an empty one. -/
def layoutOf (surroundings : Surroundings) (given : List (Option String)) : Except Stop Layout :=
  if surroundings.configuration = some "" && given.contains none then .error .usage
  else
    match given.reverse.findSome? id with
    | some directory => .ok ⟨⟨directory⟩⟩
    | none => .ok (.of surroundings)

def parse (surroundings : Surroundings) (arguments : List String) : Except Stop Invocation :=
  match commandIn arguments with
  | .error .version => .ok .version
  | .error stop => .error stop
  | .ok (given, command) =>
      (layoutOf surroundings given).map fun layout => .run layout command

end CommandLine
end Waymark
