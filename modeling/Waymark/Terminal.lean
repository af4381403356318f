import Waymark.Json.Record
/-!
# Terminals

A terminal that can be opened on a location. The mark `{0}` in its command line stands for the
path of the location.
-/

namespace Waymark

open Json

structure Terminal where
  key : String
  name : String
  commandLine : String
  changeDirectory : Option String
  isSubsystem : Bool
  followsShell : Bool
  deriving DecidableEq

namespace Terminal

def members (terminal : Terminal) : List (String × Json) :=
  [("key", .string terminal.key), ("displayName", .string terminal.name),
    ("commandLine", .string terminal.commandLine)] ++
    ofOptional "changeDirectoryCommand" terminal.changeDirectory ++
    [("isWsl", .boolean terminal.isSubsystem),
      ("supportsShellSync", .boolean terminal.followsShell)]

structure Draft where
  key : Option String
  name : Option String
  commandLine : Option String
  changeDirectory : Option (Option String)
  isSubsystem : Option Bool
  followsShell : Option Bool

def fields : List (Json.Field Draft) :=
  [.of "key" false Decoder.text Draft.key fun draft key => { draft with key := some key },
   .of "displayName" true Decoder.text Draft.name
     fun draft name => { draft with name := some name },
   .of "commandLine" false Decoder.text Draft.commandLine
     fun draft commandLine => { draft with commandLine := some commandLine },
   .of "changeDirectoryCommand" true (Decoder.optional Decoder.text) Draft.changeDirectory
     fun draft change => { draft with changeDirectory := some change },
   .of "isWsl" true Decoder.boolean Draft.isSubsystem
     fun draft value => { draft with isSubsystem := some value },
   .of "supportsShellSync" true Decoder.boolean Draft.followsShell
     fun draft value => { draft with followsShell := some value }]

def ofDraft? (draft : Draft) : Option Terminal := do
  some ⟨← draft.key, draft.name.getD "", ← draft.commandLine, draft.changeDirectory.getD none,
    draft.isSubsystem.getD false, draft.followsShell.getD false⟩

def decoder : Decoder Terminal :=
  .record fields ⟨none, none, none, none, none, none⟩ ofDraft?

def fill (location : List Char) : List Char → List Char
  | '\x7b' :: '0' :: '\x7d' :: rest => location ++ fill location rest
  | c :: rest => c :: fill location rest
  | [] => []

def command (terminal : Terminal) (location : String) : String :=
  String.ofList (fill location.toList terminal.commandLine.toList)

def defaults : List Terminal :=
  [⟨"pwsh", "PowerShell", "pwsh.exe -NoExit -Command \"Set-Location -LiteralPath '\x7b0\x7d'\"",
      some "Set-Location -LiteralPath '\x7b0\x7d'", false, false⟩,
   ⟨"powershell", "Windows PowerShell",
      "powershell.exe -NoExit -Command \"Set-Location -LiteralPath '\x7b0\x7d'\"",
      some "Set-Location -LiteralPath '\x7b0\x7d'", false, false⟩,
   ⟨"cmd", "Command Prompt", "cmd.exe /k \"cd /d \x7b0\x7d\"", some "cd /d \x7b0\x7d", false, true⟩,
   ⟨"bash", "Bash", "%windir%\\system32\\bash.exe", some "cd '\x7b0\x7d'", true, false⟩]

end Terminal
end Waymark
