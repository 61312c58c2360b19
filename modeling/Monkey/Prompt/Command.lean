import Monkey.Text.CharClass

/-!
# Slash commands

The commands of the prompt, how an entry is recognised as one, and how they are completed.
-/

set_option autoImplicit false

namespace Monkey.Prompt

inductive Command
  | clear | traceback | reset
  deriving DecidableEq, Repr

namespace Command

def name : Command → String
  | clear => "/clear"
  | traceback => "/py-traceback"
  | reset => "/reset"

def description : Command → String
  | clear => "Clear the terminal screen"
  | traceback => "Toggle Python traceback on errors"
  | reset => "Reset the REPL environment"

def all : List Command := [clear, traceback, reset]

def ofName? (name : String) : Option Command := all.find? fun command => command.name == name

end Command

def beginsCommand (text : String) : Bool := text.toList.head? == some '/'

def completions (text : String) : List Command :=
  if beginsCommand text then
    Command.all.filter fun command => text.toList.isPrefixOf command.name.toList
  else []

/-- An entry taken for a command: a name, and what follows it after some blanks. -/
structure CommandLine where
  name : String
  argument : String
  deriving DecidableEq, Repr

/-- The command that an entry holds, blanks around it aside. -/
def commandLine? (text : String) : Option CommandLine :=
  let trimmed := Text.trimBlank text.toList
  if trimmed.head? = some '/' then
    let (name, rest) := trimmed.span fun c => !Text.isBlank c
    some ⟨String.ofList name, String.ofList (rest.dropWhile Text.isBlank)⟩
  else none

inductive Switch
  | on | off | toggle
  deriving DecidableEq, Repr

/-- Reads the argument of a switch; letter case does not matter. -/
def Switch.ofArgument? (argument : String) : Option Switch :=
  let word := String.ofList (argument.toList.map Char.toLower)
  if ["on", "1", "true", "yes"].contains word then some on
  else if ["off", "0", "false", "no"].contains word then some off
  else if word.isEmpty then some toggle
  else none

def Switch.apply (switch : Switch) (state : Bool) : Bool :=
  match switch with
  | on => true
  | off => false
  | toggle => !state

end Monkey.Prompt
