import Roster.Number.Whole
import Roster.Text.Basic

/-!
# Command lines

A command line is a row of words. `scan` takes the words of one level apart into items: flags,
options with their values, and positional words.

* `--name value`, `--name=value`, `-n value`, `-nvalue` and `-n=value` give a value to an option.
  A word that starts with a minus sign is a value only if it stands in the same word as the option,
  or if it is the minus sign alone.
* Flags may stand together after one minus sign, also before an option.
* After the word `--` all words are positional.
* The name of a command ends the level. The words after it belong to the command.

`Arguments.read` checks the items of a level against what may be given there (`Level`).
-/

namespace Roster.Command

/-- What a value has to be. -/
inductive ValueKind
  | text
  | integer (least greatest : Int)
  | member (names : List String)
  deriving Repr, DecidableEq

/-- Whether a word is a value of a kind. -/
def ValueKind.accepts (word : String) : ValueKind → Bool
  | .text => true
  | .integer least greatest => (Number.integerIn? least greatest word.toList).isSome
  | .member names => names.contains word

/-- A flag, or an option with a value. -/
structure Switch where
  long : String
  short : Option Char := none
  value : Option ValueKind := none
  deriving Repr, DecidableEq

/-- What may be given on a level. -/
structure Level where
  switches : List Switch
  /-- The positional word, and whether it has to be given. -/
  positional : Option (ValueKind × Bool) := none
  /-- The commands that may follow. -/
  commands : List String := []
  deriving Repr, DecidableEq

/-- A part of a level. -/
inductive Item
  | flag (switch : Switch)
  | value (switch : Switch) (word : String)
  | positional (word : String)
  /-- A word that fits nothing, or an option without a value. -/
  | unreadable
  deriving Repr, DecidableEq

/-- The items of flags that stand together, and the option whose value is the next word. -/
def clusterItems (switches : List Switch) : List Char → List Item × Option Switch
  | [] => ([], none)
  | c :: cs =>
    match switches.find? fun s => s.short == some c with
    | none => ([.unreadable], none)
    | some s =>
      if s.value.isNone then
        let (items, waiting) := clusterItems switches cs
        (.flag s :: items, waiting)
      else
        match cs with
        | [] => ([], some s)
        | '=' :: word => ([.value s (String.ofList word)], none)
        | word => ([.value s (String.ofList word)], none)

/-- The items of a word after `--`, and the option whose value is the next word. -/
def longItems (switches : List Switch) (cs : List Char) : List Item × Option Switch :=
  let (name, word) :=
    match Text.cut? ['='] cs with
    | some (name, word) => (name, some (String.ofList word))
    | none => (cs, none)
  match switches.find? fun s => s.long.toList == name with
  | none => ([.unreadable], none)
  | some s =>
    match s.value, word with
    | none, none => ([.flag s], none)
    | none, some _ => ([.unreadable], none)
    | some _, none => ([], some s)
    | some _, some word => ([.value s word], none)

/-- Whether a word that stands alone is no value. -/
def isSwitchWord : List Char → Bool
  | '-' :: _ :: _ => true
  | _ => false

/-- The items of a level, given the option whose value is the next word, and the command at its
end with the words after it. -/
def scan (level : Level) : Option Switch → List String → List Item × Option (String × List String)
  | some _, [] => ([.unreadable], none)
  | none, [] => ([], none)
  | some s, word :: words =>
    if isSwitchWord word.toList then ([.unreadable], none)
    else
      let (items, command) := scan level none words
      (.value s word :: items, command)
  | none, word :: words =>
    if level.commands.contains word then ([], some (word, words))
    else
      match word.toList with
      | ['-', '-'] => (words.map .positional, none)
      | '-' :: '-' :: cs =>
        let (items, waiting) := longItems level.switches cs
        let (more, command) := scan level waiting words
        (items ++ more, command)
      | '-' :: c :: cs =>
        let (items, waiting) := clusterItems level.switches (c :: cs)
        let (more, command) := scan level waiting words
        (items ++ more, command)
      | _ =>
        let (items, command) := scan level none words
        (.positional word :: items, command)

/-- Why a command line is not carried out. -/
inductive Refusal
  | invalid
  | help
  | version
  deriving Repr, DecidableEq

/-- What is given on a level. -/
structure Arguments where
  flags : List String := []
  values : List (String × String) := []
  positional : Option String := none
  deriving Repr, DecidableEq

namespace Arguments

/-- The value of an option. -/
def value? (arguments : Arguments) (name : String) : Option String :=
  arguments.values.lookup name

/-- Takes one more item. Nothing may be given twice on a level. -/
def add (level : Level) (arguments : Arguments) : Item → Except Refusal Arguments
  | .flag s =>
    if s.long == "help" then .error .help
    else if s.long == "version" then .error .version
    else if arguments.flags.contains s.long then .error .invalid
    else .ok { arguments with flags := s.long :: arguments.flags }
  | .value s word =>
    if arguments.values.any fun given => given.1 == s.long then .error .invalid
    else if s.value.any (ValueKind.accepts word) then
      .ok { arguments with values := (s.long, word) :: arguments.values }
    else .error .invalid
  | .positional word =>
    match level.positional with
    | some (kind, _) =>
      if arguments.positional.isNone && kind.accepts word then
        .ok { arguments with positional := some word }
      else .error .invalid
    | none => .error .invalid
  | .unreadable => .error .invalid

/-- What a row of words gives on a level, and the command at its end. -/
def read (level : Level) (words : List String) :
    Except Refusal (Arguments × Option (String × List String)) := do
  let (items, command) := scan level none words
  let arguments ← items.foldlM (add level) {}
  if (level.positional.any fun p => p.2) && arguments.positional.isNone then throw .invalid
  return (arguments, command)

end Arguments

end Roster.Command
