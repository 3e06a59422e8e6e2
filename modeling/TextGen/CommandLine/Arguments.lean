/-!
Command-line arguments: options with a long name and perhaps a letter, and other arguments that are
told apart by their place. An option that takes a value has it after `=` or in the next argument,
and a letter may also have it right behind itself. An argument that starts with `-` is an option,
unless it is `-` alone or comes after `--`.
-/

namespace TextGen.CommandLine

structure OptionSpec where
  name : String
  letter : Option Char := none
  takesValue : Bool := true
  deriving DecidableEq, Repr

structure Arguments where
  places : List String
  options : List (String × String)
  deriving DecidableEq, Repr

inductive Word
  | place (text : String)
  | separator
  | long (name : String) (value : Option String)
  | short (letter : Char) (value : Option String)
  deriving DecidableEq, Repr

namespace Word

def ofString (s : String) : Word :=
  match s.toList with
  | ['-', '-'] => separator
  | '-' :: '-' :: cs =>
    let name := cs.takeWhile (· ≠ '=')
    let value := if name.length < cs.length then some (cs.drop (name.length + 1)) else none
    long (String.ofList name) (value.map String.ofList)
  | ['-', letter] => short letter none
  | '-' :: letter :: '=' :: cs => short letter (some (String.ofList cs))
  | '-' :: letter :: cs => short letter (some (String.ofList cs))
  | _ => place s

def option? (specs : List OptionSpec) : Word → Option (OptionSpec × Option String)
  | long name value => (specs.find? (·.name = name)).map (·, value)
  | short letter value => (specs.find? (·.letter = some letter)).map (·, value)
  | _ => none

end Word

namespace Arguments

def addPlace (arguments : Arguments) (text : String) : Arguments :=
  { arguments with places := text :: arguments.places }

def addOption (arguments : Arguments) (name value : String) : Arguments :=
  { arguments with options := (name, value) :: arguments.options }

def ofWords? (specs : List OptionSpec) : List String → Option Arguments
  | [] => some ⟨[], []⟩
  | s :: rest =>
    match Word.ofString s with
    | .separator => some ⟨rest, []⟩
    | .place text => (ofWords? specs rest).map (·.addPlace text)
    | word => do
      let (spec, attached) ← word.option? specs
      match spec.takesValue, attached with
      | false, none => (ofWords? specs rest).map (·.addOption spec.name "")
      | false, some _ => none
      | true, some value => (ofWords? specs rest).map (·.addOption spec.name value)
      | true, none =>
        match rest with
        | [] => none
        | next :: rest =>
          match Word.ofString next with
          | .place value => (ofWords? specs rest).map (·.addOption spec.name value)
          | _ => none

def values (arguments : Arguments) (name : String) : List String :=
  (arguments.options.filter (·.1 = name)).map (·.2)

def value? (arguments : Arguments) (name : String) (read : String → Option α) :
    Option (Option α) :=
  match arguments.values name with
  | [] => some none
  | [text] => (read text).map some
  | _ => none

def flag? (arguments : Arguments) (name : String) : Option Bool :=
  (arguments.value? name some).map Option.isSome

end Arguments

end TextGen.CommandLine
