import TextGen.Codec.WordLevel
import TextGen.Json.Reader
import TextGen.Storage

/-!
Tokenizer files: the JSON form of word-level tokenizers. A file either holds a tokenizer or it does
not; why it does not is not told. The parts of a tokenizer are read as they come, so that each one
has to be valid, also one that is given again later on.
-/

namespace TextGen.WordLevel

open Json (Value)

def member? (v : Value) (name : String) : Option Value :=
  match v with
  | .object members _ => (members.reverse.find? (·.1.text? = some name)).map (·.2)
  | _ => none

def sole? (v : Value) (name : String) : Option Value :=
  match v with
  | .object members _ =>
    match members.filter (·.1.text? = some name) with
    | [(_, value)] => some value
    | _ => none
  | _ => none

def string? : Value → Option String
  | .text q => q.text?
  | _ => none

def bool? (v : Value) : Option Bool := v.bool.toOption

def id? (v : Value) : Option Nat := (v.integerIn 0 (wordCount 32 - 1)).toOption.map Int.toNat

def typeName? : Value → Option String
  | .text q => q.text?
  | .object [(name, .null)] _ => name.text?
  | _ => none

def isType (v : Value) (name : String) : Bool := (member? v "type").bind typeName? = some name

def isPlain (v : Value) (name : String) : Bool :=
  match v with
  | .array [item] _ => typeName? item = some name
  | v => isType v name

def vocabulary? (v : Value) : Option (List (String × Nat)) := do
  let .object members _ := v | none
  let words ← members.reverse.mapM fun (key, id) => return (← key.text?, id)
  (words.eraseDupsBy (·.1 == ·.1)).mapM fun (word, id) => return (word, ← id? id)

def model? (v : Value) : Option (List (String × Nat) × String) := do
  if (member? v "type").isSome then
    guard ((sole? v "type").bind typeName? = some "WordLevel")
  return (← (member? v "vocab").bind vocabulary?, ← (member? v "unk_token").bind string?)

def addedToken? (v : Value) : Option AddedToken := do
  let flag? (name : String) : Option Bool := (sole? v name).bind bool?
  return {
    id := ← (sole? v "id").bind id?
    content := ← (sole? v "content").bind string?
    special := ← flag? "special"
    single := ← flag? "single_word"
    takesBefore := ← flag? "lstrip"
    takesAfter := ← flag? "rstrip"
    normalized := ← flag? "normalized"
  }

def addedTokens? : Value → Option (List AddedToken)
  | .array items _ => items.mapM addedToken?
  | _ => none

def lowercase? (v : Value) : Option Bool :=
  match v with
  | .null => some false
  | v => if isPlain v "Lowercase" then some true else none

def split? (v : Value) : Option WordSplit :=
  match v with
  | .null => some .whole
  | v =>
    if isPlain v "Whitespace" then some .words
    else if isPlain v "WhitespaceSplit" then some .parts
    else none

def join? (v : Value) : Option TokenJoin :=
  match v with
  | .null => some .spaces
  | v =>
    match member? v "decoders" with
    | some (.array [first, second] _) =>
      if isType v "Sequence" ∧ isType first "ByteFallback" ∧ isType second "Fuse" then some .bytes
      else none
    | _ => none

structure Parts where
  model : Option (List (String × Nat) × String) := none
  added : List AddedToken := []
  lowercase : Bool := false
  split : WordSplit := .whole
  join : TokenJoin := .spaces

namespace Parts

def set? (parts : Parts) (name : String) (v : Value) : Option Parts :=
  match name with
  | "version" => if string? v = some "1.0" then some parts else none
  | "truncation" | "padding" | "post_processor" =>
    match v with
    | .null => some parts
    | _ => none
  | "added_tokens" => return { parts with added := ← addedTokens? v }
  | "normalizer" => return { parts with lowercase := ← lowercase? v }
  | "pre_tokenizer" => return { parts with split := ← split? v }
  | "decoder" => return { parts with join := ← join? v }
  | "model" => return { parts with model := some (← model? v) }
  | _ => none

def tokenizer? (parts : Parts) : Option WordLevel := do
  let (vocabulary, unknown) ← parts.model
  return {
    vocabulary := vocabulary
    unknown := unknown
    added := AddedToken.number vocabulary parts.added
    lowercase := parts.lowercase
    split := parts.split
    join := parts.join
  }

end Parts

def ofValue? (v : Value) : Option WordLevel := do
  let .object members _ := v | none
  let parts ← members.foldlM (fun parts (key, v) => do Parts.set? parts (← key.text?) v) {}
  parts.tokenizer?

def parse? (text : String) : Option WordLevel := do
  let document := Json.parse text
  guard (document.complete && document.value.isReadable Json.nestingLimit)
  ofValue? document.value

def fileName : String := "tokenizer.json"

def load? (storage : Storage) (path : String) : Option WordLevel := do
  let contents ← storage.read? (storage.resolve path fileName)
  parse? (← Utf8.decode? contents)

end TextGen.WordLevel
