import TextGen.Model.Shape

/-!
Codecs: the two directions between text and tokens.
-/

namespace TextGen

inductive CodecError
  | encoding
  | decoding
  deriving DecidableEq, Repr

namespace CodecError

def message : CodecError → String
  | encoding => "Unable to encode text"
  | decoding => "Unable to decode text"

end CodecError

/--
Decoding has to be right only for the tokens from the start of a sequence on: a codec may strip a
leading space, and may end the text in U+FFFD as long as the bytes of a character are incomplete.
-/
structure Codec where
  encode : String → Except CodecError (List TokenId)
  decode : List TokenId → Except CodecError String

end TextGen
