import TextGen.Codec.Pieces
import TextGen.Text.Incremental

/-!
This module contains the text of a whole list of tokens as it comes out of an incremental decoder
that is fed one token after the other and flushed in the end.
-/

namespace TextGen

def Codec.Decodes (codec : Codec) : Prop := ∀ ids, ∃ text, codec.decode ids = .ok text

theorem PieceTable.decode_ofPieces (pieces : List (TokenId × List UInt8)) (ids : List TokenId)
    : (ofPieces pieces).codec.decode ids
        = .ok (Utf8.decodeLossy ((ofPieces pieces).bytes ids)) := by
  simp [codec, decode, tidy, ofPieces]

theorem PieceTable.bytes_append (table : PieceTable) (ids ids' : List TokenId)
    : table.bytes (ids ++ ids') = table.bytes ids ++ table.bytes ids' := by
  simp [bytes]

theorem PieceTable.decodes_codec {table : PieceTable} (h : table.decodeFailures = [])
    : table.codec.Decodes := by
  intro ids
  simp [codec, decode, h]

namespace IncrementalText

def shown (t : IncrementalText) (codec : Codec) (id : TokenId) : String :=
  ((t.put codec id).1.toOption.bind fun chunk => chunk).getD ""

def tail (t : IncrementalText) (codec : Codec) : String := (t.finish codec).1.toOption.getD ""

def transcriptFrom (codec : Codec) : List TokenId → IncrementalText → String
  | [], t => t.tail codec
  | id :: ids, t => t.shown codec id ++ transcriptFrom codec ids (t.put codec id).2

def transcript (codec : Codec) (ids : List TokenId) : String := transcriptFrom codec ids empty

variable {codec : Codec}

theorem put_of_decodes (hcodec : codec.Decodes) (t : IncrementalText) (id : TokenId)
    : ∃ chunk, t.put codec id = (.ok chunk, (t.put codec id).2)
        ∧ chunk.getD "" = t.shown codec id := by
  have hok : ∃ chunk, (t.put codec id).1 = .ok chunk := by
    rcases hcodec (t.pending ++ [id]) with ⟨text, htext⟩
    unfold put
    simp only [htext]
    split
    . exact ⟨_, rfl⟩
    . split
      . exact ⟨_, rfl⟩
      . exact ⟨_, rfl⟩
  rcases hok with ⟨chunk, hchunk⟩
  refine ⟨chunk, ?_, ?_⟩
  . rw [← hchunk]
  . rw [shown, hchunk]
    rfl

theorem finish_of_decodes (hcodec : codec.Decodes) (t : IncrementalText)
    : (t.finish codec).1 = .ok (t.tail codec) := by
  rcases hcodec t.pending with ⟨text, htext⟩
  simp [tail, finish, htext, Except.toOption]

end IncrementalText

end TextGen
