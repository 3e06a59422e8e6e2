import TextGen.Text.WordRanges

/-!
Cutting a text into words and lines. Blanks separate words; in the finer cut a word is a run of word
characters or a run of characters that are neither blank nor of words.
-/

namespace TextGen.Text

def isBlank (c : Char) : Bool :=
  let n := c.toNat
  (0x9 ≤ n && n ≤ 0xD) || n == 0x20 || n == 0x85 || n == 0xA0 || n == 0x1680 ||
    (0x2000 ≤ n && n ≤ 0x200A) || n == 0x2028 || n == 0x2029 || n == 0x202F || n == 0x205F ||
    n == 0x3000

def isWordChar (c : Char) : Bool :=
  let n := c.toNat
  let ranges :=
    if n < 0x2000 then wordRangesLow else if n < 0x10000 then wordRangesMiddle else wordRangesHigh
  ranges.any fun (first, last) => first ≤ n && n ≤ last

def wordClass (c : Char) : Option Bool := if isBlank c then none else some (isWordChar c)

def runs (classOf : Char → Option Bool) (cs : List Char) : List (List Char) :=
  (cs.splitBy fun a b => classOf a == classOf b).filter fun run => (run.head?.bind classOf).isSome

def words (cs : List Char) : List (List Char) := runs wordClass cs

def parts (cs : List Char) : List (List Char) :=
  runs (fun c => if isBlank c then none else some true) cs

/--
The lines of a text. Each ends at a line feed, to which a carriage return right before it belongs;
what follows the last line feed is a line if it is not empty.
-/
def lines (cs : List Char) : List (List Char) :=
  go [] cs
where
  -- The characters `before` are those of the line so far, the last one first.
  go : List Char → List Char → List (List Char)
    | before, [] => if before.isEmpty then [] else [before.reverse]
    | '\r' :: before, '\n' :: cs => before.reverse :: go [] cs
    | before, '\n' :: cs => before.reverse :: go [] cs
    | before, c :: cs => go (c :: before) cs

end TextGen.Text
