/-!
# Blanks, lines and words

A character is *blank* when it has the Unicode property White_Space. Trimming, cutting a text into
lines and cutting it into words are defined on lists of characters, and lifted to `String` where
the rest of the library needs them.
-/

namespace DiagramView.Text

/-- A table of code points, written as closed intervals in increasing order. -/
abbrev CodeRanges := List (Nat × Nat)

/-- Membership of a character in a table of code points. -/
def CodeRanges.has (table : CodeRanges) (c : Char) : Bool :=
  table.any fun range => decide (range.1 ≤ c.toNat) && decide (c.toNat ≤ range.2)

/-- The twenty-five code points with the property White_Space. -/
def blanks : CodeRanges :=
  [(0x9, 0xd), (0x20, 0x20), (0x85, 0x85), (0xa0, 0xa0), (0x1680, 0x1680), (0x2000, 0x200a),
   (0x2028, 0x2029), (0x202f, 0x202f), (0x205f, 0x205f), (0x3000, 0x3000)]

/-- Whether a character has the property White_Space. -/
def isBlank (c : Char) : Bool :=
  blanks.has c

/-! ## Trimming -/

/-- Drops the blanks a text begins with. -/
def dropBlanks (cs : List Char) : List Char :=
  cs.dropWhile isBlank

/-- Drops the blanks a text ends with. -/
def dropTrailingBlanks : List Char → List Char
  | [] => []
  | c :: cs =>
    match dropTrailingBlanks cs with
    | [] => if isBlank c then [] else [c]
    | rest => c :: rest

/-- Drops the blanks at both ends of a text. -/
def trimChars (cs : List Char) : List Char :=
  dropTrailingBlanks (dropBlanks cs)

/-- The text without the blanks at its ends. -/
def trim (s : String) : String :=
  String.ofList (trimChars s.toList)

/-- Whether a text holds nothing but blanks. -/
def isBlankText (s : String) : Bool :=
  s.toList.all isBlank

/-! ## Lines and words -/

/-- The lines of a text. A line ends with a line feed, or with a carriage return and a line feed;
the end of the text ends its last line, and no empty line follows a final line feed. -/
def linesOf : List Char → List (List Char)
  | [] => []
  | '\n' :: cs => [] :: linesOf cs
  | '\r' :: '\n' :: cs => [] :: linesOf cs
  | c :: cs =>
    match linesOf cs with
    | [] => [[c]]
    | line :: rest => (c :: line) :: rest

/-- The maximal runs of characters that are not blank. -/
def wordsOf : List Char → List (List Char)
  | [] => []
  | c :: cs =>
    if isBlank c then wordsOf cs
    else
      match cs with
      | [] => [[c]]
      | d :: _ =>
        if isBlank d then [c] :: wordsOf cs
        else
          match wordsOf cs with
          | [] => [[c]]
          | word :: rest => (c :: word) :: rest

/-- Cuts a text at every occurrence of a character; `n` occurrences give `n + 1` parts. -/
def cutAt (sep : Char) : List Char → List (List Char)
  | [] => [[]]
  | c :: cs =>
    if c = sep then [] :: cutAt sep cs
    else
      match cutAt sep cs with
      | [] => [[c]]
      | part :: rest => (c :: part) :: rest

/-- The number of bytes that some characters take in UTF-8. -/
def byteSize (cs : List Char) : Nat :=
  cs.foldr (fun c size => c.utf8Size + size) 0

/-- Cuts a text behind the given number of bytes, which must not end inside a character. -/
def splitAtByte? : Nat → List Char → Option (List Char × List Char)
  | 0, cs => some ([], cs)
  | _ + 1, [] => none
  | n + 1, c :: cs =>
    if c.utf8Size ≤ n + 1 then
      (splitAtByte? (n + 1 - c.utf8Size) cs).map fun parts => (c :: parts.1, parts.2)
    else none

/-! ## Searching and replacing -/

/-- Whether the characters `pattern` occur in a text without a gap. -/
def occursIn (pattern : List Char) : List Char → Bool
  | [] => pattern.isEmpty
  | c :: cs => pattern.isPrefixOf (c :: cs) || occursIn pattern cs

/-- Whether one text occurs in another. -/
def contains (s pattern : String) : Bool :=
  occursIn pattern.toList s.toList

/-- Whether one text begins with another. -/
def startsWith (s start : String) : Bool :=
  start.toList.isPrefixOf s.toList

/-- Replaces the occurrences of `pattern`, found from the left and without overlap. The counter is
the number of characters still covered by the occurrence found last. -/
def replaceFrom (pattern replacement : List Char) : Nat → List Char → List Char
  | _, [] => []
  | k + 1, _ :: cs => replaceFrom pattern replacement k cs
  | 0, c :: cs =>
    if pattern.isPrefixOf (c :: cs) then
      replacement ++ replaceFrom pattern replacement (pattern.length - 1) cs
    else c :: replaceFrom pattern replacement 0 cs

/-- Replaces every occurrence of a non-empty text by another. -/
def replaceAll (s pattern replacement : String) : String :=
  if pattern.isEmpty then s
  else String.ofList (replaceFrom pattern.toList replacement.toList 0 s.toList)

/-- Joins texts with a separator between neighbours. -/
def join (sep : String) : List String → String
  | [] => ""
  | s :: rest => rest.foldl (fun joined t => joined ++ sep ++ t) s

/-- ASCII capitals become small letters; every other character stays as it is. -/
def lowerAscii (s : String) : String :=
  String.ofList (s.toList.map Char.toLower)

end DiagramView.Text
