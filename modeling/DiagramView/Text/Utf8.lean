/-!
# Reading UTF-8

Files and the output of other programs arrive as bytes. A text is read from them either strictly,
when a single malformed sequence refuses the whole, or leniently, when each maximal malformed part
becomes one replacement character.
-/

namespace DiagramView.Text

/-- What stands at the head of a non-empty list of bytes: a character, or a malformed part of the
given length. -/
inductive Utf8Head where
  | char (c : Char) (size : Nat)
  | malformed (size : Nat)
  deriving Repr

/-- Whether a byte continues a sequence, with the narrower bounds that some lead bytes put on the
byte after them. -/
def continues (lo hi b : Nat) : Bool :=
  decide (lo ≤ b) && decide (b ≤ hi)

/-- The bounds on the second byte of a sequence, and the number of bytes after it, given the lead
byte. Lead bytes outside the table begin no sequence. -/
def sequenceOf (lead : Nat) : Option (Nat × Nat × Nat) :=
  if 0xc2 ≤ lead ∧ lead ≤ 0xdf then some (0x80, 0xbf, 0)
  else if lead = 0xe0 then some (0xa0, 0xbf, 1)
  else if lead = 0xed then some (0x80, 0x9f, 1)
  else if 0xe1 ≤ lead ∧ lead ≤ 0xef then some (0x80, 0xbf, 1)
  else if lead = 0xf0 then some (0x90, 0xbf, 2)
  else if 0xf1 ≤ lead ∧ lead ≤ 0xf3 then some (0x80, 0xbf, 2)
  else if lead = 0xf4 then some (0x80, 0x8f, 2)
  else none

/-- Reads `left` more continuation bytes of a sequence of which `size` bytes, worth `value`, are
read. -/
def finishSequence (value size : Nat) : Nat → List UInt8 → Utf8Head
  | 0, _ => .char (Char.ofNat value) size
  | _ + 1, [] => .malformed size
  | left + 1, b :: rest =>
    if continues 0x80 0xbf b.toNat then
      finishSequence (value * 64 + (b.toNat - 0x80)) (size + 1) left rest
    else .malformed size

/-- The bits of the character that a lead byte carries. -/
def leadBits (lead : Nat) : Nat :=
  if lead < 0xe0 then lead - 0xc0 else if lead < 0xf0 then lead - 0xe0 else lead - 0xf0

/-- The head of a list of bytes that starts with `lead`. -/
def utf8Head (lead : UInt8) (rest : List UInt8) : Utf8Head :=
  if lead.toNat < 0x80 then .char (Char.ofNat lead.toNat) 1
  else
    match sequenceOf lead.toNat with
    | none => .malformed 1
    | some (lo, hi, more) =>
      match rest with
      | [] => .malformed 1
      | b :: rest =>
        if continues lo hi b.toNat then
          finishSequence (leadBits lead.toNat * 64 + (b.toNat - 0x80)) 2 more rest
        else .malformed 1

/-- Reads bytes leniently. The counter is the number of bytes that belong to the head read last. -/
def decodeLenientFrom : Nat → List UInt8 → List Char
  | _, [] => []
  | k + 1, _ :: bytes => decodeLenientFrom k bytes
  | 0, b :: bytes =>
    match utf8Head b bytes with
    | .char c size => c :: decodeLenientFrom (size - 1) bytes
    | .malformed size => '\ufffd' :: decodeLenientFrom (size - 1) bytes

/-- Reads bytes strictly. The counter is the number of bytes that belong to the head read last. -/
def decodeStrictFrom : Nat → List UInt8 → Option (List Char)
  | _, [] => some []
  | k + 1, _ :: bytes => decodeStrictFrom k bytes
  | 0, b :: bytes =>
    match utf8Head b bytes with
    | .char c size => (decodeStrictFrom (size - 1) bytes).map (c :: ·)
    | .malformed _ => none

/-- The text of some bytes, with a replacement character for each malformed part. -/
def decodeLenient (bytes : List UInt8) : String :=
  String.ofList (decodeLenientFrom 0 bytes)

/-- The text of some bytes, unless they are malformed. -/
def decode? (bytes : List UInt8) : Option String :=
  (decodeStrictFrom 0 bytes).map String.ofList

end DiagramView.Text
