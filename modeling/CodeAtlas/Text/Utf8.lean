/-! Texts as UTF-8 bytes, and bytes read back as text. -/
namespace CodeAtlas.Text

/-- The UTF-8 bytes of a list of characters. -/
def encode (cs : List Char) : List UInt8 := cs.flatMap String.utf8EncodeChar

def bytes (s : String) : List UInt8 := encode s.toList

/-- The character that stands for an ill-formed sequence. -/
def replacement : Char := Char.ofNat 0xfffd

/-- The shape of a sequence by its first byte: how many bytes follow, and the range of the first of
them. The range excludes overlong forms, surrogates and values above the last code point. -/
inductive Lead where
  | ascii
  | two
  | three (lo hi : UInt8)
  | four (lo hi : UInt8)
  | none
  deriving DecidableEq, Repr

/-- The shape that a first byte announces. -/
def Lead.ofByte (b : UInt8) : Lead :=
  if b < 0x80 then .ascii
  else if b < 0xc2 then .none
  else if b < 0xe0 then .two
  else if b = 0xe0 then .three 0xa0 0xbf
  else if b = 0xed then .three 0x80 0x9f
  else if b < 0xf0 then .three 0x80 0xbf
  else if b = 0xf0 then .four 0x90 0xbf
  else if b < 0xf4 then .four 0x80 0xbf
  else if b = 0xf4 then .four 0x80 0x8f
  else .none

def isTail (b : UInt8) : Bool := 0x80 ≤ b && b ≤ 0xbf

/-- The bits that a continuation byte adds. -/
def tailBits (value : Nat) (b : UInt8) : Nat := value * 64 + (b.toNat - 0x80)

/-- Reads bytes as text. Every maximal start of a sequence that is then broken off, and every byte
that starts none, becomes one replacement character. -/
def decodeLossy : List UInt8 → List Char
  | [] => []
  | b :: rest =>
    match Lead.ofByte b with
    | .ascii => Char.ofNat b.toNat :: decodeLossy rest
    | .none => replacement :: decodeLossy rest
    | .two =>
      match rest with
      | [] => [replacement]
      | c :: rest₁ =>
        if isTail c then Char.ofNat (tailBits (b.toNat - 0xc0) c) :: decodeLossy rest₁
        else replacement :: decodeLossy (c :: rest₁)
    | .three lo hi =>
      match rest with
      | [] => [replacement]
      | c :: rest₁ =>
        if lo ≤ c ∧ c ≤ hi then
          match rest₁ with
          | [] => [replacement]
          | d :: rest₂ =>
            if isTail d then
              Char.ofNat (tailBits (tailBits (b.toNat - 0xe0) c) d) :: decodeLossy rest₂
            else replacement :: decodeLossy (d :: rest₂)
        else replacement :: decodeLossy (c :: rest₁)
    | .four lo hi =>
      match rest with
      | [] => [replacement]
      | c :: rest₁ =>
        if lo ≤ c ∧ c ≤ hi then
          match rest₁ with
          | [] => [replacement]
          | d :: rest₂ =>
            if isTail d then
              match rest₂ with
              | [] => [replacement]
              | e :: rest₃ =>
                if isTail e then
                  Char.ofNat (tailBits (tailBits (tailBits (b.toNat - 0xf0) c) d) e) ::
                    decodeLossy rest₃
                else replacement :: decodeLossy (e :: rest₃)
            else replacement :: decodeLossy (d :: rest₂)
        else replacement :: decodeLossy (c :: rest₁)

def lineFeeds (bs : List UInt8) : Nat := bs.count 10

end CodeAtlas.Text
