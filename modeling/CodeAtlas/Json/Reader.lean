import CodeAtlas.Json.Basic
import Std.Data.ExtTreeMap

/-! Reading JSON text: characters to tokens, tokens to a value. Both passes are folds, so nesting
costs no recursion, and a limit on the nesting is a limit on a stack. -/
namespace CodeAtlas.Json

/-- A token: a bracket, a separator or a scalar value. -/
inductive Token where
  | openArr
  | closeArr
  | openObj
  | closeObj
  | colon
  | comma
  | scalar (value : Json)
  deriving Repr

/-! ### Numbers -/

def spanDigits (cs : List Char) : List Char × List Char := cs.span Char.isDigit

/-- The digits after a decimal point, if there is one; at least one digit must follow it. -/
def fraction? : List Char → Option (List Char × List Char)
  | '.' :: rest =>
    match spanDigits rest with
    | ([], _) => none
    | found => some found
  | rest => some ([], rest)

/-- The exponent after its mark. -/
def exponent? : List Char → Option (Option Int)
  | [] => some none
  | e :: rest =>
    if e = 'e' ∨ e = 'E' then
      match rest with
      | '-' :: ds => (Text.numeral? 10 ds).map fun n => some (-(n : Int))
      | '+' :: ds => (Text.numeral? 10 ds).map fun n => some (n : Int)
      | ds => (Text.numeral? 10 ds).map fun n => some (n : Int)
    else none

/-- Digits gathered in a machine word, which stands for `word * 10 ^ exponent`. -/
structure Significand where
  word : Nat := 0
  exponent : Int := 0
  /-- A digit has been left out for want of room. -/
  full : Bool := false

namespace Significand

/-- Takes a digit if the word has room for it and none was left out before. The exponent changes by
`taken` or by `leftOut`. -/
def push (taken leftOut : Int) (s : Significand) (digit : Nat) : Significand :=
  if !s.full && s.word * 10 + digit < Text.wordBound then
    { s with word := s.word * 10 + digit, exponent := s.exponent + taken }
  else { s with exponent := s.exponent + leftOut, full := true }

/-- Takes the digits before a decimal point. Each that is left out adds a place. -/
def pushWhole (s : Significand) (digits : List Nat) : Significand := digits.foldl (push 0 1) s

/-- Takes the digits after a decimal point, where room is looked for anew. Each that is taken costs a
place, and those left out count for nothing. -/
def pushFraction (s : Significand) (digits : List Nat) : Significand :=
  digits.foldl (push (-1) 0) { s with full := false }

end Significand

/-- The whole number with a sign and a word as its size, if a machine integer holds it. Minus zero is
not one of them. -/
def wholeOf? (negative : Bool) (word : Nat) : Option Json :=
  if !negative then some (int word)
  else if 0 < word ∧ word ≤ Text.signedBound then some (int (-(word : Int)))
  else none

/-- A number put together from its sign, its digits before and after the point and its exponent. What
is no machine integer is `real`, and too large a number is refused. -/
def numberWith? (negative : Bool) (whole fractional : List Nat) (mark : Option Int) :
    Option Json :=
  let integral := ({} : Significand).pushWhole whole
  let all := integral.pushFraction fractional
  let double := (Double.ofDecimal? all.word (all.exponent + mark.getD 0)).map (real negative)
  if fractional.isEmpty && mark.isNone && !integral.full then
    (wholeOf? negative integral.word).or double
  else double

/-- The number that a text denotes. No zero stands before another digit. -/
def numberOf? (cs : List Char) : Option Json := do
  let negative := cs.head? == some '-'
  let (whole, rest) := spanDigits (if negative then cs.tail else cs)
  if whole.isEmpty || (whole.head? == some '0' && 1 < whole.length) then none
  else
    let (fractional, rest) ← fraction? rest
    let mark ← exponent? rest
    numberWith? negative (whole.filterMap Text.digit?) (fractional.filterMap Text.digit?) mark

/-! ### Strings -/

/-- The number written by four hexadecimal digits. -/
def codeUnit? (a b c d : Char) : Option Nat := Text.digits? 16 0 [a, b, c, d]

/-- Resolves the escapes of a string. Surrogates come in pairs, and a control character stands only
escaped. -/
def unescape : List Char → Option (List Char)
  | [] => some []
  | '\\' :: 'u' :: a :: b :: c :: d :: rest =>
    match codeUnit? a b c d with
    | none => none
    | some unit =>
      if 0xdc00 ≤ unit ∧ unit ≤ 0xdfff then none
      else if 0xd800 ≤ unit ∧ unit ≤ 0xdbff then
        match rest with
        | '\\' :: 'u' :: e :: f :: g :: h :: rest =>
          match codeUnit? e f g h with
          | none => none
          | some low =>
            if 0xdc00 ≤ low ∧ low ≤ 0xdfff then
              (unescape rest).map
                (Char.ofNat (0x10000 + (unit - 0xd800) * 0x400 + (low - 0xdc00)) :: ·)
            else none
        | _ => none
      else (unescape rest).map (Char.ofNat unit :: ·)
  | '\\' :: c :: rest =>
    match c with
    | '"' => (unescape rest).map ('"' :: ·)
    | '\\' => (unescape rest).map ('\\' :: ·)
    | '/' => (unescape rest).map ('/' :: ·)
    | 'b' => (unescape rest).map ('\x08' :: ·)
    | 'f' => (unescape rest).map ('\x0c' :: ·)
    | 'n' => (unescape rest).map ('\n' :: ·)
    | 'r' => (unescape rest).map ('\r' :: ·)
    | 't' => (unescape rest).map ('\t' :: ·)
    | _ => none
  | c :: rest => if c.toNat < 0x20 ∨ c = '\\' then none else (unescape rest).map (c :: ·)

/-! ### Tokens -/

/-- What the characters read last belong to; pending characters are kept in reverse. -/
inductive Pending where
  | nothing
  | word (chars : List Char)
  | number (chars : List Char)
  | string (chars : List Char) (escaped : Bool)

/-- The tokens so far, in reverse, and what is pending. -/
structure Lexer where
  tokens : List Token := []
  pending : Pending := .nothing

def wordOf? (cs : List Char) : Option Json :=
  if cs = ['n', 'u', 'l', 'l'] then some null
  else if cs = ['t', 'r', 'u', 'e'] then some (bool true)
  else if cs = ['f', 'a', 'l', 's', 'e'] then some (bool false)
  else none

/-- Completes a word or a number that is pending. -/
def Lexer.settle? (lexer : Lexer) : Option Lexer :=
  match lexer.pending with
  | .nothing => some lexer
  | .word chars => (wordOf? chars.reverse).map fun v => ⟨.scalar v :: lexer.tokens, .nothing⟩
  | .number chars => (numberOf? chars.reverse).map fun v => ⟨.scalar v :: lexer.tokens, .nothing⟩
  | .string _ _ => none

def inNumber (c : Char) : Bool :=
  c.isDigit || c == '-' || c == '+' || c == '.' || c == 'e' || c == 'E'

/-- Takes a character that continues nothing. -/
def Lexer.begin? (lexer : Lexer) (c : Char) : Option Lexer :=
  let token (t : Token) : Option Lexer := some ⟨t :: lexer.tokens, .nothing⟩
  match c with
  | ' ' | '\t' | '\n' | '\r' => some lexer
  | '[' => token .openArr
  | ']' => token .closeArr
  | '\x7b' => token .openObj
  | '\x7d' => token .closeObj
  | ':' => token .colon
  | ',' => token .comma
  | '"' => some { lexer with pending := .string [] false }
  | c =>
    if c.isDigit || c == '-' then some { lexer with pending := .number [c] }
    else if c.isAlpha then some { lexer with pending := .word [c] }
    else none

def Lexer.step? (lexer : Lexer) (c : Char) : Option Lexer :=
  match lexer.pending with
  | .string chars true => some { lexer with pending := .string (c :: chars) false }
  | .string chars false =>
    if c = '"' then
      (unescape chars.reverse).map fun cs =>
        ⟨.scalar (str (String.ofList cs)) :: lexer.tokens, .nothing⟩
    else some { lexer with pending := .string (c :: chars) (c = '\\') }
  | .number chars =>
    if inNumber c then some { lexer with pending := .number (c :: chars) }
    else lexer.settle?.bind (·.begin? c)
  | .word chars =>
    if c.isAlpha then some { lexer with pending := .word (c :: chars) }
    else lexer.settle?.bind (·.begin? c)
  | .nothing => lexer.begin? c

def tokens? (cs : List Char) : Option (List Token) :=
  ((cs.foldlM Lexer.step? ({} : Lexer)).bind Lexer.settle?).map (·.tokens.reverse)

/-! ### Values -/

/-- A container that is still open, with what it holds so far in reverse. -/
inductive Frame where
  | arr (items : List Json)
  | obj (members : List (String × Json))
  /-- An object whose last key still lacks its value. -/
  | entry (members : List (String × Json)) (key : String)

/-- What may come next. -/
inductive Wanted where
  | value
  | firstValue
  | key
  | firstKey
  | colon
  | separator
  deriving DecidableEq

/-- A value under construction, or the finished one. -/
inductive Builder where
  | building (stack : List Frame) (wanted : Wanted)
  | done (value : Json)

/-- Members in ascending order of their keys. Of several members with one key the last remains. -/
def canonical (members : List (String × Json)) : List (String × Json) :=
  (Std.ExtTreeMap.ofList members compare).toList

/-- Puts a complete value into the innermost open container. -/
def Builder.supply? (value : Json) : List Frame → Option Builder
  | [] => some (.done value)
  | .arr items :: stack => some (.building (.arr (value :: items) :: stack) .separator)
  | .entry members key :: stack =>
    some (.building (.obj ((key, value) :: members) :: stack) .separator)
  | .obj _ :: _ => none

/-- Takes one token. At most `limit` containers may be open at once. -/
def Builder.step? (limit : Option Nat) : Builder → Token → Option Builder
  | .done _, _ => none
  | .building stack wanted, token =>
    let wantsValue := wanted == .value || wanted == .firstValue
    let fits := match limit with
      | none => true
      | some n => decide (stack.length < n)
    match token with
    | .scalar value =>
      if wantsValue then Builder.supply? value stack
      else if wanted = .key ∨ wanted = .firstKey then
        match value, stack with
        | str key, .obj members :: stack => some (.building (.entry members key :: stack) .colon)
        | _, _ => none
      else none
    | .openArr => if wantsValue && fits then some (.building (.arr [] :: stack) .firstValue) else none
    | .openObj => if wantsValue && fits then some (.building (.obj [] :: stack) .firstKey) else none
    | .closeArr =>
      match stack with
      | .arr items :: stack =>
        if wanted = .separator ∨ wanted = .firstValue then
          Builder.supply? (arr items.reverse) stack
        else none
      | _ => none
    | .closeObj =>
      match stack with
      | .obj members :: stack =>
        if wanted = .separator ∨ wanted = .firstKey then
          Builder.supply? (obj (canonical members.reverse)) stack
        else none
      | _ => none
    | .colon => if wanted = .colon then some (.building stack .value) else none
    | .comma =>
      match stack, wanted with
      | .arr _ :: _, .separator => some (.building stack .value)
      | .obj _ :: _, .separator => some (.building stack .key)
      | _, _ => none

/-- The value that a text denotes: exactly one value, with blanks around it. `limit` bounds the
nesting of arrays and objects. -/
def parse? (limit : Option Nat) (text : String) : Option Json :=
  match (tokens? text.toList).bind
      (·.foldlM (Builder.step? limit) (.building [] .value)) with
  | some (.done value) => some value
  | _ => none

end CodeAtlas.Json
