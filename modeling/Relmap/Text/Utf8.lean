/-!
# UTF-8

Octets of a text and back. Decoding takes one character at a time; where the octets are no
character it tells how many of them are at fault, or that the input ends inside a character.
`decode` stops at the first fault and reports where it is; `decodeLossy` puts U+FFFD in the place
of each faulty run.
-/

namespace Relmap.Text.Utf8

/-- The octets of a character. -/
def encodeChar (c : Char) : List UInt8 :=
  let n := c.toNat
  let octet (k : Nat) : UInt8 := UInt8.ofNat k
  if n < 0x80 then [octet n]
  else if n < 0x800 then [octet (0xC0 + n / 0x40), octet (0x80 + n % 0x40)]
  else if n < 0x10000 then
    [octet (0xE0 + n / 0x1000), octet (0x80 + n / 0x40 % 0x40), octet (0x80 + n % 0x40)]
  else
    [octet (0xF0 + n / 0x40000), octet (0x80 + n / 0x1000 % 0x40),
      octet (0x80 + n / 0x40 % 0x40), octet (0x80 + n % 0x40)]

/-- The octets of a text. -/
def encode (s : List Char) : List UInt8 := s.flatMap encodeChar

/-- What stands at the head of the octets: a character, a faulty run, or the start of a character
that the input cuts off. The count is of the octets after the first one. -/
inductive Head
  | char (c : Char) (more : Nat)
  | faulty (more : Nat)
  | cut
  deriving DecidableEq, Repr

/-- Whether an octet continues a character. -/
def isTail (b : Nat) : Bool := 0x80 ≤ b && b ≤ 0xBF

/-- The range of the second octet of a character of three or four octets, by its first. -/
def secondRange (a : Nat) : Nat × Nat :=
  match a with
  | 0xE0 => (0xA0, 0xBF)
  | 0xED => (0x80, 0x9F)
  | 0xF0 => (0x90, 0xBF)
  | 0xF4 => (0x80, 0x8F)
  | _ => (0x80, 0xBF)

/-- Whether `b` may follow the first octet `a` of a character of three or four octets. -/
def isSecond (a b : Nat) : Bool := (secondRange a).1 ≤ b && b ≤ (secondRange a).2

/-- What the octet `a` and those after it begin with. -/
def head (a : UInt8) (rest : List UInt8) : Head :=
  let a := a.toNat
  let rest := rest.map UInt8.toNat
  if a < 0x80 then .char (Char.ofNat a) 0
  else if a < 0xC2 then .faulty 0
  else if a < 0xE0 then
    match rest with
    | [] => .cut
    | b :: _ => if isTail b then .char (Char.ofNat ((a - 0xC0) * 0x40 + (b - 0x80))) 1 else .faulty 0
  else if a < 0xF0 then
    match rest with
    | [] => .cut
    | b :: r =>
      if !isSecond a b then .faulty 0
      else match r with
        | [] => .cut
        | c :: _ =>
          if isTail c then
            .char (Char.ofNat ((a - 0xE0) * 0x1000 + (b - 0x80) * 0x40 + (c - 0x80))) 2
          else .faulty 1
  else if a < 0xF5 then
    match rest with
    | [] => .cut
    | b :: r =>
      if !isSecond a b then .faulty 0
      else match r with
        | [] => .cut
        | c :: r =>
          if !isTail c then .faulty 1
          else match r with
            | [] => .cut
            | d :: _ =>
              if isTail d then
                .char (Char.ofNat
                  ((a - 0xF0) * 0x40000 + (b - 0x80) * 0x1000 + (c - 0x80) * 0x40 + (d - 0x80))) 3
              else .faulty 2
  else .faulty 0

/-- The first fault of octets that are no text: where it is, and how many octets it takes unless
the input ends inside a character. -/
structure Fault where
  /-- The number of sound octets before it. -/
  index : Nat
  /-- The faulty octets; `none` where the input ends inside a character. -/
  length : Option Nat
  deriving DecidableEq, Repr

/-- The fault in words. -/
def Fault.message (f : Fault) : String :=
  match f.length with
  | some n => s!"invalid utf-8 sequence of {n} bytes from index {f.index}"
  | none => s!"incomplete utf-8 byte sequence from index {f.index}"

/-- The characters of octets that follow `index` sound ones, up to the first fault. -/
def decodeFrom (index : Nat) : List UInt8 → Except Fault (List Char)
  | [] => .ok []
  | a :: r =>
    match head a r with
    | .char c more => (decodeFrom (index + more + 1) (r.drop more)).map (c :: ·)
    | .faulty more => .error ⟨index, some (more + 1)⟩
    | .cut => .error ⟨index, none⟩
  termination_by bytes => bytes.length
  decreasing_by all_goals grind

/-- The text of octets, or the first fault. -/
def decode (bytes : List UInt8) : Except Fault (List Char) := decodeFrom 0 bytes

/-- The text of octets with U+FFFD for each faulty run and for a character cut off at the end. -/
def decodeLossy : List UInt8 → List Char
  | [] => []
  | a :: r =>
    match head a r with
    | .char c more => c :: decodeLossy (r.drop more)
    | .faulty more => '\uFFFD' :: decodeLossy (r.drop more)
    | .cut => ['\uFFFD']
  termination_by bytes => bytes.length
  decreasing_by all_goals grind

end Relmap.Text.Utf8
