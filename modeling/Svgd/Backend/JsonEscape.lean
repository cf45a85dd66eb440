import Svgd.Lib.TextBuffer
import Svgd.Lib.JsonString

/-!
# Escaping into a buffer

`json_escape` of `src/cfg.c` and `http_json_escape` of `src/http.c`, on the memory they
write. They differ in the characters that are written as `\u`. The source string ends at
its first zero byte. Sizes are of type `size_t`: a difference below zero wraps.
-/

namespace Svgd.Backend

open Lib

/-- `a - b` of two `size_t`. -/
def sizeSub (a b : Nat) : Nat := (a + (2 ^ 64 - b)) % 2 ^ 64

/-- `dest[j++] = '\\'; dest[j++] = c;`, if there is room. -/
def putEscape (c : UInt8) (dest : TextBuffer) : Option TextBuffer :=
  if dest.offset < sizeSub dest.size 2 then (dest.put (ch '\\')).bind (·.put c) else some dest

/-- One turn of the loop. -/
def escapeChar (control : UInt8 → Bool) (c : UInt8) (dest : TextBuffer) : Option TextBuffer :=
  if c = ch '"' ∨ c = ch '\\' then putEscape c dest
  else if c = ch '\n' then putEscape (ch 'n') dest
  else if c = ch '\r' then putEscape (ch 'r') dest
  else if c = ch '\t' then putEscape (ch 't') dest
  else if control c then
    if dest.offset < sizeSub dest.size 7 then dest.snprintf (str "\\u" ++ hex4 c.toNat)
    else some dest
  else dest.put c

/-- The loop, and the terminator behind it. -/
def escapeLoop (control : UInt8 → Bool) : Bytes → TextBuffer → Option TextBuffer
  | [], dest => dest.terminate
  | c :: src, dest =>
      if c ≠ 0 ∧ dest.offset < sizeSub dest.size 1 then
        (escapeChar control c dest).bind (escapeLoop control src)
      else dest.terminate

/-- The body of both functions; the offset that is left is the value returned. -/
def escapeInto (control : UInt8 → Bool) (src : Option Bytes) (dest : TextBuffer) :
    Option TextBuffer :=
  match src with
  | none => some dest
  | some src => if dest.size = 0 then some dest else escapeLoop control src dest

/-- `iscntrl` in the C locale. -/
def isCntrl (c : UInt8) : Bool := c.toNat < 32 || c.toNat = 127

/-- `json_escape`. -/
def cfgJsonEscapeInto (src : Option Bytes) (dest : TextBuffer) : Option TextBuffer :=
  escapeInto isCntrl src dest

/-- `http_json_escape`. -/
def httpJsonEscape (src : Option Bytes) (dest : TextBuffer) : Option TextBuffer :=
  escapeInto (fun c => c.toNat < 0x20) src dest

/-! ## The text that is written -/

/-- What stands for a character, and the number of bytes that must be left for it. -/
def escapeOf (control : UInt8 → Bool) (c : UInt8) : Bytes × Nat :=
  if c = ch '"' ∨ c = ch '\\' then ([ch '\\', c], 2)
  else if c = ch '\n' then ([ch '\\', ch 'n'], 2)
  else if c = ch '\r' then ([ch '\\', ch 'r'], 2)
  else if c = ch '\t' then ([ch '\\', ch 't'], 2)
  else if control c then (str "\\u" ++ hex4 c.toNat, 7)
  else ([c], 1)

/-- The whole escaped form of a string. -/
def fullEscape (control : UInt8 → Bool) (s : Bytes) : Bytes :=
  s.flatMap fun c => (escapeOf control c).1

/-- The text behind a character: an element that there is no room for is left out. -/
def withEscape (control : UInt8 → Bool) (size : Nat) (t : Bytes) (c : UInt8) : Bytes :=
  if t.length < size - (escapeOf control c).2 then t ++ (escapeOf control c).1 else t

/-- The text behind a string. -/
def escapeText (control : UInt8 → Bool) (size : Nat) : Bytes → Bytes → Bytes
  | [], t => t
  | c :: s, t =>
      if t.length < size - 1 then escapeText control size s (withEscape control size t c) else t

end Svgd.Backend
