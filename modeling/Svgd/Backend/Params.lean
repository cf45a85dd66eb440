import Svgd.Lib.CString

/-!
# Parameters of an LSRP request

How `src/handler.c` reads a value out of the parameter text, and how it undoes the
percent-encoding of a Grafana body.
-/

namespace Svgd.Backend

open Lib

/-- `handler_get_param`: the first place where `key=` stands, up to the next `&`. -/
def handlerGetParam (params key : Bytes) : Option Bytes :=
  let searchKey := snprintf 256 (key ++ str "=")
  match strstr params searchKey with
  | none => none
  | some pos =>
      let value := pos.drop searchKey.length
      some (untilOr value (strchr value (ch '&')))

/-- `hexval` on a hex digit. -/
def hexval (c : UInt8) : Nat :=
  if ch '0' ≤ c ∧ c ≤ ch '9' then c.toNat - 48
  else if ch 'a' ≤ c ∧ c ≤ ch 'f' then c.toNat - 87
  else c.toNat - 55

/-- `isxdigit`. -/
def isXDigit (c : UInt8) : Bool :=
  (ch '0' ≤ c && c ≤ ch '9') || (ch 'a' ≤ c && c ≤ ch 'f') || (ch 'A' ≤ c && c ≤ ch 'F')

/-- `url_decode`: `+` is a space, `%XX` a byte, anything else itself. -/
def urlDecode : Bytes → Bytes
  | [] => []
  | c :: s =>
      if c = ch '+' then ch ' ' :: urlDecode s
      else
        match s with
        | h :: l :: rest =>
            if c = ch '%' ∧ isXDigit h ∧ isXDigit l then
              UInt8.ofNat (hexval h * 16 + hexval l) :: urlDecode rest
            else c :: urlDecode (h :: l :: rest)
        | short => c :: urlDecode short

/-- A byte that is neither `+` nor `%` is passed through. -/
theorem urlDecode_cons {c : UInt8} (hp : c ≠ ch '+') (hc : c ≠ ch '%') (s : Bytes) :
    urlDecode (c :: s) = c :: urlDecode s := by
  match s with
  | [] => simp [urlDecode, hp]
  | [_] => simp [urlDecode, hp]
  | _ :: _ :: _ => simp [urlDecode, hp, hc]

/-- A complete escape is decoded to its byte. -/
theorem urlDecode_escape {h l : UInt8} (hh : isXDigit h = true) (hl : isXDigit l = true)
    (s : Bytes) : urlDecode (ch '%' :: h :: l :: s)
      = UInt8.ofNat (hexval h * 16 + hexval l) :: urlDecode s := by
  have hp : ch '%' ≠ ch '+' := by decide
  rw [urlDecode]
  simp [hp, hh, hl]

end Svgd.Backend
