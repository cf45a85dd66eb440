import Svgd.Gate.ErrorText
import Svgd.Lib.HttpMessage
import Svgd.Lib.JsonForward

/-!
# When an error is one response

The length that an error declares is the length of its body. But the message stands in the
body as it is, and the text is cut behind 511 bytes while all of its bytes are sent. A text
of 512 bytes still ends in the buffer, with a NUL in place of the closing brace.
-/

namespace Svgd.Gate

open Lib Lib.Http

/-- The bytes are one response with the message in its body, all of them from the buffer. -/
structure Framed (message wire : Bytes) : Prop where
  one : ∃ (payload : Bytes) (r : Http.Response payload) (members : List (Bytes × Json)),
    r.framing = .contentLength ∧ wire = r.text ∧ decodeJson payload = some (.obj members)
      ∧ Json.member members (str "error") = some (.str message)
  inside : wire.length ≤ 512

variable {message : Bytes}

/-! ## The response that is meant -/

theorem error_plain : JsonPlain (str "error") := by decide

/-- The body, with what stands behind the closing quote. -/
def errorBody (message rest : Bytes) : Bytes :=
  ch '\x7b' :: ((stringMember (str "error") message error_plain).full ++ rest)

theorem length_errorBody (message rest : Bytes) :
    (errorBody message rest).length = message.length + 11 + rest.length := by
  simp [errorBody, stringMember, Member.full, quoted, str]
  omega

theorem validUtf8_errorBody (message : Bytes) :
    validUtf8 (errorBody message [ch '\x7d']) = true ↔ validUtf8 message = true := by
  have hpiece : Utf8Piece (str "\x7b\"error\":" ++ (quoted message ++ [ch '\x7d']))
      (True ∧ (validUtf8 message = true ∧ True)) :=
    (utf8Piece_ascii (by decide)).append
      ((utf8Piece_quoted message).append (utf8Piece_ascii (by decide)))
  rw [true_and, and_true] at hpiece
  exact hpiece.valid

/-- **The message arrives if it needs no escape, and the body is closed.** -/
theorem errorBody_iff {rest : Bytes} (hrest : rest.length = 1) :
    (∃ members, decodeJson (errorBody message rest) = some (.obj members)
      ∧ Json.member members (str "error") = some (.str message))
    ↔ JsonPlain message ∧ validUtf8 message = true ∧ rest = [ch '\x7d'] := by
  constructor
  · rintro ⟨members, hdecode, hmember⟩
    obtain ⟨hplain, rfl⟩ := plain_of_member error_plain hrest.le hdecode hmember
    exact ⟨hplain, (validUtf8_errorBody message).mp (validUtf8_of_decode hdecode), rfl⟩
  · rintro ⟨hplain, hvalid, rfl⟩
    have hreads := readsAs_object (stringMember (str "error") message error_plain) []
    refine ⟨_, hreads.decode.mpr ⟨?_, (validUtf8_errorBody message).mpr hvalid⟩, ?_⟩
    · exact List.forall_mem_singleton.mpr hplain
    · simp [Json.member, stringMember]

/-! ### Its head -/

/-- A header field with a literal name. -/
def literalField (name : String) (value : Bytes) (hname : str name ≠ [])
    (htoken : (str name).all isToken = true) (hvalue : ∀ b ∈ value, isText b = true) : Field :=
  ⟨str name, value, hname, List.all_eq_true.mp htoken, hvalue⟩

/-- The field that declares the length. -/
def lengthField (length : Nat) : Field :=
  literalField "Content-Length" (ch ' ' :: printNat length) (by decide) (by decide)
    (List.forall_mem_cons.mpr ⟨by decide, fun _ hb =>
      isText_of_class (isDigit_of_mem_printNat hb) (by decide)⟩)

theorem content_lengthField (length : Nat) : (lengthField length).content = printNat length := by
  have hdigit : ∀ b ∈ printNat length, isDigit b = true := fun b hb => isDigit_of_mem_printNat hb
  have hows : ∀ {ds : Bytes}, (∀ b ∈ ds, isDigit b = true) → ds.dropWhile isOws = ds := by
    intro ds hds
    cases ds with
    | nil => rfl
    | cons d ds =>
        have hne : isOws d = false := by
          have := isDigit_iff.mp (hds d List.mem_cons_self)
          cases h : isOws d with
          | false => rfl
          | true =>
              unfold isOws at h
              rw [Bool.or_eq_true, beq_iff_eq, beq_iff_eq] at h
              rcases h with rfl | rfl <;> exact absurd this (by decide)
        rw [List.dropWhile_cons_of_neg (by rw [hne]; decide)]
  have hlower : (printNat length).map lower = printNat length := by
    rw [List.map_congr_left (g := id) fun b hb => ?_, List.map_id]
    have := isDigit_iff.mp (hdigit b hb)
    unfold lower
    rw [if_neg (by omega)]
    rfl
  show (((printNat length).dropWhile isOws).reverse.dropWhile isOws).reverse.map lower = _
  rw [hows hdigit, hows fun b hb => hdigit b (List.mem_reverse.mp hb), List.reverse_reverse, hlower]

/-- The field of the media type. -/
def typeField : Field :=
  literalField "Content-Type" (str " application/json") (by decide) (by decide)
    (List.all_eq_true.mp (by decide))

/-- The fields behind the length. -/
def otherFields : List Field :=
  [literalField "Access-Control-Allow-Origin" (str " *") (by decide) (by decide)
      (List.all_eq_true.mp (by decide)),
    literalField "Connection" (str " close") (by decide) (by decide)
      (List.all_eq_true.mp (by decide))]

/-- The fields of an error. -/
def errorFields (length : Nat) : List Field := typeField :: lengthField length :: otherFields

theorem errorFields_others (length : Nat) : ∀ f ∈ errorFields length, f ≠ lengthField length →
    ¬ f.Named (str "content-length") := by
  have hother : ∀ f ∈ typeField :: otherFields, ¬ f.name.map lower = str "content-length" := by decide
  intro f hf hne
  rcases List.mem_cons.mp hf with rfl | hf
  · exact hother _ List.mem_cons_self
  rcases List.mem_cons.mp hf with rfl | hf
  · exact absurd rfl hne
  · exact hother f (List.mem_cons_of_mem _ hf)

theorem errorFields_encoding (length : Nat) : ∀ f ∈ errorFields length,
    ¬ f.Named (str "transfer-encoding") := by
  have hnames : (errorFields length).map Field.name
      = [str "Content-Type", str "Content-Length", str "Access-Control-Allow-Origin",
        str "Connection"] := rfl
  have hall : ∀ name ∈ (errorFields length).map Field.name,
      ¬ name.map lower = str "transfer-encoding" := by
    rw [hnames]
    decide
  exact fun f hf => hall f.name (List.mem_map_of_mem hf)

variable {code : Nat} {reason : Bytes} (hcode : 200 ≤ code ∧ code ≤ 599 ∧ code ≠ 204 ∧ code ≠ 304)
  (hreason : ∀ b ∈ reason, isText b = true)

/-- A body with the head of an error in front of it. -/
def errorResponse (payload : Bytes) : Http.Response payload where
  code := code
  reason := reason
  fields := errorFields payload.length
  framing := .contentLength
  code_final := hcode
  reason_text := hreason
  announced := by
    refine ⟨⟨lengthField payload.length, by simp [errorFields], rfl⟩, fun f hf hname => ?_,
      errorFields_encoding payload.length⟩
    by_cases heq : f = lengthField payload.length
    · rw [heq, content_lengthField]
      exact ⟨printNat_ne_nil _, fun b hb => isDigit_of_mem_printNat hb, natValue_printNat _⟩
    · exact absurd hname (errorFields_others payload.length f hf heq)

/-- The text up to the closing brace. -/
def errorFront (statusLine length message : Bytes) : Bytes :=
  statusLine
    ++ (str "\r\nContent-Type: application/json\r\nContent-Length: "
    ++ (length
    ++ (str "\r\nAccess-Control-Allow-Origin: *\r\nConnection: close\r\n\r\n\x7b\"error\":\""
    ++ (message ++ str "\""))))

theorem errorText_eq (statusLine length message : Bytes) :
    errorText statusLine length message = errorFront statusLine length message ++ [ch '\x7d'] := by
  simp only [errorText, errorFront, List.append_assoc]
  rfl

/-- The status line, as both functions have it. -/
def errorStatus (code : Nat) (reason : Bytes) : Bytes :=
  str "HTTP/1.1 " ++ (printInt code ++ ch ' ' :: reason)

theorem text_errorResponse (rest : Bytes) (hrest : rest.length = 1) :
    (errorResponse hcode hreason (errorBody message rest)).text
      = errorFront (errorStatus code reason) (printNat (message.length + 12)) message ++ rest := by
  have hlength := length_errorBody message rest
  rw [hrest] at hlength
  have hone : str "\r\nContent-Type: application/json\r\nContent-Length: "
      = crlf ++ (typeField.line ++ (crlf ++ str "Content-Length: ")) := by decide
  have htwo : str "\r\nAccess-Control-Allow-Origin: *\r\nConnection: close\r\n\r\n\x7b\"error\":\""
      = crlf ++ (lineTexts (otherFields.map Field.line) ++ (crlf ++ str "\x7b\"error\":\"")) := by
    decide
  have hbody : errorBody message rest
      = str "\x7b\"error\":\"" ++ (message ++ (str "\"" ++ rest)) := by
    simp [errorBody, stringMember, Member.full, quoted, str]
  have hfield : (lengthField (message.length + 12)).line
      = str "Content-Length: " ++ printNat (message.length + 12) := by
    show str "Content-Length" ++ ch ':' :: (ch ' ' :: printNat _) = _
    rw [show str "Content-Length: " = str "Content-Length" ++ [ch ':', ch ' '] by decide,
      List.append_assoc]
    rfl
  have htext : (errorResponse hcode hreason (errorBody message rest)).text
      = lineTexts (errorStatus code reason :: (errorFields (errorBody message rest).length).map
        Field.line) ++ (crlf ++ errorBody message rest) := rfl
  rw [htext, hlength, errorFront, hone, htwo, hbody]
  simp only [errorFields, List.map_cons, hfield, lineTexts, List.flatMap_cons, List.append_assoc]

/-! ## What is sent -/

theorem length_sendFormatted (stack : Nat → UInt8) (text : Bytes) :
    (sendFormatted stack text).length = sentLength text := by
  unfold sendFormatted
  rw [List.length_map, List.length_range]

/-- A text of 512 bytes is cut, and its last byte is the terminator. -/
theorem sendFormatted_front {front : Bytes} (hfront : front.length ≤ 511) (stack : Nat → UInt8)
    (last : UInt8) : sendFormatted stack (front ++ [last])
      = front ++ [if front.length < 511 then last else 0] := by
  have hlen : (front ++ [last]).length = front.length + 1 := List.length_append
  have hsent : sentLength (front ++ [last]) = front.length + 1 := by
    unfold sentLength
    rw [if_pos (by omega), hlen]
  unfold sendFormatted
  rw [hsent]
  by_cases hfits : front.length < 511
  · rw [if_pos hfits, TextBuffer.written_of_fits (by omega),
      TextBuffer.map_store_zero (by rw [List.length_append, hlen]; omega), ← hlen, List.take_left]
  · have hcut : TextBuffer.written 512 (front ++ [last]) = front ++ [0] := by
      unfold TextBuffer.written Lib.snprintf
      rw [List.take_append_of_le_length (by omega), List.take_of_length_le (by omega)]
    rw [if_neg hfits, hcut, TextBuffer.map_store_zero (by rw [List.length_append]; exact Nat.le_refl _),
      List.take_of_length_le (by rw [List.length_append]; exact Nat.le_refl _)]

/-! ## Both functions -/

include hcode hreason in
/-- **An error is one response exactly if its text fits, and its message needs no escape.** -/
theorem framed_errorText {length : Bytes}
    (hlength : message.length ≤ 512 → length = printNat (message.length + 12))
    (stack : Nat → UInt8) :
    Framed message (sendFormatted stack (errorText (errorStatus code reason) length message))
      ↔ (errorText (errorStatus code reason) length message).length ≤ 511 ∧ JsonPlain message
        ∧ validUtf8 message = true := by
  have htext := errorText_eq (errorStatus code reason) length message
  generalize hfront : errorFront (errorStatus code reason) length message = front at htext
  have hlen : (errorText (errorStatus code reason) length message).length = front.length + 1 := by
    rw [htext]
    exact List.length_append
  by_cases hlong : 511 < front.length
  · -- bytes behind the buffer are sent
    constructor
    · intro h
      have hinside := h.inside
      rw [length_sendFormatted, sentLength, hlen] at hinside
      split at hinside <;> omega
    · rintro ⟨hshort, -⟩
      omega
  have hmessage : message.length ≤ 512 := by
    rw [← hfront] at hlong
    simp only [errorFront, List.length_append] at hlong
    omega
  obtain rfl := hlength hmessage
  have hwire := sendFormatted_front (Nat.le_of_not_lt hlong) stack (ch '\x7d')
  rw [← htext] at hwire
  generalize hrest : [if front.length < 511 then ch '\x7d' else 0] = rest at hwire
  have hone : rest.length = 1 := by rw [← hrest]; rfl
  have hclosed : rest = [ch '\x7d'] ↔ front.length < 511 := by
    rw [← hrest]
    by_cases hfits : front.length < 511
    · simp [hfits]
    · simp [hfits]
      decide
  have hresponse : sendFormatted stack
      (errorText (errorStatus code reason) (printNat (message.length + 12)) message)
        = (errorResponse hcode hreason (errorBody message rest)).text := by
    rw [hwire, text_errorResponse hcode hreason rest hone, hfront]
  constructor
  · rintro ⟨⟨payload, r, members, hframing, heq, hdecode, hmember⟩, -⟩
    -- the payload is the body, because the first empty line ends the head
    have hpayload : payload = errorBody message rest := by
      have hunique := Http.Response.framing_text_unique (heq.symm.trans hresponse)
      rwa [hframing] at hunique
    rw [hpayload] at hdecode
    obtain ⟨hplain, hvalid, hbrace⟩ := (errorBody_iff hone).mp ⟨members, hdecode, hmember⟩
    have := hclosed.mp hbrace
    exact ⟨by omega, hplain, hvalid⟩
  · rintro ⟨hshort, hplain, hvalid⟩
    have hbrace := hclosed.mpr (by omega)
    obtain ⟨members, hdecode, hmember⟩ := (errorBody_iff hone).mpr ⟨hplain, hvalid, hbrace⟩
    refine ⟨⟨_, errorResponse hcode hreason (errorBody message rest), members, rfl, hresponse,
      hdecode, hmember⟩, ?_⟩
    rw [hwire, List.length_append, hone]
    omega

theorem length_errorText (statusLine length message : Bytes) :
    (errorText statusLine length message).length
      = statusLine.length + length.length + message.length + 117 := by
  have hone : (str "\r\nContent-Type: application/json\r\nContent-Length: ").length = 50 := by decide
  have htwo : (str "\r\nAccess-Control-Allow-Origin: *\r\nConnection: close\r\n\r\n\x7b\"error\":\"").length
      = 65 := by decide
  have hthree : (str "\"\x7d").length = 2 := by decide
  unfold errorText
  simp only [List.length_append, hone, htwo, hthree]
  omega

/-- A number from 100 on has three digits at least. -/
theorem three_le_printNat {n : Nat} (h : 100 ≤ n) : 3 ≤ (printNat n).length := by
  have hdigit : ∀ b ∈ printNat n, isDigit b = true := fun b hb => isDigit_of_mem_printNat hb
  have hlt := natValue_lt hdigit
  rw [natValue_printNat] at hlt
  by_contra hshort
  have : 10 ^ (printNat n).length ≤ 10 ^ 2 := Nat.pow_le_pow_right (by decide) (by omega)
  omega

/-- A text with a declared length of three digits. -/
theorem fits_iff {statusLine length : Bytes} {k : Nat} (hstatus : statusLine.length + 120 + k = 511)
    (hk : 88 ≤ k ∧ k < 988) (hlength : message.length ≤ 512 → length = printNat (message.length + 12)) :
    (errorText statusLine length message).length ≤ 511 ↔ message.length ≤ k := by
  rw [length_errorText]
  constructor
  · intro hfits
    obtain rfl := hlength (by omega)
    by_contra hlong
    have := three_le_printNat (n := message.length + 12) (by omega)
    omega
  · intro hshort
    obtain rfl := hlength (by omega)
    have := length_printNat_le (n := message.length + 12) (k := 3) (by decide) (by omega)
    omega

theorem framed_sendError (message : Bytes) (stack : Nat → UInt8) :
    Framed message (sendError stack message)
      ↔ message.length ≤ 367 ∧ JsonPlain message ∧ validUtf8 message = true := by
  have hlength : message.length ≤ 512 →
      printNat ((message.length + 12) % 2 ^ 64) = printNat (message.length + 12) := by
    intro h
    rw [Nat.mod_eq_of_lt (by omega)]
  have hcode : 200 ≤ 400 ∧ 400 ≤ 599 ∧ 400 ≠ 204 ∧ 400 ≠ 304 := by decide
  have hreason : ∀ b ∈ str "Bad Request", isText b = true := List.all_eq_true.mp (by decide)
  have hframed := framed_errorText hcode hreason hlength stack
  have hstatus : errorStatus 400 (str "Bad Request") = str "HTTP/1.1 400 Bad Request" := by decide
  rw [hstatus, fits_iff (k := 367) (by decide) (by decide) hlength] at hframed
  exact hframed

theorem framed_send401Auth (message : Bytes) (stack : Nat → UInt8) :
    Framed message (send401Auth stack message)
      ↔ message.length ≤ 366 ∧ JsonPlain message ∧ validUtf8 message = true := by
  have hlength : message.length ≤ 512 →
      printInt (toInt32 (message.length + 12)) = printNat (message.length + 12) := by
    intro h
    have hvalue : toInt32 ((message.length : Int) + 12) = ((message.length + 12 : Nat) : Int) := by
      unfold toInt32
      omega
    rw [hvalue]
    rfl
  have hcode : 200 ≤ 401 ∧ 401 ≤ 599 ∧ 401 ≠ 204 ∧ 401 ≠ 304 := by decide
  have hreason : ∀ b ∈ str "Unauthorized", isText b = true := List.all_eq_true.mp (by decide)
  have hframed := framed_errorText hcode hreason hlength stack
  have hstatus : errorStatus 401 (str "Unauthorized") = str "HTTP/1.1 401 Unauthorized" := by decide
  rw [hstatus, fits_iff (k := 366) (by decide) (by decide) hlength] at hframed
  exact hframed

/-- **Errors are one response each, with the message in it, exactly for messages of up to 367
or 366 bytes that need no escape.** -/
theorem error_framed_iff (message : Bytes) (stack : Nat → UInt8) :
    (Framed message (sendError stack message)
      ↔ message.length ≤ 367 ∧ JsonPlain message ∧ validUtf8 message = true)
    ∧ (Framed message (send401Auth stack message)
      ↔ message.length ≤ 366 ∧ JsonPlain message ∧ validUtf8 message = true) :=
  ⟨framed_sendError message stack, framed_send401Auth message stack⟩

/-- What the backend says of an endpoint with a quote in it. -/
theorem error_not_framed :
    ¬ ∀ message : Bytes, (0 : UInt8) ∉ message → ∀ stack,
      Framed message (sendError stack message) ∧ Framed message (send401Auth stack message) := by
  intro h
  have hframed := (h (str "Unknown endpoint: a\"b") (by decide) fun _ => 0).1
  exact absurd ((framed_sendError _ _).mp hframed).2.1 (by decide)

end Svgd.Gate
