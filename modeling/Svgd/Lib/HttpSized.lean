import Svgd.Lib.HttpMessage
import Svgd.Lib.Decimal

/-!
# Responses of a declared length

The usual response: some header fields, among them one `Content-Length`, and a payload of
that many bytes. `sized` builds it from its parts, `headText` is what a server prints in
front of the payload, and a head that a server prints is one response with whatever payload
of the declared length it is followed by (`text_sized`).
-/

namespace Lib.Http

theorem str_append (a b : String) : str (a ++ b) = str a ++ str b := by
  unfold str
  rw [String.toList_append, List.map_append]

/-- The field frames no payload. -/
def Field.Neutral (f : Field) : Prop :=
  ¬ f.Named (str "content-length") ∧ ¬ f.Named (str "transfer-encoding")

instance (f : Field) : Decidable f.Neutral :=
  inferInstanceAs (Decidable (¬ f.name.map lower = _ ∧ ¬ f.name.map lower = _))

/-- The field declares a length, in decimal. -/
structure Field.Declares (f : Field) (length : Nat) : Prop where
  named : f.Named (str "content-length")
  content : f.content = printNat length

/-- A status line. -/
def statusText (code : Nat) (reason : Bytes) : Bytes :=
  str "HTTP/1.1 " ++ (printInt code ++ ch ' ' :: reason)

/-- A head, with the empty line that ends it. -/
def headText (code : Nat) (reason : Bytes) (fields : List Field) : Bytes :=
  lineTexts (statusText code reason :: fields.map Field.line) ++ crlf

section

variable {code : Nat} {reason payload : Bytes} {front back : List Field} {declared : Field}

theorem declared_unframed (hdeclared : declared.Declares payload.length) :
    ¬ declared.Named (str "transfer-encoding") := by
  have hname : declared.name.map lower = str "content-length" := hdeclared.named
  unfold Field.Named
  rw [hname]
  decide

/-- A response whose length is declared by one field. -/
def sized (hcode : 200 ≤ code ∧ code ≤ 599 ∧ code ≠ 204 ∧ code ≠ 304)
    (hreason : ∀ b ∈ reason, isText b = true) (hdeclared : declared.Declares payload.length)
    (hneutral : ∀ f ∈ front ++ back, f.Neutral) : Response payload where
  code := code
  reason := reason
  fields := front ++ declared :: back
  framing := .contentLength
  code_final := hcode
  reason_text := hreason
  announced := by
    have hfields : ∀ f ∈ front ++ declared :: back, f = declared ∨ f.Neutral := by
      intro f hf
      rw [List.mem_append, List.mem_cons] at hf
      rcases hf with hf | rfl | hf
      · exact Or.inr (hneutral f (List.mem_append_left _ hf))
      · exact Or.inl rfl
      · exact Or.inr (hneutral f (List.mem_append_right _ hf))
    refine ⟨⟨declared, by simp, hdeclared.named⟩, fun f hf hname => ?_, fun f hf => ?_⟩
    · rcases hfields f hf with rfl | hother
      · rw [hdeclared.content]
        exact ⟨printNat_ne_nil _, fun b hb => isDigit_of_mem_printNat hb, natValue_printNat _⟩
      · exact absurd hname hother.1
    · rcases hfields f hf with rfl | hother
      · exact declared_unframed hdeclared
      · exact hother.2

theorem text_sized (hcode : 200 ≤ code ∧ code ≤ 599 ∧ code ≠ 204 ∧ code ≠ 304)
    (hreason : ∀ b ∈ reason, isText b = true) (hdeclared : declared.Declares payload.length)
    (hneutral : ∀ f ∈ front ++ back, f.Neutral) :
    (sized hcode hreason hdeclared hneutral).text
      = headText code reason (front ++ declared :: back) ++ payload := by
  have htext : (sized hcode hreason hdeclared hneutral).text
      = lineTexts (statusText code reason :: (front ++ declared :: back).map Field.line)
        ++ (crlf ++ payload) := rfl
  rw [htext, headText, List.append_assoc]

end

/-! ## Fields as they are printed -/

/-- `name: value`. -/
def Field.printed (name value : Bytes) (hname : name ≠ [] ∧ ∀ b ∈ name, isToken b = true)
    (hvalue : ∀ b ∈ value, isText b = true) : Field :=
  ⟨name, ch ' ' :: value, hname.1, hname.2, List.forall_mem_cons.mpr ⟨by decide, hvalue⟩⟩

theorem dropWhile_isOws {ds : Bytes} (hds : ∀ b ∈ ds, isDigit b = true) :
    ds.dropWhile isOws = ds := by
  cases ds with
  | nil => rfl
  | cons d ds =>
      have hd : isOws d = false := by
        have hrange := isDigit_iff.mp (hds d List.mem_cons_self)
        rw [Bool.eq_false_iff]
        intro h
        unfold isOws at h
        rw [Bool.or_eq_true, beq_iff_eq, beq_iff_eq] at h
        rcases h with rfl | rfl <;> exact absurd hrange (by decide)
      rw [List.dropWhile_cons_of_neg (by rw [hd]; decide)]

theorem map_lower_digits {ds : Bytes} (hds : ∀ b ∈ ds, isDigit b = true) : ds.map lower = ds := by
  have heach : ∀ b ∈ ds, lower b = b := by
    intro b hb
    have := isDigit_iff.mp (hds b hb)
    unfold lower
    rw [if_neg (by omega)]
  rw [List.map_congr_left heach, List.map_id']

/-- `Content-Length: n`. -/
def Field.length (n : Nat) : Field :=
  .printed (str "Content-Length") (printNat n)
    ⟨by decide, List.all_eq_true.mp (by decide : (str "Content-Length").all isToken = true)⟩
    fun _ hb => isText_of_class (isDigit_of_mem_printNat hb) (by decide)

theorem declares_length (n : Nat) : (Field.length n).Declares n where
  named := rfl
  content := by
    have hdigit : ∀ b ∈ printNat n, isDigit b = true := fun b hb => isDigit_of_mem_printNat hb
    show (((ch ' ' :: printNat n).dropWhile isOws).reverse.dropWhile isOws).reverse.map lower = _
    rw [List.dropWhile_cons_of_pos (by decide), dropWhile_isOws hdigit,
      dropWhile_isOws fun b hb => hdigit b (List.mem_reverse.mp hb), List.reverse_reverse,
      map_lower_digits hdigit]

/-! ## Usual fields -/

theorem isText_of_all {s : Bytes} (h : s.all isText = true) : ∀ b ∈ s, isText b = true :=
  List.all_eq_true.mp h

/-- The field for a media type. -/
def contentTypeField (ct : Bytes) (hct : ∀ b ∈ ct, isText b = true) : Field :=
  .printed (str "Content-Type") ct
    ⟨by decide, List.all_eq_true.mp (by decide : (str "Content-Type").all isToken = true)⟩ hct

def allowOriginField : Field :=
  .printed (str "Access-Control-Allow-Origin") (str "*")
    ⟨by decide, List.all_eq_true.mp
      (by decide : (str "Access-Control-Allow-Origin").all isToken = true)⟩
    (isText_of_all (by decide))

def allowMethodsField (methods : Bytes) (h : ∀ b ∈ methods, isText b = true) : Field :=
  .printed (str "Access-Control-Allow-Methods") methods
    ⟨by decide, List.all_eq_true.mp
      (by decide : (str "Access-Control-Allow-Methods").all isToken = true)⟩ h

def allowHeadersField (headers : Bytes) (h : ∀ b ∈ headers, isText b = true) : Field :=
  .printed (str "Access-Control-Allow-Headers") headers
    ⟨by decide, List.all_eq_true.mp
      (by decide : (str "Access-Control-Allow-Headers").all isToken = true)⟩ h

def closeField : Field :=
  .printed (str "Connection") (str "close")
    ⟨by decide, List.all_eq_true.mp (by decide : (str "Connection").all isToken = true)⟩
    (isText_of_all (by decide))

theorem neutral_contentType {ct : Bytes} (hct : ∀ b ∈ ct, isText b = true) :
    (contentTypeField ct hct).Neutral :=
  show ¬ (str "Content-Type").map lower = _ ∧ ¬ (str "Content-Type").map lower = _ by decide

theorem neutral_allowMethods {m : Bytes} (h : ∀ b ∈ m, isText b = true) :
    (allowMethodsField m h).Neutral :=
  show ¬ (str "Access-Control-Allow-Methods").map lower = _
    ∧ ¬ (str "Access-Control-Allow-Methods").map lower = _ by decide

theorem neutral_allowHeaders {m : Bytes} (h : ∀ b ∈ m, isText b = true) :
    (allowHeadersField m h).Neutral :=
  show ¬ (str "Access-Control-Allow-Headers").map lower = _
    ∧ ¬ (str "Access-Control-Allow-Headers").map lower = _ by decide

theorem neutral_closing : ∀ f ∈ [allowOriginField, closeField], f.Neutral := by decide

theorem line_printed {name value : Bytes} (hname : name ≠ [] ∧ ∀ b ∈ name, isToken b = true)
    (hvalue : ∀ b ∈ value, isText b = true) :
    (Field.printed name value hname hvalue).line = name ++ (str ": " ++ value) := rfl

theorem line_length (n : Nat) : (Field.length n).line = str "Content-Length: " ++ printNat n := by
  show str "Content-Length" ++ (str ": " ++ printNat n) = _
  rw [← List.append_assoc]
  rfl

/-- A head with a media type, and with other fields behind the length. -/
theorem headText_typed {code n : Nat} {reason ct : Bytes} (hct : ∀ b ∈ ct, isText b = true)
    (back : List Field) :
    headText code reason ([contentTypeField ct hct] ++ .length n :: back)
      = str "HTTP/1.1 " ++ (printInt code ++ (str " " ++ (reason ++ (str "\r\nContent-Type: "
        ++ (ct ++ (str "\r\nContent-Length: " ++ (printNat n
        ++ (crlf ++ (lineTexts (back.map Field.line) ++ crlf))))))))) := by
  have hone : str "\r\nContent-Type: " = crlf ++ (str "Content-Type" ++ str ": ") := by decide
  have htwo : str "\r\nContent-Length: " = crlf ++ str "Content-Length: " := by decide
  have hthree : str " " = [ch ' '] := rfl
  rw [hone, htwo, hthree]
  simp only [headText, statusText, lineTexts, List.map_cons, List.flatMap_cons, contentTypeField,
    line_printed, line_length, List.append_assoc, List.cons_append, List.nil_append]

/-! ## Senders -/

/-- Whatever the sender finds in its memory, it sends one response with this status and payload. -/
def OneResponse {μ : Type} (status : Nat) (payload : Bytes) (wire : μ → Bytes) : Prop :=
  ∃ m : Response payload, m.code = status ∧ m.framing = .contentLength ∧ ∀ mem, wire mem = m.text

theorem oneResponse_of_head {μ : Type} {code : Nat} {reason payload : Bytes}
    {front back : List Field} {wire : μ → Bytes}
    (hcode : 200 ≤ code ∧ code ≤ 599 ∧ code ≠ 204 ∧ code ≠ 304)
    (hreason : ∀ b ∈ reason, isText b = true) (hneutral : ∀ f ∈ front ++ back, f.Neutral)
    (h : ∀ mem, wire mem
      = headText code reason (front ++ .length payload.length :: back) ++ payload) :
    OneResponse code payload wire :=
  ⟨sized hcode hreason (declares_length payload.length) hneutral, rfl, rfl,
    fun mem => (h mem).trans (text_sized hcode hreason _ hneutral).symm⟩

end Lib.Http
