import Svgd.Lib.Json

/-!
# HTTP/1.1 messages

A response as a sender may write it: a status line, header fields, an empty line, and
a payload in one of three framings. A chunked payload is a list of chunks, cut at any
place, each with its size in hexadecimal and possibly an extension, and ends in a chunk
of size zero and trailer fields. A request is written the same way behind its request line.
The fields of `Response` and `Request` that are propositions say what makes the message a
valid one.
-/

namespace Lib.Http

/-- A line end. -/
def crlf : Bytes := str "\r\n"

/-- A byte that may stand in a line. -/
def isText (b : UInt8) : Bool := b != ch '\r' && b != ch '\n' && b != 0

/-- Optional white space. -/
def isOws (b : UInt8) : Bool := b == ch ' ' || b == ch '\t'

/-- A byte of a field name. -/
def isToken (b : UInt8) : Bool :=
  33 ≤ b.toNat && b.toNat ≤ 126 && !(str "\"(),/:;<=>?@[\\]\x7b\x7d").contains b

/-- A letter in lower case. -/
def lower (b : UInt8) : UInt8 := if 65 ≤ b.toNat ∧ b.toNat ≤ 90 then b + 32 else b

/-! ## Header fields -/

/-- A header or trailer field. -/
structure Field where
  name : Bytes
  value : Bytes
  name_ne : name ≠ []
  name_token : ∀ b ∈ name, isToken b = true
  value_text : ∀ b ∈ value, isText b = true

namespace Field

/-- The line of a field. -/
def line (f : Field) : Bytes := f.name ++ ch ':' :: f.value

/-- The field has this name, given in lower case. -/
def Named (f : Field) (name : Bytes) : Prop := f.name.map lower = name

/-- The value without the white space around it, in lower case. -/
def content (f : Field) : Bytes :=
  (((f.value.dropWhile isOws).reverse.dropWhile isOws).reverse).map lower

end Field

/-! ## Chunks -/

/-- The number a string of hex digits stands for. -/
def sizeValue (s : Bytes) : Nat := s.foldl (fun a b => a * 16 + (hexValue b).getD 0) 0

/-- A chunk extension: nothing, or a text that starts with a semicolon. -/
def IsExtension (e : Bytes) : Prop :=
  (∀ b ∈ e, isText b = true) ∧ (e = [] ∨ ∃ t, e.dropWhile isOws = ch ';' :: t)

/-- A chunk that carries data. -/
structure Chunk where
  size : Bytes
  extension : Bytes
  data : Bytes
  data_ne : data ≠ []
  size_hex : ∀ b ∈ size, (hexValue b).isSome = true
  size_data : sizeValue size = data.length
  is_extension : IsExtension extension

/-- A chunk as it is sent. -/
def Chunk.text (c : Chunk) : Bytes := (c.size ++ c.extension) ++ (crlf ++ (c.data ++ crlf))

/-- A payload in chunks. -/
structure ChunkedBody (payload : Bytes) where
  chunks : List Chunk
  zeros : Bytes
  extension : Bytes
  trailers : List Field
  zeros_ne : zeros ≠ []
  zeros_zero : ∀ b ∈ zeros, b = ch '0'
  is_extension : IsExtension extension
  carries : chunks.flatMap (·.data) = payload

/-- Lines, each with its line end. -/
def lineTexts (ls : List Bytes) : Bytes := ls.flatMap (· ++ crlf)

/-- A chunked payload as it is sent. -/
def ChunkedBody.text {payload : Bytes} (b : ChunkedBody payload) : Bytes :=
  b.chunks.flatMap Chunk.text
    ++ ((b.zeros ++ b.extension) ++ (crlf ++ (lineTexts (b.trailers.map Field.line) ++ crlf)))

/-! ## Responses -/

/-- How a payload is framed. -/
inductive Framing (payload : Bytes) where
  | contentLength
  | untilClose
  | chunked (body : ChunkedBody payload)

namespace Framing

variable {payload : Bytes}

/-- What follows the head. -/
def text : Framing payload → Bytes
  | .contentLength => payload
  | .untilClose => payload
  | .chunked body => body.text

/-- The header fields announce the framing, and no other. -/
def Announced : Framing payload → List Field → Prop
  | .contentLength, fs =>
      (∃ f ∈ fs, f.Named (str "content-length"))
      ∧ (∀ f ∈ fs, f.Named (str "content-length") →
          f.content ≠ [] ∧ (∀ b ∈ f.content, isDigit b = true) ∧ natValue f.content = payload.length)
      ∧ ∀ f ∈ fs, ¬ f.Named (str "transfer-encoding")
  | .untilClose, fs =>
      ∀ f ∈ fs, ¬ f.Named (str "content-length") ∧ ¬ f.Named (str "transfer-encoding")
  | .chunked _, fs =>
      (∃ f ∈ fs, f.Named (str "transfer-encoding"))
      ∧ (∀ f ∈ fs, f.Named (str "transfer-encoding") → f.content = str "chunked")
      ∧ ∀ f ∈ fs, ¬ f.Named (str "content-length")

end Framing

/-- A final response with a payload. -/
structure Response (payload : Bytes) where
  code : Nat
  reason : Bytes
  fields : List Field
  framing : Framing payload
  code_final : 200 ≤ code ∧ code ≤ 599 ∧ code ≠ 204 ∧ code ≠ 304
  reason_text : ∀ b ∈ reason, isText b = true
  announced : framing.Announced fields

namespace Response

variable {payload : Bytes}

/-- The status line. -/
def statusLine (r : Response payload) : Bytes :=
  str "HTTP/1.1 " ++ (printInt r.code ++ ch ' ' :: r.reason)

/-- The lines of the head. -/
def headLines (r : Response payload) : List Bytes := r.statusLine :: r.fields.map Field.line

/-- The response as it is sent. -/
def text (r : Response payload) : Bytes := lineTexts r.headLines ++ (crlf ++ r.framing.text)

end Response

/-! ## Requests -/

/-- A request with a payload, and with one length field at most. -/
structure Request (payload : Bytes) where
  method : Bytes
  target : Bytes
  fields : List Field
  framing : Framing payload
  method_ne : method ≠ []
  method_token : ∀ b ∈ method, isToken b = true
  target_ne : target ≠ []
  target_text : ∀ b ∈ target, isText b = true ∧ b ≠ ch ' '
  announced : framing.Announced fields
  /-- The end of a connection frames no request. -/
  framed : framing = .untilClose → payload = []
  one_length : ∀ before after f, fields = before ++ f :: after → f.Named (str "content-length") →
    ∀ g ∈ before ++ after, ¬ g.Named (str "content-length")

namespace Request

variable {payload : Bytes}

/-- The request line. -/
def requestLine (r : Request payload) : Bytes :=
  r.method ++ ch ' ' :: (r.target ++ str " HTTP/1.1")

/-- The lines of the head. -/
def headLines (r : Request payload) : List Bytes := r.requestLine :: r.fields.map Field.line

/-- The head, with the empty line that ends it. -/
def head (r : Request payload) : Bytes := lineTexts r.headLines ++ crlf

/-- The request as it is sent. -/
def text (r : Request payload) : Bytes := r.head ++ r.framing.text

end Request

/-! ## Bytes of a message -/

theorem isText_eq_true {b : UInt8} : isText b = true ↔ b ≠ ch '\r' ∧ b ≠ ch '\n' ∧ b ≠ 0 := by
  unfold isText
  simp [and_assoc]

/-- A byte of a class without line ends and NUL may stand in a line. -/
theorem isText_of_class {f : UInt8 → Bool} {b : UInt8} (h : f b = true)
    (hf : f (ch '\r') = false ∧ f (ch '\n') = false ∧ f 0 = false) : isText b = true := by
  rw [isText_eq_true]
  exact ⟨ne_of_class h hf.1, ne_of_class h hf.2.1, ne_of_class h hf.2.2⟩

theorem Field.line_ne_nil (f : Field) : f.line ≠ [] := by
  unfold Field.line
  simp

theorem Field.line_text (f : Field) : ∀ b ∈ f.line, isText b = true := by
  intro b hb
  unfold Field.line at hb
  rw [List.mem_append, List.mem_cons] at hb
  rcases hb with hb | hb | hb
  · exact isText_of_class (f.name_token b hb) (by decide)
  · rw [hb]
    decide
  · exact f.value_text b hb

/-- A first line and the fields behind it. -/
theorem lines_text {first : Bytes} (hne : first ≠ []) (hfirst : ∀ b ∈ first, isText b = true)
    (fields : List Field) :
    ∀ l ∈ first :: fields.map Field.line, l ≠ [] ∧ ∀ b ∈ l, isText b = true := by
  intro l hl
  rw [List.mem_cons, List.mem_map] at hl
  rcases hl with rfl | ⟨f, -, rfl⟩
  · exact ⟨hne, hfirst⟩
  · exact ⟨f.line_ne_nil, f.line_text⟩

namespace Response

variable {payload : Bytes} (r : Response payload)

theorem statusLine_text : ∀ b ∈ r.statusLine, isText b = true := by
  intro b hb
  unfold statusLine at hb
  rw [List.mem_append, List.mem_append, List.mem_cons] at hb
  rcases hb with hb | hb | hb | hb
  · exact List.all_eq_true.mp (by decide : (str "HTTP/1.1 ").all isText = true) b hb
  · rcases mem_printInt hb with hd | hd
    · exact isText_of_class hd (by decide)
    · rw [hd]
      decide
  · rw [hb]
    decide
  · exact r.reason_text b hb

theorem headLines_text : ∀ l ∈ r.headLines, l ≠ [] ∧ ∀ b ∈ l, isText b = true := by
  have hne : r.statusLine ≠ [] := by
    unfold statusLine
    simp [str]
  exact lines_text hne r.statusLine_text _

end Response

namespace Request

variable {payload : Bytes} (r : Request payload)

theorem requestLine_text : ∀ b ∈ r.requestLine, isText b = true := by
  intro b hb
  unfold requestLine at hb
  rw [List.mem_append, List.mem_cons, List.mem_append] at hb
  rcases hb with hb | hb | hb | hb
  · exact isText_of_class (r.method_token b hb) (by decide)
  · rw [hb]
    decide
  · exact (r.target_text b hb).1
  · exact List.all_eq_true.mp (by decide : (str " HTTP/1.1").all isText = true) b hb

theorem headLines_text : ∀ l ∈ r.headLines, l ≠ [] ∧ ∀ b ∈ l, isText b = true := by
  have hne : r.requestLine ≠ [] := by
    unfold requestLine
    simp
  exact lines_text hne r.requestLine_text _

end Request

/-! ## The end of the head -/

/-- The first empty line is the one behind the lines of a head. -/
theorem strstr_head_end {ls : List Bytes} (hne : ls ≠ [])
    (htext : ∀ l ∈ ls, l ≠ [] ∧ ∀ b ∈ l, isText b = true) (s : Bytes) :
    strstr (lineTexts ls ++ (crlf ++ s)) (crlf ++ crlf) = some (crlf ++ crlf ++ s) := by
  induction ls with
  | nil => exact absurd rfl hne
  | cons l ls ih =>
      have hcr : ∀ l' ∈ l :: ls, ch '\r' ∉ l' := by
        intro l' hl' hm
        exact (isText_eq_true.mp ((htext l' hl').2 _ hm)).1 rfl
      have hpat : crlf ++ crlf = ch '\r' :: str "\n\r\n" := rfl
      unfold lineTexts
      rw [List.flatMap_cons, List.append_assoc, List.append_assoc, hpat,
        strstr_skip_head (hcr l (by simp))]
      cases ls with
      | nil => exact strstr_head rfl
      | cons l' ls =>
          -- the line end is followed by a line that is not empty
          have ih := ih (by simp) fun x hx => htext x (List.mem_cons_of_mem l hx)
          obtain ⟨b, w, hbw⟩ := List.exists_cons_of_ne_nil (htext l' (by simp)).1
          have hb : ch '\r' ≠ b := by
            intro he
            exact hcr l' (by simp) (by rw [hbw, he]; simp)
          unfold lineTexts at ih
          rw [hpat] at ih
          rw [← ih]
          generalize hrest : (l' :: ls).flatMap (· ++ crlf) ++ (crlf ++ s) = rest
          have hstart : ∃ rest', rest = b :: rest' := by
            rw [← hrest, List.flatMap_cons, hbw]
            exact ⟨_, rfl⟩
          obtain ⟨rest', hrest'⟩ := hstart
          have hfirst : startsWith (crlf ++ rest) (ch '\r' :: str "\n\r\n") = false := by
            rw [hrest']
            simp [crlf, str, hb]
          have hsplit : crlf ++ rest = ch '\r' :: ([ch '\n'] ++ rest) := rfl
          rw [hsplit] at hfirst ⊢
          rw [strstr, if_neg (by rw [hfirst]; decide), strstr_skip_head (by decide)]

/-- The first empty line of a response is the one in front of what follows its head. -/
theorem Response.strstr_text {payload : Bytes} (r : Response payload) :
    strstr r.text (str "\r\n\r\n") = some (str "\r\n\r\n" ++ r.framing.text) :=
  strstr_head_end (List.cons_ne_nil _ _) r.headLines_text r.framing.text

/-- Where a response ends is told by its bytes alone. -/
theorem Response.framing_text_unique {p p' : Bytes} {r : Response p} {r' : Response p'}
    (h : r.text = r'.text) : r.framing.text = r'.framing.text := by
  have hend := r.strstr_text
  rw [h, r'.strstr_text] at hend
  exact (List.append_cancel_left (Option.some.inj hend)).symm

/-! ## Bytes that are sent -/

theorem mem_lineTexts {ls : List Bytes} {b : UInt8} (h : b ∈ lineTexts ls) :
    (∃ l ∈ ls, b ∈ l) ∨ b ∈ crlf := by
  unfold lineTexts at h
  rw [List.mem_flatMap] at h
  obtain ⟨l, hl, hb⟩ := h
  rw [List.mem_append] at hb
  exact hb.imp (fun hb => ⟨l, hl, hb⟩) id

/-- Only the payload can bring a NUL into a response. -/
theorem Response.no_nul {payload : Bytes} (r : Response payload) (h : (0 : UInt8) ∉ payload) :
    (0 : UInt8) ∉ r.text := by
  have hcrlf : (0 : UInt8) ∉ crlf := by decide
  have hline : ∀ l : Bytes, (∀ b ∈ l, isText b = true) → (0 : UInt8) ∉ l := by
    intro l hl hm
    exact (isText_eq_true.mp (hl 0 hm)).2.2 rfl
  have hlines : ∀ ls : List Bytes, (∀ l ∈ ls, ∀ b ∈ l, isText b = true) →
      (0 : UInt8) ∉ lineTexts ls := by
    intro ls hls hm
    rcases mem_lineTexts hm with ⟨l, hl, hb⟩ | hb
    · exact hline l (hls l hl) hb
    · exact hcrlf hb
  have hbody : (0 : UInt8) ∉ r.framing.text := by
    cases r.framing with
    | contentLength => exact h
    | untilClose => exact h
    | chunked body =>
        have hchunks : (0 : UInt8) ∉ body.chunks.flatMap Chunk.text := by
          intro hm
          obtain ⟨c, hc, hb⟩ := List.mem_flatMap.mp hm
          have hdata : (0 : UInt8) ∉ c.data := by
            intro hd
            exact h (body.carries ▸ List.mem_flatMap.mpr ⟨c, hc, hd⟩)
          have hsize := hline c.size fun b hb =>
            isText_of_class (f := fun b => (hexValue b).isSome) (c.size_hex b hb) (by decide)
          have hext := hline c.extension c.is_extension.1
          unfold Chunk.text at hb
          simp only [List.mem_append] at hb
          tauto
        have hzeros : (0 : UInt8) ∉ body.zeros := by
          intro hm
          exact absurd (body.zeros_zero 0 hm) (by decide)
        have hext := hline body.extension body.is_extension.1
        have htrailers : (0 : UInt8) ∉ lineTexts (body.trailers.map Field.line) := by
          refine hlines _ ?_
          intro l hl
          obtain ⟨f, -, hf⟩ := List.mem_map.mp hl
          exact hf ▸ f.line_text
        show (0 : UInt8) ∉ body.text
        unfold ChunkedBody.text
        simp only [List.mem_append]
        tauto
  have hhead := hlines r.headLines fun l hl => (r.headLines_text l hl).2
  unfold Response.text
  simp only [List.mem_append]
  tauto

/-- Every number has a size of a given width. -/
theorem exists_size {k n : Nat} (h : n < 16 ^ k) :
    ∃ s : Bytes, s.length = k ∧ (∀ b ∈ s, (hexValue b).isSome = true) ∧ sizeValue s = n := by
  induction k generalizing n with
  | zero => exact ⟨[], rfl, by simp, by simp [sizeValue] at h ⊢; omega⟩
  | succ k ih =>
      -- the last digit behind the size of the quotient
      obtain ⟨s, hlen, hhex, hval⟩ := ih (n := n / 16) (by rw [Nat.pow_succ] at h; omega)
      have hdigit : ∀ d < 16, hexValue ((str "0123456789abcdef").getD d 0) = some d := by decide
      have hb := hdigit (n % 16) (Nat.mod_lt _ (by decide))
      generalize (str "0123456789abcdef").getD (n % 16) 0 = b at hb
      refine ⟨s ++ [b], by rw [List.length_append, hlen]; rfl, ?_, ?_⟩
      · intro x hx
        rcases List.mem_append.mp hx with hx | hx
        · exact hhex x hx
        · rw [List.mem_singleton.mp hx, hb]
          rfl
      · unfold sizeValue at hval ⊢
        rw [List.foldl_append, List.foldl_cons, List.foldl_nil, hval, hb, Option.getD_some]
        omega

end Lib.Http
