import Svgd.Gate.ReadLoop
import Svgd.Lib.HttpMessage
import Svgd.Lib.Segments

/-!
# Requests in pieces

The read loop decides after each piece whether the request is complete. It knows the head
is complete when the empty line is there, but how much follows it only learns from a
length field spelled `Content-Length:`, and it takes the first place where these letters
stand. So a body is read to its end exactly if the number found there is large enough; if
no number is found, the loop stops as soon as a piece ends between head and body.
-/

namespace Svgd.Gate

open Lib Lib.Http

/-- The request is read as a whole, however it is cut, and answered as if it came in one piece. -/
structure Reassembled (text : Bytes) : Prop where
  buffer : ∀ pieces, Cuts pieces text → readLoop pieces [] = text
  answer : ∀ env ds pieces, Cuts pieces text →
    serveConnection env ds pieces = serveConnection env ds [text]

/-- The number at the first place of the head that reads `Content-Length:` does not end the
body too early. A negative one never does: it is taken for a huge one. -/
def LengthSeen (head body : Bytes) : Prop :=
  ∃ hdr, strstr head (str "Content-Length:") = some hdr
    ∧ (atol (hdr.drop 15) < 0 ∨ (body.length : Int) ≤ atol (hdr.drop 15))

/-! ## The loop -/

/-- A request that fits the buffer is read until it looks complete. -/
theorem readLoop_eq_readUntil {pieces : List Bytes} (hne : ∀ p ∈ pieces, p ≠ []) {buffer : Bytes}
    (hfits : (buffer ++ pieces.flatten).length < maxRequestLen) :
    readLoop pieces buffer = readUntil requestComplete pieces buffer := by
  induction pieces generalizing buffer with
  | nil => rfl
  | cons piece pieces ih =>
      have hpiece := List.length_pos_iff.mpr (hne piece (by simp))
      have htext : buffer ++ (piece :: pieces).flatten = (buffer ++ piece) ++ pieces.flatten := by
        simp
      have hlen := hfits
      rw [htext, List.length_append, List.length_append] at hlen
      have hroom : piece.take (maxRequestLen - 1 - buffer.length) = piece :=
        List.take_of_length_le (by omega)
      rw [readLoop, readUntil, if_pos (by omega), hroom]
      dsimp only
      rw [if_neg (hne piece (by simp)),
        ih (fun p hp => hne p (by simp [hp])) (by rw [← htext]; exact hfits)]

/-- So it is reassembled exactly if no shorter beginning looks complete. -/
theorem reassembled_iff {text : Bytes} (hfits : text.length < maxRequestLen) :
    Reassembled text ↔ ∀ s, s <+: text → s ≠ [] → s ≠ text → requestComplete s = false := by
  have hloop : ∀ pieces, Cuts pieces text →
      readLoop pieces [] = readUntil requestComplete pieces [] := by
    intro pieces h
    refine readLoop_eq_readUntil h.nonempty ?_
    rw [List.nil_append, h.joined]
    exact hfits
  rw [← readUntil_whole_iff]
  constructor
  · intro h pieces hcuts
    rw [← hloop pieces hcuts, h.buffer pieces hcuts]
  · intro h
    have hbuffer : ∀ pieces, Cuts pieces text → readLoop pieces [] = text := by
      intro pieces hcuts
      rw [hloop pieces hcuts, h pieces hcuts]
    refine ⟨hbuffer, fun env ds pieces hcuts => ?_⟩
    by_cases hnil : text = []
    · -- nothing is sent, in no piece
      have hpieces : pieces = [] := by
        cases pieces with
        | nil => rfl
        | cons p ps =>
            have hjoined := hcuts.joined
            rw [hnil, List.flatten_cons, List.append_eq_nil_iff] at hjoined
            exact absurd hjoined.1 (hcuts.nonempty p (by simp))
      rw [hnil, hpieces]
      rfl
    · unfold serveConnection
      rw [hbuffer pieces hcuts, hbuffer [text] (cuts_single hnil)]

/-! ## What the loop sees of a request -/

section

variable {payload : Bytes} (r : Request payload) (hnul : (0 : UInt8) ∉ r.text)

/-- The empty line is the end of the head. -/
theorem strstr_request_head (b : Bytes) :
    strstr (r.head ++ b) (str "\r\n\r\n") = some (str "\r\n\r\n" ++ b) := by
  unfold Request.head
  rw [List.append_assoc]
  exact strstr_head_end (by simp [Request.headLines]) r.headLines_text b

include hnul

/-- Without the whole head nothing looks complete. -/
theorem requestComplete_head {s rest : Bytes} (h : s ++ rest = r.text)
    (hshort : s.length < r.head.length) : requestComplete s = false := by
  have hs : cstr s = s := cstr_eq_self fun hm => hnul (h ▸ List.mem_append_left _ hm)
  have hnone : strstr s (str "\r\n\r\n") = none := by
    cases hfind : strstr s (str "\r\n\r\n") with
    | none => rfl
    | some t =>
        exfalso
        have hwhole := strstr_append_of_some hfind rest
        rw [h, Request.text, strstr_request_head] at hwhole
        obtain ⟨u, hu, ht⟩ := strstr_some hfind
        obtain ⟨v, rfl⟩ := startsWith_iff.mp ht
        have hlen := congrArg List.length (Option.some.inj hwhole)
        have htext := congrArg List.length h
        simp only [Request.text, List.length_append] at hlen htext
        omega
  unfold requestComplete
  dsimp only
  rw [hs, hnone]

/-- Behind it, what the loop compares is the length of the body so far. -/
theorem requestComplete_body {b rest : Bytes} (h : b ++ rest = r.framing.text) :
    requestComplete (r.head ++ b) = true ↔
      ∀ hdr, strstr (r.head ++ b) (str "Content-Length:") = some hdr →
        toUInt64 (atol (hdr.drop 15)) ≤ b.length := by
  have hs : cstr (r.head ++ b) = r.head ++ b := by
    refine cstr_eq_self fun hm => hnul ?_
    rw [Request.text, ← h, ← List.append_assoc]
    exact List.mem_append_left _ hm
  have hsize : (r.head ++ b).length - ((r.head ++ b).length - (str "\r\n\r\n" ++ b).length + 4)
      = b.length := by
    obtain ⟨u, hu, -⟩ := strstr_some (strstr_request_head r b)
    have hlen := congrArg List.length hu
    have hfour : (str "\r\n\r\n").length = 4 := rfl
    simp only [List.length_append, hfour] at hlen ⊢
    omega
  unfold requestComplete
  dsimp only
  rw [hs, strstr_request_head]
  dsimp only
  rw [hsize]
  cases strstr (r.head ++ b) (str "Content-Length:") with
  | none => simp
  | some hdr => simp

end

/-- Once a number is read in the head, the body does not change it. -/
theorem atol_seen {payload : Bytes} (r : Request payload) {hdr : Bytes}
    (hfind : strstr r.head (str "Content-Length:") = some hdr) (hseen : atol (hdr.drop 15) ≠ 0)
    (b : Bytes) : strstr (r.head ++ b) (str "Content-Length:") = some (hdr ++ b)
      ∧ atol ((hdr ++ b).drop 15) = atol (hdr.drop 15) := by
  refine ⟨strstr_append_of_some hfind b, ?_⟩
  obtain ⟨u, hu, ht⟩ := strstr_some hfind
  obtain ⟨v, rfl⟩ := startsWith_iff.mp ht
  have hskip : ∀ s : Bytes, (str "Content-Length:" ++ s).drop 15 = s := fun _ => rfl
  rw [List.append_assoc, hskip, hskip] at *
  -- the head ends in a line end, and so does what follows the name
  obtain ⟨v', c, rfl⟩ : ∃ v' c, v = v' ++ [c] := by
    rcases List.eq_nil_or_concat v with rfl | ⟨v', c, rfl⟩
    · exact absurd rfl hseen
    · exact ⟨v', c, List.concat_eq_append⟩
  have hc : c = ch '\n' := by
    have hlast := congrArg List.getLast? hu
    have hend : r.head.getLast? = some (ch '\n') := by
      unfold Request.head
      rw [List.getLast?_append]
      rfl
    rw [hend, ← List.append_assoc, ← List.append_assoc, List.getLast?_append] at hlast
    exact (Option.some.inj hlast).symm
  have hdigit : isDigit c = false := by
    rw [hc]
    decide
  unfold atol at hseen ⊢
  cases hz : strtoll (v' ++ [c]) with
  | none =>
      rw [hz] at hseen
      exact absurd rfl hseen
  | some z =>
      rw [List.append_assoc, List.singleton_append, strtoll_append_of_some hz hdigit]

/-- The range of `atol`. -/
theorem atol_range (s : Bytes) : -2 ^ 63 ≤ atol s ∧ atol s < 2 ^ 63 := by
  unfold atol
  cases h : strtoll s with
  | none => decide
  | some z => exact strtoll_range h

/-- As a `size_t`, a number exceeds a small one if it is negative or exceeds it itself. -/
theorem not_toUInt64_le_iff {z : Int} {n : Nat} (hz : -2 ^ 63 ≤ z ∧ z < 2 ^ 63)
    (hn : n < maxRequestLen) : ¬toUInt64 z ≤ n ↔ z < 0 ∨ (n : Int) < z := by
  unfold maxRequestLen at hn
  unfold toUInt64
  omega

/--
**When a request is reassembled, however it is cut.**

If nothing follows the head, always. Otherwise exactly if the loop sees a length that is
large enough.
-/
theorem segmentation_iff {payload : Bytes} (r : Request payload) (hnul : (0 : UInt8) ∉ r.text)
    (hlen : r.text.length < maxRequestLen) :
    Reassembled r.text ↔ r.framing.text = [] ∨ LengthSeen r.head r.framing.text := by
  have hfits : r.framing.text.length < maxRequestLen := by
    rw [Request.text, List.length_append] at hlen
    omega
  rw [reassembled_iff hlen]
  constructor
  · intro h
    by_cases hnil : r.framing.text = []
    · exact Or.inl hnil
    right
    have hproper : ∀ b, b <+: r.framing.text → b ≠ r.framing.text →
        ∃ hdr, strstr (r.head ++ b) (str "Content-Length:") = some hdr
          ∧ ¬toUInt64 (atol (hdr.drop 15)) ≤ b.length := by
      intro b hb hmore
      obtain ⟨rest, hrest⟩ := hb
      have hfalse := h (r.head ++ b) ⟨rest, by rw [List.append_assoc, hrest, Request.text]⟩
        (by simp [Request.head, crlf, str]) (by simpa [Request.text] using hmore)
      rw [Bool.eq_false_iff, ne_eq, requestComplete_body r hnul hrest] at hfalse
      push Not at hfalse
      obtain ⟨hdr, hfind, hlt⟩ := hfalse
      exact ⟨hdr, hfind, by omega⟩
    -- cut behind the head: a number must be there
    obtain ⟨hdr, hfind, hpos⟩ := hproper [] List.nil_prefix (Ne.symm hnil)
    rw [List.append_nil] at hfind
    have hseen : atol (hdr.drop 15) ≠ 0 := by
      intro hzero
      rw [hzero] at hpos
      exact hpos (by decide)
    -- cut before the last byte: it must be large enough
    have hlast : r.framing.text.dropLast ≠ r.framing.text := by
      intro he
      have hlength := congrArg List.length he
      have := List.length_pos_iff.mpr hnil
      rw [List.length_dropLast] at hlength
      omega
    obtain ⟨hdr', hfind', hbig⟩ := hproper _ (List.dropLast_prefix _) hlast
    obtain ⟨hsame, hvalue⟩ := atol_seen r hfind hseen r.framing.text.dropLast
    rw [hsame] at hfind'
    obtain rfl := Option.some.inj hfind'
    rw [hvalue, not_toUInt64_le_iff (atol_range _) (by rw [List.length_dropLast]; omega),
      List.length_dropLast] at hbig
    exact ⟨hdr, hfind, by omega⟩
  · intro h s hs hne hmore
    obtain ⟨rest, hrest⟩ := hs
    by_cases hshort : s.length < r.head.length
    · exact requestComplete_head r hnul hrest hshort
    -- the whole head has arrived, and a part of the body
    obtain ⟨b, rfl⟩ : r.head <+: s := by
      refine List.prefix_of_prefix_length_le ?_ ⟨rest, hrest⟩ (by omega)
      exact ⟨r.framing.text, rfl⟩
    have hb : b ++ rest = r.framing.text := by
      rw [Request.text, List.append_assoc] at hrest
      exact List.append_cancel_left hrest
    have hpart : b.length < r.framing.text.length := by
      have hrestne : rest ≠ [] := by
        intro hnil
        exact hmore (by rw [Request.text, ← hb, hnil, List.append_nil])
      have := List.length_pos_iff.mpr hrestne
      rw [← hb, List.length_append]
      omega
    rcases h with hnil | ⟨hdr, hfind, hbig⟩
    · rw [hnil] at hpart
      exact absurd hpart (by simp)
    · have hseen : atol (hdr.drop 15) ≠ 0 := by omega
      obtain ⟨hsame, hvalue⟩ := atol_seen r hfind hseen b
      rw [Bool.eq_false_iff, ne_eq, requestComplete_body r hnul hb]
      intro hall
      have hle := hall _ hsame
      rw [hvalue] at hle
      exact absurd hle ((not_toUInt64_le_iff (atol_range _) (by omega)).mpr (by omega))

/-- A request with five bytes of body, and a length field under a given spelling. -/
def helloRequest (name : Bytes) (hne : name ≠ []) (htoken : name.all isToken = true)
    (hname : name.map lower = str "content-length") : Request (str "hello") where
  method := str "POST"
  target := str "/grafana/query"
  fields := [⟨name, str " 5", hne, List.all_eq_true.mp htoken,
    List.all_eq_true.mp (by decide : (str " 5").all isText = true)⟩]
  framing := .contentLength
  method_ne := by decide
  method_token := List.all_eq_true.mp (by decide : (str "POST").all isToken = true)
  target_ne := by decide
  target_text := by
    have hall : (str "/grafana/query").all (fun b => isText b && b != ch ' ') = true := by decide
    intro b hb
    simpa using List.all_eq_true.mp hall b hb
  announced := by
    refine ⟨⟨_, List.mem_singleton.mpr rfl, hname⟩, ?_, ?_⟩
    · intro f hf _
      obtain rfl := List.mem_singleton.mp hf
      show str "5" ≠ [] ∧ (∀ b ∈ str "5", isDigit b = true) ∧ natValue (str "5") = _
      exact ⟨by decide, List.all_eq_true.mp (by decide), by decide⟩
    · intro f hf hnamed
      obtain rfl := List.mem_singleton.mp hf
      exact absurd (hname.symm.trans hnamed) (by decide)
  framed := fun h => absurd h (by simp)
  one_length := by
    intro before after f h _ g hg
    cases before with
    | nil =>
        rw [List.nil_append, List.cons.injEq] at h
        rw [← h.2] at hg
        exact absurd hg (by simp)
    | cons e before =>
        have hlen := congrArg List.length h
        simp at hlen

/-- Spelled the usual way, the length is seen. -/
theorem segmentation_usual_spelling :
    Reassembled (helloRequest (str "Content-Length") (by decide) (by decide) (by decide)).text := by
  refine (segmentation_iff (helloRequest (str "Content-Length") (by decide) (by decide) (by decide))
    (by decide +kernel) (by decide +kernel)).mpr (Or.inr ?_)
  refine ⟨str "Content-Length: 5\r\n\r\n", by decide +kernel, Or.inr (by decide +kernel)⟩

/-- In lower case, which means the same, it is not: a cut behind the head loses the body. -/
theorem segmentation_lower_case :
    let r := helloRequest (str "content-length") (by decide) (by decide) (by decide)
    r.text = str "POST /grafana/query HTTP/1.1\r\ncontent-length: 5\r\n\r\nhello"
      ∧ Cuts [r.head, str "hello"] r.text
      ∧ readLoop [r.head, str "hello"] [] = r.head
      ∧ extractBody (readLoop [r.head, str "hello"] []) = some []
      ∧ extractBody (readLoop [r.text] []) = some (str "hello")
      ∧ ¬Reassembled r.text := by
  intro r
  have hcuts : Cuts [r.head, str "hello"] r.text := ⟨by decide +kernel, by decide +kernel⟩
  have hloop : readLoop [r.head, str "hello"] [] = r.head := by decide +kernel
  refine ⟨by decide +kernel, hcuts, hloop, by decide +kernel, by decide +kernel, fun h => ?_⟩
  exact absurd (hloop.symm.trans (h.buffer _ hcuts)) (by decide +kernel)

end Svgd.Gate
