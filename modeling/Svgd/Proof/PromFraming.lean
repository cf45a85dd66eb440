import Svgd.Proof.PromSamples
import Svgd.Lib.HttpMessage

/-!
# Framed exposition texts

What the Prometheus source makes of a response. It takes everything behind the head for
the exposition text, also when the payload came in chunks. The lines around a chunk do
little harm, because the line parser reads nothing in a single word and drops a carriage
return. So a chunked text reads as its chunks read one by one, which is as the payload
reads when every boundary is at a line end, and not when a boundary breaks a sample.
-/

namespace Svgd.Backend

open Lib Lib.Http

/-! ## Receiving -/

section

variable {cap len : Nat}

theorem arrives_ne {pieces : List Bytes} (h : Arrives cap len pieces) : ∀ p ∈ pieces, p ≠ [] := by
  induction pieces generalizing cap len with
  | nil => simp
  | cons piece pieces ih =>
      intro p hp
      rcases List.mem_cons.mp hp with he | hp
      · exact he ▸ h.1
      · exact ih h.2.2 p hp

/-- The buffer always has room for 4095 bytes. -/
theorem arrives_of_small {pieces : List Bytes} (hcap : len < cap) (hmin : 4096 ≤ cap)
    (h : ∀ p ∈ pieces, p ≠ [] ∧ p.length ≤ 4095) : Arrives cap len pieces := by
  induction pieces generalizing cap len with
  | nil => trivial
  | cons piece pieces ih =>
      obtain ⟨hne, hlen⟩ := h piece (by simp)
      have hroom : len + 4096 ≤ recvCapacity cap len ∧ 4096 ≤ recvCapacity cap len := by
        unfold recvCapacity
        split <;> omega
      refine ⟨hne, by omega, ih (by omega) hroom.2 ?_⟩
      intro p hp
      exact h p (List.mem_cons_of_mem _ hp)

end

/-- What is read is a beginning of what was sent. -/
theorem recvLoop_isPrefix (pieces : List Bytes) (buf : Bytes) :
    recvLoop pieces buf <+: buf ++ pieces.flatten := by
  induction pieces generalizing buf with
  | nil => simp [recvLoop]
  | cons piece pieces ih =>
      rw [recvLoop, List.flatten_cons, ← List.append_assoc]
      split
      · rw [List.append_assoc]
        exact List.prefix_append _ _
      split
      · exact List.prefix_append _ _
      · exact ih (buf ++ piece)

/-- All is read if only the last piece can go beyond the limit. -/
theorem recvLoop_whole {pieces : List Bytes} (hne : ∀ p ∈ pieces, p ≠ []) {buf : Bytes}
    (h : (buf ++ pieces.dropLast.flatten).length ≤ promReadLimit) :
    recvLoop pieces buf = buf ++ pieces.flatten := by
  induction pieces generalizing buf with
  | nil => simp [recvLoop]
  | cons piece pieces ih =>
      have hpiece : piece ≠ [] := hne piece (by simp)
      rw [recvLoop, if_neg hpiece, List.flatten_cons, ← List.append_assoc]
      cases pieces with
      | nil =>
          split
          · simp
          · simp [recvLoop]
      | cons piece' pieces =>
          rw [List.dropLast_cons_of_ne_nil (by simp), List.flatten_cons, ← List.append_assoc] at h
          have hlen : (buf ++ piece).length ≤ promReadLimit := by
            rw [List.length_append] at h
            omega
          rw [if_neg (by omega)]
          exact ih (fun p hp => hne p (List.mem_cons_of_mem _ hp)) h

/-! ## The body -/

section

variable {payload : Bytes} (hnul : (0 : UInt8) ∉ payload) (r : Response payload)
  {pieces : List Bytes} (hpieces : pieces.flatten = r.text)

include hnul hpieces

/-- What is taken for the body is a beginning of what follows the head. -/
theorem responseBody_isPrefix {body : Bytes} (h : responseBody pieces = some body) :
    body <+: r.framing.text := by
  obtain ⟨rest, hrest⟩ := recvLoop_isPrefix pieces []
  rw [List.nil_append, hpieces] at hrest
  have hread : (0 : UInt8) ∉ recvLoop pieces [] := by
    intro hm
    exact r.no_nul hnul (hrest ▸ List.mem_append_left rest hm)
  unfold responseBody at h
  rw [cstr_eq_self hread, Option.map_eq_some_iff] at h
  obtain ⟨t, ht, hbody⟩ := h
  -- the end of the head was found in what was read, so it is the one in the whole text
  have hwhole := strstr_append_of_some ht rest
  rw [hrest, r.strstr_text] at hwhole
  have hstart : startsWith t (str "\r\n\r\n") = true := by
    obtain ⟨_, _, hs⟩ := strstr_some ht
    exact hs
  obtain ⟨t', ht'⟩ := startsWith_iff.mp hstart
  rw [ht', List.append_assoc] at hwhole
  refine ⟨rest, ?_⟩
  rw [← hbody, ht']
  exact (List.append_cancel_left (Option.some.inj hwhole)).symm

/-- The body is what follows the head, if all is read. -/
theorem responseBody_whole (hne : ∀ p ∈ pieces, p ≠ [])
    (hlimit : pieces.dropLast.flatten.length ≤ promReadLimit) :
    responseBody pieces = some r.framing.text := by
  have hread : recvLoop pieces [] = [] ++ pieces.flatten := by
    refine recvLoop_whole hne ?_
    rwa [List.nil_append]
  rw [List.nil_append, hpieces] at hread
  unfold responseBody
  rw [hread, cstr_eq_self (r.no_nul hnul), r.strstr_text]
  rfl

end

/-! ## Chunks read as texts -/

/-- No boundary falls inside a line: it stands behind a line end or before one. -/
def AtLineEnd (c d : Chunk) : Prop :=
  c.data.getLast? = some (ch '\n') ∨ d.data.head? = some (ch '\n')

/-- The framing leaves the lines of the payload whole, and its own lines are single words. -/
def KeepsLines {payload : Bytes} : Framing payload → Prop
  | .contentLength => True
  | .untilClose => True
  | .chunked body =>
      body.chunks.IsChain AtLineEnd ∧ (∀ c ∈ body.chunks, OneWord c.extension)
        ∧ OneWord body.extension ∧ ∀ f ∈ body.trailers, OneWord f.line

section

variable {strtod : Bytes → Double} {endpoint : Bytes}

theorem samples_crlf (a b : Bytes) :
    samples strtod endpoint (a ++ (crlf ++ b))
      = samples strtod endpoint a ++ samples strtod endpoint b := by
  have hsplit : a ++ (crlf ++ b) = (a ++ [ch '\r']) ++ ch '\n' :: b := by
    rw [List.append_assoc]
    rfl
  rw [hsplit, samples_newline, samples_cr]

theorem oneWord_append {a b : Bytes} (ha : OneWord a) (hb : OneWord b) : OneWord (a ++ b) := by
  intro x hx
  rcases List.mem_append.mp hx with hx | hx
  · exact ha x hx
  · exact hb x hx

theorem oneWord_size (c : Chunk) : OneWord c.size := by
  intro b hb
  exact inName_of_class (f := fun b => (hexValue b).isSome) (c.size_hex b hb) (by decide) (by decide)

theorem oneWord_zeros {payload : Bytes} (body : ChunkedBody payload) : OneWord body.zeros := by
  intro b hb
  rw [body.zeros_zero b hb]
  decide

/-- Of a chunk only the data are read. -/
theorem samples_chunk (c : Chunk) (hext : OneWord c.extension) (rest : Bytes) :
    samples strtod endpoint (c.text ++ rest)
      = samples strtod endpoint c.data ++ samples strtod endpoint rest := by
  have hsplit : c.text ++ rest
      = (c.size ++ c.extension) ++ (crlf ++ (c.data ++ (crlf ++ rest))) := by
    simp [Chunk.text, List.append_assoc]
  rw [hsplit, samples_crlf, samples_crlf, samples_oneWord (oneWord_append (oneWord_size c) hext),
    List.nil_append]

theorem samples_trailers {ls : List Bytes} (h : ∀ l ∈ ls, OneWord l) :
    samples strtod endpoint (lineTexts ls ++ crlf) = [] := by
  induction ls with
  | nil => exact samples_cr []
  | cons l ls ih =>
      have hsplit : lineTexts (l :: ls) ++ crlf = l ++ (crlf ++ (lineTexts ls ++ crlf)) := by
        simp [lineTexts, List.append_assoc]
      rw [hsplit, samples_crlf, samples_oneWord (h l (by simp)), List.nil_append,
        ih fun l' hl' => h l' (List.mem_cons_of_mem l hl')]

/-- A chunked text reads as its chunks read one by one. -/
theorem samples_chunked {payload : Bytes} (body : ChunkedBody payload)
    (hext : ∀ c ∈ body.chunks, OneWord c.extension) (hlast : OneWord body.extension)
    (htrailers : ∀ f ∈ body.trailers, OneWord f.line) :
    samples strtod endpoint body.text
      = body.chunks.flatMap fun c => samples strtod endpoint c.data := by
  unfold ChunkedBody.text
  generalize body.chunks = chunks at hext
  induction chunks with
  | nil =>
      have hlines : ∀ l ∈ body.trailers.map Field.line, OneWord l := by
        intro l hl
        obtain ⟨f, hf, rfl⟩ := List.mem_map.mp hl
        exact htrailers f hf
      rw [List.flatMap_nil, List.nil_append, samples_crlf, samples_trailers hlines,
        samples_oneWord (oneWord_append (oneWord_zeros body) hlast)]
      rfl
  | cons c chunks ih =>
      rw [List.flatMap_cons, List.append_assoc, samples_chunk c (hext c (by simp)),
        List.flatMap_cons, ih fun c' hc' => hext c' (List.mem_cons_of_mem c hc')]

/-- Chunks cut at line ends read one by one as their payload does. -/
theorem samples_payload {chunks : List Chunk} (h : chunks.IsChain AtLineEnd) :
    (chunks.flatMap fun c => samples strtod endpoint c.data)
      = samples strtod endpoint (chunks.flatMap Chunk.data) := by
  induction chunks with
  | nil => rfl
  | cons c chunks ih =>
      cases chunks with
      | nil => simp
      | cons d chunks =>
          rw [List.isChain_cons_cons] at h
          have hcons : ∀ (x : Chunk) (xs : List Chunk),
              (x :: xs).flatMap Chunk.data = x.data ++ xs.flatMap Chunk.data := fun _ _ => rfl
          rw [List.flatMap_cons, ih h.2, hcons c, hcons d]
          generalize chunks.flatMap Chunk.data = rest
          rcases h.1 with hend | hstart
          · obtain ⟨a, ha⟩ := List.getLast?_eq_some_iff.mp hend
            rw [ha, List.append_assoc, List.singleton_append, samples_newline, samples_newline,
              samples_nil, List.append_nil]
          · obtain ⟨a, ha⟩ := List.head?_eq_some_iff.mp hstart
            have hempty : samples strtod endpoint (ch '\n' :: (a ++ rest))
                = samples strtod endpoint (a ++ rest) := samples_newline [] (a ++ rest)
            rw [ha, List.cons_append, samples_newline, hempty]

/-- What the framing keeps is read. -/
theorem samples_framing {payload : Bytes} {framing : Framing payload} (h : KeepsLines framing) :
    samples strtod endpoint framing.text = samples strtod endpoint payload := by
  cases framing with
  | contentLength => rfl
  | untilClose => rfl
  | chunked body =>
      obtain ⟨hcut, hext, hlast, htrailers⟩ := h
      have hread : samples strtod endpoint body.text = _ := samples_chunked body hext hlast htrailers
      rwa [samples_payload hcut, body.carries] at hread

end

/-! ## Texts in which nothing can be read -/

/-- No part of a line reads as a sample of the endpoint. -/
def Quiet (strtod : Bytes → Double) (endpoint t : Bytes) : Prop :=
  ∀ p, p <:+: t → ch '\n' ∉ p → p.length ≤ 1023 → matchLine strtod endpoint p = none

section

variable {strtod : Bytes → Double} {endpoint : Bytes}

theorem Quiet.part {s t : Bytes} (h : Quiet strtod endpoint t) (hs : s <:+: t) :
    Quiet strtod endpoint s :=
  fun p hp hline hlen => h p (hp.trans hs) hline hlen

theorem Quiet.samples {t : Bytes} (h : Quiet strtod endpoint t) : samples strtod endpoint t = [] := by
  have hline : ∀ l : Bytes, ch '\n' ∉ l → l <:+: t → matchLine strtod endpoint (l.take 1023) = none := by
    intro l hl ht
    have htake : l.take 1023 <+: l := List.take_prefix 1023 l
    refine h _ (htake.isInfix.trans ht) (fun hm => hl (List.mem_of_mem_take hm)) ?_
    rw [List.length_take]
    omega
  induction t using lines_induction (q := ch '\n') with
  | nil => rfl
  | last l hl _ =>
      rw [samples_last hl, hline l hl (List.infix_refl l)]
      rfl
  | line l s hl ih =>
      have hs : s <:+: l ++ ch '\n' :: s := ⟨l ++ [ch '\n'], [], by simp⟩
      rw [samples_line hl, hline l hl ⟨[], ch '\n' :: s, by simp⟩,
        ih (h.part hs) fun l' hl' ht => hline l' hl' (ht.trans hs)]
      rfl

theorem Quiet.oneWord {t : Bytes} (h : OneWord t) : Quiet strtod endpoint t := by
  intro p hp _ _
  exact matchLine_oneWord fun b hb => h b (hp.subset hb)

/-- A single byte is no sample. -/
theorem matchLine_byte (b : UInt8) : matchLine strtod endpoint [b] = none := by
  by_cases hb : inName b = true
  · refine matchLine_oneWord ?_
    intro x hx
    rwa [List.mem_singleton.mp hx]
  · -- a blank, a line end or an opening brace
    unfold matchLine promParseLine
    rw [if_neg (by decide)]
    dsimp only
    by_cases hblank : isBlank b = true
    · rw [List.dropWhile_cons_of_pos hblank]
      rfl
    · rw [List.dropWhile_cons_of_neg hblank, List.takeWhile_cons_of_neg hb]
      dsimp only
      by_cases hskip : isLineEnd b = true ∨ b = ch '#'
      · rw [if_pos hskip]
      · rw [if_neg hskip, List.take_nil, if_pos rfl]

theorem Quiet.byte (b : UInt8) : Quiet strtod endpoint [b] := by
  intro p hp _ _
  have hlen := hp.length_le
  cases p with
  | nil => rfl
  | cons x p =>
      have hnil : p = [] := by simpa using hlen
      rw [hnil]
      exact matchLine_byte x

theorem Quiet.crlf {a b : Bytes} (ha : Quiet strtod endpoint a) (hb : Quiet strtod endpoint b) :
    Quiet strtod endpoint (a ++ (crlf ++ b)) := by
  intro p hp hline hlen
  have hsplit : a ++ (Http.crlf ++ b) = (a ++ [ch '\r']) ++ ch '\n' :: b := by
    rw [List.append_assoc]
    rfl
  rw [hsplit] at hp
  rcases infix_append_cons hline hp with hleft | hright
  · rcases List.infix_concat_iff.mp hleft with hend | hinside
    · -- the part ends in the carriage return, which is dropped
      rcases List.suffix_concat_iff.mp hend with hnil | ⟨q, hq, hsuffix⟩
      · rw [hnil]
        rfl
      · rw [hq] at hline hlen ⊢
        rw [matchLine_cr]
        refine ha q hsuffix.isInfix (fun hm => hline (List.mem_append_left _ hm)) ?_
        rw [List.length_append] at hlen
        omega
    · exact ha p hinside hline hlen
  · exact hb p hright hline hlen

/-- Without extensions and trailers. -/
def Bare {payload : Bytes} : Framing payload → Prop
  | .contentLength => True
  | .untilClose => True
  | .chunked body =>
      (∀ c ∈ body.chunks, c.extension = []) ∧ body.extension = [] ∧ body.trailers = []

theorem Quiet.chunked {payload : Bytes} (body : ChunkedBody payload) (hbare : Bare (.chunked body))
    (h : ∀ c ∈ body.chunks, Quiet strtod endpoint c.data) : Quiet strtod endpoint body.text := by
  obtain ⟨hext, hlast, htrailers⟩ := hbare
  have hnil : Quiet strtod endpoint [] := Quiet.oneWord (by simp [OneWord])
  unfold ChunkedBody.text
  rw [hlast, htrailers]
  generalize body.chunks = chunks at hext h
  induction chunks with
  | nil =>
      have hzeros : Quiet strtod endpoint (body.zeros ++ []) :=
        Quiet.oneWord (oneWord_append (oneWord_zeros body) (by simp [OneWord]))
      rw [List.flatMap_nil, List.nil_append]
      exact Quiet.crlf hzeros (Quiet.crlf hnil hnil)
  | cons c chunks ih =>
      have hsize : Quiet strtod endpoint (c.size ++ c.extension) := by
        rw [hext c (by simp), List.append_nil]
        exact Quiet.oneWord (oneWord_size c)
      have hrest := ih (fun c' hc' => hext c' (List.mem_cons_of_mem c hc'))
        fun c' hc' => h c' (List.mem_cons_of_mem c hc')
      rw [List.flatMap_cons, Chunk.text]
      simp only [List.append_assoc] at hsize hrest ⊢
      rw [← List.append_assoc c.size]
      exact Quiet.crlf (by rwa [hext c (by simp)] at hsize ⊢) (Quiet.crlf (h c (by simp)) hrest)

end

/-! ## The fetch -/

/-- The world in which an exporter answers every request with these pieces. -/
def PromWorld.receiving (w : PromWorld) (pieces : List Bytes) : PromWorld :=
  { w with exchange := fun _ _ _ => some pieces }

/-- The buffers of a URL are small enough for the request. -/
theorem length_promRequest_lt {text : Bytes} {url : PromUrl}
    (h : promParseUrl text 256 512 = some url) : (promRequest url.host url.path).length < 1024 := by
  have hpath : ∀ p, (promUrlPath p 512).length ≤ 511 := by
    intro p
    unfold promUrlPath
    split
    · rw [List.length_take]
      omega
    · decide
  have hbounds : url.host.length ≤ 255 ∧ url.path.length ≤ 511 := by
    unfold promParseUrl at h
    split at h
    · dsimp only at h
      split at h
      · exact absurd h (by simp)
      split at h
      · split at h
        · exact absurd h (by simp)
        · rw [← Option.some.inj h]
          refine ⟨?_, hpath _⟩
          rw [List.length_take]
          omega
      · rw [← Option.some.inj h]
        refine ⟨?_, hpath _⟩
        rw [List.length_take]
        omega
    · exact absurd h (by simp)
  have hfixed : (str "GET ").length + (str " HTTP/1.1\r\nHost: ").length
      + (str "\r\nUser-Agent: svgd\r\nAccept: text/plain\r\nConnection: close\r\n\r\n").length = 82 := by
    decide
  unfold promRequest
  simp only [List.length_append]
  omega

/-- A fetch makes the body it received into series. -/
theorem fetch_receiving (w : PromWorld) {metric : MetricConfig} {url : PromUrl}
    (hurl : promParseUrl metric.prometheusUrl 256 512 = some url) (pieces : List Bytes) :
    prometheusSourceFetch (w.receiving pieces) metric
      = (responseBody pieces).bind (promData w metric) := by
  have hdata : promData (w.receiving pieces) metric = promData w metric := by
    funext body
    rw [promData_eq, promData_eq]
    rfl
  have hlen : ¬ 1024 ≤ (promRequest url.host url.path).length := by
    have := length_promRequest_lt hurl
    omega
  unfold prometheusSourceFetch
  rw [hurl]
  dsimp only
  unfold httpGetBody
  dsimp only
  rw [if_neg hlen, hdata]
  unfold PromWorld.receiving
  dsimp only
  rw [Option.bind_some]
  cases responseBody pieces with
  | none => rfl
  | some body => rfl

/-- The pieces are a response, cut as `recv` may cut it. -/
def Delivers {payload : Bytes} (r : Response payload) (pieces : List Bytes) : Prop :=
  pieces.flatten = r.text ∧ Arrives 8192 0 pieces

section

variable {payload : Bytes} (hnul : (0 : UInt8) ∉ payload) (w : PromWorld) {metric : MetricConfig}
  {url : PromUrl} (hurl : promParseUrl metric.prometheusUrl 256 512 = some url)

include hnul hurl

/-- A payload whose lines are kept yields its series, if the response is read to the end. -/
theorem fetch_of_keepsLines (r : Response payload) (hkeeps : KeepsLines r.framing)
    {pieces : List Bytes} (h : Delivers r pieces)
    (hlimit : pieces.dropLast.flatten.length ≤ promReadLimit) :
    prometheusSourceFetch (w.receiving pieces) metric = promData w metric payload := by
  rw [fetch_receiving w hurl, responseBody_whole hnul r h.1 (arrives_ne h.2) hlimit,
    Option.bind_some, promData_eq, promData_eq, samples_framing hkeeps]

/-- Behind the head, a text in which nothing can be read yields nothing. -/
theorem fetch_eq_none (r : Response payload)
    (hquiet : Quiet w.strtod metric.endpoint r.framing.text) {pieces : List Bytes}
    (h : Delivers r pieces) : prometheusSourceFetch (w.receiving pieces) metric = none := by
  rw [fetch_receiving w hurl]
  cases hbody : responseBody pieces with
  | none => rfl
  | some body =>
      have hpart := hquiet.part (responseBody_isPrefix hnul r h.1 hbody).isInfix
      rw [Option.bind_some, promData_eq, if_pos hpart.samples]

/-- A payload in which nothing can be read yields nothing, however it is framed and cut. -/
theorem fetch_of_quiet (hquiet : Quiet w.strtod metric.endpoint payload) (r : Response payload)
    (hbare : Bare r.framing) {pieces : List Bytes} (h : Delivers r pieces) :
    prometheusSourceFetch (w.receiving pieces) metric = promData w metric payload := by
  have hframed : Quiet w.strtod metric.endpoint r.framing.text := by
    cases hr : r.framing with
    | contentLength => exact hquiet
    | untilClose => exact hquiet
    | chunked body =>
        refine Quiet.chunked body (hr ▸ hbare) ?_
        intro c hc
        refine hquiet.part ?_
        rw [← body.carries]
        exact List.infix_of_mem_flatten (List.mem_map.mpr ⟨c, hc, rfl⟩)
  rw [fetch_eq_none hnul w hurl r hframed h, promData_eq, if_pos hquiet.samples]

end

/-! ## Any cut of a payload is a response -/

/-- Data of any length up to the limit can be sent as a chunk. -/
theorem exists_chunk {data : Bytes} (hne : data ≠ []) (hlen : data.length ≤ promReadLimit) :
    ∃ c : Chunk, c.data = data ∧ c.extension = [] ∧ c.text.length = data.length + 10 := by
  have hbound : data.length < 16 ^ 6 := by
    have : promReadLimit < 16 ^ 6 := by decide
    omega
  obtain ⟨size, hwidth, hhex, hvalue⟩ := exists_size hbound
  refine ⟨⟨size, [], data, hne, hhex, hvalue, by simp, Or.inl rfl⟩, rfl, rfl, ?_⟩
  have hcrlf : crlf.length = 2 := rfl
  simp only [Chunk.text, List.length_append, List.length_nil, hwidth, hcrlf]
  omega

/-- A text can be sent in any chunks. -/
theorem exists_chunks {pieces : List Bytes}
    (h : ∀ p ∈ pieces, p ≠ [] ∧ p.length ≤ promReadLimit) :
    ∃ chunks : List Chunk, chunks.map Chunk.data = pieces ∧ (∀ c ∈ chunks, c.extension = [])
      ∧ (chunks.flatMap Chunk.text).length = pieces.flatten.length + 10 * pieces.length := by
  induction pieces with
  | nil => exact ⟨[], rfl, by simp, rfl⟩
  | cons piece pieces ih =>
      obtain ⟨hne, hlen⟩ := h piece (by simp)
      obtain ⟨c, hdata, hext, htext⟩ := exists_chunk hne hlen
      obtain ⟨chunks, hmap, hexts, htexts⟩ := ih fun p hp => h p (List.mem_cons_of_mem piece hp)
      refine ⟨c :: chunks, by rw [List.map_cons, hdata, hmap], ?_, ?_⟩
      · intro x hx
        rcases List.mem_cons.mp hx with he | hx
        · exact he ▸ hext
        · exact hexts x hx
      · rw [List.flatMap_cons, List.length_append, htext, htexts, List.flatten_cons,
          List.length_append, List.length_cons]
        omega

/-- The header field of a chunked payload. -/
def chunkedField : Field where
  name := str "Transfer-Encoding"
  value := str " chunked"
  name_ne := by decide
  name_token := List.all_eq_true.mp (by decide)
  value_text := List.all_eq_true.mp (by decide)

/-- A response with a chunked payload. -/
def chunkedResponse {payload : Bytes} (body : ChunkedBody payload) : Response payload where
  code := 200
  reason := str "OK"
  fields := [chunkedField]
  framing := .chunked body
  code_final := by decide
  reason_text := List.all_eq_true.mp (by decide)
  announced := by
    refine ⟨⟨chunkedField, by simp, rfl⟩, ?_, ?_⟩
    · intro f hf _
      rw [List.mem_singleton.mp hf]
      rfl
    · intro f hf
      rw [List.mem_singleton.mp hf]
      unfold Field.Named
      decide

theorem exists_response {payload : Bytes} {pieces : List Bytes} (hpieces : pieces.flatten = payload)
    (h : ∀ p ∈ pieces, p ≠ [] ∧ p.length ≤ promReadLimit) :
    ∃ body : ChunkedBody payload, body.chunks.map Chunk.data = pieces ∧ Bare (.chunked body)
      ∧ (chunkedResponse body).text.length = payload.length + 10 * pieces.length + 52 := by
  obtain ⟨chunks, hmap, hext, hlen⟩ := exists_chunks h
  have hcarries : chunks.flatMap (·.data) = payload := by
    rw [← hpieces, ← hmap]
    rfl
  refine ⟨⟨chunks, [ch '0'], [], [], by simp, by simp, ⟨by simp, Or.inl rfl⟩, hcarries⟩, hmap,
    ⟨hext, rfl, rfl⟩, ?_⟩
  generalize hhead : lineTexts [str "HTTP/1.1 " ++ (printInt (200 : Nat) ++ ch ' ' :: str "OK"),
    chunkedField.line] = head
  have hlength : head.length = 45 := by
    rw [← hhead]
    decide
  have hsplit : ∀ body : ChunkedBody payload,
      (chunkedResponse body).text = head ++ (crlf ++ body.text) := by
    intro body
    rw [← hhead]
    rfl
  have hcrlf : crlf.length = 2 := rfl
  rw [hsplit, List.length_append, hlength, ChunkedBody.text]
  simp only [List.length_append, hlen, hpieces, hcrlf, List.length_cons, List.length_nil, lineTexts,
    List.map_nil, List.flatMap_nil]
  omega

/-- A text byte by byte. -/
theorem flatten_bytes (s : Bytes) : (s.map ([·])).flatten = s := by
  induction s with
  | nil => rfl
  | cons b s ih => rw [List.map_cons, List.flatten_cons, ih, List.singleton_append]

theorem small_bytes (s : Bytes) : ∀ p ∈ s.map ([·]), p ≠ [] ∧ p.length ≤ 4095 := by
  intro p hp
  obtain ⟨b, -, rfl⟩ := List.mem_map.mp hp
  simp

/-- A text that is little longer than the limit can be delivered so that it is read whole. -/
theorem exists_delivery {t : Bytes} (h : t.length ≤ promReadLimit + 4095) :
    ∃ pieces : List Bytes, pieces.flatten = t ∧ Arrives 8192 0 pieces
      ∧ pieces.dropLast.flatten.length ≤ promReadLimit := by
  -- byte by byte up to the limit, and what remains at once
  by_cases hrest : t.drop promReadLimit = []
  · refine ⟨t.map ([·]), flatten_bytes t, arrives_of_small (by decide) (by decide) (small_bytes t), ?_⟩
    have hlen : t.length ≤ promReadLimit := List.drop_eq_nil_iff.mp hrest
    rw [← List.map_dropLast, flatten_bytes, List.length_dropLast]
    omega
  · refine ⟨(t.take promReadLimit).map ([·]) ++ [t.drop promReadLimit], ?_, ?_, ?_⟩
    · rw [List.flatten_append, flatten_bytes, List.flatten_singleton, List.take_append_drop]
    · refine arrives_of_small (by decide) (by decide) ?_
      intro p hp
      rcases List.mem_append.mp hp with hp | hp
      · exact small_bytes _ p hp
      · rw [List.mem_singleton.mp hp]
        refine ⟨hrest, ?_⟩
        rw [List.length_drop]
        omega
    · rw [List.dropLast_concat, flatten_bytes, List.length_take]
      omega

/-! ## Every framing -/

section

variable {payload : Bytes} (hnul : (0 : UInt8) ∉ payload) (w : PromWorld) {metric : MetricConfig}
  {url : PromUrl} (hurl : promParseUrl metric.prometheusUrl 256 512 = some url)
  (hall : ∀ r : Response payload, Bare r.framing → ∀ pieces, Delivers r pieces →
    prometheusSourceFetch (w.receiving pieces) metric = promData w metric payload)

include hnul hurl hall

/-- A payload that survives chunks of one byte has no samples. -/
theorem samples_eq_nil_of_all : samples w.strtod metric.endpoint payload = [] := by
  have hlimit : 4095 ≤ promReadLimit := by decide
  obtain ⟨body, hmap, hbare, -⟩ := exists_response (flatten_bytes payload) fun p hp =>
    ⟨(small_bytes payload p hp).1, Nat.le_trans (small_bytes payload p hp).2 hlimit⟩
  have hquiet : Quiet w.strtod metric.endpoint body.text := by
    refine Quiet.chunked body hbare ?_
    intro c hc
    have hdata : c.data ∈ payload.map ([·]) := by
      rw [← hmap]
      exact List.mem_map_of_mem hc
    obtain ⟨b, -, hb⟩ := List.mem_map.mp hdata
    rw [← hb]
    exact Quiet.byte b
  have hdeliver : Delivers (chunkedResponse body) ((chunkedResponse body).text.map ([·])) :=
    ⟨flatten_bytes _, arrives_of_small (by decide) (by decide) (small_bytes _)⟩
  have hnone := fetch_eq_none hnul w hurl (chunkedResponse body) hquiet hdeliver
  rw [hall _ hbare _ hdeliver, promData_eq] at hnone
  by_contra hne
  rw [if_neg hne] at hnone
  exact absurd hnone (by simp)

/-- A payload that survives being cut around each part of each line has no part that reads as a
sample. -/
theorem quiet_of_all (hcap : payload.length ≤ promReadLimit) :
    Quiet w.strtod metric.endpoint payload := by
  intro p hp hline hlen
  by_cases hnil : p = []
  · rw [hnil]
    rfl
  obtain ⟨x, y, hxy⟩ := hp
  have hflat : ([x, p, y].filter (· ≠ [])).flatten = payload := by
    rw [List.flatten_filter_ne_nil, ← hxy]
    simp
  have hcut : ∀ q ∈ [x, p, y].filter (· ≠ []), q ≠ [] ∧ q.length ≤ promReadLimit := by
    intro q hq
    obtain ⟨hmem, hne⟩ := List.mem_filter.mp hq
    refine ⟨by simpa using hne, ?_⟩
    have hle := (List.sublist_flatten_of_mem hq).length_le
    rw [hflat] at hle
    omega
  obtain ⟨body, hmap, hbare, htext⟩ := exists_response hflat hcut
  have hcount : ([x, p, y].filter (· ≠ [])).length ≤ 3 := List.length_filter_le _ _
  obtain ⟨pieces, hpieces, harrives, hlimit⟩ :=
    exists_delivery (t := (chunkedResponse body).text) (by omega)
  -- the whole response is read, and what is read has no more samples than the payload
  have hfetch := hall (chunkedResponse body) hbare pieces ⟨hpieces, harrives⟩
  rw [fetch_receiving w hurl, responseBody_whole hnul _ hpieces (arrives_ne harrives) hlimit,
    Option.bind_some, promData_eq, promData_eq, samples_eq_nil_of_all hnul w hurl hall,
    if_pos rfl] at hfetch
  have hframed : samples w.strtod metric.endpoint body.text = [] := by
    by_contra hne
    have hne' : samples w.strtod metric.endpoint (chunkedResponse body).framing.text ≠ [] := hne
    rw [if_neg hne'] at hfetch
    exact absurd hfetch (by simp)
  have hwords : ∀ e : Bytes, e = [] → OneWord e := by
    intro e he
    rw [he]
    simp [OneWord]
  rw [samples_chunked body (fun c hc => hwords _ (hbare.1 c hc)) (hwords _ hbare.2.1)
    (by rw [hbare.2.2]; simp), List.flatMap_eq_nil_iff] at hframed
  have hmem : p ∈ body.chunks.map Chunk.data := by
    rw [hmap]
    simp [hnil]
  obtain ⟨c, hc, hdata⟩ := List.mem_map.mp hmem
  have hpart := hframed c hc
  rw [hdata, samples_last hline, List.take_of_length_le hlen] at hpart
  simpa using hpart

end

/--
**What the framing of a response changes.**

A response that is read to the end yields the series of its payload if no chunk boundary
falls inside a line and the lines of the framing are single words. For every framing
without extensions and trailers, and every way to receive it, the payload yields its own
series exactly when no part of a line of it reads as a sample of the metric.
-/
theorem prom_framing_iff {payload : Bytes} (hnul : (0 : UInt8) ∉ payload)
    (hcap : payload.length ≤ promReadLimit) (w : PromWorld) {metric : MetricConfig} {url : PromUrl}
    (hurl : promParseUrl metric.prometheusUrl 256 512 = some url) :
    (∀ r : Response payload, KeepsLines r.framing → ∀ pieces, Delivers r pieces →
        pieces.dropLast.flatten.length ≤ promReadLimit →
        prometheusSourceFetch (w.receiving pieces) metric = promData w metric payload)
      ∧ ((∀ r : Response payload, Bare r.framing → ∀ pieces, Delivers r pieces →
          prometheusSourceFetch (w.receiving pieces) metric = promData w metric payload)
        ↔ Quiet w.strtod metric.endpoint payload) := by
  refine ⟨?_, ?_, ?_⟩
  · intro r hkeeps pieces hdeliver hlimit
    exact fetch_of_keepsLines hnul w hurl r hkeeps hdeliver hlimit
  · intro hall
    exact quiet_of_all hnul w hurl hall hcap
  · intro hquiet r hbare pieces hdeliver
    exact fetch_of_quiet hnul w hurl hquiet r hbare hdeliver

/-- A metric that is scraped, and a world that reads decimal numbers. -/
def scrapedMetric : MetricConfig :=
  { endpoint := str "up", prometheusUrl := str "http://exporter/metrics" }

def scrapeWorld : PromWorld where
  exchange := fun _ _ _ => none
  strtod := fun token => .fin (natValue token)
  time := fun _ => 0

/-- Two samples, in two chunks of these sizes. -/
def twoChunks (size size' data data' : Bytes) (hne : data ≠ [] ∧ data' ≠ [])
    (hhex : (size ++ size').all (fun b => (hexValue b).isSome) = true)
    (hsize : sizeValue size = data.length ∧ sizeValue size' = data'.length) :
    ChunkedBody (data ++ data') where
  chunks :=
    [⟨size, [], data, hne.1, fun b hb => List.all_eq_true.mp hhex b (List.mem_append_left _ hb), hsize.1,
        by simp, Or.inl rfl⟩,
      ⟨size', [], data', hne.2, fun b hb => List.all_eq_true.mp hhex b (List.mem_append_right _ hb), hsize.2,
        by simp, Or.inl rfl⟩]
  zeros := str "0"
  extension := []
  trailers := []
  zeros_ne := by decide
  zeros_zero := by simp [str]
  is_extension := ⟨by simp, Or.inl rfl⟩
  carries := by simp

/-- A boundary between two lines does no harm. -/
theorem prom_framing_between :
    let body := twoChunks (str "6") (str "05") (str "up 12\n") (str "up 3\n") (by decide)
      (by decide) (by decide)
    prometheusSourceFetch (scrapeWorld.receiving [(chunkedResponse body).text]) scrapedMetric
      = some ⟨[⟨some (str "up"), [⟨0, .fin 12⟩]⟩, ⟨some (str "up"), [⟨0, .fin 3⟩]⟩], some [],
        scrapedMetric⟩ := by
  intro body
  have hurl : promParseUrl scrapedMetric.prometheusUrl 256 512
      = some ⟨str "exporter", 80, str "/metrics"⟩ := by decide +kernel
  have hkeeps : KeepsLines (chunkedResponse body).framing := by
    refine ⟨?_, ?_, ?_, ?_⟩
    · refine List.isChain_pair.mpr (Or.inl ?_)
      decide
    · intro c hc
      rcases List.mem_pair.mp hc with he | he
      · rw [he]
        simp [OneWord]
      · rw [he]
        simp [OneWord]
    · simp [OneWord, body, twoChunks]
    · simp [body, twoChunks]
  have hlimit : [(chunkedResponse body).text].dropLast.flatten.length ≤ promReadLimit := by decide
  have hdeliver : Delivers (chunkedResponse body) [(chunkedResponse body).text] :=
    ⟨List.flatten_singleton, by decide +kernel, by decide +kernel, trivial⟩
  rw [(prom_framing_iff (by decide) (by decide) scrapeWorld hurl).1 (chunkedResponse body) hkeeps _
    hdeliver hlimit]
  decide +kernel

/-- A boundary inside a line breaks its sample: the source reads 1 where the exporter has 12. -/
theorem prom_framing_inside :
    let body := twoChunks (str "4") (str "7") (str "up 1") (str "2\nup 3\n") (by decide)
      (by decide) (by decide)
    let pieces := [(chunkedResponse body).text]
    (chunkedResponse body).text
        = str "HTTP/1.1 200 OK\r\nTransfer-Encoding: chunked\r\n\r\n4\r\nup 1\r\n7\r\n2\nup 3\n\r\n0\r\n\r\n"
      ∧ Delivers (chunkedResponse body) pieces
      ∧ promData scrapeWorld scrapedMetric (str "up 1" ++ str "2\nup 3\n")
        = some ⟨[⟨some (str "up"), [⟨0, .fin 12⟩]⟩, ⟨some (str "up"), [⟨0, .fin 3⟩]⟩], some [],
          scrapedMetric⟩
      ∧ prometheusSourceFetch (scrapeWorld.receiving pieces) scrapedMetric
        = some ⟨[⟨some (str "up"), [⟨0, .fin 1⟩]⟩, ⟨some (str "up"), [⟨0, .fin 3⟩]⟩], some [],
          scrapedMetric⟩
      ∧ prometheusSourceFetch (scrapeWorld.receiving pieces) scrapedMetric
        ≠ promData scrapeWorld scrapedMetric (str "up 1" ++ str "2\nup 3\n") := by
  intro body pieces
  have hdeliver : Delivers (chunkedResponse body) pieces :=
    ⟨List.flatten_singleton, by decide +kernel, by decide +kernel, trivial⟩
  have hdata : promData scrapeWorld scrapedMetric (str "up 1" ++ str "2\nup 3\n")
      = some ⟨[⟨some (str "up"), [⟨0, .fin 12⟩]⟩, ⟨some (str "up"), [⟨0, .fin 3⟩]⟩], some [],
        scrapedMetric⟩ := by decide +kernel
  have hfetch : prometheusSourceFetch (scrapeWorld.receiving pieces) scrapedMetric
      = some ⟨[⟨some (str "up"), [⟨0, .fin 1⟩]⟩, ⟨some (str "up"), [⟨0, .fin 3⟩]⟩], some [],
        scrapedMetric⟩ := by decide +kernel
  refine ⟨by decide +kernel, hdeliver, hdata, hfetch, ?_⟩
  rw [hfetch, hdata]
  decide +kernel

end Svgd.Backend
