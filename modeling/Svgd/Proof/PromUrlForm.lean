import Svgd.Backend.Prometheus

/-!
# Which URLs an exporter can have

`prom_parse_url` reads a URL from left to right and never looks back: what stands between
the port and a slash is not missed by any check, and a host that does not fit its buffer is
cut. For every other URL of up to 511 bytes it accepts exactly `http://host[:port][/path]`,
and returns these parts.
-/

namespace Svgd.Backend

open Lib

/-! ## The form -/

/-- The text behind the host, and the port it gives. -/
inductive PortForm : Bytes → Nat → Prop where
  | default : PortForm [] 80
  | given (digits : Bytes) (ne : digits ≠ []) (all : ∀ b ∈ digits, isDigit b = true)
      (pos : 1 ≤ natValue digits) (le : natValue digits ≤ 65535) :
      PortForm (ch ':' :: digits) (natValue digits)

/-- The text behind the port, and the path it gives. -/
inductive PathForm : Bytes → Bytes → Prop where
  | root : PathForm [] (str "/")
  | given (p : Bytes) : PathForm (ch '/' :: p) (ch '/' :: p)

/-- A byte of a host. -/
def inHost (b : UInt8) : Bool := b != ch ':' && b != ch '/'

/-- `http://host[:port][/path]`, with its parts. -/
def IsPromUrl (url : Bytes) (u : PromUrl) : Prop :=
  ∃ port path, url = str "http://" ++ (u.host ++ (port ++ path)) ∧ u.host ≠ []
    ∧ (∀ b ∈ u.host, inHost b = true) ∧ PortForm port u.port ∧ PathForm path u.path

/-! ## The places of a URL -/

/-- The text up to the first colon or slash. -/
def urlHost (url : Bytes) : Bytes := (url.drop 7).takeWhile inHost

/-- The text from there on. -/
def urlRest (url : Bytes) : Bytes := (url.drop 7).dropWhile inHost

/-- The digits behind a colon. -/
def urlDigits (url : Bytes) : Bytes := ((urlRest url).drop 1).takeWhile isDigit

/-- The text behind them, or behind the host. -/
def urlTail (url : Bytes) : Bytes :=
  if startsWith (urlRest url) (str ":") then ((urlRest url).drop 1).dropWhile isDigit
  else urlRest url

/-- The port. -/
def urlPort (url : Bytes) : Nat :=
  if startsWith (urlRest url) (str ":") then natValue (urlDigits url) else 80

/-- No `http://`, no host, or a colon without a port behind it. -/
def RefusedUrl (url : Bytes) : Prop :=
  startsWith url (str "http://") = false ∨ urlHost url = []
    ∨ (startsWith (urlRest url) (str ":") = true
      ∧ (urlDigits url = [] ∨ 65535 < natValue (urlDigits url) ∨ natValue (urlDigits url) = 0))

instance (url : Bytes) : Decidable (RefusedUrl url) := inferInstanceAs (Decidable (_ ∨ _))

/-- A URL that is refused; or one with a host that fits, and nothing but a path behind the port. -/
def CleanUrl (url : Bytes) : Prop :=
  RefusedUrl url
    ∨ ((urlHost url).length ≤ 255 ∧ (urlTail url = [] ∨ startsWith (urlTail url) (str "/") = true))

/-! ## The form by its places -/

theorem pathForm_iff {tail path : Bytes} : PathForm tail path
    ↔ (tail = [] ∨ startsWith tail (str "/") = true)
      ∧ path = if startsWith tail (str "/") then tail else str "/" := by
  constructor
  · intro h
    cases h with
    | root => exact ⟨Or.inl rfl, rfl⟩
    | given p => exact ⟨Or.inr rfl, rfl⟩
  · rintro ⟨rfl | hslash, rfl⟩
    · exact .root
    · rw [if_pos hslash]
      obtain ⟨p, rfl⟩ := startsWith_iff.mp hslash
      exact .given p

/-- What follows the host does not go on with it. -/
theorem head_of_forms {port path p : Bytes} {n : Nat} (hport : PortForm port n)
    (hpath : PathForm path p) : ∀ b ∈ (port ++ path).head?, inHost b = false := by
  cases hport with
  | default =>
      cases hpath with
      | root => simp
      | given p => simp [inHost]
  | given digits => simp [inHost]

/-- The parts of a URL of the form are where the parser looks for them. -/
theorem IsPromUrl.places {url : Bytes} {u : PromUrl} (h : IsPromUrl url u) :
    ¬RefusedUrl url ∧ urlHost url = u.host ∧ urlPort url = u.port ∧ PathForm (urlTail url) u.path := by
  obtain ⟨host, n, q⟩ := u
  obtain ⟨port, path, rfl, hne, hhost, hport, hpath⟩ := h
  dsimp only at hne hhost hport hpath ⊢
  obtain ⟨htake, hdrop⟩ := span_token hhost (head_of_forms hport hpath)
  have hseven : ∀ s : Bytes, (str "http://" ++ s).drop 7 = s := fun s => rfl
  unfold RefusedUrl urlPort urlTail urlDigits urlHost urlRest
  rw [hseven, htake, hdrop, startsWith_append]
  cases hport with
  | default =>
      have hcolon : startsWith ([] ++ path) (str ":") = false := by
        cases hpath with
        | root => rfl
        | given p => rfl
      rw [hcolon, if_neg (by decide), if_neg (by decide), List.nil_append]
      refine ⟨?_, rfl, rfl, hpath⟩
      rintro (h | h | h)
      · exact absurd h (by decide)
      · exact hne h
      · exact absurd h.1 (by decide)
  | given digits hdigits hall hpos hle =>
      have hcolon : startsWith (ch ':' :: digits ++ path) (str ":") = true := rfl
      have hnext : ∀ b ∈ path.head?, isDigit b = false := by
        cases hpath with
        | root => simp
        | given p => simp [isDigit, ch]
      obtain ⟨hspan, hrest⟩ := span_token hall hnext
      rw [hcolon, if_pos rfl, if_pos rfl, List.cons_append, List.drop_succ_cons, List.drop_zero,
        hspan, hrest]
      refine ⟨?_, rfl, rfl, hpath⟩
      rintro (h | h | ⟨-, h⟩)
      · exact absurd h (by decide)
      · exact hne h
      · rcases h with h | h | h
        · exact hdigits h
        · omega
        · omega

/-- A URL that is not refused has the form, if nothing stands before its path. -/
theorem isPromUrl_of_places {url : Bytes} (h : ¬RefusedUrl url) {path : Bytes}
    (hpath : PathForm (urlTail url) path) : IsPromUrl url ⟨urlHost url, urlPort url, path⟩ := by
  unfold RefusedUrl at h
  push Not at h
  obtain ⟨hhttp, hne, hcolon⟩ := h
  obtain ⟨s, rfl⟩ := startsWith_iff.mp (Bool.eq_true_of_not_eq_false hhttp)
  have hseven : (str "http://" ++ s).drop 7 = s := rfl
  have hhost : ∀ b ∈ urlHost (str "http://" ++ s), inHost b = true :=
    fun b hb => List.mem_takeWhile_imp hb
  have hsplit : s = urlHost (str "http://" ++ s) ++ urlRest (str "http://" ++ s) := by
    unfold urlHost urlRest
    rw [hseven, List.takeWhile_append_dropWhile]
  by_cases hport : startsWith (urlRest (str "http://" ++ s)) (str ":") = true
  · obtain ⟨hdigits, hle, hpos⟩ := hcolon hport
    obtain ⟨t, ht⟩ := startsWith_iff.mp hport
    have hone : (str ":" ++ t).drop 1 = t := rfl
    have hall : ∀ b ∈ urlDigits (str "http://" ++ s), isDigit b = true :=
      fun b hb => List.mem_takeWhile_imp hb
    have hrest : urlRest (str "http://" ++ s) = (ch ':' :: urlDigits (str "http://" ++ s))
        ++ urlTail (str "http://" ++ s) := by
      unfold urlTail urlDigits
      rw [if_pos hport, ht, hone, List.cons_append, List.takeWhile_append_dropWhile]
      rfl
    refine ⟨ch ':' :: urlDigits (str "http://" ++ s), urlTail (str "http://" ++ s), ?_, hne, hhost, ?_,
      hpath⟩
    · dsimp only
      rw [← hrest, ← hsplit]
    · unfold urlPort
      rw [if_pos hport]
      exact .given _ hdigits hall (by omega) (by omega)
  · have hrest : urlRest (str "http://" ++ s) = urlTail (str "http://" ++ s) := by
      unfold urlTail
      rw [if_neg hport]
    refine ⟨[], urlTail (str "http://" ++ s), ?_, hne, hhost, ?_, hpath⟩
    · dsimp only
      rw [List.nil_append, ← hrest, ← hsplit]
    · unfold urlPort
      rw [if_neg hport]
      exact .default

/-! ## The parser by the places -/

theorem length_urlTail_le (url : Bytes) : (urlTail url).length ≤ url.length := by
  have hrest : (urlRest url).length ≤ url.length :=
    ((List.dropWhile_suffix _).length_le).trans (by rw [List.length_drop]; omega)
  unfold urlTail
  split
  · refine ((List.dropWhile_suffix _).length_le).trans ?_
    rw [List.length_drop]
    omega
  · exact hrest

/-- With a buffer of 512 bytes for the path, nothing is cut but the host. -/
theorem promParseUrl_eq {url : Bytes} (hlen : url.length ≤ 511) :
    promParseUrl url 256 512
      = if RefusedUrl url then none
        else some ⟨(urlHost url).take 255, urlPort url,
          if startsWith (urlTail url) (str "/") then urlTail url else str "/"⟩ := by
  have htail := length_urlTail_le url
  have hpath : promUrlPath (urlTail url) 512
      = if startsWith (urlTail url) (str "/") then urlTail url else str "/" := by
    unfold promUrlPath
    rw [List.take_of_length_le (by omega)]
  have hcut : (urlHost url).take 255 = [] ↔ urlHost url = [] := by
    rw [List.take_eq_nil_iff]
    simp
  have hparts : promParseUrl url 256 512
      = if startsWith url (str "http://") = true then
          if (urlHost url).take 255 = [] then none
          else if startsWith (urlRest url) (str ":") then
            if urlDigits url = [] ∨ 65535 < natValue (urlDigits url) ∨ natValue (urlDigits url) = 0
            then none
            else some ⟨(urlHost url).take 255, natValue (urlDigits url),
              promUrlPath (((urlRest url).drop 1).dropWhile isDigit) 512⟩
          else some ⟨(urlHost url).take 255, 80, promUrlPath (urlRest url) 512⟩
        else none := by
    unfold promParseUrl
    simp only [ne_eq, OfNat.ofNat_ne_zero, not_false_eq_true, true_and]
    rfl
  rw [hparts]
  by_cases hhttp : startsWith url (str "http://") = true
  case neg =>
    have hrefused : RefusedUrl url := Or.inl (by simpa using hhttp)
    rw [if_neg hhttp, if_pos hrefused]
  rw [if_pos hhttp]
  by_cases hne : urlHost url = []
  case pos =>
    have hrefused : RefusedUrl url := Or.inr (Or.inl hne)
    rw [if_pos (hcut.mpr hne), if_pos hrefused]
  rw [if_neg (fun h => hne (hcut.mp h))]
  -- what is left to refuse is the port
  have hleft : RefusedUrl url ↔ startsWith (urlRest url) (str ":") = true
      ∧ (urlDigits url = [] ∨ 65535 < natValue (urlDigits url) ∨ natValue (urlDigits url) = 0) := by
    unfold RefusedUrl
    simp [hhttp, hne]
  by_cases hcolon : startsWith (urlRest url) (str ":") = true
  · have htext : ((urlRest url).drop 1).dropWhile isDigit = urlTail url := by
      unfold urlTail
      rw [if_pos hcolon]
    have hport : urlPort url = natValue (urlDigits url) := by
      unfold urlPort
      rw [if_pos hcolon]
    rw [if_pos hcolon, htext, hpath, hport]
    by_cases hbad : urlDigits url = [] ∨ 65535 < natValue (urlDigits url)
        ∨ natValue (urlDigits url) = 0
    · rw [if_pos hbad, if_pos (hleft.mpr ⟨hcolon, hbad⟩)]
    · rw [if_neg hbad, if_neg (fun h => hbad (hleft.mp h).2)]
  · have htext : urlTail url = urlRest url := by
      unfold urlTail
      rw [if_neg hcolon]
    have hport : urlPort url = 80 := by
      unfold urlPort
      rw [if_neg hcolon]
    rw [if_neg hcolon, ← htext, hpath, hport, if_neg (fun h => hcolon (hleft.mp h).1)]

/--
**When the parser accepts exactly its form.**

A URL of at most 511 bytes is accepted if and only if it is `http://host[:port][/path]`, with
these parts, exactly if it is refused anyway, or its host is at most 255 bytes and nothing
stands between the port and the path.
-/
theorem promParseUrl_form_iff (url : Bytes) (hlen : url.length ≤ 511) :
    (∀ u, promParseUrl url 256 512 = some u ↔ IsPromUrl url u) ↔ CleanUrl url := by
  have hparse := promParseUrl_eq hlen
  by_cases hrefused : RefusedUrl url
  · rw [if_pos hrefused] at hparse
    refine ⟨fun _ => Or.inl hrefused, fun _ u => ?_⟩
    rw [hparse]
    exact ⟨fun h => absurd h (by simp), fun h => absurd hrefused h.places.1⟩
  · rw [if_neg hrefused] at hparse
    constructor
    · intro h
      obtain ⟨-, hhost, -, hpath⟩ := ((h _).mp hparse).places
      dsimp only at hhost
      refine Or.inr ⟨?_, (pathForm_iff.mp hpath).1⟩
      rw [hhost]
      exact List.length_take_le _ _
    · rintro (h | ⟨hhost, htail⟩)
      · exact absurd h hrefused
      · rw [List.take_of_length_le hhost] at hparse
        have hform := isPromUrl_of_places hrefused (pathForm_iff.mpr ⟨htail, rfl⟩)
        intro u
        rw [hparse, Option.some.injEq]
        constructor
        · rintro rfl
          exact hform
        · intro h
          -- the places of the URL leave no choice
          obtain ⟨-, hhost', hport', hpath'⟩ := h.places
          rw [hhost', hport', ← (pathForm_iff.mp hpath').2]

/-- The URL of an ordinary exporter is read as it is written. -/
theorem promParseUrl_exporter :
    IsPromUrl (str "http://exporter:9100/metrics") ⟨str "exporter", 9100, str "/metrics"⟩ :=
  ((promParseUrl_form_iff (str "http://exporter:9100/metrics") (by decide)).mpr
    (Or.inr (by decide +kernel)) _).mp (by decide +kernel)

/-- Text between the port and the path is ignored. -/
theorem promParseUrl_junk :
    promParseUrl (str "http://h:80junk/x") 256 512 = some ⟨str "h", 80, str "/"⟩
      ∧ ∀ u, ¬IsPromUrl (str "http://h:80junk/x") u := by
  refine ⟨by decide +kernel, fun u h => ?_⟩
  have htail : urlTail (str "http://h:80junk/x") = str "junk/x" := by decide +kernel
  have hpath := (pathForm_iff.mp h.places.2.2.2).1
  rw [htail] at hpath
  exact absurd hpath (by decide)

end Svgd.Backend
