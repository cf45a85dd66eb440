import Svgd.Proof.DatasourceStore
import Svgd.Lib.JsonLaws

/-!
# The datasource listing

`GET /_datasources` prints the stored texts between quotes, as they are. The frame is
right: the text is always one object with a default and a bracketed, comma-separated
list. So it is JSON for the stored list exactly when every stored text can stand between
quotes as it is. The scanner lets through what cannot: it cuts at the first quote,
escaped or not, and at 63 and 255 bytes, wherever a backslash or a character stands.
-/

namespace Svgd.Gate

open Lib

/-- The texts of the datasource need no escape in JSON. -/
structure Datasource.Readable (d : Datasource) : Prop where
  name_plain : JsonPlain d.name
  name_utf8 : validUtf8 d.name = true
  host_plain : JsonPlain d.host
  host_utf8 : validUtf8 d.host = true

/-- The value of one datasource. -/
def datasourceValue (d : Datasource) : Json :=
  .obj [(str "name", .str d.name), (str "host", .str d.host), (str "port", .num d.port)]

/-- The value the listing is meant to have. -/
def listingValue (ds : DatasourceList) : Json :=
  .obj [(str "default", .str ds.defaultName), (str "datasources", .arr (ds.items.map datasourceValue))]

/-! ## The text in pieces -/

theorem intercalate_eq_commaJoin (l : List Bytes) : List.intercalate (str ",") l = commaJoin l := by
  induction l with
  | nil => rfl
  | cons a l ih =>
      cases l with
      | nil => simp [commaJoin, List.intercalate]
      | cons b l =>
          rw [commaJoin, ← ih]
          rfl

/-- A member that is printed between quotes. -/
def textMember (key p : Bytes) (hkey : JsonPlain key) : Member :=
  ⟨key, quoted p, .str p, JsonPlain p, hkey, readsAs_string p⟩

/-- The member of the port. -/
def portMember (port : Int) : Member :=
  ⟨str "port", printInt port, .num port, True, by decide, by
    have h := readsAs_number (NumLit.ofInt port)
    rwa [text_ofInt, value_ofInt] at h⟩

/-- The members behind the name of a listed datasource. -/
def itemMembers (d : Datasource) : List Member :=
  [textMember (str "host") d.host (by decide), portMember d.port]

theorem listedItem_eq (d : Datasource) :
    listedItem d = ch '\x7b' :: (commaJoin ((textMember (str "name") d.name (by decide) ::
      itemMembers d).map Member.full) ++ [ch '\x7d']) := by
  have hname : str "\x7b\"name\":\"" = ch '\x7b' :: ch '"' :: (str "name" ++
      [ch '"', ch ':', ch '"']) := by decide
  have hhost : str "\",\"host\":\"" = [ch '"', ch ','] ++ (ch '"' :: (str "host" ++
      [ch '"', ch ':', ch '"'])) := by decide
  have hport : str "\",\"port\":" = [ch '"', ch ','] ++ (ch '"' :: (str "port" ++
      [ch '"', ch ':'])) := by decide
  have hclose : str "\x7d" = [ch '\x7d'] := rfl
  rw [listedItem, hname, hhost, hport, hclose]
  simp [commaJoin, Member.full, itemMembers, textMember, portMember, quoted]

theorem readsAs_listedItem (d : Datasource) :
    ReadsAs (listedItem d) (datasourceValue d) (JsonPlain d.name ∧ JsonPlain d.host) := by
  have h := readsAs_object (textMember (str "name") d.name (by decide)) (itemMembers d)
  rw [listedItem_eq]
  exact h.congr (by simp [itemMembers, textMember, portMember])

theorem utf8Piece_listedItem (d : Datasource) :
    Utf8Piece (listedItem d) (validUtf8 d.name = true ∧ validUtf8 d.host = true) := by
  have hport : Utf8Piece (printInt d.port) True := text_ofInt d.port ▸ utf8Piece_number _
  have htail : Utf8Piece (str ",\"port\":" ++ (printInt d.port ++ str "\x7d")) True :=
    ((utf8Piece_ascii (by decide)).append (hport.append (utf8Piece_ascii (by decide)))).congr
      (by simp)
  have hhost : Utf8Piece (str ",\"host\":\"" ++ (d.host ++ ch '"' ::
      (str ",\"port\":" ++ (printInt d.port ++ str "\x7d")))) (validUtf8 d.host = true) :=
    ((utf8Piece_ascii (by decide)).append (Utf8Piece.of_ascii_cons (by decide) htail)).congr
      (by simp)
  have hname : str "\",\"host\":\"" = ch '"' :: str ",\"host\":\"" := by decide
  have hend : str "\",\"port\":" = ch '"' :: str ",\"port\":" := by decide
  have htext : listedItem d = str "\x7b\"name\":\"" ++ (d.name ++ ch '"' :: (str ",\"host\":\"" ++
      (d.host ++ ch '"' :: (str ",\"port\":" ++ (printInt d.port ++ str "\x7d"))))) := by
    rw [listedItem, hname, hend]
    simp
  rw [htext]
  exact ((utf8Piece_ascii (by decide)).append (Utf8Piece.of_ascii_cons (by decide) hhost)).congr
    (by simp)

/-- The text of the array, from its bracket to its bracket. -/
def listedArray (items : List Datasource) : Bytes :=
  ch '[' :: (commaJoin (items.map listedItem) ++ [ch ']'])

/-- The member of the array. -/
def arrayMember (items : List Datasource) : Member :=
  ⟨str "datasources", listedArray items, .arr (items.map datasourceValue),
    ∀ d ∈ items, JsonPlain d.name ∧ JsonPlain d.host, by decide,
    readsAs_array readsAs_listedItem items⟩

theorem listDatasources_eq (ds : DatasourceList) :
    listDatasources ds
      = ch '\x7b' :: (commaJoin ([textMember (str "default") ds.defaultName (by decide),
        arrayMember ds.items].map Member.full) ++ [ch '\x7d']) := by
  have hopen : str "\x7b\"default\":\"" = ch '\x7b' :: ch '"' :: (str "default" ++
      [ch '"', ch ':', ch '"']) := by decide
  have hmid : str "\",\"datasources\":[" = [ch '"', ch ','] ++ (ch '"' :: (str "datasources" ++
      [ch '"', ch ':', ch '['])) := by decide
  have hclose : str "]\x7d" = [ch ']', ch '\x7d'] := rfl
  rw [listDatasources, intercalate_eq_commaJoin, hopen, hmid, hclose]
  simp [commaJoin, Member.full, arrayMember, listedArray, textMember, quoted]

theorem readsAs_listing (ds : DatasourceList) :
    ReadsAs (listDatasources ds) (listingValue ds)
      (JsonPlain ds.defaultName ∧ ∀ d ∈ ds.items, JsonPlain d.name ∧ JsonPlain d.host) := by
  have h := readsAs_object (textMember (str "default") ds.defaultName (by decide))
    [arrayMember ds.items]
  rw [listDatasources_eq]
  exact h.congr (by simp [textMember, arrayMember])

theorem utf8Piece_listing (ds : DatasourceList) :
    Utf8Piece (listDatasources ds) (validUtf8 ds.defaultName = true
      ∧ ∀ d ∈ ds.items, validUtf8 d.name = true ∧ validUtf8 d.host = true) := by
  have htail : Utf8Piece (str ",\"datasources\":[" ++ (commaJoin (ds.items.map listedItem)
      ++ str "]\x7d")) (∀ d ∈ ds.items, validUtf8 d.name = true ∧ validUtf8 d.host = true) :=
    ((utf8Piece_ascii (by decide)).append ((utf8Piece_commaJoin utf8Piece_listedItem ds.items).append
      (utf8Piece_ascii (by decide)))).congr (by simp)
  have hmid : str "\",\"datasources\":[" = ch '"' :: str ",\"datasources\":[" := by decide
  have htext : listDatasources ds = str "\x7b\"default\":\"" ++ (ds.defaultName ++ ch '"' ::
      (str ",\"datasources\":[" ++ (commaJoin (ds.items.map listedItem) ++ str "]\x7d"))) := by
    rw [listDatasources, intercalate_eq_commaJoin, hmid]
    simp
  rw [htext]
  exact ((utf8Piece_ascii (by decide)).append (Utf8Piece.of_ascii_cons (by decide) htail)).congr
    (by simp)

/-- The listing decodes to the list exactly when all its texts can stand as they are. -/
theorem listing_decodes_iff {ds : DatasourceList} (hinv : StoreInv ds) :
    decodeJson (listDatasources ds) = some (listingValue ds) ↔ ∀ d ∈ ds.items, d.Readable := by
  rw [(readsAs_listing ds).decode, (utf8Piece_listing ds).valid]
  constructor
  · intro hgood d hd
    obtain ⟨⟨-, hplain⟩, -, hutf8⟩ := hgood
    exact ⟨(hplain d hd).1, (hutf8 d hd).1, (hplain d hd).2, (hutf8 d hd).2⟩
  · intro h
    have hdefault : JsonPlain ds.defaultName ∧ validUtf8 ds.defaultName = true :=
      hinv.default_of_items (P := fun p => JsonPlain p ∧ validUtf8 p = true) (by decide)
        fun d hd => ⟨(h d hd).name_plain, (h d hd).name_utf8⟩
    exact ⟨⟨hdefault.1, fun d hd => ⟨(h d hd).name_plain, (h d hd).host_plain⟩⟩,
      hdefault.2, fun d hd => ⟨(h d hd).name_utf8, (h d hd).host_utf8⟩⟩

/-! ## The buffer -/

theorem length_commaJoin_le {α : Type} {text : α → Bytes} {n : Nat} :
    ∀ l : List α, (∀ a ∈ l, (text a).length ≤ n) →
    (commaJoin (l.map text)).length ≤ l.length * (n + 1)
  | [], _ => by simp [commaJoin]
  | [a], h => by
      have ha := h a (by simp)
      simp only [List.map_cons, List.map_nil, commaJoin, List.length_cons, List.length_nil]
      omega
  | a :: b :: l, h => by
      have ha := h a (by simp)
      have ih := length_commaJoin_le (b :: l) fun x hx => h x (List.mem_cons_of_mem a hx)
      have hjoin : commaJoin ((a :: b :: l).map text)
          = text a ++ ch ',' :: commaJoin ((b :: l).map text) := rfl
      rw [hjoin, List.length_append, List.length_cons]
      simp only [List.length_cons] at ih ⊢
      rw [Nat.succ_mul] at ih ⊢
      rw [Nat.succ_mul] at ⊢
      omega

theorem length_listedItem {d : Datasource} (hv : d.Valid) : (listedItem d).length ≤ 352 := by
  have hname : (str "\x7b\"name\":\"").length = 9 := rfl
  have hhost : (str "\",\"host\":\"").length = 10 := rfl
  have hport : (str "\",\"port\":").length = 9 := rfl
  have hclose : (str "\x7d").length = 1 := rfl
  have hprint : (printInt d.port).length ≤ 5 := by
    have hpos := hv.port_pos
    have hle := hv.port_le
    unfold printInt
    rw [if_neg (by omega)]
    exact length_printNat_le (by omega) (by omega)
  have hn := hv.name_length
  have hh := hv.host_length
  rw [listedItem]
  simp only [List.length_append, hname, hhost, hport, hclose]
  omega

/-- The listing fits the buffer it is printed into: nothing is cut. -/
theorem listing_fits {ds : DatasourceList} (hinv : StoreInv ds) :
    (listDatasources ds).length < 4096 + ds.items.length * 256 := by
  have hopen : (str "\x7b\"default\":\"").length = 12 := rfl
  have hmid : (str "\",\"datasources\":[").length = 17 := rfl
  have hclose : (str "]\x7d").length = 2 := rfl
  have hdefault : ds.defaultName.length ≤ 63 :=
    hinv.default_of_items (P := fun p => p.length ≤ 63) (by simp)
      fun d hd => (hinv.valid d hd).name_length
  have hitems : (commaJoin (ds.items.map listedItem)).length ≤ ds.items.length * (352 + 1) :=
    length_commaJoin_le ds.items fun d hd => length_listedItem (hinv.valid d hd)
  have hroom : ds.items.length ≤ 16 := hinv.room
  rw [listDatasources, intercalate_eq_commaJoin]
  simp only [List.length_append, hopen, hmid, hclose]
  omega

/-! ## Runs -/

/--
**Runs that post only readable texts keep the listing readable.**

In every state such a run reaches, `GET /_datasources` with a valid token answers a text
that fits its buffer and decodes to the default and the stored datasources in order.
-/
theorem listing_after_run (reqs : List (Env × Bytes))
    (hposted : ∀ r ∈ reqs, ∀ d, postedDatasource (cstr r.2) = some d → d.Readable)
    (env : Env) (received : Bytes)
    (hget : startsWith (cstr received) (str "GET ") = true)
    (hpath : extractPath (cstr received) = some (str "/_datasources"))
    (htoken : hasValidToken env (cstr received) = true) :
    ∃ body, handleRequest env (runRequests {} reqs) received
        = ⟨[.listed, .respond (.json 200 body)], runRequests {} reqs⟩
      ∧ body.length < 4096 + (runRequests {} reqs).items.length * 256
      ∧ decodeJson body = some (listingValue (runRequests {} reqs)) := by
  have hinv := storeInv_runRequests reqs storeInv_empty
  have hreadable : ∀ d ∈ (runRequests {} reqs).items, d.Readable := by
    intro d hd
    rcases mem_runRequests reqs storeInv_empty d hd with h | ⟨r, hr, h⟩
    · simp at h
    · exact hposted r hr d h
  have hopt : startsWith (cstr received) (str "OPTIONS ") = false := by
    obtain ⟨t, ht⟩ := startsWith_iff.mp hget
    rw [ht]
    rfl
  refine ⟨listDatasources (runRequests {} reqs), ?_, listing_fits hinv,
    (listing_decodes_iff hinv).mpr hreadable⟩
  rw [handleRequest_datasources hpath (Or.inl rfl) hopt, if_pos htoken, routeDatasources, if_pos rfl,
    if_pos hget]
  rfl

/-- The request of the dashboard for the list. -/
def sampleListing : Bytes :=
  str "GET /_datasources HTTP/1.1\r\n" ++ sampleAuthorization ++ str "\r\n"

/-- After one ordinary `POST` the list can be read. -/
theorem listing_after_one_post :
    let ds := runRequests {} [(sampleEnv, samplePost)]
    ds.items = [⟨str "b1", str "10.0.0.1", 9000⟩]
      ∧ ∃ body, handleRequest sampleEnv ds sampleListing = ⟨[.listed, .respond (.json 200 body)], ds⟩
        ∧ body.length < 4096 + ds.items.length * 256
        ∧ decodeJson body = some (listingValue ds) := by
  intro ds
  have hitems : ds.items = [⟨str "b1", str "10.0.0.1", 9000⟩] :=
    congrArg DatasourceList.items runRequests_samplePost
  have hsample : postedDatasource (cstr samplePost) = some ⟨str "b1", str "10.0.0.1", 9000⟩
      ∧ startsWith (cstr sampleListing) (str "GET ") = true
      ∧ extractPath (cstr sampleListing) = some (str "/_datasources")
      ∧ hasValidToken sampleEnv (cstr sampleListing) = true := by
    decide +kernel
  obtain ⟨hposted, hget, hpath, htoken⟩ := hsample
  refine ⟨hitems, listing_after_run [(sampleEnv, samplePost)] ?_ sampleEnv sampleListing hget hpath
    htoken⟩
  intro r hr d hd
  rw [List.mem_singleton] at hr
  rw [hr, hposted] at hd
  injection hd with hd
  rw [← hd]
  exact ⟨by decide, by decide, by decide, by decide⟩

/-- One accepted `POST` with a quote in the name, and the listing is no JSON any more. -/
theorem listing_unreadable :
    let body := str "\x7b\"name\":\"a\\\"b\",\"host\":\"h\",\"port\":80\x7d"
    let ds := runRequests {} [(sampleEnv, postRequest body)]
    jsonDatasource body = some ⟨str "a\"b", str "h", 80⟩
      ∧ ds = ⟨[⟨str "a\\", str "h", 80⟩], str "a\\"⟩
      ∧ handleRequest sampleEnv ds sampleListing
        = ⟨[.listed, .respond (.json 200 (listDatasources ds))], ds⟩
      ∧ (decodeJson (listDatasources ds)).isNone = true := by
  decide +kernel

end Svgd.Gate
